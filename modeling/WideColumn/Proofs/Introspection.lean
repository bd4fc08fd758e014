import WideColumn.Proofs.Description
import WideColumn.Proofs.Idempotence
import WideColumn.Proofs.Run

/-!
# A table is read back from its description

A canonical table that the store describes in its system tables (`SystemRows.Describes`) is read
back by introspection with the canonical form that it had, and its indexes are found under the names
that the store gave to them, whatever the order of the rows is (`LiveTable.fetch_described`). Every
column has a row, so that a table without columns would have none and is taken for absent
(`LiveTable.fetch_without_columns`).
-/

namespace WideColumn

/-! ## Descriptions of tables -/

/-- The names that the store gives to indexes: under their targets, and under the keys of custom
ones. -/
structure IndexNames where
  onTarget : String → String
  custom : String → String

namespace TableShape

open Introspection

/-- What the store says of the columns of a table. -/
def layout (s : TableShape) : Layout where
  partitionKey := s.partitionKey
  clusteringKey := s.clusteringKey
  others := (Keyed.names s.columns).filter (· ∉ s.keyColumns)
  direction c := (Keyed.get? s.clusteringOrder c).getD "ASC"
  typeText c := ((Keyed.get? s.columns c).map Column.typeText).getD ""
  isStatic c := ((Keyed.get? s.columns c).map Column.isStatic).getD false

/-- The indexes of a table with their names. -/
def described (s : TableShape) (names : IndexNames) : List FoundIndex :=
  s.indexes.map (fun text => .onTarget text (.text (names.onTarget text))) ++
    s.customIndexes.map fun e => .custom e.2 (.text (names.custom e.1))

theorem mem_described {s : TableShape} {names : IndexNames} {f : FoundIndex}
    (hf : f ∈ s.described names) :
    (∃ text ∈ s.indexes, f = .onTarget text (.text (names.onTarget text))) ∨
      ∃ e ∈ s.customIndexes, f = .custom e.2 (.text (names.custom e.1)) := by
  rcases List.mem_append.1 hf with hf | hf
  · obtain ⟨text, htext, rfl⟩ := List.mem_map.1 hf
    exact .inl ⟨text, htext, rfl⟩
  · obtain ⟨e, he, rfl⟩ := List.mem_map.1 hf
    exact .inr ⟨e, he, rfl⟩

/-- The table is canonical, and the store has words for everything in it. -/
structure IsDescribable (s : TableShape) : Prop where
  canonical : s.canonical = .ok s
  names : (Keyed.names s.columns).Nodup
  types : ∀ e ∈ s.columns, e.2.HasReadableType
  keyNodup : s.keyColumns.Nodup
  key : ∀ c ∈ s.keyColumns, ∃ column, (c, column) ∈ s.columns ∧ column.isStatic = false
  directions : ∀ e ∈ s.clusteringOrder, Layout.IsDirection e.2
  customIndexes : ∀ e ∈ s.customIndexes, e.2.IsDescribable
  viewNames : (Keyed.names s.views).Nodup
  views : ∀ e ∈ s.views, e.2.IsDescribable

end TableShape

/-- The rows describe the table, in any order. -/
structure SystemRows.Describes (r : SystemRows) (keyspace table : String) (names : IndexNames)
    (s : TableShape) : Prop where
  columns : (r.find .columns table).Perm
    (s.layout.places.map fun c => .map (s.layout.row keyspace table c))
  indexes : (r.find .indexes table).Perm
    ((s.described names).map fun f => .map (f.row keyspace table))
  views : (r.find .views table).Perm (s.views.map fun e => .map (View.row keyspace table e))
  viewColumns : ∀ e ∈ s.views, (r.find .columns e.1).Perm
    ((e.2.layout s.columns).places.map fun c => .map ((e.2.layout s.columns).row keyspace e.1 c))

/-! ## What is put together -/

namespace TableShape.IsDescribable

open Introspection

variable {s : TableShape} (h : s.IsDescribable)
include h

theorem canonicalTargets : TableShape.canonicalTargets s.indexes = .ok s.indexes ∧
    s.canonicalWith s.indexes = s := by
  obtain ⟨targets, htargets, hform⟩ := TableShape.canonical_ok h.canonical
  obtain rfl : s.indexes = targets := congrArg TableShape.indexes hform
  exact ⟨htargets, hform.symm⟩

theorem hasDistinctNames : s.HasDistinctNames :=
  ⟨h.names, h.viewNames, fun e he => (h.customIndexes e he).options⟩

theorem isCanonical : s.IsCanonical := h.hasDistinctNames.isCanonical h.canonical

theorem column_canonical {name : String} {c : Column} (hc : (name, c) ∈ s.columns) :
    c.canonical = c := by
  have hcolumns := congrArg TableShape.columns h.canonicalTargets.2
  unfold canonicalWith at hcolumns
  have hsame := List.map_inj_left.1 (hcolumns.trans (List.map_id _).symm) (name, c) hc
  exact (Prod.mk.inj hsame).2

/-- The columns of the table are those that have a place. -/
theorem names_perm : (s.layout.places.map (·.1)).Perm (Keyed.names s.columns) := by
  have hsub : ∀ c ∈ s.keyColumns, c ∈ Keyed.names s.columns := by
    intro c hc
    obtain ⟨column, hmem, -⟩ := h.key c hc
    exact Keyed.mem_names_of_mem hmem
  rw [Layout.names_places]
  have hnodup : (s.keyColumns ++ s.layout.others).Nodup := by
    refine List.nodup_append.2 ⟨h.keyNodup, h.names.filter _, ?_⟩
    rintro c hc d hd rfl
    simpa [hc] using (List.mem_filter.1 hd).2
  refine (List.perm_ext_iff_of_nodup hnodup h.names).2 fun c => ?_
  by_cases hc : c ∈ s.keyColumns
  · simp [hc, hsub c hc]
  · simp [hc, layout]

/-- The column of a place, as the row of the place tells it. -/
theorem exists_column {c : String × Place} (hc : c ∈ s.layout.places) :
    ∃ column, (c.1, column) ∈ s.columns ∧ (c.2.kind == "static") = column.isStatic := by
  have hkey : ∀ x ∈ s.keyColumns, ∀ place : Place, place.kind ≠ "static" →
      ∃ column, (x, column) ∈ s.columns ∧ (place.kind == "static") = column.isStatic := by
    intro x hx place hplace
    obtain ⟨column, hmem, hstatic⟩ := h.key x hx
    exact ⟨column, hmem, by simp [hplace, hstatic]⟩
  unfold Layout.places at hc
  rcases List.mem_append.1 hc with hc | hc
  · rcases List.mem_append.1 hc with hc | hc <;> obtain ⟨x, hx, rfl⟩ := List.mem_map.1 hc
    · exact hkey x.1 (List.mem_append_left _ (List.fst_mem_of_mem_zipIdx hx)) _ (by simp)
    · exact hkey x.1 (List.mem_append_right _ (List.fst_mem_of_mem_zipIdx hx)) _ (by simp)
  · obtain ⟨x, hx, rfl⟩ := List.mem_map.1 hc
    obtain ⟨⟨x', column⟩, hmem, rfl⟩ := List.mem_map.1 (List.mem_filter.1 hx).1
    have hstatic : s.layout.isStatic x' = column.isStatic := by
      simp [layout, Keyed.get?_of_mem h.names hmem]
    refine ⟨column, hmem, ?_⟩
    cases hcolumn : column.isStatic <;> simp [hstatic, hcolumn]

/-- The column rows are read as the columns of the table. -/
theorem columns_rows (keyspace table : String) {ps : List (String × Place)}
    (hperm : ps.Perm s.layout.places) : ∃ es : List (String × Column), es.Perm s.columns ∧
      (ps.map (s.layout.row keyspace table)).mapM column =
        .ok (es.map fun e => (.text e.1, e.2)) := by
  let read (c : String) : String × Column := (c, (Keyed.get? s.columns c).getD { type := "" })
  have hself : (Keyed.names s.columns).map read = s.columns := by
    unfold Keyed.names
    rw [List.map_map]
    refine (List.map_congr_left fun e he => ?_).trans (List.map_id _)
    simp [read, Keyed.get?_of_mem h.names he]
  refine ⟨(ps.map (·.1)).map read, ?_, ?_⟩
  · rw [← hself]
    exact ((hperm.map _).trans h.names_perm).map read
  · rw [List.map_map, List.map_map]
    refine mapM_map fun c hc => ?_
    obtain ⟨column, hmem, hstatic⟩ := h.exists_column (hperm.subset hc)
    have hget := Keyed.get?_of_mem h.names hmem
    have htext : s.layout.typeText c.1 = column.typeText := by simp [layout, hget]
    have hread := Layout.column_row keyspace table htext (h.types (c.1, column) hmem)
      (h.column_canonical hmem) hstatic
    simp [hread, read, hget]

/-- The indexes of the table can be read back. -/
theorem describable_indexes (names : IndexNames) :
    ∀ f ∈ s.described names, f.IsDescribable := by
  intro f hf
  rcases mem_described hf with ⟨text, htext, rfl⟩ | ⟨e, he, rfl⟩
  · exact form_of_canonicalTargets_self h.canonicalTargets.1 htext
  · exact h.customIndexes e he

end TableShape.IsDescribable

namespace Introspection

variable {s : TableShape} {names : IndexNames} {fs : List FoundIndex}

/-- The custom indexes, as often as they were found. -/
def customs (found : List FoundIndex) : List CustomIndex :=
  found.filterMap fun
    | .onTarget .. => none
    | .custom i _ => some i

theorem customIndexes_eq (fs : List FoundIndex) :
    customIndexes fs = Keyed.ofList ((customs fs).map fun i => (i.key, i)) := by
  unfold customIndexes customs
  rw [List.map_filterMap]
  congr 1
  refine List.filterMap_congr fun f _ => ?_
  cases f <;> rfl

section

variable (hperm : fs.Perm (s.described names))
include hperm

/-- The targets of the indexes that are found are those of the table. -/
theorem targets_perm : (targets fs).Perm s.indexes := by
  refine (hperm.filterMap _).trans (.of_eq ?_)
  simp [TableShape.described, List.filterMap_append, List.filterMap_map]

/-- The custom indexes that are found are those of the table. -/
theorem customs_perm : (customs fs).Perm (s.customIndexes.map (·.2)) := by
  refine (hperm.filterMap _).trans (.of_eq ?_)
  simp [TableShape.described, List.filterMap_append, List.filterMap_map]

/-- The names of indexes are listed under their targets. -/
theorem targetNames_eq : targetNames fs =
    putAll (((targets fs).map fun text => (text, names.onTarget text)).map
      fun e => (.text e.1, .text e.2)) := by
  unfold targetNames targets
  rw [List.map_filterMap, List.map_filterMap]
  congr 1
  refine List.filterMap_congr fun f hf => ?_
  rcases TableShape.mem_described (hperm.subset hf) with ⟨text, -, rfl⟩ | ⟨e, -, rfl⟩ <;> rfl

/-- The names of custom indexes are listed under their keys. -/
theorem customNames_eq (h : s.IsDescribable) : customNames fs =
    putAll (((customs fs).map fun i => (i.key, names.custom i.key)).map
      fun e => (.text e.1, .text e.2)) := by
  unfold customNames customs
  rw [List.map_filterMap, List.map_filterMap]
  congr 1
  refine List.filterMap_congr fun f hf => ?_
  rcases TableShape.mem_described (hperm.subset hf) with ⟨text, -, rfl⟩ | ⟨e, he, rfl⟩
  · rfl
  · simp [(h.isCanonical.customIndexes e he).1]

end

/-- The table as it is put together from columns, found indexes and views, its directions being
given in the order of some key. -/
def assembled (s : TableShape) (names : IndexNames) (table : String) (key : List String)
    (es : List (String × Column)) (fs : List FoundIndex) (ws : List (String × View)) :
    LiveTable where
  columns := es
  partitionKey := s.partitionKey
  clusteringKey := s.clusteringKey
  clusteringOrder := Keyed.ofList (key.map fun c => (c, s.layout.direction c))
  indexes := Ordered.all (targets fs)
  customIndexes := Keyed.ofList ((customs fs).map fun i => (i.key, i))
  views := ws
  table := table
  indexNames := Keyed.ofList ((targets fs).map fun text => (text, names.onTarget text))
  customIndexNames := Keyed.ofList ((customs fs).map fun i => (i.key, names.custom i.key))

section

variable (h : s.IsDescribable) (hfs : fs.Perm (s.described names)) {es : List (String × Column)}
  (hes : es.Perm s.columns) {ws : List (String × View)}
  (hws : (ws.map fun e => (e.1, e.2.canonical)).Perm s.views)
include h hes hws

theorem nodup_names : (Keyed.names es).Nodup ∧ (Keyed.names ws).Nodup := by
  refine ⟨(hes.map Prod.fst).nodup_iff.2 h.names, ?_⟩
  have hnames := hws.map Prod.fst
  rw [List.map_map] at hnames
  exact hnames.nodup_iff.2 h.viewNames

include hfs

/-- What was read is put together. -/
theorem assemble_rows (keyspace table : String) {ps : List (String × Place)}
    (hps : ps.Perm s.layout.places) : ∃ key : List String, key.Perm s.clusteringKey ∧
      assemble table (ps.map (s.layout.row keyspace table))
        (putAll (es.map fun e => (.text e.1, e.2))) fs
        (putAll (ws.map fun e => (.text e.1, e.2))) =
          .ok (assembled s names table key es fs ws) := by
  obtain ⟨hpartition, hclustering, key, hkey, horder⟩ :=
    Layout.readsKey (Layout.isDirection_get? h.directions) keyspace table hps
  obtain ⟨hcolumns, hviews⟩ := nodup_names h hes hws
  refine ⟨key, hkey, ?_⟩
  unfold assemble
  rw [hpartition, hclustering, horder, targetNames_eq hfs, customNames_eq hfs h, customIndexes_eq]
  simp only [bind, Except.bind, keyed_putAll, mapOf_putAll, positioned_texts,
    Keyed.ofList_of_nodup hcolumns, Keyed.ofList_of_nodup hviews]
  rfl

/-- What is put together is the table up to order, and has its custom indexes. -/
theorem assembled_rearranges (table : String) {key : List String}
    (hkey : key.Perm s.clusteringKey) :
    (assembled s names table key es fs ws).toTableShape.Rearranges s ∧
      (assembled s names table key es fs ws).customIndexes.Perm s.customIndexes := by
  have hcustoms : ((customs fs).map fun i => (i.key, i)).Perm s.customIndexes := by
    refine ((customs_perm hfs).map _).trans (.of_eq ?_)
    rw [List.map_map]
    refine (List.map_congr_left fun e he => ?_).trans (List.map_id _)
    exact Prod.ext (h.isCanonical.customIndexes e he).1.symm rfl
  have hkeys : (Keyed.names ((customs fs).map fun i => (i.key, i))).Nodup :=
    (hcustoms.map Prod.fst).nodup_iff.2 h.isCanonical.customKeys
  have hcustom : (assembled s names table key es fs ws).customIndexes.Perm s.customIndexes := by
    unfold assembled
    dsimp only
    rwa [Keyed.ofList_of_nodup hkeys]
  refine ⟨?_, hcustom⟩
  constructor
  · exact hes
  · rfl
  · rfl
  · exact Layout.canonicalOrder_read hkey _ fun _ _ => rfl
  · exact (Ordered.all_perm _).trans (targets_perm hfs)
  · exact hcustom.map _
  · refine hws.trans (.of_eq ?_)
    refine ((List.map_congr_left fun e he => ?_).trans (List.map_id _)).symm
    exact Prod.ext rfl (h.views e he).canonical

end

end Introspection

namespace TableShape.IsDescribable

variable {s t : TableShape} (h : s.IsDescribable)
include h

/-- The custom indexes of another shape with the same ones are told apart from them: under one key
there is one index. -/
theorem digestSeparates (hcustom : t.customIndexes.Perm s.customIndexes) (targets : List String) :
    (t.canonicalWith targets).DigestSeparates s := by
  rintro e he ⟨key, j⟩ hj hdigest
  obtain ⟨hmem, -⟩ := CustomIndex.mem_keyed he
  obtain ⟨⟨key', i⟩, hi, hform⟩ := List.mem_map.1 hmem
  have hi := hcustom.subset hi
  obtain ⟨hikey, hcanonical, -⟩ := h.isCanonical.customIndexes _ hi
  obtain rfl : key' = i.key := hikey
  obtain rfl : key = j.key := (h.isCanonical.customIndexes _ hj).1
  have hsame : e.2 = i := hform.symm.trans hcanonical
  have hkeys : i.key = j.key := hsame ▸ hdigest
  have hget := Keyed.get?_of_mem h.isCanonical.customKeys hi
  rw [hkeys, Keyed.get?_of_mem h.isCanonical.customKeys hj] at hget
  rw [hsame, Option.some.inj hget]

/-- A live table that is the described one up to order has the canonical form that was described. -/
theorem shape_eqv {l : LiveTable} (hnames : l.toTableShape.HasDistinctNames)
    (hsame : l.toTableShape.Rearranges s) (hcustom : l.customIndexes.Perm s.customIndexes) :
    ∃ c, (Describable.live l).shape = .ok c ∧ c.eqv s = true := by
  obtain ⟨htargets, hself⟩ := h.canonicalTargets
  obtain ⟨targets, htargets'⟩ := canonicalTargets_ok fun text htext =>
    (form_of_canonicalTargets_self htargets (hsame.indexes.subset htext)).imp
      fun _ htarget => htarget.1
  have hshape : (Describable.live l).shape = .ok (l.toTableShape.canonicalWith targets) :=
    Describable.canonicalOf_eq htargets'
  refine ⟨_, hshape, ?_⟩
  have hmatches := hsame.matches hnames htargets' htargets
  rw [hself] at hmatches
  exact (eqv_iff (hnames.isCanonical (Describable.canonicalOf_ok hshape)) h.isCanonical
    (h.digestSeparates hcustom targets)).2 hmatches

end TableShape.IsDescribable

/-! ## Asking the store -/

/-- The store answers from the rows, and none of its next answers is a failure. -/
structure Store.Answers (store : Store) (r : SystemRows) : Prop where
  system : store.system = r
  failures : ∀ f ∈ store.failures, f = none

namespace Action

variable {r : SystemRows} {α β : Type} {a : Action α} {f : α → Action β} {x : α} {y : β}

/-- The action ends with the value when the store answers from the rows, and leaves it so. -/
def Finds (r : SystemRows) (a : Action α) (x : α) : Prop :=
  ∀ s : Session, s.store.Answers r → ∃ s', a.perform s = (.ok x, s') ∧ s'.store.Answers r

namespace Finds

theorem pure (x : α) : Finds r (Pure.pure x) x := fun s hs => ⟨s, rfl, hs⟩

theorem bind (ha : Finds r a x) (hf : Finds r (f x) y) : Finds r (a >>= f) y := by
  intro s hs
  obtain ⟨s₁, hs₁, hstore⟩ := ha s hs
  obtain ⟨s₂, hs₂, hstore'⟩ := hf s₁ hstore
  refine ⟨s₂, ?_, hstore'⟩
  rw [perform_bind, hs₁]
  exact hs₂

theorem lift {e : Except Failure α} (h : e = .ok x) : Finds r (Action.lift e) x := by
  subst h
  exact pure x

theorem note (level : Int) (logger message : String) (extras : List (String × Value)) :
    Finds r (Action.note level logger message extras) () := fun _ hs => ⟨_, rfl, hs⟩

theorem attempt (ha : Finds r a x) : Finds r (Action.attempt a) (.ok x) := by
  intro s hs
  obtain ⟨s', hs', hstore⟩ := ha s hs
  refine ⟨s', ?_, hstore⟩
  rw [perform_attempt, hs']

/-- A span does not concern the store. -/
theorem traced (name : String) (attributes : List (Value × Value)) (ha : Finds r a x) :
    Finds r (Action.traced name attributes a) x := by
  intro s hs
  obtain ⟨s₁, hs₁, hstore⟩ := ha ((openSpan name attributes).perform s).2 hs
  have hpair : ((·, none) <$> a : Action (α × Option Failure)).perform
      ((openSpan name attributes).perform s).2 = (.ok (x, none), s₁) := by
    rw [perform_map, hs₁]
    rfl
  obtain ⟨s₂, hs₂, hquiet⟩ : ∃ s₂, (tracedOutcome name attributes ((·, none) <$> a)).perform s =
      (.ok (x, none), s₂) ∧ s₁.Quiet s₂ := tracedOutcome_ok rfl hpair
  refine ⟨s₂, ?_, hquiet.store ▸ hstore⟩
  unfold Action.traced
  rw [perform_map, hs₂]
  rfl

/-- The store answers a query on a system table with the rows of the table that is asked for. -/
theorem run (keyspace : Value) (kind : SystemTable) (table : String) (options : ExecutionOptions) :
    Finds r (Store.run kind.query [keyspace, .text table] options) (r.find kind table) := by
  intro s hs
  have hrows : s.store.rowsFor kind.query [keyspace, .text table] = r.find kind table := by
    have hkind : [SystemTable.columns, .indexes, .views].find? (fun t => t.query == kind.query) =
        some kind := by
      cases kind <;> decide
    unfold Store.rowsFor
    rw [hkind, hs.system]
  have hanswer : (Store.run kind.query [keyspace, .text table] options).perform s =
      (.ok (s.store.rowsFor kind.query [keyspace, .text table]), { s with store := { s.store with
        sent := ⟨kind.query, [keyspace, .text table], options⟩ :: s.store.sent
        failures := s.store.failures.drop 1 } }) := by
    unfold Store.run
    simp only [perform_bind, perform_get, perform_set]
    cases hfailures : s.store.failures with
    | nil => rfl
    | cons failure failures =>
      obtain rfl := hs.failures failure (by simp [hfailures])
      rfl
  rw [hrows] at hanswer
  exact ⟨_, hanswer, hs.system, fun failure hmem => hs.failures failure (List.mem_of_mem_drop hmem)⟩

/-- A query ends with the rows as entries. -/
theorem query {keyspace : Value} {kind : SystemTable} {table : String}
    {rows : List Introspection.Row} (h : r.find kind table = rows.map .map) :
    Finds r (Introspection.query kind [keyspace, .text table]) rows := by
  have hentries : (r.find kind table).mapM Value.toEntries = .ok rows := by
    have hread : (rows.map Value.map).mapM Value.toEntries = .ok (rows.map id) :=
      Introspection.mapM_map fun _ _ => rfl
    rw [h, hread, List.map_id]
  exact ((run keyspace kind table .definition).bind (lift hentries)).attempt.bind (pure rows)

end Finds

end Action

/-! ## Whole tables -/

namespace Introspection

open WideColumn.Action

variable {r : SystemRows} {keyspace table : String}

/-- The views are read one after the other, each with its columns. -/
theorem views_rows (table : String) {columns : List (String × Column)} :
    ∀ {vs : List (String × View)},
    (∀ e ∈ vs, e.2.IsDescribable ∧ (r.find .columns e.1).Perm
      ((e.2.layout columns).places.map fun c => .map ((e.2.layout columns).row keyspace e.1 c))) →
    ∃ ws : List (String × View), ws.map (fun e => (e.1, e.2.canonical)) = vs ∧
      Finds r (views (.text keyspace) (vs.map (View.row keyspace table)))
        (ws.map fun e => (.text e.1, e.2))
  | [], _ => ⟨[], rfl, .pure []⟩
  | (name, v) :: vs, h => by
    obtain ⟨⟨hv, hcolumns⟩, hrest⟩ := List.forall_mem_cons.1 h
    obtain ⟨ws, rfl, hws⟩ := views_rows table hrest
    obtain ⟨ps, hps, hperm⟩ := exists_of_perm_map hcolumns
    obtain ⟨w, hw, hcanonical⟩ := hv.view_rows keyspace table name columns hperm
    refine ⟨(name, w) :: ws, by rw [List.map_cons, hcanonical], ?_⟩
    have hname : requiredPart (View.row keyspace table (name, v)) "view_name" =
        .ok (.text name) := by
      simp [requiredPart, View.row, Value.get?_text_cons]
    have hquery : Finds r (query .columns [.text keyspace, .text name])
        (ps.map ((v.layout columns).row keyspace name)) := by
      refine .query ?_
      rw [hps, List.map_map]
      rfl
    exact (Finds.lift hname).bind (hquery.bind ((Finds.lift hw).bind ((Finds.lift rfl).bind
      (hws.bind (.pure _)))))

/-- A described table with columns is read from its rows. -/
theorem read_rows {s : TableShape} {names : IndexNames} (h : s.IsDescribable)
    (hcolumns : s.columns ≠ []) (hr : r.Describes keyspace table names s) :
    ∃ key es fs ws, key.Perm s.clusteringKey ∧ es.Perm s.columns ∧
      fs.Perm (s.described names) ∧ (ws.map fun e => (e.1, e.2.canonical)).Perm s.views ∧
      Finds r (read (.text keyspace) table) (some (assembled s names table key es fs ws)) := by
  obtain ⟨ps, hps, hplaces⟩ := exists_of_perm_map hr.columns
  obtain ⟨fs, hfs, hfound⟩ := exists_of_perm_map hr.indexes
  obtain ⟨vs, hvs, hviews⟩ := exists_of_perm_map hr.views
  obtain ⟨es, hes, hread⟩ := h.columns_rows keyspace table hplaces
  obtain ⟨ws, hws, hfinds⟩ := views_rows table fun e he =>
    ⟨h.views e (hviews.subset he), hr.viewColumns e (hviews.subset he)⟩
  obtain ⟨key, hkey, hassemble⟩ := assemble_rows h hfound hes (hws ▸ hviews) keyspace table hplaces
  refine ⟨key, es, fs, ws, hkey, hes, hfound, hws ▸ hviews, ?_⟩
  have hindexes : (fs.map fun f => f.row keyspace table).mapM index = .ok (fs.map id) :=
    mapM_map fun f hf => index_row (h.describable_indexes names f (hfound.subset hf)) keyspace table
  rw [List.map_id] at hindexes
  have hnonempty : ps ≠ [] := by
    rintro rfl
    have hnames := (hplaces.map (·.1)).trans h.names_perm
    exact hcolumns (List.map_eq_nil_iff.1 (List.nil_perm.1 hnames))
  obtain ⟨c, ps, rfl⟩ := List.exists_cons_of_ne_nil hnonempty
  have hquery : ∀ {kind : SystemTable} {γ : Type} {xs : List γ} {row : γ → Row},
      r.find kind table = xs.map (fun x => .map (row x)) →
        Finds r (query kind [.text keyspace, .text table]) (xs.map row) := by
    intro kind γ xs row hrows
    refine .query ?_
    rw [hrows, List.map_map]
    rfl
  unfold read
  refine (hquery hps).bind ?_
  dsimp only [List.map_cons]
  exact (Finds.lift hread).bind ((hquery hfs).bind ((Finds.lift hindexes).bind ((hquery hvs).bind
    (hfinds.bind ((Finds.lift hassemble).bind ((Finds.note _ _ _ _).bind (.pure _)))))))

end Introspection

namespace LiveTable

/-- A described table with columns is read back, whatever the order of the rows is: the table that
is read has the canonical form that was described, and each of its indexes is found under its target
or its key by the name in its row. -/
theorem fetch_described {s : TableShape} {r : SystemRows} {names : IndexNames}
    {keyspace table : String} (h : s.IsDescribable) (hcolumns : s.columns ≠ [])
    (hr : r.Describes keyspace table names s) :
    ∃ l : LiveTable,
      (∀ session : Session, session.store.Answers r → ∃ session',
        (fetch (.text keyspace) table).perform session = (.ok (some l), session')) ∧
      (∃ c, (Describable.live l).shape = .ok c ∧ c.eqv s = true) ∧
      (∀ text, Keyed.get? l.indexNames text =
        if text ∈ s.indexes then some (names.onTarget text) else none) ∧
      ∀ key, Keyed.get? l.customIndexNames key =
        if key ∈ Keyed.names s.customIndexes then some (names.custom key) else none := by
  obtain ⟨key, es, fs, ws, hkey, hes, hfs, hws, hfinds⟩ := Introspection.read_rows h hcolumns hr
  obtain ⟨hsame, hcustom⟩ := Introspection.assembled_rearranges h hfs hes hws table hkey
  obtain ⟨hcolumnNames, hviewNames⟩ := Introspection.nodup_names h hes hws
  refine ⟨Introspection.assembled s names table key es fs ws, fun session hstore => ?_,
    h.shape_eqv ⟨hcolumnNames, hviewNames, fun e he => ?_⟩ hsame hcustom, fun text => ?_,
    fun key => ?_⟩
  · obtain ⟨session', hfetch, -⟩ :=
      hfinds.traced "cqlflow.schema.fetch_live_schema" [] session hstore
    exact ⟨session', hfetch⟩
  · exact (h.customIndexes e (hcustom.subset he)).options
  · refine (Keyed.get?_ofList_map_iff _ _ text).trans ?_
    simp only [(Introspection.targets_perm hfs).mem_iff]
  · have hkeys : key ∈ (Introspection.customs fs).map CustomIndex.key ↔
        key ∈ Keyed.names s.customIndexes := by
      rw [((Introspection.customs_perm hfs).map _).mem_iff, List.map_map]
      refine iff_of_eq (congrArg (key ∈ ·) (List.map_congr_left fun e he => ?_))
      exact (h.isCanonical.customIndexes e he).1.symm
    have hnames : (Introspection.customs fs).map (fun i => (i.key, names.custom i.key)) =
        ((Introspection.customs fs).map CustomIndex.key).map fun k => (k, names.custom k) := by
      rw [List.map_map]
      rfl
    change Keyed.get? (Keyed.ofList ((Introspection.customs fs).map
      fun i => (i.key, names.custom i.key))) key = _
    rw [hnames, Keyed.get?_ofList_map_iff]
    simp only [hkeys]

/-! ### Events of users -/

/-- An index of a search implementation on the kind of events. -/
def prefixesOfKind : CustomIndex := ⟨"kind", "sasi", [("mode", "PREFIX")]⟩

/-- The view of events by kind. -/
def eventsByKind : View :=
  ⟨["at", "id", "kind"], ["kind"], ["id", "at"], [("id", "ASC"), ("at", "DESC")]⟩

/-- Events as the store keeps them. -/
def events : TableShape where
  columns := [("id", { type := "uuid" }), ("at", { type := "timestamp" }),
    ("kind", { type := "text" }), ("tags", { type := "set", argument := some "<text>" }),
    ("owner", { type := "text", isStatic := true })]
  partitionKey := ["id"]
  clusteringKey := ["at"]
  clusteringOrder := [("at", "DESC")]
  indexes := ["keys(tags)", "kind"]
  customIndexes := [(prefixesOfKind.key, prefixesOfKind)]
  views := [("events_by_kind", eventsByKind)]

/-- The names of the indexes of events. -/
def eventIndexes : IndexNames where
  onTarget text := if text = "kind" then "events_kind_idx" else "events_tags_idx"
  custom _ := "events_kind_prefixes"

/-- The rows that describe events, the last ones first. -/
def eventRows : SystemRows where
  columns := [
    ("events", (events.layout.places.map fun c =>
      .map (events.layout.row "shop" "events" c)).reverse),
    ("events_by_kind", ((eventsByKind.layout events.columns).places.map fun c =>
      .map ((eventsByKind.layout events.columns).row "shop" "events_by_kind" c)).reverse)]
  indexes := [("events", ((events.described eventIndexes).map fun f =>
    .map (f.row "shop" "events")).reverse)]
  views := [("events", (events.views.map fun e => .map (View.row "shop" "events" e)).reverse)]

theorem events_describable : events.IsDescribable := by
  constructor
  · with_unfolding_all rfl
  · decide
  · have hknown : ∀ e ∈ events.columns, (ColumnType.ofName? e.2.type).isSome ∧
        (e.2.argument = none ∨ e.2.argument = some "<text>") := by decide
    intro e he
    obtain ⟨htype, hargument⟩ := hknown e he
    obtain ⟨type, htype⟩ := Option.isSome_iff_exists.1 htype
    refine Column.HasKnownType.isReadable ⟨⟨type, ColumnType.ofName?_eq_some htype⟩, ?_⟩
    intro a ha
    rcases hargument with hnone | hsome
    · rw [hnone] at ha
      cases ha
    · rw [hsome] at ha
      cases ha
      exact .inr (by decide)
  · decide
  · simp [events, TableShape.keyColumns]
  · decide
  · intro e he
    obtain rfl := List.mem_singleton.1 he
    exact ⟨by decide, by decide, by decide, by decide⟩
  · decide
  · intro e he
    obtain rfl := List.mem_singleton.1 he
    exact ⟨by with_unfolding_all rfl, by decide, .inr (by decide)⟩

theorem eventRows_describes : eventRows.Describes "shop" "events" eventIndexes events := by
  constructor
  · exact List.reverse_perm _
  · exact List.reverse_perm _
  · exact List.reverse_perm _
  · intro e he
    obtain rfl := List.mem_singleton.1 he
    exact List.reverse_perm _

/-- Events are read back from rows in which everything comes backwards. -/
theorem fetch_described_events :
    events.IsDescribable ∧ events.columns ≠ [] ∧
    eventRows.Describes "shop" "events" eventIndexes events ∧
    ∃ l session', (fetch (.text "shop") "events").perform { store := { system := eventRows } } =
        (.ok (some l), session') ∧
      (∃ c, (Describable.live l).shape = .ok c ∧ c.eqv events = true) ∧
      Keyed.get? l.indexNames "keys(tags)" = some "events_tags_idx" ∧
      Keyed.get? l.customIndexNames prefixesOfKind.key = some "events_kind_prefixes" := by
  have hcolumns : events.columns ≠ [] := by decide
  obtain ⟨l, hfetch, hshape, hindexes, hcustom⟩ :=
    fetch_described events_describable hcolumns eventRows_describes
  obtain ⟨session', hsession⟩ :=
    hfetch { store := { system := eventRows } } ⟨rfl, fun _ hmem => nomatch hmem⟩
  refine ⟨events_describable, hcolumns, eventRows_describes, l, session', hsession, hshape, ?_, ?_⟩
  · rw [hindexes, if_pos (by decide)]
    decide
  · have hkey : prefixesOfKind.key ∈ Keyed.names events.customIndexes := List.mem_singleton.2 rfl
    rw [hcustom, if_pos hkey]
    rfl

/-! ### Nothing at all -/

/-- A table of which no column has a row is not there. -/
theorem fetch_absent {r : SystemRows} {table : String} (h : r.find .columns table = [])
    (keyspace : Value) {session : Session} (hstore : session.store.Answers r) :
    ∃ session', (fetch keyspace table).perform session = (.ok none, session') := by
  have hread : Action.Finds r (Introspection.read keyspace table) none := by
    have hquery : Action.Finds r (Introspection.query .columns [keyspace, .text table]) [] :=
      .query h
    unfold Introspection.read
    exact hquery.bind ((Action.Finds.note _ _ _ _).bind (.pure none))
  obtain ⟨session', hfetch, -⟩ :=
    hread.traced "cqlflow.schema.fetch_live_schema" [] session hstore
  exact ⟨session', hfetch⟩

/-- A table without anything in it. -/
def nothing : TableShape where
  columns := []
  partitionKey := []

/-- Without columns there are no rows: the table is described by none, and is taken for absent. -/
theorem fetch_without_columns :
    nothing.IsDescribable ∧ SystemRows.Describes {} "shop" "nothing" eventIndexes nothing ∧
    ∃ session', (fetch (.text "shop") "nothing").perform {} = (.ok none, session') := by
  refine ⟨⟨rfl, .nil, ?_, .nil, ?_, ?_, ?_, .nil, ?_⟩, ⟨.nil, .nil, .nil, ?_⟩,
    fetch_absent (r := {}) rfl (.text "shop") ⟨rfl, fun _ hmem => nomatch hmem⟩⟩ <;>
  exact fun _ hmem => nomatch hmem

end LiveTable

end WideColumn
