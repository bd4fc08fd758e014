import WideColumn.Proofs.IndexNames

/-!
# Reading rows of the system tables

The store describes columns, indexes and views by rows of a fixed form (`SystemRows.IsWellFormed`).
Whatever is in such rows, most of it can be read: the key, the names and the directions of a table or
a view, and the table that is put together in the end. What may be unreadable is the type of a
column and the target of an index (`Store.Unreadable`), because both are texts with a grammar of
their own, which the types and the options of the store need not follow. The failure to read them is
passed on as it is, while every other failure of introspection is a refusal that the store made or
one that tells that a query failed (`LiveTable.fetch_fails`).
-/

namespace WideColumn

namespace Introspection

open Coercion

/-! ## Rows -/

/-- The row of a column. -/
structure ColumnRow where
  row : Row
  name : String
  type : String
  position : Int
  named : Value.get? row "column_name" = some (.text name)
  typed : Value.get? row "type" = some (.text type)
  placed : Value.get? row "position" = some (.int position)

/-- The row of an index; an index without options may have null for them. -/
structure IndexRow where
  row : Row
  name : String
  options : List (String × String)
  named : Value.get? row "index_name" = some (.text name)
  given : part row "options" = .map (options.map fun e => (.text e.1, .text e.2)) ∨
    part row "options" = .null ∧ options = []

/-- The row of a view. -/
structure ViewRow where
  row : Row
  name : String
  named : Value.get? row "view_name" = some (.text name)

theorem requiredPart_eq {row : Row} {key : String} {v : Value} (h : Value.get? row key = some v) :
    requiredPart row key = .ok v := by
  rw [requiredPart, h]

/-- An option of an index is a text, empty when there is none. -/
theorem option_texts (es : List (String × String)) (key : String) :
    (Value.get? (es.map fun e => (.text e.1, .text e.2)) key).getD (.text "") =
      .text ((Keyed.get? es key).getD "") := by
  induction es with
  | nil => rfl
  | cons e es ih =>
    rw [List.map_cons, Value.get?_text_cons, Keyed.get?_cons]
    split
    · rfl
    · exact ih

/-! ## Keys, names and directions -/

section

variable (cs : List ColumnRow)

/-- The columns of a kind are put in some order. -/
theorem keyColumns_columnRows (kind : String) : ∃ names : List String,
    keyColumns (cs.map ColumnRow.row) kind = .ok (names.map .text) := by
  obtain ⟨ys, hys, -⟩ :=
    keyColumns_map (fun c _ => requiredPart_eq c.named) kind fun c (_ : c ∈ cs) => c.placed
  exact ⟨ys.map ColumnRow.name, by rw [hys, List.map_map]; rfl⟩

/-- The names of all columns are put in order. -/
theorem columnNames_columnRows : ∃ names : List String,
    columnNames (cs.map ColumnRow.row) = .ok (names.map .text) := by
  obtain ⟨ys, hys, -⟩ := columnNames_map fun c (_ : c ∈ cs) => requiredPart_eq c.named
  exact ⟨ys.map ColumnRow.name, by rw [hys, List.map_map]; rfl⟩

/-- The directions of the clustering columns are read. -/
theorem clusteringOrder_columnRows : ∃ order : List (String × String),
    clusteringOrder (cs.map ColumnRow.row) =
      .ok (putAll (order.map fun e => (.text e.1, .text e.2))) :=
  ⟨_, clusteringOrder_map fun c _ => requiredPart_eq c.named⟩

/-- A view is read from the rows of its columns. -/
theorem view_columnRows (row : Row) : ∃ v, view row (cs.map ColumnRow.row) = .ok v := by
  obtain ⟨clustering, hclustering⟩ := keyColumns_columnRows cs "clustering"
  obtain ⟨partition, hpartition⟩ := keyColumns_columnRows cs "partition_key"
  obtain ⟨order, horder⟩ := clusteringOrder_columnRows cs
  obtain ⟨select, hselect⟩ : ∃ select : List String,
      selected row (cs.map ColumnRow.row) = .ok (select.map .text) := by
    unfold selected
    split
    · exact ⟨["*"], rfl⟩
    · exact columnNames_columnRows cs
  refine ⟨⟨select, partition, clustering, Keyed.ofList order⟩, ?_⟩
  rw [view_eq, hclustering, hselect, hpartition, horder]
  simp only [bind, Except.bind, positioned_texts, mapOf_putAll]
  rfl

/-- A table is put together from the rows of its columns and what else was read. -/
theorem assemble_columnRows (table : String) (columns : List (String × Column))
    {found : List FoundIndex} (hfound : ∀ f ∈ found, f.name = .text f.label)
    (views : List (String × View)) :
    ∃ l, assemble table (cs.map ColumnRow.row) (putAll (columns.map fun e => (.text e.1, e.2)))
      found (putAll (views.map fun e => (.text e.1, e.2))) = .ok l := by
  obtain ⟨clustering, hclustering⟩ := keyColumns_columnRows cs "clustering"
  obtain ⟨partition, hpartition⟩ := keyColumns_columnRows cs "partition_key"
  obtain ⟨order, horder⟩ := clusteringOrder_columnRows cs
  unfold assemble
  rw [hpartition, hclustering, horder, targetNames_labels hfound, customNames_labels hfound]
  simp only [bind, Except.bind, positioned_texts, mapOf_putAll, keyed_putAll]
  exact ⟨_, rfl⟩

end

/-! ## Types and targets -/

/-- The target of an index among the options of its row. -/
def targetOf (row : Row) : Value :=
  match part row "options" with
  | .map options => (Value.get? options "target").getD (.text "")
  | _ => .text ""

/-- The type of a column can be split. -/
def HasReadableType (row : Row) : Prop := ∃ parts, ColumnType.split (part row "type") = .ok parts

/-- The target of an index can be read. -/
def HasReadableTarget (row : Row) : Prop := ∃ target, IndexTarget.ofValue (targetOf row) = .ok target

theorem without_texts_eq (key : String) (es : List (String × String)) :
    without key (es.map fun e => (.text e.1, .text e.2)) =
      (Keyed.erase key es).map fun e => (.text e.1, .text e.2) := by
  unfold without Keyed.erase
  rw [List.filter_map]
  congr 1
  refine List.filter_congr fun e _ => ?_
  simp [Value.eqv_text, bne]

namespace ColumnRow

variable (c : ColumnRow)

theorem column_eq : column c.row = (do
    let (name, argument) ← ColumnType.split (part c.row "type")
    return (.text c.name, {
      type := ColumnType.canonicalName name
      argument := ColumnType.canonicalArgument argument
      isStatic := isKind "static" c.row })) := by
  have htype : requiredPart c.row "type" = .ok (part c.row "type") := by
    rw [requiredPart, part, c.typed]
    rfl
  unfold column
  rw [htype, requiredPart_eq c.named]
  rfl

/-- A column whose type can be split is read. -/
theorem column_ok {c : ColumnRow} (h : HasReadableType c.row) :
    ∃ e : String × Column, column c.row = .ok (.text e.1, e.2) := by
  obtain ⟨⟨name, argument⟩, hsplit⟩ := h
  rw [column_eq, hsplit]
  exact ⟨(c.name, _), rfl⟩

/-- Any other column fails with a value that is not as it should be. -/
theorem column_error {c : ColumnRow} (h : ¬ HasReadableType c.row) :
    ∃ message, column c.row = .error (.badValue message) := by
  have htype : part c.row "type" = .text c.type := by
    rw [part, c.typed]
    rfl
  rw [HasReadableType, htype] at h
  rw [column_eq, htype]
  unfold ColumnType.split at h ⊢
  dsimp only at h ⊢
  cases hsplit : ColumnType.split? c.type with
  | some parts =>
    rw [hsplit] at h
    exact absurd ⟨parts, rfl⟩ h
  | none => exact ⟨_, rfl⟩

end ColumnRow

namespace IndexRow

variable {i : IndexRow}

theorem optionsOf_eq (i : IndexRow) :
    optionsOf i.row = .ok (i.options.map fun e => (.text e.1, .text e.2)) := by
  unfold optionsOf
  rcases i.given with hmap | ⟨hnull, hnone⟩
  · rw [hmap]
    cases i.options <;> rfl
  · rw [hnull, hnone]
    rfl

theorem targetOf_eq (i : IndexRow) :
    targetOf i.row = .text ((Keyed.get? i.options "target").getD "") := by
  unfold targetOf
  rcases i.given with hmap | ⟨hnull, hnone⟩
  · rw [hmap]
    exact option_texts _ _
  · rw [hnull, hnone]
    rfl

theorem index_eq (i : IndexRow) : index i.row = (do
    if isKind "CUSTOM" i.row then
      let found ← customIndex (targetOf i.row)
        ((Keyed.erase "target" i.options).map fun e => (.text e.1, .text e.2))
      return .custom found (.text i.name)
    else
      let target ← IndexTarget.ofValue (targetOf i.row)
      return .onTarget target.canonical (.text i.name)) := by
  rw [Introspection.index_eq, optionsOf_eq, requiredPart_eq i.named, targetOf_eq, ← option_texts,
    ← without_texts_eq]
  rfl

/-- An index whose target can be read is read. -/
theorem index_ok (h : HasReadableTarget i.row) :
    ∃ f, index i.row = .ok f ∧ f.name = .text f.label := by
  obtain ⟨target, htarget⟩ := h
  rw [index_eq, htarget]
  split
  · unfold customIndex
    rw [htarget, option_texts]
    exact ⟨_, rfl, rfl⟩
  · exact ⟨_, rfl, rfl⟩

/-- Any other index fails with a value that is not as it should be. -/
theorem index_error (h : ¬ HasReadableTarget i.row) :
    ∃ message, index i.row = .error (.badValue message) := by
  obtain ⟨message, htarget⟩ : ∃ message,
      IndexTarget.ofValue (targetOf i.row) = .error (.badValue message) := by
    rw [HasReadableTarget, targetOf_eq] at h
    rw [targetOf_eq]
    unfold IndexTarget.ofValue at h ⊢
    dsimp only at h ⊢
    rcases htext : IndexTarget.ofText ((Keyed.get? i.options "target").getD "") with m | target
    · exact ⟨m, rfl⟩
    · rw [htext] at h
      exact absurd ⟨target, rfl⟩ h
  rw [index_eq, customIndex, htarget]
  split <;> exact ⟨message, rfl⟩

end IndexRow

/-! ## Lists of rows -/

section

variable {α β γ δ : Type} {f : α → Except Failure β} {row : γ → α} {xs : List γ}

/-- Rows that are read with values of a form are read as a list of them. -/
theorem exists_mapM {g : δ → β} (h : ∀ x ∈ xs, ∃ y, f (row x) = .ok (g y)) :
    ∃ ys : List δ, (xs.map row).mapM f = .ok (ys.map g) := by
  induction xs with
  | nil => exact ⟨[], rfl⟩
  | cons x xs ih =>
    obtain ⟨⟨y, hy⟩, hrest⟩ := List.forall_mem_cons.1 h
    obtain ⟨ys, hys⟩ := ih hrest
    refine ⟨y :: ys, ?_⟩
    rw [List.map_cons, List.mapM_cons, hy, hys]
    rfl

/-- Rows of which some cannot be read fail with the first one of these. -/
theorem mapM_badValue {good : γ → Prop} (hgood : ∀ x, good x → ∃ y, f (row x) = .ok y)
    (hbad : ∀ x, ¬ good x → ∃ message, f (row x) = .error (.badValue message))
    (h : ∃ x ∈ xs, ¬ good x) : ∃ message, (xs.map row).mapM f = .error (.badValue message) := by
  induction xs with
  | nil =>
    obtain ⟨x, hx, -⟩ := h
    cases hx
  | cons x xs ih =>
    rw [List.map_cons, List.mapM_cons]
    by_cases hx : good x
    · obtain ⟨y, hy⟩ := hgood x hx
      obtain ⟨message, hmessage⟩ := ih <| by
        obtain ⟨x', hx', hworse⟩ := h
        rcases List.mem_cons.1 hx' with rfl | hx'
        · exact absurd hx hworse
        · exact ⟨x', hx', hworse⟩
      rw [hy, hmessage]
      exact ⟨message, rfl⟩
    · obtain ⟨message, hmessage⟩ := hbad x hx
      rw [hmessage]
      exact ⟨message, rfl⟩

end

section

variable {cs : List ColumnRow} {is : List IndexRow}

theorem columns_ok (h : ∀ c ∈ cs, HasReadableType c.row) : ∃ es : List (String × Column),
    (cs.map ColumnRow.row).mapM column = .ok (es.map fun e => (.text e.1, e.2)) :=
  exists_mapM fun c hc => ColumnRow.column_ok (h c hc)

theorem columns_error (h : ∃ c ∈ cs, ¬ HasReadableType c.row) :
    ∃ message, (cs.map ColumnRow.row).mapM column = .error (.badValue message) :=
  mapM_badValue (fun _ hc => (ColumnRow.column_ok hc).imp' _ fun _ he => he)
    (fun _ => ColumnRow.column_error) h

theorem indexes_ok (h : ∀ i ∈ is, HasReadableTarget i.row) : ∃ found,
    (is.map IndexRow.row).mapM index = .ok found ∧ ∀ f ∈ found, f.name = .text f.label := by
  have hread : ∀ i ∈ is, ∃ f : {f : FoundIndex // f.name = .text f.label},
      index i.row = .ok f.val := by
    intro i hi
    obtain ⟨f, hf, hname⟩ := IndexRow.index_ok (h i hi)
    exact ⟨⟨f, hname⟩, hf⟩
  obtain ⟨found, hfound⟩ := exists_mapM hread
  refine ⟨found.map Subtype.val, hfound, fun f hf => ?_⟩
  obtain ⟨f, -, rfl⟩ := List.mem_map.1 hf
  exact f.property

theorem indexes_error (h : ∃ i ∈ is, ¬ HasReadableTarget i.row) :
    ∃ message, (is.map IndexRow.row).mapM index = .error (.badValue message) :=
  mapM_badValue (fun _ hi => (IndexRow.index_ok hi).imp fun _ hf => hf.1)
    (fun _ => IndexRow.index_error) h

end

end Introspection

/-! ## How introspection fails -/

namespace Action

/-- Whatever an action fails with has a property. -/
def FailsWith {α : Type} (a : Action α) (s : Session) (p : Failure → Prop) : Prop :=
  ∀ f s', a.perform s = (.error f, s') → p f

namespace FailsWith

variable {α β : Type} {a : Action α} {g : α → Action β} {s s' : Session} {p : Failure → Prop}

theorem of_ok {x : α} (h : a.perform s = (.ok x, s')) : FailsWith a s p := by
  intro f s₁ hf
  cases h.symm.trans hf

theorem bind (ha : FailsWith a s p)
    (hg : ∀ x s₁, a.perform s = (.ok x, s₁) → FailsWith (g x) s₁ p) : FailsWith (a >>= g) s p := by
  intro f s' h
  rw [perform_bind] at h
  rcases hfirst : a.perform s with ⟨e | x, s₁⟩ <;> rw [hfirst] at h
  · cases h
    exact ha _ _ hfirst
  · exact hg x s₁ hfirst f s' h

/-- What comes after an action that ends well decides. -/
theorem after {x : α} (h : a.perform s = (.ok x, s')) (hg : FailsWith (g x) s' p) :
    FailsWith (a >>= g) s p := by
  refine bind (of_ok h) fun y s₁ hy => ?_
  cases h.symm.trans hy
  exact hg

theorem lift {r : Except Failure α} {x : α} (h : r = .ok x) (hg : FailsWith (g x) s p) :
    FailsWith (Action.lift r >>= g) s p := by
  subst h
  exact after rfl hg

end FailsWith

/-- The action fails with a value that is not as it should be. -/
def FailsBadly {α : Type} (a : Action α) (s : Session) : Prop :=
  ∃ message s', a.perform s = (.error (.badValue message), s')

namespace FailsBadly

variable {α β : Type} {a : Action α} {g : α → Action β} {s s' : Session}

theorem after {x : α} (h : a.perform s = (.ok x, s')) (hg : FailsBadly (g x) s') :
    FailsBadly (a >>= g) s := by
  unfold FailsBadly
  rw [perform_bind, h]
  exact hg

theorem lift {r : Except Failure α} {x : α} (h : r = .ok x) (hg : FailsBadly (g x) s) :
    FailsBadly (Action.lift r >>= g) s := by
  subst h
  exact after rfl hg

theorem of_error {r : Except Failure α} (h : ∃ message, r = .error (.badValue message)) :
    FailsBadly (Action.lift r >>= g) s := by
  obtain ⟨message, rfl⟩ := h
  exact ⟨message, s, rfl⟩

end FailsBadly

end Action

open Introspection

/-- The rows of a store have the form of rows of system tables. -/
structure SystemRows.IsWellFormed (r : SystemRows) : Prop where
  columns : ∀ table, ∃ cs : List ColumnRow, r.find .columns table = cs.map fun c => .map c.row
  indexes : ∀ table, ∃ is : List IndexRow, r.find .indexes table = is.map fun i => .map i.row
  views : ∀ table, ∃ vs : List ViewRow, r.find .views table = vs.map fun v => .map v.row

namespace Store

/-- A failure that introspection reports: a refusal that the store made, or one that tells that a
query failed. -/
def Reports (store : Store) (f : Failure) : Prop :=
  ∃ r, f = .refusal r ∧ (some f ∈ store.failures ∨ r.code = .schemaQuery)

/-- Introspection comes to something that it cannot read: the type of a column, once the store has
answered with the columns, or the target of an index, once it has answered with the indexes of a
table that has columns. -/
inductive Unreadable (store : Store) (table : String) : Prop
  | type {row} (hcolumns : ∀ f, ¬ store.FailsAt 0 f)
      (hrow : .map row ∈ store.system.find .columns table) (h : ¬ HasReadableType row)
  | target {row} (hcolumns : ∀ f, ¬ store.FailsAt 0 f) (hindexes : ∀ f, ¬ store.FailsAt 1 f)
      (hexists : store.system.find .columns table ≠ [])
      (hrow : .map row ∈ store.system.find .indexes table) (h : ¬ HasReadableTarget row)

end Store

namespace Introspection

open WideColumn.Action

variable {keyspace : Value} {table : String} {s s' : Session} {p : Failure → Prop}

theorem mapM_toEntries {α : Type} (row : α → Row) (xs : List α) :
    (xs.map fun x => Value.map (row x)).mapM Value.toEntries = .ok (xs.map row) :=
  mapM_map fun _ _ => rfl

theorem reports_sending {c : Call} {f : Failure} (h : (s.sending c).store.Reports f) :
    s.store.Reports f := by
  obtain ⟨r, rfl, hown | hcode⟩ := h
  · exact ⟨r, rfl, .inl (List.mem_of_mem_drop hown)⟩
  · exact ⟨r, rfl, .inr hcode⟩

/-- A query on well-formed rows is answered with them, or fails with what is reported. -/
theorem query_failsWith {α β : Type} {kind : SystemTable} {row : α → Row} {xs : List α}
    {g : List Row → Action β} (hrows : s.store.system.find kind table = xs.map fun x => .map (row x))
    (hp : ∀ f, s.store.Reports f → p f)
    (hg : (∀ f, ¬ s.store.FailsAt 0 f) → FailsWith (g (xs.map row))
      (s.sending ⟨kind.query, [keyspace, .text table], .definition⟩) p) :
    FailsWith (query kind [keyspace, .text table] >>= g) s p := by
  by_cases hfails : ∃ f, s.store.FailsAt 0 f
  · obtain ⟨f, hf⟩ := hfails
    obtain ⟨r, s₁, hquery, hreport⟩ := query_failed hf kind keyspace table
    refine .bind (fun f' s' h => ?_) fun rows s' h => ?_
    · cases hquery.symm.trans h
      refine hp _ ⟨r, rfl, ?_⟩
      rcases hreport with rfl | hcode
      · exact .inl (List.mem_of_getElem? hf)
      · exact .inr hcode
    · cases hquery.symm.trans h
  · have hanswers : ∀ f, ¬ s.store.FailsAt 0 f := fun f hf => hfails ⟨f, hf⟩
    exact .after (query_answered hanswers (hrows ▸ mapM_toEntries row xs)) (hg hanswers)

/-- Views are read, or a query fails. -/
theorem views_failsWith (hwell : s.store.system.IsWellFormed)
    (hp : ∀ f, s.store.Reports f → p f) (vs : List ViewRow) :
    FailsWith (views keyspace (vs.map ViewRow.row)) s p := by
  induction vs generalizing s with
  | nil => exact .of_ok rfl
  | cons v vs ih =>
    obtain ⟨cs, hcs⟩ := hwell.columns v.name
    obtain ⟨w, hw⟩ := view_columnRows cs v.row
    refine .lift (requiredPart_eq v.named) (query_failsWith hcs hp fun _ => .lift hw (.lift rfl ?_))
    exact .bind (ih hwell fun f hf => hp f (reports_sending hf)) fun _ _ _ => .of_ok rfl

/-- Views are read with texts for names. -/
theorem views_ok {vs : List ViewRow} {ws : List (Value × View)}
    (h : (views keyspace (vs.map ViewRow.row)).perform s = (.ok ws, s')) :
    ∃ es : List (String × View), ws = es.map fun e => (.text e.1, e.2) := by
  induction vs generalizing s s' ws with
  | nil =>
    cases h
    exact ⟨[], rfl⟩
  | cons v vs ih =>
    obtain ⟨name, s₁, hlift, h⟩ := bind_ok h
    obtain ⟨hname, -⟩ := lift_ok hlift
    cases (requiredPart_eq v.named).symm.trans hname
    obtain ⟨rows, s₂, -, h⟩ := bind_ok h
    obtain ⟨w, s₃, -, h⟩ := bind_ok h
    obtain ⟨_, s₄, -, h⟩ := bind_ok h
    obtain ⟨rest, s₅, hrest, h⟩ := bind_ok h
    obtain ⟨es, rfl⟩ := ih hrest
    cases h
    exact ⟨(v.name, w) :: es, rfl⟩

/-- A table in which everything can be read is read, or a query fails. -/
theorem read_failsWith (hwell : s.store.system.IsWellFormed)
    (hreadable : ¬ s.store.Unreadable table) :
    FailsWith (read keyspace table) s s.store.Reports := by
  obtain ⟨cs, hcs⟩ := hwell.columns table
  obtain ⟨is, his⟩ := hwell.indexes table
  obtain ⟨vs, hvs⟩ := hwell.views table
  refine query_failsWith hcs (fun f => id) fun hcolumns => ?_
  have htypes : ∀ c ∈ cs, HasReadableType c.row := fun c hc => not_not.1 fun hbad =>
    hreadable (.type hcolumns (hcs ▸ List.mem_map_of_mem hc) hbad)
  obtain ⟨es, hes⟩ := columns_ok htypes
  cases cs with
  | nil => exact .of_ok rfl
  | cons c cs =>
    refine .lift hes (query_failsWith his (fun f => reports_sending) fun hindexes => ?_)
    have htargets : ∀ i ∈ is, HasReadableTarget i.row := fun i hi => not_not.1 fun hbad =>
      hreadable (.target hcolumns (fun f hf => hindexes f (Session.failsAt_sending.2 hf))
        (by simp [hcs]) (his ▸ List.mem_map_of_mem hi) hbad)
    obtain ⟨found, hfound, hnames⟩ := indexes_ok htargets
    refine .lift hfound (query_failsWith hvs
      (fun f hf => reports_sending (reports_sending hf)) fun _ => ?_)
    refine .bind ?_ fun ws s₁ hviews => ?_
    · refine views_failsWith ?_ (fun f hf => ?_) vs
      · exact hwell
      · exact reports_sending (reports_sending (reports_sending hf))
    · obtain ⟨ws, rfl⟩ := views_ok hviews
      obtain ⟨l, hl⟩ := assemble_columnRows (c :: cs) table es hnames ws
      exact .lift hl (.after rfl (.of_ok rfl))

/-- What is unreadable is the type of some column or, once the indexes are there, the target of some
index. -/
theorem cases_of_unreadable {cs : List ColumnRow} {is : List IndexRow}
    (hcs : s.store.system.find .columns table = cs.map fun c => .map c.row)
    (his : s.store.system.find .indexes table = is.map fun i => .map i.row)
    (h : s.store.Unreadable table) : (∀ f, ¬ s.store.FailsAt 0 f) ∧ cs ≠ [] ∧
      ((∃ c ∈ cs, ¬ HasReadableType c.row) ∨
        (∀ f, ¬ s.store.FailsAt 1 f) ∧ ∃ i ∈ is, ¬ HasReadableTarget i.row) := by
  cases h with
  | type hcolumns hrow hbad =>
    obtain ⟨c, hc, hcrow⟩ := List.mem_map.1 (hcs ▸ hrow)
    cases hcrow
    exact ⟨hcolumns, List.ne_nil_of_mem hc, .inl ⟨c, hc, hbad⟩⟩
  | target hcolumns hindexes hexists hrow hbad =>
    obtain ⟨i, hi, hirow⟩ := List.mem_map.1 (his ▸ hrow)
    cases hirow
    refine ⟨hcolumns, fun hnone => hexists ?_, .inr ⟨hindexes, i, hi, hbad⟩⟩
    rw [hcs, hnone]
    rfl

/-- A table in which something cannot be read fails with what cannot be read. -/
theorem read_failsBadly (keyspace : Value) (hwell : s.store.system.IsWellFormed)
    (hunreadable : s.store.Unreadable table) : FailsBadly (read keyspace table) s := by
  obtain ⟨cs, hcs⟩ := hwell.columns table
  obtain ⟨is, his⟩ := hwell.indexes table
  obtain ⟨hcolumns, hexists, hwhich⟩ := cases_of_unreadable hcs his hunreadable
  refine .after (query_answered hcolumns (hcs ▸ mapM_toEntries ColumnRow.row cs)) ?_
  obtain ⟨c, cs, rfl⟩ := List.exists_cons_of_ne_nil hexists
  by_cases hbad : ∃ d ∈ c :: cs, ¬ HasReadableType d.row
  · exact .of_error (columns_error hbad)
  · obtain ⟨hindexes, htarget⟩ := hwhich.resolve_left hbad
    have htypes : ∀ d ∈ c :: cs, HasReadableType d.row := fun d hd => not_not.1 fun h =>
      hbad ⟨d, hd, h⟩
    obtain ⟨es, hes⟩ := columns_ok htypes
    have hanswers : (s.store.system.find .indexes table).mapM Value.toEntries =
        .ok (is.map IndexRow.row) := his ▸ mapM_toEntries IndexRow.row is
    refine .lift hes (.after (query_answered (fun f hf => ?_) hanswers)
      (.of_error (indexes_error htarget)))
    exact hindexes f (Session.failsAt_sending.1 hf)

end Introspection

namespace LiveTable

open WideColumn.Action

variable {s : Session}

theorem fetch_failsWith (keyspace : Value) {table : String}
    (hwell : s.store.system.IsWellFormed) (hreadable : ¬ s.store.Unreadable table) :
    FailsWith (fetch keyspace table) s s.store.Reports := by
  let s₀ := ((openSpan "cqlflow.schema.fetch_live_schema" []).perform s).2
  have hread : FailsWith (read keyspace table) s₀ s.store.Reports :=
    read_failsWith (s := s₀) hwell hreadable
  obtain ⟨s₁, hfetch⟩ := perform_traced "cqlflow.schema.fetch_live_schema" []
    (read keyspace table) s
  intro f s' h
  have houtcome : ((read keyspace table).perform s₀).1 = .error f :=
    congrArg Prod.fst (hfetch.symm.trans h)
  exact hread f _ (Prod.ext houtcome rfl)

theorem fetch_failsBadly (keyspace : Value) {table : String}
    (hwell : s.store.system.IsWellFormed) (hunreadable : s.store.Unreadable table) :
    FailsBadly (fetch keyspace table) s := by
  let s₀ := ((openSpan "cqlflow.schema.fetch_live_schema" []).perform s).2
  obtain ⟨message, s₁, hread⟩ := read_failsBadly (s := s₀) keyspace hwell hunreadable
  obtain ⟨s₂, hfetch⟩ := perform_traced "cqlflow.schema.fetch_live_schema" []
    (read keyspace table) s
  exact ⟨message, s₂, hfetch.trans (congrArg (fun r => (r.1, s₂)) hread)⟩

/-- When the rows of the store have the form of rows of system tables, introspection that comes to
nothing that it cannot read fails only with a refusal of the store or by telling that a query
failed. What it cannot read it passes on as a bad value. -/
theorem fetch_fails (hwell : s.store.system.IsWellFormed) (keyspace : Value) (table : String) :
    (¬ s.store.Unreadable table → FailsWith (fetch keyspace table) s s.store.Reports) ∧
      (s.store.Unreadable table → FailsBadly (fetch keyspace table) s) :=
  ⟨fetch_failsWith keyspace hwell, fetch_failsBadly keyspace hwell⟩

/-! ### Pages with addresses -/

/-- The store knows pages with a column of a type and with an index. -/
def pagesWith (type : String) (options : List (String × String)) : SystemRows where
  columns := [("pages", [.map (pageColumn "id" "partition_key" "int"),
    .map (pageColumn "home" "regular" type)])]
  indexes := [("pages", [.map (pageIndex "COMPOSITES" "homes" options)])]

theorem pagesWith_isWellFormed (type : String) (options : List (String × String)) :
    (pagesWith type options).IsWellFormed := by
  have hcolumn : ∀ name kind type, ∃ c : ColumnRow, c.row = pageColumn name kind type :=
    fun name kind type => ⟨⟨pageColumn name kind type, name, type, 0,
      by simp [pageColumn, Value.get?_text_cons], by simp [pageColumn, Value.get?_text_cons],
      by simp [pageColumn, Value.get?_text_cons]⟩, rfl⟩
  obtain ⟨id, hid⟩ := hcolumn "id" "partition_key" "int"
  obtain ⟨home, hhome⟩ := hcolumn "home" "regular" type
  constructor
  · intro table
    by_cases htable : "pages" = table
    · exact ⟨[id, home], by simp [SystemRows.find, pagesWith, htable, hid, hhome]⟩
    · exact ⟨[], by simp [SystemRows.find, pagesWith, htable]⟩
  · intro table
    by_cases htable : "pages" = table
    · exact ⟨[⟨pageIndex "COMPOSITES" "homes" options, "homes", options,
        by simp [pageIndex, Value.get?_text_cons],
        .inl (by simp [part, pageIndex, Value.get?_text_cons])⟩],
        by simp [SystemRows.find, pagesWith, htable]⟩
    · exact ⟨[], by simp [SystemRows.find, pagesWith, htable]⟩
  · exact fun table => ⟨[], rfl⟩

theorem hasReadableType_pageColumn {name kind type : String} :
    HasReadableType (pageColumn name kind type) ↔ ∃ parts, ColumnType.split? type = some parts := by
  have htype : part (pageColumn name kind type) "type" = .text type := by
    simp [part, pageColumn, Value.get?_text_cons]
  rw [HasReadableType, htype]
  unfold ColumnType.split
  dsimp only
  cases ColumnType.split? type with
  | none => simp
  | some parts => simp

/-- A session with a store that knows these pages, with what it fails. -/
def pagesSession (type : String) (options : List (String × String))
    (failures : List (Option Failure)) : Session :=
  { store := { system := pagesWith type options, failures } }

/-- A query that the store does not answer. -/
def unanswered : Failure := .thrown .timeout "no response" .missing

/-- That the indexes are asked for in vain is reported, and that one has no target is passed on. -/
theorem fetch_fails_pages :
    (pagesWith "text" [("target", "home")]).IsWellFormed ∧
    (∃ f s', (fetch (.text "shop") "pages").perform
        (pagesSession "text" [("target", "home")] [none, some unanswered]) = (.error f, s') ∧
      (pagesSession "text" [("target", "home")] [none, some unanswered]).store.Reports f) ∧
    (pagesWith "text" []).IsWellFormed ∧
    FailsBadly (fetch (.text "shop") "pages") (pagesSession "text" [] []) := by
  have hwell := pagesWith_isWellFormed "text" [("target", "home")]
  have hbare := pagesWith_isWellFormed "text" []
  refine ⟨hwell, ?_, hbare, ?_⟩
  · have hreadable : ¬ (pagesSession "text" [("target", "home")]
        [none, some unanswered]).store.Unreadable "pages" := by
      rintro (⟨-, hrow, hbad⟩ | ⟨-, hindexes, -⟩)
      · rcases List.mem_pair.1 hrow with hrow | hrow <;> cases hrow
        · exact hbad (hasReadableType_pageColumn.2 ⟨("int", none), by decide +kernel⟩)
        · exact hbad (hasReadableType_pageColumn.2 ⟨("text", none), by decide +kernel⟩)
      · exact hindexes unanswered rfl
    have hfails : ∃ f s', (fetch (.text "shop") "pages").perform
        (pagesSession "text" [("target", "home")] [none, some unanswered]) = (.error f, s') :=
      ⟨_, _, by with_unfolding_all rfl⟩
    obtain ⟨f, s', hfetch⟩ := hfails
    exact ⟨f, s', hfetch, (fetch_fails hwell (.text "shop") "pages").1 hreadable f s' hfetch⟩
  · have hempty : IndexTarget.ofValue (targetOf (pageIndex "COMPOSITES" "homes" [])) =
        .error (.badValue (IndexTarget.malformed "''")) := by with_unfolding_all rfl
    have hunreadable : (pagesSession "text" [] []).store.Unreadable "pages" := by
      refine .target nofun nofun (List.cons_ne_nil _ _) (List.mem_singleton.2 rfl) ?_
      rintro ⟨target, htarget⟩
      cases hempty.symm.trans htarget
    exact (fetch_fails hbare (.text "shop") "pages").2 hunreadable

/-- A column of a type whose name has a digit makes introspection fail with what is not reported. -/
theorem not_reports_type : (pagesWith "address_v2" [("target", "home")]).IsWellFormed ∧
    ∃ f s', (fetch (.text "shop") "pages").perform
        (pagesSession "address_v2" [("target", "home")] []) = (.error f, s') ∧
      ¬ (pagesSession "address_v2" [("target", "home")] []).store.Reports f := by
  have hwell := pagesWith_isWellFormed "address_v2" [("target", "home")]
  have hsplit : ColumnType.split? "address_v2" = none := by decide +kernel
  have hunreadable :
      (pagesSession "address_v2" [("target", "home")] []).store.Unreadable "pages" := by
    refine .type nofun (List.mem_pair.2 (.inr rfl)) fun hreadable => ?_
    obtain ⟨parts, hparts⟩ := hasReadableType_pageColumn.1 hreadable
    cases hsplit.symm.trans hparts
  obtain ⟨message, s', hfetch⟩ := fetch_failsBadly (.text "shop") hwell hunreadable
  refine ⟨hwell, .badValue message, s', hfetch, ?_⟩
  rintro ⟨r, hr, -⟩
  cases hr

end LiveTable

end WideColumn
