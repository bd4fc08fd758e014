import WideColumn.Proofs.Agreement
import WideColumn.Proofs.Reconciliation

/-!
# Creating what is missing

What a plan creates beside the columns and the key: a table that is created gets everything that is
declared, one whose indexes and views are brought in line what it lacks of them. Either way all that
is declared is there afterwards, when the names of the views are written as they are; what is left
is to compare columns.
-/

namespace WideColumn

namespace LiveTable

variable {naming : String → String} {t : Table} {l : LiveTable}

/-- The table with declared indexes, custom indexes and views. -/
def supplied (naming : String → String) (t : Table) (texts keys views : List String)
    (l : LiveTable) : LiveTable :=
  views.foldl (withDeclaredView t)
    (keys.foldl (withDeclaredCustomIndex naming t.keyedCustomIndexes)
      (texts.foldl (withIndexOn naming) l))

/-- The columns and the key of a table. -/
def frame (l : LiveTable) :
    List (String × Column) × List String × List String × List (String × String) :=
  (l.columns, l.partitionKey, l.clusteringKey, l.clusteringOrder)

variable {texts keys views : List String}

/-- Indexes and views are created beside the columns and the key. -/
theorem frame_supplied : (l.supplied naming t texts keys views).frame = l.frame := by
  have hindex : ∀ l text, (withIndexOn naming l text).frame = l.frame := fun l text => by
    unfold withIndexOn
    split <;> rfl
  have hcustom : ∀ l key, (withDeclaredCustomIndex naming t.keyedCustomIndexes l key).frame =
      l.frame := fun l key => by
    unfold withDeclaredCustomIndex
    split <;> rfl
  have hview : ∀ l name, (withDeclaredView t l name).frame = l.frame := fun l name => by
    unfold withDeclaredView
    split <;> rfl
  unfold supplied
  rw [foldl_keeps frame hview, foldl_keeps frame hcustom, foldl_keeps frame hindex]

theorem columns_supplied : (l.supplied naming t texts keys views).columns = l.columns :=
  congrArg Prod.fst frame_supplied

theorem mem_indexes_foldl {text : String} :
    text ∈ (texts.foldl (withIndexOn naming) l).indexes ↔ text ∈ l.indexes ∨
      ∃ given ∈ texts, ∃ target, IndexTarget.ofText given = .ok target ∧
        target.canonical = text := by
  induction texts generalizing l with
  | nil => simp
  | cons given texts ih =>
    have hfirst : text ∈ (withIndexOn naming l given).indexes ↔ text ∈ l.indexes ∨
        ∃ target, IndexTarget.ofText given = .ok target ∧ target.canonical = text := by
      unfold withIndexOn
      cases IndexTarget.ofText given with
      | error message => simp
      | ok target =>
        change text ∈ Ordered.distinct (target.canonical :: l.indexes) ↔ _
        rw [Ordered.mem_distinct, List.mem_cons, or_comm]
        simp [eq_comm]
    rw [List.foldl_cons, ih, hfirst, or_assoc]
    simp only [List.mem_cons, exists_eq_or_imp]

/-- The indexes are those that were there and those that are created. -/
theorem mem_indexes_supplied {text : String} :
    text ∈ (l.supplied naming t texts keys views).indexes ↔ text ∈ l.indexes ∨
      ∃ given ∈ texts, ∃ target, IndexTarget.ofText given = .ok target ∧
        target.canonical = text := by
  have hcustom : ∀ l key, (withDeclaredCustomIndex naming t.keyedCustomIndexes l key).indexes =
      l.indexes := fun l key => by
    unfold withDeclaredCustomIndex
    split <;> rfl
  have hview : ∀ l name, (withDeclaredView t l name).indexes = l.indexes := fun l name => by
    unfold withDeclaredView
    split <;> rfl
  have hrest : (l.supplied naming t texts keys views).indexes =
      (texts.foldl (withIndexOn naming) l).indexes :=
    (foldl_keeps (fun l => l.indexes) hview _ _).trans
      (foldl_keeps (fun l => l.indexes) hcustom _ _)
  rw [hrest, mem_indexes_foldl]

/-- A declared custom index is put under its key. -/
theorem customIndexes_withDeclaredCustomIndex (key : String) :
    (withDeclaredCustomIndex naming t.keyedCustomIndexes l key).customIndexes =
      match Keyed.get? t.keyedCustomIndexes key with
      | some i => Keyed.put key i l.customIndexes
      | none => l.customIndexes := by
  unfold withDeclaredCustomIndex
  cases hi : Keyed.get? t.keyedCustomIndexes key with
  | none => rfl
  | some i =>
    obtain ⟨hcanonical, hkey⟩ := Table.keyedCustomIndex_canonical (Keyed.mem_of_get? hi)
    change Keyed.put i.canonical.key i.canonical l.customIndexes = Keyed.put key i l.customIndexes
    rw [hcanonical]
    exact congrArg (Keyed.put · i l.customIndexes) hkey.symm

theorem customIndexes_supplied : (l.supplied naming t texts keys views).customIndexes =
    (keys.foldl (withDeclaredCustomIndex naming t.keyedCustomIndexes)
      (texts.foldl (withIndexOn naming) l)).customIndexes := by
  have hview : ∀ l name, (withDeclaredView t l name).customIndexes = l.customIndexes :=
    fun l name => by
      unfold withDeclaredView
      split <;> rfl
  unfold supplied
  rw [foldl_keeps (fun l => l.customIndexes) hview]

theorem customIndexes_foldl_withIndexOn :
    (texts.foldl (withIndexOn naming) l).customIndexes = l.customIndexes :=
  foldl_keeps (fun l => l.customIndexes) (fun l text => by
    unfold withIndexOn
    split <;> rfl) texts l

theorem mem_customKeys_foldl {key : String} :
    key ∈ Keyed.names
        (keys.foldl (withDeclaredCustomIndex naming t.keyedCustomIndexes) l).customIndexes ↔
      key ∈ Keyed.names l.customIndexes ∨
        key ∈ keys ∧ key ∈ Keyed.names t.keyedCustomIndexes := by
  induction keys generalizing l with
  | nil => simp
  | cons other keys ih =>
    rw [List.foldl_cons, ih, customIndexes_withDeclaredCustomIndex, List.mem_cons]
    cases hi : Keyed.get? t.keyedCustomIndexes other with
    | none =>
      have habsent := Keyed.get?_eq_none.1 hi
      constructor
      · exact Or.imp_right (And.imp_left .inr)
      · rintro (h | ⟨rfl | h, hdeclared⟩)
        · exact .inl h
        · exact absurd hdeclared habsent
        · exact .inr ⟨h, hdeclared⟩
    | some i =>
      have hdeclared := Keyed.mem_names_of_mem (Keyed.mem_of_get? hi)
      rw [Keyed.mem_names_put]
      constructor
      · rintro ((rfl | h) | h)
        · exact .inr ⟨.inl rfl, hdeclared⟩
        · exact .inl h
        · exact .inr ⟨.inr h.1, h.2⟩
      · rintro (h | ⟨rfl | h, h'⟩)
        · exact .inl (.inr h)
        · exact .inl (.inl rfl)
        · exact .inr ⟨h, h'⟩

/-- The keys of custom indexes are those that were there and those that are created. -/
theorem mem_customKeys_supplied {key : String} :
    key ∈ Keyed.names (l.supplied naming t texts keys views).customIndexes ↔
      key ∈ Keyed.names l.customIndexes ∨
        key ∈ keys ∧ key ∈ Keyed.names t.keyedCustomIndexes := by
  rw [customIndexes_supplied, mem_customKeys_foldl, customIndexes_foldl_withIndexOn]

theorem canonical_customIndexes_foldl
    (h : ∀ e ∈ l.customIndexes, e.1 = e.2.key ∧ e.2.canonical = e.2) :
    ∀ e ∈ (keys.foldl (withDeclaredCustomIndex naming t.keyedCustomIndexes) l).customIndexes,
      e.1 = e.2.key ∧ e.2.canonical = e.2 := by
  induction keys generalizing l with
  | nil => exact h
  | cons key keys ih =>
    refine ih fun e he => ?_
    rw [customIndexes_withDeclaredCustomIndex] at he
    cases hi : Keyed.get? t.keyedCustomIndexes key with
    | none =>
      rw [hi] at he
      exact h e he
    | some i =>
      rw [hi] at he
      rcases Keyed.mem_put he with rfl | he
      · exact (Table.keyedCustomIndex_canonical (Keyed.mem_of_get? hi)).symm
      · exact h e he

/-- Custom indexes that are created are canonical, under their keys. -/
theorem canonical_customIndexes_supplied
    (h : ∀ e ∈ l.customIndexes, e.1 = e.2.key ∧ e.2.canonical = e.2) :
    ∀ e ∈ (l.supplied naming t texts keys views).customIndexes,
      e.1 = e.2.key ∧ e.2.canonical = e.2 := by
  rw [customIndexes_supplied]
  refine canonical_customIndexes_foldl ?_
  rw [customIndexes_foldl_withIndexOn]
  exact h

/-- The views are those that were there and, under their names, those that are created. -/
theorem get?_views_supplied (hplain : ∀ name ∈ views, Name.IsPlain name)
    (hdeclared : ∀ name ∈ views, name ∈ Keyed.names t.views) {name : String} :
    Keyed.get? (l.supplied naming t texts keys views).views name =
      if name ∈ views then (t.view? name).map View.canonical else Keyed.get? l.views name := by
  have hviews : (keys.foldl (withDeclaredCustomIndex naming t.keyedCustomIndexes)
      (texts.foldl (withIndexOn naming) l)).views = l.views := by
    rw [foldl_keeps (fun l => l.views) (views_withDeclaredCustomIndex _ _),
      foldl_keeps (fun l => l.views) (views_withIndexOn naming)]
  unfold supplied
  rw [← hviews]
  generalize keys.foldl _ _ = l
  induction views generalizing l with
  | nil => rfl
  | cons other views ih =>
    obtain ⟨v, hv⟩ := Option.isSome_iff_exists.1
      (Keyed.get?_isSome.2 (hdeclared other List.mem_cons_self))
    have hv : t.view? other = some v := hv
    have hspelled := (hplain other List.mem_cons_self).spelled_eq
    have hviews : (withDeclaredView t l other).views = Keyed.put other v.canonical l.views := by
      unfold withDeclaredView
      rw [hv]
      change Keyed.put (Name.spelled other) v.created l.views = _
      rw [hspelled, v.created_eq]
    rw [List.foldl_cons, ih (fun n hn => hplain n (List.mem_cons_of_mem _ hn))
      (fun n hn => hdeclared n (List.mem_cons_of_mem _ hn)), hviews, Keyed.get?_put]
    by_cases hname : name = other
    · subst hname
      simp [hv]
    · simp [hname]

theorem nodup_views_supplied (h : (Keyed.names l.views).Nodup) :
    (Keyed.names (l.supplied naming t texts keys views).views).Nodup := by
  have hviews : (keys.foldl (withDeclaredCustomIndex naming t.keyedCustomIndexes)
      (texts.foldl (withIndexOn naming) l)).views = l.views := by
    rw [foldl_keeps (fun l => l.views) (views_withDeclaredCustomIndex _ _),
      foldl_keeps (fun l => l.views) (views_withIndexOn naming)]
  unfold supplied
  rw [← hviews] at h
  generalize keys.foldl _ _ = l at h
  induction views generalizing l with
  | nil => exact h
  | cons name views ih =>
    refine ih _ ?_
    unfold withDeclaredView
    split
    · exact Keyed.nodup_put h
    · exact h

/-- Where indexes that are missing are created, all are there. -/
theorem isIndexedAs_supplied (hcolumns : (Keyed.names l.columns).Nodup) (hkey : l.HasKeyOf t)
    (hindexes : ∀ text, (text ∈ l.indexes ∨ ∃ given ∈ texts, ∃ target,
      IndexTarget.ofText given = .ok target ∧ target.canonical = text) ↔ t.Declares text)
    (hcustom : ∀ e ∈ l.customIndexes, e.1 = e.2.key ∧ e.2.canonical = e.2)
    (hkeys : ∀ key, (key ∈ Keyed.names l.customIndexes ∨
      key ∈ keys ∧ key ∈ Keyed.names t.keyedCustomIndexes) ↔
        key ∈ Keyed.names t.keyedCustomIndexes) :
    (l.supplied naming t texts keys views).IsIndexedAs t := by
  have hframe : (l.supplied naming t texts keys views).frame = l.frame := frame_supplied
  simp only [frame, Prod.mk.injEq] at hframe
  obtain ⟨hcols, hpartition, hclustering, horder⟩ := hframe
  refine ⟨hcols ▸ hcolumns, ⟨hpartition.trans hkey.partitionKey,
    hclustering.trans hkey.clusteringKey, ?_⟩, fun text => ?_,
      canonical_customIndexes_supplied hcustom,
    fun key => mem_customKeys_supplied.trans (hkeys key)⟩
  · rw [hclustering, horder]
    exact hkey.clusteringOrder
  · exact mem_indexes_supplied.trans (hindexes text)

/-- Where views that are missing are created, all are there. -/
theorem hasViewsOf_supplied (hwell : t.WellFormed) (hplain : ∀ name ∈ views, Name.IsPlain name)
    (hdeclared : ∀ name ∈ views, name ∈ Keyed.names t.views) (hnodup : (Keyed.names l.views).Nodup)
    (hleft : ∀ e ∈ l.views, e.1 ∉ views → ∃ v, t.view? e.1 = some v ∧
      v.canonical.eqv e.2.canonical = true)
    (hpresent : ∀ e ∈ t.views, e.1 ∉ views → ∃ v, Keyed.get? l.views e.1 = some v ∧
      v.canonical.eqv e.2.canonical = true) :
    (l.supplied naming t texts keys views).HasViewsOf t := by
  have hself : ∀ v : View, v.canonical.eqv v.canonical = true := fun v =>
    View.eqv_self (Keyed.nodup_ofList _)
  constructor
  · intro e he
    have hget := Keyed.get?_of_mem (nodup_views_supplied hnodup) he
    rw [get?_views_supplied hplain hdeclared] at hget
    by_cases hname : e.1 ∈ views
    · rw [if_pos hname] at hget
      obtain ⟨v, hv, hcanonical⟩ := Option.map_eq_some_iff.1 hget
      refine ⟨v, hv, ?_⟩
      rw [← hcanonical, View.canonical_canonical]
      exact hself v
    · rw [if_neg hname] at hget
      exact hleft e (Keyed.mem_of_get? hget) hname
  · intro e he
    rw [get?_views_supplied hplain hdeclared]
    by_cases hname : e.1 ∈ views
    · have hv : t.view? e.1 = some e.2 := Keyed.get?_of_mem hwell.views he
      rw [if_pos hname, hv]
      refine ⟨e.2.canonical, rfl, ?_⟩
      rw [View.canonical_canonical]
      exact hself e.2
    · rw [if_neg hname]
      exact hpresent e he hname

end LiveTable

/-! ## Tables that were created or brought in line -/

namespace Table

variable {naming : String → String} {t : Table}

/-- The names of the views are written as they are. -/
def HasPlainViews (t : Table) : Prop := ∀ e ∈ t.views, Name.IsPlain e.1

instance (t : Table) : Decidable t.HasPlainViews :=
  inferInstanceAs (Decidable (∀ e ∈ t.views, _))

theorem HasPlainViews.plain (h : t.HasPlainViews) {name : String}
    (hname : name ∈ Keyed.names t.views) : Name.IsPlain name := by
  obtain ⟨e, he, rfl⟩ := List.mem_map.1 hname
  exact h e he

theorem HasPlainViews.apart (h : t.HasPlainViews) (hwell : t.WellFormed) : t.ViewsWrittenApart := by
  have hsame : (Keyed.names t.views).map Name.spelled = Keyed.names t.views :=
    (List.map_congr_left fun name hname => (h.plain hname).spelled_eq).trans (List.map_id _)
  unfold ViewsWrittenApart
  rw [hsame]
  exact hwell.views

/-- A table that is created gets everything that is declared. -/
theorem created_eq (hwell : t.WellFormed) : t.created naming = t.bare.supplied naming t t.indexes
    (Keyed.names t.keyedCustomIndexes) (Keyed.names t.views) := by
  unfold created indexed LiveTable.supplied
  have hkeys : (Keyed.names t.keyedCustomIndexes).Nodup := Keyed.nodup_ofList _
  rw [← Keyed.foldl_names _ _ hwell.views, ← Keyed.foldl_names _ _ hkeys]
  congr 1
  · funext l name
    have hview : t.view? name = Keyed.get? t.views name := rfl
    unfold LiveTable.withDeclaredView
    rw [hview]
    cases Keyed.get? t.views name <;> rfl
  · congr 1
    funext l key
    unfold LiveTable.withDeclaredCustomIndex
    cases Keyed.get? t.keyedCustomIndexes key <;> rfl

theorem clusteringKey_bare (t : Table) : t.bare.clusteringKey = t.clusteringKey := by
  change t.keyClause.clustering.map (·.1) = t.clusteringKey
  unfold keyClause KeySpec.clause
  rw [List.map_map]
  exact List.map_id _

/-- A table that is created is as declared. -/
theorem created_agrees (hprepared : Migration.Prepared t) (hbrackets : t.WritesBrackets)
    (hplain : t.HasPlainViews) : (t.created naming).IsIndexedAs t ∧
      (t.created naming).HasColumnsOf t ∧ (t.created naming).HasViewsOf t := by
  have hwell := hprepared.wellFormed
  rw [created_eq hwell]
  refine ⟨LiveTable.isIndexedAs_supplied ?_ ⟨rfl, ?_, ?_⟩ (fun text => ?_)
    (fun e he => (nomatch he))
    (fun key => ?_), fun name => ?_, LiveTable.hasViewsOf_supplied hwell
      (fun name hname => hplain.plain hname) (fun name hname => hname) List.nodup_nil
      (fun e he => (nomatch he)) fun e he hnot => absurd (List.mem_map_of_mem he) hnot⟩
  · rw [names_bare]
    exact hwell.nodup_storedColumns
  · exact t.clusteringKey_bare
  · have horder : t.bare.clusteringOrder = canonicalOrder t.clusteringKey t.clusteringOrder :=
      directions_clause _ _ _
    rw [t.clusteringKey_bare, horder, canonicalOrder_canonicalOrder]
    exact Keyed.eqv_self (Keyed.nodup_ofList _)
  · exact ⟨fun h => h.resolve_left List.not_mem_nil, .inr⟩
  · exact ⟨fun h => h.elim (fun h => (nomatch h)) And.left, fun h => .inr ⟨h, h⟩⟩
  · rw [LiveTable.columns_supplied, columns_bare hwell hbrackets]
    cases hc : Keyed.get? t.storedColumns name with
    | none => rfl
    | some c => exact congrArg some (storedColumn_canonical hwell hbrackets hc).2

end Table

namespace Migration

variable {naming : String → String} {same : String → Column → Column → Prop} {t : Table}
  {live l : LiveTable} {s : Simulated} {d : SchemaDiff} {columns : List (String × Column)}

section

variable {targets declared : List String} {text key : String}

/-- The indexes that are left and those that are created are those that are declared. -/
theorem mem_indexes_reconciled (hprepared : Prepared t)
    (hcanonical : ∀ text ∈ l.indexes, ∃ target, IndexTarget.ofText text = .ok target ∧
      target.canonical = text)
    (htargets : TableShape.canonicalTargets l.indexes = .ok targets)
    (hdeclared : TableShape.canonicalTargets t.indexes = .ok declared) :
    (text ∈ l.indexes.filter (fun x => !(SchemaDiff.less targets declared).contains x) ∨
      ∃ given ∈ SchemaDiff.less declared targets, ∃ target,
        IndexTarget.ofText given = .ok target ∧ target.canonical = text) ↔
      t.Declares text := by
  have hdeclares : ∀ {text}, text ∈ declared ↔ t.Declares text :=
    TableShape.mem_canonicalTargets hdeclared
  rw [List.mem_filter, ← mem_targets hcanonical htargets]
  constructor
  · rintro (⟨hmem, hleft⟩ | ⟨given, hgiven, target, htarget, rfl⟩)
    · exact hdeclares.1 ((SchemaDiff.notMem_less hmem).1 hleft)
    · have hgiven := hdeclares.1 (SchemaDiff.mem_less.1 hgiven).1
      obtain ⟨target', htarget', hsame, -⟩ :=
        hprepared.wellFormed.reads_declared hprepared.identifiers hgiven
      rw [htarget] at htarget'
      cases htarget'
      exact hsame ▸ hgiven
  · intro htext
    have hmem := hdeclares.2 htext
    by_cases hthere : text ∈ targets
    · exact .inl ⟨hthere, (SchemaDiff.notMem_less hthere).2 hmem⟩
    · obtain ⟨target, htarget, hsame, -⟩ :=
        hprepared.wellFormed.reads_declared hprepared.identifiers htext
      exact .inr ⟨text, SchemaDiff.mem_less.2 ⟨hmem, hthere⟩, target, htarget, hsame⟩

/-- So it is with the keys of custom indexes. -/
theorem mem_customKeys_reconciled {es : List (String × CustomIndex)} {names declared : List String}
    (hnames : ∀ key, key ∈ names ↔ key ∈ Keyed.names es) :
    (key ∈ Keyed.names (es.filter fun e => !(SchemaDiff.less names declared).contains e.1) ∨
      key ∈ SchemaDiff.less declared names ∧ key ∈ declared) ↔ key ∈ declared := by
  constructor
  · rintro (hmem | ⟨-, hmem⟩)
    · obtain ⟨e, he, rfl⟩ := List.mem_map.1 hmem
      obtain ⟨he, hleft⟩ := List.mem_filter.1 he
      exact (SchemaDiff.notMem_less ((hnames e.1).2 (List.mem_map_of_mem he))).1 hleft
    · exact hmem
  · intro hmem
    by_cases hthere : key ∈ names
    · obtain ⟨e, he, rfl⟩ := List.mem_map.1 ((hnames key).1 hthere)
      exact .inl (List.mem_map_of_mem (List.mem_filter.2
        ⟨he, (SchemaDiff.notMem_less hthere).2 hmem⟩))
    · exact .inr ⟨SchemaDiff.mem_less.2 ⟨hmem, hthere⟩, hmem⟩

/-- A view that is left is declared. -/
theorem declares_left {e : String × View} (he : e ∈ l.views.filter fun e =>
      !(SchemaDiff.changedViews (l.canonicalWith targets).views
        (t.shape.canonicalWith declared).views).contains e.1) :
    ∃ v, t.view? e.1 = some v ∧ v.canonical.eqv e.2.canonical = true := by
  obtain ⟨he, hleft⟩ := List.mem_filter.1 he
  have hmem : (e.1, e.2.canonical) ∈ (l.canonicalWith targets).views := List.mem_map_of_mem he
  have hholds := SchemaDiff.notMem_changedViews hmem hleft
  change Keyed.holds View.eqv (t.views.map fun e => (e.1, e.2.canonical)) e.1 e.2.canonical = true
    at hholds
  exact Keyed.holds_map.1 hholds

/-- A declared view that is not created is left. -/
theorem left_of_declared {e : String × View} (hwell : t.WellFormed)
    (hnodup : (Keyed.names l.views).Nodup) (he : e ∈ t.views)
    (hnot : e.1 ∉ SchemaDiff.changedViews (t.shape.canonicalWith declared).views
      (l.canonicalWith targets).views) :
    ∃ v, Keyed.get? (l.views.filter fun e =>
        !(SchemaDiff.changedViews (l.canonicalWith targets).views
          (t.shape.canonicalWith declared).views).contains e.1) e.1 = some v ∧
      v.canonical.eqv e.2.canonical = true := by
  have hmem : (e.1, e.2.canonical) ∈ (t.shape.canonicalWith declared).views :=
    List.mem_map_of_mem he
  have hholds := SchemaDiff.notMem_changedViews hmem (by simpa using hnot)
  change Keyed.holds View.eqv (l.views.map fun e => (e.1, e.2.canonical)) e.1 e.2.canonical = true
    at hholds
  have hleft : e.1 ∉ SchemaDiff.changedViews (l.canonicalWith targets).views
      (t.shape.canonicalWith declared).views := fun hchanged =>
    hnot (SchemaDiff.changedViews_comm
      ((TableShape.names_canonicalViews l.toTableShape targets).symm ▸ hnodup)
      ((TableShape.names_canonicalViews t.shape declared).symm ▸ hwell.views)
      TableShape.nodup_viewOrder TableShape.nodup_viewOrder hchanged
      (Keyed.mem_names_of_mem hmem))
  rw [Keyed.get?_filter (fun name => !(SchemaDiff.changedViews (l.canonicalWith targets).views
    (t.shape.canonicalWith declared).views).contains name), if_pos (by simpa using hleft)]
  exact Keyed.holds_map.1 hholds

end

/-- A table whose indexes and views were brought in line has those that are declared. -/
theorem Altered.reconciled_agrees (h : Altered same t live [] l s) (hprepared : Prepared t)
    (hcanonical : live.Canonical) (hkey : live.HasKeyOf t) (hplain : t.HasPlainViews)
    (hd : Describable.diff (.live l) (.declared t) = .ok d)
    (halike : Keyed.Alike same columns l.columns) :
    (LiveTable.reconciled naming t d { l with columns }).IsIndexedAs t ∧
      (LiveTable.reconciled naming t d { l with columns }).HasViewsOf t ∧
      (LiveTable.reconciled naming t d { l with columns }).columns = columns := by
  have hwell := hprepared.wellFormed
  obtain ⟨targets, declared, htargets, hdeclared, rfl⟩ := Describable.diff_ok hd
  have hcustom : ∀ e ∈ l.customIndexes, e.1 = e.2.key ∧ e.2.canonical = e.2 := fun e he =>
    hcanonical.customIndexes e (h.within.customIndexes e he)
  have hdeclaredViews : ∀ name ∈ (SchemaDiff.between (l.canonicalWith targets)
      (t.shape.canonicalWith declared)).addedViews, name ∈ Keyed.names t.views :=
    fun name hname => addedViews_declared rfl hname
  change (LiveTable.supplied naming t _ _ _ (LiveTable.without { l with columns } _)).IsIndexedAs
    t ∧
    (LiveTable.supplied naming t _ _ _ (LiveTable.without { l with columns } _)).HasViewsOf t ∧
    (LiveTable.supplied naming t _ _ _ (LiveTable.without { l with columns } _)).columns = columns
  rw [LiveTable.without_eq, LiveTable.columns_supplied]
  refine ⟨LiveTable.isIndexedAs_supplied ?_ ⟨?_, ?_, ?_⟩ (fun text => ?_) (fun e he => ?_)
    (fun key => ?_), LiveTable.hasViewsOf_supplied hwell (fun name hname => ?_) hdeclaredViews ?_
      (fun e he _ => ?_) (fun e he hnot => ?_), rfl⟩
  · change (Keyed.names columns).Nodup
    rw [halike.names_eq]
    exact h.pending.distinct
  · exact h.within.partitionKey.trans hkey.partitionKey
  · exact h.within.clusteringKey.trans hkey.clusteringKey
  · change Keyed.eqv (· == ·) (canonicalOrder l.clusteringKey l.clusteringOrder) _ = true
    rw [h.within.clusteringKey, h.within.clusteringOrder]
    exact hkey.clusteringOrder
  · exact mem_indexes_reconciled (l := l) hprepared (h.targets hcanonical) htargets hdeclared
  · exact hcustom e (List.mem_filter.1 he).1
  · exact mem_customKeys_reconciled fun key => CustomIndex.mem_keyed_canonical hcustom
  · exact hplain.plain (hdeclaredViews name hname)
  · exact h.mirrors.views.sublist (List.filter_sublist.map _)
  · exact declares_left (l := l) he
  · exact left_of_declared (l := l) hwell h.mirrors.views he hnot

end Migration

end WideColumn
