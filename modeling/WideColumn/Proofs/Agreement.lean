import WideColumn.Proofs.Alteration
import WideColumn.Proofs.Canonical

/-!
# When nothing differs

A live table that has the declared key and the declared indexes differs from the declaration in
nothing exactly when it has the declared columns and the declared views.
-/

namespace WideColumn

namespace LiveTable

/-- The live table has the key that is declared. -/
structure HasKeyOf (l : LiveTable) (t : Table) : Prop where
  partitionKey : l.partitionKey = t.partitionKey
  clusteringKey : l.clusteringKey = t.clusteringKey
  clusteringOrder : Keyed.eqv (· == ·) (canonicalOrder l.clusteringKey l.clusteringOrder)
    (canonicalOrder t.clusteringKey t.clusteringOrder) = true

/-- Apart from columns and views the live table is as declared. -/
structure IsIndexedAs (l : LiveTable) (t : Table) : Prop where
  columns : (Keyed.names l.columns).Nodup
  key : l.HasKeyOf t
  indexes : ∀ text, text ∈ l.indexes ↔ t.Declares text
  customIndexes : ∀ e ∈ l.customIndexes, e.1 = e.2.key ∧ e.2.canonical = e.2
  customKeys : ∀ key, key ∈ Keyed.names l.customIndexes ↔ key ∈ Keyed.names t.keyedCustomIndexes

/-- The live table has the declared columns. -/
def HasColumnsOf (l : LiveTable) (t : Table) : Prop :=
  ∀ name, (Keyed.get? l.columns name).map Column.canonical = Keyed.get? t.storedColumns name

/-- The live table has the declared views and no others. -/
structure HasViewsOf (l : LiveTable) (t : Table) : Prop where
  declared : ∀ e ∈ l.views, ∃ v, t.view? e.1 = some v ∧ v.canonical.eqv e.2.canonical = true
  present : ∀ e ∈ t.views, ∃ v, Keyed.get? l.views e.1 = some v ∧
    v.canonical.eqv e.2.canonical = true

end LiveTable

/-! ## Empty differences -/

namespace SchemaDiff

theorem less_eq_nil {xs ys : List String} : less xs ys = [] ↔ ∀ x ∈ xs, x ∈ ys := by
  rw [List.eq_nil_iff_forall_not_mem]
  simp only [mem_less, not_and, not_not]

/-- What the first list has is left when it is in the second. -/
theorem notMem_less {xs ys : List String} {x : String} (h : x ∈ xs) :
    (!(less xs ys).contains x) = true ↔ x ∈ ys := by
  simp [mem_less, h]

theorem notMem_changedViews {xs ys : List (String × View)} {e : String × View} (h : e ∈ xs)
    (hleft : (!(changedViews xs ys).contains e.1) = true) :
    Keyed.holds View.eqv ys e.1 e.2 = true := by
  by_contra hholds
  have hmem : e.1 ∈ changedViews xs ys := mem_changedViews.2 ⟨e.2, h, by simpa using hholds⟩
  simp [hmem] at hleft

theorem changedViews_eq_nil {xs ys : List (String × View)} :
    changedViews xs ys = [] ↔ ∀ e ∈ xs, Keyed.holds View.eqv ys e.1 e.2 = true := by
  rw [List.eq_nil_iff_forall_not_mem]
  constructor
  · intro h e he
    by_contra hholds
    exact h e.1 (mem_changedViews.2 ⟨e.2, he, by simpa using hholds⟩)
  · intro h name hname
    obtain ⟨v, hv, hholds⟩ := mem_changedViews.1 hname
    rw [h _ hv] at hholds
    cases hholds

theorem columnDiffs_eq_nil {live declared : List (String × Column)}
    (hlive : (Keyed.names live).Nodup) (hdeclared : (Keyed.names declared).Nodup) :
    columnDiffs live declared = [] ↔ ∀ name, Keyed.get? live name = Keyed.get? declared name := by
  rw [List.eq_nil_iff_forall_not_mem]
  constructor
  · intro h name
    cases hd : ColumnDiff.at? name (Keyed.get? live name) (Keyed.get? declared name) with
    | none => exact ColumnDiff.at?_eq_none.1 hd
    | some d =>
      have hname := ColumnDiff.at?_name hd
      rw [← hname] at hd
      exact absurd ((mem_columnDiffs hlive hdeclared).2 hd) (h d)
  · intro h d hd
    have hat := (mem_columnDiffs hlive hdeclared).1 hd
    rw [ColumnDiff.at?_eq_none.2 (h d.name)] at hat
    cases hat

theorem isEmpty_iff {d : SchemaDiff} : d.isEmpty = true ↔
    d.columns = [] ∧ d.keyChanged = false ∧ d.addedIndexes = [] ∧ d.removedIndexes = [] ∧
      d.addedCustomIndexes = [] ∧ d.removedCustomIndexes = [] ∧ d.addedViews = [] ∧
      d.removedViews = [] := by
  unfold isEmpty
  simp only [Bool.and_eq_true, List.isEmpty_iff, Bool.not_eq_true', and_assoc]

end SchemaDiff

/-- Targets that can be read have canonical forms. -/
theorem TableShape.canonicalTargets_ok {texts : List String}
    (h : ∀ text ∈ texts, ∃ target, IndexTarget.ofText text = .ok target) :
    ∃ targets, canonicalTargets texts = .ok targets := by
  obtain ⟨targets, htargets⟩ := mapM_ok h
  refine ⟨Ordered.distinct (targets.map IndexTarget.canonical), ?_⟩
  unfold canonicalTargets
  rw [htargets]
  rfl

theorem Describable.canonicalOf_eq {s : TableShape} {targets : List String}
    (h : TableShape.canonicalTargets s.indexes = .ok targets) :
    canonicalOf s = .ok (s.canonicalWith targets) := by
  have hcanonical : s.canonical = .ok (s.canonicalWith targets) := by
    unfold TableShape.canonical
    rw [h]
    rfl
  unfold canonicalOf
  rw [hcanonical]

/-- Tables whose targets can be read have a difference. -/
theorem Describable.diff_eq {l : LiveTable} {t : Table} {targets declared : List String}
    (htargets : TableShape.canonicalTargets l.indexes = .ok targets)
    (hdeclared : TableShape.canonicalTargets t.indexes = .ok declared) :
    diff (.live l) (.declared t) =
      .ok (.between (l.canonicalWith targets) (t.shape.canonicalWith declared)) := by
  have hlive : (Describable.live l).shape = .ok (l.canonicalWith targets) := canonicalOf_eq htargets
  have hshape : (Describable.declared t).shape = .ok (t.shape.canonicalWith declared) :=
    canonicalOf_eq hdeclared
  unfold diff
  rw [hlive, hshape]
  rfl

namespace Migration

variable {t : Table} {l : LiveTable}

theorem removedViews_eq_nil {targets : List String} :
    SchemaDiff.changedViews (l.views.map fun e => (e.1, e.2.canonical))
        (t.shape.canonicalWith targets).views = [] ↔
      ∀ e ∈ l.views, ∃ v, t.view? e.1 = some v ∧ v.canonical.eqv e.2.canonical = true := by
  rw [SchemaDiff.changedViews_eq_nil, List.forall_mem_map]
  exact forall₂_congr fun _ _ => Keyed.holds_map

theorem addedViews_eq_nil {targets : List String} :
    SchemaDiff.changedViews (t.shape.canonicalWith targets).views
        (l.views.map fun e => (e.1, e.2.canonical)) = [] ↔
      ∀ e ∈ t.views, ∃ v, Keyed.get? l.views e.1 = some v ∧
        v.canonical.eqv e.2.canonical = true := by
  change SchemaDiff.changedViews (t.views.map fun e => (e.1, e.2.canonical)) _ = [] ↔ _
  rw [SchemaDiff.changedViews_eq_nil, List.forall_mem_map]
  exact forall₂_congr fun _ _ => Keyed.holds_map

/-- A live table that has the declared key has it in canonical form. -/
theorem sameKey_canonicalWith (h : l.HasKeyOf t) (targets declared : List String) :
    (l.canonicalWith targets).sameKey (t.shape.canonicalWith declared) = true := by
  obtain ⟨hpartition, hclustering, horder⟩ := h
  unfold TableShape.sameKey
  rw [Bool.and_eq_true, Bool.and_eq_true, beq_iff_eq, beq_iff_eq]
  exact ⟨⟨hpartition, hclustering⟩, horder⟩

/-- Where the indexes and the key are those that are declared, nothing differs exactly when the
columns and the views are. -/
theorem diff_isEmpty (hprepared : Prepared t) (h : l.IsIndexedAs t) :
    ∃ d, Describable.diff (.live l) (.declared t) = .ok d ∧
      (d.isEmpty = true ↔ l.HasColumnsOf t ∧ l.HasViewsOf t) := by
  have hreads : ∀ text, t.Declares text → ∃ target, IndexTarget.ofText text = .ok target ∧
      target.canonical = text := fun text htext =>
    (hprepared.wellFormed.reads_declared hprepared.identifiers htext).imp
      fun _ htarget => ⟨htarget.1, htarget.2.1⟩
  obtain ⟨targets, htargets⟩ : ∃ targets, TableShape.canonicalTargets l.indexes = .ok targets :=
    TableShape.canonicalTargets_ok fun text htext => (hreads text ((h.indexes text).1 htext)).imp
      fun _ htarget => htarget.1
  obtain ⟨declared, hdeclared⟩ : ∃ targets, TableShape.canonicalTargets t.indexes = .ok targets :=
    TableShape.canonicalTargets_ok fun text htext => (hprepared.wellFormed.indexes text htext).imp
      fun _ htarget => htarget.1
  -- both lists are in canonical form, so the texts are the canonical targets themselves
  have hmem : ∀ text, text ∈ targets ↔ text ∈ declared := by
    intro text
    rw [TableShape.mem_canonicalTargets htargets, TableShape.mem_canonicalTargets hdeclared]
    refine Iff.trans ⟨?_, fun htext => ?_⟩ (h.indexes text)
    · rintro ⟨given, hgiven, target, htarget, rfl⟩
      obtain ⟨target', htarget', hsame⟩ := hreads _ ((h.indexes given).1 hgiven)
      rw [htarget] at htarget'
      cases htarget'
      exact hsame ▸ hgiven
    · obtain ⟨target, htarget, hsame⟩ := hreads _ ((h.indexes text).1 htext)
      exact ⟨text, htext, target, htarget, hsame⟩
  have hkey := sameKey_canonicalWith h.key targets declared
  have hcolumns : SchemaDiff.columnDiffs (l.columns.map fun e => (e.1, e.2.canonical))
      t.storedColumns = [] ↔ l.HasColumnsOf t := by
    rw [SchemaDiff.columnDiffs_eq_nil ?_ hprepared.wellFormed.nodup_storedColumns]
    · refine forall_congr' fun name => ?_
      rw [Keyed.get?_map]
    · unfold Keyed.names
      rw [List.map_map]
      exact h.columns
  have hcustom : ∀ key, key ∈ Keyed.names (l.canonicalWith targets).customIndexes ↔
      key ∈ Keyed.names (t.shape.canonicalWith declared).customIndexes := fun key =>
    (CustomIndex.mem_keyed_canonical h.customIndexes).trans (h.customKeys key)
  refine ⟨_, Describable.diff_eq htargets hdeclared, ?_⟩
  rw [SchemaDiff.isEmpty_iff]
  constructor
  · rintro ⟨hcols, -, -, -, -, -, hadded, hremoved⟩
    exact ⟨hcolumns.1 hcols, removedViews_eq_nil.1 hremoved, addedViews_eq_nil.1 hadded⟩
  · rintro ⟨hcols, hviews⟩
    refine ⟨hcolumns.2 hcols, ?_, ?_, ?_, ?_, ?_, addedViews_eq_nil.2 hviews.present,
      removedViews_eq_nil.2 hviews.declared⟩
    · simp [SchemaDiff.between, hkey]
    · exact SchemaDiff.less_eq_nil.2 fun text htext => (hmem text).2 htext
    · exact SchemaDiff.less_eq_nil.2 fun text htext => (hmem text).1 htext
    · exact SchemaDiff.less_eq_nil.2 fun key hkey => (hcustom key).2 hkey
    · exact SchemaDiff.less_eq_nil.2 fun key hkey => (hcustom key).1 hkey

end Migration

end WideColumn
