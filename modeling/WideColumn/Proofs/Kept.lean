import WideColumn.Proofs.Tally

/-!
# What a table that is altered keeps

A column of the live table is outdated when it is not declared, or when it is declared in another
form to which it is not altered in place (`LiveTable.Outdated`). A view or an index is kept when it
is declared in the same form and refers to no outdated column. What a tally lists is what differs
(`Tally.TouchesOnly`) when it has each outdated column, each view and each index that is not kept,
and each that is declared and not kept, once.
-/

namespace WideColumn

/-! ## What is kept -/

namespace LiveTable

variable {l live : LiveTable} {t : Table}

/-- The column is not declared, or it is declared in another form and is not altered in place. -/
def Outdated (live : LiveTable) (t : Table) (column : String) : Prop :=
  ∃ old, Keyed.get? live.columns column = some old ∧
    ∀ new, Keyed.get? t.storedColumns column = some new →
      old ≠ new ∧ ¬ (old.type ≠ new.type ∧ old.widensTo new = true)

/-- The column is declared with another type, to which it is altered in place. -/
def Widened (live : LiveTable) (t : Table) (column : String) : Prop :=
  ∃ old new, Keyed.get? live.columns column = some old ∧
    Keyed.get? t.storedColumns column = some new ∧ old.type ≠ new.type ∧ old.widensTo new = true

/-- The column is declared, and it is not in the live table or does not stay there. -/
def Lacks (live : LiveTable) (t : Table) (column : String) : Prop :=
  t.IsStored column ∧ (column ∉ Keyed.names live.columns ∨ live.Outdated t column)

/-- The view is declared in the same form and refers to no outdated column. -/
def KeepsView (live : LiveTable) (t : Table) (name : String) : Prop :=
  ∃ v w, Keyed.get? live.views name = some v ∧ t.view? name = some w ∧
    w.canonical.eqv v.canonical = true ∧ ∀ c, live.Outdated t c → v.dependsOn c = false

/-- The index is declared and on no outdated column. -/
def KeepsIndex (live : LiveTable) (t : Table) (text : String) : Prop :=
  text ∈ live.indexes ∧ t.Declares text ∧
    ∀ target, IndexTarget.ofText text = .ok target → ¬ live.Outdated t target.column

/-- The custom index is declared and on no outdated column. -/
def KeepsCustomIndex (live : LiveTable) (t : Table) (key : String) : Prop :=
  ∃ i, Keyed.get? live.customIndexes key = some i ∧ key ∈ Keyed.names t.keyedCustomIndexes ∧
    ¬ live.Outdated t i.column

/-- The name is that of an index or a custom index that is not kept. -/
def LosesIndex (live : LiveTable) (t : Table) (name : String) : Prop :=
  (∃ text ∈ live.indexes, Keyed.get? live.indexNames text = some name ∧ ¬ live.KeepsIndex t text) ∨
  ∃ key ∈ Keyed.names live.customIndexes, Keyed.get? live.customIndexNames key = some name ∧
    ¬ live.KeepsCustomIndex t key

end LiveTable

/-- The views that are declared and not kept are created, each once. -/
def LiveTable.CreatesViews (live : LiveTable) (t : Table) (names : List String) : Prop :=
  EachOnce names fun name => name ∈ Keyed.names t.views ∧ ¬ live.KeepsView t name

/-- What a tally lists, but for the views that are created, is what differs. -/
structure Tally.TouchesOnly (s : Tally) (live : LiveTable) (t : Table) : Prop where
  dropped : EachOnce s.columns.dropped (live.Outdated t)
  added : EachOnce s.columns.added (live.Lacks t)
  retyped : EachOnce s.columns.retyped (live.Widened t)
  tables : s.tables = 0
  droppedViews : EachOnce s.droppedViews fun view =>
    view ∈ Keyed.names live.views ∧ ¬ live.KeepsView t view
  droppedIndexes : EachOnce s.droppedIndexes (live.LosesIndex t)
  createdIndexes : EachOnce s.created.indexes fun text =>
    t.Declares text ∧ ¬ live.KeepsIndex t text
  createdCustomIndexes : EachOnce s.created.customIndexes fun key =>
    key ∈ Keyed.names t.keyedCustomIndexes ∧ ¬ live.KeepsCustomIndex t key

/-! ## The columns of a difference -/

namespace Column

variable {old new : Column}

theorem changedAspect?_eq_type : old.changedAspect? new = some .type ↔ old.type ≠ new.type := by
  unfold changedAspect?
  split
  · simp [*]
  · rename_i htype
    split
    · simp [htype]
    · split <;> simp [htype]

/-- Two columns differ in an aspect that is not altered in place exactly when they differ and not in
their types, or not so that the type is altered in place. -/
theorem changedAspect?_replaces : (∃ a, old.changedAspect? new = some a ∧
    ¬ (a = .type ∧ old.widensTo new = true)) ↔
      old ≠ new ∧ ¬ (old.type ≠ new.type ∧ old.widensTo new = true) := by
  rw [ne_eq, ← changedAspect?_eq_none, ← changedAspect?_eq_type]
  cases old.changedAspect? new <;> simp

end Column

namespace SchemaDiff.Pending

variable {live : LiveTable} {t : Table} {ds : List ColumnDiff} {column : String}

/-- The columns whose differences have a property. -/
theorem eachOnce (h : Pending t.storedColumns ds live.columns) {p : ColumnDiff → Prop}
    [DecidablePred p] {q : String → Prop}
    (hq : ∀ column, (∃ e, ColumnDiff.at? column (Keyed.get? live.columns column)
      (Keyed.get? t.storedColumns column) = some e ∧ p e) ↔ q column) :
    EachOnce ((ds.filter fun e => p e).map ColumnDiff.name) q := by
  refine ⟨h.names.sublist (List.filter_sublist.map _), fun column => ?_⟩
  rw [List.mem_map, ← hq]
  constructor
  · rintro ⟨e, he, rfl⟩
    obtain ⟨he, hp⟩ := List.mem_filter.1 he
    exact ⟨e, (h.mem e).1 he, by simpa using hp⟩
  · rintro ⟨e, he, hp⟩
    have hname := ColumnDiff.at?_name he
    subst hname
    exact ⟨e, List.mem_filter.2 ⟨(h.mem e).2 he, by simpa using hp⟩, rfl⟩

theorem dropped (h : Pending t.storedColumns ds live.columns) :
    EachOnce (ColumnTally.of ds).dropped (live.Outdated t) := by
  refine h.eachOnce fun column => ?_
  unfold LiveTable.Outdated
  rcases Keyed.get? live.columns column with _ | old <;>
    rcases Keyed.get? t.storedColumns column with _ | new
  · simp [ColumnDiff.at?]
  · simp [ColumnDiff.at?, ColumnDiff.Drops]
  · simp [ColumnDiff.at?, ColumnDiff.Drops]
  · simpa [ColumnDiff.at?, ColumnDiff.Drops] using Column.changedAspect?_replaces

theorem added (h : Pending t.storedColumns ds live.columns) :
    EachOnce (ColumnTally.of ds).added (live.Lacks t) := by
  refine h.eachOnce fun column => ?_
  unfold LiveTable.Lacks LiveTable.Outdated
  rw [Table.isStored_iff, ← Keyed.get?_isSome, ← Keyed.get?_eq_none]
  rcases Keyed.get? live.columns column with _ | old <;>
    rcases Keyed.get? t.storedColumns column with _ | new
  · simp [ColumnDiff.at?]
  · simp [ColumnDiff.at?, ColumnDiff.Adds]
  · simp [ColumnDiff.at?, ColumnDiff.Adds]
  · simpa [ColumnDiff.at?, ColumnDiff.Adds] using Column.changedAspect?_replaces

theorem retyped (h : Pending t.storedColumns ds live.columns) :
    EachOnce (ColumnTally.of ds).retyped (live.Widened t) := by
  refine h.eachOnce fun column => ?_
  unfold LiveTable.Widened
  rcases Keyed.get? live.columns column with _ | old <;>
    rcases Keyed.get? t.storedColumns column with _ | new
  · simp [ColumnDiff.at?]
  · simp [ColumnDiff.at?, ColumnDiff.Widens]
  · simp [ColumnDiff.at?, ColumnDiff.Widens]
  · simp [ColumnDiff.at?, ColumnDiff.Widens, Column.changedAspect?_eq_type]

end SchemaDiff.Pending

/-! ## Names of indexes that are lost -/

namespace LiveTable

variable {l live : LiveTable} {t : Table} {name : String}

/-- The index at a place is kept. -/
def KeepsAt (live : LiveTable) (t : Table) : IndexPlace → Prop
  | .onTarget text => live.KeepsIndex t text
  | .custom key => live.KeepsCustomIndex t key

theorem losesIndex_iff_place : live.LosesIndex t name ↔
    ∃ p ∈ live.indexPlaces, live.nameAt? p = some name ∧ ¬ live.KeepsAt t p := by
  constructor
  · rintro (⟨text, hmem, hlost⟩ | ⟨key, hmem, hlost⟩)
    · exact ⟨.onTarget text, onTarget_mem_indexPlaces.2 hmem, hlost⟩
    · exact ⟨.custom key, custom_mem_indexPlaces.2 hmem, hlost⟩
  · rintro ⟨p, hp, hlost⟩
    cases p with
    | onTarget text => exact .inl ⟨text, onTarget_mem_indexPlaces.1 hp, hlost⟩
    | custom key => exact .inr ⟨key, custom_mem_indexPlaces.1 hp, hlost⟩

/-- The index that is left at a place has the name that it had. -/
theorem Within.nameAt?_left (h : l.Within live) (hleft : l.HasOwnNames) {p : IndexPlace}
    (hp : p ∈ l.indexPlaces) (hname : live.nameAt? p = some name) : l.nameAt? p = some name := by
  cases hown : l.nameAt? p with
  | none => exact absurd (givenNames_eq l ▸ List.mem_map.2 ⟨p, hp, hown⟩) hleft.known
  | some name' => rw [← hname, h.nameAt? hown]

/-- When what is left of the indexes is what is kept, the names that are gone are those of indexes
that are not. -/
theorem losesIndex_iff (hown : live.HasOwnNames) (hleft : l.HasOwnNames) (hwithin : l.Within live)
    (hindexes : ∀ text, text ∈ l.indexes ↔ live.KeepsIndex t text)
    (hcustom : ∀ key, key ∈ Keyed.names l.customIndexes ↔ live.KeepsCustomIndex t key) :
    live.LosesIndex t name ↔ some name ∈ live.givenNames ∧ some name ∉ l.givenNames := by
  have hkept : ∀ p, p ∈ l.indexPlaces ↔ live.KeepsAt t p := by
    intro p
    cases p with
    | onTarget text => exact onTarget_mem_indexPlaces.trans (hindexes text)
    | custom key => exact custom_mem_indexPlaces.trans (hcustom key)
  rw [losesIndex_iff_place, mem_givenNames, mem_givenNames]
  constructor
  · rintro ⟨p, hp, hname, hnot⟩
    refine ⟨⟨p, hp, hname⟩, fun ⟨q, hq, hqname⟩ => hnot ?_⟩
    have hsame : q = p := place_unique hown.distinct (hwithin.mem_indexPlaces hq) hp
      ((hwithin.nameAt? hqname).trans hname.symm)
    exact (hkept p).1 (hsame ▸ hq)
  · rintro ⟨⟨p, hp, hname⟩, hgone⟩
    refine ⟨p, hp, hname, fun hkeeps => hgone ⟨p, (hkept p).2 hkeeps, ?_⟩⟩
    exact hwithin.nameAt?_left hleft ((hkept p).2 hkeeps) hname

end LiveTable

end WideColumn
