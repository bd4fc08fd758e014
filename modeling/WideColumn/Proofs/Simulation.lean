import WideColumn.Proofs.Keyed
import WideColumn.Proofs.Run

/-!
# What the store makes of statements

A simulated store holds the table that a migration is about, as introspection reads it. `Ddl.apply`
says what a statement that succeeds makes of the table, `Store.Applicable` what has to be there for
a statement to make sense. All statements of a migration are about one table, so that the name of
the table is not looked at.
-/

namespace WideColumn

/-! ## What statements write -/

/-- The column that a statement gives by the text of its type, as introspection reads it. -/
def Column.ofTypeText (typeText : String) (isStatic : Bool) : Column :=
  match ColumnType.split? typeText with
  | some (type, argument) => Column.canonical { type, argument, isStatic }
  | none => Column.canonical { type := typeText, isStatic }

namespace KeyClause

/-- The key over the names that are written. -/
def texts (k : KeyClause Identifier) : KeyClause String where
  partition := k.partition.map Identifier.text
  clustering := k.clustering.map fun c => (c.1.text, c.2)
  ordered := k.ordered

/-- The columns of a key. -/
def columns (k : KeyClause String) : List String := k.partition ++ k.clustering.map (·.1)

/-- The direction of each clustering column; ascending where none is written. -/
def directions (k : KeyClause String) : List (String × String) :=
  Keyed.ofList (k.clustering.map fun c => (c.1, if k.ordered then c.2 else "ASC"))

end KeyClause

/-- The column over the name that is written. -/
def ColumnClause.texts (c : ColumnClause Identifier) : ColumnClause String :=
  ⟨c.name.text, c.typeText, c.isStatic⟩

/-- The view that a statement creates, as introspection reads it. -/
def View.ofClauses (select : Option (List String)) (key : KeyClause String) : View :=
  View.canonical {
    select := select.getD ["*"]
    partitionKey := key.partition
    clusteringKey := key.clustering.map (·.1)
    clusteringOrder := key.directions }

/-- The table that a statement creates, as introspection reads it. -/
def LiveTable.ofClauses (table : String) (columns : List (ColumnClause String))
    (key : KeyClause String) : LiveTable where
  table := table
  columns := columns.map fun c => (c.name, Column.ofTypeText c.typeText c.isStatic)
  partitionKey := key.partition
  clusteringKey := key.clustering.map (·.1)
  clusteringOrder := key.directions

/-! ## The table after a statement -/

namespace LiveTable

/-- The table with another type for a column, which stays static or not as it is. -/
def retyped (l : LiveTable) (column typeText : String) : LiveTable :=
  { l with columns := l.columns.map fun e =>
      if e.1 = column then (e.1, Column.ofTypeText typeText e.2.isStatic) else e }

/-- The table with an index on a target, under the name that the store gives it. -/
def withIndex (l : LiveTable) (naming : String → String) (target : String) : LiveTable :=
  { l with
    indexes := Ordered.distinct (target :: l.indexes)
    indexNames := Keyed.put target (naming target) l.indexNames }

/-- The table with a custom index, under the name that the store gives it. -/
def withCustomIndex (l : LiveTable) (naming : String → String) (i : CustomIndex) : LiveTable :=
  { l with
    customIndexes := Keyed.put i.key i l.customIndexes
    customIndexNames := Keyed.put i.key (naming i.key) l.customIndexNames }

/-- The table with a view. -/
def withView (l : LiveTable) (name : String) (v : View) : LiveTable :=
  { l with views := Keyed.put name v l.views }

/-- The names of the indexes on targets and of the custom indexes; nothing where none is known. -/
def givenNames (l : LiveTable) : List (Option String) :=
  l.indexes.map (Keyed.get? l.indexNames) ++
    (Keyed.names l.customIndexes).map (Keyed.get? l.customIndexNames)

/-- The table without the index of a name. -/
def withoutIndexNamed (l : LiveTable) (name : String) : LiveTable :=
  match l.indexes.find? fun target => Keyed.get? l.indexNames target == some name with
  | some target => l.withoutIndex target
  | none =>
    match (Keyed.names l.customIndexes).find? fun key =>
      Keyed.get? l.customIndexNames key == some name with
    | some key => l.withoutCustomIndex key
    | none => l

end LiveTable

/-- The table after a statement that succeeds. The store names new indexes. -/
def Ddl.apply (naming : String → String) (table? : Option LiveTable) :
    Ddl Identifier → Option LiveTable
  | createTable table columns key =>
    table? <|> some (.ofClauses table.text (columns.map ColumnClause.texts) key.texts)
  | dropTable _ _ => none
  | addColumn _ column typeText isStatic =>
    table?.map (·.withColumn column.text (.ofTypeText typeText isStatic))
  | dropColumn _ column => table?.map (·.withoutColumn column.text)
  | retypeColumn _ column typeText => table?.map (·.retyped column.text typeText)
  | createIndex _ target => table?.map (·.withIndex naming target.canonical)
  | createCustomIndex _ column implementation options =>
    table?.map (·.withCustomIndex naming (.canonical ⟨column.text, implementation, options⟩))
  | dropIndex name _ => table?.map (·.withoutIndexNamed name.text)
  | createView view _ select key =>
    table?.map (·.withView view.text (.ofClauses (select.map (·.map Identifier.text)) key.texts))
  | dropView view _ => table?.map (·.withoutView view.text)

/-! ## The simulated store -/

/-- The table of a migration, if there is one, and the names of what was dropped so far. -/
structure Simulated where
  table? : Option LiveTable
  droppedIndexes : List String := []
  droppedViews : List String := []

/-- No index and no view refers to the column. -/
structure LiveTable.Unreferenced (l : LiveTable) (column : String) : Prop where
  indexes : ∀ text ∈ l.indexes, ∀ target, IndexTarget.ofText text = .ok target →
    target.column ≠ column
  customIndexes : ∀ e ∈ l.customIndexes, e.2.column ≠ column
  views : ∀ e ∈ l.views, e.2.dependsOn column = false

namespace Simulated

/-- The store after a statement that succeeds. -/
def after (naming : String → String) (s : Simulated) (statement : Ddl Identifier) : Simulated where
  table? := statement.apply naming s.table?
  droppedIndexes := match statement with
    | .dropIndex name _ => name.text :: s.droppedIndexes
    | _ => s.droppedIndexes
  droppedViews := match statement with
    | .dropView view _ => view.text :: s.droppedViews
    | _ => s.droppedViews

/-- The statement finds the store as it needs it: what is altered or dropped is there, nothing
refers to a column that is dropped, nothing is dropped twice, and what is created has its columns
and, if it is a view, a name that is free. -/
def Applicable (s : Simulated) : Ddl Identifier → Prop
  | .createTable .. => s.table? = none
  | .dropTable .. => ∃ l, s.table? = some l ∧ l.views = []
  | .addColumn _ column _ _ => ∃ l, s.table? = some l ∧ column.text ∉ Keyed.names l.columns
  | .dropColumn _ column => ∃ l, s.table? = some l ∧ column.text ∈ Keyed.names l.columns ∧
      column.text ∉ l.keyColumns ∧ l.Unreferenced column.text
  | .retypeColumn _ column _ => ∃ l, s.table? = some l ∧ column.text ∈ Keyed.names l.columns
  | .createIndex _ target => ∃ l, s.table? = some l ∧ target.column ∈ Keyed.names l.columns
  | .createCustomIndex _ column _ _ => ∃ l, s.table? = some l ∧
      column.text ∈ Keyed.names l.columns
  | .dropIndex name _ => name.text ∉ s.droppedIndexes ∧
      ∃ l, s.table? = some l ∧ some name.text ∈ l.givenNames
  | .createView view _ select key => ∃ l, s.table? = some l ∧ view.text ∉ Keyed.names l.views ∧
      (∀ c ∈ (select.getD []).map Identifier.text, c ∈ Keyed.names l.columns) ∧
      ∀ c ∈ key.texts.columns, c ∈ Keyed.names l.columns
  | .dropView view _ => view.text ∉ s.droppedViews ∧
      ∃ l, s.table? = some l ∧ view.text ∈ Keyed.names l.views

/-- The watch of the simulated store. -/
def watch (naming : String → String) : Watch Simulated where
  onAsk s _ := s
  allows s statement := s.Applicable statement
  onSend s statement := s.after naming statement

/-- The store after deeds; a statement that fails changes nothing. -/
def afterDeeds (naming : String → String) (s : Simulated) (ds : List Deed) : Simulated :=
  ds.foldl (fun s d => match d with
    | .sent step none => s.after naming step.statement
    | _ => s) s

theorem afterDeeds_eq (naming : String → String) (s : Simulated) (ds : List Deed) :
    s.afterDeeds naming ds = ds.foldl (Deed.watched (watch naming)) s := by
  unfold afterDeeds
  congr 1
  funext s d
  rcases d with _ | ⟨_, _ | _⟩ <;> rfl

end Simulated

/-! ## Indexes under their names -/

/-- Where a live table has an index: on a target, or as the custom index under a key. -/
inductive IndexPlace where
  | onTarget (text : String)
  | custom (key : String)
  deriving DecidableEq

namespace LiveTable

variable {l : LiveTable} {p q : IndexPlace} {name : String}

/-- Every index has a name of its own. -/
structure HasOwnNames (l : LiveTable) : Prop where
  known : none ∉ l.givenNames
  distinct : l.givenNames.Nodup

/-- The places of the indexes and of the custom indexes. -/
def indexPlaces (l : LiveTable) : List IndexPlace :=
  l.indexes.map .onTarget ++ (Keyed.names l.customIndexes).map .custom

/-- The name of the index at a place; nothing where none is known. -/
def nameAt? (l : LiveTable) : IndexPlace → Option String
  | .onTarget text => Keyed.get? l.indexNames text
  | .custom key => Keyed.get? l.customIndexNames key

@[simp] theorem nameAt?_onTarget (l : LiveTable) (text : String) :
    l.nameAt? (.onTarget text) = Keyed.get? l.indexNames text := rfl

@[simp] theorem nameAt?_custom (l : LiveTable) (key : String) :
    l.nameAt? (.custom key) = Keyed.get? l.customIndexNames key := rfl

/-- The table without the index at a place. -/
def withoutIndexAt (l : LiveTable) : IndexPlace → LiveTable
  | .onTarget text => l.withoutIndex text
  | .custom key => l.withoutCustomIndex key

@[simp] theorem onTarget_mem_indexPlaces {text : String} :
    .onTarget text ∈ l.indexPlaces ↔ text ∈ l.indexes := by simp [indexPlaces]

@[simp] theorem custom_mem_indexPlaces {key : String} :
    .custom key ∈ l.indexPlaces ↔ key ∈ Keyed.names l.customIndexes := by simp [indexPlaces]

theorem givenNames_eq (l : LiveTable) : l.givenNames = l.indexPlaces.map l.nameAt? := by
  rw [indexPlaces, List.map_append, List.map_map, List.map_map]
  rfl

theorem mem_givenNames :
    some name ∈ l.givenNames ↔ ∃ p ∈ l.indexPlaces, l.nameAt? p = some name := by
  rw [givenNames_eq, List.mem_map]

/-- Where the names are distinct there is one place for each. -/
theorem place_unique (h : l.givenNames.Nodup) (hp : p ∈ l.indexPlaces) (hq : q ∈ l.indexPlaces)
    (hname : l.nameAt? p = l.nameAt? q) : p = q :=
  List.inj_on_of_nodup_map (givenNames_eq l ▸ h) hp hq hname

/-- Taking away the index of a name takes it away from the place that has the name. -/
theorem withoutIndexNamed_eq (h : l.givenNames.Nodup) (hp : p ∈ l.indexPlaces)
    (hname : l.nameAt? p = some name) : l.withoutIndexNamed name = l.withoutIndexAt p := by
  unfold withoutIndexNamed
  split
  · rename_i text htext
    have hfound : l.nameAt? (.onTarget text) = some name := by simpa using List.find?_some htext
    have hmem := onTarget_mem_indexPlaces.2 (List.mem_of_find?_eq_some htext)
    rw [place_unique h hp hmem (hname.trans hfound.symm)]
    rfl
  · rename_i hnone
    split
    · rename_i key hkey
      have hfound : l.nameAt? (.custom key) = some name := by simpa using List.find?_some hkey
      have hmem := custom_mem_indexPlaces.2 (List.mem_of_find?_eq_some hkey)
      rw [place_unique h hp hmem (hname.trans hfound.symm)]
      rfl
    · rename_i hnoneCustom
      cases p with
      | onTarget text =>
        have hnot := List.find?_eq_none.1 hnone text (onTarget_mem_indexPlaces.1 hp)
        exact absurd hname (by simpa using hnot)
      | custom key =>
        have hnot := List.find?_eq_none.1 hnoneCustom key (custom_mem_indexPlaces.1 hp)
        exact absurd hname (by simpa using hnot)

/-! ### The names that are left -/

@[simp] theorem columns_withoutIndexAt (l : LiveTable) (p : IndexPlace) :
    (l.withoutIndexAt p).columns = l.columns := by cases p <;> rfl

@[simp] theorem views_withoutIndexAt (l : LiveTable) (p : IndexPlace) :
    (l.withoutIndexAt p).views = l.views := by cases p <;> rfl

theorem indexPlaces_withoutIndexAt (l : LiveTable) (p : IndexPlace) :
    (l.withoutIndexAt p).indexPlaces = l.indexPlaces.filter (· ≠ p) := by
  -- places of the other kind are never left out
  have hothers : ∀ {xs : List String} (place : String → IndexPlace), (∀ x, place x ≠ p) →
      (xs.map place).filter (· ≠ p) = xs.map place := fun _ h =>
    List.filter_eq_self.2 (List.forall_mem_map.2 fun x _ => by simpa using h x)
  unfold indexPlaces
  rw [List.filter_append]
  cases p with
  | onTarget text =>
    rw [hothers .custom nofun, List.filter_map]
    refine congrArg (· ++ _) (congrArg (List.map IndexPlace.onTarget) ?_)
    exact List.filter_congr fun x _ => by simp [bne, beq_eq_decide]
  | custom key =>
    rw [hothers .onTarget nofun, List.filter_map]
    refine congrArg (_ ++ ·) (congrArg (List.map IndexPlace.custom) ?_)
    refine (Keyed.names_erase ..).trans (List.filter_congr fun x _ => ?_)
    simp [bne, beq_eq_decide]

theorem nameAt?_withoutIndexAt (hne : q ≠ p) : (l.withoutIndexAt p).nameAt? q = l.nameAt? q := by
  cases p <;> cases q <;> first
    | rfl
    | exact Keyed.get?_erase_of_ne fun heq => hne (congrArg _ heq)

/-- Without an index its name is gone, and the other names are left. -/
theorem mem_givenNames_withoutIndexAt (h : l.givenNames.Nodup) (hp : p ∈ l.indexPlaces)
    (hname : l.nameAt? p = some name) {other : String} :
    some other ∈ (l.withoutIndexAt p).givenNames ↔ some other ∈ l.givenNames ∧ other ≠ name := by
  simp only [mem_givenNames, indexPlaces_withoutIndexAt, List.mem_filter, decide_eq_true_eq]
  constructor
  · rintro ⟨q, ⟨hq, hne⟩, hother⟩
    rw [nameAt?_withoutIndexAt hne] at hother
    refine ⟨⟨q, hq, hother⟩, ?_⟩
    rintro rfl
    exact hne (place_unique h hq hp (hother.trans hname.symm))
  · rintro ⟨⟨q, hq, hother⟩, hne⟩
    have hapart : q ≠ p := by
      rintro rfl
      exact hne (Option.some.inj (hother.symm.trans hname))
    exact ⟨q, ⟨hq, hapart⟩, (nameAt?_withoutIndexAt hapart).trans hother⟩

theorem givenNames_withoutIndexAt_sublist (l : LiveTable) (p : IndexPlace) :
    (l.withoutIndexAt p).givenNames.Sublist l.givenNames := by
  have hsame : (l.indexPlaces.filter (· ≠ p)).map (l.withoutIndexAt p).nameAt? =
      (l.indexPlaces.filter (· ≠ p)).map l.nameAt? :=
    List.map_congr_left fun q hq => nameAt?_withoutIndexAt (by simpa using (List.mem_filter.1 hq).2)
  rw [givenNames_eq, givenNames_eq, indexPlaces_withoutIndexAt, hsame]
  exact List.filter_sublist.map _

end LiveTable

end WideColumn
