import WideColumn.Schema.Live
import WideColumn.Proofs.Keyed
import WideColumn.Proofs.Outcome

/-!
# Taking things away from a live table

What is left of a live table when indexes, custom indexes and views are taken away from it, what
depends on one of its columns, and what it means that a table is a part of another.
-/

namespace WideColumn

/-! ## Taking several things away -/

/-- Leaving out one name after the other leaves out all of them. -/
theorem filter_notMem_cons {α : Type} (nameOf : α → String) (name : String) (names : List String)
    (es : List α) :
    (es.filter fun e => nameOf e != name).filter (fun e => !names.contains (nameOf e)) =
      es.filter fun e => !(name :: names).contains (nameOf e) := by
  rw [List.filter_filter]
  refine List.filter_congr fun e _ => ?_
  rw [List.contains_cons, Bool.not_or, Bool.and_comm]
  rfl

namespace LiveTable

theorem foldl_withoutView (views : List String) (l : LiveTable) :
    views.foldl withoutView l =
      { l with views := l.views.filter fun e => !views.contains e.1 } := by
  induction views generalizing l with
  | nil => simp
  | cons view views ih =>
    rw [List.foldl_cons, ih, withoutView, ← filter_notMem_cons]
    rfl

theorem foldl_withoutIndex (texts : List String) (l : LiveTable) :
    texts.foldl withoutIndex l = { l with
      indexes := l.indexes.filter fun text => !texts.contains text
      indexNames := l.indexNames.filter fun e => !texts.contains e.1 } := by
  induction texts generalizing l with
  | nil => simp
  | cons text texts ih =>
    rw [List.foldl_cons, ih, withoutIndex, ← filter_notMem_cons, ← filter_notMem_cons]
    rfl

theorem foldl_withoutCustomIndex (keys : List String) (l : LiveTable) :
    keys.foldl withoutCustomIndex l = { l with
      customIndexes := l.customIndexes.filter fun e => !keys.contains e.1
      customIndexNames := l.customIndexNames.filter fun e => !keys.contains e.1 } := by
  induction keys generalizing l with
  | nil => simp
  | cons key keys ih =>
    rw [List.foldl_cons, ih, withoutCustomIndex, ← filter_notMem_cons, ← filter_notMem_cons]
    rfl

/-- The table without views, indexes and custom indexes. -/
def without (l : LiveTable) (ds : Dependents) : LiveTable :=
  ds.customIndexes.foldl withoutCustomIndex
    (ds.indexes.foldl withoutIndex (ds.views.foldl withoutView l))

/-- What is left without views, indexes and custom indexes. -/
theorem without_eq (l : LiveTable) (ds : Dependents) : l.without ds = { l with
    indexes := l.indexes.filter fun text => !ds.indexes.contains text
    customIndexes := l.customIndexes.filter fun e => !ds.customIndexes.contains e.1
    views := l.views.filter fun e => !ds.views.contains e.1
    indexNames := l.indexNames.filter fun e => !ds.indexes.contains e.1
    customIndexNames := l.customIndexNames.filter fun e => !ds.customIndexes.contains e.1 } := by
  rw [without, foldl_withoutCustomIndex, foldl_withoutIndex, foldl_withoutView]

/-- What depends on a column are the things of the table that refer to it. -/
theorem dependentsOf_ok {l : LiveTable} {column : String} {ds : Dependents}
    (h : l.dependentsOf column = .ok ds) :
    (∀ text, text ∈ ds.indexes ↔ text ∈ l.indexes ∧
      ∃ target, IndexTarget.ofText text = .ok target ∧ target.column = column) ∧
    ds.indexes.Sublist l.indexes ∧
    ds.customIndexes = Keyed.names (l.customIndexes.filter fun e => e.2.column == column) ∧
    ds.views = Keyed.names (l.views.filter fun e => e.2.dependsOn column) := by
  unfold dependentsOf at h
  split at h
  · cases h
  rename_i indexes hindexes
  obtain ⟨read, hread, hindexes⟩ := of_bind_ok hindexes
  cases hindexes
  cases h
  have hread := forall₂_of_mapM hread
  have hpair : List.Forall₂ (fun text e => e.1 = text ∧ IndexTarget.ofText text = .ok e.2)
      l.indexes read := hread.imp fun text e he => by
    obtain ⟨target, htarget, he⟩ := of_bind_ok he
    cases he
    exact ⟨rfl, htarget⟩
  have hnames : read.map (·.1) = l.indexes := map_eq_of_forall₂ (fun _ _ he => he.1) hpair
  refine ⟨fun text => ?_, hnames ▸ List.filter_sublist.map _, rfl, rfl⟩
  constructor
  · intro htext
    obtain ⟨e, he, rfl⟩ := List.mem_map.1 htext
    obtain ⟨hmem, hcolumn⟩ := List.mem_filter.1 he
    obtain ⟨text, htext, hname, htarget⟩ := forall₂_mem_right hpair hmem
    exact ⟨hname ▸ htext, e.2, hname ▸ htarget, by simpa using hcolumn⟩
  · rintro ⟨htext, target, htarget, hcolumn⟩
    obtain ⟨e, he, hname, htarget'⟩ := forall₂_mem_right hpair.flip htext
    rw [htarget] at htarget'
    cases htarget'
    exact List.mem_map.2 ⟨e, List.mem_filter.2 ⟨he, by simpa using hcolumn⟩, hname⟩

/-- What depends on a column stands in the order of the table. -/
theorem dependentsOf_sublist {l : LiveTable} {column : String} {ds : Dependents}
    (h : l.dependentsOf column = .ok ds) :
    ds.indexes.Sublist l.indexes ∧ ds.customIndexes.Sublist (Keyed.names l.customIndexes) ∧
      ds.views.Sublist (Keyed.names l.views) := by
  obtain ⟨-, hindexes, hcustom, hviews⟩ := dependentsOf_ok h
  rw [hcustom, hviews]
  exact ⟨hindexes, List.filter_sublist.map _, List.filter_sublist.map _⟩

/-- Where all targets can be read, it is known what depends on a column. -/
theorem dependentsOf_reads (l : LiveTable) (column : String)
    (h : ∀ text ∈ l.indexes, ∃ target, IndexTarget.ofText text = .ok target) :
    ∃ ds, l.dependentsOf column = .ok ds := by
  obtain ⟨read, hread⟩ : ∃ read, l.indexes.mapM (fun s => do
      return (s, ← IndexTarget.ofText s)) = .ok read := mapM_ok fun text htext => by
    obtain ⟨target, htarget⟩ := h text htext
    exact ⟨(text, target), by rw [htarget]; rfl⟩
  have hindexes : indexesOn column l.indexes =
      .ok ((read.filter fun e => e.2.column == column).map (·.1)) := by
    unfold indexesOn
    rw [hread]
    rfl
  unfold dependentsOf
  rw [hindexes]
  exact ⟨_, rfl⟩

/-- What depends on a column is of the table and refers to the column. -/
theorem dependentsOf_mem {l : LiveTable} {column : String} {ds : Dependents}
    (h : l.dependentsOf column = .ok ds) :
    (∀ view ∈ ds.views, ∃ v, (view, v) ∈ l.views ∧ v.dependsOn column = true) ∧
    (∀ text ∈ ds.indexes, ∃ target, text ∈ l.indexes ∧ IndexTarget.ofText text = .ok target ∧
      target.column = column) ∧
    (∀ key ∈ ds.customIndexes, ∃ i, (key, i) ∈ l.customIndexes ∧ i.column = column) := by
  obtain ⟨hindexes, -, hcustom, hviews⟩ := dependentsOf_ok h
  refine ⟨fun view hview => ?_, fun text htext => ?_, fun key hkey => ?_⟩
  · rw [hviews] at hview
    obtain ⟨⟨_, v⟩, he, rfl⟩ := List.mem_map.1 hview
    obtain ⟨hmem, hdepends⟩ := List.mem_filter.1 he
    exact ⟨v, hmem, hdepends⟩
  · obtain ⟨hmem, target, htarget, hcolumn⟩ := (hindexes text).1 htext
    exact ⟨target, hmem, htarget, hcolumn⟩
  · rw [hcustom] at hkey
    obtain ⟨⟨_, i⟩, he, rfl⟩ := List.mem_map.1 hkey
    obtain ⟨hmem, hcolumn⟩ := List.mem_filter.1 he
    exact ⟨i, hmem, by simpa using hcolumn⟩

/-- The views, indexes and custom indexes are of the table, and each of them is named once. -/
structure Holds (l : LiveTable) (ds : Dependents) : Prop where
  nodupViews : ds.views.Nodup
  views : ∀ view ∈ ds.views, view ∈ Keyed.names l.views
  nodupIndexes : ds.indexes.Nodup
  indexes : ∀ text ∈ ds.indexes, text ∈ l.indexes
  nodupCustomIndexes : ds.customIndexes.Nodup
  customIndexes : ∀ key ∈ ds.customIndexes, key ∈ Keyed.names l.customIndexes

/-- A table in which nothing is named twice holds what depends on a column. -/
theorem holds_dependents {l : LiveTable} {column : String} {ds : Dependents}
    (h : l.dependentsOf column = .ok ds) (hviews : (Keyed.names l.views).Nodup)
    (hindexes : l.indexes.Nodup) (hcustom : (Keyed.names l.customIndexes).Nodup) : l.Holds ds := by
  obtain ⟨hsubIndexes, hsubCustom, hsubViews⟩ := dependentsOf_sublist h
  exact ⟨hviews.sublist hsubViews, fun _ hview => hsubViews.subset hview,
    hindexes.sublist hsubIndexes, fun _ htext => hsubIndexes.subset htext,
    hcustom.sublist hsubCustom, fun _ hkey => hsubCustom.subset hkey⟩

end LiveTable

/-! ## The part of a live table that is still there -/

/-- Everything but the columns of the table is of the live table that was found, and the key is the
same. -/
structure LiveTable.Within (l live : LiveTable) : Prop where
  partitionKey : l.partitionKey = live.partitionKey
  clusteringKey : l.clusteringKey = live.clusteringKey
  clusteringOrder : l.clusteringOrder = live.clusteringOrder
  views : ∀ e ∈ l.views, e ∈ live.views
  indexes : ∀ x ∈ l.indexes, x ∈ live.indexes
  customIndexes : ∀ e ∈ l.customIndexes, e ∈ live.customIndexes
  indexNames : ∀ text name, Keyed.get? l.indexNames text = some name →
    Keyed.get? live.indexNames text = some name
  customIndexNames : ∀ key name, Keyed.get? l.customIndexNames key = some name →
    Keyed.get? live.customIndexNames key = some name

namespace LiveTable.Within

variable {l live : LiveTable}

theorem refl (l : LiveTable) : LiveTable.Within l l :=
  ⟨rfl, rfl, rfl, fun _ h => h, fun _ h => h, fun _ h => h, fun _ _ h => h, fun _ _ h => h⟩

theorem keyColumns (h : l.Within live) : l.keyColumns = live.keyColumns := by
  unfold TableShape.keyColumns
  rw [h.partitionKey, h.clusteringKey]

theorem withColumn (h : l.Within live) (name : String) (c : Column) :
    (l.withColumn name c).Within live :=
  ⟨h.partitionKey, h.clusteringKey, h.clusteringOrder, h.views, h.indexes, h.customIndexes,
    h.indexNames, h.customIndexNames⟩

theorem withoutColumn (h : l.Within live) (name : String) : (l.withoutColumn name).Within live :=
  ⟨h.partitionKey, h.clusteringKey, h.clusteringOrder, h.views, h.indexes, h.customIndexes,
    h.indexNames, h.customIndexNames⟩

theorem withoutView (h : l.Within live) (view : String) : (l.withoutView view).Within live :=
  ⟨h.partitionKey, h.clusteringKey, h.clusteringOrder,
    fun e he => h.views e (Keyed.mem_erase.1 he).1, h.indexes, h.customIndexes, h.indexNames,
    h.customIndexNames⟩

theorem withoutIndex (h : l.Within live) (text : String) : (l.withoutIndex text).Within live := by
  refine ⟨h.partitionKey, h.clusteringKey, h.clusteringOrder, h.views,
    fun x hx => h.indexes x (List.mem_filter.1 hx).1, h.customIndexes,
    fun other name hname => h.indexNames other name ?_, h.customIndexNames⟩
  change Keyed.get? (Keyed.erase text l.indexNames) other = some name at hname
  rw [Keyed.get?_erase] at hname
  split at hname
  · cases hname
  · exact hname

theorem withoutCustomIndex (h : l.Within live) (key : String) :
    (l.withoutCustomIndex key).Within live := by
  refine ⟨h.partitionKey, h.clusteringKey, h.clusteringOrder, h.views, h.indexes,
    fun e he => h.customIndexes e (Keyed.mem_erase.1 he).1, h.indexNames,
      fun other name hname => h.customIndexNames other name ?_⟩
  change Keyed.get? (Keyed.erase key l.customIndexNames) other = some name at hname
  rw [Keyed.get?_erase] at hname
  split at hname
  · cases hname
  · exact hname

end LiveTable.Within

/-- Steps each of which keeps a table a part of another, one after the other. -/
theorem LiveTable.within_foldl {live : LiveTable} {g : LiveTable → String → LiveTable}
    (h : ∀ l x, l.Within live → (g l x).Within live) {xs : List String} {l : LiveTable}
    (hl : l.Within live) : (xs.foldl g l).Within live := by
  induction xs generalizing l with
  | nil => exact hl
  | cons x xs ih => exact ih (h l x hl)

theorem LiveTable.Within.without {l live : LiveTable} (h : l.Within live) (ds : Dependents) :
    (l.without ds).Within live :=
  within_foldl (fun _ key hl => hl.withoutCustomIndex key)
    (within_foldl (fun _ text hl => hl.withoutIndex text)
      (within_foldl (fun _ view hl => hl.withoutView view) h))

end WideColumn
