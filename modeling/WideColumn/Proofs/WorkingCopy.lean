import WideColumn.Proofs.Differences
import WideColumn.Proofs.Dropping
import WideColumn.Proofs.Naming

/-!
# The working copy and the store

While a plan alters a table it keeps a copy of the live table, from which it takes away what it
drops and to which it adds what it adds. `Migration.Mirrors` says that the copy is what the
simulated store holds: everything but the values of columns is the same, the columns have the same
names, and the values are related as a parameter says. Each part of a plan that drops something or
changes a column keeps the two in step, and finds the store as its statements need it.
-/

namespace WideColumn

/-- Where the name is accepted it is written as it is. -/
def Name.KeepsSpelling (name : String) : Prop :=
  ∀ i, Identifier.ofText name = .ok i → i.text = name

theorem Name.IsPlain.keepsSpelling {name : String} (h : Name.IsPlain name) :
    Name.KeepsSpelling name := fun _ hi => (Identifier.text_eq_iff hi).2 h

/-- Nothing refers to a column once what depends on it is gone. -/
theorem LiveTable.unreferenced_without {l : LiveTable} {column : String} {ds : Dependents}
    (h : l.dependentsOf column = .ok ds) : (l.without ds).Unreferenced column := by
  obtain ⟨hindexes, -, hcustom, hviews⟩ := LiveTable.dependentsOf_ok h
  rw [LiveTable.without_eq]
  refine ⟨fun text htext target htarget hcolumn => ?_, fun e he hcolumn => ?_, fun e he => ?_⟩
  · obtain ⟨htext, hnot⟩ := List.mem_filter.1 htext
    have hmem : text ∈ ds.indexes := (hindexes text).2 ⟨htext, target, htarget, hcolumn⟩
    simp [hmem] at hnot
  · obtain ⟨he, hnot⟩ := List.mem_filter.1 he
    have hmem : e.1 ∈ ds.customIndexes := by
      rw [hcustom]
      exact List.mem_map_of_mem (List.mem_filter.2 ⟨he, by simpa using hcolumn⟩)
    simp [hmem] at hnot
  · obtain ⟨he, hnot⟩ := List.mem_filter.1 he
    refine Bool.eq_false_iff.2 fun hdepends => ?_
    have hmem : e.1 ∈ ds.views := by
      rw [hviews]
      exact List.mem_map_of_mem (List.mem_filter.2 ⟨he, hdepends⟩)
    simp [hmem] at hnot

/-- Where the names of the table's columns, views and indexes are accepted they are written as they
are. -/
structure LiveTable.KeepsSpelling (l : LiveTable) : Prop where
  columns : ∀ column ∈ Keyed.names l.columns, Name.KeepsSpelling column
  views : ∀ view ∈ Keyed.names l.views, Name.KeepsSpelling view
  indexes : ∀ name, some name ∈ l.givenNames → Name.KeepsSpelling name

namespace Migration

open Draft

/-! ## The copy and the store in step -/

/-- The store holds what the working copy says, but for the values of columns, which are related by
`same`; what was dropped is in the copy no more. -/
structure Mirrors (same : String → Column → Column → Prop) (l : LiveTable) (s : Simulated) :
    Prop where
  table : ∃ columns, s.table? = some { l with columns } ∧ Keyed.Alike same columns l.columns
  ownNames : l.givenNames.Nodup
  droppedIndexes : ∀ name ∈ s.droppedIndexes, some name ∉ l.givenNames
  droppedViews : ∀ view ∈ s.droppedViews, view ∉ Keyed.names l.views
  views : (Keyed.names l.views).Nodup
  spelling : l.KeepsSpelling

variable {naming : String → String} {same : String → Column → Column → Prop} {t : Table}
  {l : LiveTable} {s : Simulated}

namespace Mirrors

/-! ### Dropping -/

/-- A view of the copy is dropped from both. -/
theorem keeps_dropView {view : String} (h : Mirrors same l s) (hmem : view ∈ Keyed.names l.views) :
    Keeps (Simulated.watch naming) s (dropView t l view)
      fun l' s' => l' = l.withoutView view ∧ Mirrors same l' s' := by
  refine Keeps.dropView fun i hi _ => ?_
  have htext : i.text = view := h.spelling.views view hmem i hi
  obtain ⟨columns, htable, halike⟩ := h.table
  have hleft : ∀ v ∈ Keyed.names (l.withoutView view).views, v ∈ Keyed.names l.views ∧ v ≠ view :=
    fun v hv => Keyed.mem_names_erase.1 hv
  refine ⟨⟨?_, _, htable, ?_⟩, rfl, ⟨columns, ?_, halike⟩, h.ownNames, h.droppedIndexes, ?_,
    Keyed.nodup_erase h.views, ?_⟩
  · rw [htext]
    exact fun hdropped => h.droppedViews view hdropped hmem
  · rw [htext]
    exact hmem
  · change (s.table?.map (·.withoutView i.text)) = _
    rw [htable, htext]
    rfl
  · intro v hv hleftover
    obtain ⟨hother, hne⟩ := hleft v hleftover
    rcases List.mem_cons.1 hv with rfl | hv
    · exact hne htext
    · exact h.droppedViews v hv hother
  · exact ⟨h.spelling.columns, fun v hv => h.spelling.views v (hleft v hv).1, h.spelling.indexes⟩

/-- The drop of an index is sent for an index that is there, and takes it away from both. -/
theorem dropsIndex {p : IndexPlace} {name : String} {i : Identifier} (h : Mirrors same l s)
    (hp : p ∈ l.indexPlaces) (hname : l.nameAt? p = some name)
    (hi : Identifier.ofText name = .ok i) :
    (Simulated.watch naming).allows s (.dropIndex i true) ∧
      Mirrors same (l.withoutIndexAt p) ((Simulated.watch naming).onSend s (.dropIndex i true)) := by
  have hgiven : some name ∈ l.givenNames := LiveTable.mem_givenNames.2 ⟨p, hp, hname⟩
  have htext : i.text = name := h.spelling.indexes name hgiven i hi
  have hsublist := l.givenNames_withoutIndexAt_sublist p
  have hgone : some name ∉ (l.withoutIndexAt p).givenNames := fun hleft =>
    ((LiveTable.mem_givenNames_withoutIndexAt h.ownNames hp hname).1 hleft).2 rfl
  obtain ⟨columns, htable, halike⟩ := h.table
  refine ⟨⟨?_, _, htable, htext ▸ hgiven⟩, ⟨columns, ?_, ?_⟩, h.ownNames.sublist hsublist, ?_, ?_,
    ?_, ?_, ?_, fun n hn => h.spelling.indexes n (hsublist.subset hn)⟩
  · rw [htext]
    exact fun hdropped => h.droppedIndexes name hdropped hgiven
  · have hwithout := LiveTable.withoutIndexNamed_eq (l := { l with columns }) h.ownNames hp hname
    change (s.table?.map (·.withoutIndexNamed i.text)) = _
    rw [htable, htext, Option.map_some, hwithout]
    cases p <;> rfl
  · rwa [LiveTable.columns_withoutIndexAt]
  · intro n hn hleft
    rcases List.mem_cons.1 hn with rfl | hn
    · exact hgone (htext ▸ hleft)
    · exact h.droppedIndexes n hn (hsublist.subset hleft)
  · rw [LiveTable.views_withoutIndexAt]
    exact h.droppedViews
  · rw [LiveTable.views_withoutIndexAt]
    exact h.views
  · rw [LiveTable.columns_withoutIndexAt]
    exact h.spelling.columns
  · rw [LiveTable.views_withoutIndexAt]
    exact h.spelling.views

/-- An index of the copy is dropped from both. -/
theorem keeps_dropIndex {text : String} (h : Mirrors same l s) (hmem : text ∈ l.indexes) :
    Keeps (Simulated.watch naming) s (dropIndex t l text)
      fun l' s' => l' = l.withoutIndex text ∧ Mirrors same l' s' :=
  Keeps.dropIndex fun _ _ hname hi =>
    (h.dropsIndex (LiveTable.onTarget_mem_indexPlaces.2 hmem) hname hi).imp_right fun h' => ⟨rfl, h'⟩

/-- A custom index of the copy is dropped from both. -/
theorem keeps_dropCustomIndex {key : String} (h : Mirrors same l s)
    (hmem : key ∈ Keyed.names l.customIndexes) :
    Keeps (Simulated.watch naming) s (dropCustomIndex t l key)
      fun l' s' => l' = l.withoutCustomIndex key ∧ Mirrors same l' s' :=
  Keeps.dropCustomIndex fun _ _ hname hi =>
    (h.dropsIndex (LiveTable.custom_mem_indexPlaces.2 hmem) hname hi).imp_right fun h' => ⟨rfl, h'⟩

/-- Drops keep the copy and the store in step. -/
theorem keptByDrops : KeptByDrops (Simulated.watch naming) t (Mirrors same) where
  views _ _ h := h.views
  givenNames _ _ h := h.ownNames
  ask _ _ _ h := ⟨trivial, h⟩
  dropView _ _ _ h hmem := h.keeps_dropView hmem
  dropIndex _ _ _ h hmem := h.keeps_dropIndex hmem
  dropCustomIndex _ _ _ h hmem := h.keeps_dropCustomIndex hmem

/-! ### Columns -/

/-- A column of the copy that is no key column is removed from both. -/
theorem keeps_removeColumn {column : String} (h : Mirrors same l s)
    (hmem : column ∈ Keyed.names l.columns) (hkey : column ∉ l.keyColumns) :
    Keeps (Simulated.watch naming) s (removeColumn t l column)
      fun l' s' => ∃ ds, l' = (l.without ds).withoutColumn column ∧ Mirrors same l' s' := by
  refine Keeps.removeColumn ((keptByDrops.dropDependents h).mono ?_)
  rintro _ s' ⟨ds, hds, rfl, h'⟩ table i - hi
  have hcolumns : (l.without ds).columns = l.columns := by rw [LiveTable.without_eq]
  have hkeys : (l.without ds).keyColumns = l.keyColumns := by
    rw [LiveTable.without_eq]
    rfl
  have htext : i.text = column := h.spelling.columns column hmem i hi
  obtain ⟨columns, htable, halike⟩ := h'.table
  refine ⟨⟨_, htable, ?_, ?_, ?_⟩, ds, rfl, ⟨Keyed.erase column columns, ?_, halike.erase column⟩,
    h'.ownNames, h'.droppedIndexes, h'.droppedViews, h'.views, ?_⟩
  · change i.text ∈ Keyed.names columns
    rw [halike.names_eq, htext, hcolumns]
    exact hmem
  · change i.text ∉ (l.without ds).keyColumns
    rw [htext, hkeys]
    exact hkey
  · obtain ⟨hindexes, hcustom, hviews⟩ := LiveTable.unreferenced_without hds
    rw [htext]
    exact ⟨hindexes, hcustom, hviews⟩
  · change (s'.table?.map (·.withoutColumn i.text)) = _
    rw [htable, htext]
    rfl
  · exact ⟨fun c hc => h'.spelling.columns c (Keyed.mem_names_erase.1 hc).1, h'.spelling.views,
      h'.spelling.indexes⟩

/-- A new column is added to both. -/
theorem keeps_addColumn {column : String} {c : Column} (h : Mirrors same l s)
    (hnew : column ∉ Keyed.names l.columns) (hspelling : Name.KeepsSpelling column)
    (hsame : same column (.ofTypeText c.typeText c.isStatic) c) :
    Keeps (Simulated.watch naming) s (addColumn t l column c)
      fun l' s' => l' = l.withColumn column c ∧ Mirrors same l' s' := by
  refine Keeps.addColumn fun table i _ hi => ?_
  have htext : i.text = column := hspelling i hi
  obtain ⟨columns, htable, halike⟩ := h.table
  refine ⟨⟨_, htable, ?_⟩, rfl, ⟨_, ?_, halike.put hsame⟩, h.ownNames, h.droppedIndexes,
    h.droppedViews, h.views, ?_⟩
  · change i.text ∉ Keyed.names columns
    rw [halike.names_eq, htext]
    exact hnew
  · change (s.table?.map fun l => l.withColumn i.text (.ofTypeText c.typeText c.isStatic)) = _
    rw [htable, htext]
    rfl
  · refine ⟨fun other hother => ?_, h.spelling.views, h.spelling.indexes⟩
    rcases Keyed.mem_names_put.1 hother with rfl | hother
    · exact hspelling
    · exact h.spelling.columns other hother

/-- A column of the copy gets another type in both. -/
theorem keeps_retypeColumn {column : String} {old c : Column} (h : Mirrors same l s)
    (hnodup : (Keyed.names l.columns).Nodup) (hold : Keyed.get? l.columns column = some old)
    (hsame : ∀ a, same column a old → same column (.ofTypeText c.typeText a.isStatic) c) :
    Keeps (Simulated.watch naming) s (retypeColumn t l column c)
      fun l' s' => l' = l.withColumn column c ∧ Mirrors same l' s' := by
  have hmem : column ∈ Keyed.names l.columns := Keyed.mem_names_of_mem (Keyed.mem_of_get? hold)
  refine Keeps.retypeColumn fun table i _ hi => ?_
  have htext : i.text = column := h.spelling.columns column hmem i hi
  obtain ⟨columns, htable, halike⟩ := h.table
  have halike' : Keyed.Alike same
      (columns.map fun e => if e.1 = column then (e.1, .ofTypeText c.typeText e.2.isStatic) else e)
      (l.withColumn column c).columns := by
    refine halike.map_put (f := fun a => .ofTypeText c.typeText a.isStatic) hnodup hmem
      fun a ha => hsame a ?_
    obtain ⟨a', ha', hsame'⟩ := halike.get? hold
    rw [ha'] at ha
    exact Option.some.inj ha ▸ hsame'
  refine ⟨⟨_, htable, ?_⟩, rfl, ⟨_, ?_, halike'⟩, h.ownNames, h.droppedIndexes, h.droppedViews,
    h.views, ?_⟩
  · change i.text ∈ Keyed.names columns
    rw [halike.names_eq, htext]
    exact hmem
  · change (s.table?.map (·.retyped i.text c.typeText)) = _
    rw [htable, htext]
    rfl
  · refine ⟨fun other hother => ?_, h.spelling.views, h.spelling.indexes⟩
    rcases Keyed.mem_names_put.1 hother with rfl | hother
    · exact h.spelling.columns other hmem
    · exact h.spelling.columns other hother

end Mirrors

end Migration

end WideColumn
