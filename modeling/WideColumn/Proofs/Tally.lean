import WideColumn.Proofs.Convergence

/-!
# What is sent in all

A tally lists, in order, what the statements of a plan drop, add, alter and create. While columns
are altered and what is not declared is dropped, a view or an index is in the tally of drops exactly
when it was in the live table and is in the working copy no more (`Migration.Tallied`), so that
nothing is dropped twice; which columns are in the tally follows from the kinds of their
differences, and what is left in the working copy is what refers to no dropped column
(`Migration.Intact`).
-/

namespace WideColumn

/-! ## Tallies -/

/-- The columns that statements drop, add and alter in place. -/
structure ColumnTally where
  dropped : List String := []
  added : List String := []
  retyped : List String := []

/-- The targets, custom indexes and views that statements create; custom indexes by their keys. -/
structure CreationTally where
  indexes : List String := []
  customIndexes : List String := []
  views : List String := []

/-- What statements did, and how many tables they created or dropped. -/
structure Tally where
  columns : ColumnTally := {}
  droppedViews : List String := []
  droppedIndexes : List String := []
  created : CreationTally := {}
  tables : Nat := 0

namespace Tally

/-- The tally after a statement. -/
def after (s : Tally) : Ddl Identifier → Tally
  | .createTable _ _ _ | .dropTable _ _ => { s with tables := s.tables + 1 }
  | .addColumn _ column _ _ =>
    { s with columns := { s.columns with added := s.columns.added ++ [column.text] } }
  | .dropColumn _ column =>
    { s with columns := { s.columns with dropped := s.columns.dropped ++ [column.text] } }
  | .retypeColumn _ column _ =>
    { s with columns := { s.columns with retyped := s.columns.retyped ++ [column.text] } }
  | .createIndex _ target =>
    { s with created := { s.created with indexes := s.created.indexes ++ [target.canonical] } }
  | .createCustomIndex _ column implementation options =>
    { s with created := { s.created with customIndexes := s.created.customIndexes ++
        [(CustomIndex.canonical ⟨column.text, implementation, options⟩).key] } }
  | .dropIndex name _ => { s with droppedIndexes := s.droppedIndexes ++ [name.text] }
  | .createView view _ _ _ =>
    { s with created := { s.created with views := s.created.views ++ [view.text] } }
  | .dropView view _ => { s with droppedViews := s.droppedViews ++ [view.text] }

/-- The watch that keeps the tally. -/
def watch : Watch Tally where
  onAsk s _ := s
  allows _ _ := True
  onSend := after

/-- The tally of the statements that succeeded. -/
def ofDeeds (ds : List Deed) : Tally := ds.foldl (Deed.watched watch) {}

end Tally

/-! ## Kinds of differences -/

namespace ColumnDiff

/-- The column is dropped. -/
def Drops : ColumnDiff → Prop
  | .added _ _ => False
  | .removed _ _ => True
  | .changed _ aspect old new => ¬ (aspect = .type ∧ old.widensTo new = true)

/-- The column is added. -/
def Adds : ColumnDiff → Prop
  | .added _ _ => True
  | .removed _ _ => False
  | .changed _ aspect old new => ¬ (aspect = .type ∧ old.widensTo new = true)

instance : (e : ColumnDiff) → Decidable e.Drops
  | .added _ _ => instDecidableFalse
  | .removed _ _ => instDecidableTrue
  | .changed _ _ _ _ => instDecidableNot

instance : (e : ColumnDiff) → Decidable e.Adds
  | .added _ _ => instDecidableTrue
  | .removed _ _ => instDecidableFalse
  | .changed _ _ _ _ => instDecidableNot

instance : (e : ColumnDiff) → Decidable e.Widens
  | .added _ _ | .removed _ _ => instDecidableFalse
  | .changed _ _ _ _ => instDecidableAnd

end ColumnDiff

/-- The tally of columns for differences that are applied. -/
def ColumnTally.of (ds : List ColumnDiff) : ColumnTally where
  dropped := (ds.filter fun e => e.Drops).map ColumnDiff.name
  added := (ds.filter fun e => e.Adds).map ColumnDiff.name
  retyped := (ds.filter fun e => e.Widens).map ColumnDiff.name

/-! ## Names of indexes -/

namespace LiveTable

variable {l live : LiveTable} {name : String}

/-- Indexes have names of their own when some of them are gone. -/
theorem HasOwnNames.of_sublist (h : live.HasOwnNames)
    (hsublist : l.givenNames.Sublist live.givenNames) : l.HasOwnNames :=
  ⟨fun hnone => h.known (hsublist.subset hnone), h.distinct.sublist hsublist⟩

theorem Within.mem_indexPlaces (h : l.Within live) {p : IndexPlace} (hp : p ∈ l.indexPlaces) :
    p ∈ live.indexPlaces := by
  cases p with
  | onTarget text =>
    exact onTarget_mem_indexPlaces.2 (h.indexes text (onTarget_mem_indexPlaces.1 hp))
  | custom key =>
    obtain ⟨e, he, rfl⟩ := List.mem_map.1 (custom_mem_indexPlaces.1 hp)
    exact custom_mem_indexPlaces.2 (List.mem_map_of_mem (h.customIndexes e he))

theorem Within.nameAt? (h : l.Within live) {p : IndexPlace} (hname : l.nameAt? p = some name) :
    live.nameAt? p = some name := by
  cases p with
  | onTarget text => exact h.indexNames text name hname
  | custom key => exact h.customIndexNames key name hname

theorem Within.withoutIndexAt (h : l.Within live) (p : IndexPlace) :
    (l.withoutIndexAt p).Within live := by
  cases p with
  | onTarget text => exact h.withoutIndex text
  | custom key => exact h.withoutCustomIndex key

theorem Within.mem_givenNames (h : l.Within live) (hmem : some name ∈ l.givenNames) :
    some name ∈ live.givenNames := by
  obtain ⟨p, hp, hname⟩ := LiveTable.mem_givenNames.1 hmem
  exact LiveTable.mem_givenNames.2 ⟨p, h.mem_indexPlaces hp, h.nameAt? hname⟩

theorem Within.mem_viewNames (h : l.Within live) {view : String}
    (hmem : view ∈ Keyed.names l.views) : view ∈ Keyed.names live.views := by
  obtain ⟨e, he, rfl⟩ := List.mem_map.1 hmem
  exact List.mem_map_of_mem (h.views e he)

end LiveTable

namespace Migration

open Draft ColumnDiff

variable {t : Table} {live l : LiveTable} {cs : ColumnTally} {s : Tally}

/-! ## Drops -/

/-- Nothing was created, the tally of columns is as given, and of views and indexes it lists what
was in the live table and is in the working copy no more. -/
structure Tallied (live : LiveTable) (cs : ColumnTally) (l : LiveTable) (s : Tally) : Prop where
  columns : s.columns = cs
  created : s.created = {}
  tables : s.tables = 0
  views : (Keyed.names l.views).Nodup
  ownNames : l.HasOwnNames
  spelling : l.KeepsSpelling
  within : l.Within live
  nodupViews : s.droppedViews.Nodup
  memViews : ∀ view, view ∈ s.droppedViews ↔
    view ∈ Keyed.names live.views ∧ view ∉ Keyed.names l.views
  nodupIndexes : s.droppedIndexes.Nodup
  memIndexes : ∀ name, name ∈ s.droppedIndexes ↔
    some name ∈ live.givenNames ∧ some name ∉ l.givenNames

namespace Tallied

/-- At first nothing is in the tally. -/
theorem of_live (hcanonical : live.Canonical) (hspelling : live.KeepsSpelling) :
    Tallied live {} live {} where
  columns := rfl
  created := rfl
  tables := rfl
  views := hcanonical.views
  ownNames := hcanonical.ownNames
  spelling := hspelling
  within := .refl live
  nodupViews := List.nodup_nil
  memViews _ := ⟨fun h => absurd h List.not_mem_nil, fun h => absurd h.1 h.2⟩
  nodupIndexes := List.nodup_nil
  memIndexes _ := ⟨fun h => absurd h List.not_mem_nil, fun h => absurd h.1 h.2⟩

theorem keeps_dropView {view : String} (h : Tallied live cs l s)
    (hmem : view ∈ Keyed.names l.views) :
    Keeps Tally.watch s (dropView t l view)
      fun l' s' => l' = l.withoutView view ∧ Tallied live cs l' s' := by
  refine Keeps.dropView fun i hi _ => ⟨trivial, rfl, ?_⟩
  have htext : i.text = view := h.spelling.views view hmem i hi
  have hnew : view ∉ s.droppedViews := fun hdropped => ((h.memViews view).1 hdropped).2 hmem
  refine ⟨h.columns, h.created, h.tables, Keyed.nodup_erase h.views,
    h.ownNames.of_sublist (.refl _),
    ⟨h.spelling.columns, fun v hv => h.spelling.views v (Keyed.mem_names_erase.1 hv).1,
      h.spelling.indexes⟩, h.within.withoutView view, ?_, fun v => ?_, h.nodupIndexes, h.memIndexes⟩
  · change (s.droppedViews ++ [i.text]).Nodup
    rw [htext]
    exact List.nodup_append.2 ⟨h.nodupViews, List.nodup_singleton view, fun v hv w hw => by
      rw [List.mem_singleton.1 hw]
      exact fun heq => hnew (heq ▸ hv)⟩
  · change v ∈ s.droppedViews ++ [i.text] ↔ v ∈ Keyed.names live.views ∧
      v ∉ Keyed.names (Keyed.erase view l.views)
    rw [htext, List.mem_append, List.mem_singleton, h.memViews v, Keyed.mem_names_erase, not_and_or,
      not_not, and_or_left]
    refine or_congr_right ⟨?_, And.right⟩
    rintro rfl
    exact ⟨h.within.mem_viewNames hmem, rfl⟩

/-- Dropping an index adds its name to the tally. -/
theorem dropsIndex {p : IndexPlace} {name : String} {i : Identifier} (h : Tallied live cs l s)
    (hp : p ∈ l.indexPlaces) (hname : l.nameAt? p = some name)
    (hi : Identifier.ofText name = .ok i) :
    Tallied live cs (l.withoutIndexAt p) (s.after (.dropIndex i true)) := by
  have hgiven : some name ∈ l.givenNames := LiveTable.mem_givenNames.2 ⟨p, hp, hname⟩
  have htext : i.text = name := h.spelling.indexes name hgiven i hi
  have hsublist := l.givenNames_withoutIndexAt_sublist p
  have hnew : name ∉ s.droppedIndexes := fun hdropped => ((h.memIndexes name).1 hdropped).2 hgiven
  refine ⟨h.columns, h.created, h.tables, ?_, h.ownNames.of_sublist hsublist, ⟨?_, ?_,
    fun n hn => h.spelling.indexes n (hsublist.subset hn)⟩, h.within.withoutIndexAt p, h.nodupViews,
    ?_, ?_, fun other => ?_⟩
  · rw [LiveTable.views_withoutIndexAt]
    exact h.views
  · rw [LiveTable.columns_withoutIndexAt]
    exact h.spelling.columns
  · rw [LiveTable.views_withoutIndexAt]
    exact h.spelling.views
  · rw [LiveTable.views_withoutIndexAt]
    exact h.memViews
  · change (s.droppedIndexes ++ [i.text]).Nodup
    rw [htext]
    exact List.nodup_append.2 ⟨h.nodupIndexes, List.nodup_singleton name, fun v hv w hw => by
      rw [List.mem_singleton.1 hw]
      exact fun heq => hnew (heq ▸ hv)⟩
  · change other ∈ s.droppedIndexes ++ [i.text] ↔ _
    rw [htext, List.mem_append, List.mem_singleton, h.memIndexes other,
      LiveTable.mem_givenNames_withoutIndexAt h.ownNames.distinct hp hname, not_and_or, not_not,
      and_or_left]
    refine or_congr_right ⟨?_, And.right⟩
    rintro rfl
    exact ⟨h.within.mem_givenNames hgiven, rfl⟩

theorem keeps_dropIndex {text : String} (h : Tallied live cs l s) (hmem : text ∈ l.indexes) :
    Keeps Tally.watch s (dropIndex t l text)
      fun l' s' => l' = l.withoutIndex text ∧ Tallied live cs l' s' :=
  Keeps.dropIndex fun _ _ hname hi =>
    ⟨trivial, rfl, h.dropsIndex (LiveTable.onTarget_mem_indexPlaces.2 hmem) hname hi⟩

theorem keeps_dropCustomIndex {key : String} (h : Tallied live cs l s)
    (hmem : key ∈ Keyed.names l.customIndexes) :
    Keeps Tally.watch s (dropCustomIndex t l key)
      fun l' s' => l' = l.withoutCustomIndex key ∧ Tallied live cs l' s' :=
  Keeps.dropCustomIndex fun _ _ hname hi =>
    ⟨trivial, rfl, h.dropsIndex (LiveTable.custom_mem_indexPlaces.2 hmem) hname hi⟩

/-- Drops keep the tally. -/
theorem keptByDrops : KeptByDrops Tally.watch t (Tallied live cs) where
  views _ _ h := h.views
  givenNames _ _ h := h.ownNames.distinct
  ask _ _ _ h := ⟨trivial, h⟩
  dropView _ _ _ h hmem := h.keeps_dropView hmem
  dropIndex _ _ _ h hmem := h.keeps_dropIndex hmem
  dropCustomIndex _ _ _ h hmem := h.keeps_dropCustomIndex hmem

/-! ## Columns -/

theorem keeps_removeColumn {name : String} (h : Tallied live cs l s)
    (hmem : name ∈ Keyed.names l.columns) :
    Keeps Tally.watch s (removeColumn t l name) fun l' s' => ∃ ds, l.dependentsOf name = .ok ds ∧
      l' = (l.without ds).withoutColumn name ∧
      Tallied live { cs with dropped := cs.dropped ++ [name] } l' s' := by
  refine Keeps.removeColumn ((keptByDrops.dropDependents h).mono ?_)
  rintro _ s' ⟨ds, hds, rfl, h'⟩ table i - hi
  have htext : i.text = name := h.spelling.columns name hmem i hi
  refine ⟨trivial, ds, hds, rfl, ?_, h'.created, h'.tables, h'.views,
    h'.ownNames.of_sublist (.refl _),
    ⟨fun c hc => h'.spelling.columns c (Keyed.mem_names_erase.1 hc).1, h'.spelling.views,
      h'.spelling.indexes⟩, h'.within.withoutColumn name, h'.nodupViews, h'.memViews,
    h'.nodupIndexes, h'.memIndexes⟩
  change ({ s'.columns with dropped := s'.columns.dropped ++ [i.text] } : ColumnTally) = _
  rw [h'.columns, htext]

/-- A column with a name that is written as it is leaves the copy as it was but for the column. -/
theorem withColumn {name : String} {c : Column} {s' : Tally} {cs' : ColumnTally}
    (h : Tallied live cs l s) (hspelling : Name.KeepsSpelling name)
    (hs' : s' = { s with columns := cs' }) : Tallied live cs' (l.withColumn name c) s' := by
  subst hs'
  refine ⟨rfl, h.created, h.tables, h.views, h.ownNames.of_sublist (.refl _),
    ⟨fun other hother => ?_, h.spelling.views,
    h.spelling.indexes⟩, h.within.withColumn name c, h.nodupViews, h.memViews, h.nodupIndexes,
    h.memIndexes⟩
  rcases Keyed.mem_names_put.1 hother with rfl | hother
  · exact hspelling
  · exact h.spelling.columns other hother

theorem keeps_addColumn {name : String} {c : Column} (h : Tallied live cs l s)
    (hspelling : Name.KeepsSpelling name) :
    Keeps Tally.watch s (addColumn t l name c) fun l' s' => l' = l.withColumn name c ∧
      Tallied live { cs with added := cs.added ++ [name] } l' s' := by
  refine Keeps.addColumn fun table i _ hi => ⟨trivial, rfl, h.withColumn hspelling ?_⟩
  rw [← hspelling i hi, ← h.columns]
  rfl

theorem keeps_retypeColumn {name : String} {c : Column} (h : Tallied live cs l s)
    (hspelling : Name.KeepsSpelling name) :
    Keeps Tally.watch s (retypeColumn t l name c) fun l' s' => l' = l.withColumn name c ∧
      Tallied live { cs with retyped := cs.retyped ++ [name] } l' s' := by
  refine Keeps.retypeColumn fun table i _ hi => ⟨trivial, rfl, h.withColumn hspelling ?_⟩
  rw [← hspelling i hi, ← h.columns]
  rfl

end Tallied

/-! ## What is left -/

/-- Of the live table is left what refers to no column that was dropped. -/
structure Intact (live : LiveTable) (dropped : List String) (l : LiveTable) : Prop where
  views : ∀ e, e ∈ l.views ↔ e ∈ live.views ∧ ∀ c ∈ dropped, e.2.dependsOn c = false
  indexes : ∀ text, text ∈ l.indexes ↔ text ∈ live.indexes ∧
    ∀ target, IndexTarget.ofText text = .ok target → target.column ∉ dropped
  customIndexes : ∀ e, e ∈ l.customIndexes ↔ e ∈ live.customIndexes ∧ e.2.column ∉ dropped

theorem Intact.of_live : Intact live [] live where
  views _ := ⟨fun h => ⟨h, fun _ hc => absurd hc List.not_mem_nil⟩, And.left⟩
  indexes _ := ⟨fun h => ⟨h, fun _ _ => List.not_mem_nil⟩, And.left⟩
  customIndexes _ := ⟨fun h => ⟨h, List.not_mem_nil⟩, And.left⟩

/-- An entry is among those with a property under its name exactly when it has the property. -/
theorem mem_names_filter {α : Type} {es : List (String × α)} {p : String × α → Bool}
    (hnodup : (Keyed.names es).Nodup) {e : String × α} (he : e ∈ es) :
    e.1 ∈ Keyed.names (es.filter p) ↔ p e = true := by
  constructor
  · intro hmem
    obtain ⟨e', he', hname⟩ := List.mem_map.1 hmem
    obtain ⟨he', hp⟩ := List.mem_filter.1 he'
    exact List.inj_on_of_nodup_map hnodup he' he hname ▸ hp
  · exact fun hp => List.mem_map_of_mem (List.mem_filter.2 ⟨he, hp⟩)

/-- Without what depends on one more column the rest is left. -/
theorem Intact.without {dropped : List String} {name : String} {ds : Dependents}
    (h : Intact live dropped l) (hviews : (Keyed.names l.views).Nodup)
    (hcustom : (Keyed.names l.customIndexes).Nodup) (hds : l.dependentsOf name = .ok ds) :
    Intact live (dropped ++ [name]) ((l.without ds).withoutColumn name) := by
  obtain ⟨hdsIndexes, -, hdsCustom, hdsViews⟩ := LiveTable.dependentsOf_ok hds
  rw [LiveTable.without_eq]
  refine ⟨fun e => ?_, fun text => ?_, fun e => ?_⟩
  · change e ∈ l.views.filter (fun e => !ds.views.contains e.1) ↔ _
    simp only [List.mem_append, List.mem_singleton, or_imp, forall_and, forall_eq]
    rw [List.mem_filter, ← and_assoc, ← h.views e]
    refine and_congr_right fun he => ?_
    rw [Bool.not_eq_true', ← Bool.not_eq_true, List.contains_iff_mem, hdsViews,
      mem_names_filter hviews he, Bool.not_eq_true]
  · change text ∈ l.indexes.filter (fun text => !ds.indexes.contains text) ↔ _
    rw [List.mem_filter, Bool.not_eq_true', ← Bool.not_eq_true, List.contains_iff_mem, hdsIndexes,
      h.indexes text]
    simp only [List.mem_append, List.mem_singleton, not_or, not_and, not_exists]
    constructor
    · rintro ⟨⟨hmem, hbefore⟩, hnow⟩
      exact ⟨hmem, fun target htarget => ⟨hbefore target htarget,
        hnow ⟨hmem, hbefore⟩ target htarget⟩⟩
    · rintro ⟨hmem, hall⟩
      exact ⟨⟨hmem, fun target htarget => (hall target htarget).1⟩,
        fun _ target htarget => (hall target htarget).2⟩
  · change e ∈ l.customIndexes.filter (fun e => !ds.customIndexes.contains e.1) ↔ _
    rw [List.mem_append, List.mem_singleton, not_or, List.mem_filter, ← and_assoc,
      ← h.customIndexes e]
    refine and_congr_right fun he => ?_
    rw [Bool.not_eq_true', ← Bool.not_eq_true, List.contains_iff_mem, hdsCustom,
      mem_names_filter hcustom he, beq_iff_eq]

end Migration

end WideColumn
