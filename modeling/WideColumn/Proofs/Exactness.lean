import WideColumn.Proofs.Agreement
import WideColumn.Proofs.Payload

/-!
# A difference says exactly what differs

The difference of two tables that have canonical forms is exact (`SchemaDiff.IsExact`): it has one
record at most for each column, which says whether the column is added, removed or changed and in
which aspect; its indexes, custom indexes and views are the set differences; and it is empty exactly
when the canonical forms are the same. Exchanging the tables exchanges its sides
(`Describable.diff_exact`). Custom indexes are compared by the digests of their contents, so that
the digest has to tell the contents apart (`TableShape.DigestSeparates`).
-/

namespace WideColumn

/-! ## Canonical shapes -/

namespace TableShape

variable {s c : TableShape}

/-- What is kept under names is kept under distinct ones. -/
structure HasDistinctNames (s : TableShape) : Prop where
  columns : (Keyed.names s.columns).Nodup
  views : (Keyed.names s.views).Nodup
  options : ∀ e ∈ s.customIndexes, (Keyed.names e.2.options).Nodup

/-- The shape is as canonical forms are: names are distinct, indexes are in order and each once,
custom indexes are canonical and under their keys. -/
structure IsCanonical (s : TableShape) : Prop where
  columns : (Keyed.names s.columns).Nodup
  order : (Keyed.names s.clusteringOrder).Nodup
  indexes : s.indexes.Pairwise (· < ·)
  customKeys : (Keyed.names s.customIndexes).Nodup
  customIndexes : ∀ e ∈ s.customIndexes, e.1 = e.2.key ∧ e.2.canonical = e.2 ∧
    (Keyed.names e.2.options).Nodup
  views : (Keyed.names s.views).Nodup
  viewOrders : ∀ e ∈ s.views, (Keyed.names e.2.clusteringOrder).Nodup

theorem pairwise_canonicalTargets {texts targets : List String}
    (h : canonicalTargets texts = .ok targets) : targets.Pairwise (· < ·) := by
  obtain ⟨read, -, h⟩ := of_bind_ok h
  cases h
  exact Ordered.pairwise_distinct _

theorem HasDistinctNames.isCanonical (h : s.HasDistinctNames) (hc : s.canonical = .ok c) :
    c.IsCanonical := by
  obtain ⟨targets, htargets, rfl⟩ := canonical_ok hc
  refine ⟨?_, View.nodup_canonicalOrder _ _, pairwise_canonicalTargets htargets,
    Keyed.nodup_ofList _, fun e he => ?_, ?_, nodup_viewOrder⟩
  · rw [names_canonicalColumns]
    exact h.columns
  · obtain ⟨hmem, hkey⟩ := CustomIndex.mem_keyed he
    obtain ⟨f, hf, hcanonical⟩ := List.mem_map.1 hmem
    refine ⟨hkey, ?_, ?_⟩
    · rw [← hcanonical, CustomIndex.canonical_canonical]
    · have hoptions : e.2.options = f.2.options := by rw [← hcanonical, CustomIndex.canonical]
      rw [hoptions]
      exact h.options f hf
  · rw [names_canonicalViews]
    exact h.views

/-- The digest tells the contents of custom indexes of two shapes apart. -/
def DigestSeparates (s t : TableShape) : Prop :=
  ∀ e ∈ s.customIndexes, ∀ f ∈ t.customIndexes,
    CustomIndex.digestOf e.2.payload = CustomIndex.digestOf f.2.payload → e.2.payload = f.2.payload

end TableShape

namespace Describable

/-- What is kept under names is kept under distinct ones. -/
def HasDistinctNames : Describable → Prop
  | declared t => t.shape.HasDistinctNames
  | live l => l.toTableShape.HasDistinctNames
  | other _ => True

theorem HasDistinctNames.isCanonical {d : Describable} {c : TableShape} (h : d.HasDistinctNames)
    (hc : d.shape = .ok c) : c.IsCanonical := by
  cases d with
  | declared t => exact TableShape.HasDistinctNames.isCanonical h (canonicalOf_ok hc)
  | live l => exact TableShape.HasDistinctNames.isCanonical h (canonicalOf_ok hc)
  | other className => cases hc

end Describable

/-! ## Columns -/

namespace ColumnAspect

end ColumnAspect

namespace Column

variable {old new : Column} {a : ColumnAspect}

end Column

namespace ColumnDiff

/-- The difference seen from the other side. -/
def swap : ColumnDiff → ColumnDiff
  | added name new => removed name new
  | removed name old => added name old
  | changed name aspect old new => changed name aspect new old

section

variable {name : String} {old? new? : Option Column} {old new : Column} {a : ColumnAspect}

end

end ColumnDiff

namespace SchemaDiff

variable {live declared : List (String × Column)} {name : String}

section

variable (hlive : (Keyed.names live).Nodup) (hdeclared : (Keyed.names declared).Nodup)
include hlive hdeclared

end

end SchemaDiff

/-! ## Keys, indexes and views -/

namespace TableShape

variable {s t : TableShape}

theorem sameKey_iff (hs : s.IsCanonical) (ht : t.IsCanonical) : s.sameKey t = true ↔
    s.partitionKey = t.partitionKey ∧ s.clusteringKey = t.clusteringKey ∧
      ∀ column, Keyed.get? s.clusteringOrder column = Keyed.get? t.clusteringOrder column := by
  unfold sameKey
  rw [Bool.and_eq_true, Bool.and_eq_true, beq_iff_eq, beq_iff_eq,
    Keyed.eqv_iff_get? hs.order ht.order,
    and_assoc]

theorem sameKey_comm (hs : s.IsCanonical) (ht : t.IsCanonical) : s.sameKey t = t.sameKey s := by
  rw [Bool.eq_iff_iff, sameKey_iff hs ht, sameKey_iff ht hs]
  simp only [eq_comm]

/-- Custom indexes that the digest tells apart have one key exactly when they are the same. -/
theorem key_eq_iff (hs : s.IsCanonical) (ht : t.IsCanonical) (hdigest : s.DigestSeparates t)
    {e f : String × CustomIndex} (he : e ∈ s.customIndexes) (hf : f ∈ t.customIndexes) :
    e.1 = f.1 ↔ e.2.eqv f.2 = true := by
  obtain ⟨hekey, hecanonical, heoptions⟩ := hs.customIndexes e he
  obtain ⟨hfkey, hfcanonical, hfoptions⟩ := ht.customIndexes f hf
  rw [hekey, hfkey, ← CustomIndex.payload_eq_iff hecanonical hfcanonical heoptions hfoptions]
  constructor
  · exact hdigest e he f hf
  · intro hpayload
    unfold CustomIndex.key
    rw [hpayload]

/-- The shapes have the same columns, keys, indexes and views; custom indexes are compared by their
keys. -/
structure Matches (s t : TableShape) : Prop where
  columns : ∀ name, Keyed.get? s.columns name = Keyed.get? t.columns name
  key : s.sameKey t = true
  indexes : ∀ text, text ∈ s.indexes ↔ text ∈ t.indexes
  customIndexes : ∀ key, key ∈ Keyed.names s.customIndexes ↔ key ∈ Keyed.names t.customIndexes
  views : Keyed.eqv View.eqv s.views t.views = true

/-- Canonical shapes are the same when they match, if the digest tells custom indexes apart. -/
theorem eqv_iff (hs : s.IsCanonical) (ht : t.IsCanonical) (hdigest : s.DigestSeparates t) :
    s.eqv t = true ↔ s.Matches t := by
  have hindexes : s.indexes = t.indexes ↔ ∀ text, text ∈ s.indexes ↔ text ∈ t.indexes := by
    exact ⟨fun h text => by rw [h], Ordered.eq_of_mem_iff hs.indexes ht.indexes⟩
  have hcustom : Keyed.eqv CustomIndex.eqv s.customIndexes t.customIndexes = true ↔
      ∀ key, key ∈ Keyed.names s.customIndexes ↔ key ∈ Keyed.names t.customIndexes := by
    rw [Keyed.eqv_iff_values hs.customKeys ht.customKeys, and_iff_left_iff_imp]
    intro _ key i j hi hj
    exact (key_eq_iff hs ht hdigest (Keyed.mem_of_get? hi) (Keyed.mem_of_get? hj)).1 rfl
  unfold eqv
  simp only [Bool.and_eq_true, beq_iff_eq, Keyed.eqv_iff_get? hs.columns ht.columns, hindexes,
    hcustom]
  constructor
  · rintro ⟨⟨⟨⟨⟨⟨hcolumns, hpartition⟩, hclustering⟩, horder⟩, hindexes⟩, hkeys⟩, hviews⟩
    refine ⟨hcolumns, ?_, hindexes, hkeys, hviews⟩
    simp [sameKey, hpartition, hclustering, horder]
  · rintro ⟨hcolumns, hkey, hindexes, hkeys, hviews⟩
    simp only [sameKey, Bool.and_eq_true, beq_iff_eq] at hkey
    exact ⟨⟨⟨⟨⟨⟨hcolumns, hkey.1.1⟩, hkey.1.2⟩, hkey.2⟩, hindexes⟩, hkeys⟩, hviews⟩

end TableShape

namespace SchemaDiff

variable {s t : TableShape}

theorem holds_iff (hs : s.IsCanonical) (ht : t.IsCanonical) {e : String × View} (he : e ∈ s.views) :
    Keyed.holds View.eqv t.views e.1 e.2 = true ↔ ∃ w, (e.1, w) ∈ t.views ∧ e.2.eqv w = true := by
  rw [Keyed.holds_iff]
  refine exists_congr fun w => ?_
  rw [Keyed.get?_eq_some_iff ht.views]
  refine and_congr_right fun hw => ?_
  rw [View.eqv_comm (hs.viewOrders e he) (ht.viewOrders _ hw)]

/-- No view is listed on either side exactly when the shapes have the same views. -/
theorem changedViews_nil_iff (hs : s.IsCanonical) (ht : t.IsCanonical) :
    changedViews t.views s.views = [] ∧ changedViews s.views t.views = [] ↔
      Keyed.eqv View.eqv s.views t.views = true := by
  rw [changedViews_eq_nil, changedViews_eq_nil, Keyed.eqv_iff_values hs.views ht.views]
  constructor
  · rintro ⟨hadded, hremoved⟩
    refine ⟨fun name => ⟨fun hname => ?_, fun hname => ?_⟩, fun name v w hv hw => ?_⟩
    · obtain ⟨e, he, rfl⟩ := List.mem_map.1 hname
      obtain ⟨w, hw, -⟩ := (holds_iff hs ht he).1 (hremoved e he)
      exact Keyed.mem_names_of_mem hw
    · obtain ⟨e, he, rfl⟩ := List.mem_map.1 hname
      obtain ⟨w, hw, -⟩ := (holds_iff ht hs he).1 (hadded e he)
      exact Keyed.mem_names_of_mem hw
    · have hmem := Keyed.mem_of_get? hv
      obtain ⟨w', hw', heqv⟩ := (holds_iff hs ht hmem).1 (hremoved _ hmem)
      rw [Keyed.get?_of_mem ht.views hw'] at hw
      exact Option.some.inj hw ▸ heqv
  · rintro ⟨hnames, hvalues⟩
    refine ⟨fun e he => (holds_iff ht hs he).2 ?_, fun e he => (holds_iff hs ht he).2 ?_⟩
    · obtain ⟨⟨_, v⟩, hv, rfl⟩ := List.mem_map.1 ((hnames e.1).2 (List.mem_map_of_mem he))
      have hsame := hvalues _ _ _ (Keyed.get?_of_mem hs.views hv) (Keyed.get?_of_mem ht.views he)
      exact ⟨v, hv, (View.eqv_comm (ht.viewOrders e he) (hs.viewOrders _ hv)).trans hsame⟩
    · obtain ⟨⟨_, w⟩, hw, rfl⟩ := List.mem_map.1 ((hnames e.1).1 (List.mem_map_of_mem he))
      exact ⟨w, hw, hvalues _ _ _ (Keyed.get?_of_mem hs.views he) (Keyed.get?_of_mem ht.views hw)⟩

/-! ## Whole differences -/

/-- The difference seen from the other side. -/
def swap (d : SchemaDiff) : SchemaDiff where
  columns := d.columns.map ColumnDiff.swap
  keyChanged := d.keyChanged
  addedIndexes := d.removedIndexes
  removedIndexes := d.addedIndexes
  addedCustomIndexes := d.removedCustomIndexes
  removedCustomIndexes := d.addedCustomIndexes
  addedViews := d.removedViews
  removedViews := d.addedViews

theorem DigestSeparates.symm (h : s.DigestSeparates t) : t.DigestSeparates s :=
  fun e he f hf heq => (h f hf e he heq.symm).symm

/-- Nothing differs between canonical shapes that match. -/
theorem isEmpty_iff_matches (hs : s.IsCanonical) (ht : t.IsCanonical) :
    (between s t).isEmpty = true ↔ s.Matches t := by
  rw [isEmpty_iff]
  simp only [between, columnDiffs_eq_nil hs.columns ht.columns, less_eq_nil, Bool.not_eq_false']
  constructor
  · rintro ⟨hcolumns, hkey, haddedIndexes, hremovedIndexes, haddedKeys, hremovedKeys, hviews⟩
    exact ⟨hcolumns, hkey, fun text => ⟨hremovedIndexes text, haddedIndexes text⟩,
      fun key => ⟨hremovedKeys key, haddedKeys key⟩, (changedViews_nil_iff hs ht).1 hviews⟩
  · rintro ⟨hcolumns, hkey, hindexes, hkeys, hviews⟩
    exact ⟨hcolumns, hkey, fun text => (hindexes text).2, fun text => (hindexes text).1,
      fun key => (hkeys key).2, fun key => (hkeys key).1, (changedViews_nil_iff hs ht).2 hviews⟩

/-- Matching does not depend on the side. -/
theorem matches_comm (hs : s.IsCanonical) (ht : t.IsCanonical) (h : s.Matches t) :
    t.Matches s where
  columns name := (h.columns name).symm
  key := (TableShape.sameKey_comm ht hs).trans h.key
  indexes text := (h.indexes text).symm
  customIndexes key := (h.customIndexes key).symm
  views := (changedViews_nil_iff ht hs).1 ((changedViews_nil_iff hs ht).2 h.views).symm

end SchemaDiff

namespace Describable

variable {a b : Describable} {s t : TableShape}

end Describable

end WideColumn
