import WideColumn.Proofs.Creation
import WideColumn.Proofs.Spelling

/-!
# What is declared in canonical form

Columns, orders, views and custom indexes have one canonical form, and it is its own. What a
statement creates of a declaration is read by introspection as the canonical form of the
declaration, so that comparing canonical forms compares what is declared with what is there.
-/

namespace WideColumn

/-! ## Columns -/

namespace Column

/-- The type of the column is known, and its argument, if there is one, stands in angle brackets. -/
structure HasKnownType (c : Column) : Prop where
  name : ∃ type : ColumnType, c.type = type.name
  argument : ∀ a, c.argument = some a → a = "" ∨ ColumnType.IsBracketed a

variable {c : Column}

/-- The canonical form of a column has a known type, and is canonical. -/
theorem HasKnownType.canonical (h : c.HasKnownType) :
    c.canonical.HasKnownType ∧ c.canonical.canonical = c.canonical := by
  obtain ⟨name, argument, isStatic⟩ := c
  obtain ⟨⟨type, rfl⟩, hargument⟩ := h
  obtain ⟨usual, husual, hcanonical⟩ := ColumnType.canonicalName_known type
  simp only [Column.canonical, husual, hcanonical]
  cases argument with
  | none => exact ⟨⟨⟨usual, rfl⟩, fun a ha => nomatch ha⟩, rfl⟩
  | some a =>
    rcases hargument a rfl with rfl | hbracketed
    · exact ⟨⟨⟨usual, rfl⟩, fun a ha => nomatch ha⟩, rfl⟩
    · obtain ⟨x, hx, hxbracketed⟩ := hbracketed.canonicalArgument
      rw [hx, ColumnType.canonicalArgument_canonicalArgument hx hxbracketed.ne_empty]
      refine ⟨⟨⟨usual, rfl⟩, fun b hb => .inr ?_⟩, rfl⟩
      exact Option.some.inj hb ▸ hxbracketed

theorem ofTypeText_of_split {text type : String} {argument : Option String}
    (h : ColumnType.split? text = some (type, argument)) (isStatic : Bool) :
    Column.ofTypeText text isStatic = Column.canonical { type, argument, isStatic } := by
  unfold Column.ofTypeText
  rw [h]

/-- The text of the type can be split: the argument, if there is one, stands in angle brackets. -/
structure HasReadableType (c : Column) : Prop where
  name : ColumnType.IsTypeName c.type
  argument : ∀ a, c.argument = some a → a = "" ∨ ColumnType.IsBracketed a

/-- The text of a type is split into its name and its argument, an empty argument being none. -/
theorem HasReadableType.split? (h : c.HasReadableType) :
    ∃ argument, ColumnType.split? c.typeText = some (c.type, argument) ∧
      ColumnType.canonicalArgument argument = ColumnType.canonicalArgument c.argument := by
  unfold typeText ColumnType.format
  cases hargument : c.argument with
  | none =>
    rw [Option.getD_none, String.append_empty]
    exact ⟨none, h.name.split?_self, rfl⟩
  | some a =>
    rw [Option.getD_some]
    rcases h.argument a hargument with rfl | hbracketed
    · rw [String.append_empty]
      exact ⟨none, h.name.split?_self, rfl⟩
    · exact ⟨some a, h.name.split?_bracketed hbracketed, rfl⟩

theorem HasKnownType.isReadable (h : c.HasKnownType) : c.HasReadableType := by
  obtain ⟨type, htype⟩ := h.name
  exact ⟨htype ▸ ColumnType.isTypeName type, h.argument⟩

/-- The text of a type is read as the canonical form of the type. -/
theorem HasKnownType.ofTypeText (h : c.HasKnownType) (isStatic : Bool) :
    Column.ofTypeText c.typeText isStatic = Column.canonical { c with isStatic } := by
  obtain ⟨argument, hsplit, hargument⟩ := h.isReadable.split?
  rw [ofTypeText_of_split hsplit]
  unfold Column.canonical
  rw [hargument]

/-- The text of a known type is not empty. -/
theorem typeText_ne_empty (h : ∃ type : ColumnType, c.type = type.name) : c.typeText ≠ "" := by
  obtain ⟨type, htype⟩ := h
  obtain ⟨-, -, -, hne⟩ := ColumnType.name_chars type
  intro hempty
  have hlist : (c.type ++ c.argument.getD "").toList = [] := by
    rw [show c.type ++ c.argument.getD "" = "" from hempty]
    rfl
  rw [String.toList_append, htype] at hlist
  exact hne (List.append_eq_nil_iff.1 hlist).1

theorem typeText_canonical_ne_empty (h : ∃ type : ColumnType, c.type = type.name) :
    c.canonical.typeText ≠ "" := by
  obtain ⟨type, htype⟩ := h
  obtain ⟨usual, husual, -⟩ := ColumnType.canonicalName_known type
  have hcanonical : c.canonical.type = usual.name := by
    unfold canonical
    rw [htype, husual]
  exact typeText_ne_empty ⟨usual, hcanonical⟩

end Column

namespace Table

variable {t : Table}

/-- The arguments of types stand in angle brackets. -/
def WritesBrackets (t : Table) : Prop :=
  ∀ f ∈ t.fields, ∀ a, f.argument = some a → a = "" ∨ ColumnType.IsBracketed a

/-- The type of a column is known. -/
theorem WellFormed.typeName (hwell : t.WellFormed) {f : Field} (hf : f ∈ t.storedFields) :
    ∃ type : ColumnType, f.column.type = type.name := by
  obtain ⟨type, htype, -⟩ := hwell.types f (List.mem_filter.1 hf).1
  exact ⟨type, ColumnType.ofName?_eq_some htype⟩

theorem hasKnownType (hwell : t.WellFormed) (hbrackets : t.WritesBrackets) {f : Field}
    (hf : f ∈ t.storedFields) : f.column.HasKnownType :=
  ⟨hwell.typeName hf, hbrackets f (List.mem_filter.1 hf).1⟩

/-- A declared column in canonical form has a known type, and is canonical. -/
theorem storedColumn_canonical (hwell : t.WellFormed) (hbrackets : t.WritesBrackets) {name : String}
    {c : Column} (hc : Keyed.get? t.storedColumns name = some c) :
    c.HasKnownType ∧ c.canonical = c := by
  obtain ⟨e, he, heq⟩ := List.mem_map.1 (Keyed.mem_of_get? hc)
  obtain ⟨f, hf, rfl⟩ := List.mem_map.1 he
  obtain ⟨rfl, rfl⟩ := Prod.mk.inj heq
  exact (hasKnownType hwell hbrackets hf).canonical

/-- The table is created with its declared columns in canonical form. -/
theorem columns_bare (hwell : t.WellFormed) (hbrackets : t.WritesBrackets) :
    t.bare.columns = t.storedColumns := by
  unfold bare LiveTable.ofClauses columnClauses storedColumns shape
  simp only [List.map_map]
  refine List.map_congr_left fun f hf => ?_
  have hread := (hasKnownType hwell hbrackets hf).ofTypeText f.isStatic
  change (f.name, Column.ofTypeText f.column.typeText f.isStatic) = (f.name, f.column.canonical)
  rw [hread]
  rfl

end Table

/-! ## Orders -/

/-- The canonical form of an order is its own. -/
theorem canonicalOrder_canonicalOrder (key : List String) (order : List (String × String)) :
    canonicalOrder key (canonicalOrder key order) = canonicalOrder key order := by
  unfold canonicalOrder
  congr 1
  refine List.map_congr_left fun c hc => ?_
  rw [Keyed.get?_ofList_map hc, Option.getD_some, Text.upper_upper]

/-- The directions that a statement writes are those of the canonical form. -/
theorem directions_clause (partition clustering : List String) (order : List (String × String)) :
    (KeySpec.clause ⟨partition, clustering, order⟩).directions =
      canonicalOrder clustering order := by
  unfold KeyClause.directions canonicalOrder KeySpec.clause
  rw [List.map_map]
  congr 1
  refine List.map_congr_left fun c _ => congrArg (Prod.mk c) ?_
  have hasc : Text.upper "ASC" = "ASC" := by decide
  change (if (!order.isEmpty) = true then KeySpec.direction ⟨partition, clustering, order⟩ c
    else "ASC") = _
  unfold KeySpec.direction Keyed.get?
  cases order with
  | nil => exact hasc.symm
  | cons e order =>
    cases hfind : (e :: order).find? fun o => o.1 == c with
    | none => exact hasc.symm
    | some o => rfl

/-! ## Views -/

namespace View

theorem selectsAll_canonical (v : View) : v.canonical.selectsAll = v.selectsAll := by
  unfold selectsAll canonical
  by_cases hall : v.selectsAll = true
  · rw [if_pos hall]
    exact hall.symm
  · rw [if_neg hall]
    refine Bool.eq_iff_iff.2 ?_
    rw [List.contains_iff_mem, List.contains_iff_mem, Ordered.mem_distinct]

/-- The canonical form of a view is its own. -/
theorem canonical_canonical (v : View) : v.canonical.canonical = v.canonical := by
  have hselect : (if v.canonical.selectsAll then ["*"] else Ordered.distinct v.canonical.select) =
      v.canonical.select := by
    rw [selectsAll_canonical]
    unfold canonical
    dsimp only
    split
    · rfl
    · exact Ordered.distinct_distinct v.select
  unfold canonical at hselect ⊢
  dsimp only at hselect ⊢
  rw [hselect, canonicalOrder_canonicalOrder]

/-- A view is created in canonical form. -/
theorem created_eq (v : View) : v.created = v.canonical := by
  have horder : v.keyClause.directions = canonicalOrder v.clusteringKey v.clusteringOrder :=
    directions_clause _ _ _
  have hkey : v.keyClause.clustering.map (·.1) = v.clusteringKey := by
    unfold keyClause KeySpec.clause
    rw [List.map_map]
    exact List.map_id _
  unfold created ofClauses canonical
  rw [horder, hkey]
  dsimp only
  rw [canonicalOrder_canonicalOrder]
  by_cases hall : v.selectsAll = true
  · have hselect : v.selectClause = none := if_pos hall
    rw [hselect, if_pos hall]
    rfl
  · have hselect : v.selectClause = some v.select := if_neg hall
    rw [hselect, if_neg hall]
    exact congrArg (View.mk · v.partitionKey v.clusteringKey _) (if_neg hall)

end View

/-! ## Custom indexes -/

namespace CustomIndex

/-- Stripping leaves no double quote where there was none. -/
theorem unquoted_strip (s : String) :
    unquoted (Text.strip (unquoted s)) = Text.strip (unquoted s) := by
  unfold Text.strip
  generalize hcs : (unquoted s).toList = cs
  have hquote : ∀ c ∈ cs, c ≠ '"' := by
    intro c hc
    rw [← hcs] at hc
    unfold unquoted at hc
    rw [String.toList_ofList] at hc
    simpa using (List.mem_filter.1 hc).2
  unfold unquoted
  rw [String.toList_ofList, List.filter_eq_self.2]
  intro c hc
  have hmem : c ∈ Text.stripLeft cs := (List.rdropWhile_prefix Text.isBlank _).subset hc
  exact bne_iff_ne.2 (hquote c ((List.dropWhile_suffix _).subset hmem))

/-- The canonical form of a custom index is its own. -/
theorem canonical_canonical (i : CustomIndex) : i.canonical.canonical = i.canonical := by
  unfold canonical
  rw [unquoted_strip, Text.strip_strip, Text.strip_strip]

end CustomIndex

/-- A declared custom index in canonical form is canonical, under its key. -/
theorem Table.keyedCustomIndex_canonical {t : Table} {e : String × CustomIndex}
    (he : e ∈ t.keyedCustomIndexes) : e.2.canonical = e.2 ∧ e.1 = e.2.key := by
  obtain ⟨hmem, hkey⟩ := CustomIndex.mem_keyed he
  obtain ⟨f, -, hf⟩ := List.mem_map.1 hmem
  refine ⟨?_, hkey⟩
  rw [← hf, CustomIndex.canonical_canonical]

end WideColumn
