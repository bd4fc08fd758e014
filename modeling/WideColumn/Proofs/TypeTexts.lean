import WideColumn.Proofs.SameType

/-!
# Type texts are read again

The creation of a table writes the name of each column's type and, right behind it, the argument.
The text is read as the type and the argument again exactly when the argument is blank or stands in
angle brackets (`Migration.created_type_rereads_iff`). An argument that is declared in one text with
its type always does (`Definition.parseField_inline`); one that is declared apart from it is any text,
and may become a part of the name or make the whole no type at all.
-/

namespace WideColumn

/-! ## What is read -/

namespace ColumnType

/-- What is read behind the name of a type stands in angle brackets. -/
theorem isBracketed_of_split? {s name argument : String}
    (h : split? s = some (name, some argument)) : IsBracketed argument := by
  obtain ⟨⟨name', read⟩, hread, heq⟩ := Option.map_eq_some_iff.1 h
  obtain ⟨-, hargument⟩ := Prod.mk.inj heq
  obtain ⟨cs, rfl, rfl⟩ := Option.map_eq_some_iff.1 hargument
  unfold IsBracketed
  rw [String.toList_ofList]
  unfold splitChars at hread
  dsimp only at hread
  split at hread
  · cases hread
  split at hread
  · cases hread
  · rename_i ds hbehind
    rw [hbehind] at hread
    split at hread
    · rename_i hlast
      cases hread
      refine ⟨?_, hlast⟩
      -- what ends with a bracket is not empty, and its first character is that of the whole
      have hstart : Text.stripRight ('<' :: ds) <+: '<' :: ds :=
        List.rdropWhile_prefix Text.isBlank _
      generalize Text.stripRight ('<' :: ds) = cs at hlast hstart
      cases cs with
      | nil => cases hlast
      | cons c cs => rw [(List.cons_prefix_cons.1 hstart).1, List.head?_cons]
    · cases hread
  · cases hread

/-- The kind of collection does not depend on the blanks around the argument. -/
theorem collectionKind?_eq (name : String) (argument : Option String) :
    collectionKind? name argument = match ofName? name with
      | some .frozen =>
        (splitChars (inner (Text.strip (argument.getD "")).toList)).bind fun (inside, _) =>
          (ofName? (String.ofList inside)).filter isCollection
      | some type => if type.isCollection then some type else none
      | none => none := by
  unfold collectionKind?
  cases ofName? name with
  | none => rfl
  | some type =>
    cases type with
    | frozen =>
      cases argument with
      | none => rfl
      | some a =>
        by_cases ha : a = ""
        · subst ha
          rfl
        · simp [ha, Text.strip]
    | _ => rfl

end ColumnType

namespace Field

/-- The text of the field's type is read as the type, with its argument but for the blanks around
it, and the type that is read holds the same kind of collection. -/
def RereadsType (f : Field) : Prop :=
  ∃ argument, ColumnType.split (.text f.typeText) = .ok (f.type, argument) ∧
    argument.getD "" = Text.strip (f.argument.getD "") ∧
    ColumnType.collectionKind? f.type argument = f.collectionKind?

/-- Between the blanks around it, the argument of the field's type is empty or stands in angle
brackets. -/
def HasBracketedArgument (f : Field) : Prop :=
  Text.strip (f.argument.getD "") = "" ∨ ColumnType.IsBracketed (Text.strip (f.argument.getD ""))

instance (f : Field) : Decidable f.HasBracketedArgument :=
  inferInstanceAs (Decidable (_ ∨ _))

/-- The text of a known type is read again exactly when its argument has brackets. -/
theorem rereadsType_iff {f : Field} (htype : ∃ type : ColumnType, f.type = type.name) :
    f.RereadsType ↔ f.HasBracketedArgument := by
  obtain ⟨type, htype⟩ := htype
  have hname : ColumnType.IsTypeName f.type := htype ▸ ColumnType.isTypeName type
  have hsplit (read : Option String) :
      ColumnType.split (.text f.typeText) = .ok (f.type, read) ↔
        ColumnType.split? (f.type ++ f.argument.getD "") = some (f.type, read) := by
    simp only [ColumnType.split, typeText, ColumnType.format]
    cases ColumnType.split? (f.type ++ f.argument.getD "") <;> simp
  have hkind {read : Option String} (hread : read.getD "" = Text.strip (f.argument.getD "")) :
      ColumnType.collectionKind? f.type read = f.collectionKind? := by
    unfold collectionKind?
    rw [ColumnType.collectionKind?_eq, ColumnType.collectionKind?_eq f.type f.argument, hread,
      Text.strip_strip]
  unfold RereadsType HasBracketedArgument
  simp only [hsplit, hname.split?_append_iff]
  constructor
  · rintro ⟨read, ⟨hblank, -⟩ | ⟨hbracketed, -⟩, -⟩
    · exact .inl hblank
    · exact .inr hbracketed
  · rintro (hblank | hbracketed)
    · exact ⟨none, .inl ⟨hblank, rfl⟩, hblank.symm, hkind hblank.symm⟩
    · exact ⟨some _, .inr ⟨hbracketed, rfl⟩, rfl, hkind rfl⟩

end Field

namespace Definition

open Coercion

/-- A field whose argument is not declared apart from its type has an argument in brackets or
none. -/
theorem parseField_inline {name : Value} {es : List (Value × Value)} {table : String} {f : Field}
    (h : parseField name (.map es) table = .ok f)
    (hinline : ((Value.get? es "type_def").getD (part es "typeDef")).isTrue = false) :
    f.HasBracketedArgument := by
  obtain ⟨type, read, -, htype, -, hargument⟩ := parseField_ok h
  dsimp only [fieldEntries] at hargument
  rw [hinline, if_neg Bool.false_ne_true] at hargument
  unfold Field.HasBracketedArgument
  cases read with
  | none =>
    have hnone : f.argument = none := (Checked.ok.inj hargument).symm
    rw [hnone]
    exact .inl rfl
  | some a =>
    have hsome : f.argument = some a := (Checked.ok.inj hargument).symm
    have hsplit : ColumnType.split? type.display = some (f.type, some a) := by
      unfold parseType at htype
      split at htype
      · rename_i hsplit
        rw [hsplit, Except.ok.inj htype]
      · cases htype
    have hbracketed := ColumnType.isBracketed_of_split? hsplit
    rw [hsome]
    exact .inr (hbracketed.strip_eq.symm ▸ hbracketed)

end Definition

/-! ## What a creation writes -/

namespace Migration

variable {t : Table} {f : Field}

/-- The type that the creation of a table writes for a field is read as the declared one exactly
when the declared argument is blank or has its brackets; every plan that creates the table writes
it. -/
theorem created_type_rereads_iff (h : t.Registered) (hf : f ∈ t.storedFields) :
    (f.RereadsType ↔ f.HasBracketedArgument) ∧
    (∀ text mark, Creates t f text mark → text = f.typeText) ∧
    ∀ policy state, (plan t policy none).outcome = .ok state →
      Creates t f f.typeText f.isStatic := by
  have htype : ∃ type : ColumnType, f.type = type.name := h.wellFormed.typeName hf
  refine ⟨Field.rereadsType_iff htype, fun text mark hcreates => hcreates.eq.1,
    fun policy state hplan => ?_⟩
  obtain ⟨_, hcreated, -, -⟩ := Draft.bind_ok hplan
  exact creates_of_createAll hcreated hf

/-- Users with a field whose type and argument are declared apart, as a definition. -/
def apartDefinition (name type argument : String) : Value := .map [
  (.text "fields", .map [
    (.text "id", .text "uuid"),
    (.text name, .map [(.text "type", .text type), (.text "type_def", .text argument)])]),
  (.text "key", .list [.text "id"])]

/-- The table that `apartDefinition` declares. -/
def apartUsers (f : Field) : Table where
  name := "users"
  fields := [{ name := "id", type := "uuid" }, f]
  partitionKey := ["id"]
  clusteringKey := []
  clusteringOrder := []
  indexes := []
  customIndexes := []
  views := []
  defaultTtl := none
  hooks := []

/-- The groups of a user, with blanks around the argument. -/
def groups : Field := { name := "groups", type := "frozen", argument := some " <set<text>>\n" }

/-- The blanks are written and not read, and the field is a set both times. -/
theorem created_type_rereads_groups :
    (apartUsers groups).Registered ∧ groups ∈ (apartUsers groups).storedFields ∧
    Creates (apartUsers groups) groups "frozen <set<text>>\n" false ∧
    groups.RereadsType ∧ groups.collectionKind? = some .set := by
  have hregistered : (apartUsers groups).Registered := .inl ⟨.text "users",
    apartDefinition "groups" "frozen" " <set<text>>\n", by with_unfolding_all rfl⟩
  have hstored : groups ∈ (apartUsers groups).storedFields :=
    List.mem_cons_of_mem _ List.mem_cons_self
  obtain ⟨hrereads, -, hcreates⟩ := created_type_rereads_iff hregistered hstored
  refine ⟨hregistered, hstored, ?_, hrereads.2 (by decide +kernel), by decide +kernel⟩
  have hcreated := hcreates .safe .created (of_toOption_eq_some (by decide +kernel))
  rwa [show groups.typeText = "frozen <set<text>>\n" by decide +kernel] at hcreated

/-- The tags of a user, whose argument has no brackets. -/
def bareTags : Field := { name := "tags", type := "list", argument := some "text" }

/-- The table is registered and created with a column of the type `listtext`, which is read as a
name that is no type, without an argument. -/
theorem not_created_type_rereads_bareTags :
    Table.ofDefinition (.text "users") (apartDefinition "tags" "list" "text") =
      .ok (apartUsers bareTags) ∧
    bareTags ∈ (apartUsers bareTags).storedFields ∧
    Creates (apartUsers bareTags) bareTags "listtext" false ∧
    ColumnType.split (.text "listtext") = .ok ("listtext", none) ∧
    ColumnType.ofName? "listtext" = none ∧ ¬ bareTags.RereadsType := by
  have hdefinition : Table.ofDefinition (.text "users") (apartDefinition "tags" "list" "text") =
      .ok (apartUsers bareTags) := by with_unfolding_all rfl
  have hstored : bareTags ∈ (apartUsers bareTags).storedFields :=
    List.mem_cons_of_mem _ List.mem_cons_self
  refine ⟨hdefinition, hstored, creates_of_createAll (by with_unfolding_all rfl) hstored,
    by with_unfolding_all rfl, by decide +kernel, fun hrereads => ?_⟩
  rw [Field.rereadsType_iff ⟨.list, rfl⟩] at hrereads
  exact absurd hrereads (by decide +kernel)

end Migration

end WideColumn
