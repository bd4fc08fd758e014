import Mathlib.Data.List.Forall2
import WideColumn.Proofs.Naming
import WideColumn.Proofs.Placeholder
import WideColumn.Proofs.Outcome

/-!
# Texts without placeholders

Quoted names, numbers and the items of a selection are inert: whatever they were read from, they
have no placeholder and close the quotes that they open.
-/

namespace WideColumn

/-! ## Names -/

theorem Identifier.isInert_quoted (i : Identifier) : IsInert i.quoted := by
  have hquoted : i.quoted = String.ofList ('"' :: i.chars ++ ['"']) := by
    refine String.toList_inj.1 ?_
    unfold quoted text
    simp
  rw [hquoted]
  exact isInert_enclosed (.inr rfl) i.notMem_chars

/-! ## Numbers -/

/-- No digit is a question mark or a quote. -/
theorem isUnmarked_digits (n : Nat) : IsUnmarked n.repr := by
  intro c hc
  rw [Nat.repr_eq_ofList_toDigits, String.toList_ofList] at hc
  exact Unmarked.of_class (Nat.isDigit_of_mem_toDigits (by decide) (by decide) hc) rfl rfl rfl

theorem isUnmarked_toString (n : Int) : IsUnmarked (toString n) := by
  rw [Int.toString_eq_repr, Int.repr_eq_if]
  split
  · exact isUnmarked_digits n.toNat
  · exact IsUnmarked.append (by decide) (isUnmarked_digits (-n).toNat)

theorem isInert_ttlText (ttl : Option Int) : IsInert (ttlText ttl) := by
  cases ttl with
  | none => exact isInert_empty
  | some n => exact (IsUnmarked.append (by decide) (isUnmarked_toString n)).isInert

theorem SelectStatement.isInert_limitText {keyword : String} (hkeyword : IsUnmarked keyword)
    (limit : Option Int) : IsInert (limitText keyword limit) := by
  cases limit with
  | none => exact isInert_empty
  | some n => exact (hkeyword.append (isUnmarked_toString n)).isInert

/-! ## Orders and groupings -/

theorem isInert_names (separator : String) (hseparator : IsUnmarked separator)
    (names : List Identifier) :
    IsInert (separator.intercalate (names.map Identifier.quoted)) := by
  refine hseparator.isInert.intercalate fun t ht => ?_
  obtain ⟨name, -, rfl⟩ := List.mem_map.1 ht
  exact name.isInert_quoted

theorem SelectStatement.isInert_groupText (names : Option (List Identifier)) :
    IsInert (groupText names) := by
  cases names with
  | none => exact isInert_empty
  | some names =>
    exact IsInert.append .fixed (isInert_names ", " (by decide) names)

theorem SelectStatement.isInert_orderText (parts : Option (List (Identifier × Direction))) :
    IsInert (orderText parts) := by
  cases parts with
  | none => exact isInert_empty
  | some parts =>
    refine IsInert.append .fixed (IsInert.intercalate .fixed fun t ht => ?_)
    obtain ⟨part, -, rfl⟩ := List.mem_map.1 ht
    have hkeyword : IsUnmarked part.2.keyword := by cases part.2 <;> decide
    exact (part.1.isInert_quoted.append .fixed).append hkeyword.isInert

/-! ## Items of a selection -/

namespace Projection

theorem isUnmarked_ofList {cs : List Char} (h : ∀ c ∈ cs, Unmarked c) :
    IsUnmarked (String.ofList cs) := by
  unfold IsUnmarked
  rwa [String.toList_ofList]

theorem mem_word {cs : List Char} (h : isWord cs = true) : ∀ c ∈ cs, isInner c = true := by
  cases cs with
  | nil => cases h
  | cons c cs =>
    obtain ⟨hc, hcs⟩ := Bool.and_eq_true_iff.1 h
    intro d hd
    rcases List.mem_cons.1 hd with rfl | hd
    · exact Bool.or_eq_true_iff.2 (.inl hc)
    · exact List.all_eq_true.1 hcs d hd

/-- The name of a function has letters, digits and low lines only. -/
theorem isUnmarked_word {cs : List Char} (h : isWord cs = true) : IsUnmarked (String.ofList cs) :=
  isUnmarked_ofList fun c hc => Unmarked.of_class (mem_word h c hc) (by decide) (by decide)
    (by decide)

theorem unmarked_of_digits {cs : List Char} (h : isDigits cs = true) : ∀ c ∈ cs, Unmarked c :=
  fun c hc => Unmarked.of_class (List.all_eq_true.1 (Bool.and_eq_true_iff.1 h).2 c hc) (by decide)
    (by decide) (by decide)

/-- A number is an optional sign and digits, or digits before and after a point. -/
theorem number_parts {cs : List Char} (h : isNumber cs = true) :
    ∃ sign body, (sign = [] ∨ sign = ['-']) ∧ cs = sign ++ body ∧ (isDigits body = true ∨
      ∃ whole fraction, body = whole ++ '.' :: fraction ∧ isDigits whole = true ∧
        isDigits fraction = true) := by
  unfold isNumber at h
  extract_lets body whole at h
  obtain ⟨sign, hsign, hcs⟩ : ∃ sign, (sign = [] ∨ sign = ['-']) ∧ cs = sign ++ body := by
    unfold body
    split
    · exact ⟨['-'], .inr rfl, rfl⟩
    · exact ⟨[], .inl rfl, rfl⟩
  have hsplit : whole ++ body.dropWhile (· != '.') = body := List.takeWhile_append_dropWhile
  refine ⟨sign, body, hsign, hcs, ?_⟩
  split at h
  · next hrest =>
    rw [hrest, List.append_nil] at hsplit
    exact .inl (hsplit ▸ h)
  · next point fraction hrest =>
    obtain rfl : point = '.' := by
      have hhead := List.head?_dropWhile_not (· != '.') body
      rw [hrest] at hhead
      simpa using hhead
    obtain ⟨hwhole, hfraction⟩ := Bool.and_eq_true_iff.1 h
    exact .inr ⟨whole, fraction, (hrest ▸ hsplit).symm, hwhole, hfraction⟩

/-- A number has digits, a sign and a point only. -/
theorem isUnmarked_number {cs : List Char} (h : isNumber cs = true) :
    IsUnmarked (String.ofList cs) := by
  obtain ⟨sign, body, hsign, rfl, hbody⟩ := number_parts h
  refine isUnmarked_ofList fun c hc => ?_
  rcases List.mem_append.1 hc with hc | hc
  · have hminus : c = '-' := by
      rcases hsign with rfl | rfl
      · cases hc
      · exact List.mem_singleton.1 hc
    rw [hminus]
    decide
  · rcases hbody with hdigits | ⟨whole, fraction, rfl, hwhole, hfraction⟩
    · exact unmarked_of_digits hdigits c hc
    · rcases List.mem_append.1 hc with hc | hc
      · exact unmarked_of_digits hwhole c hc
      · rcases List.mem_cons.1 hc with rfl | hc
        · decide
        · exact unmarked_of_digits hfraction c hc

/-- A quoted argument is enclosed in quotes and has none inside. -/
theorem quoted_parts {cs : List Char} (h : isQuoted cs = true) :
    ∃ inside, cs = '\'' :: inside ++ ['\''] ∧ '\'' ∉ inside := by
  unfold isQuoted at h
  split at h
  · rename_i rest
    obtain ⟨hlast, hinside⟩ := Bool.and_eq_true_iff.1 h
    have hsplit : rest = rest.dropLast ++ ['\''] :=
      (List.dropLast_append_getLast? '\'' (of_decide_eq_true hlast)).symm
    exact ⟨rest.dropLast, congrArg ('\'' :: ·) hsplit, by simpa using hinside⟩
  · cases h

theorem isInert_quotedArgument {cs : List Char} (h : isQuoted cs = true) :
    IsInert (String.ofList cs) := by
  obtain ⟨inside, rfl, hinside⟩ := quoted_parts h
  exact isInert_enclosed (.inl rfl) hinside

/-- What an argument is that was read from characters. -/
inductive ReadsArgument (cs : List Char) : Argument → Prop where
  | all : ReadsArgument cs .all
  | literal (h : isNumber cs = true ∨ isQuoted cs = true) :
    ReadsArgument cs (.literal (String.ofList cs))
  | column {name : Identifier} (hcolumn : Name.isColumn cs = true)
      (hname : Identifier.ofText (String.ofList cs) = .ok name) : ReadsArgument cs (.column name)

theorem readArgument_ok {item cs : List Char} {a : Argument} (h : readArgument item cs = .ok a) :
    ReadsArgument cs a := by
  unfold readArgument at h
  split at h
  · cases h
    exact .all
  · split at h
    · rename_i hliteral
      cases h
      exact .literal (Bool.or_eq_true_iff.1 hliteral)
    · split at h
      · rename_i hcolumn
        obtain ⟨name, hname, rfl⟩ := of_map_ok h
        exact .column hcolumn hname
      · cases h

theorem isInert_argument {item cs : List Char} {a : Argument} (h : readArgument item cs = .ok a) :
    IsInert (argumentText a) := by
  cases readArgument_ok h with
  | all => exact .fixed
  | literal hliteral =>
    rcases hliteral with hnumber | hquoted
    · exact (isUnmarked_number hnumber).isInert
    · exact isInert_quotedArgument hquoted
  | column => exact Identifier.isInert_quoted _

theorem isInert_arguments {item cs : List Char} {arguments : List Argument}
    (h : readArguments item cs = .ok arguments) :
    IsInert (",".intercalate (arguments.map argumentText)) := by
  refine IsInert.intercalate .fixed fun t ht => ?_
  obtain ⟨a, ha, rfl⟩ := List.mem_map.1 ht
  unfold readArguments at h
  split at h
  · cases h
    cases ha
  · obtain ⟨s, -, hs⟩ := forall₂_mem_right (forall₂_of_mapM h) ha
    exact isInert_argument hs

theorem isInert_nameText (name : Option Identifier) : IsInert (nameText name) := by
  cases name with
  | none => exact isInert_empty
  | some name => exact IsInert.append .fixed name.isInert_quoted

theorem isWord_of_newName? {cs name : List Char} (h : newName? cs = some name) :
    isWord name = true := by
  unfold newName? at h
  dsimp only at h
  split at h
  · split at h
    · rename_i hword
      cases h
      exact hword.2.2.2.2
    · cases h
  · cases h

theorem sublist_of_splitLastClosing {cs inside after : List Char}
    (h : splitLastClosing cs = some (inside, after)) : inside.Sublist cs := by
  unfold splitLastClosing at h
  dsimp only at h
  split at h
  · cases h
    exact List.take_sublist _ _
  · cases h

/-- The names in an applied function are words; its name and its arguments are left of the item. -/
theorem application?_parts {cs function arguments : List Char} {name : Option (List Char)}
    (h : application? cs = some (function, arguments, name)) :
    isWord function = true ∧ (∀ n ∈ name, isWord n = true) ∧ function.Sublist cs ∧
      arguments.Sublist cs := by
  unfold application? at h
  dsimp only at h
  split at h
  · rename_i rest hrest
    obtain ⟨⟨inside, after⟩, hsplit, h⟩ := Option.bind_eq_some_iff.1 h
    dsimp only at h
    split at h
    · cases h
    · rename_i hnot
      have hword : isWord (cs.takeWhile isInner) = true := by
        by_contra hno
        exact hnot (by simp [hno])
      have hopen : ('(' :: rest).Sublist cs :=
        hrest ▸ (List.dropWhile_suffix _).sublist.trans (List.dropWhile_suffix _).sublist
      have hinside : (Text.stripChars inside).Sublist cs :=
        (Text.stripChars_sublist inside).trans ((sublist_of_splitLastClosing hsplit).trans
          ((List.sublist_cons_self _ _).trans hopen))
      split at h
      · cases h
        exact ⟨hword, nofun, List.takeWhile_sublist _, hinside⟩
      · obtain ⟨n, hn, h⟩ := Option.map_eq_some_iff.1 h
        cases h
        refine ⟨hword, fun m hm => ?_, List.takeWhile_sublist _, hinside⟩
        cases hm
        exact isWord_of_newName? hn
  · cases h

/-- What an item is that was read from characters without blanks around them. -/
inductive Reads (cs : List Char) : Projection → Prop where
  | all : Reads cs .all
  | column {name : Identifier} (hcolumn : Name.isColumn cs = true)
      (hname : Identifier.ofText (String.ofList cs) = .ok name) : Reads cs (.column name)
  | renamed {old new : List Char} {source name : Identifier}
      (hread : renamed? cs = some (old, new))
      (hsource : Identifier.ofText (String.ofList old) = .ok source)
      (hname : Identifier.ofText (String.ofList new) = .ok name) : Reads cs (.renamed source name)
  | application {function inside : List Char} {new : Option (List Char)}
      {arguments : List Argument} {name : Option Identifier}
      (hread : application? cs = some (function, inside, new))
      (harguments : readArguments cs inside = .ok arguments) (hname : readName new = .ok name) :
    Reads cs (.application (String.ofList function) arguments name)

theorem read_ok {cs : List Char} {item : Projection} (h : read cs = .ok item) : Reads cs item := by
  unfold read at h
  split at h
  · cases h
    exact .all
  · split at h
    · rename_i hcolumn
      obtain ⟨name, hname, rfl⟩ := of_map_ok h
      exact .column hcolumn hname
    · split at h
      · rename_i hread
        obtain ⟨source, hsource, h⟩ := of_bind_ok h
        obtain ⟨name, hname, h⟩ := of_bind_ok h
        cases h
        exact .renamed hread hsource hname
      · split at h
        · rename_i hread
          obtain ⟨arguments, harguments, h⟩ := of_bind_ok h
          obtain ⟨name, hname, h⟩ := of_bind_ok h
          cases h
          exact .application hread harguments hname
        · cases h

/-- An item of a selection that was read has no placeholder. -/
theorem isInert_render {s : String} {item : Projection} (h : ofText s = .ok item) :
    IsInert item.render := by
  cases read_ok h with
  | all => exact .fixed
  | column => exact Identifier.isInert_quoted _
  | renamed =>
    exact ((Identifier.isInert_quoted _).append .fixed).append (Identifier.isInert_quoted _)
  | application hread harguments =>
    have hfunction := (isUnmarked_word (application?_parts hread).1).isInert
    exact (((hfunction.append .fixed).append (isInert_arguments harguments)).append .fixed).append
      (isInert_nameText _)

theorem isInert_renderAll {items : List Projection} (h : ∀ item ∈ items, IsInert item.render) :
    IsInert (renderAll items) := by
  unfold renderAll
  split
  · exact .fixed
  · refine IsInert.intercalate .fixed fun t ht => ?_
    obtain ⟨item, hitem, rfl⟩ := List.mem_map.1 ht
    exact h item hitem

end Projection

end WideColumn
