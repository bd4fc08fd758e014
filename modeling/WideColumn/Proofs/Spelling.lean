import Mathlib.Data.List.DropRight
import WideColumn.ColumnType
import WideColumn.Proofs.Case
import WideColumn.Proofs.Naming

/-!
# Canonical spellings

Texts without blanks at their ends, arguments of types without blanks and in small letters, and the
names of types are spelled in one way, and spelling them that way again changes nothing. The text of
a type whose name is known and whose argument stands in angle brackets is split into the two again.
-/

namespace WideColumn

/-! ## Blanks at the ends -/

namespace Text

/-- Stripping twice is stripping once. -/
theorem stripChars_stripChars (cs : List Char) : stripChars (stripChars cs) = stripChars cs := by
  have hstart : stripChars cs <+: stripLeft cs := List.rdropWhile_prefix isBlank _
  have hleft : stripLeft (stripChars cs) = stripChars cs := by
    unfold stripLeft
    rw [List.dropWhile_eq_self_iff]
    intro hlength
    have hlength' : 0 < (stripLeft cs).length := Nat.lt_of_lt_of_le hlength hstart.length_le
    rw [hstart.getElem]
    exact List.dropWhile_get_zero_not isBlank cs hlength'
  change stripRight (stripLeft (stripChars cs)) = _
  rw [hleft]
  exact List.rdropWhile_idempotent isBlank (stripLeft cs)

theorem strip_strip (s : String) : strip (strip s) = strip s := by
  unfold strip
  rw [String.toList_ofList, stripChars_stripChars]

/-- The first character that is not blank stays the first one. -/
theorem head?_stripChars (cs : List Char) : (stripChars cs).head? = (stripLeft cs).head? := by
  cases hcs : stripLeft cs with
  | nil => simp [stripChars, hcs, stripRight]
  | cons c ds =>
    have hc : isBlank c = false := by
      have hnot := List.head?_dropWhile_not isBlank cs
      rw [show cs.dropWhile isBlank = c :: ds from hcs] at hnot
      simpa using hnot
    have hprefix : stripChars cs <+: c :: ds := hcs ▸ List.rdropWhile_prefix isBlank _
    cases hstrip : stripChars cs with
    | nil =>
      have hblank : (c :: ds).rdropWhile isBlank = [] := hcs ▸ hstrip
      rw [List.rdropWhile_eq_nil_iff] at hblank
      have := hblank c List.mem_cons_self
      simp_all
    | cons d es =>
      rw [hstrip, List.cons_prefix_cons] at hprefix
      rw [List.head?_cons, List.head?_cons, hprefix.1]

end Text

namespace ColumnType

/-! ## Whole words -/

/-- Replacing a word leaves the first character in a word. -/
theorem head?_replaceWord_true (cs : List Char) : (replaceWord true cs).head? = cs.head? := by
  fun_cases replaceWord true cs <;> simp_all

/-- What is not in the text comes from the word that is put in. -/
theorem mem_replaceWord {inWord : Bool} {cs : List Char} {d : Char}
    (h : d ∈ replaceWord inWord cs) :
    d ∈ cs ∨ d ∈ ['t', 'e', 'x'] := by
  fun_induction replaceWord inWord cs with
  | case1 => exact .inl h
  | case2 inWord rest hword ih =>
    simp only [List.mem_cons, List.not_mem_nil, or_false] at h ih ⊢
    tauto
  | case3 inWord rest hword ih =>
    simp only [List.mem_cons, List.not_mem_nil, or_false] at h ih ⊢
    tauto
  | case4 inWord c rest hne ih =>
    rcases List.mem_cons.1 h with rfl | h
    · exact .inl List.mem_cons_self
    · exact (ih h).imp_left (List.mem_cons_of_mem c)

/-- A text in angle brackets stays in angle brackets. -/
theorem getLast?_replaceWord {inWord : Bool} {cs : List Char} (h : cs.getLast? = some '>') :
    (replaceWord inWord cs).getLast? = some '>' := by
  fun_induction replaceWord inWord cs with
  | case1 => exact h
  | case2 inWord rest hword ih =>
    cases rest with
    | nil => cases h
    | cons d rest => simp_all [List.getLast?_cons]
  | case3 inWord rest hword ih =>
    cases rest with
    | nil => cases h
    | cons d rest => simp_all [List.getLast?_cons]
  | case4 inWord c rest hne ih =>
    cases rest with
    | nil => exact h
    | cons d rest => simp_all [List.getLast?_cons]

/-- What begins with a character other than the first of the word was not replaced. -/
theorem eq_cons_of_replaceWord_true {cs ds : List Char} {d : Char} (hd : d ≠ 'v')
    (h : replaceWord true cs = d :: ds) :
    ∃ rest, cs = d :: rest ∧ replaceWord (Text.isWord d) rest = ds := by
  revert h
  fun_cases replaceWord true cs <;> intro h
  · cases h
  · simp_all
  · cases h
    exact absurd rfl hd
  · cases h
    exact ⟨_, rfl, rfl⟩

theorem replaceWord_eq_nil {inWord : Bool} {cs : List Char} :
    replaceWord inWord cs = [] ↔ cs = [] := by
  fun_cases replaceWord inWord cs <;> simp

/-- After a replacement there is no word left to replace. -/
theorem replaceWord_replaceWord (inWord : Bool) (cs : List Char) :
    replaceWord inWord (replaceWord inWord cs) = replaceWord inWord cs := by
  have hword : ['v', 'a', 'r', 'c', 'h', 't', 'e', 'x'].all Text.isWord = true := by decide +kernel
  simp only [List.all_cons, List.all_nil, Bool.and_eq_true, and_true] at hword
  obtain ⟨hv, ha, hr, hc, hh, ht, he, hx⟩ := hword
  fun_induction replaceWord inWord cs with
  | case1 => rfl
  | case2 inWord rest hreplaced ih =>
    simp [replaceWord, ht, he, hx, ih]
  | case3 inWord rest hkept ih =>
    rw [replaceWord, head?_replaceWord_true, if_neg hkept, ih]
  | case4 inWord c rest hne ih =>
    rw [replaceWord, ih]
    -- had the word come about behind the first character, it would have been there before
    rintro rest₁ rfl h₁
    rw [hv] at h₁
    obtain ⟨rest₂, rfl, h₂⟩ := eq_cons_of_replaceWord_true (by decide) h₁
    rw [ha] at h₂
    obtain ⟨rest₃, rfl, h₃⟩ := eq_cons_of_replaceWord_true (by decide) h₂
    rw [hr] at h₃
    obtain ⟨rest₄, rfl, h₄⟩ := eq_cons_of_replaceWord_true (by decide) h₃
    rw [hc] at h₄
    obtain ⟨rest₅, rfl, h₅⟩ := eq_cons_of_replaceWord_true (by decide) h₄
    rw [hh] at h₅
    obtain ⟨rest₆, rfl, h₆⟩ := eq_cons_of_replaceWord_true (by decide) h₅
    rw [ha] at h₆
    obtain ⟨rest₇, rfl, -⟩ := eq_cons_of_replaceWord_true (by decide) h₆
    exact hne rest₇ rfl rfl

/-! ## Arguments -/

/-- The argument of a type stands in angle brackets. -/
def IsBracketed (argument : String) : Prop :=
  argument.toList.head? = some '<' ∧ argument.toList.getLast? = some '>'

instance (argument : String) : Decidable (IsBracketed argument) :=
  inferInstanceAs (Decidable (_ ∧ _))

/-- The characters of an argument that are kept. -/
theorem filter_notSeparator (cs : List Char) :
    cs.filter (fun c => !Text.isBlank c && c != '"') = cs.filter fun c => !Text.isSeparator c := by
  refine List.filter_congr fun c _ => ?_
  rw [Text.isSeparator, Bool.not_or]
  rfl

theorem canonicalArgument_some {s : String} (h : s ≠ "") :
    canonicalArgument (some s) = some (String.ofList (replaceWord false
      (Text.lowerFrom [] (s.toList.filter fun c => !Text.isSeparator c)))) := by
  have hempty : s.isEmpty = false := by simpa using h
  unfold canonicalArgument
  dsimp only
  rw [hempty, if_neg Bool.false_ne_true, filter_notSeparator]
  simp only [Text.lower, String.toList_ofList]

theorem IsBracketed.ne_empty {s : String} (h : IsBracketed s) : s ≠ "" := by
  rintro rfl
  exact absurd h (by decide)

/-- There are no blanks around angle brackets. -/
theorem IsBracketed.strip_eq {s : String} (h : IsBracketed s) : Text.strip s = s := by
  obtain ⟨hhead, hlast⟩ := h
  obtain ⟨cs, hs⟩ := List.head?_eq_some_iff.1 hhead
  rw [hs] at hlast
  cases cs with
  | nil => exact absurd hlast (by decide)
  | cons c cs =>
    rw [List.getLast?_cons_cons] at hlast
    obtain ⟨inner, hinner⟩ := List.getLast?_eq_some_iff.1 hlast
    rw [Text.strip, hs, hinner, Text.stripChars_between (by decide) (by decide), ← hinner, ← hs,
      String.ofList_toList]

/-- Nothing is left of an argument of blanks and double quotes alone. -/
theorem canonicalArgument_eq_empty {a : String} :
    canonicalArgument (some a) = some "" ↔ a ≠ "" ∧ ∀ c ∈ a.toList, Text.isSeparator c = true := by
  by_cases ha : a = ""
  · subst ha
    simp [canonicalArgument]
  · rw [canonicalArgument_some ha, Option.some.injEq, String.ofList_eq_empty_iff,
      replaceWord_eq_nil, Text.lowerFrom_eq_nil, List.filter_eq_nil_iff]
    simp [ha]

/-- An argument in canonical form has nothing left to remove or to map. -/
theorem canonicalArgument_settled (cs : List Char) {d : Char}
    (h : d ∈ replaceWord false (Text.lowerFrom [] (cs.filter fun c => !Text.isSeparator c))) :
    Text.isSeparator d = false ∧ Text.lowerTable.Leaves d.toNat := by
  rcases mem_replaceWord h with h | h
  · refine ⟨Text.notSeparator_of_mem_lowerFrom (fun c hc => ?_) h, Text.leaves_of_mem_lowerFrom h⟩
    simpa using (List.mem_filter.1 hc).2
  · have hletters : ['t', 'e', 'x'].all (fun c =>
        !Text.isSeparator c && decide (0x5B ≤ c.toNat) && decide (c.toNat ≤ 0x7F)) = true := by
      decide +kernel
    have hletter := List.all_eq_true.1 hletters d h
    simp only [Bool.and_eq_true, Bool.not_eq_true', decide_eq_true_eq] at hletter
    obtain ⟨⟨hseparator, hlow⟩, hhigh⟩ := hletter
    exact ⟨hseparator, Text.leaves_of_small hlow hhigh⟩

/-- The canonical form of an argument is its own, unless nothing is left of the argument. -/
theorem canonicalArgument_canonicalArgument {s x : String} (h : canonicalArgument (some s) = some x)
    (hx : x ≠ "") : canonicalArgument (some x) = some x := by
  have hs : s ≠ "" := by
    rintro rfl
    cases h
  rw [canonicalArgument_some hs] at h
  obtain rfl := Option.some.inj h
  rw [canonicalArgument_some hx, String.toList_ofList, List.filter_eq_self.2,
    Text.lowerFrom_of_leaves fun d hd => (canonicalArgument_settled s.toList hd).2,
    replaceWord_replaceWord]
  intro d hd
  simp [(canonicalArgument_settled s.toList hd).1]

/-- Small letters keep a bracket at the beginning. -/
theorem head?_lowerFrom {before cs : List Char} (h : cs.head? = some '<') :
    (Text.lowerFrom before cs).head? = some '<' := by
  cases cs with
  | nil => cases h
  | cons c cs =>
    obtain rfl := Option.some.inj h
    rw [Text.lowerFrom]
    · rfl
    · decide

/-- Small letters keep a bracket at the end. -/
theorem getLast?_lowerFrom {before cs : List Char} (h : cs.getLast? = some '>') :
    (Text.lowerFrom before cs).getLast? = some '>' := by
  induction cs generalizing before with
  | nil => cases h
  | cons c cs ih =>
    cases cs with
    | nil =>
      obtain rfl := Option.some.inj h
      rw [Text.lowerFrom]
      · rfl
      · decide
    | cons d cs =>
      have hlast : (d :: cs).getLast? = some '>' := by rwa [List.getLast?_cons_cons] at h
      obtain ⟨image, heq, -⟩ := Text.lowerFrom_cons before c (d :: cs)
      rw [heq, List.getLast?_append, ih hlast]
      rfl

/-- The canonical form of an argument in angle brackets is in angle brackets. -/
theorem IsBracketed.canonicalArgument {s : String} (h : IsBracketed s) :
    ∃ x, ColumnType.canonicalArgument (some s) = some x ∧ IsBracketed x := by
  refine ⟨_, canonicalArgument_some h.ne_empty, ?_⟩
  obtain ⟨hhead, hlast⟩ := h
  unfold IsBracketed
  rw [String.toList_ofList]
  generalize s.toList = cs at hhead hlast
  have hhead' : (cs.filter fun c => !Text.isSeparator c).head? = some '<' := by
    cases cs with
    | nil => cases hhead
    | cons c cs =>
      obtain rfl := Option.some.inj hhead
      rw [List.filter_cons_of_pos (by decide)]
      rfl
  have hlast' : (cs.filter fun c => !Text.isSeparator c).getLast? = some '>' := by
    obtain ⟨ds, rfl⟩ := List.getLast?_eq_some_iff.1 hlast
    rw [List.filter_append, List.getLast?_append]
    rfl
  refine ⟨?_, getLast?_replaceWord (getLast?_lowerFrom hlast')⟩
  have hsmall : (Text.lowerFrom [] (cs.filter fun c => !Text.isSeparator c)).head? = some '<' :=
    head?_lowerFrom hhead'
  generalize Text.lowerFrom [] _ = ds at hsmall
  cases ds with
  | nil => cases hsmall
  | cons d ds =>
    obtain rfl := Option.some.inj hsmall
    rw [replaceWord]
    · rfl
    · intro rest hv
      exact absurd hv (by decide)

/-! ## Names of types -/

theorem ofName?_eq_some {s : String} {type : ColumnType} (h : ofName? s = some type) :
    s = type.name := by
  have hname := List.find?_some h
  exact (beq_iff_eq.1 hname).symm

/-- The name of a type that has no other spelling is canonical. -/
theorem canonicalName_name {type : ColumnType} (h : type ≠ .varchar) :
    canonicalName type.name = type.name := by
  have hall : ∀ type ∈ all, type ≠ .varchar → canonicalName type.name = type.name := by
    decide +kernel
  exact hall type (by cases type <;> decide) h

/-- The canonical name of a known type is the name of one, and canonical. -/
theorem canonicalName_known (type : ColumnType) : ∃ usual : ColumnType,
    canonicalName type.name = usual.name ∧ canonicalName usual.name = usual.name := by
  by_cases hvarchar : type = .varchar
  · subst hvarchar
    exact ⟨.text, by decide +kernel, canonicalName_name nofun⟩
  · exact ⟨type, canonicalName_name hvarchar, canonicalName_name hvarchar⟩

/-- The characters of the name of a known type. -/
theorem name_chars (type : ColumnType) :
    type.name.toList.all isNameChar = true ∧
      type.name.toList.all (fun c => !Text.isBlank c) = true ∧
      type.name.toList.map Char.toLower = type.name.toList ∧ type.name.toList ≠ [] := by
  cases type <;> decide +kernel

/-! ## Types as texts -/

/-- A text that is read as the name of a type: letters or low lines in small, at least one. -/
structure IsTypeName (name : String) : Prop where
  nonempty : name ≠ ""
  letters : ∀ c ∈ name.toList, isNameChar c = true
  small : ∀ c ∈ name.toList, c.toLower = c

/-- A letter of the name of a type may stand in a name. -/
theorem isInner_of_isNameChar {c : Char} (h : isNameChar c = true) : Name.isInner c = true := by
  unfold isNameChar at h
  unfold Name.isInner Name.isLetter
  simp only [Bool.or_eq_true] at h ⊢
  tauto

/-- The name that is read off a type is the letters in front, in small. -/
theorem splitChars_name {cs name : List Char} {argument : Option (List Char)}
    (h : splitChars cs = some (name, argument)) :
    name = ((Text.stripLeft cs).takeWhile isNameChar).map Char.toLower := by
  unfold splitChars at h
  grind

theorem isTypeName (type : ColumnType) : IsTypeName type.name := by
  obtain ⟨hletters, -, hsmall, hne⟩ := name_chars type
  refine ⟨fun hempty => hne (by rw [hempty]; rfl), List.all_eq_true.1 hletters, fun c hc => ?_⟩
  obtain ⟨n, hn, rfl⟩ := List.getElem_of_mem hc
  have hget := congrArg (fun cs : List Char => cs[n]?) hsmall
  simpa [hn] using hget

namespace IsTypeName

variable {name : String} (h : IsTypeName name)
include h

theorem toList_ne_nil : name.toList ≠ [] := fun hnil => h.nonempty (String.toList_eq_nil_iff.1 hnil)

theorem map_toLower : name.toList.map Char.toLower = name.toList :=
  (List.map_congr_left h.small).trans (List.map_id _)

theorem takeWhile_append (cs : List Char) (hcs : ∀ c ∈ cs.head?, isNameChar c = false) :
    (name.toList ++ cs).takeWhile isNameChar = name.toList ∧
      (name.toList ++ cs).dropWhile isNameChar = cs := by
  rw [List.takeWhile_append_of_pos h.letters, List.dropWhile_append_of_pos h.letters]
  cases cs with
  | nil => exact ⟨List.append_nil _, rfl⟩
  | cons c cs =>
    have hc : ¬ isNameChar c = true := by simp [hcs c rfl]
    rw [List.takeWhile_cons_of_neg hc, List.dropWhile_cons_of_neg hc, List.append_nil]
    exact ⟨rfl, rfl⟩

theorem stripLeft_append (cs : List Char) :
    Text.stripLeft (name.toList ++ cs) = name.toList ++ cs := by
  cases hname : name.toList with
  | nil => exact absurd hname h.toList_ne_nil
  | cons c ds =>
    have hletter := h.letters c (hname ▸ List.mem_cons_self)
    exact Text.stripLeft_cons (Name.isInner_notBlank (isInner_of_isNameChar hletter)) _

/-- What stands behind the name of a type is read as its argument when it stands in angle brackets
between blanks, and as none when it is blank; in all other cases the name is not read, or another
name is. -/
theorem split?_append_iff {argument : String} {read : Option String} :
    ColumnType.split? (name ++ argument) = some (name, read) ↔
      Text.strip argument = "" ∧ read = none ∨
        IsBracketed (Text.strip argument) ∧ read = some (Text.strip argument) := by
  have hempty : name.toList.isEmpty = false := by simpa using h.toList_ne_nil
  have hstrip : (Text.strip argument).toList = Text.stripChars argument.toList := by
    simp [Text.strip]
  have hhead := Text.head?_stripChars argument.toList
  rw [← hstrip] at hhead
  by_cases hapart : ∀ c ∈ argument.toList.head?, isNameChar c = false
  · obtain ⟨htake, hdrop⟩ := h.takeWhile_append argument.toList hapart
    unfold ColumnType.split? splitChars
    simp only [String.toList_append, h.stripLeft_append, htake, hdrop, hempty, h.map_toLower]
    unfold Text.stripChars at hstrip
    cases hrest : Text.stripLeft argument.toList with
    | nil =>
      rw [hrest] at hstrip
      have hnone : Text.strip argument = "" := String.toList_injective hstrip
      simp [hnone, IsBracketed, eq_comm]
    | cons d ds =>
      rw [hrest] at hhead hstrip
      have hne : Text.strip argument ≠ "" := fun hnone => by simp [hnone] at hhead
      by_cases hd : d = '<'
      · subst hd
        simp only [← hstrip]
        by_cases hlast : (Text.strip argument).toList.getLast? = some '>'
        · simp [hne, IsBracketed, hhead, hlast, eq_comm]
        · simp [hne, IsBracketed, hlast]
      · simp [hne, IsBracketed, hhead, hd]
  · obtain ⟨c, hc, hletter⟩ : ∃ c ∈ argument.toList.head?, isNameChar c = true := by
      simpa using hapart
    obtain ⟨cs, hcs⟩ := List.head?_eq_some_iff.1 hc
    constructor
    · -- the letter makes the name longer
      intro hread
      obtain ⟨⟨read', _⟩, hsplit, heq⟩ := Option.map_eq_some_iff.1 hread
      have hname := splitChars_name hsplit
      rw [String.toList_append, h.stripLeft_append, hcs,
        List.takeWhile_append_of_pos h.letters, List.takeWhile_cons_of_pos hletter] at hname
      have hlength := congrArg (fun n => n.1.toList.length) heq
      simp [hname] at hlength
    · have hblank : Text.stripLeft (c :: cs) = c :: cs :=
        Text.stripLeft_cons (Name.isInner_notBlank (isInner_of_isNameChar hletter)) cs
      rw [hcs, hblank] at hhead
      rintro (⟨hnone, -⟩ | ⟨⟨hopen, -⟩, -⟩)
      · simp [hnone] at hhead
      · rw [hopen] at hhead
        obtain rfl : '<' = c := by simpa using hhead
        exact absurd hletter (by decide)

/-- A name alone is split into itself. -/
theorem split?_self : ColumnType.split? name = some (name, none) := by
  have hsplit : ColumnType.split? (name ++ "") = some (name, none) :=
    h.split?_append_iff.2 (.inl ⟨rfl, rfl⟩)
  rwa [String.append_empty] at hsplit

/-- A name with an argument in angle brackets is split into the two. -/
theorem split?_bracketed {argument : String} (hargument : IsBracketed argument) :
    ColumnType.split? (name ++ argument) = some (name, some argument) := by
  refine h.split?_append_iff.2 (.inr ?_)
  rw [hargument.strip_eq]
  exact ⟨hargument, rfl⟩

end IsTypeName

end ColumnType

end WideColumn
