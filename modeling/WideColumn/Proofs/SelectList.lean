import WideColumn.Proofs.Grammar
import WideColumn.Proofs.Spelling

/-!
# The grammar of what is selected

The text between the keyword and the source of a selection is written of items that were read from
texts: columns, renamed columns and functions of columns, stars and literals. `Projection.Derives`
is the grammar of an item. Names in quotes are always identifiers, and quoted literals are always
closed; what stands outside quotes is as it was given, and the readers of function names and of
numbers take letters and digits beyond ASCII too. The text of a selection is a list of items exactly
when there are none of these (`Operation.select_derives_iff`): a reader that comes to a text of the
grammar sees ASCII characters only outside quotes (`Quoting.bare`).
-/

namespace WideColumn

/-! ## What stands outside quotes -/

/-- The characters that a reader comes to outside quotes. -/
def Quoting.bare : Quoting → List Char → List Char
  | _, [] => []
  | q, c :: cs => if q = outside then c :: bare (q.next c) cs else bare (q.next c) cs

theorem Quoting.bare_append : ∀ (q : Quoting) (cs ds : List Char),
    q.bare (cs ++ ds) = q.bare cs ++ (q.after cs).bare ds
  | _, [], _ => rfl
  | q, c :: cs, ds => by
    have ih := bare_append (q.next c) cs ds
    rw [List.cons_append, bare, bare, ih, after_cons]
    split <;> rfl

/-- Inside quotes nothing is outside them. -/
theorem Quoting.bare_inside {quote : Char} : ∀ {cs : List Char}, quote ∉ cs →
    (inside quote).bare cs = []
  | [], _ => rfl
  | c :: cs, h => by
    obtain ⟨hc, hcs⟩ : quote ≠ c ∧ quote ∉ cs := by simpa using h
    have hnext : (inside quote).next c = inside quote := if_neg (Ne.symm hc)
    rw [bare, if_neg nofun, hnext, bare_inside hcs]

/-- All that stands outside quotes is ASCII. -/
def IsBareAscii (s : String) : Prop := Text.IsAscii (Quoting.outside.bare s.toList)

instance (s : String) : Decidable (IsBareAscii s) := inferInstanceAs (Decidable (Text.IsAscii _))

theorem isBareAscii_append {s t : String} (hs : IsInert s) :
    IsBareAscii (s ++ t) ↔ IsBareAscii s ∧ IsBareAscii t := by
  unfold IsBareAscii
  rw [String.toList_append, Quoting.bare_append, hs.1, Text.isAscii_append]

/-- Joined texts are ASCII outside quotes when each of them is. -/
theorem isBareAscii_intercalate {separator : String} (hseparator : IsInert separator)
    (hascii : IsBareAscii separator) : ∀ {ts : List String}, (∀ t ∈ ts, IsInert t) →
    (IsBareAscii (separator.intercalate ts) ↔ ∀ t ∈ ts, IsBareAscii t)
  | [], _ => by
    rw [String.intercalate_nil]
    exact ⟨fun _ _ ht => (nomatch ht), fun _ => by decide⟩
  | [t], _ => by
    rw [String.intercalate_singleton]
    exact List.forall_mem_singleton.symm
  | t :: u :: ts, h => by
    obtain ⟨ht, hts⟩ := List.forall_mem_cons.1 h
    have ih := isBareAscii_intercalate hseparator hascii hts
    rw [String.intercalate_cons_cons, isBareAscii_append (ht.append hseparator),
      isBareAscii_append ht, ih, and_iff_left hascii]
    exact List.forall_mem_cons.symm

/-- Where there are no quotes everything is outside them. -/
theorem isBareAscii_unmarked {s : String} (h : IsUnmarked s) :
    IsBareAscii s ↔ Text.IsAscii s.toList := by
  unfold IsUnmarked at h
  unfold IsBareAscii
  suffices hbare : Quoting.outside.bare s.toList = s.toList by rw [hbare]
  generalize s.toList = cs at h
  induction cs with
  | nil => rfl
  | cons c cs ih =>
    obtain ⟨⟨-, hsingle, hdouble⟩, hcs⟩ := List.forall_mem_cons.1 h
    have hnext : Quoting.outside.next c = .outside := if_neg (by simp [hsingle, hdouble])
    rw [Quoting.bare, if_pos rfl, hnext, ih hcs]

theorem isBareAscii_enclosed {quote : Char} {cs : List Char} (hquote : quote = '\'' ∨ quote = '"')
    (h : quote ∉ cs) : IsBareAscii (String.ofList (quote :: cs ++ [quote])) := by
  have hopen : Quoting.outside.next quote = .inside quote := if_pos hquote
  have hascii : quote.toNat < 0x80 := by rcases hquote with rfl | rfl <;> decide
  unfold IsBareAscii
  rw [String.toList_ofList, List.cons_append, Quoting.bare, if_pos rfl, hopen,
    Quoting.bare_append, (Quoting.inside_of_notMem h).1, Quoting.bare_inside h]
  exact Text.isAscii_cons.2 ⟨hascii, fun _ hc => nomatch hc⟩

/-! ## Splitting at commas -/

namespace Text

open String

/-- Behind what was split before, the characters `m` and `r` are split at the commas of `r`. -/
theorem splitOnAux_comma (l m r : List Char) (acc : List String) :
    splitOnAux (ofList (l ++ m ++ r)) "," ⟨utf8Len l⟩ ⟨utf8Len l + utf8Len m⟩ 0 acc =
      acc.reverse ++ (List.splitOnPPrepend (· == ',') r m.reverse).map ofList := by
  have hget : Pos.Raw.get "," 0 = ',' := by decide
  have hnext : Pos.Raw.next "," 0 = ⟨1⟩ := by decide
  have hend : Pos.Raw.atEnd "," ⟨1⟩ = true := by decide
  have hsize : ','.utf8Size = 1 := by decide
  induction r generalizing l m acc with
  | nil =>
    have hatEnd : Pos.Raw.atEnd (ofList (l ++ m ++ [])) ⟨utf8Len l + utf8Len m⟩ = true := by
      rw [atEnd_iff, rawEndPos_ofList]
      simp
    rw [splitOnAux, if_pos hatEnd]
    simp only [extract_of_valid l m []]
    simp
  | cons c r ih =>
    have hatEnd : ¬ Pos.Raw.atEnd (ofList (l ++ m ++ c :: r)) ⟨utf8Len l + utf8Len m⟩ = true := by
      have hpos := Char.utf8Size_pos c
      rw [atEnd_iff, rawEndPos_ofList]
      simp only [utf8Len_append, utf8Len_cons, Pos.Raw.le_iff]
      omega
    have hchar : Pos.Raw.get (ofList (l ++ m ++ c :: r)) ⟨utf8Len l + utf8Len m⟩ = c := by
      simpa [-ofList_append] using get_of_valid (l ++ m) (c :: r)
    have hafter : Pos.Raw.next (ofList (l ++ m ++ c :: r)) ⟨utf8Len l + utf8Len m⟩ =
        ⟨utf8Len l + utf8Len m + c.utf8Size⟩ := by
      simpa [-ofList_append] using next_of_valid (l ++ m) c r
    rw [splitOnAux, if_neg hatEnd, hchar, hget]
    -- a comma ends the piece `m`, and any other character is put to its end
    by_cases hc : c = ','
    · subst hc
      have hrest := ih (l ++ m ++ [',']) [] (ofList m :: acc)
      simp only [hafter, hnext, hend, hsize, if_true, Pos.Raw.unoffsetBy, Nat.add_sub_cancel,
        extract_of_valid l m (',' :: r), beq_self_eq_true]
      simpa [-ofList_append, hsize, Nat.add_assoc, List.splitOnPPrepend_cons_eq_if] using hrest
    · have hrest := ih l (m ++ [c]) acc
      have hunmoved : (⟨utf8Len l + utf8Len m⟩ : Pos.Raw).unoffsetBy 0 =
        ⟨utf8Len l + utf8Len m⟩ := rfl
      rw [if_neg (by simpa using hc), hunmoved, hafter]
      simpa [-ofList_append, hc, Nat.add_assoc, List.splitOnPPrepend_cons_eq_if] using hrest

/-- A text is split at its commas as its characters are. -/
theorem splitOn_comma (s : String) :
    s.splitOn "," = (s.toList.splitOnP (· == ',')).map ofList := by
  simpa [splitOn] using splitOnAux_comma [] [] s.toList []

/-- What a list is split into is left of the list. -/
theorem sublist_of_mem_splitOnP {p : Char → Bool} {cs part : List Char}
    (h : part ∈ cs.splitOnP p) : part.Sublist cs := by
  induction cs generalizing part with
  | nil =>
    rw [List.splitOnP_nil, List.mem_singleton] at h
    exact h ▸ List.Sublist.refl _
  | cons c cs ih =>
    rw [List.splitOnP_cons_eq_if_modifyHead] at h
    split at h
    · rcases List.mem_cons.1 h with rfl | h
      · exact List.nil_sublist _
      · exact (ih h).cons c
    · cases hparts : cs.splitOnP p with
      | nil => exact absurd hparts (List.splitOnP_ne_nil p cs)
      | cons first rest =>
        rw [hparts] at h ih
        rcases List.mem_cons.1 h with rfl | h
        · exact (ih List.mem_cons_self).cons_cons c
        · exact (ih (List.mem_cons_of_mem _ h)).cons c

theorem IsAscii.of_sublist {cs ds : List Char} (h : IsAscii ds) (hsub : cs.Sublist ds) :
    IsAscii cs := fun c hc => h c (hsub.subset hc)

end Text

namespace Projection

open WideColumn.Relation

/-! ## The grammar -/

/-- ASCII digits, at least one. -/
def AsciiDigits (cs : List Char) : Prop := cs ≠ [] ∧ ∀ c ∈ cs, '0' ≤ c ∧ c ≤ '9'

/-- Decimal numbers: an optional sign, digits and an optional fraction. -/
inductive DerivesNumber : List Char → Prop
  | whole {sign digits : List Char} (hsign : sign = [] ∨ sign = ['-']) (h : AsciiDigits digits) :
    DerivesNumber (sign ++ digits)
  | fraction {sign digits fraction : List Char} (hsign : sign = [] ∨ sign = ['-'])
      (h : AsciiDigits digits) (hfraction : AsciiDigits fraction) :
    DerivesNumber (sign ++ (digits ++ '.' :: fraction))

/-- Arguments of functions: a star, a column, a number, a literal without quotes inside. -/
inductive DerivesArgument : String → Prop
  | all : DerivesArgument "*"
  | column {name : String} (h : Name.IsIdentifier name) : DerivesArgument (quotedName name)
  | number {cs : List Char} (h : DerivesNumber cs) : DerivesArgument (String.ofList cs)
  | literal {body : List Char} (h : '\'' ∉ body) : DerivesArgument (literalOf body)

/-- Items: a star, a column, a column under another name, a function of arguments and such a
function under another name. -/
inductive Derives : String → Prop
  | all : Derives "*"
  | column {name : String} (h : Name.IsIdentifier name) : Derives (quotedName name)
  | renamed {source name : String} (hsource : Name.IsIdentifier source)
      (hname : Name.IsIdentifier name) : Derives (quotedName source ++ " AS " ++ quotedName name)
  | application {function : String} {arguments : List String} (h : Name.IsIdentifier function)
      (harguments : ∀ a ∈ arguments, DerivesArgument a) :
    Derives (function ++ "(" ++ ",".intercalate arguments ++ ")")
  | renamedApplication {function name : String} {arguments : List String}
      (h : Name.IsIdentifier function) (harguments : ∀ a ∈ arguments, DerivesArgument a)
      (hname : Name.IsIdentifier name) :
    Derives (function ++ "(" ++ ",".intercalate arguments ++ ")" ++ (" AS " ++ quotedName name))

/-- The text is a list of items separated by commas. -/
def DerivesList (text : String) : Prop :=
  ∃ parts, parts ≠ [] ∧ (∀ part ∈ parts, Derives part) ∧ text = ", ".intercalate parts

/-! ### Texts of the grammar are ASCII outside quotes -/

theorem inert_quotedName {name : String} (h : Name.IsIdentifier name) :
    IsInert (quotedName name) ∧ IsBareAscii (quotedName name) := by
  have hquote : '"' ∉ name.toList := fun hmem => Name.isInner_ne_quote (h.isInner _ hmem) rfl
  have henclosed : quotedName name = String.ofList ('"' :: name.toList ++ ['"']) := by
    rw [← String.toList_inj]
    unfold quotedName
    simp
  rw [henclosed]
  exact ⟨isInert_enclosed (.inr rfl) hquote, isBareAscii_enclosed (.inr rfl) hquote⟩

theorem inert_identifier {name : String} (h : Name.IsIdentifier name) :
    IsInert name ∧ IsBareAscii name := by
  have hunmarked : IsUnmarked name := fun c hc =>
    Unmarked.of_class (h.isInner c hc) (by decide) (by decide) (by decide)
  refine ⟨hunmarked.isInert, (isBareAscii_unmarked hunmarked).2 fun c hc => ?_⟩
  exact lt_of_le_of_lt (Name.isInner_toNat (h.isInner c hc)).2 (by decide)

theorem asciiDigits_char {cs : List Char} (h : AsciiDigits cs) :
    ∀ c ∈ cs, Unmarked c ∧ c.toNat < 0x80 := by
  intro c hc
  obtain ⟨hlow, hhigh⟩ := h.2 c hc
  have hclass : (decide ('0' ≤ c) && decide (c ≤ '9')) = true := by simp [hlow, hhigh]
  exact ⟨Unmarked.of_class (p := fun c => decide ('0' ≤ c) && decide (c ≤ '9')) hclass (by decide)
    (by decide) (by decide), lt_of_le_of_lt (show c.toNat ≤ 0x39 from hhigh) (by decide)⟩

theorem inert_number {cs : List Char} (h : DerivesNumber cs) :
    IsInert (String.ofList cs) ∧ IsBareAscii (String.ofList cs) := by
  have hchars : ∀ c ∈ cs, Unmarked c ∧ c.toNat < 0x80 := by
    have hminus : ∀ {sign : List Char}, sign = [] ∨ sign = ['-'] → ∀ c ∈ sign,
        Unmarked c ∧ c.toNat < 0x80 := by
      rintro _ (rfl | rfl) c hc
      · cases hc
      · rw [List.mem_singleton.1 hc]
        decide
    intro c hc
    cases h with
    | whole hsign h => exact (List.mem_append.1 hc).elim (hminus hsign c) (asciiDigits_char h c)
    | fraction hsign h hfraction =>
      rcases List.mem_append.1 hc with hc | hc
      · exact hminus hsign c hc
      · rcases List.mem_append.1 hc with hc | hc
        · exact asciiDigits_char h c hc
        · rcases List.mem_cons.1 hc with rfl | hc
          · decide
          · exact asciiDigits_char hfraction c hc
  have hunmarked := isUnmarked_ofList fun c hc => (hchars c hc).1
  refine ⟨hunmarked.isInert, (isBareAscii_unmarked hunmarked).2 fun c hc => ?_⟩
  rw [String.toList_ofList] at hc
  exact (hchars c hc).2

theorem inert_derivesArgument {a : String} (h : DerivesArgument a) : IsInert a ∧ IsBareAscii a := by
  cases h with
  | all => exact ⟨.fixed, by decide⟩
  | column h => exact inert_quotedName h
  | number h => exact inert_number h
  | literal h => exact ⟨isInert_enclosed (.inl rfl) h, isBareAscii_enclosed (.inl rfl) h⟩

theorem inert_application {function : String} {arguments : List String}
    (h : Name.IsIdentifier function) (harguments : ∀ a ∈ arguments, DerivesArgument a) :
    IsInert (function ++ "(" ++ ",".intercalate arguments ++ ")") ∧
      IsBareAscii (function ++ "(" ++ ",".intercalate arguments ++ ")") := by
  obtain ⟨hfunction, hascii⟩ := inert_identifier h
  have hinert : ∀ a ∈ arguments, IsInert a := fun a ha =>
    (inert_derivesArgument (harguments a ha)).1
  have hopen : IsInert (function ++ "(") := hfunction.append .fixed
  have hall : IsInert (",".intercalate arguments) := IsInert.intercalate .fixed hinert
  refine ⟨(hopen.append hall).append .fixed, ?_⟩
  rw [isBareAscii_append (hopen.append hall), isBareAscii_append hopen,
    isBareAscii_append hfunction, isBareAscii_intercalate .fixed (by decide) hinert]
  exact ⟨⟨⟨hascii, by decide⟩, fun a ha => (inert_derivesArgument (harguments a ha)).2⟩, by decide⟩

theorem inert_derives {part : String} (h : Derives part) : IsInert part ∧ IsBareAscii part := by
  have hrenamed : ∀ {s name : String}, IsInert s ∧ IsBareAscii s → Name.IsIdentifier name →
      IsInert (s ++ (" AS " ++ quotedName name)) ∧
        IsBareAscii (s ++ (" AS " ++ quotedName name)) := by
    intro s name hs hname
    obtain ⟨hquoted, hascii⟩ := inert_quotedName hname
    refine ⟨hs.1.append (IsInert.append .fixed hquoted), ?_⟩
    rw [isBareAscii_append hs.1, isBareAscii_append .fixed]
    exact ⟨hs.2, by decide, hascii⟩
  cases h with
  | all => exact ⟨.fixed, by decide⟩
  | column h => exact inert_quotedName h
  | renamed hsource hname =>
    rw [String.append_assoc]
    exact hrenamed (inert_quotedName hsource) hname
  | application h harguments => exact inert_application h harguments
  | renamedApplication h harguments hname =>
    exact hrenamed (inert_application h harguments) hname

/-- A list of items is ASCII outside quotes. -/
theorem isBareAscii_of_derivesList {text : String} (h : DerivesList text) : IsBareAscii text := by
  obtain ⟨parts, -, hparts, rfl⟩ := h
  rw [isBareAscii_intercalate .fixed (by decide) fun part hpart =>
    (inert_derives (hparts part hpart)).1]
  exact fun part hpart => (inert_derives (hparts part hpart)).2

end Projection

/-! ## What is read -/

/-- An argument as it is read: a column is an identifier, a literal a number or quoted. -/
inductive Argument.IsRead : Argument → Prop
  | all : IsRead .all
  | column {name : Identifier} (h : Name.IsIdentifier name.text) : IsRead (.column name)
  | number {cs : List Char} (h : Projection.isNumber cs = true) :
    IsRead (.literal (String.ofList cs))
  | quoted {cs : List Char} (h : Projection.isQuoted cs = true) :
    IsRead (.literal (String.ofList cs))

namespace Projection

/-- An item as it is read: names in quotes are identifiers, and the name of a function is a word. -/
inductive IsRead : Projection → Prop
  | all : IsRead .all
  | column {name : Identifier} (h : Name.IsIdentifier name.text) : IsRead (.column name)
  | renamed {source name : Identifier} (hsource : Name.IsIdentifier source.text)
      (hname : Name.IsIdentifier name.text) : IsRead (.renamed source name)
  | application {function : List Char} {arguments : List Argument} {name : Option Identifier}
      (h : isWord function = true) (harguments : ∀ a ∈ arguments, a.IsRead)
      (hname : ∀ n ∈ name, Name.IsIdentifier n.text) :
    IsRead (.application (String.ofList function) arguments name)

/-- An accepted name is an identifier when the characters it was read from have no line end. -/
theorem isIdentifier_of_unbroken {cs : List Char} {i : Identifier}
    (h : Identifier.ofText (String.ofList cs) = .ok i) (hunbroken : '\n' ∉ cs) :
    Name.IsIdentifier i.text := by
  have htext : i.text.toList.Sublist cs := by
    rw [Identifier.ofText_text h, Name.spelled, Identifier.clean, String.toList_ofList,
      String.toList_ofList]
    exact List.filter_sublist.trans (Text.stripChars_sublist cs)
  exact Identifier.isIdentifier_text fun hmem => hunbroken (htext.subset hmem)

/-- What may be quoted has no line end when it has no blanks around it. -/
theorem unbroken_of_isColumn {cs : List Char} (hstripped : Text.stripChars cs = cs)
    (h : Name.isColumn cs = true) : '\n' ∉ cs := by
  rcases Name.isColumn_iff.1 h with hidentifier | ⟨ds, rfl, hidentifier⟩
  · exact fun hmem => Name.isInner_ne_newline (hidentifier.isInner_ofList _ hmem) rfl
  · have hstrip : Text.stripChars (ds ++ ['\n']) = ds := Text.stripChars_newline fun c hc =>
      Name.isInner_notBlank (hidentifier.isInner_ofList c hc)
    rw [hstrip] at hstripped
    exact absurd hstripped (by simp)

theorem unbroken_of_isWord {cs : List Char} (h : isWord cs = true) : '\n' ∉ cs :=
  fun hmem => absurd (mem_word h _ hmem) (by decide)

theorem isWord_of_renamed? {cs source name : List Char} (h : renamed? cs = some (source, name)) :
    isWord source = true ∧ isWord name = true := by
  unfold renamed? at h
  dsimp only at h
  split at h
  · rename_i hword
    obtain ⟨_, hname, h⟩ := Option.map_eq_some_iff.1 h
    cases h
    exact ⟨hword, isWord_of_newName? hname⟩
  · cases h

theorem isRead_argument {item cs : List Char} {a : Argument} (hstripped : Text.stripChars cs = cs)
    (h : readArgument item cs = .ok a) : a.IsRead := by
  cases readArgument_ok h with
  | all => exact .all
  | literal hliteral => exact hliteral.elim .number .quoted
  | column hcolumn hname =>
    exact .column (isIdentifier_of_unbroken hname (unbroken_of_isColumn hstripped hcolumn))

/-- Arguments are read one by one between the commas. -/
theorem readArguments_eq (item cs : List Char) :
    readArguments item cs = if cs.isEmpty then .ok [] else
      (cs.splitOnP (· == ',')).mapM fun part => readArgument item (Text.stripChars part) := by
  unfold readArguments
  rw [Text.splitOn_comma, String.toList_ofList, List.mapM_map]
  simp only [Function.comp_def, String.toList_ofList]

/-- Each argument is read from a part of what stands between the parentheses. -/
theorem readArguments_part {item cs : List Char} {arguments : List Argument}
    (h : readArguments item cs = .ok arguments) {a : Argument} (ha : a ∈ arguments) :
    ∃ part : List Char, part.Sublist cs ∧ readArgument item (Text.stripChars part) = .ok a := by
  rw [readArguments_eq] at h
  split at h
  · cases h
    cases ha
  · obtain ⟨part, hpart, hread⟩ := forall₂_mem_right (forall₂_of_mapM h) ha
    exact ⟨part, Text.sublist_of_mem_splitOnP hpart, hread⟩

theorem readName_ok {new : Option (List Char)} {name : Option Identifier}
    (h : readName new = .ok name) {n : Identifier} (hn : n ∈ name) :
    ∃ cs ∈ new, Identifier.ofText (String.ofList cs) = .ok n := by
  cases new with
  | none =>
    cases h
    cases hn
  | some cs =>
    obtain ⟨i, hi, rfl⟩ := of_map_ok h
    cases hn
    exact ⟨cs, rfl, hi⟩

/-- Every item that is read is as items are. -/
theorem isRead_of_ofText {s : String} {item : Projection} (h : ofText s = .ok item) :
    item.IsRead := by
  cases read_ok h with
  | all => exact .all
  | column hcolumn hname =>
    exact .column (isIdentifier_of_unbroken hname
      (unbroken_of_isColumn (Text.stripChars_stripChars _) hcolumn))
  | renamed hread hsource hname =>
    obtain ⟨hold, hnew⟩ := isWord_of_renamed? hread
    exact .renamed (isIdentifier_of_unbroken hsource (unbroken_of_isWord hold))
      (isIdentifier_of_unbroken hname (unbroken_of_isWord hnew))
  | application hread harguments hname =>
    obtain ⟨hfunction, hword, -⟩ := application?_parts hread
    refine .application hfunction (fun a ha => ?_) (fun n hn => ?_)
    · obtain ⟨part, -, ha⟩ := readArguments_part harguments ha
      exact isRead_argument (Text.stripChars_stripChars part) ha
    · obtain ⟨cs, hcs, hn⟩ := readName_ok hname hn
      exact isIdentifier_of_unbroken hn (unbroken_of_isWord (hword cs hcs))

end Projection

/-! ## What is derived -/

/-- The argument has no number with other than ASCII digits. -/
def Argument.IsAscii : Argument → Prop
  | literal text => text.toList.head? = some '\'' ∨ Text.IsAscii text.toList
  | all | column _ => True

namespace Projection

/-- The item has no function and no number with letters or digits beyond ASCII. -/
def IsAscii : Projection → Prop
  | application function arguments _ =>
    Text.IsAscii function.toList ∧ ∀ a ∈ arguments, a.IsAscii
  | all | column _ | renamed _ _ => True

/-- An argument that was read leaves the quotes closed, and has no digits beyond ASCII when none
stand outside its quotes. -/
theorem isBareAscii_argument {a : Argument} (h : a.IsRead) :
    IsInert (argumentText a) ∧ (IsBareAscii (argumentText a) → a.IsAscii) := by
  cases h with
  | all => exact ⟨.fixed, fun _ => trivial⟩
  | column h => exact ⟨(inert_quotedName h).1, fun _ => trivial⟩
  | number h =>
    have hunmarked := isUnmarked_number h
    exact ⟨hunmarked.isInert, fun hascii => .inr ((isBareAscii_unmarked hunmarked).1 hascii)⟩
  | quoted h =>
    refine ⟨isInert_quotedArgument h, fun _ => .inl ?_⟩
    obtain ⟨inside, rfl, -⟩ := quoted_parts h
    rw [String.toList_ofList]
    rfl

/-- What is written of an item outside quotes tells of letters and digits beyond ASCII. -/
theorem isAscii_of_isBareAscii {item : Projection} (h : item.IsRead)
    (hascii : IsBareAscii item.render) : item.IsAscii := by
  cases h with
  | all => trivial
  | column => trivial
  | renamed => trivial
  | @application function arguments name h harguments hname =>
    have hfunction := isUnmarked_word h
    have hopen : IsInert (String.ofList function ++ "(") := hfunction.isInert.append .fixed
    have hinert : ∀ t ∈ arguments.map argumentText, IsInert t := fun t ht => by
      obtain ⟨a, ha, rfl⟩ := List.mem_map.1 ht
      exact (isBareAscii_argument (harguments a ha)).1
    have hall := hopen.append (IsInert.intercalate .fixed hinert : IsInert (",".intercalate _))
    unfold render at hascii
    rw [isBareAscii_append (hall.append .fixed), isBareAscii_append hall, isBareAscii_append hopen,
      isBareAscii_append hfunction.isInert, isBareAscii_unmarked hfunction,
      isBareAscii_intercalate .fixed (by decide) hinert] at hascii
    obtain ⟨⟨⟨⟨hname, -⟩, hasciiArguments⟩, -⟩, -⟩ := hascii
    exact ⟨hname, fun a ha => (isBareAscii_argument (harguments a ha)).2
      (hasciiArguments _ (List.mem_map_of_mem ha))⟩

/-- A word of ASCII characters is an identifier. -/
theorem isIdentifier_of_isWord {cs : List Char} (h : isWord cs = true) (hascii : Text.IsAscii cs) :
    Name.IsIdentifier (String.ofList cs) := by
  have hletter : ∀ {c : Char}, c.toNat < 0x80 → isLetter c = true →
      (Name.isLetter c || c == '_') = true := by
    intro c hlow hc
    unfold isLetter at hc
    rcases Bool.or_eq_true_iff.1 hc with hc | hc
    · exact hc
    · have hmem : c.toNat ∈ [0x130, 0x131, 0x17F, 0x212A] := by simpa using hc
      simp only [List.mem_cons, List.not_mem_nil, or_false] at hmem
      omega
  unfold Name.IsIdentifier
  rw [String.toList_ofList]
  cases cs with
  | nil => cases h
  | cons c cs =>
    obtain ⟨hc, hcs⟩ := Bool.and_eq_true_iff.1 h
    obtain ⟨hlow, hlows⟩ := Text.isAscii_cons.1 hascii
    refine Bool.and_eq_true_iff.2 ⟨hletter hlow hc, List.all_eq_true.2 fun d hd => ?_⟩
    rcases Bool.or_eq_true_iff.1 (List.all_eq_true.1 hcs d hd) with hd' | hd'
    · rcases Bool.or_eq_true_iff.1 (hletter (hlows d hd) hd') with hd' | hd' <;>
        simp [Name.isInner, hd']
    · have hdigit : '0' ≤ d ∧ d ≤ '9' := by simpa using hd'
      simp [Name.isInner, hdigit]

/-- Digits that are ASCII characters are the ten ASCII digits. -/
theorem asciiDigits_of_isDigits {cs : List Char} (h : isDigits cs = true)
    (hascii : Text.IsAscii cs) : AsciiDigits cs := by
  obtain ⟨hne, hdigits⟩ := Bool.and_eq_true_iff.1 h
  refine ⟨List.isEmpty_eq_false_iff.1 (by simpa using hne), fun c hc => ?_⟩
  have htable : ∀ n < 0x80, Text.isDigit (Char.ofNat n) = true →
      '0' ≤ Char.ofNat n ∧ Char.ofNat n ≤ '9' := by decide
  have hchar := htable c.toNat (hascii c hc)
  rw [Char.ofNat_toNat] at hchar
  exact hchar (List.all_eq_true.1 hdigits c hc)

theorem derivesNumber_of_isNumber {cs : List Char} (h : isNumber cs = true)
    (hascii : Text.IsAscii cs) : DerivesNumber cs := by
  obtain ⟨sign, body, hsign, rfl, hbody⟩ := number_parts h
  obtain ⟨-, hascii⟩ := Text.isAscii_append.1 hascii
  rcases hbody with hdigits | ⟨whole, fraction, rfl, hwhole, hfraction⟩
  · exact .whole hsign (asciiDigits_of_isDigits hdigits hascii)
  · obtain ⟨hasciiWhole, hasciiFraction⟩ := Text.isAscii_append.1 hascii
    exact .fraction hsign (asciiDigits_of_isDigits hwhole hasciiWhole)
      (asciiDigits_of_isDigits hfraction (Text.isAscii_cons.1 hasciiFraction).2)

theorem derivesArgument_of_isRead {a : Argument} (h : a.IsRead) (hascii : a.IsAscii) :
    DerivesArgument (argumentText a) := by
  cases h with
  | all => exact .all
  | column h => exact .column h
  | @number cs h =>
    refine .number (derivesNumber_of_isNumber h ?_)
    change (String.ofList cs).toList.head? = some '\'' ∨ Text.IsAscii (String.ofList cs).toList
      at hascii
    rw [String.toList_ofList] at hascii
    -- a number does not begin with a quote
    refine hascii.resolve_left fun hhead => ?_
    have hmem : '\'' ∈ cs := List.mem_of_mem_head? hhead
    exact (isUnmarked_number h '\'' (by rwa [String.toList_ofList])).2.1 rfl
  | quoted h =>
    obtain ⟨inside, rfl, hinside⟩ := quoted_parts h
    exact .literal hinside

/-- An item that is read and has no letters or digits beyond ASCII is of the grammar. -/
theorem derives_of_isRead {item : Projection} (h : item.IsRead) (hascii : item.IsAscii) :
    Derives item.render := by
  cases h with
  | all => exact .all
  | column h => exact .column h
  | renamed hsource hname => exact .renamed hsource hname
  | @application function arguments name h harguments hname =>
    obtain ⟨hfunction, hasciiArguments⟩ := hascii
    rw [String.toList_ofList] at hfunction
    have hidentifier := isIdentifier_of_isWord h hfunction
    have hderives : ∀ t ∈ arguments.map argumentText, DerivesArgument t := fun t ht => by
      obtain ⟨a, ha, rfl⟩ := List.mem_map.1 ht
      exact derivesArgument_of_isRead (harguments a ha) (hasciiArguments a ha)
    cases name with
    | none =>
      have hnone : render (.application (String.ofList function) arguments none) =
          String.ofList function ++ "(" ++ ",".intercalate (arguments.map argumentText) ++ ")" :=
        String.append_empty
      rw [hnone]
      exact .application hidentifier hderives
    | some name => exact .renamedApplication hidentifier hderives (hname name rfl)

/-! ### Texts that are ASCII -/

theorem isAscii_argument {item cs : List Char} {a : Argument} (h : readArgument item cs = .ok a)
    (hascii : Text.IsAscii cs) : a.IsAscii := by
  cases readArgument_ok h with
  | literal =>
    refine .inr ?_
    rwa [String.toList_ofList]
  | all => trivial
  | column => trivial

/-- An item that is read from an ASCII text has no letters or digits beyond ASCII. -/
theorem isAscii_of_ofText {s : String} {item : Projection} (h : ofText s = .ok item)
    (hascii : Text.IsAscii s.toList) : item.IsAscii := by
  cases read_ok h with
  | application hread harguments =>
    obtain ⟨-, -, hfunction, hinside⟩ := application?_parts hread
    have hitem := Text.stripChars_sublist s.toList
    refine ⟨?_, fun a ha => ?_⟩
    · rw [String.toList_ofList]
      exact hascii.of_sublist (hfunction.trans hitem)
    · obtain ⟨part, hpart, ha⟩ := readArguments_part harguments ha
      have hsub := (Text.stripChars_sublist part).trans hpart
      exact isAscii_argument ha (hascii.of_sublist (hsub.trans (hinside.trans hitem)))
  | all => trivial
  | column => trivial
  | renamed => trivial

section
variable {texts : List String} {items : List Projection}

/-- When the text of items that were read is ASCII outside quotes, so is what each item writes
there. -/
theorem isAscii_of_renderAll (h : texts.mapM ofText = .ok items)
    (hascii : IsBareAscii (renderAll items)) : ∀ item ∈ items, item.IsAscii := by
  intro item hitem
  have hread : ∀ item ∈ items, ∃ s, ofText s = .ok item := fun item hitem => by
    obtain ⟨s, -, hs⟩ := forall₂_mem_right (forall₂_of_mapM h) hitem
    exact ⟨s, hs⟩
  have hinert : ∀ t ∈ items.map render, IsInert t := fun t ht => by
    obtain ⟨item, hitem, rfl⟩ := List.mem_map.1 ht
    obtain ⟨s, hs⟩ := hread item hitem
    exact isInert_render hs
  have hjoined : renderAll items = ", ".intercalate (items.map render) := if_neg fun hempty => by
    rw [List.isEmpty_iff.1 hempty] at hitem
    cases hitem
  rw [hjoined, isBareAscii_intercalate .fixed (by decide) hinert] at hascii
  obtain ⟨s, hs⟩ := hread item hitem
  exact isAscii_of_isBareAscii (isRead_of_ofText hs) (hascii _ (List.mem_map_of_mem hitem))

/-- The text of items that were read is a list of items of the grammar exactly when no function and
no number has letters or digits beyond ASCII. -/
theorem derivesList_iff (h : texts.mapM ofText = .ok items) :
    DerivesList (renderAll items) ↔ ∀ item ∈ items, item.IsAscii := by
  constructor
  · exact fun hderives => isAscii_of_renderAll h (isBareAscii_of_derivesList hderives)
  · intro hascii
    unfold renderAll
    split
    · refine ⟨["*"], List.cons_ne_nil _ _, fun part hpart => ?_, ?_⟩
      · exact List.mem_singleton.1 hpart ▸ .all
      · rw [String.intercalate_singleton]
    · rename_i hempty
      refine ⟨items.map render, by simpa using hempty, fun part hpart => ?_, rfl⟩
      obtain ⟨item, hitem, rfl⟩ := List.mem_map.1 hpart
      obtain ⟨s, -, hs⟩ := forall₂_mem_right (forall₂_of_mapM h) hitem
      exact derives_of_isRead (isRead_of_ofText hs) (hascii item hitem)

end

end Projection

/-! ## Selections -/

/-- What is selected from: the view, if one is given, or else the table. -/
def Selection.target (o : Selection) : String :=
  match o.view with
  | none => o.table
  | some view => if view.isEmpty then o.table else view

namespace Compile

variable {t : Table} {o : Selection} {s s' : Session}

theorem source_ok {name : String} (h : (source t o).perform s = (.ok name, s')) :
    name = o.target := by
  revert h
  unfold source Selection.target
  cases o.view with
  | none =>
    rintro ⟨⟩
    rfl
  | some view =>
    dsimp only
    split
    · rintro ⟨⟩
      rfl
    · split
      · rintro ⟨⟩
        rfl
      · exact fun h => absurd h Action.refuse_ne_ok

/-- The statement of a selection is distinct when that is asked for, and selects from the name that
is given. -/
theorem selection_head {statement : SelectStatement}
    (h : (selection t o).perform s = (.ok statement, s')) :
    statement.isDistinct = o.isDistinct ∧ Identifier.ofText o.target = .ok statement.source := by
  obtain ⟨name, _, hname, h⟩ := Action.bind_ok h
  obtain ⟨_, _, -, h⟩ := Action.bind_ok h
  obtain ⟨_, _, -, h⟩ := Action.bind_ok h
  obtain ⟨source, _, hsource, h⟩ := Action.bind_ok h
  obtain ⟨_, _, -, h⟩ := Action.bind_ok h
  obtain ⟨_, _, -, h⟩ := Action.bind_ok h
  obtain ⟨_, _, -, h⟩ := Action.bind_ok h
  obtain ⟨_, _, -, h⟩ := Action.bind_ok h
  cases h
  exact ⟨rfl, source_ok hname ▸ (Action.lift_ok hsource).1⟩

end Compile

namespace Operation

/-- Between the keyword and the source of a selection stands the text of the items that are asked
for, and it is a list of items of the grammar exactly when no function and no number has letters or
digits beyond ASCII; so it is whenever the items are given as ASCII texts. -/
theorem select_derives_iff {t : Table} {o : Selection} {s s' : Session} {p : Prepared}
    (h : ((Operation.select o).compile t).perform s = (.ok p, s')) :
    ∃ items source rest, (o.items.getD []).mapM Projection.ofText = .ok items ∧
      p.statement.render = "SELECT " ++ (if o.isDistinct then "DISTINCT " else "") ++
        Projection.renderAll items ++ " FROM " ++ Identifier.quoted source ++ rest ∧
      (Projection.DerivesList (Projection.renderAll items) ↔ ∀ item ∈ items, item.IsAscii) ∧
      ((∀ text ∈ o.items.getD [], Text.IsAscii text.toList) →
        Projection.DerivesList (Projection.renderAll items)) := by
  obtain ⟨statement, _, hstatement, h⟩ := Action.bind_ok h
  cases h
  obtain ⟨hitems, -⟩ := Compile.selection_ok hstatement
  have hrender : statement.render =
      "SELECT " ++ (if statement.isDistinct then "DISTINCT " else "") ++
        Projection.renderAll statement.items ++ " FROM " ++ statement.source.quoted ++
        (SelectStatement.whereText statement.relations ++
          SelectStatement.groupText statement.grouping ++
          SelectStatement.orderText statement.order ++
          SelectStatement.limitText " PER PARTITION LIMIT " statement.partitionLimit ++
          SelectStatement.limitText " LIMIT " statement.limit ++
          (if statement.allowFiltering then " ALLOW FILTERING" else "") ++ ";") := by
    unfold SelectStatement.render
    simp only [String.append_assoc]
  rw [(Compile.selection_head hstatement).1] at hrender
  have hderives := Projection.derivesList_iff hitems
  refine ⟨_, statement.source, _, hitems, hrender, hderives, fun hascii => hderives.2 ?_⟩
  intro item hitem
  obtain ⟨text, htext, hread⟩ := forall₂_mem_right (forall₂_of_mapM hitems) hitem
  exact Projection.isAscii_of_ofText hread (hascii text htext)

/-- A selection of items that can be read, and of nothing else, is put together. -/
theorem compile_items {t : Table} {table : String} {source : Identifier} {texts : List String}
    {items : List Projection} (htable : Identifier.ofText table = .ok source)
    (hitems : texts.mapM Projection.ofText = .ok items) (isDistinct : Bool) (s : Session) :
    ((Operation.select { table, items := some texts, isDistinct }).compile t).perform s =
      (.ok { statement := .select {
        isDistinct, items, source, relations := [], grouping := none, order := none,
        partitionLimit := none, limit := none, allowFiltering := false } }, s) := by
  unfold Operation.compile Compile.selection Identifier.accept
  dsimp only [Option.getD_some]
  rw [hitems]
  simp only [Compile.source, pure_bind, htable]
  rfl

/-- Items of all kinds, with a literal that looks like another item. -/
def summary : List String :=
  ["id", " name as n", "count( * )", "max(age, -1.5, 'x (?)')\tAS oldest", "now()"]

/-- A selection of ASCII texts selects a list of items of the grammar. -/
theorem select_derives_summary : ∃ p,
    ((Operation.select { table := "people", items := some summary, isDistinct := true }).compile
      Query.people).perform {} = (.ok p, {}) ∧
    p.statement.render = "SELECT DISTINCT \"id\", \"name\" AS \"n\", count(*), " ++
      "max(\"age\",-1.5,'x (?)') AS \"oldest\", now() FROM \"people\";" ∧
    Projection.DerivesList ("\"id\", \"name\" AS \"n\", count(*), " ++
      "max(\"age\",-1.5,'x (?)') AS \"oldest\", now()") := by
  have hread : (summary.mapM Projection.ofText).toOption.map Projection.renderAll =
      some ("\"id\", \"name\" AS \"n\", count(*), " ++
        "max(\"age\",-1.5,'x (?)') AS \"oldest\", now()") := by
    unfold Projection.ofText Projection.read
    simp only [Projection.readArguments_eq]
    decide +kernel
  obtain ⟨items, hitems, htext⟩ := of_toOption_map_eq_some hread
  have htable : Identifier.ofText "people" = .ok peopleTable := rfl
  have hp := compile_items (t := Query.people) htable hitems true {}
  obtain ⟨items', -, -, hitems', -, -, hderives⟩ := select_derives_iff hp
  obtain rfl : items = items' := Except.ok.inj (hitems.symm.trans hitems')
  refine ⟨_, hp, ?_, htext ▸ hderives (by decide)⟩
  change SelectStatement.render _ = _
  unfold SelectStatement.render
  rw [htext]
  rfl

/-- The long s is a letter in another case, and Arabic digits are digits: a function and a number
are written that the grammar does not have. -/
theorem not_derives_longS : ∃ p,
    ((Operation.select { table := "people", items := some ["ſum(id)", "f(٣)"] }).compile
      Query.people).perform {} = (.ok p, {}) ∧
    p.statement.render = "SELECT ſum(\"id\"), f(٣) FROM \"people\";" ∧
    ¬ Projection.DerivesList "ſum(\"id\"), f(٣)" ∧
    ¬ Projection.Derives "ſum(\"id\")" ∧ ¬ Projection.Derives "f(٣)" := by
  have hread : (["ſum(id)", "f(٣)"].mapM Projection.ofText).toOption.map Projection.renderAll =
      some "ſum(\"id\"), f(٣)" := by
    unfold Projection.ofText Projection.read
    simp only [Projection.readArguments_eq]
    decide +kernel
  obtain ⟨items, hitems, htext⟩ := of_toOption_map_eq_some hread
  have htable : Identifier.ofText "people" = .ok peopleTable := rfl
  refine ⟨_, compile_items htable hitems false {}, ?_,
    fun h => ?_, fun h => ?_, fun h => ?_⟩
  · change SelectStatement.render _ = _
    unfold SelectStatement.render
    rw [htext]
    rfl
  · exact absurd (Projection.isBareAscii_of_derivesList h) (by decide)
  · exact absurd (Projection.inert_derives h).2 (by decide)
  · exact absurd (Projection.inert_derives h).2 (by decide)

end Operation

end WideColumn
