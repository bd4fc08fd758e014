import Mathlib.Data.List.DropRight
import WideColumn.Identifier

/-!
# Names that are written as they are

A name enters a statement without the blanks around it and without double quotes. A plain name has
none of either, so that what is written is the name itself; an identifier is a plain name that every
statement accepts.
-/

namespace WideColumn

/-! ## Characters of names -/

namespace Name

theorem isInner_toNat {c : Char} (h : isInner c = true) : 0x30 ≤ c.toNat ∧ c.toNat ≤ 0x7A := by
  simp only [isInner, isLetter, Bool.or_eq_true, Bool.and_eq_true, decide_eq_true_eq,
    beq_iff_eq] at h
  rcases h with ((⟨h₁, h₂⟩ | ⟨h₁, h₂⟩) | ⟨h₁, h₂⟩) | rfl
  · have hlow : 0x61 ≤ c.toNat := h₁
    exact ⟨by omega, h₂⟩
  · have hlow : 0x41 ≤ c.toNat := h₁
    have hhigh : c.toNat ≤ 0x5A := h₂
    omega
  · have hhigh : c.toNat ≤ 0x39 := h₂
    exact ⟨h₁, by omega⟩
  · decide

theorem isInner_notBlank {c : Char} (h : isInner c = true) : Text.isBlank c = false := by
  obtain ⟨hlow, hhigh⟩ := isInner_toNat h
  rw [Text.isBlank, Bool.eq_false_iff]
  intro hblank
  obtain ⟨run, hrun, h₁, h₂⟩ := Text.inRuns_iff.1 hblank
  have hruns : ∀ run ∈ Text.blankRuns, run.2 < 0x30 ∨ 0x7A < run.1 := by decide
  have hapart := hruns run hrun
  omega

theorem isInner_ne_quote {c : Char} (h : isInner c = true) : c ≠ '"' := by
  rintro rfl
  exact absurd h (by decide)

theorem isInner_ne_newline {c : Char} (h : isInner c = true) : c ≠ '\n' := by
  rintro rfl
  exact absurd h (by decide)

end Name

namespace Text

/-- Every character is an ASCII character. -/
def IsAscii (cs : List Char) : Prop := ∀ c ∈ cs, c.toNat < 0x80

instance (cs : List Char) : Decidable (IsAscii cs) :=
  List.decidableBAll (fun c : Char => c.toNat < 0x80) cs

theorem isAscii_append {cs ds : List Char} : IsAscii (cs ++ ds) ↔ IsAscii cs ∧ IsAscii ds := by
  simp only [IsAscii, List.mem_append, or_imp, forall_and]

theorem isAscii_cons {c : Char} {cs : List Char} :
    IsAscii (c :: cs) ↔ c.toNat < 0x80 ∧ IsAscii cs := by
  simp only [IsAscii, List.mem_cons, forall_eq_or_imp]

/-! ## Stripping -/

theorem stripLeft_of_notBlank {cs : List Char} (h : ∀ c ∈ cs, isBlank c = false) :
    stripLeft cs = cs := by
  cases cs with
  | nil => rfl
  | cons c cs => exact List.dropWhile_cons_of_neg (by simp [h c List.mem_cons_self])

theorem stripLeft_cons {c : Char} (hc : isBlank c = false) (cs : List Char) :
    stripLeft (c :: cs) = c :: cs :=
  List.dropWhile_cons_of_neg (by simp [hc])

theorem stripLeft_append {before : List Char} {c : Char} (hbefore : ∀ b ∈ before, isBlank b = true)
    (hc : isBlank c = false) (cs : List Char) : stripLeft (before ++ c :: cs) = c :: cs := by
  unfold stripLeft
  rw [List.dropWhile_append_of_pos hbefore]
  exact stripLeft_cons hc cs

theorem stripRight_append {after : List Char} {d : Char} (hafter : ∀ b ∈ after, isBlank b = true)
    (hd : isBlank d = false) (cs : List Char) : stripRight (cs ++ d :: after) = cs ++ [d] := by
  have hreverse : stripLeft (after.reverse ++ d :: cs.reverse) = d :: cs.reverse :=
    stripLeft_append (fun b hb => hafter b (List.mem_reverse.1 hb)) hd _
  unfold stripLeft at hreverse
  unfold stripRight
  rw [List.reverse_append, List.reverse_cons, List.append_assoc, List.singleton_append, hreverse,
    List.reverse_cons, List.reverse_reverse]

theorem stripRight_concat {d : Char} (hd : isBlank d = false) (cs : List Char) :
    stripRight (cs ++ [d]) = cs ++ [d] :=
  stripRight_append (List.forall_mem_nil _) hd cs

/-- What is left without the blanks at the ends. -/
theorem stripChars_sublist (cs : List Char) : (stripChars cs).Sublist cs :=
  (List.rdropWhile_prefix isBlank _).sublist.trans (List.dropWhile_suffix _).sublist

/-- What is stripped are blanks on both sides. -/
theorem exists_stripChars (cs : List Char) : ∃ before after : List Char,
    cs = before ++ stripChars cs ++ after ∧ (∀ b ∈ before, isBlank b = true) ∧
      ∀ b ∈ after, isBlank b = true := by
  refine ⟨cs.takeWhile isBlank, (stripLeft cs).rtakeWhile isBlank, ?_,
    fun b hb => List.mem_takeWhile_imp hb, fun b hb => List.mem_rtakeWhile_imp hb⟩
  have hright : stripChars cs ++ (stripLeft cs).rtakeWhile isBlank = stripLeft cs :=
    List.rdropWhile_append_rtakeWhile
  rw [List.append_assoc, hright]
  exact List.takeWhile_append_dropWhile.symm

/-- What is left is not blank at its end. -/
theorem isBlank_of_getLast? {cs : List Char} {c : Char} (h : (stripChars cs).getLast? = some c) :
    isBlank c = false := by
  have hne : stripChars cs ≠ [] := by
    intro hnil
    rw [hnil] at h
    cases h
  have hlast := List.rdropWhile_last_not isBlank (stripLeft cs) hne
  rw [← List.getLast_of_mem_getLast? h]
  exact Bool.eq_false_iff.2 hlast

/-- Blanks around characters of which the first and the last are not blank are stripped. -/
theorem stripChars_around {before after : List Char} {c d : Char}
    (hbefore : ∀ b ∈ before, isBlank b = true) (hafter : ∀ b ∈ after, isBlank b = true)
    (hc : isBlank c = false) (hd : isBlank d = false) (cs : List Char) :
    stripChars (before ++ (c :: (cs ++ [d])) ++ after) = c :: (cs ++ [d]) := by
  have hleft : stripLeft (before ++ (c :: (cs ++ [d])) ++ after) = c :: cs ++ d :: after := by
    simpa using stripLeft_append hbefore hc (cs ++ d :: after)
  unfold stripChars
  rw [hleft, stripRight_append hafter hd]
  rfl

/-- Nothing is stripped from what stands between two characters that are not blank. -/
theorem stripChars_between {c d : Char} (hc : isBlank c = false) (hd : isBlank d = false)
    (cs : List Char) : stripChars (c :: (cs ++ [d])) = c :: (cs ++ [d]) := by
  simpa using stripChars_around (List.forall_mem_nil _) (List.forall_mem_nil _) hc hd cs

/-- Nothing is stripped from characters none of which is blank. -/
theorem stripChars_of_notBlank {cs : List Char} (h : ∀ c ∈ cs, isBlank c = false) :
    stripChars cs = cs := by
  have hreverse : stripLeft cs.reverse = cs.reverse :=
    stripLeft_of_notBlank fun c hc => h c (List.mem_reverse.1 hc)
  unfold stripChars stripRight
  rw [stripLeft_of_notBlank h]
  unfold stripLeft at hreverse
  rw [hreverse, List.reverse_reverse]

/-- A line end behind characters none of which is blank is stripped. -/
theorem stripChars_newline {cs : List Char} (h : ∀ c ∈ cs, isBlank c = false) :
    stripChars (cs ++ ['\n']) = cs := by
  have hreverse : stripLeft cs.reverse = cs.reverse :=
    stripLeft_of_notBlank fun c hc => h c (List.mem_reverse.1 hc)
  unfold stripLeft at hreverse
  unfold stripChars stripRight stripLeft
  cases cs with
  | nil => decide
  | cons c cs =>
    have hc : ¬ isBlank c = true := by simp [h c List.mem_cons_self]
    rw [List.cons_append, List.dropWhile_cons_of_neg hc, ← List.cons_append, List.reverse_append]
    change (List.dropWhile isBlank ('\n' :: (c :: cs).reverse)).reverse = c :: cs
    rw [List.dropWhile_cons_of_pos isBlank_newline, hreverse, List.reverse_reverse]

end Text

/-! ## Plain names -/

namespace Name

/-- The name is written as it is when it is quoted. -/
def IsPlain (name : String) : Prop := Identifier.clean name = name.toList

instance (name : String) : Decidable (IsPlain name) := inferInstanceAs (Decidable (_ = _))

/-- The name as it is written when it is accepted. -/
def spelled (name : String) : String := String.ofList (Identifier.clean name)

/-- The name is a letter or low line followed by letters, digits and low lines, and nothing else. -/
def IsIdentifier (name : String) : Prop :=
  startsWith (fun c => isLetter c || c == '_') name.toList = true

instance (name : String) : Decidable (IsIdentifier name) := inferInstanceAs (Decidable (_ = _))

theorem isInner_of_startsWith {first : Char → Bool} {cs : List Char}
    (hfirst : ∀ c, first c = true → isInner c = true) (h : startsWith first cs = true) :
    ∀ c ∈ cs, isInner c = true := by
  cases cs with
  | nil => exact fun c hc => nomatch hc
  | cons d ds =>
    obtain ⟨hd, hds⟩ := (Bool.and_eq_true _ _).mp h
    intro c hc
    rcases List.mem_cons.1 hc with rfl | hc
    · exact hfirst c hd
    · exact List.all_eq_true.1 hds c hc

namespace IsIdentifier

variable {name : String}

theorem isInner (h : IsIdentifier name) : ∀ c ∈ name.toList, isInner c = true := by
  refine isInner_of_startsWith (fun c hc => ?_) h
  simp only [Bool.or_eq_true, beq_iff_eq] at hc
  rcases hc with hletter | rfl
  · simp [Name.isInner, hletter]
  · decide

theorem toList_ne_nil (h : IsIdentifier name) : name.toList ≠ [] := by
  intro hnil
  unfold IsIdentifier at h
  rw [hnil] at h
  cases h

theorem isPlain (h : IsIdentifier name) : IsPlain name := by
  unfold IsPlain Identifier.clean
  rw [Text.stripChars_of_notBlank fun c hc => isInner_notBlank (h.isInner c hc)]
  exact List.filter_eq_self.2 fun c hc => bne_iff_ne.2 (isInner_ne_quote (h.isInner c hc))

theorem isInner_ofList {cs : List Char} (h : IsIdentifier (String.ofList cs)) :
    ∀ c ∈ cs, Name.isInner c = true := by
  have hinner := h.isInner
  rwa [String.toList_ofList] at hinner

theorem notMem_newline (h : IsIdentifier name) : '\n' ∉ name.toList :=
  fun hmem => isInner_ne_newline (h.isInner _ hmem) rfl

theorem withoutFinalNewline (h : IsIdentifier name) :
    Name.withoutFinalNewline name.toList = name.toList :=
  if_neg fun hlast => h.notMem_newline (List.mem_of_getLast? hlast)

/-- An identifier is accepted. -/
theorem ofText (h : IsIdentifier name) : ∃ i, Identifier.ofText name = .ok i := by
  have hcolumn : Name.isColumn (Identifier.clean name) = true := by
    unfold Name.isColumn
    rw [h.isPlain, h.withoutFinalNewline]
    exact h
  exact ⟨_, dif_pos hcolumn⟩

end IsIdentifier

/-- What can be quoted is an identifier, or an identifier and a line end behind it. -/
theorem isColumn_iff {cs : List Char} : isColumn cs = true ↔
    IsIdentifier (String.ofList cs) ∨ ∃ ds, cs = ds ++ ['\n'] ∧ IsIdentifier (String.ofList ds) := by
  have hidentifier : ∀ ds, IsIdentifier (String.ofList ds) ↔
      startsWith (fun c => isLetter c || c == '_') ds = true := fun ds => by
    rw [IsIdentifier, String.toList_ofList]
  constructor
  · intro h
    unfold isColumn withoutFinalNewline at h
    split at h
    · rename_i hlast
      exact .inr ⟨_, (List.dropLast_append_getLast? _ hlast).symm, (hidentifier _).2 h⟩
    · exact .inl ((hidentifier _).2 h)
  · rintro (h | ⟨ds, rfl, h⟩)
    · have hwhole := h.withoutFinalNewline
      rw [String.toList_ofList] at hwhole
      unfold isColumn
      rw [hwhole]
      exact (hidentifier _).1 h
    · unfold isColumn withoutFinalNewline
      rw [if_pos List.getLast?_concat, List.dropLast_concat]
      exact (hidentifier _).1 h

/-- Without the double quotes around it, what has none inside is as it was. -/
theorem filter_enclosed {cs : List Char} (h : '"' ∉ cs) :
    ('"' :: (cs ++ ['"'])).filter (· != '"') = cs := by
  have hkept : cs.filter (· != '"') = cs :=
    List.filter_eq_self.2 fun c hc => bne_iff_ne.2 fun heq => h (heq ▸ hc)
  rw [List.filter_cons_of_neg (by decide), List.filter_append, hkept]
  exact List.append_nil _

/-! ### Names of tables and views -/

/-- The name of a table or view is written without a line end at its end. -/
theorem clean_of_isTable {name : String} (h : isTable name = true) :
    Identifier.clean name = withoutFinalNewline name.toList := by
  have hinner := isInner_of_startsWith (fun c hc => by simp [isInner, hc]) h
  unfold Identifier.clean
  generalize name.toList = cs at hinner ⊢
  unfold withoutFinalNewline at hinner ⊢
  have hquote : ∀ {ds : List Char}, (∀ c ∈ ds, isInner c = true) → ds.filter (· != '"') = ds :=
    fun hds => List.filter_eq_self.2 fun c hc => bne_iff_ne.2 (isInner_ne_quote (hds c hc))
  have hblank : ∀ {ds : List Char}, (∀ c ∈ ds, isInner c = true) → ∀ c ∈ ds,
      Text.isBlank c = false :=
    fun hds c hc => isInner_notBlank (hds c hc)
  split
  · rename_i hlast
    rw [if_pos hlast] at hinner
    obtain ⟨ds, rfl⟩ := List.getLast?_eq_some_iff.1 hlast
    rw [List.dropLast_concat] at hinner ⊢
    rw [Text.stripChars_newline (hblank hinner), hquote hinner]
  · rename_i hlast
    rw [if_neg hlast] at hinner
    rw [Text.stripChars_of_notBlank (hblank hinner), hquote hinner]

/-- The name of a table or view is written as an identifier. -/
theorem isIdentifier_spelled {name : String} (h : isTable name = true) :
    IsIdentifier (spelled name) := by
  unfold IsIdentifier spelled
  rw [String.toList_ofList, clean_of_isTable h]
  unfold isTable at h
  generalize withoutFinalNewline name.toList = cs at h ⊢
  cases cs with
  | nil => cases h
  | cons c cs =>
    obtain ⟨hc, hcs⟩ := (Bool.and_eq_true _ _).mp h
    simp [startsWith, hc, hcs]

/-- The name of a table or view is accepted. -/
theorem accepts_table {name : String} (h : isTable name = true) :
    ∃ i, Identifier.ofText name = .ok i :=
  ⟨_, dif_pos (isColumn_iff.2 (.inl (isIdentifier_spelled h)))⟩

theorem IsPlain.spelled_eq {name : String} (h : IsPlain name) : spelled name = name := by
  unfold spelled
  rw [h, String.ofList_toList]

end Name

namespace Identifier

theorem ofText_chars {name : String} {i : Identifier} (h : ofText name = .ok i) :
    i.chars = clean name := by
  unfold ofText at h
  split at h
  · exact (congrArg chars (Except.ok.inj h)).symm
  · cases h

theorem ofText_text {name : String} {i : Identifier} (h : ofText name = .ok i) :
    i.text = Name.spelled name := congrArg String.ofList (ofText_chars h)

/-- An accepted name is the name that was given exactly when that is plain. -/
theorem text_eq_iff {name : String} {i : Identifier} (h : ofText name = .ok i) :
    i.text = name ↔ Name.IsPlain name := by
  unfold text Name.IsPlain
  rw [ofText_chars h]
  constructor
  · intro heq
    rw [← heq, String.toList_ofList, heq]
  · intro heq
    rw [heq, String.ofList_toList]

/-- A name that may be quoted has no double quote inside. -/
theorem notMem_chars (i : Identifier) : '"' ∉ i.chars := by
  rcases Name.isColumn_iff.1 i.isColumn with h | ⟨ds, hds, h⟩
  · exact fun hmem => Name.isInner_ne_quote (h.isInner_ofList _ hmem) rfl
  · have hnone : '"' ∉ ds := fun hmem => Name.isInner_ne_quote (h.isInner_ofList _ hmem) rfl
    rw [hds]
    simpa using hnone

/-- An accepted name without a line end is an identifier. -/
theorem isIdentifier_text {i : Identifier} (h : '\n' ∉ i.text.toList) :
    Name.IsIdentifier i.text := by
  rcases Name.isColumn_iff.1 i.isColumn with hidentifier | ⟨ds, hds, -⟩
  · exact hidentifier
  · refine absurd ?_ h
    unfold text
    rw [hds]
    simp

end Identifier

end WideColumn
