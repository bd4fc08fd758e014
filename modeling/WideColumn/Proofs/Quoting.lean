import WideColumn.Inquiry
import WideColumn.Proofs.Naming
import WideColumn.Proofs.Outcome

/-!
# Names between double quotes

The blanks around a name are stripped before the double quotes are taken out of it, and the check of
what is left passes over a line end at the end. So a line end that has double quotes and blanks
behind it, and nothing else, is neither stripped nor refused (`Name.HidesLineEnd`): it stands between
the quotes that are written. Every other name is quoted as an identifier or refused. What is written
is quoted as it is, with a line end as without one (`Identifier.ofText_quoted`).
-/

namespace WideColumn

namespace Name

/-! ## Hidden line ends -/

/-- A name with which a line end is written: blanks, an identifier in which double quotes may stand,
the line end, one double quote or more, and blanks. -/
inductive HidesLineEnd : String → Prop
  | intro (before front after : List Char) (n : Nat)
      (hbefore : ∀ c ∈ before, Text.isBlank c = true)
      (hafter : ∀ c ∈ after, Text.isBlank c = true)
      (hfront : IsIdentifier (String.ofList (front.filter (· != '"')))) :
    HidesLineEnd
      (String.ofList (before ++ (front ++ '\n' :: List.replicate (n + 1) '"') ++ after))

/-- Quoting the name is refused as an invalid query, or writes an identifier between double quotes
that is quoted as it is. -/
def QuotesSafely (name : String) : Prop :=
  (∃ r, Inquiry.quoted (.text name) = .error (.refusal r) ∧ r.code = .invalidQuery) ∨
    ∃ inner, IsIdentifier inner ∧ Inquiry.quoted (.text name) = .ok ("\"" ++ inner ++ "\"") ∧
      Inquiry.quoted (.text ("\"" ++ inner ++ "\"")) = .ok ("\"" ++ inner ++ "\"")

variable {name : String} {cs : List Char}

/-- What ends in a line end without its double quotes has the line end, and behind it double quotes
only. -/
theorem filter_eq_concat_iff {ds : List Char} : cs.filter (· != '"') = ds ++ ['\n'] ↔
    ∃ front n, cs = front ++ '\n' :: List.replicate n '"' ∧ front.filter (· != '"') = ds := by
  constructor
  · intro h
    obtain ⟨first, rest, rfl, hfirst, hrest⟩ := List.filter_eq_append_iff.1 h
    obtain ⟨between, quotes, rfl, hbetween, -, hquotes⟩ := List.filter_eq_cons_iff.1 hrest
    have hnone : between.filter (· != '"') = [] := List.filter_eq_nil_iff.2 hbetween
    have hall : quotes = List.replicate quotes.length '"' :=
      List.eq_replicate_of_mem fun c hc => by simpa using List.filter_eq_nil_iff.1 hquotes c hc
    refine ⟨first ++ between, quotes.length, ?_, ?_⟩
    · rw [← hall, List.append_assoc]
    · rw [List.filter_append, hnone, hfirst, List.append_nil]
  · rintro ⟨front, n, rfl, rfl⟩
    have hquotes : (List.replicate n '"').filter (· != '"') = [] := by simp
    rw [List.filter_append, List.filter_cons_of_pos (by decide), hquotes]

/-- No character of what is an identifier without its double quotes is blank. -/
theorem notBlank_of_filter (h : IsIdentifier (String.ofList (cs.filter (· != '"')))) :
    ∀ c ∈ cs, Text.isBlank c = false := by
  intro c hc
  by_cases hquote : c = '"'
  · rw [hquote]
    decide
  · exact isInner_notBlank (h.isInner_ofList c (List.mem_filter.2 ⟨hc, bne_iff_ne.2 hquote⟩))

/-- The names that hide a line end are written as an identifier with a line end behind it. -/
theorem hidesLineEnd_iff : HidesLineEnd name ↔
    ∃ ds, Identifier.clean name = ds ++ ['\n'] ∧ IsIdentifier (String.ofList ds) := by
  constructor
  · rintro ⟨before, front, after, n, hbefore, hafter, hfront⟩
    refine ⟨_, filter_eq_concat_iff.2 ⟨front, n + 1, ?_, rfl⟩, hfront⟩
    cases front with
    | nil => exact absurd hfront (by decide)
    | cons c front =>
      have hc : Text.isBlank c = false := notBlank_of_filter hfront c List.mem_cons_self
      have hends : c :: front ++ '\n' :: List.replicate (n + 1) '"' =
          c :: (front ++ '\n' :: List.replicate n '"' ++ ['"']) := by
        simp [List.replicate_succ']
      rw [String.toList_ofList, hends]
      exact Text.stripChars_around hbefore hafter hc (by decide) _
  · rintro ⟨ds, hclean, hds⟩
    obtain ⟨before, after, hname, hbefore, hafter⟩ := Text.exists_stripChars name.toList
    obtain ⟨front, n, hstripped, rfl⟩ := filter_eq_concat_iff.1 hclean
    -- with no double quote behind it the line end would have been stripped
    obtain ⟨n, rfl⟩ : ∃ m, n = m + 1 := by
      refine Nat.exists_eq_succ_of_ne_zero ?_
      rintro rfl
      have hlast : (Text.stripChars name.toList).getLast? = some '\n' := by
        rw [hstripped]
        exact List.getLast?_concat
      exact absurd (Text.isBlank_of_getLast? hlast) (by decide)
    rw [← String.ofList_toList (s := name), hname, hstripped]
    exact .intro before front after n hbefore hafter hds

/-- A name that hides a line end is not written as an identifier. -/
theorem HidesLineEnd.not_isIdentifier (h : HidesLineEnd name) : ¬ IsIdentifier (spelled name) := by
  obtain ⟨ds, hclean, -⟩ := hidesLineEnd_iff.1 h
  intro hidentifier
  refine hidentifier.notMem_newline ?_
  rw [spelled, String.toList_ofList, hclean]
  exact List.mem_append_right ds List.mem_cons_self

/-- Accepted are the names that are written as identifiers and those that hide a line end. -/
theorem isColumn_clean_iff : isColumn (Identifier.clean name) = true ↔
    IsIdentifier (spelled name) ∨ HidesLineEnd name := by
  rw [isColumn_iff, hidesLineEnd_iff]
  rfl

end Name

/-! ## What is written -/

/-- What is written of an accepted name is accepted as that name. -/
theorem Identifier.ofText_quoted (i : Identifier) : ofText i.quoted = .ok i := by
  have hquoted : i.quoted.toList = '"' :: (i.chars ++ ['"']) := by
    unfold quoted text
    simp
  have hclean : clean i.quoted = i.chars := by
    unfold clean
    rw [hquoted, Text.stripChars_between (by decide) (by decide)]
    exact Name.filter_enclosed i.notMem_chars
  unfold ofText
  simp only [hclean, i.isColumn]
  rfl

namespace Name

variable {name q : String}

/-- A name that is accepted is written between double quotes as it is spelled. -/
theorem quoted_eq_ok_iff : Inquiry.quoted (.text name) = .ok q ↔
    (IsIdentifier (spelled name) ∨ HidesLineEnd name) ∧ q = "\"" ++ spelled name ++ "\"" := by
  rw [← isColumn_clean_iff]
  change Identifier.quoted <$> Identifier.ofText name = .ok q ↔ _
  constructor
  · intro h
    obtain ⟨i, hi, rfl⟩ := of_map_ok h
    refine ⟨Identifier.ofText_chars hi ▸ i.isColumn, ?_⟩
    rw [Identifier.quoted, Identifier.ofText_text hi]
  · rintro ⟨hcolumn, rfl⟩
    have hi : Identifier.ofText name = .ok ⟨Identifier.clean name, hcolumn⟩ := dif_pos hcolumn
    rw [hi]
    rfl

/-- A name that is not accepted is refused as an invalid query. -/
theorem refused_of_quoted_error {failure : Failure}
    (h : Inquiry.quoted (.text name) = .error failure) :
    ∃ r, failure = .refusal r ∧ r.code = .invalidQuery := by
  unfold Inquiry.quoted Identifier.ofText at h
  dsimp only at h
  split at h
  · cases h
  · cases h
    exact ⟨_, rfl, rfl⟩

/-- What was written is quoted as it is. -/
theorem quoted_of_quoted (h : Inquiry.quoted (.text name) = .ok q) :
    Inquiry.quoted (.text q) = .ok q := by
  obtain ⟨i, -, rfl⟩ := of_map_ok h
  change Identifier.quoted <$> Identifier.ofText i.quoted = _
  rw [i.ofText_quoted]
  rfl

theorem quoted_bind_quoted (name : String) :
    (Inquiry.quoted (.text name) >>= fun q => Inquiry.quoted (.text q)) =
      Inquiry.quoted (.text name) := by
  cases h : Inquiry.quoted (.text name) with
  | error failure => rfl
  | ok q =>
    change Inquiry.quoted (.text q) = _
    exact quoted_of_quoted h

theorem quotesSafely_of_not_hidesLineEnd (h : ¬ HidesLineEnd name) : QuotesSafely name := by
  cases hquoted : Inquiry.quoted (.text name) with
  | error failure =>
    obtain ⟨r, rfl, hcode⟩ := refused_of_quoted_error hquoted
    exact .inl ⟨r, hquoted, hcode⟩
  | ok q =>
    obtain ⟨haccepted, rfl⟩ := quoted_eq_ok_iff.1 hquoted
    exact .inr ⟨spelled name, haccepted.resolve_right h, hquoted, quoted_of_quoted hquoted⟩

/-- What is between the double quotes is then no identifier. -/
theorem HidesLineEnd.not_quotesSafely (h : HidesLineEnd name) : ¬ QuotesSafely name := by
  have hquoted := quoted_eq_ok_iff.2 ⟨.inr h, rfl⟩
  rintro (⟨r, hr, -⟩ | ⟨inner, hinner, hq, -⟩)
  · cases hquoted.symm.trans hr
  · have hsame : "\"" ++ spelled name ++ "\"" = "\"" ++ inner ++ "\"" :=
      Except.ok.inj (hquoted.symm.trans hq)
    have hspelled : spelled name = inner := by simpa [← String.toList_inj] using hsame
    rw [← hspelled] at hinner
    exact h.not_isIdentifier hinner

/-- A name is refused as an invalid query, or quoted as an identifier that is quoted as it is,
exactly when it hides no line end. Accepted are the names that are spelled as identifiers and those
that hide a line end, and what is written is how they are spelled; and whatever the name is, quoting
what was written changes nothing. -/
theorem quotesSafely_iff (name : String) :
    (QuotesSafely name ↔ ¬ HidesLineEnd name) ∧
      (∀ q, Inquiry.quoted (.text name) = .ok q ↔
        (IsIdentifier (spelled name) ∨ HidesLineEnd name) ∧ q = "\"" ++ spelled name ++ "\"") ∧
      (Inquiry.quoted (.text name) >>= fun q => Inquiry.quoted (.text q)) =
        Inquiry.quoted (.text name) :=
  ⟨⟨fun hsafe hline => hline.not_quotesSafely hsafe, quotesSafely_of_not_hidesLineEnd⟩,
    fun _ => quoted_eq_ok_iff, quoted_bind_quoted name⟩

/-- A line end in front of a double quote is written. -/
theorem not_quotesSafely_lineEnd :
    Inquiry.quoted (.text "a\n\"") = .ok "\"a\n\"" ∧ ¬ QuotesSafely "a\n\"" :=
  ⟨rfl, HidesLineEnd.not_quotesSafely (hidesLineEnd_iff.2 ⟨['a'], by decide, by decide⟩)⟩

end Name

end WideColumn
