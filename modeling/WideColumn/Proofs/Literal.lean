import Mathlib.Data.String.Basic
import WideColumn.Identifier

/-!
# Literals are read back

A lexer that stands at a single quote reads a literal: it goes on to the first quote that is not
written twice, and takes two quotes for one on its way (`Literal.lex?`). What it reads is the one
literal of the grammar with which the text begins and behind which no quote stands
(`Literal.lex?_eq_some_iff`). So a text that is written as a literal is read back as what it was,
whatever quotes it begins or ends with, and what stands behind it is left; only a quote right behind
the literal would be taken for a part of it (`literal_reads_back`).
-/

namespace WideColumn

namespace Literal

/-- The characters between the quotes of a literal, and the value that they stand for. -/
inductive Denotes : List Char → List Char → Prop
  | nil : Denotes [] []
  | char {c : Char} {body value : List Char} (hc : c ≠ '\'') (h : Denotes body value) :
      Denotes (c :: body) (c :: value)
  | quote {body value : List Char} (h : Denotes body value) :
      Denotes ('\'' :: '\'' :: body) ('\'' :: value)

/-- What a lexer has read: the literal as it is written, its value, and the text behind it. -/
structure Token where
  text : String
  value : String
  rest : String

/-- Read behind the opening quote: the characters up to the closing quote, their value, and what
stands behind the closing quote. -/
def lexBody? : List Char → Option (List Char × List Char × List Char)
  | [] => none
  | '\'' :: '\'' :: cs =>
    (lexBody? cs).map fun (body, value, rest) => ('\'' :: '\'' :: body, '\'' :: value, rest)
  | c :: cs =>
    if c = '\'' then some ([], [], cs)
    else (lexBody? cs).map fun (body, value, rest) => (c :: body, c :: value, rest)

/-- Read the literal with which a text begins. -/
def lex? (text : String) : Option Token :=
  match text.toList with
  | '\'' :: cs => (lexBody? cs).map fun (body, value, rest) =>
      ⟨String.ofList ('\'' :: body ++ ['\'']), String.ofList value, String.ofList rest⟩
  | _ => none

/-! ## The grammar -/

/-- Each quote is written twice, and there is no other way to write a value. -/
theorem denotes_iff {body value : List Char} : Denotes body value ↔ body = doubleQuotes value := by
  constructor
  · intro h
    induction h with
    | nil => rfl
    | char hc _ ih => simp [doubleQuotes, hc, ih]
    | quote _ ih => simp [doubleQuotes, ih]
  · rintro rfl
    induction value with
    | nil => exact .nil
    | cons c value ih =>
      by_cases hc : c = '\''
      · subst hc
        simpa [doubleQuotes] using Denotes.quote ih
      · simpa [doubleQuotes, hc] using Denotes.char hc ih

/-! ## The lexer -/

section

variable {cs body value rest : List Char}

/-- What is read is a literal body with its value, and a quote closes it that is not written
twice. -/
theorem of_lexBody? (h : lexBody? cs = some (body, value, rest)) :
    Denotes body value ∧ cs = body ++ '\'' :: rest ∧ rest.head? ≠ some '\'' := by
  fun_induction lexBody? cs generalizing body value with
  | case1 => cases h
  | case2 cs ih =>
    obtain ⟨⟨body', value', rest'⟩, hread, heq⟩ := Option.map_eq_some_iff.1 h
    cases heq
    obtain ⟨hdenotes, rfl, hrest⟩ := ih hread
    exact ⟨.quote hdenotes, rfl, hrest⟩
  | case3 cs hnot =>
    cases h
    refine ⟨.nil, rfl, fun hhead => ?_⟩
    obtain ⟨cs', rfl⟩ := List.head?_eq_some_iff.1 hhead
    exact hnot cs' rfl rfl
  | case4 c cs _ hc ih =>
    obtain ⟨⟨body', value', rest'⟩, hread, heq⟩ := Option.map_eq_some_iff.1 h
    cases heq
    obtain ⟨hdenotes, rfl, hrest⟩ := ih hread
    exact ⟨.char hc hdenotes, rfl, hrest⟩

/-- A literal body is read up to a quote behind which no quote stands. -/
theorem lexBody?_append (h : Denotes body value) (hrest : rest.head? ≠ some '\'') :
    lexBody? (body ++ '\'' :: rest) = some (body, value, rest) := by
  induction h with
  | nil =>
    cases rest with
    | nil => rfl
    | cons c rest =>
      have hc : c ≠ '\'' := by simpa using hrest
      simp [lexBody?, hc]
  | char hc _ ih => simp [lexBody?, hc, ih]
  | quote _ ih => simp [lexBody?, ih]

end

/-- A lexer reads the one literal with which the text begins and behind which no quote stands. -/
theorem lex?_eq_some_iff {text : String} {token : Token} : lex? text = some token ↔
    token.text = literal token.value ∧ text = token.text ++ token.rest ∧
      token.rest.toList.head? ≠ some '\'' := by
  obtain ⟨read, value, rest⟩ := token
  constructor
  · intro h
    unfold lex? at h
    split at h
    · rename_i cs hchars
      obtain ⟨⟨body, v, r⟩, hread, heq⟩ := Option.map_eq_some_iff.1 h
      cases heq
      obtain ⟨hdenotes, rfl, hrest⟩ := of_lexBody? hread
      refine ⟨?_, ?_, ?_⟩
      · simp [literal, denotes_iff.1 hdenotes]
      · refine String.toList_injective ?_
        simp [hchars]
      · simpa using hrest
    · cases h
  · rintro ⟨hread, htext, hrest⟩
    dsimp only at hread htext hrest
    subst hread htext
    have hchars : (literal value ++ rest).toList =
        '\'' :: (doubleQuotes value.toList ++ '\'' :: rest.toList) := by
      simp [literal]
    unfold lex?
    rw [hchars]
    simp only [lexBody?_append (denotes_iff.2 rfl) hrest]
    simp [literal]

end Literal

/-- A text that is written as a literal is read back as one literal, with the text as its value and
with what stands behind it left, exactly when no quote stands right behind it; so different texts
are written as different literals. -/
theorem literal_reads_back :
    (∀ s t : String, Literal.lex? (literal s ++ t) = some ⟨literal s, s, t⟩ ↔
      t.toList.head? ≠ some '\'') ∧ Function.Injective literal := by
  have hreads (s t : String) : Literal.lex? (literal s ++ t) = some ⟨literal s, s, t⟩ ↔
      t.toList.head? ≠ some '\'' := by
    rw [Literal.lex?_eq_some_iff]
    exact ⟨fun h => h.2.2, fun h => ⟨rfl, rfl, h⟩⟩
  refine ⟨hreads, fun s s' h => ?_⟩
  have hs := (hreads s "").2 (by simp)
  have hs' := (hreads s' "").2 (by simp)
  rw [h, hs'] at hs
  exact (congrArg Literal.Token.value (Option.some.inj hs)).symm

/-- Quotes at both ends stay inside. -/
example : (Literal.lex? (literal "'; DROP TABLE users; --'" ++ " AND 1")).map (·.value) =
    some "'; DROP TABLE users; --'" := by decide +kernel

end WideColumn
