import Mathlib.Tactic.SplitIfs
import WideColumn.Value.Json
import WideColumn.Value.Json.Reader

/-!
# What is written is read back

A text that `Value.jsonText` writes is read back by `Value.Json.text?`, whatever follows it: each
character is written in a way that tells it from every other and where it ends. So a text and what
follows it are determined by the characters they are written with.
-/

namespace WideColumn.Value

/-! ## Units -/

namespace Json

/-- The UTF-16 units of a character. -/
def units (c : Char) : List Nat :=
  if c.toNat < 0x10000 then [c.toNat]
  else [0xD800 + (c.toNat - 0x10000) / 0x400, 0xDC00 + (c.toNat - 0x10000) % 0x400]

/-- A character is no surrogate. -/
theorem toNat_valid (c : Char) : c.toNat < 0xD800 ∨ 0xDFFF < c.toNat ∧ c.toNat < 0x110000 := c.valid

theorem single_toNat (c : Char) : chars.single c.toNat = c := by
  have hvalid := toNat_valid c
  unfold chars.single
  rw [if_neg (by omega), Char.ofNat_toNat]

/-- The characters of the units of a text are the text. -/
theorem chars_units (c : Char) (ns : List Nat) : chars (units c ++ ns) = c :: chars ns := by
  have hvalid := toNat_valid c
  unfold units
  split
  · cases ns with
    | nil => exact congrArg (· :: []) (single_toNat c)
    | cons low ns =>
      change (if 0xD800 ≤ c.toNat ∧ c.toNat < 0xDC00 ∧ 0xDC00 ≤ low ∧ low < 0xE000 then _
        else chars.single c.toNat :: chars (low :: ns)) = _
      rw [if_neg (by omega), single_toNat]
  · change (if _ ∧ _ ∧ _ ∧ _ then _ else _) = _
    rw [if_pos (by omega)]
    refine congrArg (· :: chars ns) ?_
    have hsame : 0x10000 + (0xD800 + (c.toNat - 0x10000) / 0x400 - 0xD800) * 0x400 +
        (0xDC00 + (c.toNat - 0x10000) % 0x400 - 0xDC00) = c.toNat := by omega
    rw [hsame, Char.ofNat_toNat]

theorem chars_flatMap_units (cs : List Char) : chars (cs.flatMap units) = cs := by
  induction cs with
  | nil => rfl
  | cons c cs ih => rw [List.flatMap_cons, chars_units, ih]

/-! ## Escapes -/

theorem hexDigit?_digitChar : ∀ d < 16, Address.hexDigit? (Nat.digitChar d) = some d := by decide

/-- The four digits of a unit are read as the unit. -/
theorem codes?_unitEscape {n : Nat} (hn : n < 0x10000) (rest : List Char) :
    codes? (unitEscape n ++ rest) = (codes? rest).map fun r => (n :: r.1, r.2) := by
  have hunit : unit? (Nat.digitChar (n / 16 / 16 / 16 % 16)) (Nat.digitChar (n / 16 / 16 % 16))
      (Nat.digitChar (n / 16 % 16)) (Nat.digitChar (n % 16)) = some n := by
    unfold unit?
    simp only [List.foldlM_cons, List.foldlM_nil, hexDigit?_digitChar _ (Nat.mod_lt _ (by decide)),
      Option.map_some, Option.bind_eq_bind, Option.bind_some]
    exact congrArg some (by omega)
  change codes? ('\\' :: 'u' :: _ :: _ :: _ :: _ :: rest) = _
  simp only [codes?]
  rw [hunit]
  cases codes? rest <;> rfl

/-- An escape by one letter is read as the character it stands for. -/
theorem codes?_short {e c : Char} (hescaped : escaped? e = some c) (rest : List Char) :
    codes? ('\\' :: e :: rest) = (codes? rest).map fun r => (c.toNat :: r.1, r.2) := by
  have hletter : e ≠ 'u' := by
    rintro rfl
    cases hescaped
  rw [codes?]
  · rw [hescaped]
    cases codes? rest <;> rfl
  · exact fun _ _ _ _ _ he _ => hletter he

/-- A character that is not escaped is read as itself. -/
theorem codes?_plain {c : Char} (hquote : c ≠ '"') (hbackslash : c ≠ '\\') (hlow : ¬ c < ' ')
    (rest : List Char) :
    codes? (c :: rest) = (codes? rest).map fun r => (c.toNat :: r.1, r.2) := by
  rw [codes?]
  · rw [if_neg (not_or.2 ⟨hlow, hbackslash⟩)]
    cases codes? rest <;> rfl
  · exact hquote
  · exact fun _ _ _ _ _ hc _ => hbackslash hc
  · exact fun _ _ hc _ => hbackslash hc

/-- A character is read as its units. -/
theorem codes?_jsonChar (c : Char) (rest : List Char) :
    codes? (jsonChar c ++ rest) = (codes? rest).map fun r => (units c ++ r.1, r.2) := by
  have hvalid := toNat_valid c
  have hunits : c.toNat < 0x10000 → units c = [c.toNat] := fun h => if_pos h
  have hof : ∀ n, c.toNat = n → c = Char.ofNat n := by
    rintro n rfl
    exact (Char.ofNat_toNat c).symm
  unfold jsonChar
  -- one case for each way in which a character is written
  split_ifs with hquote hbackslash hline hreturn htab hbackspace hfeed hplain hunit
  · subst hquote
    exact codes?_short rfl rest
  · subst hbackslash
    exact codes?_short rfl rest
  · subst hline
    exact codes?_short rfl rest
  · subst hreturn
    exact codes?_short rfl rest
  · subst htab
    exact codes?_short rfl rest
  · rw [hunits (by omega)]
    have hescaped : escaped? 'b' = some c := congrArg some (hof 8 hbackspace).symm
    exact codes?_short hescaped rest
  · rw [hunits (by omega)]
    have hescaped : escaped? 'f' = some c := congrArg some (hof 12 hfeed).symm
    exact codes?_short hescaped rest
  · rw [hunits (by omega)]
    refine codes?_plain hquote hbackslash (fun hlow => ?_) rest
    have hlt : c.toNat < 32 := hlow
    omega
  · rw [hunits hunit]
    exact codes?_unitEscape hunit rest
  · have hpair : units c = [0xD800 + (c.toNat - 0x10000) / 0x400,
        0xDC00 + (c.toNat - 0x10000) % 0x400] := if_neg hunit
    rw [hpair, List.append_assoc, codes?_unitEscape (by omega), codes?_unitEscape (by omega),
      Option.map_map]
    rfl

theorem codes?_text (cs rest : List Char) :
    codes? (cs.flatMap jsonChar ++ '"' :: rest) = some (cs.flatMap units, rest) := by
  induction cs with
  | nil => rfl
  | cons c cs ih =>
    rw [List.flatMap_cons, List.append_assoc, codes?_jsonChar, ih]
    rfl

end Json

/-! ## Texts -/

theorem toList_jsonText (s : String) :
    (jsonText s).toList = '"' :: (s.toList.flatMap jsonChar ++ ['"']) := String.toList_ofList

/-- A text that is written is read back, and so is what follows it. -/
theorem text?_jsonText (s : String) (rest : List Char) :
    Json.text? ((jsonText s).toList.tail ++ rest) = some (s, rest) := by
  unfold Json.text?
  rw [toList_jsonText, List.tail_cons, List.append_assoc, List.singleton_append, Json.codes?_text]
  change some (String.ofList (Json.chars (s.toList.flatMap Json.units)), rest) = _
  rw [Json.chars_flatMap_units, String.ofList_toList]

/-- A text and what follows it are determined by the characters that are written. -/
theorem jsonText_append_inj {s t : String} {cs ds : List Char}
    (h : (jsonText s).toList ++ cs = (jsonText t).toList ++ ds) : s = t ∧ cs = ds := by
  have hread : Json.text? ((jsonText s).toList.tail ++ cs) =
      Json.text? ((jsonText t).toList.tail ++ ds) := by
    rw [toList_jsonText, toList_jsonText] at h ⊢
    exact congrArg Json.text? (List.cons.inj h).2
  rw [text?_jsonText, text?_jsonText] at hread
  exact Prod.mk.inj (Option.some.inj hread)

end WideColumn.Value
