import Mathlib.Data.List.Basic
import WideColumn.Text.Blank
import WideColumn.Text.Case

/-!
# Case mapping is settled after one step

The image of a character under a case table is its own image, so that mapping a text twice is the
same as mapping it once. What is checked of the tables is that no image is of a run that is mapped
again: two runs whose ends overlap step by two on different parities (`Text.isApart`).
-/

namespace WideColumn.Text

/-- A run of a case table: the first and the last code point, the step and the shift. -/
abbrev CaseRun := Nat × Nat × Nat × Int

namespace CaseRun

/-- The code point is of the run. -/
def Holds (r : CaseRun) (n : Nat) : Prop := r.1 ≤ n ∧ n ≤ r.2.1 ∧ (n - r.1) % r.2.2.1 = 0

/-- The images of the run: the first, the last and the step. -/
def image (r : CaseRun) : Nat × Nat × Nat :=
  ((r.1 + r.2.2.2).toNat, (r.2.1 + r.2.2.2).toNat, r.2.2.1)

end CaseRun

/-- No code point from the first to the last, in steps, is of the run. -/
def isApart (first last step : Nat) (r : CaseRun) : Bool :=
  Nat.blt last r.1 || Nat.blt r.2.1 first ||
    (Nat.beq r.2.2.1 2 && (Nat.beq step 2 || Nat.beq first last) && Nat.beq ((first + r.1) % 2) 1)

theorem not_holds_of_isApart {first last step n : Nat} {r : CaseRun}
    (h : isApart first last step r = true) (hfirst : first ≤ n) (hlast : n ≤ last)
    (hstep : (n - first) % step = 0) : ¬ r.Holds n := by
  rintro ⟨hlow, hhigh, hmod⟩
  simp only [isApart, Bool.or_eq_true, Bool.and_eq_true, Nat.blt_eq, Nat.beq_eq] at h
  rcases h with (h | h) | ⟨⟨htwo, h⟩, hparity⟩
  · omega
  · omega
  · rw [htwo] at hmod
    rcases h with hstep' | hsame
    · rw [hstep'] at hstep
      omega
    · omega

/-! ## Tables -/

/-- A case table: images of several characters, and runs. -/
structure CaseTable where
  specials : List (Nat × List Nat)
  runs : List CaseRun

namespace CaseTable

variable {t : CaseTable}

/-- What the table maps, as runs. -/
def sources (t : CaseTable) : List CaseRun := t.specials.map (fun e => (e.1, e.1, 1, 0)) ++ t.runs

/-- The table does not map the code point. -/
def Leaves (t : CaseTable) (n : Nat) : Prop := ∀ r ∈ t.sources, ¬ CaseRun.Holds r n

/-- The code points from the first to the last are those of characters. -/
def isValid (first last : Nat) : Bool :=
  Nat.blt last 0xD800 || (Nat.blt 0xDFFF first && Nat.blt last 0x110000)

/-- No image of the table is of one of the runs; `rest` has runs for the images of several
characters. -/
structure Avoids (t : CaseTable) (rest : List (Nat × Nat)) (targets : List CaseRun) : Prop where
  runs : (t.runs.map CaseRun.image).all fun i => targets.all (isApart i.1 i.2.1 i.2.2)
  validRuns : t.runs.all fun r => decide (0 ≤ r.1 + r.2.2.2) &&
    isValid (r.1 + r.2.2.2).toNat (r.2.1 + r.2.2.2).toNat
  specials : t.specials.all fun e => e.2.all fun n =>
    rest.any fun r => Nat.ble r.1 n && Nat.ble n r.2
  apart : rest.all fun r => targets.all (isApart r.1 r.2 1)
  valid : rest.all fun r => isValid r.1 r.2

theorem isValid_ofNat {first last n : Nat} (h : isValid first last = true) (hfirst : first ≤ n)
    (hlast : n ≤ last) : (Char.ofNat n).toNat = n := by
  simp only [isValid, Bool.or_eq_true, Bool.and_eq_true, Nat.blt_eq] at h
  have hvalid : n.isValidChar := by
    unfold Nat.isValidChar
    omega
  rw [Char.ofNat, dif_pos hvalid]
  rfl

/-- A character that the table does not map stays. -/
theorem mapCase_of_leaves {c : Char} (h : t.Leaves c.toNat) :
    mapCase t.specials t.runs c = [c] := by
  have hspecials : t.specials.find? (fun e => e.1 == c.toNat) = none := by
    refine List.find?_eq_none.2 fun e he heq => ?_
    have hmem : (e.1, e.1, 1, 0) ∈ t.sources := List.mem_append_left _ (List.mem_map.2 ⟨e, he, rfl⟩)
    have hname : e.1 = c.toNat := by simpa using heq
    exact h _ hmem ⟨Nat.le_of_eq hname, Nat.le_of_eq hname.symm, Nat.mod_one _⟩
  have hruns : shifted? t.runs c.toNat = none := by
    unfold shifted?
    rw [Option.map_eq_none_iff, List.find?_eq_none]
    intro r hr hholds
    simp only [Bool.and_eq_true, decide_eq_true_eq, beq_iff_eq] at hholds
    exact h r (List.mem_append_right _ hr) ⟨hholds.1.1, hholds.1.2, hholds.2⟩
  unfold mapCase
  rw [hspecials, hruns]
  rfl

/-- What the table neither lists nor has in a run it leaves. -/
theorem leaves_of_unmapped {n : Nat} (hspecials : t.specials.find? (fun e => e.1 == n) = none)
    (hruns : shifted? t.runs n = none) : t.Leaves n := by
  intro r hr hholds
  rcases List.mem_append.1 hr with hr | hr
  · obtain ⟨e, he, rfl⟩ := List.mem_map.1 hr
    refine List.find?_eq_none.1 hspecials e he ?_
    have hname : e.1 = n := Nat.le_antisymm hholds.1 hholds.2.1
    simpa using hname
  · unfold shifted? at hruns
    rw [Option.map_eq_none_iff, List.find?_eq_none] at hruns
    refine hruns r hr ?_
    simp only [Bool.and_eq_true, decide_eq_true_eq, beq_iff_eq]
    exact ⟨⟨hholds.1, hholds.2.1⟩, hholds.2.2⟩

/-- The code point that a run gives is one of the images of the run. -/
theorem image_of_holds {r : CaseRun} {n : Nat} (hlow : 0 ≤ r.1 + r.2.2.2) (h : r.Holds n) :
    r.image.1 ≤ (n + r.2.2.2).toNat ∧ (n + r.2.2.2).toNat ≤ r.image.2.1 ∧
      ((n + r.2.2.2).toNat - r.image.1) % r.image.2.2 = 0 := by
  obtain ⟨first, last, step, shift⟩ := r
  obtain ⟨hfirst, hlast, hstep⟩ : first ≤ n ∧ n ≤ last ∧ (n - first) % step = 0 := h
  change (first + shift).toNat ≤ (n + shift).toNat ∧ (n + shift).toNat ≤ (last + shift).toNat ∧
    ((n + shift).toNat - (first + shift).toNat) % step = 0
  have hlow' : 0 ≤ (first : Int) + shift := hlow
  have hdifference : (n + shift).toNat - (first + shift).toNat = n - first := by omega
  exact ⟨by omega, by omega, hdifference ▸ hstep⟩

/-- What a character is mapped to is the character itself or avoids the runs. -/
theorem Avoids.mem {rest : List (Nat × Nat)} {targets : List CaseRun} (h : t.Avoids rest targets)
    {c d : Char} (hd : d ∈ mapCase t.specials t.runs c) :
    (d = c ∧ t.Leaves c.toNat) ∨ ∀ r ∈ targets, ¬ CaseRun.Holds r d.toNat := by
  unfold mapCase at hd
  split at hd
  · rename_i e hspecial
    obtain ⟨n, hn, rfl⟩ := List.mem_map.1 hd
    have hmem := List.all_eq_true.1 h.specials _ (List.mem_of_find?_eq_some hspecial)
    obtain ⟨r, hr, hin⟩ := List.any_eq_true.1 (List.all_eq_true.1 hmem n hn)
    simp only [Bool.and_eq_true, Nat.ble_eq] at hin
    obtain ⟨hfirst, hlast⟩ := hin
    rw [isValid_ofNat (List.all_eq_true.1 h.valid r hr) hfirst hlast]
    refine .inr fun target htarget => ?_
    exact not_holds_of_isApart (List.all_eq_true.1 (List.all_eq_true.1 h.apart r hr) target htarget)
      hfirst hlast (Nat.mod_one _)
  · rename_i hspecial
    obtain rfl := List.mem_singleton.1 hd
    cases hshifted : shifted? t.runs c.toNat with
    | none => exact .inl ⟨rfl, leaves_of_unmapped hspecial hshifted⟩
    | some m =>
      unfold shifted? at hshifted
      obtain ⟨r, hfind, rfl⟩ := Option.map_eq_some_iff.1 hshifted
      have hr := List.mem_of_find?_eq_some hfind
      have hholds := List.find?_some hfind
      simp only [Bool.and_eq_true, decide_eq_true_eq, beq_iff_eq] at hholds
      have hvalid := List.all_eq_true.1 h.validRuns r hr
      simp only [Bool.and_eq_true, decide_eq_true_eq] at hvalid
      obtain ⟨hfirst, hlast, hstep⟩ := image_of_holds hvalid.1 ⟨hholds.1.1, hholds.1.2, hholds.2⟩
      refine .inr fun target htarget => ?_
      change ¬ CaseRun.Holds target (Char.ofNat (c.toNat + r.2.2.2).toNat).toNat
      rw [isValid_ofNat hvalid.2 hfirst hlast]
      exact not_holds_of_isApart (List.all_eq_true.1 (List.all_eq_true.1 h.runs _
        (List.mem_map.2 ⟨r, hr, rfl⟩)) target htarget) hfirst hlast hstep

/-- A table that avoids what it maps does not map again what it maps to. -/
theorem Avoids.leaves {rest : List (Nat × Nat)} (h : t.Avoids rest t.sources) {c d : Char}
    (hd : d ∈ mapCase t.specials t.runs c) : t.Leaves d.toNat := by
  rcases h.mem hd with ⟨rfl, hleaves⟩ | havoids
  · exact hleaves
  · exact havoids

/-- The table leaves the code points from the first to the last. -/
theorem leaves_of_isApart {first last n : Nat} (h : t.sources.all (isApart first last 1) = true)
    (hfirst : first ≤ n) (hlast : n ≤ last) : t.Leaves n := fun r hr =>
  not_holds_of_isApart (List.all_eq_true.1 h r hr) hfirst hlast (Nat.mod_one _)

end CaseTable

/-! ## The two tables -/

/-- The mapping to small letters. -/
def lowerTable : CaseTable := ⟨lowerSpecials, lowerRuns⟩

/-- The mapping to capitals. -/
def upperTable : CaseTable := ⟨upperSpecials, upperRuns⟩

set_option maxRecDepth 4000 in
theorem lowerTable_settled :
    lowerTable.Avoids [(0x69, 0x69), (0x307, 0x307)] lowerTable.sources where
  runs := by decide +kernel
  validRuns := rfl
  specials := rfl
  apart := rfl
  valid := rfl

/-- Runs of capitals and marks that hold the images of several characters. -/
def capitalRuns : List (Nat × Nat) := [
    (0x41, 0x5A), (0x2BC, 0x2BE), (0x300, 0x342), (0x386, 0x38F), (0x391, 0x3A9), (0x531, 0x556),
    (0x1F08, 0x1F0F), (0x1F28, 0x1F2F), (0x1F68, 0x1F6F), (0x1FBA, 0x1FBA), (0x1FCA, 0x1FCA),
    (0x1FFA, 0x1FFA)]

set_option maxRecDepth 4000 in
theorem upperTable_settled : upperTable.Avoids capitalRuns upperTable.sources where
  runs := by decide +kernel
  validRuns := rfl
  specials := rfl
  apart := rfl
  valid := rfl

/-- A blank or a double quote, as runs. -/
def separatorRuns : List CaseRun := (0x22, 0x22, 1, 0) :: blankRuns.map fun r => (r.1, r.2, 1, 0)

set_option maxRecDepth 4000 in
theorem lowerTable_separators :
    lowerTable.Avoids [(0x69, 0x69), (0x307, 0x307)] separatorRuns where
  runs := rfl
  validRuns := lowerTable_settled.validRuns
  specials := lowerTable_settled.specials
  apart := rfl
  valid := lowerTable_settled.valid

/-! ### ASCII letters -/

/-- A table says the same of ASCII characters as a mapping of 26 letters. -/
theorem CaseTable.mapCase_ascii {t : CaseTable} {f : Char → Char} (first : Nat)
    (hletters : ∀ k < 26, [f (Char.ofNat (first + k))] =
      mapCase t.specials t.runs (Char.ofNat (first + k)))
    (hothers : ∀ n < 0x80, n < first ∨ first + 26 ≤ n → f (Char.ofNat n) = Char.ofNat n)
    (hbelow : t.sources.all (isApart 0 (first - 1) 1) = true)
    (habove : t.sources.all (isApart (first + 26) 0x7F 1) = true) {c : Char}
    (hascii : c.toNat < 0x80) : [f c] = mapCase t.specials t.runs c := by
  rw [← Char.ofNat_toNat c]
  rcases Nat.lt_or_ge c.toNat first with h | h
  · rw [hothers _ hascii (.inl h), mapCase_of_leaves]
    rw [Char.ofNat_toNat]
    exact leaves_of_isApart hbelow (Nat.zero_le _) (by omega)
  rcases Nat.lt_or_ge c.toNat (first + 26) with h' | h'
  · obtain ⟨k, hk⟩ := Nat.exists_eq_add_of_le h
    rw [hk]
    exact hletters k (by omega)
  · rw [hothers _ hascii (.inr h'), mapCase_of_leaves]
    rw [Char.ofNat_toNat]
    exact leaves_of_isApart habove h' (by omega)

set_option maxRecDepth 4000 in
theorem lowerChar_eq (c : Char) : lowerChar c = mapCase lowerTable.specials lowerTable.runs c := by
  unfold lowerChar
  split
  · rename_i hascii
    exact CaseTable.mapCase_ascii 0x41 (by decide) (by decide) rfl rfl hascii
  · rfl

set_option maxRecDepth 4000 in
theorem upperChar_eq (c : Char) : upperChar c = mapCase upperTable.specials upperTable.runs c := by
  unfold upperChar
  split
  · rename_i hascii
    exact CaseTable.mapCase_ascii 0x61 (by decide) (by decide) rfl rfl hascii
  · rfl

/-! ## Texts -/

/-- A capital stays a capital. -/
theorem upperChar_of_mem {c d : Char} (h : d ∈ upperChar c) : upperChar d = [d] := by
  rw [upperChar_eq] at h ⊢
  exact CaseTable.mapCase_of_leaves (upperTable_settled.leaves h)

/-- Characters each of which stays stay. -/
theorem flatMap_of_stays {f : Char → List Char} {cs : List Char} (h : ∀ c ∈ cs, f c = [c]) :
    cs.flatMap f = cs := by
  induction cs with
  | nil => rfl
  | cons c cs ih =>
    rw [List.flatMap_cons, h c List.mem_cons_self, ih fun d hd => h d (List.mem_cons_of_mem c hd)]
    rfl

/-- Capitals stay as they are. -/
theorem upper_upper (s : String) : upper (upper s) = upper s := by
  unfold upper
  rw [String.toList_ofList, flatMap_of_stays]
  intro d hd
  obtain ⟨c, -, hd⟩ := List.mem_flatMap.1 hd
  exact upperChar_of_mem hd

/-- A capital sigma is mapped by its place, and every other character by itself. -/
theorem lowerFrom_cons (before : List Char) (c : Char) (cs : List Char) :
    ∃ image, lowerFrom before (c :: cs) = image ++ lowerFrom (c :: before) cs ∧
      (c = 'Σ' ∧ (image = ['ς'] ∨ image = ['σ']) ∨ image = lowerChar c) := by
  by_cases hc : c = 'Σ'
  · subst hc
    refine ⟨[if facesCased before && !facesCased cs then 'ς' else 'σ'], rfl, .inl ⟨rfl, ?_⟩⟩
    split
    · exact .inl rfl
    · exact .inr rfl
  · refine ⟨lowerChar c, ?_, .inr rfl⟩
    rw [lowerFrom]
    exact hc

/-- Small letters are sigmas or what single characters are mapped to. -/
theorem mem_lowerFrom {cs : List Char} {before : List Char} {d : Char}
    (h : d ∈ lowerFrom before cs) : d = 'ς' ∨ d = 'σ' ∨ ∃ c ∈ cs, d ∈ lowerChar c := by
  induction cs generalizing before with
  | nil => cases h
  | cons c cs ih =>
    obtain ⟨image, heq, himage⟩ := lowerFrom_cons before c cs
    rw [heq] at h
    rcases List.mem_append.1 h with h | h
    · rcases himage with ⟨-, rfl | rfl⟩ | rfl
      · exact .inl (List.mem_singleton.1 h)
      · exact .inr (.inl (List.mem_singleton.1 h))
      · exact .inr (.inr ⟨c, List.mem_cons_self, h⟩)
    · exact (ih h).imp_right
        (Or.imp_right fun ⟨c', hc', h⟩ => ⟨c', List.mem_cons_of_mem c hc', h⟩)

set_option maxRecDepth 4000 in
/-- What small letters are made of is mapped no more. -/
theorem leaves_of_mem_lowerFrom {cs : List Char} {before : List Char} {d : Char}
    (h : d ∈ lowerFrom before cs) : lowerTable.Leaves d.toNat := by
  have hsigmas : lowerTable.sources.all (isApart 0x3C2 0x3C3 1) = true := rfl
  rcases mem_lowerFrom h with rfl | rfl | ⟨c, -, h⟩
  · exact CaseTable.leaves_of_isApart hsigmas (by decide) (by decide)
  · exact CaseTable.leaves_of_isApart hsigmas (by decide) (by decide)
  · rw [lowerChar_eq] at h
    exact lowerTable_settled.leaves h

/-- Characters that are mapped no more stay in front of others. -/
theorem lowerFrom_append_of_leaves {cs ds : List Char} {before : List Char}
    (h : ∀ c ∈ cs, lowerTable.Leaves c.toNat) :
    lowerFrom before (cs ++ ds) = cs ++ lowerFrom (cs.reverse ++ before) ds := by
  induction cs generalizing before with
  | nil => rfl
  | cons c cs ih =>
    have hc := h c List.mem_cons_self
    have hplace : (c :: cs).reverse ++ before = cs.reverse ++ c :: before := by simp
    obtain ⟨image, heq, himage⟩ := lowerFrom_cons before c (cs ++ ds)
    have hstays : image = [c] := by
      rcases himage with ⟨rfl, -⟩ | rfl
      · -- a capital sigma is mapped
        have hmapped : mapCase lowerTable.specials lowerTable.runs 'Σ' = ['σ'] := by decide
        rw [CaseTable.mapCase_of_leaves hc] at hmapped
        exact absurd hmapped (by decide)
      · rw [lowerChar_eq, CaseTable.mapCase_of_leaves hc]
    rw [hplace, List.cons_append, heq, hstays, ih fun d hd => h d (List.mem_cons_of_mem c hd)]
    rfl

/-- Characters that are mapped no more stay. -/
theorem lowerFrom_of_leaves {cs : List Char} {before : List Char}
    (h : ∀ c ∈ cs, lowerTable.Leaves c.toNat) : lowerFrom before cs = cs := by
  have happend : lowerFrom before (cs ++ []) = _ := lowerFrom_append_of_leaves h
  rwa [List.append_nil, lowerFrom, List.append_nil] at happend

set_option maxRecDepth 4000 in
/-- Small ASCII letters are mapped no more. -/
theorem leaves_of_small {c : Char} (hlow : 0x5B ≤ c.toNat) (hhigh : c.toNat ≤ 0x7F) :
    lowerTable.Leaves c.toNat := by
  have hsmall : lowerTable.sources.all (isApart 0x5B 0x7F 1) = true := rfl
  exact CaseTable.leaves_of_isApart hsmall hlow hhigh

theorem lowerChar_ne_nil (c : Char) : lowerChar c ≠ [] := by
  have himages : lowerSpecials.all (fun e => !e.2.isEmpty) = true := by decide
  unfold lowerChar
  split
  · simp
  · unfold mapCase
    split
    · rename_i entry image hfind
      have himage := List.all_eq_true.1 himages _ (List.mem_of_find?_eq_some hfind)
      simpa using himage
    · simp

/-- Mapping to small letters leaves something of every text. -/
theorem lowerFrom_eq_nil {before cs : List Char} : lowerFrom before cs = [] ↔ cs = [] := by
  constructor
  · intro h
    unfold lowerFrom at h
    split at h
    · rfl
    · cases h
    · exact absurd (List.append_eq_nil_iff.1 h).1 (lowerChar_ne_nil _)
  · rintro rfl
    rfl

/-- Whether a cased letter is next does not depend on what stands behind a character that is not
passed over. -/
theorem facesCased_append {c : Char} (h : inRuns caseIgnorableRuns c = false)
    (pre cs : List Char) :
    facesCased (pre ++ c :: cs) = facesCased (pre ++ [c]) := by
  unfold facesCased
  induction pre with
  | nil =>
    rw [List.nil_append, List.nil_append, List.dropWhile_cons_of_neg (by simp [h]),
      List.dropWhile_cons_of_neg (by simp [h])]
  | cons d pre ih =>
    by_cases hd : inRuns caseIgnorableRuns d = true
    · rw [List.cons_append, List.cons_append, List.dropWhile_cons_of_pos hd,
        List.dropWhile_cons_of_pos hd, ih]
    · rw [List.cons_append, List.cons_append, List.dropWhile_cons_of_neg hd,
        List.dropWhile_cons_of_neg hd]

/-- Nor do the small letters of what comes after it. -/
theorem lowerFrom_append {c : Char} (h : inRuns caseIgnorableRuns c = false)
    (before : List Char) : ∀ (cs pre : List Char),
    lowerFrom (pre ++ c :: before) cs = lowerFrom (pre ++ [c]) cs
  | [], _ => rfl
  | d :: cs, pre => by
    have ih := lowerFrom_append h before cs (d :: pre)
    unfold lowerFrom
    split
    · rfl
    · rename_i rest heq
      obtain ⟨rfl, rfl⟩ := List.cons.inj heq
      rw [facesCased_append h pre before]
      exact congrArg _ ih
    · rename_i rest _ heq
      obtain ⟨rfl, rfl⟩ := List.cons.inj heq
      exact congrArg _ ih

/-- Small letters stay as they are. -/
theorem lower_lower (s : String) : lower (lower s) = lower s := by
  unfold lower
  rw [String.toList_ofList, lowerFrom_of_leaves fun d hd => leaves_of_mem_lowerFrom hd]

/-- A blank or a double quote. -/
def isSeparator (c : Char) : Bool := isBlank c || c == '"'

theorem isSeparator_iff {c : Char} :
    isSeparator c = true ↔ ∃ r ∈ separatorRuns, CaseRun.Holds r c.toNat := by
  have hquote : c = '"' ↔ CaseRun.Holds (0x22, 0x22, 1, 0) c.toNat := by
    rw [← Char.toNat_inj]
    change c.toNat = 0x22 ↔ 0x22 ≤ c.toNat ∧ c.toNat ≤ 0x22 ∧ (c.toNat - 0x22) % 1 = 0
    omega
  unfold isSeparator isBlank separatorRuns
  rw [Bool.or_eq_true, inRuns_iff, beq_iff_eq, hquote, List.exists_mem_cons_iff, or_comm]
  refine or_congr_right ⟨?_, ?_⟩
  · rintro ⟨r, hr, hfirst, hlast⟩
    exact ⟨_, List.mem_map_of_mem hr, hfirst, hlast, Nat.mod_one _⟩
  · rintro ⟨_, hrun, hholds⟩
    obtain ⟨r, hr, rfl⟩ := List.mem_map.1 hrun
    exact ⟨r, hr, hholds.1, hholds.2.1⟩

/-- Small letters are no blanks and no double quotes when the letters that they come from are
none. -/
theorem notSeparator_of_mem_lowerFrom {cs : List Char} {before : List Char} {d : Char}
    (hcs : ∀ c ∈ cs, isSeparator c = false) (h : d ∈ lowerFrom before cs) :
    isSeparator d = false := by
  rcases mem_lowerFrom h with rfl | rfl | ⟨c, hc, h⟩
  · decide
  · decide
  · rw [lowerChar_eq] at h
    rcases lowerTable_separators.mem h with ⟨rfl, -⟩ | havoids
    · exact hcs d hc
    · rw [Bool.eq_false_iff, ne_eq, isSeparator_iff]
      rintro ⟨r, hr, hholds⟩
      exact havoids r hr hholds

end WideColumn.Text
