import Mathlib.Data.List.DropRight
import WideColumn.IndexTarget
import WideColumn.Proofs.Naming

/-!
# Reading index targets back

The canonical form of a target on an identifier is read as that target again, so that comparing
canonical forms compares targets. Of any other expression the canonical form is the expression itself
or a lighter text (`IndexTarget.canonical_eq_or_lighter`), so that reading forms again and again
comes to an end.
-/

namespace WideColumn.IndexTarget

variable {cs : List Char}

theorem notMem_newline (h : ∀ c ∈ cs, Name.isInner c = true) : cs.contains '\n' = false := by
  rw [Bool.eq_false_iff]
  intro hmem
  exact Name.isInner_ne_newline (h '\n' (by simpa using hmem)) rfl

theorem stripChars_inner (h : ∀ c ∈ cs, Name.isInner c = true) : Text.stripChars cs = cs :=
  Text.stripChars_of_notBlank fun c hc => Name.isInner_notBlank (h c hc)

/-- Characters of names alone apply no function. -/
theorem applied?_inner (h : ∀ c ∈ cs, Name.isInner c = true) : applied? cs = none := by
  have hdrop : ∀ c ∈ cs.dropWhile (fun c => Name.isLetter c || c == '_'), Name.isInner c = true :=
    fun c hc => h c ((List.dropWhile_suffix _).subset hc)
  unfold applied?
  dsimp only
  rw [Text.stripLeft_of_notBlank fun c hc => Name.isInner_notBlank (hdrop c hc)]
  split
  · rename_i rest hrest
    exact absurd (hdrop '(' (hrest ▸ List.mem_cons_self)) (by decide)
  · rfl

/-- A function applied to characters without blanks at their ends and without line ends. -/
theorem applied?_function (f : IndexFunction) (hne : cs ≠ []) (hstripped : Text.stripChars cs = cs)
    (hunbroken : cs.contains '\n' = false) :
    applied? (f.name.toList ++ '(' :: (cs ++ [')'])) = some (f.name.toList, cs) := by
  have htake : (f.name.toList ++ '(' :: (cs ++ [')'])).takeWhile
      (fun c => Name.isLetter c || c == '_') = f.name.toList := by
    cases f <;> rfl
  have hdrop : (f.name.toList ++ '(' :: (cs ++ [')'])).dropWhile
      (fun c => Name.isLetter c || c == '_') = '(' :: (cs ++ [')']) := by
    cases f <;> rfl
  have hname : f.name.toList.isEmpty = false := by cases f <;> rfl
  have hempty : cs.isEmpty = false := by simpa using hne
  unfold applied?
  dsimp only
  rw [htake, hdrop, Text.stripLeft_cons (by decide)]
  simp only [Text.stripRight_concat (by decide : Text.isBlank ')' = false), hname,
    List.dropLast_concat, hstripped, hempty, hunbroken]
  simp

theorem stripLeft_function (f : IndexFunction) (ds : List Char) :
    Text.stripLeft (f.name.toList ++ ds) = f.name.toList ++ ds := by
  cases f <;> exact Text.stripLeft_cons (by decide) _

/-- The parts of a canonical form are the function and the column. -/
theorem parts?_canonical {column : String} (h : Name.IsIdentifier column)
    (function : Option IndexFunction) :
    parts? (canonical ⟨function, column⟩).toList =
      some (function.map fun f => f.name.toList, column.toList) := by
  have hne : column.toList ≠ [] := h.toList_ne_nil
  unfold parts?
  cases function with
  | none =>
    have hcanonical : (canonical ⟨none, column⟩).toList = column.toList := rfl
    have hempty : column.toList.isEmpty = false := by simpa using hne
    rw [hcanonical, Text.stripLeft_of_notBlank fun c hc => Name.isInner_notBlank (h.isInner c hc),
      applied?_inner h.isInner]
    dsimp only
    rw [stripChars_inner h.isInner, hempty, notMem_newline h.isInner]
    rfl
  | some f =>
    have hcanonical : (canonical ⟨some f, column⟩).toList =
        f.name.toList ++ '(' :: (column.toList ++ [')']) := by
      simp [canonical]
    rw [hcanonical, stripLeft_function, applied?_function f hne (stripChars_inner h.isInner)
      (notMem_newline h.isInner)]
    rfl

/-- The canonical form of a target on an identifier is read as the target. -/
theorem ofText_canonical {target : IndexTarget} (h : Name.IsIdentifier target.column) :
    ofText target.canonical = .ok target := by
  obtain ⟨function, column⟩ := target
  have hfilter : column.toList.filter (· != '"') = column.toList :=
    List.filter_eq_self.2 fun c hc => bne_iff_ne.2 (Name.isInner_ne_quote (h.isInner c hc))
  have hempty : column.toList.isEmpty = false := by simpa using h.toList_ne_nil
  unfold ofText read
  rw [parts?_canonical h]
  dsimp only
  rw [hfilter, stripChars_inner h.isInner, hempty, if_neg Bool.false_ne_true, String.ofList_toList]
  cases function with
  | none => rfl
  | some f => cases f <;> rfl

/-! ## What is left of an expression -/

/-- The number of characters, capital letters counted twice. -/
def weight (cs : List Char) : Nat := cs.length + cs.countP fun c => c.toLower != c

theorem weight_append (cs ds : List Char) : weight (cs ++ ds) = weight cs + weight ds := by
  simp only [weight, List.length_append, List.countP_append]
  omega

/-- Leaving characters out makes a text lighter. -/
theorem eq_or_lighter_of_sublist {cs ds : List Char} (h : cs.Sublist ds) :
    cs = ds ∨ weight cs < weight ds := by
  by_cases heq : cs = ds
  · exact .inl heq
  · have hcount := h.countP_le (p := fun c => c.toLower != c)
    have hlength : cs.length < ds.length :=
      lt_of_le_of_ne h.length_le fun hlength => heq (h.eq_of_length hlength)
    right
    unfold weight
    omega

/-- A word in small letters is lighter than the word in other letters. -/
theorem weight_lower {cs : List Char} (hsmall : ∀ c ∈ cs.map Char.toLower, c.toLower = c)
    (hne : cs.map Char.toLower ≠ cs) : weight (cs.map Char.toLower) < weight cs := by
  have hzero : (cs.map Char.toLower).countP (fun c => c.toLower != c) = 0 :=
    List.countP_eq_zero.2 fun c hc => by simp [hsmall c hc]
  have hpos : 0 < cs.countP fun c => c.toLower != c := by
    rw [List.countP_pos_iff]
    by_contra hnone
    refine hne ?_
    conv_rhs => rw [← List.map_id cs]
    refine List.map_congr_left fun c hc => ?_
    by_contra hc'
    exact hnone ⟨c, hc, by simpa using hc'⟩
  unfold weight
  rw [hzero, List.length_map]
  omega

/-- What an expression applies, without blanks, is left of the expression. -/
theorem applied?_sublist {cs name wrapped : List Char} (h : applied? cs = some (name, wrapped)) :
    (name ++ '(' :: (wrapped ++ [')'])).Sublist cs := by
  unfold applied? at h
  dsimp only at h
  split at h
  · rename_i rest hrest
    split at h
    · cases h
    · rename_i hbody
      obtain ⟨-, hclosing⟩ := not_or.1 hbody
      obtain ⟨inside, hinside⟩ := List.getLast?_eq_some_iff.1 (not_not.1 hclosing)
      have hwrapped : name = cs.takeWhile (fun c => Name.isLetter c || c == '_') ∧
          wrapped.Sublist inside := by
        rw [hinside, List.dropLast_concat] at h
        split at h
        · split at h
          · cases h
            exact ⟨rfl, List.nil_sublist _⟩
          · cases h
        · split at h
          · cases h
          · cases h
            exact ⟨rfl, Text.stripChars_sublist inside⟩
      obtain ⟨rfl, hsub⟩ := hwrapped
      have hrestSub : (wrapped ++ [')']).Sublist rest :=
        ((hsub.append_right [')']).trans (hinside ▸ List.Sublist.refl _)).trans
          (List.rdropWhile_prefix Text.isBlank rest).sublist
      have hparen : ('(' :: rest).Sublist
          (cs.dropWhile fun c => Name.isLetter c || c == '_') :=
        hrest ▸ (List.dropWhile_suffix _).sublist
      conv_rhs => rw [← List.takeWhile_append_dropWhile
        (p := fun c => Name.isLetter c || c == '_') (l := cs)]
      exact (List.Sublist.refl _).append ((hrestSub.cons_cons '(').trans hparen)
  · cases h

theorem parts?_applied {cs name wrapped : List Char} (h : parts? cs = some (some name, wrapped)) :
    (name ++ '(' :: (wrapped ++ [')'])).Sublist cs := by
  unfold parts? at h
  split at h
  · rename_i happlied
    cases h
    exact (applied?_sublist happlied).trans (List.dropWhile_suffix _).sublist
  · dsimp only at h
    split at h <;> cases h

theorem parts?_bare {cs wrapped : List Char} (h : parts? cs = some (none, wrapped)) :
    wrapped.Sublist cs := by
  unfold parts? at h
  split at h
  · cases h
  · dsimp only at h
    split at h
    · cases h
    · cases h
      exact Text.stripChars_sublist cs

/-- What is read of an expression comes from its parts. -/
theorem read_ok {spelled : String} {cs : List Char} {target : IndexTarget}
    (h : read spelled cs = .ok target) :
    ∃ function wrapped, parts? cs = some (function, wrapped) ∧
      (target.column ≠ "" ∧ target.column.toList = Text.stripChars (wrapped.filter (· != '"'))) ∧
      ∀ f, target.function = some f → ∃ name, function = some name ∧
        name.map Char.toLower = f.name.toList := by
  unfold read at h
  split at h
  · cases h
  · rename_i function wrapped hparts
    dsimp only at h
    refine ⟨function, wrapped, hparts, ?_⟩
    split at h
    · cases h
    · rename_i hthere
      have hcolumn : String.ofList (Text.stripChars (wrapped.filter (· != '"'))) ≠ "" ∧
          (String.ofList (Text.stripChars (wrapped.filter (· != '"')))).toList =
            Text.stripChars (wrapped.filter (· != '"')) :=
        ⟨fun hempty => hthere (List.isEmpty_iff.2 (String.ofList_eq_empty_iff.1 hempty)),
          String.toList_ofList⟩
      split at h
      · cases h
        exact ⟨hcolumn, fun f hf => nomatch hf⟩
      · rename_i name
        have hnamed : ∀ g : IndexFunction, String.ofList (name.map Char.toLower) = g.name →
            ∀ f, some g = some f → ∃ n, some name = some n ∧ n.map Char.toLower = f.name.toList := by
          rintro g hg _ ⟨⟩
          exact ⟨name, rfl, by rw [← hg, String.toList_ofList]⟩
        split at h
        · cases h
          exact ⟨hcolumn, fun f hf => nomatch hf⟩
        · rename_i heq
          cases h
          exact ⟨hcolumn, hnamed .keys heq⟩
        · rename_i heq
          cases h
          exact ⟨hcolumn, hnamed .entries heq⟩
        · rename_i heq
          cases h
          exact ⟨hcolumn, hnamed .full heq⟩
        · cases h

/-- The canonical form of an expression is not empty. -/
theorem canonical_ne_empty {s : String} {target : IndexTarget} (h : ofText s = .ok target) :
    target.canonical ≠ "" := by
  obtain ⟨_, _, -, ⟨hcolumn, -⟩, -⟩ := read_ok h
  unfold canonical
  split
  · exact hcolumn
  · simp

/-- The canonical form of an expression is the expression itself or lighter. -/
theorem canonical_eq_or_lighter {s : String} {target : IndexTarget} (h : ofText s = .ok target) :
    target.canonical = s ∨ weight target.canonical.toList < weight s.toList := by
  rw [← String.toList_inj]
  obtain ⟨function, wrapped, hparts, ⟨-, hread⟩, hfunction⟩ := read_ok h
  have hcolumn : target.column.toList.Sublist wrapped :=
    hread ▸ (Text.stripChars_sublist _).trans List.filter_sublist
  obtain ⟨applied, column⟩ := target
  cases applied with
  | none =>
    refine eq_or_lighter_of_sublist (hcolumn.trans ?_)
    cases function with
    | none => exact parts?_bare hparts
    | some name =>
      have hwrapped : wrapped.Sublist (name ++ '(' :: (wrapped ++ [')'])) :=
        ((List.sublist_append_left wrapped _).trans (List.sublist_cons_self _ _)).trans
          (List.sublist_append_right name _)
      exact hwrapped.trans (parts?_applied hparts)
  | some f =>
    obtain ⟨name, rfl, hname⟩ := hfunction f rfl
    have hcanonical : (canonical ⟨some f, column⟩).toList =
        f.name.toList ++ '(' :: (column.toList ++ [')']) := by
      simp [canonical]
    have hsub : (name ++ '(' :: (column.toList ++ [')'])).Sublist s.toList :=
      ((List.Sublist.refl name).append ((hcolumn.append_right [')']).cons_cons '(')).trans
        (parts?_applied hparts)
    rw [hcanonical]
    -- a name with a capital gets lighter; in any other the form is a part of the expression
    by_cases hsame : name.map Char.toLower = name
    · rw [← hname, hsame]
      exact eq_or_lighter_of_sublist hsub
    · right
      have hsmall : ∀ c ∈ name.map Char.toLower, c.toLower = c := by
        rw [hname]
        cases f <;> simp [IndexFunction.name]
      have hlighter := weight_lower hsmall hsame
      rw [hname] at hlighter
      have hle : weight (name ++ '(' :: (column.toList ++ [')'])) ≤ weight s.toList :=
        (eq_or_lighter_of_sublist hsub).elim (fun heq => (congrArg weight heq).le) le_of_lt
      rw [weight_append] at hle ⊢
      omega

end WideColumn.IndexTarget
