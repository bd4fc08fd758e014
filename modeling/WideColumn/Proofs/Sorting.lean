import Mathlib.Data.List.Sort
import Mathlib.Data.Nat.Digits.Defs
import Mathlib.Data.String.Basic
import WideColumn.Sorting
import WideColumn.Value.Compare

/-!
# Sorting puts values in order

When no comparison fails and values compare as their keys do, sorting ends with the values in the
order of their keys (`Sorting.sort_ordered`). Where the keys are distinct there is one such list, so
the order in which the values were given does not count (`Sorting.sort_eq_of_perm`). Integers have
their usual order (`Value.less_int`), although they are compared by their digits.
-/

namespace WideColumn.Sorting

variable {α β ε : Type} [LinearOrder β] {less : α → α → Except ε Bool} {key : α → β} {x : α}
  {xs ys : List α}

/-- The values of a list compare as their keys do, and no comparison fails. -/
def ComparesBy (less : α → α → Except ε Bool) (key : α → β) (xs : List α) : Prop :=
  ∀ x ∈ xs, ∀ y ∈ xs, less x y = .ok (decide (key x < key y))

theorem ComparesBy.of_subset (h : ComparesBy less key xs) (hsubset : ys ⊆ xs) :
    ComparesBy less key ys := fun x hx y hy => h x (hsubset hx) y (hsubset hy)

/-- The values are in the order of their keys. -/
def OrderedBy (key : α → β) (xs : List α) : Prop := xs.Pairwise fun x y => key x ≤ key y

/-! ## The run at the beginning -/

/-- The second value follows the first one in a run that descends or does not. -/
def Follows (key : α → β) (descending : Bool) (x y : α) : Prop :=
  if descending then key y < key x else key x ≤ key y

theorem follows_iff {descending : Bool} {y : α} :
    decide (key y < key x) = descending ↔ Follows key descending x y := by
  cases descending <;> simp [Follows]

theorem Follows.trans {descending : Bool} {y z : α} (hxy : Follows key descending x y)
    (hyz : Follows key descending y z) : Follows key descending x z := by
  cases descending with
  | true => exact lt_trans (b := key y) hyz hxy
  | false => exact le_trans (b := key y) hxy hyz

/-- A run is split off in which each value follows all those before it. -/
theorem spanRun_follows {descending : Bool} : ∀ {xs : List α} {before : α},
    ComparesBy less key (before :: xs) →
    ∃ run rest, spanRun less descending before xs = .ok (run, rest) ∧ xs = run ++ rest ∧
      (before :: run).Pairwise (Follows key descending)
  | [], before, _ => ⟨[], [], rfl, rfl, List.pairwise_singleton _ before⟩
  | x :: xs, before, h => by
    unfold spanRun
    rw [h x (by simp) before (by simp)]
    change ∃ run rest, (if decide (key x < key before) = descending then
      (spanRun less descending x xs >>= fun r => Except.ok (x :: r.1, r.2)) else
      Except.ok ([], x :: xs)) = _ ∧ _
    by_cases hfollows : decide (key x < key before) = descending
    · obtain ⟨run, rest, hspan, hxs, hrun⟩ :=
        spanRun_follows (h.of_subset (List.subset_cons_self before (x :: xs)))
      rw [if_pos hfollows, hspan]
      refine ⟨x :: run, rest, rfl, congrArg (x :: ·) hxs, List.pairwise_cons.2
        ⟨fun z hz => ?_, hrun⟩⟩
      have hfirst := follows_iff.1 hfollows
      rcases List.mem_cons.1 hz with rfl | hz
      · exact hfirst
      · exact hfirst.trans ((List.pairwise_cons.1 hrun).1 z hz)
    · rw [if_neg hfollows]
      exact ⟨[], x :: xs, rfl, rfl, List.pairwise_singleton _ before⟩

/-- The list begins with an ordered run. -/
theorem firstRun_ordered (h : ComparesBy less key xs) :
    ∃ run rest, firstRun less xs = .ok (run, rest) ∧ (run ++ rest).Perm xs ∧ OrderedBy key run := by
  match xs, h with
  | [], _ => exact ⟨[], [], rfl, .refl [], List.Pairwise.nil⟩
  | [x], _ => exact ⟨[x], [], rfl, .refl [x], List.pairwise_singleton _ x⟩
  | x :: y :: zs, h =>
    have hrest : ComparesBy less key (y :: zs) := h.of_subset (List.subset_cons_self x (y :: zs))
    obtain ⟨run, rest, hspan, rfl, hrun⟩ : ∃ run rest,
        spanRun less (decide (key y < key x)) y zs = .ok (run, rest) ∧ zs = run ++ rest ∧
          (y :: run).Pairwise (Follows key (decide (key y < key x))) := spanRun_follows hrest
    unfold firstRun
    dsimp only
    rw [h y (by simp) x (by simp)]
    change ∃ run' rest', (spanRun less (decide (key y < key x)) y (run ++ rest) >>= fun r =>
      Except.ok (if decide (key y < key x) = true then (x :: y :: r.1).reverse else x :: y :: r.1,
        r.2)) = _ ∧ _
    rw [hspan]
    have hall : (x :: y :: run).Pairwise (Follows key (decide (key y < key x))) := by
      refine List.pairwise_cons.2 ⟨fun z hz => ?_, hrun⟩
      have hfirst : Follows key (decide (key y < key x)) x y := follows_iff.1 rfl
      rcases List.mem_cons.1 hz with rfl | hz
      · exact hfirst
      · exact hfirst.trans ((List.pairwise_cons.1 hrun).1 z hz)
    -- a run that descends does so strictly and is turned round
    by_cases hdescends : key y < key x
    · refine ⟨(x :: y :: run).reverse, rest, ?_, ?_, ?_⟩
      · simp [hdescends]
        rfl
      · exact (List.reverse_perm _).append_right rest
      · rw [decide_eq_true hdescends] at hall
        exact (List.pairwise_reverse.2 hall).imp fun hlt => le_of_lt hlt
    · refine ⟨x :: y :: run, rest, ?_, .refl _, ?_⟩
      · simp [hdescends]
        rfl
      · rw [decide_eq_false hdescends] at hall
        exact hall

/-! ## One value after the other -/

/-- The place of a value is behind those that are not greater and before those that are. -/
theorem placeOf_between (hless : ∀ y ∈ xs, less x y = .ok (decide (key x < key y)))
    (hordered : OrderedBy key xs) (low high : Nat) (hlow : low ≤ high) (hhigh : high ≤ xs.length)
    (hbefore : ∀ i (_ : i < xs.length), i < low → key xs[i] ≤ key x)
    (hafter : ∀ i (_ : i < xs.length), high ≤ i → key x < key xs[i]) :
    ∃ place, placeOf less x xs low high = .ok place ∧ place ≤ xs.length ∧
      (∀ i (_ : i < xs.length), i < place → key xs[i] ≤ key x) ∧
      ∀ i (_ : i < xs.length), place ≤ i → key x < key xs[i] := by
  unfold placeOf
  split
  · rename_i hlt
    have hmiddle : low + (high - low) / 2 < xs.length := by omega
    have hmonotone : ∀ i j (_ : i < xs.length) (_ : j < xs.length), i ≤ j →
        key xs[i] ≤ key xs[j] := by
      intro i j hi hj hij
      rcases Nat.lt_or_eq_of_le hij with hij | rfl
      · exact List.pairwise_iff_getElem.1 hordered i j hi hj hij
      · exact le_refl _
    dsimp only
    rw [List.getElem?_eq_getElem hmiddle]
    dsimp only
    rw [hless _ (List.getElem_mem hmiddle)]
    change ∃ place, (if decide (key x < key xs[low + (high - low) / 2]) = true then
      placeOf less x xs low (low + (high - low) / 2) else
      placeOf less x xs (low + (high - low) / 2 + 1) high) = _ ∧ _
    by_cases hbelow : key x < key xs[low + (high - low) / 2]
    · rw [if_pos (decide_eq_true hbelow)]
      exact placeOf_between hless hordered low _ (by omega) (by omega) hbefore
        fun i hi hle => lt_of_lt_of_le hbelow (hmonotone _ _ hmiddle hi hle)
    · rw [if_neg (by simpa using hbelow)]
      refine placeOf_between hless hordered _ high (by omega) hhigh (fun i hi hlt => ?_) hafter
      exact (hmonotone _ _ hi hmiddle (by omega)).trans (not_lt.1 hbelow)
  · have hsame : low = high := by omega
    exact ⟨low, rfl, by omega, hbefore, hsame ▸ hafter⟩
termination_by high - low

/-- A value is put into an ordered list where the list stays ordered. -/
theorem insert_ordered (hless : ∀ y ∈ xs, less x y = .ok (decide (key x < key y)))
    (hordered : OrderedBy key xs) :
    ∃ ys, insert less xs x = .ok ys ∧ ys.Perm (x :: xs) ∧ OrderedBy key ys := by
  obtain ⟨place, hplace, -, hbefore, hafter⟩ := placeOf_between hless hordered 0 xs.length
    (Nat.zero_le _) (le_refl _) (fun i _ hi => absurd hi (Nat.not_lt_zero i))
    fun i hi hle => absurd hi (Nat.not_lt.2 hle)
  refine ⟨xs.take place ++ x :: xs.drop place, ?_, ?_, ?_⟩
  · unfold insert
    rw [hplace]
    rfl
  · exact List.perm_middle.trans (by rw [List.take_append_drop])
  · have htake : ∀ y ∈ xs.take place, key y ≤ key x := by
      intro y hy
      obtain ⟨i, hi, rfl⟩ := List.mem_take_iff_getElem.1 hy
      exact hbefore i (by omega) (by omega)
    have hdrop : ∀ y ∈ xs.drop place, key x < key y := by
      intro y hy
      obtain ⟨i, hi, rfl⟩ := List.mem_drop_iff_getElem.1 hy
      exact hafter (place + i) (by omega) (by omega)
    refine List.pairwise_append.2 ⟨hordered.sublist (List.take_sublist place xs),
      List.pairwise_cons.2 ⟨fun y hy => le_of_lt (hdrop y hy),
        hordered.sublist (List.drop_sublist place xs)⟩, fun y hy z hz => ?_⟩
    rcases List.mem_cons.1 hz with rfl | hz
    · exact htake y hy
    · exact (htake y hy).trans (le_of_lt (hdrop z hz))

theorem foldlM_insert_ordered : ∀ {rest run : List α}, ComparesBy less key (run ++ rest) →
    OrderedBy key run → ∃ ys, rest.foldlM (insert less) run = .ok ys ∧ ys.Perm (run ++ rest) ∧
      OrderedBy key ys
  | [], run, _, hordered => ⟨run, rfl, by simp, hordered⟩
  | x :: rest, run, h, hordered => by
    have hless : ∀ y ∈ run, less x y = .ok (decide (key x < key y)) :=
      fun y hy => h x (by simp) y (by simp [hy])
    obtain ⟨ys, hys, hperm, hordered'⟩ := insert_ordered hless hordered
    have hmoved : (ys ++ rest).Perm (run ++ x :: rest) :=
      (hperm.append_right rest).trans List.perm_middle.symm
    obtain ⟨zs, hzs, hperm', hordered''⟩ :=
      foldlM_insert_ordered (h.of_subset hmoved.subset) hordered'
    refine ⟨zs, ?_, hperm'.trans hmoved, hordered''⟩
    rw [List.foldlM_cons, hys]
    exact hzs

/-! ## Whole lists -/

/-- Sorting ends with the values in order. -/
theorem sort_ordered (h : ComparesBy less key xs) :
    ∃ ys, sort less xs = .ok ys ∧ ys.Perm xs ∧ OrderedBy key ys := by
  obtain ⟨run, rest, hfirst, hperm, hordered⟩ := firstRun_ordered h
  obtain ⟨ys, hys, hperm', hordered'⟩ :=
    foldlM_insert_ordered (h.of_subset hperm.subset) hordered
  refine ⟨ys, ?_, hperm'.trans hperm, hordered'⟩
  unfold sort
  rw [hfirst]
  exact hys

/-- Of values with distinct keys there is one ordered list. -/
theorem OrderedBy.eq_of_perm (hxs : OrderedBy key xs) (hys : OrderedBy key ys)
    (hnodup : (xs.map key).Nodup) (hperm : xs.Perm ys) : xs = ys := by
  refine hperm.eq_of_pairwise (fun x y hx hy hxy hyx => ?_) hxs hys
  exact List.inj_on_of_nodup_map hnodup hx (hperm.symm.subset hy) (le_antisymm hxy hyx)

/-- Values with distinct keys that are in order already are left as they are. -/
theorem sort_eq_of_ordered (h : ComparesBy less key xs) (hnodup : (xs.map key).Nodup)
    (hperm : ys.Perm xs) (hordered : OrderedBy key ys) : sort less xs = .ok ys := by
  obtain ⟨zs, hzs, hperm', hordered'⟩ := sort_ordered h
  have hnodup' : (zs.map key).Nodup := (hperm'.map key).nodup_iff.2 hnodup
  rw [hzs, hordered'.eq_of_perm hordered hnodup' (hperm'.trans hperm.symm)]

/-- The order in which values with distinct keys are given does not count. -/
theorem sort_eq_of_perm (h : ComparesBy less key xs) (hnodup : (xs.map key).Nodup)
    (hperm : xs.Perm ys) : sort less xs = sort less ys := by
  obtain ⟨zs, hzs, hperm', hordered⟩ := sort_ordered (h.of_subset hperm.symm.subset)
  rw [hzs, sort_eq_of_ordered h hnodup (hperm'.trans hperm.symm) hordered]

end WideColumn.Sorting

/-! ## Integers -/

namespace WideColumn

namespace Scaled

theorem length_toDigits_mono {m n : Nat} (h : m ≤ n) :
    (Nat.toDigits 10 m).length ≤ (Nat.toDigits 10 n).length := by
  have hn := (Nat.length_toDigits_le_iff (b := 10) (n := n) (by decide)
    Nat.length_toDigits_pos).1 (le_refl _)
  exact (Nat.length_toDigits_le_iff (by decide) Nat.length_toDigits_pos).2 (lt_of_le_of_lt h hn)

/-- Whole numbers are compared as numbers, the number of their digits first. -/
theorem compareSizes_whole (a b : Bool) (m n : Nat) :
    compareSizes ⟨a, m, 0⟩ ⟨b, n, 0⟩ = Ord.compare m n := by
  unfold compareSizes place coefficientOver
  dsimp only
  split
  · rfl
  · have hsame : ∀ k : Nat, k * Nat.pow 10 ((0 : Int) - min 0 0).toNat = k := by simp
    rw [hsame, hsame, add_zero, add_zero]
    rcases lt_trichotomy m n with h | h | h
    · have hmono := length_toDigits_mono h.le
      rw [compare_lt_iff_lt.2 h]
      rcases hmono.lt_or_eq with hlength | hlength
      · rw [compare_lt_iff_lt.2 (by exact_mod_cast hlength)]
        rfl
      · rw [compare_eq_iff_eq.2 (by exact_mod_cast hlength)]
        rfl
    · subst h
      rw [compare_eq_iff_eq.2 rfl]
      rfl
    · have hmono := length_toDigits_mono h.le
      rw [compare_gt_iff_gt.2 h]
      rcases hmono.lt_or_eq with hlength | hlength
      · rw [compare_gt_iff_gt.2 (by exact_mod_cast hlength)]
        rfl
      · rw [compare_eq_iff_eq.2 (by exact_mod_cast hlength.symm)]
        rfl

/-- Integers are compared as integers. -/
theorem compare_ofInt (a b : Int) : (ofInt a).compare (ofInt b) = Ord.compare a b := by
  have hbelow : ∀ n : Int, (ofInt n).isBelowZero = decide (n < 0) := by
    intro n
    unfold ofInt isBelowZero
    by_cases h : n < 0
    · simp [h, ne_of_lt h]
    · simp [h]
  have hsame : ∀ {m n : Nat}, (m < n ↔ a < b) → (n < m ↔ b < a) →
      Ord.compare m n = Ord.compare a b := by
    intro m n hlt hgt
    rcases lt_trichotomy a b with h | h | h
    · rw [compare_lt_iff_lt.2 h, compare_lt_iff_lt.2 (hlt.2 h)]
    · rw [compare_eq_iff_eq.2 h, compare_eq_iff_eq]
      omega
    · rw [compare_gt_iff_gt.2 h, compare_gt_iff_gt.2 (hgt.2 h)]
  unfold compare
  rw [hbelow, hbelow]
  by_cases ha : a < 0 <;> by_cases hb : b < 0 <;>
    simp only [ha, hb, decide_true, decide_false]
  · exact (compareSizes_whole _ _ _ _).trans (hsame (by omega) (by omega))
  · exact (compare_lt_iff_lt.2 (by omega)).symm
  · exact (compare_gt_iff_gt.2 (by omega : a > b)).symm
  · exact (compareSizes_whole _ _ _ _).trans (hsame (by omega) (by omega))

end Scaled

/-- Integers have their order. -/
theorem Value.less_int (a b : Int) : Value.less (.int a) (.int b) = .ok (decide (a < b)) := by
  have hless : Magnitude.less (.finite (.ofInt a)) (.finite (.ofInt b)) = decide (a < b) := by
    unfold Magnitude.less
    dsimp only
    rw [Scaled.compare_ofInt]
    by_cases h : a < b
    · simp [compare_lt_iff_lt.2 h, h]
    · rw [decide_eq_false h, beq_eq_false_iff_ne, ne_eq, compare_lt_iff_lt]
      exact h
  rw [← hless]
  rfl

end WideColumn
