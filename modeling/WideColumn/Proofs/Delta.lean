import WideColumn.Proofs.TwoRuns

/-!
# What is bound for a counter

A counter is not set but changed. The operand of an integer is the column, a sign and a placeholder
for the magnitude, so that the sign stands in the text and not in what is bound; a list is bound as
one value that holds the magnitudes (`Value.unsigned`), and its text has no place for their signs
(`Operand.Counts`).

An operand keeps the sign of its value when an integer is changed by exactly that integer and what
is bound is an integer of 64 bits, and when any other value is bound as it is
(`Operand.KeepsSign`). The check of the value admits the least integer of 64 bits, whose magnitude
is one too many, and the integers of a list one by one. These are the two ways in which an operand
fails to keep its sign (`Table.operand_keepsSign_iff`).
-/

namespace WideColumn

/-! ## Signs and magnitudes -/

/-- The greatest integer of 64 bits with a sign; the least is one below its negation. -/
def Counter.greatest : Nat := 9223372036854775807

namespace Value

mutual

/-- The value without the signs of its integers: an integer is its magnitude, and so are the
elements of lists. -/
def unsigned : Value → Value
  | .int n => .int n.natAbs
  | .list xs => .list (unsignedAll xs)
  | x => x

/-- The elements without the signs of their integers. -/
def unsignedAll : List Value → List Value
  | [] => []
  | x :: xs => unsigned x :: unsignedAll xs

end

/-- The second value is an element of the first, or of a list in it. -/
inductive Lists : Value → Value → Prop
  | element {xs y} (h : y ∈ xs) : Lists (.list xs) y
  | within {xs x y} (hx : x ∈ xs) (h : Lists x y) : Lists (.list xs) y

theorem unsignedAll_eq_map (xs : List Value) : unsignedAll xs = xs.map unsigned := by
  induction xs with
  | nil => rfl
  | cons x xs ih => rw [unsignedAll, ih, List.map_cons]

theorem lists_list_iff {xs : List Value} {y : Value} :
    Lists (.list xs) y ↔ ∃ x ∈ xs, x = y ∨ x.Lists y := by
  constructor
  · intro h
    cases h with
    | element h => exact ⟨y, h, .inl rfl⟩
    | within hx h => exact ⟨_, hx, .inr h⟩
  · rintro ⟨x, hx, rfl | h⟩
    · exact .element hx
    · exact .within hx h

/-- A value keeps its signs when it is no negative integer and lists none. -/
theorem unsigned_eq_iff (x : Value) :
    x.unsigned = x ↔ (∀ n, x = .int n → 0 ≤ n) ∧ ∀ n, x.Lists (.int n) → 0 ≤ n := by
  induction x using Value.inductionOnLists with
  | single x hx =>
    have hnone : ∀ n, x.Lists (.int n) → 0 ≤ n := by
      intro n h
      cases h with
      | element => exact absurd rfl (hx _)
      | within => exact absurd rfl (hx _)
    rw [and_iff_left hnone]
    cases x with
    | int m =>
      simp only [unsigned, Value.int.injEq, forall_eq']
      omega
    | list xs => exact absurd rfl (hx xs)
    | _ => exact iff_of_true rfl nofun
  | list xs ih =>
    have hall : Value.unsigned (.list xs) = .list xs ↔ ∀ x ∈ xs, x.unsigned = x := by
      rw [unsigned, unsignedAll_eq_map, Value.list.injEq]
      constructor
      · intro h x hx
        exact List.map_inj_left.1 (h.trans (List.map_id xs).symm) x hx
      · intro h
        exact (List.map_congr_left h).trans (List.map_id xs)
    rw [hall, and_iff_right (fun n h => nomatch h)]
    constructor
    · intro h n hn
      obtain ⟨x, hx, rfl | hlists⟩ := lists_list_iff.1 hn
      · exact ((ih _ hx).1 (h _ hx)).1 n rfl
      · exact ((ih x hx).1 (h x hx)).2 n hlists
    · intro h x hx
      refine (ih x hx).2 ⟨?_, fun n hn => h n (.within hx hn)⟩
      rintro n rfl
      exact h n (.element hx)

end Value

/-! ## Operands of counters -/

/-- The integers that a counter accepts. -/
theorem ColumnType.accepts_counter_int {n : Int} :
    ColumnType.accepts .counter (.int n) = true ↔
      -(Counter.greatest + 1 : Int) ≤ n ∧ n ≤ Counter.greatest := by
  have hlow : -((Nat.pow 2 (64 - 1) : Nat) : Int) = -(Counter.greatest + 1 : Int) := by decide
  have hhigh : ((Nat.pow 2 (64 - 1) : Nat) : Int) - 1 = Counter.greatest := by decide
  simp only [accepts, isWord, isIntegerWithin, hlow, hhigh, Bool.and_eq_true, decide_eq_true_eq]

namespace Operand

/-- What stands for a value of a counter: the change by an integer, any other value without the
signs of the integers in it, or a function of the store. -/
inductive Counts (v : FieldValidator) : Value → Operand → Prop
  | change {n column} (haccepts : ColumnType.accepts .counter (.int n) = true)
    (hcolumn : Identifier.ofText v.field.name = .ok column) :
    Counts v (.int n) (.change column (decide (n < 0)) n.natAbs)
  | bound {x} (hx : ∀ n, x ≠ .int n) : Counts v x (.bound x.unsigned)
  | storeFunction {x f} (hx : x.storeFunction? = some f) : Counts v x (.storeFunction f.display)

/-- The value that an operand adds or binds, with its sign. -/
def signed? : Operand → Option Value
  | bound y => some y
  | change _ negative p => some (.int (if negative then -p else p))
  | storeFunction _ => none

variable {v : FieldValidator} {x : Value} {o : Operand} {s s' : Session}

/-- What is bound for a value of a counter has no signs. -/
theorem Counts.unsigned {y : Value} (h : o.Counts v x) (hy : o.value? = some y) :
    y = x.unsigned := by
  cases h with
  | change => exact (Option.some.inj hy).symm
  | bound => exact (Option.some.inj hy).symm
  | storeFunction => cases hy

theorem ofSingle_counts (hcounter : v.type = .counter)
    (h : (ofSingle v x false).perform s = (.ok o, s')) : o.Counts v x := by
  have hinteger : x.isNullLike = false → x.storeFunction? = none →
      (v.check x).perform s = (.ok (), s') → ColumnType.accepts .counter x = true :=
    fun hblank hf hcheck => hcounter ▸ FieldValidator.accepts_of_check hblank hf hcheck
  cases ofSingle_ok h with
  | blank hblank =>
    cases x with
    | null | unset | missing => exact .bound nofun
    | _ => cases hblank
  | storeFunction hf => exact .storeFunction hf
  | checked hblank hf hcheck hplain =>
    -- what passes the check is an integer, and an integer makes a change
    obtain ⟨n, hn⟩ := ColumnType.eq_int_of_accepts (hinteger hblank hf hcheck)
    rcases hplain with hplain | hplain | hplain
    · exact absurd hn (hplain n)
    · exact absurd hcounter hplain
    · cases hplain
  | change hx _ _ hcheck hcolumn =>
    subst hx
    exact .change (hinteger rfl rfl hcheck) hcolumn

/-- The operand of a value for a counter, outside relations. -/
theorem compile_counts (hcounter : v.type = .counter)
    (h : (compile v false x).perform s = (.ok o, s')) : o.Counts v x := by
  refine compile_induction (motive := fun x o _ _ => o.Counts v x)
    (fun h => ofSingle_counts hcounter h) (fun {xs ys _ _} _ heach ih => ?_) h
  have hunsigned : List.Forall₂ (· = ·) (xs.map Value.unsigned) ys :=
    List.forall₂_map_left_iff.2 (heach.forall₂ fun x hx _ _ _ _ h hy =>
      ((ih x hx h).unsigned hy).symm)
  rw [List.forall₂_eq_eq_eq, ← Value.unsignedAll_eq_map] at hunsigned
  have hbound : Operand.Counts v (.list xs) (.bound (Value.unsigned (.list xs))) :=
    .bound nofun
  rwa [Value.unsigned, hunsigned] at hbound

/-! ## Signs that are kept -/

/-- The operand keeps the sign of the value: an integer is the change of the column by exactly that
integer, through a placeholder for a magnitude of 64 bits, and what is added or bound for any value
is the value. -/
structure KeepsSign (name : String) (x : Value) (o : Operand) : Prop where
  exact : ∀ n, x = .int n → ∃ (column : Identifier) (negative : Bool) (p : Nat),
    Identifier.ofText name = .ok column ∧
    o.render = column.quoted ++ (if negative then " - ?" else " + ?") ∧ o.params = [.int p] ∧
    (if negative then -p else p : Int) = n ∧ p ≤ Counter.greatest
  signed : ∀ y, o.signed? = some y → y = x

/-- The magnitude of an integer under its sign is the integer. -/
theorem signed_natAbs (n : Int) : (if decide (n < 0) then -n.natAbs else n.natAbs : Int) = n := by
  by_cases hn : n < 0
  · rw [if_pos (by simpa using hn)]
    omega
  · rw [if_neg (by simpa using hn)]
    omega

theorem Counts.keepsSign_iff (h : o.Counts v x) :
    o.KeepsSign v.field.name x ↔
      x ≠ .int (-(Counter.greatest + 1)) ∧ ∀ n, x.Lists (.int n) → 0 ≤ n := by
  cases h with
  | @change n column haccepts hcolumn =>
    obtain ⟨hlow, hhigh⟩ := ColumnType.accepts_counter_int.1 haccepts
    rw [and_iff_left (fun m h => nomatch h)]
    constructor
    · rintro ⟨hexact, -⟩ hn
      obtain ⟨_, _, p, -, -, hp, -, hle⟩ := hexact n rfl
      have hmagnitude : (n.natAbs : Int) = p := Value.int.inj (List.singleton_inj.1 hp)
      rw [Value.int.inj hn] at hmagnitude
      omega
    · intro hn
      -- the least counter is the only one whose magnitude is no counter
      have hleast : n ≠ -(Counter.greatest + 1) := fun h => hn (congrArg Value.int h)
      refine ⟨?_, ?_⟩
      · rintro _ ⟨⟩
        exact ⟨column, decide (n < 0), n.natAbs, hcolumn, rfl, rfl, signed_natAbs n, by omega⟩
      · rintro _ ⟨⟩
        exact congrArg Value.int (signed_natAbs n)
  | bound hx =>
    have hunsigned := x.unsigned_eq_iff
    rw [and_iff_right (fun n h => absurd h (hx n))] at hunsigned
    rw [and_iff_right (hx _), ← hunsigned]
    constructor
    · rintro ⟨-, hsigned⟩
      exact hsigned _ rfl
    · intro h
      refine ⟨fun n hn => absurd hn (hx n), ?_⟩
      rintro _ ⟨⟩
      exact h
  | storeFunction hf =>
    cases x with
    | map es => exact iff_of_true ⟨nofun, nofun⟩ ⟨nofun, nofun⟩
    | _ => cases hf

end Operand

namespace Table

/-- The operand of an accepted value of a counter keeps its sign exactly when the value is not the
least integer of 64 bits and lists no negative integer. -/
theorem operand_keepsSign_iff {t : Table} {name : String} {v : FieldValidator} {x : Value}
    {o : Operand} {s s' : Session} (hv : t.validator? name = some v) (hcounter : v.type = .counter)
    (h : (t.operand name x).perform s = (.ok o, s')) :
    o.KeepsSign name x ↔
      x ≠ .int (-(Counter.greatest + 1)) ∧ ∀ n, x.Lists (.int n) → 0 ≤ n := by
  obtain ⟨w, s₁, hw, h⟩ := Action.bind_ok h
  obtain rfl : w = v := Option.some.inj ((validator_ok hw).symm.trans hv)
  rw [← name_of_validator? hv]
  exact (Operand.compile_counts hcounter h).keepsSign_iff

/-! ### Visits of a page -/

/-- Pages with the number of their visits, as a definition. -/
def visitsDefinition : Value := .map [
  (.text "fields", .map [(.text "id", .text "int"), (.text "visits", .text "counter")]),
  (.text "key", .list [.text "id"])]

/-- The table that `visitsDefinition` declares. -/
def visitedPages : Table where
  name := "pages"
  fields := [{ name := "id", type := "int" }, { name := "visits", type := "counter" }]
  partitionKey := ["id"]
  clusteringKey := []
  clusteringOrder := []
  indexes := []
  customIndexes := []
  views := []
  defaultTtl := none
  hooks := []

/-- The validator of the visits. -/
def visitsValidator : FieldValidator :=
  ⟨{ name := "visits", type := "counter" }, .counter, by decide⟩

theorem validator_visits : visitedPages.validator? "visits" = some visitsValidator := by
  with_unfolding_all rfl

/-- The number of visits goes down by the greatest magnitude. -/
theorem keepsSign_greatest : visitedPages.validator? "visits" = some visitsValidator ∧
    visitsValidator.type = .counter ∧
    ∃ o s', (visitedPages.operand "visits" (.int (-Counter.greatest))).perform {} = (.ok o, s') ∧
      o.render = "\"visits\" - ?" ∧ o.KeepsSign "visits" (.int (-Counter.greatest)) := by
  obtain ⟨o, s', ho, htext⟩ := Action.ok_of_read (g := Operand.render)
    (a := visitedPages.operand "visits" (.int (-Counter.greatest))) (s := {})
    (y := "\"visits\" - ?") (by decide +kernel)
  refine ⟨validator_visits, rfl, o, s', ho, htext, ?_⟩
  refine (operand_keepsSign_iff validator_visits rfl ho).2 ⟨?_, nofun⟩
  intro h
  exact absurd (Value.int.inj h) (by decide)

/-- The least integer of 64 bits is changed by a magnitude that is none, and in a list the sign is
lost. -/
theorem not_keepsSign_least :
    Table.ofDefinition (.text "pages") visitsDefinition = .ok visitedPages ∧
    (∃ o s',
      (visitedPages.operand "visits" (.int (-9223372036854775808))).perform {} = (.ok o, s') ∧
      o.params = [.int 9223372036854775808] ∧
      ¬ o.KeepsSign "visits" (.int (-9223372036854775808))) ∧
    ∃ o s', (visitedPages.operand "visits" (.list [.int (-5)])).perform {} = (.ok o, s') ∧
      o.params = [.list [.int 5]] ∧ ¬ o.KeepsSign "visits" (.list [.int (-5)]) := by
  obtain ⟨o, s₁, ho, hparams⟩ := Action.ok_of_read (g := Operand.params)
    (a := visitedPages.operand "visits" (.int (-9223372036854775808))) (s := {})
    (y := [.int 9223372036854775808]) (by with_unfolding_all rfl)
  obtain ⟨o', s₂, ho', hread⟩ := Action.ok_of_read (g := fun o => (o.params, o.signed?))
    (a := visitedPages.operand "visits" (.list [.int (-5)])) (s := {})
    (y := ([.list [.int 5]], some (.list [.int 5]))) (by with_unfolding_all rfl)
  obtain ⟨hparams', hsigned'⟩ := Prod.mk.inj hread
  refine ⟨by with_unfolding_all rfl, ⟨o, s₁, ho, hparams, ?_⟩, o', s₂, ho', hparams', ?_⟩
  · rintro ⟨hexact, -⟩
    obtain ⟨_, _, p, -, -, hp, -, hle⟩ := hexact _ rfl
    have hmagnitude : (9223372036854775808 : Int) = p :=
      Value.int.inj (List.singleton_inj.1 (hparams.symm.trans hp))
    unfold Counter.greatest at hle
    omega
  · rintro ⟨-, hsigned⟩
    have helement := List.singleton_inj.1 (Value.list.inj (hsigned _ hsigned'))
    exact absurd (Value.int.inj helement) (by decide)

end Table

end WideColumn
