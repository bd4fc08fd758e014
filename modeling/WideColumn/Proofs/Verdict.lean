import WideColumn.Proofs.Vetting

/-!
# What the check of a value says

A field accepts a value when the value passes every check of its chain. The verdict of the chain is
`FieldValidator.validate`, and what acts on it is `FieldValidator.check`, which asks for the wording
of the complaint and takes a null for the absence of one. The two agree when no complaint is worded
as null (`FieldValidator.raises_iff_fails`).

What becomes an operand is told by the chain too (`FieldValidator.Admits`). A list for a column that
holds no lists is not one value but many, and each of them goes through the chain by itself.
-/

namespace WideColumn

/-! ## Chains -/

/-- The value passes the checks one after another, each in the session that the one before it
leaves. -/
inductive PassesAll (x : Value) : Session → List (Check × Complaint) → Session → Prop
  | nil {s} : PassesAll x s [] s
  | cons {s s₁ s' c complaint rest} (h : (Check.passes c x).perform s = (.ok true, s₁))
      (hrest : PassesAll x s₁ rest s') : PassesAll x s ((c, complaint) :: rest) s'

/-- The value passes the checks up to one that it fails, and the complaint is that of this one. -/
inductive FailsFirst (x : Value) :
    Session → List (Check × Complaint) → Complaint → Session → Prop
  | here {s s' c complaint rest} (h : (Check.passes c x).perform s = (.ok false, s')) :
      FailsFirst x s ((c, complaint) :: rest) complaint s'
  | later {s s₁ s' c complaint first rest}
      (h : (Check.passes c x).perform s = (.ok true, s₁)) (hrest : FailsFirst x s₁ rest first s') :
      FailsFirst x s ((c, complaint) :: rest) first s'

section Chain

variable {x : Value} {checks : List (Check × Complaint)} {complaint : Complaint} {s s' : Session}

/-- There is no complaint when the value passes every check. -/
theorem firstComplaint_none_iff :
    (firstComplaint x checks).perform s = (.ok none, s') ↔ PassesAll x s checks s' := by
  induction checks generalizing s with
  | nil =>
    constructor
    · intro h
      cases h
      exact .nil
    · rintro ⟨⟩
      rfl
  | cons entry rest ih =>
    obtain ⟨c, worded⟩ := entry
    constructor
    · intro h
      obtain ⟨passed, s₁, hpassed, h⟩ := Action.bind_ok h
      cases passed with
      | true => exact .cons hpassed (ih.1 h)
      | false => cases h
    · intro h
      cases h with
      | cons hpassed hrest =>
        rw [firstComplaint, Action.perform_bind, hpassed]
        exact ih.2 hrest

/-- A complaint is that of the first check that the value fails. -/
theorem firstComplaint_some_iff : (firstComplaint x checks).perform s = (.ok (some complaint), s') ↔
    FailsFirst x s checks complaint s' := by
  induction checks generalizing s with
  | nil =>
    constructor
    · intro h
      cases h
    · rintro ⟨⟩
  | cons entry rest ih =>
    obtain ⟨c, worded⟩ := entry
    constructor
    · intro h
      obtain ⟨passed, s₁, hpassed, h⟩ := Action.bind_ok h
      cases passed with
      | true => exact .later hpassed (ih.1 h)
      | false =>
        cases h
        exact .here hpassed
    · intro h
      cases h with
      | here hfailed =>
        rw [firstComplaint, Action.perform_bind, hfailed]
        rfl
      | later hpassed hrest =>
        rw [firstComplaint, Action.perform_bind, hpassed]
        exact ih.2 hrest

end Chain

/-! ## Verdicts -/

namespace FieldValidator

variable {v : FieldValidator} {x : Value} {complaint : Complaint} {s s₁ s' : Session}

theorem validate_none_iff : (v.validate x).perform s = (.ok none, s') ↔
    if exempts x then s' = s else PassesAll x s v.chain s' := by
  unfold validate
  split
  · rw [Action.perform_pure, Prod.mk.injEq, eq_comm (a := s)]
    exact and_iff_right rfl
  · exact firstComplaint_none_iff

theorem validate_some_iff : (v.validate x).perform s = (.ok (some complaint), s') ↔
    exempts x = false ∧ FailsFirst x s v.chain complaint s' := by
  unfold validate
  split
  · rename_i hexempt
    rw [hexempt]
    exact iff_of_false nofun (fun h => nomatch h.1)
  · rename_i hchecked
    rw [and_iff_right (Bool.eq_false_iff.2 hchecked)]
    exact firstComplaint_some_iff

/-- The validators that are run for the value answer, and so does what words the complaint. -/
def Answers (v : FieldValidator) (x : Value) (s : Session) : Prop :=
  ∃ complaint? s₁, (v.validate x).perform s = (.ok complaint?, s₁) ∧
    ∀ complaint, complaint? = some complaint →
      ∃ message s', (complaint.word x v.field).perform s₁ = (.ok message, s')

/-- The validation of the value ends with a complaint. -/
def Fails (v : FieldValidator) (x : Value) (s : Session) : Prop :=
  ∃ complaint s', (v.validate x).perform s = (.ok (some complaint), s')

/-- The check of the value raises. -/
def Raises (v : FieldValidator) (x : Value) (s : Session) : Prop :=
  ∃ f s', (v.check x).perform s = (.error f, s')

/-- The complaint about the value is worded as null. -/
def Silences (v : FieldValidator) (x : Value) (s : Session) : Prop :=
  ∃ complaint s₁ s', (v.validate x).perform s = (.ok (some complaint), s₁) ∧
    (complaint.word x v.field).perform s₁ = (.ok .null, s')

/-- What is raised for a value refuses it and names the field. -/
def Refuses (v : FieldValidator) (x : Value) (f : Failure) : Prop :=
  ∃ message, message ≠ .null ∧
    f = .refusal (Refusal.invalidValue message (.text v.field.name) x)

/-- A value fails when it is none that needs no check and fails a check of the chain. -/
theorem fails_iff :
    v.Fails x s ↔ exempts x = false ∧ ∃ complaint s', FailsFirst x s v.chain complaint s' := by
  simp only [Fails, validate_some_iff, exists_and_left]

theorem check_of_valid (h : (v.validate x).perform s = (.ok none, s')) :
    (v.check x).perform s = (.ok (), s') := by
  rw [check, messageFor, Action.perform_bind, Action.perform_bind, h]
  rfl

theorem check_of_silent (h : (v.validate x).perform s = (.ok (some complaint), s₁))
    (hword : (complaint.word x v.field).perform s₁ = (.ok .null, s')) :
    (v.check x).perform s = (.ok (), s') := by
  rw [check, messageFor, Action.perform_bind, Action.perform_bind, h]
  dsimp only
  rw [hword]
  rfl

theorem check_of_worded {message : Value}
    (h : (v.validate x).perform s = (.ok (some complaint), s₁))
    (hword : (complaint.word x v.field).perform s₁ = (.ok message, s')) (hnull : message ≠ .null) :
    ∃ f s'', (v.check x).perform s = (.error f, s'') ∧ v.Refuses x f := by
  rw [check, messageFor, Action.perform_bind, Action.perform_bind, h]
  dsimp only
  rw [hword]
  cases message with
  | null => exact absurd rfl hnull
  | _ => exact ⟨_, _, rfl, _, hnull, rfl⟩

/-- A check that answers goes one of three ways. -/
theorem Answers.cases (h : v.Answers x s) :
    (∃ s', (v.validate x).perform s = (.ok none, s') ∧ (v.check x).perform s = (.ok (), s')) ∨
    (v.Fails x s ∧ v.Silences x s ∧ ∃ s', (v.check x).perform s = (.ok (), s')) ∨
    (v.Fails x s ∧ ¬ v.Silences x s ∧
      ∃ f s', (v.check x).perform s = (.error f, s') ∧ v.Refuses x f) := by
  obtain ⟨complaint?, s₁, hvalidate, hanswers⟩ := h
  cases complaint? with
  | none => exact .inl ⟨s₁, hvalidate, check_of_valid hvalidate⟩
  | some complaint =>
    have hfails : v.Fails x s := ⟨complaint, s₁, hvalidate⟩
    obtain ⟨message, s₂, hword⟩ := hanswers complaint rfl
    by_cases hnull : message = .null
    · subst hnull
      exact .inr (.inl ⟨hfails, ⟨complaint, s₁, s₂, hvalidate, hword⟩, s₂,
        check_of_silent hvalidate hword⟩)
    · refine .inr (.inr ⟨hfails, ?_, check_of_worded hvalidate hword hnull⟩)
      rintro ⟨complaint', s₃, s₄, hvalidate', hword'⟩
      cases hvalidate.symm.trans hvalidate'
      cases hword.symm.trans hword'
      exact hnull rfl

end FieldValidator

/-! ## What becomes an operand -/

namespace FieldValidator

mutual

/-- The value goes through the chain, as a whole or, a list for a column that holds none, element by
element, and nothing in it fails a check but what is silenced. -/
inductive Admits (v : FieldValidator) : Session → Value → Session → Prop
  | passes {s x s'} (h : (v.validate x).perform s = (.ok none, s')) : Admits v s x s'
  | silenced {s x s₁ s' complaint} (h : (v.validate x).perform s = (.ok (some complaint), s₁))
      (hword : (complaint.word x v.field).perform s₁ = (.ok .null, s')) : Admits v s x s'
  | each {s xs s'} (hscalar : v.type.needsArgument = false) (h : AdmitsEach v s xs s') :
      Admits v s (.list xs) s'

/-- The values go through the chain one after another. -/
inductive AdmitsEach (v : FieldValidator) : Session → List Value → Session → Prop
  | nil {s} : AdmitsEach v s [] s
  | cons {s x s₁ xs s'} (h : Admits v s x s₁) (hrest : AdmitsEach v s₁ xs s') :
      AdmitsEach v s (x :: xs) s'

end

variable {v : FieldValidator} {x : Value} {s s' : Session}

/-- A value that fails is let through when it is silenced, or as a list. -/
theorem Admits.of_fails (h : v.Admits s x s') (hfails : v.Fails x s) : v.Silences x s ∨
    ∃ xs, x = .list xs ∧ v.type.needsArgument = false ∧ v.AdmitsEach s xs s' := by
  cases h with
  | passes hvalid =>
    obtain ⟨_, _, hfails⟩ := hfails
    cases hvalid.symm.trans hfails
  | silenced hvalidate hword => exact .inl ⟨_, _, _, hvalidate, hword⟩
  | each hscalar h => exact .inr ⟨_, rfl, hscalar, h⟩

theorem admits_of_check (h : (v.check x).perform s = (.ok (), s')) : v.Admits s x s' := by
  rcases check_cases h with hvalid | ⟨complaint, s₁, hvalidate, hword⟩
  · exact .passes hvalid
  · exact .silenced hvalidate hword

end FieldValidator

namespace Operand

variable {v : FieldValidator} {relation : Bool} {x : Value} {o : Operand} {s s' : Session}

theorem ofSingle_admits (h : (ofSingle v x relation).perform s = (.ok o, s')) :
    v.Admits s x s' := by
  cases ofSingle_ok h with
  | blank hblank hs =>
    subst hs
    exact .passes (FieldValidator.validate_none_iff.2 (by simp [FieldValidator.exempts, hblank]))
  | storeFunction hf hs =>
    subst hs
    exact .passes (FieldValidator.validate_none_iff.2
      (by simp [FieldValidator.exempts, Value.isStoreFunction, hf]))
  | checked _ _ hcheck => exact FieldValidator.admits_of_check hcheck
  | change _ _ _ hcheck => exact FieldValidator.admits_of_check hcheck

/-- The elements of a list that becomes an operand go through the chain one after another. -/
theorem BindsEach.admits {xs ys : List Value} (h : BindsEach v relation s xs ys s')
    (hall : ∀ x ∈ xs, ∀ {o : Operand} {s s' : Session},
      (compile v relation x).perform s = (.ok o, s') → v.Admits s x s') : v.AdmitsEach s xs s' := by
  induction h with
  | nil => exact .nil
  | cons h _ _ ih =>
    obtain ⟨hhead, hrest⟩ := List.forall_mem_cons.1 hall
    exact .cons (hhead h) (ih hrest)

/-- A value that becomes an operand goes through the chain. -/
theorem compile_admits (h : (compile v relation x).perform s = (.ok o, s')) : v.Admits s x s' :=
  compile_induction (motive := fun x _ s s' => v.Admits s x s') ofSingle_admits
    (fun hscalar heach ih => .each hscalar (heach.admits ih)) h

end Operand

namespace FieldValidator

variable {v : FieldValidator} {x : Value} {s : Session}

/-- Where the validators and the wording answer, the check raises for the values that fail the chain
exactly when no complaint is worded as null. What it raises refuses the value, and a value that
fails the chain becomes an operand only when it is silenced, or element by element. -/
theorem raises_iff_fails (hanswers : v.Answers x s) :
    ((v.Raises x s ↔ v.Fails x s) ↔ ¬ v.Silences x s) ∧
      (v.Fails x s ↔ exempts x = false ∧ ∃ complaint s', FailsFirst x s v.chain complaint s') ∧
      (∀ f s', (v.check x).perform s = (.error f, s') → v.Refuses x f) ∧
      ∀ relation o s', (Operand.compile v relation x).perform s = (.ok o, s') → v.Fails x s →
        v.Silences x s ∨
          ∃ xs, x = .list xs ∧ v.type.needsArgument = false ∧ v.AdmitsEach s xs s' := by
  refine ⟨?_, fails_iff, ?_, fun _ _ _ h => (Operand.compile_admits h).of_fails⟩
  · rcases hanswers.cases with ⟨s', hvalid, hcheck⟩ | ⟨hfails, hsilent, s', hcheck⟩ |
      ⟨hfails, hworded, f, s', hcheck, -⟩
    · have hraises : ¬ v.Raises x s := fun ⟨_, _, h⟩ => nomatch hcheck.symm.trans h
      have hpasses : ¬ v.Fails x s := fun ⟨_, _, h⟩ => nomatch hvalid.symm.trans h
      refine iff_of_true (iff_of_false hraises hpasses) ?_
      rintro ⟨_, _, _, h, -⟩
      cases hvalid.symm.trans h
    · refine iff_of_false (fun h => ?_) (not_not_intro hsilent)
      obtain ⟨_, _, hraises⟩ := h.2 hfails
      cases hcheck.symm.trans hraises
    · exact iff_of_true (iff_of_true ⟨f, s', hcheck⟩ hfails) hworded
  · intro f s' h
    rcases hanswers.cases with ⟨s₁, -, hcheck⟩ | ⟨-, -, s₁, hcheck⟩ | ⟨-, -, f', s₁, hcheck, hf⟩
    · cases hcheck.symm.trans h
    · cases hcheck.symm.trans h
    · cases hcheck.symm.trans h
      exact hf

/-! ### Ages that are positive -/

/-- The definition of an age that is positive, with the wording of the complaint. -/
def ageDefinition (message : Value) : Value := .map [
  (.text "type", .text "int"),
  (.text "rule", .map [(.text "validator", .function .above [.int 0] 0),
    (.text "message", message)])]

/-- The field that `ageDefinition` declares. -/
def positiveAge (message : Value) : Field where
  name := "age"
  type := "int"
  rules := [{ validator := some (.function .above [.int 0] 0), message := some message }]

/-- The validator of an age that is positive. -/
def ageValidator (message : Value) : FieldValidator :=
  ⟨positiveAge message, .int, (by decide : ColumnType.ofName? "int" = some .int)⟩

/-- Words every complaint as null. -/
def silent : Value := .function .constant [.null] 1

/-- An age that is not positive is refused in the words of the rule. -/
theorem raises_positive : (ageValidator (.text "must be positive")).Answers (.int (-1)) {} ∧
    (ageValidator (.text "must be positive")).Fails (.int (-1)) {} ∧
    (ageValidator (.text "must be positive")).Raises (.int (-1)) {} := by
  have hvalidate : ((ageValidator (.text "must be positive")).validate (.int (-1))).perform {} =
      (.ok (some (.fixed "must be positive")), {}) := by with_unfolding_all rfl
  have hanswers : (ageValidator (.text "must be positive")).Answers (.int (-1)) {} := by
    refine ⟨_, _, hvalidate, ?_⟩
    rintro _ ⟨⟩
    exact ⟨_, _, rfl⟩
  have hworded : ¬ (ageValidator (.text "must be positive")).Silences (.int (-1)) {} := by
    rintro ⟨_, _, _, hvalidate', hword⟩
    cases hvalidate.symm.trans hvalidate'
    cases hword
  have hfails : (ageValidator (.text "must be positive")).Fails (.int (-1)) {} := ⟨_, _, hvalidate⟩
  exact ⟨hanswers, hfails, ((raises_iff_fails hanswers).1.2 hworded).2 hfails⟩

/-- An age that is not positive is bound when the complaint about it is worded as null. -/
theorem not_raises_positive :
    Definition.parseField (.text "age") (ageDefinition silent) "people" =
      .ok (positiveAge silent) ∧
    (ageValidator silent).Answers (.int (-1)) {} ∧ (ageValidator silent).Fails (.int (-1)) {} ∧
    ¬ (ageValidator silent).Raises (.int (-1)) {} ∧
    ∃ s', (Operand.compile (ageValidator silent) false (.int (-1))).perform {} =
      (.ok (.bound (.int (-1))), s') := by
  have hvalidate : ((ageValidator silent).validate (.int (-1))).perform {} =
      (.ok (some (.made silent)), {}) := by with_unfolding_all rfl
  have hword : (Complaint.word (.made silent) (.int (-1)) (positiveAge silent)).perform {} =
      (.ok .null, {}) := by rfl
  have hanswers : (ageValidator silent).Answers (.int (-1)) {} := by
    refine ⟨_, _, hvalidate, ?_⟩
    rintro _ ⟨⟩
    exact ⟨_, _, hword⟩
  refine ⟨by with_unfolding_all rfl, hanswers, ⟨_, _, hvalidate⟩, ?_, {}, by with_unfolding_all rfl⟩
  rintro ⟨f, s', hraises⟩
  cases (check_of_silent hvalidate hword).symm.trans hraises

end FieldValidator

end WideColumn
