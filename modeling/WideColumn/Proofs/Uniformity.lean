import WideColumn.Proofs.Functions

/-!
# Compiling alike in all sessions

A session holds the numbers of counting functions, and nothing else in it bears on what a validator
or a message answers. An action is uniform when it ends in the same way in all sessions. One that
calls functions only is uniform when none of them counts, and so is compiling a query where no rule
of the table counts (`Query.relations_uniform`).
-/

namespace WideColumn

namespace Action

variable {α β : Type} {a : Action α}

/-- The action ends in the same way, well or not, in whatever session it runs. -/
def Uniform (a : Action α) : Prop := ∀ s u, (a.perform s).1 = (a.perform u).1

namespace Uniform

theorem pure (x : α) : Uniform (Pure.pure x : Action α) := fun _ _ => rfl

theorem throw (f : Failure) : Uniform (MonadExcept.throw f : Action α) := fun _ _ => rfl

/-- A sequence is uniform when its parts are, the second one after each value that the first one
ends with. -/
theorem after {f : α → Action β} (h : Uniform a)
    (hf : ∀ x s s', a.perform s = (.ok x, s') → Uniform (f x)) : Uniform (a >>= f) := by
  intro s u
  have hfirst := h s u
  rw [perform_bind, perform_bind]
  rcases hs : a.perform s with ⟨_ | x, s₁⟩ <;> rcases hu : a.perform u with ⟨_ | y, u₁⟩ <;>
    rw [hs, hu] at hfirst <;> cases hfirst
  · rfl
  · exact hf x s s₁ hs s₁ u₁

theorem bind {f : α → Action β} (h : Uniform a) (hf : ∀ x, Uniform (f x)) : Uniform (a >>= f) :=
  h.after fun x _ _ _ => hf x

theorem refuse (r : Refusal) : Uniform (Action.refuse r : Action α) := fun _ _ => rfl

theorem fail (f : Failure) : Uniform (Action.fail f : Action α) := by
  cases f with
  | refusal r => exact refuse r
  | _ => exact throw _

theorem lift (r : Except Failure α) : Uniform (Action.lift r) := by
  cases r with
  | ok x => exact pure x
  | error f => exact fail f

end Uniform

end Action

open WideColumn.Action (Uniform)

/-! ## Functions and rules that do not count -/

/-- The value is a function that counts its calls. -/
def Value.isCounting : Value → Bool
  | .function .count _ _ => true
  | _ => false

/-- Neither the validator nor the message counts its calls. -/
def Rule.CountsNothing (r : Rule) : Prop :=
  ∀ g, r.validator = some g ∨ r.message = some g → g.isCounting = false

/-- No validator of a field and no message counts its calls. -/
def Table.CountsNothing (t : Table) : Prop := ∀ f ∈ t.fields, ∀ r ∈ f.rules, r.CountsNothing

namespace Callback

theorem call_uniform {behaviour : Behaviour} (hcount : behaviour ≠ .count) (fixed : List Value)
    (site : Nat) (arguments : List Value) : Uniform (call behaviour fixed site arguments) := by
  by_cases hnotes : behaviour = .observe ∨ behaviour = .hook
  · -- a call that is noted has the same answer whatever was noted before
    rcases hnotes with rfl | rfl <;> exact fun _ _ => rfl
  · obtain ⟨hobserve, hhook⟩ := not_or.1 hnotes
    obtain ⟨r, hr⟩ := call_lifts hcount hobserve hhook fixed site arguments
    exact hr ▸ .lift r

/-- A function that does not count answers alike in all sessions. -/
theorem apply_uniform {g : Value} (h : g.isCounting = false) (arguments : List Value) :
    Uniform (apply g arguments) := by
  cases g with
  | function behaviour fixed site =>
    exact call_uniform (by rintro rfl; cases h) fixed site arguments
  | _ => exact .throw _

end Callback

/-! ## Queries -/

theorem Action.CallsOnly.uniform {α : Type} {p : Value → List Value → Prop} {a : Action α}
    (ha : a.CallsOnly p) (hp : ∀ g xs, p g xs → g.isCounting = false) : Uniform a := by
  induction ha with
  | lift r => exact .lift r
  | apply h => exact Callback.apply_uniform (hp _ _ h) _
  | after _ _ ih ihf => exact ih.after ihf

/-- Where no rule of the table counts, a query compiles alike in all sessions. -/
theorem Query.relations_uniform {t : Table} (ht : t.CountsNothing) (query : List (Value × Value)) :
    Uniform (relations t query) :=
  (relations_calls t query).uniform fun g _ ⟨f, hf, ⟨r, hr, hfunction⟩, _⟩ =>
    ht f hf r hr g hfunction

end WideColumn
