import WideColumn.Session

/-!
# What an action does to a session

`Action.perform` of the pieces that actions are put together from. Each equation says what the
session is afterwards, so that a proof about an action rewrites with them and never unfolds the
monad. `Action.bind_ok` reads a sequence that ended well backwards: both parts ended well.
-/

namespace WideColumn

/-- The second part of a sequence starts where the first one ended well. -/
theorem run_bind {σ α β : Type} (a : ExceptT Failure (StateM σ) α)
    (f : α → ExceptT Failure (StateM σ) β) (s : σ) :
    (a >>= f).run s = match a.run s with
      | (.ok x, s₁) => (f x).run s₁
      | (.error e, s₁) => (.error e, s₁) := by
  simp only [ExceptT.run, Bind.bind, ExceptT.bind, ExceptT.mk, StateT.bind]
  rcases a s with ⟨_ | x, s₁⟩ <;> rfl

namespace Action

variable {α β : Type}

/-! ## Sequences -/

@[simp] theorem perform_pure (a : α) (s : Session) :
    (pure a : Action α).perform s = (.ok a, s) := rfl

@[simp] theorem perform_throw (f : Failure) (s : Session) :
    (throw f : Action α).perform s = (.error f, s) := rfl

theorem perform_bind (a : Action α) (f : α → Action β) (s : Session) :
    (a >>= f).perform s = match a.perform s with
      | (.ok x, s₁) => (f x).perform s₁
      | (.error e, s₁) => (.error e, s₁) := by
  unfold perform
  rw [run_bind]
  rcases a.run s with ⟨_ | x, s₁⟩ <;> rfl

/-- A value made from the value of an action. -/
theorem perform_map (g : α → β) (a : Action α) (s : Session) :
    (g <$> a).perform s = ((a.perform s).1.map g, (a.perform s).2) := by
  change (a >>= fun x => pure (g x)).perform s = _
  rw [perform_bind]
  rcases a.perform s with ⟨_ | x, s₁⟩ <;> rfl

/-- A sequence that ends well has parts that end well. -/
theorem bind_ok {a : Action α} {f : α → Action β} {s s' : Session} {y : β}
    (h : (a >>= f).perform s = (.ok y, s')) :
    ∃ x s₁, a.perform s = (.ok x, s₁) ∧ (f x).perform s₁ = (.ok y, s') := by
  rw [perform_bind] at h
  rcases ha : a.perform s with ⟨_ | x, s₁⟩
  · rw [ha] at h
    cases h
  · rw [ha] at h
    exact ⟨x, s₁, rfl, h⟩

/-- A value made from the value of an action that ends well. -/
theorem map_ok {g : α → β} {a : Action α} {s s' : Session} {y : β}
    (h : (g <$> a).perform s = (.ok y, s')) : ∃ x, a.perform s = (.ok x, s') ∧ g x = y := by
  rw [perform_map] at h
  rcases ha : a.perform s with ⟨_ | x, s₁⟩ <;> rw [ha] at h
  · cases h
  · cases h
    exact ⟨x, rfl, rfl⟩

/-! ## Effects -/

@[simp] theorem perform_modify (g : Session → Session) (s : Session) :
    (modify g : Action Unit).perform s = (.ok (), g s) := rfl

@[simp] theorem perform_modifyGet (g : Session → α × Session) (s : Session) :
    (modifyGet g : Action α).perform s = (.ok (g s).1, (g s).2) := rfl

@[simp] theorem perform_get (s : Session) : (get : Action Session).perform s = (.ok s, s) := rfl

@[simp] theorem perform_set (s s' : Session) :
    (set s' : Action PUnit).perform s = (.ok ⟨⟩, s') := rfl

/-- An attempt ends well and tells how the action ended. -/
@[simp] theorem perform_attempt (a : Action α) (s : Session) :
    (attempt a).perform s = (.ok (a.perform s).1, (a.perform s).2) := by
  have h : (attempt a).perform s =
      match (Except.ok <$> a : Action (Except Failure α)).perform s with
      | (.ok x, s₁) => (.ok x, s₁)
      | (.error e, s₁) => (.ok (.error e), s₁) := by
    unfold attempt perform ExceptT.run
    simp only [tryCatch, tryCatchThe, MonadExceptOf.tryCatch, ExceptT.tryCatch, ExceptT.mk, bind,
      StateT.bind]
    rcases (Except.ok <$> a : Action (Except Failure α)) s with ⟨_ | x, s₁⟩ <;> rfl
  rw [h, perform_map]
  rcases a.perform s with ⟨_ | x, s₁⟩ <;> rfl

/-- A refusal never ends well. -/
theorem refuse_ne_ok {r : Refusal} {s s' : Session} {a : α} :
    (refuse r : Action α).perform s ≠ (.ok a, s') := by
  intro h
  cases h

/-- A computation without effects ends well with its value, in the session it started in. -/
theorem lift_ok {r : Except Failure α} {s s' : Session} {a : α}
    (h : (lift r).perform s = (.ok a, s')) : r = .ok a ∧ s' = s := by
  rcases r with e | x
  · cases e <;> cases h
  · cases h
    exact ⟨rfl, rfl⟩

/-- What is read off the value that an action ends with tells that the action ends well. -/
theorem ok_of_read {g : α → β} {a : Action α} {s : Session} {y : β}
    (h : (a.perform s).1.toOption.map g = some y) :
    ∃ x s', a.perform s = (.ok x, s') ∧ g x = y := by
  rcases ha : a.perform s with ⟨_ | x, s'⟩ <;> rw [ha] at h
  · cases h
  · exact ⟨x, s', rfl, Option.some.inj h⟩

end Action

end WideColumn
