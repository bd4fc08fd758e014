import Mathlib.Data.List.Forall2
import WideColumn.Coercion

/-!
# Computations that end well

A computation without effects that ends well has parts that end well: what is read off a sequence,
a map over a list, or a check that collects faults.
-/

namespace WideColumn

variable {ε α β : Type}

/-- A sequence of computations without effects that ends well has parts that end well. -/
theorem of_bind_ok {x : Except ε α} {f : α → Except ε β} {b : β}
    (h : x >>= f = .ok b) : ∃ a, x = .ok a ∧ f a = .ok b := by
  cases x with
  | error e => cases h
  | ok a => exact ⟨a, rfl, h⟩

/-- A computation of which a value is read off ends well with the value. -/
theorem of_toOption_eq_some {x : Except ε α} {a : α} (h : x.toOption = some a) : x = .ok a := by
  cases x with
  | error e => cases h
  | ok b => exact congrArg Except.ok (Option.some.inj h)

/-- What is read off the value of an outcome tells that there is a value. -/
theorem of_toOption_map_eq_some {x : Except ε α} {g : α → β} {b : β}
    (h : x.toOption.map g = some b) : ∃ a, x = .ok a ∧ g a = b := by
  obtain ⟨a, ha, hg⟩ := Option.map_eq_some_iff.1 h
  exact ⟨a, of_toOption_eq_some ha, hg⟩

/-- A value made from the value of a computation that ends well. -/
theorem of_map_ok {g : α → β} {x : Except ε α} {b : β}
    (h : g <$> x = .ok b) : ∃ a, x = .ok a ∧ g a = b := by
  cases x with
  | error e => cases h
  | ok a => exact ⟨a, rfl, Except.ok.inj h⟩

/-- A list of computations that end well ends with their values, one for each element. -/
theorem forall₂_of_mapM {f : α → Except ε β} : ∀ {xs : List α} {ys : List β},
    xs.mapM f = .ok ys → List.Forall₂ (fun x y => f x = .ok y) xs ys
  | [], _, h => by
    cases h
    exact .nil
  | x :: xs, ys, h => by
    rw [List.mapM_cons] at h
    obtain ⟨y, hy, h⟩ := of_bind_ok h
    obtain ⟨ys', hys', h⟩ := of_bind_ok h
    cases h
    exact .cons hy (forall₂_of_mapM hys')

/-- A list that is read as a whole is read element by element. -/
theorem forall₂_of_mapM_some {f : α → Option β} : ∀ {xs : List α} {ys : List β},
    xs.mapM f = some ys → List.Forall₂ (fun x y => f x = some y) xs ys
  | [], _, h => by
    cases h
    exact .nil
  | x :: xs, ys, h => by
    rw [List.mapM_cons] at h
    obtain ⟨y, hy, h⟩ := Option.bind_eq_some_iff.1 h
    obtain ⟨ys', hys', h⟩ := Option.bind_eq_some_iff.1 h
    cases h
    exact .cons hy (forall₂_of_mapM_some hys')

/-- What is on the right of a pointwise relation has something on the left. -/
theorem forall₂_mem_right {r : α → β → Prop} : ∀ {xs : List α} {ys : List β},
    List.Forall₂ r xs ys → ∀ {y : β}, y ∈ ys → ∃ x ∈ xs, r x y
  | _, _, .cons (a := x) hxy h, y, hy => by
    rcases List.mem_cons.1 hy with rfl | hy
    · exact ⟨x, List.mem_cons_self, hxy⟩
    · obtain ⟨x', hx', hr⟩ := forall₂_mem_right h hy
      exact ⟨x', List.mem_cons_of_mem x hx', hr⟩

/-- What is on the left of a pointwise relation stands against something on the right. -/
theorem exists_mem_zip {r : α → β → Prop} {x : α} : ∀ {xs : List α} {ys : List β},
    List.Forall₂ r xs ys → x ∈ xs → ∃ y, (x, y) ∈ xs.zip ys ∧ r x y
  | _, _, .cons (b := y) hxy h, hx => by
    rcases List.mem_cons.1 hx with rfl | hx
    · exact ⟨y, List.mem_cons_self, hxy⟩
    · obtain ⟨y', hzip, hr⟩ := exists_mem_zip h hx
      exact ⟨y', List.mem_cons_of_mem _ hzip, hr⟩

/-- Elements that stand against the same elements in between stand against each other. -/
theorem forall₂_comp {γ : Type} {r : α → β → Prop} {s : β → γ → Prop} :
    ∀ {xs : List α} {ys : List β} {zs : List γ}, List.Forall₂ r xs ys → List.Forall₂ s ys zs →
      List.Forall₂ (fun x z => ∃ y, r x y ∧ s y z) xs zs
  | _, _, _, .nil, .nil => .nil
  | _, _, _, .cons (b := y) hxy h, .cons hyz h' => .cons ⟨y, hxy, hyz⟩ (forall₂_comp h h')

/-- What is read off the right of a pointwise relation is the left when each element is. -/
theorem map_eq_of_forall₂ {r : α → β → Prop} {g : β → α} (hg : ∀ x y, r x y → g y = x)
    {xs : List α} {ys : List β} (h : List.Forall₂ r xs ys) : ys.map g = xs := by
  induction h with
  | nil => rfl
  | cons hxy _ ih => rw [List.map_cons, hg _ _ hxy, ih]

/-- When there is a value for each element, the list of computations ends well with them. -/
theorem mapM_of_forall₂ {f : α → Except ε β} : ∀ {xs : List α} {ys : List β},
    List.Forall₂ (fun x y => f x = .ok y) xs ys → xs.mapM f = .ok ys
  | _, _, .nil => rfl
  | _, _, .cons hy h => by
    rw [List.mapM_cons, hy, mapM_of_forall₂ h]
    rfl

/-- When each computation ends well, so does the list of them. -/
theorem mapM_ok {f : α → Except ε β} : ∀ {xs : List α}, (∀ x ∈ xs, ∃ y, f x = .ok y) →
    ∃ ys, xs.mapM f = .ok ys
  | [], _ => ⟨[], rfl⟩
  | x :: xs, h => by
    obtain ⟨y, hy⟩ := h x List.mem_cons_self
    obtain ⟨ys, hys⟩ := mapM_ok fun x' hx' => h x' (List.mem_cons_of_mem x hx')
    refine ⟨y :: ys, ?_⟩
    rw [List.mapM_cons, hy, hys]
    rfl

/-! ## Checks -/

namespace Checked

variable {α β : Type}

theorem andThen_ok {c : Checked α} {f : α → Checked β} {b : β} (h : c.andThen f = .ok b) :
    ∃ a, c = .ok a ∧ f a = .ok b := by
  cases c with
  | ok a => exact ⟨a, rfl, h⟩
  | bad issues => cases h

theorem map2_ok {γ : Type} {f : α → β → γ} {x : Checked α} {y : Checked β} {c : γ}
    (h : map2 f x y = .ok c) : ∃ a b, x = .ok a ∧ y = .ok b ∧ f a b = c := by
  cases x with
  | bad issues => cases y <;> cases h
  | ok a =>
    cases y with
    | bad issues => cases h
    | ok b =>
      cases h
      exact ⟨a, b, rfl, rfl, rfl⟩

theorem seq_ok {f : Checked (α → β)} {x : Checked α} {b : β} (h : f <*> x = .ok b) :
    ∃ g a, f = .ok g ∧ x = .ok a ∧ g a = b := map2_ok h

theorem map_ok {g : α → β} {x : Checked α} {b : β} (h : g <$> x = .ok b) :
    ∃ a, x = .ok a ∧ g a = b := by
  obtain ⟨g', a, hg, hx, rfl⟩ := map2_ok (f := fun g a => g a) (x := .ok g) h
  cases hg
  exact ⟨a, hx, rfl⟩

/-- A list of checks that end well ends with their values, one for each element. -/
theorem forall₂_of_all {check : α → Checked β} : ∀ {xs : List α} {ys : List β},
    all check xs = .ok ys → List.Forall₂ (fun x y => check x = .ok y) xs ys
  | [], _, h => by
    cases h
    exact .nil
  | x :: xs, ys, h => by
    obtain ⟨y, ys', hy, hys', rfl⟩ := map2_ok h
    exact .cons hy (forall₂_of_all hys')

theorem under_ok {step : String} {c : Checked α} {a : α} (h : c.under step = .ok a) :
    c = .ok a := by
  cases c with
  | ok b => exact h
  | bad issues => cases h

end Checked

end WideColumn
