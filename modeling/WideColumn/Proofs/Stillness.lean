import Mathlib.Order.Defs.Unbundled
import WideColumn.Model.Execution
import WideColumn.Proofs.Functions

/-!
# Putting statements together is still

`Within` says of a computation that the state it ends in, well or not, is related to the one it
started in; over a preorder it goes through sequences, attempts and loops. An action is still when
it stays within `Session.Still`: nothing is sent, nobody is asked and no live table is looked up,
while the journal, the spans and what functions count and note may grow. Functions are still
whatever they answer, and so is what calls functions only, such as putting a statement together
(`Operation.compile_still`).

Two relations are finer: within `Session.Unnoted` functions note nothing, and within `Session.Aside`
they count nothing either, so that only the journal and the spans grow. What checks a value writes
lines and calls functions with arguments, and it stays within every preorder that admits the two
(`Session.AdmitsCalls`).
-/

namespace WideColumn

/-- From one session to the other nothing was sent, asked or looked up. -/
structure Session.Still (s s' : Session) : Prop where
  store : s'.store = s.store
  answers : s'.answers = s.answers
  asked : s'.asked = s.asked
  consulted : s'.consulted = s.consulted

instance : IsPreorder Session Session.Still where
  refl _ := ⟨rfl, rfl, rfl, rfl⟩
  trans _ _ _ h h' := ⟨h'.store.trans h.store, h'.answers.trans h.answers, h'.asked.trans h.asked,
    h'.consulted.trans h.consulted⟩

/-! ## Where computations end -/

/-- The computation ends, well or not, in a state that is related to the one it started in. -/
def Within {σ α : Type} (R : σ → σ → Prop) (a : ExceptT Failure (StateM σ) α) : Prop :=
  ∀ s, R s (a.run s).2

namespace Within

section

variable {σ α β : Type} {R : σ → σ → Prop} {a : ExceptT Failure (StateM σ) α}

theorem imp {R' : σ → σ → Prop} (h : Within R a) (himp : ∀ s s', R s s' → R' s s') :
    Within R' a := fun s => himp _ _ (h s)

theorem of_run (h : Within R a) {x : Except Failure α} {s s' : σ} (hrun : a.run s = (x, s')) :
    R s s' := by
  have hend := h s
  rwa [hrun] at hend

variable [IsPreorder σ R]

theorem pure (x : α) : Within R (Pure.pure x) := fun s => refl s

theorem throw (f : Failure) : Within R (MonadExcept.throw f : ExceptT Failure (StateM σ) α) :=
  fun s => refl s

/-- A sequence stays within the relation when its parts do, the second one after each value that the
first one ends with. -/
theorem after {f : α → ExceptT Failure (StateM σ) β} (h : Within R a)
    (hf : ∀ x s s', a.run s = (.ok x, s') → Within R (f x)) : Within R (a >>= f) := by
  intro s
  have hfirst := h s
  rw [run_bind]
  rcases ha : a.run s with ⟨e | x, s₁⟩ <;> rw [ha] at hfirst
  · exact hfirst
  · exact trans_of R hfirst (hf x s s₁ ha s₁)

theorem bind {f : α → ExceptT Failure (StateM σ) β} (h : Within R a)
    (hf : ∀ x, Within R (f x)) : Within R (a >>= f) :=
  h.after fun x _ _ _ => hf x

theorem map {g : α → β} (h : Within R a) : Within R (g <$> a) := h.bind fun _ => pure _

theorem mapM {f : α → ExceptT Failure (StateM σ) β} : ∀ {xs : List α},
    (∀ x ∈ xs, Within R (f x)) → Within R (xs.mapM f)
  | [], _ => pure []
  | x :: xs, h => by
    rw [List.mapM_cons]
    refine (h x List.mem_cons_self).bind fun y => ?_
    exact (mapM fun x' hx' => h x' (List.mem_cons_of_mem x hx')).bind fun _ => pure _

end

/-! ## Still actions -/

variable {α : Type} {R : Session → Session → Prop} {a : Action α}

/-- An attempt ends where the action ends. -/
theorem attempt (h : Within R a) : Within R (Action.attempt a) := by
  intro s
  have hend : ((Action.attempt a).perform s).2 = (a.perform s).2 := by
    rw [Action.perform_attempt]
  exact hend ▸ h s

end Within

/-! ## Lines in the journal -/

/-- Writing lines into the journal stays within the relation. -/
def Session.Admits (R : Session → Session → Prop) : Prop :=
  ∀ (s : Session) (journal : List Entry), R s { s with journal }

namespace Within

variable {α : Type} {R : Session → Session → Prop}

theorem refuse_of (h : Session.Admits R) (r : Refusal) :
    Within R (Action.refuse r : Action α) := fun s => h s _

variable [IsPreorder Session R]

theorem fail_of (h : Session.Admits R) (f : Failure) : Within R (Action.fail f : Action α) := by
  cases f with
  | refusal r => exact refuse_of h r
  | _ => exact .throw _

/-- Coming to the value of a computation without effects leaves a line in the journal at most. -/
theorem lift_of (h : Session.Admits R) (r : Except Failure α) : Within R (Action.lift r) := by
  cases r with
  | ok x => exact .pure x
  | error f => exact fail_of h f

end Within

/-- The action sends nothing, asks nobody and looks no live table up. -/
abbrev Action.IsStill {α : Type} (a : Action α) : Prop := Within Session.Still a

theorem Session.admits_still : Session.Admits Session.Still := fun _ _ => ⟨rfl, rfl, rfl, rfl⟩

namespace Within

variable {α : Type}

theorem note (level : Int) (logger message : String) (extras : List (String × Value))
    (exception : Option String) :
    (Action.note level logger message extras exception).IsStill :=
  fun s => Session.admits_still s _

theorem refuse (r : Refusal) : (Action.refuse r : Action α).IsStill :=
  refuse_of Session.admits_still r

theorem lift (r : Except Failure α) : (Action.lift r).IsStill := lift_of Session.admits_still r

end Within

/-! ## Functions -/

/-- From one session to the other nothing was noted either. -/
structure Session.Unnoted (s s' : Session) : Prop extends s.Still s' where
  events : s'.events = s.events

instance : IsPreorder Session Session.Unnoted where
  refl s := ⟨refl s, rfl⟩
  trans _ _ _ h h' := ⟨trans_of Session.Still h.toStill h'.toStill, h'.events.trans h.events⟩

theorem Session.admits_unnoted : Session.Admits Session.Unnoted :=
  fun _ _ => ⟨⟨rfl, rfl, rfl, rfl⟩, rfl⟩

/-- From one session to the other no function was called either: lines were written into the
journal, and spans were opened or marked. -/
structure Session.Aside (s s' : Session) : Prop extends s.Unnoted s' where
  counts : s'.counts = s.counts

instance : IsPreorder Session Session.Aside where
  refl s := ⟨refl s, rfl⟩
  trans _ _ _ h h' := ⟨trans_of Session.Unnoted h.toUnnoted h'.toUnnoted, h'.counts.trans h.counts⟩

theorem Session.admits_aside : Session.Admits Session.Aside :=
  fun _ _ => ⟨⟨⟨rfl, rfl, rfl, rfl⟩, rfl⟩, rfl⟩

namespace Callback

open Session (Unnoted)

theorem nextCount_unnoted (site : Nat) (start : Int) : Within Unnoted (nextCount site start) :=
  fun _ => ⟨⟨rfl, rfl, rfl, rfl⟩, rfl⟩

/-- The calls that a function notes when it is called. -/
def noted (f : Value) (arguments : List Value) : List Event :=
  match f with
  | .function .observe _ _ => [⟨"validator", [arguments[0]?.getD Value.null]⟩]
  | .function .hook fixed _ => [⟨(fixed[0]?.getD Value.null).display, arguments⟩]
  | _ => []

/-- A function that notes no calls. -/
theorem call_unnoted {behaviour : Behaviour} (hobserve : behaviour ≠ .observe)
    (hhook : behaviour ≠ .hook) (fixed : List Value) (site : Nat) (arguments : List Value) :
    Within Unnoted (call behaviour fixed site arguments) := by
  by_cases hcount : behaviour = .count
  · subst hcount
    unfold call
    dsimp only
    split
    · exact .map (nextCount_unnoted _ _)
    · exact .throw _
  · obtain ⟨r, hr⟩ := call_lifts hcount hobserve hhook fixed site arguments
    exact hr ▸ .lift_of Session.admits_unnoted r

/-- A function that is called notes its calls, sends nothing and asks nobody, however it ends. -/
theorem apply_noted (f : Value) (arguments : List Value) (s : Session) :
    Unnoted { s with events := noted f arguments ++ s.events } ((apply f arguments).perform s).2 := by
  cases f with
  | function behaviour fixed site =>
    cases behaviour with
    | observe | hook => exact ⟨⟨rfl, rfl, rfl, rfl⟩, rfl⟩
    | _ => exact call_unnoted (by simp) (by simp) fixed site arguments s
  | _ => exact refl s

theorem apply_still (f : Value) (arguments : List Value) : (apply f arguments).IsStill := by
  intro s
  have h := (apply_noted f arguments s).toStill
  exact ⟨h.store, h.answers, h.asked, h.consulted⟩

end Callback

theorem PreparedCall.run_still (c : PreparedCall) : c.run.IsStill := Callback.apply_still _ _

/-! ## Calling functions only -/

theorem Action.CallsOnly.within {α : Type} {R : Session → Session → Prop} [IsPreorder Session R]
    {p : Value → List Value → Prop} {a : Action α} (ha : a.CallsOnly p) (hjournal : Session.Admits R)
    (hcalls : ∀ f xs, p f xs → Within R (Callback.apply f xs)) : Within R a := by
  induction ha with
  | lift r => exact .lift_of hjournal r
  | apply h => exact hcalls _ _ h
  | after _ _ ih ihf => exact ih.after ihf

/-- Calling functions with arguments and writing lines into the journal stay within the relation. -/
structure Session.AdmitsCalls (R : Session → Session → Prop) : Prop where
  journal : Session.Admits R
  called : ∀ f x xs, Within R (Callback.apply f (x :: xs))

/-- What makes no default calls every function with arguments. -/
theorem Session.AdmitsCalls.within {α : Type} {R : Session → Session → Prop}
    [IsPreorder Session R] (h : Session.AdmitsCalls R) {p : Value → List Value → Prop}
    {a : Action α} (ha : a.CallsOnly p) (hp : ∀ f xs, p f xs → xs ≠ []) : Within R a := by
  refine ha.within h.journal fun f xs hcall => ?_
  obtain ⟨x, xs, rfl⟩ := List.exists_cons_of_ne_nil (hp f xs hcall)
  exact h.called f x xs

/-- Putting the statement of an operation together sends nothing, asks nobody and looks no live
table up. -/
theorem Operation.compile_still (t : Table) (o : Operation) : (o.compile t).IsStill :=
  (o.compile_calls t).within Session.admits_still fun f xs _ => Callback.apply_still f xs

end WideColumn
