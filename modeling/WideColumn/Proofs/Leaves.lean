import WideColumn.Proofs.Delta
import WideColumn.Proofs.Verdict

/-!
# Lists are bound leaf by leaf

A list for a column that holds no lists is one operand, whatever lists are nested in it. The values
in it that are no lists are its leaves (`Value.leaves`). They are checked from left to right, each
in the session that the one before it leaves: a leaf is let through (`FieldValidator.Lets`) or
stopped (`FieldValidator.Stops`), and the first one that is stopped decides how the list fails. A
list whose leaves are let through is bound as it is, the change of a counter with the magnitudes of
its leaves (`Table.operand_leafwise`).

A leaf that changes a counter is stopped, although it passes its check, when the column has a name
that cannot be quoted: such a column cannot stand in a statement (`Table.not_bound_unquotable`).
-/

namespace WideColumn

namespace Value

mutual

/-- The values in nested lists that are no lists, from left to right. -/
def leaves : Value → List Value
  | .list xs => leavesAll xs
  | x => [x]

/-- The leaves of the elements, from left to right. -/
def leavesAll : List Value → List Value
  | [] => []
  | x :: xs => leaves x ++ leavesAll xs

end

theorem leaves_single {x : Value} (hx : ∀ xs, x ≠ .list xs) : x.leaves = [x] := by
  cases x with
  | list xs => exact absurd rfl (hx xs)
  | _ => rfl

end Value

/-! ## Leaves -/

namespace FieldValidator

/-- The value changes a counter, and is not compared with it. -/
def Changes (v : FieldValidator) (relation : Bool) : Prop := v.type = .counter ∧ relation = false

instance (v : FieldValidator) (relation : Bool) : Decidable (v.Changes relation) :=
  inferInstanceAs (Decidable (_ ∧ _))

/-- What is bound for a value: its magnitudes where it changes a counter, else the value. -/
def boundFor (v : FieldValidator) (relation : Bool) (x : Value) : Value :=
  if v.Changes relation then x.unsigned else x

/-- A function of the store among the leaves of a list. -/
def functionListed (v : FieldValidator) : Refusal :=
  Refusal.invalidQuery (.text ("Database functions cannot be bound inside a value list for field '"
    ++ v.field.name ++ "'")) (.text v.field.name)

/-- A leaf is let through: it is null-like, or it is no function of the store and passes the check
of the field. Where it changes a counter the name of the column can be quoted. -/
inductive Lets (v : FieldValidator) (relation : Bool) (x : Value) : Session → Session → Prop
  | blank {s} (h : x.isNullLike = true) : Lets v relation x s s
  | checked {s s'} (hblank : x.isNullLike = false) (hvalue : x.isStoreFunction = false)
      (h : (v.check x).perform s = (.ok (), s'))
      (hnamed : v.Changes relation → ∃ column, Identifier.ofText v.field.name = .ok column) :
      Lets v relation x s s'

/-- A leaf is stopped: it is a function of the store, its check raises, or it changes a counter
whose name cannot be quoted. -/
inductive Stops (v : FieldValidator) (relation : Bool) (x : Value) :
    Session → Failure → Session → Prop
  | function {s s'} (hvalue : x.isStoreFunction = true)
      (h : (Action.noteRefusal v.functionListed).perform s = (.ok (), s')) :
      Stops v relation x s (.refusal v.functionListed) s'
  | raises {s f s'} (hblank : x.isNullLike = false) (hvalue : x.isStoreFunction = false)
      (h : (v.check x).perform s = (.error f, s')) : Stops v relation x s f s'
  | unnamed {s s₁ f s'} (hblank : x.isNullLike = false) (hvalue : x.isStoreFunction = false)
      (h : (v.check x).perform s = (.ok (), s₁)) (hchanges : v.Changes relation)
      (hname : (Identifier.accept v.field.name).perform s₁ = (.error f, s')) :
      Stops v relation x s f s'

/-- The leaves are let through one after another. -/
inductive LetsAll (v : FieldValidator) (relation : Bool) : Session → List Value → Session → Prop
  | nil {s} : LetsAll v relation s [] s
  | cons {s s₁ s' x xs} (h : v.Lets relation x s s₁) (hrest : LetsAll v relation s₁ xs s') :
      LetsAll v relation s (x :: xs) s'

/-- The leaves are let through up to one that is stopped. -/
inductive StopsFirst (v : FieldValidator) (relation : Bool) :
    Session → List Value → Failure → Session → Prop
  | here {s x xs f s'} (h : v.Stops relation x s f s') : StopsFirst v relation s (x :: xs) f s'
  | later {s s₁ x xs f s'} (h : v.Lets relation x s s₁)
      (hrest : StopsFirst v relation s₁ xs f s') : StopsFirst v relation s (x :: xs) f s'

variable {v : FieldValidator} {relation : Bool} {s s' : Session} {f : Failure}

theorem boundFor_list (xs : List Value) :
    v.boundFor relation (.list xs) = .list (xs.map (v.boundFor relation)) := by
  unfold boundFor
  split
  · rw [Value.unsigned, Value.unsignedAll_eq_map]
  · rw [List.map_id']

theorem boundFor_blank {x : Value} (h : x.isNullLike = true) : v.boundFor relation x = x := by
  unfold boundFor
  cases x with
  | null | unset | missing => exact ite_self _
  | _ => cases h

/-- A leaf is let through or stopped. -/
theorem lets_or_stops (v : FieldValidator) (relation : Bool) (x : Value) (s : Session) :
    (∃ s', v.Lets relation x s s') ∨ ∃ f s', v.Stops relation x s f s' := by
  cases hvalue : x.isStoreFunction with
  | true => exact .inr ⟨_, _, .function hvalue rfl⟩
  | false =>
    cases hblank : x.isNullLike with
    | true => exact .inl ⟨s, .blank hblank⟩
    | false =>
      rcases hcheck : (v.check x).perform s with ⟨f | _, s₁⟩
      · exact .inr ⟨f, s₁, .raises hblank hvalue hcheck⟩
      · by_cases hchanges : v.Changes relation
        · rcases hname : (Identifier.accept v.field.name).perform s₁ with ⟨f | column, s₂⟩
          · exact .inr ⟨f, s₂, .unnamed hblank hvalue hcheck hchanges hname⟩
          · exact .inl ⟨s₁, .checked hblank hvalue hcheck fun _ =>
              ⟨column, (Action.lift_ok hname).1⟩⟩
        · exact .inl ⟨s₁, .checked hblank hvalue hcheck fun h => absurd h hchanges⟩

/-- All leaves are let through, or there is a first one that is stopped. -/
theorem letsAll_or_stopsFirst (v : FieldValidator) (relation : Bool) (xs : List Value)
    (s : Session) :
    (∃ s', v.LetsAll relation s xs s') ∨ ∃ f s', v.StopsFirst relation s xs f s' := by
  induction xs generalizing s with
  | nil => exact .inl ⟨s, .nil⟩
  | cons x xs ih =>
    rcases lets_or_stops v relation x s with ⟨s₁, hlets⟩ | ⟨f, s₁, hstops⟩
    · rcases ih s₁ with ⟨s₂, hall⟩ | ⟨f, s₂, hfirst⟩
      · exact .inl ⟨s₂, .cons hlets hall⟩
      · exact .inr ⟨f, s₂, .later hlets hfirst⟩
    · exact .inr ⟨f, s₁, .here hstops⟩

theorem LetsAll.of_append {xs ys : List Value} (h : v.LetsAll relation s (xs ++ ys) s') :
    ∃ s₁, v.LetsAll relation s xs s₁ ∧ v.LetsAll relation s₁ ys s' := by
  induction xs generalizing s with
  | nil => exact ⟨s, .nil, h⟩
  | cons x xs ih =>
    cases h with
    | cons hlets hrest =>
      obtain ⟨s₁, hxs, hys⟩ := ih hrest
      exact ⟨s₁, .cons hlets hxs, hys⟩

theorem StopsFirst.of_append {xs ys : List Value} (h : v.StopsFirst relation s (xs ++ ys) f s') :
    v.StopsFirst relation s xs f s' ∨
      ∃ s₁, v.LetsAll relation s xs s₁ ∧ v.StopsFirst relation s₁ ys f s' := by
  induction xs generalizing s with
  | nil => exact .inr ⟨s, .nil, h⟩
  | cons x xs ih =>
    cases h with
    | here hstops => exact .inl (.here hstops)
    | later hlets hrest =>
      rcases ih hrest with hfirst | ⟨s₁, hxs, hys⟩
      · exact .inl (.later hlets hfirst)
      · exact .inr ⟨s₁, .cons hlets hxs, hys⟩

end FieldValidator

/-! ## Elements -/

namespace Operand

open FieldValidator

variable {v : FieldValidator} {relation : Bool} {x : Value} {s s' : Session} {f : Failure}

/-- What is bound for an element of a list. -/
def element (v : FieldValidator) (relation : Bool) (x : Value) : Action Value := do
  match (← compile v relation x).value? with
  | none => Action.refuse v.functionListed
  | some y => pure y

theorem compileAll_cons (x : Value) (xs : List Value) : compileAll v relation (x :: xs) = (do
    let y ← element v relation x
    return y :: (← compileAll v relation xs)) := by
  rw [compileAll, element, bind_assoc]
  refine bind_congr fun o => ?_
  cases o.value? <;> rfl

/-- A value that is checked is bound, by its magnitude where it changes a counter. -/
theorem ofChecked_bound {s₁ : Session} (hblank : x.isNullLike = false)
    (hvalue : x.isStoreFunction = false) (h : (v.check x).perform s = (.ok (), s₁))
    (hnamed : v.Changes relation → ∃ column, Identifier.ofText v.field.name = .ok column) :
    ∃ o, (ofChecked v x relation).perform s₁ = (.ok o, s₁) ∧
      o.value? = some (v.boundFor relation x) := by
  have hfunction : x.storeFunction? = none := by simpa [Value.isStoreFunction] using hvalue
  unfold ofChecked boundFor
  by_cases hchanges : v.Changes relation
  · obtain ⟨column, hcolumn⟩ := hnamed hchanges
    have haccepts := FieldValidator.accepts_of_check hblank hfunction h
    rw [hchanges.1] at haccepts
    obtain ⟨n, rfl⟩ := ColumnType.eq_int_of_accepts haccepts
    have hcounter : v.type = .counter ∧ (!relation) = true := ⟨hchanges.1, by simp [hchanges.2]⟩
    dsimp only
    rw [if_pos hcounter, if_pos hchanges, Identifier.accept, hcolumn]
    exact ⟨_, rfl, rfl⟩
  · have hplain : ¬ (v.type = .counter ∧ (!relation) = true) := fun h =>
      hchanges ⟨h.1, by simpa using h.2⟩
    rw [if_neg hchanges]
    split
    · rw [if_neg hplain]
      exact ⟨_, rfl, rfl⟩
    · exact ⟨_, rfl, rfl⟩

/-- A leaf that is let through is bound. -/
theorem element_of_lets (hx : ∀ xs, x ≠ .list xs) (h : v.Lets relation x s s') :
    (element v relation x).perform s = (.ok (v.boundFor relation x), s') := by
  rw [element, compile_single hx, ofSingle]
  cases h with
  | blank hblank =>
    rw [if_pos hblank, boundFor_blank hblank]
    rfl
  | checked hblank hvalue hcheck hnamed =>
    have hfunction : x.storeFunction? = none := by simpa [Value.isStoreFunction] using hvalue
    obtain ⟨o, ho, hbound⟩ := ofChecked_bound hblank hvalue hcheck hnamed
    rw [if_neg (by simp [hblank]), hfunction]
    simp only [Action.perform_bind, hcheck, ho, hbound]
    rfl

/-- A leaf that is stopped fails the list. -/
theorem element_of_stops (hx : ∀ xs, x ≠ .list xs) (h : v.Stops relation x s f s') :
    (element v relation x).perform s = (.error f, s') := by
  rw [element, compile_single hx, ofSingle]
  cases h with
  | function hvalue h =>
    obtain ⟨g, hfunction⟩ := Option.isSome_iff_exists.1 hvalue
    have hblank : x.isNullLike = false := by
      cases x <;> first | rfl | cases hfunction
    rw [if_neg (by simp [hblank]), hfunction]
    change (Action.refuse v.functionListed : Action Value).perform s = _
    rw [Action.refuse, Action.perform_bind, h]
    rfl
  | raises hblank hvalue h =>
    have hfunction : x.storeFunction? = none := by simpa [Value.isStoreFunction] using hvalue
    rw [if_neg (by simp [hblank]), hfunction]
    simp only [Action.perform_bind, h]
  | unnamed hblank hvalue h hchanges hname =>
    have hfunction : x.storeFunction? = none := by simpa [Value.isStoreFunction] using hvalue
    have haccepts := FieldValidator.accepts_of_check hblank hfunction h
    rw [hchanges.1] at haccepts
    obtain ⟨n, rfl⟩ := ColumnType.eq_int_of_accepts haccepts
    have hcounter : v.type = .counter ∧ (!relation) = true := ⟨hchanges.1, by simp [hchanges.2]⟩
    rw [if_neg (by simp [hblank]), hfunction]
    simp only [Action.perform_bind, h, ofChecked, if_pos hcounter, hname]

/-- A list among the elements is bound with what is bound for its elements. -/
theorem element_list (hscalar : v.type.needsArgument = false) (xs : List Value) :
    element v relation (.list xs) = (do return .list (← compileAll v relation xs)) := by
  rw [element, compile, if_neg (by simp [hscalar]), map_eq_pure_bind, bind_assoc]
  rfl

section

variable {xs : List Value}

/-- The elements are bound when what holds of their leaves lets each of them through. -/
theorem compileAll_of_letsAll (hall : ∀ x ∈ xs, ∀ {s s'}, v.LetsAll relation s x.leaves s' →
      (element v relation x).perform s = (.ok (v.boundFor relation x), s'))
    (h : v.LetsAll relation s (Value.leavesAll xs) s') :
    (compileAll v relation xs).perform s = (.ok (xs.map (v.boundFor relation)), s') := by
  induction xs generalizing s with
  | nil =>
    cases h
    rfl
  | cons x xs ih =>
    obtain ⟨hx, hxs⟩ := List.forall_mem_cons.1 hall
    obtain ⟨s₁, hfirst, hrest⟩ := FieldValidator.LetsAll.of_append h
    rw [compileAll_cons]
    simp only [Action.perform_bind, hx hfirst, ih hxs hrest]
    rfl

/-- The elements fail with the leaf that is stopped first. -/
theorem compileAll_of_stopsFirst (hlets : ∀ x ∈ xs, ∀ {s s'}, v.LetsAll relation s x.leaves s' →
      (element v relation x).perform s = (.ok (v.boundFor relation x), s'))
    (hstops : ∀ x ∈ xs, ∀ {s s'}, v.StopsFirst relation s x.leaves f s' →
      (element v relation x).perform s = (.error f, s'))
    (h : v.StopsFirst relation s (Value.leavesAll xs) f s') :
    (compileAll v relation xs).perform s = (.error f, s') := by
  induction xs generalizing s with
  | nil => cases h
  | cons x xs ih =>
    obtain ⟨hx, hxs⟩ := List.forall_mem_cons.1 hlets
    obtain ⟨hx', hxs'⟩ := List.forall_mem_cons.1 hstops
    rw [compileAll_cons]
    rcases FieldValidator.StopsFirst.of_append h with hfirst | ⟨s₁, hfirst, hrest⟩
    · simp only [Action.perform_bind, hx' hfirst]
    · simp only [Action.perform_bind, hx hfirst, ih hxs hxs' hrest]

end

/-- An element whose leaves are let through is bound. -/
theorem element_of_letsAll (hscalar : v.type.needsArgument = false) (x : Value) {s s' : Session}
    (h : v.LetsAll relation s x.leaves s') :
    (element v relation x).perform s = (.ok (v.boundFor relation x), s') := by
  induction x using Value.inductionOnLists generalizing s s' with
  | single x hx =>
    rw [Value.leaves_single hx] at h
    cases h with
    | cons hlets hrest =>
      cases hrest
      exact element_of_lets hx hlets
  | list xs ih =>
    rw [element_list hscalar, Action.perform_bind, compileAll_of_letsAll ih h, boundFor_list]
    rfl

/-- An element fails with the leaf that is stopped first. -/
theorem element_of_stopsFirst (hscalar : v.type.needsArgument = false) (x : Value)
    {s s' : Session} (h : v.StopsFirst relation s x.leaves f s') :
    (element v relation x).perform s = (.error f, s') := by
  induction x using Value.inductionOnLists generalizing s s' with
  | single x hx =>
    rw [Value.leaves_single hx] at h
    cases h with
    | here hstops => exact element_of_stops hx hstops
    | later _ hrest => cases hrest
  | list xs ih =>
    have hlets : ∀ x ∈ xs, ∀ {s s'}, v.LetsAll relation s x.leaves s' →
        (element v relation x).perform s = (.ok (v.boundFor relation x), s') :=
      fun x _ => element_of_letsAll hscalar x
    rw [element_list hscalar, Action.perform_bind, compileAll_of_stopsFirst hlets ih h]

/-! ## Lists -/

variable {xs : List Value} {o : Operand}

theorem compile_of_letsAll (hscalar : v.type.needsArgument = false)
    (h : v.LetsAll relation s (Value.leaves (.list xs)) s') :
    (compile v relation (.list xs)).perform s =
      (.ok (.bound (v.boundFor relation (.list xs))), s') := by
  rw [compile, if_neg (by simp [hscalar]), Action.perform_map,
    compileAll_of_letsAll (fun x _ => element_of_letsAll hscalar x) h, boundFor_list]
  rfl

theorem compile_of_stopsFirst (hscalar : v.type.needsArgument = false)
    (h : v.StopsFirst relation s (Value.leaves (.list xs)) f s') :
    (compile v relation (.list xs)).perform s = (.error f, s') := by
  rw [compile, if_neg (by simp [hscalar]), Action.perform_map,
    compileAll_of_stopsFirst (fun x _ => element_of_letsAll hscalar x)
      (fun x _ => element_of_stopsFirst hscalar x) h]
  rfl

/-- A list becomes an operand exactly when its leaves are let through. -/
theorem compile_list_ok_iff (hscalar : v.type.needsArgument = false) :
    (compile v relation (.list xs)).perform s = (.ok o, s') ↔
      v.LetsAll relation s (Value.leaves (.list xs)) s' ∧
        o = .bound (v.boundFor relation (.list xs)) := by
  constructor
  · intro h
    rcases letsAll_or_stopsFirst v relation (Value.leaves (.list xs)) s with
      ⟨s₁, hall⟩ | ⟨f, s₁, hfirst⟩
    · cases (compile_of_letsAll hscalar hall).symm.trans h
      exact ⟨hall, rfl⟩
    · cases (compile_of_stopsFirst hscalar hfirst).symm.trans h
  · rintro ⟨hall, rfl⟩
    exact compile_of_letsAll hscalar hall

/-- A list fails with the leaf that is stopped first. -/
theorem compile_list_error_iff (hscalar : v.type.needsArgument = false) :
    (compile v relation (.list xs)).perform s = (.error f, s') ↔
      v.StopsFirst relation s (Value.leaves (.list xs)) f s' := by
  constructor
  · intro h
    rcases letsAll_or_stopsFirst v relation (Value.leaves (.list xs)) s with
      ⟨s₁, hall⟩ | ⟨f', s₁, hfirst⟩
    · cases (compile_of_letsAll hscalar hall).symm.trans h
    · cases (compile_of_stopsFirst hscalar hfirst).symm.trans h
      exact hfirst
  · exact compile_of_stopsFirst hscalar

end Operand

/-! ## Items of a relation -/

namespace Table

variable {t : Table} {name : String} {v : FieldValidator} {s s' : Session}

theorem perform_validator (hv : t.validator? name = some v) (s : Session) :
    (t.validator name).perform s = (.ok v, s) := by
  rw [validator, hv]
  rfl

theorem perform_operand (hv : t.validator? name = some v) (x : Value) (relation : Bool)
    (s : Session) :
    (t.operand name x relation).perform s = (Operand.compile v relation x).perform s := by
  rw [operand, Action.perform_bind, perform_validator hv]

/-- The items of a list are bound exactly when each becomes an operand that binds a value. -/
theorem bindAll_ok_iff (hv : t.validator? name = some v) {xs ys : List Value} :
    (Query.bindAll t name xs).perform s = (.ok ys, s') ↔
      Operand.BindsEach v true s xs ys s' := by
  induction xs generalizing s ys with
  | nil =>
    constructor
    · intro h
      cases h
      exact .nil
    · intro h
      cases h
      rfl
  | cons x xs ih =>
    constructor
    · intro h
      obtain ⟨y, s₁, hy, h⟩ := Action.bind_ok h
      obtain ⟨zs, s₂, hzs, h⟩ := Action.bind_ok h
      cases h
      obtain ⟨o, s₃, ho, hy⟩ := Action.bind_ok hy
      rw [perform_operand hv] at ho
      -- an operand that binds no value is refused
      cases hvalue : o.value? with
      | none =>
        rw [hvalue] at hy
        exact absurd hy Action.refuse_ne_ok
      | some z =>
        rw [hvalue] at hy
        cases hy
        exact .cons ho hvalue (ih.1 hzs)
    · intro h
      cases h with
      | cons ho hvalue hrest =>
        unfold Query.bindAll bindValue
        simp only [Action.perform_bind, perform_operand hv, ho, hvalue, Action.perform_pure,
          ih.2 hrest]

/-- The relation of a field with a list of items has what is bound for each item, and is refused in
every other case. -/
theorem relation_isIn_iff (hv : t.validator? name = some v) {operand : Value} {r : Relation} :
    (Query.relation t name .isIn operand).perform s = (.ok r, s') ↔
      Query.isComposite name = false ∧ ∃ column items ys, Identifier.ofText name = .ok column ∧
        operand.sequence? = some items ∧ Operand.BindsEach v true s items ys s' ∧
        r = .isIn column ys := by
  unfold Query.relation
  rw [if_neg nofun]
  cases hcomposite : Query.isComposite name with
  | true => exact iff_of_false Action.refuse_ne_ok nofun
  | false =>
    rw [and_iff_right rfl, if_neg nofun, Query.fieldRelation, Action.perform_bind,
      perform_validator hv]
    dsimp only
    constructor
    · intro h
      obtain ⟨column, s₁, haccept, hbound⟩ := Action.bind_ok h
      obtain ⟨hcolumn, rfl⟩ := Action.lift_ok haccept
      cases hitems : operand.sequence? with
      | none =>
        rw [hitems] at hbound
        exact absurd hbound Action.refuse_ne_ok
      | some items =>
        rw [hitems] at hbound
        obtain ⟨ys, s₂, hys, hr⟩ := Action.bind_ok hbound
        cases hr
        exact ⟨column, items, ys, hcolumn, rfl, (bindAll_ok_iff hv).1 hys, rfl⟩
    · rintro ⟨column, items, ys, hcolumn, hitems, hys, rfl⟩
      have haccept : (Identifier.accept name).perform s = (.ok column, s) := by
        rw [Identifier.accept, hcolumn]
        rfl
      rw [Action.perform_bind, haccept]
      dsimp only
      rw [hitems]
      dsimp only
      rw [Action.perform_bind, (bindAll_ok_iff hv).2 hys]
      rfl

/-- A list for a column that holds no lists becomes an operand exactly when its leaves are let
through, and is then bound as one value, the nested list itself or that of its magnitudes. Otherwise
it fails with the leaf that is stopped first. A relation with a list of items has what is bound for
each item. -/
theorem operand_leafwise {relation : Bool} {xs : List Value} (hv : t.validator? name = some v)
    (hscalar : v.type.needsArgument = false) :
    (∀ o s', (t.operand name (.list xs) relation).perform s = (.ok o, s') ↔
      v.LetsAll relation s (Value.leaves (.list xs)) s' ∧
        o = .bound (v.boundFor relation (.list xs))) ∧
    (∀ f s', (t.operand name (.list xs) relation).perform s = (.error f, s') ↔
      v.StopsFirst relation s (Value.leaves (.list xs)) f s') ∧
    ∀ operand r s', (Query.relation t name .isIn operand).perform s = (.ok r, s') ↔
      Query.isComposite name = false ∧ ∃ column items ys, Identifier.ofText name = .ok column ∧
        operand.sequence? = some items ∧ Operand.BindsEach v true s items ys s' ∧
        r = .isIn column ys := by
  refine ⟨fun o s' => ?_, fun f s' => ?_, fun operand r s' => relation_isIn_iff hv⟩
  · rw [perform_operand hv]
    exact Operand.compile_list_ok_iff hscalar
  · rw [perform_operand hv]
    exact Operand.compile_list_error_iff hscalar

/-! ### Lists of visits -/

/-- A nested list of visits is bound with the magnitudes of its leaves, and one with a text in it
fails with that text, although what follows it could not be bound either. -/
theorem leafwise_visits : visitedPages.validator? "visits" = some visitsValidator ∧
    visitsValidator.type.needsArgument = false ∧
    (visitedPages.operand "visits" (.list [.list [.int (-5), .null], .list []])).perform {} =
      (.ok (.bound (.list [.list [.int 5, .null], .list []])), {}) ∧
    ∃ f s', (visitedPages.operand "visits"
        (.list [.list [.int (-5), .text "x"], .map [(.text "$db_function", .text "now()")]])).perform
          {} = (.error f, s') ∧
      visitsValidator.Refuses (.text "x") f ∧ visitsValidator.StopsFirst false {}
        [.int (-5), .text "x", .map [(.text "$db_function", .text "now()")]] f s' := by
  have hscalar : visitsValidator.type.needsArgument = false := rfl
  have hlets : visitsValidator.LetsAll false {} [.int (-5), .null] {} :=
    .cons (.checked rfl rfl (by with_unfolding_all rfl) fun _ => ⟨_, rfl⟩) (.cons (.blank rfl) .nil)
  have hworded : (visitsValidator.validate (.text "x")).perform {} = (.ok (some .standard), {}) :=
    by with_unfolding_all rfl
  obtain ⟨f, s', hcheck, hrefuses⟩ := FieldValidator.check_of_worded hworded rfl nofun
  have hstops : visitsValidator.StopsFirst false {}
      [.int (-5), .text "x", .map [(.text "$db_function", .text "now()")]] f s' :=
    .later (.checked rfl rfl (by with_unfolding_all rfl) fun _ => ⟨_, rfl⟩)
      (.here (.raises rfl rfl hcheck))
  exact ⟨validator_visits, hscalar,
    ((operand_leafwise validator_visits hscalar).1 _ _).2 ⟨hlets, rfl⟩,
    f, s', ((operand_leafwise validator_visits hscalar).2.1 _ _).2 hstops, hrefuses, hstops⟩

/-- Pages whose visits are counted in a column that cannot be quoted, as a definition. -/
def unquotableDefinition : Value := .map [
  (.text "fields", .map [(.text "id", .text "int"), (.text "page visits", .text "counter")]),
  (.text "key", .list [.text "id"])]

/-- The validator of the column that cannot be quoted. -/
def unquotableVisits : FieldValidator :=
  ⟨{ name := "page visits", type := "counter" }, .counter, by decide⟩

/-- A list for a counter that cannot be quoted fails, although its leaf passes the check of the
field. -/
theorem not_bound_unquotable : ∃ t,
    Table.ofDefinition (.text "pages") unquotableDefinition = .ok t ∧
    t.validator? "page visits" = some unquotableVisits ∧
    unquotableVisits.type.needsArgument = false ∧ (Value.int 1).isStoreFunction = false ∧
    (unquotableVisits.check (.int 1)).perform {} = (.ok (), {}) ∧
    ∃ f s', (t.operand "page visits" (.list [.int 1])).perform {} = (.error f, s') := by
  refine ⟨{ visitedPages with fields := [{ name := "id", type := "int" }, unquotableVisits.field] },
    by with_unfolding_all rfl, by with_unfolding_all rfl, rfl, rfl, by with_unfolding_all rfl,
    _, _, by with_unfolding_all rfl⟩

end Table

end WideColumn
