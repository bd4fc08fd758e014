import WideColumn.Proofs.Alignment
import WideColumn.Proofs.Registration

/-!
# What writes bind has been checked

A value that a write binds as the plain value of a column that is no counter has passed the checks
of the column (`FieldValidator.Vetted`), or it was made by a default whose values are not checked
(`Operation.compile_binds_vetted`). A list for a column that holds no lists is not checked as a
whole but element by element, and so are lists among its elements.
-/

namespace WideColumn

/-- What holds of a list when it holds of each of its elements, and of every other value, holds of
all values. -/
@[elab_as_elim]
theorem Value.inductionOnLists {motive : Value → Prop}
    (list : ∀ xs, (∀ x ∈ xs, motive x) → motive (.list xs))
    (single : ∀ x, (∀ xs, x ≠ .list xs) → motive x) (x : Value) : motive x := by
  by_cases h : ∃ xs, x = .list xs
  · obtain ⟨xs, hx⟩ := h
    have hlist : motive (.list xs) := list xs fun y hy => Value.inductionOnLists list single y
    exact hx ▸ hlist
  · exact single x fun xs hx => h ⟨xs, hx⟩
termination_by sizeOf x
decreasing_by
  have hsize := List.sizeOf_lt_of_mem hy
  rw [hx, Value.list.sizeOf_spec]
  omega

namespace FieldValidator

/-- The value may be bound to the column: it is null-like, it passes the checks, or it is a list for
a column that holds no lists and each of its elements may be bound. What becomes of a value about
which there is a complaint that is worded as null is left open. -/
inductive Vetted (v : FieldValidator) : Value → Prop
  | blank {x : Value} (h : x.isNullLike = true) : Vetted v x
  | passes {x : Value} {s s' : Session} (h : (v.validate x).perform s = (.ok none, s')) :
      Vetted v x
  | unworded {x : Value} {complaint : Complaint} {s s₁ s' : Session}
      (h : (v.validate x).perform s = (.ok (some complaint), s₁))
      (hword : (complaint.word x v.field).perform s₁ = (.ok .null, s')) : Vetted v x
  | each {xs : List Value} (hscalar : v.type.needsArgument = false)
      (h : ∀ x ∈ xs, Vetted v x) : Vetted v (.list xs)

/-- The value was made by the default of the field, and such values are not checked. -/
def MadeUnchecked (v : FieldValidator) (x : Value) : Prop :=
  v.field.hasDefault = true ∧ v.field.ignoresDefault = true ∧
    ∃ s s', v.field.resolveDefault.perform s = (.ok x, s')

variable {v : FieldValidator} {x : Value} {s s' : Session}

theorem isCounter_iff : v.field.isCounter = true ↔ v.type = .counter := by
  rw [Field.isCounter, v.typed, beq_iff_eq, Option.some.injEq]

/-- A check is passed when there is no complaint, or one that is worded as null. -/
theorem check_cases (h : (v.check x).perform s = (.ok (), s')) :
    (v.validate x).perform s = (.ok none, s') ∨
      ∃ complaint s₁, (v.validate x).perform s = (.ok (some complaint), s₁) ∧
        (complaint.word x v.field).perform s₁ = (.ok .null, s') := by
  obtain ⟨message, s₁, hmessage, h⟩ := Action.bind_ok h
  obtain ⟨complaint?, s₂, hvalidate, hword⟩ := Action.bind_ok hmessage
  cases complaint? with
  | none =>
    cases hword
    cases h
    exact .inl hvalidate
  | some complaint =>
    cases message with
    | null =>
      cases h
      exact .inr ⟨complaint, s₂, hvalidate, hword⟩
    | _ => exact absurd h Action.refuse_ne_ok

/-- A check that is passed leaves the value fit to be bound. -/
theorem check_ok (h : (v.check x).perform s = (.ok (), s')) : v.Vetted x := by
  rcases check_cases h with hvalid | ⟨complaint, s₁, hvalidate, hword⟩
  · exact .passes hvalid
  · exact .unworded hvalidate hword

end FieldValidator

/-! ## Operands -/

/-- What is written for a value: the text of a function of the store, or a placeholder. -/
def Value.written (x : Value) : Operand :=
  match x.storeFunction? with
  | some f => .storeFunction f.display
  | none => .bound x

/-- Only the value itself is bound for a value. -/
theorem Value.eq_of_value?_written {x y : Value} (h : x.written.value? = some y) : x = y := by
  unfold written at h
  split at h
  · cases h
  · exact Option.some.inj h

theorem Value.eq_of_written {x y : Value} (h : x.written = .bound y) : x = y :=
  eq_of_value?_written (congrArg Operand.value? h)

namespace Operand

variable {v : FieldValidator} {relation : Bool} {x : Value} {o : Operand} {s s' : Session}

/-- What becomes of a value that is not looked into. A null-like value is bound and a function of the
store is written; every other value has passed the check, and it is bound unless it is an integer
that changes a counter. -/
inductive OfSingle (v : FieldValidator) (relation : Bool) (x : Value) (s s' : Session) :
    Operand → Prop
  | blank (h : x.isNullLike = true) (hs : s' = s) : OfSingle v relation x s s' (.bound x)
  | storeFunction {f : Value} (hf : x.storeFunction? = some f) (hs : s' = s) :
      OfSingle v relation x s s' (.storeFunction f.display)
  | checked (hblank : x.isNullLike = false) (hf : x.storeFunction? = none)
      (hcheck : (v.check x).perform s = (.ok (), s'))
      (hplain : (∀ n, x ≠ .int n) ∨ v.type ≠ .counter ∨ relation = true) :
      OfSingle v relation x s s' (.bound x)
  | change {n : Int} {column : Identifier} (hx : x = .int n) (hcounter : v.type = .counter)
      (hrelation : relation = false) (hcheck : (v.check x).perform s = (.ok (), s'))
      (hcolumn : Identifier.ofText v.field.name = .ok column) :
      OfSingle v relation x s s' (.change column (decide (n < 0)) n.natAbs)

theorem ofSingle_ok (h : (ofSingle v x relation).perform s = (.ok o, s')) :
    OfSingle v relation x s s' o := by
  unfold ofSingle at h
  split at h
  · rename_i hblank
    cases h
    exact .blank hblank rfl
  · rename_i hblank
    have hblank : x.isNullLike = false := by simpa using hblank
    cases hf : x.storeFunction? with
    | some f =>
      rw [hf] at h
      cases h
      exact .storeFunction hf rfl
    | none =>
      rw [hf] at h
      obtain ⟨_, s₁, hcheck, h⟩ := Action.bind_ok h
      unfold ofChecked at h
      split at h
      · split at h
        · rename_i hchanges
          obtain ⟨column, s₂, hcolumn, h⟩ := Action.bind_ok h
          cases h
          obtain ⟨hname, rfl⟩ := Action.lift_ok hcolumn
          exact .change rfl hchanges.1 (by simpa using hchanges.2) hcheck hname
        · rename_i hplain
          cases h
          exact .checked hblank hf hcheck (.inr (by simpa [imp_iff_not_or] using hplain))
      · rename_i hinteger
        cases h
        exact .checked hblank hf hcheck (.inl hinteger)

/-- A value that is not looked into is written as it is, unless it is the change of a counter. -/
theorem ofSingle_written (hplain : v.type ≠ .counter ∨ relation = true)
    (h : (ofSingle v x relation).perform s = (.ok o, s')) : o = x.written := by
  cases ofSingle_ok h with
  | blank hblank => cases x <;> first | rfl | cases hblank
  | storeFunction hf => rw [Value.written, hf]
  | checked _ hf => rw [Value.written, hf]
  | change _ hcounter hrelation =>
    rcases hplain with hplain | hplain
    · exact absurd hcounter hplain
    · cases hrelation.symm.trans hplain

/-- A value that is no list is not looked into. -/
theorem compile_single (hx : ∀ xs, x ≠ .list xs) :
    compile v relation x = ofSingle v x relation := by
  cases x with
  | list xs => exact absurd rfl (hx xs)
  | _ => rfl

/-- The elements of a list become operands one after the other, and each of these binds a value. -/
inductive BindsEach (v : FieldValidator) (relation : Bool) :
    Session → List Value → List Value → Session → Prop
  | nil {s : Session} : BindsEach v relation s [] [] s
  | cons {s s₁ s' : Session} {x y : Value} {o : Operand} {xs ys : List Value}
      (h : (compile v relation x).perform s = (.ok o, s₁)) (hy : o.value? = some y)
      (hrest : BindsEach v relation s₁ xs ys s') : BindsEach v relation s (x :: xs) (y :: ys) s'

theorem compileAll_ok : ∀ {xs ys : List Value} {s s' : Session},
    (compileAll v relation xs).perform s = (.ok ys, s') → BindsEach v relation s xs ys s'
  | [], _, _, _, h => by
    cases h
    exact .nil
  | x :: xs, ys, s, s', h => by
    obtain ⟨o, s₁, ho, h⟩ := Action.bind_ok h
    cases hy : o.value? with
    | none =>
      rw [hy] at h
      exact absurd h Action.refuse_ne_ok
    | some y =>
      rw [hy] at h
      obtain ⟨zs, s₂, hzs, h⟩ := Action.bind_ok h
      cases h
      exact .cons ho hy (compileAll_ok hzs)

/-- What holds of each element and what is bound for it holds of the lists point by point. -/
theorem BindsEach.forall₂ {r : Value → Value → Prop} {xs ys : List Value}
    (h : BindsEach v relation s xs ys s')
    (hall : ∀ x ∈ xs, ∀ {o : Operand} {y : Value} {s s' : Session},
      (compile v relation x).perform s = (.ok o, s') → o.value? = some y → r x y) :
    List.Forall₂ r xs ys := by
  induction h with
  | nil => exact .nil
  | cons h hy _ ih =>
    obtain ⟨hhead, hrest⟩ := List.forall_mem_cons.1 hall
    exact .cons (hhead h hy) (ih hrest)

/-- A list is not looked into where the column holds lists; elsewhere it is bound with what is bound
for its elements. -/
theorem compile_list {xs : List Value}
    (h : (compile v relation (.list xs)).perform s = (.ok o, s')) :
    (ofSingle v (.list xs) relation).perform s = (.ok o, s') ∨
      (v.type.needsArgument = false ∧
        ∃ ys, o = .bound (.list ys) ∧ BindsEach v relation s xs ys s') := by
  unfold compile at h
  split at h
  · exact .inl h
  · rename_i hscalar
    obtain ⟨ys, hys, rfl⟩ := Action.map_ok h
    exact .inr ⟨by simpa using hscalar, ys, rfl, compileAll_ok hys⟩

/-- What holds of the operands of values that are not looked into, and of a list that is bound when
it holds of the operands of its elements, holds of the operand of every value. -/
theorem compile_induction {motive : Value → Operand → Session → Session → Prop}
    (single : ∀ {x o s s'}, (ofSingle v x relation).perform s = (.ok o, s') → motive x o s s')
    (list : ∀ {xs ys s s'}, v.type.needsArgument = false → BindsEach v relation s xs ys s' →
      (∀ x ∈ xs, ∀ {o s s'}, (compile v relation x).perform s = (.ok o, s') → motive x o s s') →
        motive (.list xs) (.bound (.list ys)) s s')
    (h : (compile v relation x).perform s = (.ok o, s')) : motive x o s s' := by
  induction x using Value.inductionOnLists generalizing o s s' with
  | single x hx => exact single (compile_single hx ▸ h)
  | list xs ih =>
    rcases compile_list h with h | ⟨hscalar, ys, rfl, heach⟩
    · exact single h
    · exact list hscalar heach ih

/-- A value is written as it is, unless it is the change of a counter. -/
theorem compile_written (hplain : v.type ≠ .counter ∨ relation = true)
    (h : (compile v relation x).perform s = (.ok o, s')) : o = x.written := by
  refine compile_induction (motive := fun x o _ _ => o = x.written)
    (fun h => ofSingle_written hplain h) (fun {xs ys _ _} _ heach ih => ?_) h
  have hsame : List.Forall₂ (· = ·) xs ys := heach.forall₂ fun x hx _ _ _ _ h hy =>
    Value.eq_of_value?_written (ih x hx h ▸ hy)
  rw [List.forall₂_eq_eq_eq] at hsame
  exact hsame ▸ rfl

/-- The operand binds the value itself, which may be bound, or it binds nothing. -/
def BindsVetted (v : FieldValidator) (x : Value) (o : Operand) : Prop :=
  (o = .bound x ∧ v.Vetted x) ∨ ∃ text, o = .storeFunction text

theorem ofSingle_vetted (hcounter : v.type ≠ .counter)
    (h : (ofSingle v x relation).perform s = (.ok o, s')) : o.BindsVetted v x := by
  cases ofSingle_ok h with
  | blank hblank => exact .inl ⟨rfl, .blank hblank⟩
  | storeFunction => exact .inr ⟨_, rfl⟩
  | checked _ _ hcheck => exact .inl ⟨rfl, FieldValidator.check_ok hcheck⟩
  | change _ hcounter' => exact absurd hcounter' hcounter

/-- The operand of a value for a column that is no counter binds the value itself. -/
theorem compile_vetted (hcounter : v.type ≠ .counter)
    (h : (compile v relation x).perform s = (.ok o, s')) : o.BindsVetted v x := by
  refine compile_induction (motive := fun x o _ _ => o.BindsVetted v x)
    (fun h => ofSingle_vetted hcounter h) (fun {xs ys _ _} hscalar heach ih => ?_) h
  -- the list as a whole is not checked here, only its elements are
  have hvetted : List.Forall₂ (fun x y => v.Vetted x ∧ x = y) xs ys := by
    refine heach.forall₂ fun x hx _ _ _ _ h hy => ?_
    rcases ih x hx h with ⟨rfl, hvetted⟩ | ⟨text, rfl⟩
    · exact ⟨hvetted, Option.some.inj hy⟩
    · cases hy
  obtain ⟨hvetted, hsame⟩ := (List.forall₂_and_left _ _).1 hvetted
  rw [List.forall₂_eq_eq_eq] at hsame
  exact .inl ⟨hsame ▸ rfl, .each hscalar hvetted⟩

end Operand

/-! ## Writes -/

namespace Compile

variable {t : Table} {v : FieldValidator} {s s' : Session}

/-- A field that has a value for a write has taken it, and the value is null-like only if the field
is neither in the key nor required. -/
theorem resolve_takes {f : Field} {supplied : Value} {r : Resolved}
    (h : (resolve t f supplied).perform s = (.ok r, s')) :
    (resolveValue f supplied).perform s = (.ok r, s') ∧
      (r.value.isNullLike = true → t.isKey f.name = false ∧ f.isRequired = false) := by
  obtain ⟨r', s₁, hr', h⟩ := Action.bind_ok h
  split at h
  · dsimp only at h
    split at h
    · exact absurd h Action.refuse_ne_ok
    split at h
    · exact absurd h Action.refuse_ne_ok
    · rename_i hkey hrequired
      cases h
      exact ⟨hr', fun _ => ⟨by simpa using hkey, by simpa using hrequired⟩⟩
  · rename_i hvalue
    cases h
    exact ⟨hr', fun hnull => absurd hnull hvalue⟩

/-- The value was made by the default when none was supplied and there is one. -/
theorem resolve_ok {f : Field} {supplied : Value} {r : Resolved}
    (h : (resolve t f supplied).perform s = (.ok r, s')) :
    (r = ⟨supplied, false⟩ ∧ (supplied.isMissing = true → f.hasDefault = false)) ∨
      (r.byDefault = true ∧ supplied.isMissing = true ∧ f.hasDefault = true ∧
      ∃ s s', f.resolveDefault.perform s = (.ok r.value, s')) := by
  obtain ⟨hr', -⟩ := resolve_takes h
  unfold resolveValue at hr'
  split at hr'
  · rename_i hdefault
    obtain ⟨hmissing, hhas⟩ := Bool.and_eq_true_iff.1 hdefault
    obtain ⟨x, hx, rfl⟩ := Action.map_ok hr'
    exact .inr ⟨rfl, hmissing, hhas, _, _, hx⟩
  · rename_i hnot
    cases hr'
    refine .inl ⟨rfl, fun hmissing => ?_⟩
    simpa [hmissing] using hnot

/-- What is bound for a value has been checked, or a default made it and it need not be. -/
theorem writeOperand_vetted {supplied : Value} {r : Resolved} {x : Value} {s₁ s₂ : Session}
    (hcounter : v.field.isCounter = false)
    (hresolve : (resolve t v.field supplied).perform s₁ = (.ok r, s₂))
    (h : (writeOperand v r).perform s = (.ok (.bound x), s')) :
    v.Vetted x ∨ v.MadeUnchecked x := by
  have htype : v.type ≠ .counter := fun htype =>
    absurd (FieldValidator.isCounter_iff.2 htype) (by simp [hcounter])
  unfold writeOperand at h
  split at h
  · rename_i hunchecked
    obtain ⟨hmade, -⟩ := Bool.and_eq_true_iff.1 hunchecked
    obtain ⟨hby, hignores⟩ := Bool.and_eq_true_iff.1 hmade
    cases h
    -- only what a default made skips the check: a supplied value contradicts `byDefault`
    rcases resolve_ok hresolve with ⟨rfl, -⟩ | ⟨-, -, hhas, hmakes⟩
    · cases hby
    · exact .inr ⟨hhas, hignores, hmakes⟩
  · rcases Operand.compile_vetted htype h with ⟨hx, hvetted⟩ | ⟨text, htext⟩
    · cases hx
      exact .inl hvetted
    · cases htext

/-- What is set is the operand of the value. -/
theorem assignment_set {r : Resolved} {column : Identifier} {o : Operand}
    (h : (assignment v r).perform s = (.ok (.set column o), s')) :
    ∃ s₁ s₂, (writeOperand v r).perform s₁ = (.ok o, s₂) := by
  obtain ⟨column', s₁, -, h⟩ := Action.bind_ok h
  split at h
  · obtain ⟨o', s₂, ho', h⟩ := Action.bind_ok h
    cases h
    exact ⟨_, _, ho'⟩
  · split at h
    · exact absurd rfl ((directiveAssignment_ok h).2 column o)
    · exact absurd h Action.refuse_ne_ok

end Compile

/-- The validator under the name of a field of a registered table is that of the field. -/
theorem Table.WellFormed.field_of_validator? {t : Table} {f : Field} {v : FieldValidator}
    (hwell : t.WellFormed) (hf : f ∈ t.fields) (hv : t.validator? f.name = some v) :
    v.field = f :=
  List.inj_on_of_nodup_map hwell.fields
    (List.mem_of_find?_eq_some (Table.field?_of_validator? hv)) hf (Table.name_of_validator? hv)

/-- The statement binds the value as the plain value of a column. -/
inductive Statement.Binds : Statement → Identifier → Value → Prop
  | insert {i : InsertStatement} {column : Identifier} {x : Value}
      (h : (column, .bound x) ∈ i.columns) : Binds (.insert i) column x
  | update {u : UpdateStatement} {column : Identifier} {x : Value}
      (h : .set column (.bound x) ∈ u.assignments) : Binds (.update u) column x

namespace Operation

open Compile

/-- Only insertions and updates bind plain values of columns. -/
theorem binds_write {t : Table} {o : Operation} {s s' : Session} {p : Prepared}
    {column : Identifier} {x : Value} (h : (o.compile t).perform s = (.ok p, s'))
    (hbinds : p.statement.Binds column x) :
    (∃ i, o = .insert i) ∨ ∃ u, o = .update u := by
  cases o with
  | insert o => exact .inl ⟨o, rfl⟩
  | update o => exact .inr ⟨o, rfl⟩
  | delete o =>
    obtain ⟨d, hd, -⟩ := deletion_ok h
    rw [hd] at hbinds
    cases hbinds
  | select o =>
    obtain ⟨statement, s₁, -, h⟩ := Action.bind_ok h
    cases h
    cases hbinds
  | _ =>
    obtain ⟨_, hst⟩ | ⟨_, hst⟩ := compile_other id h <;>
      (rw [hst] at hbinds; cases hbinds)

/-- What a write binds as the plain value of a column that is no counter has been checked, or it was
made by the default of the column and such values are not checked. -/
theorem compile_binds_vetted {t : Table} {o : Operation} {s s' : Session} {p : Prepared}
    {column : Identifier} {x : Value} (hregistered : t.Registered)
    (h : (o.compile t).perform s = (.ok p, s')) (hbinds : p.statement.Binds column x) :
    ∃ v : FieldValidator, t.validator? v.field.name = some v ∧
      Identifier.ofText v.field.name = .ok column ∧
      (v.field.isCounter = false → v.Vetted x ∨ v.MadeUnchecked x) := by
  rcases binds_write h hbinds with ⟨o, rfl⟩ | ⟨o, rfl⟩
  · obtain ⟨i, hi, ⟨s₁, hcolumns⟩, -⟩ := insertion_ok h
    rw [hi] at hbinds
    cases hbinds with
    | insert hmem =>
      obtain ⟨made, hmade, hall⟩ := insertColumns_ok hcolumns
      obtain ⟨f, hf, hcolumn, v, r, hv, ⟨s₃, s₄, hr⟩, s₅, s₆, hoperand⟩ :=
        forall₂_mem_right hall hmem
      have hfield := hregistered.wellFormed.field_of_validator? (hmade.subset hf) hv
      subst hfield
      exact ⟨v, hv, hcolumn, fun hcounter => writeOperand_vetted hcounter hr hoperand⟩
  · obtain ⟨u, hu, ⟨s₁, hassignments⟩, -⟩ := modification_ok h
    rw [hu] at hbinds
    cases hbinds with
    | update hmem =>
      obtain ⟨made, -, hall⟩ := assignments_ok hassignments
      obtain ⟨e, -, hcolumn, v, r, hv, ⟨s₃, s₄, hr⟩, s₅, s₆, hassignment⟩ :=
        forall₂_mem_right hall hmem
      obtain ⟨s₇, s₈, hoperand⟩ := assignment_set hassignment
      have hname := Table.name_of_validator? hv
      rw [← hname] at hv hcolumn
      exact ⟨v, hv, hcolumn, fun hcounter => writeOperand_vetted hcounter hr hoperand⟩

/-! ### Names and lists of names -/

/-- The insertion of a person. -/
def naming (name : Value) : Operation :=
  .insert { table := "people", values := [("id", .int 1), ("name", name)] }

/-- The name of the table of people. -/
def peopleTable : Identifier := ⟨"people".toList, by decide⟩

/-- The column of the numbers. -/
def idColumn : Identifier := ⟨"id".toList, by decide⟩

/-- The column of the names. -/
def nameColumn : Identifier := ⟨"name".toList, by decide⟩

/-- The statement that inserts a person. -/
def namingStatement (name : Value) : Statement := .insert {
  table := ⟨"people".toList, by decide⟩
  columns := [(⟨"id".toList, by decide⟩, .bound (.int 1)), (nameColumn, .bound name)]
  ifNotExists := false
  ttl := none }

theorem binds_naming (name : Value) : (namingStatement name).Binds nameColumn name :=
  .insert (List.mem_cons_of_mem _ List.mem_cons_self)

theorem people_registered : Query.people.Registered :=
  .inl ⟨.text "people", Query.peopleDefinition, by with_unfolding_all rfl⟩

/-- The name of a person has been checked before it is bound. -/
theorem binds_vetted_naming : ∃ p s', ((naming (.text "bob")).compile Query.people).perform {} =
      (.ok p, s') ∧
    p.statement.Binds nameColumn (.text "bob") ∧
    ∃ v : FieldValidator, Query.people.validator? v.field.name = some v ∧
      Identifier.ofText v.field.name = .ok nameColumn ∧
      (v.Vetted (.text "bob") ∨ v.MadeUnchecked (.text "bob")) := by
  obtain ⟨p, s', hp, hstatement⟩ := Action.ok_of_read (g := fun p => p.statement)
    (a := (naming (.text "bob")).compile Query.people) (s := {})
    (y := namingStatement (.text "bob")) (by with_unfolding_all rfl)
  have hcounters : ∀ f ∈ Query.people.fields, f.isCounter = false := by decide
  have hbinds : p.statement.Binds nameColumn (.text "bob") := hstatement ▸ binds_naming _
  obtain ⟨v, hv, hcolumn, hvetted⟩ := compile_binds_vetted people_registered hp hbinds
  have hfield : v.field ∈ Query.people.fields :=
    List.mem_of_find?_eq_some (Table.field?_of_validator? hv)
  exact ⟨p, s', hp, hbinds, v, hv, hcolumn, hvetted (hcounters v.field hfield)⟩

/-- A list of names is bound as it is, although it is no text. -/
theorem not_validated_names :
    Table.ofDefinition (.text "people") Query.peopleDefinition = .ok Query.people ∧
    (∃ p s', ((naming (.list [.text "a"])).compile Query.people).perform {} = (.ok p, s') ∧
      p.statement.Binds nameColumn (.list [.text "a"])) ∧
    ∃ v, Query.people.validator? "name" = some v ∧ (Value.list [.text "a"]).isNullLike = false ∧
      v.field.ignoresDefault = false ∧
      ∀ s, (v.validate (.list [.text "a"])).perform s = (.ok (some .standard), s) := by
  obtain ⟨p, s', hp, hstatement⟩ := Action.ok_of_read (g := fun p => p.statement)
    (a := (naming (.list [.text "a"])).compile Query.people) (s := {})
    (y := namingStatement (.list [.text "a"])) (by with_unfolding_all rfl)
  refine ⟨by with_unfolding_all rfl, ⟨p, s', hp, hstatement ▸ binds_naming _⟩, ?_⟩
  exact ⟨⟨{ name := "name", type := "text" }, .text, by decide⟩, by with_unfolding_all rfl, rfl,
    rfl, fun s => rfl⟩

end Operation

end WideColumn
