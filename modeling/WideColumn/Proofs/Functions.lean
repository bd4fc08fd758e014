import WideColumn.Proofs.Verdict

/-!
# Which functions are called

Putting the statement of an operation together comes to values without effects and calls functions,
and does nothing else. `Action.CallsOnly` says so of an action, and says which functions it calls
and with which arguments. Those of an operation are functions of its table
(`Operation.compile_calls`): a validator or the wording of a complaint is called with the value that
is judged, and a function that makes a default is called without arguments. A query calls none of
the latter (`Query.relations_calls`). So what holds of every call of such a function, and of every
line in the journal, holds of the whole.
-/

namespace WideColumn

/-! ## Calling one function -/

namespace Callback

/-- Only a refusal is noted when it is made. -/
theorem throw_lifts {α : Type} {f : Failure} (h : ∀ r, f ≠ .refusal r) :
    ∃ r, (throw f : Action α) = Action.lift r := by
  refine ⟨.error f, ?_⟩
  cases f with
  | refusal r => exact absurd rfl (h r)
  | _ => rfl

theorem judge_lifts (symbol : String) (answer : Except Value.Unordered Bool) :
    ∃ r, judge symbol answer = Action.lift r := by
  cases answer with
  | ok b => exact ⟨.ok _, rfl⟩
  | error e => exact throw_lifts (by cases e <;> exact nofun)

theorem judgeLength_lifts (side : Value.Side) (value bound : Value) :
    ∃ r, judgeLength side value bound = Action.lift r := by
  unfold judgeLength
  split
  · exact throw_lifts nofun
  · exact judge_lifts _ _

theorem startsWith_lifts (value start : Value) :
    ∃ r, startsWith value start = Action.lift r := by
  unfold startsWith
  split
  · exact ⟨.ok _, rfl⟩
  all_goals exact throw_lifts nofun

/-- A function that neither counts nor notes its calls is a computation without effects. -/
theorem call_lifts {behaviour : Behaviour} (hcount : behaviour ≠ .count)
    (hobserve : behaviour ≠ .observe) (hhook : behaviour ≠ .hook) (fixed : List Value) (site : Nat)
    (arguments : List Value) : ∃ r, call behaviour fixed site arguments = Action.lift r := by
  cases behaviour with
  | above | below => exact judge_lifts _ _
  | minLength | maxLength => exact judgeLength_lifts _ _ _
  | startsWith => exact startsWith_lifts _ _
  | memberOf =>
    unfold call
    dsimp only
    split
    · split
      · exact ⟨.ok _, rfl⟩
      · exact throw_lifts nofun
    · exact throw_lifts nofun
  | constant | summarize => exact ⟨.ok _, rfl⟩
  | observe => exact absurd rfl hobserve
  | hook => exact absurd rfl hhook
  | count => exact absurd rfl hcount
  | pick =>
    unfold call
    dsimp only
    split
    · -- what cannot be a key fails before the row is looked at
      cases ((fixed[0]?).getD Value.null).checkKey with
      | error f => exact ⟨.error f, by cases f <;> rfl⟩
      | ok =>
        simp only [Action.lift, pure_bind]
        split
        · exact ⟨.ok _, rfl⟩
        · exact throw_lifts nofun
    · exact throw_lifts nofun
  | raise =>
    unfold call
    dsimp only
    split
    · exact ⟨.error _, rfl⟩
    · exact throw_lifts nofun

end Callback

/-! ## Calling some functions only -/

namespace Action

variable {α β : Type} {p q : Value → List Value → Prop} {a : Action α}

/-- The action comes to values without effects and calls functions with arguments of which `p`
holds. -/
inductive CallsOnly (p : Value → List Value → Prop) : ∀ {α : Type}, Action α → Prop
  | lift {α : Type} (r : Except Failure α) : CallsOnly p (Action.lift r)
  | apply {f : Value} {xs : List Value} (h : p f xs) : CallsOnly p (Callback.apply f xs)
  | after {α β : Type} {a : Action α} {f : α → Action β} (h : CallsOnly p a)
      (hf : ∀ x s s', a.perform s = (.ok x, s') → CallsOnly p (f x)) : CallsOnly p (a >>= f)

namespace CallsOnly

theorem pure (x : α) : CallsOnly p (Pure.pure x : Action α) := lift (.ok x)

theorem refuse (r : Refusal) : CallsOnly p (Action.refuse r : Action α) := lift (.error (.refusal r))

theorem throw {f : Failure} (h : ∀ r, f ≠ .refusal r) :
    CallsOnly p (MonadExcept.throw f : Action α) := by
  obtain ⟨r, hr⟩ := Callback.throw_lifts (α := α) h
  exact hr ▸ lift r

theorem bind {f : α → Action β} (h : CallsOnly p a) (hf : ∀ x, CallsOnly p (f x)) :
    CallsOnly p (a >>= f) :=
  h.after fun x _ _ _ => hf x

theorem map {g : α → β} (h : CallsOnly p a) : CallsOnly p (g <$> a) := h.bind fun _ => pure _

theorem imp (h : CallsOnly p a) (himp : ∀ f xs, p f xs → q f xs) : CallsOnly q a := by
  induction h with
  | lift r => exact lift r
  | apply h => exact apply (himp _ _ h)
  | after _ _ ih ihf => exact ih.after ihf

end CallsOnly

end Action

/-! ## The functions of a table -/

/-- The function is that of a rule of the field, or words the complaint of one, and it is called
with arguments. -/
def Field.JudgesBy (f : Field) (g : Value) (xs : List Value) : Prop :=
  (∃ r ∈ f.rules, r.validator = some g ∨ r.message = some g) ∧ xs ≠ []

/-- The function judges values of the field, or it makes its default. -/
def Field.Runs (f : Field) (g : Value) (xs : List Value) : Prop :=
  f.JudgesBy g xs ∨ g = f.default ∧ xs = []

/-- The function judges values of one of the fields. -/
def Table.JudgesBy (t : Table) (g : Value) (xs : List Value) : Prop :=
  ∃ f ∈ t.fields, f.JudgesBy g xs

/-- The function judges values of one of the fields, or makes its default. -/
def Table.Runs (t : Table) (g : Value) (xs : List Value) : Prop := ∃ f ∈ t.fields, f.Runs g xs

theorem Table.JudgesBy.runs {t : Table} (g : Value) (xs : List Value) (h : t.JudgesBy g xs) :
    t.Runs g xs :=
  h.imp fun _ hf => ⟨hf.1, .inl hf.2⟩

theorem Table.mem_fields_of_validator {t : Table} {name : String} {v : FieldValidator}
    {s s' : Session} (h : (t.validator name).perform s = (.ok v, s')) : v.field ∈ t.fields :=
  List.mem_of_find?_eq_some (field?_of_validator? (validator_ok h))

/-! ## Checking values -/

/-- The complaint is that of one of the checks. -/
theorem FailsFirst.mem {x : Value} {checks : List (Check × Complaint)} {complaint : Complaint}
    {s s' : Session} (h : FailsFirst x s checks complaint s') : ∃ c, (c, complaint) ∈ checks := by
  induction h with
  | here _ => exact ⟨_, List.mem_cons_self⟩
  | later _ _ ih =>
    obtain ⟨c, hc⟩ := ih
    exact ⟨c, .tail _ hc⟩

namespace FieldValidator

variable {v : FieldValidator}

/-- What a check of the chain calls, and what words its complaint, are functions of one rule. -/
theorem rule_of_chain {c : Check} {complaint : Complaint} (h : (c, complaint) ∈ v.chain) :
    (∀ g, c = .validator g → ∃ r ∈ v.field.rules, r.validator = some g ∨ r.message = some g) ∧
      ∀ g, complaint = .made g →
        ∃ r ∈ v.field.rules, r.validator = some g ∨ r.message = some g := by
  rcases List.mem_cons.1 h with htype | hrule
  · cases htype
    exact ⟨nofun, nofun⟩
  · obtain ⟨r, hr, hcheck⟩ := List.mem_filterMap.1 hrule
    obtain ⟨f, hf, heq⟩ := Option.map_eq_some_iff.1 hcheck
    cases heq
    refine ⟨fun g hg => ⟨r, hr, .inl ?_⟩, fun g hg => ⟨r, hr, .inr ?_⟩⟩
    · cases hg
      exact hf
    · unfold Complaint.ofMessage at hg
      split at hg
      · cases hg
      · cases hg
      · rename_i hmessage
        cases hg
        exact hmessage

theorem firstComplaint_calls {p : Value → List Value → Prop} (x : Value) :
    ∀ {checks : List (Check × Complaint)},
      (∀ c complaint, (c, complaint) ∈ checks → ∀ g, c = .validator g → p g [x]) →
        (firstComplaint x checks).CallsOnly p
  | [], _ => .pure _
  | (c, complaint) :: rest, h => by
    have hpasses : (c.passes x).CallsOnly p := by
      cases c with
      | type t => exact .pure _
      | validator g => exact .map (.apply (h _ _ List.mem_cons_self g rfl))
    refine .bind hpasses fun passed => ?_
    split
    · exact firstComplaint_calls x fun c' complaint' hc => h c' complaint' (.tail _ hc)
    · exact .pure _

/-- Only a complaint that there is has to be worded, and it is that of a rule. -/
theorem check_calls (v : FieldValidator) (x : Value) : (v.check x).CallsOnly v.field.JudgesBy := by
  have hvalidate : (v.validate x).CallsOnly v.field.JudgesBy := by
    unfold validate
    split
    · exact .pure _
    · exact firstComplaint_calls x fun c complaint hc g hg =>
        ⟨(rule_of_chain hc).1 g hg, List.cons_ne_nil _ _⟩
  have hmessage : (v.messageFor x).CallsOnly v.field.JudgesBy := by
    refine hvalidate.after fun complaint? s s' hcomplaint => ?_
    split
    · exact .pure _
    · rename_i complaint
      cases complaint with
      | standard | fixed => exact .pure _
      | made producer =>
        obtain ⟨c, hc⟩ := (validate_some_iff.1 hcomplaint).2.mem
        exact .apply ⟨(rule_of_chain hc).2 producer rfl, List.cons_ne_nil _ _⟩
  refine hmessage.bind fun message => ?_
  split
  · exact .pure _
  · exact .refuse _

end FieldValidator

section

variable {p : Value → List Value → Prop}

theorem Table.validator_calls (t : Table) (name : String) : (t.validator name).CallsOnly p := by
  unfold Table.validator
  split
  · exact .pure _
  · exact .refuse _

theorem Identifier.accept_calls (name : String) : (Identifier.accept name).CallsOnly p := .lift _

theorem Query.acceptAll_calls : ∀ names : List String, (acceptAll names).CallsOnly p
  | [] => .pure _
  | n :: ns => .bind (Identifier.accept_calls n) fun _ =>
    .bind (acceptAll_calls ns) fun _ => .pure _

end

/-! ## Operands -/

namespace Operand

variable {v : FieldValidator}

theorem ofChecked_calls {p : Value → List Value → Prop} (v : FieldValidator) (x : Value)
    (relation : Bool) : (ofChecked v x relation).CallsOnly p := by
  unfold ofChecked
  split
  · split
    · exact .bind (Identifier.accept_calls _) fun _ => .pure _
    · exact .pure _
  · exact .pure _

theorem ofSingle_calls (v : FieldValidator) (x : Value) (relation : Bool) :
    (ofSingle v x relation).CallsOnly v.field.JudgesBy := by
  unfold ofSingle
  split
  · exact .pure _
  · split
    · exact .pure _
    · exact .bind (v.check_calls x) fun _ => ofChecked_calls v x relation

theorem compileAll_calls (relation : Bool) : ∀ {xs : List Value},
    (∀ x ∈ xs, (compile v relation x).CallsOnly v.field.JudgesBy) →
      (compileAll v relation xs).CallsOnly v.field.JudgesBy
  | [], _ => .pure _
  | x :: xs, h => by
    refine .bind (h x List.mem_cons_self) fun o => ?_
    split
    · exact .refuse _
    · exact .bind (compileAll_calls relation fun y hy => h y (.tail _ hy)) fun _ => .pure _

theorem compile_calls (v : FieldValidator) (relation : Bool) (x : Value) :
    (compile v relation x).CallsOnly v.field.JudgesBy := by
  induction x using Value.inductionOnLists with
  | single x hx => exact compile_single hx ▸ ofSingle_calls v x relation
  | list xs ih =>
    unfold compile
    split
    · exact ofSingle_calls v _ relation
    · exact .map (compileAll_calls relation ih)

/-- The operand of a field of the table. -/
theorem compile_calls_of_validator {t : Table} {name : String} {s s' : Session}
    (h : (t.validator name).perform s = (.ok v, s')) (relation : Bool) (x : Value) :
    (compile v relation x).CallsOnly t.JudgesBy :=
  (compile_calls v relation x).imp fun _ _ hcall => ⟨_, Table.mem_fields_of_validator h, hcall⟩

end Operand

/-! ## Queries -/

theorem Table.operand_calls (t : Table) (name : String) (x : Value) (relation : Bool) :
    (t.operand name x relation).CallsOnly t.JudgesBy :=
  (t.validator_calls name).after fun _ _ _ hv => Operand.compile_calls_of_validator hv relation x

theorem Table.bindValue_calls (t : Table) (name : String) (x : Value) :
    (t.bindValue name x).CallsOnly t.JudgesBy := by
  refine .bind (t.operand_calls name x true) fun o => ?_
  split
  · exact .pure _
  · exact .refuse _

namespace Query

theorem tokenOperands_calls (t : Table) : ∀ (columns : List String) (items : List Value),
    (tokenOperands t columns items).CallsOnly t.JudgesBy
  | [], _ | _ :: _, [] => .pure _
  | column :: columns, item :: items =>
    .bind (t.operand_calls column item true) fun _ =>
      .bind (tokenOperands_calls t columns items) fun _ => .pure _

theorem tokenRelation_calls (t : Table) (key : String) (operand : Value) :
    (tokenRelation t key operand).CallsOnly t.JudgesBy := by
  unfold tokenRelation
  split
  · split
    · dsimp only
      split
      · exact .bind (tokenOperands_calls t _ _) fun _ => .bind (acceptAll_calls _) fun _ => .pure _
      · exact .refuse _
    · exact .refuse _
  all_goals exact .refuse _

theorem bindAll_calls (t : Table) (key : String) (xs : List Value) :
    (bindAll t key xs).CallsOnly t.JudgesBy := by
  induction xs with
  | nil => exact .pure _
  | cons x xs ih => exact .bind (t.bindValue_calls key x) fun _ => .bind ih fun _ => .pure _

theorem fieldRelation_calls (t : Table) (key : String) (operator : Operator) (operand : Value) :
    (fieldRelation t key operator operand).CallsOnly t.JudgesBy := by
  refine (t.validator_calls key).after fun v _ _ hv =>
    .bind (Identifier.accept_calls key) fun column => ?_
  cases operator with
  | compare c =>
    exact .bind (Operand.compile_calls_of_validator hv true operand) fun _ => .pure _
  | isIn =>
    dsimp only
    split
    · exact .bind (bindAll_calls t key _) fun _ => .pure _
    · exact .refuse _
  | token => exact tokenRelation_calls t key operand
  | contains =>
    dsimp only
    unfold containsRelation
    split
    · exact .refuse _
    · split <;> exact .pure _
  | containsKey =>
    dsimp only
    unfold containsKeyRelation
    split
    · exact .pure _
    · exact .refuse _

theorem relation_calls (t : Table) (key : String) (operator : Operator) (operand : Value) :
    (relation t key operator operand).CallsOnly t.JudgesBy := by
  unfold relation
  split
  · exact tokenRelation_calls t key operand
  · split
    · exact .refuse _
    · exact fieldRelation_calls t key operator operand

theorem operatorRelations_calls (t : Table) (key : String) (os : List (Operator × Value)) :
    (operatorRelations t key os).CallsOnly t.JudgesBy := by
  induction os with
  | nil => exact .pure _
  | cons o os ih => exact .bind (relation_calls t key o.1 o.2) fun _ => .bind ih fun _ => .pure _

theorem entryRelations_calls (t : Table) (key : String) (es : List Value) :
    (entryRelations t key es).CallsOnly t.JudgesBy := by
  induction es with
  | nil => exact .pure _
  | cons e es ih => exact .bind (operatorRelations_calls t key _) fun _ => .bind ih fun _ => .pure _

theorem entries_calls {p : Value → List Value → Prop} (t : Table) (key : String) (x : Value) :
    (entries t key x).CallsOnly p := by
  unfold entries
  split
  · split
    · exact .pure _
    · refine .bind (t.validator_calls key) fun v => ?_
      split <;> exact .pure _
  · exact .pure _

theorem expressionRelation_calls {p : Value → List Value → Prop} (x : Value) :
    (expressionRelation x).CallsOnly p := by
  unfold expressionRelation
  split
  · split
    · exact .pure _
    · exact .refuse _
  · exact .refuse _

theorem keyRelations_calls (t : Table) (key x : Value) :
    (keyRelations t key x).CallsOnly t.JudgesBy := by
  unfold keyRelations
  split
  · split
    · exact .pure _
    split
    · exact .map (expressionRelation_calls _)
    split
    · exact .pure _
    split
    · exact .refuse _
    · exact .bind (entries_calls t _ x) fun _ => entryRelations_calls t _ _
  all_goals exact .throw nofun

/-- A query calls functions that judge values of the table's fields, and no others. -/
theorem relations_calls (t : Table) (query : List (Value × Value)) :
    (relations t query).CallsOnly t.JudgesBy := by
  induction query with
  | nil => exact .pure _
  | cons part query ih =>
    exact .bind (keyRelations_calls t part.1 part.2) fun _ => .bind ih fun _ => .pure _

end Query

/-! ## Values of fields -/

namespace Compile

theorem writeOperand_calls (v : FieldValidator) (r : Resolved) :
    (writeOperand v r).CallsOnly v.field.JudgesBy := by
  unfold writeOperand
  split
  · exact .pure _
  · exact Operand.compile_calls v false _

theorem replacement_calls {p : Value → List Value → Prop} (f : Field) (column : Identifier)
    (operand : Value) : (replacement f column operand).CallsOnly p := by
  unfold replacement
  split
  · split
    · exact .pure _
    · exact .refuse _
  · split
    · exact .pure _
    · exact .refuse _
  · exact .refuse _

theorem removal_calls (v : FieldValidator) (column : Identifier) (operand : Value) :
    (removal v column operand).CallsOnly v.field.JudgesBy := by
  unfold removal
  split
  · split
    · exact .pure _
    · exact .refuse _
  · exact .bind (Operand.compile_calls v false operand) fun _ => .pure _

theorem directiveAssignment_calls (v : FieldValidator) (column : Identifier)
    (directive : Directive) (operand : Value) :
    (directiveAssignment v column directive operand).CallsOnly v.field.JudgesBy := by
  cases directive with
  | replace => exact replacement_calls v.field column operand
  | remove => exact removal_calls v column operand
  | add | append => exact .bind (Operand.compile_calls v false operand) fun _ => .pure _
  | prepend =>
    refine .bind (Operand.compile_calls v false operand) fun _ => ?_
    split
    · exact .pure _
    · exact .refuse _

theorem assignment_calls (v : FieldValidator) (r : Resolved) :
    (assignment v r).CallsOnly v.field.JudgesBy := by
  refine .bind (Identifier.accept_calls _) fun column => ?_
  split
  · exact .bind (writeOperand_calls v r) fun _ => .pure _
  · split
    · exact directiveAssignment_calls v column _ _
    · exact .refuse _

theorem resolve_calls (t : Table) {f : Field} (hf : f ∈ t.fields) (supplied : Value) :
    (resolve t f supplied).CallsOnly t.Runs := by
  have hdefault : f.resolveDefault.CallsOnly t.Runs := by
    unfold Field.resolveDefault
    split
    · exact .apply ⟨f, hf, .inr ⟨rfl, rfl⟩⟩
    · exact .pure _
  have hvalue : (resolveValue f supplied).CallsOnly t.Runs := by
    unfold resolveValue
    split
    · exact .map hdefault
    · exact .pure _
  refine .bind hvalue fun r => ?_
  split
  · dsimp only
    split
    · exact .refuse _
    · split
      · exact .refuse _
      · exact .pure _
  · exact .pure _

/-! ## Selections -/

section

variable {p : Value → List Value → Prop}

theorem source_calls (t : Table) (o : Selection) : (source t o).CallsOnly p := by
  unfold source
  split
  · exact .pure _
  · split
    · exact .pure _
    · split
      · exact .pure _
      · exact .refuse _

theorem grouping_calls (x : Value) : (grouping x).CallsOnly p := by
  unfold grouping
  split
  · exact .pure _
  · split
    · exact .map (Query.acceptAll_calls _)
    · exact .refuse _

theorem orderEntries_calls (es : List (Value × Value)) : (orderEntries es).CallsOnly p := by
  induction es with
  | nil => exact .pure _
  | cons e es ih =>
    have hentry : (orderEntry e.1 e.2).CallsOnly p := by
      unfold orderEntry
      split
      · exact .refuse _
      · split
        · exact .map (Query.acceptAll_calls _)
        · exact .refuse _
    exact .bind hentry fun _ => .bind ih fun _ => .pure _

theorem order_calls (x : Value) : (order x).CallsOnly p := by
  unfold order
  split
  · exact .pure _
  · exact .map (orderEntries_calls _)
  · exact .refuse _

theorem limit_calls (query : List (String × Value)) (key : String) :
    (limit query key).CallsOnly p := by
  unfold limit
  dsimp only
  split
  · exact .pure _
  · split
    · split
      · exact .pure _
      · exact .refuse _
    · exact .refuse _

theorem timeToLive_calls (ttl : Option Int) : (timeToLive ttl).CallsOnly p := by
  cases ttl with
  | none => exact .pure _
  | some n => exact .bind (.lift _) fun _ => .pure _

theorem definition_calls (d : Ddl String) : (definition d).CallsOnly p :=
  .bind (.lift _) fun _ => .pure _

end

theorem selection_calls (t : Table) (o : Selection) : (selection t o).CallsOnly t.JudgesBy :=
  .bind (source_calls t o) fun _ => .bind (Query.relations_calls t _) fun _ =>
    .bind (.lift _) fun _ => .bind (Identifier.accept_calls _) fun _ =>
      .bind (grouping_calls _) fun _ => .bind (order_calls _) fun _ =>
        .bind (limit_calls _ _) fun _ => .bind (limit_calls _ _) fun _ => .pure _

/-! ## Writes -/

theorem insertColumns_calls (t : Table) (values : List (String × Value)) :
    ∀ fs : List Field, fs ⊆ t.fields → (insertColumns t values fs).CallsOnly t.Runs
  | [], _ => .pure _
  | f :: fs, hfs => by
    obtain ⟨hf, hfs⟩ := List.cons_subset.1 hfs
    have hrest := insertColumns_calls t values fs hfs
    unfold insertColumns
    split
    · exact hrest
    · refine .bind (resolve_calls t hf _) fun r => ?_
      split
      · exact hrest
      · split
        · exact .refuse _
        · refine .after (t.validator_calls _) fun v _ _ hv => ?_
          have hfield := Table.mem_fields_of_validator hv
          exact .bind ((writeOperand_calls v r).imp fun _ _ h => ⟨_, hfield, .inl h⟩) fun _ =>
            .bind (Identifier.accept_calls _) fun _ => .bind hrest fun _ => .pure _

theorem insertion_calls (t : Table) (o : Insertion) : (insertion t o).CallsOnly t.Runs := by
  unfold insertion
  dsimp only
  -- the check refuses, or the same rest follows
  split
  on_goal 1 => refine .bind (.refuse _) fun _ => ?_
  all_goals
    exact .bind (insertColumns_calls t _ _ (List.Subset.refl _)) fun _ =>
      .bind (Identifier.accept_calls _) fun _ => .bind (timeToLive_calls _) fun _ => .pure _

theorem assignments_calls (t : Table) :
    ∀ es : List (String × Value), (assignments t es).CallsOnly t.Runs
  | [] => .pure _
  | (name, supplied) :: rest => by
    have hrest := assignments_calls t rest
    refine .after (t.validator_calls name) fun v _ _ hv => ?_
    have hfield := Table.mem_fields_of_validator hv
    split
    · exact hrest
    · refine .bind (resolve_calls t hfield supplied) fun r => ?_
      split
      · exact hrest
      · split
        · exact .refuse _
        · exact .bind ((assignment_calls v r).imp fun _ _ h => ⟨_, hfield, .inl h⟩) fun _ =>
            .bind hrest fun _ => .pure _

theorem requiredRelations_calls (t : Table) (query : List (String × Value)) (what : String) :
    (requiredRelations t query what).CallsOnly t.JudgesBy := by
  refine .bind (Query.relations_calls t _) fun rs => ?_
  split
  · exact .refuse _
  · exact .pure _

theorem condition_calls (t : Table) (o : Modification) : (condition t o).CallsOnly t.JudgesBy := by
  unfold condition
  split
  · exact .pure _
  · split
    · exact .pure _
    · exact .pure _
    · exact .map (Query.relations_calls t _)

theorem modification_calls (t : Table) (o : Modification) :
    (modification t o).CallsOnly t.Runs := by
  refine .bind (assignments_calls t o.values) fun assignments => ?_
  split
  on_goal 1 => refine .bind (.refuse _) fun _ => ?_
  all_goals
    exact .bind ((requiredRelations_calls t _ _).imp Table.JudgesBy.runs) fun _ =>
      .bind (Identifier.accept_calls _) fun _ => .bind (timeToLive_calls _) fun _ =>
        .bind ((condition_calls t o).imp Table.JudgesBy.runs) fun _ => .pure _

theorem deletion_calls (t : Table) (o : Deletion) : (deletion t o).CallsOnly t.JudgesBy :=
  .bind (requiredRelations_calls t _ _) fun _ => .bind (Identifier.accept_calls _) fun _ => .pure _

end Compile

open Compile in
/-- Putting the statement of an operation together calls functions of the table, and no others. -/
theorem Operation.compile_calls (t : Table) (o : Operation) : (o.compile t).CallsOnly t.Runs := by
  cases o with
  | select o =>
    exact .bind ((selection_calls t o).imp Table.JudgesBy.runs) fun _ => .pure _
  | insert o => exact insertion_calls t o
  | update o => exact modification_calls t o
  | delete o => exact (deletion_calls t o).imp Table.JudgesBy.runs
  | truncate o => exact .bind (Identifier.accept_calls _) fun _ => .pure _
  | createIndex o => exact .bind (.lift _) fun _ => definition_calls _
  | _ => exact definition_calls _

end WideColumn
