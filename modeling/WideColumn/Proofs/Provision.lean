import WideColumn.Proofs.Naming
import WideColumn.Proofs.Stillness

/-!
# How fields of an insertion get their values

The stored fields of a table take their values one after the other (`Compile.Taken`): a value that
is supplied is taken as it is, and otherwise the default makes one, by one call if it is a function.
Between two fields values are checked only, and no function is called without arguments
(`Session.Checks`). The columns of an insertion are the fields whose value is not missing, in the
order of the table, each with what is written for its value (`Compile.Provision`); a name that is
not declared is refused before anything else happens (`Operation.compile_insertion`).
-/

namespace WideColumn

/-! ## Checking -/

/-- From one session to the other lines were written into the journal and functions were called, all
of them with arguments, as validators and producers of complaints are. -/
inductive Session.Checks : Session → Session → Prop
  | nothing (s) : Checks s s
  | line (s : Session) (journal) : Checks s { s with journal }
  | call (s f x xs) : Checks s ((Callback.apply f (x :: xs)).perform s).2
  | trans {s₁ s₂ s₃} (h : Checks s₁ s₂) (h' : Checks s₂ s₃) : Checks s₁ s₃

namespace Session

instance : IsPreorder Session Checks where
  refl := .nothing
  trans _ _ _ := .trans

theorem admitsCalls_checks : AdmitsCalls Checks := ⟨.line, fun f x xs s => .call s f x xs⟩

/-- The calls without arguments that were noted. -/
def provisions (s : Session) : List Event := s.events.filter fun e => e.arguments.isEmpty

theorem provisions_apply (f : Value) (arguments : List Value) (s : Session) :
    ((Callback.apply f arguments).perform s).2.provisions =
      (Callback.noted f arguments).filter (fun e => e.arguments.isEmpty) ++ s.provisions := by
  have hevents := (Callback.apply_noted f arguments s).events
  rw [provisions, hevents, List.filter_append]
  rfl

/-- Checking values notes no calls without arguments. -/
theorem Checks.provisions_eq {s s' : Session} (h : Checks s s') : s'.provisions = s.provisions := by
  induction h with
  | nothing => rfl
  | line => rfl
  | call s f x xs =>
    have hnone : (Callback.noted f (x :: xs)).filter (fun e => e.arguments.isEmpty) = [] := by
      unfold Callback.noted
      split <;> rfl
    rw [provisions_apply, hnone, List.nil_append]
  | trans _ _ ih ih' => rw [ih', ih]

end Session

/-! ## Taking values -/

theorem Table.isKey_of_mem {t : Table} {name : String} (h : name ∈ t.partitionKey) :
    t.isKey name = true :=
  List.contains_iff_mem.2 (List.mem_append_left _ h)

namespace Compile

/-- The value that is supplied under a name; one that is missing does not count. -/
def supplied? (values : List (String × Value)) (name : String) : Option Value :=
  (get? values name).filter fun x => !x.isMissing

/-- The value that is given; one that is missing does not count. -/
def given? (x : Value) : Option Value := if x.isMissing then none else some x

/-- The field takes its value: the one that is supplied, or else what the default makes. -/
inductive Takes (f : Field) : Option Value → Session → Resolved → Session → Prop
  | supplied {x s} : Takes f (some x) s ⟨x, false⟩ s
  | nothing {s} (h : f.hasDefault = false) : Takes f none s ⟨.missing, false⟩ s
  | constant {s} (hdefault : f.hasDefault = true) (h : f.default.isCallable = false) :
    Takes f none s ⟨f.default, true⟩ s
  | provider {s x s'} (h : f.default.isCallable = true)
    (hcall : (Callback.apply f.default []).perform s = (.ok x, s')) : Takes f none s ⟨x, true⟩ s'

/-- The stored fields among the given ones take their values one after the other. In between values
are checked, and nothing else happens. -/
inductive Taken (values : List (String × Value)) :
    Session → List Field → List (Field × Resolved) → Session → Prop
  | done {s} : Taken values s [] [] s
  | virtual {s f fs rs s'} (hf : f.isVirtual = true) (h : Taken values s fs rs s') :
    Taken values s (f :: fs) rs s'
  | stored {s f r s₁ s₂ fs rs s'} (hf : f.isVirtual = false)
    (htakes : Takes f (supplied? values f.name) s r s₁) (hchecks : s₁.Checks s₂)
    (h : Taken values s₂ fs rs s') : Taken values s (f :: fs) ((f, r) :: rs) s'

open Session (admitsCalls_checks provisions_apply)

variable {t : Table} {values : List (String × Value)} {f : Field} {fs : List Field}
  {r : Resolved} {rs : List (Field × Resolved)} {s s' : Session}

/-- What is supplied under a name is what is given there, and nothing when nothing is there. -/
theorem supplied?_eq (name : String) :
    supplied? values name = given? ((get? values name).getD .missing) := by
  unfold supplied? given?
  cases get? values name with
  | none => rfl
  | some x => cases x <;> rfl

/-- The value of a field is taken. -/
theorem takes_of_resolveValue {x : Value} (h : (resolveValue f x).perform s = (.ok r, s')) :
    Takes f (given? x) s r s' := by
  unfold resolveValue at h
  unfold given?
  by_cases hmissing : x.isMissing = true
  · rw [if_pos hmissing]
    split at h
    · rename_i hdefault
      have hhas : f.hasDefault = true := (Bool.and_eq_true_iff.1 hdefault).2
      obtain ⟨y, hy, rfl⟩ := Action.map_ok h
      unfold Field.resolveDefault at hy
      split at hy
      · rename_i hcallable
        exact .provider hcallable hy
      · rename_i hconstant
        cases hy
        exact .constant hhas (by simpa using hconstant)
    · rename_i hnone
      obtain rfl : x = .missing := by cases x <;> first | rfl | cases hmissing
      cases h
      exact .nothing (by simpa [Value.isMissing] using hnone)
  · rw [if_neg (by simp [hmissing])] at h
    rw [if_neg hmissing]
    cases h
    exact .supplied

/-- The column of a field has the name of the field, and what is written for its value. -/
def ColumnOf (r : Field × Resolved) (c : Identifier × Operand) : Prop :=
  Identifier.ofText r.1.name = .ok c.1 ∧ c.2 = r.2.value.written

/-- The field has a value. -/
def hasValue (r : Field × Resolved) : Bool := !r.2.value.isMissing

/-- The value is null-like only if the field is neither in the key nor required. -/
def IsFilled (t : Table) (r : Field × Resolved) : Prop :=
  r.2.value.isNullLike = true → t.isKey r.1.name = false ∧ r.1.isRequired = false

/-- A value that is not checked is written as it is, any other becomes an operand. -/
theorem writeOperand_cases {v : FieldValidator} {o : Operand}
    (h : (writeOperand v r).perform s = (.ok o, s')) :
    o = r.value.written ∨ (Operand.compile v false r.value).perform s = (.ok o, s') := by
  unfold writeOperand at h
  split at h
  · rename_i hunchecked
    have hnone : r.value.storeFunction? = none := by
      simpa [Value.isStoreFunction] using (Bool.and_eq_true_iff.1 hunchecked).2
    cases h
    rw [Value.written, hnone]
    exact .inl rfl
  · exact .inr h

/-- What a write operand binds is what is written for the value. -/
theorem writeOperand_written {v : FieldValidator} {o : Operand}
    (hcounter : v.field.isCounter = false) (h : (writeOperand v r).perform s = (.ok o, s')) :
    o = r.value.written := by
  rcases writeOperand_cases h with hwritten | h
  · exact hwritten
  · refine Operand.compile_written (.inl fun htype => ?_) h
    rw [FieldValidator.isCounter_iff.2 htype] at hcounter
    cases hcounter

/-- The columns of an insertion are those of the fields that have a value. -/
theorem insertColumns_taken (hwell : t.WellFormed) : ∀ {fs : List Field} {s s' : Session}
    {columns : List (Identifier × Operand)}, (∀ f ∈ fs, f ∈ t.fields) →
    (insertColumns t values fs).perform s = (.ok columns, s') →
      ∃ rs, Taken values s fs rs s' ∧ List.Forall₂ ColumnOf (rs.filter hasValue) columns ∧
        ∀ r ∈ rs, IsFilled t r
  | [], s, s', columns, _, h => by
    cases h
    exact ⟨[], .done, .nil, nofun⟩
  | f :: fs, s, s', columns, hfs, h => by
    have hrest {s : Session} {columns : List (Identifier × Operand)}
        (h : (insertColumns t values fs).perform s = (.ok columns, s')) :=
      insertColumns_taken hwell (fun f' hf' => hfs f' (List.mem_cons_of_mem f hf')) h
    unfold insertColumns at h
    split at h
    · rename_i hvirtual
      obtain ⟨rs, htaken, hcolumns, hfilled⟩ := hrest h
      exact ⟨rs, .virtual hvirtual htaken, hcolumns, hfilled⟩
    · rename_i hstored
      obtain ⟨r, s₁, hr, h⟩ := Action.bind_ok h
      obtain ⟨htakes, hnull⟩ := resolve_takes hr
      have htakes : Takes f (supplied? values f.name) s r s₁ :=
        supplied?_eq f.name ▸ takes_of_resolveValue htakes
      have hvirtual : f.isVirtual = false := by simpa using hstored
      split at h
      · rename_i hmissing
        obtain ⟨rs, htaken, hcolumns, hfilled⟩ := hrest h
        refine ⟨(f, r) :: rs, .stored hvirtual htakes (.nothing s₁) htaken, ?_,
          List.forall_mem_cons.2 ⟨hnull, hfilled⟩⟩
        rwa [List.filter_cons_of_neg (by simp [hasValue, hmissing])]
      · rename_i hvalue
        split at h
        · exact absurd h Action.refuse_ne_ok
        · rename_i hcounter
          obtain ⟨v, s₂, hv, h⟩ := Action.bind_ok h
          obtain ⟨operand, s₃, hoperand, h⟩ := Action.bind_ok h
          obtain ⟨column, s₄, hcolumn, h⟩ := Action.bind_ok h
          obtain ⟨rest, s₅, hcolumns, h⟩ := Action.bind_ok h
          cases h
          obtain ⟨rs, htaken, hcolumns, hfilled⟩ := hrest hcolumns
          have hfield : v.field = f := hwell.field_of_validator? (hfs f List.mem_cons_self)
            (Table.validator_ok hv)
          have hwritten : operand = r.value.written :=
            writeOperand_written (by rw [hfield]; simpa using hcounter) hoperand
          have hchecks : s₁.Checks s₄ :=
            ((admitsCalls_checks.within (t.validator_calls _) fun _ _ h => h).of_run hv).trans
              (((admitsCalls_checks.within (writeOperand_calls v r) fun _ _ h => h.2).of_run
                hoperand).trans ((admitsCalls_checks.within (Identifier.accept_calls _)
                  fun _ _ h => h).of_run hcolumn))
          refine ⟨(f, r) :: rs, .stored hvirtual htakes hchecks htaken, ?_,
            List.forall_mem_cons.2 ⟨hnull, hfilled⟩⟩
          rw [List.filter_cons_of_pos (by simp [hasValue, hvalue])]
          exact .cons ⟨(Action.lift_ok hcolumn).1, hwritten⟩ hcolumns

/-! ## What the run tells -/

/-- The fields that take values are the stored ones, in their order. -/
theorem Taken.fields (h : Taken values s fs rs s') :
    rs.map Prod.fst = fs.filter fun f => !f.isVirtual := by
  induction h with
  | done => rfl
  | virtual hf _ ih => rw [ih, List.filter_cons_of_neg (by simp [hf])]
  | stored hf _ _ _ ih => rw [List.map_cons, ih, List.filter_cons_of_pos (by simp [hf])]

/-- A value that is supplied wins over the default. -/
theorem Taken.supplied (h : Taken values s fs rs s') : ∀ r ∈ rs, ∀ x,
    supplied? values r.1.name = some x → r.2 = ⟨x, false⟩ := by
  induction h with
  | done => exact nofun
  | virtual _ _ ih => exact ih
  | stored _ htakes _ _ ih =>
    refine List.forall_mem_cons.2 ⟨fun x hx => ?_, ih⟩
    dsimp only at hx
    rw [hx] at htakes
    cases htakes
    rfl

/-- The call without arguments that the default of a field notes when it makes the value. -/
def provision (r : Field × Resolved) : List Event :=
  if r.2.byDefault then
    (Callback.noted r.1.default []).filter fun e => e.arguments.isEmpty
  else []

theorem Takes.provisions {x? : Option Value} (h : Takes f x? s r s') :
    s'.provisions = provision (f, r) ++ s.provisions := by
  cases h with
  | supplied | nothing => rfl
  | constant _ h =>
    have hnone : Callback.noted f.default [] = [] := by
      unfold Callback.noted
      split
      · rename_i hdefault
        rw [hdefault] at h
        cases h
      · rename_i hdefault
        rw [hdefault] at h
        cases h
      · rfl
    rw [provision, if_pos rfl, hnone]
    rfl
  | provider _ hcall =>
    have hend := provisions_apply f.default [] s
    rw [hcall] at hend
    exact hend

/-- Each default that makes a value is called once for it, in the order of the fields. -/
theorem Taken.provisions (h : Taken values s fs rs s') :
    s'.provisions = rs.reverse.flatMap provision ++ s.provisions := by
  induction h with
  | done => rfl
  | virtual _ _ ih => exact ih
  | stored _ htakes hchecks _ ih =>
    rw [ih, hchecks.provisions_eq, htakes.provisions, List.reverse_cons, List.flatMap_append,
      List.flatMap_singleton, List.append_assoc]

/-- Columns of fields whose names are identifiers have these names. -/
theorem columns_eq {columns : List (Identifier × Operand)}
    (hnames : ∀ r ∈ rs, Name.IsIdentifier r.1.name) (h : List.Forall₂ ColumnOf rs columns) :
    columns.map (fun c => (c.1.text, c.2)) = rs.map fun r => (r.1.name, r.2.value.written) := by
  induction h with
  | nil => rfl
  | cons hcolumn _ ih =>
    obtain ⟨hname, hrest⟩ := List.forall_mem_cons.1 hnames
    have htext := (Identifier.text_eq_iff hcolumn.1).2 hname.isPlain
    rw [List.map_cons, List.map_cons, ih hrest, htext, hcolumn.2]

/-- What an insertion that is put together between two sessions gives the stored fields, and the
columns that it has for them. -/
structure Provision (t : Table) (values : List (String × Value)) (s s' : Session)
    (columns : List (Identifier × Operand)) (rs : List (Field × Resolved)) : Prop where
  taken : Taken values s t.fields rs s'
  fields : rs.map Prod.fst = t.storedFields
  listed : columns.map (fun c => (c.1.text, c.2)) =
    (rs.filter hasValue).map fun r => (r.1.name, r.2.value.written)
  nodup : (columns.map fun c => c.1.text).Nodup
  filled : ∀ f ∈ t.storedFields, t.isKey f.name = true ∨ f.isRequired = true →
    ∃ x : Value, x.isNullLike = false ∧ (f.name, x.written) ∈ columns.map fun c => (c.1.text, c.2)
  key : ∀ name ∈ t.keyColumns, name ∈ t.storedFields.map Field.name
  supplied : ∀ r ∈ rs, ∀ x, supplied? values r.1.name = some x → r.2 = ⟨x, false⟩
  provisions : s'.provisions = rs.reverse.flatMap provision ++ s.provisions

/-- A field of the key and one that is required have a value. -/
theorem IsFilled.isNullLike_of_needed {r : Field × Resolved} (h : IsFilled t r)
    (hneeded : t.isKey r.1.name = true ∨ r.1.isRequired = true) :
    r.2.value.isNullLike = false := by
  refine Bool.eq_false_iff.2 fun hnull => ?_
  obtain ⟨hkey, hrequired⟩ := h hnull
  rw [hkey, hrequired] at hneeded
  simp at hneeded

theorem hasValue_of_isNullLike {x : Field × Resolved} (h : x.2.value.isNullLike = false) :
    hasValue x = true := by
  unfold hasValue
  cases hx : x.2.value <;> first | rfl | rw [hx] at h; cases h

theorem provision_of_insertColumns (hwell : t.WellFormed)
    (hnames : ∀ column, t.IsStored column → Name.IsIdentifier column)
    {columns : List (Identifier × Operand)}
    (h : (insertColumns t values t.fields).perform s = (.ok columns, s')) :
    ∃ rs, Provision t values s s' columns rs := by
  obtain ⟨rs, htaken, hall, hfilled⟩ := insertColumns_taken hwell (fun _ => id) h
  have hfields : rs.map Prod.fst = t.storedFields := htaken.fields
  have hstored : ∀ r ∈ rs, Name.IsIdentifier r.1.name := by
    intro r hr
    exact hnames _ ⟨r.1, hfields ▸ List.mem_map_of_mem hr, rfl⟩
  have hlisted := columns_eq (fun r hr => hstored r (List.mem_of_mem_filter hr)) hall
  refine ⟨rs, htaken, hfields, hlisted, ?_, ?_, ?_, htaken.supplied, htaken.provisions⟩
  · have htexts : columns.map (fun c => c.1.text) = (rs.filter hasValue).map fun r => r.1.name := by
      have hboth := congrArg (List.map Prod.fst) hlisted
      rw [List.map_map, List.map_map] at hboth
      exact hboth
    have hnamed : rs.map (fun r => r.1.name) = t.storedFields.map Field.name := by
      rw [← hfields, List.map_map]
      rfl
    rw [htexts]
    refine (List.filter_sublist.map _).nodup ?_
    rw [hnamed]
    exact (List.filter_sublist.map _).nodup hwell.fields
  · intro f hf hneeded
    obtain ⟨x, hx, rfl⟩ := List.mem_map.1 (hfields ▸ hf)
    have hvalue := (hfilled x hx).isNullLike_of_needed hneeded
    refine ⟨x.2.value, hvalue, hlisted ▸ List.mem_map.2 ⟨x, ?_, rfl⟩⟩
    exact List.mem_filter.2 ⟨hx, hasValue_of_isNullLike hvalue⟩
  · intro name hname
    obtain ⟨f, hf, hfname, -⟩ := hwell.key name hname
    exact List.mem_map.2 ⟨f, hf, hfname⟩

end Compile

namespace Operation

open Compile

/-- A name that is not declared is refused before anything else happens. -/
theorem insertion_refused {t : Table} {o : Insertion} (s : Session)
    (h : ∃ e ∈ o.values, e.1 ∉ t.fields.map Field.name) :
    ∃ r s', (insertion t o).perform s = (.error (.refusal r), s') ∧ r.code = .invalidSchema ∧
      s.Aside s' := by
  obtain ⟨e, he, hname⟩ := h
  have hnone : t.field? e.1 = none := by
    refine List.find?_eq_none.2 fun f hf hfname => hname ?_
    exact List.mem_map.2 ⟨f, hf, by simpa using hfname⟩
  have hunknown : (((o.values.map (·.1)).filter fun n => (t.field? n).isNone).isEmpty) = false := by
    refine List.isEmpty_eq_false_iff.2 (List.ne_nil_of_mem (a := e.1) ?_)
    exact List.mem_filter.2 ⟨List.mem_map_of_mem he, by rw [hnone]; rfl⟩
  unfold insertion
  dsimp only
  rw [if_pos (by simpa using hunknown)]
  exact ⟨_, _, rfl, rfl, Session.admits_aside s _⟩

/-- An insertion into a registered table whose columns are identifiers is refused as a matter of the
schema when a name is not declared. Otherwise, if it is put together, its columns are the stored
fields that have a value, supplied or made by the default, in the order of the table; key columns
and required stored fields are among them and are not null-like, and each default is asked once if
its field is not supplied and not at all otherwise. -/
theorem compile_insertion {t : Table} (hregistered : t.Registered)
    (hnames : ∀ column, t.IsStored column → Name.IsIdentifier column) (o : Insertion)
    (s : Session) :
    ((∃ e ∈ o.values, e.1 ∉ t.fields.map Field.name) →
      ∃ r s', ((insert o).compile t).perform s = (.error (.refusal r), s') ∧
        r.code = .invalidSchema ∧ s.Aside s') ∧
    ∀ p s', ((insert o).compile t).perform s = (.ok p, s') →
      ∃ i rs, p.statement = .insert i ∧ Provision t o.values s s' i.columns rs := by
  refine ⟨insertion_refused s, fun p s' h => ?_⟩
  obtain ⟨i, hi, hcolumns, -⟩ := insertion_columns h
  obtain ⟨rs, hprovision⟩ := provision_of_insertColumns hregistered.wellFormed hnames hcolumns
  exact ⟨i, rs, hi, hprovision⟩

/-! ### A person of a name that is provided -/

/-- People whose names are provided, whose age is required, and who have a note that is not
stored. -/
def providedDefinition : Value := .map [
  (.text "fields", .map [
    (.text "id", .text "int"),
    (.text "name", .map [(.text "type", .text "text"),
      (.text "default", .function .hook [.text "name", .text "ann"] 0)]),
    (.text "age", .map [(.text "type", .text "int"), (.text "default", .int 30),
      (.text "rule", .map [(.text "required", .bool true)])]),
    (.text "note", .map [(.text "type", .text "text"), (.text "virtual", .bool true),
      (.text "rule", .map [(.text "required", .bool true)])])]),
  (.text "key", .list [.text "id"])]

/-- The table that `providedDefinition` declares. -/
def providedPeople : Table where
  name := "people"
  fields := [
    { name := "id", type := "int" },
    { name := "name", type := "text", default := .function .hook [.text "name", .text "ann"] 0 },
    { name := "age", type := "int", default := .int 30, rules := [{ required := true }] },
    { name := "note", type := "text", rules := [{ required := true }], isVirtual := true }]
  partitionKey := ["id"]
  clusteringKey := []
  clusteringOrder := []
  indexes := []
  customIndexes := []
  views := []
  defaultTtl := none
  hooks := []

/-- The insertion of a person whose age is told, and nothing else. -/
def ageing : Insertion := { table := "people", values := [("age", .int 5), ("id", .int 1)] }

/-- The statement of `ageing`. -/
def ageingStatement : InsertStatement where
  table := peopleTable
  columns := [(idColumn, .bound (.int 1)), (nameColumn, .bound (.text "ann")),
    (⟨"age".toList, by decide⟩, .bound (.int 5))]
  ifNotExists := false
  ttl := none

theorem providedPeople_registered : providedPeople.Registered :=
  .inl ⟨.text "people", providedDefinition, by with_unfolding_all rfl⟩

theorem providedPeople_identifiers :
    ∀ column, providedPeople.IsStored column → Name.IsIdentifier column := by
  have hfields : ∀ f ∈ providedPeople.storedFields, Name.IsIdentifier f.name := by decide
  rintro column ⟨f, hf, rfl⟩
  exact hfields f hf

theorem compile_ageing : ∃ p s', ((insert ageing).compile providedPeople).perform {} = (.ok p, s') ∧
    p.statement = .insert ageingStatement ∧ s'.events.map Event.name = ["name"] := by
  refine ⟨_, _, by with_unfolding_all rfl, rfl, rfl⟩

/-- The age that is told wins over its default, and the name is asked for once. -/
theorem compile_insertion_ageing : providedPeople.Registered ∧
    (∀ column, providedPeople.IsStored column → Name.IsIdentifier column) ∧
    ∃ p s' rs, ((insert ageing).compile providedPeople).perform {} = (.ok p, s') ∧
      p.statement = .insert ageingStatement ∧
      Provision providedPeople ageing.values {} s' ageingStatement.columns rs ∧
      s'.events.map Event.name = ["name"] := by
  obtain ⟨p, s', hp, hstatement, hevents⟩ := compile_ageing
  obtain ⟨i, rs, hi, hprovision⟩ := (compile_insertion providedPeople_registered
    providedPeople_identifiers ageing {}).2 p s' hp
  obtain rfl : i = ageingStatement := Statement.insert.inj (hi.symm.trans hstatement)
  exact ⟨providedPeople_registered, providedPeople_identifiers, p, s', rs, hp, hstatement,
    hprovision, hevents⟩

/-- The note is required, but it is virtual: the insertion is put together without it. -/
theorem not_filled_note :
    Table.ofDefinition (.text "people") providedDefinition = .ok providedPeople ∧
    (∃ f ∈ providedPeople.fields, f.name = "note" ∧ f.isRequired = true) ∧
    ∃ p s' i, ((insert ageing).compile providedPeople).perform {} = (.ok p, s') ∧
      p.statement = .insert i ∧ "note" ∉ i.columns.map fun c => c.1.text := by
  obtain ⟨p, s', hp, hstatement, -⟩ := compile_ageing
  exact ⟨by with_unfolding_all rfl, by decide, p, s', ageingStatement, hp, hstatement, by decide⟩

end Operation

end WideColumn
