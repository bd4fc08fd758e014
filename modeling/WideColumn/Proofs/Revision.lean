import WideColumn.Proofs.Delta
import WideColumn.Proofs.Independence
import WideColumn.Proofs.Provision

/-!
# What an update assigns

The names that an update supplies are gone through in their order (`Compile.Revised`). A name has to
be declared; a virtual field is passed over, and every other field takes the value that is supplied
for it, or what its default makes when a missing value is. A value makes one assignment to the
column of its field: it is set, or changed as a directive asks for (`Compile.Assigns`).

An assignment has two sides (`Assignment.render_sides`). On the left stands the column, quoted and
possibly with an index, and every column on the right is that column too. Fields of the key are
never assigned to, and required fields never take a null-like value
(`Operation.compile_revision`).
-/

namespace WideColumn

/-! ## The sides of an assignment -/

/-- The right side of an assignment. -/
inductive RightSide where
  | placeholder
  | storeFunction (text : String)
  | column (column : Identifier)
  | plus (left right : RightSide)
  | minus (left right : RightSide)

namespace RightSide

/-- The text of a right side. -/
def render : RightSide → String
  | placeholder => "?"
  | storeFunction text => text
  | column c => c.quoted
  | plus l r => l.render ++ " + " ++ r.render
  | minus l r => l.render ++ " - " ++ r.render

/-- The columns that stand on a right side. -/
def columns : RightSide → List Identifier
  | placeholder | storeFunction _ => []
  | column c => [c]
  | plus l r | minus l r => l.columns ++ r.columns

end RightSide

/-- The right side that an operand is. -/
def Operand.rightSide : Operand → RightSide
  | bound _ => .placeholder
  | change c true _ => .minus (.column c) .placeholder
  | change c false _ => .plus (.column c) .placeholder
  | storeFunction text => .storeFunction text

theorem Operand.render_rightSide (o : Operand) : o.rightSide.render = o.render := by
  cases o with
  | change c negative n => cases negative <;> exact String.append_assoc
  | _ => rfl

namespace Assignment

/-- The text on the left of an assignment: its column, with an index if one element is replaced. -/
def left (a : Assignment) : String :=
  match a with
  | replace c _ _ => c.quoted ++ "[?]"
  | a => a.column.quoted

/-- The right side of an assignment. -/
def right : Assignment → RightSide
  | set _ o => o.rightSide
  | extend c o => .plus (.column c) o.rightSide
  | prepend c o => .plus o.rightSide (.column c)
  | remove c o => .minus (.column c) o.rightSide
  | removeKeys c _ => .minus (.column c) .placeholder
  | replace _ _ _ => .placeholder

theorem render_sides (a : Assignment) : a.render = a.left ++ "=" ++ a.right.render := by
  cases a <;>
    simp [render, left, right, column, RightSide.render, Operand.render_rightSide,
      String.append_assoc]

/-- On the left stands the column or one of its elements. -/
theorem left_cases (a : Assignment) :
    a.left = a.column.quoted ∨ a.left = a.column.quoted ++ "[?]" := by
  cases a with
  | replace => exact .inr rfl
  | _ => exact .inl rfl

end Assignment

/-- The name is that of a field that is stored. -/
def Table.stores (t : Table) (name : String) : Bool := (t.field? name).any fun f => !f.isVirtual

/-- Looking a validator up leaves the session as it is. -/
theorem Table.validator_session {t : Table} {name : String} {v : FieldValidator} {s s' : Session}
    (h : (t.validator name).perform s = (.ok v, s')) : s' = s := by
  unfold validator at h
  split at h
  · cases h
    rfl
  · exact absurd h Action.refuse_ne_ok

namespace Compile

/-! ## What a value assigns -/

/-- The operand is what is written for the value, or what stands for it in a counter. -/
def IsWritten (v : FieldValidator) (x : Value) (o : Operand) : Prop :=
  o = x.written ∨ (v.type = .counter ∧ o.Counts v x)

/-- The assignment does to the column what a directive asks for with its operand. -/
inductive Applies (v : FieldValidator) (column : Identifier) :
    Directive → Value → Assignment → Prop
  | add {x} : Applies v column .add x (.extend column x.written)
  | append {x} : Applies v column .append x (.extend column x.written)
  | prepend {x} (hlist : v.type = .list) : Applies v column .prepend x (.prepend column x.written)
  | replaceEntry {key x} (hmap : v.type = .map) :
    Applies v column .replace (.map [(key, x)]) (.replace column key x)
  | replaceElement {pair index x} (hlist : v.type = .list)
    (hpair : Value.sequence? pair = some [index, x]) :
    Applies v column .replace pair (.replace column index x)
  | remove {x} (hmap : v.type ≠ .map) : Applies v column .remove x (.remove column x.written)
  | removeKeys {x keys} (hmap : v.type = .map) (hkeys : removedKeys? x = some keys) :
    Applies v column .remove x (.removeKeys column keys)

/-- What the value of a field assigns to a column: it is set, or it is a directive for a collection
and is applied. -/
inductive Assigns (v : FieldValidator) (column : Identifier) (x : Value) : Assignment → Prop
  | value {o} (hplain : directiveOf? x = none) (ho : IsWritten v x o) :
    Assigns v column x (.set column o)
  | directive {key d y a} (hdirective : directiveOf? x = some (key, d, y))
    (hcollection : v.field.isCollection = true) (happlies : Applies v column d y a) :
    Assigns v column x a

/-- The fields that are stored take the values that are supplied under their names, one after the
other. In between values are checked, and nothing else happens. -/
inductive Revised (t : Table) :
    Session → List (String × Value) → List (Field × Resolved) → Session → Prop
  | done {s} : Revised t s [] [] s
  | virtual {s name x f es rs s'} (hf : t.field? name = some f) (hvirtual : f.isVirtual = true)
    (h : Revised t s es rs s') : Revised t s ((name, x) :: es) rs s'
  | stored {s name x f r s₁ s₂ es rs s'} (hf : t.field? name = some f)
    (hstored : f.isVirtual = false) (htakes : Takes f (given? x) s r s₁) (hchecks : s₁.Checks s₂)
    (h : Revised t s₂ es rs s') : Revised t s ((name, x) :: es) ((f, r) :: rs) s'

variable {t : Table} {v : FieldValidator} {column : Identifier} {d : Directive} {x : Value}
  {a : Assignment} {r : Resolved} {s s' : Session}

theorem writeOperand_isWritten {o : Operand} (h : (writeOperand v r).perform s = (.ok o, s')) :
    IsWritten v r.value o := by
  rcases writeOperand_cases h with hwritten | h
  · exact .inl hwritten
  · by_cases hcounter : v.type = .counter
    · exact .inr ⟨hcounter, Operand.compile_counts hcounter h⟩
    · exact .inl (Operand.compile_written (.inl hcounter) h)

theorem counter_ne_of_isCollection (h : v.field.isCollection = true) : v.type ≠ .counter := by
  intro hcounter
  rw [Field.isCollection, v.typed, hcounter] at h
  cases h

theorem replacement_applies (h : (replacement v.field column x).perform s = (.ok a, s')) :
    Applies v column .replace x a := by
  obtain ⟨key, value, rfl, ⟨hmap, rfl⟩ | ⟨hlist, hpair⟩⟩ := replacement_ok h
  · exact .replaceEntry (Option.some.inj (v.typed.symm.trans hmap))
  · exact .replaceElement (Option.some.inj (v.typed.symm.trans hlist)) hpair

/-- A directive for a column that is no counter is applied to it. -/
theorem directiveAssignment_applies (hcounter : v.type ≠ .counter)
    (h : (directiveAssignment v column d x).perform s = (.ok a, s')) : Applies v column d x a := by
  have hwritten {o : Operand} {s s' : Session}
      (h : (Operand.compile v false x).perform s = (.ok o, s')) : o = x.written :=
    Operand.compile_written (.inl hcounter) h
  cases d with
  | replace => exact replacement_applies h
  | remove =>
    by_cases hmap : v.type = .map
    · obtain ⟨keys, hkeys, rfl⟩ := removal_ok hmap h
      exact .removeKeys hmap hkeys
    · simp only [directiveAssignment, removal, if_neg hmap] at h
      obtain ⟨o, s₁, ho, h⟩ := Action.bind_ok h
      cases h
      exact hwritten ho ▸ .remove hmap
  | add =>
    obtain ⟨o, s₁, ho, h⟩ := Action.bind_ok h
    cases h
    exact hwritten ho ▸ .add
  | append =>
    obtain ⟨o, s₁, ho, h⟩ := Action.bind_ok h
    cases h
    exact hwritten ho ▸ .append
  | prepend =>
    obtain ⟨o, s₁, ho, h⟩ := Action.bind_ok h
    split at h
    · rename_i hlist
      cases h
      exact hwritten ho ▸ .prepend hlist
    · exact absurd h Action.refuse_ne_ok

/-- The assignment of a value is what the value assigns to the column of its field. -/
theorem assignment_assigns (h : (assignment v r).perform s = (.ok a, s')) :
    ∃ column, Identifier.ofText v.field.name = .ok column ∧ Assigns v column r.value a := by
  obtain ⟨column, s₁, hcolumn, h⟩ := Action.bind_ok h
  refine ⟨column, (Action.lift_ok hcolumn).1, ?_⟩
  split at h
  · rename_i hplain
    obtain ⟨o, s₂, ho, h⟩ := Action.bind_ok h
    cases h
    exact .value hplain (writeOperand_isWritten ho)
  · rename_i hdirective
    split at h
    · rename_i hcollection
      exact .directive hdirective hcollection
        (directiveAssignment_applies (counter_ne_of_isCollection hcollection) h)
    · exact absurd h Action.refuse_ne_ok

theorem Applies.column_eq (h : Applies v column d x a) : a.column = column := by
  cases h <;> rfl

theorem Assigns.column_eq (h : Assigns v column x a) : a.column = column := by
  cases h with
  | value => rfl
  | directive _ _ happlies => exact happlies.column_eq

/-- What is written for a value names no column. -/
theorem columns_written (x : Value) : x.written.rightSide.columns = [] := by
  unfold Value.written
  split <;> rfl

theorem Applies.columns (h : Applies v column d x a) : ∀ c ∈ a.right.columns, c = column := by
  cases h <;> simp [Assignment.right, RightSide.columns, columns_written]

theorem IsWritten.columns {o : Operand} (hcolumn : Identifier.ofText v.field.name = .ok column)
    (h : IsWritten v x o) : ∀ c ∈ o.rightSide.columns, c = column := by
  rcases h with rfl | ⟨-, h⟩
  · rw [columns_written]
    exact nofun
  · cases h with
    | @change n own _ hown =>
      obtain rfl : own = column := Except.ok.inj (hown.symm.trans hcolumn)
      cases decide (n < 0) <;> simp [Operand.rightSide, RightSide.columns]
    | bound => exact nofun
    | storeFunction => exact nofun

/-- The columns on the right of an assignment are the column on its left. -/
theorem Assigns.columns (hcolumn : Identifier.ofText v.field.name = .ok column)
    (h : Assigns v column x a) : ∀ c ∈ a.right.columns, c = column := by
  cases h with
  | value _ ho => exact ho.columns hcolumn
  | directive _ _ happlies => exact happlies.columns

/-! ## The run over the names -/

/-- The assignment was made of the value of the field. -/
def AssignmentOf (r : Field × Resolved) (a : Assignment) : Prop :=
  ∃ (v : FieldValidator) (s s' : Session), v.field = r.1 ∧
    (assignment v r.2).perform s = (.ok a, s')

/-- The field is not in the key, and its value is null-like only if it is not required. -/
def IsRevisable (t : Table) (r : Field × Resolved) : Prop :=
  t.isKey r.1.name = false ∧ (r.2.value.isNullLike = true → r.1.isRequired = false)

/-- The run over the names: each stored field takes its value, and those that have one are assigned
to. -/
theorem assignments_revised : ∀ {es : List (String × Value)} {s s' : Session}
    {as : List Assignment}, (assignments t es).perform s = (.ok as, s') →
      ∃ rs, Revised t s es rs s' ∧ List.Forall₂ AssignmentOf (rs.filter hasValue) as ∧
        ∀ r ∈ rs, IsRevisable t r
  | [], _, _, _, h => by
    cases h
    exact ⟨[], .done, .nil, nofun⟩
  | (name, x) :: es, s, s', as, h => by
    obtain ⟨v, s₁, hv, h⟩ := Action.bind_ok h
    have hf : t.field? name = some v.field :=
      Table.field?_of_validator? (Table.validator_ok hv)
    have hname : v.field.name = name := Table.name_of_validator? (Table.validator_ok hv)
    rw [Table.validator_session hv] at h
    split at h
    · rename_i hvirtual
      obtain ⟨rs, hrevised, hall, hrevisable⟩ := assignments_revised h
      exact ⟨rs, .virtual hf hvirtual hrevised, hall, hrevisable⟩
    · rename_i hvirtual
      have hstored : v.field.isVirtual = false := by simpa using hvirtual
      obtain ⟨r, s₂, hr, h⟩ := Action.bind_ok h
      obtain ⟨hresolve, hnull⟩ := resolve_takes hr
      have htakes := takes_of_resolveValue hresolve
      split at h
      · rename_i hmissing
        obtain ⟨rs, hrevised, hall, hrevisable⟩ := assignments_revised h
        refine ⟨(v.field, r) :: rs, .stored hf hstored htakes (.nothing s₂) hrevised, ?_,
          List.forall_mem_cons.2 ⟨?_, hrevisable⟩⟩
        · rwa [List.filter_cons_of_neg (by simp [hasValue, hmissing])]
        · obtain ⟨hkey, hrequired⟩ := hnull (Value.isNullLike_of_isMissing hmissing)
          exact ⟨hkey, fun _ => hrequired⟩
      · rename_i hvalue
        split at h
        · exact absurd h Action.refuse_ne_ok
        · rename_i hkey
          obtain ⟨first, s₃, hfirst, h⟩ := Action.bind_ok h
          obtain ⟨rest, s₄, hrest, h⟩ := Action.bind_ok h
          cases h
          obtain ⟨rs, hrevised, hall, hrevisable⟩ := assignments_revised hrest
          have hchecks : s₂.Checks s₃ :=
            (Session.admitsCalls_checks.within (assignment_calls v r) fun _ _ h => h.2).of_run hfirst
          have hunkeyed : t.isKey v.field.name = false := by simpa [hname] using hkey
          refine ⟨(v.field, r) :: rs, .stored hf hstored htakes hchecks hrevised, ?_,
            List.forall_mem_cons.2 ⟨⟨hunkeyed, fun h => (hnull h).2⟩, hrevisable⟩⟩
          rw [List.filter_cons_of_pos (by simp [hasValue, hvalue])]
          exact .cons ⟨v, s₂, s₃, rfl, hfirst⟩ hall

/-! ## What the run tells -/

variable {values : List (String × Value)} {rs : List (Field × Resolved)} {as : List Assignment}

/-- The field of a supplied name is stored, and it takes what is supplied, or what its default makes
when that is missing. -/
structure SuppliedBy (t : Table) (e : String × Value) (r : Field × Resolved) : Prop where
  field : t.field? e.1 = some r.1
  stored : r.1 ∈ t.storedFields
  takes : ∃ s s', Takes r.1 (given? e.2) s r.2 s'

theorem SuppliedBy.name {e : String × Value} {r : Field × Resolved} (h : SuppliedBy t e r) :
    r.1.name = e.1 := by
  simpa using List.find?_some h.field

/-- The assignment of a field: its left side is the quoted name of the field, which may have an
index, each column on its right side is that of the field, and it is what the value assigns. -/
structure Writes (r : Field × Resolved) (a : Assignment) : Prop where
  column : a.column.text = r.1.name
  left : a.left = "\"" ++ r.1.name ++ "\"" ∨ a.left = "\"" ++ r.1.name ++ "\"" ++ "[?]"
  sides : a.render = a.left ++ "=" ++ a.right.render
  right : ∀ c ∈ a.right.columns, c.text = r.1.name
  assigns : ∃ v : FieldValidator, v.field = r.1 ∧ Assigns v a.column r.2.value a

/-- What an update that is put together from a session does with the values that it supplies. -/
structure Revision (t : Table) (values : List (String × Value)) (s : Session)
    (as : List Assignment) (rs : List (Field × Resolved)) : Prop where
  revised : ∃ s', Revised t s values rs s'
  declared : ∀ e ∈ values, e.1 ∈ t.fields.map Field.name
  supplied : List.Forall₂ (SuppliedBy t) (values.filter fun e => t.stores e.1) rs
  written : List.Forall₂ Writes (rs.filter hasValue) as
  ne_nil : as ≠ []
  unkeyed : ∀ e ∈ values, e.1 ∉ t.keyColumns
  apart : ∀ a ∈ as, a.column.text ∉ t.keyColumns
  filled : ∀ r ∈ rs, r.1.isRequired = true → r.2.value.isNullLike = false
  once : (values.map Prod.fst).Nodup → (as.map fun a => a.column.text).Nodup

theorem Revised.declared (h : Revised t s values rs s') :
    ∀ e ∈ values, e.1 ∈ t.fields.map Field.name := by
  have hmem {name : String} {f : Field} (hf : t.field? name = some f) :
      name ∈ t.fields.map Field.name :=
    List.mem_map.2 ⟨f, List.mem_of_find?_eq_some hf, by simpa using List.find?_some hf⟩
  induction h with
  | done => exact nofun
  | virtual hf _ _ ih => exact List.forall_mem_cons.2 ⟨hmem hf, ih⟩
  | stored hf _ _ _ _ ih => exact List.forall_mem_cons.2 ⟨hmem hf, ih⟩

/-- The fields that take values are those of the stored names, in the order of the names. -/
theorem Revised.supplied (h : Revised t s values rs s') :
    List.Forall₂ (SuppliedBy t) (values.filter fun e => t.stores e.1) rs := by
  induction h with
  | done => exact .nil
  | virtual hf hvirtual _ ih =>
    rwa [List.filter_cons_of_neg (by simp [Table.stores, hf, hvirtual])]
  | @stored s name x f r s₁ s₂ es rs s' hf hstored htakes _ _ ih =>
    rw [List.filter_cons_of_pos (by simp [Table.stores, hf, hstored])]
    have hfield : f ∈ t.storedFields :=
      List.mem_filter.2 ⟨List.mem_of_find?_eq_some hf, by simp [hstored]⟩
    exact .cons ⟨hf, hfield, s, s₁, htakes⟩ ih

/-- The columns of a key are stored under their names. -/
theorem stores_of_key (hwell : t.WellFormed) {name : String} (h : name ∈ t.keyColumns) :
    t.stores name = true := by
  obtain ⟨f, hf, rfl, -⟩ := hwell.key name h
  obtain ⟨hmem, hstored⟩ := List.mem_filter.1 hf
  unfold Table.stores Table.field?
  cases hfound : t.fields.find? (·.name == f.name) with
  | none => exact absurd (List.find?_eq_none.1 hfound f hmem) (by simp)
  | some g =>
    have hname : g.name = f.name := by simpa using List.find?_some hfound
    obtain rfl : g = f :=
      List.inj_on_of_nodup_map hwell.fields (List.mem_of_find?_eq_some hfound) hmem hname
    exact hstored

theorem writes_of_assignmentOf {r : Field × Resolved} {a : Assignment}
    (hname : Name.IsIdentifier r.1.name) (h : AssignmentOf r a) : Writes r a := by
  obtain ⟨v, s, s', hv, h⟩ := h
  obtain ⟨column, hcolumn, hassigns⟩ := assignment_assigns h
  obtain rfl := hassigns.column_eq
  rw [hv] at hcolumn
  have htext : a.column.text = r.1.name := (Identifier.text_eq_iff hcolumn).2 hname.isPlain
  have hquoted : a.column.quoted = "\"" ++ r.1.name ++ "\"" := by rw [Identifier.quoted, htext]
  refine ⟨htext, hquoted ▸ a.left_cases, a.render_sides, fun c hc => ?_, v, hv, hassigns⟩
  rw [hassigns.columns (hv.symm ▸ hcolumn) c hc, htext]

/-- The columns that are assigned to have the names of the fields. -/
theorem columns_of_writes (h : List.Forall₂ Writes rs as) :
    as.map (fun a => a.column.text) = rs.map fun r => r.1.name :=
  map_eq_of_forall₂ (fun _ _ hname => hname)
    (List.forall₂_map_left_iff.2 (h.imp fun _ _ hwrites => hwrites.column))

/-- The fields have the names under which values are supplied. -/
theorem names_of_supplied (h : List.Forall₂ (SuppliedBy t) values rs) :
    rs.map (fun r => r.1.name) = values.map Prod.fst :=
  map_eq_of_forall₂ (fun _ _ hname => hname)
    (List.forall₂_map_left_iff.2 (h.imp fun _ _ hby => hby.name))

theorem revision_of_assignments (hwell : t.WellFormed)
    (hnames : ∀ column, t.IsStored column → Name.IsIdentifier column)
    (h : (assignments t values).perform s = (.ok as, s')) (hne : as ≠ []) :
    ∃ rs, Revision t values s as rs := by
  obtain ⟨rs, hrevised, hall, hrevisable⟩ := assignments_revised h
  have hsupplied := hrevised.supplied
  have hstored : ∀ r ∈ rs, r.1 ∈ t.storedFields := by
    intro r hr
    obtain ⟨e, -, hby⟩ := forall₂_mem_right hsupplied hr
    exact hby.stored
  -- what is assigned is what has a value, in the order in which it was supplied
  have hwritten : List.Forall₂ Writes (rs.filter hasValue) as := by
    have hfields : ∀ r ∈ rs.filter hasValue, r.1 ∈ t.storedFields :=
      fun r hr => hstored r (List.mem_of_mem_filter hr)
    refine ((List.forall₂_and_left _ _).2 ⟨hfields, hall⟩).imp fun r a ⟨hmem, h⟩ => ?_
    exact writes_of_assignmentOf (hnames _ ⟨r.1, hmem, rfl⟩) h
  refine ⟨rs, ⟨s', hrevised⟩, hrevised.declared, hsupplied, hwritten, hne, ?_, ?_, ?_, ?_⟩
  · intro e he hkey
    have hstores : e ∈ values.filter fun e => t.stores e.1 :=
      List.mem_filter.2 ⟨he, stores_of_key hwell hkey⟩
    obtain ⟨r, hzip, hby⟩ := exists_mem_zip hsupplied hstores
    have hunkeyed := (hrevisable r (List.of_mem_zip hzip).2).1
    rw [hby.name, Table.isKey, List.contains_iff_mem.2 hkey] at hunkeyed
    cases hunkeyed
  · intro a ha hkey
    obtain ⟨r, hr, hwrites⟩ := forall₂_mem_right hwritten ha
    have hunkeyed := (hrevisable r (List.mem_of_mem_filter hr)).1
    rw [← hwrites.column, Table.isKey, List.contains_iff_mem.2 hkey] at hunkeyed
    cases hunkeyed
  · intro r hr hrequired
    refine Bool.eq_false_iff.2 fun hnull => ?_
    rw [(hrevisable r hr).2 hnull] at hrequired
    cases hrequired
  · intro hnodup
    rw [columns_of_writes hwritten]
    refine (List.filter_sublist.map _).nodup ?_
    rw [names_of_supplied hsupplied]
    exact (List.filter_sublist.map _).nodup hnodup

end Compile

namespace Operation

open Compile

/-- An update of a registered table whose columns are identifiers declares what it supplies, and has
one assignment for each name of a stored field whose value is not missing, in the order of the
names. -/
theorem compile_revision {t : Table} (hregistered : t.Registered)
    (hnames : ∀ column, t.IsStored column → Name.IsIdentifier column) {o : Modification}
    {s s' : Session} {p : Prepared} (h : ((update o).compile t).perform s = (.ok p, s')) :
    ∃ u rs, p.statement = .update u ∧ Revision t o.values s u.assignments rs := by
  obtain ⟨u, hu, ⟨s₁, hassignments⟩, -, -, -, -, hne, -⟩ := modification_ok h
  obtain ⟨rs, hrevision⟩ := revision_of_assignments hregistered.wellFormed hnames hassignments hne
  exact ⟨u, rs, hu, hrevision⟩

/-! ### People with labels -/

/-- People whose names are provided, who have labels with texts, and a note that is not stored. -/
def labelledDefinition : Value := .map [
  (.text "fields", .map [
    (.text "id", .text "int"),
    (.text "name", .map [(.text "type", .text "text"),
      (.text "default", .function .hook [.text "name", .text "ann"] 0)]),
    (.text "labels", .text "map<text, text>"),
    (.text "note", .map [(.text "type", .text "text"), (.text "virtual", .bool true)])]),
  (.text "key", .list [.text "id"])]

/-- The table that `labelledDefinition` declares. -/
def labelledPeople : Table where
  name := "people"
  fields := [
    { name := "id", type := "int" },
    { name := "name", type := "text", default := .function .hook [.text "name", .text "ann"] 0 },
    { name := "labels", type := "map", argument := some "<text, text>" },
    { name := "note", type := "text", isVirtual := true }]
  partitionKey := ["id"]
  clusteringKey := []
  clusteringOrder := []
  indexes := []
  customIndexes := []
  views := []
  defaultTtl := none
  hooks := []

/-- The update of the first person. -/
def labelling (values : List (String × Value)) : Modification :=
  { table := "people", query := [("id", .int 1)], values }

/-- A label is removed, a note is told, and the name is asked for. -/
def unlabelling : Modification := labelling [
  ("labels", .map [(.text "$Remove", .list [.text "old"])]), ("note", .text "-"),
  ("name", .missing)]

theorem labelledPeople_registered : labelledPeople.Registered :=
  .inl ⟨.text "people", labelledDefinition, by with_unfolding_all rfl⟩

theorem labelledPeople_identifiers :
    ∀ column, labelledPeople.IsStored column → Name.IsIdentifier column := by
  have hfields : ∀ f ∈ labelledPeople.storedFields, Name.IsIdentifier f.name := by decide
  rintro column ⟨f, hf, rfl⟩
  exact hfields f hf

theorem compile_unlabelling : ∃ p s' u,
    ((update unlabelling).compile labelledPeople).perform {} = (.ok p, s') ∧
    p.statement = .update u ∧
    u.assignments.map Assignment.render = ["\"labels\"=\"labels\" - ?", "\"name\"=?"] := by
  obtain ⟨p, s', hp, htexts⟩ := Action.ok_of_read
    (g := fun p => match p.statement with
      | .update u => u.assignments.map Assignment.render
      | _ => [])
    (a := (update unlabelling).compile labelledPeople) (s := {})
    (y := ["\"labels\"=\"labels\" - ?", "\"name\"=?"]) (by decide +kernel)
  obtain ⟨u, hu, -⟩ := modification_ok hp
  rw [hu] at htexts
  exact ⟨p, s', u, hp, hu, htexts⟩

/-- The labels and the name are assigned to, in the order in which they are supplied. -/
theorem compile_revision_unlabelling : labelledPeople.Registered ∧
    (∀ column, labelledPeople.IsStored column → Name.IsIdentifier column) ∧
    ∃ p s' u rs, ((update unlabelling).compile labelledPeople).perform {} = (.ok p, s') ∧
      p.statement = .update u ∧ Revision labelledPeople unlabelling.values {} u.assignments rs ∧
      u.assignments.map Assignment.render =
        ["\"labels\"=\"labels\" - ?", "\"name\"=?"] := by
  obtain ⟨p, s', u, hp, hu, htexts⟩ := compile_unlabelling
  obtain ⟨u', rs, hu', hrevision⟩ :=
    compile_revision labelledPeople_registered labelledPeople_identifiers hp
  obtain rfl : u' = u := Statement.update.inj (hu'.symm.trans hu)
  exact ⟨labelledPeople_registered, labelledPeople_identifiers, p, s', u', rs, hp, hu, hrevision,
    htexts⟩

end Operation

end WideColumn
