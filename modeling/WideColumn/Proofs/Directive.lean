import WideColumn.Proofs.Revision

/-!
# Directives and data

What an update supplies for a list, a set or a map is data or asks for a change of the elements: a
mapping whose keys are directives (`Value.IsDirectives`) is meant to be applied. It is applied when
it has a single entry. A mapping of more directives is taken for data: a list or a set refuses it,
since it is no value of the column, but a map is overwritten with it
(`Operation.compile_appliesAll_iff`).
-/

namespace WideColumn

open Compile

namespace Value

/-- The value is a mapping with keys, and all of them are directives. -/
def IsDirectives (x : Value) : Prop :=
  ∃ es, x = .map es ∧ es ≠ [] ∧ ∀ e ∈ es, ∃ key d, e.1 = .text key ∧ directive? key = some d

/-- The value is a mapping with one entry. -/
def IsSingle (x : Value) : Prop := ∃ e, x = .map [e]

theorem lookup_eq_none {key : Value} {es : List (Value × Value)}
    (h : ∀ e ∈ es, key.eqv e.1 = false) : lookup key es = none := by
  induction es with
  | nil => rfl
  | cons e es ih =>
    obtain ⟨hhead, hrest⟩ := List.forall_mem_cons.1 h
    rw [lookup, hhead, ih hrest]
    rfl

variable {x : Value}

theorem eq_map_of_unsigned {es : List (Value × Value)} (h : x.unsigned = .map es) :
    x = .map es := by
  cases x with
  | map => exact h
  | _ => simp [unsigned] at h

/-- A mapping of directives marks no function of the store. -/
theorem IsDirectives.storeFunction? (h : x.IsDirectives) : x.storeFunction? = none := by
  obtain ⟨es, rfl, -, hkeys⟩ := h
  refine lookup_eq_none fun e he => ?_
  obtain ⟨key, d, hkey, hdirective⟩ := hkeys e he
  rw [hkey, eqv_text]
  refine beq_eq_false_iff_ne.2 fun hmarks => ?_
  have hnone : directive? storeFunctionKey = none := by decide
  rw [hmarks, hdirective] at hnone
  cases hnone

end Value

/-- A field has one validator. -/
theorem FieldValidator.eq_of_field {v w : FieldValidator} (h : v.field = w.field) : v = w := by
  obtain ⟨f, type, htype⟩ := v
  obtain ⟨g, type', htype'⟩ := w
  obtain rfl : f = g := h
  obtain rfl : type = type' := Option.some.inj (htype.symm.trans htype')
  rfl

namespace Compile

variable {t : Table} {v : FieldValidator} {column : Identifier} {d : Directive} {x : Value}
  {a : Assignment} {r : Resolved} {s s' : Session}

/-- The assignment does to its column what every directive of a mapping asks for. -/
def AppliesAll (v : FieldValidator) (x : Value) (a : Assignment) : Prop :=
  ∃ es, x = .map es ∧ ∀ e ∈ es, ∃ key d, e.1 = .text key ∧ directive? key = some d ∧
    Applies v a.column d e.2 a

theorem Applies.ne_set (h : Applies v column d x a) {column' : Identifier} {o : Operand} :
    a ≠ .set column' o := by
  cases h <;> nofun

/-- A mapping of one directive is that directive. -/
theorem directiveOf?_single (h : x.IsDirectives) (hsingle : x.IsSingle) :
    ∃ key d y, x = .map [(.text key, y)] ∧ directive? key = some d ∧
      directiveOf? x = some (key, d, y) := by
  obtain ⟨es, rfl, -, hkeys⟩ := h
  obtain ⟨⟨k, y⟩, hes⟩ := hsingle
  obtain rfl := Value.map.inj hes
  obtain ⟨key, d, rfl, hdirective⟩ := hkeys _ List.mem_cons_self
  exact ⟨key, d, y, rfl, hdirective, by rw [directiveOf?, hdirective]; rfl⟩

/-- Only a mapping with one entry is a directive. -/
theorem isSingle_of_directiveOf? {key : String} {y : Value}
    (h : directiveOf? x = some (key, d, y)) : x.IsSingle := by
  unfold directiveOf? at h
  split at h
  · exact ⟨_, rfl⟩
  · cases h

/-- A mapping that is set is a value that the type of the column accepts. -/
theorem accepts_of_assignment {es : List (Value × Value)} (hx : x = .map es)
    (hplain : directiveOf? x = none) (hmarked : x.storeFunction? = none)
    (h : (assignment v ⟨x, false⟩).perform s = (.ok a, s')) : v.type.accepts x = true := by
  obtain ⟨column, s₁, -, h⟩ := Action.bind_ok h
  rw [hplain] at h
  obtain ⟨o, s₂, ho, -⟩ := Action.bind_ok h
  have hblank : x.isNullLike = false := by rw [hx]; rfl
  unfold writeOperand at ho
  rw [if_neg (by simp), Operand.compile_single (by simp [hx]), Operand.ofSingle,
    if_neg (by simp [hblank]), hmarked] at ho
  obtain ⟨_, s₃, hcheck, -⟩ := Action.bind_ok ho
  exact FieldValidator.accepts_of_check hblank hmarked hcheck

/-- Of the collections only a map accepts a mapping. -/
theorem map_of_accepts {es : List (Value × Value)} (hcollection : v.field.isCollection = true)
    (haccepts : v.type.accepts (.map es) = true) : v.type = .map := by
  rw [Field.isCollection, v.typed] at hcollection
  cases htype : v.type with
  | map => rfl
  | list | set =>
    rw [htype] at haccepts
    simp [ColumnType.accepts] at haccepts
  | _ =>
    rw [htype] at hcollection
    cases hcollection

/-- What a mapping of directives assigns to a collection: it is applied when it has one entry, and
set otherwise. -/
theorem assignment_of_directives (hcollection : v.field.isCollection = true)
    (hx : x.IsDirectives) (h : (assignment v ⟨x, false⟩).perform s = (.ok a, s')) :
    (AppliesAll v x a ↔ x.IsSingle) ∧ (a = .set a.column (.bound x) ↔ ¬ x.IsSingle) ∧
      (¬ x.IsSingle → v.type = .map) := by
  have happlied : AppliesAll v x a → a ≠ .set a.column (.bound x) := by
    rintro ⟨es, hes, hall⟩
    obtain ⟨es', hes', hne, -⟩ := hx
    obtain rfl := Value.map.inj (hes.symm.trans hes')
    obtain ⟨e, he⟩ := List.exists_mem_of_ne_nil es hne
    obtain ⟨_, _, -, -, happlies⟩ := hall e he
    exact happlies.ne_set
  obtain ⟨column, -, hassigns⟩ := assignment_assigns h
  by_cases hsingle : x.IsSingle
  · obtain ⟨key, d, y, hxy, hdirective, hread⟩ := directiveOf?_single hx hsingle
    have hall : AppliesAll v x a := by
      cases hassigns with
      | value hplain => cases hplain.symm.trans hread
      | directive hread' _ happlies =>
        cases hread'.symm.trans hread
        refine ⟨_, hxy, List.forall_mem_singleton.2 ⟨key, d, rfl, hdirective, ?_⟩⟩
        rwa [happlies.column_eq]
    exact ⟨iff_of_true hall hsingle, iff_of_false (happlied hall) (not_not_intro hsingle),
      fun hmany => absurd hsingle hmany⟩
  · have hplain : directiveOf? x = none := by
      cases hread : directiveOf? x with
      | none => rfl
      | some read => exact absurd (isSingle_of_directiveOf? hread) hsingle
    have hmarked := hx.storeFunction?
    obtain ⟨es, hes, -⟩ := hx
    have hset : a = .set a.column (.bound x) := by
      cases hassigns with
      | value _ ho =>
        rcases ho with rfl | ⟨hcounter, -⟩
        · rw [Value.written, hmarked]
          rfl
        · exact absurd hcounter (counter_ne_of_isCollection hcollection)
      | directive hread => cases hplain.symm.trans hread
    refine ⟨iff_of_false (fun hall => happlied hall hset) hsingle, iff_of_true hset hsingle, ?_⟩
    intro _
    exact map_of_accepts hcollection (hes ▸ accepts_of_assignment hes hplain hmarked h)

/-- A mapping of one directive is never set, whatever supplies it. -/
theorem not_isDirectives_of_set {e : Value × Value}
    (h : (assignment v r).perform s = (.ok (.set column (.bound (.map [e]))), s')) :
    ¬ (Value.map [e]).IsDirectives := by
  intro hx
  obtain ⟨_, _, _, -, -, hread⟩ := directiveOf?_single hx ⟨e, rfl⟩
  obtain ⟨column', -, hassigns⟩ := assignment_assigns h
  cases hassigns with
  | value hplain ho =>
    have hvalue : r.value = .map [e] := by
      rcases ho with hwritten | ⟨-, hcounts⟩
      · exact Value.eq_of_written hwritten.symm
      · exact Value.eq_map_of_unsigned (hcounts.unsigned rfl).symm
    cases hplain.symm.trans (hvalue ▸ hread)
  | directive _ _ happlies => exact happlies.ne_set rfl

/-- A mapping that is supplied for a field that is stored is what is assigned to it. -/
theorem exists_assignment {values : List (String × Value)} {as : List Assignment} {name : String}
    {es : List (Value × Value)} (h : (assignments t values).perform s = (.ok as, s'))
    (hmem : (name, .map es) ∈ values) (hv : t.validator? name = some v)
    (hstored : v.field.isVirtual = false) :
    ∃ a ∈ as, ∃ s s', (assignment v ⟨.map es, false⟩).perform s = (.ok a, s') := by
  obtain ⟨rs, hrevised, hall, -⟩ := assignments_revised h
  have hfield := Table.field?_of_validator? hv
  have hstores : (name, .map es) ∈ values.filter fun e => t.stores e.1 :=
    List.mem_filter.2 ⟨hmem, by simp [Table.stores, hfield, hstored]⟩
  obtain ⟨⟨f, r⟩, hzip, hby⟩ := exists_mem_zip hrevised.supplied hstores
  obtain rfl : v.field = f := Option.some.inj (hfield.symm.trans hby.field)
  obtain ⟨_, _, htakes⟩ := hby.takes
  obtain rfl : r = ⟨.map es, false⟩ := by
    cases htakes
    rfl
  have hvalue : (v.field, ⟨.map es, false⟩) ∈ rs.filter hasValue :=
    List.mem_filter.2 ⟨(List.of_mem_zip hzip).2, rfl⟩
  obtain ⟨a, hzip, w, s₁, s₂, hw, hrun⟩ := exists_mem_zip hall hvalue
  obtain rfl : w = v := FieldValidator.eq_of_field hw
  exact ⟨a, (List.of_mem_zip hzip).2, s₁, s₂, hrun⟩

end Compile

namespace Operation

/-- An update applies a mapping of directives that is supplied for a list, a set or a map exactly
when the mapping has one entry. A mapping with more entries is set to the column as it is, which
only a map accepts. -/
theorem compile_appliesAll_iff {t : Table} {o : Modification} {s s' : Session} {p : Prepared}
    (h : ((update o).compile t).perform s = (.ok p, s')) :
    ∃ u, p.statement = .update u ∧
      (∀ column e, .set column (.bound (.map [e])) ∈ u.assignments →
        ¬ (Value.map [e]).IsDirectives) ∧
      ∀ name x v, (name, x) ∈ o.values → t.validator? name = some v → v.field.isVirtual = false →
        v.field.isCollection = true → x.IsDirectives →
          ∃ a ∈ u.assignments, Identifier.ofText name = .ok a.column ∧
            (AppliesAll v x a ↔ x.IsSingle) ∧
            (a = .set a.column (.bound x) ↔ ¬ x.IsSingle) ∧ (¬ x.IsSingle → v.type = .map) := by
  obtain ⟨u, hu, ⟨s₁, hassignments⟩, -⟩ := modification_ok h
  refine ⟨u, hu, ?_, ?_⟩
  · intro column e hset
    obtain ⟨rs, -, hall, -⟩ := assignments_revised hassignments
    obtain ⟨r, -, v, _, _, -, hrun⟩ := forall₂_mem_right hall hset
    exact not_isDirectives_of_set hrun
  · intro name x v hmem hv hstored hcollection hx
    obtain ⟨es, rfl, -⟩ := id hx
    obtain ⟨a, ha, _, _, hrun⟩ := exists_assignment hassignments hmem hv hstored
    have hcolumn := column_of_assignment hrun
    rw [Table.name_of_validator? hv] at hcolumn
    exact ⟨a, ha, hcolumn, assignment_of_directives hcollection hx hrun⟩

/-! ### Labels that are changed -/

/-- The validator of the labels. -/
def labelsValidator : FieldValidator :=
  ⟨{ name := "labels", type := "map", argument := some "<text, text>" }, .map, by decide⟩

/-- The column of the labels. -/
def labelsColumn : Identifier := ⟨"labels".toList, by decide⟩

/-- A new label is added and an old one removed. -/
def relabelled : Value := .map [
  (.text "$add", .map [(.text "new", .text "b")]), (.text "$remove", .list [.text "old"])]

theorem validator_labels : labelledPeople.validator? "labels" = some labelsValidator := by
  with_unfolding_all rfl

theorem isDirectives_relabelled : relabelled.IsDirectives := by
  refine ⟨_, rfl, by simp, List.forall_mem_cons.2 ⟨⟨"$add", .add, rfl, by decide⟩, ?_⟩⟩
  exact List.forall_mem_singleton.2 ⟨"$remove", .remove, rfl, by decide⟩

/-- One directive is applied to the labels. -/
theorem appliesAll_unlabelling : ∃ p s' u a,
    ((update unlabelling).compile labelledPeople).perform {} = (.ok p, s') ∧
    p.statement = .update u ∧ a ∈ u.assignments ∧ Identifier.ofText "labels" = .ok a.column ∧
    AppliesAll labelsValidator (.map [(.text "$Remove", .list [.text "old"])]) a := by
  obtain ⟨p, s', u, hp, hu, -⟩ := compile_unlabelling
  obtain ⟨u', hu', -, hall⟩ := compile_appliesAll_iff hp
  obtain rfl : u' = u := Statement.update.inj (hu'.symm.trans hu)
  have hdirective : (Value.map [(.text "$Remove", .list [.text "old"])]).IsDirectives :=
    ⟨_, rfl, by simp, List.forall_mem_singleton.2 ⟨"$Remove", .remove, rfl, by decide⟩⟩
  obtain ⟨a, ha, hcolumn, happlies, -⟩ := hall "labels" _ labelsValidator List.mem_cons_self
    validator_labels rfl (by decide) hdirective
  exact ⟨p, s', u', a, hp, hu, ha, hcolumn, happlies.2 ⟨_, rfl⟩⟩

/-- Two directives overwrite the labels with themselves. -/
theorem not_appliesAll_relabelled :
    Table.ofDefinition (.text "people") labelledDefinition = .ok labelledPeople ∧
    labelledPeople.validator? "labels" = some labelsValidator ∧ relabelled.IsDirectives ∧
    ∃ p s' u, ((update (labelling [("labels", relabelled)])).compile labelledPeople).perform {} =
        (.ok p, s') ∧
      p.statement = .update u ∧ u.assignments = [.set labelsColumn (.bound relabelled)] ∧
      ∀ a ∈ u.assignments, ¬ AppliesAll labelsValidator relabelled a := by
  obtain ⟨p, s', hp, hassigned⟩ := Action.ok_of_read
    (g := fun p => match p.statement with
      | .update u => u.assignments
      | _ => [])
    (a := (update (labelling [("labels", relabelled)])).compile labelledPeople) (s := {})
    (y := [.set labelsColumn (.bound relabelled)]) (by with_unfolding_all rfl)
  obtain ⟨u, hu, -⟩ := modification_ok hp
  rw [hu] at hassigned
  have hassignments : u.assignments = [.set labelsColumn (.bound relabelled)] := hassigned
  refine ⟨by with_unfolding_all rfl, validator_labels, isDirectives_relabelled, p, s', u, hp, hu,
    hassignments, ?_⟩
  rw [hassignments]
  refine List.forall_mem_singleton.2 ?_
  rintro ⟨es, hes, hall⟩
  obtain rfl := Value.map.inj hes
  obtain ⟨_, _, -, -, happlies⟩ := hall _ List.mem_cons_self
  exact happlies.ne_set rfl

end Operation

end WideColumn
