import WideColumn.Proofs.TwoRuns

/-!
# Bound values do not show in statements

Two operations of one skeleton (`Operation.Alike`) have statements of one text, and what is bound
differs at most at the places of values that differ (`Operation.compile_independent`). The values
that stand at these places are read off the operation (`Operation.sources`): those of a query in the
order of its relations, those of a write in the order of its fields. What a default made counts as
the value of its field, so that the runs are compared when their defaults made the same values.
-/

namespace WideColumn

/-- Relations that have one text each make one clause. -/
theorem Relation.clause_eq {xs ys : List Value} {rs rs' : List Relation}
    (h : Fragment.Twins xs ys (rs.map Relation.fragment) (rs'.map Relation.fragment)) :
    clause rs = clause rs' := by
  have htexts : rs.map render = rs'.map render := h.map_text
  rw [clause, clause, htexts]

theorem SelectStatement.whereText_eq {xs ys : List Value} {rs rs' : List Relation}
    (h : Fragment.Twins xs ys (rs.map Relation.fragment) (rs'.map Relation.fragment)) :
    whereText rs = whereText rs' := by
  have htexts : rs.map Relation.render = rs'.map Relation.render := h.map_text
  have hempty : rs.isEmpty = rs'.isEmpty := by
    simpa only [List.isEmpty_map] using congrArg List.isEmpty htexts
  rw [whereText, whereText, hempty, Relation.clause_eq h]

/-- The text of an assignment with what it binds. -/
def Assignment.fragment (a : Assignment) : Fragment String := ⟨a.render, a.params⟩

/-- The text of a condition with what it binds. -/
def Condition.fragment (c : Condition) : Fragment String := ⟨c.render, c.params⟩

namespace Compile

/-! ## Writes, field by field -/

/-- The value of a field in a write, and what was made of it, if anything. -/
structure Made (α : Type) where
  field : Field
  resolved : Resolved
  result : Option α

/-- What was made of fields. -/
def results {α : Type} (ms : List (Made α)) : List α := ms.filterMap Made.result

/-- The values that defaults made. -/
def byDefault {α : Type} (ms : List (Made α)) : List Value :=
  (ms.filter fun m => m.resolved.byDefault).map fun m => m.resolved.value

/-- The column of a field in an insertion, when the field has a value. -/
def fieldColumn (t : Table) (f : Field) (r : Resolved) : Action (Option (Identifier × Operand)) :=
  if r.value.isMissing then pure none
  else if f.isCounter then
    refuseWrite ("Counter field '" ++ f.name ++ "' cannot be inserted, use update") f.name
  else do
    let operand ← writeOperand (← t.validator f.name) r
    let column ← Identifier.accept f.name
    return some (column, operand)

/-- The value and the column of a field in an insertion. -/
def insertField (t : Table) (values : List (String × Value)) (f : Field) :
    Action (Made (Identifier × Operand)) :=
  if f.isVirtual then pure ⟨f, ⟨.missing, false⟩, none⟩
  else do
    let r ← resolve t f ((get? values f.name).getD .missing)
    return ⟨f, r, ← fieldColumn t f r⟩

theorem results_cons {α : Type} (m : Made α) (ms : List (Made α)) :
    results (m :: ms) = m.result.toList ++ results ms := by
  unfold results
  cases hm : m.result with
  | none => rw [List.filterMap_cons_none hm, Option.toList_none, List.nil_append]
  | some x => rw [List.filterMap_cons_some hm, Option.toList_some, List.singleton_append]

/-- What is made of fields is made of the first and then of the others. -/
theorem results_mapM_cons {κ α : Type} (make : κ → Action (Made α)) (k : κ) (ks : List κ) :
    results <$> (k :: ks).mapM make = do
      let m ← make k
      let rest ← results <$> ks.mapM make
      return m.result.toList ++ rest := by
  simp only [List.mapM_cons, map_bind, map_pure, results_cons, bind_map_left]

/-- An insertion makes its columns field by field. -/
theorem insertColumns_eq {t : Table} {values : List (String × Value)} : ∀ fs : List Field,
    insertColumns t values fs = results <$> fs.mapM (insertField t values)
  | [] => rfl
  | f :: fs => by
    rw [insertColumns, results_mapM_cons, insertField, ← insertColumns_eq fs]
    split
    · simp only [pure_bind, Option.toList_none, List.nil_append, bind_pure]
    · simp only [bind_assoc, pure_bind]
      congr 1
      funext r
      rw [fieldColumn]
      split
      · simp only [pure_bind, Option.toList_none, List.nil_append, bind_pure]
      split
      · rfl
      · simp only [bind_assoc, pure_bind, Option.toList_some, List.singleton_append]

/-- The assignment to a field in an update, when the field has a value. -/
def fieldAssignment (t : Table) (name : String) (v : FieldValidator) (r : Resolved) :
    Action (Option Assignment) :=
  if r.value.isMissing then pure none
  else if t.isKey name then
    refuseWrite ("Primary key field '" ++ name ++ "' cannot be updated") name
  else some <$> assignment v r

/-- The value of a field and the assignment to it in an update. -/
def assignField (t : Table) (e : String × Value) : Action (Made Assignment) := do
  let v ← t.validator e.1
  if v.field.isVirtual then pure ⟨v.field, ⟨.missing, false⟩, none⟩
  else
    let r ← resolve t v.field e.2
    return ⟨v.field, r, ← fieldAssignment t e.1 v r⟩

/-- An update makes its assignments field by field. -/
theorem assignments_eq {t : Table} : ∀ es : List (String × Value),
    assignments t es = results <$> es.mapM (assignField t)
  | [] => rfl
  | (name, supplied) :: es => by
    rw [assignments, results_mapM_cons, assignField, ← assignments_eq es, bind_assoc]
    congr 1
    funext v
    split
    · simp only [pure_bind, Option.toList_none, List.nil_append, bind_pure]
    · simp only [bind_assoc, pure_bind]
      congr 1
      funext r
      rw [fieldAssignment]
      split
      · simp only [pure_bind, Option.toList_none, List.nil_append, bind_pure]
      split
      · rfl
      · simp only [bind_map_left, Option.toList_some, List.singleton_append]

/-! ## Values that are written -/

/-- What is bound for a value under a column: of a replacement the key and the value, and of the
other directives the operand. -/
def directiveSources (type : Option ColumnType) (directive : Directive) (operand : Value) :
    List Value :=
  match directive with
  | .replace =>
    match operand with
    | .map [(key, value)] => [key, value]
    | _ => operand.sequence?.getD []
  | .remove => if type = some .map then [operand] else operand.bound
  | .add | .append | .prepend => operand.bound

/-- The values that stand at the places of what an assignment binds. -/
def assignedSources (f : Field) (x : Value) : List Value :=
  match directiveOf? x with
  | none => x.bound
  | some (_, directive, operand) => directiveSources f.columnType? directive operand

/-- The values that stand at the places of what is bound for a value: none when it is missing. -/
def Resolved.sources (source : Value → List Value) (r : Resolved) : List Value :=
  if r.value.isMissing then [] else source r.value

/-- The values that stand at the places of what is bound for a field. -/
def Made.sources {α : Type} (source : Field → Value → List Value) (m : Made α) : List Value :=
  m.resolved.sources (source m.field)

/-! ## Two writes -/

section TwoWrites

variable {t : Table} {f : Field} {v : FieldValidator} {r r' : Resolved} {x y : Value}

/-- Values of one skeleton are resolved to themselves, or both to what the default made. -/
theorem resolve_agrees (halike : x.Alike y) :
    (resolve t f x).Relates (resolve t f y) fun r r' =>
      r.byDefault = r'.byDefault ∧ (r.byDefault = false → r.value = x ∧ r'.value = y) := by
  intro s s' u u' r r' hr hr'
  -- whether a value is missing is part of the skeleton, so the default acts on both sides or none
  rcases resolve_ok hr with ⟨rfl, hnone⟩ | ⟨hmade, hmissing, hhas, -⟩
  · rcases resolve_ok hr' with ⟨rfl, -⟩ | ⟨-, hmissing', hhas', -⟩
    · exact ⟨rfl, fun _ => ⟨rfl, rfl⟩⟩
    · rw [hnone (halike.isMissing_eq.trans hmissing')] at hhas'
      cases hhas'
  · rcases resolve_ok hr' with ⟨rfl, hnone'⟩ | ⟨hmade', -⟩
    · rw [hnone' (halike.isMissing_eq.symm.trans hmissing)] at hhas
      cases hhas
    · refine ⟨hmade.trans hmade'.symm, fun hnot => ?_⟩
      rw [hmade] at hnot
      cases hnot

theorem writeOperand_twin (hby : r.byDefault = r'.byDefault) (halike : r.value.Alike r'.value)
    (hsign : v.type = .counter → r.value.SameSign r'.value) :
    (writeOperand v r).Relates (writeOperand v r') fun o o' =>
      Fragment.Twin r.value.bound r'.value.bound o.fragment o'.fragment := by
  unfold writeOperand
  rw [← hby, ← halike.isStoreFunction_eq]
  split
  · rename_i hunchecked
    have hplain : r.value.isStoreFunction = false := by
      simpa using (Bool.and_eq_true_iff.1 hunchecked).2
    have hplain' := halike.isStoreFunction_eq.symm.trans hplain
    rw [Value.bound, Value.bound, hplain, hplain']
    exact .pure ⟨rfl, .single halike id⟩
  · exact Operand.compile_twin halike fun hcounter _ => hsign hcounter

/-- A replacement is of the only entry of an operand for a map, or at the index of a pair for a
list. -/
theorem replacement_ok {column : Identifier} {operand : Value} {a : Assignment} {s s' : Session}
    (h : (replacement f column operand).perform s = (.ok a, s')) :
    ∃ key value, a = .replace column key value ∧
      ((f.columnType? = some .map ∧ operand = .map [(key, value)]) ∨
        (f.columnType? = some .list ∧ operand.sequence? = some [key, value])) := by
  unfold replacement at h
  split at h
  · rename_i hmap
    split at h
    · cases h
      exact ⟨_, _, rfl, .inl ⟨hmap, rfl⟩⟩
    · exact absurd h Action.refuse_ne_ok
  · rename_i hlist
    split at h
    · rename_i hpair
      cases h
      exact ⟨_, _, rfl, .inr ⟨hlist, hpair⟩⟩
    · exact absurd h Action.refuse_ne_ok
  · exact absurd h Action.refuse_ne_ok

/-- A replacement binds the key and the value that its operand has. -/
theorem replacement_sources {column : Identifier} {operand : Value} {a : Assignment}
    {s s' : Session} (h : (replacement f column operand).perform s = (.ok a, s')) :
    ∃ key value, a = .replace column key value ∧
      directiveSources f.columnType? .replace operand = [key, value] := by
  obtain ⟨key, value, rfl, ⟨-, rfl⟩ | ⟨-, hpair⟩⟩ := replacement_ok h
  · exact ⟨key, value, rfl, rfl⟩
  · refine ⟨key, value, rfl, ?_⟩
    cases operand with
    | list _ | tuple _ =>
      cases hpair
      rfl
    | _ => cases hpair

theorem replaced_alike {type : Option ColumnType} (halike : x.Alike y) :
    List.Forall₂ Value.Alike (directiveSources type .replace x)
      (directiveSources type .replace y) := by
  have hother : ∀ {z : Value}, (∀ k v, z ≠ .map [(k, v)]) →
      directiveSources type .replace z = z.sequence?.getD [] := by
    intro z hz
    unfold directiveSources
    dsimp only
    split
    · exact absurd rfl (hz _ _)
    · rfl
  rcases halike.single_entry with ⟨k, v, w, rfl, rfl, hvalue⟩ | ⟨hx, hy⟩
  · exact .cons (.refl k) (.cons hvalue .nil)
  · have hsequence := halike.sequence?
    rw [hother hx, hother hy]
    generalize x.sequence? = xs at hsequence ⊢
    generalize y.sequence? = ys at hsequence ⊢
    cases hsequence with
    | none => exact .nil
    | some h => exact h

/-- A removal from a map binds the keys that its operand has. -/
theorem removal_ok {column : Identifier} {operand : Value} {a : Assignment} {s s' : Session}
    (htype : v.type = .map) (h : (removal v column operand).perform s = (.ok a, s')) :
    ∃ keys, removedKeys? operand = some keys ∧ a = .removeKeys column keys := by
  unfold removal at h
  rw [if_pos htype] at h
  split at h
  · rename_i keys hkeys
    cases h
    exact ⟨keys, hkeys, rfl⟩
  · exact absurd h Action.refuse_ne_ok

/-- The assignments of a directive with operands of one skeleton have one text. -/
theorem directiveAssignment_twin {column : Identifier} {directive : Directive} (halike : x.Alike y)
    (hcounter : v.type ≠ .counter) :
    (directiveAssignment v column directive x).Relates (directiveAssignment v column directive y)
      fun a a' => Fragment.Twin (directiveSources v.field.columnType? directive x)
        (directiveSources v.field.columnType? directive y) a.fragment a'.fragment := by
  have hoperand : (Operand.compile v false x).Relates (Operand.compile v false y) fun o o' =>
      Fragment.Twin x.bound y.bound o.fragment o'.fragment :=
    Operand.compile_twin halike fun htype => absurd htype hcounter
  cases directive with
  | replace =>
    intro s s' u u' a a' ha ha'
    obtain ⟨key, value, rfl, hx⟩ := replacement_sources ha
    obtain ⟨key', value', rfl, hy⟩ := replacement_sources ha'
    have hsources : List.Forall₂ Value.Alike [key, value] [key', value'] :=
      hx ▸ hy ▸ replaced_alike halike
    rw [hx, hy]
    obtain ⟨hkey, hrest⟩ := List.forall₂_cons.1 hsources
    obtain ⟨hvalue, -⟩ := List.forall₂_cons.1 hrest
    exact ⟨rfl, .cons hkey id (.single hvalue id)⟩
  | remove =>
    simp only [directiveAssignment, directiveSources, v.typed, Option.some.injEq]
    by_cases htype : v.type = .map
    · intro s s' u u' a a' ha ha'
      obtain ⟨keys, hkeys, rfl⟩ := removal_ok htype ha
      obtain ⟨keys', hkeys', rfl⟩ := removal_ok htype ha'
      rw [if_pos htype, if_pos htype]
      refine ⟨rfl, .single halike fun hxy => ?_⟩
      cases hkeys.symm.trans (hxy ▸ hkeys')
      rfl
    · rw [removal, removal, if_neg htype, if_neg htype, if_neg htype, if_neg htype]
      exact hoperand.bind fun o o' ho => .pure ⟨congrArg (_ ++ ·) ho.text, ho.params⟩
  | add | append =>
    exact hoperand.bind fun o o' ho => .pure ⟨congrArg (_ ++ ·) ho.text, ho.params⟩
  | prepend =>
    refine hoperand.bind fun o o' ho => ?_
    split
    · exact .pure ⟨congrArg (fun text => column.quoted ++ "=" ++ text ++ " + " ++ column.quoted)
        ho.text, ho.params⟩
    · exact .refuse _

/-- Values of one skeleton are one directive, with operands of one skeleton, or none. -/
theorem directiveOf?_alike (halike : x.Alike y) :
    (directiveOf? x = none ∧ directiveOf? y = none) ∨
      ∃ key directive operand operand', directiveOf? x = some (key, directive, operand) ∧
        directiveOf? y = some (key, directive, operand') ∧ operand.Alike operand' := by
  have hother : ∀ {z : Value}, (∀ k v, z ≠ .map [(k, v)]) → directiveOf? z = none := by
    intro z hz
    unfold directiveOf?
    split
    · exact absurd rfl (hz _ _)
    · rfl
  rcases halike.single_entry with ⟨k, v, w, rfl, rfl, hvalue⟩ | ⟨hx, hy⟩
  · cases k with
    | text key =>
      simp only [directiveOf?]
      cases directive? key with
      | none => exact .inl ⟨rfl, rfl⟩
      | some d => exact .inr ⟨key, d, v, w, rfl, rfl, hvalue⟩
    | _ => exact .inl ⟨rfl, rfl⟩
  · exact .inl ⟨hother hx, hother hy⟩

/-- The assignments of values of one skeleton have one text. -/
theorem assignment_twin (hby : r.byDefault = r'.byDefault) (halike : r.value.Alike r'.value)
    (hsign : v.type = .counter → r.value.SameSign r'.value) :
    (assignment v r).Relates (assignment v r') fun a a' =>
      Fragment.Twin (assignedSources v.field r.value) (assignedSources v.field r'.value) a.fragment
        a'.fragment := by
  unfold assignment assignedSources
  refine .after (Operand.accept_steady _) fun column => ?_
  rcases directiveOf?_alike halike with
    ⟨hx, hy⟩ | ⟨key, directive, operand, operand', hx, hy, hoperand⟩
  · rw [hx, hy]
    exact (writeOperand_twin hby halike hsign).bind fun o o' ho =>
      .pure ⟨congrArg (_ ++ ·) ho.text, ho.params⟩
  · rw [hx, hy]
    dsimp only
    split
    · rename_i hcollection
      refine directiveAssignment_twin hoperand fun htype => ?_
      rw [Field.isCollection, v.typed, htype] at hcollection
      cases hcollection
    · exact .refuse _

/-- The text of a column of an insertion: its name, and its operand. -/
def columnFragment (c : Identifier × Operand) : Fragment (String × String) :=
  ⟨(c.1.quoted, c.2.render), c.2.params⟩

/-- The columns of one field for values of one skeleton have one text. -/
theorem fieldColumn_twins (hby : r.byDefault = r'.byDefault) (halike : r.value.Alike r'.value)
    (hsign : ∀ v, t.validator? f.name = some v → f.isCounter = false →
      v.type = .counter → r.value.SameSign r'.value) :
    (fieldColumn t f r).Relates (fieldColumn t f r') fun c c' =>
      Fragment.Twins (r.sources Value.bound) (r'.sources Value.bound)
        (c.toList.map columnFragment) (c'.toList.map columnFragment) := by
  unfold fieldColumn Resolved.sources
  rw [← halike.isMissing_eq]
  split
  · exact .pure .nil
  split
  · exact .refuse _
  · rename_i hcounter
    refine Table.validator_after fun v hv => ?_
    refine (writeOperand_twin hby halike
      (hsign v hv (by simpa using hcounter))).bind fun o o' ho => ?_
    refine .after (Operand.accept_steady f.name) fun column => .pure ?_
    exact .single ⟨congrArg (column.quoted, ·) ho.text, ho.params⟩

/-- The assignments of one field for values of one skeleton have one text. -/
theorem fieldAssignment_twins {name : String} (hby : r.byDefault = r'.byDefault)
    (halike : r.value.Alike r'.value) (hsign : v.type = .counter → r.value.SameSign r'.value) :
    (fieldAssignment t name v r).Relates (fieldAssignment t name v r') fun a a' =>
      Fragment.Twins (r.sources (assignedSources v.field)) (r'.sources (assignedSources v.field))
        (a.toList.map Assignment.fragment) (a'.toList.map Assignment.fragment) := by
  unfold fieldAssignment Resolved.sources
  rw [← halike.isMissing_eq]
  split
  · exact .pure .nil
  split
  · exact .refuse _
  · exact ((assignment_twin hby halike hsign).imp fun _ _ => .single).map

end TwoWrites

/-! ### Fields one by one -/

section Fields

variable {α τ : Type} {source : Field → Value → List Value} {fragment : α → Fragment τ}

/-- What is made of a field on two sides has one text, when a default that made both values made one
value. -/
structure Made.Agrees (source : Field → Value → List Value) (fragment : α → Fragment τ)
    (m m' : Made α) : Prop where
  byDefault : m.resolved.byDefault = m'.resolved.byDefault
  twins : (m.resolved.byDefault = true → m.resolved.value = m'.resolved.value) →
    Fragment.Twins (m.sources source) (m'.sources source) (m.result.toList.map fragment)
      (m'.result.toList.map fragment)

/-- What is made of fields has one text each when the defaults made the same values. -/
theorem twins_of_agrees {ms ms' : List (Made α)}
    (h : List.Forall₂ (Made.Agrees source fragment) ms ms')
    (hdefaults : byDefault ms = byDefault ms') :
    Fragment.Twins (ms.flatMap (Made.sources source)) (ms'.flatMap (Made.sources source))
      ((results ms).map fragment) ((results ms').map fragment) := by
  induction h with
  | nil => exact .nil
  | @cons m m' ms ms' hm _ ih =>
    have hhead : (m.resolved.byDefault = true → m.resolved.value = m'.resolved.value) ∧
        byDefault ms = byDefault ms' := by
      unfold byDefault at hdefaults ⊢
      rw [List.filter_cons, List.filter_cons, ← hm.byDefault] at hdefaults
      split at hdefaults
      · obtain ⟨hvalue, hrest⟩ := List.cons.inj hdefaults
        exact ⟨fun _ => hvalue, hrest⟩
      · rename_i hnot
        exact ⟨fun hmade => absurd hmade hnot, hdefaults⟩
    rw [results_cons, results_cons, List.map_append, List.map_append]
    exact (hm.twins hhead.1).append (ih hhead.2)

/-- What is made of the value of a field agrees when it has one text for the values that are given
and for any value that the default makes. -/
theorem made_agrees {t : Table} {f : Field} {x y : Value} {make : Resolved → Action (Option α)}
    (halike : x.Alike y)
    (hmake : ∀ r r' : Resolved, r.byDefault = r'.byDefault →
      (r.value = r'.value ∨ (r.value = x ∧ r'.value = y)) →
      (make r).Relates (make r') fun c c' =>
        Fragment.Twins (r.sources (source f)) (r'.sources (source f)) (c.toList.map fragment)
          (c'.toList.map fragment)) :
    (do let r ← resolve t f x; return (⟨f, r, ← make r⟩ : Made α)).Relates
      (do let r ← resolve t f y; return (⟨f, r, ← make r⟩ : Made α))
      (Made.Agrees source fragment) := by
  refine (resolve_agrees halike).bind fun r r' ⟨hby, hgiven⟩ => ?_
  -- two values of a default need not have one skeleton, and then nothing is asked of what is made
  have hmade : (make r).Relates (make r') fun c c' =>
      (r.byDefault = true → r.value = r'.value) →
        Fragment.Twins (r.sources (source f)) (r'.sources (source f)) (c.toList.map fragment)
          (c'.toList.map fragment) := by
    by_cases hsame : r.byDefault = true → r.value = r'.value
    · refine (hmake r r' hby ?_).imp fun _ _ htwins _ => htwins
      cases hdefault : r.byDefault with
      | true => exact .inl (hsame hdefault)
      | false => exact .inr (hgiven hdefault)
    · exact (Action.Relates.any _ _).imp fun _ _ _ h => absurd h hsame
  exact hmade.bind fun c c' htwins => .pure ⟨hby, htwins⟩

end Fields

/-! ### Insertions and updates -/

variable {t : Table} {values values' : List (String × Value)}

theorem get?_alike {name : String} (h : Value.AlikeEntries values values') :
    ((get? values name).getD .missing).Alike ((get? values' name).getD .missing) := by
  induction h with
  | nil => exact .refl _
  | @cons e e' es es' he _ ih =>
    obtain ⟨k, x⟩ := e
    obtain ⟨l, y⟩ := e'
    obtain ⟨hkey, hvalue⟩ := he
    cases hkey
    unfold get? at ih ⊢
    cases hfound : k == name with
    | true =>
      simp only [List.find?_cons, hfound]
      exact hvalue
    | false =>
      simp only [List.find?_cons, hfound]
      exact ih

/-- The columns of an insertion agree field by field. -/
theorem insertField_agrees {f : Field} (hwell : t.WellFormed) (hf : f ∈ t.fields)
    (hvalues : Value.AlikeEntries values values') :
    (insertField t values f).Relates (insertField t values' f)
      (Made.Agrees (fun _ => Value.bound) columnFragment) := by
  unfold insertField
  split
  · exact .pure ⟨rfl, fun _ => .nil⟩
  · refine made_agrees (get?_alike hvalues) fun r r' hby hgiven => fieldColumn_twins hby ?_ ?_
    · rcases hgiven with hsame | ⟨hx, hy⟩
      · exact hsame ▸ .refl _
      · exact hx ▸ hy ▸ get?_alike hvalues
    · -- a counter is refused before its sign could show
      intro v hv hcounter htype
      have hfield := hwell.field_of_validator? hf hv
      rw [← hfield, FieldValidator.isCounter_iff.2 htype] at hcounter
      cases hcounter

/-- The values are for one field and have one skeleton, and one sign for a counter. -/
def ValueAlike (t : Table) (e e' : String × Value) : Prop :=
  e.1 = e'.1 ∧ e.2.Alike e'.2 ∧
    ∀ f, t.field? e.1 = some f → f.isCounter = true → e.2.SameSign e'.2

/-- The assignments of an update agree field by field. -/
theorem assignField_agrees {e e' : String × Value} (h : ValueAlike t e e') :
    (assignField t e).Relates (assignField t e')
      (Made.Agrees assignedSources Assignment.fragment) := by
  obtain ⟨name, x⟩ := e
  obtain ⟨name', y⟩ := e'
  obtain ⟨hname, halike, hsign⟩ := h
  dsimp only at hname halike hsign
  subst hname
  refine Table.validator_after fun v hv => ?_
  split
  · exact .pure ⟨rfl, fun _ => .nil⟩
  · refine made_agrees halike fun r r' hby hgiven => fieldAssignment_twins hby ?_ ?_
    · rcases hgiven with hsame | ⟨rfl, rfl⟩
      · exact hsame ▸ .refl _
      · exact halike
    · intro htype
      rcases hgiven with hsame | ⟨rfl, rfl⟩
      · intro n m hn hm
        cases hn.symm.trans (hsame.trans hm)
        exact Iff.rfl
      · exact hsign v.field (Table.field?_of_validator? hv) (FieldValidator.isCounter_iff.2 htype)

/-! ## Selections -/

/-- What stands under a key that names no field is one in queries of one skeleton. -/
theorem get?_eq_of_alike {query query' : List (String × Value)} {key : String}
    (hkey : Query.isFieldKey (.text key) = false)
    (h : Query.Alike (queryEntries query) (queryEntries query')) :
    get? query key = get? query' key := by
  unfold Query.Alike queryEntries at h
  rw [List.forall₂_map_left_iff, List.forall₂_map_right_iff] at h
  induction h with
  | nil => rfl
  | @cons e e' es es' he _ ih =>
    obtain ⟨k, x⟩ := e
    obtain ⟨l, y⟩ := e'
    obtain ⟨hname, hvalue⟩ := he
    cases hname
    unfold get? at ih ⊢
    cases hfound : k == key with
    | true =>
      rw [beq_iff_eq.1 hfound, if_neg (by simp [hkey])] at hvalue
      simp only [List.find?_cons, hfound]
      exact congrArg some hvalue
    | false =>
      simp only [List.find?_cons, hfound]
      exact ih

theorem source_steady (t : Table) (o : Selection) : (source t o).Steady := by
  unfold source
  split
  · exact .pure _
  split
  · exact .pure _
  split
  · exact .pure _
  · exact .refuse _

theorem grouping_steady (v : Value) : (grouping v).Steady := by
  unfold grouping
  split
  · exact .pure _
  split
  · exact (Query.acceptAll_steady _).map
  · exact .refuse _

theorem orderEntries_steady (es : List (Value × Value)) : (orderEntries es).Steady := by
  induction es with
  | nil => exact .pure _
  | cons e es ih =>
    obtain ⟨key, columns⟩ := e
    have hentry : (orderEntry key columns).Steady := by
      unfold orderEntry
      split
      · exact .refuse _
      split
      · exact (Query.acceptAll_steady _).map
      · exact .refuse _
    exact hentry.bind fun _ => ih.bind fun _ => .pure _

theorem order_steady (v : Value) : (order v).Steady := by
  unfold order
  split
  · exact .pure _
  · exact (orderEntries_steady _).map
  · exact .refuse _

theorem limit_steady (query : List (String × Value)) (key : String) : (limit query key).Steady := by
  unfold limit
  split
  · exact .pure _
  · dsimp only
    split
    · split
      · exact .pure _
      · exact .refuse _
    · exact .refuse _

/-- Selections by queries of one skeleton have one text. -/
theorem selection_twin {o : Selection} {query : List (String × Value)}
    (hquery : Query.Alike (queryEntries o.query) (queryEntries query)) :
    (selection t o).Relates (selection t { o with query }) fun statement statement' =>
      Fragment.Twin (Query.sources t (queryEntries o.query)) (Query.sources t (queryEntries query))
        ⟨statement.render, statement.params⟩ ⟨statement'.render, statement'.params⟩ := by
  have hshape : ∀ key ∈ Query.shapeKeys, get? o.query key = get? query key := fun key hkey =>
    get?_eq_of_alike (by revert key; decide) hquery
  have hlimit : ∀ key ∈ Query.shapeKeys, limit o.query key = limit query key := by
    intro key hkey
    unfold limit
    rw [hshape key hkey]
  unfold selection
  refine .after (source_steady t o) fun source => ?_
  refine (Query.relations_twins hquery).bind fun rs rs' hrs => ?_
  refine .after (.lift _) fun items => ?_
  refine .after (Operand.accept_steady source) fun name => ?_
  dsimp only
  rw [← hshape Query.groupKey (by decide), ← hshape Query.orderKey (by decide)]
  refine .after (grouping_steady _) fun grouping => ?_
  refine .after (order_steady _) fun order => ?_
  rw [← hlimit Query.partitionLimitKey (by decide), ← hlimit Query.limitKey (by decide)]
  refine .after (limit_steady _ _) fun partitionLimit => ?_
  refine .after (limit_steady _ _) fun limit => ?_
  have hparams : BoundAlike _ _ (rs.flatMap Relation.params) (rs'.flatMap Relation.params) :=
    hrs.flatMap_params
  refine .pure ⟨?_, hparams⟩
  unfold SelectStatement.render
  dsimp only
  rw [SelectStatement.whereText_eq hrs]

/-- The conditions of updates of one skeleton have one text. -/
theorem condition_twin {o o' : Modification} (hexists : o.ifExists = o'.ifExists)
    (hconditions : Option.Rel (fun es es' => Query.Alike (queryEntries es) (queryEntries es'))
      o.conditions o'.conditions) :
    (condition t o).Relates (condition t o') fun c c' =>
      Fragment.Twin
        (Query.sources t (queryEntries (if o.ifExists then [] else o.conditions.getD [])))
        (Query.sources t (queryEntries (if o'.ifExists then [] else o'.conditions.getD [])))
        c.fragment c'.fragment := by
  unfold condition
  rw [← hexists]
  split
  · exact .pure ⟨rfl, .nil⟩
  · generalize o.conditions = es at hconditions ⊢
    generalize o'.conditions = es' at hconditions ⊢
    cases hconditions with
    | none => exact .pure ⟨rfl, .nil⟩
    | @some es es' h =>
      match es, es', h with
      | [], [], _ => exact .pure ⟨rfl, .nil⟩
      | [], _ :: _, h => exact nomatch h
      | _ :: _, [], h => exact nomatch h
      | e :: es, e' :: es', h =>
        refine ((Query.relations_twins h).imp fun rs rs' hrs => ?_).map
        exact ⟨congrArg (" IF " ++ ·) (Relation.clause_eq hrs), hrs.flatMap_params⟩

end Compile

/-! ## Statements -/

namespace Statement

/-- The text of a statement with what it binds. -/
def fragment (s : Statement) : Fragment String := ⟨s.render, s.params⟩

variable {xs ys : List Value}

/-- Insertions whose columns have one text have one text. -/
theorem insert_twin {i i' : InsertStatement} (htable : i.table = i'.table)
    (hexists : i.ifNotExists = i'.ifNotExists) (httl : i.ttl = i'.ttl)
    (h : Fragment.Twins xs ys (i.columns.map Compile.columnFragment)
      (i'.columns.map Compile.columnFragment)) :
    Fragment.Twin xs ys (insert i).fragment (insert i').fragment := by
  have hcolumns : i.columns.map (fun c => (c.1.quoted, c.2.render)) =
      i'.columns.map fun c => (c.1.quoted, c.2.render) := h.map_text
  have hnames : i.columns.map (fun c => c.1.quoted) = i'.columns.map fun c => c.1.quoted := by
    simpa only [List.map_map, Function.comp_def] using congrArg (List.map Prod.fst) hcolumns
  have hoperands : i.columns.map (fun c => c.2.render) = i'.columns.map fun c => c.2.render := by
    simpa only [List.map_map, Function.comp_def] using congrArg (List.map Prod.snd) hcolumns
  refine ⟨?_, h.flatMap_params⟩
  change i.render = i'.render
  unfold InsertStatement.render
  rw [htable, hnames, hoperands, hexists, httl]

/-- Updates whose assignments, relations and conditions have one text have one text. -/
theorem update_twin {m m' : UpdateStatement} {xs' ys' xs'' ys'' : List Value}
    (htable : m.table = m'.table) (httl : m.ttl = m'.ttl)
    (hassignments : Fragment.Twins xs ys (m.assignments.map Assignment.fragment)
      (m'.assignments.map Assignment.fragment))
    (hrelations : Fragment.Twins xs' ys' (m.relations.map Relation.fragment)
      (m'.relations.map Relation.fragment))
    (hcondition : Fragment.Twin xs'' ys'' m.condition.fragment m'.condition.fragment) :
    Fragment.Twin (xs ++ xs' ++ xs'') (ys ++ ys' ++ ys'') (update m).fragment
      (update m').fragment := by
  have htexts : m.assignments.map Assignment.render = m'.assignments.map Assignment.render :=
    hassignments.map_text
  have hrequired : m.condition.render = m'.condition.render := hcondition.text
  refine ⟨?_, (hassignments.flatMap_params.append hrelations.flatMap_params).append
    hcondition.params⟩
  change m.render = m'.render
  unfold UpdateStatement.render
  rw [htable, httl, htexts, Relation.clause_eq hrelations, hrequired]

/-- Deletions whose relations have one text have one text. -/
theorem delete_twin {d d' : DeleteStatement} (htable : d.table = d'.table)
    (h : Fragment.Twins xs ys (d.relations.map Relation.fragment)
      (d'.relations.map Relation.fragment)) :
    Fragment.Twin xs ys (delete d).fragment (delete d').fragment := by
  refine ⟨?_, h.flatMap_params⟩
  change d.render = d'.render
  unfold DeleteStatement.render
  rw [htable, Relation.clause_eq h]

end Statement

namespace Compile

/-- What a run made of fields. -/
def made {α : Type} (a : Action (List (Made α))) (s : Session) : List (Made α) :=
  (a.perform s).1.toOption.getD []

theorem made_of_ok {α : Type} {a : Action (List (Made α))} {s s' : Session} {xs : List α}
    (h : (results <$> a).perform s = (.ok xs, s')) :
    results (made a s) = xs ∧ a.perform s = (.ok (made a s), s') := by
  obtain ⟨ms, hms, rfl⟩ := Action.map_ok h
  have hmade : made a s = ms := by
    rw [made, hms]
    rfl
  rw [hmade]
  exact ⟨rfl, hms⟩

end Compile

/-! ## Operations -/

namespace Operation

open Compile

/-- The operations have one skeleton: they differ in values and queries of one skeleton only, and in
updates by values of one sign for counters. -/
inductive Alike (t : Table) : Operation → Operation → Prop
  | select {o : Selection} {query : List (String × Value)}
      (hquery : Query.Alike (queryEntries o.query) (queryEntries query)) :
      Alike t (.select o) (.select { o with query })
  | insert {o : Insertion} {values : List (String × Value)}
      (hvalues : Value.AlikeEntries o.values values) :
      Alike t (.insert o) (.insert { o with values })
  | update {o : Modification} {values query : List (String × Value)}
      {conditions : Option (List (String × Value))}
      (hvalues : List.Forall₂ (ValueAlike t) o.values values)
      (hquery : Query.Alike (queryEntries o.query) (queryEntries query))
      (hconditions : Option.Rel (fun es es' => Query.Alike (queryEntries es) (queryEntries es'))
        o.conditions conditions) :
      Alike t (.update o) (.update { o with values, query, conditions })
  | delete {o : Deletion} {query : List (String × Value)}
      (hquery : Query.Alike (queryEntries o.query) (queryEntries query)) :
      Alike t (.delete o) (.delete { o with query })

/-- The values that defaults make in a run. -/
def defaults (t : Table) : Operation → Session → List Value
  | insert o, s => byDefault (made (t.fields.mapM (insertField t o.values)) s)
  | update o, s => byDefault (made (o.values.mapM (assignField t)) s)
  | _, _ => []

/-- The values that stand at the places of what a run binds. -/
def sources (t : Table) : Operation → Session → List Value
  | select o, _ => Query.sources t (queryEntries o.query)
  | insert o, s =>
    (made (t.fields.mapM (insertField t o.values)) s).flatMap (Made.sources fun _ => Value.bound)
  | update o, s =>
    (made (o.values.mapM (assignField t)) s).flatMap (Made.sources assignedSources) ++
      Query.sources t (queryEntries o.query) ++
      Query.sources t (queryEntries (if o.ifExists then [] else o.conditions.getD []))
  | delete o, _ => Query.sources t (queryEntries o.query)
  | _, _ => []

/-- The statements of operations of one skeleton have one text, when their defaults make the same
values. -/
theorem compile_twin {t : Table} {o o' : Operation} {s s' u u' : Session} {p p' : Prepared}
    (hregistered : t.Registered) (halike : o.Alike t o')
    (hdefaults : o.defaults t s = o'.defaults t u) (h : (o.compile t).perform s = (.ok p, s'))
    (h' : (o'.compile t).perform u = (.ok p', u')) :
    Fragment.Twin (o.sources t s) (o'.sources t u) p.statement.fragment p'.statement.fragment := by
  cases halike with
  | select hquery =>
    obtain ⟨statement, s₁, hstatement, h⟩ := Action.bind_ok h
    obtain ⟨statement', u₁, hstatement', h'⟩ := Action.bind_ok h'
    cases h
    cases h'
    exact selection_twin hquery _ _ _ _ _ _ hstatement hstatement'
  | @insert o values hvalues =>
    obtain ⟨i, hi, ⟨s₁, hcolumns⟩, htable, hexists, httl⟩ := insertion_ok h
    obtain ⟨i', hi', ⟨u₁, hcolumns'⟩, htable', hexists', httl'⟩ := insertion_ok h'
    rw [insertColumns_eq] at hcolumns hcolumns'
    obtain ⟨hresults, hmade⟩ := made_of_ok hcolumns
    obtain ⟨hresults', hmade'⟩ := made_of_ok hcolumns'
    -- both run over the declared fields, whatever keys the values have
    have hfields : List.Forall₂ (fun f g => f = g ∧ f ∈ t.fields) t.fields t.fields :=
      List.forall₂_same.2 fun f hf => ⟨rfl, hf⟩
    have hagrees := Action.Relates.mapM hfields (by
      rintro f _ ⟨rfl, hf⟩
      exact insertField_agrees hregistered.wellFormed hf hvalues) _ _ _ _ _ _ hmade hmade'
    have htwins := twins_of_agrees hagrees hdefaults
    rw [hresults, hresults'] at htwins
    rw [hi, hi']
    exact Statement.insert_twin (Except.ok.inj (htable.symm.trans htable'))
      (hexists.trans hexists'.symm) (httl.trans httl'.symm) htwins
  | @update o values query conditions hvalues hquery hconditions =>
    obtain ⟨m, hm, ⟨s₁, hassignments⟩, ⟨s₂, s₃, hrs⟩, ⟨s₄, s₅, hcondition⟩, htable, httl, -⟩ :=
      modification_ok h
    obtain ⟨m', hm', ⟨u₁, hassignments'⟩, ⟨u₂, u₃, hrs'⟩, ⟨u₄, u₅, hcondition'⟩, htable', httl',
      -⟩ := modification_ok h'
    rw [assignments_eq] at hassignments hassignments'
    obtain ⟨hresults, hmade⟩ := made_of_ok hassignments
    obtain ⟨hresults', hmade'⟩ := made_of_ok hassignments'
    have hagrees := Action.Relates.mapM hvalues (fun _ _ => assignField_agrees) _ _ _ _ _ _ hmade
      hmade'
    have htwins := twins_of_agrees hagrees hdefaults
    rw [hresults, hresults'] at htwins
    have hrelations := Query.relations_twins hquery _ _ _ _ _ _ hrs hrs'
    have hrequired : (condition t o).Relates (condition t { o with values, query, conditions }) _ :=
      condition_twin rfl hconditions
    rw [hm, hm']
    exact Statement.update_twin (Except.ok.inj (htable.symm.trans htable')) (httl.trans httl'.symm)
      htwins hrelations (hrequired _ _ _ _ _ _ hcondition hcondition')
  | delete hquery =>
    obtain ⟨d, hd, ⟨s₁, s₂, hrs⟩, htable, -⟩ := deletion_ok h
    obtain ⟨d', hd', ⟨u₁, u₂, hrs'⟩, htable', -⟩ := deletion_ok h'
    rw [hd, hd']
    exact Statement.delete_twin (Except.ok.inj (htable.symm.trans htable'))
      (Query.relations_twins hquery _ _ _ _ _ _ hrs hrs')

/-- Operations of one skeleton whose defaults make the same values have statements of one text. As
many values are bound on either side as stand at places of the operation; those at one place have
one skeleton, and where they are one, one value is bound. -/
theorem compile_independent {t : Table} {o o' : Operation} {s s' u u' : Session}
    {p p' : Prepared} (hregistered : t.Registered) (halike : o.Alike t o')
    (hdefaults : o.defaults t s = o'.defaults t u) (h : (o.compile t).perform s = (.ok p, s'))
    (h' : (o'.compile t).perform u = (.ok p', u')) :
    p.statement.render = p'.statement.render ∧
    p.statement.params.length = (o.sources t s).length ∧
    p'.statement.params.length = p.statement.params.length ∧
    List.Forall₂ Value.Alike (o.sources t s) (o'.sources t u) ∧
    ∀ i : Nat, (o.sources t s)[i]? = (o'.sources t u)[i]? →
      p.statement.params[i]? = p'.statement.params[i]? := by
  obtain ⟨htext, hparams⟩ := compile_twin hregistered halike hdefaults h h'
  obtain ⟨hlength, hlengths, -⟩ := hparams.length_eq
  exact ⟨htext, hlength, hlengths, hparams.alike, hparams.getElem?_eq⟩

/-! ### Two people -/

/-- Renames a person who is old enough. -/
def renameTo (name : String) (id age : Int) : Operation := .update {
  table := "people"
  values := [("name", .text name)]
  query := [("id", .int id)]
  conditions := some [("age", .map [(.text "$gte", .int age)])] }

theorem alike_renameTo (name name' : String) (id id' age age' : Int) :
    (renameTo name id age).Alike Query.people (renameTo name' id' age') := by
  have hfield : ∀ f, Query.people.field? "name" = some f → f.isCounter = true →
      (Value.text name).SameSign (.text name') := fun _ _ _ n _ hn _ => nomatch hn
  have hage : (Value.map [(.text "$gte", .int age)]).Alike (.map [(.text "$gte", .int age')]) :=
    .map rfl (.cons (.leaf rfl rfl) .nil) (by with_unfolding_all rfl)
  have hid : Query.isFieldKey (.text "id") = true := by decide
  have hconditions : Query.isFieldKey (.text "age") = true := by decide
  exact .update (.cons ⟨rfl, .leaf rfl rfl, hfield⟩ .nil)
    (.cons (.of_field hid (.leaf rfl rfl)) .nil)
    (.some (.cons (.of_field hconditions hage) .nil))

theorem defaults_renameTo (name : String) (id age : Int) :
    (renameTo name id age).defaults Query.people {} = [] := by with_unfolding_all rfl

theorem sources_renameTo (name : String) (id age : Int) :
    (renameTo name id age).sources Query.people {} = [.text name, .int id, .int age] := by
  with_unfolding_all rfl

/-- Two people are renamed by one text, and the age that is asked of both is bound for both. -/
theorem independent_renameTo : ∃ p s' p' u',
    ((renameTo "ann" 1 18).compile Query.people).perform {} = (.ok p, s') ∧
    ((renameTo "eve" 2 18).compile Query.people).perform {} = (.ok p', u') ∧
    p.statement.render = "UPDATE \"people\" SET \"name\"=? WHERE \"id\" = ? IF \"age\" >= ?;" ∧
    p'.statement.render = p.statement.render ∧
    p.statement.params.length = 3 ∧ p'.statement.params.length = 3 ∧
    p.statement.params[2]? = p'.statement.params[2]? := by
  obtain ⟨p, s', hp, htext⟩ := Action.ok_of_read (g := fun p => p.statement.render)
    (a := (renameTo "ann" 1 18).compile Query.people) (s := {})
    (y := "UPDATE \"people\" SET \"name\"=? WHERE \"id\" = ? IF \"age\" >= ?;") (by decide +kernel)
  obtain ⟨p', u', hp', -⟩ := Action.ok_of_read (g := fun _ => ())
    (a := (renameTo "eve" 2 18).compile Query.people) (s := {}) (y := ()) (by decide +kernel)
  have hdefaults : (renameTo "ann" 1 18).defaults Query.people {} =
      (renameTo "eve" 2 18).defaults Query.people {} := by
    rw [defaults_renameTo, defaults_renameTo]
  obtain ⟨hsame, hlength, hlengths, -, hplaces⟩ := compile_independent people_registered
    (alike_renameTo _ _ _ _ _ _) hdefaults hp hp'
  rw [sources_renameTo] at hlength
  rw [sources_renameTo, sources_renameTo] at hplaces
  exact ⟨p, s', p', u', hp, hp', htext, hsame.symm, hlength, hlengths.trans hlength, hplaces 2 rfl⟩

end Operation

end WideColumn
