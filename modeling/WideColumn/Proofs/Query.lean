import Mathlib.Data.List.Forall2
import Mathlib.Data.List.Nodup
import WideColumn.Operation.Compile
import WideColumn.Schema.Definition
import WideColumn.Proofs.Action

/-!
# What a query asks for, and the relations it compiles to

A query asks for one thing at a time: under each key that names a field, for each entry of the value
and for each operator key of the entry, one relation. `Query.demands` lists them in the order in
which they are written. An accepted query is compiled faithfully when its relations meet the demands
one by one and no field key goes without (`Query.Faithful`).

Compiling loses a demand in two ways only. Operator keys are read in any case and put under their
operator, so that of two keys for one operator (`$gte` and `$GTE`) the later operand takes the place
of the earlier one; and a list that is empty has no entry at all. `Query.Unambiguous` excludes the
two, and `Query.relations_faithful_iff` says that nothing else is needed.
-/

namespace WideColumn

/-- A validator that is found is the one under the name. -/
theorem Table.validator_ok {t : Table} {name : String} {v : FieldValidator} {s s' : Session}
    (h : (t.validator name).perform s = (.ok v, s')) : t.validator? name = some v := by
  unfold validator at h
  split at h
  · rename_i w hw
    cases h
    exact hw
  · exact absurd h Action.refuse_ne_ok

/-! ## Demands -/

/-- One thing that a query asks for. -/
inductive Demand where
  | search (text : Value)
  | expression (definition : Value)
  /-- An operator with its operand under a key that names a field or a list of fields. -/
  | operator (key : String) (operator : Operator) (operand : Value)

namespace Query

/-- The key names a field, or a list of fields for a token. -/
def isFieldKey : Value → Bool
  | .text key => key != searchKey && key != expressionKey && !shapeKeys.contains key
  | _ => false

/-- The field holds lists, so that a list under the key is one value. -/
def holdsLists (t : Table) (key : String) : Bool :=
  !isComposite key && ((t.validator? key).map fun v => v.type.needsArgument).getD false

/-- The entries of a value under a key: the elements of a list, and any other value itself. -/
def entriesUnder (t : Table) (key : String) : Value → List Value
  | .list xs => if holdsLists t key then [.list xs] else xs
  | v => [v]

/-- The operators that the keys of an entry stand for, each with its operand. -/
def operatorEntries (entry : Value) : List (Operator × Value) :=
  match entry with
  | .map (e :: es) =>
    ((e :: es).mapM fun e => (operatorOf? e.1).map fun o => (o, e.2)).getD [(.compare .eq, entry)]
  | _ => [(.compare .eq, entry)]

/-- What the value under a key asks for, when `read` gives the operators of an entry. -/
def demandsUnder (read : Value → List (Operator × Value)) (t : Table) :
    Value → Value → List Demand
  | .text key, value =>
    if key = searchKey then [.search value]
    else if key = expressionKey then [.expression value]
    else if shapeKeys.contains key then []
    else (entriesUnder t key value).flatMap fun entry =>
      (read entry).map fun o => .operator key o.1 o.2
  | _, _ => []

/-- What a query asks for, in the order in which it is written. -/
def demands (t : Table) (query : List (Value × Value)) : List Demand :=
  query.flatMap fun e => demandsUnder operatorEntries t e.1 e.2

/-- What is left of it once repeated operators of an entry are put in one place. -/
def keptDemands (t : Table) (query : List (Value × Value)) : List Demand :=
  query.flatMap fun e => demandsUnder operands t e.1 e.2

end Query

/-! ## Meeting a demand -/

/-- The columns that a relation compares, and the operator by which it does. A value under a key of
a map is something that the map contains. -/
def Relation.subject? : Relation → Option (List Identifier × Operator)
  | .compare column c _ => some ([column], .compare c)
  | .isIn column _ => some ([column], .isIn)
  | .entry column _ _ | .contains column _ => some ([column], .contains)
  | .containsKey column _ => some ([column], .containsKey)
  | .token columns _ _ => some (columns, .token)
  | .search _ | .expression _ _ => none

/-- The fields that a key names. -/
def Query.fieldNames (key : String) (operator : Operator) : List String :=
  if operator = .token then (key.splitOn ",").map Text.strip else [key]

/-- The relation is the one that a demand asks for: of the operator on the fields of the key, and
compiled from the operand. -/
def Demand.MetBy (t : Table) : Demand → Relation → Prop
  | .search text, r => r = .search text.display
  | .expression definition, r =>
    ∃ s s', (Query.expressionRelation definition).perform s = (.ok r, s')
  | .operator key o operand, r =>
    (∃ columns, (Query.fieldNames key o).mapM Identifier.ofText = .ok columns ∧
      r.subject? = some (columns, o)) ∧
    ∃ s s', (Query.relation t key o operand).perform s = (.ok r, s')

namespace Query

/-- The relations meet what the query asks for one by one, and every key that names a field asks
for something. -/
structure Faithful (t : Table) (query : List (Value × Value)) (rs : List Relation) : Prop where
  meets : List.Forall₂ (Demand.MetBy t) (demands t query) rs
  asks : ∀ e ∈ query, isFieldKey e.1 → demandsUnder operatorEntries t e.1 e.2 ≠ []

/-- No key that names a field has an empty list, and no entry has two keys for one operator. -/
def Unambiguous (t : Table) (query : List (Value × Value)) : Prop :=
  ∀ key value, (.text key, value) ∈ query → isFieldKey (.text key) →
    entriesUnder t key value ≠ [] ∧
    ∀ entry ∈ entriesUnder t key value, ((operatorEntries entry).map Prod.fst).Nodup

/-! ## Operators of an entry -/

/-- Putting an operand under an operator adds the operator unless it is there. -/
theorem length_putOperand (o : Operator) (v : Value) : ∀ os : List (Operator × Value),
    (putOperand o v os).length = if o ∈ os.map Prod.fst then os.length else os.length + 1
  | [] => by simp [putOperand]
  | (p, w) :: os => by
    have ih := length_putOperand o v os
    by_cases hp : p = o
    · simp [putOperand, hp]
    · have ho : o ≠ p := fun h => hp h.symm
      simp only [putOperand, if_neg hp, List.length_cons, ih, List.map_cons, List.mem_cons]
      by_cases hm : o ∈ os.map Prod.fst
      · simp [hm]
      · simp [hm, ho]

/-- An operator that is not there comes last. -/
theorem putOperand_of_notMem (o : Operator) (v : Value) : ∀ {os : List (Operator × Value)},
    o ∉ os.map Prod.fst → putOperand o v os = os ++ [(o, v)]
  | [], _ => rfl
  | (p, w) :: os, h => by
    have hp : p ≠ o := fun hp => h (by simp [hp])
    have ho : o ∉ os.map Prod.fst := fun hm => h (by simp [hm])
    simp only [putOperand, if_neg hp, putOperand_of_notMem o v ho, List.cons_append]

/-- Operators without repetition are kept as they are. -/
theorem putAll_of_nodup : ∀ (es os : List (Operator × Value)),
    ((os ++ es).map Prod.fst).Nodup →
      es.foldl (fun os e => putOperand e.1 e.2 os) os = os ++ es
  | [], os, _ => by simp
  | e :: es, os, h => by
    have ho : e.1 ∉ os.map Prod.fst := by
      rw [List.map_append, List.nodup_append] at h
      exact fun hm => h.2.2 _ hm _ (by simp) rfl
    have hnext : ((os ++ [e] ++ es).map Prod.fst).Nodup := by
      simpa using h
    rw [List.foldl_cons, putOperand_of_notMem e.1 e.2 ho, putAll_of_nodup es (os ++ [e]) hnext,
      List.append_assoc, List.singleton_append]

/-- Of repeated operators one is left, so that fewer operands remain. -/
theorem length_putAll_le : ∀ (es os : List (Operator × Value)),
    (es.foldl (fun os e => putOperand e.1 e.2 os) os).length ≤ os.length + es.length
  | [], os => by simp
  | e :: es, os => by
    have ih := length_putAll_le es (putOperand e.1 e.2 os)
    have hput := length_putOperand e.1 e.2 os
    rw [List.foldl_cons, List.length_cons]
    split at hput <;> omega

/-- As many operands remain as there are keys only when no operator is repeated. -/
theorem nodup_of_length_putAll : ∀ (es os : List (Operator × Value)),
    (os.map Prod.fst).Nodup →
      (es.foldl (fun os e => putOperand e.1 e.2 os) os).length = os.length + es.length →
        ((os ++ es).map Prod.fst).Nodup
  | [], os, hos, _ => by simpa using hos
  | e :: es, os, hos, h => by
    rw [List.foldl_cons, List.length_cons] at h
    have hle := length_putAll_le es (putOperand e.1 e.2 os)
    have hput := length_putOperand e.1 e.2 os
    have hm : e.1 ∉ os.map Prod.fst := fun hm => by
      rw [if_pos hm] at hput
      omega
    rw [putOperand_of_notMem e.1 e.2 hm] at h
    have hos' : ((os ++ [e]).map Prod.fst).Nodup := by
      rw [List.map_append, List.nodup_append]
      refine ⟨hos, List.nodup_singleton _, fun a ha b hb hab => hm ?_⟩
      rw [← List.mem_singleton.1 hb, ← hab]
      exact ha
    have hall := nodup_of_length_putAll es (os ++ [e]) hos' (by
      rw [List.length_append, List.length_singleton]
      exact h.trans (by omega))
    simpa using hall

/-- The operands of an entry are those of its keys, put under their operators one by one. -/
theorem operands_eq (entry : Value) :
    operands entry = (operatorEntries entry).foldl (fun os e => putOperand e.1 e.2 os) [] := by
  unfold operands operatorEntries
  cases entry with
  | map es =>
    cases es with
    | nil => rfl
    | cons e es =>
      simp only
      cases (e :: es).mapM fun e => (operatorOf? e.1).map fun o => (o, e.2) <;> rfl
  | _ => rfl

/-- An entry without repeated operators keeps the operand of each of its keys. -/
theorem operands_of_nodup {entry : Value} (h : ((operatorEntries entry).map Prod.fst).Nodup) :
    operands entry = operatorEntries entry := by
  rw [operands_eq]
  exact putAll_of_nodup _ [] h

/-- An entry has at most as many operands as keys. -/
theorem length_operands_le (entry : Value) :
    (operands entry).length ≤ (operatorEntries entry).length := by
  rw [operands_eq]
  simpa using length_putAll_le (operatorEntries entry) []

/-- An entry with as many operands as keys repeats no operator. -/
theorem nodup_of_length_operands {entry : Value}
    (h : (operands entry).length = (operatorEntries entry).length) :
    ((operatorEntries entry).map Prod.fst).Nodup := by
  rw [operands_eq] at h
  simpa using nodup_of_length_putAll (operatorEntries entry) [] List.nodup_nil (by simpa using h)

/-- Every entry has the key of an operator, if only that of an equality. -/
theorem operatorEntries_ne_nil (entry : Value) : operatorEntries entry ≠ [] := by
  unfold operatorEntries
  split
  · rename_i e es
    cases hm : (e :: es).mapM fun e => (operatorOf? e.1).map fun o => (o, e.2) with
    | none => simp
    | some found =>
      rw [List.mapM_cons] at hm
      rcases he : (operatorOf? e.1).map fun o => (o, e.2) with _ | o
      · simp [he] at hm
      · rcases hes : es.mapM fun e => (operatorOf? e.1).map fun o => (o, e.2) with _ | os
        · simp [he, hes] at hm
        · simp only [he, hes, Option.bind_eq_bind, Option.bind_some, Option.pure_def,
            Option.some.injEq] at hm
          simp [← hm]
  · simp

/-! ## One relation for one operator -/

/-- The names of a token's columns that are accepted. -/
theorem acceptAll_ok : ∀ {names : List String} {s s' : Session} {columns : List Identifier},
    (acceptAll names).perform s = (.ok columns, s') → names.mapM Identifier.ofText = .ok columns
  | [], _, _, _, h => by
    cases h
    rfl
  | n :: ns, s, s', columns, h => by
    obtain ⟨i, s₁, hi, h⟩ := Action.bind_ok h
    obtain ⟨is, s₂, his, h⟩ := Action.bind_ok h
    obtain ⟨hi, -⟩ := Action.lift_ok hi
    cases h
    rw [List.mapM_cons, hi, acceptAll_ok his]
    rfl

/-- There is one value for each column of a token. -/
theorem length_of_tokenValues? {names : List String} {value : Value} {values : List Value}
    (h : tokenValues? names value = some values) : values.length = names.length := by
  unfold tokenValues? at h
  split at h
  · cases h
    rfl
  · exact beq_iff_eq.1 (Option.filter_eq_some_iff.1 h).2

/-- The relation of a token compares the columns that the key lists with operands of the values. -/
theorem tokenRelation_ok {t : Table} {key : String} {operand : Value} {s s' : Session}
    {r : Relation} (h : (tokenRelation t key operand).perform s = (.ok r, s')) :
    ∃ operator value c values os columns, operand = .map [(operator, value)] ∧
      tokenComparison? operator = some c ∧
      tokenValues? ((key.splitOn ",").map Text.strip) value = some values ∧
      (∃ s₁ s₂, (tokenOperands t ((key.splitOn ",").map Text.strip) values).perform s₁ =
        (.ok os, s₂)) ∧
      ((key.splitOn ",").map Text.strip).mapM Identifier.ofText = .ok columns ∧
      r = .token columns c os := by
  unfold tokenRelation at h
  split at h
  · split at h
    · rename_i hcompares
      dsimp only at h
      split at h
      · rename_i hvalues
        obtain ⟨os, s₁, hos, h⟩ := Action.bind_ok h
        obtain ⟨columns, s₂, hcolumns, h⟩ := Action.bind_ok h
        cases h
        exact ⟨_, _, _, _, os, columns, rfl, hcompares, hvalues, ⟨_, _, hos⟩, acceptAll_ok hcolumns,
          rfl⟩
      · exact absurd h Action.refuse_ne_ok
    · exact absurd h Action.refuse_ne_ok
  · exact absurd h Action.refuse_ne_ok
  · exact absurd h Action.refuse_ne_ok

/-- The relation of a token is on the columns that the key lists. -/
theorem tokenRelation_subject {t : Table} {key : String} {operand : Value} {s s' : Session}
    {r : Relation} (h : (tokenRelation t key operand).perform s = (.ok r, s')) :
    ∃ columns, ((key.splitOn ",").map Text.strip).mapM Identifier.ofText = .ok columns ∧
      r.subject? = some (columns, .token) := by
  obtain ⟨_, _, _, _, os, columns, -, -, -, -, hcolumns, rfl⟩ := tokenRelation_ok h
  exact ⟨columns, hcolumns, rfl⟩

/-- The relation of an operator on a single field, whose column it is on. -/
inductive OnColumn (v : FieldValidator) (column : Identifier) (operand : Value) :
    Operator → Relation → Prop
  | compare {c o s s'} (h : (Operand.compile v true operand).perform s = (.ok o, s')) :
      OnColumn v column operand (.compare c) (.compare column c o)
  | isIn {items} : OnColumn v column operand .isIn (.isIn column items)
  | contains : OnColumn v column operand .contains (.contains column operand)
  | entry {key value} (h : operand = .map [(key, value)]) :
      OnColumn v column operand .contains (.entry column key value)
  | containsKey : OnColumn v column operand .containsKey (.containsKey column operand)

theorem fieldRelation_ok {t : Table} {key : String} {o : Operator} {operand : Value}
    {s s' : Session} {r : Relation} (ho : o ≠ .token)
    (h : (fieldRelation t key o operand).perform s = (.ok r, s')) :
    ∃ v column, t.validator? key = some v ∧ Identifier.ofText key = .ok column ∧
      OnColumn v column operand o r := by
  obtain ⟨v, s₁, hv, h⟩ := Action.bind_ok h
  obtain ⟨column, s₂, hcolumn, h⟩ := Action.bind_ok h
  refine ⟨v, column, Table.validator_ok hv, (Action.lift_ok hcolumn).1, ?_⟩
  cases o with
  | compare c =>
    obtain ⟨o, s₃, ho, h⟩ := Action.bind_ok h
    cases h
    exact .compare ho
  | isIn =>
    simp only at h
    split at h
    · obtain ⟨items, s₃, -, h⟩ := Action.bind_ok h
      cases h
      exact .isIn
    · exact absurd h Action.refuse_ne_ok
  | contains =>
    simp only [containsRelation] at h
    split at h
    · exact absurd h Action.refuse_ne_ok
    · split at h
      · cases h
        exact .entry rfl
      · cases h
        exact .contains
  | containsKey =>
    simp only [containsKeyRelation] at h
    split at h
    · cases h
      exact .containsKey
    · exact absurd h Action.refuse_ne_ok
  | token => exact absurd rfl ho

/-- The relation of a token is on the columns that the key lists, and the one of any other operator
on the column of the single field that the key is. -/
theorem relation_ok {t : Table} {key : String} {o : Operator} {operand : Value} {s s' : Session}
    {r : Relation} (h : (relation t key o operand).perform s = (.ok r, s')) :
    o = .token ∧ (tokenRelation t key operand).perform s = (.ok r, s') ∨
      o ≠ .token ∧ ∃ v column, t.validator? key = some v ∧ Identifier.ofText key = .ok column ∧
        OnColumn v column operand o r := by
  unfold relation at h
  split at h
  · exact .inl ⟨‹_›, h⟩
  · split at h
    · exact absurd h Action.refuse_ne_ok
    · exact .inr ⟨‹_›, fieldRelation_ok ‹_› h⟩

/-- The relation of an operator under a key is one that the key and the operator ask for. -/
theorem relation_metBy {t : Table} {key : String} {o : Operator} {operand : Value}
    {s s' : Session} {r : Relation} (h : (relation t key o operand).perform s = (.ok r, s')) :
    (Demand.operator key o operand).MetBy t r := by
  refine ⟨?_, s, s', h⟩
  unfold fieldNames
  rcases relation_ok h with ⟨rfl, h⟩ | ⟨ho, v, column, -, hcolumn, hr⟩
  · exact tokenRelation_subject h
  · refine ⟨[column], ?_, by cases hr <;> rfl⟩
    rw [if_neg ho, List.mapM_cons, hcolumn]
    rfl

/-! ## The relations of a query -/

/-- The entries that a value is split into are the entries under the key. -/
theorem entries_ok {t : Table} {key : String} {value : Value} {s s' : Session} {es : List Value}
    (h : (entries t key value).perform s = (.ok es, s')) : es = entriesUnder t key value := by
  cases value with
  | list xs =>
    simp only [entries] at h
    simp only [entriesUnder, holdsLists]
    split at h
    case isTrue hc =>
      cases h
      simp [hc]
    case isFalse hc =>
      obtain ⟨v, s₁, hv, h⟩ := Action.bind_ok h
      have hvalidator := Table.validator_ok hv
      have hsingle : isComposite key = false := by simpa using hc
      simp only [hvalidator, Option.map_some, Option.getD_some, hsingle, Bool.not_false,
        Bool.true_and]
      split at h <;> rename_i hn <;> cases h <;> simp [hn]
  | _ =>
    cases h
    rfl

/-- The relations of the operators of an entry meet them one by one. -/
theorem operatorRelations_met {t : Table} {key : String} :
    ∀ {os : List (Operator × Value)} {s s' : Session} {rs : List Relation},
      (operatorRelations t key os).perform s = (.ok rs, s') →
        List.Forall₂ (Demand.MetBy t) (os.map fun o => .operator key o.1 o.2) rs
  | [], _, _, _, h => by
    cases h
    exact .nil
  | (o, v) :: os, s, s', rs, h => by
    obtain ⟨r, s₁, hr, h⟩ := Action.bind_ok h
    obtain ⟨rs, s₂, hrs, h⟩ := Action.bind_ok h
    cases h
    exact .cons (relation_metBy hr) (operatorRelations_met hrs)

/-- The relations of entries meet the operands that are kept of them. -/
theorem entryRelations_met {t : Table} {key : String} :
    ∀ {es : List Value} {s s' : Session} {rs : List Relation},
      (entryRelations t key es).perform s = (.ok rs, s') →
        List.Forall₂ (Demand.MetBy t)
          (es.flatMap fun e => (operands e).map fun o => .operator key o.1 o.2) rs
  | [], _, _, _, h => by
    cases h
    exact .nil
  | e :: es, s, s', rs, h => by
    obtain ⟨rs, s₁, hrs, h⟩ := Action.bind_ok h
    obtain ⟨rs', s₂, hrs', h⟩ := Action.bind_ok h
    cases h
    rw [List.flatMap_cons]
    exact List.rel_append (operatorRelations_met hrs) (entryRelations_met hrs')

/-- The relation of a custom index is made of the name and the query that its definition gives. -/
theorem expressionRelation_ok {definition : Value} {s s' : Session} {r : Relation}
    (h : (expressionRelation definition).perform s = (.ok r, s')) :
    ∃ es index query, definition = .map es ∧ Value.get? es "index" = some index ∧
      Value.get? es "query" = some query ∧ r = .expression index.display query.display := by
  unfold expressionRelation at h
  dsimp only at h
  split at h
  · split at h
    · rename_i es _ _ index query hindex hquery
      cases h
      exact ⟨es, index, query, rfl, hindex, hquery, rfl⟩
    · exact absurd h Action.refuse_ne_ok
  · exact absurd h Action.refuse_ne_ok

/-- The relations under a key meet what is kept of its demands. -/
theorem keyRelations_met {t : Table} {key value : Value} {s s' : Session} {rs : List Relation}
    (h : (keyRelations t key value).perform s = (.ok rs, s')) :
    List.Forall₂ (Demand.MetBy t) (demandsUnder operands t key value) rs := by
  cases key with
  | text key =>
    simp only [keyRelations] at h
    simp only [demandsUnder]
    by_cases hsearch : key = searchKey
    · rw [if_pos hsearch] at h ⊢
      cases h
      exact .cons rfl .nil
    rw [if_neg hsearch] at h ⊢
    by_cases hexpression : key = expressionKey
    · rw [if_pos hexpression] at h ⊢
      obtain ⟨r, hr, hrs⟩ := Action.map_ok h
      subst hrs
      exact .cons ⟨s, s', hr⟩ .nil
    rw [if_neg hexpression] at h ⊢
    by_cases hshape : shapeKeys.contains key
    · rw [if_pos hshape] at h ⊢
      cases h
      exact .nil
    rw [if_neg hshape] at h ⊢
    split at h
    · exact absurd h Action.refuse_ne_ok
    · obtain ⟨es, s₁, hes, h⟩ := Action.bind_ok h
      rw [← entries_ok hes]
      exact entryRelations_met h
  | octets kind bs => cases kind <;> cases h
  | _ => cases h

/-- The relations of an accepted query meet, one by one, what is kept of its demands. -/
theorem relations_met {t : Table} :
    ∀ {query : List (Value × Value)} {s s' : Session} {rs : List Relation},
      (relations t query).perform s = (.ok rs, s') →
        List.Forall₂ (Demand.MetBy t) (keptDemands t query) rs
  | [], _, _, _, h => by
    cases h
    exact .nil
  | (key, value) :: query, s, s', rs, h => by
    obtain ⟨rs, s₁, hrs, h⟩ := Action.bind_ok h
    obtain ⟨rs', s₂, hrs', h⟩ := Action.bind_ok h
    cases h
    rw [keptDemands, List.flatMap_cons]
    exact List.rel_append (keyRelations_met hrs) (relations_met hrs')

/-! ## Faithful queries -/

section Lengths
variable {α β : Type} {f g : α → List β}

/-- Parts that are each at most as long make a whole that is at most as long. -/
theorem length_flatMap_le : ∀ {xs : List α}, (∀ x ∈ xs, (f x).length ≤ (g x).length) →
    (xs.flatMap f).length ≤ (xs.flatMap g).length
  | [], _ => Nat.le_refl _
  | x :: xs, h => by
    have hx := h x (by simp)
    have hxs : (xs.flatMap f).length ≤ (xs.flatMap g).length :=
      length_flatMap_le fun y hy => h y (List.mem_cons_of_mem x hy)
    simp only [List.flatMap_cons, List.length_append]
    omega

/-- When such a whole is as long, so is each of its parts. -/
theorem length_eq_of_flatMap : ∀ {xs : List α}, (∀ x ∈ xs, (f x).length ≤ (g x).length) →
    (xs.flatMap f).length = (xs.flatMap g).length → ∀ x ∈ xs, (f x).length = (g x).length
  | [], _, _, _, hx => absurd hx List.not_mem_nil
  | x :: xs, h, heq, y, hy => by
    have hx := h x (by simp)
    have hxs : ∀ z ∈ xs, (f z).length ≤ (g z).length := fun z hz => h z (List.mem_cons_of_mem x hz)
    have hle := length_flatMap_le hxs
    simp only [List.flatMap_cons, List.length_append] at heq
    rcases List.mem_cons.1 hy with rfl | hy
    · omega
    · exact length_eq_of_flatMap hxs (by omega) y hy

end Lengths

/-- What a field key asks for. -/
theorem demandsUnder_field {read : Value → List (Operator × Value)} {t : Table} {key : String}
    (h : isFieldKey (.text key)) (value : Value) :
    demandsUnder read t (.text key) value = (entriesUnder t key value).flatMap fun entry =>
      (read entry).map fun o => .operator key o.1 o.2 := by
  simp only [isFieldKey, Bool.and_eq_true, bne_iff_ne, ne_eq, Bool.not_eq_true'] at h
  obtain ⟨⟨hsearch, hexpression⟩, hshape⟩ := h
  simp only [demandsUnder, if_neg hsearch, if_neg hexpression, hshape, Bool.false_eq_true, if_false]

/-- Any other key asks for the same, however entries are read. -/
theorem demandsUnder_other {read read' : Value → List (Operator × Value)} {t : Table} {key : Value}
    (h : isFieldKey key = false) (value : Value) :
    demandsUnder read t key value = demandsUnder read' t key value := by
  cases key with
  | text key =>
    simp only [demandsUnder]
    split
    · rfl
    · split
      · rfl
      · split
        · rfl
        · simp_all [isFieldKey]
  | _ => rfl

/-- No more is kept under a key than is asked for. -/
theorem length_demandsUnder_le (t : Table) (key value : Value) :
    (demandsUnder operands t key value).length ≤
      (demandsUnder operatorEntries t key value).length := by
  cases hfield : isFieldKey key with
  | false => exact Nat.le_of_eq (congrArg List.length (demandsUnder_other hfield value))
  | true =>
    cases key with
    | text key =>
      rw [demandsUnder_field hfield, demandsUnder_field hfield]
      exact length_flatMap_le fun entry _ => by simpa using length_operands_le entry
    | _ => cases hfield

/-- Everything that an unambiguous query asks for is kept. -/
theorem Unambiguous.keptDemands_eq {t : Table} {query : List (Value × Value)}
    (h : Unambiguous t query) : keptDemands t query = demands t query := by
  refine List.flatMap_congr fun ⟨key, value⟩ hmem => ?_
  cases hfield : isFieldKey key with
  | false => exact demandsUnder_other hfield value
  | true =>
    cases key with
    | text key =>
      rw [demandsUnder_field hfield, demandsUnder_field hfield]
      refine List.flatMap_congr fun entry hentry => ?_
      rw [operands_of_nodup ((h key value hmem hfield).2 entry hentry)]
    | _ => cases hfield

/-- A key of an unambiguous query that names a field asks for something. -/
theorem Unambiguous.asks {t : Table} {query : List (Value × Value)} (h : Unambiguous t query) :
    ∀ e ∈ query, isFieldKey e.1 → demandsUnder operatorEntries t e.1 e.2 ≠ [] := by
  rintro ⟨key, value⟩ hmem hfield hnil
  cases key with
  | text key =>
    rw [demandsUnder_field hfield, List.flatMap_eq_nil_iff] at hnil
    obtain ⟨entry, hentry⟩ := List.exists_mem_of_ne_nil _ (h key value hmem hfield).1
    exact operatorEntries_ne_nil entry (List.map_eq_nil_iff.1 (hnil entry hentry))
  | _ => cases hfield

/-- An accepted query is compiled faithfully exactly when it is unambiguous. -/
theorem faithful_iff {t : Table} {query : List (Value × Value)} {s s' : Session}
    {rs : List Relation} (h : (relations t query).perform s = (.ok rs, s')) :
    Faithful t query rs ↔ Unambiguous t query := by
  have hmet := relations_met h
  constructor
  · rintro ⟨hmeets, hasks⟩ key value hmem hfield
    have hlength : (keptDemands t query).length = (demands t query).length :=
      hmet.length_eq.trans hmeets.length_eq.symm
    have hkey := length_eq_of_flatMap (fun e _ => length_demandsUnder_le t e.1 e.2) hlength
      (.text key, value) hmem
    have hsome := hasks _ hmem hfield
    simp only [demandsUnder_field hfield] at hkey hsome
    refine ⟨fun hnil => hsome (by simp [hnil]), fun entry hentry => ?_⟩
    have hentries := length_eq_of_flatMap
      (fun e _ => by simpa using length_operands_le e) hkey entry hentry
    exact nodup_of_length_operands (by simpa using hentries)
  · intro hunambiguous
    exact ⟨hunambiguous.keptDemands_eq ▸ hmet, hunambiguous.asks⟩

end Query

/-! ## Statements built from a query -/

/-- The query by which an operation finds its rows. -/
def Operation.query? : Operation → Option (List (String × Value))
  | select o => some o.query
  | update o => some o.query
  | delete o => some o.query
  | _ => none

/-- The relations by which a statement finds its rows. -/
def Statement.relations : Statement → List Relation
  | select s => s.relations
  | update s => s.relations
  | delete s => s.relations
  | _ => []

namespace Compile

/-- The relations that a write requires are those of its query, and there is one. -/
theorem requiredRelations_ok {t : Table} {query : List (String × Value)} {what : String}
    {s s' : Session} {rs : List Relation}
    (h : (requiredRelations t query what).perform s = (.ok rs, s')) :
    (∃ s₁, (Query.relations t (queryEntries query)).perform s = (.ok rs, s₁)) ∧ rs ≠ [] := by
  obtain ⟨rs', s₁, hrs, h⟩ := Action.bind_ok h
  cases rs' with
  | nil => exact absurd h Action.refuse_ne_ok
  | cons r rs' =>
    cases h
    exact ⟨⟨_, hrs⟩, List.cons_ne_nil _ _⟩

/-- The statement of a selection has the items that are asked for, the relations of the query, its
grouping and its order. -/
theorem selection_ok {t : Table} {o : Selection} {s s' : Session} {statement : SelectStatement}
    (h : (selection t o).perform s = (.ok statement, s')) :
    (o.items.getD []).mapM Projection.ofText = .ok statement.items ∧
      (∃ s₁ s₂, (Query.relations t (queryEntries o.query)).perform s₁ =
        (.ok statement.relations, s₂)) ∧
      (∃ s₁ s₂, (grouping (.ofOption (get? o.query Query.groupKey))).perform s₁ =
        (.ok statement.grouping, s₂)) ∧
      ∃ s₁ s₂, (order (.ofOption (get? o.query Query.orderKey))).perform s₁ =
        (.ok statement.order, s₂) := by
  obtain ⟨source, s₁, -, h⟩ := Action.bind_ok h
  obtain ⟨rs, s₂, hrs, h⟩ := Action.bind_ok h
  obtain ⟨items, s₃, hitems, h⟩ := Action.bind_ok h
  obtain ⟨name, s₄, -, h⟩ := Action.bind_ok h
  obtain ⟨grouping, s₅, hgrouping, h⟩ := Action.bind_ok h
  obtain ⟨order, s₆, horder, h⟩ := Action.bind_ok h
  obtain ⟨partitionLimit, s₇, -, h⟩ := Action.bind_ok h
  obtain ⟨limit, s₈, -, h⟩ := Action.bind_ok h
  cases h
  exact ⟨(Action.lift_ok hitems).1, ⟨s₁, s₂, hrs⟩, ⟨_, s₅, hgrouping⟩, s₅, s₆, horder⟩

/-- A time to live that is written is the one that was given. -/
theorem timeToLive_ok {ttl ttl' : Option Int} {s s' : Session}
    (h : (timeToLive ttl).perform s = (.ok ttl', s')) : ttl' = ttl ∧ s' = s := by
  cases ttl with
  | none =>
    cases h
    exact ⟨rfl, rfl⟩
  | some n =>
    obtain ⟨_, s₁, hlift, h⟩ := Action.bind_ok h
    cases h
    exact ⟨rfl, (Action.lift_ok hlift).2⟩

/-- The statement of an update has the assignments, the relations of the query, the condition, the
table and the time to live that are asked for; there is an assignment, and there is a relation. -/
theorem modification_ok {t : Table} {o : Modification} {s s' : Session} {p : Prepared}
    (h : (modification t o).perform s = (.ok p, s')) :
    ∃ u, p.statement = .update u ∧
      (∃ s₁, (assignments t o.values).perform s = (.ok u.assignments, s₁)) ∧
      (∃ s₁ s₂, (Query.relations t (queryEntries o.query)).perform s₁ = (.ok u.relations, s₂)) ∧
      (∃ s₁ s₂, (condition t o).perform s₁ = (.ok u.condition, s₂)) ∧
      Identifier.ofText o.table = .ok u.table ∧ u.ttl = o.ttl ∧ u.assignments ≠ [] ∧
      u.relations ≠ [] := by
  obtain ⟨assignments, s₁, hassignments, h⟩ := Action.bind_ok h
  dsimp only at h
  split at h
  · obtain ⟨_, s₂, hrefused, -⟩ := Action.bind_ok h
    exact absurd hrefused Action.refuse_ne_ok
  · rename_i hsome
    obtain ⟨rs, s₂, hrs, h⟩ := Action.bind_ok h
    obtain ⟨⟨s₃, hrs⟩, hfound⟩ := requiredRelations_ok hrs
    obtain ⟨table, s₄, htable, h⟩ := Action.bind_ok h
    obtain ⟨ttl, s₅, httl, h⟩ := Action.bind_ok h
    obtain ⟨condition, s₆, hcondition, h⟩ := Action.bind_ok h
    cases h
    exact ⟨_, rfl, ⟨s₁, hassignments⟩, ⟨s₁, s₃, hrs⟩, ⟨s₅, _, hcondition⟩,
      (Action.lift_ok htable).1, (timeToLive_ok httl).1, by simpa using hsome, hfound⟩

/-- The statement of a deletion has the relations of the query, of which there is one, and the
table. -/
theorem deletion_ok {t : Table} {o : Deletion} {s s' : Session} {p : Prepared}
    (h : (deletion t o).perform s = (.ok p, s')) :
    ∃ d, p.statement = .delete d ∧
      (∃ s₁ s₂, (Query.relations t (queryEntries o.query)).perform s₁ = (.ok d.relations, s₂)) ∧
      Identifier.ofText o.table = .ok d.table ∧ d.relations ≠ [] := by
  obtain ⟨rs, s₁, hrs, h⟩ := Action.bind_ok h
  obtain ⟨⟨s₂, hrs⟩, hfound⟩ := requiredRelations_ok hrs
  obtain ⟨table, s₃, htable, h⟩ := Action.bind_ok h
  cases h
  exact ⟨_, rfl, ⟨s, s₂, hrs⟩, (Action.lift_ok htable).1, hfound⟩

end Compile

/-- A statement that finds rows by a query has the relations of that query. -/
theorem Operation.compile_relations {t : Table} {o : Operation} {query : List (String × Value)}
    {s s' : Session} {p : Prepared} (hquery : o.query? = some query)
    (h : (o.compile t).perform s = (.ok p, s')) :
    ∃ s₁ s₂, (Query.relations t (Compile.queryEntries query)).perform s₁ =
      (.ok p.statement.relations, s₂) := by
  cases o with
  | select o =>
    cases hquery
    obtain ⟨statement, s₁, hstatement, h⟩ := Action.bind_ok h
    cases h
    exact (Compile.selection_ok hstatement).2.1
  | update o =>
    cases hquery
    obtain ⟨u, hu, -, hrelations, -⟩ := Compile.modification_ok h
    rw [hu]
    exact hrelations
  | delete o =>
    cases hquery
    obtain ⟨d, hd, hrelations, -⟩ := Compile.deletion_ok h
    rw [hd]
    exact hrelations
  | _ => cases hquery

namespace Query

/-- Every part of an accepted query becomes a relation of its own, in input order, exactly when no
field key has an empty list and no entry has two keys for one operator; and so it is for the
relations of every selection, update and deletion built from a query. -/
theorem relations_faithful_iff_unambiguous (t : Table) :
    (∀ (query : List (Value × Value)) (s s' : Session) (rs : List Relation),
      (relations t query).perform s = (.ok rs, s') →
        (Faithful t query rs ↔ Unambiguous t query)) ∧
    ∀ (o : Operation) (query : List (String × Value)) (s s' : Session) (p : Prepared),
      o.query? = some query → (o.compile t).perform s = (.ok p, s') →
        (Faithful t (Compile.queryEntries query) p.statement.relations ↔
          Unambiguous t (Compile.queryEntries query)) := by
  refine ⟨fun query s s' rs h => faithful_iff h, fun o query s s' p hquery h => ?_⟩
  obtain ⟨s₁, s₂, hrs⟩ := Operation.compile_relations hquery h
  exact faithful_iff hrs

/-! ## A table of people -/

/-- People by their number, as a definition. -/
def peopleDefinition : Value := .map [
  (.text "fields", .map [
    (.text "id", .text "int"), (.text "name", .text "text"), (.text "age", .text "int")]),
  (.text "key", .list [.text "id"])]

/-- The table that `peopleDefinition` declares. -/
def people : Table where
  name := "people"
  fields := [{ name := "id", type := "int" }, { name := "name", type := "text" },
    { name := "age", type := "int" }]
  partitionKey := ["id"]
  clusteringKey := []
  clusteringOrder := []
  indexes := []
  customIndexes := []
  views := []
  defaultTtl := none
  hooks := []

/-- People of a name whose age is in a range. -/
def inRange : List (String × Value) := [
  ("age", .map [(.text "$gte", .int 18), (.text "$lt", .int 65)]), ("name", .text "bob")]

/-- A range beside an equality is unambiguous. -/
theorem unambiguous_inRange : Unambiguous people (Compile.queryEntries inRange) := by
  intro key value hmem _
  rcases List.mem_cons.1 hmem with h | hmem
  · cases h
    refine ⟨List.cons_ne_nil _ _, fun entry hentry => ?_⟩
    rw [List.mem_singleton.1 hentry]
    decide
  · cases List.mem_singleton.1 hmem
    refine ⟨List.cons_ne_nil _ _, fun entry hentry => ?_⟩
    rw [List.mem_singleton.1 hentry]
    decide

/-- No part of a range beside an equality is lost, neither in the relations nor in a deletion. -/
theorem faithful_inRange :
    (∃ rs s', (relations people (Compile.queryEntries inRange)).perform {} = (.ok rs, s') ∧
      rs.map Relation.render = ["\"age\" >= ?", "\"age\" < ?", "\"name\" = ?"] ∧
      Faithful people (Compile.queryEntries inRange) rs) ∧
    ∃ p s', ((Operation.delete ⟨"people", inRange⟩).compile people).perform {} = (.ok p, s') ∧
      p.statement.render =
        "DELETE FROM \"people\" WHERE \"age\" >= ? AND \"age\" < ? AND \"name\" = ?;" ∧
      Faithful people (Compile.queryEntries inRange) p.statement.relations := by
  obtain ⟨rs, s₁, hrs, htexts⟩ := Action.ok_of_read (g := List.map Relation.render)
    (a := relations people (Compile.queryEntries inRange)) (s := {})
    (y := ["\"age\" >= ?", "\"age\" < ?", "\"name\" = ?"]) (by decide +kernel)
  obtain ⟨p, s₂, hp, htext⟩ := Action.ok_of_read (g := fun p => p.statement.render)
    (a := (Operation.delete ⟨"people", inRange⟩).compile people) (s := {})
    (y := "DELETE FROM \"people\" WHERE \"age\" >= ? AND \"age\" < ? AND \"name\" = ?;")
    (by decide +kernel)
  have hrelations := (relations_faithful_iff_unambiguous people).1 _ _ _ _ hrs
  have hstatement := (relations_faithful_iff_unambiguous people).2 _ _ _ _ _ rfl hp
  exact ⟨⟨rs, s₁, hrs, htexts, hrelations.2 unambiguous_inRange⟩,
    p, s₂, hp, htext, hstatement.2 unambiguous_inRange⟩

/-- Two keys for one operator. -/
def collision : List (String × Value) :=
  [("age", .map [(.text "$gte", .int 1), (.text "$GTE", .int 2)])]

/-- A list without elements. -/
def nameless : List (String × Value) := [("id", .int 1), ("name", .list [])]

/-- Two keys for one operator, and a list without elements: each loses a part of the query. Of the
two bounds on the age only one is compiled; and the name is left out of a deletion, which then takes
every row under the number. -/
theorem not_faithful_collision_or_empty :
    Table.ofDefinition (.text "people") peopleDefinition = .ok people ∧
    (∃ rs s', (relations people (Compile.queryEntries collision)).perform {} = (.ok rs, s') ∧
      rs.map Relation.render = ["\"age\" >= ?"] ∧
      ¬ Faithful people (Compile.queryEntries collision) rs) ∧
    ∃ p s', ((Operation.delete ⟨"people", nameless⟩).compile people).perform {} = (.ok p, s') ∧
      p.statement.render = "DELETE FROM \"people\" WHERE \"id\" = ?;" ∧
      ¬ Faithful people (Compile.queryEntries nameless) p.statement.relations := by
  obtain ⟨rs, s₁, hrs, htexts⟩ := Action.ok_of_read (g := List.map Relation.render)
    (a := relations people (Compile.queryEntries collision)) (s := {})
    (y := ["\"age\" >= ?"]) (by decide +kernel)
  obtain ⟨p, s₂, hp, htext⟩ := Action.ok_of_read (g := fun p => p.statement.render)
    (a := (Operation.delete ⟨"people", nameless⟩).compile people) (s := {})
    (y := "DELETE FROM \"people\" WHERE \"id\" = ?;") (by decide +kernel)
  refine ⟨by with_unfolding_all rfl, ⟨rs, s₁, hrs, htexts, fun h => ?_⟩, p, s₂, hp, htext,
    fun h => ?_⟩
  · have hasked : (demands people (Compile.queryEntries collision)).length = 2 := by decide
    have hcompiled : rs.length = 1 := by simpa using congrArg List.length htexts
    have hlength := h.meets.length_eq
    omega
  · have hmem : (Value.text "name", Value.list []) ∈ Compile.queryEntries nameless := by
      simp [Compile.queryEntries, nameless]
    exact h.asks _ hmem (by decide) (by decide +kernel)

end Query

end WideColumn
