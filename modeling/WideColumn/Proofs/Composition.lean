import WideColumn.Proofs.Query
import WideColumn.Proofs.Uniformity

/-!
# Queries compose

The relations of two queries in one are those of the first one followed by those of the second one,
and so it is for the entries of a list under one key (`Query.relations_compose`). The second part is
compiled in the session that the first one leaves. Only counting functions can tell the difference:
without them each part may be compiled in a session of its own (`Action.outcome_append`).
-/

namespace WideColumn

/-! ## Lists made one after the other -/

namespace Action

variable {α β : Type} {a b : Action (List α)}

/-- The list that one action ends with, followed by the one that another action then ends with. -/
def append (a b : Action (List α)) : Action (List α) := do return (← a) ++ (← b)

/-- The lists that an action ends with for one element after the other, in one list. -/
def concat (f : β → Action (List α)) (xs : List β) : Action (List α) := List.flatten <$> xs.mapM f

/-- Both lists in one, or the failure of the first one that failed. -/
def both : Except Failure (List α) → Except Failure (List α) → Except Failure (List α)
  | .ok xs, .ok ys => .ok (xs ++ ys)
  | .ok _, .error f => .error f
  | .error f, _ => .error f

theorem append_ok_iff {s s' : Session} {zs : List α} : (a.append b).perform s = (.ok zs, s') ↔
    ∃ xs s₁ ys, a.perform s = (.ok xs, s₁) ∧ b.perform s₁ = (.ok ys, s') ∧ zs = xs ++ ys := by
  constructor
  · intro h
    obtain ⟨xs, s₁, hxs, h⟩ := bind_ok h
    obtain ⟨ys, s₂, hys, h⟩ := bind_ok h
    cases h
    exact ⟨xs, s₁, ys, hxs, hys, rfl⟩
  · rintro ⟨xs, s₁, ys, hxs, hys, rfl⟩
    simp only [append, perform_bind, hxs, hys, perform_pure]

theorem append_error_iff {s s' : Session} {f : Failure} :
    (a.append b).perform s = (.error f, s') ↔ a.perform s = (.error f, s') ∨
      ∃ xs s₁, a.perform s = (.ok xs, s₁) ∧ b.perform s₁ = (.error f, s') := by
  unfold append
  rw [perform_bind]
  rcases a.perform s with ⟨_ | xs, s₁⟩
  · simp
  · simp only [perform_bind, perform_pure]
    rcases hb : b.perform s₁ with ⟨_ | ys, s₂⟩ <;> simp [hb]

/-- Uniform actions may each run in a session of its own. -/
theorem outcome_append (ha : a.Uniform) (hb : b.Uniform) (s s₁ s₂ : Session) :
    ((a.append b).perform s).1 = both (a.perform s₁).1 (b.perform s₂).1 := by
  have hfirst := ha s s₁
  unfold append
  rw [perform_bind, ← hfirst]
  rcases a.perform s with ⟨_ | xs, s'⟩
  · rfl
  · have hsecond := hb s' s₂
    simp only [perform_bind, perform_pure, ← hsecond]
    rcases b.perform s' with ⟨_ | ys, s''⟩ <;> rfl

theorem concat_nil (f : β → Action (List α)) : concat f [] = pure [] := by
  simp [concat]

theorem concat_cons (f : β → Action (List α)) (x : β) (xs : List β) :
    concat f (x :: xs) = (f x).append (concat f xs) := by
  simp [concat, append]

theorem concat_append (f : β → Action (List α)) (xs ys : List β) :
    concat f (xs ++ ys) = (concat f xs).append (concat f ys) := by
  simp [concat, append, List.mapM_append]

theorem Uniform.concat {f : β → Action (List α)} (hf : ∀ x, (f x).Uniform) (xs : List β) :
    (Action.concat f xs).Uniform := by
  induction xs with
  | nil =>
    rw [concat_nil]
    exact .pure _
  | cons x xs ih =>
    rw [concat_cons]
    exact .bind (hf x) fun _ => .bind ih fun _ => .pure _

/-- Uniform actions for the elements of a list may each run in a session of its own. -/
theorem outcome_concat {f : β → Action (List α)} (hf : ∀ x, (f x).Uniform) (s s' : Session)
    (xs : List β) : ((concat f xs).perform s).1 =
      (xs.map fun x => ((f x).perform s').1).foldr both (.ok []) := by
  induction xs with
  | nil =>
    rw [concat_nil]
    rfl
  | cons x xs ih =>
    rw [concat_cons, outcome_append (hf x) (.concat hf xs) s s' s, ih]
    rfl

/-- What would follow a refusal is not run. -/
theorem refuse_append (r : Refusal) : (refuse r : Action (List α)).append b = refuse r := rfl

end Action

namespace Query

open WideColumn.Action (append concat both)

variable {t : Table}

/-! ## Queries in one -/

/-- Both queries in one: the entries of the second one are put behind those of the first one, unless
their key is there. -/
def merged (q₁ q₂ : List (Value × Value)) : List (Value × Value) :=
  q₂.foldl (fun es e => Value.insertEntry e.1 e.2 es) q₁

/-- No key of the second query is one of the first query or is there twice. -/
structure KeysApart (q₁ q₂ : List (Value × Value)) : Prop where
  disjoint : ∀ e₁ ∈ q₁, ∀ e₂ ∈ q₂, e₂.1.eqv e₁.1 = false
  once : q₂.Pairwise fun e e' => e'.1.eqv e.1 = false

/-- An entry whose key is not there comes last. -/
theorem insertEntry_eq_append {key x : Value} : ∀ {es : List (Value × Value)},
    (∀ e ∈ es, key.eqv e.1 = false) → Value.insertEntry key x es = es ++ [(key, x)]
  | [], _ => rfl
  | e :: es, h => by
    have hrest := insertEntry_eq_append (x := x) fun e' he' => h e' (.tail _ he')
    simp [Value.insertEntry, h e List.mem_cons_self, hrest]

theorem KeysApart.merged_eq {q₁ q₂ : List (Value × Value)} (h : KeysApart q₁ q₂) :
    merged q₁ q₂ = q₁ ++ q₂ := by
  induction q₂ generalizing q₁ with
  | nil => exact (List.append_nil q₁).symm
  | cons e q₂ ih =>
    obtain ⟨hbehind, honce⟩ := List.pairwise_cons.1 h.once
    have hfirst : Value.insertEntry e.1 e.2 q₁ = q₁ ++ [e] :=
      insertEntry_eq_append fun e₁ he₁ => h.disjoint e₁ he₁ e List.mem_cons_self
    have hnext : KeysApart (q₁ ++ [e]) q₂ := by
      refine ⟨fun e₁ he₁ e₂ he₂ => ?_, honce⟩
      rcases List.mem_append.1 he₁ with he₁ | he₁
      · exact h.disjoint e₁ he₁ e₂ (.tail _ he₂)
      · rw [List.mem_singleton.1 he₁]
        exact hbehind e₂ he₂
    change merged (Value.insertEntry e.1 e.2 q₁) q₂ = _
    rw [hfirst, ih hnext, List.append_assoc, List.singleton_append]

/-! ## Relations one after the other -/

/-- The relations of a query are those under its keys, one key after the other. -/
theorem relations_eq (query : List (Value × Value)) :
    relations t query = concat (fun e => keyRelations t e.1 e.2) query := by
  induction query with
  | nil => exact (Action.concat_nil _).symm
  | cons e query ih =>
    rw [Action.concat_cons, ← ih]
    rfl

theorem relations_append (q₁ q₂ : List (Value × Value)) :
    relations t (q₁ ++ q₂) = (relations t q₁).append (relations t q₂) := by
  rw [relations_eq, relations_eq, relations_eq, Action.concat_append]

/-- A query with one key has the relations under the key. -/
theorem relations_singleton (key x : Value) : relations t [(key, x)] = keyRelations t key x := by
  simp [relations]

theorem entryRelations_eq (key : String) (es : List Value) :
    entryRelations t key es = concat (fun e => operatorRelations t key (operands e)) es := by
  induction es with
  | nil => exact (Action.concat_nil _).symm
  | cons e es ih =>
    rw [Action.concat_cons, ← ih]
    rfl

/-! ## Values under a field key -/

/-- A list under the key is read element by element: the key lists fields, or it names a field whose
type needs no argument. -/
def ReadsElements (t : Table) (key : String) : Prop :=
  isComposite key = true ∨ ∃ v, t.validator? key = some v ∧ v.type.needsArgument = false

/-- The value is a map with keys, all of which stand for operators. -/
def isOperatorMap : Value → Bool
  | .map (e :: es) => (e :: es).all fun e => (operatorOf? e.1).isSome
  | _ => false

/-- Under a field key stand the relations of the entries, unless the key begins like an operator. -/
theorem keyRelations_field {key : String} (hkey : isFieldKey (.text key) = true) (x : Value) :
    keyRelations t (.text key) x =
      if key.toList.head? = some '$' then refuseOperator ("Unknown query key '" ++ key ++ "'") key
      else entries t key x >>= entryRelations t key := by
  simp only [isFieldKey, Bool.and_eq_true, bne_iff_ne, Bool.not_eq_true'] at hkey
  obtain ⟨⟨hsearch, hexpression⟩, hshape⟩ := hkey
  unfold keyRelations
  simp only [hsearch, hexpression, hshape, if_false, Bool.false_eq_true]

theorem entries_list {key : String} (h : ReadsElements t key) (xs : List Value) :
    entries t key (.list xs) = pure xs := by
  unfold entries
  split
  · rename_i heq
    cases heq
    rcases h with hcomposite | ⟨v, hv, hplain⟩
    · rw [if_pos hcomposite]
    · have hvalidator : t.validator key = pure v := by
        unfold Table.validator
        rw [hv]
      simp [hvalidator, hplain]
  · rename_i hlist
    exact absurd rfl (hlist xs)

/-- The relations of a list under a field key are those of its elements. -/
theorem keyRelations_list {key : String} (hkey : isFieldKey (.text key) = true)
    (h : ReadsElements t key) {xs : List Value} (hempty : xs = [] → key.toList.head? ≠ some '$') :
    keyRelations t (.text key) (.list xs) =
      concat (fun x => keyRelations t (.text key) (.list [x])) xs := by
  by_cases hunknown : key.toList.head? = some '$'
  · cases xs with
    | nil => exact absurd hunknown (hempty rfl)
    | cons x xs =>
      rw [Action.concat_cons, keyRelations_field hkey, keyRelations_field hkey, if_pos hunknown,
        if_pos hunknown]
      exact (Action.refuse_append _).symm
  · have hkeys (ys : List Value) : keyRelations t (.text key) (.list ys) =
        concat (fun e => operatorRelations t key (operands e)) ys := by
      rw [keyRelations_field hkey, if_neg hunknown, entries_list h, pure_bind, entryRelations_eq]
    simp [hkeys, concat]

/-- A value that is no operator map is compared for equality. -/
theorem operands_bare {x : Value} (h : isOperatorMap x = false) :
    operands x = [(.compare .eq, x)] := by
  unfold operands
  split
  · rfl
  · rename_i es hnonempty
    split
    · -- were all keys read as operators, the map would be an operator map
      rename_i found hfound
      cases es with
      | nil => exact absurd rfl hnonempty
      | cons e es =>
        refine absurd (List.all_eq_true.2 fun e' he' => ?_) (Bool.eq_false_iff.1 h)
        obtain ⟨o, -, ho⟩ := forall₂_mem_right (forall₂_of_mapM_some hfound).flip he'
        obtain ⟨_, hoperator, -⟩ := Option.map_eq_some_iff.1 ho
        rw [hoperator]
        rfl
    · rfl
  · rfl

theorem keyRelations_bare {key : String} (hkey : isFieldKey (.text key) = true) {x : Value}
    (hlist : ∀ xs, x ≠ .list xs) (hmap : isOperatorMap x = false) :
    keyRelations t (.text key) (.map [(.text "$eq", x)]) = keyRelations t (.text key) x := by
  have hoperator : operands (.map [(.text "$eq", x)]) = operands x := by
    rw [operands_bare hmap]
    have heq : operatorOf? (.text "$eq") = some (.compare .eq) := by decide
    simp [operands, heq, putOperand]
  have hentries : entries t key x = pure [x] := by
    cases x with
    | list xs => exact absurd rfl (hlist xs)
    | _ => rfl
  rw [keyRelations_field hkey, keyRelations_field hkey, hentries]
  simp only [entries, pure_bind, entryRelations, hoperator]

/-! ## Composition -/

/-- Two queries without a common key compile when both do, one after the other, to the relations of
both in their order; otherwise to the failure of the first one that fails. A list under a field key
compiles as its elements do, each in a list of its own, and a bare value as its equality. Where no
rule of the table counts, it does not matter in which sessions the parts are compiled. -/
theorem relations_compose (t : Table) :
    (∀ q₁ q₂ : List (Value × Value), KeysApart q₁ q₂ →
      (∀ s s' rs, (relations t (merged q₁ q₂)).perform s = (.ok rs, s') ↔ ∃ rs₁ s₁ rs₂,
        (relations t q₁).perform s = (.ok rs₁, s₁) ∧
        (relations t q₂).perform s₁ = (.ok rs₂, s') ∧ rs = rs₁ ++ rs₂) ∧
      (∀ s s' f, (relations t (merged q₁ q₂)).perform s = (.error f, s') ↔
        (relations t q₁).perform s = (.error f, s') ∨ ∃ rs₁ s₁,
          (relations t q₁).perform s = (.ok rs₁, s₁) ∧
          (relations t q₂).perform s₁ = (.error f, s')) ∧
      (t.CountsNothing → ∀ s s₁ s₂, ((relations t (merged q₁ q₂)).perform s).1 =
        both ((relations t q₁).perform s₁).1 ((relations t q₂).perform s₂).1)) ∧
    (∀ key xs, isFieldKey (.text key) = true → ReadsElements t key →
      (xs = [] → key.toList.head? ≠ some '$') →
        relations t [(.text key, .list xs)] =
          concat (fun x => relations t [(.text key, .list [x])]) xs ∧
        (t.CountsNothing → ∀ s s', ((relations t [(.text key, .list xs)]).perform s).1 =
          (xs.map fun x => ((relations t [(.text key, .list [x])]).perform s').1).foldr both
            (.ok []))) ∧
    ∀ q₁ q₂ key x, isFieldKey (.text key) = true → (∀ xs, x ≠ .list xs) → isOperatorMap x = false →
      relations t (q₁ ++ (.text key, .map [(.text "$eq", x)]) :: q₂) =
        relations t (q₁ ++ (.text key, x) :: q₂) := by
  refine ⟨fun q₁ q₂ hapart => ?_, fun key xs hkey helements hempty => ?_,
    fun q₁ q₂ key x hkey hlist hmap => ?_⟩
  · rw [hapart.merged_eq, relations_append]
    exact ⟨fun s s' rs => Action.append_ok_iff, fun s s' f => Action.append_error_iff,
      fun ht => Action.outcome_append (relations_uniform ht q₁) (relations_uniform ht q₂)⟩
  · have helement : relations t [(.text key, .list xs)] =
        concat (fun x => relations t [(.text key, .list [x])]) xs := by
      simp only [relations_singleton]
      exact keyRelations_list hkey helements hempty
    refine ⟨helement, fun ht s s' => ?_⟩
    rw [helement]
    exact Action.outcome_concat (fun x => relations_uniform ht _) s s' xs
  · have hbare := keyRelations_bare (t := t) hkey hlist hmap
    simp only [relations_append, relations, hbare]

/-! ### Grown people -/

/-- The people who are grown. -/
def grown : List (Value × Value) := [(.text "age", .map [(.text "$gte", .int 18)])]

/-- The people of a name. -/
def bobs : List (Value × Value) := [(.text "name", .text "bob")]

/-- The bounds of an age, in a list. -/
def bounds : List Value := [.map [(.text "$gte", .int 18)], .map [(.text "$lt", .int 65)]]

/-- The two queries in one, the bounds one by one, and the name as an equality. -/
theorem compose_grown :
    KeysApart grown bobs ∧ people.CountsNothing ∧ ReadsElements people "age" ∧
    (∃ rs s', (relations people (merged grown bobs)).perform {} = (.ok rs, s') ∧
      rs.map Relation.render = ["\"age\" >= ?", "\"name\" = ?"] ∧
      rs.flatMap Relation.params = [.int 18, .text "bob"]) ∧
    relations people [(.text "age", .list bounds)] =
      concat (fun x => relations people [(.text "age", .list [x])]) bounds ∧
    (∀ s s', ((relations people (merged grown bobs)).perform s).1 =
      both ((relations people grown).perform s').1 ((relations people bobs).perform s').1) ∧
    relations people [(.text "name", .map [(.text "$eq", .text "bob")])] =
      relations people bobs := by
  have hapart : KeysApart grown bobs := by
    refine ⟨?_, List.pairwise_singleton _ _⟩
    intro e₁ he₁ e₂ he₂
    rw [List.mem_singleton.1 he₁, List.mem_singleton.1 he₂]
    decide +kernel
  have hcounts : people.CountsNothing := by
    intro f hf r hr
    have hrules : ∀ f ∈ people.fields, f.rules = [] := by simp [people]
    rw [hrules f hf] at hr
    exact absurd hr List.not_mem_nil
  have hage : ReadsElements people "age" := .inr ⟨_, rfl, rfl⟩
  obtain ⟨hqueries, hlists, hbare⟩ := relations_compose people
  obtain ⟨hok, -, huniform⟩ := hqueries grown bobs hapart
  refine ⟨hapart, hcounts, hage, ?_, (hlists "age" bounds (by decide) hage nofun).1,
    fun s s' => huniform hcounts s s' s', hbare [] [] "name" (.text "bob") (by decide) nofun rfl⟩
  have hgrown : (relations people grown).perform {} =
      (.ok [.compare ⟨"age".toList, by decide⟩ .gte (.bound (.int 18))], {}) := by
    with_unfolding_all rfl
  have hbobs : (relations people bobs).perform {} =
      (.ok [.compare ⟨"name".toList, by decide⟩ .eq (.bound (.text "bob"))], {}) := by
    with_unfolding_all rfl
  exact ⟨_, _, (hok _ _ _).2 ⟨_, _, _, hgrown, hbobs, rfl⟩, by decide +kernel, rfl⟩

/-! ### Attributes, and a name like an operator -/

/-- People with attributes and a field that is named like an operator, as a definition. -/
def attributedDefinition : Value := .map [
  (.text "fields", .map [
    (.text "id", .text "int"), (.text "attrs", .text "map<text, text>"),
    (.text "$x", .text "int")]),
  (.text "key", .list [.text "id"])]

/-- The table that `attributedDefinition` declares. -/
def attributed : Table where
  name := "people"
  fields := [{ name := "id", type := "int" },
    { name := "attrs", type := "map", argument := some "<text, text>" },
    { name := "$x", type := "int" }]
  partitionKey := ["id"]
  clusteringKey := []
  clusteringOrder := []
  indexes := []
  customIndexes := []
  views := []
  defaultTtl := none
  hooks := []

/-- An attribute of a name. -/
def hasAttribute (name : String) : Value := .map [(.text "$contains_key", .text name)]

/-- A field of maps holds no lists, and yet a list under it is not read element by element: either
entry compiles alone, and a list of the two is refused as a value. And a list without elements is
refused under a field that is named like an operator. -/
theorem not_compose_attributes :
    Table.ofDefinition (.text "people") attributedDefinition = .ok attributed ∧
    (attributed.validator? "attrs").map (fun v => v.type.accepts (.list [])) = some false ∧
    (∀ name ∈ ["a", "b"], ∃ rs s',
      (relations attributed [(.text "attrs", hasAttribute name)]).perform {} = (.ok rs, s') ∧
        rs.map Relation.render = ["\"attrs\" CONTAINS KEY ?"]) ∧
    (∃ r s', (relations attributed [(.text "attrs",
      .list [hasAttribute "a", hasAttribute "b"])]).perform {} = (.error (.refusal r), s') ∧
        r.code = .invalidValue) ∧
    ReadsElements attributed "$x" ∧
    (concat (fun x => relations attributed [(.text "$x", .list [x])]) []).perform {} =
      (.ok [], {}) ∧
    ∃ r s', (relations attributed [(.text "$x", .list [])]).perform {} = (.error (.refusal r), s') ∧
      r.code = .invalidOperator := by
  refine ⟨by with_unfolding_all rfl, by decide +kernel, fun name hname => ?_,
    ⟨_, _, by with_unfolding_all rfl, rfl⟩, .inr ⟨_, rfl, rfl⟩, rfl, ⟨_, _, rfl, rfl⟩⟩
  rcases List.mem_pair.1 hname with rfl | rfl
  · exact Action.ok_of_read (g := List.map Relation.render) (by decide +kernel)
  · exact Action.ok_of_read (g := List.map Relation.render) (by decide +kernel)

end Query

end WideColumn
