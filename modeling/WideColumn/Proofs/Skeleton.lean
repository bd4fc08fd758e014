import WideColumn.Proofs.Outcome
import WideColumn.Proofs.Query

/-!
# Values and queries of one skeleton

Two values have one skeleton when they have the same lists, tuples and keys, are null-like and mark
functions of the store at the same places, and differ in leaves only (`Value.Alike`). Queries of one
skeleton differ in such a way under the keys that name fields, and not at all under others
(`Query.Alike`): they ask for the same operators of the same fields in the same order, with operands
of one skeleton (`Query.Alike.keptDemands`).
-/

namespace WideColumn

namespace Value

/-- The value is concrete and not looked into: it is not null-like and no list, tuple or map. -/
def isLeaf : Value → Bool
  | list _ | tuple _ | map _ => false
  | x => !x.isNullLike

/-- The values have one skeleton. -/
inductive Alike : Value → Value → Prop
  | blank {x : Value} (h : x.isNullLike = true) : Alike x x
  | leaf {x y : Value} (hx : x.isLeaf = true) (hy : y.isLeaf = true) : Alike x y
  | list {xs ys : List Value} (h : List.Forall₂ Alike xs ys) : Alike (.list xs) (.list ys)
  | tuple {xs ys : List Value} (h : List.Forall₂ Alike xs ys) : Alike (.tuple xs) (.tuple ys)
  | map {es fs : List (Value × Value)} (hkeys : es.map Prod.fst = fs.map Prod.fst)
      (hvalues : List.Forall₂ Alike (es.map Prod.snd) (fs.map Prod.snd))
      (hmarked : (Value.map es).storeFunction? = (Value.map fs).storeFunction?) :
      Alike (.map es) (.map fs)

mutual

theorem Alike.refl : ∀ x : Value, Alike x x
  | .list xs => .list (Alike.refl_list xs)
  | .tuple xs => .tuple (Alike.refl_list xs)
  | .map es => .map rfl (Alike.refl_entries es) rfl
  | .null | .unset | .missing => .blank rfl
  | .bool _ | .int _ | .float _ | .decimal _ | .text _ | .octets _ _ | .set _ _ | .uuid _
  | .address _ | .date _ | .timestamp _ | .time _ | .duration _ | .function _ _ _
  | .exception _ _ _ => .leaf rfl rfl

theorem Alike.refl_list : ∀ xs : List Value, List.Forall₂ Alike xs xs
  | [] => .nil
  | x :: xs => .cons (Alike.refl x) (Alike.refl_list xs)

theorem Alike.refl_entries :
    ∀ es : List (Value × Value), List.Forall₂ Alike (es.map Prod.snd) (es.map Prod.snd)
  | [] => .nil
  | (_, x) :: es => .cons (Alike.refl x) (Alike.refl_entries es)

end

section Leaf
variable {x : Value}

theorem isNullLike_of_isLeaf (h : x.isLeaf = true) : x.isNullLike = false := by
  cases x <;> first | rfl | cases h

theorem storeFunction?_of_isLeaf (h : x.isLeaf = true) : x.storeFunction? = none := by
  cases x <;> first | rfl | cases h

theorem sequence?_of_isLeaf (h : x.isLeaf = true) : x.sequence? = none := by
  cases x <;> first | rfl | cases h

theorem isNullLike_of_isMissing (h : x.isMissing = true) : x.isNullLike = true := by
  cases x <;> first | rfl | cases h

end Leaf

namespace Alike

variable {x y : Value}

theorem isNullLike_eq (h : x.Alike y) : x.isNullLike = y.isNullLike := by
  cases h with
  | leaf hx hy => rw [isNullLike_of_isLeaf hx, isNullLike_of_isLeaf hy]
  | _ => rfl

/-- A null-like value has the skeleton of itself only. -/
theorem eq_of_isNullLike (h : x.Alike y) (hx : x.isNullLike = true) : x = y := by
  cases h with
  | blank _ => rfl
  | leaf hleaf _ => exact absurd hx (by simp [isNullLike_of_isLeaf hleaf])
  | _ => cases hx

theorem isMissing_eq (h : x.Alike y) : x.isMissing = y.isMissing := by
  rw [Bool.eq_iff_iff]
  constructor
  · intro hx
    exact h.eq_of_isNullLike (isNullLike_of_isMissing hx) ▸ hx
  · intro hy
    have hx := h.isNullLike_eq.trans (isNullLike_of_isMissing hy)
    exact (h.eq_of_isNullLike hx).symm ▸ hy

theorem storeFunction?_eq (h : x.Alike y) : x.storeFunction? = y.storeFunction? := by
  cases h with
  | leaf hx hy => rw [storeFunction?_of_isLeaf hx, storeFunction?_of_isLeaf hy]
  | map _ _ hmarked => exact hmarked
  | _ => rfl

theorem isStoreFunction_eq (h : x.Alike y) : x.isStoreFunction = y.isStoreFunction :=
  congrArg Option.isSome h.storeFunction?_eq

/-- The elements of values of one skeleton have one skeleton, one by one. -/
theorem sequence? (h : x.Alike y) : Option.Rel (List.Forall₂ Alike) x.sequence? y.sequence? := by
  cases h with
  | blank hx => cases x <;> first | exact .none | cases hx
  | leaf hx hy =>
    rw [sequence?_of_isLeaf hx, sequence?_of_isLeaf hy]
    exact .none
  | list h | tuple h => exact .some h
  | map _ _ _ => exact .none

end Alike

/-- The entries have the same keys, and values of one skeleton. -/
def AlikeEntries {κ : Type} (es fs : List (κ × Value)) : Prop :=
  List.Forall₂ (fun e f => e.1 = f.1 ∧ e.2.Alike f.2) es fs

theorem AlikeEntries.of_map : ∀ {es fs : List (Value × Value)},
    es.map Prod.fst = fs.map Prod.fst →
      List.Forall₂ Alike (es.map Prod.snd) (fs.map Prod.snd) → AlikeEntries es fs
  | [], [], _, _ => .nil
  | (k, x) :: es, (l, y) :: fs, hkeys, .cons hxy hvalues => by
    obtain ⟨hkey, hkeys⟩ := List.cons.inj hkeys
    exact .cons ⟨hkey, hxy⟩ (of_map hkeys hvalues)

/-- A value of one skeleton with a map is a map, with the same keys. -/
theorem Alike.entries {es : List (Value × Value)} {y : Value} (h : (Value.map es).Alike y) :
    ∃ fs, y = .map fs ∧ AlikeEntries es fs := by
  cases h with
  | blank hx | leaf hx _ => cases hx
  | map hkeys hvalues _ => exact ⟨_, rfl, .of_map hkeys hvalues⟩

/-- Values of one skeleton are both a map with a single entry, under one key, or none is. -/
theorem Alike.single_entry {x y : Value} (h : x.Alike y) :
    (∃ k v w, x = .map [(k, v)] ∧ y = .map [(k, w)] ∧ v.Alike w) ∨
      ((∀ k v, x ≠ .map [(k, v)]) ∧ ∀ k v, y ≠ .map [(k, v)]) := by
  have hother : ∀ {z : Value}, z.isNullLike = true ∨ z.isLeaf = true →
      ∀ k v, z ≠ .map [(k, v)] := by
    rintro z hz k v rfl
    rcases hz with hz | hz <;> cases hz
  cases h with
  | blank hx => exact .inr ⟨hother (.inl hx), hother (.inl hx)⟩
  | leaf hx hy => exact .inr ⟨hother (.inr hx), hother (.inr hy)⟩
  | list _ | tuple _ => exact .inr ⟨fun _ _ h => (nomatch h), fun _ _ h => (nomatch h)⟩
  | @map es fs hkeys hvalues hmarked =>
    have hentries := AlikeEntries.of_map hkeys hvalues
    match es, fs, hentries with
    | [], [], .nil => exact .inr ⟨fun _ _ h => (nomatch h), fun _ _ h => (nomatch h)⟩
    | [(k, v)], [(l, w)], .cons ⟨hkey, hvalue⟩ .nil =>
      cases hkey
      exact .inl ⟨k, v, w, rfl, rfl, hvalue⟩
    | _ :: _ :: _, _ :: _ :: _, .cons _ (.cons _ _) =>
      exact .inr ⟨fun _ _ h => (nomatch h), fun _ _ h => (nomatch h)⟩

end Value

/-! ## Queries -/

/-- The demands are one, or for one operator of one key with operands of one skeleton. -/
inductive Demand.Alike : Demand → Demand → Prop
  | same (d : Demand) : Alike d d
  | operator (key : String) (o : Operator) {x y : Value} (h : x.Alike y) :
      Alike (.operator key o x) (.operator key o y)

namespace Query

open Value

/-- The entries are under one key, and what is under the key of a field has one skeleton; what is
under any other key is one. -/
def EntryAlike (e f : Value × Value) : Prop :=
  e.1 = f.1 ∧ if isFieldKey e.1 then e.2.Alike f.2 else e.2 = f.2

theorem EntryAlike.of_field {key : String} {x y : Value} (hkey : isFieldKey (.text key) = true)
    (h : x.Alike y) : EntryAlike (.text key, x) (.text key, y) :=
  ⟨rfl, by rwa [if_pos hkey]⟩

/-- The queries have one skeleton. -/
def Alike (query query' : List (Value × Value)) : Prop := List.Forall₂ EntryAlike query query'

/-! ### Operators of an entry -/

/-- An entry whose key is an operator. -/
def operatorEntry? (e : Value × Value) : Option (Operator × Value) :=
  (operatorOf? e.1).map fun o => (o, e.2)

/-- Entries with the same keys have the same operators, or each a key that is none. -/
theorem mapM_operatorEntry? : ∀ {es fs : List (Value × Value)}, AlikeEntries es fs →
    Option.Rel AlikeEntries (es.mapM operatorEntry?) (fs.mapM operatorEntry?)
  | _, _, .nil => .some .nil
  | (k, x) :: es, (l, y) :: fs, .cons ⟨hkey, hxy⟩ h => by
    cases hkey
    have hrest := mapM_operatorEntry? h
    rw [List.mapM_cons, List.mapM_cons, operatorEntry?, operatorEntry?]
    cases operatorOf? k with
    | none => exact .none
    | some o =>
      generalize es.mapM operatorEntry? = os at hrest
      generalize fs.mapM operatorEntry? = os' at hrest
      cases hrest with
      | none => exact .none
      | some hos => exact .some (.cons ⟨rfl, hxy⟩ hos)

theorem operatorEntries_single {x : Value} (hx : x.isNullLike = true ∨ x.isLeaf = true) :
    operatorEntries x = [(.compare .eq, x)] := by
  cases x <;> first | rfl | (rcases hx with hx | hx <;> cases hx)

theorem entriesUnder_single {t : Table} {key : String} {x : Value}
    (hx : x.isNullLike = true ∨ x.isLeaf = true) : entriesUnder t key x = [x] := by
  cases x <;> first | rfl | (rcases hx with hx | hx <;> cases hx)

/-- Entries of one skeleton have the same operators, with operands of one skeleton. -/
theorem operatorEntries_alike {x y : Value} (h : x.Alike y) :
    AlikeEntries (operatorEntries x) (operatorEntries y) := by
  have hwhole : AlikeEntries [(Operator.compare .eq, x)] [(Operator.compare .eq, y)] :=
    .cons ⟨rfl, h⟩ .nil
  cases h with
  | @map es fs hkeys hvalues hmarked =>
    have hentries := AlikeEntries.of_map hkeys hvalues
    cases hentries with
    | nil => exact hwhole
    | cons hef hrest =>
      -- a map is read by its operators only when every key is one, and the keys are the same
      have hread := mapM_operatorEntry? (.cons hef hrest)
      change AlikeEntries ((List.mapM operatorEntry? _).getD _)
        ((List.mapM operatorEntry? _).getD _)
      generalize List.mapM operatorEntry? _ = os at hread ⊢
      generalize List.mapM operatorEntry? _ = os' at hread ⊢
      cases hread with
      | none => exact hwhole
      | some hos => exact hos
  | blank hx =>
    rw [operatorEntries_single (Or.inl hx)]
    exact hwhole
  | leaf hx hy =>
    rw [operatorEntries_single (.inr hx), operatorEntries_single (.inr hy)]
    exact hwhole
  | list _ | tuple _ => exact hwhole

theorem putOperand_alike {o : Operator} {x y : Value} (h : x.Alike y)
    {os os' : List (Operator × Value)} (hos : AlikeEntries os os') :
    AlikeEntries (putOperand o x os) (putOperand o y os') := by
  induction hos with
  | nil => exact .cons ⟨rfl, h⟩ .nil
  | @cons e f os os' hef hos ih =>
    obtain ⟨p, v⟩ := e
    obtain ⟨q, w⟩ := f
    obtain ⟨hkey, hvalue⟩ := hef
    cases hkey
    unfold putOperand
    split
    · exact .cons ⟨rfl, h⟩ hos
    · exact .cons ⟨rfl, hvalue⟩ ih

theorem putAll_alike : ∀ {es fs os os' : List (Operator × Value)}, AlikeEntries es fs →
    AlikeEntries os os' → AlikeEntries (es.foldl (fun os e => putOperand e.1 e.2 os) os)
      (fs.foldl (fun os e => putOperand e.1 e.2 os) os')
  | _, _, _, _, .nil, hos => hos
  | (o, _) :: _, (p, _) :: _, _, _, .cons ⟨hkey, hxy⟩ h, hos => by
    cases hkey
    rw [List.foldl_cons, List.foldl_cons]
    exact putAll_alike h (putOperand_alike hxy hos)

theorem operands_alike {x y : Value} (h : x.Alike y) : AlikeEntries (operands x) (operands y) := by
  rw [operands_eq, operands_eq]
  exact putAll_alike (operatorEntries_alike h) .nil

/-! ### What queries ask for -/

theorem entriesUnder_alike {t : Table} {key : String} {x y : Value} (h : x.Alike y) :
    List.Forall₂ Value.Alike (entriesUnder t key x) (entriesUnder t key y) := by
  have hwhole : List.Forall₂ Value.Alike [x] [y] := .cons h .nil
  cases h with
  | list h =>
    simp only [entriesUnder]
    split
    · exact hwhole
    · exact h
  | blank hx =>
    rw [entriesUnder_single (.inl hx)]
    exact hwhole
  | leaf hx hy =>
    rw [entriesUnder_single (.inr hx), entriesUnder_single (.inr hy)]
    exact hwhole
  | tuple _ | map _ _ _ => exact hwhole

theorem demandsUnder_alike {t : Table} {e f : Value × Value} (h : EntryAlike e f) :
    List.Forall₂ Demand.Alike (demandsUnder operands t e.1 e.2)
      (demandsUnder operands t f.1 f.2) := by
  obtain ⟨k, x⟩ := e
  obtain ⟨l, y⟩ := f
  obtain ⟨hkey, hvalue⟩ := h
  dsimp only at hkey hvalue ⊢
  subst hkey
  split at hvalue
  · rename_i hfield
    cases k with
    | text key =>
      rw [demandsUnder_field hfield, demandsUnder_field hfield]
      refine List.rel_flatMap (entriesUnder_alike hvalue) fun x y hxy => ?_
      rw [List.forall₂_map_left_iff, List.forall₂_map_right_iff]
      refine (operands_alike hxy).imp fun o o' ho => ?_
      obtain ⟨o, x⟩ := o
      obtain ⟨o', y⟩ := o'
      obtain ⟨hoperator, hoperand⟩ := ho
      cases hoperator
      exact .operator key o hoperand
    | _ => cases hfield
  · rw [hvalue]
    exact List.forall₂_same.2 fun d _ => .same d

/-- Queries of one skeleton keep demands of one skeleton. -/
theorem Alike.keptDemands {t : Table} {query query' : List (Value × Value)}
    (h : Alike query query') :
    List.Forall₂ Demand.Alike (keptDemands t query) (keptDemands t query') :=
  List.rel_flatMap h fun _ _ => demandsUnder_alike

end Query

end WideColumn
