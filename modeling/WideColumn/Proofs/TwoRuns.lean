import WideColumn.Proofs.Alignment
import WideColumn.Proofs.Skeleton
import WideColumn.Proofs.Vetting

/-!
# Two runs on values of one skeleton

`Action.Relates` says of two actions that whatever both end with is related, in whatever sessions
they run. Compiling values of one skeleton is related by `Fragment.Twin`: the texts are one, and
what is bound at a place is one whenever the values are from which it is made. An action that ends
with one value in all sessions is steady; that is all that is needed of lists, whose elements are
bound as one value.
-/

namespace WideColumn

/-! ## Two runs of actions -/

namespace Action

variable {α β γ δ : Type} {a : Action α} {b : Action β} {post : α → β → Prop}

/-- Whenever both actions end well, what they end with is related. -/
def Relates (a : Action α) (b : Action β) (post : α → β → Prop) : Prop :=
  ∀ s s' u u' x y, a.perform s = (.ok x, s') → b.perform u = (.ok y, u') → post x y

/-- The action ends with one value, in whatever session it ends well. -/
def Steady (a : Action α) : Prop := Relates a a Eq

namespace Relates

theorem pure {x : α} {y : β} (h : post x y) :
    Relates (Pure.pure x : Action α) (Pure.pure y : Action β) post := by
  intro s s' u u' x' y' hx hy
  cases hx
  cases hy
  exact h

/-- What is not asked is not told. -/
theorem any (a : Action α) (b : Action β) : Relates a b fun _ _ => True :=
  fun _ _ _ _ _ _ _ _ => trivial

theorem imp {post' : α → β → Prop} (h : Relates a b post) (himp : ∀ x y, post x y → post' x y) :
    Relates a b post' :=
  fun _ _ _ _ _ _ ha hb => himp _ _ (h _ _ _ _ _ _ ha hb)

/-- Sequences are related when their first parts are and, after related values, the second ones. -/
theorem bind {mid : α → β → Prop} {f : α → Action γ} {g : β → Action δ} {post : γ → δ → Prop}
    (h : Relates a b mid) (hrest : ∀ x y, mid x y → Relates (f x) (g y) post) :
    Relates (a >>= f) (b >>= g) post := by
  intro s s' u u' z w hz hw
  obtain ⟨x, s₁, hx, hz⟩ := bind_ok hz
  obtain ⟨y, u₁, hy, hw⟩ := bind_ok hw
  exact hrest x y (h _ _ _ _ _ _ hx hy) _ _ _ _ _ _ hz hw

/-- After a part that ends with one value, the rests have to be related for that value. -/
theorem after {f : α → Action γ} {g : α → Action δ} {post : γ → δ → Prop} (h : Steady a)
    (hrest : ∀ x, Relates (f x) (g x) post) : Relates (a >>= f) (a >>= g) post :=
  bind h fun x _ hxy => hxy ▸ hrest x

theorem map {f : α → γ} {g : β → δ} {post : γ → δ → Prop}
    (h : Relates a b fun x y => post (f x) (g y)) : Relates (f <$> a) (g <$> b) post := by
  intro s s' u u' z w hz hw
  obtain ⟨x, hx, rfl⟩ := map_ok hz
  obtain ⟨y, hy, rfl⟩ := map_ok hw
  exact h _ _ _ _ _ _ hx hy

/-- Over lists whose elements are related pairwise, what the actions end with is related
pairwise. -/
theorem mapM {κ ι : Type} {rel : κ → ι → Prop} {f : κ → Action α} {g : ι → Action β} {ks : List κ}
    {is : List ι} (hrel : List.Forall₂ rel ks is)
    (h : ∀ k i, rel k i → Relates (f k) (g i) post) :
    Relates (ks.mapM f) (is.mapM g) (List.Forall₂ post) := by
  induction hrel with
  | nil =>
    rw [List.mapM_nil, List.mapM_nil]
    exact .pure .nil
  | cons hki _ ih =>
    rw [List.mapM_cons, List.mapM_cons]
    exact (h _ _ hki).bind fun x y hxy => ih.bind fun xs ys hxys => .pure (.cons hxy hxys)

/-- A refusal ends with nothing. -/
theorem refuse (r : Refusal) : Relates (Action.refuse r : Action α) b post :=
  fun _ _ _ _ _ _ ha _ => absurd ha refuse_ne_ok

end Relates

namespace Steady

theorem pure (x : α) : Steady (Pure.pure x : Action α) := Relates.pure rfl

theorem bind {f : α → Action γ} (h : Steady a) (hrest : ∀ x, Steady (f x)) : Steady (a >>= f) :=
  Relates.after h hrest

theorem map {f : α → γ} (h : Steady a) : Steady (f <$> a) :=
  Relates.map (h.imp fun _ _ hxy => congrArg f hxy)

theorem refuse (r : Refusal) : Steady (Action.refuse r : Action α) := Relates.refuse r

/-- Of actions that are steady each, those for one argument end with one value. -/
theorem congr {κ : Type} {f : κ → Action α} (h : ∀ k, Steady (f k)) (k l : κ) :
    Relates (f k) (f l) fun x y => k = l → x = y := by
  by_cases hkl : k = l
  · subst hkl
    exact (h k).imp fun _ _ hxy _ => hxy
  · exact (Relates.any _ _).imp fun _ _ _ hsame => absurd hsame hkl

theorem lift (r : Except Failure α) : Steady (Action.lift r) := by
  intro s s' u u' x y hx hy
  exact Except.ok.inj ((lift_ok hx).1.symm.trans (lift_ok hy).1)

end Steady

end Action

/-! ## What two runs bind -/

/-- What is bound on two sides for values at the same places: the values have one skeleton, and what
is bound for one value is one. -/
inductive BoundAlike : (xs ys ps qs : List Value) → Prop
  | nil : BoundAlike [] [] [] []
  | cons {x y p q : Value} {xs ys ps qs : List Value} (halike : x.Alike y) (hsame : x = y → p = q)
      (h : BoundAlike xs ys ps qs) : BoundAlike (x :: xs) (y :: ys) (p :: ps) (q :: qs)

namespace BoundAlike

variable {xs ys ps qs xs' ys' ps' qs' : List Value}

theorem append (h : BoundAlike xs ys ps qs) (h' : BoundAlike xs' ys' ps' qs') :
    BoundAlike (xs ++ xs') (ys ++ ys') (ps ++ ps') (qs ++ qs') := by
  induction h with
  | nil => exact h'
  | cons halike hsame _ ih => exact .cons halike hsame ih

theorem single {x y p q : Value} (halike : x.Alike y) (hsame : x = y → p = q) :
    BoundAlike [x] [y] [p] [q] := .cons halike hsame .nil

theorem length_eq (h : BoundAlike xs ys ps qs) :
    ps.length = xs.length ∧ qs.length = ps.length ∧ ys.length = xs.length := by
  induction h with
  | nil => exact ⟨rfl, rfl, rfl⟩
  | cons _ _ _ ih =>
    obtain ⟨hbound, hboth, hvalues⟩ := ih
    exact ⟨congrArg Nat.succ hbound, congrArg Nat.succ hboth, congrArg Nat.succ hvalues⟩

theorem alike (h : BoundAlike xs ys ps qs) : List.Forall₂ Value.Alike xs ys := by
  induction h with
  | nil => exact .nil
  | cons halike _ _ ih => exact .cons halike ih

/-- Where the values are one, one value is bound. -/
theorem getElem?_eq (h : BoundAlike xs ys ps qs) :
    ∀ i : Nat, xs[i]? = ys[i]? → ps[i]? = qs[i]? := by
  induction h with
  | nil => exact fun _ _ => rfl
  | cons _ hsame _ ih =>
    intro i hi
    cases i with
    | zero => exact congrArg some (hsame (Option.some.inj hi))
    | succ i => exact ih i hi

end BoundAlike

/-- A text, or several texts, with the values that are bound. -/
structure Fragment (τ : Type) where
  text : τ
  params : List Value

namespace Fragment

variable {τ : Type}

/-- The fragments have one text, and bind alike what stands on either side. -/
structure Twin (xs ys : List Value) (a b : Fragment τ) : Prop where
  text : a.text = b.text
  params : BoundAlike xs ys a.params b.params

/-- The fragments have one text each, and bind alike what stands on either side. -/
structure Twins (xs ys : List Value) (as bs : List (Fragment τ)) : Prop where
  texts : as.map text = bs.map text
  params : BoundAlike xs ys (as.flatMap params) (bs.flatMap params)

namespace Twins

variable {α : Type} {xs ys xs' ys' : List Value} {a b : Fragment τ}
  {as bs as' bs' : List (Fragment τ)}

theorem nil : Twins [] [] ([] : List (Fragment τ)) [] := ⟨rfl, .nil⟩

theorem append (h : Twins xs ys as bs) (h' : Twins xs' ys' as' bs') :
    Twins (xs ++ xs') (ys ++ ys') (as ++ as') (bs ++ bs') := by
  refine ⟨?_, ?_⟩
  · rw [List.map_append, List.map_append, h.texts, h'.texts]
  · rw [List.flatMap_append, List.flatMap_append]
    exact h.params.append h'.params

theorem single (h : Twin xs ys a b) : Twins xs ys [a] [b] := by
  refine ⟨congrArg ([·]) h.text, ?_⟩
  rw [List.flatMap_singleton, List.flatMap_singleton]
  exact h.params

theorem cons (h : Twin xs ys a b) (hs : Twins xs' ys' as bs) :
    Twins (xs ++ xs') (ys ++ ys') (a :: as) (b :: bs) := (single h).append hs

variable {f : α → Fragment τ} {zs ws : List α}

theorem map_text (h : Twins xs ys (zs.map f) (ws.map f)) :
    zs.map (fun z => (f z).text) = ws.map fun w => (f w).text := by
  have htexts := h.texts
  rwa [List.map_map, List.map_map] at htexts

theorem flatMap_params (h : Twins xs ys (zs.map f) (ws.map f)) :
    BoundAlike xs ys (zs.flatMap fun z => (f z).params) (ws.flatMap fun w => (f w).params) := by
  have hparams := h.params
  rwa [List.flatMap_map, List.flatMap_map] at hparams

end Twins

end Fragment

/-- What is bound for a value: the value, unless it is a function of the store. -/
def Value.bound (x : Value) : List Value := if x.isStoreFunction then [] else [x]

/-- If both are integers, both are negative or none is. -/
def Value.SameSign (x y : Value) : Prop := ∀ n m, x = .int n → y = .int m → (n < 0 ↔ m < 0)

/-! ## Operands -/

/-- A value that passes its check is one that the type of the column accepts. -/
theorem FieldValidator.accepts_of_check {v : FieldValidator} {x : Value} {s s' : Session}
    (hblank : x.isNullLike = false) (hmarked : x.storeFunction? = none)
    (h : (v.check x).perform s = (.ok (), s')) : v.type.accepts x = true := by
  by_contra hrejects
  have hexempt : exempts x = false := by simp [exempts, Value.isStoreFunction, hblank, hmarked]
  -- the type is checked first, and the complaint about it is worded as a text
  have hstandard : (v.validate x).perform s = (.ok (some .standard), s) := by
    unfold validate chain firstComplaint Check.passes
    rw [hexempt, if_neg (by decide), Action.perform_bind, Action.perform_pure]
    dsimp only
    rw [if_neg hrejects]
    rfl
  rcases check_cases h with hvalid | ⟨complaint, s₁, hvalidate, hword⟩
  · cases hstandard.symm.trans hvalid
  · cases hstandard.symm.trans hvalidate
    cases hword

theorem ColumnType.eq_int_of_accepts {x : Value} (h : ColumnType.accepts .counter x = true) :
    ∃ n, x = .int n := by
  cases x with
  | int n => exact ⟨n, rfl⟩
  | _ => cases h

namespace Operand

variable {v : FieldValidator} {relation : Bool} {x y : Value}

/-- The text of an operand with what it binds. -/
def fragment (o : Operand) : Fragment String := ⟨o.render, o.params⟩

theorem accept_steady (name : String) : (Identifier.accept name).Steady := .lift _

theorem ofChecked_steady : (ofChecked v x relation).Steady := by
  unfold ofChecked
  split
  · split
    · exact (accept_steady _).bind fun _ => .pure _
    · exact .pure _
  · exact .pure _

theorem ofSingle_steady : (ofSingle v x relation).Steady := by
  unfold ofSingle
  split
  · exact .pure _
  · split
    · exact .pure _
    · exact (Action.Relates.any _ _).bind fun _ _ _ => ofChecked_steady

theorem compileAll_steady : ∀ {xs : List Value}, (∀ x ∈ xs, (compile v relation x).Steady) →
    (compileAll v relation xs).Steady
  | [], _ => .pure _
  | x :: xs, h => by
    refine (h x List.mem_cons_self).bind fun o => ?_
    cases o.value? with
    | none => exact .refuse _
    | some y =>
      exact (compileAll_steady fun z hz => h z (List.mem_cons_of_mem x hz)).bind fun _ => .pure _

/-- The operand of a value does not depend on the session. -/
theorem compile_steady : (compile v relation x).Steady := by
  induction x using Value.inductionOnLists with
  | single x hx =>
    rw [compile_single hx]
    exact ofSingle_steady
  | list xs ih =>
    unfold compile
    split
    · exact ofSingle_steady
    · exact (compileAll_steady ih).map

theorem ofChecked_twin (halike : x.Alike y) (hx : v.type.accepts x = true)
    (hy : v.type.accepts y = true) (hsign : v.type = .counter → relation = false → x.SameSign y) :
    (ofChecked v x relation).Relates (ofChecked v y relation) fun o o' =>
      Fragment.Twin [x] [y] o.fragment o'.fragment := by
  by_cases hcounter : v.type = .counter ∧ !relation
  · rw [hcounter.1] at hx hy
    obtain ⟨n, rfl⟩ := ColumnType.eq_int_of_accepts hx
    obtain ⟨m, rfl⟩ := ColumnType.eq_int_of_accepts hy
    have hnegative : decide (n < 0) = decide (m < 0) :=
      decide_eq_decide.2 (hsign hcounter.1 (by simpa using hcounter.2) n m rfl rfl)
    simp only [ofChecked, if_pos hcounter]
    refine .after (accept_steady v.field.name) fun column => ?_
    refine .pure ⟨?_, .single halike fun hsame => ?_⟩
    · simp only [fragment, render, hnegative]
    · cases hsame
      rfl
  · have hbound : ∀ {z : Value}, ofChecked v z relation = pure (.bound z) := by
      intro z
      unfold ofChecked
      split
      · rw [if_neg hcounter]
      · rfl
    rw [hbound, hbound]
    exact .pure ⟨rfl, .single halike id⟩

theorem bound_of_storeFunction? (h : x.storeFunction? = none) : x.bound = [x] := by
  rw [Value.bound, Value.isStoreFunction, h]
  rfl

theorem ofSingle_twin (halike : x.Alike y)
    (hsign : v.type = .counter → relation = false → x.SameSign y) :
    (ofSingle v x relation).Relates (ofSingle v y relation) fun o o' =>
      Fragment.Twin x.bound y.bound o.fragment o'.fragment := by
  by_cases hblank : x.isNullLike = true
  · cases halike.eq_of_isNullLike hblank
    have hmarked : x.storeFunction? = none := by
      cases x <;> first | rfl | cases hblank
    rw [ofSingle, if_pos hblank, bound_of_storeFunction? hmarked]
    exact .pure ⟨rfl, .single halike id⟩
  · have hblank' := halike.isNullLike_eq ▸ hblank
    rw [ofSingle, ofSingle, if_neg hblank, if_neg hblank', ← halike.storeFunction?_eq]
    cases hmarked : x.storeFunction? with
    | some f =>
      have hbound : ∀ {z : Value}, z.storeFunction? = some f → z.bound = [] := by
        intro z hz
        rw [Value.bound, Value.isStoreFunction, hz]
        rfl
      rw [hbound hmarked, hbound (halike.storeFunction?_eq.symm.trans hmarked)]
      exact .pure ⟨rfl, .nil⟩
    | none =>
      have hmarked' := halike.storeFunction?_eq.symm.trans hmarked
      rw [bound_of_storeFunction? hmarked, bound_of_storeFunction? hmarked']
      have haccepts : (v.check x).Relates (v.check y) fun _ _ =>
          v.type.accepts x = true ∧ v.type.accepts y = true := fun _ _ _ _ _ _ hx hy =>
        ⟨FieldValidator.accepts_of_check (by simpa using hblank) hmarked hx,
          FieldValidator.accepts_of_check (by simpa using hblank') hmarked' hy⟩
      exact haccepts.bind fun _ _ ⟨hx, hy⟩ => ofChecked_twin halike hx hy hsign

/-- The operands of values of one skeleton have one text, and bind one value for one value. -/
theorem compile_twin (halike : x.Alike y)
    (hsign : v.type = .counter → relation = false → x.SameSign y) :
    (compile v relation x).Relates (compile v relation y) fun o o' =>
      Fragment.Twin x.bound y.bound o.fragment o'.fragment := by
  by_cases hlist : ∃ xs, x = .list xs
  · obtain ⟨xs, rfl⟩ := hlist
    cases halike with
    | blank hx | leaf hx _ => cases hx
    | @list _ ys h =>
      unfold compile
      split
      · exact ofSingle_twin (.list h) hsign
      · -- the elements are bound as one value, which has to be one for one list only
        have hall := Action.Steady.congr (f := compileAll v relation)
          (fun _ => compileAll_steady fun _ _ => compile_steady) xs ys
        refine (hall.imp fun zs ws hsame => ?_).map
        exact ⟨rfl, .single (.list h) fun hxs => by rw [hsame (Value.list.inj hxs)]⟩
  · have hother : ∀ ys, y ≠ .list ys := by
      rintro ys rfl
      cases halike with
      | blank hx | leaf _ hx => cases hx
      | list _ => exact hlist ⟨_, rfl⟩
    rw [compile_single fun xs hxs => hlist ⟨xs, hxs⟩, compile_single hother]
    exact ofSingle_twin halike hsign

/-- In a relation counters are compared, so that signs do not show. -/
theorem compared_twin (halike : x.Alike y) :
    (compile v true x).Relates (compile v true y) fun o o' =>
      Fragment.Twin x.bound y.bound o.fragment o'.fragment :=
  compile_twin halike fun _ h => nomatch h

end Operand

/-! ## Relations -/

theorem Table.validator_steady (t : Table) (name : String) : (t.validator name).Steady := by
  unfold validator
  split
  · exact .pure _
  · exact .refuse _

/-- After the validator of a name is found, the rests have to be related for that validator. -/
theorem Table.validator_after {t : Table} {name : String} {γ δ : Type}
    {f : FieldValidator → Action γ} {g : FieldValidator → Action δ} {post : γ → δ → Prop}
    (hrest : ∀ v, t.validator? name = some v → (f v).Relates (g v) post) :
    (t.validator name >>= f).Relates (t.validator name >>= g) post := by
  have hfound : (t.validator name).Relates (t.validator name) fun v w =>
      v = w ∧ t.validator? name = some v := fun _ _ _ _ _ _ hv hw =>
    ⟨t.validator_steady name _ _ _ _ _ _ hv hw, Table.validator_ok hv⟩
  exact hfound.bind fun v w ⟨hvw, hv⟩ => hvw ▸ hrest v hv

/-- The text of a relation with what it binds. -/
def Relation.fragment (r : Relation) : Fragment String := ⟨r.render, r.params⟩

/-- What is bound for an element of a collection: the key and the value of a single entry of a map,
or else the value. -/
def Value.contained (type : Option ColumnType) (x : Value) : List Value :=
  match type, x with
  | some .map, .map [(key, value)] => [key, value]
  | _, x => [x]

/-- The values that stand at the places of what is bound for a demand. -/
def Demand.sources (t : Table) : Demand → List Value
  | .search _ | .expression _ => []
  | .operator key o operand =>
    match o with
    | .compare _ => operand.bound
    | .isIn | .containsKey => [operand]
    | .contains => operand.contained ((t.field? key).bind Field.columnType?)
    | .token =>
      match operand with
      | .map [(_, value)] =>
        ((Query.tokenValues? (Query.fieldNames key .token) value).getD []).flatMap Value.bound
      | _ => []

namespace Query

variable {t : Table} {key : String} {x y : Value}

theorem acceptAll_steady : ∀ names : List String, (acceptAll names).Steady
  | [] => .pure _
  | _ :: names =>
    (Operand.accept_steady _).bind fun _ => (acceptAll_steady names).bind fun _ => .pure _

theorem bindAll_steady (t : Table) (key : String) (xs : List Value) :
    (bindAll t key xs).Steady := by
  induction xs with
  | nil => exact .pure _
  | cons x xs ih =>
    have hoperand : (t.operand key x true).Steady :=
      (t.validator_steady key).bind fun _ => Operand.compile_steady
    have hvalue : (t.bindValue key x).Steady := by
      refine hoperand.bind fun o => ?_
      split
      · exact .pure _
      · exact .refuse _
    exact hvalue.bind fun _ => ih.bind fun _ => .pure _

theorem tokenValues?_alike {names : List String} (h : x.Alike y) :
    Option.Rel (List.Forall₂ Value.Alike) (tokenValues? names x) (tokenValues? names y) := by
  unfold tokenValues?
  split
  · exact .some (.cons h .nil)
  · have hsequence := h.sequence?
    generalize x.sequence? = xs at hsequence
    generalize y.sequence? = ys at hsequence
    cases hsequence with
    | none => exact .none
    | some hall =>
      rw [Option.filter_some, Option.filter_some, hall.length_eq]
      split
      · exact .some hall
      · exact .none

/-- The operands of a token for values of one skeleton have one text each. -/
theorem tokenOperands_twins : ∀ {names : List String} {xs ys : List Value},
    List.Forall₂ Value.Alike xs ys → xs.length = names.length →
      (tokenOperands t names xs).Relates (tokenOperands t names ys) fun os os' =>
        Fragment.Twins (xs.flatMap Value.bound) (ys.flatMap Value.bound)
          (os.map Operand.fragment) (os'.map Operand.fragment)
  | [], _, _, .nil, _ => .pure .nil
  | name :: names, _, _, .cons hxy h, hlength => by
    have hoperand : (t.operand name _ true).Relates (t.operand name _ true) _ :=
      .after (t.validator_steady name) fun _ => Operand.compared_twin hxy
    refine hoperand.bind fun o o' ho => ?_
    exact (tokenOperands_twins h (Nat.succ.inj hlength)).bind fun os os' hos => .pure (.cons ho hos)

theorem tokenRelation_twin (halike : x.Alike y) :
    (tokenRelation t key x).Relates (tokenRelation t key y) fun r r' =>
      Fragment.Twin ((Demand.operator key .token x).sources t)
        ((Demand.operator key .token y).sources t) r.fragment r'.fragment := by
  intro s s' u u' r r' hr hr'
  obtain ⟨operator, value, c, xs, os, columns, rfl, hc, hxs, ⟨s₁, s₂, hos⟩, hcolumns, rfl⟩ :=
    tokenRelation_ok hr
  obtain ⟨operator', value', c', ys, os', columns', rfl, hc', hys, ⟨u₁, u₂, hos'⟩, hcolumns',
    rfl⟩ := tokenRelation_ok hr'
  obtain ⟨_, hentries, hentry⟩ := halike.entries
  cases hentries
  obtain ⟨⟨hoperator, hvalue⟩, -⟩ := List.forall₂_cons.1 hentry
  dsimp only at hoperator hvalue
  subst hoperator
  cases hc.symm.trans hc'
  cases hcolumns.symm.trans hcolumns'
  -- both operands were read under one operator, as many values for as many names
  have hvalues : Option.Rel (List.Forall₂ Value.Alike) (some xs) (some ys) :=
    hxs ▸ hys ▸ tokenValues?_alike hvalue
  have hoperands := tokenOperands_twins (Option.rel_some_some.1 hvalues)
    (length_of_tokenValues? hxs) _ _ _ _ _ _ hos hos'
  refine ⟨?_, ?_⟩
  · have htexts : os.map Operand.render = os'.map Operand.render := hoperands.map_text
    simp only [Relation.fragment, Relation.render, htexts]
  · simp only [Demand.sources, fieldNames, if_pos, hxs, hys]
    exact hoperands.flatMap_params

section Contains
variable {f : Field} {column : Identifier}

theorem containsRelation_entry {k v : Value} (hkind : ¬ f.collectionKind?.isNone = true)
    (htype : f.columnType? = some .map) :
    containsRelation f column (.map [(k, v)]) = pure (.entry column k v) := by
  unfold containsRelation
  rw [if_neg hkind, htype]

theorem containsRelation_other (hkind : ¬ f.collectionKind?.isNone = true)
    (hx : f.columnType? = some .map → ∀ k v, x ≠ .map [(k, v)]) :
    containsRelation f column x = pure (.contains column x) := by
  unfold containsRelation
  rw [if_neg hkind]
  split
  · rename_i htype
    exact absurd rfl (hx htype _ _)
  · rfl

theorem contained_other {type : Option ColumnType}
    (hx : type = some .map → ∀ k v, x ≠ .map [(k, v)]) : x.contained type = [x] := by
  unfold Value.contained
  split
  · exact absurd rfl (hx rfl _ _)
  · rfl

theorem containsRelation_twin (halike : x.Alike y) :
    (containsRelation f column x).Relates (containsRelation f column y) fun r r' =>
      Fragment.Twin (x.contained f.columnType?) (y.contained f.columnType?) r.fragment
        r'.fragment := by
  by_cases hkind : f.collectionKind?.isNone = true
  · intro s s' u u' r r' hr _
    simp only [containsRelation, if_pos hkind] at hr
    exact absurd hr Action.refuse_ne_ok
  by_cases hentry : f.columnType? = some .map ∧ ∃ k v, x = .map [(k, v)]
  · obtain ⟨htype, k, v, rfl⟩ := hentry
    rcases halike.single_entry with ⟨_, _, w, heq, rfl, hvalue⟩ | ⟨hx, -⟩
    · cases heq
      rw [containsRelation_entry hkind htype, containsRelation_entry hkind htype, htype]
      exact .pure ⟨rfl, .cons (.refl k) id (.single hvalue id)⟩
    · exact absurd rfl (hx k v)
  · have hx : f.columnType? = some .map → ∀ k v, x ≠ .map [(k, v)] :=
      fun htype k v heq => hentry ⟨htype, k, v, heq⟩
    have hy : f.columnType? = some .map → ∀ k v, y ≠ .map [(k, v)] := by
      rcases halike.single_entry with ⟨k, v, _, heq, -, -⟩ | ⟨-, hy⟩
      · exact fun htype => absurd heq (hx htype k v)
      · exact fun _ => hy
    rw [containsRelation_other hkind hx, containsRelation_other hkind hy, contained_other hx,
      contained_other hy]
    exact .pure ⟨rfl, .single halike id⟩

end Contains

theorem fieldRelation_twin {o : Operator} (ho : o ≠ .token) (halike : x.Alike y) :
    (fieldRelation t key o x).Relates (fieldRelation t key o y) fun r r' =>
      Fragment.Twin ((Demand.operator key o x).sources t) ((Demand.operator key o y).sources t)
        r.fragment r'.fragment := by
  refine Table.validator_after fun v hv => ?_
  refine .after (Operand.accept_steady key) fun column => ?_
  cases o with
  | compare c =>
    exact (Operand.compared_twin halike).bind fun o o' ho =>
      .pure ⟨congrArg (_ ++ ·) ho.text, ho.params⟩
  | isIn =>
    simp only
    have hsequence := halike.sequence?
    generalize hxs : x.sequence? = xs at hsequence ⊢
    generalize hys : y.sequence? = ys at hsequence ⊢
    cases hsequence with
    | none => exact .refuse _
    | @some items items' h =>
      refine (Action.Steady.congr (bindAll_steady t key) items items').bind fun ps qs hsame =>
        .pure ⟨rfl, .single halike fun hxy => ?_⟩
      have hitems : some items = some items' := hxs ▸ hys ▸ congrArg Value.sequence? hxy
      rw [hsame (Option.some.inj hitems)]
  | contains =>
    have hfield : (t.field? key).bind Field.columnType? = v.field.columnType? := by
      rw [Table.field?_of_validator? hv, Option.bind_some]
    simp only [Demand.sources, hfield]
    exact containsRelation_twin halike
  | containsKey =>
    simp only [containsKeyRelation]
    split
    · exact .pure ⟨rfl, .single halike id⟩
    · exact .refuse _
  | token => exact absurd rfl ho

theorem relation_twin {o : Operator} (halike : x.Alike y) :
    (relation t key o x).Relates (relation t key o y) fun r r' =>
      Fragment.Twin ((Demand.operator key o x).sources t) ((Demand.operator key o y).sources t)
        r.fragment r'.fragment := by
  unfold relation
  split
  case isTrue ho =>
    rw [ho]
    exact tokenRelation_twin halike
  case isFalse ho =>
    split
    · exact .refuse _
    · exact fieldRelation_twin ho halike

/-- Relations that meet demands of one skeleton have one text. -/
theorem metBy_twin {d d' : Demand} {r r' : Relation} (h : d.Alike d') (hr : d.MetBy t r)
    (hr' : d'.MetBy t r') :
    Fragment.Twin (d.sources t) (d'.sources t) r.fragment r'.fragment := by
  cases h with
  | operator key o halike =>
    obtain ⟨-, s, s', hr⟩ := hr
    obtain ⟨-, u, u', hr'⟩ := hr'
    exact relation_twin halike _ _ _ _ _ _ hr hr'
  | same d =>
    cases d with
    | search text =>
      cases hr
      cases hr'
      exact ⟨rfl, .nil⟩
    | expression definition =>
      obtain ⟨s, s', hr⟩ := hr
      obtain ⟨u, u', hr'⟩ := hr'
      obtain ⟨es, index, query, rfl, hindex, hquery, rfl⟩ := expressionRelation_ok hr
      obtain ⟨_, index', query', hes, hindex', hquery', rfl⟩ := expressionRelation_ok hr'
      cases hes
      cases hindex.symm.trans hindex'
      cases hquery.symm.trans hquery'
      exact ⟨rfl, .nil⟩
    | operator key o operand =>
      obtain ⟨-, s, s', hr⟩ := hr
      obtain ⟨-, u, u', hr'⟩ := hr'
      exact relation_twin (.refl operand) _ _ _ _ _ _ hr hr'

/-- The values that stand at the places of what is bound for a query. -/
def sources (t : Table) (query : List (Value × Value)) : List Value :=
  (keptDemands t query).flatMap (Demand.sources t)

theorem metBy_twins : ∀ {ds ds' : List Demand} {rs rs' : List Relation},
    List.Forall₂ Demand.Alike ds ds' → List.Forall₂ (Demand.MetBy t) ds rs →
      List.Forall₂ (Demand.MetBy t) ds' rs' →
        Fragment.Twins (ds.flatMap (Demand.sources t)) (ds'.flatMap (Demand.sources t))
          (rs.map Relation.fragment) (rs'.map Relation.fragment)
  | _, _, _, _, .nil, .nil, .nil => .nil
  | _, _, _, _, .cons hd hds, .cons hr hrs, .cons hr' hrs' =>
    .cons (metBy_twin hd hr hr') (metBy_twins hds hrs hrs')

/-- The relations of queries of one skeleton have one text each. -/
theorem relations_twins {query query' : List (Value × Value)} (h : Alike query query') :
    (relations t query).Relates (relations t query') fun rs rs' =>
      Fragment.Twins (sources t query) (sources t query') (rs.map Relation.fragment)
        (rs'.map Relation.fragment) :=
  fun _ _ _ _ _ _ hrs hrs' => metBy_twins h.keptDemands (relations_met hrs) (relations_met hrs')

end Query

end WideColumn
