import Mathlib.Data.List.Forall2
import Mathlib.Data.List.Nodup
import Mathlib.Data.List.Perm.Subperm
import Mathlib.Data.String.Basic
import WideColumn.Keyed

/-!
# Laws of entries under names

`Keyed.put`, `Keyed.erase` and `Keyed.get?` behave as those of a finite map, and putting keeps the
names distinct. `Ordered.distinct` gives the same list for lists with the same elements.
-/

namespace WideColumn.Keyed

variable {α β : Type} {es : List (String × α)} {name other : String} {a b : α}

/-! ## Reading -/

@[simp] theorem get?_nil : get? ([] : List (String × α)) name = none := rfl

theorem get?_cons (n : String) (a : α) (es : List (String × α)) (name : String) :
    get? ((n, a) :: es) name = if n = name then some a else get? es name := by
  unfold get?
  by_cases h : n = name
  · simp [h]
  · simp [h]

/-- A value under a name is one of the entries. -/
theorem mem_of_get? : ∀ {es : List (String × α)}, get? es name = some a → (name, a) ∈ es
  | [], h => nomatch h
  | (n, b) :: es, h => by
    rw [get?_cons] at h
    split at h
    · rename_i hn
      rw [← hn, ← Option.some.inj h]
      exact List.mem_cons_self
    · exact List.mem_cons_of_mem _ (mem_of_get? h)

/-- The names are those under which there is a value. -/
theorem get?_isSome : ∀ {es : List (String × α)}, (get? es name).isSome ↔ name ∈ names es
  | [] => by simp [names]
  | (n, b) :: es => by
    have ih : (get? es name).isSome ↔ name ∈ names es := get?_isSome
    rw [get?_cons]
    by_cases hn : n = name
    · simp [hn, names]
    · rw [if_neg hn, ih]
      simp [names, Ne.symm hn]

theorem get?_eq_none : get? es name = none ↔ name ∉ names es := by
  rw [← get?_isSome, Option.not_isSome_iff_eq_none]

/-- An entry is the value under its name when names are distinct. -/
theorem get?_of_mem : ∀ {es : List (String × α)}, (names es).Nodup → (name, a) ∈ es →
    get? es name = some a
  | (n, b) :: es, hnodup, hmem => by
    obtain ⟨hn, hnodup⟩ := List.nodup_cons.1 hnodup
    rw [get?_cons]
    rcases List.mem_cons.1 hmem with heq | hmem
    · obtain ⟨rfl, rfl⟩ := Prod.mk.inj heq
      exact if_pos rfl
    · have hne : n ≠ name := fun h => hn (List.mem_map.2 ⟨_, hmem, h.symm⟩)
      rw [if_neg hne]
      exact get?_of_mem hnodup hmem

theorem get?_eq_some_iff (h : (names es).Nodup) : get? es name = some a ↔ (name, a) ∈ es :=
  ⟨mem_of_get?, get?_of_mem h⟩

theorem mem_names_of_mem (h : (name, a) ∈ es) : name ∈ names es := List.mem_map_of_mem h

/-! ## Erasing -/

theorem mem_erase {e : String × α} : e ∈ erase name es ↔ e ∈ es ∧ e.1 ≠ name := by
  simp [erase]

theorem names_erase : names (erase name es) = (names es).filter (· != name) := by
  unfold names erase
  rw [List.filter_map]
  rfl

theorem mem_names_erase : other ∈ names (erase name es) ↔ other ∈ names es ∧ other ≠ name := by
  simp [names_erase]

theorem nodup_erase (h : (names es).Nodup) : (names (erase name es)).Nodup := by
  rw [names_erase]
  exact h.filter _

/-- Erasing takes away the value under one name. -/
theorem get?_erase : ∀ {es : List (String × α)},
    get? (erase name es) other = if other = name then none else get? es other
  | [] => by simp [erase]
  | (n, b) :: es => by
    have ih : get? (erase name es) other = if other = name then none else get? es other :=
      get?_erase
    unfold erase at ih ⊢
    rw [List.filter_cons]
    by_cases hn : n = name
    · have hself : ((n, b).1 != name) = false := by simp [hn]
      rw [hself, if_neg Bool.false_ne_true, ih, get?_cons]
      by_cases ho : other = name
      · simp [ho]
      · have hno : n ≠ other := fun h => ho (h ▸ hn)
        rw [if_neg ho, if_neg ho, if_neg hno]
    · have hother : ((n, b).1 != name) = true := by simp [hn]
      rw [if_pos hother, get?_cons, get?_cons, ih]
      by_cases hno : n = other
      · have ho : other ≠ name := fun h => hn (hno.trans h)
        rw [if_pos hno, if_pos hno, if_neg ho]
      · rw [if_neg hno, if_neg hno]

theorem get?_erase_self : get? (erase name es) name = none := by
  rw [get?_erase, if_pos rfl]

theorem get?_erase_of_ne (h : other ≠ name) : get? (erase name es) other = get? es other := by
  rw [get?_erase, if_neg h]

/-! ## Putting -/

/-- Putting gives the value under one name. -/
theorem get?_put : ∀ {es : List (String × α)},
    get? (put name a es) other = if other = name then some a else get? es other
  | [] => by
    rw [put, get?_cons]
    by_cases h : other = name
    · simp [h]
    · simp [h, Ne.symm h]
  | (n, b) :: es => by
    have ih : get? (put name a es) other = if other = name then some a else get? es other :=
      get?_put
    unfold put
    by_cases hn : n = name
    · rw [if_pos hn, get?_cons, get?_cons]
      by_cases hno : n = other
      · rw [if_pos hno, if_pos (hno ▸ hn)]
      · have ho : other ≠ name := fun h => hno (hn.trans h.symm)
        rw [if_neg hno, if_neg hno, if_neg ho]
    · rw [if_neg hn, get?_cons, get?_cons, ih]
      by_cases hno : n = other
      · have ho : other ≠ name := fun h => hn (hno.trans h)
        rw [if_pos hno, if_pos hno, if_neg ho]
      · rw [if_neg hno, if_neg hno]

theorem get?_put_self : get? (put name a es) name = some a := by
  rw [get?_put, if_pos rfl]

theorem get?_put_of_ne (h : other ≠ name) : get? (put name a es) other = get? es other := by
  rw [get?_put, if_neg h]

/-- Putting adds the name at the end unless it is there. -/
theorem names_put : ∀ {es : List (String × α)},
    names (put name a es) = if name ∈ names es then names es else names es ++ [name]
  | [] => by simp [put, names]
  | (n, b) :: es => by
    have ih : names (put name a es) =
        if name ∈ names es then names es else names es ++ [name] := names_put
    unfold put
    by_cases hn : n = name
    · simp [hn, names]
    · have hne : name ≠ n := Ne.symm hn
      rw [if_neg hn]
      change n :: names (put name a es) = _
      have hcons : name ∈ names ((n, b) :: es) ↔ name ∈ names es := by simp [names, hne]
      rw [ih]
      by_cases hm : name ∈ names es
      · rw [if_pos hm, if_pos (hcons.2 hm)]
        rfl
      · rw [if_neg hm, if_neg (mt hcons.1 hm)]
        rfl

theorem mem_names_put : other ∈ names (put name a es) ↔ other = name ∨ other ∈ names es := by
  rw [names_put]
  by_cases h : name ∈ names es
  · rw [if_pos h]
    exact ⟨.inr, fun h' => h'.elim (fun heq => heq ▸ h) id⟩
  · rw [if_neg h, List.mem_append, List.mem_singleton, or_comm]

theorem nodup_put (h : (names es).Nodup) : (names (put name a es)).Nodup := by
  rw [names_put]
  split
  · exact h
  · rename_i hm
    exact List.nodup_append.2 ⟨h, List.nodup_singleton name, fun x hx y hy hxy =>
      hm (List.mem_singleton.1 hy ▸ hxy ▸ hx)⟩

/-- A new entry comes last. -/
theorem put_of_notMem : ∀ {es : List (String × α)}, name ∉ names es →
    put name a es = es ++ [(name, a)]
  | [], _ => rfl
  | (n, b) :: es, h => by
    obtain ⟨hn, hes⟩ : name ≠ n ∧ name ∉ names es := by simpa [names] using h
    rw [put, if_neg (Ne.symm hn), put_of_notMem hes]
    rfl

theorem mem_put : ∀ {es : List (String × α)} {e : String × α}, e ∈ put name a es →
    e = (name, a) ∨ e ∈ es
  | [], e, h => .inl (List.mem_singleton.1 h)
  | (n, b) :: es, e, h => by
    unfold put at h
    split at h
    · rename_i hn
      rcases List.mem_cons.1 h with rfl | h
      · exact .inl (by rw [hn])
      · exact .inr (List.mem_cons_of_mem _ h)
    · rcases List.mem_cons.1 h with rfl | h
      · exact .inr List.mem_cons_self
      · exact (mem_put h).imp_right (List.mem_cons_of_mem _)

/-- What is put one after the other comes from the list. -/
theorem mem_of_mem_ofList {e : String × α} (h : e ∈ ofList es) : e ∈ es := by
  suffices ∀ (es acc : List (String × α)),
      e ∈ es.foldl (fun acc e => put e.1 e.2 acc) acc → e ∈ es ∨ e ∈ acc from
    (this es [] h).resolve_right List.not_mem_nil
  intro es
  induction es with
  | nil => exact fun acc h => .inr h
  | cons x es ih =>
    intro acc h
    rcases ih _ h with h | h
    · exact .inl (List.mem_cons_of_mem x h)
    · rcases mem_put h with rfl | h
      · exact .inl List.mem_cons_self
      · exact .inr h

/-- Putting entries one after the other keeps which names there are. -/
theorem mem_names_ofList : name ∈ names (ofList es) ↔ name ∈ names es := by
  suffices ∀ (es acc : List (String × α)),
      name ∈ names (es.foldl (fun acc e => put e.1 e.2 acc) acc) ↔
        name ∈ names es ∨ name ∈ names acc from
    (this es []).trans ⟨fun h => h.resolve_right List.not_mem_nil, .inl⟩
  intro es
  induction es with
  | nil => exact fun acc => ⟨.inr, fun h => h.resolve_left List.not_mem_nil⟩
  | cons x es ih =>
    intro acc
    rw [List.foldl_cons, ih, mem_names_put]
    change _ ↔ name ∈ x.1 :: names es ∨ _
    rw [List.mem_cons]
    tauto

/-- Entries that are put one after the other have distinct names. -/
theorem nodup_ofList (es : List (String × α)) : (names (ofList es)).Nodup := by
  suffices ∀ acc : List (String × α), (names acc).Nodup →
      (names (es.foldl (fun acc e => put e.1 e.2 acc) acc)).Nodup from this [] List.nodup_nil
  induction es with
  | nil => exact fun acc h => h
  | cons e es ih => exact fun acc h => ih _ (nodup_put h)

/-- Entries with distinct names stay as they are. -/
theorem ofList_of_nodup (h : (names es).Nodup) : ofList es = es := by
  suffices ∀ (es acc : List (String × α)), (names (acc ++ es)).Nodup →
      es.foldl (fun acc e => put e.1 e.2 acc) acc = acc ++ es from this es [] h
  intro es
  induction es with
  | nil => exact fun acc _ => (List.append_nil acc).symm
  | cons e es ih =>
    intro acc hnodup
    have hnew : e.1 ∉ names acc := by
      intro hmem
      rw [names, List.map_append, List.nodup_append] at hnodup
      exact hnodup.2.2 _ hmem _ List.mem_cons_self rfl
    rw [List.foldl_cons, put_of_notMem hnew, ih, List.append_assoc]
    · rfl
    · rwa [List.append_assoc]

/-- Entries that are put one after the other are in the order in which their names come first. -/
theorem names_ofList_sublist (es : List (String × α)) : (names (ofList es)).Sublist (names es) := by
  suffices ∀ (es acc : List (String × α)),
      (names (es.foldl (fun acc e => put e.1 e.2 acc) acc)).Sublist (names acc ++ names es) from
    this es []
  intro es
  induction es with
  | nil => exact fun acc => (List.append_nil (names acc)).symm ▸ List.Sublist.refl _
  | cons e es ih =>
    intro acc
    refine (ih _).trans ?_
    have hput : (names (put e.1 e.2 acc)).Sublist (names acc ++ [e.1]) := by
      rw [names_put]
      split
      · exact List.sublist_append_left _ _
      · exact List.Sublist.refl _
    simpa [names] using hput.append_right (names es)

/-- Entries of which none is lost when they are put one after the other have distinct names. -/
theorem nodup_of_length_ofList (h : (ofList es).length = es.length) : (names es).Nodup := by
  have hlength : (names (ofList es)).length = (names es).length := by
    rw [names, names, List.length_map, List.length_map, h]
  exact (names_ofList_sublist es).eq_of_length hlength ▸ nodup_ofList es

/-- Values that are put under names by a function are those of the function. -/
theorem get?_ofList_map {key : List String} {f : String → α} (h : name ∈ key) :
    get? (ofList (key.map fun c => (c, f c))) name = some (f name) := by
  have hname : name ∈ names (ofList (key.map fun c => (c, f c))) := by
    rw [mem_names_ofList]
    exact List.mem_map.2 ⟨(name, f name), List.mem_map.2 ⟨name, h, rfl⟩, rfl⟩
  obtain ⟨a, ha⟩ := Option.isSome_iff_exists.1 (get?_isSome.2 hname)
  obtain ⟨c, -, hc⟩ := List.mem_map.1 (mem_of_mem_ofList (mem_of_get? ha))
  obtain ⟨rfl, rfl⟩ := Prod.mk.inj hc
  exact ha

/-- Values that are put under names by a function are under these names only. -/
theorem get?_ofList_map_iff (key : List String) (f : String → α) (name : String) :
    get? (ofList (key.map fun c => (c, f c))) name =
      if name ∈ key then some (f name) else none := by
  by_cases h : name ∈ key
  · rw [if_pos h, get?_ofList_map h]
  · rw [if_neg h, get?_eq_none, mem_names_ofList]
    simpa [names] using h

/-- Mapping values maps what is under a name. -/
theorem get?_map {β : Type} (f : α → β) (es : List (String × α)) (name : String) :
    get? (es.map fun e => (e.1, f e.2)) name = (get? es name).map f := by
  induction es with
  | nil => rfl
  | cons e es ih =>
    obtain ⟨n, a⟩ := e
    rw [List.map_cons, get?_cons, get?_cons, ih]
    split <;> rfl

theorem holds_iff {same : α → α → Bool} :
    holds same es name a = true ↔ ∃ b, get? es name = some b ∧ same b a = true := by
  unfold holds
  cases get? es name with
  | none => simp
  | some b => simp

theorem holds_of_mem {same : α → α → Bool} (hnodup : (names es).Nodup) (h : (name, b) ∈ es) :
    holds same es name a = same b a := by
  rw [holds, get?_of_mem hnodup h]

theorem holds_map {same : β → β → Bool} {f : α → β} {b : β} :
    holds same (es.map fun e => (e.1, f e.2)) name b = true ↔
      ∃ a, get? es name = some a ∧ same (f a) b = true := by
  rw [holds_iff, get?_map]
  simp

/-- Keeping some names keeps what is under them. -/
theorem get?_filter (p : String → Bool) (es : List (String × α)) (name : String) :
    get? (es.filter fun e => p e.1) name = if p name then get? es name else none := by
  induction es with
  | nil => simp
  | cons e es ih =>
    obtain ⟨n, a⟩ := e
    rw [List.filter_cons]
    by_cases hn : p n = true
    · rw [if_pos (show p (n, a).1 = true from hn), get?_cons, get?_cons, ih]
      by_cases hname : n = name
      · rw [if_pos hname, if_pos hname, if_pos (hname ▸ hn)]
      · rw [if_neg hname, if_neg hname]
    · rw [if_neg (show ¬ p (n, a).1 = true from hn), ih, get?_cons]
      by_cases hname : n = name
      · rw [if_neg (hname ▸ hn), if_neg (hname ▸ hn)]
      · rw [if_neg hname]

/-- Going through the names and looking up is going through the entries. -/
theorem foldl_names {β : Type} (g : β → String × α → β) (b : β) (h : (names es).Nodup) :
    (names es).foldl (fun b name => match get? es name with
      | some a => g b (name, a)
      | none => b) b = es.foldl g b := by
  suffices ∀ (es all : List (String × α)) (b : β), (∀ e ∈ es, get? all e.1 = some e.2) →
      (names es).foldl (fun b name => match get? all name with
        | some a => g b (name, a)
        | none => b) b = es.foldl g b from
    this es es b fun e he => get?_of_mem h he
  intro es all
  induction es with
  | nil => exact fun b _ => rfl
  | cons e es ih =>
    intro b hall
    change (names es).foldl _ (match get? all e.1 with
      | some a => g b (e.1, a)
      | none => b) = es.foldl g (g b e)
    rw [hall e List.mem_cons_self]
    exact ih _ fun f hf => hall f (List.mem_cons_of_mem e hf)

/-! ## The same entries -/

/-- Lists with distinct names have the same values when they have the same names, and the values
under each name are the same. -/
theorem eqv_iff_values {same : α → α → Bool} {xs ys : List (String × α)} (hxs : (names xs).Nodup)
    (hys : (names ys).Nodup) : eqv same xs ys = true ↔
      (∀ name, name ∈ names xs ↔ name ∈ names ys) ∧
        ∀ name a b, get? xs name = some a → get? ys name = some b → same a b = true := by
  have hlengths : ∀ es : List (String × α), (names es).length = es.length :=
    fun _ => List.length_map _
  unfold eqv
  rw [Bool.and_eq_true, beq_iff_eq, List.all_eq_true]
  constructor
  · rintro ⟨hlength, hall⟩
    have hsub : names xs ⊆ names ys := by
      intro name hname
      obtain ⟨e, he, rfl⟩ := List.mem_map.1 hname
      have hvalue := hall e he
      rw [← get?_isSome]
      cases hb : get? ys e.1 with
      | none => simp [hb] at hvalue
      | some b => rfl
    have hperm : (names xs).Perm (names ys) :=
      (List.subperm_of_subset hxs hsub).perm_of_length_le (by rw [hlengths, hlengths, hlength])
    refine ⟨fun name => hperm.mem_iff, fun name a b ha hb => ?_⟩
    have hvalue := hall (name, a) (mem_of_get? ha)
    rw [hb] at hvalue
    exact hvalue
  · rintro ⟨hnames, hvalues⟩
    have hperm := (List.perm_ext_iff_of_nodup hxs hys).2 hnames
    refine ⟨by rw [← hlengths, ← hlengths, hperm.length_eq], fun e he => ?_⟩
    obtain ⟨b, hb⟩ := Option.isSome_iff_exists.1
      (get?_isSome.2 ((hnames e.1).1 (mem_names_of_mem he)))
    rw [hb]
    exact hvalues e.1 e.2 b (get?_of_mem hxs he) hb

section

variable [BEq α] [LawfulBEq α] {xs ys : List (String × α)}

/-- Two lists have the same entries when they are as long and each entry of one is in the other. -/
theorem eqv_iff (h : (names ys).Nodup) :
    eqv (· == ·) xs ys = true ↔ xs.length = ys.length ∧ ∀ e ∈ xs, e ∈ ys := by
  unfold eqv
  rw [Bool.and_eq_true, beq_iff_eq, List.all_eq_true]
  refine and_congr_right fun _ => forall₂_congr fun e _ => ?_
  rw [← get?_eq_some_iff h]
  split
  · rename_i a ha
    rw [ha, Option.some.injEq, beq_iff_eq]
    exact eq_comm
  · rename_i hnone
    rw [hnone]
    exact ⟨fun h => (nomatch h), fun h => nomatch h⟩

/-- Lists with distinct names have the same entries when one is a rearrangement of the other. -/
theorem eqv_iff_perm (hxs : (names xs).Nodup) (hys : (names ys).Nodup) :
    eqv (· == ·) xs ys = true ↔ xs.Perm ys := by
  rw [eqv_iff hys]
  constructor
  · rintro ⟨hlength, hsub⟩
    exact (List.subperm_of_subset hxs.of_map hsub).perm_of_length_le hlength.ge
  · exact fun hperm => ⟨hperm.length_eq, fun _ he => hperm.mem_iff.1 he⟩

/-- Lists with distinct names have the same entries when there is the same under each name. -/
theorem eqv_iff_get? (hxs : (names xs).Nodup) (hys : (names ys).Nodup) :
    eqv (· == ·) xs ys = true ↔ ∀ name, get? xs name = get? ys name := by
  rw [eqv_iff_values hxs hys]
  constructor
  · rintro ⟨hnames, hvalues⟩ name
    cases ha : get? xs name with
    | none => exact (get?_eq_none.2 fun hmem => get?_eq_none.1 ha ((hnames name).2 hmem)).symm
    | some a =>
      obtain ⟨b, hb⟩ := Option.isSome_iff_exists.1
        (get?_isSome.2 ((hnames name).1 (get?_isSome.1 (ha ▸ rfl))))
      rw [hb, eq_of_beq (hvalues name a b ha hb)]
  · intro hsame
    refine ⟨fun name => ?_, fun name a b ha hb => ?_⟩
    · rw [← get?_isSome, ← get?_isSome, hsame]
    · rw [hsame, hb] at ha
      rw [Option.some.inj ha, beq_self_eq_true]

theorem eqv_comm (hxs : (names xs).Nodup) (hys : (names ys).Nodup) :
    eqv (· == ·) xs ys = eqv (· == ·) ys xs := by
  rw [Bool.eq_iff_iff, eqv_iff_perm hxs hys, eqv_iff_perm hys hxs]
  exact List.perm_comm

theorem eqv_self (h : (names xs).Nodup) : eqv (· == ·) xs xs = true :=
  (eqv_iff h).2 ⟨rfl, fun _ he => he⟩

end

/-! ## Entries alike -/

/-- The same names in the same order, with values that are related. -/
def Alike (same : String → α → β → Prop) (xs : List (String × α)) (ys : List (String × β)) : Prop :=
  List.Forall₂ (fun x y => x.1 = y.1 ∧ same x.1 x.2 y.2) xs ys

namespace Alike

variable {same : String → α → β → Prop} {xs : List (String × α)} {ys : List (String × β)} {b : β}

theorem names_eq (h : Alike same xs ys) : names xs = names ys := by
  induction h with
  | nil => rfl
  | cons hxy _ ih => exact congrArg₂ List.cons hxy.1 ih

theorem of_self {same : String → α → α → Prop} {xs : List (String × α)}
    (h : ∀ x ∈ xs, same x.1 x.2 x.2) : Alike same xs xs := by
  induction xs with
  | nil => exact .nil
  | cons x xs ih =>
    exact .cons ⟨rfl, h x List.mem_cons_self⟩ (ih fun y hy => h y (List.mem_cons_of_mem x hy))

/-- What is under a name on one side is related to what is under it on the other. -/
theorem get? (h : Alike same xs ys) (hb : Keyed.get? ys name = some b) :
    ∃ a, Keyed.get? xs name = some a ∧ same name a b := by
  induction h with
  | nil => cases hb
  | @cons x y _ _ hxy _ ih =>
    obtain ⟨n, a⟩ := x
    obtain ⟨m, b'⟩ := y
    obtain ⟨rfl, hsame⟩ : n = m ∧ same n a b' := hxy
    rw [get?_cons] at hb ⊢
    by_cases hname : n = name
    · subst hname
      rw [if_pos rfl] at hb ⊢
      exact ⟨a, rfl, Option.some.inj hb ▸ hsame⟩
    · rw [if_neg hname] at hb ⊢
      exact ih hb

theorem put (h : Alike same xs ys) (hsame : same name a b) :
    Alike same (put name a xs) (put name b ys) := by
  induction h with
  | nil => exact .cons ⟨rfl, hsame⟩ .nil
  | @cons x y _ _ hxy hrest ih =>
    obtain ⟨n, a'⟩ := x
    obtain ⟨m, b'⟩ := y
    obtain ⟨rfl, hsame'⟩ : n = m ∧ same n a' b' := hxy
    unfold Keyed.put
    by_cases hname : n = name
    · subst hname
      rw [if_pos rfl, if_pos rfl]
      exact .cons ⟨rfl, hsame⟩ hrest
    · rw [if_neg hname, if_neg hname]
      exact .cons ⟨rfl, hsame'⟩ ih

theorem erase (h : Alike same xs ys) (name : String) :
    Alike same (erase name xs) (erase name ys) := by
  induction h with
  | nil => exact .nil
  | @cons x y _ _ hxy _ ih =>
    unfold Keyed.erase at ih ⊢
    rw [List.filter_cons, List.filter_cons, hxy.1]
    split
    · exact .cons hxy ih
    · exact ih

/-- Changing the value under a name in place. -/
theorem map_put {f : α → α} (h : Alike same xs ys) (hnodup : (names ys).Nodup)
    (hmem : name ∈ names ys) (hsame : ∀ a, Keyed.get? xs name = some a → same name (f a) b) :
    Alike same (xs.map fun x => if x.1 = name then (x.1, f x.2) else x) (Keyed.put name b ys) := by
  induction h with
  | nil => cases hmem
  | @cons x y xs ys hxy hrest ih =>
    obtain ⟨n, a'⟩ := x
    obtain ⟨m, b'⟩ := y
    obtain ⟨rfl, hsame'⟩ : n = m ∧ same n a' b' := hxy
    obtain ⟨hn, hnodup⟩ := List.nodup_cons.1 hnodup
    unfold Keyed.put
    rw [List.map_cons]
    by_cases hname : n = name
    · subst hname
      have hrest' : xs.map (fun x => if x.1 = n then (x.1, f x.2) else x) = xs := by
        refine (List.map_congr_left fun x hx => if_neg fun heq => hn ?_).trans (List.map_id xs)
        change n ∈ names ys
        rw [← names_eq hrest, ← heq]
        exact List.mem_map_of_mem hx
      rw [if_pos rfl, if_pos rfl, hrest']
      refine .cons ⟨rfl, hsame a' ?_⟩ hrest
      rw [get?_cons, if_pos rfl]
    · rw [if_neg hname, if_neg hname]
      refine .cons ⟨rfl, hsame'⟩ (ih hnodup ?_ fun a ha => hsame a ?_)
      · exact (List.mem_cons.1 hmem).resolve_left (Ne.symm hname)
      · rw [get?_cons, if_neg hname]
        exact ha

end Alike

/-- Putting a value under a name that is there replaces the value. -/
theorem put_of_mem (hnodup : (names es).Nodup) (hmem : name ∈ names es) :
    put name a es = es.map fun e => if e.1 = name then (e.1, a) else e := by
  have hsame : Alike (fun _ x y => x = y) (es.map fun e => if e.1 = name then (e.1, a) else e)
      (put name a es) :=
    (Alike.of_self fun _ _ => rfl).map_put (f := fun _ => a) hnodup hmem fun _ _ => rfl
  have heq := List.Forall₂.imp (fun _ _ hxy => Prod.ext hxy.1 hxy.2) hsame
  rw [List.forall₂_eq_eq_eq] at heq
  exact heq.symm

end WideColumn.Keyed

namespace WideColumn.Ordered

variable {x y : String}

theorem mem_insert : ∀ {ts : List String}, x ∈ insert y ts ↔ x = y ∨ x ∈ ts
  | [] => by simp [insert]
  | t :: ts => by
    have ih : x ∈ insert y ts ↔ x = y ∨ x ∈ ts := mem_insert
    unfold insert
    split
    · exact List.mem_cons
    · split
      · rename_i h
        rw [h, List.mem_cons]
        tauto
      · rw [List.mem_cons, List.mem_cons, ih]
        tauto

/-- Putting texts in order keeps which ones there are. -/
theorem mem_distinct : ∀ {xs : List String}, x ∈ distinct xs ↔ x ∈ xs
  | [] => Iff.rfl
  | t :: ts => by
    have ih : x ∈ distinct ts ↔ x ∈ ts := mem_distinct
    change x ∈ insert t (distinct ts) ↔ _
    rw [mem_insert, ih, List.mem_cons]

theorem pairwise_insert : ∀ {ts : List String}, ts.Pairwise (· < ·) →
    (insert y ts).Pairwise (· < ·)
  | [], _ => List.pairwise_singleton _ y
  | t :: ts, h => by
    obtain ⟨ht, hts⟩ := List.pairwise_cons.1 h
    unfold insert
    split
    · rename_i hlt
      refine List.pairwise_cons.2 ⟨fun z hz => ?_, h⟩
      rcases List.mem_cons.1 hz with rfl | hz
      · exact hlt
      · exact lt_trans hlt (ht z hz)
    · rename_i hnlt
      split
      · exact h
      · rename_i hne
        refine List.pairwise_cons.2 ⟨fun z hz => ?_, pairwise_insert hts⟩
        rcases mem_insert.1 hz with rfl | hz
        · exact lt_of_le_of_ne (not_lt.1 hnlt) (Ne.symm hne)
        · exact ht z hz

theorem pairwise_distinct : ∀ xs : List String, (distinct xs).Pairwise (· < ·)
  | [] => List.Pairwise.nil
  | _ :: xs => pairwise_insert (pairwise_distinct xs)

/-- Texts in order, each once, are in order already. -/
theorem distinct_of_pairwise : ∀ {xs : List String}, xs.Pairwise (· < ·) → distinct xs = xs
  | [], _ => rfl
  | x :: xs, h => by
    obtain ⟨hx, hxs⟩ := List.pairwise_cons.1 h
    change insert x (distinct xs) = _
    rw [distinct_of_pairwise hxs]
    cases xs with
    | nil => rfl
    | cons y ys => exact if_pos (hx y List.mem_cons_self)

/-- Texts in order are the same when the same texts are among them. -/
theorem eq_of_mem_iff {xs ys : List String} (hxs : xs.Pairwise (· < ·))
    (hys : ys.Pairwise (· < ·)) (h : ∀ x, x ∈ xs ↔ x ∈ ys) : xs = ys := by
  have hperm : xs.Perm ys :=
    (List.perm_ext_iff_of_nodup (hxs.imp ne_of_lt) (hys.imp ne_of_lt)).2 h
  exact hperm.eq_of_pairwise (fun _ _ _ _ hxy hyx => absurd hxy (lt_asymm hyx)) hxs hys

theorem distinct_distinct (xs : List String) : distinct (distinct xs) = distinct xs :=
  distinct_of_pairwise (pairwise_distinct xs)

theorem nodup_distinct (xs : List String) : (distinct xs).Nodup :=
  (pairwise_distinct xs).imp ne_of_lt

theorem insertAgain_perm (x : String) : ∀ ts : List String, (insertAgain x ts).Perm (x :: ts)
  | [] => .refl [x]
  | t :: ts => by
    unfold insertAgain
    split
    · exact .refl _
    · exact ((insertAgain_perm x ts).cons t).trans (.swap x t ts)

/-- Putting texts in order keeps them, repetitions as well. -/
theorem all_perm : ∀ xs : List String, (all xs).Perm xs
  | [] => .nil
  | x :: xs => (insertAgain_perm x (all xs)).trans ((all_perm xs).cons x)

end WideColumn.Ordered
