import Mathlib.Data.List.Perm.Basic
import WideColumn.Proofs.Exactness
import WideColumn.Proofs.Reading

/-!
# The order of a definition does not matter

Two definitions that are the same up to order (`Definition.Rearranges`) declare tables with matching
canonical forms, so that neither differs from the other in anything
(`Table.ofDefinition_rearranged`). The keys of a map have to come down to distinct texts
(`Definition.NamesApart`): of two entries under one name the later one counts, and which one that is
depends on their order.
-/

namespace WideColumn

/-! ## Lists up to order -/

/-- What is a list of values up to order is made of the arguments in that order. -/
theorem exists_of_perm_map {α β : Type} {f : α → β} {xs : List α} {ys : List β}
    (h : ys.Perm (xs.map f)) : ∃ zs : List α, ys = zs.map f ∧ zs.Perm xs := by
  have hcomp := congrFun (congrFun (List.eq_map_comp_perm f) ys) xs
  exact hcomp.mpr h

/-- One list is the other up to order, elements standing for each other as `r` says. -/
def Rearranged {α β : Type} (r : α → β → Prop) (xs : List α) (ys : List β) : Prop :=
  ∃ zs, xs.Perm zs ∧ List.Forall₂ r zs ys

namespace Rearranged

variable {α α' β β' γ : Type} {r : α → α' → Prop} {xs : List α} {xs' : List α'} {ys : List β}
  {ys' : List β'}

theorem of_perm {zs : List α} (h : xs.Perm zs) : Rearranged (· = ·) xs zs :=
  ⟨zs, h, List.forall₂_same.2 fun _ _ => rfl⟩

/-- What is read off lists element by element is the same up to order when the lists are. -/
theorem read {f : α → β → Prop} {f' : α' → β' → Prop} {s : β → β' → Prop}
    (h : Rearranged r xs xs') (hxs : List.Forall₂ f xs ys) (hxs' : List.Forall₂ f' xs' ys')
    (hread : ∀ x x' y y', r x x' → f x y → f' x' y' → s y y') : Rearranged s ys ys' := by
  obtain ⟨zs, hperm, hzs⟩ := h
  obtain ⟨ws, hws, hys⟩ := List.perm_comp_forall₂ hperm.symm hxs
  have hback : List.Forall₂ (flip f) ws zs := List.Forall₂.flip (R := flip f) hws
  refine ⟨ws, hys.symm, (forall₂_comp (forall₂_comp hback hzs) hxs').imp fun y y' hyy' => ?_⟩
  obtain ⟨x', ⟨x, hf, hr⟩, hf'⟩ := hyy'
  exact hread x x' y y' hr hf hf'

theorem imp_mem {s : α → α' → Prop} (h : Rearranged r xs xs')
    (himp : ∀ x x', x ∈ xs → r x x' → s x x') : Rearranged s xs xs' := by
  obtain ⟨zs, hperm, hzs⟩ := h
  have hmem := (List.forall₂_and_left zs xs').2 ⟨fun _ => hperm.mem_iff.2, hzs⟩
  exact ⟨zs, hperm, hmem.imp fun x x' hxx' => himp x x' hxx'.1 hxx'.2⟩

/-- What is the same of elements that stand for each other is the same up to order. -/
theorem map_perm {g : α → γ} {k : α' → γ} (h : Rearranged r xs xs')
    (hg : ∀ x x', r x x' → g x = k x') : (xs.map g).Perm (xs'.map k) := by
  obtain ⟨zs, hperm, hzs⟩ := h
  have hmap : zs.map g = xs'.map k := by
    induction hzs generalizing xs with
    | nil => rfl
    | cons hxx' _ ih => rw [List.map_cons, List.map_cons, hg _ _ hxx', ih (List.Perm.refl _)]
  exact hmap ▸ hperm.map g

theorem perm {zs : List α} (h : Rearranged (· = ·) xs zs) : xs.Perm zs := by
  have hmap := h.map_perm (g := id) (k := id) fun _ _ => id
  rwa [List.map_id, List.map_id] at hmap

end Rearranged

namespace Keyed

variable {α : Type} {xs ys : List (String × α)}

/-- Entries under distinct names may be in any order. -/
theorem get?_of_perm (hnodup : (names xs).Nodup) (h : xs.Perm ys) (name : String) :
    get? xs name = get? ys name := by
  have hys : (names ys).Nodup := (h.map Prod.fst).nodup_iff.1 hnodup
  refine Option.ext fun a => ?_
  rw [get?_eq_some_iff hnodup, get?_eq_some_iff hys, h.mem_iff]

end Keyed

/-! ## Entries under keys -/

namespace Coercion

variable {α α' β β' : Type}

/-- No two keys come down to the same text. -/
def KeysApart (keys : List Value) : Prop :=
  keys.Pairwise fun k l => ∀ s, text k = .ok s → text l ≠ .ok s

/-- Distinct texts come down to distinct texts. -/
theorem keysApart_texts {ss : List String} (h : ss.Nodup) : KeysApart (ss.map Value.text) := by
  refine List.pairwise_map.2 (h.imp fun hne s hs ht => hne ?_)
  rw [Checked.ok.inj hs, Checked.ok.inj ht]

theorem KeysApart.nodup {reads : Value × α → β → Prop} {es : List (Value × α)}
    {ps : List (String × β)} (hapart : KeysApart (es.map Prod.fst))
    (h : List.Forall₂ (fun e p => text e.1 = .ok p.1 ∧ reads e p.2) es ps) :
    (Keyed.names ps).Nodup := by
  induction h with
  | nil => exact List.nodup_nil
  | @cons e p es ps hep hread ih =>
    obtain ⟨hfirst, hrest⟩ := List.pairwise_cons.1 hapart
    refine List.nodup_cons.2 ⟨fun hmem => ?_, ih hrest⟩
    obtain ⟨q, hq, hname⟩ := List.mem_map.1 hmem
    obtain ⟨f, hf, hfq, -⟩ := forall₂_mem_right hread hq
    rw [show q.1 = p.1 from hname] at hfq
    exact hfirst f.1 (List.mem_map_of_mem hf) p.1 hep.1 hfq

/-- What is read off entries under keys is the same up to order when the entries are. -/
theorem ReadsEntries.rearranged {r : Value × α → Value × α' → Prop}
    {reads : Value × α → β → Prop} {reads' : Value × α' → β' → Prop} {same : β → β' → Prop}
    {es : List (Value × α)} {es' : List (Value × α')} {rs : List (String × β)}
    {rs' : List (String × β')} (h : Rearranged (fun e e' => e.1 = e'.1 ∧ r e e') es es')
    (hes : ReadsEntries reads es rs) (hes' : ReadsEntries reads' es' rs')
    (hapart : KeysApart (es.map Prod.fst))
    (hsame : ∀ e e' b b', r e e' → reads e b → reads' e' b' → same b b') :
    Rearranged (fun p p' => p.1 = p'.1 ∧ same p.2 p'.2) rs rs' := by
  obtain ⟨ps, hps, rfl⟩ := hes
  obtain ⟨ps', hps', rfl⟩ := hes'
  have hread : Rearranged (fun p p' => p.1 = p'.1 ∧ same p.2 p'.2) ps ps' := by
    refine h.read hps hps' fun e e' p p' hr hep hep' => ⟨?_, hsame e e' _ _ hr.2 hep.2 hep'.2⟩
    have htext := hep.1
    rw [hr.1, hep'.1] at htext
    exact (Checked.ok.inj htext).symm
  have hnodup := hapart.nodup hps
  have hnodup' : (Keyed.names ps').Nodup :=
    (hread.map_perm (g := Prod.fst) (k := Prod.fst) fun _ _ hpp' => hpp'.1).nodup_iff.1 hnodup
  rwa [Keyed.ofList_of_nodup hnodup, Keyed.ofList_of_nodup hnodup']

/-- Entries that are read in one way and reordered give the same entries in another order. -/
theorem ReadsEntries.perm {reads : Value × α → β → Prop} {es es' : List (Value × α)}
    {rs rs' : List (String × β)} (h : es.Perm es') (hes : ReadsEntries reads es rs)
    (hes' : ReadsEntries reads es' rs') (hapart : KeysApart (es.map Prod.fst))
    (hfun : ∀ e b b', reads e b → reads e b' → b = b') : rs.Perm rs' := by
  have hrearranged : Rearranged (fun e e' => e.1 = e'.1 ∧ e = e') es es' :=
    ⟨es', h, List.forall₂_same.2 fun _ _ => ⟨rfl, rfl⟩⟩
  have hsame : ∀ e e' b b', e = e' → reads e b → reads e' b' → b = b' :=
    fun e e' b b' heq hb hb' => hfun e b b' hb (heq ▸ hb')
  obtain ⟨zs, hperm, hzs⟩ := hes.rearranged hrearranged hes' hapart hsame
  have heq : List.Forall₂ (· = ·) zs rs' := hzs.imp fun _ _ hpp' => Prod.ext hpp'.1 hpp'.2
  rw [List.forall₂_eq_eq_eq] at heq
  exact heq ▸ hperm

end Coercion

/-! ## Definitions up to order -/

namespace Definition

open Coercion

/-- Two computations end well, with lists that are the same up to order. -/
def SameUpTo {α : Type} (r : α → α → Prop) (x y : Except Failure (List α)) : Prop :=
  ∃ xs ys, x = .ok xs ∧ y = .ok ys ∧ Rearranged r xs ys

/-- Two views have the same key, and the same columns and directions in any order. -/
structure RearrangesView (es es' : List (Value × Value)) : Prop where
  key : part es "key" = part es' "key"
  select : SameUpTo (· = ·) (selected (part es "select")) (selected (part es' "select"))
  order : SameUpTo (· = ·) (entriesOrNone (part es "clustering_order"))
    (entriesOrNone (part es' "clustering_order"))

/-- Two custom indexes have the same column and implementation, and the same options in any
order. -/
structure RearrangesCustomIndex (es es' : List (Value × Value)) : Prop where
  column : Value.get? es "on" = Value.get? es' "on"
  implementation : Value.get? es "using" = Value.get? es' "using"
  options : (Value.get? es "options" = none ∧ Value.get? es' "options" = none) ∨
    ∃ os os', Value.get? es "options" = some (.map os) ∧
      Value.get? es' "options" = some (.map os') ∧ os.Perm os'

/-- Two values are maps whose entries are related. -/
def Maps (r : List (Value × Value) → List (Value × Value) → Prop) (v w : Value) : Prop :=
  ∃ es es', v = .map es ∧ w = .map es' ∧ r es es'

/-- Two definitions have the same key, and the same fields, directions, indexes, custom indexes and
views in any order. -/
structure Rearranges (es es' : List (Value × Value)) : Prop where
  fields : ∃ fs fs', part es "fields" = .map fs ∧ part es' "fields" = .map fs' ∧ fs.Perm fs'
  key : part es "key" = part es' "key"
  order : SameUpTo (· = ·) (entriesOrNone (part es "clustering_order"))
    (entriesOrNone (part es' "clustering_order"))
  indexes : SameUpTo (· = ·) (elementsOrNone (part es "indexes"))
    (elementsOrNone (part es' "indexes"))
  customIndexes : SameUpTo (Maps RearrangesCustomIndex) (customIndexesOf es) (customIndexesOf es')
  views : SameUpTo (fun e e' => e.1 = e'.1 ∧ Maps RearrangesView e.2 e'.2)
    (entriesOrNone (part es "materialized_views")) (entriesOrNone (part es' "materialized_views"))

/-- The columns of an order are distinct names. -/
def OrderApart (order : Value) : Prop :=
  ∀ es, entriesOrNone order = .ok es → KeysApart (es.map Prod.fst)

/-- The keys of each map of a definition are distinct names. -/
structure NamesApart (es : List (Value × Value)) : Prop where
  fields : ∀ fs, part es "fields" = .map fs → KeysApart (fs.map Prod.fst)
  order : OrderApart (part es "clustering_order")
  options : ∀ xs, customIndexesOf es = .ok xs → ∀ is, .map is ∈ xs →
    ∀ os, Value.get? is "options" = some (.map os) → KeysApart (os.map Prod.fst)
  views : ∀ vs, entriesOrNone (part es "materialized_views") = .ok vs →
    KeysApart (vs.map Prod.fst) ∧
      ∀ e ∈ vs, ∀ ves, e.2 = .map ves → OrderApart (part ves "clustering_order")

theorem SameUpTo.rearranged {α : Type} {r : α → α → Prop} {x y : Except Failure (List α)}
    {xs ys : List α} (h : SameUpTo r x y) (hx : x = .ok xs) (hy : y = .ok ys) :
    Rearranged r xs ys := by
  obtain ⟨xs', ys', hx', hy', hsame⟩ := h
  obtain rfl := Except.ok.inj (hx.symm.trans hx')
  obtain rfl := Except.ok.inj (hy.symm.trans hy')
  exact hsame

/-! ## What is read of them -/

/-- Directions that are given in another order are the same directions. -/
theorem ReadsOrder.perm {table : String} {order order' : Value}
    {directions directions' : List (String × String)} (h : ReadsOrder table order directions)
    (h' : ReadsOrder table order' directions') (hapart : OrderApart order)
    (hsame : SameUpTo (· = ·) (entriesOrNone order) (entriesOrNone order')) :
    directions.Perm directions' := by
  obtain ⟨es, hes, hread⟩ := h
  obtain ⟨es', hes', hread'⟩ := h'
  refine hread.perm (hsame.rearranged hes hes').perm hread' (hapart es hes) fun e d d' hd hd' => ?_
  rw [hd] at hd'
  exact Value.text.inj (Prod.mk.inj (Except.ok.inj hd')).2

theorem ReadsOrder.canonical_eq {table : String} {order order' : Value}
    {directions directions' : List (String × String)} (h : ReadsOrder table order directions)
    (h' : ReadsOrder table order' directions') (hapart : OrderApart order)
    (hsame : SameUpTo (· = ·) (entriesOrNone order) (entriesOrNone order')) (key : List String) :
    canonicalOrder key directions = canonicalOrder key directions' := by
  have hperm := h.perm h' hapart hsame
  obtain ⟨es, -, hread⟩ := h
  unfold canonicalOrder
  simp only [Keyed.get?_of_perm hread.nodup hperm]

/-- Texts that are read off reordered elements are reordered. -/
theorem texts_perm {xs xs' : List Value} {ss ss' : List String} (h : Rearranged (· = ·) xs xs')
    (hxs : List.Forall₂ (fun x s => text x = .ok s) xs ss)
    (hxs' : List.Forall₂ (fun x s => text x = .ok s) xs' ss') : ss.Perm ss' := by
  refine (h.read hxs hxs' fun x x' s s' heq hs hs' => ?_).perm
  rw [heq, hs'] at hs
  exact (Checked.ok.inj hs).symm

/-- Views that are the same up to order have one canonical form. -/
theorem ReadsView.canonical_eq {table : String} {es es' : List (Value × Value)} {v w : View}
    (hv : ReadsView table es v) (hw : ReadsView table es' w) (hsame : RearrangesView es es')
    (hapart : OrderApart (part es "clustering_order")) : v.canonical = w.canonical := by
  have hkey : (v.partitionKey, v.clusteringKey) = (w.partitionKey, w.clusteringKey) := by
    have hkey := hv.key
    rw [hsame.key, hw.key] at hkey
    exact (Except.ok.inj hkey).symm
  obtain ⟨hpartition, hclustering⟩ := Prod.mk.inj hkey
  obtain ⟨columns, hcolumns, hselect⟩ := hv.select
  obtain ⟨columns', hcolumns', hselect'⟩ := hw.select
  have hperm := texts_perm (hsame.select.rearranged hcolumns hcolumns') hselect hselect'
  have hall : v.selectsAll = w.selectsAll := by
    unfold View.selectsAll
    rw [Bool.eq_iff_iff, List.contains_iff_mem, List.contains_iff_mem, hperm.mem_iff]
  have hdistinct : Ordered.distinct v.select = Ordered.distinct w.select :=
    Ordered.eq_of_mem_iff (Ordered.pairwise_distinct _) (Ordered.pairwise_distinct _) fun c => by
      rw [Ordered.mem_distinct, Ordered.mem_distinct, hperm.mem_iff]
  unfold View.canonical
  rw [hall, hdistinct, hpartition, hclustering, hv.order.canonical_eq hw.order hapart hsame.order]

theorem ReadsCustomIndex.nodup_options {es : List (Value × Value)} {i : IndexDeclaration}
    (hi : ReadsCustomIndex es i) :
    (Keyed.names (CustomIndex.ofDeclaration i).canonical.options).Nodup := by
  have hnodup : (Keyed.names i.options).Nodup := by
    rcases hi.options with ⟨-, hnone⟩ | ⟨os, -, hread⟩
    · rw [hnone]
      exact List.nodup_nil
    · exact hread.nodup
  unfold CustomIndex.canonical CustomIndex.ofDeclaration Keyed.names
  rw [List.map_map]
  exact hnodup

theorem ReadsCustomIndex.options_perm {es es' : List (Value × Value)} {i j : IndexDeclaration}
    (hi : ReadsCustomIndex es i) (hj : ReadsCustomIndex es' j)
    (hsame : RearrangesCustomIndex es es')
    (hapart : ∀ os, Value.get? es "options" = some (.map os) → KeysApart (os.map Prod.fst)) :
    i.options.Perm j.options := by
  rcases hsame.options with ⟨hnone, hnone'⟩ | ⟨os, os', hos, hos', hperm⟩
  · have hempty : i.options = [] := by simpa [hnone] using hi.options
    have hempty' : j.options = [] := by simpa [hnone'] using hj.options
    rw [hempty, hempty']
  · have hread : ReadsEntries (fun e v => e.2 = v) os i.options := by simpa [hos] using hi.options
    have hread' : ReadsEntries (fun e v => e.2 = v) os' j.options := by
      simpa [hos'] using hj.options
    exact hread.perm hperm hread' (hapart os hos) fun e v v' hv hv' => hv.symm.trans hv'

/-- Custom indexes that are the same up to order have one key. -/
theorem ReadsCustomIndex.key_eq {es es' : List (Value × Value)} {i j : IndexDeclaration}
    (hi : ReadsCustomIndex es i) (hj : ReadsCustomIndex es' j)
    (hsame : RearrangesCustomIndex es es')
    (hapart : ∀ os, Value.get? es "options" = some (.map os) → KeysApart (os.map Prod.fst)) :
    (CustomIndex.ofDeclaration i).canonical.key = (CustomIndex.ofDeclaration j).canonical.key := by
  have hcolumn : i.column = j.column := by
    obtain ⟨v, hv, hread⟩ := hi.column
    obtain ⟨w, hw, hread'⟩ := hj.column
    obtain rfl := Option.some.inj (hv.symm.trans (hsame.column.trans hw))
    exact Checked.ok.inj (hread.symm.trans hread')
  have himplementation : i.implementation = j.implementation := by
    obtain ⟨v, hv, hread⟩ := hi.implementation
    obtain ⟨w, hw, hread'⟩ := hj.implementation
    obtain rfl := Option.some.inj (hv.symm.trans (hsame.implementation.trans hw))
    exact Checked.ok.inj (hread.symm.trans hread')
  have hoptions := (hi.options_perm hj hsame hapart).map fun e => (e.1, e.2.display)
  unfold CustomIndex.key
  rw [(CustomIndex.payload_eq_iff (CustomIndex.canonical_canonical _)
    (CustomIndex.canonical_canonical _) hi.nodup_options hj.nodup_options).2]
  have heqv := (Keyed.eqv_iff_perm hi.nodup_options hj.nodup_options).2 hoptions
  unfold CustomIndex.eqv CustomIndex.canonical CustomIndex.ofDeclaration at *
  rw [heqv, hcolumn, himplementation]
  simp

/-! ## Canonical forms -/

section

variable {table : String} {es es' : List (Value × Value)} {d d' : TableDraft}
  (hd : Reads table es d) (hd' : Reads table es' d') (hsame : Rearranges es es')
include hd hd' hsame

theorem Reads.key_eq : d.partitionKey = d'.partitionKey ∧ d.clusteringKey = d'.clusteringKey := by
  have hkey := hd.key
  rw [hsame.key, hd'.key] at hkey
  exact Prod.mk.inj (Except.ok.inj hkey).symm

theorem Reads.indexes_perm : d.indexes.Perm d'.indexes := by
  obtain ⟨xs, hxs, hread⟩ := hd.indexes
  obtain ⟨xs', hxs', hread'⟩ := hd'.indexes
  exact texts_perm (hsame.indexes.rearranged hxs hxs') hread hread'

variable (hapart : NamesApart es)
include hapart

theorem Reads.fields_perm : d.fields.Perm d'.fields := by
  obtain ⟨fs, hfs, hread⟩ := hd.fields
  obtain ⟨fs', hfs', hread'⟩ := hd'.fields
  obtain ⟨gs, gs', hgs, hgs', hperm⟩ := hsame.fields
  obtain rfl := Value.map.inj (hfs.symm.trans hgs)
  obtain rfl := Value.map.inj (hfs'.symm.trans hgs')
  refine hread.perm hperm hread' (hapart.fields fs hfs) fun e f f' hf hf' => ?_
  rw [hf] at hf'
  exact Except.ok.inj hf'

/-- The keys of the canonical custom indexes are the same up to order. -/
theorem Reads.customKeys_perm :
    (d.customIndexes.map fun i => (CustomIndex.ofDeclaration i).canonical.key).Perm
      (d'.customIndexes.map fun i => (CustomIndex.ofDeclaration i).canonical.key) := by
  obtain ⟨xs, hxs, hread⟩ := hd.customIndexes
  obtain ⟨xs', hxs', hread'⟩ := hd'.customIndexes
  have hmem := (hsame.customIndexes.rearranged hxs hxs').imp_mem fun x x' hx hmaps =>
    And.intro hx hmaps
  have hkeys : ∀ (x x' : Value) (i j : IndexDeclaration),
      x ∈ xs ∧ Maps RearrangesCustomIndex x x' → parseCustomIndex x = .ok i →
        parseCustomIndex x' = .ok j → (CustomIndex.ofDeclaration i).canonical.key =
          (CustomIndex.ofDeclaration j).canonical.key := by
    rintro _ _ i j ⟨hx, is, is', rfl, rfl, hsame'⟩ hi hj
    obtain ⟨_, heq, hi⟩ := parseCustomIndex_ok hi
    obtain ⟨_, heq', hj⟩ := parseCustomIndex_ok hj
    cases heq
    cases heq'
    exact hi.key_eq hj hsame' (hapart.options xs hxs is hx)
  exact (hmem.read hread hread' hkeys).map_perm fun _ _ hij => hij

/-- The canonical views are the same up to order. -/
theorem Reads.views_perm : (d.views.map fun e => (e.1, e.2.canonical)).Perm
    (d'.views.map fun e => (e.1, e.2.canonical)) := by
  obtain ⟨vs, hvs, hread⟩ := hd.views
  obtain ⟨vs', hvs', hread'⟩ := hd'.views
  have hmem := (hsame.views.rearranged hvs hvs').imp_mem fun e e' he hee' =>
    And.intro hee'.1 (And.intro he hee'.2)
  obtain ⟨hkeys, horders⟩ := hapart.views vs hvs
  have hforms : ∀ (e e' : Value × Value) (v w : View), e ∈ vs ∧ Maps RearrangesView e.2 e'.2 →
      parseView e.1 e.2 table = .ok v → parseView e'.1 e'.2 table = .ok w →
        v.canonical = w.canonical := by
    rintro ⟨name, _⟩ ⟨name', _⟩ v w ⟨he, ves, ves', rfl, rfl, hsame'⟩ hv hw
    obtain ⟨_, heq, hv⟩ := parseView_ok hv
    obtain ⟨_, heq', hw⟩ := parseView_ok hw
    cases heq
    cases heq'
    exact hv.canonical_eq hw hsame' (horders _ he ves rfl)
  exact (hread.rearranged hmem hread' hkeys hforms).map_perm fun _ _ hpp' =>
    Prod.ext hpp'.1 hpp'.2

end

theorem Reads.nodup_options {table : String} {es : List (Value × Value)} {d : TableDraft}
    (hd : Reads table es d) {i : IndexDeclaration} (hi : i ∈ d.customIndexes) :
    (Keyed.names (CustomIndex.ofDeclaration i).canonical.options).Nodup := by
  obtain ⟨xs, -, hread⟩ := hd.customIndexes
  obtain ⟨x, -, hparse⟩ := forall₂_mem_right hread hi
  obtain ⟨is, -, hi⟩ := parseCustomIndex_ok hparse
  exact hi.nodup_options

end Definition

/-! ## Shapes up to order -/

namespace TableShape

/-- Two shapes are the same up to order, their views and custom indexes in canonical form. -/
structure Rearranges (s s' : TableShape) : Prop where
  columns : s.columns.Perm s'.columns
  partitionKey : s.partitionKey = s'.partitionKey
  clusteringKey : s.clusteringKey = s'.clusteringKey
  order : canonicalOrder s.clusteringKey s.clusteringOrder =
    canonicalOrder s'.clusteringKey s'.clusteringOrder
  indexes : s.indexes.Perm s'.indexes
  customIndexes : (s.customIndexes.map fun e => e.2.canonical.key).Perm
    (s'.customIndexes.map fun e => e.2.canonical.key)
  views : (s.views.map fun e => (e.1, e.2.canonical)).Perm
    (s'.views.map fun e => (e.1, e.2.canonical))

theorem mem_canonicalKeys (s : TableShape) (targets : List String) {key : String} :
    key ∈ Keyed.names (s.canonicalWith targets).customIndexes ↔
      key ∈ s.customIndexes.map fun e => e.2.canonical.key := by
  unfold canonicalWith
  simp [CustomIndex.mem_names_keyed]

/-- The canonical forms of shapes that are the same up to order match. -/
theorem Rearranges.matches {s s' : TableShape} {targets targets' : List String}
    (h : s.Rearranges s') (hnames : s.HasDistinctNames)
    (htargets : canonicalTargets s.indexes = .ok targets)
    (htargets' : canonicalTargets s'.indexes = .ok targets') :
    (s.canonicalWith targets).Matches (s'.canonicalWith targets') where
  columns name := by
    unfold canonicalWith
    rw [Keyed.get?_map, Keyed.get?_map, Keyed.get?_of_perm hnames.columns h.columns]
  key := by
    unfold sameKey canonicalWith
    dsimp only
    rw [h.partitionKey, h.order, h.clusteringKey, Keyed.eqv_self (View.nodup_canonicalOrder _ _)]
    simp
  indexes text := by
    change text ∈ targets ↔ text ∈ targets'
    rw [mem_canonicalTargets htargets, mem_canonicalTargets htargets']
    simp only [h.indexes.mem_iff]
  customIndexes key := by
    rw [mem_canonicalKeys, mem_canonicalKeys, h.customIndexes.mem_iff]
  views := by
    have hperm : (s.canonicalWith targets).views.Perm (s'.canonicalWith targets').views := h.views
    have hviews : (Keyed.names (s.canonicalWith targets).views).Nodup := by
      rw [names_canonicalViews]
      exact hnames.views
    have hviews' : (Keyed.names (s'.canonicalWith targets').views).Nodup :=
      (hperm.map Prod.fst).nodup_iff.1 hviews
    refine (Keyed.eqv_iff_values hviews hviews').2 ⟨fun name => ?_, fun name v w hv hw => ?_⟩
    · exact (hperm.map Prod.fst).mem_iff
    · rw [Keyed.get?_of_perm hviews hperm, hw] at hv
      obtain rfl := Option.some.inj hv
      exact View.eqv_self (nodup_viewOrder _ (Keyed.mem_of_get? hw))

end TableShape

/-! ## Registered tables -/

namespace Table

open Definition

variable {name definition definition' : Value} {t u : Table}

/-- A table that is registered from a map has its columns, views and options under distinct
names. -/
theorem hasDistinctNames_of_definition (h : ofDefinition name definition = .ok t) :
    t.shape.HasDistinctNames := by
  have hwell := Registered.wellFormed (.inl ⟨name, definition, h⟩)
  obtain ⟨table, es, d, -, -, hreads, hregister⟩ := ofDefinition_ok h
  obtain ⟨-, -, -, -, -, -, -, hcustom, -⟩ := TableDraft.register_ok hregister
  refine ⟨?_, hwell.views, fun e he => ?_⟩
  · have hnames := hwell.nodup_storedColumns
    unfold storedColumns Keyed.names at hnames
    rwa [List.map_map] at hnames
  · obtain ⟨i, hi, rfl⟩ := List.mem_map.1 he
    rw [hcustom] at hi
    exact (show (CustomIndex.ofDeclaration i).canonical.options =
      (CustomIndex.ofDeclaration i).options from rfl) ▸ hreads.nodup_options hi

/-- Definitions that are the same up to order declare shapes that are. -/
theorem shape_rearranges {es es' : List (Value × Value)}
    (ht : ofDefinition name (.map es) = .ok t) (hu : ofDefinition name (.map es') = .ok u)
    (hsame : Rearranges es es') (hapart : NamesApart es) : t.shape.Rearranges u.shape := by
  obtain ⟨table, _, d, rfl, heq, hd, hregister⟩ := ofDefinition_ok ht
  obtain ⟨_, _, d', htable, heq', hd', hregister'⟩ := ofDefinition_ok hu
  cases heq
  cases heq'
  cases htable
  obtain ⟨-, -, hfields, hpartition, hclustering, horder, hindexes, hcustom, hviews⟩ :=
    TableDraft.register_ok hregister
  obtain ⟨-, -, hfields', hpartition', hclustering', horder', hindexes', hcustom', hviews'⟩ :=
    TableDraft.register_ok hregister'
  obtain ⟨hkey, hkey'⟩ := hd.key_eq hd' hsame
  -- both are registered from parts that are rearranged, so the parts are compared one by one
  constructor
  · have hstored := ((hd.fields_perm hd' hsame hapart).map Prod.snd).filter
      fun f : Field => !f.isVirtual
    rw [← hfields, ← hfields'] at hstored
    exact hstored.map fun f => (f.name, f.column)
  · exact hpartition.trans (hkey.trans hpartition'.symm)
  · exact hclustering.trans (hkey'.trans hclustering'.symm)
  · change canonicalOrder t.clusteringKey t.clusteringOrder =
      canonicalOrder u.clusteringKey u.clusteringOrder
    rw [hclustering, hclustering', horder, horder', hkey',
      hd.order.canonical_eq hd'.order hapart.order hsame.order]
  · change t.indexes.Perm u.indexes
    rw [hindexes, hindexes']
    exact hd.indexes_perm hd' hsame
  · unfold shape
    rw [List.map_map, List.map_map, hcustom, hcustom']
    exact hd.customKeys_perm hd' hsame hapart
  · unfold shape
    rw [hviews, hviews']
    exact hd.views_perm hd' hsame hapart

/-- Definitions that are the same up to order declare tables that do not differ in anything: neither
of them has a difference from the other, and their canonical forms are the same if the digest tells
the contents of their custom indexes apart. -/
theorem ofDefinition_rearranged {es es' : List (Value × Value)}
    (ht : ofDefinition name (.map es) = .ok t) (hu : ofDefinition name (.map es') = .ok u)
    (hsame : Rearranges es es') (hapart : NamesApart es) :
    ∃ s s', (Describable.declared t).shape = .ok s ∧ (Describable.declared u).shape = .ok s' ∧
      (s.DigestSeparates s' → s.eqv s' = true) ∧
      (∃ d, Describable.diff (.declared t) (.declared u) = .ok d ∧ d.isEmpty = true) ∧
      ∃ d, Describable.diff (.declared u) (.declared t) = .ok d ∧ d.isEmpty = true := by
  have hread : ∀ {v : Table}, v.Registered → ∃ targets,
      TableShape.canonicalTargets v.indexes = .ok targets ∧
        (Describable.declared v).shape = .ok (v.shape.canonicalWith targets) := by
    intro v hv
    obtain ⟨targets, htargets⟩ := TableShape.canonicalTargets_ok fun text htext =>
      (hv.wellFormed.indexes text htext).imp fun _ htarget => htarget.1
    exact ⟨targets, htargets, Describable.canonicalOf_eq (s := v.shape) htargets⟩
  obtain ⟨targets, htargets, hshape⟩ := hread (.inl ⟨_, _, ht⟩)
  obtain ⟨targets', htargets', hshape'⟩ := hread (.inl ⟨_, _, hu⟩)
  have hs := Describable.HasDistinctNames.isCanonical (d := .declared t)
    (hasDistinctNames_of_definition ht) hshape
  have hs' := Describable.HasDistinctNames.isCanonical (d := .declared u)
    (hasDistinctNames_of_definition hu) hshape'
  have hmatches := (shape_rearranges ht hu hsame hapart).matches
    (hasDistinctNames_of_definition ht) htargets htargets'
  refine ⟨_, _, hshape, hshape', fun hdigest => (TableShape.eqv_iff hs hs' hdigest).2 hmatches,
    ⟨.between (t.shape.canonicalWith targets) (u.shape.canonicalWith targets'), ?_,
      (SchemaDiff.isEmpty_iff_matches hs hs').2 hmatches⟩,
    ⟨.between (u.shape.canonicalWith targets') (t.shape.canonicalWith targets), ?_,
      (SchemaDiff.isEmpty_iff_matches hs' hs).2 (SchemaDiff.matches_comm hs hs' hmatches)⟩⟩
  · unfold Describable.diff
    rw [hshape, hshape']
    rfl
  · unfold Describable.diff
    rw [hshape, hshape']
    rfl

/-! ### Measures of sensors -/

/-- The fields of measures. -/
def measureFields : List (Value × Value) := [
  (.text "sensor", .text "uuid"), (.text "day", .text "date"), (.text "hour", .text "int"),
  (.text "value", .text "double"), (.text "tags", .text "set<text>")]

/-- The directions in which measures are kept. -/
def measureOrder : List (Value × Value) := [
  (.text "day", .text "desc"), (.text "hour", .text "asc")]

/-- The indexed columns of measures. -/
def measureIndexes : List Value := [.text "value", .text "values(tags)"]

/-- The options of the custom index of measures. -/
def measureOptions : List (Value × Value) := [
  (.text "mode", .text "PREFIX"), (.text "case", .text "lower")]

/-- The columns of measures by day. -/
def measureColumns : List Value := [.text "day", .text "sensor", .text "hour"]

/-- The custom index of measures, its options being arranged. -/
def measureIndex (arrange : ∀ {α : Type}, List α → List α) : List (Value × Value) := [
  (.text "on", .text "value"), (.text "using", .text "sasi"),
  (.text "options", .map (arrange measureOptions))]

/-- The view of measures by day, its columns being arranged. -/
def measureView (arrange : ∀ {α : Type}, List α → List α) : List (Value × Value) := [
  (.text "key", .list [.text "day", .text "sensor", .text "hour"]),
  (.text "select", .list (arrange measureColumns))]

/-- Measures as a definition, what has no order of its own being arranged. -/
def measureEntries (arrange : ∀ {α : Type}, List α → List α) : List (Value × Value) := [
  (.text "fields", .map (arrange measureFields)),
  (.text "key", .list [.text "sensor", .text "day", .text "hour"]),
  (.text "clustering_order", .map (arrange measureOrder)),
  (.text "indexes", .list (arrange measureIndexes)),
  (.text "custom_indexes", .list [.map (measureIndex arrange)]),
  (.text "materialized_views", .map [(.text "by_day", .map (measureView arrange))])]

/-- The table that `measureEntries` declares. -/
def measures (arrange : ∀ {α : Type}, List α → List α) : Table where
  name := "measures"
  fields := arrange [{ name := "sensor", type := "uuid" }, { name := "day", type := "date" },
    { name := "hour", type := "int" }, { name := "value", type := "double" },
    { name := "tags", type := "set", argument := some "<text>" }]
  partitionKey := ["sensor"]
  clusteringKey := ["day", "hour"]
  clusteringOrder := arrange [("day", "DESC"), ("hour", "ASC")]
  indexes := arrange ["value", "values(tags)"]
  customIndexes := [⟨"value", "sasi", arrange [("mode", .text "PREFIX"), ("case", .text "lower")]⟩]
  views := [("by_day", ⟨arrange ["day", "sensor", "hour"], ["day"], ["sensor", "hour"], []⟩)]
  defaultTtl := none
  hooks := []

theorem measures_rearranges : Rearranges (measureEntries id) (measureEntries List.reverse) := by
  have hreversed : ∀ {α : Type} (xs : List α), Rearranged (· = ·) xs xs.reverse := fun xs =>
    .of_perm (List.reverse_perm xs).symm
  refine ⟨⟨measureFields, measureFields.reverse, ?_, ?_, (List.reverse_perm _).symm⟩, ?_,
    ⟨measureOrder, measureOrder.reverse, ?_, ?_, hreversed _⟩,
    ⟨measureIndexes, measureIndexes.reverse, ?_, ?_, hreversed _⟩,
    ⟨[.map (measureIndex id)], [.map (measureIndex List.reverse)], ?_, ?_, _, .refl _,
      .cons ⟨_, _, rfl, rfl, ?_, ?_, .inr ⟨measureOptions, measureOptions.reverse, ?_, ?_,
        (List.reverse_perm _).symm⟩⟩ .nil⟩,
    ⟨[(.text "by_day", .map (measureView id))], [(.text "by_day", .map (measureView List.reverse))],
      ?_, ?_, _, .refl _, .cons ⟨rfl, _, _, rfl, rfl, ?_, ⟨measureColumns, measureColumns.reverse,
        ?_, ?_, hreversed _⟩, ⟨[], [], ?_, ?_, .of_perm (.refl _)⟩⟩ .nil⟩⟩ <;>
    with_unfolding_all rfl

theorem measures_namesApart : NamesApart (measureEntries id) := by
  constructor
  · intro fs hfs
    rw [show part (measureEntries id) "fields" = .map measureFields by
      with_unfolding_all rfl] at hfs
    obtain rfl := Value.map.inj hfs
    exact Coercion.keysApart_texts (by decide : ["sensor", "day", "hour", "value", "tags"].Nodup)
  · intro os hos
    rw [show part (measureEntries id) "clustering_order" = .map measureOrder by
      with_unfolding_all rfl] at hos
    obtain rfl := Except.ok.inj hos
    exact Coercion.keysApart_texts (by decide : ["day", "hour"].Nodup)
  · intro xs hxs is his os hos
    rw [show customIndexesOf (measureEntries id) = .ok [.map (measureIndex id)] by
      with_unfolding_all rfl] at hxs
    obtain rfl := Except.ok.inj hxs
    obtain rfl := Value.map.inj (List.mem_singleton.1 his)
    rw [show Value.get? (measureIndex id) "options" = some (.map measureOptions) by
      with_unfolding_all rfl] at hos
    obtain rfl := Value.map.inj (Option.some.inj hos)
    exact Coercion.keysApart_texts (by decide : ["mode", "case"].Nodup)
  · intro vs hvs
    rw [show part (measureEntries id) "materialized_views" =
      .map [(.text "by_day", .map (measureView id))] by with_unfolding_all rfl] at hvs
    obtain rfl := Except.ok.inj hvs
    refine ⟨Coercion.keysApart_texts (by decide : ["by_day"].Nodup), fun e he ves hves os hos => ?_⟩
    obtain rfl := List.mem_singleton.1 he
    obtain rfl := Value.map.inj hves
    rw [show part (measureView id) "clustering_order" = .null by with_unfolding_all rfl] at hos
    obtain rfl := Except.ok.inj (hos : Except.ok [] = Except.ok os)
    exact List.Pairwise.nil

/-- The options of the index of measures have one content in both orders. -/
theorem measures_digestSeparates {s s' : TableShape}
    (hs : (Describable.declared (measures id)).shape = .ok s)
    (hs' : (Describable.declared (measures List.reverse)).shape = .ok s') :
    s.DigestSeparates s' := by
  obtain ⟨targets, -, rfl⟩ := TableShape.canonical_ok
    (Describable.canonicalOf_ok (s := (measures id).shape) hs)
  obtain ⟨targets', -, rfl⟩ := TableShape.canonical_ok
    (Describable.canonicalOf_ok (s := (measures List.reverse).shape) hs')
  intro e he f hf _
  have hindex : e.2 = ⟨"value", "sasi", [("mode", "PREFIX"), ("case", "lower")]⟩ :=
    (List.mem_singleton.1 (CustomIndex.mem_keyed he).1).trans (by decide)
  have hindex' : f.2 = ⟨"value", "sasi", [("case", "lower"), ("mode", "PREFIX")]⟩ :=
    (List.mem_singleton.1 (CustomIndex.mem_keyed hf).1).trans (by decide)
  rw [hindex, hindex']
  exact (CustomIndex.payload_eq_iff (by decide) (by decide) (by decide) (by decide)).2 (by decide)

/-- Measures are the same when everything that has no order of its own is given backwards. -/
theorem ofDefinition_rearranged_measures :
    ofDefinition (.text "measures") (.map (measureEntries id)) = .ok (measures id) ∧
    ofDefinition (.text "measures") (.map (measureEntries List.reverse)) =
      .ok (measures List.reverse) ∧
    Rearranges (measureEntries id) (measureEntries List.reverse) ∧
    NamesApart (measureEntries id) ∧
    ∃ s s', (Describable.declared (measures id)).shape = .ok s ∧
      (Describable.declared (measures List.reverse)).shape = .ok s' ∧ s.eqv s' = true ∧
      ∃ d, Describable.diff (.declared (measures id)) (.declared (measures List.reverse)) = .ok d ∧
        d.isEmpty = true := by
  have ht : ofDefinition (.text "measures") (.map (measureEntries id)) = .ok (measures id) := by
    with_unfolding_all rfl
  have hu : ofDefinition (.text "measures") (.map (measureEntries List.reverse)) =
      .ok (measures List.reverse) := by with_unfolding_all rfl
  obtain ⟨s, s', hs, hs', heqv, hdiff, -⟩ :=
    ofDefinition_rearranged ht hu measures_rearranges measures_namesApart
  exact ⟨ht, hu, measures_rearranges, measures_namesApart, s, s', hs, hs',
    heqv (measures_digestSeparates hs hs'), hdiff⟩

/-! ### Two keys for one field -/

/-- The fields of users, that for the name once under a text and once under its octets. -/
def twiceNamedFields (arrange : ∀ {α : Type}, List α → List α) : List (Value × Value) :=
  (.text "id", .text "uuid") :: arrange [
    (.text "name", .text "text"), (.octets .bytes [0x6E, 0x61, 0x6D, 0x65], .text "blob")]

/-- Users as a definition that gives the field for their names twice. -/
def twiceNamedEntries (arrange : ∀ {α : Type}, List α → List α) : List (Value × Value) := [
  (.text "fields", .map (twiceNamedFields arrange)),
  (.text "key", .list [.text "id"])]

/-- The table of users with a type for their names. -/
def twiceNamed (type : String) : Table where
  name := "users"
  fields := [{ name := "id", type := "uuid" }, { name := "name", type }]
  partitionKey := ["id"]
  clusteringKey := []
  clusteringOrder := []
  indexes := []
  customIndexes := []
  views := []
  defaultTtl := none
  hooks := []

/-- Both keys come down to one name, under which the later field stays. -/
theorem not_rearranged_twiceNamed :
    ofDefinition (.text "users") (.map (twiceNamedEntries id)) = .ok (twiceNamed "blob") ∧
    ofDefinition (.text "users") (.map (twiceNamedEntries List.reverse)) =
      .ok (twiceNamed "text") ∧
    Rearranges (twiceNamedEntries id) (twiceNamedEntries List.reverse) ∧
    ∃ s s', (Describable.declared (twiceNamed "blob")).shape = .ok s ∧
      (Describable.declared (twiceNamed "text")).shape = .ok s' ∧ s.eqv s' = false ∧
      ∃ d, Describable.diff (.declared (twiceNamed "blob")) (.declared (twiceNamed "text")) =
        .ok d ∧ d.isEmpty = false := by
  have hread : ∀ type, (Describable.declared (twiceNamed type)).shape =
      .ok ((twiceNamed type).shape.canonicalWith []) := fun type =>
    Describable.canonicalOf_eq (s := (twiceNamed type).shape) rfl
  refine ⟨by with_unfolding_all rfl, by with_unfolding_all rfl, ?_, _, _, hread _, hread _,
    by decide, .between ((twiceNamed "blob").shape.canonicalWith [])
      ((twiceNamed "text").shape.canonicalWith []), ?_, by decide⟩
  · refine ⟨⟨twiceNamedFields id, twiceNamedFields List.reverse, ?_, ?_,
      (List.reverse_perm _).symm.cons _⟩, ?_, ⟨[], [], ?_, ?_, .of_perm (.refl _)⟩,
      ⟨[], [], ?_, ?_, .of_perm (.refl _)⟩, ⟨[], [], ?_, ?_, _, .refl _, .nil⟩,
      ⟨[], [], ?_, ?_, _, .refl _, .nil⟩⟩ <;>
    with_unfolding_all rfl
  · unfold Describable.diff
    rw [hread, hread]
    rfl

end Table

end WideColumn
