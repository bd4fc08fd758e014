import WideColumn.Schema.Diff
import WideColumn.Proofs.Keyed
import WideColumn.Proofs.Outcome

/-!
# Canonical shapes

What the canonical form of a shape consists of, part by part, and what a difference between two
shapes says about their indexes and views.
-/

namespace WideColumn

/-! ## Canonical forms -/

namespace TableShape

/-- The canonical form of a shape whose index targets can be read. -/
def canonicalWith (s : TableShape) (targets : List String) : TableShape where
  columns := s.columns.map fun e => (e.1, e.2.canonical)
  partitionKey := s.partitionKey
  clusteringKey := s.clusteringKey
  clusteringOrder := canonicalOrder s.clusteringKey s.clusteringOrder
  indexes := targets
  customIndexes := CustomIndex.keyed (s.customIndexes.map fun e => e.2.canonical)
  views := s.views.map fun e => (e.1, e.2.canonical)

theorem names_canonicalColumns (s : TableShape) (targets : List String) :
    Keyed.names (s.canonicalWith targets).columns = Keyed.names s.columns := by
  simp only [canonicalWith, Keyed.names, List.map_map]
  rfl

theorem names_canonicalViews (s : TableShape) (targets : List String) :
    Keyed.names (s.canonicalWith targets).views = Keyed.names s.views := by
  simp only [canonicalWith, Keyed.names, List.map_map]
  rfl

/-- Each view of a canonical form has every direction once. -/
theorem nodup_viewOrder {s : TableShape} {targets : List String} :
    ∀ e ∈ (s.canonicalWith targets).views, (Keyed.names e.2.clusteringOrder).Nodup := by
  intro e he
  obtain ⟨e', -, rfl⟩ := List.mem_map.1 he
  exact Keyed.nodup_ofList _

theorem canonical_ok {s c : TableShape} (h : s.canonical = .ok c) :
    ∃ targets, canonicalTargets s.indexes = .ok targets ∧ c = s.canonicalWith targets := by
  obtain ⟨targets, htargets, h⟩ := of_bind_ok h
  exact ⟨targets, htargets, (Except.ok.inj h).symm⟩

/-- Texts that have canonical forms can be read. -/
theorem reads_of_canonicalTargets {texts targets : List String}
    (h : canonicalTargets texts = .ok targets) :
    ∀ text ∈ texts, ∃ target, IndexTarget.ofText text = .ok target := by
  obtain ⟨read, hread, -⟩ := of_bind_ok h
  intro text htext
  obtain ⟨target, -, htarget⟩ := exists_mem_zip (forall₂_of_mapM hread) htext
  exact ⟨target, htarget⟩

/-- The canonical targets are those that the texts are read as. -/
theorem mem_canonicalTargets {texts targets : List String}
    (h : canonicalTargets texts = .ok targets) {x : String} :
    x ∈ targets ↔ ∃ text ∈ texts, ∃ target, IndexTarget.ofText text = .ok target ∧
      target.canonical = x := by
  obtain ⟨read, hread, h⟩ := of_bind_ok h
  cases h
  rw [Ordered.mem_distinct, List.mem_map]
  have hread := forall₂_of_mapM hread
  constructor
  · rintro ⟨target, htarget, rfl⟩
    obtain ⟨text, htext, hof⟩ := forall₂_mem_right hread htarget
    exact ⟨text, htext, target, hof, rfl⟩
  · rintro ⟨text, htext, target, hof, rfl⟩
    obtain ⟨target', htarget', hof'⟩ := forall₂_mem_right hread.flip htext
    rw [hof'] at hof
    cases hof
    exact ⟨target, htarget', rfl⟩

end TableShape

namespace CustomIndex

theorem mem_insertOrdered {i : CustomIndex} {e : String × CustomIndex} :
    ∀ {es : List (String × CustomIndex)}, e ∈ insertOrdered i es ↔ e = (i.key, i) ∨ e ∈ es
  | [] => by simp [insertOrdered]
  | (k, j) :: es => by
    unfold insertOrdered
    split
    · exact List.mem_cons
    · rw [List.mem_cons, mem_insertOrdered, List.mem_cons]
      tauto

theorem mem_foldl_insertOrdered {e : String × CustomIndex} (is : List CustomIndex) :
    e ∈ is.foldl (fun acc i => insertOrdered i acc) [] ↔ e.2 ∈ is ∧ e.1 = e.2.key := by
  suffices ∀ (is : List CustomIndex) (acc : List (String × CustomIndex)),
      e ∈ is.foldl (fun acc i => insertOrdered i acc) acc ↔
        (e.2 ∈ is ∧ e.1 = e.2.key) ∨ e ∈ acc from
    (this is []).trans ⟨fun h => h.resolve_right List.not_mem_nil, .inl⟩
  intro is
  induction is with
  | nil => exact fun acc => ⟨.inr, fun h => h.resolve_left fun h => nomatch h.1⟩
  | cons i is ih =>
    intro acc
    rw [List.foldl_cons, ih, mem_insertOrdered, List.mem_cons, Prod.ext_iff]
    constructor
    · rintro (h | ⟨hkey, hindex⟩ | h)
      · exact .inl ⟨.inr h.1, h.2⟩
      · exact .inl ⟨.inl hindex, hindex ▸ hkey⟩
      · exact .inr h
    · rintro (⟨hindex | hmem, hkey⟩ | h)
      · exact .inr (.inl ⟨hindex ▸ hkey, hindex⟩)
      · exact .inl ⟨hmem, hkey⟩
      · exact .inr (.inr h)

/-- Each index is under its key. -/
theorem mem_keyed {is : List CustomIndex} {e : String × CustomIndex} (h : e ∈ keyed is) :
    e.2 ∈ is ∧ e.1 = e.2.key :=
  (mem_foldl_insertOrdered is).1 (Keyed.mem_of_mem_ofList h)

/-- The keys are those of the indexes. -/
theorem mem_names_keyed {is : List CustomIndex} {key : String} :
    key ∈ Keyed.names (keyed is) ↔ ∃ i ∈ is, i.key = key := by
  rw [keyed, Keyed.mem_names_ofList]
  constructor
  · intro h
    obtain ⟨e, he, rfl⟩ := List.mem_map.1 h
    obtain ⟨hmem, hkey⟩ := (mem_foldl_insertOrdered is).1 he
    exact ⟨e.2, hmem, hkey.symm⟩
  · rintro ⟨i, hi, rfl⟩
    exact List.mem_map.2 ⟨(i.key, i), (mem_foldl_insertOrdered is).2 ⟨hi, rfl⟩, rfl⟩

/-- Custom indexes that are under the keys of their canonical forms have just these keys. -/
theorem mem_keyed_of_keys {es : List (String × CustomIndex)}
    (h : ∀ e ∈ es, e.2.canonical.key = e.1) {key : String} :
    key ∈ Keyed.names (keyed (es.map fun e => e.2.canonical)) ↔ key ∈ Keyed.names es := by
  rw [mem_names_keyed]
  constructor
  · rintro ⟨i, hi, rfl⟩
    obtain ⟨e, he, rfl⟩ := List.mem_map.1 hi
    exact h e he ▸ List.mem_map_of_mem he
  · intro hkey
    obtain ⟨e, he, rfl⟩ := List.mem_map.1 hkey
    exact ⟨e.2.canonical, List.mem_map_of_mem he, h e he⟩

/-- Keys of custom indexes that are canonical, under their keys, are the keys of their canonical
forms. -/
theorem mem_keyed_canonical {es : List (String × CustomIndex)}
    (h : ∀ e ∈ es, e.1 = e.2.key ∧ e.2.canonical = e.2) {key : String} :
    key ∈ Keyed.names (keyed (es.map fun e => e.2.canonical)) ↔ key ∈ Keyed.names es :=
  mem_keyed_of_keys fun e he => by
    obtain ⟨hkey, hcanonical⟩ := h e he
    rw [hcanonical, hkey]

theorem pairwise_insertOrdered (i : CustomIndex) : ∀ {es : List (String × CustomIndex)},
    (Keyed.names es).Pairwise (· ≤ ·) → (Keyed.names (insertOrdered i es)).Pairwise (· ≤ ·)
  | [], _ => List.pairwise_singleton _ _
  | (k, j) :: es, h => by
    obtain ⟨hfirst, hrest⟩ := List.pairwise_cons.1 h
    unfold insertOrdered
    split
    · rename_i hlt
      refine List.pairwise_cons.2 ⟨fun key hkey => ?_, h⟩
      rcases List.mem_cons.1 hkey with rfl | hkey
      · exact le_of_lt hlt
      · exact le_of_lt (lt_of_lt_of_le hlt (hfirst key hkey))
    · rename_i hnot
      refine List.pairwise_cons.2 ⟨fun key hkey => ?_, pairwise_insertOrdered i hrest⟩
      obtain ⟨e, he, rfl⟩ := List.mem_map.1 hkey
      rcases mem_insertOrdered.1 he with rfl | he
      · exact not_lt.1 hnot
      · exact hfirst e.1 (List.mem_map_of_mem he)

/-- Indexes are kept in the order of their keys. -/
theorem pairwise_keyed (is : List CustomIndex) : (Keyed.names (keyed is)).Pairwise (· < ·) := by
  have hordered : (Keyed.names (is.foldl (fun acc i => insertOrdered i acc) [])).Pairwise
      (· ≤ ·) := by
    suffices ∀ acc : List (String × CustomIndex), (Keyed.names acc).Pairwise (· ≤ ·) →
        (Keyed.names (is.foldl (fun acc i => insertOrdered i acc) acc)).Pairwise (· ≤ ·) from
      this [] List.Pairwise.nil
    induction is with
    | nil => exact fun acc h => h
    | cons i is ih => exact fun acc h => ih _ (pairwise_insertOrdered i h)
  have hnodup : (Keyed.names (keyed is)).Nodup := Keyed.nodup_ofList _
  exact (hordered.sublist (Keyed.names_ofList_sublist _)).imp₂ (fun _ _ hle hne =>
    lt_of_le_of_ne hle hne) hnodup

/-- An index with the greatest key comes last. -/
theorem insertOrdered_last {i : CustomIndex} : ∀ {es : List (String × CustomIndex)},
    (∀ key ∈ Keyed.names es, key < i.key) → insertOrdered i es = es ++ [(i.key, i)]
  | [], _ => rfl
  | (k, j) :: es, h => by
    obtain ⟨hfirst, hrest⟩ := List.forall_mem_cons.1 h
    rw [insertOrdered, if_neg (lt_asymm hfirst), insertOrdered_last hrest]
    rfl

/-- Indexes that are under their keys and in the order of the keys stay as they are. -/
theorem keyed_values {es : List (String × CustomIndex)} (hkeys : ∀ e ∈ es, e.1 = e.2.key)
    (hordered : (Keyed.names es).Pairwise (· < ·)) : keyed (es.map (·.2)) = es := by
  have hfold : (es.map (·.2)).foldl (fun acc i => insertOrdered i acc) [] = es := by
    suffices ∀ (es acc : List (String × CustomIndex)), (∀ e ∈ es, e.1 = e.2.key) →
        (Keyed.names (acc ++ es)).Pairwise (· < ·) →
        (es.map (·.2)).foldl (fun acc i => insertOrdered i acc) acc = acc ++ es from
      this es [] hkeys hordered
    intro es
    induction es with
    | nil => exact fun acc _ _ => (List.append_nil acc).symm
    | cons e es ih =>
      intro acc hkeys hordered
      obtain ⟨hkey, hrest⟩ := List.forall_mem_cons.1 hkeys
      have hlast : ∀ key ∈ Keyed.names acc, key < e.2.key := by
        rw [Keyed.names, List.map_append, List.pairwise_append] at hordered
        intro key hmem
        rw [← hkey]
        exact hordered.2.2 key hmem e.1 List.mem_cons_self
      have hentry : (e.2.key, e.2) = e := by rw [← hkey]
      rw [List.map_cons, List.foldl_cons, insertOrdered_last hlast, hentry, ih _ hrest,
        List.append_assoc]
      · rfl
      · rwa [List.append_assoc]
  unfold keyed
  rw [hfold, Keyed.ofList_of_nodup (hordered.imp ne_of_lt)]

/-- Canonical custom indexes stay as they are. -/
theorem keyed_keyed {is : List CustomIndex} (h : ∀ i ∈ is, i.canonical = i) :
    keyed ((keyed is).map fun e => e.2.canonical) = keyed is := by
  have hvalues : (keyed is).map (fun e => e.2.canonical) = (keyed is).map (·.2) :=
    List.map_congr_left fun e he => h e.2 (mem_keyed he).1
  rw [hvalues, keyed_values (fun e he => (mem_keyed he).2) (pairwise_keyed is)]

end CustomIndex

namespace View

theorem nodup_canonicalOrder (key : List String) (order : List (String × String)) :
    (Keyed.names (canonicalOrder key order)).Nodup := Keyed.nodup_ofList _

/-- Sameness of views does not depend on the side. -/
theorem eqv_comm {v w : View} (hv : (Keyed.names v.clusteringOrder).Nodup)
    (hw : (Keyed.names w.clusteringOrder).Nodup) : v.eqv w = w.eqv v := by
  unfold eqv
  rw [Keyed.eqv_comm hv hw, BEq.comm, BEq.comm (a := v.partitionKey),
    BEq.comm (a := v.clusteringKey)]

theorem eqv_self {v : View} (hv : (Keyed.names v.clusteringOrder).Nodup) : v.eqv v = true := by
  unfold eqv
  rw [Keyed.eqv_self hv]
  simp

end View

namespace Describable

theorem canonicalOf_ok {s c : TableShape} (h : canonicalOf s = .ok c) : s.canonical = .ok c := by
  unfold canonicalOf at h
  split at h
  · rename_i s' hs'
    rw [hs', Except.ok.inj h]
  · cases h

/-- The canonical shape of a live table has its views under their names. -/
theorem names_views {l : LiveTable} {c : TableShape} (h : (Describable.live l).shape = .ok c) :
    Keyed.names c.views = Keyed.names l.views := by
  obtain ⟨targets, -, rfl⟩ := TableShape.canonical_ok (canonicalOf_ok h)
  simp only [TableShape.canonicalWith, Keyed.names, List.map_map]
  rfl

/-- A difference is one between two canonical forms. -/
theorem diff_ok {l : LiveTable} {t : Table} {d : SchemaDiff}
    (h : Describable.diff (.live l) (.declared t) = .ok d) :
    ∃ targets declared, TableShape.canonicalTargets l.indexes = .ok targets ∧
      TableShape.canonicalTargets t.indexes = .ok declared ∧
      d = .between (l.canonicalWith targets) (t.shape.canonicalWith declared) := by
  obtain ⟨live, hlive, h⟩ := of_bind_ok h
  obtain ⟨shape, hshape, h⟩ := of_bind_ok h
  obtain ⟨targets, htargets, rfl⟩ := TableShape.canonical_ok (canonicalOf_ok hlive)
  obtain ⟨declared, hdeclared, rfl⟩ := TableShape.canonical_ok (canonicalOf_ok hshape)
  exact ⟨targets, declared, htargets, hdeclared, (Except.ok.inj h).symm⟩

end Describable

/-! ## What a difference says -/

/-- Each text with the property is in the list once, and no other is. -/
def EachOnce (xs : List String) (p : String → Prop) : Prop := xs.Nodup ∧ ∀ x, x ∈ xs ↔ p x

namespace SchemaDiff

theorem mem_less {x : String} {xs ys : List String} : x ∈ less xs ys ↔ x ∈ xs ∧ x ∉ ys := by
  unfold less
  simp [Ordered.mem_distinct]

theorem nodup_less (xs ys : List String) : (less xs ys).Nodup := Ordered.nodup_distinct _

theorem mem_changedViews {name : String} {xs ys : List (String × View)} :
    name ∈ changedViews xs ys ↔
      ∃ v, (name, v) ∈ xs ∧ Keyed.holds View.eqv ys name v = false := by
  unfold changedViews
  simp [Ordered.mem_distinct]

theorem nodup_changedViews (xs ys : List (String × View)) : (changedViews xs ys).Nodup :=
  Ordered.nodup_distinct _

/-- A view that the other side has under the name in another form differs from there too. -/
theorem changedViews_comm {name : String} {xs ys : List (String × View)}
    (hxs : (Keyed.names xs).Nodup) (hys : (Keyed.names ys).Nodup)
    (hxsOrder : ∀ e ∈ xs, (Keyed.names e.2.clusteringOrder).Nodup)
    (hysOrder : ∀ e ∈ ys, (Keyed.names e.2.clusteringOrder).Nodup)
    (h : name ∈ changedViews xs ys) (hmem : name ∈ Keyed.names ys) : name ∈ changedViews ys xs := by
  obtain ⟨v, hv, hholds⟩ := mem_changedViews.1 h
  obtain ⟨⟨_, w⟩, hw, rfl⟩ := List.mem_map.1 hmem
  refine mem_changedViews.2 ⟨w, hw, ?_⟩
  rw [Keyed.holds_of_mem hys hw] at hholds
  rw [Keyed.holds_of_mem hxs hv]
  exact (View.eqv_comm (hxsOrder _ hv) (hysOrder _ hw)).trans hholds

end SchemaDiff

end WideColumn
