import WideColumn.Schema.Introspection
import WideColumn.Proofs.Creatable
import WideColumn.Proofs.Rearrangement
import WideColumn.Proofs.Sorting
import WideColumn.Proofs.Targets

/-!
# How the store describes a table

The store describes a table in rows of its system tables: a row for each column, with the place of
the column in the key, one for each index and one for each view, the columns of a view being
described like those of a table. Introspection reads each of these rows back, and rebuilds keys from
the positions, so that the order of the rows does not count.
-/

namespace WideColumn

/-- The number that a value is, zero standing for what is none. -/
def Value.number : Value → Int
  | .int n => n
  | _ => 0

/-! ## Values under texts -/

namespace Introspection

open Coercion

variable {α β : Type}

theorem any_texts (es : List (String × β)) (g : β → α) (name : String) :
    (es.map fun e => (Value.text e.1, g e.2)).any (fun f => (Value.text name).eqv f.1) = true ↔
      name ∈ Keyed.names es := by
  simp [Value.eqv_text, Keyed.names]

/-- Putting values under texts is putting them under names. -/
theorem putAll_texts (g : β → α) (es : List (String × β)) :
    putAll (es.map fun e => (Value.text e.1, g e.2)) =
      (Keyed.ofList es).map fun e => (.text e.1, g e.2) := by
  unfold putAll Keyed.ofList
  suffices ∀ acc : List (String × β), (Keyed.names acc).Nodup →
      (es.map fun e => (Value.text e.1, g e.2)).foldl (fun acc e =>
        if acc.any fun f => e.1.eqv f.1 then
          acc.map fun f => if e.1.eqv f.1 then (f.1, e.2) else f
        else acc ++ [e]) (acc.map fun e => (Value.text e.1, g e.2)) =
      (es.foldl (fun acc e => Keyed.put e.1 e.2 acc) acc).map fun e => (Value.text e.1, g e.2) from
    this [] List.nodup_nil
  induction es with
  | nil => exact fun _ _ => rfl
  | cons e es ih =>
    intro acc hnodup
    rw [List.map_cons, List.foldl_cons, List.foldl_cons, ← ih _ (Keyed.nodup_put hnodup)]
    congr 1
    by_cases hmem : e.1 ∈ Keyed.names acc
    · rw [if_pos ((any_texts acc g e.1).2 hmem), Keyed.put_of_mem hnodup hmem, List.map_map,
        List.map_map]
      refine List.map_congr_left fun f _ => ?_
      simp only [Function.comp_apply, Value.eqv_text, beq_iff_eq, eq_comm (a := e.1)]
      split <;> rfl
    · rw [if_neg (mt (any_texts acc g e.1).1 hmem), Keyed.put_of_notMem hmem, List.map_append]
      rfl

/-- Values that are put under texts are checked under names. -/
theorem entriesOf_putAll {check : α → Checked β} {g : β → α} (h : ∀ b, check (g b) = .ok b)
    (es : List (String × β)) :
    entriesOf check (putAll (es.map fun e => (.text e.1, g e.2))) = .ok (Keyed.ofList es) := by
  have hread : List.Forall₂ (fun (e : Value × α) (p : String × β) =>
      Checked.map2 Prod.mk (((text e.1).under "[key]").under (keyStep e.1))
        ((check e.2).under (keyStep e.1)) = .ok p)
      ((Keyed.ofList es).map fun e => (.text e.1, g e.2)) (Keyed.ofList es) := by
    rw [List.forall₂_map_left_iff]
    refine List.forall₂_same.2 fun e _ => ?_
    dsimp only
    rw [h]
    rfl
  rw [putAll_texts]
  unfold entriesOf
  rw [Checked.all_ok hread]
  exact congrArg Checked.ok (Keyed.ofList_of_nodup (Keyed.nodup_ofList es))

/-- Texts that are put under texts are read as texts under names. -/
theorem mapOf_putAll (es : List (String × String)) :
    mapOf text (.map (putAll (es.map fun e => (.text e.1, .text e.2)))) = .ok (Keyed.ofList es) :=
  entriesOf_putAll (g := Value.text) (fun _ => rfl) es

theorem keyed_putAll (es : List (String × α)) :
    keyed (putAll (es.map fun e => (.text e.1, e.2))) = .ok (Keyed.ofList es) :=
  entriesOf_putAll (g := id) (fun _ => rfl) es

theorem positioned_texts (ss : List String) : positioned text (ss.map Value.text) = .ok ss :=
  positioned_ok (List.forall₂_map_left_iff.2 (List.forall₂_same.2 fun _ _ => rfl))

/-- The columns that a view selects: all of them, or those that have a row. -/
def selected (row : Row) (columns : List Row) : Except Failure (List Value) :=
  if (part row "include_all_columns").isTrue then pure [Value.text "*"] else columnNames columns

theorem view_eq (row : Row) (columns : List Row) : view row columns = (do
    let clustering ← keyColumns columns "clustering"
    let select ← selected row columns
    let partition ← keyColumns columns "partition_key"
    let order ← clusteringOrder columns
    (View.mk <$> (positioned text select).under "select"
      <*> (positioned text partition).under "partition_key"
      <*> (positioned text clustering).under "clustering_key"
      <*> (mapOf text (.map order)).under "clustering_order").toExcept "NormalizedView") := by
  unfold view selected
  refine bind_congr fun clustering => ?_
  split <;> rfl

/-- A list of rows each of which is read well. -/
theorem mapM_map {γ : Type} {f : β → Except Failure γ} {row : α → β} {g : α → γ} {xs : List α}
    (h : ∀ x ∈ xs, f (row x) = .ok (g x)) : (xs.map row).mapM f = .ok (xs.map g) := by
  refine mapM_of_forall₂ ?_
  rw [List.forall₂_map_left_iff, List.forall₂_map_right_iff]
  exact List.forall₂_same.2 h

/-! ### Rows that name their columns -/

section

variable {α : Type} {xs : List α} {row : α → Row} {name : α → String}
  (hname : ∀ x ∈ xs, requiredPart (row x) "column_name" = .ok (.text (name x)))

include hname

/-- The columns of a kind are put in the order of their positions. -/
theorem keyColumns_map {position : α → Int} (kind : String)
    (hposition : ∀ x ∈ xs, Value.get? (row x) "position" = some (.int (position x))) :
    ∃ ys : List α, keyColumns (xs.map row) kind = .ok (ys.map fun y => .text (name y)) ∧
      ys.Perm (xs.filter fun x => isKind kind (row x)) ∧ Sorting.OrderedBy position ys := by
  let entry (x : α) : Value × Row := (.int (position x), row x)
  let chosen := xs.filter fun x => isKind kind (row x)
  have hchosen : chosen ⊆ xs := List.filter_subset_self _
  have hcompares : Sorting.ComparesBy (fun e f => Value.less e.1 f.1)
      (fun e : Value × Row => e.1.number) (chosen.map entry) := by
    intro e he f hf
    obtain ⟨x, -, rfl⟩ := List.mem_map.1 he
    obtain ⟨y, -, rfl⟩ := List.mem_map.1 hf
    exact Value.less_int _ _
  have hentries : ((xs.map row).filter (isKind kind)).map (fun row =>
      ((Value.get? row "position").getD (.int 0), row)) = chosen.map entry := by
    rw [List.filter_map, List.map_map]
    refine List.map_congr_left fun x hx => ?_
    simp only [Function.comp_apply, hposition x (hchosen hx), Option.getD_some, entry]
  obtain ⟨_, hsort, hperm, hordered⟩ := Sorting.sort_ordered hcompares
  obtain ⟨ys, rfl, hys⟩ := exists_of_perm_map hperm
  rw [Sorting.OrderedBy, List.pairwise_map] at hordered
  refine ⟨ys, ?_, hys, hordered⟩
  unfold keyColumns sortByKey
  dsimp only
  rw [hentries, hsort]
  exact mapM_map fun y hy => hname y (hchosen (hys.subset hy))

/-- The names of all columns are put in order. -/
theorem columnNames_map : ∃ ys : List α,
    columnNames (xs.map row) = .ok (ys.map fun y => .text (name y)) ∧ ys.Perm xs := by
  let entry (x : α) : Value × Row := (.text (name x), row x)
  have hcompares : Sorting.ComparesBy (fun e f => Value.less e.1 f.1)
      (fun e : Value × Row => (e.1.text?).getD "") (xs.map entry) := by
    intro e he f hf
    obtain ⟨x, -, rfl⟩ := List.mem_map.1 he
    obtain ⟨y, -, rfl⟩ := List.mem_map.1 hf
    exact Value.less_text _ _
  have hnamed : (xs.map row).mapM (fun row => do
      return (← requiredPart row "column_name", row)) = .ok (xs.map entry) :=
    mapM_map fun x hx => by
      rw [hname x hx]
      rfl
  obtain ⟨_, hsort, hperm, -⟩ := Sorting.sort_ordered hcompares
  obtain ⟨ys, rfl, hys⟩ := exists_of_perm_map hperm
  refine ⟨ys, ?_, hys⟩
  unfold columnNames sortByKey
  rw [hnamed]
  simp only [bind, Except.bind, hsort]
  simp [entry, Except.mapError, pure, Except.pure]

/-- The directions of the clustering columns are read in the order of their rows. -/
theorem clusteringOrder_map : clusteringOrder (xs.map row) =
    .ok (putAll (((xs.filter fun x => isKind "clustering" (row x)).map
      fun x => (name x, direction (row x))).map fun e => (.text e.1, .text e.2))) := by
  have hentries : ((xs.map row).filter (isKind "clustering")).mapM (fun row => do
      let name ← requiredPart row "column_name"
      name.checkKey
      return (name, Value.text (direction row))) =
        .ok ((xs.filter fun x => isKind "clustering" (row x)).map
          fun x => (.text (name x), .text (direction (row x)))) := by
    rw [List.filter_map]
    refine mapM_map fun x hx => ?_
    rw [hname x (List.mem_of_mem_filter hx)]
    rfl
  unfold clusteringOrder
  rw [hentries, List.map_map]
  rfl

end

end Introspection

/-! ## Rows of columns -/

/-- Where a column stands: at a position of the key, or outside of it. -/
inductive Place where
  | partition (position : Nat)
  | clustering (position : Nat)
  | static
  | regular

namespace Place

/-- The word for the place. -/
def kind : Place → String
  | partition _ => "partition_key"
  | clustering _ => "clustering"
  | static => "static"
  | regular => "regular"

/-- The position in the part of the key, -1 outside of it. -/
def position : Place → Int
  | partition n | clustering n => n
  | static | regular => -1

@[simp] theorem kind_partition (n : Nat) : (partition n).kind = "partition_key" := rfl

@[simp] theorem kind_clustering (n : Nat) : (clustering n).kind = "clustering" := rfl

@[simp] theorem kind_static : static.kind = "static" := rfl

@[simp] theorem kind_regular : regular.kind = "regular" := rfl

/-- The place of a column outside of the key. -/
def outside (isStatic : Bool) : Place := if isStatic then static else regular

@[simp] theorem kind_outside (isStatic : Bool) :
    (outside isStatic).kind = if isStatic then "static" else "regular" := by cases isStatic <;> rfl

end Place

/-- What the store says of the columns of a table or a view. -/
structure Layout where
  partitionKey : List String
  clusteringKey : List String
  /-- The columns outside of the key. -/
  others : List String
  direction : String → String
  typeText : String → String
  isStatic : String → Bool

namespace Layout

/-- Every column with its place. -/
def places (l : Layout) : List (String × Place) :=
  l.partitionKey.zipIdx.map (fun c => (c.1, .partition c.2)) ++
    l.clusteringKey.zipIdx.map (fun c => (c.1, .clustering c.2)) ++
    l.others.map fun c => (c, .outside (l.isStatic c))

/-- The direction of a column as its row has it. -/
def order (l : Layout) : String × Place → String
  | (c, .clustering _) => Text.lower (l.direction c)
  | _ => "none"

/-- The row of a column. -/
def row (l : Layout) (keyspace table : String) (c : String × Place) : Introspection.Row := [
  (.text "keyspace_name", .text keyspace), (.text "table_name", .text table),
  (.text "column_name", .text c.1), (.text "clustering_order", .text (l.order c)),
  (.text "kind", .text c.2.kind), (.text "position", .int c.2.position),
  (.text "type", .text (l.typeText c.1))]

/-- A direction is ascending or descending. -/
def IsDirection (direction : String) : Prop := direction = "ASC" ∨ direction = "DESC"

instance (direction : String) : Decidable (IsDirection direction) :=
  inferInstanceAs (Decidable (_ ∨ _))

theorem isDirection_get? {order : List (String × String)} (h : ∀ e ∈ order, IsDirection e.2)
    (column : String) : IsDirection ((Keyed.get? order column).getD "ASC") := by
  cases horder : Keyed.get? order column with
  | none => exact .inl rfl
  | some direction => exact h _ (Keyed.mem_of_get? horder)

section

variable (l : Layout) (keyspace table : String) (c : String × Place)

theorem isKind_row (kind : String) :
    Introspection.isKind kind (l.row keyspace table c) = (c.2.kind == kind) := by
  simp [Introspection.isKind, Introspection.part, row, Value.get?_text_cons, Value.eqv_text]

theorem name_row : Introspection.requiredPart (l.row keyspace table c) "column_name" =
    .ok (.text c.1) := by
  simp [Introspection.requiredPart, row, Value.get?_text_cons]

theorem position_row : Value.get? (l.row keyspace table c) "position" =
    some (.int c.2.position) := by
  simp [row, Value.get?_text_cons]

theorem type_row : Introspection.requiredPart (l.row keyspace table c) "type" =
    .ok (.text (l.typeText c.1)) := by
  simp [Introspection.requiredPart, row, Value.get?_text_cons]

theorem order_row : Introspection.part (l.row keyspace table c) "clustering_order" =
    .text (l.order c) := by
  simp [Introspection.part, row, Value.get?_text_cons]

variable {l c}

/-- The row of a canonical column is read as the column under its name. -/
theorem column_row {column : Column} (htext : l.typeText c.1 = column.typeText)
    (hreadable : column.HasReadableType) (hcanonical : column.canonical = column)
    (hstatic : (c.2.kind == "static") = column.isStatic) :
    Introspection.column (l.row keyspace table c) = .ok (.text c.1, column) := by
  obtain ⟨argument, hsplit, hargument⟩ := hreadable.split?
  have hread : ColumnType.split (.text (l.typeText c.1)) = .ok (column.type, argument) := by
    unfold ColumnType.split
    simp [htext, hsplit]
  unfold Introspection.column
  rw [type_row, name_row, isKind_row, hstatic]
  simp only [bind, Except.bind, hread, hargument]
  exact congrArg (fun column => Except.ok (Value.text c.1, column)) hcanonical

/-- The direction of a clustering column is read back from small letters. -/
theorem direction_row {n : Nat} (hplace : c.2 = .clustering n)
    (h : IsDirection (l.direction c.1)) :
    Introspection.direction (l.row keyspace table c) = l.direction c.1 := by
  obtain ⟨name, place⟩ := c
  obtain rfl : place = .clustering n := hplace
  have horder : Introspection.part (l.row keyspace table (name, .clustering n)) "clustering_order" =
      .text (Text.lower (l.direction name)) := order_row l keyspace table (name, .clustering n)
  unfold Introspection.direction
  rw [horder]
  dsimp only at h ⊢
  rcases h with h | h <;> rw [h] <;> decide

end

/-! ## The key -/

section

variable {l : Layout} {keyspace table : String} {ps : List (String × Place)}

/-- The columns of a kind are put in the order of their positions. -/
theorem keyColumns_rows {kind : String} {cs : List (String × Place)}
    (hperm : (ps.filter fun c => c.2.kind == kind).Perm cs)
    (hordered : cs.Pairwise fun c d => c.2.position < d.2.position) :
    Introspection.keyColumns (ps.map (l.row keyspace table)) kind =
      .ok (cs.map fun c => .text c.1) := by
  obtain ⟨ys, hys, hperm', hle⟩ := Introspection.keyColumns_map
    (fun c _ => l.name_row keyspace table c) kind fun c _ => l.position_row keyspace table c
  simp only [isKind_row] at hperm'
  have hperm := hperm'.trans hperm
  have hnodup : (ys.map fun c => c.2.position).Nodup := by
    rw [(hperm.map _).nodup_iff]
    exact List.pairwise_map.2 (hordered.imp ne_of_lt)
  have hcs : Sorting.OrderedBy (fun c : String × Place => c.2.position) cs :=
    hordered.imp le_of_lt
  rw [hys, hle.eq_of_perm hcs hnodup hperm]

/-- The names of all columns are listed. -/
theorem columnNames_rows (l : Layout) (keyspace table : String) (ps : List (String × Place)) :
    ∃ names : List String,
    Introspection.columnNames (ps.map (l.row keyspace table)) = .ok (names.map .text) ∧
      names.Perm (ps.map (·.1)) := by
  obtain ⟨ys, hys, hperm⟩ :=
    Introspection.columnNames_map fun c (_ : c ∈ ps) => l.name_row keyspace table c
  exact ⟨ys.map (·.1), by rw [hys, List.map_map]; rfl, hperm.map _⟩

/-- The directions of the clustering columns are read in the order of their rows. -/
theorem clusteringOrder_rows (h : ∀ c, IsDirection (l.direction c)) :
    Introspection.clusteringOrder (ps.map (l.row keyspace table)) =
      .ok (Introspection.putAll
        (((ps.filter fun c => c.2.kind == "clustering").map fun c => (c.1, l.direction c.1)).map
          fun e => (.text e.1, .text e.2))) := by
  rw [Introspection.clusteringOrder_map fun c _ => l.name_row keyspace table c]
  simp only [isKind_row]
  congr 3
  refine List.map_congr_left fun c hc => ?_
  obtain ⟨n, hplace⟩ : ∃ n, c.2 = .clustering n := by
    have hkind := (List.mem_filter.1 hc).2
    cases hplace : c.2 with
    | clustering n => exact ⟨n, rfl⟩
    | _ => simp [hplace, Place.kind] at hkind
  rw [direction_row keyspace table hplace (h c.1)]

end

/-! ## Whole layouts -/

section

variable (l : Layout)

theorem names_places : l.places.map (·.1) = l.partitionKey ++ l.clusteringKey ++ l.others := by
  simp [places, Function.comp_def]

theorem pairwise_positions (names : List String) (place : Nat → Place)
    (h : ∀ n, (place n).position = n) :
    (names.zipIdx.map fun c => (c.1, place c.2)).Pairwise
      fun c d => c.2.position < d.2.position := by
  have hindexes : (names.zipIdx.map Prod.snd).Pairwise (· < ·) := by
    rw [List.zipIdx_map_snd]
    exact List.pairwise_lt_range'
  rw [List.pairwise_map] at hindexes ⊢
  refine hindexes.imp fun hlt => ?_
  simpa [h] using hlt

theorem places_partition : (l.places.filter fun c => c.2.kind == "partition_key") =
    l.partitionKey.zipIdx.map fun c => (c.1, .partition c.2) := by
  have hothers : ∀ c, (Place.outside (l.isStatic c)).kind ≠ "partition_key" := by
    intro c
    cases l.isStatic c <;> simp
  simp [places, List.filter_map, Function.comp_def, hothers, -Place.kind_outside]

theorem places_clustering : (l.places.filter fun c => c.2.kind == "clustering") =
    l.clusteringKey.zipIdx.map fun c => (c.1, .clustering c.2) := by
  have hothers : ∀ c, (Place.outside (l.isStatic c)).kind ≠ "clustering" := by
    intro c
    cases l.isStatic c <;> simp
  simp [places, List.filter_map, Function.comp_def, hothers, -Place.kind_outside]

/-- What is made of the names in their places is made of the names. -/
theorem map_zipIdx {α : Type} (names : List String) (place : Nat → Place) (g : String → α) :
    (names.zipIdx.map fun c => (c.1, place c.2)).map (fun c => g c.1) = names.map g := by
  rw [List.map_map]
  change names.zipIdx.map (g ∘ Prod.fst) = _
  rw [← List.map_map, List.zipIdx_map_fst]

end

/-- What is read of the key in the rows of all columns. -/
structure ReadsKey (l : Layout) (rows : List Introspection.Row) : Prop where
  partition : Introspection.keyColumns rows "partition_key" = .ok (l.partitionKey.map .text)
  clustering : Introspection.keyColumns rows "clustering" = .ok (l.clusteringKey.map .text)
  order : ∃ key : List String, key.Perm l.clusteringKey ∧ Introspection.clusteringOrder rows =
    .ok (Introspection.putAll
      ((key.map fun c => (c, l.direction c)).map fun e => (.text e.1, .text e.2)))

/-- The key is rebuilt from rows in any order. -/
theorem readsKey {l : Layout} (h : ∀ c, IsDirection (l.direction c)) (keyspace table : String)
    {ps : List (String × Place)} (hperm : ps.Perm l.places) :
    l.ReadsKey (ps.map (l.row keyspace table)) := by
  have hpartition := (hperm.filter fun c => c.2.kind == "partition_key").trans
    (.of_eq l.places_partition)
  have hclustering := (hperm.filter fun c => c.2.kind == "clustering").trans
    (.of_eq l.places_clustering)
  refine ⟨?_, ?_, (ps.filter fun c => c.2.kind == "clustering").map (·.1), ?_, ?_⟩
  · rw [keyColumns_rows hpartition (pairwise_positions _ _ fun _ => rfl), map_zipIdx]
  · rw [keyColumns_rows hclustering (pairwise_positions _ _ fun _ => rfl), map_zipIdx]
  · refine (hclustering.map (·.1)).trans (.of_eq ?_)
    exact (map_zipIdx l.clusteringKey .clustering id).trans (List.map_id _)
  · rw [clusteringOrder_rows h, List.map_map (f := fun c : String × Place => c.1)]
    rfl

/-- The order that is read has the directions of the key. -/
theorem canonicalOrder_read {key clustering : List String} (hperm : key.Perm clustering)
    (direction : String → String) {order : List (String × String)}
    (h : ∀ c ∈ clustering, direction c = (Keyed.get? order c).getD "ASC") :
    canonicalOrder clustering (Keyed.ofList (key.map fun c => (c, direction c))) =
      canonicalOrder clustering order := by
  unfold canonicalOrder
  congr 1
  refine List.map_congr_left fun c hc => ?_
  rw [Keyed.get?_ofList_map (hperm.mem_iff.2 hc), Option.getD_some, h c hc]

end Layout

/-! ## Rows of views -/

namespace View

/-- What the store says of the columns of a view of a table with these columns. -/
def layout (v : View) (columns : List (String × Column)) : Layout where
  partitionKey := v.partitionKey
  clusteringKey := v.clusteringKey
  others := (if v.selectsAll then Keyed.names columns else v.select).filter (· ∉ v.keyColumns)
  direction c := (Keyed.get? v.clusteringOrder c).getD "ASC"
  typeText c := ((Keyed.get? columns c).map Column.typeText).getD ""
  isStatic _ := false

/-- The row of a view. -/
def row (keyspace table : String) (e : String × View) : Introspection.Row := [
  (.text "keyspace_name", .text keyspace), (.text "view_name", .text e.1),
  (.text "base_table_name", .text table), (.text "include_all_columns", .bool e.2.selectsAll)]

/-- Directions are given as words, and the columns that are listed hold those of the key. -/
structure IsDescribable (v : View) : Prop where
  canonical : v.canonical = v
  directions : ∀ e ∈ v.clusteringOrder, Layout.IsDirection e.2
  key : v.selectsAll = true ∨ v.keyColumns ⊆ v.select

variable {v : View}

/-- The columns of a view that lists its columns are those that it lists. -/
theorem IsDescribable.mem_names_places (h : v.IsDescribable) (columns : List (String × Column))
    (hlists : v.selectsAll = false) (c : String) :
    c ∈ (v.layout columns).places.map (·.1) ↔ c ∈ v.select := by
  have hkey : v.keyColumns ⊆ v.select := h.key.resolve_left (by simp [hlists])
  have hmem := @hkey c
  rw [Layout.names_places]
  simp only [layout, hlists, keyColumns, List.mem_append, List.mem_filter] at hmem ⊢
  by_cases hc : c ∈ v.partitionKey ∨ c ∈ v.clusteringKey
  · simp [hc, hmem hc]
  · simp [hc]

/-- The columns that a view selects are read back up to their order. -/
theorem IsDescribable.selected_rows (h : v.IsDescribable) (keyspace table name : String)
    (columns : List (String × Column)) {ps : List (String × Place)}
    (hperm : ps.Perm (v.layout columns).places) :
    ∃ select : List String,
      Introspection.selected (row keyspace table (name, v))
        (ps.map ((v.layout columns).row keyspace name)) = .ok (select.map .text) ∧
      select.contains "*" = v.select.contains "*" ∧
      (if v.selectsAll then ["*"] else Ordered.distinct select) = v.select := by
  have hincludes : Introspection.part (row keyspace table (name, v)) "include_all_columns" =
      .bool v.selectsAll := by
    simp [Introspection.part, row, Value.get?_text_cons]
  have hform := congrArg View.select h.canonical
  unfold View.canonical at hform
  unfold Introspection.selected
  rw [hincludes]
  cases hall : v.selectsAll with
  | true =>
    rw [hall] at hform
    exact ⟨["*"], rfl, hall.symm, hform⟩
  | false =>
    rw [hall] at hform
    obtain ⟨select, hselect, hnames⟩ :=
      Layout.columnNames_rows (v.layout columns) keyspace name ps
    have hmem : ∀ c, c ∈ select ↔ c ∈ v.select := by
      intro c
      rw [hnames.mem_iff, (hperm.map _).mem_iff, h.mem_names_places columns hall]
    refine ⟨select, hselect, ?_, ?_⟩
    · rw [Bool.eq_iff_iff, List.contains_iff_mem, List.contains_iff_mem, hmem]
    · refine Eq.trans ?_ hform
      refine Ordered.eq_of_mem_iff (Ordered.pairwise_distinct _) (Ordered.pairwise_distinct _) ?_
      simp [Ordered.mem_distinct, hmem]

/-- A view is read back from its row and the rows of its columns. -/
theorem IsDescribable.view_rows (h : v.IsDescribable) (keyspace table name : String)
    (columns : List (String × Column)) {ps : List (String × Place)}
    (hperm : ps.Perm (v.layout columns).places) :
    ∃ w, Introspection.view (row keyspace table (name, v))
      (ps.map ((v.layout columns).row keyspace name)) = .ok w ∧ w.canonical = v := by
  obtain ⟨hpartition, hclustering, key, hkey, horder⟩ :=
    Layout.readsKey (Layout.isDirection_get? h.directions) keyspace name hperm
  obtain ⟨select, hselect, hall, hform⟩ := h.selected_rows keyspace table name columns hperm
  refine ⟨⟨select, v.partitionKey, v.clusteringKey,
    Keyed.ofList (key.map fun c => (c, (v.layout columns).direction c))⟩, ?_, ?_⟩
  · rw [Introspection.view_eq, hclustering, hselect, hpartition, horder]
    simp only [bind, Except.bind, Introspection.mapOf_putAll, Introspection.positioned_texts]
    rfl
  · have hdirections : canonicalOrder v.clusteringKey
        (Keyed.ofList (key.map fun c => (c, (v.layout columns).direction c))) =
          v.clusteringOrder :=
      (Layout.canonicalOrder_read hkey _ fun _ _ => rfl).trans
        (congrArg View.clusteringOrder h.canonical)
    unfold View.canonical
    unfold selectsAll at hform ⊢
    dsimp only
    rw [hall, hform, hdirections]

end View

/-! ## Rows of indexes -/

/-- The index can be told apart from the other entries of its options: it is on a column, and has no
option under the names of the target and the implementation. -/
structure CustomIndex.IsDescribable (i : CustomIndex) : Prop where
  column : Name.IsIdentifier i.column
  options : (Keyed.names i.options).Nodup
  target : "target" ∉ Keyed.names i.options
  implementation : "class_name" ∉ Keyed.names i.options

namespace Introspection

namespace FoundIndex

/-- The name of the index. -/
def name : FoundIndex → Value
  | onTarget _ name | custom _ name => name

/-- The word for the kind of index. -/
def kind : FoundIndex → String
  | onTarget .. => "COMPOSITES"
  | custom .. => "CUSTOM"

/-- The options of an index, with what it is on and, for a custom index, its implementation. -/
def options : FoundIndex → List (Value × Value)
  | onTarget target _ => [(.text "target", .text target)]
  | custom i _ =>
    (.text "target", .text i.column) :: (.text "class_name", .text i.implementation) ::
      i.options.map fun e => (.text e.1, .text e.2)

/-- The row of an index. -/
def row (keyspace table : String) (f : FoundIndex) : Row := [
  (.text "keyspace_name", .text keyspace), (.text "table_name", .text table),
  (.text "index_name", f.name), (.text "kind", .text f.kind), (.text "options", .map f.options)]

/-- The index can be read back from its row. -/
def IsDescribable : FoundIndex → Prop
  | onTarget target _ => ∃ t, IndexTarget.ofText target = .ok t ∧ t.canonical = target
  | custom i _ => i.IsDescribable

end FoundIndex

theorem without_texts {key : String} {es : List (String × String)} (h : key ∉ Keyed.names es) :
    without key (es.map fun e => (.text e.1, .text e.2)) =
      es.map fun e => (.text e.1, .text e.2) := by
  refine List.filter_eq_self.2 fun e he => ?_
  obtain ⟨f, hf, rfl⟩ := List.mem_map.1 he
  have hne : f.1 ≠ key := fun heq => h (heq ▸ Keyed.mem_names_of_mem hf)
  simp [Value.eqv_text, hne]

theorem without_cons (key name : String) (v : Value) (es : List (Value × Value)) :
    without key ((.text name, v) :: es) =
      if name = key then without key es else (.text name, v) :: without key es := by
  unfold without
  rw [List.filter_cons]
  by_cases heq : name = key <;> simp [Value.eqv_text, heq]

/-- A custom index is read back from its options. -/
theorem customIndex_options {i : CustomIndex} (h : i.IsDescribable) (name : Value) :
    customIndex (.text i.column) (without "target" (FoundIndex.custom i name).options) = .ok i := by
  have hcolumn : IndexTarget.ofText (IndexTarget.canonical ⟨none, i.column⟩) =
      .ok ⟨none, i.column⟩ := IndexTarget.ofText_canonical h.column
  have htarget : IndexTarget.ofValue (.text i.column) = .ok ⟨none, i.column⟩ :=
    congrArg (Except.mapError Failure.badValue) hcolumn
  have hown : without "target" (FoundIndex.custom i name).options =
      (.text "class_name", .text i.implementation) ::
        i.options.map fun e => (.text e.1, .text e.2) := by
    unfold FoundIndex.options
    rw [without_cons, if_pos rfl, without_cons, if_neg (by decide), without_texts h.target]
  unfold customIndex
  rw [htarget, hown, Value.get?_text_cons, if_pos rfl, without_cons, if_pos rfl,
    without_texts h.implementation]
  have hoptions : ((i.options.map fun e => (Value.text e.1, Value.text e.2)).map
      fun e => (e.1.display, e.2.display)) = i.options := by
    rw [List.map_map]
    exact List.map_id _
  simp only [bind, Except.bind, hoptions, Keyed.ofList_of_nodup h.options]
  rfl

/-- An index is read back from its row. -/
theorem index_row {f : FoundIndex} (h : f.IsDescribable) (keyspace table : String) :
    index (f.row keyspace table) = .ok f := by
  have hoptions : part (f.row keyspace table) "options" = .map f.options := by
    simp [part, FoundIndex.row, Value.get?_text_cons]
  have hkind : isKind "CUSTOM" (f.row keyspace table) = (f.kind == "CUSTOM") := by
    simp [isKind, part, FoundIndex.row, Value.get?_text_cons, Value.eqv_text]
  have hname : requiredPart (f.row keyspace table) "index_name" = .ok f.name := by
    simp [requiredPart, FoundIndex.row, Value.get?_text_cons]
  have hgiven : (Value.map f.options).isTrue = true := by cases f <;> rfl
  unfold index
  simp only [hoptions, hgiven, if_true, Value.toEntries, bind, Except.bind, hkind, hname]
  cases f with
  | onTarget target name =>
    obtain ⟨t, htarget, hcanonical⟩ := h
    have hread : IndexTarget.ofValue (.text target) = .ok t :=
      congrArg (Except.mapError Failure.badValue) htarget
    simp [FoundIndex.options, FoundIndex.kind, FoundIndex.name, Value.get?_text_cons, hread,
      hcanonical, pure, Except.pure]
  | custom i name =>
    have hread := customIndex_options h name
    have htarget : Value.get? (FoundIndex.custom i name).options "target" =
        some (.text i.column) := by
      simp [FoundIndex.options, Value.get?_text_cons]
    simp [htarget, hread, FoundIndex.kind, FoundIndex.name, pure, Except.pure]

end Introspection

end WideColumn
