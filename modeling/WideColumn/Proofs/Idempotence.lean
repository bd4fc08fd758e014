import Mathlib.Algebra.Order.BigOperators.Group.List
import WideColumn.Proofs.Exactness
import WideColumn.Proofs.Registration
import WideColumn.Proofs.Targets

/-!
# Canonical forms of canonical forms

A table that is read back in its canonical form should be the table that was declared: its canonical
form should be its own, and nothing should differ from the declaration. Keys, orders, custom indexes
and views have such forms whatever they are. The other parts have one exactly when the declaration
has a stable form (`Table.HasStableForm`): the argument of a column's type is not blanks and double
quotes alone, of which nothing would be left, and the form of an index target is not read as another
target. `Table.Registered.canonical_stable_iff` says so of every registered table.
-/

namespace WideColumn

/-! ## Columns -/

namespace Column

variable {c : Column}

/-- The argument of the column's type, if it has one, is more than blanks and double quotes. -/
def HasLegibleArgument (c : Column) : Prop :=
  ∀ a, c.argument = some a → a = "" ∨ ∃ d ∈ a.toList, Text.isSeparator d = false

/-- Something is left of an argument, if there is one, exactly when it has other characters. -/
theorem hasLegibleArgument_iff :
    c.HasLegibleArgument ↔ ColumnType.canonicalArgument c.argument ≠ some "" := by
  constructor
  · intro h hnothing
    cases hargument : c.argument with
    | none =>
      rw [hargument] at hnothing
      cases hnothing
    | some a =>
      rw [hargument, ColumnType.canonicalArgument_eq_empty] at hnothing
      obtain ⟨hne, hseparators⟩ := hnothing
      rcases h a hargument with ha | ⟨d, hd, hd'⟩
      · exact hne ha
      · rw [hseparators d hd] at hd'
        cases hd'
  · intro h a hargument
    rw [hargument, ne_eq, ColumnType.canonicalArgument_eq_empty] at h
    by_contra hnot
    rw [not_or, not_exists] at hnot
    refine h ⟨hnot.1, fun d hd => ?_⟩
    by_contra hd'
    exact hnot.2 d ⟨hd, by simpa using hd'⟩

/-- The canonical form of a column is its own unless nothing is left of its argument. -/
theorem canonical_canonical_iff (htype : ∃ type : ColumnType, c.type = type.name) :
    c.canonical.canonical = c.canonical ↔ c.HasLegibleArgument := by
  rw [hasLegibleArgument_iff]
  obtain ⟨name, argument, isStatic⟩ := c
  obtain ⟨type, rfl⟩ := htype
  obtain ⟨usual, husual, hcanonical⟩ := ColumnType.canonicalName_known type
  have hargument : (Column.mk type.name argument isStatic).canonical.canonical =
      (Column.mk type.name argument isStatic).canonical ↔
      ColumnType.canonicalArgument (ColumnType.canonicalArgument argument) =
        ColumnType.canonicalArgument argument := by
    simp only [Column.canonical, husual, hcanonical, mk.injEq, and_true, true_and]
  rw [hargument]
  constructor
  · intro h hnothing
    rw [hnothing] at h
    cases h
  · intro hsome
    cases argument with
    | none => rfl
    | some a =>
      cases hx : ColumnType.canonicalArgument (some a) with
      | none => rfl
      | some x =>
        refine ColumnType.canonicalArgument_canonicalArgument hx ?_
        rintro rfl
        exact hsome hx

end Column

/-! ## Index targets -/

/-- The canonical form of the target is read as a target of that form. -/
def IndexTarget.ReadsBack (target : IndexTarget) : Prop :=
  ∃ again, ofText target.canonical = .ok again ∧ again.canonical = target.canonical

namespace TableShape

/-- When targets stay as they are, so does each of them: were one replaced, the heaviest of those
that are would be missing. -/
theorem form_of_canonicalTargets_self {texts : List String}
    (h : canonicalTargets texts = .ok texts) {text : String} (htext : text ∈ texts) :
    ∃ target, IndexTarget.ofText text = .ok target ∧ target.canonical = text := by
  obtain ⟨bound, hbound⟩ : ∃ bound, ∀ text ∈ texts, IndexTarget.weight text.toList ≤ bound :=
    ⟨(texts.map fun text => IndexTarget.weight text.toList).sum, fun text htext =>
      List.single_le_sum (fun _ _ => Nat.zero_le _) _ (List.mem_map_of_mem htext)⟩
  -- each text is the form of another, which is heavier unless it is the text itself
  suffices ∀ n, ∀ text ∈ texts, bound - IndexTarget.weight text.toList < n →
      ∃ target, IndexTarget.ofText text = .ok target ∧ target.canonical = text from
    this _ text htext (Nat.lt_succ_self _)
  intro n
  induction n with
  | zero => exact fun _ _ hlt => absurd hlt (Nat.not_lt_zero _)
  | succ n ih =>
    intro text htext hlt
    obtain ⟨source, hsource, target, htarget, hform⟩ := (mem_canonicalTargets h).1 htext
    rcases IndexTarget.canonical_eq_or_lighter htarget with heq | hlighter
    · obtain rfl : text = source := hform.symm.trans heq
      exact ⟨target, htarget, hform⟩
    · rw [hform] at hlighter
      have hle := hbound source hsource
      obtain ⟨again, hagain, hfixed⟩ := ih source hsource (by omega)
      rw [htarget] at hagain
      cases hagain
      rw [← hfixed, hform] at hlighter
      exact absurd hlighter (lt_irrefl _)

/-- Targets in order stay as they are exactly when each of them does. -/
theorem canonicalTargets_self_iff {texts : List String} (hordered : texts.Pairwise (· < ·)) :
    canonicalTargets texts = .ok texts ↔
      ∀ text ∈ texts, ∃ target, IndexTarget.ofText text = .ok target ∧ target.canonical = text := by
  refine ⟨fun h _ => form_of_canonicalTargets_self h, fun h => ?_⟩
  obtain ⟨targets, htargets⟩ :=
    canonicalTargets_ok fun text htext => (h text htext).imp fun _ htarget => htarget.1
  have hsame : targets = texts := by
    refine Ordered.eq_of_mem_iff (pairwise_canonicalTargets htargets) hordered fun text => ?_
    rw [mem_canonicalTargets htargets]
    constructor
    · rintro ⟨source, hsource, target, htarget, rfl⟩
      obtain ⟨again, hagain, hform⟩ := h source hsource
      rw [htarget] at hagain
      cases hagain
      exact hform ▸ hsource
    · exact fun htext => ⟨text, htext, h text htext⟩
  rw [htargets, hsame]

/-- The forms of targets are canonical exactly when each target reads back. -/
theorem canonicalTargets_stable_iff {texts targets : List String}
    (h : canonicalTargets texts = .ok targets) : canonicalTargets targets = .ok targets ↔
      ∀ text ∈ texts, ∀ target, IndexTarget.ofText text = .ok target → target.ReadsBack := by
  rw [canonicalTargets_self_iff (pairwise_canonicalTargets h)]
  constructor
  · intro hforms text htext target htarget
    exact hforms _ ((mem_canonicalTargets h).2 ⟨text, htext, target, htarget, rfl⟩)
  · intro hback form hform
    obtain ⟨text, htext, target, htarget, rfl⟩ := (mem_canonicalTargets h).1 hform
    exact hback text htext target htarget

/-! ## Whole shapes -/

variable {s : TableShape} {targets again : List String}

/-- Of a canonical form everything but columns and index targets is canonical. -/
theorem canonicalWith_canonicalWith
    (hcolumns : ∀ e ∈ s.columns, e.2.canonical.canonical = e.2.canonical) :
    (s.canonicalWith targets).canonicalWith targets = s.canonicalWith targets := by
  have hcolumns' : (s.canonicalWith targets).columns.map (fun e => (e.1, e.2.canonical)) =
      (s.canonicalWith targets).columns := by
    unfold canonicalWith
    rw [List.map_map]
    exact List.map_congr_left fun e he => congrArg (Prod.mk e.1) (hcolumns e he)
  have hcustom : CustomIndex.keyed ((s.canonicalWith targets).customIndexes.map
      fun e => e.2.canonical) = (s.canonicalWith targets).customIndexes := by
    refine CustomIndex.keyed_keyed fun i hi => ?_
    obtain ⟨e, -, rfl⟩ := List.mem_map.1 hi
    exact CustomIndex.canonical_canonical e.2
  have hviews : (s.canonicalWith targets).views.map (fun e => (e.1, e.2.canonical)) =
      (s.canonicalWith targets).views := by
    unfold canonicalWith
    rw [List.map_map]
    exact List.map_congr_left fun e _ => congrArg (Prod.mk e.1) (View.canonical_canonical e.2)
  have horder := canonicalOrder_canonicalOrder s.clusteringKey s.clusteringOrder
  unfold canonicalWith at hcolumns' hcustom hviews ⊢
  dsimp only at hcolumns' hcustom hviews ⊢
  rw [hcolumns', hcustom, hviews, horder]

/-- A shape with distinct names differs from itself in nothing. -/
theorem between_self (hcolumns : (Keyed.names s.columns).Nodup)
    (horder : (Keyed.names s.clusteringOrder).Nodup) (hviews : (Keyed.names s.views).Nodup)
    (hviewOrders : ∀ e ∈ s.views, (Keyed.names e.2.clusteringOrder).Nodup) :
    (SchemaDiff.between s s).isEmpty = true := by
  have hview : SchemaDiff.changedViews s.views s.views = [] := by
    refine SchemaDiff.changedViews_eq_nil.2 fun e he => ?_
    rw [Keyed.holds_of_mem hviews he]
    exact View.eqv_self (hviewOrders e he)
  have hless : ∀ xs : List String, SchemaDiff.less xs xs = [] := fun xs =>
    SchemaDiff.less_eq_nil.2 fun x hx => hx
  have hkey : s.sameKey s = true := by
    unfold sameKey
    rw [Keyed.eqv_self horder]
    simp
  refine SchemaDiff.isEmpty_iff.2 ⟨?_, ?_, hless _, hless _, hless _, hless _, hview, hview⟩
  · exact (SchemaDiff.columnDiffs_eq_nil hcolumns hcolumns).2 fun _ => rfl
  · simp [SchemaDiff.between, hkey]

end TableShape

/-! ## Registered tables -/

namespace Table

variable {t : Table} {targets again : List String}

/-- What is declared keeps its canonical form when it is read again: something is left of each
argument of a type, and each index target reads back. -/
structure HasStableForm (t : Table) : Prop where
  columns : ∀ f ∈ t.storedFields, f.column.HasLegibleArgument
  indexes : ∀ text ∈ t.indexes, ∀ target, IndexTarget.ofText text = .ok target → target.ReadsBack

/-- Canonical columns and targets that are read as the same are those of a stable form. -/
theorem WellFormed.hasStableForm (hwell : t.WellFormed)
    (htargets : TableShape.canonicalTargets t.indexes = .ok targets)
    (hagain : TableShape.canonicalTargets targets = .ok again)
    (hcolumns : ∀ name, Keyed.get? ((t.shape.canonicalWith targets).canonicalWith again).columns name
      = Keyed.get? (t.shape.canonicalWith targets).columns name)
    (hindexes : ∀ text, text ∈ again ↔ text ∈ targets) : t.HasStableForm := by
  constructor
  · intro f hf
    have hmem : (f.name, f.column.canonical) ∈ t.storedColumns :=
      List.mem_map.2 ⟨(f.name, f.column), List.mem_map.2 ⟨f, hf, rfl⟩, rfl⟩
    have hget : Keyed.get? t.storedColumns f.name = some f.column.canonical :=
      Keyed.get?_of_mem hwell.nodup_storedColumns hmem
    have hsame := hcolumns f.name
    rw [show (t.shape.canonicalWith targets).columns = t.storedColumns from rfl, hget,
      show ((t.shape.canonicalWith targets).canonicalWith again).columns =
        t.storedColumns.map (fun e => (e.1, e.2.canonical)) from rfl, Keyed.get?_map, hget] at hsame
    exact (Column.canonical_canonical_iff (hwell.typeName hf)).1 (Option.some.inj hsame)
  · have heq : again = targets :=
      Ordered.eq_of_mem_iff (TableShape.pairwise_canonicalTargets hagain)
        (TableShape.pairwise_canonicalTargets htargets) hindexes
    rw [heq] at hagain
    exact (TableShape.canonicalTargets_stable_iff htargets).1 hagain

/-- A stable form is its own canonical form. -/
theorem HasStableForm.canonicalOf_eq (h : t.HasStableForm) (hwell : t.WellFormed)
    (htargets : TableShape.canonicalTargets t.indexes = .ok targets) :
    Describable.canonicalOf (t.shape.canonicalWith targets) =
      .ok (t.shape.canonicalWith targets) := by
  have hagain := (TableShape.canonicalTargets_stable_iff htargets).2 h.indexes
  rw [Describable.canonicalOf_eq (s := t.shape.canonicalWith targets) hagain,
    TableShape.canonicalWith_canonicalWith fun e he => ?_]
  obtain ⟨f, hf, rfl⟩ := List.mem_map.1 he
  exact (Column.canonical_canonical_iff (hwell.typeName hf)).2 (h.columns f hf)

/-- The form is stable when a live table in that form differs from the declaration in nothing. -/
theorem WellFormed.hasStableForm_of_diff (hwell : t.WellFormed)
    (htargets : TableShape.canonicalTargets t.indexes = .ok targets) {l : LiveTable}
    (hl : l.toTableShape = t.shape.canonicalWith targets) {d : SchemaDiff}
    (hd : Describable.diff (.live l) (.declared t) = .ok d) (hempty : d.isEmpty = true) :
    t.HasStableForm := by
  obtain ⟨again, declared, hagain, hdeclared, rfl⟩ := Describable.diff_ok hd
  rw [htargets] at hdeclared
  cases hdeclared
  rw [hl] at hagain hempty
  obtain ⟨hsame, -, hadded, hremoved, -, -, -, -⟩ := SchemaDiff.isEmpty_iff.1 hempty
  have hcolumns : (Keyed.names (t.shape.canonicalWith targets).columns).Nodup :=
    hwell.nodup_storedColumns
  refine hwell.hasStableForm htargets hagain
    ((SchemaDiff.columnDiffs_eq_nil ?_ hcolumns).1 hsame) fun text => ?_
  · rw [TableShape.names_canonicalColumns]
    exact hcolumns
  · exact ⟨SchemaDiff.less_eq_nil.1 hremoved text, SchemaDiff.less_eq_nil.1 hadded text⟩

/-- A live table in a stable form differs from the declaration in nothing. -/
theorem HasStableForm.diff_isEmpty (h : t.HasStableForm) (hwell : t.WellFormed)
    (htargets : TableShape.canonicalTargets t.indexes = .ok targets) {l : LiveTable}
    (hl : l.toTableShape = t.shape.canonicalWith targets) :
    ∃ d, Describable.diff (.live l) (.declared t) = .ok d ∧ d.isEmpty = true := by
  refine ⟨.between (t.shape.canonicalWith targets) (t.shape.canonicalWith targets), ?_, ?_⟩
  · unfold Describable.diff
    rw [show (Describable.live l).shape = Describable.canonicalOf l.toTableShape from rfl, hl,
      h.canonicalOf_eq hwell htargets,
      show (Describable.declared t).shape = Describable.canonicalOf t.shape from rfl,
      Describable.canonicalOf_eq htargets]
    rfl
  · refine TableShape.between_self hwell.nodup_storedColumns (View.nodup_canonicalOrder _ _) ?_
      TableShape.nodup_viewOrder
    rw [TableShape.names_canonicalViews]
    exact hwell.views

/-- The canonical form of a registered table is its own, and a live table in that form differs from
the declaration in nothing, exactly when the declaration has a stable form. A second canonical form
that is equal up to order is the first one. -/
theorem Registered.canonical_stable_iff (h : t.Registered) :
    ∃ s, (Describable.declared t).shape = .ok s ∧
      (Describable.canonicalOf s = .ok s ↔ t.HasStableForm) ∧
      (∀ s', Describable.canonicalOf s = .ok s' → s'.eqv s = true → s' = s) ∧
      ∀ l : LiveTable, l.toTableShape = s →
        ((∃ d, Describable.diff (.live l) (.declared t) = .ok d ∧ d.isEmpty = true) ↔
          t.HasStableForm) := by
  have hwell := h.wellFormed
  obtain ⟨targets, htargets⟩ : ∃ targets, TableShape.canonicalTargets t.indexes = .ok targets :=
    TableShape.canonicalTargets_ok fun text htext =>
      (hwell.indexes text htext).imp fun _ htarget => htarget.1
  refine ⟨_, Describable.canonicalOf_eq htargets, ⟨fun hsame => ?_, fun hstable => ?_⟩,
    fun s' hs' heqv => ?_, fun l hl => ⟨?_, fun hstable => ?_⟩⟩
  · obtain ⟨again, hagain, hform⟩ := TableShape.canonical_ok (Describable.canonicalOf_ok hsame)
    refine hwell.hasStableForm htargets hagain (fun name => ?_) fun text => ?_
    · rw [← hform]
    · rw [show again = targets from (congrArg TableShape.indexes hform).symm]
  · exact hstable.canonicalOf_eq hwell htargets
  · obtain ⟨again, hagain, rfl⟩ := TableShape.canonical_ok (Describable.canonicalOf_ok hs')
    unfold TableShape.eqv at heqv
    simp only [Bool.and_eq_true, beq_iff_eq] at heqv
    obtain ⟨⟨⟨⟨⟨⟨hsame, -⟩, -⟩, -⟩, hindexes⟩, -⟩, -⟩ := heqv
    have hcolumns : (Keyed.names (t.shape.canonicalWith targets).columns).Nodup :=
      hwell.nodup_storedColumns
    have hnames := hcolumns
    rw [← TableShape.names_canonicalColumns _ again] at hnames
    rw [Keyed.eqv_iff_get? hnames hcolumns] at hsame
    have hstable := hwell.hasStableForm htargets hagain hsame fun text =>
      iff_of_eq (congrArg (text ∈ ·) hindexes)
    rw [hstable.canonicalOf_eq hwell htargets] at hs'
    exact (Except.ok.inj hs').symm
  · rintro ⟨d, hd, hempty⟩
    exact hwell.hasStableForm_of_diff htargets hl hd hempty
  · exact hstable.diff_isEmpty hwell htargets hl

/-- Users with an index on the values of their tags, as a definition. -/
def taggedDefinition : Value := .map [
  (.text "fields", .map [
    (.text "id", .text "uuid"),
    (.text "tags", .map [(.text "type", .text "set"), (.text "type_def", .text "< VarChar >")])]),
  (.text "key", .list [.text "id"]),
  (.text "indexes", .list [.text "values(tags)"])]

/-- The table that `taggedDefinition` declares. -/
def tagged : Table where
  name := "users"
  fields := [{ name := "id", type := "uuid" },
    { name := "tags", type := "set", argument := some "< VarChar >" }]
  partitionKey := ["id"]
  clusteringKey := []
  clusteringOrder := []
  indexes := ["values(tags)"]
  customIndexes := []
  views := []
  defaultTtl := none
  hooks := []

/-- Neither the blanks of the argument nor the function of the index are in the canonical form. -/
theorem canonical_stable_tagged : tagged.Registered ∧ tagged.HasStableForm ∧
    ∃ s, (Describable.declared tagged).shape = .ok s ∧ Describable.canonicalOf s = .ok s := by
  have hregistered : tagged.Registered :=
    .inl ⟨.text "users", taggedDefinition, by with_unfolding_all rfl⟩
  have hstable : tagged.HasStableForm := by
    constructor
    · intro f hf a ha
      rcases List.mem_cons.1 hf with rfl | hf
      · cases ha
      · obtain rfl := List.mem_singleton.1 hf
        cases ha
        exact .inr ⟨'<', by decide, by decide⟩
    · intro text htext target htarget
      obtain rfl := List.mem_singleton.1 htext
      cases htarget
      exact ⟨⟨none, "tags"⟩, by with_unfolding_all rfl, rfl⟩
  obtain ⟨s, hs, hcanonical, -⟩ := hregistered.canonical_stable_iff
  exact ⟨hregistered, hstable, s, hs, hcanonical.2 hstable⟩

/-! ### An argument of blanks -/

/-- Users with a name whose type has a blank for an argument, as a definition. -/
def blankArgumentDefinition : Value := .map [
  (.text "fields", .map [
    (.text "id", .text "uuid"),
    (.text "name", .map [(.text "type", .text "text"), (.text "type_def", .text " ")])]),
  (.text "key", .list [.text "id"])]

/-- The table that `blankArgumentDefinition` declares. -/
def blankArgument : Table where
  name := "users"
  fields := [{ name := "id", type := "uuid" },
    { name := "name", type := "text", argument := some " " }]
  partitionKey := ["id"]
  clusteringKey := []
  clusteringOrder := []
  indexes := []
  customIndexes := []
  views := []
  defaultTtl := none
  hooks := []

/-- The live table that has what `blankArgument` declares, in canonical form. -/
def blankArgumentLive : LiveTable where
  table := "users"
  columns := [("id", { type := "uuid" }), ("name", { type := "text", argument := some "" })]
  partitionKey := ["id"]

/-- The empty argument that is left of a blank counts as none when it is read again. -/
theorem not_canonical_blankArgument :
    Table.ofDefinition (.text "users") blankArgumentDefinition = .ok blankArgument ∧
    (Describable.declared blankArgument).shape = .ok blankArgumentLive.toTableShape ∧
    Describable.canonicalOf blankArgumentLive.toTableShape ≠ .ok blankArgumentLive.toTableShape ∧
    ∃ d, Describable.diff (.live blankArgumentLive) (.declared blankArgument) = .ok d ∧
      d.isEmpty = false := by
  have hagain : Describable.canonicalOf blankArgumentLive.toTableShape =
      .ok (blankArgumentLive.toTableShape.canonicalWith []) := Describable.canonicalOf_eq rfl
  refine ⟨by with_unfolding_all rfl, by with_unfolding_all rfl, fun h => ?_,
    _, Describable.diff_eq rfl rfl, by with_unfolding_all rfl⟩
  rw [hagain] at h
  have hcolumns := congrArg TableShape.columns (Except.ok.inj h)
  exact absurd hcolumns (by decide)

end Table

end WideColumn
