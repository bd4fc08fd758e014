import WideColumn.Proofs.Provision

/-!
# Clauses of statements on rows

A statement on rows is written of plain parts, of clauses, which are keywords with items of their
kind, and of lists in brackets (`Statement.parts`, `Statement.written_parts`). It is complete when
no clause and no list is empty, the lists are equally long, and rows are found before they are
changed or deleted (`Statement.IsComplete`).

A clause is written when something is asked for, and what is asked for may have no items: an order
by the columns of an empty list, or a condition under keys that shape an answer. So a statement is
complete unless the operation asks for such a clause (`Operation.compile_isComplete_iff`).
-/

namespace WideColumn

/-! ## Parts of a statement -/

/-- A clause with its items. -/
inductive Clause where
  | find (rs : List Relation)
  | group (columns : List Identifier)
  | order (columns : List (Identifier × Direction))
  | assign (assignments : List Assignment)
  | demand (rs : List Relation)
  | demandExists
  | demandAbsent

namespace Clause

/-- The keyword of a clause. -/
def keyword : Clause → String
  | find _ => " WHERE "
  | group _ => " GROUP BY "
  | order _ => " ORDER BY "
  | assign _ => " SET "
  | demand _ | demandExists | demandAbsent => " IF "

/-- The texts of the items. -/
def items : Clause → List String
  | find rs | demand rs => rs.map Relation.render
  | group columns => columns.map Identifier.quoted
  | order columns => columns.map fun c => c.1.quoted ++ " " ++ c.2.keyword
  | assign assignments => assignments.map Assignment.render
  | demandExists => ["EXISTS"]
  | demandAbsent => ["NOT EXISTS"]

/-- What stands between items. -/
def separator : Clause → String
  | find _ | demand _ => " AND "
  | _ => ", "

/-- The text of a clause. -/
def render (c : Clause) : String := c.keyword ++ c.separator.intercalate c.items

theorem render_find (rs : List Relation) : (find rs).render = " WHERE " ++ Relation.clause rs := rfl

theorem render_assign (assignments : List Assignment) : (assign assignments).render =
    " SET " ++ ", ".intercalate (assignments.map Assignment.render) := rfl

end Clause

/-- A part of a statement. -/
inductive Part where
  | plain (text : String)
  | clause (c : Clause)
  /-- A list between brackets. -/
  | list (items : List String)

/-- The text of a part. -/
def Part.render : Part → String
  | plain text => text
  | clause c => c.render
  | list items => ", ".intercalate items

/-- The text of parts. -/
def Part.written : List Part → String
  | [] => ""
  | p :: ps => p.render ++ written ps

/-- The clause of a condition. -/
def Condition.clause? : Condition → Option Clause
  | always => none
  | .exists => some .demandExists
  | relations rs => some (.demand rs)

namespace Part

theorem written_singleton (p : Part) : written [p] = p.render := String.append_empty

theorem written_cons_cons (p q : Part) (ps : List Part) :
    written (p :: q :: ps) = p.render ++ written (q :: ps) := rfl

theorem written_append : ∀ ps qs : List Part, written (ps ++ qs) = written ps ++ written qs
  | [], qs => by rw [List.nil_append, written, String.empty_append]
  | p :: ps, qs => by
    rw [List.cons_append, written, written, written_append ps qs, String.append_assoc]

theorem written_find (rs : List Relation) :
    written (if rs.isEmpty then [] else [.clause (.find rs)]) = SelectStatement.whereText rs := by
  unfold SelectStatement.whereText
  split
  · rfl
  · exact String.append_empty

theorem written_group (columns : Option (List Identifier)) :
    written (columns.toList.map fun columns => .clause (.group columns)) =
      SelectStatement.groupText columns := by
  cases columns with
  | none => rfl
  | some columns => exact String.append_empty

theorem written_order (columns : Option (List (Identifier × Direction))) :
    written (columns.toList.map fun columns => .clause (.order columns)) =
      SelectStatement.orderText columns := by
  cases columns with
  | none => rfl
  | some columns => exact String.append_empty

theorem written_absent (ifNotExists : Bool) :
    written (if ifNotExists then [.clause .demandAbsent] else []) =
      if ifNotExists then " IF NOT EXISTS" else "" := by
  cases ifNotExists <;> rfl

theorem written_condition (c : Condition) :
    written (c.clause?.toList.map .clause) = c.render := by
  cases c with
  | always | «exists» => rfl
  | relations rs => exact String.append_empty

end Part

namespace Statement

/-- The parts of a statement. -/
def parts : Statement → List Part
  | select s =>
    [.plain ("SELECT " ++ (if s.isDistinct then "DISTINCT " else "") ++
      Projection.renderAll s.items ++ " FROM " ++ s.source.quoted)] ++
    (if s.relations.isEmpty then [] else [.clause (.find s.relations)]) ++
    (s.grouping.toList.map fun columns => .clause (.group columns)) ++
    (s.order.toList.map fun columns => .clause (.order columns)) ++
    [.plain (SelectStatement.limitText " PER PARTITION LIMIT " s.partitionLimit ++
      SelectStatement.limitText " LIMIT " s.limit ++
      (if s.allowFiltering then " ALLOW FILTERING" else "") ++ ";")]
  | insert i =>
    [.plain ("INSERT INTO " ++ i.table.quoted ++ " ("), .list (i.columns.map fun c => c.1.quoted),
      .plain ") VALUES (", .list (i.columns.map fun c => c.2.render), .plain ")"] ++
    (if i.ifNotExists then [.clause .demandAbsent] else []) ++ [.plain (ttlText i.ttl ++ ";")]
  | update u =>
    [.plain ("UPDATE " ++ u.table.quoted ++ ttlText u.ttl), .clause (.assign u.assignments),
      .clause (.find u.relations)] ++ u.condition.clause?.toList.map .clause ++ [.plain ";"]
  | delete d =>
    [.plain ("DELETE FROM " ++ d.table.quoted), .clause (.find d.relations), .plain ";"]
  | st => [.plain st.render]

theorem written_select (s : SelectStatement) : Part.written (select s).parts = s.render := by
  unfold SelectStatement.render
  simp only [parts, Part.written_append, Part.written_singleton, Part.written_find,
    Part.written_group, Part.written_order, Part.render, String.append_assoc]

theorem written_insert (i : InsertStatement) : Part.written (insert i).parts = i.render := by
  unfold InsertStatement.render
  simp only [parts, Part.written_append, Part.written_cons_cons, Part.written_singleton,
    Part.written_absent, Part.render, String.append_assoc]

theorem written_update (u : UpdateStatement) : Part.written (update u).parts = u.render := by
  unfold UpdateStatement.render
  simp only [parts, Part.written_append, Part.written_cons_cons, Part.written_singleton,
    Part.written_condition, Part.render, Clause.render_assign, Clause.render_find,
    String.append_assoc]

theorem written_delete (d : DeleteStatement) : Part.written (delete d).parts = d.render := by
  unfold DeleteStatement.render
  simp only [parts, Part.written_cons_cons, Part.written_singleton, Part.render,
    Clause.render_find, String.append_assoc]

/-- The parts of a statement are its text. -/
theorem written_parts (st : Statement) : Part.written st.parts = st.render := by
  cases st with
  | select s => exact written_select s
  | insert i => exact written_insert i
  | update u => exact written_update u
  | delete d => exact written_delete d
  | truncate _ | define _ => exact String.append_empty

end Statement

/-! ## Complete statements -/

/-- Joined texts are not empty when one of them is not. -/
theorem append_ne_empty {s u : String} (h : s ≠ "" ∨ u ≠ "") : s ++ u ≠ "" := by
  rw [Ne, String.append_eq_empty_iff]
  exact fun hboth => h.elim (· hboth.1) (· hboth.2)

namespace Clause

theorem quoted_ne_empty (i : Identifier) : i.quoted ≠ "" :=
  append_ne_empty (.inl (append_ne_empty (.inl (by decide))))

theorem relation_ne_empty (r : Relation) : r.render ≠ "" := by
  cases r with
  | compare => exact append_ne_empty (.inl (append_ne_empty (.inr (by decide))))
  | search => exact append_ne_empty (.inl (by decide))
  | _ => exact append_ne_empty (.inr (by decide))

theorem assignment_ne_empty (a : Assignment) : a.render ≠ "" := by
  cases a with
  | set column o => exact append_ne_empty (.inl (append_ne_empty (.inr (by decide))))
  | extend column o => exact append_ne_empty (.inl (append_ne_empty (.inr (by decide))))
  | prepend column o => exact append_ne_empty (.inr (quoted_ne_empty column))
  | remove column o => exact append_ne_empty (.inl (append_ne_empty (.inr (by decide))))
  | removeKeys | replace => exact append_ne_empty (.inr (by decide))

/-- No item is written as nothing. -/
theorem notMem_items (c : Clause) : "" ∉ c.items := by
  have hmap {α : Type} {f : α → String} (hf : ∀ x, f x ≠ "") (xs : List α) : "" ∉ xs.map f :=
    fun hmem => by
      obtain ⟨x, -, hx⟩ := List.mem_map.1 hmem
      exact hf x hx
  cases c with
  | find rs | demand rs => exact hmap relation_ne_empty rs
  | group columns => exact hmap quoted_ne_empty columns
  | order columns =>
    exact hmap (fun c => append_ne_empty (.inr (by cases c.2 <;> decide))) columns
  | assign as => exact hmap assignment_ne_empty as
  | demandExists | demandAbsent => decide

end Clause

namespace Statement

/-- No clause and no list is empty, lists are equally long, and an update and a deletion find their
rows. -/
structure IsComplete (st : Statement) : Prop where
  clauses : ∀ c, .clause c ∈ st.parts → c.items ≠ [] ∧ "" ∉ c.items
  lists : ∀ xs, .list xs ∈ st.parts → xs ≠ []
  balanced : ∀ xs ys, .list xs ∈ st.parts → .list ys ∈ st.parts → xs.length = ys.length
  found : st.kind = .update ∨ st.kind = .delete → ∃ rs, .clause (.find rs) ∈ st.parts

variable {s : SelectStatement} {i : InsertStatement} {u : UpdateStatement} {d : DeleteStatement}

/-- A statement without lists that finds rows where it has to is complete when its clauses have
items. -/
theorem isComplete_iff {st : Statement} (hlists : ∀ xs, .list xs ∉ st.parts)
    (hfound : st.kind = .update ∨ st.kind = .delete → ∃ rs, .clause (.find rs) ∈ st.parts) :
    st.IsComplete ↔ ∀ c, .clause c ∈ st.parts → c.items ≠ [] where
  mp h c hc := (h.clauses c hc).1
  mpr h := ⟨fun c hc => ⟨h c hc, c.notMem_items⟩, fun xs hxs => absurd hxs (hlists xs),
    fun xs _ hxs _ => absurd hxs (hlists xs), hfound⟩

theorem isComplete_select :
    (select s).IsComplete ↔ s.grouping ≠ some [] ∧ s.order ≠ some [] := by
  have hclauses (c : Clause) : .clause c ∈ (select s).parts ↔
      (s.relations ≠ [] ∧ c = .find s.relations) ∨
      (∃ columns, s.grouping = some columns ∧ .group columns = c) ∨
      ∃ columns, s.order = some columns ∧ .order columns = c := by
    simp [parts]
  rw [isComplete_iff (by simp [parts]) (by simp [kind])]
  constructor
  · intro h
    refine ⟨fun hnone => ?_, fun hnone => ?_⟩
    · exact h (.group []) ((hclauses _).2 (.inr (.inl ⟨_, hnone, rfl⟩))) rfl
    · exact h (.order []) ((hclauses _).2 (.inr (.inr ⟨_, hnone, rfl⟩))) rfl
  · rintro ⟨hgrouping, horder⟩ c hc
    obtain ⟨hrs, rfl⟩ | ⟨columns, hcolumns, rfl⟩ | ⟨columns, hcolumns, rfl⟩ := (hclauses c).1 hc
    · exact fun hnil => hrs (List.map_eq_nil_iff.1 hnil)
    · exact fun hnil => hgrouping (List.map_eq_nil_iff.1 hnil ▸ hcolumns)
    · exact fun hnil => horder (List.map_eq_nil_iff.1 hnil ▸ hcolumns)

theorem isComplete_insert : (insert i).IsComplete ↔ i.columns ≠ [] := by
  have hlists (xs : List String) : .list xs ∈ (insert i).parts ↔
      xs = i.columns.map (fun c => c.1.quoted) ∨ xs = i.columns.map fun c => c.2.render := by
    simp [parts]
  have hlength (xs : List String) (hxs : .list xs ∈ (insert i).parts) :
      xs.length = i.columns.length := by
    rcases (hlists xs).1 hxs with rfl | rfl <;> rw [List.length_map]
  have hclauses (c : Clause) : .clause c ∈ (insert i).parts → c = .demandAbsent := by
    simp +contextual [parts]
  constructor
  · intro h hnil
    exact h.lists _ ((hlists _).2 (.inl rfl)) (hnil ▸ rfl)
  · intro hsome
    refine ⟨fun c hc => ?_, fun xs hxs hnil => hsome ?_,
      fun xs ys hxs hys => (hlength xs hxs).trans (hlength ys hys).symm, by simp [kind]⟩
    · rw [hclauses c hc]
      exact ⟨List.cons_ne_nil _ _, Clause.notMem_items _⟩
    · rw [← List.length_eq_zero_iff, ← hlength xs hxs, hnil, List.length_nil]

theorem isComplete_update : (update u).IsComplete ↔
    u.assignments ≠ [] ∧ u.relations ≠ [] ∧ u.condition ≠ .relations [] := by
  have hclauses (c : Clause) : .clause c ∈ (update u).parts ↔
      c = .assign u.assignments ∨ c = .find u.relations ∨ u.condition.clause? = some c := by
    simp [parts]
  rw [isComplete_iff (by simp [parts]) fun _ => ⟨_, (hclauses _).2 (.inr (.inl rfl))⟩]
  constructor
  · intro h
    refine ⟨fun hnil => ?_, fun hnil => ?_, fun hnil => ?_⟩
    · exact h _ ((hclauses _).2 (.inl rfl)) (List.map_eq_nil_iff.2 hnil)
    · exact h _ ((hclauses _).2 (.inr (.inl rfl))) (List.map_eq_nil_iff.2 hnil)
    · exact h (.demand []) ((hclauses _).2 (.inr (.inr (hnil ▸ rfl)))) rfl
  · rintro ⟨hassignments, hrelations, hcondition⟩ c hc
    obtain rfl | rfl | hclause := (hclauses c).1 hc
    · exact fun hnil => hassignments (List.map_eq_nil_iff.1 hnil)
    · exact fun hnil => hrelations (List.map_eq_nil_iff.1 hnil)
    · cases hasked : u.condition with
      | always =>
        rw [hasked] at hclause
        cases hclause
      | «exists» =>
        rw [hasked] at hclause
        cases hclause
        exact List.cons_ne_nil _ _
      | relations rs =>
        rw [hasked] at hclause hcondition
        cases hclause
        exact fun hnil => hcondition (List.map_eq_nil_iff.1 hnil ▸ rfl)

theorem isComplete_delete : (delete d).IsComplete ↔ d.relations ≠ [] := by
  rw [isComplete_iff (by simp [parts]) fun _ => ⟨d.relations, by simp [parts]⟩]
  simp [parts, Clause.items]

end Statement

/-! ## What operations ask for -/

namespace Compile

variable {t : Table} {s s' : Session}

theorem acceptAll_length {names : List String} {columns : List Identifier}
    (h : (Query.acceptAll names).perform s = (.ok columns, s')) : columns.length = names.length :=
  (forall₂_of_mapM (Query.acceptAll_ok h)).length_eq.symm

/-- A grouping is by one column at least. -/
theorem grouping_ne_nil {v : Value} {columns : List Identifier}
    (h : (grouping v).perform s = (.ok (some columns), s')) : columns ≠ [] := by
  unfold grouping at h
  split at h
  · cases h
  · split at h
    · obtain ⟨columns', hcolumns, heq⟩ := Action.map_ok h
      cases heq
      have hlength := acceptAll_length hcolumns
      rintro rfl
      cases hlength
    · exact absurd h Action.refuse_ne_ok

/-- The columns of one direction are as many as its names. -/
theorem orderEntry_eq_nil_iff {key columns : Value} {ps : List (Identifier × Direction)}
    (h : (orderEntry key columns).perform s = (.ok ps, s')) :
    ps = [] ↔ names? columns = some [] := by
  unfold orderEntry at h
  split at h
  · exact absurd h Action.refuse_ne_ok
  · split at h
    · rename_i names hnames
      obtain ⟨is, his, rfl⟩ := Action.map_ok h
      have hlength := acceptAll_length his
      rw [hnames, List.map_eq_nil_iff, ← List.length_eq_zero_iff, hlength, List.length_eq_zero_iff,
        Option.some.injEq]
    · exact absurd h Action.refuse_ne_ok

/-- An order has no columns exactly when each of its directions has none. -/
theorem orderEntries_eq_nil_iff : ∀ {es : List (Value × Value)} {s s' : Session}
    {ps : List (Identifier × Direction)}, (orderEntries es).perform s = (.ok ps, s') →
      (ps = [] ↔ ∀ e ∈ es, names? e.2 = some [])
  | [], s, s', ps, h => by
    cases h
    exact ⟨fun _ => List.forall_mem_nil _, fun _ => rfl⟩
  | (key, columns) :: es, s, s', ps, h => by
    obtain ⟨first, s₁, hfirst, h⟩ := Action.bind_ok h
    obtain ⟨rest, s₂, hrest, h⟩ := Action.bind_ok h
    cases h
    rw [List.append_eq_nil_iff, orderEntry_eq_nil_iff hfirst, orderEntries_eq_nil_iff hrest,
      List.forall_mem_cons]

/-- The order of a query is by no columns exactly when a map without any asks for it. -/
theorem order_eq_nil_iff {v : Value} {order? : Option (List (Identifier × Direction))}
    (h : (order v).perform s = (.ok order?, s')) :
    order? = some [] ↔ ∃ es, v = .map es ∧ ∀ e ∈ es, names? e.2 = some [] := by
  unfold order at h
  split at h
  · cases h
    simp
  · rename_i e es
    obtain ⟨ps, hps, rfl⟩ := Action.map_ok h
    rw [Option.some.injEq, orderEntries_eq_nil_iff hps]
    constructor
    · exact fun hnone => ⟨_, rfl, hnone⟩
    · rintro ⟨es', heq, hnone⟩
      cases heq
      exact hnone
  · exact absurd h Action.refuse_ne_ok

/-- An insertion into a table with a key has columns. -/
theorem insertion_columns_ne_nil {o : Insertion} {p : Prepared} (hwell : t.WellFormed)
    (hkey : t.partitionKey ≠ []) (h : (insertion t o).perform s = (.ok p, s')) :
    ∃ i, p.statement = .insert i ∧ i.columns ≠ [] := by
  obtain ⟨i, hi, hcolumns, -⟩ := insertion_columns h
  obtain ⟨rs, htaken, hall, hfilled⟩ := insertColumns_taken hwell (fun _ => id) hcolumns
  obtain ⟨name, hname⟩ := List.exists_mem_of_ne_nil _ hkey
  obtain ⟨f, hf, rfl, -⟩ := hwell.key name (List.mem_append_left _ hname)
  have hfields : rs.map Prod.fst = t.storedFields := htaken.fields
  obtain ⟨r, hr, rfl⟩ := List.mem_map.1 (hfields ▸ hf)
  have hvalue := (hfilled r hr).isNullLike_of_needed (.inl (Table.isKey_of_mem hname))
  have hmem : r ∈ rs.filter hasValue := List.mem_filter.2 ⟨hr, hasValue_of_isNullLike hvalue⟩
  refine ⟨i, hi, fun hnil => ?_⟩
  rw [hnil, List.forall₂_nil_right_iff] at hall
  rw [hall] at hmem
  cases hmem

end Compile

namespace Operation

open Compile

/-- The operation asks for a clause with nothing in it: an order by no columns, or a condition under
keys that ask for no relations. -/
def AsksForNothing (t : Table) : Operation → Prop
  | select o => ∃ es, get? o.query Query.orderKey = some (.map es) ∧
      ∀ e ∈ es, names? e.2 = some []
  | update o => o.ifExists = false ∧ ∃ es, o.conditions = some es ∧ es ≠ [] ∧
      Query.keptDemands t (queryEntries es) = []
  | _ => False

variable {t : Table} {s s' : Session}

theorem asksForNothing_select_iff {o : Selection} {order? : Option (List (Identifier × Direction))}
    (h : (order (.ofOption (get? o.query Query.orderKey))).perform s = (.ok order?, s')) :
    order? = some [] ↔ (select o).AsksForNothing t := by
  rw [order_eq_nil_iff h, AsksForNothing]
  refine exists_congr fun es => and_congr_left' ?_
  cases get? o.query Query.orderKey with
  | none => exact iff_of_false nofun nofun
  | some v => exact Option.some.injEq v _ ▸ Iff.rfl

theorem asksForNothing_update_iff {o : Modification} {c : Condition}
    (h : (condition t o).perform s = (.ok c, s')) :
    c = .relations [] ↔ (update o).AsksForNothing t := by
  rw [AsksForNothing]
  obtain ⟨hexists, rfl⟩ | ⟨hexists, ⟨hnone, rfl⟩ | ⟨es, rs, hsome, hne, rfl, hmeets⟩⟩ :=
    condition_cases h
  · exact iff_of_false nofun fun hnot => Bool.false_ne_true (hnot.1.symm.trans hexists)
  · refine iff_of_false nofun ?_
    rintro ⟨-, es, hsome, hne, -⟩
    rw [hsome] at hnone
    exact hne hnone
  · constructor
    · rintro ⟨⟩
      exact ⟨hexists, es, hsome, hne, List.forall₂_nil_right_iff.1 hmeets⟩
    · rintro ⟨-, es', hsome', -, hnone⟩
      obtain rfl := Option.some.inj (hsome.symm.trans hsome')
      rw [Meets, hnone] at hmeets
      rw [List.forall₂_nil_left_iff.1 hmeets]

/-- A statement of an operation on rows is written of its parts. For a table with a key it is
complete exactly when the operation does not ask for a clause with nothing in it. -/
theorem compile_isComplete_iff {o : Operation} {p : Prepared} (hregistered : t.Registered)
    (hkey : t.partitionKey ≠ []) (hrows : o.IsOnRows)
    (h : (o.compile t).perform s = (.ok p, s')) :
    Part.written p.statement.parts = p.statement.render ∧
      (p.statement.IsComplete ↔ ¬ o.AsksForNothing t) := by
  refine ⟨Statement.written_parts _, ?_⟩
  cases o with
  | select o =>
    obtain ⟨statement, s₁, hstatement, h⟩ := Action.bind_ok h
    cases h
    obtain ⟨-, -, ⟨s₂, s₃, hgrouping⟩, s₄, s₅, horder⟩ := selection_ok hstatement
    have hgrouped : statement.grouping ≠ some [] := fun hnil =>
      grouping_ne_nil (hnil ▸ hgrouping) rfl
    rw [Statement.isComplete_select, and_iff_right hgrouped]
    exact not_congr (asksForNothing_select_iff horder)
  | insert o =>
    obtain ⟨i, hi, hcolumns⟩ := insertion_columns_ne_nil hregistered.wellFormed hkey h
    rw [hi]
    exact iff_of_true (Statement.isComplete_insert.2 hcolumns) id
  | update o =>
    obtain ⟨u, hu, -, -, ⟨s₁, s₂, hcondition⟩, -, -, hassignments, hrelations⟩ := modification_ok h
    rw [hu, Statement.isComplete_update, and_iff_right hassignments, and_iff_right hrelations]
    exact not_congr (asksForNothing_update_iff hcondition)
  | delete o =>
    obtain ⟨d, hd, -, -, hrelations⟩ := deletion_ok h
    rw [hd]
    exact iff_of_true (Statement.isComplete_delete.2 hrelations) id
  | _ => exact absurd hrows id

/-! ### Orders and conditions -/

/-- The person with a number gets a name under conditions. -/
def nameIf (conditions : List (String × Value)) : Operation :=
  .update { table := "people", query := [("id", .int 1)], values := [("name", .text "ann")],
            conditions }

/-- The person is grown up, whatever limit is given. -/
def grown : List (String × Value) :=
  [("$limit", .int 1), ("age", .map [(.text "$gte", .int 18)])]

/-- A limit is no condition, and the relation beside it is one. -/
theorem isComplete_nameIf : Query.people.Registered ∧ Query.people.partitionKey ≠ [] ∧
    (nameIf grown).IsOnRows ∧
    ∃ p s', ((nameIf grown).compile Query.people).perform {} = (.ok p, s') ∧
      p.statement.render =
        "UPDATE \"people\" SET \"name\"=? WHERE \"id\" = ? IF \"age\" >= ?;" ∧
      Part.written p.statement.parts = p.statement.render ∧ p.statement.IsComplete := by
  have hkey : Query.people.partitionKey ≠ [] := by decide
  have hrows : (nameIf grown).IsOnRows := trivial
  obtain ⟨p, s', hp, htext⟩ := Action.ok_of_read (g := fun p => p.statement.render)
    (a := (nameIf grown).compile Query.people) (s := {})
    (y := "UPDATE \"people\" SET \"name\"=? WHERE \"id\" = ? IF \"age\" >= ?;")
    (by decide +kernel)
  obtain ⟨hwritten, hcomplete⟩ := compile_isComplete_iff people_registered hkey hrows hp
  refine ⟨people_registered, hkey, hrows, p, s', hp, htext, hwritten, hcomplete.2 ?_⟩
  rintro ⟨-, es, hes, -, hnone⟩
  obtain rfl := Option.some.inj hes
  have hasked : (Query.keptDemands Query.people (queryEntries grown)).length = 1 := by
    decide +kernel
  rw [hnone] at hasked
  cases hasked

/-- People ordered by none of their columns. -/
def unordered : Operation := .select {
  table := "people", query := [("$orderby", .map [(.text "$asc", .list [])])] }

/-- The statement that `unordered` compiles to. -/
def unorderedStatement : SelectStatement where
  isDistinct := false
  items := []
  source := peopleTable
  relations := []
  grouping := none
  order := some []
  partitionLimit := none
  limit := none
  allowFiltering := false

/-- The statement that a name under no relations compiles to. -/
def nameIfStatement : UpdateStatement where
  table := peopleTable
  ttl := none
  assignments := [.set nameColumn (.bound (.text "ann"))]
  relations := [.compare idColumn .eq (.bound (.int 1))]
  condition := .relations []

/-- An order by the columns of an empty list and a condition that is only a limit leave their
clauses without items. -/
theorem not_isComplete_unordered :
    Table.ofDefinition (.text "people") Query.peopleDefinition = .ok Query.people ∧
    (∃ p s', (unordered.compile Query.people).perform {} = (.ok p, s') ∧
      p.statement.render = "SELECT * FROM \"people\" ORDER BY ;" ∧ ¬ p.statement.IsComplete) ∧
    ∃ p s', ((nameIf [("$limit", .int 1)]).compile Query.people).perform {} = (.ok p, s') ∧
      p.statement.render = "UPDATE \"people\" SET \"name\"=? WHERE \"id\" = ? IF ;" ∧
      ¬ p.statement.IsComplete := by
  obtain ⟨p, s₁, hp, hstatement⟩ := Action.ok_of_read (g := fun p => p.statement)
    (a := unordered.compile Query.people) (s := {}) (y := .select unorderedStatement)
    (by with_unfolding_all rfl)
  obtain ⟨p', s₂, hp', hstatement'⟩ := Action.ok_of_read (g := fun p => p.statement)
    (a := (nameIf [("$limit", .int 1)]).compile Query.people) (s := {})
    (y := .update nameIfStatement) (by with_unfolding_all rfl)
  refine ⟨by with_unfolding_all rfl, ⟨p, s₁, hp, ?_⟩, p', s₂, hp', ?_⟩
  · rw [hstatement, Statement.isComplete_select]
    exact ⟨by decide +kernel, fun h => h.2 rfl⟩
  · rw [hstatement', Statement.isComplete_update]
    exact ⟨by decide +kernel, fun h => h.2.2 rfl⟩

end Operation

end WideColumn
