import WideColumn.Proofs.Inert
import WideColumn.Proofs.Query

/-!
# Placeholders and the values that are bound

A statement on rows is written of texts and of slots, one slot for each value that is bound
(`Statement.pieces`). As long as functions of the store and names of custom indexes have no question
mark and no quote, each of its placeholders is written for the value at its place among those that
are bound: those of an insertion in the order of the fields, those of an update first for its
assignments, then for the rows that it finds and then for its condition, and those of relations in
the order of the query (`Operation.compile_aligned`).
-/

namespace WideColumn

/-! ## Pieces -/

namespace Operand

variable {o : Operand} {origin : Origin}

/-- The pieces of an operand. -/
def pieces (origin : Origin) : Operand → List Piece
  | bound v => [.slot ⟨origin, v⟩]
  | change column negative n =>
    [.text (column.quoted ++ if negative then " - " else " + ")] ++ [.slot ⟨origin, .int n⟩]
  | storeFunction s => [.text s]

/-- The texts that are written as they were given. -/
def given : Operand → List String
  | storeFunction s => [s]
  | _ => []

theorem writes (h : ∀ s ∈ o.given, IsUnmarked s) :
    Piece.Writes (o.pieces origin) o.render (o.params.map (Slot.mk origin)) := by
  cases o with
  | bound v => exact .slot _
  | change column negative n =>
    have hsign : IsUnmarked (if negative then " - " else " + ") := by cases negative <;> decide
    refine ((Piece.Writes.text (column.isInert_quoted.append hsign.isInert)).append (.slot _)).of_eq
      ?_ rfl
    rw [String.append_assoc]
    cases negative <;> rfl
  | storeFunction s => exact .text (h s (List.mem_singleton_self s)).isInert

end Operand

namespace Relation

variable {r : Relation} {rs : List Relation} {origin : Origin}

/-- The pieces of a relation. -/
def pieces (origin : Origin) : Relation → List Piece
  | compare column c o => [.text (column.quoted ++ " " ++ c.sign ++ " ")] ++ o.pieces origin
  | isIn column items => [.text (column.quoted ++ " IN ")] ++ [.slot ⟨origin, .list items⟩]
  | entry column key value => [.text (column.quoted ++ "[")] ++ [.slot ⟨origin, key⟩] ++
      [.text "] = "] ++ [.slot ⟨origin, value⟩]
  | contains column v => [.text (column.quoted ++ " CONTAINS ")] ++ [.slot ⟨origin, v⟩]
  | containsKey column v => [.text (column.quoted ++ " CONTAINS KEY ")] ++ [.slot ⟨origin, v⟩]
  | token columns c os =>
    [.text ("token(" ++ ",".intercalate (columns.map Identifier.quoted) ++ ") " ++ c.sign ++
      " token(")] ++ Piece.joined "," (os.map (Operand.pieces origin)) ++ [.text ")"]
  | search query => [.text ("solr_query=" ++ literal query)]
  | expression index query => [.text ("expr(" ++ index ++ "," ++ literal query ++ ")")]

/-- The texts that are written as they were given. -/
def given : Relation → List String
  | compare _ _ o => o.given
  | token _ _ os => os.flatMap Operand.given
  | expression index _ => [index]
  | _ => []

/-- The slots of a relation. -/
def slots (origin : Origin) (r : Relation) : List Slot := r.params.map (Slot.mk origin)

theorem isUnmarked_sign (c : Comparison) : IsUnmarked c.sign := by cases c <;> decide

theorem writes (h : ∀ s ∈ r.given, IsUnmarked s) :
    Piece.Writes (r.pieces origin) r.render (r.slots origin) := by
  have hname : ∀ (column : Identifier) {s : String}, IsUnmarked s → IsInert (column.quoted ++ s) :=
    fun column s hs => column.isInert_quoted.append hs.isInert
  cases r with
  | compare column c o =>
    have htext : IsInert (column.quoted ++ " " ++ c.sign ++ " ") :=
      ((hname column (by decide)).append (isUnmarked_sign c).isInert).append .fixed
    exact (Piece.Writes.text htext).append (o.writes h)
  | isIn column items =>
    exact ((Piece.Writes.text (hname column (s := " IN ") (by decide))).append (.slot _)).of_eq
      String.append_assoc rfl
  | entry column key value =>
    refine ((((Piece.Writes.text (hname column (s := "[") (by decide))).append (.slot _)).append
      (.text (s := "] = ") .fixed)).append (.slot _)).of_eq ?_ rfl
    simp only [String.append_assoc]
    rfl
  | contains column v =>
    exact ((Piece.Writes.text (hname column (s := " CONTAINS ") (by decide))).append
      (.slot _)).of_eq
      String.append_assoc rfl
  | containsKey column v =>
    exact ((Piece.Writes.text (hname column (s := " CONTAINS KEY ") (by decide))).append
      (.slot _)).of_eq
      String.append_assoc rfl
  | token columns c os =>
    have hcolumns : IsInert ("token(" ++ ",".intercalate (columns.map Identifier.quoted) ++ ") " ++
        c.sign ++ " token(") :=
      (((IsInert.append .fixed (isInert_names "," (by decide) columns)).append .fixed).append
        (isUnmarked_sign c).isInert).append .fixed
    have hoperands : Piece.Writes (Piece.joined "," (os.map (Operand.pieces origin)))
        (",".intercalate (os.map Operand.render))
        (os.flatMap fun o => o.params.map (Slot.mk origin)) :=
      Piece.Writes.joined .fixed fun o ho =>
        o.writes fun s hs => h s (List.mem_flatMap.2 ⟨o, ho, hs⟩)
    refine (((Piece.Writes.text hcolumns).append hoperands).append
      (.text (s := ")") .fixed)).of_eq rfl ?_
    rw [List.append_nil, List.nil_append, ← List.map_flatMap]
    rfl
  | search query => exact .text (IsInert.append .fixed (isInert_literal query))
  | expression index query =>
    have hindex := (h index (List.mem_singleton_self index)).isInert
    exact .text ((((IsInert.append .fixed hindex).append .fixed).append
      (isInert_literal query)).append .fixed)

/-- The pieces of relations that all have to hold. -/
def clausePieces (origin : Relation → Origin) (rs : List Relation) : List Piece :=
  Piece.joined " AND " (rs.map fun r => r.pieces (origin r))

/-- The slots of relations, one relation after the other. -/
def clauseSlots (origin : Relation → Origin) (rs : List Relation) : List Slot :=
  rs.flatMap fun r => r.slots (origin r)

theorem values_clauseSlots (origin : Relation → Origin) (rs : List Relation) :
    (clauseSlots origin rs).map Slot.value = rs.flatMap params :=
      Slot.values_flatMap rs origin params

theorem clause_writes {origin : Relation → Origin} (h : ∀ s ∈ rs.flatMap given, IsUnmarked s) :
    Piece.Writes (clausePieces origin rs) (clause rs) (clauseSlots origin rs) :=
  Piece.Writes.joined .fixed fun r hr =>
    r.writes fun s hs => h s (List.mem_flatMap.2 ⟨r, hr, hs⟩)

end Relation

namespace SelectStatement

/-- The pieces of the condition on the rows. -/
def wherePieces (rs : List Relation) : List Piece :=
  if rs.isEmpty then [] else [.text " WHERE "] ++ Relation.clausePieces .sought rs

/-- The pieces of a selection. -/
def pieces (s : SelectStatement) : List Piece :=
  [.text ("SELECT " ++ (if s.isDistinct then "DISTINCT " else "") ++ Projection.renderAll s.items ++
    " FROM " ++ s.source.quoted)] ++
  wherePieces s.relations ++
  [.text (groupText s.grouping ++ orderText s.order ++
    limitText " PER PARTITION LIMIT " s.partitionLimit ++ limitText " LIMIT " s.limit ++
    (if s.allowFiltering then " ALLOW FILTERING" else "") ++ ";")]

theorem writes {s : SelectStatement} (hitems : ∀ item ∈ s.items, IsInert item.render)
    (h : ∀ x ∈ s.relations.flatMap Relation.given, IsUnmarked x) :
    Piece.Writes s.pieces s.render (Relation.clauseSlots .sought s.relations) := by
  have hhead : IsInert ("SELECT " ++ (if s.isDistinct then "DISTINCT " else "") ++
      Projection.renderAll s.items ++ " FROM " ++ s.source.quoted) := by
    have hdistinct : IsUnmarked (if s.isDistinct then "DISTINCT " else "") := by
      cases s.isDistinct <;> decide
    exact (((IsInert.append .fixed hdistinct.isInert).append
      (Projection.isInert_renderAll hitems)).append .fixed).append
        s.source.isInert_quoted
  have hwhere : Piece.Writes (wherePieces s.relations) (whereText s.relations)
      (Relation.clauseSlots .sought s.relations) := by
    unfold wherePieces whereText
    split
    · rename_i hempty
      rw [List.isEmpty_iff.1 hempty]
      exact .nil
    · exact (Piece.Writes.text .fixed).append (Relation.clause_writes h)
  have htail : IsInert (groupText s.grouping ++ orderText s.order ++
      limitText " PER PARTITION LIMIT " s.partitionLimit ++ limitText " LIMIT " s.limit ++
      (if s.allowFiltering then " ALLOW FILTERING" else "") ++ ";") := by
    have hfiltering : IsUnmarked (if s.allowFiltering then " ALLOW FILTERING" else "") := by
      cases s.allowFiltering <;> decide
    exact (((((isInert_groupText _).append (isInert_orderText _)).append
      (isInert_limitText (by decide) _)).append (isInert_limitText (by decide) _)).append
        hfiltering.isInert).append .fixed
  refine (((Piece.Writes.text hhead).append hwhere).append (.text htail)).of_eq ?_
    (List.append_nil _)
  unfold render
  simp only [String.append_assoc]

end SelectStatement

namespace InsertStatement

/-- The pieces of an insertion. -/
def pieces (s : InsertStatement) : List Piece :=
  [.text ("INSERT INTO " ++ s.table.quoted ++ " (" ++
    ", ".intercalate (s.columns.map fun c => c.1.quoted) ++ ") VALUES (")] ++
  Piece.joined ", " (s.columns.map fun c => c.2.pieces (.inserted c.1)) ++
  [.text (")" ++ (if s.ifNotExists then " IF NOT EXISTS" else "") ++ ttlText s.ttl ++ ";")]

/-- The slots of columns, one column after the other. -/
def slots (columns : List (Identifier × Operand)) : List Slot :=
  columns.flatMap fun c => c.2.params.map (Slot.mk (.inserted c.1))

theorem writes {s : InsertStatement}
    (h : ∀ x ∈ s.columns.flatMap fun c => c.2.given, IsUnmarked x) :
    Piece.Writes s.pieces s.render (slots s.columns) := by
  have hhead : IsInert ("INSERT INTO " ++ s.table.quoted ++ " (" ++
      ", ".intercalate (s.columns.map fun c => c.1.quoted) ++ ") VALUES (") := by
    have hcolumns : IsInert (", ".intercalate (s.columns.map fun c => c.1.quoted)) := by
      have hnames := isInert_names ", " (by decide) (s.columns.map Prod.fst)
      rwa [List.map_map] at hnames
    exact (((IsInert.append .fixed s.table.isInert_quoted).append .fixed).append
      hcolumns).append .fixed
  have hvalues :
      Piece.Writes (Piece.joined ", " (s.columns.map fun c => c.2.pieces (.inserted c.1)))
      (", ".intercalate (s.columns.map fun c => c.2.render)) (slots s.columns) :=
    Piece.Writes.joined .fixed fun c hc =>
      c.2.writes fun x hx => h x (List.mem_flatMap.2 ⟨c, hc, hx⟩)
  have htail : IsInert (")" ++ (if s.ifNotExists then " IF NOT EXISTS" else "") ++ ttlText s.ttl ++
      ";") := by
    have hcondition : IsUnmarked (if s.ifNotExists then " IF NOT EXISTS" else "") := by
      cases s.ifNotExists <;> decide
    exact ((IsInert.append .fixed hcondition.isInert).append (isInert_ttlText s.ttl)).append .fixed
  refine (((Piece.Writes.text hhead).append hvalues).append (.text htail)).of_eq ?_
    (List.append_nil _)
  unfold render
  simp only [String.append_assoc]

end InsertStatement

namespace Assignment

/-- The column that is assigned to. -/
def column : Assignment → Identifier
  | set c _ | extend c _ | prepend c _ | remove c _ => c
  | removeKeys c _ => c
  | replace c _ _ => c

/-- The pieces of an assignment. -/
def pieces (origin : Origin) : Assignment → List Piece
  | set c o => [.text (c.quoted ++ "=")] ++ o.pieces origin
  | extend c o => [.text (c.quoted ++ "=" ++ c.quoted ++ " + ")] ++ o.pieces origin
  | prepend c o => [.text (c.quoted ++ "=")] ++ o.pieces origin ++ [.text (" + " ++ c.quoted)]
  | remove c o => [.text (c.quoted ++ "=" ++ c.quoted ++ " - ")] ++ o.pieces origin
  | removeKeys c keys => [.text (c.quoted ++ "=" ++ c.quoted ++ " - ")] ++
      [.slot ⟨origin, .list keys⟩]
  | replace c key value => [.text (c.quoted ++ "[")] ++ [.slot ⟨origin, key⟩] ++ [.text "]="] ++
      [.slot ⟨origin, value⟩]

/-- The texts that are written as they were given. -/
def given : Assignment → List String
  | set _ o | extend _ o | prepend _ o | remove _ o => o.given
  | removeKeys _ _ | replace _ _ _ => []

theorem writes {a : Assignment} {origin : Origin} (h : ∀ s ∈ a.given, IsUnmarked s) :
    Piece.Writes (a.pieces origin) a.render (a.params.map (Slot.mk origin)) := by
  have hname : ∀ (column : Identifier) {s : String}, IsUnmarked s → IsInert (column.quoted ++ s) :=
    fun column s hs => column.isInert_quoted.append hs.isInert
  have htwice : ∀ (column : Identifier) {s : String}, IsUnmarked s →
      IsInert (column.quoted ++ "=" ++ column.quoted ++ s) := fun column s hs =>
    ((hname column (by decide)).append column.isInert_quoted).append hs.isInert
  cases a with
  | set c o => exact (Piece.Writes.text (hname c (by decide))).append (o.writes h)
  | extend c o => exact (Piece.Writes.text (htwice c (by decide))).append (o.writes h)
  | prepend c o =>
    have hafter : IsInert (" + " ++ c.quoted) :=
      IsInert.append .fixed c.isInert_quoted
    exact (((Piece.Writes.text (hname c (by decide))).append (o.writes h)).append
      (.text hafter)).of_eq
      String.append_assoc.symm (List.append_nil _)
  | remove c o => exact (Piece.Writes.text (htwice c (by decide))).append (o.writes h)
  | removeKeys c keys =>
    exact ((Piece.Writes.text (htwice c (s := " - ") (by decide))).append (.slot _)).of_eq
      String.append_assoc rfl
  | replace c key value =>
    refine ((((Piece.Writes.text (hname c (s := "[") (by decide))).append (.slot _)).append
      (.text (s := "]=") .fixed)).append (.slot _)).of_eq ?_ rfl
    simp only [String.append_assoc]
    rfl

end Assignment

namespace Condition

/-- The pieces of a condition. -/
def pieces : Condition → List Piece
  | always => []
  | .exists => [.text " IF EXISTS"]
  | relations rs => [.text " IF "] ++ Relation.clausePieces .required rs

/-- The relations of a condition. -/
def asked : Condition → List Relation
  | always | .exists => []
  | relations rs => rs

theorem params_eq (c : Condition) : c.params = c.asked.flatMap Relation.params := by cases c <;> rfl

theorem writes {c : Condition} (h : ∀ s ∈ c.asked.flatMap Relation.given, IsUnmarked s) :
    Piece.Writes c.pieces c.render (Relation.clauseSlots .required c.asked) := by
  cases c with
  | always => exact .nil
  | «exists» => exact .text .fixed
  | relations rs =>
    exact (Piece.Writes.text .fixed).append (Relation.clause_writes h)

end Condition

namespace UpdateStatement

/-- The pieces of an update: of its assignments, of the relations that find rows, of its
condition. -/
def pieces (s : UpdateStatement) : List Piece :=
  [.text ("UPDATE " ++ s.table.quoted ++ ttlText s.ttl ++ " SET ")] ++
  Piece.joined ", " (s.assignments.map fun a => a.pieces (.assigned a)) ++ [.text " WHERE "] ++
  Relation.clausePieces .sought s.relations ++ s.condition.pieces ++ [.text ";"]

/-- The slots of an update: of its assignments, of the relations that find rows, of its
condition. -/
def slots (assignments : List Assignment) (relations required : List Relation) : List Slot :=
  (assignments.flatMap fun a => a.params.map (Slot.mk (.assigned a))) ++
    Relation.clauseSlots .sought relations ++ Relation.clauseSlots .required required

theorem writes {s : UpdateStatement}
    (hassigned : ∀ x ∈ s.assignments.flatMap Assignment.given, IsUnmarked x)
    (hsought : ∀ x ∈ s.relations.flatMap Relation.given, IsUnmarked x)
    (hrequired : ∀ x ∈ s.condition.asked.flatMap Relation.given, IsUnmarked x) :
    Piece.Writes s.pieces s.render (slots s.assignments s.relations s.condition.asked) := by
  have hhead : IsInert ("UPDATE " ++ s.table.quoted ++ ttlText s.ttl ++ " SET ") :=
    ((IsInert.append .fixed s.table.isInert_quoted).append
      (isInert_ttlText s.ttl)).append .fixed
  have hassignments : Piece.Writes
      (Piece.joined ", " (s.assignments.map fun a => a.pieces (.assigned a)))
      (", ".intercalate (s.assignments.map Assignment.render))
      (s.assignments.flatMap fun a => a.params.map (Slot.mk (.assigned a))) :=
    Piece.Writes.joined .fixed fun a ha =>
      a.writes fun x hx => hassigned x (List.mem_flatMap.2 ⟨a, ha, hx⟩)
  have hwhere : Piece.Writes [.text " WHERE "] " WHERE " [] :=
    .text .fixed
  have hrelations : Piece.Writes (Relation.clausePieces .sought s.relations)
      (Relation.clause s.relations) (Relation.clauseSlots .sought s.relations) :=
    Relation.clause_writes hsought
  have hend : Piece.Writes [.text ";"] ";" [] := .text .fixed
  refine ((((((Piece.Writes.text hhead).append hassignments).append hwhere).append
    hrelations).append (s.condition.writes hrequired)).append hend).of_eq rfl ?_
  rw [List.append_nil, List.append_nil, List.nil_append]
  rfl

end UpdateStatement

namespace DeleteStatement

/-- The pieces of a deletion. -/
def pieces (s : DeleteStatement) : List Piece :=
  [.text ("DELETE FROM " ++ s.table.quoted ++ " WHERE ")] ++
    Relation.clausePieces .sought s.relations ++ [.text ";"]

theorem writes {s : DeleteStatement} (h : ∀ x ∈ s.relations.flatMap Relation.given, IsUnmarked x) :
    Piece.Writes s.pieces s.render (Relation.clauseSlots .sought s.relations) := by
  have hhead : IsInert ("DELETE FROM " ++ s.table.quoted ++ " WHERE ") :=
    (IsInert.append .fixed s.table.isInert_quoted).append .fixed
  exact (((Piece.Writes.text hhead).append (Relation.clause_writes h)).append
    (.text (s := ";") .fixed)).of_eq rfl (List.append_nil _)

end DeleteStatement

/-! ## Statements -/

namespace Statement

/-- The pieces of a statement; one that is not on rows is a single text. -/
def pieces : Statement → List Piece
  | select s => s.pieces
  | insert s => s.pieces
  | update s => s.pieces
  | delete s => s.pieces
  | s => [.text s.render]

/-- The functions of the store and the names of custom indexes, which are written as they were
given. -/
def given : Statement → List String
  | select s => s.relations.flatMap Relation.given
  | insert s => s.columns.flatMap fun c => c.2.given
  | update s => s.assignments.flatMap Assignment.given ++ s.relations.flatMap Relation.given ++
      s.condition.asked.flatMap Relation.given
  | delete s => s.relations.flatMap Relation.given
  | _ => []

end Statement

/-! ## From operations to slots -/

/-- The validator under a name is that of the first field of the name. -/
theorem Table.field?_of_validator? {t : Table} {name : String} {v : FieldValidator}
    (h : t.validator? name = some v) : t.field? name = some v.field := by
  obtain ⟨f, hf, hv⟩ := Option.bind_eq_some_iff.1 h
  unfold FieldValidator.ofField? at hv
  split at hv
  · cases hv
    exact hf
  · cases hv

theorem Table.name_of_validator? {t : Table} {name : String} {v : FieldValidator}
    (h : t.validator? name = some v) : v.field.name = name := by
  simpa using List.find?_some (Table.field?_of_validator? h)

namespace Compile

variable {t : Table} {values : List (String × Value)}

/-- A column of an insertion is made of a field: it has the name of the field, and the operand of
the value that the field has. -/
def InsertedFrom (t : Table) (values : List (String × Value)) (f : Field)
    (c : Identifier × Operand) : Prop :=
  Identifier.ofText f.name = .ok c.1 ∧ ∃ v r, t.validator? f.name = some v ∧
    (∃ s s', (resolve t f ((get? values f.name).getD .missing)).perform s = (.ok r, s')) ∧
    ∃ s s', (writeOperand v r).perform s = (.ok c.2, s')

/-- An assignment is made of a value under a name: it is to the column of that name, and of the
value that the field has. -/
def AssignedFrom (t : Table) (e : String × Value) (a : Assignment) : Prop :=
  Identifier.ofText e.1 = .ok a.column ∧ ∃ v r, t.validator? e.1 = some v ∧
    (∃ s s', (resolve t v.field e.2).perform s = (.ok r, s')) ∧
    ∃ s s', (assignment v r).perform s = (.ok a, s')

/-- The columns of an insertion are made of fields in the order of the table. -/
theorem insertColumns_ok : ∀ {fs : List Field} {s s' : Session}
    {columns : List (Identifier × Operand)},
    (insertColumns t values fs).perform s = (.ok columns, s') →
      ∃ made, made.Sublist fs ∧ List.Forall₂ (InsertedFrom t values) made columns
  | [], _, _, _, h => by
    cases h
    exact ⟨[], .slnil, .nil⟩
  | f :: fs, s, s', columns, h => by
    have hskip : ∀ {s : Session}, (insertColumns t values fs).perform s = (.ok columns, s') →
        ∃ made, made.Sublist (f :: fs) ∧ List.Forall₂ (InsertedFrom t values) made columns := by
      intro s h
      obtain ⟨made, hmade, hcolumns⟩ := insertColumns_ok h
      exact ⟨made, hmade.cons f, hcolumns⟩
    unfold insertColumns at h
    split at h
    · exact hskip h
    · obtain ⟨r, s₁, hr, h⟩ := Action.bind_ok h
      split at h
      · exact hskip h
      · split at h
        · exact absurd h Action.refuse_ne_ok
        · obtain ⟨v, s₂, hv, h⟩ := Action.bind_ok h
          obtain ⟨operand, s₃, hoperand, h⟩ := Action.bind_ok h
          obtain ⟨column, s₄, hcolumn, h⟩ := Action.bind_ok h
          obtain ⟨rest, s₅, hrest, h⟩ := Action.bind_ok h
          cases h
          obtain ⟨made, hmade, hcolumns⟩ := insertColumns_ok hrest
          exact ⟨f :: made, hmade.cons_cons f, .cons ⟨(Action.lift_ok hcolumn).1, v, r,
            Table.validator_ok hv, ⟨s, s₁, hr⟩, s₂, s₃, hoperand⟩ hcolumns⟩

/-- The assignment of a directive is to the column that is given, and none of a plain value. -/
theorem directiveAssignment_ok {v : FieldValidator} {column : Identifier}
    {directive : Directive} {operand : Value} {a : Assignment} {s s' : Session}
    (h : (directiveAssignment v column directive operand).perform s = (.ok a, s')) :
    a.column = column ∧ ∀ column' o, a ≠ .set column' o := by
  cases directive with
  | replace =>
    simp only [directiveAssignment, replacement] at h
    split at h
    · split at h
      · cases h
        exact ⟨rfl, nofun⟩
      · exact absurd h Action.refuse_ne_ok
    · split at h
      · cases h
        exact ⟨rfl, nofun⟩
      · exact absurd h Action.refuse_ne_ok
    · exact absurd h Action.refuse_ne_ok
  | remove =>
    simp only [directiveAssignment, removal] at h
    split at h
    · split at h
      · cases h
        exact ⟨rfl, nofun⟩
      · exact absurd h Action.refuse_ne_ok
    · obtain ⟨o, s₁, -, h⟩ := Action.bind_ok h
      cases h
      exact ⟨rfl, nofun⟩
  | add | append =>
    obtain ⟨o, s₁, -, h⟩ := Action.bind_ok h
    cases h
    exact ⟨rfl, nofun⟩
  | prepend =>
    obtain ⟨o, s₁, -, h⟩ := Action.bind_ok h
    split at h
    · cases h
      exact ⟨rfl, nofun⟩
    · exact absurd h Action.refuse_ne_ok

/-- An assignment is to the column of its field. -/
theorem column_of_assignment {v : FieldValidator} {r : Resolved} {a : Assignment} {s s' : Session}
    (h : (assignment v r).perform s = (.ok a, s')) :
      Identifier.ofText v.field.name = .ok a.column := by
  obtain ⟨column, s₁, hcolumn, h⟩ := Action.bind_ok h
  rw [(Action.lift_ok hcolumn).1]
  split at h
  · obtain ⟨o, s₂, -, h⟩ := Action.bind_ok h
    cases h
    rfl
  · split at h
    · rw [(directiveAssignment_ok h).1]
    · exact absurd h Action.refuse_ne_ok

theorem assignments_ok : ∀ {es : List (String × Value)} {s s' : Session} {as : List Assignment},
    (assignments t es).perform s = (.ok as, s') →
      ∃ made, made.Sublist es ∧ List.Forall₂ (AssignedFrom t) made as
  | [], _, _, _, h => by
    cases h
    exact ⟨[], .slnil, .nil⟩
  | (name, supplied) :: es, s, s', as, h => by
    have hskip : ∀ {s : Session}, (assignments t es).perform s = (.ok as, s') →
        ∃ made, made.Sublist ((name, supplied) :: es) ∧ List.Forall₂ (AssignedFrom t) made as := by
      intro s h
      obtain ⟨made, hmade, has⟩ := assignments_ok h
      exact ⟨made, hmade.cons _, has⟩
    obtain ⟨v, s₁, hv, h⟩ := Action.bind_ok h
    split at h
    · exact hskip h
    · obtain ⟨r, s₂, hr, h⟩ := Action.bind_ok h
      split at h
      · exact hskip h
      · split at h
        · exact absurd h Action.refuse_ne_ok
        · obtain ⟨first, s₃, hfirst, h⟩ := Action.bind_ok h
          obtain ⟨rest, s₄, hrest, h⟩ := Action.bind_ok h
          cases h
          obtain ⟨made, hmade, has⟩ := assignments_ok hrest
          have hvalidator := Table.validator_ok hv
          have hcolumn := column_of_assignment hfirst
          rw [Table.name_of_validator? hvalidator] at hcolumn
          exact ⟨_ :: made, hmade.cons_cons _,
            .cons ⟨hcolumn, v, r, hvalidator, ⟨s₁, s₂, hr⟩, s₂, s₃, hfirst⟩ has⟩

/-- The relations meet what a query asks for, one by one and in its order. -/
def Meets (t : Table) (query : List (String × Value)) (rs : List Relation) : Prop :=
  List.Forall₂ (Demand.MetBy t) (Query.keptDemands t (queryEntries query)) rs

/-- The condition of an update is that the row exists, that there are relations which meet what is
asked for, or none when nothing is. -/
theorem condition_cases {o : Modification} {c : Condition} {s s' : Session}
    (h : (condition t o).perform s = (.ok c, s')) :
    (o.ifExists = true ∧ c = .exists) ∨ (o.ifExists = false ∧
      ((o.conditions.getD [] = [] ∧ c = .always) ∨ ∃ es rs, o.conditions = some es ∧ es ≠ [] ∧
        c = .relations rs ∧ Meets t es rs)) := by
  unfold condition at h
  split at h
  · rename_i hexists
    cases h
    exact .inl ⟨hexists, rfl⟩
  · rename_i hexists
    refine .inr ⟨by simpa using hexists, ?_⟩
    split at h
    · rename_i hnone
      cases h
      exact .inl ⟨by rw [hnone]; rfl, rfl⟩
    · rename_i hempty
      cases h
      exact .inl ⟨by rw [hempty]; rfl, rfl⟩
    · rename_i es hne hsome
      obtain ⟨rs, hrs, rfl⟩ := Action.map_ok h
      exact .inr ⟨es, rs, hsome, hne, rfl, Query.relations_met hrs⟩

theorem condition_ok {o : Modification} {c : Condition} {s s' : Session}
    (h : (condition t o).perform s = (.ok c, s')) :
    Meets t (if o.ifExists then [] else o.conditions.getD []) c.asked := by
  obtain ⟨hexists, rfl⟩ | ⟨hexists, ⟨hnone, rfl⟩ | ⟨es, rs, hsome, -, rfl, hmeets⟩⟩ :=
    condition_cases h
  · rw [if_pos hexists]
    exact .nil
  · rw [hexists, hnone]
    exact .nil
  · rw [hexists, hsome]
    exact hmeets

/-- Putting an insertion together ends when its columns are put together. -/
theorem insertion_columns {o : Insertion} {p : Prepared} {s s' : Session}
    (h : (insertion t o).perform s = (.ok p, s')) :
    ∃ i, p.statement = .insert i ∧
      (insertColumns t o.values t.fields).perform s = (.ok i.columns, s') ∧
      Identifier.ofText o.table = .ok i.table ∧ i.ifNotExists = o.ifNotExists ∧
      i.ttl = (o.ttl <|> t.defaultTtl) := by
  unfold insertion at h
  dsimp only at h
  split at h
  · obtain ⟨_, s₁, hrefused, -⟩ := Action.bind_ok h
    exact absurd hrefused Action.refuse_ne_ok
  · obtain ⟨columns, s₁, hcolumns, h⟩ := Action.bind_ok h
    obtain ⟨table, s₂, htable, h⟩ := Action.bind_ok h
    obtain ⟨ttl, s₃, httl, h⟩ := Action.bind_ok h
    cases h
    obtain ⟨hname, rfl⟩ := Action.lift_ok htable
    obtain ⟨hexpires, rfl⟩ := timeToLive_ok httl
    exact ⟨_, rfl, hcolumns, hname, rfl, hexpires⟩

/-- The statement of an insertion has the columns that are inserted, the table, the condition and
the time to live that are asked for. -/
theorem insertion_ok {o : Insertion} {p : Prepared} {s s' : Session}
    (h : (insertion t o).perform s = (.ok p, s')) :
    ∃ i, p.statement = .insert i ∧
      (∃ s₁, (insertColumns t o.values t.fields).perform s = (.ok i.columns, s₁)) ∧
      Identifier.ofText o.table = .ok i.table ∧ i.ifNotExists = o.ifNotExists ∧
      i.ttl = (o.ttl <|> t.defaultTtl) := by
  obtain ⟨i, hi, hcolumns, hrest⟩ := insertion_columns h
  exact ⟨i, hi, ⟨s', hcolumns⟩, hrest⟩

end Compile

namespace Operation

open Compile

/-- The operation selects, inserts, updates or deletes rows. -/
def IsOnRows : Operation → Prop
  | select _ | insert _ | update _ | delete _ => True
  | _ => False

section Other
variable {t : Table} {o : Operation} {s s' : Session} {p : Prepared}

theorem definition_ok {d : Ddl String} (h : (definition d).perform s = (.ok p, s')) :
    ∃ d', p.statement = .define d' := by
  obtain ⟨d', s₁, -, h⟩ := Action.bind_ok h
  cases h
  exact ⟨d', rfl⟩

/-- An operation that is not on rows removes all of them or defines. -/
theorem compile_other (hrows : ¬ o.IsOnRows) (h : (o.compile t).perform s = (.ok p, s')) :
    (∃ table, p.statement = .truncate table) ∨ ∃ d, p.statement = .define d := by
  cases o with
  | select | insert | update | delete => exact absurd trivial hrows
  | truncate o =>
    obtain ⟨table, s₁, -, h⟩ := Action.bind_ok h
    cases h
    exact .inl ⟨table, rfl⟩
  | createIndex o =>
    obtain ⟨d, s₁, -, h⟩ := Action.bind_ok h
    exact .inr (definition_ok h)
  | _ => exact .inr (definition_ok h)

end Other

/-- The slots are those that the operation asks for, in its order. -/
def Orders (t : Table) : Operation → List Slot → Prop
  | select o, slots => ∃ rs, Meets t o.query rs ∧ slots = Relation.clauseSlots .sought rs
  | insert o, slots => ∃ made columns, made.Sublist t.fields ∧
      List.Forall₂ (InsertedFrom t o.values) made columns ∧ slots = InsertStatement.slots columns
  | update o, slots => ∃ made as sought required, made.Sublist o.values ∧
      List.Forall₂ (AssignedFrom t) made as ∧ Meets t o.query sought ∧
      Meets t (if o.ifExists then [] else o.conditions.getD []) required ∧
      slots = UpdateStatement.slots as sought required
  | delete o, slots => ∃ rs, Meets t o.query rs ∧ slots = Relation.clauseSlots .sought rs
  | _, _ => False

/-- The statement of an operation on rows is written of inert texts and of the slots that the
operation asks for. -/
theorem compile_writes {t : Table} {o : Operation} {s s' : Session} {p : Prepared}
    (hrows : o.IsOnRows)
    (h : (o.compile t).perform s = (.ok p, s')) (hgiven : ∀ x ∈ p.statement.given, IsUnmarked x) :
    ∃ slots, Piece.Writes p.statement.pieces p.statement.render slots ∧
      slots.map Slot.value = p.statement.params ∧ o.Orders t slots := by
  cases o with
  | select o =>
    obtain ⟨statement, s₁, hstatement, h⟩ := Action.bind_ok h
    cases h
    obtain ⟨hitems, ⟨s₂, s₃, hrs⟩, -⟩ := selection_ok hstatement
    refine ⟨_, SelectStatement.writes (fun item hitem => ?_) hgiven, ?_, _, Query.relations_met hrs,
      rfl⟩
    · obtain ⟨text, -, htext⟩ := forall₂_mem_right (forall₂_of_mapM hitems) hitem
      exact Projection.isInert_render htext
    · exact Relation.values_clauseSlots _ _
  | insert o =>
    obtain ⟨i, hi, ⟨s₁, hcolumns⟩, -⟩ := insertion_ok h
    rw [hi] at hgiven ⊢
    obtain ⟨made, hmade, hinserted⟩ := insertColumns_ok hcolumns
    exact ⟨_, InsertStatement.writes hgiven, Slot.values_flatMap _ _ _, made, _, hmade, hinserted,
      rfl⟩
  | update o =>
    obtain ⟨u, hu, ⟨_, hassignments⟩, ⟨_, _, hrelations⟩, ⟨_, _, hcondition⟩, -⟩ :=
      modification_ok h
    rw [hu] at hgiven ⊢
    obtain ⟨made, hmade, hassigned⟩ := assignments_ok hassignments
    refine ⟨_, UpdateStatement.writes (fun x hx => hgiven x ?_) (fun x hx => hgiven x ?_)
      (fun x hx => hgiven x ?_), ?_, made, _, _, _, hmade, hassigned,
        Query.relations_met hrelations,
        condition_ok hcondition, rfl⟩
    · exact List.mem_append_left _ (List.mem_append_left _ hx)
    · exact List.mem_append_left _ (List.mem_append_right _ hx)
    · exact List.mem_append_right _ hx
    · rw [UpdateStatement.slots, List.map_append, List.map_append, Slot.values_flatMap,
        Relation.values_clauseSlots, Relation.values_clauseSlots, ← Condition.params_eq]
      rfl
  | delete o =>
    obtain ⟨d, hd, ⟨s₁, s₂, hrs⟩, -⟩ := deletion_ok h
    rw [hd] at hgiven ⊢
    exact ⟨_, DeleteStatement.writes hgiven, Relation.values_clauseSlots _ _, _,
      Query.relations_met hrs, rfl⟩
  | _ => exact absurd hrows id

/-- A statement on rows has as many placeholders outside quotes as it binds values, and each of them
is the one that is written for the value at its place: for the columns of an insertion in the order
of the fields, for the assignments of an update, the rows that it finds and then its condition, and
for relations in the order of the query. -/
theorem compile_aligned {t : Table} {o : Operation} {s s' : Session} {p : Prepared}
    (hrows : o.IsOnRows)
    (h : (o.compile t).perform s = (.ok p, s')) (hgiven : ∀ x ∈ p.statement.given, IsUnmarked x) :
    (placeholders p.statement.render).length = p.statement.params.length ∧
    Piece.written p.statement.pieces = p.statement.render ∧
    placeholders p.statement.render = Piece.places 0 p.statement.pieces ∧
    (Piece.slots p.statement.pieces).map Slot.value = p.statement.params ∧
    o.Orders t (Piece.slots p.statement.pieces) := by
  obtain ⟨slots, hwrites, hvalues, horders⟩ := compile_writes hrows h hgiven
  refine ⟨?_, hwrites.written, hwrites.placeholders_eq, ?_, ?_⟩
  · rw [hwrites.length_placeholders, ← hvalues, List.length_map]
  · rw [hwrites.slots, hvalues]
  · rw [hwrites.slots]
    exact horders

/-- People with a name and tags. -/
def taggedPeople : Table where
  name := "people"
  fields := [{ name := "id", type := "int" }, { name := "name", type := "text" },
    { name := "tags", type := "map", argument := some "<text,text>" }]
  partitionKey := ["id"]
  clusteringKey := []
  clusteringOrder := []
  indexes := []
  customIndexes := []
  views := []
  defaultTtl := none
  hooks := []

/-- Replaces a tag and the name, where a search has a question mark and a quote. -/
def retagging : Operation := .update {
  table := "people"
  values := [("tags", .map [(.text "$replace", .map [(.text "a", .text "b")])]),
    ("name", .text "eve")]
  query := [("$solr_query", .text "who's?"), ("id", .int 1)]
  ttl := some 60
  conditions := some [("name", .text "bob")] }

/-- The question mark of the search is inside quotes, and the other five are placeholders. -/
theorem compile_aligned_retagging : ∃ p s',
    (retagging.compile taggedPeople).perform {} = (.ok p, s') ∧
    p.statement.render = "UPDATE \"people\" USING TTL 60 SET \"tags\"[?]=?, \"name\"=? " ++
      "WHERE solr_query='who''s?' AND \"id\" = ? IF \"name\" = ?;" ∧
    p.statement.given = [] ∧
    (placeholders p.statement.render).length = p.statement.params.length ∧
    placeholders p.statement.render = Piece.places 0 p.statement.pieces ∧
    retagging.Orders taggedPeople (Piece.slots p.statement.pieces) := by
  obtain ⟨p, s', hp, hread⟩ :=
    Action.ok_of_read (g := fun p => (p.statement.render, p.statement.given))
    (a := retagging.compile taggedPeople) (s := {})
    (y := ("UPDATE \"people\" USING TTL 60 SET \"tags\"[?]=?, \"name\"=? " ++
      "WHERE solr_query='who''s?' AND \"id\" = ? IF \"name\" = ?;", [])) (by decide +kernel)
  obtain ⟨hrender, hgiven⟩ := Prod.mk.inj hread
  obtain ⟨hlength, -, hplaces, -, horders⟩ := compile_aligned (o := retagging) trivial hp
    (by rw [hgiven]; exact fun _ hx => nomatch hx)
  exact ⟨p, s', hp, hrender, hgiven, hlength, hplaces, horders⟩

end Operation

end WideColumn
