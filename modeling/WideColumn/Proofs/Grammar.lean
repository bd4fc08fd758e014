import WideColumn.Proofs.Inert
import WideColumn.Proofs.Naming
import WideColumn.Proofs.Query
import WideColumn.Proofs.Vetting

/-!
# The grammar of relations

Whatever the values of a query are, a relation has only names, operators, placeholders and literals:
`Relation.Derives` is the grammar. As long as the query marks no function of the store, all columns
are columns of declared fields and all operands are placeholders (`Relation.Placed`), and literals
are closed. What is left to the names is exact (`Query.derives_iff_namesIdentifiers`): the relations
of an accepted query are derived exactly when every name that is written is an identifier. A column
can fail to be one only by a line end at its end; the name of a custom index is written as it was
given.
-/

namespace WideColumn

/-! ## Values without functions of the store -/

namespace Value

mutual

/-- The value marks a function of the store or holds a value that does. -/
def holdsStoreFunction : Value → Bool
  | list xs | tuple xs | set _ xs => anyHoldsStoreFunction xs
  | map es => (map es).isStoreFunction || anyEntryHoldsStoreFunction es
  | _ => false

/-- A value of the list marks a function of the store or holds one. -/
def anyHoldsStoreFunction : List Value → Bool
  | [] => false
  | x :: xs => holdsStoreFunction x || anyHoldsStoreFunction xs

/-- The value of an entry marks a function of the store or holds one. -/
def anyEntryHoldsStoreFunction : List (Value × Value) → Bool
  | [] => false
  | (_, v) :: es => holdsStoreFunction v || anyEntryHoldsStoreFunction es

end

variable {v : Value}

theorem storeFunction?_of_holds (h : v.holdsStoreFunction = false) : v.storeFunction? = none := by
  cases v with
  | map es =>
    rw [holdsStoreFunction, Bool.or_eq_false_iff] at h
    exact Option.isNone_iff_eq_none.1 (Option.isSome_eq_false_iff.1 h.1)
  | _ => rfl

theorem anyHoldsStoreFunction_mem : ∀ {xs : List Value}, anyHoldsStoreFunction xs = false →
    ∀ x ∈ xs, x.holdsStoreFunction = false
  | [], _, x, hx => nomatch hx
  | y :: ys, h, x, hx => by
    rw [anyHoldsStoreFunction, Bool.or_eq_false_iff] at h
    rcases List.mem_cons.1 hx with rfl | hx
    · exact h.1
    · exact anyHoldsStoreFunction_mem h.2 x hx

theorem anyEntryHoldsStoreFunction_mem : ∀ {es : List (Value × Value)},
    anyEntryHoldsStoreFunction es = false → ∀ e ∈ es, e.2.holdsStoreFunction = false
  | [], _, e, he => nomatch he
  | (k, v) :: es, h, e, he => by
    rw [anyEntryHoldsStoreFunction, Bool.or_eq_false_iff] at h
    rcases List.mem_cons.1 he with rfl | he
    · exact h.1
    · exact anyEntryHoldsStoreFunction_mem h.2 e he

theorem holdsStoreFunction_entry {es : List (Value × Value)}
    (h : (map es).holdsStoreFunction = false) : ∀ e ∈ es, e.2.holdsStoreFunction = false := by
  rw [holdsStoreFunction, Bool.or_eq_false_iff] at h
  exact anyEntryHoldsStoreFunction_mem h.2

/-- The elements of a list or a tuple hold no more than it does. -/
theorem holdsStoreFunction_sequence {xs : List Value} (h : v.holdsStoreFunction = false)
    (hxs : v.sequence? = some xs) : ∀ x ∈ xs, x.holdsStoreFunction = false := by
  cases v with
  | list ys | tuple ys =>
    cases hxs
    rw [holdsStoreFunction] at h
    exact anyHoldsStoreFunction_mem h
  | _ => cases hxs

end Value

/-! ## Literals -/

/-- The characters between the quotes of a closed literal: each quote is written twice. -/
inductive LiteralBody : List Char → Prop
  | nil : LiteralBody []
  | char {c : Char} {cs : List Char} (hc : c ≠ '\'') (h : LiteralBody cs) : LiteralBody (c :: cs)
  | quote {cs : List Char} (h : LiteralBody cs) : LiteralBody ('\'' :: '\'' :: cs)

namespace LiteralBody

theorem doubleQuotes : ∀ cs : List Char, LiteralBody (doubleQuotes cs)
  | [] => .nil
  | c :: cs => by
    unfold WideColumn.doubleQuotes
    split
    · exact .quote (doubleQuotes cs)
    · rename_i hc
      exact .char hc (doubleQuotes cs)

/-- A literal body has an even number of quotes. -/
theorem even_count {cs : List Char} (h : LiteralBody cs) : cs.count '\'' % 2 = 0 := by
  induction h with
  | nil => rfl
  | char hc _ ih => rwa [List.count_cons_of_ne hc]
  | quote _ ih =>
    rw [List.count_cons_self, List.count_cons_self]
    omega

/-- No literal body ends with a comma, a quote and a literal body: the quote would be alone. -/
theorem not_append {cs ds : List Char} (hds : LiteralBody ds) :
    ¬ LiteralBody (cs ++ ',' :: '\'' :: ds) := by
  intro h
  generalize hbs : cs ++ ',' :: '\'' :: ds = bs at h
  induction h generalizing cs with
  | nil => simp at hbs
  | char hc hrest ih =>
    cases cs with
    | nil =>
      obtain ⟨-, rfl⟩ := List.cons.inj hbs
      -- a body has an even number of quotes, and here one of two bodies would have one more
      have hodd := hrest.even_count
      have heven := hds.even_count
      rw [List.count_cons_self] at hodd
      omega
    | cons c cs => exact ih (List.cons.inj hbs).2
  | quote _ ih =>
    match cs, hbs with
    | [], hbs => exact absurd (List.cons.inj hbs).1 (by decide)
    | [_], hbs => exact absurd (List.cons.inj (List.cons.inj hbs).2).1 (by decide)
    | _ :: _ :: cs, hbs => exact ih (List.cons.inj (List.cons.inj hbs).2).2

/-- What stands before the first comma and quote that open a literal is the same, whichever way the
text is read, when one of the two has no comma. -/
theorem before_eq {xs ys ds bs : List Char} (hys : ',' ∉ ys) (hds : LiteralBody ds)
    (hbs : LiteralBody bs) (h : xs ++ ',' :: '\'' :: ds = ys ++ ',' :: '\'' :: bs) : xs = ys := by
  rcases List.append_eq_append_iff.1 h with ⟨as, rfl, htail⟩ | ⟨as, rfl, htail⟩
  · cases as with
    | nil => exact (List.append_nil xs).symm
    | cons a as =>
      obtain ⟨rfl, -⟩ := List.cons.inj htail
      exact absurd (List.mem_append_right xs List.mem_cons_self) hys
  · match as, htail with
    | [], _ => exact List.append_nil ys
    | [_], htail => exact absurd (List.cons.inj (List.cons.inj htail).2).1 (by decide)
    | _ :: _ :: as, htail =>
      obtain ⟨-, htail⟩ := List.cons.inj htail
      obtain ⟨-, rfl⟩ := List.cons.inj htail
      exact absurd hbs (not_append hds)

end LiteralBody

/-! ## The grammar -/

/-- The column has the name of a declared field. -/
def Table.Spells (t : Table) (column : Identifier) : Prop :=
  ∃ f ∈ t.fields, Identifier.ofText f.name = .ok column

/-- The name is an identifier, and a column has it. -/
def Table.Writes (t : Table) (name : String) : Prop :=
  Name.IsIdentifier name ∧ ∃ column, t.Spells column ∧ column.text = name

namespace Relation

/-- A name between double quotes. -/
def quotedName (name : String) : String := "\"" ++ name ++ "\""

/-- A literal with the given characters between its quotes. -/
def literalOf (body : List Char) : String := String.ofList ('\'' :: body ++ ['\''])

/-- The operators that stand between a column and a placeholder. -/
def columnOperators : List String :=
  ["=", "!=", "IS NOT", ">", "<", ">=", "<=", "LIKE", "IN", "CONTAINS", "CONTAINS KEY"]

/-- The operators that stand between tokens. -/
def tokenOperators : List String := ["=", ">", "<", ">=", "<="]

/-- The texts of relations: columns in quotes with an operator and placeholders, a token of columns
with one of as many placeholders, and closed literals in a search or for a custom index. -/
inductive Derives (t : Table) : String → Prop
  | column {name operator : String} (hname : t.Writes name)
      (hoperator : operator ∈ columnOperators) :
      Derives t (quotedName name ++ " " ++ operator ++ " ?")
  | entry {name : String} (hname : t.Writes name) : Derives t (quotedName name ++ "[?] = ?")
  | token {names : List String} {operator : String} (hnames : ∀ name ∈ names, t.Writes name)
      (hoperator : operator ∈ tokenOperators) :
      Derives t ("token(" ++ ",".intercalate (names.map quotedName) ++ ") " ++ operator ++
        " token(" ++ ",".intercalate (names.map fun _ => "?") ++ ")")
  | search {body : List Char} (hbody : LiteralBody body) :
      Derives t ("solr_query=" ++ literalOf body)
  | expression {index : String} {body : List Char} (hindex : Name.IsIdentifier index)
      (hbody : LiteralBody body) : Derives t ("expr(" ++ index ++ "," ++ literalOf body ++ ")")

/-- The names that are written into a relation. -/
def names : Relation → List String
  | compare column _ _ | isIn column _ | entry column _ _ | contains column _
  | containsKey column _ => [column.text]
  | token columns _ _ => columns.map Identifier.text
  | search _ => []
  | expression index _ => [index]

/-- The columns are those of declared fields, and the operands are placeholders. -/
def Placed (t : Table) : Relation → Prop
  | compare column _ o => t.Spells column ∧ ∃ x, o = .bound x
  | isIn column _ | entry column _ _ | contains column _ | containsKey column _ => t.Spells column
  | token columns c os => c.comparesTokens = true ∧ os.length = columns.length ∧
      (∀ column ∈ columns, t.Spells column) ∧ ∀ o ∈ os, ∃ x, o = .bound x
  | search _ | expression _ _ => True

/-! ### Characters of texts -/

theorem mem_append {c : Char} {s u : String} :
    c ∈ (s ++ u).toList ↔ c ∈ s.toList ∨ c ∈ u.toList := by
  rw [String.toList_append, List.mem_append]

/-- A character of joined texts is one of the separator or of a text. -/
theorem mem_intercalate {c : Char} {separator : String} : ∀ {ts : List String},
    c ∈ (separator.intercalate ts).toList → c ∈ separator.toList ∨ ∃ u ∈ ts, c ∈ u.toList
  | [], h => by
    rw [String.intercalate_nil] at h
    exact nomatch h
  | [u], h => by
    rw [String.intercalate_singleton] at h
    exact .inr ⟨u, List.mem_cons_self, h⟩
  | u :: w :: ts, h => by
    rw [String.intercalate_cons_cons, mem_append, mem_append] at h
    rcases h with (h | h) | h
    · exact .inr ⟨u, List.mem_cons_self, h⟩
    · exact .inl h
    · rcases mem_intercalate h with h | ⟨v, hv, h⟩
      · exact .inl h
      · exact .inr ⟨v, List.mem_cons_of_mem u hv, h⟩

/-- A character of a text is one of the joined texts. -/
theorem mem_intercalate_of_mem {c : Char} {separator u : String} : ∀ {ts : List String},
    u ∈ ts → c ∈ u.toList → c ∈ (separator.intercalate ts).toList
  | [w], hu, h => by
    rw [String.intercalate_singleton]
    exact List.mem_singleton.1 hu ▸ h
  | w :: v :: ts, hu, h => by
    rw [String.intercalate_cons_cons, mem_append, mem_append]
    rcases List.mem_cons.1 hu with rfl | hu
    · exact .inl (.inl h)
    · exact .inr (mem_intercalate_of_mem hu h)

theorem notMem_append {c : Char} {s u : String} (hs : c ∉ s.toList) (hu : c ∉ u.toList) :
    c ∉ (s ++ u).toList := fun hmem => (mem_append.1 hmem).elim hs hu

theorem notMem_intercalate {c : Char} {separator : String} {ts : List String}
    (hseparator : c ∉ separator.toList) (h : ∀ u ∈ ts, c ∉ u.toList) :
    c ∉ (separator.intercalate ts).toList :=
  fun hmem => (mem_intercalate hmem).elim hseparator fun ⟨u, hu, hmem⟩ => h u hu hmem

/-- A text begins as its first part does, unless that part is empty. -/
theorem head?_append {s u : String} :
    (s ++ u).toList.head? = s.toList.head?.or u.toList.head? := by
  rw [String.toList_append, List.head?_append]

/-- A quoted name has a line end only in the name. -/
theorem mem_quotedName {name : String} :
    '\n' ∈ (quotedName name).toList ↔ '\n' ∈ name.toList := by
  unfold quotedName
  rw [mem_append, mem_append]
  have hquote : '\n' ∉ ("\"" : String).toList := by decide
  simp only [hquote, false_or, or_false]

/-! ### What is derived -/

variable {t : Table} {r : Relation}

/-- What is derived and begins with a quote or as a token has no line end. -/
theorem Derives.notMem_newline {text : String} (h : Derives t text)
    (hhead : text.toList.head? = some '"' ∨ text.toList.head? = some 't') :
    '\n' ∉ text.toList := by
  have hname : ∀ {name : String}, t.Writes name → '\n' ∉ (quotedName name).toList :=
    fun hname hmem => hname.1.notMem_newline (mem_quotedName.1 hmem)
  cases h with
  | @column name operator hwrites hoperator =>
    have hoperators : ∀ operator ∈ columnOperators, '\n' ∉ operator.toList := by decide
    exact notMem_append (notMem_append (notMem_append (hname hwrites) (by decide))
      (hoperators _ hoperator)) (by decide)
  | entry hwrites => exact notMem_append (hname hwrites) (by decide)
  | @token names operator hwrites hoperator =>
    have hoperators : ∀ operator ∈ tokenOperators, '\n' ∉ operator.toList := by decide
    have hnames : '\n' ∉ (",".intercalate (names.map quotedName)).toList :=
      notMem_intercalate (by decide)
        (List.forall_mem_map.2 fun name hmem => hname (hwrites name hmem))
    have hplaces : '\n' ∉ (",".intercalate (names.map fun _ => "?")).toList :=
      notMem_intercalate (by decide) (List.forall_mem_map.2 fun _ _ => by decide)
    exact notMem_append (notMem_append (notMem_append (notMem_append (notMem_append (notMem_append
      (by decide) hnames) (by decide)) (hoperators _ hoperator)) (by decide)) hplaces) (by decide)
  | search _ | expression _ _ =>
    simp only [head?_append] at hhead
    rcases hhead with hhead | hhead <;> exact absurd (Option.some.inj hhead) (by decide)

/-- The text of a relation on columns begins with the quote of the first, or as a token. -/
theorem head_render {columns : List Identifier} {operator : Operator}
    (h : r.subject? = some (columns, operator)) :
    r.render.toList.head? = some '"' ∨ r.render.toList.head? = some 't' := by
  cases r with
  | token columns c os =>
    right
    simp only [render, head?_append]
    rfl
  | search _ | expression _ _ => cases h
  | _ =>
    left
    simp only [render, Identifier.quoted, head?_append]
    rfl

/-- The columns of a relation are written into its text. -/
theorem mem_render {columns : List Identifier} {operator : Operator} {column : Identifier}
    {c : Char} (h : r.subject? = some (columns, operator)) (hcolumn : column ∈ columns)
    (hc : c ∈ column.text.toList) : c ∈ r.render.toList := by
  have hquoted : c ∈ column.quoted.toList := mem_append.2 (.inl (mem_append.2 (.inr hc)))
  cases r with
  | token columns _ _ =>
    cases h
    have hall : c ∈ (",".intercalate (columns.map Identifier.quoted)).toList :=
      mem_intercalate_of_mem (List.mem_map_of_mem hcolumn) hquoted
    simp only [render, mem_append, hall, true_or, or_true]
  | search _ | expression _ _ => cases h
  | _ =>
    cases h
    cases List.mem_singleton.1 hcolumn
    simp only [render, mem_append, hquoted, true_or]

theorem names_of_subject? {columns : List Identifier} {operator : Operator}
    (h : r.subject? = some (columns, operator)) : r.names = columns.map Identifier.text := by
  cases r <;> cases h <;> rfl

/-- The characters of a relation to a custom index. -/
theorem toList_expression (index : String) (body : List Char) :
    ("expr(" ++ index ++ "," ++ literalOf body ++ ")").toList =
      "expr(".toList ++ (index.toList ++ ',' :: '\'' :: body) ++ ['\'', ')'] := by
  simp [literalOf, String.toList_append]

/-- The name of a custom index is an identifier wherever its relation is derived: the comma and the
quote that open the literal are the first ones, since a literal body cannot hold them alone. -/
theorem Derives.isIdentifier_index {index query : String}
    (h : Derives t (Relation.expression index query).render) : Name.IsIdentifier index := by
  generalize htext : (Relation.expression index query).render = text at h
  have hchars : text.toList = "expr(".toList ++
      (index.toList ++ ',' :: '\'' :: doubleQuotes query.toList) ++ ['\'', ')'] :=
    htext ▸ toList_expression index (doubleQuotes query.toList)
  have hhead : text.toList.head? = some 'e' := hchars ▸ rfl
  cases h with
  | @expression index' body hindex hbody =>
    rw [toList_expression] at hchars
    have hinside := List.append_cancel_left (List.append_cancel_right hchars)
    have hsame : index.toList = index'.toList := LiteralBody.before_eq
      (fun hcomma => absurd (hindex.isInner _ hcomma) (by decide)) (LiteralBody.doubleQuotes _)
      hbody hinside.symm
    exact String.toList_injective hsame ▸ hindex
  | column _ _ | entry _ | token _ _ | search _ =>
    simp only [quotedName, head?_append] at hhead
    exact absurd (Option.some.inj hhead) (by decide)

/-- A relation whose operands are placeholders is derived exactly when the names that are written
into it are identifiers. -/
theorem derives_iff (h : r.Placed t) :
    Derives t r.render ↔ ∀ name ∈ r.names, Name.IsIdentifier name := by
  constructor
  · intro hderives
    cases hsubject : r.subject? with
    | some subject =>
      obtain ⟨columns, operator⟩ := subject
      rw [names_of_subject? hsubject]
      intro name hname
      obtain ⟨column, hcolumn, rfl⟩ := List.mem_map.1 hname
      exact Identifier.isIdentifier_text fun hnewline =>
        hderives.notMem_newline (head_render hsubject) (mem_render hsubject hcolumn hnewline)
    | none =>
      cases r with
      | search query => exact fun name hname => nomatch hname
      | expression index query =>
        exact fun name hname => List.mem_singleton.1 hname ▸ hderives.isIdentifier_index
      | _ => cases hsubject
  · intro hnames
    -- the other way a derivation is put together, and each form has a rule of its own
    have hwrites : ∀ {column : Identifier}, column.text ∈ r.names → t.Spells column →
        t.Writes column.text := fun hname hspells => ⟨hnames _ hname, _, hspells, rfl⟩
    have hcolumn : ∀ {column : Identifier} (operator : String), operator ∈ columnOperators →
        r.names = [column.text] → t.Spells column →
        r.render = column.quoted ++ (" " ++ operator ++ " ?") → Derives t r.render := by
      intro column operator hoperator hname hspells htext
      rw [htext, ← String.append_assoc, ← String.append_assoc]
      exact .column (hwrites (hname ▸ List.mem_cons_self) hspells) hoperator
    cases r with
    | compare column c o =>
      obtain ⟨hspells, x, rfl⟩ := h
      have hoperator : c.sign ∈ columnOperators := by cases c <;> decide
      refine hcolumn _ hoperator rfl hspells ?_
      simp only [render, Operand.render, String.append_assoc]
      rfl
    | isIn column items => exact hcolumn "IN" (by decide) rfl h rfl
    | contains column _ => exact hcolumn "CONTAINS" (by decide) rfl h rfl
    | containsKey column _ => exact hcolumn "CONTAINS KEY" (by decide) rfl h rfl
    | entry column _ _ => exact .entry (hwrites List.mem_cons_self h)
    | token columns c os =>
      obtain ⟨htokens, hlength, hspells, hbound⟩ := h
      have hoperator : c.sign ∈ tokenOperators := by
        revert htokens
        cases c <;> decide
      have hplaces : os.map Operand.render = (columns.map Identifier.text).map fun _ => "?" := by
        rw [List.map_map]
        have hmark : ∀ o ∈ os, o.render = "?" := by
          intro o ho
          obtain ⟨x, rfl⟩ := hbound o ho
          rfl
        rw [List.map_congr_left hmark, Function.comp_def, List.map_const', List.map_const', hlength]
      have hquoted : columns.map Identifier.quoted =
          (columns.map Identifier.text).map quotedName := by
        rw [List.map_map]
        rfl
      rw [render, hplaces, hquoted]
      refine .token (fun name hname => ?_) hoperator
      obtain ⟨column, hmem, rfl⟩ := List.mem_map.1 hname
      exact hwrites hname (hspells column hmem)
    | search query => exact .search (LiteralBody.doubleQuotes _)
    | expression index query =>
      exact .expression (hnames _ List.mem_cons_self) (LiteralBody.doubleQuotes _)

/-- The text is of relations that are joined, each of them derived. -/
def DerivesClause (t : Table) (clause : String) : Prop :=
  ∃ texts : List String, clause = " AND ".intercalate texts ∧ ∀ text ∈ texts, Derives t text

theorem derivesClause {rs : List Relation} (h : ∀ r ∈ rs, Derives t r.render) :
    DerivesClause t (clause rs) :=
  ⟨rs.map render, rfl, List.forall_mem_map.2 h⟩

end Relation

/-! ## Operands of accepted queries -/

/-- A value is written as a placeholder unless it holds a mark of a function of the store. -/
theorem Value.written_of_holds {x : Value} (h : x.holdsStoreFunction = false) :
    x.written = .bound x := by
  unfold written
  rw [storeFunction?_of_holds h]

/-- A column that is accepted under the name of a field is spelled as the field. -/
theorem Table.spells {t : Table} {name : String} {v : FieldValidator} {column : Identifier}
    (hv : t.validator? name = some v) (hcolumn : Identifier.ofText name = .ok column) :
    t.Spells column :=
  ⟨v.field, List.mem_of_find?_eq_some (Table.field?_of_validator? hv),
    (Table.name_of_validator? hv).symm ▸ hcolumn⟩

namespace Query

variable {t : Table} {key : String} {r : Relation} {s s' : Session}

/-! ### Values that an entry holds -/

theorem mem_putOperand {o : Operator} {x : Value} {e : Operator × Value} :
    ∀ {os : List (Operator × Value)}, e ∈ putOperand o x os → e = (o, x) ∨ e ∈ os
  | [], h => .inl (List.mem_singleton.1 h)
  | (p, w) :: os, h => by
    unfold putOperand at h
    split at h
    · rename_i hp
      rcases List.mem_cons.1 h with rfl | h
      · exact .inl (hp ▸ rfl)
      · exact .inr (List.mem_cons_of_mem _ h)
    · rcases List.mem_cons.1 h with rfl | h
      · exact .inr List.mem_cons_self
      · exact (mem_putOperand h).imp_right (List.mem_cons_of_mem _)

theorem mem_putAll {e : Operator × Value} : ∀ {es os : List (Operator × Value)},
    e ∈ es.foldl (fun os e => putOperand e.1 e.2 os) os → e ∈ es ∨ e ∈ os
  | [], _, h => .inr h
  | d :: es, os, h => by
    rcases mem_putAll (List.foldl_cons .. ▸ h) with h | h
    · exact .inl (List.mem_cons_of_mem d h)
    · rcases mem_putOperand h with rfl | h
      · exact .inl List.mem_cons_self
      · exact .inr h

/-- The operands of an entry hold no more functions of the store than it does. -/
theorem holdsStoreFunction_operands {entry : Value} (h : entry.holdsStoreFunction = false) :
    ∀ o ∈ operands entry, o.2.holdsStoreFunction = false := by
  rw [operands_eq]
  intro o ho
  have hmem := (mem_putAll ho).resolve_right List.not_mem_nil
  unfold operatorEntries at hmem
  split at hmem
  · rename_i e es
    cases hread : (e :: es).mapM fun e => (operatorOf? e.1).map fun o => (o, e.2) with
    | none =>
      rw [hread] at hmem
      exact List.mem_singleton.1 hmem ▸ h
    | some found =>
      rw [hread] at hmem
      obtain ⟨⟨k, x⟩, hentry, hx⟩ := forall₂_mem_right (forall₂_of_mapM_some hread) hmem
      obtain ⟨_, -, rfl⟩ := Option.map_eq_some_iff.1 hx
      exact Value.holdsStoreFunction_entry h _ hentry
  · exact List.mem_singleton.1 hmem ▸ h

theorem holdsStoreFunction_entriesUnder {value : Value} (h : value.holdsStoreFunction = false) :
    ∀ entry ∈ entriesUnder t key value, entry.holdsStoreFunction = false := by
  unfold entriesUnder
  split
  · split
    · exact fun entry hentry => List.mem_singleton.1 hentry ▸ h
    · exact Value.holdsStoreFunction_sequence h rfl
  · exact fun entry hentry => List.mem_singleton.1 hentry ▸ h

/-! ### Relations -/

/-- A token has what is written for its values, one for each declared field. -/
theorem tokenOperands_written : ∀ {names : List String} {values : List Value} {os : List Operand}
    {s s' : Session}, values.length = names.length →
    (tokenOperands t names values).perform s = (.ok os, s') →
      (∀ name ∈ names, ∃ v, t.validator? name = some v) ∧
        List.Forall₂ (fun x o => o = x.written) values os
  | [], [], os, s, s', _, h => by
    cases h
    exact ⟨List.forall_mem_nil _, .nil⟩
  | name :: names, x :: values, os, s, s', hlength, h => by
    obtain ⟨o, s₁, ho, h⟩ := Action.bind_ok h
    obtain ⟨v, s₂, hv, ho⟩ := Action.bind_ok ho
    obtain ⟨rest, s₃, hrest, h⟩ := Action.bind_ok h
    cases h
    obtain ⟨hnames, hwritten⟩ := tokenOperands_written (Nat.succ.inj hlength) hrest
    exact ⟨List.forall_mem_cons.2 ⟨⟨v, Table.validator_ok hv⟩, hnames⟩,
      .cons (Operand.compile_written (.inr rfl) ho) hwritten⟩

theorem holdsStoreFunction_tokenValues? {names : List String} {value : Value} {values : List Value}
    (hvalue : value.holdsStoreFunction = false) (h : tokenValues? names value = some values) :
    ∀ x ∈ values, x.holdsStoreFunction = false := by
  unfold tokenValues? at h
  split at h
  · cases h
    exact fun x hx => List.mem_singleton.1 hx ▸ hvalue
  · exact Value.holdsStoreFunction_sequence hvalue (Option.filter_eq_some_iff.1 h).1

theorem comparesTokens_of_tokenComparison? {key : Value} {c : Comparison}
    (h : tokenComparison? key = some c) : c.comparesTokens = true := by
  unfold tokenComparison? at h
  split at h
  · split at h
    · rename_i hcompares
      cases h
      exact hcompares
    · cases h
  · cases h

theorem tokenRelation_placed {operand : Value} (hoperand : operand.holdsStoreFunction = false)
    (h : (tokenRelation t key operand).perform s = (.ok r, s')) : r.Placed t := by
  obtain ⟨operator, value, c, values, os, columns, rfl, hcompares, hread, ⟨s₁, s₂, hos⟩, hcolumns,
    rfl⟩ := tokenRelation_ok h
  have hvalue := Value.holdsStoreFunction_entry hoperand _ List.mem_cons_self
  have hvalues := holdsStoreFunction_tokenValues? hvalue hread
  have hlength := length_of_tokenValues? hread
  obtain ⟨hnames, hwritten⟩ := tokenOperands_written hlength hos
  have haccepted := forall₂_of_mapM hcolumns
  refine ⟨comparesTokens_of_tokenComparison? hcompares, ?_, fun column hcolumn => ?_,
    fun o ho => ?_⟩
  · rw [← hwritten.length_eq, hlength, haccepted.length_eq]
  · obtain ⟨name, hname, hcolumn⟩ := forall₂_mem_right haccepted hcolumn
    obtain ⟨v, hv⟩ := hnames name hname
    exact Table.spells hv hcolumn
  · obtain ⟨x, hx, rfl⟩ := forall₂_mem_right hwritten ho
    exact ⟨x, Value.written_of_holds (hvalues x hx)⟩

theorem relation_placed {o : Operator} {operand : Value}
    (hoperand : operand.holdsStoreFunction = false)
    (h : (relation t key o operand).perform s = (.ok r, s')) : r.Placed t := by
  rcases relation_ok h with ⟨-, h⟩ | ⟨-, v, column, hv, hcolumn, hr⟩
  · exact tokenRelation_placed hoperand h
  have hspells := Table.spells hv hcolumn
  cases hr with
  | compare ho =>
    exact ⟨hspells, operand, (Operand.compile_written (.inr rfl) ho).trans
      (Value.written_of_holds hoperand)⟩
  | isIn | contains | entry | containsKey => exact hspells

end Query

/-! ## The names of a query -/

/-- The names that are written for a demand: the index that a definition names, as it is given, and
the fields of a key. -/
def Demand.names : Demand → List String
  | .search _ => []
  | .expression (.map es) => ((Value.get? es "index").map Value.display).toList
  | .expression _ => []
  | .operator key o _ => (Query.fieldNames key o).map Name.spelled

/-- The relation that meets a demand has the names that are written for it. -/
theorem Demand.names_of_metBy {t : Table} {d : Demand} {r : Relation} (h : d.MetBy t r) :
    r.names = d.names := by
  cases d with
  | search text =>
    cases h
    rfl
  | expression definition =>
    obtain ⟨s, s', h⟩ := h
    obtain ⟨es, index, query, rfl, hindex, -, rfl⟩ := Query.expressionRelation_ok h
    simp only [names, hindex, Option.map_some, Option.toList_some, Relation.names]
  | operator key o operand =>
    obtain ⟨⟨columns, hcolumns, hsubject⟩, -⟩ := h
    rw [Relation.names_of_subject? hsubject, names]
    have hspelled : List.Forall₂ (fun name column => Identifier.text column = Name.spelled name)
        (Query.fieldNames key o) columns :=
      (forall₂_of_mapM hcolumns).imp fun name column hcolumn => Identifier.ofText_text hcolumn
    rw [← List.forall₂_eq_eq_eq, List.forall₂_map_left_iff, List.forall₂_map_right_iff]
    exact hspelled.flip

namespace Query

/-- No value of the query marks a function of the store or holds one. -/
def Unmarked (query : List (Value × Value)) : Prop := ∀ e ∈ query, e.2.holdsStoreFunction = false

instance (query : List (Value × Value)) : Decidable (Unmarked query) :=
  inferInstanceAs (Decidable (∀ e ∈ query, _))

/-- Every name that is written for the query is an identifier. -/
def NamesIdentifiers (t : Table) (query : List (Value × Value)) : Prop :=
  ∀ d ∈ keptDemands t query, ∀ name ∈ d.names, Name.IsIdentifier name

theorem entry_of_mem_demandsUnder {t : Table} {read : Value → List (Operator × Value)}
    {key value operand : Value} {name : String} {o : Operator}
    (h : Demand.operator name o operand ∈ demandsUnder read t key value) :
    ∃ entry ∈ entriesUnder t name value, (o, operand) ∈ read entry := by
  unfold demandsUnder at h
  split at h
  · split at h
    · cases List.mem_singleton.1 h
    split at h
    · cases List.mem_singleton.1 h
    split at h
    · cases h
    · obtain ⟨entry, hentry, h⟩ := List.mem_flatMap.1 h
      obtain ⟨⟨o', operand'⟩, hread, heq⟩ := List.mem_map.1 h
      cases heq
      exact ⟨entry, hentry, hread⟩
  · cases h

/-- A demand of a query without functions of the store is met by a relation whose operands are
placeholders. -/
theorem placed_of_metBy {t : Table} {query : List (Value × Value)} {d : Demand} {r : Relation}
    (hunmarked : Unmarked query) (hd : d ∈ keptDemands t query) (h : d.MetBy t r) :
    r.Placed t := by
  obtain ⟨⟨key, value⟩, he, hd⟩ := List.mem_flatMap.1 hd
  cases d with
  | search text =>
    cases h
    trivial
  | expression definition =>
    obtain ⟨s, s', h⟩ := h
    obtain ⟨es, index, query, -, -, -, rfl⟩ := expressionRelation_ok h
    trivial
  | operator key' o operand =>
    obtain ⟨-, s, s', h⟩ := h
    obtain ⟨entry, hentry, hoperand⟩ := entry_of_mem_demandsUnder hd
    exact relation_placed (holdsStoreFunction_operands
      (holdsStoreFunction_entriesUnder (hunmarked _ he) entry hentry) _ hoperand) h

/-- The relations of an accepted query without functions of the store are derived exactly when every
name that is written for it is an identifier. -/
theorem derived_iff {t : Table} {query : List (Value × Value)} {s s' : Session}
    {rs : List Relation} (hunmarked : Unmarked query)
    (h : (relations t query).perform s = (.ok rs, s')) :
    (∀ r ∈ rs, Relation.Derives t r.render) ↔ NamesIdentifiers t query := by
  have hmet := relations_met h
  constructor
  · intro hderives d hd
    obtain ⟨r, hr, hmeets⟩ := forall₂_mem_right hmet.flip hd
    rw [← Demand.names_of_metBy hmeets]
    exact (Relation.derives_iff (placed_of_metBy hunmarked hd hmeets)).1 (hderives r hr)
  · intro hnames r hr
    obtain ⟨d, hd, hmeets⟩ := forall₂_mem_right hmet hr
    refine (Relation.derives_iff (placed_of_metBy hunmarked hd hmeets)).2 ?_
    rw [Demand.names_of_metBy hmeets]
    exact hnames d hd

/-- The relations of an accepted query that marks no function of the store are derived exactly when
every name that is written for it is an identifier, and then its clause is one of derived relations;
and so it is for every selection, update and deletion that finds rows by a query. -/
theorem derives_iff_namesIdentifiers (t : Table) :
    (∀ (query : List (Value × Value)) (s s' : Session) (rs : List Relation), Unmarked query →
      (relations t query).perform s = (.ok rs, s') →
        ((∀ r ∈ rs, Relation.Derives t r.render) ↔ NamesIdentifiers t query) ∧
        (NamesIdentifiers t query → Relation.DerivesClause t (Relation.clause rs))) ∧
    ∀ (o : Operation) (query : List (String × Value)) (s s' : Session) (p : Prepared),
      o.query? = some query → Unmarked (Compile.queryEntries query) →
        (o.compile t).perform s = (.ok p, s') →
        ((∀ r ∈ p.statement.relations, Relation.Derives t r.render) ↔
          NamesIdentifiers t (Compile.queryEntries query)) ∧
        (NamesIdentifiers t (Compile.queryEntries query) →
          Relation.DerivesClause t (Relation.clause p.statement.relations)) := by
  refine ⟨fun query s s' rs hunmarked h => ?_, fun o query s s' p hquery hunmarked h => ?_⟩
  · have hderived := derived_iff hunmarked h
    exact ⟨hderived, fun hnames => Relation.derivesClause (hderived.2 hnames)⟩
  · obtain ⟨s₁, s₂, hrs⟩ := Operation.compile_relations hquery h
    have hderived := derived_iff hunmarked hrs
    exact ⟨hderived, fun hnames => Relation.derivesClause (hderived.2 hnames)⟩

/-! ### Queries to a custom index -/

/-- People of an age whose name has a quote, found by an index of their names. -/
def quoting : List (String × Value) := [
  ("$expr", .map [(.text "index", .text "people_idx"), (.text "query", .text "who's there")]),
  ("name", .text "x' OR 1=1"), ("age", .map [(.text "$gte", .int 18)])]

theorem namesIdentifiers_quoting : NamesIdentifiers people (Compile.queryEntries quoting) := by
  have hnames : ((keptDemands people (Compile.queryEntries quoting)).flatMap Demand.names) =
      ["people_idx", "name", "age"] := by decide +kernel
  have hidentifiers : ∀ name ∈ ["people_idx", "name", "age"], Name.IsIdentifier name := by decide
  exact fun d hd name hname => hidentifiers name (hnames ▸ List.mem_flatMap.2 ⟨d, hd, hname⟩)

/-- Whatever quotes the values have, the clause is one of derived relations. -/
theorem derives_quoting : Unmarked (Compile.queryEntries quoting) ∧
    (∃ rs s', (relations people (Compile.queryEntries quoting)).perform {} = (.ok rs, s') ∧
      Relation.clause rs =
        "expr(people_idx,'who''s there') AND \"name\" = ? AND \"age\" >= ?" ∧
      Relation.DerivesClause people (Relation.clause rs)) ∧
    ∃ p s', ((Operation.delete ⟨"people", quoting⟩).compile people).perform {} = (.ok p, s') ∧
      Relation.DerivesClause people (Relation.clause p.statement.relations) := by
  have hunmarked : Unmarked (Compile.queryEntries quoting) := by decide +kernel
  obtain ⟨rs, s₁, hrs, hclause⟩ := Action.ok_of_read (g := Relation.clause)
    (a := relations people (Compile.queryEntries quoting)) (s := {})
    (y := "expr(people_idx,'who''s there') AND \"name\" = ? AND \"age\" >= ?")
    (by decide +kernel)
  obtain ⟨p, s₂, hp, -⟩ := Action.ok_of_read (g := fun _ => ())
    (a := (Operation.delete ⟨"people", quoting⟩).compile people) (s := {}) (y := ())
    (by decide +kernel)
  have hrelations := (derives_iff_namesIdentifiers people).1 _ _ _ _ hunmarked hrs
  have hstatement := (derives_iff_namesIdentifiers people).2 _ _ _ _ _ rfl hunmarked hp
  exact ⟨hunmarked, ⟨rs, s₁, hrs, hclause, hrelations.2 namesIdentifiers_quoting⟩,
    p, s₂, hp, hstatement.2 namesIdentifiers_quoting⟩

/-- A query to a custom index whose name closes the relation and opens another one. -/
def injecting : List (String × Value) := [
  ("$expr", .map [(.text "index", .text "people_idx,'') OR expr(people_idx"),
    (.text "query", .text "q")])]

/-- The name of a custom index is written as it is given: what it says reaches the clause, which is
none of derived relations. -/
theorem not_derives_injecting :
    Table.ofDefinition (.text "people") peopleDefinition = .ok people ∧
    Unmarked (Compile.queryEntries injecting) ∧
    ∃ rs s', (relations people (Compile.queryEntries injecting)).perform {} = (.ok rs, s') ∧
      Relation.clause rs = "expr(people_idx,'') OR expr(people_idx,'q')" ∧
      ¬ Relation.DerivesClause people (Relation.clause rs) := by
  obtain ⟨rs, s', hrs, hclause⟩ := Action.ok_of_read (g := Relation.clause)
    (a := relations people (Compile.queryEntries injecting)) (s := {})
    (y := "expr(people_idx,'') OR expr(people_idx,'q')") (by decide +kernel)
  refine ⟨by with_unfolding_all rfl, by decide +kernel, rs, s', hrs, hclause, ?_⟩
  rintro ⟨texts, htexts, hderives⟩
  rw [hclause] at htexts
  match texts, htexts with
  | [], htexts => exact absurd htexts (by decide)
  | [text], htexts =>
    rw [String.intercalate_singleton] at htexts
    have htext : text = (Relation.expression "people_idx,'') OR expr(people_idx" "q").render :=
      htexts.symm
    have hindex := (htext ▸ hderives text List.mem_cons_self).isIdentifier_index
    exact absurd hindex (by decide)
  | text :: text' :: texts, htexts =>
    -- a second relation would bring the word that joins it, and the clause has no such letter
    have hjoin : 'A' ∈ (" AND ".intercalate (text :: text' :: texts)).toList := by
      rw [String.intercalate_cons_cons, Relation.mem_append, Relation.mem_append]
      exact .inl (.inr (by decide))
    rw [← htexts] at hjoin
    exact absurd hjoin (by decide)

end Query

end WideColumn
