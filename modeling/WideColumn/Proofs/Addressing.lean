import WideColumn.Proofs.Grammar
import WideColumn.Proofs.Provision

/-!
# Null in the columns by which rows are found

A write finds or places its rows by the values of the partition-key columns: an insertion binds
them, an update or a deletion compares them by an equality in its condition (`Statement.Addresses`).
An insertion has a value for each of them. A condition is compiled from the query value by value,
and null passes through it, whether the equality is written out or not, stands in a list or compares
a token. So a write addresses a null key exactly when its query says so
(`Operation.compile_nullsKey_iff`), and nothing refuses such a query
(`Operation.nullsKey_removal`).

Columns count as written: a field whose name has blanks around that of a key column would be written
as that column, and no check knows it for one of the key. `Table.KeyApart` excludes such tables.
-/

namespace WideColumn

section Zip
variable {α β γ δ : Type} {r : α → β → Prop} {q : γ → δ → Prop}

/-- Pairs of two lists are related to pairs of the lists that they are related to. -/
theorem zip_of_forall₂ : ∀ {as : List α} {bs : List β} {cs : List γ} {ds : List δ},
    List.Forall₂ r as bs → List.Forall₂ q cs ds → ∀ {b : β} {d : δ}, (b, d) ∈ bs.zip ds →
      ∃ a c, (a, c) ∈ as.zip cs ∧ r a b ∧ q c d
  | _, _, _, _, .cons (a := a) hab h, .cons (a := c) hcd h', b, d, hmem => by
    rcases List.mem_cons.1 hmem with heq | hmem
    · cases heq
      exact ⟨a, c, List.mem_cons_self, hab, hcd⟩
    · obtain ⟨a', c', hmem, hpair⟩ := zip_of_forall₂ h h' hmem
      exact ⟨a', c', List.mem_cons_of_mem _ hmem, hpair⟩

end Zip

/-! ## Equalities -/

/-- The relation compares a column by an equality with a value that it binds. -/
inductive Relation.Equates : Relation → Identifier → Value → Prop
  | compare {column x} : Equates (.compare column .eq (.bound x)) column x
  | token {columns os column x} (h : (column, .bound x) ∈ columns.zip os) :
    Equates (.token columns .eq os) column x

/-- The query asks that a field be equal to a value. -/
inductive Demand.Equates : Demand → String → Value → Prop
  | compare {name x} : Equates (.operator name (.compare .eq) x) name x
  | token {key operator value values name x}
    (hoperator : Query.tokenComparison? operator = some .eq)
    (hvalues : Query.tokenValues? (Query.fieldNames key .token) value = some values)
    (h : (name, x) ∈ (Query.fieldNames key .token).zip values) :
    Equates (.operator key .token (.map [(operator, value)])) name x

/-- A null-like value is bound as it is. -/
theorem Value.written_of_isNullLike {x : Value} (h : x.isNullLike = true) :
    x.written = .bound x := by
  cases x <;> first | rfl | cases h

namespace Query

variable {t : Table} {key : String} {operand x : Value} {c : Comparison} {r : Relation}
  {s s' : Session}

/-- The relation of a comparison is on the column of a declared field and has what is written for
the operand. -/
theorem compareRelation_ok (h : (relation t key (.compare c) operand).perform s = (.ok r, s')) :
    ∃ v column, t.validator? key = some v ∧ Identifier.ofText key = .ok column ∧
      r = .compare column c operand.written := by
  rcases relation_ok h with ⟨ho, -⟩ | ⟨-, v, column, hv, hcolumn, hr⟩
  · cases ho
  · cases hr with
    | compare ho => exact ⟨v, column, hv, hcolumn, by rw [Operand.compile_written (.inr rfl) ho]⟩

end Query

namespace Demand

variable {t : Table} {d : Demand} {r : Relation} {column : Identifier} {name : String} {x : Value}

/-- A relation equates a column only with the value that the query asks for under a declared field
of that column. -/
theorem equates_of_relation (h : d.MetBy t r) (hr : r.Equates column x) :
    ∃ name v, t.validator? name = some v ∧ Identifier.ofText name = .ok column ∧
      d.Equates name x := by
  cases d with
  | search text =>
    cases h
    cases hr
  | expression definition =>
    obtain ⟨s, s', h⟩ := h
    obtain ⟨es, index, query, -, -, -, rfl⟩ := Query.expressionRelation_ok h
    cases hr
  | operator key o operand =>
    obtain ⟨⟨columns, hcolumns, hsubject⟩, s, s', h⟩ := h
    cases hr with
    | compare =>
      cases hsubject
      obtain ⟨v, column', hv, hcolumn, heq⟩ := Query.compareRelation_ok h
      obtain ⟨rfl, -, hbound⟩ := Relation.compare.inj heq
      obtain rfl := Value.eq_of_written hbound.symm
      exact ⟨key, v, hv, hcolumn, .compare⟩
    | token hmem =>
      cases hsubject
      obtain ⟨operator, value, c, values, os, columns', rfl, hoperator, hvalues, ⟨s₁, s₂, hos⟩,
        hcolumns', heq⟩ := Query.tokenRelation_ok h
      obtain ⟨rfl, rfl, rfl⟩ := Relation.token.inj heq
      obtain ⟨hnames, hwritten⟩ :=
        Query.tokenOperands_written (Query.length_of_tokenValues? hvalues) hos
      obtain ⟨name, y, hpair, hcolumn, hy⟩ :=
        zip_of_forall₂ (forall₂_of_mapM hcolumns') hwritten hmem
      obtain rfl := Value.eq_of_written hy.symm
      obtain ⟨v, hv⟩ := hnames name (List.of_mem_zip hpair).1
      exact ⟨name, v, hv, hcolumn, .token hoperator hvalues hpair⟩

/-- The null-like value that the query asks for is compared with the column of the field. -/
theorem relation_equates (h : d.MetBy t r) (hd : d.Equates name x) (hx : x.isNullLike = true) :
    ∃ column, Identifier.ofText name = .ok column ∧ r.Equates column x := by
  cases hd with
  | compare =>
    obtain ⟨-, s, s', h⟩ := h
    obtain ⟨v, column, -, hcolumn, rfl⟩ := Query.compareRelation_ok h
    exact ⟨column, hcolumn, Value.written_of_isNullLike hx ▸ .compare⟩
  | token hoperator hvalues hpair =>
    obtain ⟨-, s, s', h⟩ := h
    rw [Query.relation, if_pos rfl] at h
    obtain ⟨operator, value, c, values, os, columns, heq, hoperator', hvalues', ⟨s₁, s₂, hos⟩,
      hcolumns, rfl⟩ := Query.tokenRelation_ok h
    cases heq
    cases hoperator.symm.trans hoperator'
    cases hvalues.symm.trans hvalues'
    obtain ⟨-, hwritten⟩ := Query.tokenOperands_written (Query.length_of_tokenValues? hvalues) hos
    obtain ⟨column, o, hmem, hcolumn, ho⟩ :=
      zip_of_forall₂ (forall₂_of_mapM hcolumns).flip hwritten.flip hpair
    refine ⟨column, hcolumn, .token ?_⟩
    rwa [ho, Value.written_of_isNullLike hx] at hmem

end Demand

/-! ## Writes -/

/-- The relations by which a write finds its rows. -/
def Statement.writeRelations : Statement → List Relation
  | update u => u.relations
  | delete d => d.relations
  | _ => []

/-- The write places or finds rows by a value of a column: it inserts the value, or compares the
column with it by an equality. -/
inductive Statement.Addresses : Statement → Identifier → Value → Prop
  | place {i column x} (h : (column, .bound x) ∈ i.columns) : Addresses (.insert i) column x
  | find {st r column x} (hr : r ∈ st.writeRelations) (h : r.Equates column x) :
    Addresses st column x

/-- The write addresses a partition key with a part that is null, not set or missing. -/
def Statement.NullsKey (st : Statement) (t : Table) : Prop :=
  ∃ column x, st.Addresses column x ∧ x.isNullLike = true ∧
    ∃ name ∈ t.partitionKey, Identifier.ofText name = .ok column

/-- The query asks for rows whose partition key has a part that is null, not set or missing. -/
def Query.NullsKey (t : Table) (query : List (Value × Value)) : Prop :=
  ∃ d ∈ keptDemands t query, ∃ name ∈ t.partitionKey, ∃ x, d.Equates name x ∧ x.isNullLike = true

/-- The query by which a write finds its rows. -/
def Operation.writeQuery? : Operation → Option (List (String × Value))
  | update o => some o.query
  | delete o => some o.query
  | _ => none

/-- No other field is written as a column of the partition key. -/
def Table.KeyApart (t : Table) : Prop :=
  ∀ f ∈ t.fields, ∀ name ∈ t.partitionKey,
    Identifier.clean f.name = Identifier.clean name → f.name = name

instance (t : Table) : Decidable t.KeyApart :=
  inferInstanceAs (Decidable (∀ f ∈ t.fields, ∀ name ∈ t.partitionKey, _ → _))

namespace Table

variable {t : Table} {column : Identifier}

/-- Fields whose names are written as they are have columns of their own. -/
theorem KeyApart.of_isPlain (hwell : t.WellFormed)
    (hplain : ∀ f ∈ t.fields, Name.IsPlain f.name) : t.KeyApart := by
  intro f hf name hname hclean
  obtain ⟨g, hg, rfl, -⟩ := hwell.key name (List.mem_append_left _ hname)
  rw [hplain f hf, hplain g (List.mem_of_mem_filter hg)] at hclean
  exact String.toList_injective hclean

/-- A name with a blank before that of the key is written as the column of the key. -/
example : ¬ { Query.people with fields := [{ name := "id", type := "int" },
    { name := " id", type := "int" }] }.KeyApart := by
  decide

/-- A declared field that is written as a column of the partition key is that column. -/
theorem KeyApart.eq_of_ofText (hapart : t.KeyApart) {f : Field} {name : String} (hf : f ∈ t.fields)
    (hname : name ∈ t.partitionKey) (hwritten : Identifier.ofText f.name = .ok column)
    (hcolumn : Identifier.ofText name = .ok column) : f.name = name := by
  refine hapart f hf name hname ?_
  rw [← Identifier.ofText_chars hwritten, ← Identifier.ofText_chars hcolumn]

end Table

namespace Query

variable {t : Table} {query : List (Value × Value)} {rs : List Relation} {s s' : Session}

/-- The relations of an accepted query compare a partition-key column with a null-like value exactly
when the query asks for it. -/
theorem relations_equate_iff (hapart : t.KeyApart)
    (h : (relations t query).perform s = (.ok rs, s')) :
    (∃ r ∈ rs, ∃ column x, r.Equates column x ∧ x.isNullLike = true ∧
      ∃ name ∈ t.partitionKey, Identifier.ofText name = .ok column) ↔ NullsKey t query := by
  have hmet := relations_met h
  constructor
  · rintro ⟨r, hr, column, x, hequates, hx, name, hname, hcolumn⟩
    obtain ⟨d, hd, hmeets⟩ := forall₂_mem_right hmet hr
    obtain ⟨name', v, hv, hcolumn', hasked⟩ := Demand.equates_of_relation hmeets hequates
    have hfield : v.field ∈ t.fields := List.mem_of_find?_eq_some (Table.field?_of_validator? hv)
    have hsame : v.field.name = name' := Table.name_of_validator? hv
    have heq : v.field.name = name :=
      hapart.eq_of_ofText hfield hname (hsame.symm ▸ hcolumn') hcolumn
    exact ⟨d, hd, name, hname, x, heq ▸ hsame.symm ▸ hasked, hx⟩
  · rintro ⟨d, hd, name, hname, x, hasked, hx⟩
    obtain ⟨r, hr, hmeets⟩ := forall₂_mem_right hmet.flip hd
    obtain ⟨column, hcolumn, hequates⟩ := Demand.relation_equates hmeets hasked hx
    exact ⟨r, hr, column, x, hequates, hx, name, hname, hcolumn⟩

end Query

/-- A write that places no rows addresses a null key by a relation. -/
theorem Statement.nullsKey_iff {st : Statement} {t : Table} (h : ∀ i, st ≠ .insert i) :
    st.NullsKey t ↔ ∃ r ∈ st.writeRelations, ∃ column x, r.Equates column x ∧
      x.isNullLike = true ∧ ∃ name ∈ t.partitionKey, Identifier.ofText name = .ok column := by
  constructor
  · rintro ⟨column, x, haddresses, hnull⟩
    cases haddresses with
    | place => exact absurd rfl (h _)
    | find hr hequates => exact ⟨_, hr, column, x, hequates, hnull⟩
  · rintro ⟨r, hr, column, x, hequates, hnull⟩
    exact ⟨column, x, .find hr hequates, hnull⟩

namespace Compile

variable {t : Table} {s s' : Session} {p : Prepared}

/-- An insertion has a value for each column of the partition key. -/
theorem insertion_not_nullsKey {o : Insertion} (hwell : t.WellFormed) (hapart : t.KeyApart)
    (h : (insertion t o).perform s = (.ok p, s')) : ¬ p.statement.NullsKey t := by
  obtain ⟨i, hi, hcolumns, -⟩ := insertion_columns h
  obtain ⟨rs, htaken, hall, hfilled⟩ := insertColumns_taken hwell (fun _ => id) hcolumns
  rw [hi]
  rintro ⟨column, x, hmem, hx, name, hname, hcolumn⟩
  cases hmem with
  | find hr => cases hr
  | place hmem =>
    obtain ⟨r, hr, hwritten, hoperand⟩ := forall₂_mem_right hall hmem
    obtain rfl := Value.eq_of_written hoperand.symm
    have hmem : r ∈ rs := List.mem_of_mem_filter hr
    have hfield : r.1 ∈ t.fields :=
      List.mem_of_mem_filter (htaken.fields ▸ List.mem_map_of_mem hmem)
    have hsame : r.1.name = name := hapart.eq_of_ofText hfield hname hwritten hcolumn
    have hvalue := (hfilled r hmem).isNullLike_of_needed
      (.inl (hsame ▸ Table.isKey_of_mem hname))
    rw [hx] at hvalue
    cases hvalue

end Compile

namespace Operation

open Compile

/-- A write to a registered table whose partition-key columns are those of no other field addresses
a key with a null-like part exactly when it is an update or a deletion whose query compares a field
of the key by an equality with a null-like value. So insertions never do. -/
theorem compile_nullsKey_iff {t : Table} {o : Operation} {s s' : Session} {p : Prepared}
    (hregistered : t.Registered) (hapart : t.KeyApart)
    (h : (o.compile t).perform s = (.ok p, s')) :
    p.statement.NullsKey t ↔ ∃ query ∈ o.writeQuery?, Query.NullsKey t (queryEntries query) := by
  cases o with
  | insert o =>
    have hnot := insertion_not_nullsKey hregistered.wellFormed hapart h
    simpa [writeQuery?] using hnot
  | update o =>
    obtain ⟨u, hu, -, ⟨s₁, s₂, hrs⟩, -⟩ := modification_ok h
    rw [hu, Statement.nullsKey_iff (by rintro i ⟨⟩)]
    simpa [writeQuery?, Statement.writeRelations] using Query.relations_equate_iff hapart hrs
  | delete o =>
    obtain ⟨d, hd, ⟨s₁, s₂, hrs⟩, -⟩ := deletion_ok h
    rw [hd, Statement.nullsKey_iff (by rintro i ⟨⟩)]
    simpa [writeQuery?, Statement.writeRelations] using Query.relations_equate_iff hapart hrs
  | select o =>
    obtain ⟨statement, s₁, -, h⟩ := Action.bind_ok h
    cases h
    rw [Statement.nullsKey_iff (by rintro i ⟨⟩)]
    simp [writeQuery?, Statement.writeRelations]
  | _ =>
    obtain ⟨_, hst⟩ | ⟨_, hst⟩ := compile_other id h <;>
      (rw [hst, Statement.nullsKey_iff (by rintro i ⟨⟩)]
       simp [writeQuery?, Statement.writeRelations])

/-! ### A person without a number -/

/-- The change of the people that a query finds: their name becomes null. -/
def unnaming (query : List (String × Value)) : Operation :=
  .update { table := "people", query, values := [("name", .null)] }

/-- The person with a number, if the age is null. -/
def ageless : List (String × Value) := [("id", .list [.int 1]), ("age", .null)]

theorem people_keyApart : Query.people.KeyApart :=
  .of_isPlain people_registered.wellFormed (by decide)

/-- Null is written into a column and compared with one, and the key of the rows stays a number. -/
theorem compile_nullsKey_unnaming : Query.people.Registered ∧ Query.people.KeyApart ∧
    ∃ p s', ((unnaming ageless).compile Query.people).perform {} = (.ok p, s') ∧
      p.statement.render =
        "UPDATE \"people\" SET \"name\"=? WHERE \"id\" = ? AND \"age\" = ?;" ∧
      ¬ p.statement.NullsKey Query.people := by
  obtain ⟨p, s', hp, htext⟩ := Action.ok_of_read (g := fun p => p.statement.render)
    (a := (unnaming ageless).compile Query.people) (s := {})
    (y := "UPDATE \"people\" SET \"name\"=? WHERE \"id\" = ? AND \"age\" = ?;")
    (by decide +kernel)
  refine ⟨people_registered, people_keyApart, p, s', hp, htext, fun hnulls => ?_⟩
  obtain ⟨query, ⟨⟩, d, hd, name, hname, x, hequates, hx⟩ :=
    (compile_nullsKey_iff people_registered people_keyApart hp).1 hnulls
  have hdemands : Query.keptDemands Query.people (queryEntries ageless) =
      [.operator "id" (.compare .eq) (.int 1), .operator "age" (.compare .eq) .null] := by
    with_unfolding_all rfl
  rw [hdemands] at hd
  rcases List.mem_cons.1 hd with rfl | hd
  · cases hequates
    cases hx
  · obtain rfl := List.mem_singleton.1 hd
    cases hequates
    exact absurd hname (by decide)

/-- The removal of the person whose number is null. -/
def removal (x : Value) : Operation := .delete ⟨"people", [("id", x)]⟩

/-- An insertion of a person without a number is refused; a deletion by a number that is null is
compiled, and the key that it addresses is null. -/
theorem nullsKey_removal :
    Table.ofDefinition (.text "people") Query.peopleDefinition = .ok Query.people ∧
    (∃ r s', ((insert { table := "people", values := [("id", .null)] }).compile
      Query.people).perform {} = (.error (.refusal r), s') ∧ r.code = .unsetKey) ∧
    ∃ p s', ((removal .null).compile Query.people).perform {} = (.ok p, s') ∧
      p.statement.render = "DELETE FROM \"people\" WHERE \"id\" = ?;" ∧
        p.statement.NullsKey Query.people := by
  obtain ⟨p, s', hp, htext⟩ := Action.ok_of_read (g := fun p => p.statement.render)
    (a := (removal .null).compile Query.people) (s := {})
    (y := "DELETE FROM \"people\" WHERE \"id\" = ?;") (by decide +kernel)
  refine ⟨by with_unfolding_all rfl, ⟨_, _, by with_unfolding_all rfl, rfl⟩, p, s', hp, htext, ?_⟩
  obtain ⟨d, hd, ⟨s₁, s₂, hrs⟩, -⟩ := deletion_ok hp
  rw [hd, Statement.nullsKey_iff (by rintro i ⟨⟩)]
  refine (Query.relations_equate_iff people_keyApart hrs).2
    ⟨.operator "id" (.compare .eq) .null, ?_, "id", List.mem_cons_self, .null, .compare, rfl⟩
  have hdemands : Query.keptDemands Query.people (queryEntries [("id", .null)]) =
      [.operator "id" (.compare .eq) .null] := by
    with_unfolding_all rfl
  exact hdemands ▸ List.mem_cons_self

end Operation

end WideColumn
