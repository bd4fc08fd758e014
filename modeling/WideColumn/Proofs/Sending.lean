import WideColumn.Proofs.Draft
import WideColumn.Proofs.Outcome

/-!
# The statements that the parts of a plan send

One rule for each part of a plan that sends a statement. The rule says which statement it is, over
the names that were accepted for it, and what the part comes to; a condition on the part follows
when it holds of that statement alone.
-/

namespace WideColumn

/-! ## What acceptance makes of a definition -/

namespace Ddl

variable {statement : Ddl Identifier}

theorem accept_dropView {view : String} {ifExists : Bool}
    (h : (dropView view ifExists).accept = .ok statement) :
    ∃ i, Identifier.ofText view = .ok i ∧ statement = .dropView i ifExists := by
  obtain ⟨i, hi, h⟩ := of_bind_ok h
  exact ⟨i, hi, (Except.ok.inj h).symm⟩

theorem accept_dropIndex {name : String} {ifExists : Bool}
    (h : (dropIndex name ifExists).accept = .ok statement) :
    ∃ i, Identifier.ofText name = .ok i ∧ statement = .dropIndex i ifExists := by
  obtain ⟨i, hi, h⟩ := of_bind_ok h
  exact ⟨i, hi, (Except.ok.inj h).symm⟩

theorem accept_dropTable {table : String} {ifExists : Bool}
    (h : (dropTable table ifExists).accept = .ok statement) :
    ∃ i, Identifier.ofText table = .ok i ∧ statement = .dropTable i ifExists := by
  obtain ⟨i, hi, h⟩ := of_bind_ok h
  exact ⟨i, hi, (Except.ok.inj h).symm⟩

theorem accept_addColumn {table column typeText : String} {isStatic : Bool}
    (h : (addColumn table column typeText isStatic).accept = .ok statement) :
    ∃ i c, Identifier.ofText table = .ok i ∧ Identifier.ofText column = .ok c ∧
      statement = .addColumn i c typeText isStatic := by
  obtain ⟨i, hi, h⟩ := of_bind_ok h
  obtain ⟨c, hc, h⟩ := of_bind_ok h
  exact ⟨i, c, hi, hc, (Except.ok.inj h).symm⟩

theorem accept_dropColumn {table column : String}
    (h : (dropColumn table column).accept = .ok statement) :
    ∃ i c, Identifier.ofText table = .ok i ∧ Identifier.ofText column = .ok c ∧
      statement = .dropColumn i c := by
  obtain ⟨i, hi, h⟩ := of_bind_ok h
  obtain ⟨c, hc, h⟩ := of_bind_ok h
  exact ⟨i, c, hi, hc, (Except.ok.inj h).symm⟩

theorem accept_retypeColumn {table column typeText : String}
    (h : (retypeColumn table column typeText).accept = .ok statement) :
    ∃ i c, Identifier.ofText table = .ok i ∧ Identifier.ofText column = .ok c ∧
      statement = .retypeColumn i c typeText := by
  obtain ⟨i, hi, h⟩ := of_bind_ok h
  obtain ⟨c, hc, h⟩ := of_bind_ok h
  exact ⟨i, c, hi, hc, (Except.ok.inj h).symm⟩

theorem accept_createIndex {table : String} {target : IndexTarget}
    (h : (createIndex table target).accept = .ok statement) :
    ∃ i, Identifier.ofText table = .ok i ∧ statement = .createIndex i target := by
  obtain ⟨i, hi, h⟩ := of_bind_ok h
  exact ⟨i, hi, (Except.ok.inj h).symm⟩

theorem accept_createCustomIndex {table column implementation : String}
    {options : List (String × String)}
    (h : (createCustomIndex table column implementation options).accept = .ok statement) :
    ∃ i c, Identifier.ofText table = .ok i ∧ Identifier.ofText column = .ok c ∧
      statement = .createCustomIndex i c implementation options := by
  obtain ⟨i, hi, h⟩ := of_bind_ok h
  obtain ⟨c, hc, h⟩ := of_bind_ok h
  exact ⟨i, c, hi, hc, (Except.ok.inj h).symm⟩

theorem accept_createView {view table : String} {select : Option (List String)}
    {key : KeyClause String} (h : (createView view table select key).accept = .ok statement) :
    ∃ v i columns k, Identifier.ofText view = .ok v ∧ Identifier.ofText table = .ok i ∧
      acceptSelect select = .ok columns ∧ acceptKey key = .ok k ∧
      statement = .createView v i columns k := by
  obtain ⟨columns, hcolumns, h⟩ := of_bind_ok h
  obtain ⟨k, hk, h⟩ := of_bind_ok h
  obtain ⟨v, hv, h⟩ := of_bind_ok h
  obtain ⟨i, hi, h⟩ := of_bind_ok h
  exact ⟨v, i, columns, k, hv, hi, hcolumns, hk, (Except.ok.inj h).symm⟩

theorem accept_createTable {table : String} {columns : List (ColumnClause String)}
    {key : KeyClause String} (h : (createTable table columns key).accept = .ok statement) :
    ∃ i cs k, Identifier.ofText table = .ok i ∧ columns.mapM acceptColumn = .ok cs ∧
      acceptKey key = .ok k ∧ statement = .createTable i cs k := by
  obtain ⟨cs, hcs, h⟩ := of_bind_ok h
  obtain ⟨i, hi, h⟩ := of_bind_ok h
  obtain ⟨k, hk, h⟩ := of_bind_ok h
  exact ⟨i, cs, k, hi, hcs, hk, (Except.ok.inj h).symm⟩

end Ddl

/-! ## Parts that are checked -/

/-- A text that passes the check of its length is the text that was checked. -/
theorem Coercion.textWithin_ok {low : Nat} {high : Option Nat} {s s' : String}
    (h : Coercion.textWithin low high (.text s) = .ok s') : s' = s := by
  obtain ⟨s'', hs'', h⟩ := Checked.andThen_ok h
  cases hs''
  split at h
  · cases h
  · cases high with
    | none => exact (Checked.ok.inj h).symm
    | some most =>
      dsimp only at h
      split at h
      · cases h
      · exact (Checked.ok.inj h).symm

/-- A view whose name passes the check has a name that views may have. -/
theorem Member.viewName_ok {view name : String} (h : Member.viewName (.text view) = .ok name) :
    Name.isTable view = true := by
  obtain ⟨s, hs, h⟩ := Checked.andThen_ok h
  rw [Coercion.textWithin_ok hs] at h
  split at h
  · assumption
  · cases h

theorem TableRemoval.checked_ok {o o' : TableRemoval} (h : o.checked = .ok o') : o' = o := by
  obtain ⟨_, -, rfl⟩ := Checked.map_ok h
  rfl

theorem IndexRemoval.checked_ok {o o' : IndexRemoval} (h : o.checked = .ok o') : o' = o := by
  obtain ⟨g, _, hg, -, rfl⟩ := Checked.seq_ok h
  obtain ⟨_, -, rfl⟩ := Checked.map_ok hg
  rfl

theorem ViewRemoval.checked_ok {o o' : ViewRemoval} (h : o.checked = .ok o') :
    o' = o ∧ Name.isTable o.view = true := by
  obtain ⟨g, _, hg, hname, rfl⟩ := Checked.seq_ok h
  obtain ⟨_, -, rfl⟩ := Checked.map_ok hg
  exact ⟨rfl, Member.viewName_ok (Checked.under_ok hname)⟩

theorem ColumnChange.checkType_ok {found : Value} {o o' : ColumnChange}
    (h : ColumnChange.checkType found o = .ok o') : o' = o := by
  unfold ColumnChange.checkType at h
  dsimp only at h
  split at h
  · cases h
  · exact (Checked.ok.inj h).symm
  · exact (Checked.ok.inj h).symm
  · cases h

theorem ColumnChange.checked_ok {o o' : ColumnChange} (h : o.checked = .ok o') : o' = o := by
  obtain ⟨o'', hparts, h⟩ := Checked.andThen_ok h
  obtain ⟨g, _, hg, -, rfl⟩ := Checked.seq_ok hparts
  obtain ⟨_, -, rfl⟩ := Checked.map_ok hg
  exact ColumnChange.checkType_ok h

theorem IndexCreation.checked_ok {o o' : IndexCreation} (h : o.checked = .ok o') : o' = o := by
  obtain ⟨g, _, hg, -, rfl⟩ := Checked.seq_ok h
  obtain ⟨_, -, rfl⟩ := Checked.map_ok hg
  rfl

theorem CustomIndexCreation.checked_ok {o o' : CustomIndexCreation} (h : o.checked = .ok o') :
    o' = o := by
  obtain ⟨f, _, hf, -, rfl⟩ := Checked.seq_ok h
  obtain ⟨g, _, hg, -, rfl⟩ := Checked.seq_ok hf
  obtain ⟨_, -, rfl⟩ := Checked.map_ok hg
  rfl

theorem ViewCreation.checked_ok {o o' : ViewCreation} (h : o.checked = .ok o') :
    o' = o ∧ Name.isTable o.view = true := by
  obtain ⟨f, _, hf, -, rfl⟩ := Checked.seq_ok h
  obtain ⟨g, _, hg, hname, rfl⟩ := Checked.seq_ok hf
  obtain ⟨_, -, rfl⟩ := Checked.map_ok hg
  exact ⟨rfl, Member.viewName_ok (Checked.under_ok hname)⟩

theorem TableCreation.checked_ok {o o' : TableCreation} (h : o.checked = .ok o') : o' = o := by
  obtain ⟨o'', hparts, h⟩ := Checked.andThen_ok h
  obtain ⟨f, _, hf, -, rfl⟩ := Checked.seq_ok hparts
  obtain ⟨g, _, hg, -, rfl⟩ := Checked.seq_ok hf
  obtain ⟨_, -, rfl⟩ := Checked.map_ok hg
  unfold TableCreation.checkKey at h
  dsimp only at h
  split at h
  · exact (Checked.ok.inj h).symm
  · cases h

/-- The key of a view as a statement writes it. -/
def View.keyClause (v : View) : KeyClause String :=
  KeySpec.clause ⟨v.partitionKey, v.clusteringKey, v.clusteringOrder⟩

/-- The columns of a view as a statement writes them. -/
def View.selectClause (v : View) : Option (List String) :=
  if v.selectsAll then none else some v.select

/-- The columns of a table as a statement writes them. -/
def Table.columnClauses (t : Table) : List (ColumnClause String) :=
  t.storedFields.map fun f => ⟨f.name, f.typeText, f.isStatic⟩

/-- The key of a table as a statement writes it. -/
def Table.keyClause (t : Table) : KeyClause String :=
  KeySpec.clause ⟨t.partitionKey, t.clusteringKey, t.clusteringOrder⟩

/-- The columns of a table are accepted one by one, with their types and marks. -/
theorem Table.forall₂_columnClauses {t : Table} {columns : List (ColumnClause Identifier)}
    (h : t.columnClauses.mapM Ddl.acceptColumn = .ok columns) :
    List.Forall₂ (fun f c => Identifier.ofText f.name = .ok c.name ∧ c.typeText = f.typeText ∧
      c.isStatic = f.isStatic) t.storedFields columns := by
  have haccepted := forall₂_of_mapM h
  rw [Table.columnClauses, List.forall₂_map_left_iff] at haccepted
  refine haccepted.imp fun f c hc => ?_
  obtain ⟨name, hname, hc⟩ := of_bind_ok hc
  cases hc
  exact ⟨hname, rfl, rfl⟩

namespace Draft

open Migration

variable {σ : Type} {w : Watch σ} {s : σ} {t : Table} {l : LiveTable}

/-! ## Dropping -/

/-- Dropping a view sends the drop of that view. -/
theorem Keeps.dropView {view : String} {post : LiveTable → σ → Prop}
    (h : ∀ i, Identifier.ofText view = .ok i → Name.isTable view = true →
      w.allows s (.dropView i true) ∧ post (l.withoutView view) (w.onSend s (.dropView i true))) :
    Keeps w s (Migration.dropView t l view) post := by
  refine Keeps.bind (Keeps.send fun o d statement hmade hd haccept => ?_)
  obtain ⟨rfl, hname⟩ := ViewRemoval.checked_ok hmade
  cases hd
  obtain ⟨i, hi, rfl⟩ := Ddl.accept_dropView haccept
  obtain ⟨hallows, hpost⟩ := h i hi hname
  exact ⟨hallows, Keeps.pure hpost⟩

/-- The drop of an index is sent under the name of the index. -/
theorem Keeps.sendIndexDrop {step name : String} {post : Unit → σ → Prop}
    (h : ∀ i, Identifier.ofText name = .ok i →
      w.allows s (.dropIndex i true) ∧ post () (w.onSend s (.dropIndex i true))) :
    Keeps w s (Migration.sendIndexDrop t step name) post := by
  refine Keeps.send fun o d statement hmade hd haccept => ?_
  cases IndexRemoval.checked_ok hmade
  cases hd
  obtain ⟨i, hi, rfl⟩ := Ddl.accept_dropIndex haccept
  exact h i hi

/-- Dropping the index on a target sends the drop of the name that is known for it. -/
theorem Keeps.dropIndex {target : String} {post : LiveTable → σ → Prop}
    (h : ∀ name i, Keyed.get? l.indexNames target = some name → Identifier.ofText name = .ok i →
      w.allows s (.dropIndex i true) ∧
        post (l.withoutIndex target) (w.onSend s (.dropIndex i true))) :
    Keeps w s (Migration.dropIndex t l target) post := by
  unfold Migration.dropIndex
  cases hname : Keyed.get? l.indexNames target with
  | none => exact Keeps.fail
  | some name =>
    refine Keeps.bind (Keeps.sendIndexDrop fun i hi => ?_)
    obtain ⟨hallows, hpost⟩ := h name i hname hi
    exact ⟨hallows, Keeps.pure hpost⟩

/-- Dropping the custom index under a key sends the drop of the name that is known for it. -/
theorem Keeps.dropCustomIndex {key : String} {post : LiveTable → σ → Prop}
    (h : ∀ name i, Keyed.get? l.customIndexNames key = some name → Identifier.ofText name = .ok i →
      w.allows s (.dropIndex i true) ∧
        post (l.withoutCustomIndex key) (w.onSend s (.dropIndex i true))) :
    Keeps w s (Migration.dropCustomIndex t l key) post := by
  unfold Migration.dropCustomIndex
  cases hname : Keyed.get? l.customIndexNames key with
  | none => exact Keeps.fail
  | some name =>
    refine Keeps.bind (Keeps.sendIndexDrop fun i hi => ?_)
    obtain ⟨hallows, hpost⟩ := h name i hname hi
    exact ⟨hallows, Keeps.pure hpost⟩

/-- The drop of the table, before everything is created anew. -/
theorem Keeps.dropTable {post : Unit → σ → Prop}
    (h : ∀ i, Identifier.ofText t.name = .ok i →
      w.allows s (.dropTable i true) ∧ post () (w.onSend s (.dropTable i true))) :
    Keeps w s (Draft.send "drop_table" .drop .dropTable (TableRemoval.checked { table := t.name })
      fun o => .ok o.ddl) post := by
  refine Keeps.send fun o d statement hmade hd haccept => ?_
  cases TableRemoval.checked_ok hmade
  cases hd
  obtain ⟨i, hi, rfl⟩ := Ddl.accept_dropTable haccept
  exact h i hi

/-! ## Columns -/

/-- Adding a column sends its addition with its type and its mark. -/
theorem Keeps.addColumn {name : String} {c : Column} {post : LiveTable → σ → Prop}
    (h : ∀ table column, Identifier.ofText t.name = .ok table →
      Identifier.ofText name = .ok column →
      w.allows s (.addColumn table column c.typeText c.isStatic) ∧
        post (l.withColumn name c) (w.onSend s (.addColumn table column c.typeText c.isStatic))) :
    Keeps w s (Migration.addColumn t l name c) post := by
  refine Keeps.bind (Keeps.send fun o d statement hmade hd haccept => ?_)
  cases ColumnChange.checked_ok hmade
  cases hd
  obtain ⟨table, column, htable, hcolumn, rfl⟩ := Ddl.accept_addColumn haccept
  obtain ⟨hallows, hpost⟩ := h table column htable hcolumn
  exact ⟨hallows, Keeps.pure hpost⟩

/-- Removing a column sends the drops of what refers to it, and then its own. -/
theorem Keeps.removeColumn {name : String} {post : LiveTable → σ → Prop}
    (h : Keeps w s (Migration.dropDependents t l name) fun l s =>
      ∀ table column, Identifier.ofText t.name = .ok table → Identifier.ofText name = .ok column →
        w.allows s (.dropColumn table column) ∧
          post (l.withoutColumn name) (w.onSend s (.dropColumn table column))) :
    Keeps w s (Migration.removeColumn t l name) post := by
  refine Keeps.bind (h.mono fun l s h => ?_)
  refine Keeps.bind (Keeps.send fun o d statement hmade hd haccept => ?_)
  cases ColumnChange.checked_ok hmade
  cases hd
  obtain ⟨table, column, htable, hcolumn, rfl⟩ := Ddl.accept_dropColumn haccept
  obtain ⟨hallows, hpost⟩ := h table column htable hcolumn
  exact ⟨hallows, Keeps.pure hpost⟩

/-- Altering the type of a column sends the new type and nothing else. -/
theorem Keeps.retypeColumn {name : String} {c : Column} {post : LiveTable → σ → Prop}
    (h : ∀ table column, Identifier.ofText t.name = .ok table →
      Identifier.ofText name = .ok column →
      w.allows s (.retypeColumn table column c.typeText) ∧
        post (l.withColumn name c) (w.onSend s (.retypeColumn table column c.typeText))) :
    Keeps w s (Migration.retypeColumn t l name c) post := by
  refine Keeps.bind (Keeps.send fun o d statement hmade hd haccept => ?_)
  cases ColumnChange.checked_ok hmade
  cases hd
  obtain ⟨table, column, htable, hcolumn, rfl⟩ := Ddl.accept_retypeColumn haccept
  obtain ⟨hallows, hpost⟩ := h table column htable hcolumn
  exact ⟨hallows, Keeps.pure hpost⟩

/-! ## Creating -/

/-- Creating an index sends its creation on the target that its text is read as. -/
theorem Keeps.createIndex {text : String} {post : Unit → σ → Prop}
    (h : ∀ table target, Identifier.ofText t.name = .ok table →
      IndexTarget.ofText text = .ok target →
      w.allows s (.createIndex table target) ∧ post () (w.onSend s (.createIndex table target))) :
    Keeps w s (Migration.createIndex t text) post := by
  refine Keeps.send fun o d statement hmade hd haccept => ?_
  cases IndexCreation.checked_ok hmade
  unfold IndexCreation.ddl at hd
  split at hd
  · rename_i target htarget
    cases hd
    obtain ⟨table, htable, rfl⟩ := Ddl.accept_createIndex haccept
    exact h table target htable htarget
  · cases hd

/-- Creating a custom index sends its creation with its implementation and its options. -/
theorem Keeps.createCustomIndex {i : CustomIndex} {post : Unit → σ → Prop}
    (h : ∀ table column options, Identifier.ofText t.name = .ok table →
      Identifier.ofText i.column = .ok column →
      options = i.options.map (fun o => (o.1, (Value.text o.2).display)) →
      w.allows s (.createCustomIndex table column i.implementation options) ∧
        post () (w.onSend s (.createCustomIndex table column i.implementation options))) :
    Keeps w s (Migration.createCustomIndex t i) post := by
  refine Keeps.send fun o d statement hmade hd haccept => ?_
  cases CustomIndexCreation.checked_ok hmade
  cases hd
  obtain ⟨table, column, htable, hcolumn, rfl⟩ := Ddl.accept_createCustomIndex haccept
  exact h table column _ htable hcolumn (List.map_map ..)

/-- Creating a view sends its creation over accepted columns. -/
theorem Keeps.createView {name : String} {v : View} {post : Unit → σ → Prop}
    (h : ∀ view table columns key, Identifier.ofText name = .ok view → Name.isTable name = true →
      Identifier.ofText t.name = .ok table → Ddl.acceptSelect v.selectClause = .ok columns →
      Ddl.acceptKey v.keyClause = .ok key →
      w.allows s (.createView view table columns key) ∧
        post () (w.onSend s (.createView view table columns key))) :
    Keeps w s (Migration.createView t name v) post := by
  refine Keeps.send fun o d statement hmade hd haccept => ?_
  obtain ⟨rfl, hname⟩ := ViewCreation.checked_ok hmade
  cases hd
  obtain ⟨view, table, columns, key, hview, htable, hcolumns, hkey, rfl⟩ :=
    Ddl.accept_createView haccept
  exact h view table columns key hview hname htable hcolumns hkey

/-- The creation of the table alone sends its columns and its key. -/
theorem Keeps.createTable {post : Unit → σ → Prop}
    (h : ∀ table columns key, Identifier.ofText t.name = .ok table →
      t.columnClauses.mapM Ddl.acceptColumn = .ok columns → Ddl.acceptKey t.keyClause = .ok key →
      w.allows s (.createTable table columns key) ∧
        post () (w.onSend s (.createTable table columns key))) :
    Keeps w s (Draft.send "create_table" .create .createTable (tableCreation t).checked
      fun o => .ok o.ddl) post := by
  refine Keeps.send fun o d statement hmade hd haccept => ?_
  cases TableCreation.checked_ok hmade
  cases hd
  obtain ⟨table, columns, key, htable, hcolumns, hkey, rfl⟩ := Ddl.accept_createTable haccept
  refine h table columns key htable ?_ hkey
  rw [← hcolumns, Table.columnClauses, tableCreation, List.map_map]
  rfl

end Draft

/-! ## The creation of the table alone -/

namespace Migration

/-- Create the table alone. -/
def createTable (t : Table) : Draft Unit :=
  Draft.send "create_table" .create .createTable (tableCreation t).checked fun o => .ok o.ddl

/-- The creation of the table alone is over the accepted columns and the accepted key. -/
theorem createTable_ok {t : Table} {u : Unit} (h : (createTable t).outcome = .ok u) :
    ∃ table columns key, t.columnClauses.mapM Ddl.acceptColumn = .ok columns ∧
      (createTable t).moves = [.send ⟨"create_table", .create, .createTable table columns key⟩] := by
  obtain ⟨o, d, statement, hmade, hd, haccept, hmoves⟩ := Draft.send_ok h
  cases TableCreation.checked_ok hmade
  cases hd
  obtain ⟨table, columns, key, -, hcolumns, -, rfl⟩ := Ddl.accept_createTable haccept
  refine ⟨table, columns, key, ?_, hmoves⟩
  rw [← hcolumns, Table.columnClauses, tableCreation, List.map_map]
  rfl

end Migration

/-! ## Drops one after the other, and what a plan brings in line -/

/-- What a difference removes. -/
def SchemaDiff.removed (d : SchemaDiff) : Dependents :=
  ⟨d.removedIndexes, d.removedCustomIndexes, d.removedViews⟩

namespace Migration

/-- Drop views, then indexes, then custom indexes, each by the part for things of its kind. -/
def dropEach (view index customIndex : LiveTable → String → Draft LiveTable) (ds : Dependents)
    (l : LiveTable) : Draft LiveTable := do
  let l ← ds.views.foldlM view l
  let l ← ds.indexes.foldlM index l
  ds.customIndexes.foldlM customIndex l

theorem dropDependents_eq (t : Table) (l : LiveTable) (column : String) :
    dropDependents t l column = Draft.lift (l.dependentsOf column) >>= fun ds =>
      dropEach (dropView t) (dropIndex t) (dropCustomIndex t) ds l := rfl

/-- Drop what a difference removes, each thing under a question of its own. -/
def dropUndeclared (t : Table) (d : SchemaDiff) (l : LiveTable) : Draft LiveTable :=
  dropEach (dropUndeclaredView t) (dropUndeclaredIndex t) (dropUndeclaredCustomIndex t) d.removed l

/-- Create what a difference adds. -/
def createMissing (t : Table) (d : SchemaDiff) : Draft Unit := do
  let shape ← Draft.lift (Describable.declared t).shape
  d.addedIndexes.forM (createIndex t)
  d.addedCustomIndexes.forM (createDeclaredCustomIndex t shape)
  d.addedViews.forM (createDeclaredView t)

theorem reconcile_eq (t : Table) (l : LiveTable) : reconcile t l =
    Draft.lift (Describable.diff (.live l) (.declared t)) >>= fun d =>
      dropUndeclared t d l >>= fun _ => createMissing t d := by
  simp only [dropUndeclared, dropEach, bind_assoc]
  rfl

end Migration

namespace Draft.Keeps

open Migration

variable {σ : Type} {w : Watch σ} {s : σ} {t : Table} {l : LiveTable}

/-- Drops one after the other keep an invariant that each of them keeps. -/
theorem dropEach {view index customIndex : LiveTable → String → Draft LiveTable}
    (inv : LiveTable → σ → Prop) {ds : Dependents}
    (hview : ∀ x ∈ ds.views, ∀ l s, inv l s → Keeps w s (view l x) inv)
    (hindex : ∀ x ∈ ds.indexes, ∀ l s, inv l s → Keeps w s (index l x) inv)
    (hcustomIndex : ∀ x ∈ ds.customIndexes, ∀ l s, inv l s → Keeps w s (customIndex l x) inv)
    (h : inv l s) : Keeps w s (Migration.dropEach view index customIndex ds l) inv := by
  refine Keeps.bind ((Keeps.foldlM_inv inv hview h).mono fun _ _ h₁ => ?_)
  refine Keeps.bind ((Keeps.foldlM_inv inv hindex h₁).mono fun _ _ h₂ => ?_)
  exact Keeps.foldlM_inv inv hcustomIndex h₂

/-- What a plan brings in line is what its difference removes and adds. -/
theorem reconcile {post : Unit → σ → Prop}
    (h : ∀ d, Describable.diff (.live l) (.declared t) = .ok d →
      Keeps w s (dropUndeclared t d l) fun _ s => Keeps w s (createMissing t d) post) :
    Keeps w s (Migration.reconcile t l) post := by
  rw [reconcile_eq]
  exact Keeps.bind (Keeps.lift fun d hd => Keeps.bind (h d hd))

/-- The difference of one column is applied under its own question, in the way that fits what has
changed and the part that the column has in the key. -/
theorem applyDiff {e : ColumnDiff} {post : Option LiveTable → σ → Prop}
    (hask : ∀ q, w.allowsAsk s q)
    (hadded : ∀ name new, e = .added name new →
      Keeps w (w.onAsk s (.addColumn name new)) (Migration.addColumn t l name new) fun l => post (some l))
    (hremoved : ∀ name old, e = .removed name old →
      Keeps w (w.onAsk s (.removeColumn name)) (Migration.removeColumn t l name) fun l => post (some l))
    (hretyped : ∀ name aspect old new, e = .changed name aspect old new →
      aspect = .type ∧ old.widensTo new = true →
      Keeps w (w.onAsk s (.retypeColumn name old new)) (Migration.retypeColumn t l name new)
        fun l => post (some l))
    (hanew : ∀ name aspect old new, e = .changed name aspect old new →
      ¬ (aspect = .type ∧ old.widensTo new = true) → t.isKey name = true →
      Keeps w (w.onAsk s (.changeKey name old new)) (Migration.recreate t l) fun _ => post none)
    (hreplaced : ∀ name aspect old new, e = .changed name aspect old new →
      ¬ (aspect = .type ∧ old.widensTo new = true) → t.isKey name ≠ true →
      Keeps w (w.onAsk s (.replaceColumn name old new)) (Migration.removeColumn t l name)
        fun l s => Keeps w s (Migration.addColumn t l name new) fun l => post (some l)) :
    Keeps w s (Migration.applyDiff t l e) post := by
  have asking : ∀ {q : Question} {d : Draft (Option LiveTable)}, Keeps w (w.onAsk s q) d post →
      Keeps w s (Draft.ask q >>= fun _ => d) post := fun h => Keeps.bind (Keeps.ask (hask _) h)
  cases e with
  | added name new => exact asking (Keeps.map (hadded name new rfl))
  | removed name old => exact asking (Keeps.map (hremoved name old rfl))
  | changed name aspect old new =>
    simp only [Migration.applyDiff]
    by_cases hwidens : aspect = .type ∧ old.widensTo new = true
    · rw [if_pos hwidens]
      exact asking (Keeps.map (hretyped name aspect old new rfl hwidens))
    rw [if_neg hwidens]
    by_cases hkey : t.isKey name = true
    · rw [if_pos hkey]
      exact asking (Keeps.bind ((hanew name aspect old new rfl hwidens hkey).mono
        fun _ _ h => Keeps.pure h))
    · rw [if_neg hkey]
      exact asking (Keeps.bind ((hreplaced name aspect old new rfl hwidens hkey).mono
        fun _ _ h => Keeps.map h))

end Draft.Keeps

end WideColumn
