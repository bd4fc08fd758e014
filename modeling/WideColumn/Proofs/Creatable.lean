import WideColumn.Proofs.Canonical
import WideColumn.Proofs.Completion

/-!
# Tables that can be created

Registration lets some tables through that no statement creates: a key without columns of the
partition, a custom index whose implementation is blank, a column that cannot be quoted and a view
with too long a name. Of well-formed tables these are the only ones (`Migration.createAll_ok_iff`):
everything else that a creation checks, registration has checked before. Of a registered table whose
columns are identifiers and whose views have short names the first two are left
(`Migration.createAll_ok_iff_creatable`).
-/

namespace WideColumn

/-! ## Checks of lists -/

namespace Checked

variable {α β : Type}

/-- A list whose elements pass their checks passes. -/
theorem all_ok {check : α → Checked β} : ∀ {xs : List α} {ys : List β},
    List.Forall₂ (fun x y => check x = .ok y) xs ys → all check xs = .ok ys
  | _, _, .nil => rfl
  | _, _, .cons hy h => by
    unfold all
    rw [hy, all_ok h]
    rfl

end Checked

namespace Coercion

variable {α : Type}

/-- Elements that pass their checks pass under their positions. -/
theorem positioned_ok {check : Coercion α} {xs : List Value} {ys : List α}
    (h : List.Forall₂ (fun x y => check x = .ok y) xs ys) : positioned check xs = .ok ys := by
  unfold positioned
  suffices ∀ n, List.Forall₂ (fun (e : Value × Nat) y => (check e.1).under (toString e.2) = .ok y)
      (xs.zipIdx n) ys from Checked.all_ok (this 0)
  induction h with
  | nil => exact fun _ => .nil
  | cons hy _ ih =>
    intro n
    refine .cons ?_ (ih (n + 1))
    dsimp only
    rw [hy]
    rfl

/-- A list whose elements pass their checks passes when it is not empty, and only then. -/
theorem nonEmptyListOf_ok {check : Coercion α} {xs : List Value} {ys : List α}
    (h : List.Forall₂ (fun x y => check x = .ok y) xs ys) :
    nonEmptyListOf check (.list xs) = if ys = [] then
      fault "too_short" "List should have at least 1 item after validation, not 0" (.list xs)
      else .ok ys := by
  have hlist : listOf check (.list xs) = .ok ys := positioned_ok h
  unfold nonEmptyListOf
  rw [hlist]
  simp only [Checked.andThen, List.isEmpty_iff]

end Coercion

namespace KeySpec

/-- A key passes exactly when it has a column of the partition. -/
theorem checked_ok_iff {k k' : KeySpec} : k.checked = .ok k' ↔ k.partition ≠ [] ∧ k = k' := by
  have htexts : List.Forall₂ (fun x y => Coercion.text x = .ok y)
      (k.partition.map Value.text) k.partition := by
    rw [List.forall₂_map_left_iff]
    exact List.forall₂_same.2 fun _ _ => rfl
  have hlist := Coercion.nonEmptyListOf_ok htexts
  unfold checked Value.ofTexts
  rw [hlist]
  by_cases hempty : k.partition = []
  · rw [if_pos hempty]
    exact ⟨fun h => (nomatch h), fun h => absurd hempty h.1⟩
  · rw [if_neg hempty]
    exact ⟨fun h => ⟨hempty, Checked.ok.inj h⟩, fun h => congrArg Checked.ok h.2⟩

end KeySpec

theorem ViewCreation.checked_eq {table view : String} {select : List String} {key : KeySpec}
    (htable : Name.NamesTable table) (hview : Name.NamesTable view) (hkey : key.partition ≠ []) :
    ViewCreation.checked ⟨table, view, select, key⟩ = .ok ⟨table, view, select, key⟩ := by
  unfold checked
  rw [Member.tableName_text htable, Member.viewName_text hview,
    KeySpec.checked_ok_iff.2 ⟨hkey, rfl⟩]
  rfl

/-! ## Names -/

namespace Name

variable {name : String}

/-- The name can be quoted. -/
def IsAccepted (name : String) : Prop := ∃ i, Identifier.ofText name = .ok i

theorem isAccepted_iff : IsAccepted name ↔ isColumn (Identifier.clean name) = true := by
  constructor
  · rintro ⟨i, hi⟩
    exact Identifier.ofText_chars hi ▸ i.isColumn
  · intro h
    exact ⟨_, dif_pos h⟩

instance (name : String) : Decidable (IsAccepted name) := decidable_of_iff _ isAccepted_iff.symm

theorem IsIdentifier.isAccepted (h : IsIdentifier name) : IsAccepted name := h.ofText

theorem IsAccepted.ne_empty (h : IsAccepted name) : name ≠ "" := by
  rintro rfl
  exact absurd h (by decide)

/-- The blanks around a name do not count. -/
theorem isAccepted_strip : IsAccepted (Text.strip name) ↔ IsAccepted name := by
  have hclean : Identifier.clean (Text.strip name) = Identifier.clean name := by
    unfold Identifier.clean Text.strip
    rw [String.toList_ofList, Text.stripChars_stripChars]
  rw [isAccepted_iff, isAccepted_iff, hclean]

end Name

namespace Ddl

theorem acceptNames_ok {names : List String} (h : ∀ name ∈ names, Name.IsAccepted name) :
    ∃ is, acceptNames names = .ok is := mapM_ok h

theorem acceptKey_ok {key : KeyClause String} (h : ∀ name ∈ key.columns, Name.IsAccepted name) :
    ∃ k, acceptKey key = .ok k := by
  obtain ⟨partition, hpartition⟩ := acceptNames_ok fun name hname =>
    h name (List.mem_append_left _ hname)
  obtain ⟨clustering, hclustering⟩ := acceptNames_ok fun name hname =>
    h name (List.mem_append_right _ hname)
  refine ⟨⟨partition, clustering.zip (key.clustering.map (·.2)), key.ordered⟩, ?_⟩
  unfold acceptKey
  rw [hpartition, hclustering]
  rfl

end Ddl

/-- A view whose name passes the check has a short name. -/
theorem Member.viewName_length {view name : String}
    (h : Member.viewName (.text view) = .ok name) : view.length ≤ Name.maxLength := by
  obtain ⟨_, hs, -⟩ := Checked.andThen_ok h
  obtain ⟨s, hs, h⟩ := Checked.andThen_ok hs
  cases hs
  split at h
  · cases h
  · dsimp only at h
    split at h
    · cases h
    · exact Nat.le_of_not_lt ‹_›

/-! ## What can be created -/

namespace Table

/-- The names of the views have a length that is accepted. -/
def HasShortViews (t : Table) : Prop := ∀ e ∈ t.views, e.1.length ≤ Name.maxLength

instance (t : Table) : Decidable t.HasShortViews :=
  inferInstanceAs (Decidable (∀ e ∈ t.views, _))

/-- Every column can be quoted. -/
def HasAcceptedColumns (t : Table) : Prop := ∀ column, t.IsStored column → Name.IsAccepted column

instance (t : Table) : Decidable t.HasAcceptedColumns :=
  decidable_of_iff (∀ f ∈ t.storedFields, Name.IsAccepted f.name)
    ⟨fun h _ ⟨f, hf, hname⟩ => hname ▸ h f hf, fun h f hf => h f.name ⟨f, hf, rfl⟩⟩

/-- The key of the table and those of its views have columns of the partition, and no custom index
has a blank implementation. -/
structure Creatable (t : Table) : Prop where
  partitionKey : t.partitionKey ≠ []
  views : ∀ e ∈ t.views, e.2.partitionKey ≠ []
  customIndexes : ∀ e ∈ t.keyedCustomIndexes, e.2.implementation ≠ ""

/-- What is promised of a table when it is asked whether it can be created. -/
structure Described (t : Table) : Prop where
  wellFormed : t.WellFormed
  identifiers : ∀ column, t.IsStored column → Name.IsIdentifier column
  brackets : t.WritesBrackets
  shortViews : t.HasShortViews

variable {t : Table}

theorem Described.acceptedColumns (h : t.Described) : t.HasAcceptedColumns :=
  fun column hstored => (h.identifiers column hstored).isAccepted

/-- The text of the type of a declared column is not empty. -/
theorem WellFormed.typeText_ne_empty (h : t.WellFormed) {f : Field} (hf : f ∈ t.storedFields) :
    f.typeText ≠ "" := Column.typeText_ne_empty (h.typeName hf)

/-- A declared custom index is on a column that can be quoted when every column can be. -/
theorem WellFormed.customIndex_accepted (h : t.WellFormed) (hcolumns : t.HasAcceptedColumns)
    {e : String × CustomIndex} (he : e ∈ t.keyedCustomIndexes) : Name.IsAccepted e.2.column := by
  obtain ⟨i, hi, hindex⟩ := List.mem_map.1 (CustomIndex.mem_keyed he).1
  obtain ⟨d, hd, rfl⟩ := List.mem_map.1 hi
  rw [← hindex]
  exact Name.isAccepted_strip.2 (hcolumns _ (h.customIndexes d hd))

end Table

namespace Migration

open Draft

variable {t : Table}

/-- A created index has a target that is not empty. -/
theorem ne_empty_of_ofText {text : String} {target : IndexTarget}
    (h : IndexTarget.ofText text = .ok target) : text ≠ "" := by
  rintro rfl
  cases h

theorem ends_createIndex {text : String} {target : IndexTarget} (htable : Name.NamesTable t.name)
    (htarget : IndexTarget.ofText text = .ok target) : (createIndex t text).outcome = .ok () := by
  obtain ⟨table, htableName⟩ := Name.accepts_table htable.1
  have hddl : IndexCreation.ddl ⟨t.name, text⟩ = .ok (.createIndex t.name target) := by
    unfold IndexCreation.ddl
    rw [htarget]
  have haccept : (Ddl.createIndex t.name target).accept = .ok (.createIndex table target) := by
    simp only [Ddl.accept, htableName]
    rfl
  exact Ends.send (IndexCreation.checked_eq htable (ne_empty_of_ofText htarget)) hddl haccept

/-- A custom index can be created exactly when its column can be quoted and it has an
implementation. -/
theorem createCustomIndex_ok_iff {i : CustomIndex} (htable : Name.NamesTable t.name) :
    (createCustomIndex t i).outcome = .ok () ↔
      Name.IsAccepted i.column ∧ i.implementation ≠ "" := by
  constructor
  · intro h
    obtain ⟨o, d, _, hmade, hd, haccept, -⟩ := Draft.send_ok h
    refine ⟨?_, fun hempty => ?_⟩
    · cases CustomIndexCreation.checked_ok hmade
      cases hd
      obtain ⟨_, column, -, hcolumn, -⟩ := Ddl.accept_createCustomIndex haccept
      exact ⟨column, hcolumn⟩
    · unfold CustomIndexCreation.checked at hmade
      rw [hempty] at hmade
      obtain ⟨_, _, -, himplementation, -⟩ := Checked.seq_ok hmade
      cases himplementation
  · rintro ⟨hcolumn, hne⟩
    obtain ⟨table, htableName⟩ := Name.accepts_table htable.1
    have hnamed := hcolumn.ne_empty
    obtain ⟨column, hcolumnName⟩ := hcolumn
    have haccept : ∀ options, (Ddl.createCustomIndex t.name i.column i.implementation
        options).accept = .ok (.createCustomIndex table column i.implementation options) := by
      intro options
      simp only [Ddl.accept, htableName, hcolumnName]
      rfl
    exact Ends.send (CustomIndexCreation.checked_eq htable hnamed hne) rfl (haccept _)

/-- A view over columns that can be quoted can be created exactly when its name is short enough and
its key has a column of the partition. -/
theorem createView_ok_iff {name : String} {v : View} (htable : Name.NamesTable t.name)
    (hname : Name.isTable name = true)
    (hcolumns : ∀ c ∈ v.selectClause.getD [] ++ v.keyColumns, Name.IsAccepted c) :
    (createView t name v).outcome = .ok () ↔
      name.length ≤ Name.maxLength ∧ v.partitionKey ≠ [] := by
  constructor
  · intro h
    obtain ⟨o, -, -, hmade, -⟩ := Draft.send_ok h
    unfold ViewCreation.checked at hmade
    obtain ⟨_, _, hnames, hkey, -⟩ := Checked.seq_ok hmade
    obtain ⟨_, _, -, hview, -⟩ := Checked.seq_ok hnames
    exact ⟨Member.viewName_length (Checked.under_ok hview), (KeySpec.checked_ok_iff.1 hkey).1⟩
  · rintro ⟨hshort, hne⟩
    obtain ⟨table, htableName⟩ := Name.accepts_table htable.1
    obtain ⟨view, hview⟩ := Name.accepts_table hname
    obtain ⟨key, hkey⟩ : ∃ k, Ddl.acceptKey v.keyClause = .ok k := Ddl.acceptKey_ok fun c hc =>
      hcolumns c (List.mem_append_right _ (v.columns_keyClause ▸ hc))
    obtain ⟨select, hselect⟩ : ∃ select, Ddl.acceptSelect v.selectClause = .ok select := by
      cases hclause : v.selectClause with
      | none => exact ⟨none, rfl⟩
      | some names =>
        obtain ⟨is, his⟩ : ∃ is, Ddl.acceptNames names = .ok is := Ddl.acceptNames_ok fun c hc =>
          hcolumns c (List.mem_append_left _ (by rw [hclause]; exact hc))
        exact ⟨some is, by simp only [Ddl.acceptSelect, his]; rfl⟩
    have haccept : (Ddl.createView name t.name v.selectClause v.keyClause).accept =
        .ok (.createView view table select key) := by
      simp only [Ddl.accept, htableName, hview, hselect, hkey]
      rfl
    exact Ends.send (ViewCreation.checked_eq htable ⟨hname, hshort⟩ hne) rfl haccept

/-- The columns of a table that is created pass their checks. -/
theorem columnSpecs_ok (hwell : t.WellFormed) (hnames : ∀ f ∈ t.storedFields, f.name ≠ "") :
    List.Forall₂ (fun x y => ColumnSpec.coercion x = .ok y)
      ((tableCreation t).columns.map ColumnSpec.toValue) (tableCreation t).columns := by
  rw [List.forall₂_map_left_iff]
  refine List.forall₂_same.2 fun c hc => ?_
  obtain ⟨f, hf, rfl⟩ := List.mem_map.1 hc
  have hname : f.name ≠ "" := hnames f hf
  have htype : f.typeText ≠ "" := hwell.typeText_ne_empty hf
  have hmade : ColumnSpec.coercion (ColumnSpec.toValue ⟨f.name, f.typeText, f.isStatic⟩) =
      ColumnSpec.mk <$> (Coercion.textWithin 1 none (.text f.name)).under "name"
        <*> (Coercion.textWithin 1 none (.text f.typeText)).under "cql_type"
        <*> (Coercion.truth (.bool f.isStatic)).under "static" := by with_unfolding_all rfl
  rw [hmade, Coercion.textWithin_text hname, Coercion.textWithin_text htype]
  rfl

/-- The creation of a table whose columns have names passes its checks when the key has a column of
the partition. -/
theorem tableCreation_checked (hwell : t.WellFormed) (hnames : ∀ f ∈ t.storedFields, f.name ≠ "")
    (hne : t.partitionKey ≠ []) : (tableCreation t).checked = .ok (tableCreation t) := by
  have hthere : (tableCreation t).columns ≠ [] := by
    obtain ⟨c, hc⟩ := List.exists_mem_of_ne_nil _ hne
    obtain ⟨f, hf, -⟩ := hwell.key c (List.mem_append_left _ hc)
    exact List.ne_nil_of_mem (List.mem_map_of_mem hf)
  have hlist := Coercion.nonEmptyListOf_ok (columnSpecs_ok hwell hnames)
  rw [if_neg hthere] at hlist
  have hkeys : ∀ found,
      TableCreation.checkKey found (tableCreation t) = .ok (tableCreation t) := by
    intro found
    refine if_pos (List.isEmpty_iff.2 (List.filter_eq_nil_iff.2 fun c hc => ?_))
    obtain ⟨f, hf, rfl, -⟩ := hwell.key c hc
    have hmem : f.name ∈ (tableCreation t).columns.map (·.name) :=
      List.mem_map.2 ⟨⟨f.name, f.typeText, f.isStatic⟩, List.mem_map_of_mem hf, rfl⟩
    simpa using hmem
  have hkeyMade : (tableCreation t).key.checked = .ok (tableCreation t).key :=
    KeySpec.checked_ok_iff.2 ⟨hne, rfl⟩
  have htableMade : Member.tableName (.text (tableCreation t).table) = .ok t.name :=
    Member.tableName_text hwell.name
  unfold TableCreation.checked
  rw [htableMade, hlist, hkeyMade]
  exact hkeys _

/-- The table alone can be created exactly when its key has a column of the partition and its
columns can be quoted. -/
theorem createTable_ok_iff (hwell : t.WellFormed) :
    (createTable t).outcome = .ok () ↔ t.partitionKey ≠ [] ∧ t.HasAcceptedColumns := by
  constructor
  · intro h
    refine ⟨?_, ?_⟩
    · obtain ⟨o, -, -, hmade, -⟩ := Draft.send_ok h
      obtain ⟨_, hparts, -⟩ := Checked.andThen_ok hmade
      obtain ⟨_, _, -, hkey, -⟩ := Checked.seq_ok hparts
      exact (KeySpec.checked_ok_iff.1 hkey).1
    · rintro column ⟨f, hf, rfl⟩
      obtain ⟨_, columns, _, hcolumns, -⟩ := createTable_ok h
      obtain ⟨c, -, hname, -⟩ := exists_mem_zip (Table.forall₂_columnClauses hcolumns) hf
      exact ⟨c.name, hname⟩
  · rintro ⟨hne, haccepted⟩
    obtain ⟨table, htableName⟩ := Name.accepts_table hwell.name.1
    have hstored : ∀ c ∈ t.keyClause.columns, t.IsStored c := fun c hc => by
      obtain ⟨f, hf, rfl, -⟩ := hwell.key c (t.columns_keyClause ▸ hc)
      exact ⟨f, hf, rfl⟩
    obtain ⟨key, hkey⟩ := Ddl.acceptKey_ok fun c hc => haccepted c (hstored c hc)
    obtain ⟨columns, hcolumns⟩ : ∃ cs, t.columnClauses.mapM Ddl.acceptColumn = .ok cs := by
      refine mapM_ok fun c hc => ?_
      obtain ⟨f, hf, rfl⟩ := List.mem_map.1 hc
      obtain ⟨i, hi⟩ := haccepted f.name ⟨f, hf, rfl⟩
      exact ⟨⟨i, f.typeText, f.isStatic⟩, by simp only [Ddl.acceptColumn, hi]; rfl⟩
    -- each name of the definition is accepted, and so the definition is
    have haccept : (Ddl.createTable t.name t.columnClauses t.keyClause).accept =
        .ok (.createTable table columns key) := by
      simp only [Ddl.accept, hcolumns, htableName, hkey]
      rfl
    have hddl : (tableCreation t).ddl = .createTable t.name t.columnClauses t.keyClause := by
      unfold TableCreation.ddl tableCreation Table.columnClauses
      rw [List.map_map]
      rfl
    have hnames : ∀ f ∈ t.storedFields, f.name ≠ "" := fun f hf =>
      (haccepted f.name ⟨f, hf, rfl⟩).ne_empty
    exact Ends.send (tableCreation_checked hwell hnames hne) (congrArg Except.ok hddl) haccept

/-! ## Everything that is declared -/

theorem createDeclared_ok_iff (hwell : t.WellFormed) (hcolumns : t.HasAcceptedColumns)
    {e : String × View} (he : e ∈ t.views) : (createView t e.1 e.2).outcome = .ok () ↔
      e.1.length ≤ Name.maxLength ∧ e.2.partitionKey ≠ [] :=
  createView_ok_iff hwell.name (hwell.view e he).name
    fun c hc => hcolumns c (hwell.view_stored he hc)

theorem createKeyed_ok_iff (hwell : t.WellFormed) (hcolumns : t.HasAcceptedColumns)
    {e : String × CustomIndex} (he : e ∈ t.keyedCustomIndexes) :
    (createCustomIndex t e.2).outcome = .ok () ↔ e.2.implementation ≠ "" :=
  (createCustomIndex_ok_iff hwell.name).trans
    (and_iff_right (hwell.customIndex_accepted hcolumns he))

/-- Every declared index can be created. -/
theorem ends_createDeclaredIndex (hwell : t.WellFormed) {text : String} (htext : text ∈ t.indexes) :
    (createIndex t text).outcome = .ok () := by
  obtain ⟨target, htarget, -⟩ := hwell.indexes text htext
  exact ends_createIndex hwell.name htarget

/-- The shape of a declared table has its custom indexes under their keys. -/
theorem shape_declared (hwell : t.WellFormed) : ∃ shape,
    (Describable.declared t).shape = .ok shape ∧
    shape.customIndexes = t.keyedCustomIndexes := by
  obtain ⟨declared, hdeclared⟩ : ∃ targets, TableShape.canonicalTargets t.indexes = .ok targets :=
    TableShape.canonicalTargets_ok fun text htext =>
      (hwell.indexes text htext).imp fun _ htarget => htarget.1
  exact ⟨_, Describable.canonicalOf_eq hdeclared, rfl⟩

/-- Everything that is declared can be created exactly when the columns can be quoted, the views
have short names, the keys have columns of the partition and the custom indexes have
implementations. -/
theorem createAll_ok_iff (hwell : t.WellFormed) : (createAll t).outcome = .ok () ↔
    t.HasAcceptedColumns ∧ t.HasShortViews ∧ t.Creatable := by
  obtain ⟨shape, hshape, hcustom⟩ := shape_declared hwell
  constructor
  · intro h
    obtain ⟨_, htable, h, -⟩ := Draft.bind_ok h
    obtain ⟨_, -, h, -⟩ := Draft.bind_ok h
    obtain ⟨shape', hshape', h, -⟩ := Draft.bind_ok h
    obtain rfl : shape = shape' := Except.ok.inj (hshape.symm.trans hshape')
    obtain ⟨_, hkeyed, hviews, -⟩ := Draft.bind_ok h
    rw [hcustom] at hkeyed
    obtain ⟨hpartition, hcolumns⟩ := (createTable_ok_iff hwell).1 htable
    have hcreated : ∀ e ∈ t.views, e.1.length ≤ Name.maxLength ∧ e.2.partitionKey ≠ [] :=
      fun e he => (createDeclared_ok_iff hwell hcolumns he).1 (forM_ok hviews e he)
    exact ⟨hcolumns, fun e he => (hcreated e he).1, hpartition, fun e he => (hcreated e he).2,
      fun e he => (createKeyed_ok_iff hwell hcolumns he).1 (forM_ok hkeyed e he)⟩
  · rintro ⟨hcolumns, hshort, hpartition, hviews, hkeyed⟩
    have hindexes : (t.indexes.forM (createIndex t)).outcome = .ok () :=
      Ends.forM fun text htext => ends_createDeclaredIndex hwell htext
    have hcustomIndexes : (shape.customIndexes.forM fun e => createCustomIndex t e.2).outcome =
        .ok () := by
      rw [hcustom]
      exact Ends.forM fun e he => (createKeyed_ok_iff hwell hcolumns he).2 (hkeyed e he)
    have hall : (t.views.forM fun e => createView t e.1 e.2).outcome = .ok () :=
      Ends.forM fun e he =>
        (createDeclared_ok_iff hwell hcolumns he).2 ⟨hshort e he, hviews e he⟩
    obtain ⟨u, hu, -⟩ : Ends (createAll t) fun _ => True := by
      refine Ends.bind ⟨(), (createTable_ok_iff hwell).2 ⟨hpartition, hcolumns⟩, ?_⟩
      refine Ends.bind ⟨(), hindexes, Ends.bind (Ends.lift hshape ?_)⟩
      exact Ends.bind ⟨(), hcustomIndexes, (), hall, trivial⟩
    exact hu

/-- Everything that is declared can be created exactly when the keys have columns of the partition
and the custom indexes have implementations. -/
theorem createAll_ok_iff_creatable (hdescribed : t.Described) :
    (createAll t).outcome = .ok () ↔ t.Creatable :=
  (createAll_ok_iff hdescribed.wellFormed).trans
    ⟨fun h => h.2.2, fun h => ⟨hdescribed.acceptedColumns, hdescribed.shortViews, h⟩⟩

end Migration

end WideColumn
