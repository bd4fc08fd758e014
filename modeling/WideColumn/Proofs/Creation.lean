import WideColumn.Proofs.Registration
import WideColumn.Proofs.Shape
import WideColumn.Proofs.Targets
import WideColumn.Proofs.WorkingCopy

/-!
# What a plan creates

A table is created with its columns and its key, then come its indexes, its custom indexes and its
views. Each creation finds its columns in the simulated store, since registration promises them, and
the store holds afterwards what was declared, over the names that are written.
-/

namespace WideColumn

/-! ## Names that are accepted -/

namespace Ddl

/-- Accepted names that keep their spelling are the names that were given. -/
theorem texts_of_acceptNames {names : List String} {is : List Identifier}
    (h : acceptNames names = .ok is) (hspelling : ∀ name ∈ names, Name.KeepsSpelling name) :
    is.map Identifier.text = names := by
  induction names generalizing is with
  | nil =>
    cases h
    rfl
  | cons name names ih =>
    unfold acceptNames at h
    rw [List.mapM_cons] at h
    obtain ⟨i, hi, h⟩ := of_bind_ok h
    obtain ⟨rest, hrest, h⟩ := of_bind_ok h
    cases h
    rw [List.map_cons, hspelling name List.mem_cons_self i hi,
      ih hrest fun other hother => hspelling other (List.mem_cons_of_mem name hother)]

theorem texts_of_acceptColumns {columns : List (ColumnClause String)}
    {cs : List (ColumnClause Identifier)} (h : columns.mapM acceptColumn = .ok cs)
    (hspelling : ∀ c ∈ columns, Name.KeepsSpelling c.name) :
    cs.map ColumnClause.texts = columns := by
  induction columns generalizing cs with
  | nil =>
    cases h
    rfl
  | cons c columns ih =>
    rw [List.mapM_cons] at h
    obtain ⟨accepted, haccepted, h⟩ := of_bind_ok h
    obtain ⟨rest, hrest, h⟩ := of_bind_ok h
    cases h
    obtain ⟨i, hi, haccepted⟩ := of_bind_ok haccepted
    cases haccepted
    rw [List.map_cons, ih hrest fun other hother => hspelling other (List.mem_cons_of_mem c hother),
      ColumnClause.texts, hspelling c List.mem_cons_self i hi]

theorem texts_of_acceptKey {key : KeyClause String} {k : KeyClause Identifier}
    (h : acceptKey key = .ok k) (hspelling : ∀ name ∈ key.columns, Name.KeepsSpelling name) :
    k.texts = key := by
  obtain ⟨partition, hpartition, h⟩ := of_bind_ok h
  obtain ⟨clustering, hclustering, h⟩ := of_bind_ok h
  cases h
  have hp := texts_of_acceptNames hpartition fun name hname =>
    hspelling name (List.mem_append_left _ hname)
  have hc := texts_of_acceptNames hclustering fun name hname =>
    hspelling name (List.mem_append_right _ hname)
  obtain ⟨keyPartition, keyClustering, ordered⟩ := key
  have hzip : (clustering.zip (keyClustering.map (·.2))).map (fun c => (c.1.text, c.2)) =
      keyClustering := by
    change (clustering.zip (keyClustering.map (·.2))).map (Prod.map Identifier.text id) = _
    rw [← List.zip_map_left, hc, List.zip_map']
    exact List.map_id keyClustering
  simp only [KeyClause.texts, hp, hzip]

theorem texts_of_acceptSelect {select : Option (List String)} {columns : Option (List Identifier)}
    (h : acceptSelect select = .ok columns)
    (hspelling : ∀ name ∈ select.getD [], Name.KeepsSpelling name) :
    columns.map (·.map Identifier.text) = select := by
  cases select with
  | none =>
    cases h
    rfl
  | some names =>
    obtain ⟨is, his, h⟩ := of_map_ok h
    subst h
    exact congrArg some (texts_of_acceptNames his hspelling)

end Ddl

/-! ## What is created -/

/-- The view as a statement creates it. -/
def View.created (v : View) : View := .ofClauses v.selectClause v.keyClause

theorem View.columns_keyClause (v : View) : v.keyClause.columns = v.keyColumns := by
  unfold KeyClause.columns View.keyColumns View.keyClause KeySpec.clause
  rw [List.map_map]
  exact congrArg _ (List.map_id _)

theorem Table.columns_keyClause (t : Table) : t.keyClause.columns = t.keyColumns := by
  unfold KeyClause.columns Table.keyColumns Table.keyClause KeySpec.clause
  rw [List.map_map]
  exact congrArg _ (List.map_id _)

/-- The table as a statement creates it, without indexes and views. -/
def Table.bare (t : Table) : LiveTable :=
  .ofClauses (Name.spelled t.name) t.columnClauses t.keyClause

namespace LiveTable

/-- The table with an index on the target that a text is read as. -/
def withIndexOn (naming : String → String) (l : LiveTable) (text : String) : LiveTable :=
  match IndexTarget.ofText text with
  | .ok target => l.withIndex naming target.canonical
  | .error _ => l

/-- What one step keeps, all steps keep. -/
theorem foldl_keeps {ι β : Type} (part : LiveTable → β) {g : LiveTable → ι → LiveTable}
    (h : ∀ l x, part (g l x) = part l) (xs : List ι) (l : LiveTable) :
    part (xs.foldl g l) = part l := by
  induction xs generalizing l with
  | nil => rfl
  | cons x xs ih => rw [List.foldl_cons, ih, h]

theorem columns_withIndexOn (naming : String → String) (l : LiveTable) (text : String) :
    (l.withIndexOn naming text).columns = l.columns := by
  unfold withIndexOn
  split <;> rfl

theorem views_withIndexOn (naming : String → String) (l : LiveTable) (text : String) :
    (l.withIndexOn naming text).views = l.views := by
  unfold withIndexOn
  split <;> rfl

/-- The table with the custom index that is declared under a key. -/
def withDeclaredCustomIndex (naming : String → String) (declared : List (String × CustomIndex))
    (l : LiveTable) (key : String) : LiveTable :=
  match Keyed.get? declared key with
  | some i => l.withCustomIndex naming i.canonical
  | none => l

/-- The table with a custom index that is declared under its key. -/
def withKeyedCustomIndex (naming : String → String) (l : LiveTable) (e : String × CustomIndex) :
    LiveTable := l.withCustomIndex naming e.2.canonical

/-- The table with a view under its name as it is written. -/
def withCreatedView (l : LiveTable) (e : String × View) : LiveTable :=
  l.withView (Name.spelled e.1) e.2.created

/-- The table with the view that is declared under a name. -/
def withDeclaredView (t : Table) (l : LiveTable) (name : String) : LiveTable :=
  match t.view? name with
  | some v => l.withCreatedView (name, v)
  | none => l

end LiveTable

/-! ## What is declared -/

namespace Table

variable {t : Table}

/-- The columns of the table in their canonical form. -/
def storedColumns (t : Table) : List (String × Column) :=
  t.shape.columns.map fun e => (e.1, e.2.canonical)

/-- The custom indexes of the table under their keys. -/
def keyedCustomIndexes (t : Table) : List (String × CustomIndex) :=
  CustomIndex.keyed (t.shape.customIndexes.map fun e => e.2.canonical)

/-- The table as the store holds it once it was created with its indexes. -/
def indexed (naming : String → String) (t : Table) : LiveTable :=
  t.keyedCustomIndexes.foldl (LiveTable.withKeyedCustomIndex naming)
    (t.indexes.foldl (LiveTable.withIndexOn naming) t.bare)

/-- The table as the store holds it once it was created with its indexes and views. -/
def created (naming : String → String) (t : Table) : LiveTable :=
  t.views.foldl LiveTable.withCreatedView (t.indexed naming)

theorem columns_indexed (naming : String → String) (t : Table) :
    (t.indexed naming).columns = t.bare.columns := by
  unfold indexed
  rw [LiveTable.foldl_keeps (g := LiveTable.withKeyedCustomIndex naming) (fun l => l.columns)
      (fun _ _ => rfl),
    LiveTable.foldl_keeps (fun l => l.columns) (LiveTable.columns_withIndexOn naming)]

theorem views_indexed (naming : String → String) (t : Table) : (t.indexed naming).views = [] := by
  unfold indexed
  rw [LiveTable.foldl_keeps (g := LiveTable.withKeyedCustomIndex naming) (fun l => l.views)
      (fun _ _ => rfl),
    LiveTable.foldl_keeps (fun l => l.views) (LiveTable.views_withIndexOn naming)]
  rfl

theorem isStored_iff {column : String} :
    t.IsStored column ↔ column ∈ Keyed.names t.storedColumns := by
  unfold storedColumns IsStored Keyed.names shape
  simp only [List.map_map, List.mem_map]
  rfl

theorem names_bare (t : Table) : Keyed.names t.bare.columns = Keyed.names t.storedColumns := by
  unfold bare LiveTable.ofClauses columnClauses storedColumns Keyed.names shape
  simp only [List.map_map]
  rfl

/-- The names of columns are distinct. -/
theorem WellFormed.nodup_storedColumns (h : t.WellFormed) :
    (Keyed.names t.storedColumns).Nodup := by
  have hnames : Keyed.names t.storedColumns = t.storedFields.map (·.name) := by
    unfold storedColumns Keyed.names shape
    simp only [List.map_map]
    rfl
  rw [hnames]
  exact h.fields.sublist (List.filter_sublist.map _)

/-- A declared index is on a column. -/
theorem WellFormed.target_stored (h : t.WellFormed) {text : String} {target : IndexTarget}
    (hmem : text ∈ t.indexes) (htarget : IndexTarget.ofText text = .ok target) :
    t.IsStored target.column := by
  obtain ⟨target', htarget', hstored⟩ := h.indexes text hmem
  rw [htarget] at htarget'
  cases htarget'
  exact hstored

/-- The text is the canonical form of a declared index target. -/
def Declares (t : Table) (text : String) : Prop :=
  ∃ given ∈ t.indexes, ∃ target, IndexTarget.ofText given = .ok target ∧ target.canonical = text

/-- The canonical form of a declared target is read as the target, which is on a column. -/
theorem WellFormed.reads_declared (h : t.WellFormed)
    (hidentifiers : ∀ column, t.IsStored column → Name.IsIdentifier column) {text : String}
    (htext : t.Declares text) : ∃ target, IndexTarget.ofText text = .ok target ∧
      target.canonical = text ∧ t.IsStored target.column := by
  obtain ⟨given, hgiven, target, htarget, rfl⟩ := htext
  have hstored := h.target_stored hgiven htarget
  exact ⟨target, IndexTarget.ofText_canonical (hidentifiers _ hstored), rfl, hstored⟩

/-- A declared custom index is on a column. -/
theorem WellFormed.customIndex_stored (h : t.WellFormed)
    (hidentifiers : ∀ column, t.IsStored column → Name.IsIdentifier column)
    {e : String × CustomIndex} (he : e ∈ t.keyedCustomIndexes) : t.IsStored e.2.column := by
  obtain ⟨f, hf, hindex⟩ := List.mem_map.1 (CustomIndex.mem_keyed he).1
  obtain ⟨d, hd, rfl⟩ := List.mem_map.1 hf
  have hstored := h.customIndexes d hd
  have hcolumn : e.2.column = CustomIndex.unquoted d.column := by
    rw [← hindex]
    change Text.strip (CustomIndex.unquoted d.column) = _
    unfold Text.strip
    rw [IndexTarget.stripChars_inner (hidentifiers _ hstored).isInner, String.ofList_toList]
  rw [hcolumn]
  exact hstored

/-- A declared view is over columns. -/
theorem WellFormed.view_stored (h : t.WellFormed) {e : String × View} (he : e ∈ t.views)
    {column : String} (hcolumn : column ∈ e.2.selectClause.getD [] ++ e.2.keyColumns) :
    t.IsStored column := by
  obtain ⟨-, hselect, hkey, -⟩ := h.view e he
  rcases List.mem_append.1 hcolumn with hcolumn | hcolumn
  · unfold View.selectClause at hcolumn
    split at hcolumn
    · exact nomatch hcolumn
    · rename_i hall
      refine hselect column hcolumn fun hstar => hall ?_
      rw [View.selectsAll, List.contains_iff_mem]
      exact hstar ▸ hcolumn
  · exact (hkey column hcolumn).1

/-- No two views of the table are written under one name. -/
def ViewsWrittenApart (t : Table) : Prop := ((Keyed.names t.views).map Name.spelled).Nodup

instance (t : Table) : Decidable t.ViewsWrittenApart := inferInstanceAs (Decidable (List.Nodup _))

end Table

namespace Migration

open Draft

variable {naming : String → String} {t : Table} {l : LiveTable} {s : Simulated}

/-! ## Single creations -/

/-- An index is created on a column that is there. -/
theorem creates_index {text : String} (htable : s.table? = some l)
    (hcolumn : ∀ target, IndexTarget.ofText text = .ok target →
      target.column ∈ Keyed.names l.columns) :
    Keeps (Simulated.watch naming) s (createIndex t text)
      fun _ s' => s'.table? = some (l.withIndexOn naming text) := by
  refine Keeps.createIndex fun table target _ htarget => ⟨⟨l, htable, hcolumn target htarget⟩, ?_⟩
  change (s.table?.map (·.withIndex naming target.canonical)) = _
  rw [htable, LiveTable.withIndexOn, htarget]
  rfl

/-- A custom index is created on a column that is there. -/
theorem creates_customIndex {i : CustomIndex} (htable : s.table? = some l)
    (hspelling : Name.KeepsSpelling i.column) (hcolumn : i.column ∈ Keyed.names l.columns) :
    Keeps (Simulated.watch naming) s (createCustomIndex t i)
      fun _ s' => s'.table? = some (l.withCustomIndex naming i.canonical) := by
  refine Keeps.createCustomIndex fun table column options _ hi hoptions => ?_
  have htext : column.text = i.column := hspelling column hi
  have hdisplay : options = i.options := hoptions.trans (List.map_id _)
  refine ⟨⟨l, htable, htext ▸ hcolumn⟩, ?_⟩
  change (s.table?.map (·.withCustomIndex naming
    (CustomIndex.canonical ⟨column.text, i.implementation, options⟩))) = _
  rw [htable, htext, hdisplay]
  rfl

/-- A view is created over columns that are there, under a name that is free. -/
theorem creates_view {name : String} {v : View} (htable : s.table? = some l)
    (hfree : Name.spelled name ∉ Keyed.names l.views)
    (hcolumns : ∀ c ∈ v.selectClause.getD [] ++ v.keyColumns,
      Name.KeepsSpelling c ∧ c ∈ Keyed.names l.columns) :
    Keeps (Simulated.watch naming) s (createView t name v)
      fun _ s' => s'.table? = some (l.withCreatedView (name, v)) := by
  refine Keeps.createView fun view table columns key hview _ _ hselect hkey => ?_
  have htext : view.text = Name.spelled name := Identifier.ofText_text hview
  have hselected := Ddl.texts_of_acceptSelect hselect fun c hc =>
    (hcolumns c (List.mem_append_left _ hc)).1
  have hkeyed : key.texts = v.keyClause := Ddl.texts_of_acceptKey hkey fun c hc =>
    (hcolumns c (List.mem_append_right _ (v.columns_keyClause ▸ hc))).1
  refine ⟨⟨l, htable, htext ▸ hfree, fun c hc => ?_, fun c hc => ?_⟩, ?_⟩
  · have hmem : c ∈ v.selectClause.getD [] := by
      rw [← hselected]
      cases columns with
      | none => exact hc
      | some cs => exact hc
    exact (hcolumns c (List.mem_append_left _ hmem)).2
  · rw [hkeyed, v.columns_keyClause] at hc
    exact (hcolumns c (List.mem_append_right _ hc)).2
  · change (s.table?.map (·.withView view.text
      (View.ofClauses (columns.map (·.map Identifier.text)) key.texts))) = _
    rw [htable, htext, hselected, hkeyed]
    rfl

/-! ## One creation after the other -/

/-- Creations over a list, each of which finds what it needs, where one leaves that for the next. -/
theorem creates_forM {ι : Type} {f : ι → Draft Unit} {g : LiveTable → ι → LiveTable}
    (needs : LiveTable → ι → Prop) (apart : ι → ι → Prop)
    (hstep : ∀ l s x, s.table? = some l → needs l x →
      Keeps (Simulated.watch naming) s (f x) fun _ s' => s'.table? = some (g l x))
    (hothers : ∀ l x y, apart x y → needs l y → needs (g l x) y) :
    ∀ {xs : List ι} {l : LiveTable} {s : Simulated}, s.table? = some l → xs.Pairwise apart →
      (∀ x ∈ xs, needs l x) → Keeps (Simulated.watch naming) s (xs.forM f)
        fun _ s' => s'.table? = some (xs.foldl g l)
  | [], _, _, htable, _, _ => Keeps.pure htable
  | x :: xs, l, s, htable, hapart, hneeds => by
    obtain ⟨hx, hxs⟩ := List.pairwise_cons.1 hapart
    change Keeps _ s (f x >>= fun _ => xs.forM f) _
    refine Keeps.bind
      ((hstep l s x htable (hneeds x List.mem_cons_self)).mono fun _ s' htable' => ?_)
    refine creates_forM needs apart hstep hothers htable' hxs fun y hy => ?_
    exact hothers l x y (hx y hy) (hneeds y (List.mem_cons_of_mem x hy))

/-- Indexes are created one after the other. -/
theorem creates_indexes {texts : List String} (htable : s.table? = some l)
    (hcolumn : ∀ text ∈ texts, ∀ target, IndexTarget.ofText text = .ok target →
      target.column ∈ Keyed.names l.columns) :
    Keeps (Simulated.watch naming) s (texts.forM (createIndex t))
      fun _ s' => s'.table? = some (texts.foldl (LiveTable.withIndexOn naming) l) := by
  refine creates_forM (fun l text => ∀ target, IndexTarget.ofText text = .ok target →
    target.column ∈ Keyed.names l.columns) (fun _ _ => True)
    (fun l s text htable hcolumn => creates_index htable hcolumn) (fun l x y _ hneeds => ?_) htable
    (List.pairwise_of_forall fun _ _ => trivial) hcolumn
  rw [LiveTable.columns_withIndexOn]
  exact hneeds

/-- The columns of the table are in the store, and they are written as they are. -/
structure HasColumns (t : Table) (l : LiveTable) : Prop where
  identifiers : ∀ column, t.IsStored column → Name.IsIdentifier column
  columns : ∀ column, t.IsStored column → column ∈ Keyed.names l.columns

theorem HasColumns.of_columns {l' : LiveTable} (h : HasColumns t l)
    (hcolumns : l'.columns = l.columns) :
    HasColumns t l' :=
  ⟨h.identifiers, fun column hstored => hcolumns ▸ h.columns column hstored⟩

theorem HasColumns.keepsSpelling (h : HasColumns t l) {column : String}
    (hstored : t.IsStored column) :
    Name.KeepsSpelling column := (h.identifiers column hstored).isPlain.keepsSpelling

/-- Declared custom indexes are created one after the other. -/
theorem creates_customIndexes {es : List (String × CustomIndex)} (htable : s.table? = some l)
    (hcolumns : HasColumns t l) (hstored : ∀ e ∈ es, t.IsStored e.2.column) :
    Keeps (Simulated.watch naming) s (es.forM fun e => createCustomIndex t e.2)
      fun _ s' => s'.table? = some (es.foldl (LiveTable.withKeyedCustomIndex naming) l) :=
  creates_forM (g := LiveTable.withKeyedCustomIndex naming) (fun l e => HasColumns t l ∧
    t.IsStored e.2.column) (fun _ _ => True)
    (fun _ _ _ htable ⟨hcolumns, hstored⟩ =>
      creates_customIndex htable (hcolumns.keepsSpelling hstored) (hcolumns.columns _ hstored))
    (fun _ _ _ _ ⟨hcolumns, hstored⟩ => ⟨hcolumns.of_columns rfl, hstored⟩) htable
    (List.pairwise_of_forall fun _ _ => trivial) fun e he => ⟨hcolumns, hstored e he⟩

/-- Declared views are created one after the other when their names are free and apart. -/
theorem creates_views {es : List (String × View)} (htable : s.table? = some l)
    (hwell : t.WellFormed) (hcolumns : HasColumns t l) (hdeclared : ∀ e ∈ es, e ∈ t.views)
    (hfree : ∀ e ∈ es, Name.spelled e.1 ∉ Keyed.names l.views)
    (hapart : es.Pairwise fun e f => Name.spelled e.1 ≠ Name.spelled f.1) :
    Keeps (Simulated.watch naming) s (es.forM fun e => createView t e.1 e.2)
      fun _ s' => s'.table? = some (es.foldl LiveTable.withCreatedView l) := by
  refine creates_forM (g := LiveTable.withCreatedView) (fun l e => HasColumns t l ∧ e ∈ t.views ∧
    Name.spelled e.1 ∉ Keyed.names l.views) (fun e f => Name.spelled e.1 ≠ Name.spelled f.1)
    (fun l s e htable ⟨hcolumns, hmem, hfree⟩ => ?_)
    (fun l e f hne ⟨hcolumns, hmem, hfree⟩ => ⟨hcolumns.of_columns rfl, hmem, fun hnew => ?_⟩)
      htable
    hapart fun e he => ⟨hcolumns, hdeclared e he, hfree e he⟩
  · refine creates_view htable hfree fun c hc => ?_
    have hstored := hwell.view_stored hmem hc
    exact ⟨hcolumns.keepsSpelling hstored, hcolumns.columns c hstored⟩
  · rcases Keyed.mem_names_put.1 hnew with heq | hold
    · exact hne heq.symm
    · exact hfree hold

/-! ## Creating everything -/

/-- Where there is no table, it is created with its columns and its key. -/
theorem creates_table (htable : s.table? = none) (hwell : t.WellFormed)
    (hidentifiers : ∀ column, t.IsStored column → Name.IsIdentifier column) :
    Keeps (Simulated.watch naming) s (Draft.send "create_table" .create .createTable
      (tableCreation t).checked fun o => .ok o.ddl) fun _ s' => s'.table? = some t.bare := by
  refine Keeps.createTable fun table columns key htableName hcolumns hkey => ⟨htable, ?_⟩
  have htext : table.text = Name.spelled t.name := Identifier.ofText_text htableName
  have hcolumnTexts : columns.map ColumnClause.texts = t.columnClauses := by
    refine Ddl.texts_of_acceptColumns hcolumns fun c hc => ?_
    obtain ⟨f, hf, rfl⟩ := List.mem_map.1 hc
    exact (hidentifiers f.name ⟨f, hf, rfl⟩).isPlain.keepsSpelling
  have hkeyTexts : key.texts = t.keyClause := by
    refine Ddl.texts_of_acceptKey hkey fun c hc => ?_
    obtain ⟨f, hf, rfl, -⟩ := hwell.key c (t.columns_keyClause ▸ hc)
    exact (hidentifiers f.name ⟨f, hf, rfl⟩).isPlain.keepsSpelling
  change (s.table? <|> some (LiveTable.ofClauses table.text (columns.map ColumnClause.texts)
    key.texts)) = _
  rw [htable, htext, hcolumnTexts, hkeyTexts]
  rfl

/-- Where there is no table, everything that is declared is created. -/
theorem creates_all (htable : s.table? = none) (hwell : t.WellFormed)
    (hidentifiers : ∀ column, t.IsStored column → Name.IsIdentifier column)
    (hapart : t.ViewsWrittenApart) :
    Keeps (Simulated.watch naming) s (createAll t)
      fun _ s' => s'.table? = some (t.created naming) := by
  have hbare : HasColumns t t.bare := by
    refine ⟨hidentifiers, fun column hstored => ?_⟩
    rw [Table.names_bare]
    exact Table.isStored_iff.1 hstored
  refine Keeps.bind ((creates_table htable hwell hidentifiers).mono fun _ s₁ htable₁ => ?_)
  refine Keeps.bind ((creates_indexes htable₁ fun text htext target htarget =>
    hbare.columns _ (hwell.target_stored htext htarget)).mono fun _ s₂ htable₂ => ?_)
  refine Keeps.bind (Keeps.lift fun shape hshape => ?_)
  obtain ⟨targets, -, rfl⟩ := TableShape.canonical_ok (Describable.canonicalOf_ok hshape)
  have hindexes : HasColumns t (t.indexes.foldl (LiveTable.withIndexOn naming) t.bare) :=
    hbare.of_columns
      (LiveTable.foldl_keeps (fun l => l.columns) (LiveTable.columns_withIndexOn naming) _ _)
  refine Keeps.bind ((creates_customIndexes htable₂ hindexes fun e he =>
    hwell.customIndex_stored hidentifiers he).mono fun _ s₃ htable₃ => ?_)
  have hindexed : HasColumns t (t.indexed naming) := hbare.of_columns (t.columns_indexed naming)
  refine creates_views htable₃ hwell hindexed (fun e he => he) (fun e _ => ?_) ?_
  · rw [t.views_indexed naming]
    exact List.not_mem_nil
  · have hnames : (t.views.map fun e => Name.spelled e.1).Nodup := by
      have hmap := hapart
      unfold Table.ViewsWrittenApart Keyed.names at hmap
      rw [List.map_map] at hmap
      exact hmap
    exact List.pairwise_map.1 hnames

/-- The table is dropped when it has no views. -/
theorem drops_table (htable : s.table? = some l) (hviews : l.views = []) :
    Keeps (Simulated.watch naming) s (Draft.send "drop_table" .drop .dropTable
      (TableRemoval.checked { table := t.name }) fun o => .ok o.ddl) fun _ s' => s'.table? = none :=
  Keeps.dropTable fun _ _ => ⟨⟨l, htable, hviews⟩, rfl⟩

/-- The table is dropped once its views are, and everything that is declared is created. -/
theorem Mirrors.keeps_recreate {same : String → Column → Column → Prop} (h : Mirrors same l s)
    (hwell : t.WellFormed) (hidentifiers : ∀ column, t.IsStored column → Name.IsIdentifier column)
    (hapart : t.ViewsWrittenApart) :
    Keeps (Simulated.watch naming) s (recreate t l)
      fun _ s' => s'.table? = some (t.created naming) := by
  refine Keeps.bind ((Mirrors.keptByDrops.dropViews h h.views fun view hview => hview).mono ?_)
  rintro _ s₁ ⟨rfl, h₁⟩
  obtain ⟨columns, htable, -⟩ := h₁.table
  have hviews : ((Keyed.names l.views).foldl LiveTable.withoutView l).views = [] := by
    rw [LiveTable.foldl_withoutView]
    refine List.filter_eq_nil_iff.2 fun e he => ?_
    have hmem : e.1 ∈ Keyed.names l.views := List.mem_map_of_mem he
    simp [hmem]
  refine Keeps.bind ((drops_table htable hviews).mono fun _ s₂ htable₂ => ?_)
  exact creates_all htable₂ hwell hidentifiers hapart

end Migration

end WideColumn
