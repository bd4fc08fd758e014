import WideColumn.Proofs.Convergence

/-!
# What registration promises of the creation

The statements that create a registered table are checked once more when they are put together. A
table that is registered from a map has columns of the partition in its key and in those of its
views, and four things remain that only the creation finds out: columns that cannot be quoted,
columns that are written alike, views with too long a name, and custom indexes whose implementation
is blank. The creation of a registered table compiles (`Table.Compiles`) exactly when it has none of
these (`Table.Compilable`), as `Table.WellFormed.compiles_iff` says; and a run that nothing hinders
comes to its end exactly then, the spelling of the columns apart.
-/

namespace WideColumn

/-! ## Keys that are read -/

namespace Definition

/-- A key that is read has a column of the partition. -/
theorem parseKey_ne_nil {key table : Value} {partition clustering : List String}
    (h : parseKey key table = .ok (partition, clustering)) : partition ≠ [] := by
  have hnames : ∀ {columns : List Value}, ¬ (columns.isEmpty || !columns.all isName) = true →
      columns.filterMap Value.text? ≠ [] := by
    intro columns h
    simp only [Bool.or_eq_true, List.isEmpty_iff, Bool.not_eq_true', not_or,
      Bool.not_eq_false] at h
    obtain ⟨c, hc⟩ := List.exists_mem_of_ne_nil columns h.1
    have hname := List.all_eq_true.1 h.2 c hc
    cases c with
    | text s => exact List.ne_nil_of_mem (List.mem_filterMap.2 ⟨.text s, hc, rfl⟩)
    | _ => cases hname
  -- the two ways of giving the partition end in the same checks
  have hchecked : ∀ {columns rest : List Value} {e e' : Failure},
      (if (columns.isEmpty || !columns.all isName) = true then Except.error e
        else if (!rest.all isName) = true then Except.error e'
        else Except.ok (columns.filterMap Value.text?, rest.filterMap Value.text?)) =
          Except.ok (partition, clustering) → partition ≠ [] := by
    intro columns rest e e' h
    split at h
    · cases h
    · split at h
      · cases h
      · rename_i hcolumns _
        cases h
        exact hnames hcolumns
  unfold parseKey at h
  dsimp only at h
  split at h
  · cases h
  · split at h
    · exact hchecked h
    · obtain ⟨columns, -, h⟩ := of_bind_ok h
      exact hchecked h

end Definition

namespace Table

variable {name definition : Value} {t : Table}

/-- A table that is registered from a map has columns of the partition in its key and in those of
its views. -/
theorem partitions_ne_nil (h : ofDefinition name definition = .ok t) :
    t.partitionKey ≠ [] ∧ ∀ e ∈ t.views, e.2.partitionKey ≠ [] := by
  obtain ⟨table, es, d, -, -, hreads, hregister⟩ := ofDefinition_ok h
  obtain ⟨-, -, -, hpartition, -, -, -, -, hviews⟩ := TableDraft.register_ok hregister
  refine ⟨hpartition ▸ Definition.parseKey_ne_nil hreads.key, fun e he => ?_⟩
  obtain ⟨vs, -, ps, hread, hps⟩ := hreads.views
  rw [hviews, hps] at he
  obtain ⟨v, -, -, hview⟩ := forall₂_mem_right hread (Keyed.mem_of_mem_ofList he)
  obtain ⟨_, -, hview⟩ := Definition.parseView_ok hview
  exact Definition.parseKey_ne_nil hview.key

end Table

/-! ## Names that are written apart -/

/-- Names between double quotes are the same when the names are. -/
theorem Identifier.quoted_inj {i j : Identifier} : i.quoted = j.quoted ↔ i.text = j.text := by
  unfold quoted
  rw [String.append_left_inj, String.append_right_inj]

namespace Table

variable {t : Table}

/-- Columns that are accepted are written apart when they are spelled apart. -/
theorem nodup_quoted_iff {columns : List (ColumnClause Identifier)}
    (h : t.columnClauses.mapM Ddl.acceptColumn = .ok columns) :
    (columns.map (·.name.quoted)).Nodup ↔
      (t.storedFields.map fun f => Name.spelled f.name).Nodup := by
  have hspelled : columns.map (·.name.text) =
      t.storedFields.map fun f => Name.spelled f.name :=
    map_eq_of_forall₂ (fun _ _ htext => htext) (List.forall₂_map_left_iff.2
      ((forall₂_columnClauses h).imp fun _ _ hc => Identifier.ofText_text hc.1))
  rw [← hspelled]
  simp only [List.Nodup, List.pairwise_map, ne_eq, Identifier.quoted_inj]

end Table

/-! ## What compiles -/

namespace Table

open Migration Draft

/-- Every statement that creates the table compiles, and the columns that are created with it have
distinct names. -/
structure Compiles (t : Table) : Prop where
  table : (createTable t).outcome = .ok () ∧ ∃ table columns key,
    (createTable t).moves = [.send ⟨"create_table", .create, .createTable table columns key⟩] ∧
    (columns.map (·.name.quoted)).Nodup
  indexes : ∀ text ∈ t.indexes, (createIndex t text).outcome = .ok ()
  customIndexes : ∃ shape, (Describable.declared t).shape = .ok shape ∧
    ∀ e ∈ shape.customIndexes, (createCustomIndex t e.2).outcome = .ok ()
  views : ∀ e ∈ t.views, (createView t e.1 e.2).outcome = .ok ()

/-- The custom indexes have implementations that are not blank. -/
def HasImplementations (t : Table) : Prop := ∀ e ∈ t.keyedCustomIndexes, e.2.implementation ≠ ""

/-- What registration leaves to the creation: columns that can be quoted and are written apart,
views with short names, and custom indexes with implementations. -/
structure Compilable (t : Table) : Prop where
  columns : t.HasAcceptedColumns
  apart : (t.storedFields.map fun f => Name.spelled f.name).Nodup
  views : t.HasShortViews
  customIndexes : t.HasImplementations

variable {t : Table}

/-- The creation of the table alone compiles over columns that are written apart exactly when the
columns can be quoted and are spelled apart. -/
theorem createTable_compiles_iff (hwell : t.WellFormed) (hpartition : t.partitionKey ≠ []) :
    ((createTable t).outcome = .ok () ∧ ∃ table columns key, (createTable t).moves =
        [.send ⟨"create_table", .create, .createTable table columns key⟩] ∧
        (columns.map (·.name.quoted)).Nodup) ↔
      t.HasAcceptedColumns ∧ (t.storedFields.map fun f => Name.spelled f.name).Nodup := by
  constructor
  · rintro ⟨hcreated, table, columns, key, hmoves, hnodup⟩
    obtain ⟨_, columns', _, hcolumns, hmoves'⟩ := createTable_ok hcreated
    cases hmoves.symm.trans hmoves'
    exact ⟨((createTable_ok_iff hwell).1 hcreated).2, (nodup_quoted_iff hcolumns).1 hnodup⟩
  · rintro ⟨haccepted, happart⟩
    have hcreated := (createTable_ok_iff hwell).2 ⟨hpartition, haccepted⟩
    obtain ⟨table, columns, key, hcolumns, hmoves⟩ := createTable_ok hcreated
    exact ⟨hcreated, table, columns, key, hmoves, (nodup_quoted_iff hcolumns).2 happart⟩

/-- Of a well-formed table with columns in its partitions, the creation compiles exactly when the
table is compilable. -/
theorem WellFormed.compiles_iff (hwell : t.WellFormed) (hpartition : t.partitionKey ≠ [])
    (hviews : ∀ e ∈ t.views, e.2.partitionKey ≠ []) : t.Compiles ↔ t.Compilable := by
  obtain ⟨shape, hshape, hcustom⟩ := shape_declared hwell
  constructor
  · intro h
    obtain ⟨haccepted, happart⟩ := (createTable_compiles_iff hwell hpartition).1 h.table
    obtain ⟨shape', hshape', hkeyed⟩ := h.customIndexes
    obtain rfl : shape = shape' := Except.ok.inj (hshape.symm.trans hshape')
    rw [hcustom] at hkeyed
    exact ⟨haccepted, happart,
      fun e he => ((createDeclared_ok_iff hwell haccepted he).1 (h.views e he)).1,
      fun e he => (createKeyed_ok_iff hwell haccepted he).1 (hkeyed e he)⟩
  · intro h
    refine ⟨(createTable_compiles_iff hwell hpartition).2 ⟨h.columns, h.apart⟩,
      fun text htext => ends_createDeclaredIndex hwell htext, ⟨shape, hshape, fun e he => ?_⟩,
      fun e he => (createDeclared_ok_iff hwell h.columns he).2 ⟨h.views e he, hviews e he⟩⟩
    rw [hcustom] at he
    exact (createKeyed_ok_iff hwell h.columns he).2 (h.customIndexes e he)

/-- A run that nothing hinders and that finds no table comes to its end exactly when everything that
is declared can be created. -/
theorem finishes_created_iff (hwell : t.WellFormed) {settings : Settings} {source : LiveSource}
    {s : Session} (hrun : Unhindered settings source t s none) :
    Finishes settings source t s ↔ t.HasAcceptedColumns ∧ t.HasShortViews ∧ t.Creatable := by
  rw [hrun.finishes_iff, ← createAll_ok_iff hwell]
  constructor
  · rintro ⟨state, houtcome⟩
    obtain ⟨_, hcreated, -⟩ := Draft.bind_ok houtcome
    exact hcreated
  · intro hcreated
    obtain ⟨state, houtcome, -⟩ : Ends (plan t settings.effectivePolicy none) fun _ => True :=
      Ends.bind ⟨(), hcreated, Ends.pure trivial⟩
    exact ⟨state, houtcome⟩

/-- Every statement that creates a table registered from a map compiles, over columns with distinct
names, exactly when its columns can be quoted and are spelled apart, its views have short names and
its custom indexes have implementations. A run that nothing hinders creates the table exactly then,
the spelling of the columns apart. -/
theorem creation_compiles_iff {name definition : Value}
    (h : ofDefinition name definition = .ok t) :
    (t.Compiles ↔ t.Compilable) ∧
    ∀ settings source s, Unhindered settings source t s none →
      (Finishes settings source t s ↔
        t.HasAcceptedColumns ∧ t.HasShortViews ∧ t.HasImplementations) := by
  have hwell := Registered.wellFormed (.inl ⟨name, definition, h⟩)
  obtain ⟨hpartition, hviews⟩ := partitions_ne_nil h
  refine ⟨hwell.compiles_iff hpartition hviews, fun settings source s hrun => ?_⟩
  rw [finishes_created_iff hwell hrun]
  exact ⟨fun ⟨hcolumns, hshort, hcreatable⟩ => ⟨hcolumns, hshort, hcreatable.customIndexes⟩,
    fun ⟨hcolumns, hshort, himplementations⟩ =>
      ⟨hcolumns, hshort, hpartition, hviews, himplementations⟩⟩

/-- Users with an index and a view are created. -/
theorem compiles_viewed :
    ofDefinition (.text "users") viewedDefinition = .ok viewed ∧ viewed.Compiles ∧
      Finishes {} (.given (.ok none)) viewed {} := by
  have hregistered : ofDefinition (.text "users") viewedDefinition = .ok viewed := by
    with_unfolding_all rfl
  have hrun : Unhindered {} (.given (.ok none)) viewed {} none :=
    ⟨rfl, .inr fun _ h => (nomatch h), fun _ h => (nomatch h)⟩
  have hnone : viewed.HasImplementations := fun _ h => (nomatch h)
  obtain ⟨hcompiles, hfinishes⟩ := creation_compiles_iff hregistered
  exact ⟨hregistered, hcompiles.2 ⟨by decide, by decide, by decide, hnone⟩,
    (hfinishes _ _ _ hrun).2 ⟨by decide, by decide, hnone⟩⟩

/-! ### A view with a long name -/

/-- Users with a view whose name has 49 characters, as a definition. -/
def longViewDefinition : Value := .map [
  (.text "fields", .map [(.text "id", .text "uuid"), (.text "name", .text "text")]),
  (.text "key", .list [.text "id"]),
  (.text "materialized_views", .map [(.text "users_by_name_for_the_directory_of_every_customer",
    .map [(.text "key", .list [.text "name", .text "id"])])])]

/-- The table that `longViewDefinition` declares. -/
def longView : Table where
  name := "users"
  fields := [{ name := "id", type := "uuid" }, { name := "name", type := "text" }]
  partitionKey := ["id"]
  clusteringKey := []
  clusteringOrder := []
  indexes := []
  customIndexes := []
  views := [("users_by_name_for_the_directory_of_every_customer", usersByName)]
  defaultTtl := none
  hooks := []

/-- The table is registered and its creation does not compile: a run sends the creation of the table
alone and then fails, although nothing hinders it. -/
theorem not_compiles_longView :
    ofDefinition (.text "users") longViewDefinition = .ok longView ∧ ¬ longView.Compiles ∧
    Unhindered {} (.given (.ok none)) longView {} none ∧
    (syncDeeds {} (.given (.ok none)) longView {}).filterMap Deed.call? =
      [⟨"CREATE TABLE IF NOT EXISTS \"users\" (\"id\" uuid, \"name\" text, PRIMARY KEY((\"id\")));",
        [], .definition⟩] ∧
    ¬ Finishes {} (.given (.ok none)) longView {} := by
  have hregistered : ofDefinition (.text "users") longViewDefinition = .ok longView := by
    with_unfolding_all rfl
  have hrun : Unhindered {} (.given (.ok none)) longView {} none :=
    ⟨rfl, .inr fun _ h => (nomatch h), fun _ h => (nomatch h)⟩
  have hwell := Registered.wellFormed (.inl ⟨_, _, hregistered⟩)
  obtain ⟨hpartition, hviews⟩ := partitions_ne_nil hregistered
  have hlong : ¬ longView.HasShortViews := by decide
  refine ⟨hregistered, fun h => hlong ((hwell.compiles_iff hpartition hviews).1 h).views, hrun, ?_,
    fun h => hlong ((finishes_created_iff hwell hrun).1 h).2.1⟩
  with_unfolding_all rfl

end Table

end WideColumn
