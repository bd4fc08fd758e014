import WideColumn.Proofs.SystemQueries

/-!
# Which names of indexes are found

Introspection lists the names of the indexes of a table: those of plain indexes under their targets,
those of custom indexes under their digests (`LiveTable.NamesIndex`). Of the indexes that are listed
under one key the last one stays, so that every name is found exactly when no two targets and no two
digests are the same (`LiveTable.fetch_names_indexes`). The digest of a custom index has its column
and not the part of the collection that the index is on: two indexes of one implementation on the
keys and on the values of a map have one digest, and only one of them can be dropped by its name
(`LiveTable.not_names_keys`).
-/

namespace WideColumn

namespace Keyed

variable {es cs : List (String × String)}

/-- Names are distinct when every value is found under one of them. -/
theorem nodup_names_of_values (hvalues : (es.map (·.2)).Nodup)
    (h : ∀ x ∈ es.map (·.2), x ∈ (ofList es).map (·.2)) : (names es).Nodup := by
  have hmost := (hvalues.subperm h).length_le
  have hleast := (names_ofList_sublist es).length_le
  unfold names at hleast
  simp only [List.length_map] at hmost hleast
  exact nodup_of_length_ofList (le_antisymm hleast hmost)

/-- Distinct values of two lists are all found under their names exactly when the names of each list
are distinct. -/
theorem values_found_iff (hvalues : (es.map (·.2) ++ cs.map (·.2)).Nodup) :
    (∀ x ∈ es.map (·.2) ++ cs.map (·.2), x ∈ (ofList es).map (·.2) ∨ x ∈ (ofList cs).map (·.2)) ↔
      (names es).Nodup ∧ (names cs).Nodup := by
  obtain ⟨hes, hcs, hapart⟩ := List.nodup_append.1 hvalues
  have hfrom : ∀ {es : List (String × String)} {x : String}, x ∈ (ofList es).map (·.2) →
      x ∈ es.map (·.2) := by
    intro es x hx
    obtain ⟨e, he, rfl⟩ := List.mem_map.1 hx
    exact List.mem_map_of_mem (mem_of_mem_ofList he)
  constructor
  · intro h
    refine ⟨nodup_names_of_values hes fun x hx => ?_, nodup_names_of_values hcs fun x hx => ?_⟩
    · refine (h x (List.mem_append_left _ hx)).resolve_right fun hc => ?_
      exact hapart x hx x (hfrom hc) rfl
    · refine (h x (List.mem_append_right _ hx)).resolve_left fun he => ?_
      exact hapart x (hfrom he) x hx rfl
  · rintro ⟨hes, hcs⟩ x hx
    rw [ofList_of_nodup hes, ofList_of_nodup hcs]
    exact List.mem_append.1 hx

end Keyed

namespace Introspection

open Coercion

/-! ## Names of what was found -/

/-- The name of an index as a text. -/
def FoundIndex.label (f : FoundIndex) : String := f.name.text?.getD ""

variable {found : List FoundIndex}

/-- The names of plain indexes with their targets. -/
def targetLabels (found : List FoundIndex) : List (String × String) :=
  found.filterMap fun
    | .onTarget target name => some (target, (FoundIndex.onTarget target name).label)
    | .custom .. => none

/-- The names of custom indexes with their digests. -/
def customLabels (found : List FoundIndex) : List (String × String) :=
  found.filterMap fun
    | .onTarget .. => none
    | .custom i name => some (i.key, (FoundIndex.custom i name).label)

theorem names_targetLabels (found : List FoundIndex) :
    Keyed.names (targetLabels found) = targets found := by
  unfold Keyed.names targetLabels targets
  rw [List.map_filterMap]
  exact List.filterMap_congr fun f _ => by cases f <;> rfl

theorem names_customLabels (found : List FoundIndex) :
    Keyed.names (customLabels found) = (customs found).map CustomIndex.key := by
  unfold Keyed.names customLabels customs
  rw [List.map_filterMap, List.map_filterMap]
  exact List.filterMap_congr fun f _ => by cases f <;> rfl

/-- Every index is plain or custom. -/
theorem labels_perm (found : List FoundIndex) : (found.map FoundIndex.label).Perm
    ((targetLabels found).map (·.2) ++ (customLabels found).map (·.2)) := by
  induction found with
  | nil => exact .nil
  | cons f found ih =>
    cases f with
    | onTarget target name => exact ih.cons _
    | custom i name => exact (ih.cons _).trans List.perm_middle.symm

section

variable (h : ∀ f ∈ found, f.name = .text f.label)
include h

theorem targetNames_labels :
    targetNames found = putAll ((targetLabels found).map fun e => (.text e.1, .text e.2)) := by
  unfold targetNames targetLabels
  rw [List.map_filterMap]
  congr 1
  refine List.filterMap_congr fun f hf => ?_
  cases f with
  | onTarget target name => exact congrArg (fun name => some (Value.text target, name)) (h _ hf)
  | custom i name => rfl

theorem customNames_labels :
    customNames found = putAll ((customLabels found).map fun e => (.text e.1, .text e.2)) := by
  unfold customNames customLabels
  rw [List.map_filterMap]
  congr 1
  refine List.filterMap_congr fun f hf => ?_
  cases f with
  | onTarget target name => rfl
  | custom i name => exact congrArg (fun name => some (Value.text i.key, name)) (h _ hf)

end

/-- The name of an index is that of its row. -/
theorem index_name {row : Row} {f : FoundIndex} (h : index row = .ok f) :
    requiredPart row "index_name" = .ok f.name := by
  rw [index_eq] at h
  obtain ⟨options, -, h⟩ := of_bind_ok h
  dsimp only at h
  split at h
  · obtain ⟨i, -, h⟩ := of_bind_ok h
    obtain ⟨name, hname, h⟩ := of_bind_ok h
    cases h
    exact hname
  · obtain ⟨target, -, h⟩ := of_bind_ok h
    obtain ⟨name, hname, h⟩ := of_bind_ok h
    cases h
    exact hname

/-- Of the target of a custom index only the column counts: what part of a collection the index is on
is lost. -/
theorem customIndex_column {target target' : Value} {t t' : IndexTarget}
    (h : IndexTarget.ofValue target = .ok t) (h' : IndexTarget.ofValue target' = .ok t')
    (hcolumn : t.column = t'.column) (options : List (Value × Value)) :
    customIndex target options = customIndex target' options := by
  unfold customIndex
  rw [h, h']
  simp only [bind, Except.bind, hcolumn]

/-- The label of an index with a text for a name is the text. -/
theorem label_eq {f : FoundIndex} {name : String} (h : f.name = .text name) : f.label = name := by
  rw [FoundIndex.label, h]
  rfl

/-! ## What is put together -/

/-- The names in a table that is put together are those of the indexes that were found. -/
theorem assemble_ok {table : String} {rows : List Row} {columns : List (Value × Column)}
    {views : List (Value × View)} {l : LiveTable}
    (h : assemble table rows columns found views = .ok l) :
    mapOf text (.map (targetNames found)) = .ok l.indexNames ∧
      mapOf text (.map (customNames found)) = .ok l.customIndexNames := by
  unfold assemble at h
  obtain ⟨partition, -, h⟩ := of_bind_ok h
  obtain ⟨clustering, -, h⟩ := of_bind_ok h
  obtain ⟨order, -, h⟩ := of_bind_ok h
  obtain ⟨f, customNames, hf, hcustom, rfl⟩ := Checked.seq_ok (Checked.toExcept_ok h)
  obtain ⟨f', targetNames, hf', htarget, rfl⟩ := Checked.seq_ok hf
  obtain ⟨f'', table', hf'', htable, rfl⟩ := Checked.seq_ok hf'
  obtain ⟨shape, -, rfl⟩ := Checked.map_ok hf''
  exact ⟨Checked.under_ok htarget, Checked.under_ok hcustom⟩

/-- A table that is read is put together from the indexes in the rows of the store. -/
theorem read_ok {keyspace : Value} {table : String} {s s' : Session} {l : LiveTable}
    (h : (read keyspace table).perform s = (.ok (some l), s')) :
    ∃ indexRows found, (s.store.system.find .indexes table).mapM Value.toEntries = .ok indexRows ∧
      indexRows.mapM index = .ok found ∧
      ∃ rows columns views, assemble table rows columns found views = .ok l := by
  unfold read at h
  obtain ⟨rows, s₁, hrows, h⟩ := Action.bind_ok h
  obtain ⟨-, -, rfl⟩ := query_ok hrows
  cases rows with
  | nil =>
    obtain ⟨_, s₂, -, h⟩ := Action.bind_ok h
    cases h
  | cons row rows =>
    obtain ⟨columns, s₂, hcolumns, h⟩ := Action.bind_ok h
    obtain ⟨-, rfl⟩ := Action.lift_ok hcolumns
    obtain ⟨indexRows, s₃, hquery, h⟩ := Action.bind_ok h
    obtain ⟨-, hindexRows, rfl⟩ := query_ok hquery
    obtain ⟨found, s₄, hindexes, h⟩ := Action.bind_ok h
    obtain ⟨hfound, rfl⟩ := Action.lift_ok hindexes
    obtain ⟨viewRows, s₅, hviewRows, h⟩ := Action.bind_ok h
    obtain ⟨vs, s₆, hvs, h⟩ := Action.bind_ok h
    obtain ⟨live, s₇, hlive, h⟩ := Action.bind_ok h
    obtain ⟨_, s₈, -, h⟩ := Action.bind_ok h
    cases h
    exact ⟨indexRows, found, hindexRows, hfound, row :: rows, putAll columns, putAll vs,
      (Action.lift_ok hlive).1⟩

end Introspection

namespace LiveTable

open Introspection

/-- The table has an index by this name. -/
def NamesIndex (l : LiveTable) (name : String) : Prop :=
  name ∈ l.indexNames.map (·.2) ∨ name ∈ l.customIndexNames.map (·.2)

variable {keyspace : Value} {table : String} {s s' : Session} {l : LiveTable}

theorem fetch_ok (h : (fetch keyspace table).perform s = (.ok (some l), s')) :
    ∃ s₀ s₁, s₀.store = s.store ∧ (read keyspace table).perform s₀ = (.ok (some l), s₁) := by
  obtain ⟨s₂, htraced⟩ := Action.perform_traced "cqlflow.schema.fetch_live_schema" []
    (read keyspace table) s
  let s₀ := ((Action.openSpan "cqlflow.schema.fetch_live_schema" []).perform s).2
  have houtcome : ((read keyspace table).perform s₀).1 = .ok (some l) :=
    congrArg Prod.fst (htraced.symm.trans h)
  exact ⟨s₀, _, rfl, Prod.ext houtcome rfl⟩

/-- A table that is found has all its indexes by their names, if these are distinct, exactly when no
two plain indexes have one target and no two custom indexes have one digest. -/
theorem fetch_names_indexes (h : (fetch keyspace table).perform s = (.ok (some l), s')) :
    ∃ rows found, (s.store.system.find .indexes table).mapM Value.toEntries = .ok rows ∧
      rows.mapM index = .ok found ∧
      ∀ names : List String,
        List.Forall₂ (fun row name => requiredPart row "index_name" = .ok (.text name)) rows names →
        names.Nodup →
          ((∀ name ∈ names, l.NamesIndex name) ↔
            (targets found).Nodup ∧ ((customs found).map CustomIndex.key).Nodup) := by
  obtain ⟨s₀, s₁, hstore, hread⟩ := fetch_ok h
  obtain ⟨rows, found, hrows, hfound, rows', columns, vs, hassemble⟩ := read_ok hread
  refine ⟨rows, found, hstore ▸ hrows, hfound, fun names hnames hnodup => ?_⟩
  have hfoundNames : List.Forall₂ (fun f name => f.name = .text name) found names :=
    (forall₂_comp (forall₂_of_mapM hfound).flip hnames).imp fun f name hrow => by
      obtain ⟨row, hindex, hname⟩ := hrow
      exact Except.ok.inj ((index_name hindex).symm.trans hname)
  have hlabels : found.map FoundIndex.label = names :=
    map_eq_of_forall₂ (g := FoundIndex.label) (fun _ _ => label_eq) hfoundNames.flip
  have htexts : ∀ f ∈ found, f.name = .text f.label := by
    intro f hf
    obtain ⟨name, -, hname⟩ := exists_mem_zip hfoundNames hf
    rw [label_eq hname, hname]
  obtain ⟨htargets, hcustoms⟩ := assemble_ok hassemble
  rw [targetNames_labels htexts, mapOf_putAll] at htargets
  rw [customNames_labels htexts, mapOf_putAll] at hcustoms
  have hperm := hlabels ▸ labels_perm found
  rw [← names_targetLabels, ← names_customLabels,
    ← Keyed.values_found_iff (hperm.nodup_iff.1 hnodup)]
  simp only [NamesIndex, ← Checked.ok.inj htargets, ← Checked.ok.inj hcustoms, hperm.mem_iff]

/-! ### Indexes on parts of a map -/

/-- The row of a column of the pages. -/
def pageColumn (name kind type : String) : Row := [
  (.text "keyspace_name", .text "shop"), (.text "table_name", .text "pages"),
  (.text "column_name", .text name), (.text "clustering_order", .text "none"),
  (.text "kind", .text kind), (.text "position", .int 0), (.text "type", .text type)]

/-- The row of an index of the pages with options. -/
def pageIndex (kind name : String) (options : List (String × String)) : Row := [
  (.text "keyspace_name", .text "shop"), (.text "table_name", .text "pages"),
  (.text "index_name", .text name), (.text "kind", .text kind),
  (.text "options", .map (options.map fun e => (.text e.1, .text e.2)))]

/-- The row of a plain index. -/
def plainIndex (name target : String) : Row := pageIndex "COMPOSITES" name [("target", target)]

/-- The row of an attached index. -/
def attachedIndex (name target : String) : Row :=
  pageIndex "CUSTOM" name [("class_name", "StorageAttachedIndex"), ("target", target)]

/-- The store knows pages with a map of attributes and with indexes. -/
def indexedBy (indexes : List Row) : Session := { store := { system := {
  columns := [("pages", [.map (pageColumn "id" "partition_key" "int"),
    .map (pageColumn "attrs" "regular" "map<text, text>")])]
  indexes := [("pages", indexes.map .map)] } } }

/-- The names by which the indexes of a table are found. -/
def foundNames (l? : Option LiveTable) : Option (List String) :=
  l?.map fun l => l.indexNames.map (·.2) ++ l.customIndexNames.map (·.2)

/-- A table is found with the names that are read off it. -/
theorem of_foundNames {names : List String}
    (h : ((fetch keyspace table).perform s).1.toOption.map foundNames = some (some names)) :
    ∃ l s', (fetch keyspace table).perform s = (.ok (some l), s') ∧
      ∀ name, l.NamesIndex name ↔ name ∈ names := by
  obtain ⟨l?, s', hfetch, hnames⟩ := Action.ok_of_read h
  cases l? with
  | none => cases hnames
  | some l =>
    refine ⟨l, s', hfetch, fun name => ?_⟩
    rw [← Option.some.inj hnames, List.mem_append]
    rfl

/-- A plain and an attached index on parts of the attributes are both found. -/
theorem names_parts : ∃ l s', (fetch (.text "shop") "pages").perform
      (indexedBy [plainIndex "attrs_keys" "keys(attrs)",
        attachedIndex "attrs_values" "values(attrs)"]) = (.ok (some l), s') ∧
      l.NamesIndex "attrs_keys" ∧ l.NamesIndex "attrs_values" := by
  have hfound : ((fetch (.text "shop") "pages").perform
      (indexedBy [plainIndex "attrs_keys" "keys(attrs)",
        attachedIndex "attrs_values" "values(attrs)"])).1.toOption.map foundNames =
      some (some ["attrs_keys", "attrs_values"]) := by decide +kernel
  obtain ⟨l, s', hfetch, -⟩ := of_foundNames hfound
  obtain ⟨rows, found, hrows, hindexes, hnames⟩ := fetch_names_indexes hfetch
  cases hrows
  have hread : [plainIndex "attrs_keys" "keys(attrs)",
      attachedIndex "attrs_values" "values(attrs)"].mapM index =
        .ok [.onTarget "keys(attrs)" (.text "attrs_keys"),
          .custom ⟨"attrs", "StorageAttachedIndex", []⟩ (.text "attrs_values")] := by
    with_unfolding_all rfl
  cases hread.symm.trans hindexes
  have hall := (hnames ["attrs_keys", "attrs_values"]
    (.cons (by with_unfolding_all rfl) (.cons (by with_unfolding_all rfl) .nil)) (by decide)).2
    ⟨List.nodup_singleton _, List.nodup_singleton _⟩
  exact ⟨l, s', hfetch, hall _ (by decide), hall _ (by decide)⟩

/-- Of two indexes on the keys and on the values of the attributes only one is found. -/
theorem not_names_keys : ∃ l s', (fetch (.text "shop") "pages").perform
      (indexedBy [attachedIndex "attrs_keys" "keys(attrs)",
        attachedIndex "attrs_values" "values(attrs)"]) = (.ok (some l), s') ∧
      ¬ l.NamesIndex "attrs_keys" := by
  have hfound : ((fetch (.text "shop") "pages").perform
      (indexedBy [attachedIndex "attrs_keys" "keys(attrs)",
        attachedIndex "attrs_values" "values(attrs)"])).1.toOption.map foundNames =
      some (some ["attrs_values"]) := by decide +kernel
  obtain ⟨l, s', hfetch, hnames⟩ := of_foundNames hfound
  exact ⟨l, s', hfetch, by simp [hnames]⟩

end LiveTable

end WideColumn
