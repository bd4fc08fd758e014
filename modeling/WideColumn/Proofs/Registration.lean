import WideColumn.CustomIndex
import WideColumn.Proofs.Reading

/-!
# What registration promises

A table is registered from a map or from parts. Both ways end in `TableDraft.register`, whose checks
are read off here once: `Table.WellFormed` lists what holds of every registered table, and the
proofs about migrations use nothing else of its declaration.
-/

namespace WideColumn

/-! ## Checks in sequence -/

/-- A list of checks that ends well ends well for each element. -/
theorem of_forM_ok {ε α : Type} {f : α → Except ε Unit} : ∀ {xs : List α},
    xs.forM f = .ok () → ∀ x ∈ xs, f x = .ok ()
  | [], _, x, hx => nomatch hx
  | y :: ys, h, x, hx => by
    obtain ⟨u, hy, hys⟩ := of_bind_ok (show (f y >>= fun _ => ys.forM f) = .ok () from h)
    rcases List.mem_cons.1 hx with rfl | hx
    · exact hy
    · exact of_forM_ok hys x hx

/-- A guard that fails did not strike when what follows it ends well. -/
theorem of_guard_ok {ε β : Type} {c : Prop} [Decidable c] {e : ε} {k : Unit → Except ε β} {b : β}
    (h : (if c then (Except.error e : Except ε Unit) >>= k else k ()) = .ok b) :
    ¬ c ∧ k () = .ok b := by
  split at h
  · cases h
  · exact ⟨‹_›, h⟩

/-! ## Names under which data is registered -/

namespace Coercion

variable {β : Type} {check : Coercion β} {es : List (Value × Value)} {name : String}
  {rs : List (String × β)}

theorem nodup_mapOf {v : Value} (h : mapOf check v = .ok rs) : (Keyed.names rs).Nodup := by
  obtain ⟨es, -, hes⟩ := mapOf_ok h
  exact hes.nodup

theorem nodup_required_mapOf (h : required es name (mapOf check) = .ok rs) :
    (Keyed.names rs).Nodup := by
  obtain ⟨v, -, hv⟩ := required_ok h
  exact nodup_mapOf hv

theorem nodup_defaulted_mapOf (h : defaulted es name [] (mapOf check) = .ok rs) :
    (Keyed.names rs).Nodup := by
  rcases defaulted_ok h with ⟨-, rfl⟩ | ⟨v, -, hv⟩
  · exact List.nodup_nil
  · exact nodup_mapOf hv

end Coercion

/-! ## Registered tables -/

namespace Table

/-- The name is a column of the table. -/
def IsStored (t : Table) (column : String) : Prop := ∃ f ∈ t.storedFields, f.name = column

/-- The table was registered, from a map or from its parts. -/
def Registered (t : Table) : Prop :=
  (∃ name definition, ofDefinition name definition = .ok t) ∨ ∃ parts, ofParts parts = .ok t

/-- What the checks of registration promise of a view. -/
structure ViewFits (t : Table) (name : String) (v : View) : Prop where
  name : Name.isTable name = true
  select : ∀ c ∈ v.select, c ≠ "*" → t.IsStored c
  key : ∀ c ∈ v.keyColumns, t.IsStored c ∧ (v.selectsAll = true ∨ c ∈ v.select)
  baseKey : ∀ c ∈ t.keyColumns, c ∈ v.keyColumns

/-- What the checks of registration promise of a table. -/
structure WellFormed (t : Table) : Prop where
  name : Name.isTable t.name = true ∧ t.name.length ≤ Name.maxLength
  fields : (t.fields.map (·.name)).Nodup
  types : ∀ f ∈ t.fields, ∃ type, f.columnType? = some type ∧
    (type.needsArgument = true → (f.argument.getD "").isEmpty = false)
  key : ∀ c ∈ t.keyColumns, ∃ f ∈ t.storedFields, f.name = c ∧ f.isStatic = false
  indexes : ∀ text ∈ t.indexes, ∃ target, IndexTarget.ofText text = .ok target ∧
    t.IsStored target.column
  customIndexes : ∀ i ∈ t.customIndexes, t.IsStored (CustomIndex.unquoted i.column)
  views : (Keyed.names t.views).Nodup
  view : ∀ e ∈ t.views, t.ViewFits e.1 e.2

end Table

namespace TableDraft

variable {d : TableDraft} {t : Table}

/-- What is registered is the draft with its fields alone. -/
theorem register_ok (h : d.register = .ok t) :
    d.check = .ok () ∧ t.name = d.name ∧ t.fields = d.fields.map (·.2) ∧
      t.partitionKey = d.partitionKey ∧ t.clusteringKey = d.clusteringKey ∧
      t.clusteringOrder = d.clusteringOrder ∧ t.indexes = d.indexes ∧
      t.customIndexes = d.customIndexes ∧ t.views = d.views := by
  obtain ⟨_, hcheck, h⟩ := of_bind_ok h
  obtain ⟨hooks, -, h⟩ := of_bind_ok h
  cases h
  exact ⟨hcheck, rfl, rfl, rfl, rfl, rfl, rfl, rfl, rfl⟩

theorem checkName_ok {s : String} (h : checkName s = .ok ()) : Name.isTable s = true := by
  unfold checkName at h
  split at h
  · assumption
  · cases h

theorem checkEntry_ok {table : String} {e : String × Field} (h : checkEntry table e = .ok ()) :
    e.2.name = e.1 ∧ checkField table e.2 = .ok () := by
  unfold checkEntry at h
  split at h
  · exact ⟨‹_›, h⟩
  · cases h

theorem checkField_ok {table : String} {f : Field} (h : checkField table f = .ok ()) :
    ∃ type, f.columnType? = some type ∧
      (type.needsArgument = true → (f.argument.getD "").isEmpty = false) := by
  unfold checkField at h
  split at h
  · cases h
  · rename_i type htype
    refine ⟨type, htype, fun hneeds => ?_⟩
    split at h
    · cases h
    · rename_i hnot
      simpa [hneeds] using hnot

/-- A field that is found by its name is a field of the table. -/
theorem field?_stored (hnames : ∀ e ∈ d.fields, e.2.name = e.1) {column : String} {f : Field}
    (h : d.field? column = some f) (hvirtual : f.isVirtual = false) :
    f ∈ (d.fields.map (·.2)).filter (fun f => !f.isVirtual) ∧ f.name = column := by
  obtain ⟨e, he, rfl⟩ := Option.map_eq_some_iff.1 h
  have hmem := List.mem_of_find?_eq_some he
  have hname : e.1 = column := by simpa using List.find?_some he
  refine ⟨List.mem_filter.2 ⟨List.mem_map_of_mem hmem, by simp [hvirtual]⟩, ?_⟩
  rw [hnames e hmem, hname]

theorem requireStored_ok {column what : String} (h : d.requireStored column what = .ok ()) :
    ∃ f, d.field? column = some f ∧ f.isVirtual = false := by
  unfold requireStored at h
  split at h
  · rename_i f hf
    split at h
    · cases h
    · rename_i hnot
      exact ⟨f, hf, by simpa using hnot⟩
  · cases h

theorem checkKeyColumn_ok {column : String} (h : d.checkKeyColumn column = .ok ()) :
    ∃ f, d.field? column = some f ∧ f.isVirtual = false ∧ f.isStatic = false := by
  unfold checkKeyColumn at h
  split at h
  · cases h
  · rename_i f hf
    split at h
    · cases h
    · rename_i hnot
      simp only [Bool.or_eq_true, not_or, Bool.not_eq_true] at hnot
      exact ⟨f, hf, hnot⟩

theorem checkIndex_ok {text : String} (h : d.checkIndex text = .ok ()) :
    ∃ target what, IndexTarget.ofText text = .ok target ∧
      d.requireStored target.column what = .ok () := by
  unfold checkIndex at h
  split at h
  · cases h
  · exact ⟨_, _, ‹_›, h⟩

theorem checkViewKey_ok {name column : String} {v : View}
    (h : d.checkViewKey name v column = .ok ()) :
    (∃ what, d.requireStored column what = .ok ()) ∧ (v.selectsAll = true ∨ column ∈ v.select) := by
  obtain ⟨_, hstored, h⟩ := of_bind_ok h
  refine ⟨⟨_, hstored⟩, ?_⟩
  split at h
  · cases h
  · rename_i hnot
    by_cases hall : v.selectsAll = true
    · exact .inl hall
    · exact .inr (by simpa [hall] using hnot)

theorem checkView_ok {e : String × View} (h : d.checkView e = .ok ()) :
    Name.isTable e.1 = true ∧
    (∀ c ∈ e.2.select, c ≠ "*" → ∃ what, d.requireStored c what = .ok ()) ∧
    (∀ c ∈ e.2.keyColumns, d.checkViewKey e.1 e.2 c = .ok ()) ∧
    ∀ c ∈ d.keyColumns, c ∈ e.2.keyColumns := by
  obtain ⟨name, v⟩ := e
  obtain ⟨_, hname, h⟩ := of_bind_ok h
  obtain ⟨_, hselect, h⟩ := of_bind_ok h
  obtain ⟨_, hkey, h⟩ := of_bind_ok h
  obtain ⟨habsent, -⟩ := of_guard_ok h
  refine ⟨checkName_ok hname, fun c hc hstar => ?_, of_forM_ok hkey, fun c hc => ?_⟩
  · exact ⟨_, of_forM_ok hselect c (List.mem_filter.2 ⟨hc, bne_iff_ne.2 hstar⟩)⟩
  · by_contra hnot
    refine habsent ?_
    simpa using ⟨c, hc, hnot⟩

/-- What a draft has passed once it has passed its checks. -/
structure Passes (d : TableDraft) : Prop where
  length : d.name.length ≤ Name.maxLength
  name : Name.isTable d.name = true
  entries : ∀ e ∈ d.fields, e.2.name = e.1 ∧ checkField d.name e.2 = .ok ()
  key : ∀ c ∈ d.keyColumns, d.checkKeyColumn c = .ok ()
  indexes : ∀ text ∈ d.indexes, d.checkIndex text = .ok ()
  customIndexes : ∀ i ∈ d.customIndexes, d.checkCustomIndex i = .ok ()
  views : ∀ e ∈ d.views, d.checkView e = .ok ()

theorem check_ok (h : d.check = .ok ()) : d.Passes := by
  unfold check at h
  obtain ⟨hlength, h⟩ := of_guard_ok h
  obtain ⟨_, hname, h⟩ := of_bind_ok h
  obtain ⟨_, hentries, h⟩ := of_bind_ok h
  obtain ⟨_, hkey, h⟩ := of_bind_ok h
  obtain ⟨-, h⟩ := of_guard_ok h
  obtain ⟨_, -, h⟩ := of_bind_ok h
  obtain ⟨-, h⟩ := of_guard_ok h
  obtain ⟨_, hindexes, h⟩ := of_bind_ok h
  obtain ⟨_, hcustom, hviews⟩ := of_bind_ok h
  exact ⟨Nat.le_of_not_lt hlength, checkName_ok hname,
    fun e he => checkEntry_ok (of_forM_ok hentries e he), of_forM_ok hkey, of_forM_ok hindexes,
    of_forM_ok hcustom, of_forM_ok hviews⟩

/-! ### From the draft to the table -/

section

variable (h : d.Passes) (hfields : t.fields = d.fields.map (·.2))

include h hfields

theorem Passes.stored {column : String} {f : Field} (hf : d.field? column = some f)
    (hvirtual : f.isVirtual = false) : f ∈ t.storedFields ∧ f.name = column := by
  rw [Table.storedFields, hfields]
  exact field?_stored (fun e he => (h.entries e he).1) hf hvirtual

theorem Passes.isStored {column what : String} (hrequire : d.requireStored column what = .ok ()) :
    t.IsStored column := by
  obtain ⟨f, hf, hvirtual⟩ := requireStored_ok hrequire
  exact ⟨f, h.stored hfields hf hvirtual⟩

theorem Passes.viewFits {e : String × View} (hkey : t.keyColumns = d.keyColumns)
    (he : e ∈ d.views) : t.ViewFits e.1 e.2 := by
  obtain ⟨hname, hselect, hviewKey, hbase⟩ := checkView_ok (h.views e he)
  refine ⟨hname, fun c hc hstar => ?_, fun c hc => ?_, hkey ▸ hbase⟩
  · obtain ⟨what, hrequire⟩ := hselect c hc hstar
    exact h.isStored hfields hrequire
  · obtain ⟨⟨what, hrequire⟩, hselected⟩ := checkViewKey_ok (hviewKey c hc)
    exact ⟨h.isStored hfields hrequire, hselected⟩

end

/-- A draft that passes its checks is well formed once it is registered. -/
theorem wellFormed (hnames : (Keyed.names d.fields).Nodup) (hviews : (Keyed.names d.views).Nodup)
    (h : d.register = .ok t) : t.WellFormed := by
  obtain ⟨hcheck, hname, hfields, hpartition, hclustering, -, hindexes, hcustom, htviews⟩ :=
    register_ok h
  have hpasses := check_ok hcheck
  have hkey : t.keyColumns = d.keyColumns := by
    rw [Table.keyColumns, hpartition, hclustering]
    rfl
  constructor
  case name => exact hname ▸ ⟨hpasses.name, hpasses.length⟩
  case fields =>
    rw [hfields, List.map_map]
    have hsame : d.fields.map ((·.name) ∘ (·.2)) = Keyed.names d.fields :=
      List.map_congr_left fun e he => (hpasses.entries e he).1
    exact hsame ▸ hnames
  case types =>
    intro f hf
    rw [hfields] at hf
    obtain ⟨e, he, rfl⟩ := List.mem_map.1 hf
    exact checkField_ok (hpasses.entries e he).2
  case key =>
    intro c hc
    obtain ⟨f, hf, hvirtual, hstatic⟩ := checkKeyColumn_ok (hpasses.key c (hkey ▸ hc))
    obtain ⟨hmem, hfname⟩ := hpasses.stored hfields hf hvirtual
    exact ⟨f, hmem, hfname, hstatic⟩
  case indexes =>
    intro text htext
    obtain ⟨target, what, htarget, hrequire⟩ :=
      checkIndex_ok (hpasses.indexes text (hindexes ▸ htext))
    exact ⟨target, htarget, hpasses.isStored hfields hrequire⟩
  case customIndexes =>
    exact fun i hi => hpasses.isStored hfields (hpasses.customIndexes i (hcustom ▸ hi))
  case views => exact htviews ▸ hviews
  case view => exact fun e he => hpasses.viewFits hfields hkey (htviews ▸ he)

end TableDraft

/-! ## Both ways of registering -/

/-- Parts given as data have the fields and views that are read off their members. -/
theorem TableDraft.ofEntries_ok {es : List (Value × Value)} {d : TableDraft}
    (hd : ofEntries es = .ok d) :
    Coercion.required es "fields" (Coercion.mapOf Field.coercion) = .ok d.fields ∧
      Coercion.defaulted es "materialized_views" [] (Coercion.mapOf View.coercion) =
        .ok d.views := by
  obtain ⟨f₁, hooks, h₁, -, rfl⟩ := Checked.seq_ok hd
  obtain ⟨f₂, ttl, h₂, -, rfl⟩ := Checked.seq_ok h₁
  obtain ⟨f₃, views, h₃, hviews, rfl⟩ := Checked.seq_ok h₂
  obtain ⟨f₄, customIndexes, h₄, -, rfl⟩ := Checked.seq_ok h₃
  obtain ⟨f₅, indexes, h₅, -, rfl⟩ := Checked.seq_ok h₄
  obtain ⟨f₆, order, h₆, -, rfl⟩ := Checked.seq_ok h₅
  obtain ⟨f₇, clustering, h₇, -, rfl⟩ := Checked.seq_ok h₆
  obtain ⟨f₈, partition, h₈, -, rfl⟩ := Checked.seq_ok h₇
  obtain ⟨f₉, fields, h₉, hfields, rfl⟩ := Checked.seq_ok h₈
  obtain ⟨name, -, rfl⟩ := Checked.map_ok h₉
  exact ⟨hfields, hviews⟩

/-- Parts given as data have their fields and views under distinct names. -/
theorem TableDraft.ofEntries_nodup {es : List (Value × Value)} {d : TableDraft}
    (hd : ofEntries es = .ok d) : (Keyed.names d.fields).Nodup ∧ (Keyed.names d.views).Nodup := by
  obtain ⟨hfields, hviews⟩ := ofEntries_ok hd
  exact ⟨Coercion.nodup_required_mapOf hfields, Coercion.nodup_defaulted_mapOf hviews⟩

namespace Table

/-- A table from its parts is registered with the entries that were read from them. -/
theorem ofParts_ok {parts : Value} {t : Table} (h : ofParts parts = .ok t) :
    ∃ es d, TableDraft.ofEntries es = .ok d ∧ d.register = .ok t := by
  unfold ofParts at h
  split at h
  · split at h
    · obtain ⟨d, hd, hregister⟩ := of_bind_ok h
      exact ⟨_, d, Checked.toExcept_ok hd, hregister⟩
    · cases h
  · cases h

/-- Every registered table is well formed. -/
theorem Registered.wellFormed {t : Table} (h : t.Registered) : t.WellFormed := by
  rcases h with ⟨name, definition, h⟩ | ⟨parts, h⟩
  · obtain ⟨table, es, d, -, -, hreads, hregister⟩ := ofDefinition_ok h
    obtain ⟨fs, -, hfields⟩ := hreads.fields
    obtain ⟨vs, -, hviews⟩ := hreads.views
    exact TableDraft.wellFormed hfields.nodup hviews.nodup hregister
  · obtain ⟨es, d, hd, hregister⟩ := ofParts_ok h
    obtain ⟨hfields, hviews⟩ := TableDraft.ofEntries_nodup hd
    exact TableDraft.wellFormed hfields hviews hregister

end Table

end WideColumn
