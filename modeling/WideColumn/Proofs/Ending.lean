import WideColumn.Proofs.Applicability
import WideColumn.Proofs.Confirmation
import WideColumn.Proofs.Completion
import WideColumn.Proofs.Creatable
import WideColumn.Proofs.Retyping

/-!
# Whole plans that come to their end

From a live table whose names are accepted, every part of a plan for a table that can be created
comes to its end: what is dropped was found in the live table, and what is created is declared.
-/

namespace WideColumn

/-! ## Live tables with accepted names -/

/-- The names of the live table are accepted, each as the name of what it is, and written as they
are. -/
structure LiveTable.HasAcceptedNames (l : LiveTable) : Prop where
  columns : ∀ name ∈ Keyed.names l.columns, Name.IsIdentifier name
  views : ∀ view ∈ Keyed.names l.views, Name.IsIdentifier view ∧ Name.NamesTable view
  indexes : ∀ name, some name ∈ l.givenNames → Name.IsIdentifier name

namespace LiveTable.HasAcceptedNames

variable {l : LiveTable}

theorem keepsSpelling (h : l.HasAcceptedNames) : l.KeepsSpelling where
  columns name hname := (h.columns name hname).isPlain.keepsSpelling
  views view hview := (h.views view hview).1.isPlain.keepsSpelling
  indexes name hname := (h.indexes name hname).isPlain.keepsSpelling

/-- A canonical table with accepted names can be taken apart. -/
theorem droppable (h : l.HasAcceptedNames) (hcanonical : l.Canonical) : l.Droppable := by
  obtain ⟨hknown, hdistinct⟩ := hcanonical.ownNames
  obtain ⟨hindexes, hcustom, -⟩ := List.nodup_append.1 hdistinct
  have hnamed : ∀ {name? : Option String}, name? ∈ l.givenNames →
      ∃ name, name? = some name ∧ Name.IsIdentifier name := by
    intro name? hmem
    cases name? with
    | none => exact absurd hmem hknown
    | some name => exact ⟨name, rfl, h.indexes name hmem⟩
  refine ⟨hcanonical.views, hindexes.of_map, hcustom.of_map, h.columns,
    fun view hview => (h.views view hview).2, fun text htext => ?_, fun text htext => ?_,
    fun key hkey => ?_⟩
  · exact (hcanonical.targets text htext).imp fun _ htarget => htarget.1
  · exact hnamed (List.mem_append_left _ (List.mem_map_of_mem htext))
  · exact hnamed (List.mem_append_right _ (List.mem_map_of_mem hkey))

end LiveTable.HasAcceptedNames

namespace Migration

open Draft ColumnDiff

variable {t : Table} {live l : LiveTable}

/-! ## Creating anew -/

theorem ends_recreate (hdescribed : t.Described) (h : l.Droppable) (hcreatable : t.Creatable) :
    (recreate t l).outcome = .ok () := by
  have htable := hdescribed.wellFormed.name
  obtain ⟨i, hi⟩ := Name.accepts_table htable.1
  have haccept : (Ddl.dropTable t.name true).accept = .ok (.dropTable i true) := by
    simp only [Ddl.accept, hi]
    rfl
  obtain ⟨u, hu, -⟩ : Ends (recreate t l) fun _ => True := by
    refine Ends.bind
      ((ends_dropViews htable h h.nodupViews fun _ hview => hview).mono fun _ _ => ?_)
    exact Ends.bind
      ⟨(), Ends.send (TableRemoval.checked_eq htable) rfl haccept, (),
      (createAll_ok_iff_creatable hdescribed).2 hcreatable, trivial⟩
  exact hu

/-! ## Columns -/

/-- A difference is applied to the end when its column is accepted and the table can be created, if
it has to be. -/
theorem ends_applyDiff {e : ColumnDiff} (hdescribed : t.Described) (h : l.Droppable)
    (hname : Name.IsIdentifier e.name) (htype : ∀ c, e.new? = some c → c.typeText ≠ "")
    (hcreatable : e.Recreates t → t.Creatable) :
    Ends (applyDiff t l e) fun l? => ∀ l', l? = some l' → l'.Droppable := by
  have htable := hdescribed.wellFormed.name
  have hsome : ∀ {l' : LiveTable}, l'.Droppable → ∀ l'', some l' = some l'' → l''.Droppable :=
    fun h' _ heq => Option.some.inj heq ▸ h'
  have hadd : ∀ {l name c}, l.Droppable → Name.IsIdentifier name → c.typeText ≠ "" →
      Ends (addColumn t l name c) LiveTable.Droppable := fun h hname htype =>
    (ends_addColumn htable hname htype).mono fun _ heq => heq ▸ h.withColumn hname _
  cases e with
  | added name new =>
    refine Ends.bind (Ends.ask (Ends.map ((hadd h hname (htype new rfl)).mono ?_)))
    exact fun _ h' => hsome h'
  | removed name old =>
    refine Ends.bind (Ends.ask (Ends.map ((ends_removeColumn htable h hname).mono ?_)))
    exact fun _ h' => hsome h'
  | changed name aspect old new =>
    simp only [applyDiff]
    by_cases hwidens : aspect = .type ∧ old.widensTo new = true
    · rw [if_pos hwidens]
      refine Ends.bind
        (Ends.ask (Ends.map ((ends_retypeColumn htable hname (htype new rfl)).mono ?_)))
      rintro _ rfl
      exact hsome (h.withColumn hname new)
    rw [if_neg hwidens]
    by_cases hkey : t.isKey name = true
    · rw [if_pos hkey]
      refine Ends.bind (Ends.ask (Ends.bind ⟨(), ?_, Ends.pure (by simp)⟩))
      exact ends_recreate hdescribed h (hcreatable ⟨hwidens, hkey⟩)
    · rw [if_neg hkey]
      refine Ends.bind
        (Ends.ask (Ends.bind ((ends_removeColumn htable h hname).mono fun _ h' => ?_)))
      exact Ends.map ((hadd h' hname (htype new rfl)).mono fun _ h'' => hsome h'')

theorem ends_applyDiffs (hdescribed : t.Described) : ∀ {ds : List ColumnDiff} {l : LiveTable},
    l.Droppable → (∀ e ∈ ds, Name.IsIdentifier e.name) →
    (∀ e ∈ ds, ∀ c, e.new? = some c → c.typeText ≠ "") →
    (∀ e ∈ ds, e.Recreates t → t.Creatable) →
    Ends (applyDiffs t l ds) fun l? => ∀ l', l? = some l' → l'.Droppable
  | [], l, h, _, _, _ => Ends.pure fun _ heq => Option.some.inj heq ▸ h
  | e :: ds, l, h, hnames, htypes, hcreatable => by
    refine Ends.bind ((ends_applyDiff hdescribed h (hnames e List.mem_cons_self)
      (htypes e List.mem_cons_self) (hcreatable e List.mem_cons_self)).mono fun l? hl? => ?_)
    cases l? with
    | none => exact Ends.pure (by simp)
    | some l' =>
      exact ends_applyDiffs hdescribed (hl? l' rfl) (fun e he => hnames e
        (List.mem_cons_of_mem _ he))
        (fun e he => htypes e (List.mem_cons_of_mem _ he))
        fun e he => hcreatable e (List.mem_cons_of_mem _ he)

/-- The differences of a live table are about accepted names and types that are not empty. -/
theorem pending_accepted {ds : List ColumnDiff} (hdescribed : t.Described) (h : l.Droppable)
    (hpending : SchemaDiff.Pending t.storedColumns ds l.columns) :
    (∀ e ∈ ds, Name.IsIdentifier e.name) ∧
      ∀ e ∈ ds, ∀ c, e.new? = some c → c.typeText ≠ "" := by
  refine ⟨fun e he => ?_, fun e he c hc => ?_⟩
  · obtain ⟨hold, hnew⟩ := hpending.sides he
    cases hdeclared : Keyed.get? t.storedColumns e.name with
    | some c =>
      exact hdescribed.identifiers _ (Table.isStored_iff.2
        (Keyed.mem_names_of_mem (Keyed.mem_of_get? hdeclared)))
    | none =>
      refine h.columns _ (Keyed.get?_isSome.1 ?_)
      by_contra hnone
      have hat := (hpending.mem e).1 he
      rw [hdeclared, Option.not_isSome_iff_eq_none.1 hnone] at hat
      cases hat
  · have hnew := (hpending.sides he).2.trans hc
    exact Column.typeText_ne_empty
      (Table.storedColumn_canonical hdescribed.wellFormed hdescribed.brackets hnew).1.name

/-! ## Indexes and views -/

/-- What a difference adds is created to the end when everything that is declared can be created. -/
theorem ends_createMissing {d : SchemaDiff} (hdescribed : t.Described) (hcreatable : t.Creatable)
    (hd : Describable.diff (.live l) (.declared t) = .ok d) :
    (createMissing t d).outcome = .ok () := by
  have hwell := hdescribed.wellFormed
  obtain ⟨shape, hshape, hshapeCustom⟩ := shape_declared hwell
  obtain ⟨u, hu, -⟩ : Ends (createMissing t d) fun _ => True := by
    refine Ends.bind (Ends.lift hshape ?_)
    refine Ends.bind ⟨(), Ends.forM fun text htext => ?_, ?_⟩
    · obtain ⟨target, htarget, -⟩ :=
        hwell.reads_declared hdescribed.identifiers (addedIndexes_declared hd text htext)
      exact ends_createIndex hwell.name htarget
    refine Ends.bind ⟨(), Ends.forM fun key hkey => ?_, (), Ends.forM fun name hname => ?_, trivial⟩
    · obtain ⟨e, he, hcreates⟩ := createDeclaredCustomIndex_added hd hshapeCustom hkey
      rw [hcreates]
      exact (createKeyed_ok_iff hwell hdescribed.acceptedColumns he).2
        (hcreatable.customIndexes e he)
    · obtain ⟨e, he, hcreates⟩ := createDeclaredView_added hd hname
      rw [hcreates]
      exact (createDeclared_ok_iff hwell hdescribed.acceptedColumns he).2
        ⟨hdescribed.shortViews e he, hcreatable.views e he⟩
  exact hu

/-- Indexes and views are brought in line to the end when everything that is declared can be
created. -/
theorem ends_reconcile (hdescribed : t.Described) (hcreatable : t.Creatable)
    (hcanonical : live.Canonical) (h : l.Droppable) (hwithin : l.Within live) :
    (reconcile t l).outcome = .ok () := by
  have hwell := hdescribed.wellFormed
  obtain ⟨targets, htargets⟩ := TableShape.canonicalTargets_ok h.targets
  obtain ⟨declared, hdeclared⟩ : ∃ targets, TableShape.canonicalTargets t.indexes = .ok targets :=
    TableShape.canonicalTargets_ok fun text htext =>
      (hwell.indexes text htext).imp fun _ htarget => htarget.1
  have hd := Describable.diff_eq htargets hdeclared
  have hholds := holds_removed hd
    (fun text htext => hcanonical.targets text (hwithin.indexes text htext))
    fun e he => hcanonical.customIndexes e (hwithin.customIndexes e he)
  obtain ⟨u, hu, -⟩ : Ends (reconcile t l) fun _ => True := by
    rw [reconcile_eq]
    refine Ends.bind (Ends.lift hd (Ends.bind
      ((ends_dropUndeclared hwell.name h hholds).mono fun _ _ => ?_)))
    exact ⟨(), ends_createMissing hdescribed hcreatable hd, trivial⟩
  exact hu

/-! ## Plans -/

/-- Altering ends with the table created anew exactly when a difference does so. -/
theorem alter_outcome {d : SchemaDiff} {state : MigrationState}
    (h : (alter t l d).outcome = .ok state) :
    state = .recreated ↔ ∃ e ∈ d.columns, e.Recreates t := by
  obtain ⟨l?, hfirst, hrest, -⟩ := bind_ok h
  rw [← applyDiffs_outcome hfirst]
  cases l? with
  | none =>
    cases hrest
    exact ⟨fun _ => rfl, fun _ => rfl⟩
  | some l' =>
    obtain ⟨_, -, hstate, -⟩ := bind_ok hrest
    cases hstate
    exact ⟨fun hstate => (nomatch hstate), fun hnone => (nomatch hnone)⟩

theorem ends_recreateAsking (hdescribed : t.Described) (h : l.Droppable)
    (hcreatable : t.Creatable) :
    (recreateAsking t l).outcome = .ok .recreated := by
  obtain ⟨state, hstate, rfl⟩ : Ends (recreateAsking t l) (· = .recreated) :=
    Ends.bind (Ends.ask (Ends.bind ⟨(), ends_recreate hdescribed h hcreatable, Ends.pure rfl⟩))
  exact hstate

/-- Altering a canonical live table whose names are accepted comes to its end when everything that
is declared can be created. -/
theorem ends_alter {d : SchemaDiff} (hdescribed : t.Described) (hcreatable : t.Creatable)
    (hcanonical : live.Canonical) (hnames : live.HasAcceptedNames)
    (hd : Describable.diff (.live live) (.declared t) = .ok d) :
    ∃ state, (alter t live d).outcome = .ok state := by
  have hdroppable := hnames.droppable hcanonical
  obtain ⟨haccepted, htypes⟩ := pending_accepted hdescribed hdroppable
    (pending_of_diff hdescribed.wellFormed hcanonical hd)
  obtain ⟨l?, hl?, hleft⟩ := ends_applyDiffs hdescribed hdroppable haccepted htypes
    fun _ _ _ => hcreatable
  have hkeeps : Keeps (guarded t live) none (applyDiffs t live d.columns) _ :=
    keeps_applyDiffs (.refl live)
  have hwithin := hkeeps.2 l? hl?
  obtain ⟨state, hstate, -⟩ : Ends (alter t live d) fun _ => True := by
    refine Ends.bind ⟨l?, hl?, ?_⟩
    cases l? with
    | none => exact Ends.pure trivial
    | some l' =>
      have hends := ends_reconcile hdescribed hcreatable hcanonical (hleft l' rfl) (hwithin l' rfl)
      exact Ends.bind ⟨(), hends, Ends.pure trivial⟩
  exact ⟨state, hstate⟩

end Migration

end WideColumn
