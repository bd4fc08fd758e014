import WideColumn.Proofs.Kept

/-!
# Altering touches only what differs

When a table is altered, no statement creates or drops a table, and each statement is about
something that differs. While columns are altered one after the other the tally and the working copy
stay in step (`Migration.Applied`); once they are, what is left is what is kept, when what is not
declared is dropped. A view is created under its name as it is written, which is the declared name
exactly when that is written as it is.
-/

namespace WideColumn

/-! ## One more difference in the tally -/

namespace ColumnTally

open ColumnDiff

variable (ds : List ColumnDiff) (name : String)

theorem of_concat (e : ColumnDiff) :
    of (ds ++ [e]) = {
      dropped := (of ds).dropped ++ if e.Drops then [e.name] else []
      added := (of ds).added ++ if e.Adds then [e.name] else []
      retyped := (of ds).retyped ++ if e.Widens then [e.name] else [] } := by
  unfold of
  congr 1 <;>
  · rw [List.filter_append, List.map_append, List.filter_singleton]
    split <;> simp_all

theorem of_concat_added (new : Column) : of (ds ++ [.added name new]) =
    { of ds with added := (of ds).added ++ [name] } := by
  simp [of_concat, Drops, Adds, Widens, ColumnDiff.name]

theorem of_concat_removed (old : Column) : of (ds ++ [.removed name old]) =
    { of ds with dropped := (of ds).dropped ++ [name] } := by
  simp [of_concat, Drops, Adds, Widens, ColumnDiff.name]

theorem of_concat_retyped {aspect : ColumnAspect} {old new : Column}
    (h : aspect = .type ∧ old.widensTo new = true) : of (ds ++ [.changed name aspect old new]) =
      { of ds with retyped := (of ds).retyped ++ [name] } := by
  simp [of_concat, Drops, Adds, Widens, ColumnDiff.name, h]

/-- A column that is replaced counts as dropped and as added. -/
theorem of_concat_replaced {aspect : ColumnAspect} {old new : Column}
    (h : ¬ (aspect = .type ∧ old.widensTo new = true)) :
    of (ds ++ [.changed name aspect old new]) = { of ds with
      dropped := (of ds).dropped ++ [name]
      added := (of ds).added ++ [name] } := by
  simp [of_concat, Drops, Adds, Widens, ColumnDiff.name, h]

end ColumnTally

namespace Migration

open Draft ColumnDiff

variable {t : Table} {live l : LiveTable} {s : Tally}

/-! ## Columns one after the other -/

/-- The differences that were applied are in the tally, of the live table is left what refers to no
column that was dropped, and the differences that are still to be applied are those of the copy. -/
structure Applied (t : Table) (live : LiveTable) (done todo : List ColumnDiff) (l : LiveTable)
    (s : Tally) : Prop where
  tallied : Tallied live (.of done) l s
  intact : Intact live (ColumnTally.of done).dropped l
  pending : SchemaDiff.Pending t.storedColumns todo l.columns

namespace Applied

variable {done todo : List ColumnDiff} {e : ColumnDiff}

/-- A column is removed with what refers to it. -/
theorem keeps_removeColumn {name : String} (h : Applied t live done todo l s)
    (hmem : name ∈ Keyed.names l.columns) :
    Keeps Tally.watch s (removeColumn t l name) fun l' s' =>
      Tallied live { ColumnTally.of done with dropped := (ColumnTally.of done).dropped ++ [name] }
        l' s' ∧
      Intact live ((ColumnTally.of done).dropped ++ [name]) l' ∧
      l'.columns = Keyed.erase name l.columns := by
  refine (h.tallied.keeps_removeColumn hmem).mono ?_
  rintro _ s' ⟨ds, hds, rfl, h'⟩
  obtain ⟨-, hcustom, -⟩ := List.nodup_append.1 h.tallied.ownNames.distinct
  refine ⟨h', h.intact.without h.tallied.views hcustom.of_map hds, ?_⟩
  rw [LiveTable.without_eq]
  rfl

/-- One difference that does not create the table anew is applied. -/
theorem keeps_applyDiff (h : Applied t live done (e :: todo) l s)
    (hspelling : ∀ name c, Keyed.get? t.storedColumns name = some c → Name.KeepsSpelling name)
    (hnot : ¬ e.Recreates t) :
    Keeps Tally.watch s (applyDiff t l e) fun l? s' =>
      ∃ l', l? = some l' ∧ Applied t live (done ++ [e]) todo l' s' := by
  obtain ⟨hold, hnew⟩ := h.pending.sides List.mem_cons_self
  refine Keeps.applyDiff (fun _ => trivial) ?added ?removed ?retyped ?anew ?replaced
  case added =>
    rintro name new rfl
    refine (h.tallied.keeps_addColumn (hspelling name new hnew)).mono ?_
    rintro _ s' ⟨rfl, h'⟩
    rw [← ColumnTally.of_concat_added] at h'
    refine ⟨_, rfl, h', ?_, h.pending.put hnew⟩
    rw [ColumnTally.of_concat_added]
    exact ⟨h.intact.views, h.intact.indexes, h.intact.customIndexes⟩
  case removed =>
    rintro name old rfl
    have hmem := Keyed.mem_names_of_mem (Keyed.mem_of_get? hold)
    refine (h.keeps_removeColumn hmem).mono ?_
    rintro l' s' ⟨h', hintact, hcolumns⟩
    rw [← ColumnTally.of_concat_removed _ _ old] at h'
    refine ⟨l', rfl, h', ?_, hcolumns ▸ h.pending.erase hnew⟩
    rw [ColumnTally.of_concat_removed]
    exact hintact
  case retyped =>
    rintro name aspect old new rfl hwidens
    refine (h.tallied.keeps_retypeColumn (hspelling name new hnew)).mono ?_
    rintro _ s' ⟨rfl, h'⟩
    rw [← ColumnTally.of_concat_retyped _ _ hwidens] at h'
    refine ⟨_, rfl, h', ?_, h.pending.put hnew⟩
    rw [ColumnTally.of_concat_retyped _ _ hwidens]
    exact ⟨h.intact.views, h.intact.indexes, h.intact.customIndexes⟩
  case anew =>
    rintro name aspect old new rfl hwidens hkey
    exact absurd ⟨hwidens, hkey⟩ hnot
  case replaced =>
    rintro name aspect old new rfl hwidens -
    have hmem := Keyed.mem_names_of_mem (Keyed.mem_of_get? hold)
    -- the removal takes what depends on the column along, and the addition takes nothing
    refine (h.keeps_removeColumn hmem).mono ?_
    rintro l' s' ⟨h', hintact, hcolumns⟩
    refine (h'.keeps_addColumn (hspelling name new hnew)).mono ?_
    rintro _ s'' ⟨rfl, h''⟩
    have hconcat := ColumnTally.of_concat_replaced done name hwidens
    refine ⟨_, rfl, hconcat ▸ h'', ?_, ?_⟩
    · rw [hconcat]
      exact ⟨hintact.views, hintact.indexes, hintact.customIndexes⟩
    · change SchemaDiff.Pending _ todo (Keyed.put name new l'.columns)
      exact hcolumns ▸ h.pending.replace hnew

/-- Differences none of which creates the table anew are applied one after the other. -/
theorem keeps_applyDiffs
    (hspelling : ∀ name c, Keyed.get? t.storedColumns name = some c → Name.KeepsSpelling name) :
    ∀ {done todo : List ColumnDiff} {l : LiveTable} {s : Tally}, Applied t live done todo l s →
      (∀ e ∈ todo, ¬ e.Recreates t) →
      Keeps Tally.watch s (applyDiffs t l todo) fun l? s' =>
        ∃ l', l? = some l' ∧ Applied t live (done ++ todo) [] l' s'
  | done, [], l, s, h, _ => Keeps.pure ⟨l, rfl, by simpa using h⟩
  | done, e :: todo, l, s, h, hnot => by
    refine Keeps.bind ((h.keeps_applyDiff hspelling (hnot e List.mem_cons_self)).mono ?_)
    rintro _ s' ⟨l', rfl, h'⟩
    rw [List.append_cons]
    exact keeps_applyDiffs hspelling h' fun e' he' => hnot e' (List.mem_cons_of_mem e he')

end Applied

/-! ## Indexes and views -/

/-- A declared custom index is in the tally under the key it is declared under. -/
theorem tallies_declaredCustomIndex {key : String} {shape : TableShape} (hwell : t.WellFormed)
    (hidentifiers : ∀ column, t.IsStored column → Name.IsIdentifier column)
    (hshape : shape.customIndexes = t.keyedCustomIndexes) :
    Keeps Tally.watch s (createDeclaredCustomIndex t shape key) fun _ s' =>
      s' = { s with created := { s.created with
        customIndexes := s.created.customIndexes ++ [key] } } := by
  unfold createDeclaredCustomIndex
  rw [hshape]
  cases hi : Keyed.get? t.keyedCustomIndexes key with
  | none => exact Keeps.fail
  | some i =>
    refine Keeps.createCustomIndex fun table column options _ hcolumn hoptions => ⟨trivial, ?_⟩
    have hmem := Keyed.mem_of_get? hi
    have htext : column.text = i.column :=
      (hidentifiers _ (hwell.customIndex_stored hidentifiers hmem)).isPlain.keepsSpelling column
        hcolumn
    have hdisplay : options = i.options := hoptions.trans (List.map_id _)
    obtain ⟨hcanonical, hkey⟩ := Table.keyedCustomIndex_canonical hmem
    have hsame : (CustomIndex.canonical ⟨column.text, i.implementation, options⟩).key = key := by
      rw [htext, hdisplay]
      exact (congrArg CustomIndex.key hcanonical).trans hkey.symm
    simp only [Tally.watch, Tally.after, hsame]

/-- A declared view is in the tally under its name as it is written. -/
theorem tallies_declaredView {name : String} :
    Keeps Tally.watch s (createDeclaredView t name) fun _ s' =>
      s' = { s with created := { s.created with
        views := s.created.views ++ [Name.spelled name] } } := by
  unfold createDeclaredView
  cases t.view? name with
  | none => exact Keeps.fail
  | some v =>
    refine Keeps.createView fun view _ _ _ hview _ _ _ _ => ⟨trivial, ?_⟩
    rw [← Identifier.ofText_text hview]
    rfl

/-- What a difference adds is in the tally, where nothing was created yet. -/
theorem tallies_missing {d : SchemaDiff} (hwell : t.WellFormed)
    (hidentifiers : ∀ column, t.IsStored column → Name.IsIdentifier column)
    (hindexes : ∀ text ∈ d.addedIndexes, t.Declares text) (hnone : s.created = ⟨[], [], []⟩) :
    Keeps Tally.watch s (createMissing t d) fun _ s' => s' = { s with
      created := ⟨d.addedIndexes, d.addedCustomIndexes, d.addedViews.map Name.spelled⟩ } := by
  refine Keeps.bind (Keeps.lift fun shape hshape => ?_)
  obtain ⟨_, -, rfl⟩ := TableShape.canonical_ok (Describable.canonicalOf_ok hshape)
  have hs : s = { s with created := ⟨[], [], []⟩ } :=
    congrArg (fun created => { s with created }) hnone
  refine Keeps.bind ((Keeps.forM_done (fun done s' => s' = { s with created := ⟨done, [], []⟩ })
    (fun done text s' htext hs' => ?_) (List.nil_append _).symm hs).mono fun _ s₁ hs₁ => ?_)
  · refine Keeps.createIndex fun table target _ htarget => ⟨trivial, ?_⟩
    obtain ⟨target', htarget', hsame, -⟩ :=
      hwell.reads_declared hidentifiers (hindexes text htext)
    rw [htarget] at htarget'
    cases htarget'
    subst hs' hsame
    rfl
  refine Keeps.bind ((Keeps.forM_done
    (fun done s' => s' = { s with created := ⟨d.addedIndexes, done, []⟩ })
    (fun done key s' _ hs' => ?_) (List.nil_append _).symm hs₁).mono fun _ s₂ hs₂ => ?_)
  · subst hs'
    exact tallies_declaredCustomIndex hwell hidentifiers rfl
  refine Keeps.forM_done (fun done s' => s' = { s with
      created := ⟨d.addedIndexes, d.addedCustomIndexes, done.map Name.spelled⟩ })
    (fun done name s' _ hs' => ?_) (List.nil_append _).symm hs₂
  subst hs'
  rw [List.map_append]
  exact tallies_declaredView

/-- What still differs of indexes and views is dropped, and what is declared is created. -/
theorem Applied.keeps_reconcile {ds : List ColumnDiff} (h : Applied t live ds [] l s)
    (hwell : t.WellFormed) (hidentifiers : ∀ column, t.IsStored column → Name.IsIdentifier column)
    (hcanonical : live.Canonical) :
    Keeps Tally.watch s (reconcile t l) fun _ s' => ∃ d s₁,
      Describable.diff (.live l) (.declared t) = .ok d ∧
      Tallied live (.of ds) (l.without d.removed) s₁ ∧
      s' = { s₁ with
        created := ⟨d.addedIndexes, d.addedCustomIndexes, d.addedViews.map Name.spelled⟩ } := by
  refine Keeps.reconcile fun d hd => ?_
  have hwithin := h.tallied.within
  have hholds := holds_removed hd
    (fun text htext => hcanonical.targets text (hwithin.indexes text htext))
    fun e he => hcanonical.customIndexes e (hwithin.customIndexes e he)
  refine (Tallied.keptByDrops.dropUndeclared h.tallied hholds).mono ?_
  rintro _ s₁ ⟨rfl, h₁⟩
  exact (tallies_missing hwell hidentifiers (addedIndexes_declared hd) h₁.created).mono
    fun _ s₂ hs₂ => ⟨d, s₁, hd, h₁, hs₂⟩

/-! ## What is left is what is kept -/

namespace Applied

variable {ds : List ColumnDiff} {targets declared : List String}

/-- An index is kept when it is left while columns are altered and is declared. -/
theorem keepsIndex_iff (h : Applied t live ds [] l s)
    (hpending : SchemaDiff.Pending t.storedColumns ds live.columns) {text : String} :
    live.KeepsIndex t text ↔ text ∈ l.indexes ∧ t.Declares text := by
  simp only [LiveTable.KeepsIndex, h.intact.indexes, hpending.dropped.2]
  exact ⟨fun ⟨hmem, hdeclares, hnot⟩ => ⟨⟨hmem, hnot⟩, hdeclares⟩,
    fun ⟨⟨hmem, hnot⟩, hdeclares⟩ => ⟨hmem, hdeclares, hnot⟩⟩

/-- So is a custom index. -/
theorem keepsCustomIndex_iff (h : Applied t live ds [] l s)
    (hpending : SchemaDiff.Pending t.storedColumns ds live.columns)
    (hcustom : (Keyed.names live.customIndexes).Nodup) {key : String} :
    live.KeepsCustomIndex t key ↔
      key ∈ Keyed.names l.customIndexes ∧ key ∈ Keyed.names t.keyedCustomIndexes := by
  constructor
  · rintro ⟨i, hi, hdeclares, hnot⟩
    have hmem : (key, i) ∈ l.customIndexes :=
      (h.intact.customIndexes _).2 ⟨Keyed.mem_of_get? hi, fun hmem => hnot
        ((hpending.dropped.2 _).1 hmem)⟩
    exact ⟨Keyed.mem_names_of_mem hmem, hdeclares⟩
  · rintro ⟨hmem, hdeclares⟩
    obtain ⟨⟨_, i⟩, he, rfl⟩ := List.mem_map.1 hmem
    obtain ⟨hlive, hnot⟩ := (h.intact.customIndexes _).1 he
    exact ⟨i, Keyed.get?_of_mem hcustom hlive, hdeclares, fun hout => hnot
      ((hpending.dropped.2 _).2 hout)⟩

/-- A view is kept when it is left while columns are altered and what is not declared is dropped. -/
theorem keepsView_iff (h : Applied t live ds [] l s)
    (hpending : SchemaDiff.Pending t.storedColumns ds live.columns)
    (hviews : (Keyed.names live.views).Nodup) (targets declared : List String) {name : String} :
    live.KeepsView t name ↔ name ∈ Keyed.names (l.views.filter fun e =>
      !(SchemaDiff.changedViews (l.canonicalWith targets).views
        (t.shape.canonicalWith declared).views).contains e.1) := by
  constructor
  · rintro ⟨v, w, hv, hw, hsame, hnot⟩
    have hmem : (name, v) ∈ l.views := (h.intact.views _).2
      ⟨Keyed.mem_of_get? hv, fun c hc => hnot c ((hpending.dropped.2 c).1 hc)⟩
    refine List.mem_map.2 ⟨(name, v), List.mem_filter.2 ⟨hmem, ?_⟩, rfl⟩
    rw [Bool.not_eq_true', ← Bool.not_eq_true, List.contains_iff_mem]
    intro hchanged
    obtain ⟨v', hv', hholds⟩ := SchemaDiff.mem_changedViews.1 hchanged
    obtain ⟨e, he, heq⟩ := List.mem_map.1 hv'
    obtain ⟨rfl, rfl⟩ := Prod.mk.inj heq
    have hsameEntry : e = (e.1, v) := List.inj_on_of_nodup_map h.tallied.views he hmem rfl
    change Keyed.holds View.eqv (t.views.map fun e => (e.1, e.2.canonical)) e.1 e.2.canonical =
      false
      at hholds
    rw [hsameEntry] at hholds
    exact Bool.eq_false_iff.1 hholds (Keyed.holds_map.2 ⟨w, hw, hsame⟩)
  · intro hmem
    obtain ⟨e, he, rfl⟩ := List.mem_map.1 hmem
    obtain ⟨w, hw, hsame⟩ := declares_left (l := l) he
    obtain ⟨hlive, hnot⟩ := (h.intact.views e).1 (List.mem_filter.1 he).1
    exact ⟨e.2, w, Keyed.get?_of_mem hviews hlive, hw, hsame,
      fun c hc => hnot c ((hpending.dropped.2 c).2 hc)⟩

/-- A view is created when it is declared and not kept. -/
theorem mem_addedViews (h : Applied t live ds [] l s) (hwell : t.WellFormed)
    (hpending : SchemaDiff.Pending t.storedColumns ds live.columns)
    (hviews : (Keyed.names live.views).Nodup) {name : String} :
    name ∈ SchemaDiff.changedViews (t.shape.canonicalWith declared).views
        (l.canonicalWith targets).views ↔
      name ∈ Keyed.names t.views ∧ ¬ live.KeepsView t name := by
  rw [h.keepsView_iff hpending hviews targets declared]
  constructor
  · intro hadded
    refine ⟨addedViews_declared (d := .between (l.canonicalWith targets)
      (t.shape.canonicalWith declared)) rfl hadded, fun hmem => ?_⟩
    obtain ⟨e, he, rfl⟩ := List.mem_map.1 hmem
    obtain ⟨he, hleft⟩ := List.mem_filter.1 he
    have hchanged := SchemaDiff.changedViews_comm
      ((TableShape.names_canonicalViews t.shape declared).symm ▸ hwell.views)
      ((TableShape.names_canonicalViews l.toTableShape targets).symm ▸ h.tallied.views)
      TableShape.nodup_viewOrder TableShape.nodup_viewOrder hadded
      ((TableShape.names_canonicalViews l.toTableShape targets).symm ▸ Keyed.mem_names_of_mem he)
    rw [List.contains_iff_mem.2 hchanged] at hleft
    exact absurd hleft (by decide)
  · rintro ⟨hmem, hnot⟩
    by_contra hadded
    obtain ⟨e, he, rfl⟩ := List.mem_map.1 hmem
    obtain ⟨v, hv, -⟩ := left_of_declared (l := l) hwell h.tallied.views he hadded
    exact hnot (Keyed.mem_names_of_mem (Keyed.mem_of_get? hv))

theorem mem_targets (h : Applied t live ds [] l s) (hcanonical : live.Canonical)
    (htargets : TableShape.canonicalTargets l.indexes = .ok targets) {text : String} :
    text ∈ targets ↔ text ∈ l.indexes :=
  Migration.mem_targets (fun text htext =>
    hcanonical.targets text (h.tallied.within.indexes text htext)) htargets

theorem mem_keys (h : Applied t live ds [] l s) (hcanonical : live.Canonical) {key : String} :
    key ∈ Keyed.names (l.canonicalWith targets).customIndexes ↔
      key ∈ Keyed.names l.customIndexes :=
  CustomIndex.mem_keyed_canonical fun e he =>
    hcanonical.customIndexes e (h.tallied.within.customIndexes e he)

/-- What is left of the indexes, when what is not declared is dropped, is what is kept. -/
theorem indexes_left (h : Applied t live ds [] l s) (hcanonical : live.Canonical)
    (hpending : SchemaDiff.Pending t.storedColumns ds live.columns)
    (htargets : TableShape.canonicalTargets l.indexes = .ok targets)
    (hdeclared : TableShape.canonicalTargets t.indexes = .ok declared) (text : String) :
    text ∈ (l.indexes.filter fun text => !(SchemaDiff.less targets declared).contains text) ↔
      live.KeepsIndex t text := by
  rw [h.keepsIndex_iff hpending, List.mem_filter]
  refine and_congr_right fun hmem => ?_
  rw [SchemaDiff.notMem_less ((h.mem_targets hcanonical htargets).2 hmem)]
  exact TableShape.mem_canonicalTargets hdeclared

/-- So it is with the custom indexes. -/
theorem customIndexes_left (h : Applied t live ds [] l s) (hcanonical : live.Canonical)
    (hpending : SchemaDiff.Pending t.storedColumns ds live.columns) (key : String) :
    key ∈ Keyed.names (l.customIndexes.filter fun e =>
      !(SchemaDiff.less (Keyed.names (l.canonicalWith targets).customIndexes)
        (Keyed.names t.keyedCustomIndexes)).contains e.1) ↔ live.KeepsCustomIndex t key := by
  obtain ⟨-, hnodup, -⟩ := List.nodup_append.1 hcanonical.ownNames.distinct
  rw [h.keepsCustomIndex_iff hpending hnodup.of_map]
  constructor
  · intro hmem
    obtain ⟨e, he, rfl⟩ := List.mem_map.1 hmem
    obtain ⟨he, hleft⟩ := List.mem_filter.1 he
    have hkey := Keyed.mem_names_of_mem he
    exact ⟨hkey, (SchemaDiff.notMem_less ((h.mem_keys hcanonical).2 hkey)).1 hleft⟩
  · rintro ⟨hmem, hdeclares⟩
    obtain ⟨e, he, rfl⟩ := List.mem_map.1 hmem
    exact Keyed.mem_names_of_mem (List.mem_filter.2
      ⟨he, (SchemaDiff.notMem_less ((h.mem_keys hcanonical).2 hmem)).2 hdeclares⟩)

/-- Once the columns are altered and what is not declared is dropped, what is in the tally is what
is not kept, and what is created is what is declared and not kept. -/
theorem touchesOnly {d : SchemaDiff} {s₁ : Tally} (h : Applied t live ds [] l s)
    (hwell : t.WellFormed) (hcanonical : live.Canonical)
    (hpending : SchemaDiff.Pending t.storedColumns ds live.columns)
    (hd : Describable.diff (.live l) (.declared t) = .ok d)
    (h₁ : Tallied live (.of ds)
      (l.without ⟨d.removedIndexes, d.removedCustomIndexes, d.removedViews⟩) s₁) :
    Tally.TouchesOnly { s₁ with
      created := ⟨d.addedIndexes, d.addedCustomIndexes, d.addedViews.map Name.spelled⟩ } live t ∧
    live.CreatesViews t d.addedViews := by
  obtain ⟨targets, declared, htargets, hdeclared, rfl⟩ := Describable.diff_ok hd
  obtain ⟨-, hcustom, -⟩ := List.nodup_append.1 hcanonical.ownNames.distinct
  rw [LiveTable.without_eq] at h₁
  refine ⟨⟨?_, ?_, ?_, h₁.tables,
    ⟨h₁.nodupViews, fun view => ?_⟩, ⟨h₁.nodupIndexes, fun name => ?_⟩,
    ⟨SchemaDiff.nodup_less _ _, fun text => ?_⟩, ⟨SchemaDiff.nodup_less _ _, fun key => ?_⟩⟩,
    SchemaDiff.nodup_changedViews _ _, fun name => h.mem_addedViews hwell hpending hcanonical.views⟩
  · exact h₁.columns ▸ hpending.dropped
  · exact h₁.columns ▸ hpending.added
  · exact h₁.columns ▸ hpending.retyped
  · rw [h₁.memViews view]
    exact and_congr_right fun _ => not_congr (h.keepsView_iff hpending hcanonical.views _ _).symm
  · rw [h₁.memIndexes name]
    exact (LiveTable.losesIndex_iff hcanonical.ownNames h₁.ownNames h₁.within
      (h.indexes_left hcanonical hpending htargets hdeclared)
      (h.customIndexes_left hcanonical hpending)).symm
  · change text ∈ SchemaDiff.less declared targets ↔ t.Declares text ∧ ¬ live.KeepsIndex t text
    rw [h.keepsIndex_iff hpending, SchemaDiff.mem_less, h.mem_targets hcanonical htargets]
    refine (and_congr_left fun _ => TableShape.mem_canonicalTargets hdeclared).trans ?_
    exact and_congr_right fun hdeclares => not_congr (and_iff_left hdeclares).symm
  · change key ∈ SchemaDiff.less (Keyed.names t.keyedCustomIndexes)
      (Keyed.names (l.canonicalWith targets).customIndexes) ↔
      key ∈ Keyed.names t.keyedCustomIndexes ∧ ¬ live.KeepsCustomIndex t key
    rw [h.keepsCustomIndex_iff hpending hcustom.of_map, SchemaDiff.mem_less, h.mem_keys hcanonical]
    exact and_congr_right fun hdeclares => not_congr (and_iff_left hdeclares).symm

end Applied

/-! ## Plans -/

theorem Applied.of_live {d : SchemaDiff} (hwell : t.WellFormed) (hcanonical : live.Canonical)
    (hspelling : live.KeepsSpelling) (hd : Describable.diff (.live live) (.declared t) = .ok d) :
    Applied t live [] d.columns live {} :=
  ⟨.of_live hcanonical hspelling, .of_live, pending_of_diff hwell hcanonical hd⟩

/-- What a tally lists is what differs; views are created under their names as they are written. -/
def Touches (live : LiveTable) (t : Table) (s : Tally) : Prop :=
  s.TouchesOnly live t ∧
    ∃ names, live.CreatesViews t names ∧ s.created.views = names.map Name.spelled

/-- Altering without creating anew touches only what differs. -/
theorem alter_touches {d : SchemaDiff} (hwell : t.WellFormed)
    (hidentifiers : ∀ column, t.IsStored column → Name.IsIdentifier column)
    (hcanonical : live.Canonical) (hspelling : live.KeepsSpelling)
    (hd : Describable.diff (.live live) (.declared t) = .ok d)
    (hnot : ∀ e ∈ d.columns, ¬ e.Recreates t) :
    Keeps Tally.watch {} (alter t live d) fun _ s => Touches live t s := by
  have hstored : ∀ name c, Keyed.get? t.storedColumns name = some c → Name.KeepsSpelling name :=
    fun name c hc => (hidentifiers name (Table.isStored_iff.2
      (Keyed.mem_names_of_mem (Keyed.mem_of_get? hc)))).isPlain.keepsSpelling
  refine Keeps.bind (((Applied.of_live hwell hcanonical hspelling hd).keeps_applyDiffs hstored
    hnot).mono ?_)
  rintro _ s ⟨l, rfl, h⟩
  refine Keeps.bind ((h.keeps_reconcile hwell hidentifiers hcanonical).mono ?_)
  rintro _ s' ⟨d', s₁, hd', h₁, rfl⟩
  obtain ⟨htouches, hviews⟩ :=
    h.touchesOnly hwell hcanonical (pending_of_diff hwell hcanonical hd) hd' h₁
  exact Keeps.pure ⟨htouches, d'.addedViews, hviews, rfl⟩

/-- Where nothing differs nothing is touched. -/
theorem touches_nothing {d : SchemaDiff} (hwell : t.WellFormed) (hcanonical : live.Canonical)
    (hspelling : live.KeepsSpelling) (hd : Describable.diff (.live live) (.declared t) = .ok d)
    (hempty : d.isEmpty = true) : Touches live t {} := by
  have h := Applied.of_live hwell hcanonical hspelling hd
  have hpending := pending_of_diff hwell hcanonical hd
  obtain ⟨hcolumns, -, haddedIndexes, hindexes, haddedCustom, hcustom, haddedViews, hviews⟩ :=
    SchemaDiff.isEmpty_iff.1 hempty
  rw [hcolumns] at h hpending
  have htallied : Tallied live (.of [])
      (live.without ⟨d.removedIndexes, d.removedCustomIndexes, d.removedViews⟩) {} := by
    rw [hindexes, hcustom, hviews]
    exact h.tallied
  have htouches := h.touchesOnly hwell hcanonical hpending hd htallied
  rw [haddedIndexes, haddedCustom, haddedViews] at htouches
  exact ⟨htouches.1, [], htouches.2, rfl⟩

/-- A plan that alters the table touches only what differs. -/
theorem plan_touches {state : MigrationState} (hwell : t.WellFormed)
    (hidentifiers : ∀ column, t.IsStored column → Name.IsIdentifier column)
    (hcanonical : live.Canonical) (hspelling : live.KeepsSpelling) (hkey : live.HasKeyOf t)
    (hsafe : ∀ column ∈ t.keyColumns, ¬ live.Outdated t column)
    (houtcome : (plan t .alter (some live)).outcome = .ok state) :
    Touches live t ((plan t .alter (some live)).moves.foldl Tally.watch.after {}) := by
  obtain ⟨d, hd⟩ := diff_of_canonical hwell hcanonical
  by_cases hempty : d.isEmpty = true
  · rw [plan_settled .alter ⟨d, hd, hempty⟩]
    exact touches_nothing hwell hcanonical hspelling hd hempty
  have hplan : plan t .alter (some live) = alter t live d := by
    rw [(plan_differs hd (Bool.eq_false_iff.2 hempty)).2, keyChanged_of_hasKeyOf hkey hd]
    rfl
  rw [hplan] at houtcome ⊢
  refine (alter_touches hwell hidentifiers hcanonical hspelling hd fun e he hrecreates => ?_).2 _
    houtcome
  have hpending := pending_of_diff hwell hcanonical hd
  have hdrops : e.Drops := by
    cases e with
    | added name new => exact hrecreates.elim
    | removed name old => exact hrecreates.elim
    | changed name aspect old new => exact hrecreates.1
  have hiskey : e.name ∈ t.keyColumns := by
    cases e with
    | added name new => exact hrecreates.elim
    | removed name old => exact hrecreates.elim
    | changed name aspect old new => exact List.contains_iff_mem.1 hrecreates.2
  refine hsafe e.name hiskey ((hpending.dropped.2 e.name).1 ?_)
  exact List.mem_map_of_mem (List.mem_filter.2 ⟨he, by simpa using hdrops⟩)

/-! ## Runs -/

/-- The names under which views are created are the declared ones exactly when all declared names
are written as they are. -/
theorem createsViews_spelled_iff {names : List String} (hwell : t.WellFormed)
    (hnames : live.HasAcceptedNames) (h : live.CreatesViews t names) :
    live.CreatesViews t (names.map Name.spelled) ↔ t.HasPlainViews := by
  constructor
  · rintro ⟨-, hmem⟩ e he
    by_cases hkeeps : live.KeepsView t e.1
    · obtain ⟨v, -, hv, -⟩ := hkeeps
      exact (hnames.views e.1 (Keyed.mem_names_of_mem (Keyed.mem_of_get? hv))).1.isPlain
    · obtain ⟨name, hname, hspelled⟩ := List.mem_map.1
        ((hmem e.1).2 ⟨Keyed.mem_names_of_mem he, hkeeps⟩)
      obtain ⟨e', he', rfl⟩ := List.mem_map.1 ((h.2 name).1 hname).1
      rw [← hspelled]
      exact (Name.isIdentifier_spelled (hwell.view e' he').name).isPlain
  · intro hplain
    have hsame : names.map Name.spelled = names :=
      (List.map_congr_left fun name hname =>
        (hplain.plain ((h.2 name).1 hname).1).spelled_eq).trans (List.map_id _)
    rw [hsame]
    exact h

/-- A synchronization that alters a table in which no column of the key is to be replaced, and that
comes to its end, creates and drops no table, drops each outdated column and no other, adds each
column that is missing or was dropped, alters the type of each column that is widened, drops what is
not declared in the same form or refers to an outdated column, and creates what is declared and was
not there or was dropped; each of these once. Views are created under their declared names exactly
when those are all written as they are. It comes to its end when everything that is declared can be
created. -/
theorem sync_alter_touches {settings : Settings} {source : LiveSource} {t : Table}
    {session : Session} {live : LiveTable} (hregistered : t.Registered)
    (hidentifiers : ∀ column, t.IsStored column → Name.IsIdentifier column)
    (hcanonical : live.Canonical) (hnames : live.HasAcceptedNames) (hkey : live.HasKeyOf t)
    (hsafe : ∀ column ∈ t.keyColumns, ¬ live.Outdated t column)
    (hpolicy : settings.effectivePolicy = .alter)
    (hrun : Unhindered settings source t session (some live)) :
    (Finishes settings source t session →
      (Tally.ofDeeds (syncDeeds settings source t session)).TouchesOnly live t ∧
      (∃ names, live.CreatesViews t names ∧
        (Tally.ofDeeds (syncDeeds settings source t session)).created.views =
          names.map Name.spelled) ∧
      (live.CreatesViews t (Tally.ofDeeds (syncDeeds settings source t session)).created.views ↔
        t.HasPlainViews)) ∧
    (t.HasShortViews → t.WritesBrackets → t.Creatable → Finishes settings source t session) := by
  have hwell := hregistered.wellFormed
  rw [hrun.finishes_iff, hpolicy]
  constructor
  · rintro ⟨state, houtcome⟩
    obtain ⟨htouches, names, hviews, hcreated⟩ :=
      plan_touches hwell hidentifiers hcanonical hnames.keepsSpelling hkey hsafe houtcome
    have htally : Tally.ofDeeds (syncDeeds settings source t session) =
        (plan t .alter (some live)).moves.foldl Tally.watch.after {} := by
      unfold Tally.ofDeeds
      rw [hrun.deeds_eq.1, foldl_done, hpolicy]
    rw [htally]
    refine ⟨htouches, ⟨names, hviews, hcreated⟩, ?_⟩
    rw [hcreated]
    exact createsViews_spelled_iff hwell hnames hviews
  · intro hshort hbrackets hcreatable
    obtain ⟨d, hd⟩ := diff_of_canonical hwell hcanonical
    by_cases hempty : d.isEmpty = true
    · rw [plan_settled .alter ⟨d, hd, hempty⟩]
      exact ⟨.noOp, rfl⟩
    · rw [(plan_differs hd (Bool.eq_false_iff.2 hempty)).2, keyChanged_of_hasKeyOf hkey hd]
      exact ends_alter ⟨hwell, hidentifiers, hbrackets, hshort⟩ hcreatable hcanonical hnames hd

/-! ### A column that is removed -/

/-- The age is dropped with its index and the view over it, and nothing but the view is created. -/
theorem touches_usersWithAge :
    (Tally.ofDeeds (syncDeeds altering (.given (.ok (some usersWithAge))) viewed {})).TouchesOnly
      usersWithAge viewed ∧
    Tally.ofDeeds (syncDeeds altering (.given (.ok (some usersWithAge))) viewed {}) = {
      columns := { dropped := ["age"] }
      droppedViews := ["by_name"]
      droppedIndexes := ["users_age_idx"]
      created := { views := ["by_name"] } } := by
  have hregistered : viewed.Registered :=
    .inl ⟨.text "users", viewedDefinition, by with_unfolding_all rfl⟩
  have hrun : Unhindered altering (.given (.ok (some usersWithAge))) viewed {}
      (some usersWithAge) := ⟨rfl, .inr fun _ h => (nomatch h), fun _ h => (nomatch h)⟩
  have hkey : usersWithAge.HasKeyOf viewed := ⟨rfl, rfl, by decide⟩
  have hsafe : ∀ column ∈ viewed.keyColumns, ¬ usersWithAge.Outdated viewed column := by
    intro column hcolumn
    cases List.mem_singleton.1 hcolumn
    rintro ⟨old, hold, hnew⟩
    cases hold
    exact (hnew { type := "uuid" } (by with_unfolding_all rfl)).1 rfl
  have hpolicy : altering.effectivePolicy = .alter := rfl
  have htouches := sync_alter_touches hregistered viewed_identifiers usersWithAge_canonical.1
    usersWithAge_names hkey hsafe hpolicy hrun
  have hcreatable : viewed.Creatable := ⟨by decide, by decide, fun _ h => (nomatch h)⟩
  exact ⟨(htouches.1 (htouches.2 (by decide) viewed_brackets hcreatable)).1,
    by with_unfolding_all rfl⟩

/-! ### A view that is there and one that is written under its name -/

/-- A live table of users with a view of them under their names. -/
def usersInView : LiveTable where
  table := "users"
  columns := [("id", { type := "uuid" }), ("name", { type := "text" })]
  partitionKey := ["id"]
  views := [("v", usersByName.canonical)]

/-- No column of `usersInView` is to be replaced. -/
theorem usersInView_upToDate (column : String) : ¬ usersInView.Outdated twiceViewed column := by
  rintro ⟨old, hold, hnew⟩
  rcases List.mem_cons.1 (Keyed.mem_of_get? hold) with heq | hmem
  · cases heq
    exact (hnew { type := "uuid" } (by with_unfolding_all rfl)).1 rfl
  · cases List.mem_singleton.1 hmem
    exact (hnew { type := "text" } (by with_unfolding_all rfl)).1 rfl

/-- The view that is there is created again, since another one is written under its name. -/
theorem not_touches_twiceViewed :
    Table.ofDefinition (.text "users") twiceViewedDefinition = .ok twiceViewed ∧
    (∀ column, twiceViewed.IsStored column → Name.IsIdentifier column) ∧
    twiceViewed.HasShortViews ∧ usersInView.Canonical ∧ usersInView.HasAcceptedNames ∧
    usersInView.HasKeyOf twiceViewed ∧
    (∀ column ∈ twiceViewed.keyColumns, ¬ usersInView.Outdated twiceViewed column) ∧
    Unhindered altering (.given (.ok (some usersInView))) twiceViewed {} (some usersInView) ∧
    Finishes altering (.given (.ok (some usersInView))) twiceViewed {} ∧
    usersInView.KeepsView twiceViewed "v" ∧
    "v" ∈ (Tally.ofDeeds (syncDeeds altering (.given (.ok (some usersInView))) twiceViewed
      {})).created.views ∧
    ¬ usersInView.CreatesViews twiceViewed (Tally.ofDeeds (syncDeeds altering
      (.given (.ok (some usersInView))) twiceViewed {})).created.views := by
  have hrun : Unhindered altering (.given (.ok (some usersInView))) twiceViewed {}
      (some usersInView) := ⟨rfl, .inr fun _ h => (nomatch h), fun _ h => (nomatch h)⟩
  have hfinishes : Finishes altering (.given (.ok (some usersInView))) twiceViewed {} :=
    hrun.finishes_iff.2 ⟨.altered, by with_unfolding_all rfl⟩
  have hkeeps : usersInView.KeepsView twiceViewed "v" :=
    ⟨usersByName.canonical, usersByName, rfl, rfl, by with_unfolding_all decide,
      fun column hout => absurd hout (usersInView_upToDate column)⟩
  have hcreated : (Tally.ofDeeds (syncDeeds altering (.given (.ok (some usersInView))) twiceViewed
      {})).created.views = ["v"] := by with_unfolding_all rfl
  refine ⟨by with_unfolding_all rfl, ?_, by decide, ?_, ?_, ⟨rfl, rfl, by decide⟩,
    fun column _ => usersInView_upToDate column, hrun, hfinishes, hkeeps, ?_, fun hcreates => ?_⟩
  · have hidentifiers : ∀ f ∈ twiceViewed.storedFields, Name.IsIdentifier f.name := by decide
    rintro column ⟨f, hf, rfl⟩
    exact hidentifiers f hf
  · exact ⟨by decide, by with_unfolding_all decide, fun _ h => (nomatch h), fun _ h => (nomatch h),
      by decide, by decide, by decide⟩
  · exact ⟨by decide, by decide, fun _ h => (nomatch h)⟩
  · rw [hcreated]
    exact List.mem_singleton_self "v"
  · rw [hcreated] at hcreates
    exact ((hcreates.2 "v").1 (List.mem_singleton_self "v")).2 hkeeps

end Migration

end WideColumn
