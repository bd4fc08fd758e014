import WideColumn.Proofs.Alteration

/-!
# Bringing indexes and views in line

Once the columns are those that are declared, what still differs of indexes and views is dropped
and created. What is dropped is in the copy, since the difference was taken from it; what is created
has its columns, and the name of a view is free, since a view of that name that is not as declared
was dropped just before.
-/

namespace WideColumn

namespace Migration

open Draft

variable {naming : String → String} {same : String → Column → Column → Prop} {t : Table}
  {live l : LiveTable} {s : Simulated} {shape : TableShape}

/-! ## Creating what is declared -/

/-- A declared custom index is created under the key it is declared under. -/
theorem creates_declaredCustomIndex {key : String} (hprepared : Prepared t)
    (htable : s.table? = some l) (hcolumns : HasColumns t l)
    (hshape : shape.customIndexes = t.keyedCustomIndexes) :
    Keeps (Simulated.watch naming) s (createDeclaredCustomIndex t shape key)
      fun _ s' => s'.table? =
        some (l.withDeclaredCustomIndex naming t.keyedCustomIndexes key) := by
  unfold createDeclaredCustomIndex LiveTable.withDeclaredCustomIndex
  rw [hshape]
  cases hi : Keyed.get? t.keyedCustomIndexes key with
  | none => exact Keeps.fail
  | some i =>
    have hstored : t.IsStored i.column :=
      hprepared.wellFormed.customIndex_stored hprepared.identifiers (Keyed.mem_of_get? hi)
    exact creates_customIndex htable (hcolumns.keepsSpelling hstored) (hcolumns.columns _ hstored)

/-- A declared view is created where its name is free. -/
theorem creates_declaredView {name : String} (hprepared : Prepared t)
    (htable : s.table? = some l) (hcolumns : HasColumns t l)
    (hfree : Name.spelled name ∉ Keyed.names l.views) :
    Keeps (Simulated.watch naming) s (createDeclaredView t name)
      fun _ s' => s'.table? = some (l.withDeclaredView t name) := by
  unfold createDeclaredView LiveTable.withDeclaredView
  cases hv : t.view? name with
  | none => exact Keeps.fail
  | some v =>
    refine creates_view htable hfree fun c hc => ?_
    have hstored := hprepared.wellFormed.view_stored (Keyed.mem_of_get? hv) hc
    exact ⟨hcolumns.keepsSpelling hstored, hcolumns.columns c hstored⟩

theorem creates_declaredCustomIndexes {keys : List String} (hprepared : Prepared t)
    (htable : s.table? = some l) (hcolumns : HasColumns t l)
    (hshape : shape.customIndexes = t.keyedCustomIndexes) :
    Keeps (Simulated.watch naming) s (keys.forM (createDeclaredCustomIndex t shape))
      fun _ s' => s'.table? =
        some (keys.foldl (LiveTable.withDeclaredCustomIndex naming t.keyedCustomIndexes) l) := by
  refine creates_forM (fun l _ => HasColumns t l) (fun _ _ => True)
    (fun _ _ _ htable hcolumns => creates_declaredCustomIndex hprepared htable hcolumns hshape)
    (fun l key _ _ hcolumns => ?_) htable (List.pairwise_of_forall fun _ _ => trivial)
    fun _ _ => hcolumns
  exact hcolumns.of_columns (LiveTable.columns_withDeclaredCustomIndex _ _ l key)

/-- Declared views are created one after the other when their names are free and apart. -/
theorem creates_declaredViews {names : List String} (hprepared : Prepared t)
    (htable : s.table? = some l) (hcolumns : HasColumns t l)
    (hfree : ∀ name ∈ names, Name.spelled name ∉ Keyed.names l.views)
    (hapart : names.Pairwise fun n m => Name.spelled n ≠ Name.spelled m) :
    Keeps (Simulated.watch naming) s (names.forM (createDeclaredView t))
      fun _ s' => s'.table? = some (names.foldl (LiveTable.withDeclaredView t) l) := by
  refine creates_forM (fun l name => HasColumns t l ∧ Name.spelled name ∉ Keyed.names l.views)
    (fun n m => Name.spelled n ≠ Name.spelled m)
    (fun _ _ _ htable ⟨hcolumns, hfree⟩ => creates_declaredView hprepared htable hcolumns hfree)
    (fun l name other hne ⟨hcolumns, hfree⟩ => ?_) htable hapart
    fun name hname => ⟨hcolumns, hfree name hname⟩
  unfold LiveTable.withDeclaredView
  split
  · refine ⟨hcolumns.of_columns rfl, fun hmem => ?_⟩
    rcases Keyed.mem_names_put.1 hmem with heq | hmem
    · exact hne heq.symm
    · exact hfree hmem
  · exact ⟨hcolumns, hfree⟩

/-! ## What differs -/

/-- The canonical targets of a live table whose targets are canonical are its own. -/
theorem mem_targets {targets : List String}
    (hcanonical : ∀ text ∈ l.indexes, ∃ target, IndexTarget.ofText text = .ok target ∧
      target.canonical = text)
    (htargets : TableShape.canonicalTargets l.indexes = .ok targets) {text : String} :
    text ∈ targets ↔ text ∈ l.indexes := by
  rw [TableShape.mem_canonicalTargets htargets]
  constructor
  · rintro ⟨text', htext', target, htarget, rfl⟩
    obtain ⟨target', htarget', hsame⟩ := hcanonical text' htext'
    rw [htarget] at htarget'
    cases htarget'
    exact hsame ▸ htext'
  · intro htext
    obtain ⟨target, htarget, hsame⟩ := hcanonical text htext
    exact ⟨text, htext, target, htarget, hsame⟩

theorem Altered.targets (h : Altered same t live [] l s) (hcanonical : live.Canonical) :
    ∀ text ∈ l.indexes, ∃ target, IndexTarget.ofText text = .ok target ∧ target.canonical = text :=
  fun text htext => hcanonical.targets text (h.within.indexes text htext)

theorem addedIndexes_declared {d : SchemaDiff}
    (hd : Describable.diff (.live l) (.declared t) = .ok d) :
    ∀ text ∈ d.addedIndexes, t.Declares text := by
  obtain ⟨targets, declared, -, hdeclared, rfl⟩ := Describable.diff_ok hd
  exact fun text htext =>
    (TableShape.mem_canonicalTargets hdeclared).1 (SchemaDiff.mem_less.1 htext).1

theorem addedViews_declared {targets declared : List String} {d : SchemaDiff} {name : String}
    (hd : d = .between (l.canonicalWith targets) (t.shape.canonicalWith declared))
    (hname : name ∈ d.addedViews) : name ∈ Keyed.names t.views := by
  subst hd
  obtain ⟨v, hv, -⟩ := SchemaDiff.mem_changedViews.1 hname
  exact TableShape.names_canonicalViews t.shape declared ▸ Keyed.mem_names_of_mem hv

/-- A custom index that a difference adds is created as it is declared. -/
theorem createDeclaredCustomIndex_added {d : SchemaDiff} {shape : TableShape} {key : String}
    (hd : Describable.diff (.live l) (.declared t) = .ok d)
    (hshape : shape.customIndexes = t.keyedCustomIndexes) (hkey : key ∈ d.addedCustomIndexes) :
    ∃ e ∈ t.keyedCustomIndexes,
      createDeclaredCustomIndex t shape key = createCustomIndex t e.2 := by
  obtain ⟨targets, declared, -, -, rfl⟩ := Describable.diff_ok hd
  have hdeclared : key ∈ Keyed.names t.keyedCustomIndexes := (SchemaDiff.mem_less.1 hkey).1
  obtain ⟨i, hi⟩ := Option.isSome_iff_exists.1 (Keyed.get?_isSome.2 hdeclared)
  refine ⟨(key, i), Keyed.mem_of_get? hi, ?_⟩
  unfold createDeclaredCustomIndex
  rw [hshape, hi]

/-- A view that a difference adds is created as it is declared. -/
theorem createDeclaredView_added {d : SchemaDiff} {name : String}
    (hd : Describable.diff (.live l) (.declared t) = .ok d) (hname : name ∈ d.addedViews) :
    ∃ e ∈ t.views, createDeclaredView t name = createView t e.1 e.2 := by
  obtain ⟨targets, declared, -, -, hbetween⟩ := Describable.diff_ok hd
  obtain ⟨v, hv⟩ := Option.isSome_iff_exists.1
    (Keyed.get?_isSome.2 (addedViews_declared hbetween hname))
  refine ⟨(name, v), Keyed.mem_of_get? hv, ?_⟩
  unfold createDeclaredView
  rw [show t.view? name = some v from hv]

/-- A view that is to be created has a name that is free once the views that differ are dropped. -/
theorem free_of_added {targets declared : List String} {d : SchemaDiff} {name : String}
    (hprepared : Prepared t) (h : Mirrors same l s)
    (hd : d = .between (l.canonicalWith targets) (t.shape.canonicalWith declared))
    (hname : name ∈ d.addedViews) :
    Name.spelled name ∉ Keyed.names (l.views.filter fun e => !d.removedViews.contains e.1) := by
  have hadded : name ∈ Keyed.names t.views := addedViews_declared hd hname
  subst hd
  intro hmem
  obtain ⟨⟨w, v⟩, he, hw⟩ := List.mem_map.1 hmem
  obtain ⟨he, hleft⟩ := List.mem_filter.1 he
  have hleft : w ∉ SchemaDiff.changedViews (l.canonicalWith targets).views
      (t.shape.canonicalWith declared).views := fun hchanged => by
    simp [SchemaDiff.between, hchanged] at hleft
  have hlive : (w, v.canonical) ∈ (l.canonicalWith targets).views :=
    List.mem_map.2 ⟨(w, v), he, rfl⟩
  -- the view that is left is declared, in the same form
  have hdeclared : w ∈ Keyed.names t.views := by
    by_contra hnot
    refine hleft (SchemaDiff.mem_changedViews.2 ⟨_, hlive, Bool.eq_false_iff.2 fun hholds => ?_⟩)
    obtain ⟨_, hdeclared, -⟩ := Keyed.holds_iff.1 hholds
    have hnames := Keyed.mem_names_of_mem (Keyed.mem_of_get? hdeclared)
    exact hnot (TableShape.names_canonicalViews t.shape declared ▸ hnames)
  -- so it is written as it is, and the names are one
  have hspelled : Name.spelled w = w := by
    obtain ⟨e, he', rfl⟩ := List.mem_map.1 hdeclared
    obtain ⟨i, hi⟩ := Name.accepts_table (hprepared.wellFormed.view e he').name
    rw [← Identifier.ofText_text hi]
    exact h.spelling.views _ (Keyed.mem_names_of_mem he) i hi
  have hsame : w = name :=
    List.inj_on_of_nodup_map hprepared.apart hdeclared hadded (hspelled.trans hw)
  subst hsame
  refine hleft (SchemaDiff.changedViews_comm ?_ ?_ TableShape.nodup_viewOrder
    TableShape.nodup_viewOrder hname (Keyed.mem_names_of_mem hlive))
  · rw [TableShape.names_canonicalViews]
    exact hprepared.wellFormed.views
  · rw [TableShape.names_canonicalViews]
    exact h.views

/-- What a difference removes is of the live table, each thing once. -/
theorem holds_removed {d : SchemaDiff} (hd : Describable.diff (.live l) (.declared t) = .ok d)
    (hindexes : ∀ text ∈ l.indexes, ∃ target, IndexTarget.ofText text = .ok target ∧
      target.canonical = text)
    (hcustom : ∀ e ∈ l.customIndexes, e.1 = e.2.key ∧ e.2.canonical = e.2) :
    l.Holds d.removed := by
  obtain ⟨targets, declared, htargets, -, rfl⟩ := Describable.diff_ok hd
  refine ⟨SchemaDiff.nodup_changedViews _ _, fun view hview => ?_, SchemaDiff.nodup_less _ _,
    fun text htext => ?_, SchemaDiff.nodup_less _ _, fun key hkey => ?_⟩
  · obtain ⟨v, hv, -⟩ := SchemaDiff.mem_changedViews.1 hview
    exact TableShape.names_canonicalViews l.toTableShape targets ▸ Keyed.mem_names_of_mem hv
  · exact (mem_targets hindexes htargets).1 (SchemaDiff.mem_less.1 htext).1
  · exact (CustomIndex.mem_keyed_canonical hcustom).1 (SchemaDiff.mem_less.1 hkey).1

/-- The columns of the copy are those that are declared when no difference is left. -/
theorem Altered.hasColumns (h : Altered same t live [] l s) (hprepared : Prepared t) :
    HasColumns t l := by
  refine ⟨hprepared.identifiers, fun column hstored => ?_⟩
  rw [← Keyed.get?_isSome, h.pending.get?_eq, Keyed.get?_isSome]
  exact Table.isStored_iff.1 hstored

theorem Altered.holds_removed (h : Altered same t live [] l s) (hcanonical : live.Canonical)
    {d : SchemaDiff} (hd : Describable.diff (.live l) (.declared t) = .ok d) : l.Holds d.removed :=
  Migration.holds_removed hd (h.targets hcanonical)
    fun e he => hcanonical.customIndexes e (h.within.customIndexes e he)

/-- What a difference adds is created where the declared columns are there and the names of the
views are free and apart. -/
theorem creates_missing {d : SchemaDiff} (hprepared : Prepared t) (htable : s.table? = some l)
    (hcolumns : HasColumns t l) (hindexes : ∀ text ∈ d.addedIndexes, t.Declares text)
    (hfree : ∀ name ∈ d.addedViews, Name.spelled name ∉ Keyed.names l.views)
    (hapart : d.addedViews.Pairwise fun n m => Name.spelled n ≠ Name.spelled m) :
    Keeps (Simulated.watch naming) s (createMissing t d) fun _ s' => s'.table? =
      some (d.addedViews.foldl (LiveTable.withDeclaredView t)
        (d.addedCustomIndexes.foldl
          (LiveTable.withDeclaredCustomIndex naming t.keyedCustomIndexes)
          (d.addedIndexes.foldl (LiveTable.withIndexOn naming) l))) := by
  refine Keeps.bind (Keeps.lift fun shape hshape => ?_)
  obtain ⟨declared, -, rfl⟩ := TableShape.canonical_ok (Describable.canonicalOf_ok hshape)
  refine Keeps.bind ((creates_indexes htable fun text htext target htarget => ?_).mono
    fun _ s₁ htable₁ => ?_)
  · obtain ⟨target', htarget', -, hstored⟩ :=
      hprepared.wellFormed.reads_declared hprepared.identifiers (hindexes text htext)
    rw [htarget] at htarget'
    cases htarget'
    exact hcolumns.columns _ hstored
  refine Keeps.bind ((creates_declaredCustomIndexes hprepared htable₁ (hcolumns.of_columns
    (LiveTable.foldl_keeps (fun l => l.columns) (LiveTable.columns_withIndexOn naming) _ _))
    rfl).mono fun _ s₂ htable₂ => ?_)
  refine creates_declaredViews hprepared htable₂ (hcolumns.of_columns ?_) (fun name hname => ?_)
    hapart
  · rw [LiveTable.foldl_keeps (fun l => l.columns) (LiveTable.columns_withDeclaredCustomIndex _ _),
      LiveTable.foldl_keeps (fun l => l.columns) (LiveTable.columns_withIndexOn naming)]
  · rw [LiveTable.foldl_keeps (fun l => l.views) (LiveTable.views_withDeclaredCustomIndex _ _),
      LiveTable.foldl_keeps (fun l => l.views) (LiveTable.views_withIndexOn naming)]
    exact hfree name hname

/-- What still differs of indexes and views is dropped from the store, and what is declared is
created. -/
theorem Altered.keeps_reconcile (h : Altered same t live [] l s) (hprepared : Prepared t)
    (hcanonical : live.Canonical) :
    Keeps (Simulated.watch naming) s (reconcile t l) fun _ s' => ∃ d columns,
      Describable.diff (.live l) (.declared t) = .ok d ∧ Keyed.Alike same columns l.columns ∧
      s'.table? = some (LiveTable.reconciled naming t d { l with columns }) := by
  refine Keeps.reconcile fun d hd => ?_
  obtain ⟨targets, declared, -, -, hbetween⟩ := Describable.diff_ok hd
  refine (Mirrors.keptByDrops.dropUndeclared h.mirrors (h.holds_removed hcanonical hd)).mono ?_
  rintro _ s₁ ⟨rfl, h₁⟩
  -- from here on the store is looked at instead of the copy
  obtain ⟨columns, htable, halike⟩ := h₁.table
  rw [LiveTable.without_eq] at htable halike
  have hcolumns : HasColumns t { l with columns } := by
    refine ⟨hprepared.identifiers, fun column hstored => ?_⟩
    rw [halike.names_eq]
    exact (h.hasColumns hprepared).columns column hstored
  have hnodup : d.addedViews.Nodup := hbetween ▸ SchemaDiff.nodup_changedViews _ _
  have hapart : d.addedViews.Pairwise fun n m => Name.spelled n ≠ Name.spelled m := by
    refine hnodup.imp_of_mem fun hn hm hne hsame => hne ?_
    exact List.inj_on_of_nodup_map hprepared.apart (addedViews_declared hbetween hn)
      (addedViews_declared hbetween hm) hsame
  refine (creates_missing hprepared htable (hcolumns.of_columns rfl) (addedIndexes_declared hd)
    (fun name hname => free_of_added hprepared h.mirrors hbetween hname) hapart).mono
    fun _ s₂ htable₂ => ⟨d, columns, hd, halike, ?_⟩
  rw [htable₂, LiveTable.reconciled, LiveTable.without_eq]
  rfl

end Migration

end WideColumn
