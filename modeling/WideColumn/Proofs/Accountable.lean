import WideColumn.Proofs.Report
import WideColumn.Proofs.Soundness

/-!
# Synchronizing fails by refusing

Whatever the store, the source of live tables or the operator do, it becomes a refusal, and the
result of the synchronization tells it. What is left is the plan itself (`Migration.sync_accounts`):
its statements are checked when they are put together, and a check that fails is passed on as it is.
`Accountable` says of a part of a plan that it comes to its end or is refused. The parts are
followed with the live table that is altered; its names and those of the declared table have to be
such that the checks pass (`LiveTable.FitsOperations`, `Table.FitsOperations`), and a view of the
store whose name begins with a low line shows that they need not be.
-/

namespace WideColumn

/-- The failure is a refusal. -/
def Failure.IsRefusal : Failure → Prop
  | .refusal _ => True
  | _ => False

/-! ## Outcomes -/

/-- The outcome is a value that satisfies `post`, or a refusal. -/
def Accountable {α : Type} (r : Except Failure α) (post : α → Prop) : Prop :=
  match r with
  | .ok a => post a
  | .error f => f.IsRefusal

namespace Accountable

variable {α β : Type} {r : Except Failure α} {post : α → Prop}

theorem of_cases (hok : ∀ a, r = .ok a → post a) (herror : ∀ f, r = .error f → f.IsRefusal) :
    Accountable r post := by
  cases r with
  | ok a => exact hok a rfl
  | error f => exact herror f rfl

theorem mono {post' : α → Prop} (h : Accountable r post) (hpost : ∀ a, post a → post' a) :
    Accountable r post' := by
  cases r with
  | ok a => exact hpost a h
  | error f => exact h

theorem bind {g : α → Except Failure β} {post : β → Prop}
    (h : Accountable r fun a => Accountable (g a) post) : Accountable (r >>= g) post := by
  cases r with
  | ok a => exact h
  | error f => exact h

theorem mapM {f : α → Except Failure β} : ∀ {xs : List α},
    (∀ x ∈ xs, Accountable (f x) fun _ => True) → Accountable (xs.mapM f) fun _ => True
  | [], _ => trivial
  | x :: xs, h => by
    rw [List.mapM_cons]
    refine bind ((h x List.mem_cons_self).mono fun y _ => bind ?_)
    exact (mapM fun x' hx' => h x' (List.mem_cons_of_mem x hx')).mono fun ys _ => trivial

end Accountable

/-! ## Names are accepted or refused -/

namespace Ddl

theorem accountable_ofText (name : String) :
    Accountable (Identifier.ofText name) fun _ => True := by
  unfold Identifier.ofText
  split <;> trivial

theorem accountable_acceptNames (names : List String) :
    Accountable (acceptNames names) fun _ => True := .mapM fun name _ => accountable_ofText name

theorem accountable_acceptKey (key : KeyClause String) :
    Accountable (acceptKey key) fun _ => True :=
  .bind ((accountable_acceptNames _).mono fun _ _ =>
    .bind ((accountable_acceptNames _).mono fun _ _ => trivial))

theorem accountable_acceptSelect (select : Option (List String)) :
    Accountable (acceptSelect select) fun _ => True := by
  cases select with
  | none => trivial
  | some names => exact .bind ((accountable_acceptNames names).mono fun _ _ => trivial)

/-- A definition whose names cannot all be quoted is refused. -/
theorem accountable_accept (d : Ddl String) : Accountable d.accept fun _ => True := by
  have htwo : ∀ (x y : String) (g : Identifier → Identifier → Ddl Identifier), Accountable
      (do return g (← Identifier.ofText x) (← Identifier.ofText y)) fun _ => True := fun x y g =>
    .bind ((accountable_ofText x).mono fun _ _ =>
      .bind ((accountable_ofText y).mono fun _ _ => trivial))
  have hone : ∀ (x : String) (g : Identifier → Ddl Identifier),
      Accountable (do return g (← Identifier.ofText x)) fun _ => True := fun x g =>
    .bind ((accountable_ofText x).mono fun _ _ => trivial)
  cases d with
  | createTable table columns key =>
    have hcolumns : Accountable (columns.mapM acceptColumn) fun _ => True := .mapM fun c _ =>
      .bind ((accountable_ofText c.name).mono fun _ _ => trivial)
    exact .bind (hcolumns.mono fun _ _ => .bind ((accountable_ofText table).mono fun _ _ =>
      .bind ((accountable_acceptKey key).mono fun _ _ => trivial)))
  | createView view table select key =>
    exact .bind ((accountable_acceptSelect select).mono fun _ _ =>
      .bind ((accountable_acceptKey key).mono fun _ _ => htwo view table _))
  | dropTable table ifExists => exact hone table _
  | createIndex table target => exact hone table _
  | dropIndex name ifExists => exact hone name _
  | dropView view ifExists => exact hone view _
  | addColumn table column type isStatic => exact htwo table column _
  | dropColumn table column => exact htwo table column _
  | retypeColumn table column type => exact htwo table column _
  | createCustomIndex table column implementation options => exact htwo table column _

end Ddl

/-! ## Parts of plans -/

namespace Draft

variable {α β : Type} {d : Draft α}

theorem accountable_bind {f : α → Draft β} {post : β → Prop}
    (h : Accountable d.outcome fun a => Accountable (f a).outcome post) :
    Accountable (d >>= f).outcome post := by
  change Accountable (Draft.bind d f).outcome post
  unfold Draft.bind
  cases ho : d.outcome with
  | ok a => exact (ho ▸ h : Accountable (.ok a) _)
  | error f => exact (ho ▸ h : Accountable (.error f) _)

theorem accountable_map {g : α → β} {post : β → Prop}
    (h : Accountable d.outcome fun a => post (g a)) : Accountable (g <$> d).outcome post :=
  accountable_bind (h.mono fun _ ha => ha)

theorem accountable_forM {ι : Type} {f : ι → Draft Unit} : ∀ {xs : List ι},
    (∀ x ∈ xs, Accountable (f x).outcome fun _ => True) →
      Accountable (xs.forM f).outcome fun _ => True
  | [], _ => trivial
  | x :: xs, h => by
    change Accountable (f x >>= fun _ => xs.forM f).outcome _
    refine accountable_bind ((h x List.mem_cons_self).mono fun _ _ => ?_)
    exact accountable_forM fun x' hx' => h x' (List.mem_cons_of_mem x hx')

/-- Parts over a list, each of which keeps an invariant. -/
theorem accountable_foldlM {ι : Type} {f : α → ι → Draft α} {inv : α → Prop} :
    ∀ {xs : List ι} {a : α}, (∀ x ∈ xs, ∀ a, inv a → Accountable (f a x).outcome inv) → inv a →
      Accountable (xs.foldlM f a).outcome inv
  | [], _, _, h => h
  | x :: xs, a, hstep, h => by
    rw [List.foldlM_cons]
    refine accountable_bind ((hstep x List.mem_cons_self a h).mono fun a' ha' => ?_)
    exact accountable_foldlM (fun x' hx' => hstep x' (List.mem_cons_of_mem x hx')) ha'

/-- A statement whose parts pass their checks is sent or refused. -/
theorem accountable_send {name : String} {phase : Phase} {kind : StatementKind} {made : Checked α}
    {ddl : α → Except Failure (Ddl String)} {a : α} (hmade : made = .ok a)
    (hddl : Accountable (ddl a) fun _ => True) :
    Accountable (Draft.send name phase kind made ddl).outcome fun _ => True := by
  refine accountable_bind ?_
  rw [hmade]
  exact .bind (hddl.mono fun d _ => (Ddl.accountable_accept d).mono fun _ _ => trivial)

/-- A definition whose parts pass their checks is sent or refused. -/
theorem accountable_sendDdl {name : String} {phase : Phase} {kind : StatementKind}
    {made : Checked α} {ddl : α → Ddl String} {a : α} (hmade : made = .ok a) :
    Accountable (Draft.send name phase kind made fun o => .ok (ddl o)).outcome fun _ => True :=
  accountable_send hmade trivial

end Draft

/-! ## Names that fit -/

/-- What is declared fits the operations that create it: the keys have columns of the partition, the
views have short names, and the custom indexes have columns and implementations that are not
blank. -/
structure Table.FitsOperations (t : Table) : Prop where
  creatable : t.Creatable
  shortViews : t.HasShortViews
  namedIndexes : ∀ e ∈ t.keyedCustomIndexes, e.2.column ≠ ""

/-- What the store has fits the operations that alter and drop it: columns and indexes have names,
those of views are such as views are created under, and each custom index is under the key that it
has in its canonical form. -/
structure LiveTable.FitsOperations (l : LiveTable) : Prop where
  columns : ∀ column ∈ Keyed.names l.columns, column ≠ ""
  views : ∀ view ∈ Keyed.names l.views, Name.NamesTable view
  indexNames : ∀ e ∈ l.indexNames, e.2 ≠ ""
  customIndexNames : ∀ e ∈ l.customIndexNames, e.2 ≠ ""
  customIndexes : ∀ e ∈ l.customIndexes, e.2.canonical.key = e.1

/-- A live table that fits, whose index targets can be read. -/
structure LiveTable.Workable (l : LiveTable) : Prop extends l.FitsOperations where
  targets : ∀ text ∈ l.indexes, ∃ target, IndexTarget.ofText text = .ok target

namespace LiveTable.Workable

variable {l : LiveTable}

theorem withoutView (h : l.Workable) (view : String) : (l.withoutView view).Workable :=
  ⟨⟨h.columns, fun v hv => h.views v (Keyed.mem_names_erase.1 hv).1, h.indexNames,
    h.customIndexNames, h.customIndexes⟩, h.targets⟩

theorem withoutIndex (h : l.Workable) (text : String) : (l.withoutIndex text).Workable :=
  ⟨⟨h.columns, h.views, fun e he => h.indexNames e (Keyed.mem_erase.1 he).1,
    h.customIndexNames, h.customIndexes⟩,
    fun other hother => h.targets other (List.mem_filter.1 hother).1⟩

theorem withoutCustomIndex (h : l.Workable) (key : String) : (l.withoutCustomIndex key).Workable :=
  ⟨⟨h.columns, h.views, h.indexNames,
    fun e he => h.customIndexNames e (Keyed.mem_erase.1 he).1,
    fun e he => h.customIndexes e (Keyed.mem_erase.1 he).1⟩, h.targets⟩

theorem withColumn (h : l.Workable) {name : String} (hname : name ≠ "") (c : Column) :
    (l.withColumn name c).Workable := by
  refine ⟨⟨fun column hcolumn => ?_, h.views, h.indexNames, h.customIndexNames, h.customIndexes⟩,
    h.targets⟩
  rcases Keyed.mem_names_put.1 hcolumn with rfl | hcolumn
  · exact hname
  · exact h.columns column hcolumn

theorem withoutColumn (h : l.Workable) (name : String) : (l.withoutColumn name).Workable :=
  ⟨⟨fun column hcolumn => h.columns column (Keyed.mem_names_erase.1 hcolumn).1, h.views,
    h.indexNames, h.customIndexNames, h.customIndexes⟩, h.targets⟩

end LiveTable.Workable

/-! ## The names of registered fields -/

theorem Coercion.ne_empty_of_textWithin {high : Option Nat} {v : Value} {s : String}
    (h : textWithin 1 high v = .ok s) : s ≠ "" := by
  rintro rfl
  obtain ⟨s', hs', h⟩ := Checked.andThen_ok h
  split at h
  · cases h
  · rename_i hlength
    have hs : s' = "" := by
      cases high with
      | none => exact Checked.ok.inj h
      | some most =>
        dsimp only at h
        split at h
        · cases h
        · exact Checked.ok.inj h
    exact hlength (hs ▸ Nat.zero_lt_one)

theorem Definition.parseField_name {name definition : Value} {table : String} {f : Field}
    (h : parseField name definition table = .ok f) : f.name ≠ "" := by
  obtain ⟨type, read, -, -, hname, -⟩ := parseField_ok h
  exact Coercion.ne_empty_of_textWithin hname

theorem Field.coercion_name {v : Value} {f : Field} (h : coercion v = .ok f) : f.name ≠ "" := by
  cases v with
  | map es =>
    obtain ⟨f₁, _, h₁, -, rfl⟩ := Checked.seq_ok (show ofEntries es = .ok f from h)
    obtain ⟨f₂, _, h₂, -, rfl⟩ := Checked.seq_ok h₁
    obtain ⟨f₃, _, h₃, -, rfl⟩ := Checked.seq_ok h₂
    obtain ⟨f₄, _, h₄, -, rfl⟩ := Checked.seq_ok h₃
    obtain ⟨f₅, _, h₅, -, rfl⟩ := Checked.seq_ok h₄
    obtain ⟨f₆, _, h₆, -, rfl⟩ := Checked.seq_ok h₅
    obtain ⟨s, hs, rfl⟩ := Checked.map_ok h₆
    obtain ⟨_, -, hs⟩ := Coercion.required_ok hs
    exact Coercion.ne_empty_of_textWithin hs
  | _ => cases h

/-- The fields of a registered table have names. -/
theorem Table.Registered.named {t : Table} (h : t.Registered) : ∀ f ∈ t.fields, f.name ≠ "" := by
  -- both ways of registering read the fields entry by entry
  have hread : ∀ {α : Type} {reads : Value × α → Field → Prop} {fs : List (Value × α)}
      {d : TableDraft}, Coercion.ReadsEntries reads fs d.fields →
      (∀ e f, reads e f → f.name ≠ "") → d.register = .ok t → ∀ f ∈ t.fields, f.name ≠ "" := by
    rintro α reads fs d ⟨ps, hps, hfields⟩ hnamed hregister f hf
    obtain ⟨-, -, htfields, -⟩ := TableDraft.register_ok hregister
    rw [htfields, hfields] at hf
    obtain ⟨e, he, rfl⟩ := List.mem_map.1 hf
    obtain ⟨_, -, -, hread⟩ := forall₂_mem_right hps (Keyed.mem_of_mem_ofList he)
    exact hnamed _ _ hread
  rcases h with ⟨name, definition, h⟩ | ⟨parts, h⟩
  · obtain ⟨table, es, d, -, -, hreads, hregister⟩ := ofDefinition_ok h
    obtain ⟨fs, -, hfields⟩ := hreads.fields
    exact hread hfields (fun _ _ => Definition.parseField_name) hregister
  · obtain ⟨es, d, hd, hregister⟩ := ofParts_ok h
    obtain ⟨v, -, hv⟩ := Coercion.required_ok (TableDraft.ofEntries_ok hd).1
    obtain ⟨fs, -, hfields⟩ := Coercion.mapOf_ok hv
    exact hread hfields (fun _ _ => Field.coercion_name) hregister

/-! ## Plans -/

namespace Migration

open Draft

variable {t : Table} {l : LiveTable}

section

variable (htable : Name.NamesTable t.name)

include htable

/-! ### Creating -/

theorem accountable_createIndex {text : String} (htext : text ≠ "") :
    Accountable (createIndex t text).outcome fun _ => True := by
  refine accountable_send (IndexCreation.checked_eq htable htext) ?_
  unfold IndexCreation.ddl
  split <;> trivial

theorem accountable_createCustomIndex {i : CustomIndex} (hcolumn : i.column ≠ "")
    (himplementation : i.implementation ≠ "") :
    Accountable (createCustomIndex t i).outcome fun _ => True :=
  accountable_sendDdl (CustomIndexCreation.checked_eq htable hcolumn himplementation)

theorem accountable_createView {name : String} {v : View} (hname : Name.NamesTable name)
    (hkey : v.partitionKey ≠ []) : Accountable (createView t name v).outcome fun _ => True :=
  accountable_sendDdl (ViewCreation.checked_eq htable hname hkey)

/-! ### Dropping -/

theorem accountable_dropView {view : String} (hview : Name.NamesTable view) :
    Accountable (dropView t l view).outcome (· = l.withoutView view) :=
  accountable_bind ((accountable_sendDdl (ViewRemoval.checked_eq htable hview)).mono
    fun _ _ => rfl)

theorem accountable_sendIndexDrop {step name : String} (hname : name ≠ "") :
    Accountable (sendIndexDrop t step name).outcome fun _ => True :=
  accountable_sendDdl (IndexRemoval.checked_eq htable hname)

/-- An index without a known name is refused. -/
theorem accountable_dropIndex {text : String} (h : l.Workable) :
    Accountable (dropIndex t l text).outcome (· = l.withoutIndex text) := by
  unfold dropIndex
  cases hname : Keyed.get? l.indexNames text with
  | none => trivial
  | some name =>
    have hne : name ≠ "" := h.indexNames _ (Keyed.mem_of_get? hname)
    exact accountable_bind ((accountable_sendIndexDrop htable hne).mono fun _ _ => rfl)

theorem accountable_dropCustomIndex {key : String} (h : l.Workable) :
    Accountable (dropCustomIndex t l key).outcome (· = l.withoutCustomIndex key) := by
  unfold dropCustomIndex
  cases hname : Keyed.get? l.customIndexNames key with
  | none => trivial
  | some name =>
    have hne : name ≠ "" := h.customIndexNames _ (Keyed.mem_of_get? hname)
    exact accountable_bind ((accountable_sendIndexDrop htable hne).mono fun _ _ => rfl)

theorem accountable_dropViews {views : List String} (hviews : ∀ view ∈ views, Name.NamesTable view)
    (h : l.Workable) :
    Accountable (views.foldlM (dropView t) l).outcome LiveTable.Workable :=
  accountable_foldlM (fun view hview _ h =>
    (accountable_dropView htable (hviews view hview)).mono fun _ heq => heq ▸ h.withoutView view) h

/-- What depends on a column is dropped. -/
theorem accountable_dropDependents {column : String} (h : l.Workable) :
    Accountable (dropDependents t l column).outcome LiveTable.Workable := by
  obtain ⟨ds, hds⟩ := l.dependentsOf_reads column h.targets
  obtain ⟨-, -, hviews⟩ := LiveTable.dependentsOf_sublist hds
  have hindex : ∀ text (l : LiveTable), l.Workable →
      Accountable (dropIndex t l text).outcome LiveTable.Workable := fun text _ h =>
    (accountable_dropIndex htable h).mono fun _ heq => heq ▸ h.withoutIndex text
  have hcustomIndex : ∀ key (l : LiveTable), l.Workable →
      Accountable (dropCustomIndex t l key).outcome LiveTable.Workable := fun key _ h =>
    (accountable_dropCustomIndex htable h).mono fun _ heq => heq ▸ h.withoutCustomIndex key
  unfold dropDependents
  refine accountable_bind ?_
  change Accountable (l.dependentsOf column) _
  rw [hds]
  refine accountable_bind ((accountable_dropViews htable
    (fun view hview => h.views view (hviews.subset hview)) h).mono fun _ h₁ => ?_)
  refine accountable_bind ((accountable_foldlM (fun text _ => hindex text) h₁).mono
    fun _ h₂ => ?_)
  exact accountable_foldlM (fun key _ => hcustomIndex key) h₂

/-! ### Columns -/

theorem accountable_addColumn {name : String} {c : Column} (hname : name ≠ "")
    (htype : c.typeText ≠ "") :
    Accountable (addColumn t l name c).outcome (· = l.withColumn name c) :=
  accountable_bind ((accountable_sendDdl
    (ColumnChange.checked_typed htable (by decide) hname htype)).mono fun _ _ => rfl)

theorem accountable_retypeColumn {name : String} {c : Column} (hname : name ≠ "")
    (htype : c.typeText ≠ "") :
    Accountable (retypeColumn t l name c).outcome (· = l.withColumn name c) :=
  accountable_bind ((accountable_sendDdl
    (ColumnChange.checked_typed htable (by decide) hname htype)).mono fun _ _ => rfl)

theorem accountable_removeColumn {name : String} (hname : name ≠ "") (h : l.Workable) :
    Accountable (removeColumn t l name).outcome LiveTable.Workable := by
  refine accountable_bind ((accountable_dropDependents htable h).mono fun l' h' => ?_)
  exact accountable_bind ((accountable_sendDdl (ColumnChange.checked_drop htable hname)).mono
    fun _ _ => h'.withoutColumn name)

/-! ### What is not declared -/

theorem accountable_dropUndeclaredViews {views : List String}
    (hviews : ∀ view ∈ views, Name.NamesTable view) (h : l.Workable) :
    Accountable (views.foldlM (dropUndeclaredView t) l).outcome fun l' =>
      l'.Workable ∧ l'.customIndexes = l.customIndexes := by
  refine accountable_foldlM (fun view hview l' h' => accountable_bind ?_) ⟨h, rfl⟩
  refine (accountable_dropView htable (hviews view hview)).mono ?_
  rintro _ rfl
  exact ⟨h'.1.withoutView view, h'.2⟩

theorem accountable_dropUndeclaredIndexes {texts : List String} (h : l.Workable) :
    Accountable (texts.foldlM (dropUndeclaredIndex t) l).outcome fun l' =>
      l'.Workable ∧ l'.customIndexes = l.customIndexes := by
  refine accountable_foldlM (fun text _ l' h' => accountable_bind ?_) ⟨h, rfl⟩
  refine (accountable_dropIndex htable h'.1).mono ?_
  rintro _ rfl
  exact ⟨h'.1.withoutIndex text, h'.2⟩

/-- Each of the custom indexes is still there when it is dropped. -/
theorem accountable_dropUndeclaredCustomIndexes : ∀ {keys : List String} {l : LiveTable},
    l.Workable → keys.Nodup → (∀ key ∈ keys, key ∈ Keyed.names l.customIndexes) →
      Accountable (keys.foldlM (dropUndeclaredCustomIndex t) l).outcome fun _ => True
  | [], _, _, _, _ => trivial
  | key :: keys, l, h, hnodup, hthere => by
    obtain ⟨hkey, hkeys⟩ := List.nodup_cons.1 hnodup
    obtain ⟨i, hi⟩ := Option.isSome_iff_exists.1
      (Keyed.get?_isSome.2 (hthere key List.mem_cons_self))
    rw [List.foldlM_cons]
    refine accountable_bind ?_
    unfold dropUndeclaredCustomIndex
    rw [hi]
    refine accountable_bind ((accountable_dropCustomIndex htable h).mono ?_)
    rintro _ rfl
    refine accountable_dropUndeclaredCustomIndexes (h.withoutCustomIndex key) hkeys
      fun other hother =>
        Keyed.mem_names_erase.2 ⟨hthere other (List.mem_cons_of_mem key hother), ?_⟩
    rintro rfl
    exact hkey hother

/-- What is not declared is dropped; the drops of views and indexes leave the custom indexes. -/
theorem accountable_dropUndeclared {d : SchemaDiff}
    (hviews : ∀ view ∈ d.removedViews, Name.NamesTable view) (hnodup : d.removedCustomIndexes.Nodup)
    (hcustom : ∀ key ∈ d.removedCustomIndexes, key ∈ Keyed.names l.customIndexes)
    (h : l.Workable) : Accountable (dropUndeclared t d l).outcome fun _ => True := by
  refine accountable_bind ((accountable_dropUndeclaredViews htable hviews h).mono ?_)
  rintro l₁ ⟨h₁, hsame₁⟩
  refine accountable_bind ((accountable_dropUndeclaredIndexes htable h₁).mono ?_)
  rintro l₂ ⟨h₂, hsame₂⟩
  refine accountable_dropUndeclaredCustomIndexes htable h₂ hnodup ?_
  rwa [hsame₂, hsame₁]

end

/-! ### Everything that is declared -/

section

variable (hwell : t.WellFormed) (hnamed : ∀ f ∈ t.fields, f.name ≠ "") (hfits : t.FitsOperations)

include hwell hfits

theorem accountable_createKeyed {e : String × CustomIndex} (he : e ∈ t.keyedCustomIndexes) :
    Accountable (createCustomIndex t e.2).outcome fun _ => True :=
  accountable_createCustomIndex hwell.name (hfits.namedIndexes e he)
    (hfits.creatable.customIndexes e he)

theorem accountable_createDeclared {e : String × View} (he : e ∈ t.views) :
    Accountable (createView t e.1 e.2).outcome fun _ => True :=
  accountable_createView hwell.name ⟨(hwell.view e he).name, hfits.shortViews e he⟩
    (hfits.creatable.views e he)

include hnamed

theorem accountable_createAll : Accountable (createAll t).outcome fun _ => True := by
  obtain ⟨shape, hshape, hcustom⟩ := shape_declared hwell
  have hchecked := tableCreation_checked hwell (fun f hf => hnamed f (List.mem_filter.1 hf).1)
    hfits.creatable.partitionKey
  refine accountable_bind ((accountable_sendDdl hchecked).mono fun _ _ => ?_)
  refine accountable_bind ((accountable_forM fun text htext => ?_).mono fun _ _ => ?_)
  · obtain ⟨target, htarget, -⟩ := hwell.indexes text htext
    exact accountable_createIndex hwell.name (ne_empty_of_ofText htarget)
  refine accountable_bind ?_
  change Accountable (Describable.declared t).shape _
  rw [hshape]
  refine accountable_bind ((accountable_forM fun e he => ?_).mono fun _ _ => ?_)
  · exact accountable_createKeyed hwell hfits (hcustom ▸ he)
  · exact accountable_forM fun e he => accountable_createDeclared hwell hfits he

theorem accountable_recreate (h : l.Workable) :
    Accountable (recreate t l).outcome fun _ => True := by
  refine accountable_bind ((accountable_dropViews hwell.name h.views h).mono fun _ _ => ?_)
  refine accountable_bind ((accountable_sendDdl (TableRemoval.checked_eq hwell.name)).mono
    fun _ _ => ?_)
  exact accountable_createAll hwell hnamed hfits

theorem accountable_recreateAsking (h : l.Workable) :
    Accountable (recreateAsking t l).outcome fun _ => True :=
  accountable_bind (accountable_bind ((accountable_recreate hwell hnamed hfits h).mono
    fun _ _ => trivial))

theorem accountable_applyDiff {e : ColumnDiff} (hname : e.name ≠ "")
    (htype : ∀ c, e.new? = some c → c.typeText ≠ "") (h : l.Workable) :
    Accountable (applyDiff t l e).outcome fun l? => ∀ l', l? = some l' → l'.Workable := by
  have hsome : ∀ {l' : LiveTable}, l'.Workable → ∀ l'', some l' = some l'' → l''.Workable :=
    fun h' _ heq => Option.some.inj heq ▸ h'
  have hnone : ∀ l', (none : Option LiveTable) = some l' → l'.Workable :=
    fun _ heq => absurd heq.symm (Option.some_ne_none _)
  have hadd : ∀ {l name c}, l.Workable → name ≠ "" → c.typeText ≠ "" →
      Accountable (addColumn t l name c).outcome LiveTable.Workable := fun h hname htype =>
    (accountable_addColumn hwell.name hname htype).mono fun _ heq => heq ▸ h.withColumn hname _
  cases e with
  | added name new =>
    exact accountable_bind (accountable_map
      ((hadd h hname (htype new rfl)).mono fun _ h' => hsome h'))
  | removed name old =>
    exact accountable_bind (accountable_map
      ((accountable_removeColumn hwell.name hname h).mono fun _ h' => hsome h'))
  | changed name aspect old new =>
    simp only [applyDiff]
    split
    · refine accountable_bind (accountable_map
        ((accountable_retypeColumn hwell.name hname (htype new rfl)).mono ?_))
      rintro _ rfl
      exact hsome (h.withColumn hname new)
    split
    · exact accountable_bind (accountable_bind
        ((accountable_recreate hwell hnamed hfits h).mono fun _ _ => hnone))
    · refine accountable_bind (accountable_bind
        ((accountable_removeColumn hwell.name hname h).mono fun _ h' => ?_))
      exact accountable_map ((hadd h' hname (htype new rfl)).mono fun _ h'' => hsome h'')

theorem accountable_applyDiffs : ∀ {ds : List ColumnDiff} {l : LiveTable},
    (∀ e ∈ ds, e.name ≠ "") → (∀ e ∈ ds, ∀ c, e.new? = some c → c.typeText ≠ "") → l.Workable →
      Accountable (applyDiffs t l ds).outcome fun l? => ∀ l', l? = some l' → l'.Workable
  | [], _, _, _, h => fun _ heq => Option.some.inj heq ▸ h
  | e :: ds, l, hnames, htypes, h => by
    refine accountable_bind ((accountable_applyDiff hwell hnamed hfits
      (hnames e List.mem_cons_self) (htypes e List.mem_cons_self) h).mono fun l? hl? => ?_)
    cases l? with
    | none => exact nofun
    | some l' =>
      exact accountable_applyDiffs (fun e' he' => hnames e' (List.mem_cons_of_mem e he'))
        (fun e' he' => htypes e' (List.mem_cons_of_mem e he')) (hl? l' rfl)

end

/-! ### Differences -/

theorem Describable.accountable_shape (d : Describable) : Accountable d.shape fun _ => True := by
  have hcanonical : ∀ s : TableShape, Accountable (Describable.canonicalOf s) fun _ => True := by
    intro s
    unfold Describable.canonicalOf
    split <;> trivial
  cases d with
  | declared t => exact hcanonical t.shape
  | live l => exact hcanonical l.toTableShape
  | other className => trivial

/-- Tables whose difference cannot be told are refused. -/
theorem accountable_diff : Accountable (Describable.diff (.live l) (.declared t)) fun d =>
    Describable.diff (.live l) (.declared t) = .ok d := by
  refine .of_cases (fun _ hd => hd) fun f hf => ?_
  have hrefuses : Accountable (Describable.diff (.live l) (.declared t)) fun _ => True :=
    .bind ((Describable.accountable_shape _).mono fun _ _ =>
      .bind ((Describable.accountable_shape _).mono fun _ _ => trivial))
  rwa [hf] at hrefuses

/-- The columns that differ have names, and what they are to become has types. -/
theorem columnDiffs_named {d : SchemaDiff} (hwell : t.WellFormed)
    (hnamed : ∀ f ∈ t.fields, f.name ≠ "") (h : l.Workable)
    (hd : Describable.diff (.live l) (.declared t) = .ok d) :
    (∀ e ∈ d.columns, e.name ≠ "") ∧
      ∀ e ∈ d.columns, ∀ c, e.new? = some c → c.typeText ≠ "" := by
  obtain ⟨targets, declared, -, -, rfl⟩ := Describable.diff_ok hd
  have hstored : ∀ e ∈ t.storedColumns, e.1 ≠ "" ∧ e.2.typeText ≠ "" := by
    intro e he
    obtain ⟨x, hx, rfl⟩ := List.mem_map.1 he
    obtain ⟨f, hf, rfl⟩ := List.mem_map.1 hx
    exact ⟨hnamed f (List.mem_filter.1 hf).1,
      Column.typeText_canonical_ne_empty (hwell.typeName hf)⟩
  suffices ∀ e ∈ SchemaDiff.columnDiffs (l.canonicalWith targets).columns t.storedColumns,
      e.name ≠ "" ∧ ∀ c, e.new? = some c → c.typeText ≠ "" from
    ⟨fun e he => (this e he).1, fun e he => (this e he).2⟩
  intro e he
  rcases List.mem_append.1 he with he | he
  · obtain ⟨x, hx, hdiff⟩ := List.mem_filterMap.1 he
    obtain ⟨hname, htype⟩ := hstored x hx
    unfold SchemaDiff.columnDiff? at hdiff
    split at hdiff
    · cases hdiff
      exact ⟨hname, fun c hc => Option.some.inj hc ▸ htype⟩
    · obtain ⟨aspect, -, rfl⟩ := Option.map_eq_some_iff.1 hdiff
      exact ⟨hname, fun c hc => Option.some.inj hc ▸ htype⟩
  · obtain ⟨x, hx, rfl⟩ := List.mem_map.1 he
    have hlive : x.1 ∈ Keyed.names l.columns :=
      TableShape.names_canonicalColumns l.toTableShape targets ▸
        Keyed.mem_names_of_mem (List.mem_filter.1 hx).1
    exact ⟨h.columns x.1 hlive, nofun⟩

/-! ### Whole plans -/

section

variable (hwell : t.WellFormed) (hnamed : ∀ f ∈ t.fields, f.name ≠ "") (hfits : t.FitsOperations)

include hwell hfits

/-- What a difference adds is declared, and created or refused. -/
theorem accountable_createMissing {d : SchemaDiff}
    (hd : Describable.diff (.live l) (.declared t) = .ok d) :
    Accountable (createMissing t d).outcome fun _ => True := by
  obtain ⟨shape, hshape, hcustom⟩ := shape_declared hwell
  refine accountable_bind ?_
  change Accountable (Describable.declared t).shape _
  rw [hshape]
  refine accountable_bind ((accountable_forM fun text htext => ?_).mono fun _ _ => ?_)
  · obtain ⟨text', -, target, htarget, rfl⟩ := addedIndexes_declared hd text htext
    exact accountable_createIndex hwell.name (IndexTarget.canonical_ne_empty htarget)
  refine accountable_bind ((accountable_forM fun key hkey => ?_).mono fun _ _ => ?_)
  · obtain ⟨e, he, hcreates⟩ := createDeclaredCustomIndex_added hd hcustom hkey
    rw [hcreates]
    exact accountable_createKeyed hwell hfits he
  · refine accountable_forM fun name hname => ?_
    obtain ⟨e, he, hcreates⟩ := createDeclaredView_added hd hname
    rw [hcreates]
    exact accountable_createDeclared hwell hfits he

/-- What still differs of indexes and views is dropped, and what is declared is created. -/
theorem accountable_reconcile (h : l.Workable) :
    Accountable (reconcile t l).outcome fun _ => True := by
  rw [reconcile_eq]
  refine accountable_bind ((accountable_diff (l := l) (t := t)).mono fun d hd => ?_)
  refine accountable_bind ((accountable_dropUndeclared hwell.name
    (fun view hview => h.views view (removedViews_mem hd view hview)) ?_ ?_ h).mono
    fun _ _ => accountable_createMissing hwell hfits hd)
  · obtain ⟨_, _, -, -, rfl⟩ := Describable.diff_ok hd
    exact SchemaDiff.nodup_less _ _
  · obtain ⟨_, _, -, -, rfl⟩ := Describable.diff_ok hd
    exact fun key hkey =>
      (CustomIndex.mem_keyed_of_keys h.customIndexes).1 (SchemaDiff.mem_less.1 hkey).1

include hnamed

theorem accountable_alter {d : SchemaDiff} (h : l.Workable)
    (hd : Describable.diff (.live l) (.declared t) = .ok d) :
    Accountable (alter t l d).outcome fun _ => True := by
  obtain ⟨hnames, htypes⟩ := columnDiffs_named hwell hnamed h hd
  refine accountable_bind ((accountable_applyDiffs hwell hnamed hfits hnames htypes h).mono
    fun l? hl? => ?_)
  cases l? with
  | none => trivial
  | some l' =>
    exact accountable_bind ((accountable_reconcile hwell hfits (hl? l' rfl)).mono
      fun _ _ => trivial)

/-- A plan for a table that fits comes to its end or is refused when what is found fits too. -/
theorem accountable_plan {policy : Policy} {live : Option LiveTable}
    (hlive : ∀ l, live = some l → l.FitsOperations) :
    Accountable (plan t policy live).outcome fun _ => True := by
  cases live with
  | none =>
    exact accountable_bind ((accountable_createAll hwell hnamed hfits).mono fun _ _ => trivial)
  | some l =>
    refine accountable_bind ((accountable_diff (l := l) (t := t)).mono fun d hd => ?_)
    have h : l.Workable := by
      obtain ⟨targets, -, htargets, -⟩ := Describable.diff_ok hd
      exact ⟨hlive l rfl, TableShape.reads_of_canonicalTargets htargets⟩
    split
    · trivial
    cases policy with
    | safe => trivial
    | drop => exact accountable_recreateAsking hwell hnamed hfits h
    | alter =>
      dsimp only
      split
      · exact accountable_recreateAsking hwell hnamed hfits h
      · exact accountable_alter hwell hnamed hfits h hd

end

/-! ## Synchronizing -/

variable {settings : Settings} {source : LiveSource} {s : Session}

theorem failureIn_isRefusal (phase : Phase) (table : String) (statement : Value) (f : Failure) :
    (failureIn phase table statement f).IsRefusal := by cases f <;> trivial

/-- A live table that cannot be fetched is refused. -/
theorem fetched_isRefusal {f : Failure} (h : (fetched settings source t s).1 = .error f) :
    f.IsRefusal := by
  unfold fetched fetchLive at h
  simp only [Action.perform_bind, Action.perform_attempt] at h
  generalize (source.fetch t.name).perform ((opening settings t).perform s).2 = found at h
  obtain ⟨g | live, s₁⟩ := found
  · obtain ⟨s₂, hs₂, -⟩ := wrapped_spec t.name .schemaQuery .null g s₁
    simp only [Action.perform_bind, hs₂] at h
    cases h
    exact failureIn_isRefusal ..
  · cases h

/-- A deed ends a run with a refusal. -/
theorem stop_isRefusal {table : String} {ds : List Deed} {f : Failure}
    (h : stop table ds = some f) : f.IsRefusal := by
  obtain ⟨d, -, hd⟩ := List.exists_of_findSome?_eq_some h
  cases d with
  | asked q approved =>
    cases approved <;> cases hd
    trivial
  | sent step failure =>
    cases failure <;> cases hd
    exact failureIn_isRefusal ..

/-- The plan is what fails: everything that was asked was approved, everything that was sent
succeeded, and what the plan comes to is a failure and no refusal. -/
def BreaksOff (settings : Settings) (source : LiveSource) (t : Table) (s : Session) : Prop :=
  ∃ live f, (fetched settings source t s).1 = .ok live ∧
    (∀ d ∈ syncDeeds settings source t s, d.succeeds) ∧
    (plan t settings.effectivePolicy live).outcome = .error f ∧ ¬ f.IsRefusal

/-- The synchronization came to its end, or it was refused and its result says so. -/
def Accounts (r : MigrationResult × Option Failure) : Prop :=
  (r.2 = none ∧ r.1.state ≠ .failed ∧ r.1.error = none) ∨
    ∃ e, r.2 = some (.refusal e) ∧ r.1.state = .failed ∧ r.1.error = some e

/-- A synchronization that its plan does not break off comes to its end or is refused. -/
theorem accountable_syncOutcome :
    (Accountable (syncOutcome settings source t s) fun _ => True) ↔
      ¬ BreaksOff settings source t s := by
  rcases hfetched : fetched settings source t s with ⟨f | live, s₁⟩
  · have hfound : (fetched settings source t s).1 = .error f := by rw [hfetched]
    have houtcome : syncOutcome settings source t s = .error f := by
      unfold syncOutcome
      rw [hfound]
    rw [houtcome]
    refine ⟨fun _ hbreaks => ?_, fun _ => fetched_isRefusal hfound⟩
    obtain ⟨live, _, hlive, -⟩ := hbreaks
    rw [hfound] at hlive
    cases hlive
  · have hfound : (fetched settings source t s).1 = .ok live := by rw [hfetched]
    rw [syncOutcome_of_fetched hfetched]
    cases hstop : stop t.name (syncDeeds settings source t s) with
    | some f =>
      refine ⟨fun _ hbreaks => ?_, fun _ => stop_isRefusal hstop⟩
      obtain ⟨_, _, -, hsucceeds, -⟩ := hbreaks
      have hnone : stop t.name (syncDeeds settings source t s) = none :=
        List.findSome?_eq_none_iff.2 fun d hd => Deed.failure?_eq_none.2 (hsucceeds d hd)
      rw [hstop] at hnone
      cases hnone
    | none =>
      constructor
      · rintro haccountable ⟨live', f, hlive, -, houtcome, hnot⟩
        rw [hfound] at hlive
        cases hlive
        rw [houtcome] at haccountable
        exact hnot haccountable
      · intro hnot
        refine .of_cases (fun _ _ => trivial) fun f hf => ?_
        by_contra hrefusal
        refine hnot ⟨live, f, hfound, fun d hd => ?_, hf, hrefusal⟩
        exact Deed.failure?_eq_none.1 (List.findSome?_eq_none_iff.1 hstop d hd)

/-- What a synchronization answers accounts for how it ended exactly when its plan does not break
it off. -/
theorem sync_accounts_iff (settings : Settings) (source : LiveSource) (t : Table) (s : Session) :
    ∃ r s', (sync settings source t).perform s = (.ok r, s') ∧
      (Accounts r ↔ ¬ BreaksOff settings source t s) := by
  obtain ⟨r, s', hs', -, hreports⟩ := sync_tells settings source t s
  obtain ⟨r', s'', hs'', hanswers, -⟩ := sync_spec settings source t s
  obtain ⟨hr, -⟩ := Prod.mk.inj (hs'.symm.trans hs'')
  cases hr
  refine ⟨r, s', hs', ?_⟩
  rw [← accountable_syncOutcome]
  have hfailure := hanswers.failure
  have herror := hanswers.error
  have hstate := hreports.failed
  cases houtcome : syncOutcome settings source t s with
  | ok state =>
    rw [houtcome] at hfailure herror
    have hnone : r.1.error = none :=
      Option.eq_none_iff_forall_ne_some.2 fun e he => nomatch (herror e).1 he
    refine ⟨fun _ => trivial, fun _ => .inl ⟨hfailure, fun hfailed => ?_, hnone⟩⟩
    have hsome := hstate.1 hfailed
    rw [hfailure] at hsome
    cases hsome
  | error f =>
    rw [houtcome] at hfailure herror
    have hfailed : r.1.state = .failed := hstate.2 (by rw [hfailure]; rfl)
    cases f with
    | refusal e =>
      exact ⟨fun _ => trivial, fun _ => .inr ⟨e, hfailure, hfailed, (herror e).2 rfl⟩⟩
    | _ =>
      refine ⟨fun haccounts => ?_, fun haccountable => haccountable.elim⟩
      rcases haccounts with ⟨hnone, -⟩ | ⟨e, hrefusal, -⟩
      · rw [hfailure] at hnone
        cases hnone
      · rw [hfailure] at hrefusal
        cases hrefusal

/-- A plan breaks nothing off when the declared table and what is found fit the operations. -/
theorem not_breaksOff (hregistered : t.Registered) (hfits : t.FitsOperations)
    (hlive : ∀ l, (fetched settings source t s).1 = .ok (some l) → l.FitsOperations) :
    ¬ BreaksOff settings source t s := by
  rintro ⟨live, f, hfound, -, houtcome, hnot⟩
  have hplan : Accountable (plan t settings.effectivePolicy live).outcome fun _ => True :=
    accountable_plan hregistered.wellFormed hregistered.named hfits
      fun l hl => hlive l (hl ▸ hfound)
  rw [houtcome] at hplan
  exact hnot hplan

/-- Every synchronization comes to its end, or it is refused and its result says so, unless all its
deeds succeed and its plan ends with another failure, which is told as no refusal; and no plan does
so when the declared table and the one that is found fit the operations that are made of them. -/
theorem sync_accounts (settings : Settings) (source : LiveSource) (s : Session) {t : Table}
    (hregistered : t.Registered) :
    ∃ r s', (sync settings source t).perform s = (.ok r, s') ∧
      (Accounts r ↔ ¬ BreaksOff settings source t s) ∧
      (t.FitsOperations →
        (∀ l, (fetched settings source t s).1 = .ok (some l) → l.FitsOperations) →
        Accounts r) := by
  obtain ⟨r, s', hs', haccounts⟩ := sync_accounts_iff settings source t s
  exact ⟨r, s', hs', haccounts, fun hfits hlive =>
    haccounts.2 (not_breaksOff hregistered hfits hlive)⟩

/-- The store fails at the second of four statements, and the run is refused. -/
theorem accounts_interrupted :
    viewed.Registered ∧ viewed.FitsOperations ∧ usersWithAge.FitsOperations ∧
    ∃ r s', (sync altering (.given (.ok (some usersWithAge))) viewed).perform interrupted =
      (.ok r, s') ∧ Accounts r := by
  have hregistered : viewed.Registered :=
    .inl ⟨.text "users", viewedDefinition, by with_unfolding_all rfl⟩
  have hfits : viewed.FitsOperations :=
    ⟨⟨by decide, by decide, fun _ h => (nomatch h)⟩, by decide, fun _ h => (nomatch h)⟩
  have hlive : usersWithAge.FitsOperations :=
    ⟨by decide, by decide, by decide, fun _ h => (nomatch h), fun _ h => (nomatch h)⟩
  obtain ⟨r, s', hs', -, haccounts⟩ :=
    sync_accounts altering (.given (.ok (some usersWithAge))) interrupted hregistered
  exact ⟨hregistered, hfits, hlive, r, s', hs', haccounts hfits fun l hl =>
    Option.some.inj (Except.ok.inj hl) ▸ hlive⟩

/-! ### A view whose name begins with a low line -/

/-- Users with an address, as a definition. -/
def addressedDefinition : Value := .map [
  (.text "fields", .map [(.text "id", .text "uuid"), (.text "name", .text "text"),
    (.text "email", .text "text")]),
  (.text "key", .list [.text "id"])]

/-- The table that `addressedDefinition` declares. -/
def addressed : Table where
  name := "users"
  fields := [{ name := "id", type := "uuid" }, { name := "name", type := "text" },
    { name := "email", type := "text" }]
  partitionKey := ["id"]
  clusteringKey := []
  clusteringOrder := []
  indexes := []
  customIndexes := []
  views := []
  defaultTtl := none
  hooks := []

/-- A live table of users without an address, and with a view that begins with a low line. -/
def usersInLowLine : LiveTable where
  table := "users"
  columns := [("id", { type := "uuid" }), ("name", { type := "text" })]
  partitionKey := ["id"]
  views := [("_by_name", usersByName)]

/-- The address is added, the drop of the view is approved, and then its name does not pass the
check: the run fails with no refusal, although nothing hinders it. -/
theorem not_accounts_lowLine :
    Table.ofDefinition (.text "users") addressedDefinition = .ok addressed ∧
    addressed.FitsOperations ∧
    Unhindered altering (.given (.ok (some usersInLowLine))) addressed {} (some usersInLowLine) ∧
    (syncDeeds altering (.given (.ok (some usersInLowLine))) addressed {}).filterMap Deed.call? =
      [⟨"ALTER TABLE \"users\" ADD \"email\" text;", [], .definition⟩] ∧
    ∃ r s', (sync altering (.given (.ok (some usersInLowLine))) addressed).perform {} =
      (.ok r, s') ∧ ¬ Accounts r := by
  have hrun : Unhindered altering (.given (.ok (some usersInLowLine))) addressed {}
      (some usersInLowLine) := ⟨rfl, .inr fun _ h => (nomatch h), fun _ h => (nomatch h)⟩
  have hsucceeds : ∀ d ∈ syncDeeds altering (.given (.ok (some usersInLowLine))) addressed {},
      d.succeeds := by
    rw [hrun.deeds_eq.1]
    intro d hd
    obtain ⟨m, -, rfl⟩ := List.mem_map.1 hd
    cases m <;> rfl
  obtain ⟨m, hm⟩ : ∃ m, (plan addressed .alter (some usersInLowLine)).outcome =
      .error (.malformed m) := ⟨_, by with_unfolding_all rfl⟩
  obtain ⟨r, s', hs', haccounts⟩ :=
    sync_accounts_iff altering (.given (.ok (some usersInLowLine))) addressed {}
  refine ⟨by with_unfolding_all rfl,
    ⟨⟨by decide, by decide, fun _ h => (nomatch h)⟩, by decide, fun _ h => (nomatch h)⟩, hrun,
    by with_unfolding_all rfl, r, s', hs', fun h => haccounts.1 h ?_⟩
  exact ⟨some usersInLowLine, .malformed m, hrun.found, hsucceeds, hm, id⟩

end Migration

end WideColumn
