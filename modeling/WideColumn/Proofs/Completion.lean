import WideColumn.Proofs.Agreement

/-!
# Plans that come to their end

A plan comes to its end when every statement of it passes the checks of its parts and all its names
are accepted. What is dropped has to be known by names of the kind that is accepted
(`LiveTable.Droppable`), and this stays so while things are taken away; what is created is what the
creation of the whole table creates, so that a plan for a table that can be created comes to its
end.
-/

namespace WideColumn

/-! ## Parts that pass their checks -/

/-- A name that is accepted as the name of a table or view. -/
def Name.NamesTable (name : String) : Prop :=
  isTable name = true ∧ name.length ≤ maxLength

instance (name : String) : Decidable (Name.NamesTable name) := inferInstanceAs (Decidable (_ ∧ _))

theorem Name.IsIdentifier.ne_empty {name : String} (h : IsIdentifier name) : name ≠ "" := by
  rintro rfl
  exact h.toList_ne_nil rfl

theorem Name.NamesTable.ne_empty {name : String} (h : NamesTable name) : name ≠ "" := by
  rintro rfl
  exact absurd h.1 (by decide)

namespace Coercion

theorem textWithin_text {s : String} (h : s ≠ "") : textWithin 1 none (.text s) = .ok s := by
  have hlength : ¬ s.length < 1 := by
    rw [Nat.lt_one_iff]
    simpa using h
  exact if_neg hlength

end Coercion

namespace Member

theorem tableText {name : String} (h : Name.NamesTable name) :
    Coercion.textWithin 1 (some Name.maxLength) (.text name) = .ok name := by
  have hshort : ¬ name.length < 1 := by
    rw [Nat.lt_one_iff]
    simpa using h.ne_empty
  exact (if_neg hshort).trans (if_neg (Nat.not_lt.2 h.2))

theorem tableName_text {name : String} (h : Name.NamesTable name) :
    tableName (.text name) = .ok name := by
  unfold tableName
  rw [tableText h]
  exact if_pos h.1

theorem viewName_text {name : String} (h : Name.NamesTable name) :
    viewName (.text name) = .ok name := by
  unfold viewName
  rw [tableText h]
  exact if_pos h.1

end Member

/-! ### Operations -/

section

variable {table column : String} (htable : Name.NamesTable table)

include htable

theorem TableRemoval.checked_eq : TableRemoval.checked { table } = .ok { table } := by
  unfold checked
  rw [Member.tableName_text htable]
  rfl

theorem ViewRemoval.checked_eq {view : String} (hview : Name.NamesTable view) :
    ViewRemoval.checked { table, view } = .ok { table, view } := by
  unfold checked
  rw [Member.tableName_text htable, Member.viewName_text hview]
  rfl

theorem IndexRemoval.checked_eq {name : String} (hname : name ≠ "") :
    IndexRemoval.checked { table, name } = .ok { table, name } := by
  unfold checked
  rw [Member.tableName_text htable, Coercion.textWithin_text hname]
  rfl

theorem IndexCreation.checked_eq {target : String} (htarget : target ≠ "") :
    IndexCreation.checked { table, target } = .ok { table, target } := by
  unfold checked
  rw [Member.tableName_text htable, Coercion.textWithin_text htarget]
  rfl

theorem CustomIndexCreation.checked_eq {implementation : String} {options : List (String × Value)}
    (hcolumn : column ≠ "") (himplementation : implementation ≠ "") :
    CustomIndexCreation.checked { table, column, implementation, options } =
      .ok { table, column, implementation, options } := by
  unfold checked
  rw [Member.tableName_text htable, Coercion.textWithin_text hcolumn,
    Coercion.textWithin_text himplementation]
  rfl

theorem ColumnChange.checked_drop (hcolumn : column ≠ "") :
    ColumnChange.checked { table, action := .drop, column } =
      .ok { table, action := .drop, column } := by
  unfold checked
  rw [Member.tableName_text htable, Coercion.textWithin_text hcolumn]
  rfl

/-- The check of a change that gives a column a type. -/
theorem ColumnChange.checked_typed {action : ColumnAction} {typeText : String} {isStatic : Bool}
    (haction : action ≠ .drop) (hcolumn : column ≠ "") (htype : typeText ≠ "") :
    ColumnChange.checked ⟨table, action, column, some typeText, isStatic⟩ =
      .ok ⟨table, action, column, some typeText, isStatic⟩ := by
  have htyped : (!typeText.isEmpty) = true := by simpa using htype
  unfold checked
  rw [Member.tableName_text htable, Coercion.textWithin_text hcolumn]
  change checkType _ _ = _
  unfold checkType
  cases action with
  | drop => exact absurd rfl haction
  | add => simp only [Option.getD_some, htyped]
  | retype => simp only [Option.getD_some, htyped]

end

/-! ## What can be dropped -/

/-- Everything of the live table can be dropped by its name: the names of columns and indexes are
identifiers, those of views are accepted, and each index has a name. -/
structure LiveTable.Droppable (l : LiveTable) : Prop where
  nodupViews : (Keyed.names l.views).Nodup
  nodupIndexes : l.indexes.Nodup
  nodupCustomIndexes : (Keyed.names l.customIndexes).Nodup
  columns : ∀ name ∈ Keyed.names l.columns, Name.IsIdentifier name
  views : ∀ view ∈ Keyed.names l.views, Name.NamesTable view
  targets : ∀ text ∈ l.indexes, ∃ target, IndexTarget.ofText text = .ok target
  indexes : ∀ text ∈ l.indexes, ∃ name, Keyed.get? l.indexNames text = some name ∧
    Name.IsIdentifier name
  customIndexes : ∀ key ∈ Keyed.names l.customIndexes, ∃ name,
    Keyed.get? l.customIndexNames key = some name ∧ Name.IsIdentifier name

namespace LiveTable.Droppable

variable {l : LiveTable}

theorem withoutView (h : l.Droppable) (view : String) : (l.withoutView view).Droppable :=
  ⟨Keyed.nodup_erase h.nodupViews, h.nodupIndexes, h.nodupCustomIndexes, h.columns,
    fun v hv => h.views v (Keyed.mem_names_erase.1 hv).1, h.targets, h.indexes, h.customIndexes⟩

theorem withoutIndex (h : l.Droppable) (text : String) : (l.withoutIndex text).Droppable := by
  refine ⟨h.nodupViews, h.nodupIndexes.filter _, h.nodupCustomIndexes, h.columns, h.views,
    fun other hother => h.targets other (List.mem_filter.1 hother).1, fun other hother => ?_,
    h.customIndexes⟩
  obtain ⟨hmem, hne⟩ := List.mem_filter.1 hother
  obtain ⟨name, hname, hidentifier⟩ := h.indexes other hmem
  exact ⟨name, (Keyed.get?_erase_of_ne (bne_iff_ne.1 hne)).trans hname, hidentifier⟩

theorem withoutCustomIndex (h : l.Droppable) (key : String) :
    (l.withoutCustomIndex key).Droppable := by
  refine ⟨h.nodupViews, h.nodupIndexes, Keyed.nodup_erase h.nodupCustomIndexes, h.columns, h.views,
    h.targets, h.indexes, fun other hother => ?_⟩
  obtain ⟨hmem, hne⟩ := Keyed.mem_names_erase.1 hother
  obtain ⟨name, hname, hidentifier⟩ := h.customIndexes other hmem
  exact ⟨name, (Keyed.get?_erase_of_ne hne).trans hname, hidentifier⟩

theorem withColumn (h : l.Droppable) {name : String} (hname : Name.IsIdentifier name) (c : Column) :
    (l.withColumn name c).Droppable := by
  refine ⟨h.nodupViews, h.nodupIndexes, h.nodupCustomIndexes, fun other hother => ?_, h.views,
    h.targets, h.indexes, h.customIndexes⟩
  rcases Keyed.mem_names_put.1 hother with rfl | hother
  · exact hname
  · exact h.columns other hother

theorem withoutColumn (h : l.Droppable) (name : String) : (l.withoutColumn name).Droppable :=
  ⟨h.nodupViews, h.nodupIndexes, h.nodupCustomIndexes,
    fun other hother => h.columns other (Keyed.mem_names_erase.1 hother).1, h.views, h.targets,
    h.indexes, h.customIndexes⟩

end LiveTable.Droppable

namespace Migration

open Draft

variable {t : Table} {l : LiveTable}

/-! ## Dropping -/

section

variable (htable : Name.NamesTable t.name)

include htable

theorem ends_dropView {view : String} (hview : Name.NamesTable view) :
    Ends (dropView t l view) (· = l.withoutView view) := by
  obtain ⟨i, hi⟩ := Name.accepts_table hview.1
  have haccept : (Ddl.dropView view true).accept = .ok (.dropView i true) := by
    simp only [Ddl.accept, hi]
    rfl
  exact Ends.bind ⟨(), Ends.send (ViewRemoval.checked_eq htable hview) rfl haccept, Ends.pure rfl⟩

theorem ends_sendIndexDrop {step name : String} (hname : Name.IsIdentifier name) :
    (sendIndexDrop t step name).outcome = .ok () := by
  obtain ⟨i, hi⟩ := hname.ofText
  have haccept : (Ddl.dropIndex name true).accept = .ok (.dropIndex i true) := by
    simp only [Ddl.accept, hi]
    rfl
  exact Ends.send (IndexRemoval.checked_eq htable hname.ne_empty) rfl haccept

theorem ends_dropIndex {text : String} (h : l.Droppable) (hmem : text ∈ l.indexes) :
    Ends (dropIndex t l text) (· = l.withoutIndex text) := by
  obtain ⟨name, hname, hidentifier⟩ := h.indexes text hmem
  unfold dropIndex
  rw [hname]
  exact Ends.bind ⟨(), ends_sendIndexDrop htable hidentifier, Ends.pure rfl⟩

theorem ends_dropCustomIndex {key : String} (h : l.Droppable)
    (hmem : key ∈ Keyed.names l.customIndexes) :
    Ends (dropCustomIndex t l key) (· = l.withoutCustomIndex key) := by
  obtain ⟨name, hname, hidentifier⟩ := h.customIndexes key hmem
  unfold dropCustomIndex
  rw [hname]
  exact Ends.bind ⟨(), ends_sendIndexDrop htable hidentifier, Ends.pure rfl⟩

omit htable in
/-- Drops of distinct things one after the other, each of which leaves the others. -/
theorem ends_foldl {f : LiveTable → String → Draft LiveTable} {g : LiveTable → String → LiveTable}
    (there : LiveTable → String → Prop)
    (hstep : ∀ l x, l.Droppable → there l x → Ends (f l x) (· = g l x))
    (hdroppable : ∀ l x, l.Droppable → (g l x).Droppable)
    (hothers : ∀ l x y, x ≠ y → there l y → there (g l x) y) :
    ∀ {xs : List String} {l : LiveTable}, l.Droppable → xs.Nodup → (∀ x ∈ xs, there l x) →
      Ends (xs.foldlM f l) fun l' => l' = xs.foldl g l ∧ l'.Droppable
  | [], _, h, _, _ => Ends.pure ⟨rfl, h⟩
  | x :: xs, l, h, hnodup, hthere => by
    obtain ⟨hx, hxs⟩ := List.nodup_cons.1 hnodup
    rw [List.foldlM_cons]
    refine Ends.bind ((hstep l x h (hthere x List.mem_cons_self)).mono ?_)
    rintro _ rfl
    refine ends_foldl there hstep hdroppable hothers (hdroppable l x h) hxs fun y hy => ?_
    exact hothers l x y (fun hxy => hx (hxy ▸ hy)) (hthere y (List.mem_cons_of_mem x hy))

theorem ends_dropViews {views : List String} (h : l.Droppable) (hnodup : views.Nodup)
    (hmem : ∀ view ∈ views, view ∈ Keyed.names l.views) :
    Ends (views.foldlM (dropView t) l) fun l' =>
      l' = views.foldl LiveTable.withoutView l ∧ l'.Droppable :=
  ends_foldl (fun l view => view ∈ Keyed.names l.views)
    (fun _ view h hmem => ends_dropView htable (h.views view hmem))
    (fun _ view h => h.withoutView view)
    (fun _ _ _ hne hmem => Keyed.mem_names_erase.2 ⟨hmem, Ne.symm hne⟩) h hnodup hmem

omit htable in
/-- Distinct things of a table that can be taken apart are dropped when each part ends well. -/
theorem ends_dropEach {view index customIndex : LiveTable → String → Draft LiveTable}
    {ds : Dependents}
    (hview : ∀ l x, l.Droppable → x ∈ Keyed.names l.views → Ends (view l x) (· = l.withoutView x))
    (hindex : ∀ l x, l.Droppable → x ∈ l.indexes → Ends (index l x) (· = l.withoutIndex x))
    (hcustomIndex : ∀ l x, l.Droppable → x ∈ Keyed.names l.customIndexes →
      Ends (customIndex l x) (· = l.withoutCustomIndex x))
    (h : l.Droppable) (hds : l.Holds ds) :
    Ends (dropEach view index customIndex ds l) LiveTable.Droppable := by
  refine Ends.bind ((ends_foldl (fun l view => view ∈ Keyed.names l.views) hview
    (fun _ view h => h.withoutView view)
    (fun _ _ _ hne hmem => Keyed.mem_names_erase.2 ⟨hmem, Ne.symm hne⟩) h hds.nodupViews
    hds.views).mono ?_)
  rintro _ ⟨rfl, h₁⟩
  refine Ends.bind ((ends_foldl (fun l text => text ∈ l.indexes) hindex
    (fun _ text h => h.withoutIndex text)
    (fun _ _ _ hne hmem => List.mem_filter.2 ⟨hmem, bne_iff_ne.2 (Ne.symm hne)⟩) h₁
    hds.nodupIndexes fun text htext => ?_).mono ?_)
  · rw [LiveTable.foldl_withoutView]
    exact hds.indexes text htext
  rintro _ ⟨rfl, h₂⟩
  refine (ends_foldl (fun l key => key ∈ Keyed.names l.customIndexes) hcustomIndex
    (fun _ key h => h.withoutCustomIndex key)
    (fun _ _ _ hne hmem => Keyed.mem_names_erase.2 ⟨hmem, Ne.symm hne⟩) h₂
    hds.nodupCustomIndexes fun key hkey => ?_).mono fun _ h₃ => h₃.2
  rw [LiveTable.foldl_withoutIndex, LiveTable.foldl_withoutView]
  exact hds.customIndexes key hkey

/-- What depends on a column can be dropped. -/
theorem ends_dropDependents {column : String} (h : l.Droppable) :
    Ends (dropDependents t l column) LiveTable.Droppable := by
  obtain ⟨ds, hds⟩ := l.dependentsOf_reads column h.targets
  rw [dropDependents_eq]
  exact Ends.bind (Ends.lift hds (ends_dropEach
    (fun _ view h hmem => ends_dropView htable (h.views view hmem))
    (fun _ _ h hmem => ends_dropIndex htable h hmem)
    (fun _ _ h hmem => ends_dropCustomIndex htable h hmem) h
    (LiveTable.holds_dependents hds h.nodupViews h.nodupIndexes h.nodupCustomIndexes)))

/-- What is not declared can be dropped. -/
theorem ends_dropUndeclared {d : SchemaDiff} (h : l.Droppable) (hd : l.Holds d.removed) :
    Ends (dropUndeclared t d l) LiveTable.Droppable := by
  refine ends_dropEach (fun _ view h hmem => Ends.bind (Ends.ask
      (ends_dropView htable (h.views view hmem))))
    (fun _ _ h hmem => Ends.bind (Ends.ask (ends_dropIndex htable h hmem)))
    (fun l key h hmem => ?_) h hd
  obtain ⟨i, hi⟩ := Option.isSome_iff_exists.1 (Keyed.get?_isSome.2 hmem)
  unfold dropUndeclaredCustomIndex
  rw [hi]
  exact Ends.bind (Ends.ask (ends_dropCustomIndex htable h hmem))

/-! ## Columns -/

theorem ends_removeColumn {name : String} (h : l.Droppable) (hname : Name.IsIdentifier name) :
    Ends (removeColumn t l name) LiveTable.Droppable := by
  obtain ⟨table, htableName⟩ := Name.accepts_table htable.1
  obtain ⟨i, hi⟩ := hname.ofText
  have haccept : (Ddl.dropColumn t.name name).accept = .ok (.dropColumn table i) := by
    simp only [Ddl.accept, htableName, hi]
    rfl
  refine Ends.bind ((ends_dropDependents htable h).mono fun l' h' => ?_)
  exact Ends.bind ⟨(), Ends.send (ColumnChange.checked_drop htable hname.ne_empty) rfl haccept,
    Ends.pure (h'.withoutColumn name)⟩

theorem ends_addColumn {name : String} {c : Column} (hname : Name.IsIdentifier name)
    (htype : c.typeText ≠ "") : Ends (addColumn t l name c) (· = l.withColumn name c) := by
  obtain ⟨table, htableName⟩ := Name.accepts_table htable.1
  obtain ⟨i, hi⟩ := hname.ofText
  have haccept : (Ddl.addColumn t.name name c.typeText c.isStatic).accept =
      .ok (.addColumn table i c.typeText c.isStatic) := by
    simp only [Ddl.accept, htableName, hi]
    rfl
  exact Ends.bind ⟨(), Ends.send (ColumnChange.checked_typed htable (by decide) hname.ne_empty htype)
    rfl haccept, Ends.pure rfl⟩

theorem ends_retypeColumn {name : String} {c : Column} (hname : Name.IsIdentifier name)
    (htype : c.typeText ≠ "") : Ends (retypeColumn t l name c) (· = l.withColumn name c) := by
  obtain ⟨table, htableName⟩ := Name.accepts_table htable.1
  obtain ⟨i, hi⟩ := hname.ofText
  have haccept : (Ddl.retypeColumn t.name name c.typeText).accept =
      .ok (.retypeColumn table i c.typeText) := by
    simp only [Ddl.accept, htableName, hi]
    rfl
  exact Ends.bind ⟨(), Ends.send (ColumnChange.checked_typed htable (by decide) hname.ne_empty htype)
    rfl haccept, Ends.pure rfl⟩

end

end Migration

end WideColumn
