import WideColumn.Proofs.Ending

/-!
# What every plan preserves

A condition that every statement preserves is preserved by every plan (`Watch.Preserves.plan`), and
one that every statement but the drop of the table preserves is preserved by all parts of a plan
that do not create the table anew (`Watch.PreservesTable`). All that is said of the statements is
which names they have (`Ddl.IsFor`): the table stands in them under its declared name, and views are
created under declared names, as these are written. What is written for a view is an identifier,
whatever the declared name is. So the views of the simulated store have identifiers for names when
those of the live table have, and a declared view whose name is not written as it is never gets
there.
-/

namespace WideColumn

/-- The name is accepted for a declared view. -/
def Table.HasView (t : Table) (view : Identifier) : Prop :=
  ∃ name ∈ Keyed.names t.views, Name.isTable name = true ∧ Identifier.ofText name = .ok view

/-- The definition is of the table, whose name is accepted, and a view that it creates is declared.
Indexes and views are dropped under the names that the live table has for them. -/
def Ddl.IsFor (t : Table) : Ddl Identifier → Prop
  | createTable table _ _ | dropTable table _ | addColumn table _ _ _ | dropColumn table _
  | retypeColumn table _ _ | createIndex table _ | createCustomIndex table _ _ _ =>
    Identifier.ofText t.name = .ok table
  | createView view table _ _ => Identifier.ofText t.name = .ok table ∧ t.HasView view
  | dropIndex _ _ | dropView _ _ => True

/-- Whatever is asked or sent in a state that satisfies the condition is allowed and preserves
it. -/
structure Watch.Preserves {σ : Type} (w : Watch σ) (t : Table) (inv : σ → Prop) : Prop where
  ask : ∀ s q, inv s → w.allowsAsk s q ∧ inv (w.onAsk s q)
  send : ∀ s statement, inv s → statement.IsFor t →
    w.allows s statement ∧ inv (w.onSend s statement)

/-- So is whatever is asked or sent as long as the table is not dropped. -/
structure Watch.PreservesTable {σ : Type} (w : Watch σ) (t : Table) (inv : σ → Prop) : Prop where
  ask : ∀ s q, inv s → w.allowsAsk s q ∧ inv (w.onAsk s q)
  send : ∀ s statement, inv s → statement.IsFor t → statement.kind ≠ .dropTable →
    w.allows s statement ∧ inv (w.onSend s statement)

open Draft Migration

/-! ## Parts that do not drop the table -/

namespace Watch.PreservesTable

variable {σ : Type} {w : Watch σ} {t : Table} {inv : σ → Prop} (hw : w.PreservesTable t inv)
  {s : σ} {l : LiveTable}

include hw

theorem asking {α : Type} {q : Question} {d : Draft α} {post : α → σ → Prop}
    (hd : ∀ s, inv s → Keeps w s d post) (h : inv s) :
    Keeps w s (Draft.ask q >>= fun _ => d) post :=
  Keeps.bind (Keeps.ask (hw.ask s q h).1 (hd _ (hw.ask s q h).2))

theorem createIndex {text : String} (h : inv s) :
    Keeps w s (createIndex t text) fun _ => inv :=
  Keeps.createIndex fun _ _ htable _ => hw.send s _ h htable nofun

theorem createCustomIndex {i : CustomIndex} (h : inv s) :
    Keeps w s (createCustomIndex t i) fun _ => inv :=
  Keeps.createCustomIndex fun _ _ _ htable _ _ => hw.send s _ h htable nofun

theorem createView {name : String} {v : View} (hname : name ∈ Keyed.names t.views) (h : inv s) :
    Keeps w s (createView t name v) fun _ => inv :=
  Keeps.createView fun _ _ _ _ hview haccepted htable _ _ =>
    hw.send s _ h ⟨htable, name, hname, haccepted, hview⟩ nofun

theorem createAll (h : inv s) : Keeps w s (createAll t) fun _ => inv := by
  refine Keeps.bind (Keeps.createTable fun _ _ _ htable _ _ => ?_)
  obtain ⟨hallows, h⟩ := hw.send s (.createTable _ _ _) h htable nofun
  refine ⟨hallows, Keeps.bind ((Keeps.forM inv (fun _ _ _ => hw.createIndex) h).mono
    fun _ _ h => Keeps.bind (Keeps.lift fun shape _ => ?_))⟩
  refine Keeps.bind ((Keeps.forM inv (fun _ _ _ => hw.createCustomIndex) h).mono fun _ _ h => ?_)
  exact Keeps.forM inv (fun e he _ => hw.createView (List.mem_map_of_mem he)) h

theorem dropView {view : String} (h : inv s) : Keeps w s (dropView t l view) fun _ => inv :=
  Keeps.dropView fun _ _ _ => hw.send s _ h trivial nofun

theorem dropIndex {text : String} (h : inv s) : Keeps w s (dropIndex t l text) fun _ => inv :=
  Keeps.dropIndex fun _ _ _ _ => hw.send s _ h trivial nofun

theorem dropCustomIndex {key : String} (h : inv s) :
    Keeps w s (dropCustomIndex t l key) fun _ => inv :=
  Keeps.dropCustomIndex fun _ _ _ _ => hw.send s _ h trivial nofun

theorem dropViews {views : List String} (h : inv s) :
    Keeps w s (views.foldlM (Migration.dropView t) l) fun _ => inv :=
  Keeps.foldlM_inv (fun _ => inv) (fun _ _ _ _ => hw.dropView) h

theorem dropDependents {column : String} (h : inv s) :
    Keeps w s (dropDependents t l column) fun _ => inv := by
  rw [dropDependents_eq]
  exact Keeps.bind (Keeps.lift fun ds _ => Keeps.dropEach (fun _ => inv)
    (fun _ _ _ _ => hw.dropView) (fun _ _ _ _ => hw.dropIndex)
    (fun _ _ _ _ => hw.dropCustomIndex) h)

theorem addColumn {name : String} {c : Column} (h : inv s) :
    Keeps w s (addColumn t l name c) fun _ => inv :=
  Keeps.addColumn fun _ _ htable _ => hw.send s _ h htable nofun

theorem removeColumn {name : String} (h : inv s) :
    Keeps w s (removeColumn t l name) fun _ => inv :=
  Keeps.removeColumn ((hw.dropDependents h).mono
    fun _ s h _ _ htable _ => hw.send s _ h htable nofun)

theorem retypeColumn {name : String} {c : Column} (h : inv s) :
    Keeps w s (retypeColumn t l name c) fun _ => inv :=
  Keeps.retypeColumn fun _ _ htable _ => hw.send s _ h htable nofun

/-- A difference is applied so when it is applied so by creating the table anew; there is no table
left to alter then. -/
theorem applyDiff {e : ColumnDiff} {anew : σ → Prop}
    (hanew : ∀ s, inv s → Keeps w s (recreate t l) fun _ => anew) (h : inv s) :
    Keeps w s (applyDiff t l e) fun l? s => if l?.isSome then inv s else anew s := by
  have hasked := fun q => (hw.ask s q h).2
  exact Keeps.applyDiff (fun q => (hw.ask s q h).1)
    (fun _ _ _ => hw.addColumn (hasked _)) (fun _ _ _ => hw.removeColumn (hasked _))
    (fun _ _ _ _ _ _ => hw.retypeColumn (hasked _)) (fun _ _ _ _ _ _ _ => hanew _ (hasked _))
    fun _ _ _ _ _ _ _ => (hw.removeColumn (hasked _)).mono fun _ _ => hw.addColumn

theorem applyDiffs {anew : σ → Prop}
    (hanew : ∀ l s, inv s → Keeps w s (recreate t l) fun _ => anew) :
    ∀ {ds : List ColumnDiff} {l : LiveTable} {s : σ}, inv s →
      Keeps w s (applyDiffs t l ds) fun l? s => if l?.isSome then inv s else anew s
  | [], _, _, h => Keeps.pure h
  | e :: ds, l, s, h => by
    refine Keeps.bind ((hw.applyDiff (hanew l) h).mono fun l? _ h => ?_)
    cases l? with
    | none => exact Keeps.pure h
    | some l' => exact applyDiffs hanew h

theorem dropUndeclaredCustomIndex {key : String} (h : inv s) :
    Keeps w s (dropUndeclaredCustomIndex t l key) fun _ => inv := by
  unfold Migration.dropUndeclaredCustomIndex
  cases Keyed.get? l.customIndexes key with
  | none => exact Keeps.fail
  | some i => exact hw.asking (fun _ => hw.dropCustomIndex) h

theorem createDeclaredCustomIndex {shape : TableShape} {key : String} (h : inv s) :
    Keeps w s (createDeclaredCustomIndex t shape key) fun _ => inv := by
  unfold Migration.createDeclaredCustomIndex
  cases Keyed.get? shape.customIndexes key with
  | none => exact Keeps.fail
  | some i => exact hw.createCustomIndex h

theorem createDeclaredView {name : String} (h : inv s) :
    Keeps w s (createDeclaredView t name) fun _ => inv := by
  unfold Migration.createDeclaredView
  cases hv : t.view? name with
  | none => exact Keeps.fail
  | some v => exact hw.createView (Keyed.mem_names_of_mem (Keyed.mem_of_get? hv)) h

theorem createMissing {d : SchemaDiff} (h : inv s) :
    Keeps w s (createMissing t d) fun _ => inv := by
  refine Keeps.bind (Keeps.lift fun shape _ => ?_)
  refine Keeps.bind ((Keeps.forM inv (fun _ _ _ => hw.createIndex) h).mono fun _ _ h => ?_)
  refine Keeps.bind ((Keeps.forM inv (fun _ _ _ => hw.createDeclaredCustomIndex) h).mono
    fun _ _ h => ?_)
  exact Keeps.forM inv (fun _ _ _ => hw.createDeclaredView) h

theorem reconcile (h : inv s) : Keeps w s (reconcile t l) fun _ => inv :=
  Keeps.reconcile fun _ _ => (Keeps.dropEach (fun _ => inv)
    (fun _ _ _ _ => hw.asking fun _ => hw.dropView)
    (fun _ _ _ _ => hw.asking fun _ => hw.dropIndex)
    (fun _ _ _ _ => hw.dropUndeclaredCustomIndex) h).mono fun _ _ => hw.createMissing

end Watch.PreservesTable

/-! ## Plans -/

namespace Watch.Preserves

variable {σ : Type} {w : Watch σ} {t : Table} {inv : σ → Prop} (hw : w.Preserves t inv) {s : σ}
  {l : LiveTable}

include hw

theorem preservesTable : w.PreservesTable t inv where
  ask := hw.ask
  send s statement h hstatement _ := hw.send s statement h hstatement

theorem recreate (h : inv s) : Keeps w s (recreate t l) fun _ => inv := by
  refine Keeps.bind ((hw.preservesTable.dropViews h).mono fun _ s h => ?_)
  refine Keeps.bind (Keeps.dropTable fun _ htable => ?_)
  obtain ⟨hallows, h⟩ := hw.send s (.dropTable _ _) h htable
  exact ⟨hallows, hw.preservesTable.createAll h⟩

theorem recreateAsking (h : inv s) : Keeps w s (recreateAsking t l) fun _ => inv :=
  hw.preservesTable.asking
    (fun _ h => Keeps.bind ((hw.recreate h).mono fun _ _ h => Keeps.pure h)) h

theorem alter {d : SchemaDiff} (h : inv s) : Keeps w s (alter t l d) fun _ => inv := by
  refine Keeps.bind ((hw.preservesTable.applyDiffs (fun _ _ => hw.recreate) h).mono
    fun l? _ h => ?_)
  cases l? with
  | none => exact Keeps.pure h
  | some l' => exact Keeps.bind ((hw.preservesTable.reconcile h).mono fun _ _ h => Keeps.pure h)

/-- What every statement preserves, every plan preserves. -/
theorem plan (policy : Policy) (live : Option LiveTable) (h : inv s) :
    Keeps w s (plan t policy live) fun _ => inv := by
  cases live with
  | none => exact Keeps.bind ((hw.preservesTable.createAll h).mono fun _ _ h => Keeps.pure h)
  | some l =>
    refine Keeps.bind (Keeps.lift fun d _ => ?_)
    split
    · exact Keeps.pure h
    cases policy with
    | safe => exact Keeps.fail
    | drop => exact hw.recreateAsking h
    | alter =>
      dsimp only
      split
      · exact hw.recreateAsking h
      · exact hw.alter h

end Watch.Preserves

/-! ## The views of the store -/

namespace Simulated

/-- The watch that follows the simulated store and allows everything. -/
def follow (naming : String → String) : Watch Simulated where
  onAsk s _ := s
  allows _ _ := True
  onSend s statement := s.after naming statement

/-- The views of the store have identifiers for names. -/
def NamesViews (s : Simulated) : Prop :=
  ∀ l, s.table? = some l → ∀ view ∈ Keyed.names l.views, Name.IsIdentifier view

/-- A statement for the table leaves the views under identifiers. -/
theorem NamesViews.after {naming : String → String} {t : Table} {s : Simulated}
    {statement : Ddl Identifier} (h : s.NamesViews) (hstatement : statement.IsFor t) :
    (s.after naming statement).NamesViews := by
  intro l hl
  change statement.apply naming s.table? = some l at hl
  -- all but creating a table and a view leaves a part of the names
  have hmapped : ∀ {f : LiveTable → LiveTable}, s.table?.map f = some l →
      (∀ l, (Keyed.names (f l).views) ⊆ Keyed.names l.views) →
      ∀ view ∈ Keyed.names l.views, Name.IsIdentifier view := by
    intro f hf hsubset view hview
    obtain ⟨l', hl', rfl⟩ := Option.map_eq_some_iff.1 hf
    exact h l' hl' view (hsubset l' hview)
  cases statement with
  | createTable table columns key =>
    cases htable : s.table? with
    | none =>
      simp only [Ddl.apply, htable] at hl
      cases hl
      exact fun view hview => absurd hview List.not_mem_nil
    | some l' =>
      simp only [Ddl.apply, htable] at hl
      cases hl
      exact h l htable
  | dropTable table ifExists => cases hl
  | addColumn table column typeText isStatic => exact hmapped hl fun _ _ h => h
  | dropColumn table column => exact hmapped hl fun _ _ h => h
  | retypeColumn table column typeText => exact hmapped hl fun _ _ h => h
  | createIndex table target => exact hmapped hl fun _ _ h => h
  | createCustomIndex table column implementation options => exact hmapped hl fun _ _ h => h
  | dropIndex name ifExists =>
    refine hmapped hl fun l' view hview => ?_
    unfold LiveTable.withoutIndexNamed at hview
    split at hview
    · exact hview
    · split at hview <;> exact hview
  | createView view table select key =>
    obtain ⟨l', hl', rfl⟩ := Option.map_eq_some_iff.1 hl
    intro name hname
    rcases Keyed.mem_names_put.1 hname with rfl | hname
    · obtain ⟨-, declared, -, haccepted, hview⟩ := hstatement
      rw [Identifier.ofText_text hview]
      exact Name.isIdentifier_spelled haccepted
    · exact h l' hl' name hname
  | dropView view ifExists => exact hmapped hl fun _ _ h => (Keyed.mem_names_erase.1 h).1

theorem follow_preserves (naming : String → String) (t : Table) :
    (follow naming).Preserves t NamesViews where
  ask _ _ h := ⟨trivial, h⟩
  send _ _ h hstatement := ⟨trivial, h.after hstatement⟩

end Simulated

end WideColumn
