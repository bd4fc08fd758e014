import WideColumn.Schema.Definition
import WideColumn.Proofs.Live
import WideColumn.Proofs.Naming
import WideColumn.Proofs.Shape
import WideColumn.Proofs.Sending
import WideColumn.Proofs.Run

/-!
# Nothing is altered or dropped unasked

Every statement of a migration that alters or drops something is sent under the last question that
was put, that question was approved, and it asks for the change that the statement was made for:
`Question.AsksFor` says for which definitions a question asks. The definition is over names as they
are known; the statement has them as they were accepted, without blanks around them and without
double quotes, so that it makes the very change that was asked for exactly when the names are
written as they are (`Ddl.spelled_eq_iff`).

The property is kept by every part of a plan (`Migration.keeps_plan`): the state that is watched is
the question that was put last, and the part of the live table that is still there is a part of
what was found (`LiveTable.Within`).
-/

namespace WideColumn

/-! ## What is written -/

namespace Ddl

/-- The statement alters the table, or drops it or something of it. -/
def altersOrDrops {ν : Type} (d : Ddl ν) : Bool :=
  [StatementKind.alterTable, .dropIndex, .dropView, .dropTable].contains d.kind

/-- The names that a definition alters or drops. -/
def changedNames : Ddl String → List String
  | addColumn table column _ _ | dropColumn table column | retypeColumn table column _ =>
    [table, column]
  | dropTable name _ | dropIndex name _ | dropView name _ => [name]
  | _ => []

/-- A statement that alters or drops something, over the names that are written. -/
def spelled? : Ddl Identifier → Option (Ddl String)
  | addColumn table column typeText isStatic =>
    some (.addColumn table.text column.text typeText isStatic)
  | dropColumn table column => some (.dropColumn table.text column.text)
  | retypeColumn table column typeText => some (.retypeColumn table.text column.text typeText)
  | dropTable table ifExists => some (.dropTable table.text ifExists)
  | dropIndex name ifExists => some (.dropIndex name.text ifExists)
  | dropView view ifExists => some (.dropView view.text ifExists)
  | _ => none

/-- What is written is the definition that was accepted exactly when its names are plain. -/
theorem spelled_eq_iff {d : Ddl String} {statement : Ddl Identifier}
    (haccept : d.accept = .ok statement) (hchanges : statement.altersOrDrops) :
    statement.spelled? = some d ↔ ∀ name ∈ d.changedNames, Name.IsPlain name := by
  cases d with
  | addColumn table column typeText isStatic =>
    obtain ⟨i, c, hi, hc, rfl⟩ := accept_addColumn haccept
    simp [spelled?, changedNames, Identifier.text_eq_iff hi, Identifier.text_eq_iff hc]
  | dropColumn table column =>
    obtain ⟨i, c, hi, hc, rfl⟩ := accept_dropColumn haccept
    simp [spelled?, changedNames, Identifier.text_eq_iff hi, Identifier.text_eq_iff hc]
  | retypeColumn table column typeText =>
    obtain ⟨i, c, hi, hc, rfl⟩ := accept_retypeColumn haccept
    simp [spelled?, changedNames, Identifier.text_eq_iff hi, Identifier.text_eq_iff hc]
  | dropTable table ifExists =>
    obtain ⟨i, hi, rfl⟩ := accept_dropTable haccept
    simp [spelled?, changedNames, Identifier.text_eq_iff hi]
  | dropIndex name ifExists =>
    obtain ⟨i, hi, rfl⟩ := accept_dropIndex haccept
    simp [spelled?, changedNames, Identifier.text_eq_iff hi]
  | dropView view ifExists =>
    obtain ⟨i, hi, rfl⟩ := accept_dropView haccept
    simp [spelled?, changedNames, Identifier.text_eq_iff hi]
  | createIndex table target =>
    obtain ⟨i, -, rfl⟩ := accept_createIndex haccept
    cases hchanges
  | createCustomIndex table column implementation options =>
    obtain ⟨i, c, -, -, rfl⟩ := accept_createCustomIndex haccept
    cases hchanges
  | createView view table select key =>
    obtain ⟨v, i, columns, k, -, -, -, -, rfl⟩ := accept_createView haccept
    cases hchanges
  | createTable table columns key =>
    obtain ⟨i, cs, k, -, -, -, rfl⟩ := accept_createTable haccept
    cases hchanges

end Ddl

/-! ## What a question asks for -/

/-- The definition drops something of the live table that refers to a column: a view, an index or a
custom index. -/
inductive LiveTable.DropsDependent (live : LiveTable) (column : String) : Ddl String → Prop
  | view {name : String} {v : View} (hmem : (name, v) ∈ live.views)
      (hdepends : v.dependsOn column = true) : DropsDependent live column (.dropView name true)
  | index {text name : String} {target : IndexTarget} (hmem : text ∈ live.indexes)
      (htarget : IndexTarget.ofText text = .ok target) (hcolumn : target.column = column)
      (hname : Keyed.get? live.indexNames text = some name) :
      DropsDependent live column (.dropIndex name true)
  | customIndex {key name : String} {i : CustomIndex} (hmem : (key, i) ∈ live.customIndexes)
      (hcolumn : i.column = column) (hname : Keyed.get? live.customIndexNames key = some name) :
      DropsDependent live column (.dropIndex name true)

/-- The question asks for the definition: for the addition, removal or retyping of a column, where a
removal takes what refers to the column with it; for the drop of one index or view; or for the drop
of the whole table, which takes its views with it. -/
inductive Question.AsksFor (t : Table) (live : LiveTable) : Question → Ddl String → Prop
  | add (column : String) (new : Column) : AsksFor t live (.addColumn column new)
      (.addColumn t.name column new.typeText new.isStatic)
  | remove (column : String) : AsksFor t live (.removeColumn column) (.dropColumn t.name column)
  | removeDependent {column : String} {d : Ddl String} (h : live.DropsDependent column d) :
      AsksFor t live (.removeColumn column) d
  | retype (column : String) (old new : Column) : AsksFor t live (.retypeColumn column old new)
      (.retypeColumn t.name column new.typeText)
  | replaceOld (column : String) (old new : Column) : AsksFor t live
      (.replaceColumn column old new) (.dropColumn t.name column)
  | replaceDependent {column : String} {old new : Column} {d : Ddl String}
      (h : live.DropsDependent column d) : AsksFor t live (.replaceColumn column old new) d
  | replaceNew (column : String) (old new : Column) : AsksFor t live
      (.replaceColumn column old new) (.addColumn t.name column new.typeText new.isStatic)
  | changeKey (column : String) (old new : Column) : AsksFor t live (.changeKey column old new)
      (.dropTable t.name true)
  | changeKeyView {view column : String} {old new : Column} (h : view ∈ Keyed.names live.views) :
      AsksFor t live (.changeKey column old new) (.dropView view true)
  | recreate : AsksFor t live .recreateTable (.dropTable t.name true)
  | recreateView {view : String} (h : view ∈ Keyed.names live.views) :
      AsksFor t live .recreateTable (.dropView view true)
  | dropView {view : String} (h : view ∈ Keyed.names live.views) :
      AsksFor t live (.dropDependent "materialized view" view) (.dropView view true)
  | dropIndex {text name : String} (h : Keyed.get? live.indexNames text = some name) :
      AsksFor t live (.dropDependent "index" text) (.dropIndex name true)
  | dropCustomIndex {key name : String} {i : CustomIndex} (hmem : (key, i) ∈ live.customIndexes)
      (hname : Keyed.get? live.customIndexNames key = some name) :
      AsksFor t live (.dropDependent "custom index" i.column) (.dropIndex name true)

/-! ## Every part of a plan keeps to the question that was put last -/

/-- The watch of the last question: what alters or drops something has to be asked for by it. -/
def guarded (t : Table) (live : LiveTable) : Watch (Option Question) where
  onAsk _ q := some q
  allows last statement := statement.altersOrDrops → ∃ q d, last = some q ∧
    q.AsksFor t live d ∧ d.accept = .ok statement
  onSend last _ := last

namespace Migration

open Draft

variable {t : Table} {live l : LiveTable} {q : Question} {last : Option Question}

/-- The part that is left is of the live table, and the last question stays the same. -/
def StillUnder (live : LiveTable) (q : Question) (l : LiveTable) (last : Option Question) : Prop :=
  l.Within live ∧ last = some q

/-- A view is dropped under a question that asks for it. -/
theorem keeps_dropView {view : String} (hwithin : l.Within live)
    (h : q.AsksFor t live (.dropView view true)) :
    Keeps (guarded t live) (some q) (dropView t l view) (StillUnder live q) :=
  Keeps.dropView fun i hi _ =>
    ⟨fun _ => ⟨q, _, rfl, h, by rw [Ddl.accept, hi]; rfl⟩, hwithin.withoutView view, rfl⟩

/-- An index is dropped under a question that asks for it. -/
theorem keeps_dropIndex {text : String} (hwithin : l.Within live)
    (h : ∀ name, Keyed.get? l.indexNames text = some name →
      q.AsksFor t live (.dropIndex name true)) :
    Keeps (guarded t live) (some q) (dropIndex t l text) (StillUnder live q) :=
  Keeps.dropIndex fun name i hname hi =>
    ⟨fun _ => ⟨q, _, rfl, h name hname, by rw [Ddl.accept, hi]; rfl⟩, hwithin.withoutIndex text,
      rfl⟩

/-- A custom index is dropped under a question that asks for it. -/
theorem keeps_dropCustomIndex {key : String} (hwithin : l.Within live)
    (h : ∀ name, Keyed.get? l.customIndexNames key = some name →
      q.AsksFor t live (.dropIndex name true)) :
    Keeps (guarded t live) (some q) (dropCustomIndex t l key) (StillUnder live q) :=
  Keeps.dropCustomIndex fun name i hname hi =>
    ⟨fun _ => ⟨q, _, rfl, h name hname, by rw [Ddl.accept, hi]; rfl⟩,
      hwithin.withoutCustomIndex key, rfl⟩

/-- What refers to a column is dropped under a question that takes it along. -/
theorem keeps_dropDependents {column : String} (hwithin : l.Within live)
    (h : ∀ d, live.DropsDependent column d → q.AsksFor t live d) :
    Keeps (guarded t live) (some q) (dropDependents t l column) (StillUnder live q) := by
  rw [dropDependents_eq]
  refine Keeps.bind (Keeps.lift fun ds hds => ?_)
  obtain ⟨hviews, hindexes, hcustom⟩ := LiveTable.dependentsOf_mem hds
  refine Keeps.dropEach (StillUnder live q) ?view ?index ?customIndex ⟨hwithin, rfl⟩
  case view =>
    rintro view hview l' s' ⟨hwithin', rfl⟩
    obtain ⟨v, hmem, hdepends⟩ := hviews view hview
    exact keeps_dropView hwithin' (h _ (.view (hwithin.views _ hmem) hdepends))
  case index =>
    rintro text htext l' s' ⟨hwithin', rfl⟩
    obtain ⟨target, hmem, htarget, hcolumn⟩ := hindexes text htext
    exact keeps_dropIndex hwithin' fun name hname =>
      h _ (.index (hwithin.indexes _ hmem) htarget hcolumn (hwithin'.indexNames _ _ hname))
  case customIndex =>
    rintro key hkey l' s' ⟨hwithin', rfl⟩
    obtain ⟨i, hmem, hcolumn⟩ := hcustom key hkey
    exact keeps_dropCustomIndex hwithin' fun name hname => h _
      (.customIndex (hwithin.customIndexes _ hmem) hcolumn (hwithin'.customIndexNames _ _ hname))

/-- A column is removed, with what refers to it, under a question that asks for its removal. -/
theorem keeps_removeColumn {column : String} (hwithin : l.Within live)
    (h : q.AsksFor t live (.dropColumn t.name column))
    (hdependents : ∀ d, live.DropsDependent column d → q.AsksFor t live d) :
    Keeps (guarded t live) (some q) (removeColumn t l column) (StillUnder live q) := by
  refine Keeps.removeColumn ((keeps_dropDependents hwithin hdependents).mono ?_)
  rintro l₁ s₁ ⟨hwithin₁, rfl⟩ table c htable hc
  exact ⟨fun _ => ⟨q, _, rfl, h, by rw [Ddl.accept, htable, hc]; rfl⟩,
    hwithin₁.withoutColumn column, rfl⟩

/-- A column is added under a question that asks for it. -/
theorem keeps_addColumn {column : String} {new : Column} (hwithin : l.Within live)
    (h : q.AsksFor t live (.addColumn t.name column new.typeText new.isStatic)) :
    Keeps (guarded t live) (some q) (addColumn t l column new) (StillUnder live q) :=
  Keeps.addColumn fun table c htable hc =>
    ⟨fun _ => ⟨q, _, rfl, h, by rw [Ddl.accept, htable, hc]; rfl⟩, hwithin.withColumn column new,
      rfl⟩

/-- A column gets a new type under a question that asks for it. -/
theorem keeps_retypeColumn {column : String} {new : Column} (hwithin : l.Within live)
    (h : q.AsksFor t live (.retypeColumn t.name column new.typeText)) :
    Keeps (guarded t live) (some q) (retypeColumn t l column new) (StillUnder live q) :=
  Keeps.retypeColumn fun table c htable hc =>
    ⟨fun _ => ⟨q, _, rfl, h, by rw [Ddl.accept, htable, hc]; rfl⟩, hwithin.withColumn column new,
      rfl⟩

/-! ## Creating needs no question -/

/-- The watch allows what neither alters nor drops anything, and takes no notice of it. -/
def IgnoresCreation {σ : Type} (w : Watch σ) : Prop :=
  ∀ (s : σ) (statement : Ddl Identifier), statement.altersOrDrops = false →
    w.allows s statement ∧ w.onSend s statement = s

theorem ignoresCreation_guarded (t : Table) (live : LiveTable) :
    IgnoresCreation (guarded t live) :=
  fun _ _ h => ⟨fun h' => absurd h' (by simp [h]), rfl⟩

section
variable {σ : Type} {w : Watch σ} {s : σ}

theorem keeps_createIndex (hw : IgnoresCreation w) {text : String} :
    Keeps w s (createIndex t text) fun _ s' => s' = s :=
  Keeps.createIndex fun _ _ _ _ => hw s _ rfl

theorem keeps_createCustomIndex (hw : IgnoresCreation w) {i : CustomIndex} :
    Keeps w s (createCustomIndex t i) fun _ s' => s' = s :=
  Keeps.createCustomIndex fun _ _ _ _ _ _ => hw s _ rfl

theorem keeps_createView (hw : IgnoresCreation w) {name : String} {v : View} :
    Keeps w s (createView t name v) fun _ s' => s' = s :=
  Keeps.createView fun _ _ _ _ _ _ _ _ _ => hw s _ rfl

/-- Creating everything alters and drops nothing. -/
theorem keeps_createAll (hw : IgnoresCreation w) :
    Keeps w s (createAll t) fun _ s' => s' = s := by
  refine Keeps.bind (Keeps.createTable fun _ _ _ _ _ _ => ?_)
  obtain ⟨hallows, hsame⟩ := hw s (.createTable _ _ _) rfl
  refine ⟨hallows, ?_⟩
  rw [hsame]
  refine Keeps.bind ((Keeps.forM (· = s) ?_ rfl).mono fun _ s₁ hs₁ => ?_)
  · rintro text - s rfl
    exact keeps_createIndex hw
  refine Keeps.bind (Keeps.lift fun shape _ => ?_)
  refine Keeps.bind ((Keeps.forM (· = s) ?_ hs₁).mono fun _ s₂ hs₂ => ?_)
  · rintro e - s rfl
    exact keeps_createCustomIndex hw
  refine Keeps.forM (· = s) ?_ hs₂
  rintro e - s rfl
  exact keeps_createView hw

/-- So does creating what a difference adds. -/
theorem keeps_createMissing (hw : IgnoresCreation w) {d : SchemaDiff} :
    Keeps w s (createMissing t d) fun _ s' => s' = s := by
  refine Keeps.bind (Keeps.lift fun shape _ => ?_)
  refine Keeps.bind ((Keeps.forM (· = s) ?_ rfl).mono fun _ s₁ hs₁ => ?_)
  · rintro text - s rfl
    exact keeps_createIndex hw
  refine Keeps.bind ((Keeps.forM (· = s) ?_ hs₁).mono fun _ s₂ hs₂ => ?_)
  · rintro key - s rfl
    unfold createDeclaredCustomIndex
    split
    · exact Keeps.fail
    · exact keeps_createCustomIndex hw
  refine Keeps.forM (· = s) ?_ hs₂
  rintro name - s rfl
  unfold createDeclaredView
  split
  · exact Keeps.fail
  · exact keeps_createView hw

end

/-! ## Differences -/

/-- The part that is left is of the live table, whatever was asked last. -/
def StillWithin (live l : LiveTable) (_ : Option Question) : Prop := l.Within live

/-- The table is recreated under a question that asks for its drop and for that of its views. -/
theorem keeps_recreate (hwithin : l.Within live) (htable : q.AsksFor t live (.dropTable t.name true))
    (hviews : ∀ view ∈ Keyed.names live.views, q.AsksFor t live (.dropView view true)) :
    Keeps (guarded t live) (some q) (recreate t l) fun _ s => s = some q := by
  refine Keeps.bind ((Keeps.foldlM_inv (StillUnder live q) ?_ ⟨hwithin, rfl⟩).mono ?_)
  · rintro view hview l' s' ⟨hwithin', rfl⟩
    obtain ⟨e, he, rfl⟩ := List.mem_map.1 hview
    exact keeps_dropView hwithin' (hviews _ (List.mem_map_of_mem (hwithin.views e he)))
  rintro l₁ s₁ ⟨-, rfl⟩
  refine Keeps.bind (Keeps.dropTable fun i hi => ⟨fun _ => ⟨q, _, rfl, htable, ?_⟩, ?_⟩)
  · rw [Ddl.accept, hi]
    rfl
  · exact keeps_createAll (ignoresCreation_guarded t live)

/-- The difference of one column is applied under its own question. -/
theorem keeps_applyDiff {d : ColumnDiff} (hwithin : l.Within live) :
    Keeps (guarded t live) last (applyDiff t l d) fun l' _ => ∀ l'' ∈ l', l''.Within live := by
  have hleft : ∀ (q : Question) (l' : LiveTable) (s' : Option Question), StillUnder live q l' s' →
      ∀ l'' ∈ some l', l''.Within live :=
    fun _ _ _ h _ hl'' => Option.mem_some.1 hl'' ▸ h.1
  refine Keeps.applyDiff (fun _ => trivial) ?added ?removed ?retyped ?anew ?replaced
  case added => exact fun name new _ => (keeps_addColumn hwithin (.add name new)).mono (hleft _)
  case removed =>
    exact fun name old _ => (keeps_removeColumn hwithin (.remove name)
      fun d hd => .removeDependent hd).mono (hleft _)
  case retyped =>
    exact fun name aspect old new _ _ =>
      (keeps_retypeColumn hwithin (.retype name old new)).mono (hleft _)
  case anew =>
    exact fun name aspect old new _ _ _ => (keeps_recreate hwithin (.changeKey name old new)
      fun view hview => .changeKeyView hview).mono fun _ _ _ => nofun
  case replaced =>
    intro name aspect old new _ _ _
    refine (keeps_removeColumn hwithin (.replaceOld name old new)
      fun d hd => .replaceDependent hd).mono ?_
    rintro l₁ s₁ ⟨hwithin₁, rfl⟩
    exact (keeps_addColumn hwithin₁ (.replaceNew name old new)).mono (hleft _)

/-- So are the differences of several columns. -/
theorem keeps_applyDiffs : ∀ {ds : List ColumnDiff} {l : LiveTable} {last : Option Question},
    l.Within live → Keeps (guarded t live) last (applyDiffs t l ds)
      fun l' _ => ∀ l'' ∈ l', l''.Within live
  | [], l, _, hwithin => Keeps.pure fun _ hl'' => Option.mem_some.1 hl'' ▸ hwithin
  | d :: ds, l, last, hwithin => by
    refine Keeps.bind ((keeps_applyDiff hwithin).mono fun l' s' hl' => ?_)
    cases l' with
    | none => exact Keeps.pure fun _ hl'' => nomatch hl''
    | some l' => exact keeps_applyDiffs (hl' l' rfl)

/-- The views that a difference removes are views of the live table. -/
theorem removedViews_mem {l : LiveTable} {t : Table} {d : SchemaDiff}
    (h : Describable.diff (.live l) (.declared t) = .ok d) :
    ∀ view ∈ d.removedViews, view ∈ Keyed.names l.views := by
  obtain ⟨live, hlive, h⟩ := of_bind_ok h
  obtain ⟨declared, -, h⟩ := of_bind_ok h
  cases h
  intro view hview
  obtain ⟨e, he, rfl⟩ := List.mem_map.1 (Ordered.mem_distinct.1 hview)
  rw [← Describable.names_views hlive]
  exact List.mem_map_of_mem (List.mem_filter.1 he).1

/-- An index or view that is not declared is dropped under its own question. -/
theorem keeps_reconcile (hwithin : l.Within live) :
    Keeps (guarded t live) last (reconcile t l) fun _ _ => True := by
  have hasking : ∀ {q : Question} {d : Draft LiveTable} {s : Option Question},
      Keeps (guarded t live) (some q) d (StillUnder live q) →
      Keeps (guarded t live) s (Draft.ask q >>= fun _ => d) (StillWithin live) :=
    fun h => Keeps.bind (Keeps.ask trivial (h.mono fun _ _ h => h.1))
  refine Keeps.reconcile fun d hd =>
    (Keeps.dropEach (StillWithin live) ?view ?index ?customIndex hwithin).mono fun _ _ _ =>
      (keeps_createMissing (ignoresCreation_guarded t live)).mono fun _ _ _ => trivial
  case view =>
    intro view hview l' s' hwithin'
    obtain ⟨e, he, rfl⟩ := List.mem_map.1 (removedViews_mem hd view hview)
    exact hasking (keeps_dropView hwithin' (.dropView (List.mem_map_of_mem (hwithin.views e he))))
  case index =>
    exact fun text htext l' s' hwithin' => hasking (keeps_dropIndex hwithin' fun name hname =>
      .dropIndex (hwithin'.indexNames _ _ hname))
  case customIndex =>
    intro key hkey l' s' hwithin'
    unfold dropUndeclaredCustomIndex
    cases hi : Keyed.get? l'.customIndexes key with
    | none => exact Keeps.fail
    | some i =>
      have hmem := hwithin'.customIndexes _ (Keyed.mem_of_get? hi)
      exact hasking (keeps_dropCustomIndex hwithin' fun name hname =>
        .dropCustomIndex hmem (hwithin'.customIndexNames _ _ hname))

/-- A plan alters and drops only what the question put last asks for. -/
theorem keeps_plan (t : Table) (policy : Policy) (live : LiveTable) :
    Keeps (guarded t live) none (plan t policy (some live)) fun _ _ => True := by
  have hrecreate : ∀ last, Keeps (guarded t live) last (recreateAsking t live)
      fun _ _ => True := fun last =>
    Keeps.bind (Keeps.ask trivial (Keeps.bind ((keeps_recreate (.refl live) .recreate
      fun view hview => .recreateView hview).mono fun _ _ _ => Keeps.pure trivial)))
  refine Keeps.bind (Keeps.lift fun d _ => ?_)
  split
  · exact Keeps.pure trivial
  cases policy with
  | safe => exact Keeps.fail
  | drop => exact hrecreate none
  | alter =>
    dsimp only
    split
    · exact hrecreate none
    · refine Keeps.bind ((keeps_applyDiffs (.refl live)).mono fun l' s' hl' => ?_)
      cases l' with
      | none => exact Keeps.pure trivial
      | some l' =>
        exact Keeps.bind ((keeps_reconcile (hl' l' rfl)).mono fun _ _ _ => Keeps.pure trivial)

/-- Under the safe policy a live table is only compared. -/
theorem plan_safe (t : Table) (live : LiveTable) :
    (plan t .safe (some live)).moves = [] ∧
    ∀ d, Describable.diff (.live live) (.declared t) = .ok d → d.isEmpty = false →
      (plan t .safe (some live)).outcome = .error (mismatch t d) := by
  change (Draft.bind (Draft.lift (Describable.diff (.live live) (.declared t))) _).moves = [] ∧ _
  cases hd : Describable.diff (.live live) (.declared t) with
  | error e => exact ⟨rfl, fun _ h => nomatch h⟩
  | ok d =>
    refine ⟨?_, ?_⟩
    · simp only [Draft.bind, Draft.lift]
      split <;> rfl
    · rintro d' h hempty
      cases h
      change (Draft.bind (Draft.lift (Describable.diff (.live live) (.declared t))) _).outcome = _
      simp only [hd, Draft.bind, Draft.lift, hempty]
      rfl

/-- The watch that allows creations alone. -/
def onlyCreation : Watch Unit where
  allowsAsk _ _ := False
  onAsk s _ := s
  allows _ statement := statement.altersOrDrops = false
  onSend s _ := s

/-- Without a live table nothing is asked, altered or dropped. -/
theorem keeps_plan_none (t : Table) (policy : Policy) :
    Keeps onlyCreation () (plan t policy none) fun _ _ => True :=
  Keeps.bind ((keeps_createAll fun _ _ h => ⟨h, rfl⟩).mono fun _ _ _ => Keeps.pure trivial)

/-! ## Runs -/

/-- The question that was put last, and whether it was approved. -/
def lastAsked? (ds : List Deed) : Option (Question × Bool) :=
  ds.foldl (fun last d => match d with
    | .asked q approved => some (q, approved)
    | .sent _ _ => last) none

/-- What the watch knows of deeds that succeeded is the last question, and it was approved. -/
theorem lastAsked?_eq {ds : List Deed} (hsucceed : ∀ d ∈ ds, d.succeeds) :
    lastAsked? ds = (ds.foldl (Deed.watched (guarded t live)) none).map (·, true) := by
  suffices ∀ (ds : List Deed) (last : Option Question), (∀ d ∈ ds, d.succeeds) →
      ds.foldl (fun last d => match d with
        | .asked q approved => some (q, approved)
        | .sent _ _ => last) (last.map (·, true)) =
      (ds.foldl (Deed.watched (guarded t live)) last).map (·, true) from this ds none hsucceed
  intro ds
  induction ds with
  | nil => exact fun _ _ => rfl
  | cons d ds ih =>
    intro last hsucceed
    have hd := hsucceed d List.mem_cons_self
    have hds : ∀ d ∈ ds, d.succeeds := fun e he => hsucceed e (List.mem_cons_of_mem d he)
    cases d with
    | asked q approved =>
      cases approved with
      | false => cases hd
      | true => exact ih (some q) hds
    | sent step f =>
      cases f with
      | none => exact ih last hds
      | some f => cases hd

/-- Every deed of a run of a plan that is watched from the start. -/
theorem deeds_asked {a : Approver} {ms : List Move} {answers : List Value}
    {failures : List (Option Failure)} {before rest : List Deed} {step : Step} {f : Option Failure}
    (hall : (guarded t live).AllowsAll none ms)
    (h : deeds a ms answers failures = before ++ .sent step f :: rest)
    (hchanges : step.statement.altersOrDrops) :
    ∃ q d, lastAsked? before = some (q, true) ∧ q.AsksFor t live d ∧
      d.accept = .ok step.statement := by
  obtain ⟨q, d, hlast, hasks, haccept⟩ := allows_deeds hall h hchanges
  refine ⟨q, d, ?_, hasks, haccept⟩
  rw [lastAsked?_eq (deeds_succeed h).1, hlast]
  rfl

/-- What is confirmed in a synchronization that ended with a failure or without one. -/
structure Confirmed (settings : Settings) (source : LiveSource) (t : Table) (s : Session)
    (failure : Option Failure) : Prop where
  /-- A statement that alters or drops something is sent under the last question, which was approved
  and asks for the change; the statement makes that change exactly when names are plain. -/
  asked : ∀ before step f rest,
    syncDeeds settings source t s = before ++ .sent step f :: rest → step.statement.altersOrDrops →
      ∃ live q d, (fetched settings source t s).1 = .ok (some live) ∧
        lastAsked? before = some (q, true) ∧ q.AsksFor t live d ∧ d.accept = .ok step.statement ∧
        (step.statement.spelled? = some d ↔ ∀ name ∈ d.changedNames, Name.IsPlain name)
  /-- A question that is not approved is the last deed. -/
  declined : ∀ before q rest, syncDeeds settings source t s = before ++ .asked q false :: rest →
    rest = [] ∧ ∃ r, failure = some (.refusal r) ∧ r.code = .schemaMismatch
  /-- Under the safe policy nothing is asked, altered or dropped. -/
  safe : settings.isProduction = true ∨ settings.migration.policy = .safe →
    ∀ d ∈ syncDeeds settings source t s, ∃ step f, d = .sent step f ∧
      step.statement.altersOrDrops = false
  /-- Under the safe policy a difference from a live table is refused and nothing is done. -/
  mismatch : settings.isProduction = true ∨ settings.migration.policy = .safe →
    ∀ live d, (fetched settings source t s).1 = .ok (some live) →
      Describable.diff (.live live) (.declared t) = .ok d → d.isEmpty = false →
        syncDeeds settings source t s = [] ∧
        ∃ r, failure = some (.refusal r) ∧ r.code = .schemaMismatch

section

variable {settings : Settings} {source : LiveSource} {s : Session}

theorem effectivePolicy_safe
    (h : settings.isProduction = true ∨ settings.migration.policy = .safe) :
    settings.effectivePolicy = .safe := by
  rcases h with h | h <;> simp [Settings.effectivePolicy, h]

/-- What alters or drops something was asked for, in words of the live table that was found. -/
theorem syncDeeds_asked {before rest : List Deed} {step : Step} {f : Option Failure}
    (hds : syncDeeds settings source t s = before ++ .sent step f :: rest)
    (hchanges : step.statement.altersOrDrops) :
    ∃ live q d, (fetched settings source t s).1 = .ok (some live) ∧
      lastAsked? before = some (q, true) ∧ q.AsksFor t live d ∧ d.accept = .ok step.statement := by
  rcases hfetched : fetched settings source t s with ⟨e | live, s₁⟩
  · rw [syncDeeds_of_error hfetched] at hds
    cases before <;> cases hds
  rw [syncDeeds_of_fetched hfetched] at hds
  cases live with
  | none =>
    have hcreates : step.statement.altersOrDrops = false :=
      allows_deeds (keeps_plan_none t settings.effectivePolicy).1 hds
    rw [hcreates] at hchanges
    cases hchanges
  | some live =>
    obtain ⟨q, d, hasked⟩ := deeds_asked (keeps_plan t settings.effectivePolicy live).1 hds hchanges
    exact ⟨live, q, d, rfl, hasked⟩

/-- Under the safe policy the deeds of a run create something. -/
theorem syncDeeds_safe (hsafe : settings.effectivePolicy = .safe) {d : Deed}
    (hd : d ∈ syncDeeds settings source t s) :
    ∃ step f, d = .sent step f ∧ step.statement.altersOrDrops = false := by
  rcases hfetched : fetched settings source t s with ⟨e | live, s₁⟩
  · rw [syncDeeds_of_error hfetched] at hd
    exact nomatch hd
  rw [syncDeeds_of_fetched hfetched, hsafe] at hd
  cases live with
  | some live =>
    rw [(plan_safe t live).1] at hd
    exact nomatch hd
  | none =>
    obtain ⟨before, rest, hds⟩ := List.append_of_mem hd
    have hcreates := allows_deeds (keeps_plan_none t .safe).1 hds
    cases d with
    | asked q approved => exact hcreates.elim
    | sent step f => exact ⟨step, f, rfl, hcreates⟩

/-- Under the safe policy a run that finds a difference does nothing and refuses it. -/
theorem syncOutcome_mismatch (hsafe : settings.effectivePolicy = .safe) {live : LiveTable}
    {d : SchemaDiff} (hlive : (fetched settings source t s).1 = .ok (some live))
    (hd : Describable.diff (.live live) (.declared t) = .ok d) (hempty : d.isEmpty = false) :
    syncDeeds settings source t s = [] ∧
      syncOutcome settings source t s = .error (mismatch t d) := by
  have hfetched : fetched settings source t s =
      (.ok (some live), (fetched settings source t s).2) := Prod.ext hlive rfl
  obtain ⟨hmoves, hmismatch⟩ := plan_safe t live
  have hds : syncDeeds settings source t s = [] := by
    rw [syncDeeds_of_fetched hfetched, hsafe, hmoves]
    rfl
  refine ⟨hds, ?_⟩
  rw [syncOutcome_of_fetched hfetched, hds, hsafe, hmismatch d hd hempty]
  rfl

end

/-- Every synchronization confirms what it alters and drops: it does `syncDeeds`, which are what the
store was sent and the operator was asked, in the order in which the journal tells of them. -/
theorem sync_confirmed (settings : Settings) (source : LiveSource) (t : Table) (s : Session) :
    ∃ r s', (sync settings source t).perform s = (.ok r, s') ∧
      r.1.steps = (syncDeeds settings source t s).filterMap Deed.result? ∧
      Recorded (approver settings) t.name (fetched settings source t s).2
        (syncDeeds settings source t s) s' ∧
      Confirmed settings source t s r.2 := by
  obtain ⟨r, s', hs', hanswers, hrecorded⟩ := sync_spec settings source t s
  refine ⟨r, s', hs', hanswers.steps, hrecorded, ?asked, ?declined, ?safe, ?mismatch⟩
  case asked =>
    intro before step f rest hds hchanges
    obtain ⟨live, q, d, hlive, hlast, hasks, haccept⟩ := syncDeeds_asked hds hchanges
    exact ⟨live, q, d, hlive, hlast, hasks, haccept, Ddl.spelled_eq_iff haccept hchanges⟩
  case declined =>
    intro before q rest hds
    obtain ⟨hbefore, hrest⟩ := deeds_succeed ((syncDeeds_eq settings source t s).symm.trans hds)
    obtain rfl := hrest rfl
    obtain ⟨f, hf, houtcome⟩ := syncOutcome_stops hds hbefore rfl
    cases hf
    exact ⟨rfl, Migration.declined t.name q, by rw [hanswers.failure, houtcome], rfl⟩
  case safe =>
    exact fun hsafe d hd => syncDeeds_safe (effectivePolicy_safe hsafe) hd
  case mismatch =>
    intro hsafe live d hlive hd hempty
    obtain ⟨hds, houtcome⟩ := syncOutcome_mismatch (effectivePolicy_safe hsafe) hlive hd hempty
    exact ⟨hds, _, by rw [hanswers.failure, houtcome, mismatch], rfl⟩

/-! ## A column between blanks -/

/-- Users with a name, as a definition. -/
def namedUsersDefinition : Value := .map [
  (.text "fields", .map [(.text "id", .text "uuid"), (.text "name", .text "text")]),
  (.text "key", .list [.text "id"])]

/-- The table that `namedUsersDefinition` declares. -/
def namedUsers : Table where
  name := "users"
  fields := [{ name := "id", type := "uuid" }, { name := "name", type := "text" }]
  partitionKey := ["id"]
  clusteringKey := []
  clusteringOrder := []
  indexes := []
  customIndexes := []
  views := []
  defaultTtl := none
  hooks := []

/-- A live table of users with one more column, whose name has a blank in front. -/
def usersWithBlank : LiveTable where
  table := "users"
  columns := [("id", { type := "uuid" }), ("name", { type := "text" }), (" name", { type := "int" })]
  partitionKey := ["id"]

/-- The column whose name has a blank in front is asked about, and the other one is dropped: no
definition that the question asks for is written. -/
theorem not_asked_blank :
    Table.ofDefinition (.text "users") namedUsersDefinition = .ok namedUsers ∧
    ∃ step, syncDeeds altering (.given (.ok (some usersWithBlank))) namedUsers {} =
        [.asked (.removeColumn " name") true, .sent step none] ∧
      step.statement.altersOrDrops ∧
      step.statement.render = "ALTER TABLE \"users\" DROP \"name\";" ∧
      ¬ ∃ d, step.statement.spelled? = some d ∧
        (Question.removeColumn " name").AsksFor namedUsers usersWithBlank d := by
  refine ⟨by with_unfolding_all rfl, ⟨"alter_drop: name", .alter, .dropColumn
    ⟨"users".toList, by decide⟩ ⟨"name".toList, by decide⟩⟩, by with_unfolding_all rfl, rfl, by decide,
    ?_⟩
  rintro ⟨d, hd, hasks⟩
  cases hd
  generalize hq : Question.removeColumn " name" = q at hasks
  generalize hd : Ddl.dropColumn _ _ = d at hasks
  cases hasks <;> cases hq
  · exact absurd (Ddl.dropColumn.inj hd).2 (by decide)
  · rename_i h
    cases h <;> cases hd

end Migration

end WideColumn
