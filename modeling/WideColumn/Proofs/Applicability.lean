import WideColumn.Proofs.Reconciliation
import WideColumn.Proofs.Run

/-!
# Every statement finds the store as it needs it

The statements that a migration sends are followed on a store that begins with the live table: what
is altered or dropped is there when it is, nothing refers to a column that is dropped, and what is
created has its columns and a free name (`Simulated.Applicable`). Two views whose names differ by a
line end alone are written under one name, so the declared views have to be written apart; a table
that can be created shows that nothing less will do.
-/

namespace WideColumn

namespace Migration

open Draft

variable {naming : String → String} {same : String → Column → Column → Prop} {t : Table}
  {live : LiveTable}

/-! ## Plans -/

/-- A store that holds the live table mirrors it. -/
theorem Mirrors.of_live (hcanonical : live.Canonical) (hspelling : live.KeepsSpelling)
    (hself : ∀ e ∈ live.columns, same e.1 e.2 e.2) : Mirrors same live ⟨live, [], []⟩ where
  table := ⟨live.columns, rfl, .of_self hself⟩
  ownNames := hcanonical.ownNames.distinct
  droppedIndexes := fun _ h => nomatch h
  droppedViews := fun _ h => nomatch h
  views := hcanonical.views
  spelling := hspelling

/-- The differences of a canonical live table are pending. -/
theorem pending_of_diff {d : SchemaDiff} (hwell : t.WellFormed) (hcanonical : live.Canonical)
    (hd : Describable.diff (.live live) (.declared t) = .ok d) :
    SchemaDiff.Pending t.storedColumns d.columns live.columns := by
  obtain ⟨targets, declared, -, -, rfl⟩ := Describable.diff_ok hd
  change SchemaDiff.Pending t.storedColumns
    (SchemaDiff.columnDiffs (live.columns.map fun e => (e.1, e.2.canonical)) t.storedColumns)
    live.columns
  rw [hcanonical.columns_eq]
  exact .columnDiffs hcanonical.columns hwell.nodup_storedColumns

/-- What is altered at first is the live table itself. -/
theorem Altered.of_live {d : SchemaDiff} (hprepared : Prepared t) (hcanonical : live.Canonical)
    (hspelling : live.KeepsSpelling) (hself : ∀ e ∈ live.columns, same e.1 e.2 e.2)
    (hd : Describable.diff (.live live) (.declared t) = .ok d) :
    Altered same t live d.columns live ⟨live, [], []⟩ := by
  exact ⟨.of_live hcanonical hspelling hself, pending_of_diff hprepared.wellFormed hcanonical hd,
    .refl live⟩

/-- Where the key has not changed both tables have the same key columns. -/
theorem keyColumns_of_diff {d : SchemaDiff}
    (hd : Describable.diff (.live live) (.declared t) = .ok d) (hkey : d.keyChanged = false) :
    live.keyColumns = t.keyColumns := by
  obtain ⟨targets, declared, -, -, rfl⟩ := Describable.diff_ok hd
  have hsame : (live.canonicalWith targets).sameKey (t.shape.canonicalWith declared) = true := by
    simpa [SchemaDiff.between] using hkey
  simp only [TableShape.sameKey, Bool.and_eq_true, beq_iff_eq] at hsame
  obtain ⟨⟨hpartition, hclustering⟩, -⟩ := hsame
  exact congrArg₂ (· ++ ·) hpartition hclustering

/-- Altering brings the store in line column by column, then its indexes and views; or the table is
created anew. -/
theorem keeps_alter (same : String → Column → Column → Prop) {d : SchemaDiff}
    (hprepared : Prepared t) (hcanonical : live.Canonical)
    (hspelling : live.KeepsSpelling) (hself : ∀ e ∈ live.columns, same e.1 e.2 e.2)
    (htracks : ∀ e ∈ d.columns, Tracks same e)
    (hd : Describable.diff (.live live) (.declared t) = .ok d) (hkey : d.keyChanged = false) :
    Keeps (Simulated.watch naming) ⟨live, [], []⟩ (alter t live d) fun state s' =>
      (state = .recreated ∧ s'.table? = some (t.created naming)) ∨
      (state = .altered ∧ ∃ l s d' columns, Altered same t live [] l s ∧
        Describable.diff (.live l) (.declared t) = .ok d' ∧ Keyed.Alike same columns l.columns ∧
        s'.table? = some (LiveTable.reconciled naming t d' { l with columns })) := by
  refine Keeps.bind (((Altered.of_live hprepared hcanonical hspelling hself hd).keeps_applyDiffs
    hprepared (keyColumns_of_diff hd hkey) htracks).mono fun l? s hl? => ?_)
  cases l? with
  | none => exact Keeps.pure (.inl ⟨rfl, hl?⟩)
  | some l =>
    refine Keeps.bind ((hl?.keeps_reconcile hprepared hcanonical).mono ?_)
    rintro _ s' ⟨d', columns, hd', halike, htable⟩
    exact Keeps.pure (.inr ⟨rfl, l, s, d', columns, hl?, hd', halike, htable⟩)

/-- Every statement of a plan is applicable where it is sent. -/
theorem keeps_plan_applicable (policy : Policy) (live : Option LiveTable) (hprepared : Prepared t)
    (hlive : ∀ l, live = some l → l.Canonical ∧ l.KeepsSpelling) :
    Keeps (Simulated.watch naming) ⟨live, [], []⟩ (plan t policy live) fun _ _ => True := by
  cases live with
  | none =>
    exact Keeps.bind ((creates_all rfl hprepared.wellFormed hprepared.identifiers
      hprepared.apart).mono fun _ _ _ => Keeps.pure trivial)
  | some l =>
    obtain ⟨hcanonical, hspelling⟩ := hlive l rfl
    have hmirrors : Mirrors (fun _ _ _ => True) l ⟨l, [], []⟩ :=
      .of_live hcanonical hspelling fun _ _ => trivial
    have hrecreate : Keeps (Simulated.watch naming) ⟨l, [], []⟩ (recreateAsking t l)
        fun _ _ => True :=
      Keeps.bind (Keeps.ask trivial (Keeps.bind ((hmirrors.keeps_recreate hprepared.wellFormed
        hprepared.identifiers hprepared.apart).mono fun _ _ _ => Keeps.pure trivial)))
    refine Keeps.bind (Keeps.lift fun d hd => ?_)
    by_cases hempty : d.isEmpty = true
    · rw [if_pos hempty]
      exact Keeps.pure trivial
    rw [if_neg hempty]
    cases policy with
    | safe => exact Keeps.fail
    | drop => exact hrecreate
    | alter =>
      by_cases hkey : d.keyChanged = true
      · simp only [hkey, if_true]
        exact hrecreate
      · simp only [hkey]
        exact (keeps_alter (fun _ _ _ => True) hprepared hcanonical hspelling (fun _ _ => trivial)
          (fun e _ => tracks_trivial e) hd (Bool.eq_false_iff.2 hkey)).mono fun _ _ _ => trivial

/-! ## Two views under one name -/

/-- The view is created under its name as it is written. -/
theorem createView_ok {name : String} {v : View} {u : Unit}
    (h : (createView t name v).outcome = .ok u) :
    ∃ step view table select key, (createView t name v).moves = [.send step] ∧
      step.statement = .createView view table select key ∧ view.text = Name.spelled name := by
  obtain ⟨o, d, statement, hmade, hd, haccept, hmoves⟩ := Draft.send_ok h
  obtain ⟨rfl, -⟩ := ViewCreation.checked_ok hmade
  cases hd
  obtain ⟨view, table, columns, key, hview, -, -, -, rfl⟩ := Ddl.accept_createView haccept
  exact ⟨_, view, table, columns, key, hmoves, rfl, Identifier.ofText_text hview⟩

/-- Views that are created one after the other find their names free only when no two are written
under one name. -/
theorem apart_of_createViews {es : List (String × View)} {s : Simulated} {u : Unit}
    (h : (es.forM fun e => createView t e.1 e.2).outcome = .ok u)
    (hall : (Simulated.watch naming).AllowsAll s (es.forM fun e => createView t e.1 e.2).moves) :
    (es.map fun e => Name.spelled e.1).Nodup ∧
      ∀ l, s.table? = some l → ∀ e ∈ es, Name.spelled e.1 ∉ Keyed.names l.views := by
  induction es generalizing s with
  | nil => exact ⟨List.nodup_nil, fun _ _ _ h => nomatch h⟩
  | cons e es ih =>
    change ((createView t e.1 e.2) >>= fun _ => es.forM fun e => createView t e.1 e.2).outcome = _
      at h
    change Watch.AllowsAll _ _
      ((createView t e.1 e.2) >>= fun _ => es.forM fun e => createView t e.1 e.2).moves at hall
    obtain ⟨u', hfirst, hrest, hmoves⟩ := Draft.bind_ok h
    obtain ⟨step, view, table, select, key, hstep, hstatement, htext⟩ := createView_ok hfirst
    rw [hmoves, hstep] at hall
    obtain ⟨hallows, hall⟩ := hall
    simp only [Watch.Allows, Simulated.watch, hstatement, Simulated.Applicable] at hallows
    obtain ⟨l, htable, hfree, -⟩ := hallows
    -- the views that follow find their names free in the table that has the first one
    obtain ⟨hnodup, hothers⟩ := ih hrest hall
    have htable' : ((Simulated.watch naming).after s (.send step)).table? =
        some (l.withView view.text (.ofClauses (select.map (·.map Identifier.text)) key.texts)) := by
      simp only [Watch.after, Simulated.watch, hstatement, Simulated.after, Ddl.apply, htable]
      rfl
    have htaken := hothers _ htable'
    rw [htext] at hfree htaken
    refine ⟨List.nodup_cons.2 ⟨fun hmem => ?_, hnodup⟩, fun l' hl' f hf => ?_⟩
    · obtain ⟨f, hf, hsame⟩ := List.mem_map.1 hmem
      exact htaken f hf (Keyed.mem_names_put.2 (.inl hsame))
    · rw [htable] at hl'
      cases hl'
      rcases List.mem_cons.1 hf with rfl | hf
      · exact hfree
      · exact fun hmem => htaken f hf (Keyed.mem_names_put.2 (.inr hmem))

/-- When everything can be created and every statement of that is applicable, no two views are
written under one name. -/
theorem apart_of_createAll {s : Simulated} {u : Unit} (h : (createAll t).outcome = .ok u)
    (hall : (Simulated.watch naming).AllowsAll s (createAll t).moves) : t.ViewsWrittenApart := by
  obtain ⟨_, -, h, hmoves⟩ := Draft.bind_ok h
  rw [createAll, hmoves] at hall
  obtain ⟨-, hall⟩ := ((Simulated.watch naming).allowsAll_append _ _ _).1 hall
  obtain ⟨_, -, h, hmoves⟩ := Draft.bind_ok h
  rw [hmoves] at hall
  obtain ⟨-, hall⟩ := ((Simulated.watch naming).allowsAll_append _ _ _).1 hall
  obtain ⟨shape, -, h, hmoves⟩ := Draft.bind_ok h
  rw [hmoves] at hall
  obtain ⟨-, hall⟩ := ((Simulated.watch naming).allowsAll_append _ _ _).1 hall
  obtain ⟨_, -, h, hmoves⟩ := Draft.bind_ok h
  rw [hmoves] at hall
  obtain ⟨-, hall⟩ := ((Simulated.watch naming).allowsAll_append _ _ _).1 hall
  have hnodup := (apart_of_createViews h hall).1
  unfold Table.ViewsWrittenApart Keyed.names
  rw [List.map_map]
  exact hnodup

/-! ## Runs -/

/-- Every statement that a synchronization sends is applicable to what the statements before it left
of the live table that was found; one that fails changes nothing. -/
def SendsApplicable (naming : String → String) (settings : Settings) (source : LiveSource)
    (t : Table) (s : Session) : Prop :=
  ∀ before step f rest, syncDeeds settings source t s = before ++ .sent step f :: rest →
    ∃ live, (fetched settings source t s).1 = .ok live ∧
      (Simulated.afterDeeds naming ⟨live, [], []⟩ before).Applicable step.statement

/-- What a synchronization finds is canonical, and names that are accepted are written as they
are. -/
def FindsCanonical (settings : Settings) (source : LiveSource) (t : Table) (s : Session) : Prop :=
  ∀ l, (fetched settings source t s).1 = .ok (some l) → l.Canonical ∧ l.KeepsSpelling

/-- A run sends applicable statements alone when the views are written apart. -/
theorem sendsApplicable {settings : Settings} {source : LiveSource} {s : Session}
    (hprepared : Prepared t) (hfound : FindsCanonical settings source t s) :
    SendsApplicable naming settings source t s := by
  intro before step f rest hds
  rcases hfetched : fetched settings source t s with ⟨e | live, s₁⟩
  · rw [syncDeeds_of_error hfetched] at hds
    cases before <;> cases hds
  · rw [syncDeeds_of_fetched hfetched] at hds
    refine ⟨live, rfl, ?_⟩
    rw [Simulated.afterDeeds_eq]
    refine allows_deeds (keeps_plan_applicable settings.effectivePolicy live hprepared ?_).1 hds
    intro l hl
    exact hfound l (by rw [hfetched, hl])

/-- A watch that follows moves which all succeed. -/
theorem foldl_done {σ : Type} (w : Watch σ) (ms : List Move) (s : σ) :
    (ms.map done).foldl (Deed.watched w) s = ms.foldl w.after s := by
  induction ms generalizing s with
  | nil => rfl
  | cons m ms ih =>
    rw [List.map_cons, List.foldl_cons, List.foldl_cons, ih]
    cases m <;> rfl

/-- When the run that creates a table sends applicable statements alone, the views are written
apart. -/
theorem apart_of_sendsApplicable (hcreated : (createAll t).outcome = .ok ())
    (h : SendsApplicable naming {} (.given (.ok none)) t {}) : t.ViewsWrittenApart := by
  suffices (Simulated.watch naming).AllowsAll ⟨none, [], []⟩ (createAll t).moves from
    apart_of_createAll hcreated this
  refine Watch.allowsAll_of_each fun before m rest hms => ?_
  cases m with
  | ask q => trivial
  | send step =>
    have hmoves : (plan t Policy.safe none).moves = (createAll t).moves := by
      obtain ⟨_, -, -, hmoves⟩ := Draft.bind_ok (f := fun _ => Pure.pure MigrationState.created)
        (show (createAll t >>= fun _ => Pure.pure MigrationState.created).outcome = .ok .created by
          change (Draft.bind _ _).outcome = _
          rw [Draft.bind, hcreated]
          rfl)
      rw [plan, hmoves]
      exact List.append_nil _
    have hdeeds : syncDeeds {} (.given (.ok none)) t {} =
        before.map done ++ .sent step none :: rest.map done := by
      have hall : syncDeeds {} (.given (.ok none)) t {} = (plan t Policy.safe none).moves.map done :=
        deeds_all (.inr fun _ h => nomatch h) fun _ h => nomatch h
      rw [hall, hmoves, hms, List.map_append]
      rfl
    obtain ⟨live, hlive, happlicable⟩ := h _ _ _ _ hdeeds
    cases hlive
    rw [Simulated.afterDeeds_eq, foldl_done] at happlicable
    exact happlicable

/-- A synchronization of a registered table whose columns are identifiers sends statements that are
applicable when they are sent, whatever the policy, the answers and the failures of the store are,
when no two of its views are written under one name; for a table that can be created this is the
case only then. -/
theorem sync_applicable (naming : String → String) {t : Table} (hregistered : t.Registered)
    (hidentifiers : ∀ column, t.IsStored column → Name.IsIdentifier column) :
    (t.ViewsWrittenApart → ∀ settings source s, FindsCanonical settings source t s →
      ∃ r s', (sync settings source t).perform s = (.ok r, s') ∧
        Recorded (approver settings) t.name (fetched settings source t s).2
          (syncDeeds settings source t s) s' ∧
        SendsApplicable naming settings source t s) ∧
    ((createAll t).outcome = .ok () →
      (∀ settings source s, FindsCanonical settings source t s →
        SendsApplicable naming settings source t s) → t.ViewsWrittenApart) := by
  constructor
  · intro hapart settings source s hfound
    obtain ⟨r, s', hs', -, hrecorded⟩ := sync_spec settings source t s
    exact ⟨r, s', hs', hrecorded,
      sendsApplicable ⟨hregistered.wellFormed, hidentifiers, hapart⟩ hfound⟩
  · intro hcreated h
    refine apart_of_sendsApplicable hcreated (h {} (.given (.ok none)) {} fun l hl => ?_)
    cases hl

/-! ### A column with an index under a view -/

/-- Users under their names. -/
def usersByName : View where
  select := ["*"]
  partitionKey := ["name"]
  clusteringKey := ["id"]
  clusteringOrder := []

/-- Users with a name and a view, as a definition. -/
def viewedDefinition : Value := .map [
  (.text "fields", .map [(.text "id", .text "uuid"), (.text "name", .text "text")]),
  (.text "key", .list [.text "id"]),
  (.text "materialized_views", .map [
    (.text "by_name", .map [(.text "key", .list [.text "name", .text "id"])])])]

/-- The table that `viewedDefinition` declares. -/
def viewed : Table where
  name := "users"
  fields := [{ name := "id", type := "uuid" }, { name := "name", type := "text" }]
  partitionKey := ["id"]
  clusteringKey := []
  clusteringOrder := []
  indexes := []
  customIndexes := []
  views := [("by_name", usersByName)]
  defaultTtl := none
  hooks := []

/-- A live table of users with an age, which has an index and is in the view. -/
def usersWithAge : LiveTable where
  table := "users"
  columns := [("id", { type := "uuid" }), ("name", { type := "text" }), ("age", { type := "int" })]
  partitionKey := ["id"]
  indexes := ["age"]
  indexNames := [("age", "users_age_idx")]
  views := [("by_name", usersByName.canonical)]

theorem usersWithAge_canonical : usersWithAge.Canonical ∧ usersWithAge.KeepsSpelling := by
  refine ⟨⟨by decide, by with_unfolding_all decide, ?_, fun _ h => (nomatch h), by decide, ?_⟩, ?_⟩
  · intro text htext
    cases List.mem_singleton.1 htext
    exact ⟨⟨none, "age"⟩, rfl, rfl⟩
  · exact ⟨by decide, by decide⟩
  · have hplain : ∀ name ∈ ["id", "name", "age", "by_name", "users_age_idx"],
        Name.IsPlain name := by decide
    refine ⟨fun column h => (hplain column ?_).keepsSpelling,
      fun view h => (hplain view ?_).keepsSpelling, fun name h => (hplain name ?_).keepsSpelling⟩
    · revert column
      decide
    · revert view
      decide
    · cases List.mem_singleton.1 h
      decide

/-- The age is removed once its index and the view are gone, and the view is created again. -/
theorem sends_viewed :
    (∃ r s', (sync altering (.given (.ok (some usersWithAge))) viewed).perform {} = (.ok r, s') ∧
      Recorded .operator "users" (fetched altering (.given (.ok (some usersWithAge))) viewed {}).2
        (syncDeeds altering (.given (.ok (some usersWithAge))) viewed {}) s' ∧
      SendsApplicable id altering (.given (.ok (some usersWithAge))) viewed {}) ∧
    ((syncDeeds altering (.given (.ok (some usersWithAge))) viewed {}).filterMap Deed.call?).map
      Call.statement = ["DROP MATERIALIZED VIEW IF EXISTS \"by_name\";",
        "DROP INDEX IF EXISTS \"users_age_idx\";", "ALTER TABLE \"users\" DROP \"age\";",
        "CREATE MATERIALIZED VIEW IF NOT EXISTS \"by_name\" AS SELECT * FROM \"users\" " ++
          "WHERE \"name\" IS NOT NULL AND \"id\" IS NOT NULL PRIMARY KEY((\"name\"),\"id\");"] := by
  have hregistered : viewed.Registered :=
    .inl ⟨.text "users", viewedDefinition, by with_unfolding_all rfl⟩
  have hidentifiers : ∀ f ∈ viewed.storedFields, Name.IsIdentifier f.name := by decide
  refine ⟨(sync_applicable id hregistered ?_).1 (by decide) _ _ _ fun l hl => ?_,
    by with_unfolding_all rfl⟩
  · rintro column ⟨f, hf, rfl⟩
    exact hidentifiers f hf
  · cases hl
    exact usersWithAge_canonical

/-! ### Two views under one name -/

/-- Users with two views whose names differ by a line end, as a definition. -/
def twiceViewedDefinition : Value := .map [
  (.text "fields", .map [(.text "id", .text "uuid"), (.text "name", .text "text")]),
  (.text "key", .list [.text "id"]),
  (.text "materialized_views", .map [
    (.text "v", .map [(.text "key", .list [.text "name", .text "id"])]),
    (.text "v\n", .map [(.text "key", .list [.text "name", .text "id"])])])]

/-- The table that `twiceViewedDefinition` declares. -/
def twiceViewed : Table where
  name := "users"
  fields := [{ name := "id", type := "uuid" }, { name := "name", type := "text" }]
  partitionKey := ["id"]
  clusteringKey := []
  clusteringOrder := []
  indexes := []
  customIndexes := []
  views := [("v", usersByName), ("v\n", usersByName)]
  defaultTtl := none
  hooks := []

/-- The second view is created although its name is taken. -/
theorem not_applicable_twiceViewed :
    Table.ofDefinition (.text "users") twiceViewedDefinition = .ok twiceViewed ∧
    (∀ column, twiceViewed.IsStored column → Name.IsIdentifier column) ∧
    FindsCanonical {} (.given (.ok none)) twiceViewed {} ∧
    ¬ SendsApplicable id {} (.given (.ok none)) twiceViewed {} := by
  refine ⟨by with_unfolding_all rfl, ?_, fun l hl => (nomatch hl), fun h => ?_⟩
  · rintro column ⟨f, hf, rfl⟩
    have hall : ∀ f ∈ twiceViewed.storedFields, Name.IsIdentifier f.name := by decide
    exact hall f hf
  · have hapart := apart_of_sendsApplicable (by with_unfolding_all rfl) h
    exact absurd hapart (by decide)

/-! ### A column between blanks -/

/-- A live table of users with one more column, whose name is that of the key behind a blank. -/
def usersWithBlankKey : LiveTable where
  table := "users"
  columns := [("id", { type := "uuid" }), ("name", { type := "text" }), (" id", { type := "int" })]
  partitionKey := ["id"]

/-- Names of the live table have to be written as they are: in place of the column whose name begins
with a blank the column of the key is dropped. -/
theorem not_applicable_blank :
    usersWithBlankKey.Canonical ∧
    ¬ SendsApplicable id altering (.given (.ok (some usersWithBlankKey))) viewed {} := by
  refine ⟨⟨by decide, by with_unfolding_all decide, fun _ h => (nomatch h), fun _ h => (nomatch h),
    by decide, by decide, by decide⟩, fun h => ?_⟩
  obtain ⟨live, hlive, l, hl, -, hkey, -⟩ := h [.asked (.removeColumn " id") true]
    ⟨"alter_drop: id", .alter, .dropColumn ⟨"users".toList, by decide⟩ ⟨"id".toList, by decide⟩⟩
    none _ (by with_unfolding_all rfl)
  cases hlive
  cases hl
  exact hkey (by decide)

end Migration

end WideColumn
