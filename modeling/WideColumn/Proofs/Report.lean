import WideColumn.Proofs.Convergence

/-!
# What a migration reports

A run makes the moves of its plan from the first one on, so that what it sends is a prefix of what
is sent when nothing hinders it (`Migration.moves_of_deeds`). Its result lists the statements in the
order in which they were sent, each with the failure of the store, and has the state that the plan
comes to, or the state of a failure when the run was ended by one.

Which state a plan comes to depends on the live table and on whether the table is dropped
(`Migration.tells_plan`): the watch `Migration.dropsTable` follows the latter through the parts of
the plan, none of which drops the table but the one that creates it anew.
-/

namespace WideColumn

/-- What the store was sent. -/
def StepResult.call (r : StepResult) : Call := ⟨r.step.statement.render, [], .definition⟩

/-- The table was dropped. -/
def StepResult.DropsTable (r : StepResult) : Prop := r.step.statement.kind = .dropTable

theorem Deed.call?_eq (d : Deed) : d.call? = d.result?.map StepResult.call := by cases d <;> rfl

theorem Deed.call?_done (d : Deed) : d.call? = (Migration.done d.move).call? := by cases d <;> rfl

namespace Migration

open Draft

variable {a : Approver} {ms : List Move} {answers : List Value} {failures : List (Option Failure)}

/-! ## Deeds and the moves of the plan -/

/-- The moves that are made are the first ones of the plan. -/
theorem moves_of_deeds (a : Approver) (ms : List Move) (answers : List Value)
    (failures : List (Option Failure)) :
    (deeds a ms answers failures).map Deed.move <+: ms := by
  rcases List.eq_nil_or_concat' (deeds a ms answers failures) with hnil | ⟨before, d, hdeeds⟩
  · rw [hnil]
    exact List.nil_prefix
  · obtain ⟨made, left, hms, rfl, -⟩ := deeds_split hdeeds
    rw [hdeeds]
    exact ⟨left, by simp [hms, Function.comp_def, move_done]⟩

/-- A run that no deed ends makes every move. -/
theorem deeds_complete (h : ∀ d ∈ deeds a ms answers failures, d.succeeds) :
    deeds a ms answers failures = ms.map done := by
  induction ms generalizing answers failures with
  | nil => rfl
  | cons m ms ih =>
    rcases deeds_cons a m ms answers failures with ⟨e, -, hnot, he⟩ | ⟨answers', failures', he⟩ <;>
      rw [he] at h ⊢
    · exact absurd (h e List.mem_cons_self) (by simp [hnot])
    · rw [ih fun d hd => h d (List.mem_cons_of_mem _ hd)]
      rfl

/-- What the deeds sent to the store, as the result of a migration lists it. -/
theorem calls_of_results (ds : List Deed) :
    (ds.filterMap Deed.result?).map StepResult.call = ds.filterMap Deed.call? := by
  rw [List.map_filterMap]
  exact List.filterMap_congr fun d _ => (d.call?_eq).symm

/-- What is sent is the beginning of what all moves of the plan send. -/
theorem calls_of_deeds (a : Approver) (ms : List Move) (answers : List Value)
    (failures : List (Option Failure)) :
    (deeds a ms answers failures).filterMap Deed.call? <+: (ms.map done).filterMap Deed.call? := by
  have hcalls : (deeds a ms answers failures).filterMap Deed.call? =
      (((deeds a ms answers failures).map Deed.move).map done).filterMap Deed.call? := by
    rw [List.map_map, List.filterMap_map]
    exact List.filterMap_congr fun d _ => d.call?_done
  rw [hcalls]
  exact ((moves_of_deeds a ms answers failures).map done).filterMap Deed.call?

/-- Each statement that was sent is listed with the failure of the store at its place. -/
theorem results_failure {i : Nat} {r : StepResult}
    (h : ((deeds a ms answers failures).filterMap Deed.result?)[i]? = some r) :
    r.failure = failures[i]?.join.map Failure.text := by
  induction ms generalizing answers failures i with
  | nil => cases h
  | cons m ms ih =>
    cases m with
    | ask q =>
      rw [deeds] at h
      split at h
      · exact ih h
      · cases h
    | send st =>
      have hhead : failures[0]? = failures.head? := List.head?_eq_getElem?.symm
      rw [deeds] at h
      split at h
      · rename_i f hf
        -- the run ends with the statement that failed, so no other one is listed
        cases i with
        | zero =>
          cases h
          rw [hhead, hf]
          rfl
        | succ i => cases h
      · rename_i hnone
        cases i with
        | zero =>
          cases h
          rw [hhead]
          rcases hf : failures.head? with _ | _ | f
          · rfl
          · rfl
          · exact (hnone f hf).elim
        | succ i =>
          have hrest : r.failure = (failures.drop 1)[i]?.join.map Failure.text := ih h
          rwa [List.getElem?_drop, Nat.add_comm] at hrest

/-- Nothing is listed after a statement that failed. -/
theorem results_last {before rest : List StepResult} {r : StepResult}
    (h : (deeds a ms answers failures).filterMap Deed.result? = before ++ r :: rest)
    (hfailed : r.failure.isSome) : rest = [] := by
  obtain ⟨first, second, hdeeds, -, hsecond⟩ := List.filterMap_eq_append_iff.1 h
  obtain ⟨others, d, last, rfl, -, hd, hlast⟩ := List.filterMap_eq_cons_iff.1 hsecond
  rw [← List.append_assoc] at hdeeds
  have hnot : d.succeeds = false := by
    cases d with
    | asked q approved => cases hd
    | sent step f =>
      cases hd
      cases f with
      | none => cases hfailed
      | some f => rfl
  rw [(deeds_succeed hdeeds).2 hnot] at hlast
  exact hlast.symm

/-! ## Whether the table is dropped -/

/-- The watch that tells whether a table was dropped. -/
def dropsTable : Watch Bool where
  onAsk dropped _ := dropped
  allows _ _ := True
  onSend dropped statement := dropped || statement.kind == .dropTable

theorem after_dropsTable {dropped : Bool} :
    ms.foldl dropsTable.after dropped = true ↔
      dropped = true ∨ ∃ r ∈ (ms.map done).filterMap Deed.result?, r.DropsTable := by
  induction ms generalizing dropped with
  | nil => simp
  | cons m ms ih =>
    rw [List.foldl_cons, ih]
    cases m with
    | ask q => rfl
    | send st =>
      have hafter : dropsTable.after dropped (.send st) = true ↔
          dropped = true ∨ st.statement.kind = .dropTable := by
        simp [Watch.after, dropsTable]
      have hcons : ((Move.send st :: ms).map done).filterMap Deed.result? =
          ⟨st, none⟩ :: (ms.map done).filterMap Deed.result? := rfl
      rw [hafter, hcons, List.exists_mem_cons_iff, or_assoc]
      rfl

/-- No statement but the drop of the table tells the watch that the table was dropped. -/
theorem preserves_dropsTable (t : Table) (dropped : Bool) :
    dropsTable.PreservesTable t (· = dropped) where
  ask _ _ h := ⟨trivial, h⟩
  send s statement h _ hkind := by
    refine ⟨trivial, ?_⟩
    change (s || statement.kind == .dropTable) = dropped
    rw [beq_eq_false_iff_ne.2 hkind, Bool.or_false, h]

variable {t : Table} {policy : Policy} {live : Option LiveTable} {l : LiveTable}

/-- To create the table anew is to drop it. -/
theorem drops_recreate {dropped : Bool} :
    Keeps dropsTable dropped (recreate t l) fun _ s => s = true := by
  refine Keeps.bind (((preserves_dropsTable t dropped).dropViews rfl).mono fun _ s _ => ?_)
  refine Keeps.bind (Keeps.dropTable fun _ _ => ⟨trivial, ?_⟩)
  exact (preserves_dropsTable t true).createAll (Bool.or_true s)

/-! ## The state that a plan comes to -/

/-- What the state of a run that was not ended by a failure says of it. -/
structure StateTells (live : Option LiveTable) (dropped : Prop) (state : MigrationState) :
    Prop where
  created : state = .created ↔ live = none
  recreated : state = .recreated ↔ dropped
  altered : state ≠ .created → state ≠ .noOp → state ≠ .recreated → state = .altered

theorem tells_recreateAsking : Keeps dropsTable false (recreateAsking t l) fun state dropped =>
    StateTells (some l) (dropped = true) state := by
  refine Keeps.bind (Keeps.ask trivial ?_)
  exact Keeps.bind (drops_recreate.mono fun _ _ hs => Keeps.pure ⟨by simp, by simp [hs], by simp⟩)

theorem tells_alter {d : SchemaDiff} :
    Keeps dropsTable false (alter t l d) fun state dropped =>
      StateTells (some l) (dropped = true) state := by
  have hkept := preserves_dropsTable t false
  have hanew : ∀ (l : LiveTable) (s : Bool), s = false →
      Keeps dropsTable s (recreate t l) fun _ s => s = true := fun _ _ _ => drops_recreate
  refine Keeps.bind ((hkept.applyDiffs hanew rfl).mono fun l? s hs => ?_)
  cases l? with
  | none => exact Keeps.pure ⟨by simp, by simpa using hs, by simp⟩
  | some l' =>
    exact Keeps.bind ((hkept.reconcile (by simpa using hs)).mono fun _ _ hs =>
      Keeps.pure ⟨by simp, by simp [hs], by simp⟩)

/-- The state that a plan comes to tells whether there was a table and whether it is dropped. -/
theorem tells_plan : Keeps dropsTable false (plan t policy live) fun state dropped =>
    StateTells live (dropped = true) state := by
  cases live with
  | none =>
    exact Keeps.bind (((preserves_dropsTable t false).createAll rfl).mono fun _ _ hs =>
      Keeps.pure ⟨by simp, by simp [hs], by simp⟩)
  | some l =>
    refine Keeps.bind (Keeps.lift fun d _ => ?_)
    split
    · exact Keeps.pure ⟨by simp, by simp, by simp⟩
    cases policy with
    | safe => exact Keeps.fail
    | drop => exact tells_recreateAsking
    | alter =>
      dsimp only
      split
      · exact tells_recreateAsking
      · exact tells_alter

/-- A plan that comes to the state of nothing to do has no moves. -/
theorem plan_noOp (h : (plan t policy live).outcome = .ok .noOp) :
    (plan t policy live).moves = [] := by
  have hrecreate : ∀ {l : LiveTable}, (recreateAsking t l).outcome ≠ .ok .noOp := by
    intro l h
    obtain ⟨_, -, h, -⟩ := bind_ok h
    obtain ⟨_, -, h, -⟩ := bind_ok h
    cases h
  cases live with
  | none =>
    obtain ⟨_, -, h, -⟩ := bind_ok h
    cases h
  | some l =>
    obtain ⟨d, -, hrest, hmoves⟩ := bind_ok h
    rw [show (plan t policy (some l)).moves = _ from hmoves]
    split at hrest
    · rename_i hempty
      rw [if_pos hempty]
      rfl
    cases policy with
    | safe => cases hrest
    | drop => exact absurd hrest hrecreate
    | alter =>
      dsimp only at hrest
      split at hrest
      · exact absurd hrest hrecreate
      · obtain ⟨l?, -, hrest, -⟩ := bind_ok hrest
        cases l? with
        | none => cases hrest
        | some l' =>
          obtain ⟨_, -, hrest, -⟩ := bind_ok hrest
          cases hrest

/-! ## The result -/

variable {settings : Settings} {source : LiveSource} {s : Session}

/-- The result of a synchronization that went from `s` to `s'` tells what was done. The steps are
the statements that were sent, in order, each with the failure of the store, and only the last one
can have failed. What did not succeed ended the run. The state is that of a failure exactly when
there was one, and otherwise it tells what became of the table. -/
structure Reports (settings : Settings) (source : LiveSource) (t : Table) (s : Session)
    (r : MigrationResult × Option Failure) (s' : Session) : Prop where
  recorded : Recorded (approver settings) t.name (fetched settings source t s).2
    (syncDeeds settings source t s) s'
  sent : s'.store.sent = (r.1.steps.map StepResult.call).reverse ++
    (fetched settings source t s).2.store.sent
  failure : ∀ (i : Nat) (step : StepResult), r.1.steps[i]? = some step →
    step.failure = (fetched settings source t s).2.store.failures[i]?.join.map Failure.text
  last : ∀ before (step : StepResult) rest, r.1.steps = before ++ step :: rest →
    step.failure.isSome → rest = []
  stops : ∀ before (d : Deed) rest, syncDeeds settings source t s = before ++ d :: rest →
    d.succeeds = false → rest = [] ∧ r.2 = d.failure? t.name
  failed : r.1.state = .failed ↔ r.2.isSome
  noOp : r.1.state = .noOp → r.1.steps = []
  state : r.2 = none → ∃ live, (fetched settings source t s).1 = .ok live ∧
    StateTells live (∃ step ∈ r.1.steps, step.DropsTable) r.1.state

/-- A run that does not fail makes every move of its plan and comes to its state. -/
theorem syncOutcome_ok {state : MigrationState} (h : syncOutcome settings source t s = .ok state) :
    ∃ live, (fetched settings source t s).1 = .ok live ∧
      syncDeeds settings source t s = (plan t settings.effectivePolicy live).moves.map done ∧
      (plan t settings.effectivePolicy live).outcome = .ok state := by
  rcases hfetched : fetched settings source t s with ⟨f | live, s₁⟩
  · unfold syncOutcome at h
    rw [hfetched] at h
    cases h
  refine ⟨live, rfl, ?_⟩
  have hdeeds := syncDeeds_of_fetched hfetched
  rw [syncOutcome_of_fetched hfetched] at h
  cases hstop : stop t.name (syncDeeds settings source t s) with
  | some f =>
    rw [hstop] at h
    cases h
  | none =>
    rw [hstop] at h
    have hsucceeds : ∀ d ∈ syncDeeds settings source t s, d.succeeds := by
      intro d hd
      have hnone := List.findSome?_eq_none_iff.1 hstop d hd
      match d, hnone with
      | .asked _ true, _ => rfl
      | .sent _ none, _ => rfl
    rw [hdeeds] at hsucceeds ⊢
    exact ⟨deeds_complete hsucceeds, h⟩

/-- The state of a plan whose moves are all made, as the steps tell it. -/
theorem tells_steps {state : MigrationState} (h : (plan t policy live).outcome = .ok state) :
    StateTells live
      (∃ r ∈ ((plan t policy live).moves.map done).filterMap Deed.result?, r.DropsTable)
      state := by
  have htells := tells_plan.2 state h
  refine ⟨htells.created, htells.recreated.trans ?_, htells.altered⟩
  rw [after_dropsTable]
  simp

/-- Every synchronization reports what it did. -/
theorem sync_tells (settings : Settings) (source : LiveSource) (t : Table) (s : Session) :
    ∃ r s', (sync settings source t).perform s = (.ok r, s') ∧
      r.1.steps = (syncDeeds settings source t s).filterMap Deed.result? ∧
      Reports settings source t s r s' := by
  obtain ⟨r, s', hs', hanswers, hrecorded⟩ := sync_spec settings source t s
  have hsteps := hanswers.steps
  have hdeeds := syncDeeds_eq settings source t s
  have hsent : s'.store.sent = (r.1.steps.map StepResult.call).reverse ++
      (fetched settings source t s).2.store.sent := by
    rw [hrecorded.sent, hsteps, calls_of_results]
  refine ⟨r, s', hs', hsteps, ?_⟩
  -- the first deed that is no success ends the run, and the run fails with it
  have hstops : ∀ before (d : Deed) rest, syncDeeds settings source t s = before ++ d :: rest →
      d.succeeds = false → rest = [] ∧ r.2 = d.failure? t.name := by
    intro before d rest h hd
    obtain ⟨hbefore, hrest⟩ := deeds_succeed (hdeeds ▸ h)
    obtain rfl := hrest hd
    obtain ⟨f, hf, houtcome⟩ := syncOutcome_stops h hbefore hd
    exact ⟨rfl, by rw [hanswers.failure, houtcome, hf]⟩
  have hlisted : ∀ (i : Nat) (step : StepResult), r.1.steps[i]? = some step →
      step.failure =
        (fetched settings source t s).2.store.failures[i]?.join.map Failure.text := by
    intro i step h
    rw [hsteps, hdeeds] at h
    exact results_failure h
  have hlast : ∀ before (step : StepResult) rest, r.1.steps = before ++ step :: rest →
      step.failure.isSome → rest = [] := by
    intro before step rest h
    rw [hsteps, hdeeds] at h
    exact results_last h
  cases houtcome : syncOutcome settings source t s with
  | error f =>
    have hfailed := hanswers.failed f houtcome
    have hraised : r.2 = some f := by rw [hanswers.failure, houtcome]
    exact ⟨hrecorded, hsent, hlisted, hlast, hstops, by simp [hfailed, hraised],
      by simp [hfailed], by simp [hraised]⟩
  | ok state =>
    obtain ⟨live, hlive, hall, hplan⟩ := syncOutcome_ok houtcome
    have hstate := hanswers.state state houtcome
    have hnone : r.2 = none := by rw [hanswers.failure, houtcome]
    have htells := tells_steps hplan
    rw [← hall, ← hsteps, ← hstate] at htells
    refine ⟨hrecorded, hsent, hlisted, hlast, hstops, ?_, fun hnoOp => ?_, fun _ =>
      ⟨live, hlive, htells⟩⟩
    · rw [hnone, hstate]
      cases state with
      | failed => exact absurd (htells.altered (by simp [hstate]) (by simp [hstate])
          (by simp [hstate])) (by simp [hstate])
      | _ => simp
    · rw [hsteps, hall, plan_noOp (hnoOp ▸ hstate ▸ hplan)]
      rfl

/-- Every synchronization reports what it did, and what it sent is the beginning of what a
synchronization sends that nothing hinders and that has the same policy and finds the same table. It
is all of it unless the live table was not found or a deed did not succeed. -/
theorem sync_reports (settings : Settings) (source : LiveSource) (s : Session)
    {settings₀ : Settings} {source₀ : LiveSource} {s₀ : Session} {t : Table}
    {live : Option LiveTable} (hpolicy : settings.effectivePolicy = settings₀.effectivePolicy)
    (hfound : ∀ l, (fetched settings source t s).1 = .ok l → l = live)
    (hfull : Unhindered settings₀ source₀ t s₀ live) :
    ∃ r s' r₀ s₀', (sync settings source t).perform s = (.ok r, s') ∧
      (sync settings₀ source₀ t).perform s₀ = (.ok r₀, s₀') ∧
      Reports settings source t s r s' ∧ Reports settings₀ source₀ t s₀ r₀ s₀' ∧
      r.1.steps.map StepResult.call <+: r₀.1.steps.map StepResult.call ∧
      ((∃ l, (fetched settings source t s).1 = .ok l) →
        (∀ d ∈ syncDeeds settings source t s, d.succeeds) →
        r.1.steps.map StepResult.call = r₀.1.steps.map StepResult.call) := by
  obtain ⟨r, s', hs', hsteps, hreports⟩ := sync_tells settings source t s
  obtain ⟨r₀, s₀', hs₀', hsteps₀, hreports₀⟩ := sync_tells settings₀ source₀ t s₀
  refine ⟨r, s', r₀, s₀', hs', hs₀', hreports, hreports₀, ?_, ?_⟩
  · rw [hsteps, hsteps₀, calls_of_results, calls_of_results, hfull.deeds_eq.1]
    rcases hfetched : fetched settings source t s with ⟨f | l, s₁⟩
    · rw [syncDeeds_of_error hfetched]
      exact List.nil_prefix
    · rw [syncDeeds_of_fetched hfetched, hfound l (by rw [hfetched]), hpolicy]
      exact calls_of_deeds _ _ _ _
  · rintro ⟨l, hl⟩ hsucceeds
    have hfetched : fetched settings source t s = (.ok l, (fetched settings source t s).2) :=
      Prod.ext hl rfl
    have hdeeds := syncDeeds_of_fetched hfetched
    rw [hdeeds] at hsucceeds
    rw [hsteps, hsteps₀, hfull.deeds_eq.1, hdeeds, deeds_complete hsucceeds, hfound l hl, hpolicy]

/-! ### A run that the store interrupts -/

/-- A session whose store fails at the second statement. -/
def interrupted : Session :=
  { store := { failures := [none, some (.thrown .runtime "gone" .null)] } }

/-- The view over the age is dropped, the drop of the index fails, and nothing more is sent; without
the failure two more statements are. -/
theorem reports_interrupted :
    (∃ r s' r₀ s₀',
      (sync altering (.given (.ok (some usersWithAge))) viewed).perform interrupted = (.ok r, s') ∧
      (sync altering (.given (.ok (some usersWithAge))) viewed).perform {} = (.ok r₀, s₀') ∧
      Reports altering (.given (.ok (some usersWithAge))) viewed interrupted r s' ∧
      Reports altering (.given (.ok (some usersWithAge))) viewed {} r₀ s₀' ∧
      r.1.steps.map StepResult.call <+: r₀.1.steps.map StepResult.call) ∧
    ((syncDeeds altering (.given (.ok (some usersWithAge))) viewed interrupted).filterMap
      Deed.result?).map (fun r => (r.call.statement, r.failure)) = [
        ("DROP MATERIALIZED VIEW IF EXISTS \"by_name\";", none),
        ("DROP INDEX IF EXISTS \"users_age_idx\";", some "gone")] ∧
    ((syncDeeds altering (.given (.ok (some usersWithAge))) viewed {}).filterMap
      Deed.result?).length = 4 := by
  have hfull : Unhindered altering (.given (.ok (some usersWithAge))) viewed {}
      (some usersWithAge) := ⟨rfl, .inr fun _ h => (nomatch h), fun _ h => (nomatch h)⟩
  obtain ⟨r, s', r₀, s₀', hs', hs₀', hreports, hreports₀, hinitial, -⟩ :=
    sync_reports altering (.given (.ok (some usersWithAge))) interrupted rfl
      (fun l hl => (Except.ok.inj hl).symm) hfull
  exact ⟨⟨r, s', r₀, s₀', hs', hs₀', hreports, hreports₀, hinitial⟩, by with_unfolding_all rfl,
    by with_unfolding_all rfl⟩

end Migration

end WideColumn
