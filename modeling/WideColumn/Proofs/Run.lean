import WideColumn.Migration.Run
import WideColumn.Proofs.Action
import WideColumn.Proofs.Draft

/-!
# What a run of a migration does

A run makes the moves of a plan in order, and stops at the first question that is not approved and
at the first statement that fails. `Migration.deeds` gives what it does as a function of the moves,
of the answers and of the failures of the store; `Migration.perform_deeds` says that a run does just
that, in the order in which the journal tells of it: the deeds are the statements that the store was
sent, the questions that were put to the operator and the notices in the journal.

Everything that is allowed to the moves of a plan (`Watch.AllowsAll`) is allowed to the deeds of
every run of it (`Watch.allows_deeds`).
-/

namespace WideColumn

/-! ## Deeds -/

/-- Something that a run of a migration does. -/
inductive Deed where
  | asked (q : Question) (approved : Bool)
  | sent (step : Step) (failure : Option Failure)

namespace Migration

/-- The answer that is given next. -/
def nextAnswer (a : Approver) (answers : List Value) : Value :=
  match a with
  | .automatic => .text "y"
  | .operator => answers.head?.getD (.text "y")

/-- The answers that are left after one was given. -/
def laterAnswers (a : Approver) (answers : List Value) : List Value :=
  match a with
  | .automatic => answers
  | .operator => answers.drop 1

/-- What a run does that makes moves, given the answers to come and the failures of the store. -/
def deeds (a : Approver) : List Move → List Value → List (Option Failure) → List Deed
  | [], _, _ => []
  | .ask q :: ms, answers, failures =>
    if isApproved (nextAnswer a answers) then
      .asked q true :: deeds a ms (laterAnswers a answers) failures
    else [.asked q false]
  | .send st :: ms, answers, failures =>
    match failures.head? with
    | some (some f) => [.sent st (some f)]
    | _ => .sent st none :: deeds a ms answers (failures.drop 1)

/-- The refusal of a change that is not approved. -/
def declined (table : String) (q : Question) : Refusal :=
  Refusal.schemaMismatch (.text table)
    (.text ("Migration declined for table '" ++ table ++ "': " ++ q.prompt table))

/-- A failure in a phase as a refusal. -/
def failureIn (phase : Phase) (table : String) (statement : Value) : Failure → Failure
  | .refusal r => .refusal r
  | f => .refusal (Refusal.definitionFailed phase f.toCause statement
      (details [("table", .text table)]))

end Migration

namespace Deed

/-- The statement that was sent, as the result of a migration lists it. -/
def result? : Deed → Option StepResult
  | asked _ _ => none
  | sent step f => some ⟨step, f.map Failure.text⟩

/-- What the store was sent. -/
def call? : Deed → Option Call
  | asked _ _ => none
  | sent step _ => some ⟨step.statement.render, [], .definition⟩

/-- What an operator was asked about a table. -/
def prompt? (a : Approver) (table : String) : Deed → Option String
  | asked q _ => match a with
    | .automatic => none
    | .operator => some (q.prompt table)
  | sent _ _ => none

/-- The failure with which the deed ends the run. -/
def failure? (table : String) : Deed → Option Failure
  | asked q false => some (.refusal (Migration.declined table q))
  | sent step (some f) =>
    some (Migration.failureIn step.phase table (.text step.statement.render) f)
  | _ => none

end Deed

/-- What the journal says when a question is put or a statement is sent. -/
inductive Notice where
  | question (prompt : String)
  | statement (text : String)
  deriving DecidableEq

/-- What is said of a deed. -/
def Deed.notice (table : String) : Deed → Notice
  | asked q _ => .question (q.prompt table)
  | sent step _ => .statement step.statement.render

/-- The text among the extras of a journal entry. -/
def Entry.text? (e : Entry) (name : String) : Option String :=
  (e.extras.lookup name).bind Value.text?

/-- The entry tells of a question or of a statement. -/
def Entry.notice? (e : Entry) : Option Notice :=
  if e.logger = Migration.logger ∧ e.message = "migration.confirmation.requested" then
    (e.text? "prompt").map .question
  else if e.logger = "cqlflow.migration.pipeline" ∧ e.message = "migration.ddl.execute" then
    (e.text? "statement").map .statement
  else none

/-- The questions and statements of which the journal tells, the latest first. -/
def Session.notices (s : Session) : List Notice := s.journal.filterMap Entry.notice?

/-- From one session to the other nothing was asked and nothing was sent. -/
structure Session.Quiet (s s' : Session) : Prop where
  store : s'.store = s.store
  answers : s'.answers = s.answers
  asked : s'.asked = s.asked
  notices : s'.notices = s.notices

namespace Session.Quiet

theorem refl (s : Session) : Session.Quiet s s := ⟨rfl, rfl, rfl, rfl⟩

theorem trans {s₁ s₂ s₃ : Session} (h : Session.Quiet s₁ s₂) (h' : Session.Quiet s₂ s₃) :
    Session.Quiet s₁ s₃ :=
  ⟨h'.store.trans h.store, h'.answers.trans h.answers, h'.asked.trans h.asked,
    h'.notices.trans h.notices⟩

end Session.Quiet

/-! ## Quiet parts of a run -/

namespace Action

/-- A line under any other logger is no notice. -/
theorem note_quiet {level : Int} {logger message : String} {extras : List (String × Value)}
    {exception : Option String} (s : Session)
    (h : Entry.notice? ⟨level, logger, message, extras, exception, s.requestId, s.table,
      s.active⟩ = none) :
    ∃ s', (note level logger message extras exception).perform s = (.ok (), s') ∧
      s.Quiet s' := by
  refine ⟨_, rfl, rfl, rfl, rfl, ?_⟩
  simp only [Session.notices, List.filterMap_cons, h]

/-- That a refusal is made is no notice. -/
theorem noteRefusal_quiet (r : Refusal) (s : Session) :
    ∃ s', (noteRefusal r).perform s = (.ok (), s') ∧ s.Quiet s' :=
  note_quiet s rfl

/-- Failing leaves a line in the journal at most. -/
theorem fail_quiet {α : Type} (f : Failure) (s : Session) :
    ∃ s', (fail f : Action α).perform s = (.error f, s') ∧ s.Quiet s' := by
  cases f with
  | refusal r =>
    obtain ⟨s', hs', hquiet⟩ := noteRefusal_quiet r s
    refine ⟨s', ?_, hquiet⟩
    change (noteRefusal r >>= fun _ => throw (.refusal r)).perform s = _
    rw [perform_bind, hs']
    rfl
  | _ => exact ⟨s, rfl, .refl s⟩

/-- A span and what is recorded on it are no part of what is asked and sent. -/
theorem tracedOutcome_ok {α : Type} {name : String} {attributes : List (Value × Value)}
    {a : Action (α × Option Failure)} {s s₀ s₁ : Session} {place : Nat} {r : α × Option Failure}
    (hopen : (openSpan name attributes).perform s = (.ok place, s₀))
    (h : a.perform s₀ = (.ok r, s₁)) :
    ∃ s₂, (tracedOutcome name attributes a).perform s = (.ok r, s₂) ∧ s₁.Quiet s₂ := by
  unfold tracedOutcome
  simp only [perform_bind, hopen, perform_attempt, h]
  rcases r with ⟨x, _ | f⟩
  · exact ⟨s₁, rfl, .refl s₁⟩
  · exact ⟨((recordFailure place f).perform s₁).2, rfl, rfl, rfl, rfl, rfl⟩

/-- Neither is the context. -/
theorem inTable_ok {α : Type} {table : String} {a : Action α} {s s₁ : Session} {x : α}
    (h : a.perform { s with table := some table } = (.ok x, s₁)) :
    ∃ s₂, (inTable table a).perform s = (.ok x, s₂) ∧ s₁.Quiet s₂ := by
  refine ⟨{ s₁ with table := s.table }, ?_, rfl, rfl, rfl, rfl⟩
  unfold inTable
  simp only [perform_bind, perform_get, perform_modify, perform_attempt, h]
  rfl

/-- So does coming to the value of a computation without effects. -/
theorem lift_quiet {α : Type} (r : Except Failure α) (s : Session) :
    ∃ s', (lift r).perform s = (r, s') ∧ s.Quiet s' := by
  cases r with
  | ok a => exact ⟨s, rfl, .refl s⟩
  | error f => exact fail_quiet f s

end Action

/-! ## Single moves -/

namespace Migration

variable {a : Approver} {table : String}

/-- The session is where the deeds lead to: everything they sent and asked is recorded, and the
answers and failures they took are gone. -/
structure Recorded (a : Approver) (table : String) (s : Session) (ds : List Deed)
    (s' : Session) : Prop where
  sent : s'.store.sent = (ds.filterMap Deed.call?).reverse ++ s.store.sent
  asked : s'.asked = (ds.filterMap (Deed.prompt? a table)).reverse ++ s.asked
  notices : s'.notices = (ds.map (Deed.notice table)).reverse ++ s.notices

theorem Recorded.of_quiet {s s' : Session} (h : s.Quiet s') : Recorded a table s [] s' :=
  ⟨by rw [h.store]; rfl, h.asked, h.notices⟩

theorem Recorded.append {s₁ s₂ s₃ : Session} {ds ds' : List Deed}
    (h : Recorded a table s₁ ds s₂) (h' : Recorded a table s₂ ds' s₃) :
    Recorded a table s₁ (ds ++ ds') s₃ := by
  refine ⟨?_, ?_, ?_⟩
  · rw [h'.sent, h.sent, List.filterMap_append, List.reverse_append, List.append_assoc]
  · rw [h'.asked, h.asked, List.filterMap_append, List.reverse_append, List.append_assoc]
  · rw [h'.notices, h.notices, List.map_append, List.reverse_append, List.append_assoc]

/-- A line in the journal that makes a notice. -/
theorem note_notice {level : Int} {logger message : String} {extras : List (String × Value)}
    {n : Notice} (s : Session)
    (h : Entry.notice? ⟨level, logger, message, extras, none, s.requestId, s.table, s.active⟩ =
      some n) :
    ∃ s', (Action.note level logger message extras).perform s = (.ok (), s') ∧
      s'.store = s.store ∧ s'.answers = s.answers ∧ s'.asked = s.asked ∧
      s'.notices = n :: s.notices := by
  refine ⟨_, rfl, rfl, rfl, rfl, ?_⟩
  simp only [Session.notices, List.filterMap_cons, h]

/-- The line that says that a question is put. -/
theorem notice?_requested (table : String) (q : Question) (s : Session) :
    Entry.notice? ⟨20, logger, "migration.confirmation.requested",
      [("table", .text table), ("prompt", .text (q.prompt table))], none, s.requestId, s.table,
      s.active⟩ = some (.question (q.prompt table)) := by
  rw [Entry.notice?, if_pos ⟨rfl, rfl⟩]
  rfl

/-- The line that says that a statement is sent. -/
theorem notice?_execute (st : Step) (s : Session) :
    Entry.notice? ⟨20, "cqlflow.migration.pipeline", "migration.ddl.execute",
      [("step", .text st.name), ("phase", .text st.phase.name),
        ("statement", .text st.statement.render)], none, s.requestId, s.table, s.active⟩ =
      some (.statement st.statement.render) := by
  have hmessage : "migration.ddl.execute" ≠ "migration.confirmation.requested" := by decide
  rw [Entry.notice?, if_neg fun hand => hmessage hand.2, if_pos ⟨rfl, rfl⟩]
  rfl

/-- Answering takes an answer from the operator and records the prompt; no notice is made. -/
theorem answer_spec (prompt : String) (s : Session) :
    ∃ s', (answer a prompt).perform s = (.ok (nextAnswer a s.answers), s') ∧
      s'.store = s.store ∧ s'.answers = laterAnswers a s.answers ∧ s'.notices = s.notices ∧
      s'.asked = (match a with | .automatic => [] | .operator => [prompt]) ++ s.asked := by
  cases a with
  | automatic =>
    obtain ⟨s', hs', hquiet⟩ : ∃ s', (Action.note 20 "cqlflow.migration.confirmation"
        "migration.confirmation.auto_approved" [("prompt", .text prompt)]).perform s =
          (.ok (), s') ∧ s.Quiet s' := Action.note_quiet s rfl
    refine ⟨s', ?_, hquiet.store, hquiet.answers, hquiet.notices, hquiet.asked⟩
    unfold answer
    rw [Action.perform_bind, hs']
    rfl
  | operator => exact ⟨_, rfl, rfl, rfl, rfl, rfl⟩

/-- A question is put once; it is approved or refused. -/
theorem confirm_spec (table : String) (q : Question) (s : Session) :
    ∃ s', (confirm a table q).perform s =
        (if isApproved (nextAnswer a s.answers) then .ok ()
          else .error (.refusal (declined table q)), s') ∧
      s'.store.failures = s.store.failures ∧ s'.answers = laterAnswers a s.answers ∧
      Recorded a table s [.asked q (isApproved (nextAnswer a s.answers))] s' := by
  obtain ⟨s₁, hs₁, hstore₁, hanswers₁, hasked₁, hnotices₁⟩ :=
    note_notice s (notice?_requested table q s)
  obtain ⟨s₂, hs₂, hstore₂, hanswers₂, hnotices₂, hasked₂⟩ :=
    answer_spec (a := a) (q.prompt table) s₁
  rw [hanswers₁] at hs₂ hanswers₂
  have hrecorded : Recorded a table s [.asked q (isApproved (nextAnswer a s.answers))] s₂ := by
    refine ⟨?_, ?_, ?_⟩
    · simp [hstore₂, hstore₁, Deed.call?]
    · rw [hasked₂, hasked₁]
      cases a <;> simp [Deed.prompt?]
    · simp [hnotices₂, hnotices₁, Deed.notice]
  unfold confirm
  simp only [Action.perform_bind, hs₁, hs₂]
  revert hrecorded
  cases isApproved (nextAnswer a s.answers) with
  | true =>
    intro hrecorded
    exact ⟨s₂, rfl, by rw [hstore₂, hstore₁], hanswers₂, hrecorded⟩
  | false =>
    intro hrecorded
    obtain ⟨s₃, hs₃, hquiet₃⟩ : ∃ s', (Action.note 30 logger "migration.confirmation.declined"
        [("table", .text table), ("prompt", .text (q.prompt table))]).perform s₂ =
          (.ok (), s') ∧ s₂.Quiet s' := Action.note_quiet s₂ rfl
    obtain ⟨s₄, hs₄, hquiet₄⟩ := Action.fail_quiet (α := Unit) (.refusal (declined table q)) s₃
    have hquiet := hquiet₃.trans hquiet₄
    refine ⟨s₄, ?_, by rw [hquiet.store, hstore₂, hstore₁], hquiet.answers.trans hanswers₂,
      hrecorded.append (.of_quiet hquiet)⟩
    simp only [Bool.not_false, if_true, Action.perform_bind, hs₃]
    exact hs₄

/-- Sending records the call; then the store fails or answers. -/
theorem run_spec (statement : String) (s : Session) :
    ∃ s', ((Store.run statement [] .definition).perform s).2 = s' ∧
      ((Store.run statement [] .definition).perform s).1.map (fun _ => ()) =
        (match s.store.failures.head? with
          | some (some f) => .error f
          | _ => .ok ()) ∧
      s'.store.sent = ⟨statement, [], .definition⟩ :: s.store.sent ∧
      s'.store.failures = s.store.failures.drop 1 ∧
      s'.answers = s.answers ∧ s'.asked = s.asked ∧ s'.notices = s.notices := by
  unfold Store.run
  simp only [Action.perform_bind, Action.perform_get, Action.perform_set]
  rcases s.store.failures.head? with _ | _ | f
  · exact ⟨_, rfl, rfl, rfl, rfl, rfl, rfl, rfl⟩
  · exact ⟨_, rfl, rfl, rfl, rfl, rfl, rfl, rfl⟩
  · obtain ⟨s₂, hs₂, hquiet⟩ := Action.fail_quiet (α := List Value) f { s with store := {
      s.store with
      sent := ⟨statement, [], .definition⟩ :: s.store.sent
      failures := s.store.failures.drop 1 } }
    refine ⟨s₂, ?_, ?_, ?_, ?_, hquiet.answers, hquiet.asked, hquiet.notices⟩
    · exact congrArg Prod.snd hs₂
    · exact congrArg (fun r => r.1.map fun _ => ()) hs₂
    · rw [hquiet.store]
    · rw [hquiet.store]

/-- A statement is sent once, and the store fails or not. -/
theorem sendStep_spec (table : String) (st : Step) (s : Session) :
    ∃ s', (sendStep st).perform s = (.ok (match s.store.failures.head? with
        | some (some f) => .error f
        | _ => .ok ()), s') ∧
      s'.store.failures = s.store.failures.drop 1 ∧ s'.answers = s.answers ∧
      Recorded a table s [.sent st s.store.failures.head?.join] s' := by
  obtain ⟨s₁, hs₁, hstore₁, hanswers₁, hasked₁, hnotices₁⟩ :=
    note_notice s (notice?_execute st s)
  obtain ⟨s₂, hs₂, hresult, hsent₂, hfailures₂, hanswers₂, hasked₂, hnotices₂⟩ :=
    run_spec st.statement.render s₁
  refine ⟨s₂, ?_, by rw [hfailures₂, hstore₁], by rw [hanswers₂, hanswers₁], ?_, ?_, ?_⟩
  · unfold sendStep
    rw [hstore₁] at hresult
    rw [← hresult, ← hs₂]
    simp only [Action.perform_bind, hs₁, Action.perform_attempt]
    rcases (Store.run st.statement.render [] .definition).perform s₁ with ⟨_ | _, _⟩ <;> rfl
  · rw [hsent₂, hstore₁]
    rfl
  · rw [hasked₂, hasked₁]
    rfl
  · rw [hnotices₂, hnotices₁]
    rfl

/-- A failure becomes a refusal quietly. -/
theorem wrapped_spec (table : String) (phase : Phase) (statement : Value) (f : Failure)
    (s : Session) : ∃ s', (wrapped phase table statement f).perform s =
      (.ok (failureIn phase table statement f), s') ∧ s.Quiet s' := by
  cases f with
  | refusal r => exact ⟨s, rfl, .refl s⟩
  | _ => exact ⟨_, rfl, rfl, rfl, rfl, rfl⟩

/-! ## Whole runs -/

/-- The failure that ends a run. -/
def stop (table : String) (ds : List Deed) : Option Failure := ds.findSome? (Deed.failure? table)

/-- A run does its deeds, records them, and ends with the failure of the last one if that has
one. -/
theorem perform_deeds (table : String) : ∀ (ms : List Move) (s : Session),
    ∃ s', (perform a table ms).perform s =
        (.ok ((deeds a ms s.answers s.store.failures).filterMap Deed.result?,
          stop table (deeds a ms s.answers s.store.failures)), s') ∧
      Recorded a table s (deeds a ms s.answers s.store.failures) s'
  | [], s => ⟨s, rfl, .of_quiet (.refl s)⟩
  | .ask q :: ms, s => by
    obtain ⟨s₁, hs₁, hfailures₁, hanswers₁, hrecorded₁⟩ := confirm_spec (a := a) table q s
    unfold perform deeds
    simp only [Action.perform_bind, Action.perform_attempt, hs₁]
    revert hrecorded₁
    cases isApproved (nextAnswer a s.answers) with
    | false => exact fun hrecorded₁ => ⟨s₁, rfl, hrecorded₁⟩
    | true =>
      intro hrecorded₁
      obtain ⟨s₂, hs₂, hrecorded₂⟩ := perform_deeds table ms s₁
      rw [hanswers₁, hfailures₁] at hs₂ hrecorded₂
      exact ⟨s₂, hs₂, hrecorded₁.append hrecorded₂⟩
  | .send st :: ms, s => by
    obtain ⟨s₁, hs₁, hfailures₁, hanswers₁, hrecorded₁⟩ :=
      sendStep_spec (a := a) table st s
    obtain ⟨s₂, hs₂, hrecorded₂⟩ := perform_deeds table ms s₁
    rw [hanswers₁, hfailures₁] at hs₂ hrecorded₂
    unfold perform deeds
    simp only [Action.perform_bind, hs₁]
    revert hrecorded₁
    rcases s.store.failures.head? with _ | _ | f
    · intro hrecorded₁
      refine ⟨s₂, ?_, hrecorded₁.append hrecorded₂⟩
      simp only [Action.perform_bind, hs₂]
      rfl
    · intro hrecorded₁
      refine ⟨s₂, ?_, hrecorded₁.append hrecorded₂⟩
      simp only [Action.perform_bind, hs₂]
      rfl
    · intro hrecorded₁
      obtain ⟨s₃, hs₃, hquiet⟩ :=
        wrapped_spec table st.phase (.text st.statement.render) f s₁
      refine ⟨s₃, ?_, hrecorded₁.append (.of_quiet hquiet)⟩
      simp only [Action.perform_bind, hs₃]
      rfl

/-- A run of a draft comes to the outcome of the draft unless a deed ends it before. -/
theorem performDraft_deeds (table : String) (d : Draft MigrationState) (s : Session) :
    ∃ s', (performDraft a table d).perform s =
        (.ok ((deeds a d.moves s.answers s.store.failures).filterMap Deed.result?,
          match stop table (deeds a d.moves s.answers s.store.failures) with
          | some f => .error f
          | none => d.outcome), s') ∧
      Recorded a table s (deeds a d.moves s.answers s.store.failures) s' := by
  obtain ⟨s₁, hs₁, hrecorded⟩ := perform_deeds (a := a) table d.moves s
  unfold performDraft
  simp only [Action.perform_bind, hs₁]
  cases stop table (deeds a d.moves s.answers s.store.failures) with
  | some f => exact ⟨s₁, rfl, hrecorded⟩
  | none =>
    obtain ⟨s₂, hs₂, hquiet⟩ := Action.lift_quiet d.outcome s₁
    refine ⟨s₂, ?_, by simpa using hrecorded.append (.of_quiet hquiet)⟩
    simp only [Action.perform_bind, Action.perform_attempt, hs₂]
    rfl

/-! ## Synchronizing -/

/-- What comes before the live table is fetched: the span, the context and the policy. -/
def opening (settings : Settings) (t : Table) : Action Unit := do
  let _ ← Action.openSpan "cqlflow.migration.sync" (details [("cqlflow.table", .text t.name)])
  modify fun s => { s with table := some t.name }
  let policy ← settings.notedPolicy
  Action.note 20 logger "migration.plan.start"
    [("table", .text t.name), ("policy", .text policy.name)]

/-- The outcome of fetching the live table, and the session then. -/
def fetched (settings : Settings) (source : LiveSource) (t : Table) (s : Session) :
    Except Failure (Option LiveTable) × Session :=
  (fetchLive source t.name).perform ((opening settings t).perform s).2

/-- What a synchronization does once it has fetched the live table. -/
def syncDeeds (settings : Settings) (source : LiveSource) (t : Table) (s : Session) : List Deed :=
  match fetched settings source t s with
  | (.ok live, s₁) => deeds (approver settings) (plan t settings.effectivePolicy live).moves
      s₁.answers s₁.store.failures
  | (.error _, _) => []

/-- How a synchronization ends. -/
def syncOutcome (settings : Settings) (source : LiveSource) (t : Table) (s : Session) :
    Except Failure MigrationState :=
  match (fetched settings source t s).1 with
  | .ok live => match stop t.name (syncDeeds settings source t s) with
    | some f => .error f
    | none => (plan t settings.effectivePolicy live).outcome
  | .error f => .error f

theorem syncDeeds_of_fetched {settings : Settings} {source : LiveSource} {t : Table}
    {s s₁ : Session} {live : Option LiveTable}
    (h : fetched settings source t s = (.ok live, s₁)) :
    syncDeeds settings source t s = deeds (approver settings)
      (plan t settings.effectivePolicy live).moves s₁.answers s₁.store.failures := by
  unfold syncDeeds
  rw [h]

theorem syncDeeds_of_error {settings : Settings} {source : LiveSource} {t : Table}
    {s s₁ : Session} {f : Failure} (h : fetched settings source t s = (.error f, s₁)) :
    syncDeeds settings source t s = [] := by
  unfold syncDeeds
  rw [h]

theorem syncOutcome_of_fetched {settings : Settings} {source : LiveSource} {t : Table}
    {s s₁ : Session} {live : Option LiveTable}
    (h : fetched settings source t s = (.ok live, s₁)) :
    syncOutcome settings source t s = match stop t.name (syncDeeds settings source t s) with
      | some f => .error f
      | none => (plan t settings.effectivePolicy live).outcome := by
  unfold syncOutcome
  rw [h]

/-- The policy is noted quietly. -/
theorem notedPolicy_quiet (settings : Settings) (s : Session) :
    ∃ s', (settings.notedPolicy).perform s = (.ok settings.effectivePolicy, s') ∧ s.Quiet s' := by
  unfold Settings.notedPolicy
  split
  · obtain ⟨s', hs', hquiet⟩ : ∃ s', (Action.note 30 "cqlflow.settings.main"
        "settings.migration.forced_safe" [
          ("configured_policy", .text settings.migration.policy.name),
          ("app_env", .text settings.appEnv)]).perform s = (.ok (), s') ∧ s.Quiet s' :=
      Action.note_quiet s rfl
    refine ⟨s', ?_, hquiet⟩
    simp only [Action.perform_bind, hs']
    rfl
  · exact ⟨s, rfl, .refl s⟩

/-- The start is noted quietly. -/
theorem start_quiet (t : Table) (policy : Policy) (s : Session) :
    ∃ s', (Action.note 20 logger "migration.plan.start"
        [("table", .text t.name), ("policy", .text policy.name)]).perform s = (.ok (), s') ∧
      s.Quiet s' :=
  Action.note_quiet s rfl

/-- So is the end. -/
theorem noteEnd_quiet (r : MigrationResult) (s : Session) :
    ∃ s', (noteEnd r).perform s = (.ok (), s') ∧ s.Quiet s' := by
  unfold noteEnd
  cases r.error with
  | none => exact Action.note_quiet s rfl
  | some e => exact Action.note_quiet s rfl

/-- What a synchronization answers: its steps, the failure, the state, which is that of the outcome
when there is no failure, and the refusal if the failure is one. -/
structure Answers (outcome : Except Failure MigrationState) (ds : List Deed)
    (r : MigrationResult × Option Failure) : Prop where
  steps : r.1.steps = ds.filterMap Deed.result?
  failure : r.2 = match outcome with
    | .ok _ => none
    | .error f => some f
  state : ∀ state, outcome = .ok state → r.1.state = state
  failed : ∀ f, outcome = .error f → r.1.state = .failed
  error : ∀ e, r.1.error = some e ↔ outcome = .error (.refusal e)

/-- Carrying out the plan of a table that was fetched. -/
theorem carryOut_spec (source : LiveSource) (t : Table) (policy : Policy) (s : Session) :
    ∃ ds outcome s', (carryOut a source t policy).perform s =
        (.ok (ds.filterMap Deed.result?, outcome), s') ∧
      Recorded a t.name ((fetchLive source t.name).perform s).2 ds s' ∧
      match (fetchLive source t.name).perform s with
      | (.error f, _) => ds = [] ∧ outcome = .error f
      | (.ok live, s₁) =>
        ds = deeds a (plan t policy live).moves s₁.answers s₁.store.failures ∧
        outcome = match stop t.name ds with
          | some f => .error f
          | none => (plan t policy live).outcome := by
  unfold carryOut
  simp only [Action.perform_bind, Action.perform_attempt]
  rcases (fetchLive source t.name).perform s with ⟨f | live, s₁⟩
  · exact ⟨[], .error f, s₁, rfl, .of_quiet (.refl s₁), rfl, rfl⟩
  · obtain ⟨s₂, hs₂, hrecorded⟩ :=
      performDraft_deeds (a := a) t.name (plan t policy live) s₁
    exact ⟨_, _, s₂, hs₂, hrecorded, rfl, rfl⟩

/-- A synchronization does its deeds and answers how they ended. -/
theorem synchronize_spec (settings : Settings) (source : LiveSource) (t : Table) (s : Session)
    {s₀ : Session} (hs₀ : ((do
      let policy ← settings.notedPolicy
      Action.note 20 logger "migration.plan.start"
        [("table", .text t.name), ("policy", .text policy.name)] : Action Unit).perform s).2 = s₀) :
    ∃ ds outcome r s', (synchronize settings a source t).perform s = (.ok r, s') ∧
      Answers outcome ds r ∧ Recorded a t.name ((fetchLive source t.name).perform s₀).2 ds s' ∧
      match (fetchLive source t.name).perform s₀ with
      | (.error f, _) => ds = [] ∧ outcome = .error f
      | (.ok live, s₁) =>
        ds = deeds a (plan t settings.effectivePolicy live).moves s₁.answers s₁.store.failures ∧
        outcome = match stop t.name ds with
          | some f => .error f
          | none => (plan t settings.effectivePolicy live).outcome := by
  obtain ⟨s₁, hs₁, -⟩ := notedPolicy_quiet settings s
  obtain ⟨s₂, hs₂, -⟩ := start_quiet t settings.effectivePolicy s₁
  have hs₀' : s₂ = s₀ := by
    rw [← hs₀]
    simp only [Action.perform_bind, hs₁, hs₂]
  subst hs₀'
  obtain ⟨ds, outcome, s₃, hs₃, hrecorded, hcases⟩ :=
    carryOut_spec (a := a) source t settings.effectivePolicy s₂
  have hend : ∀ r, ∃ s', (noteEnd r).perform s₃ = (.ok (), s') ∧ s₃.Quiet s' := fun r =>
    noteEnd_quiet r s₃
  unfold synchronize
  simp only [Action.perform_bind, hs₁, hs₂, hs₃]
  refine ⟨ds, outcome, ?_⟩
  rcases outcome with f | state
  · cases f with
    | refusal r =>
      obtain ⟨s₄, hs₄, hquiet⟩ := hend
        ⟨t.name, settings.effectivePolicy, .failed, ds.filterMap Deed.result?, some r⟩
      refine ⟨(⟨t.name, settings.effectivePolicy, .failed, ds.filterMap Deed.result?, some r⟩,
          some (.refusal r)), s₄, ?_, ⟨rfl, rfl, nofun, fun _ _ => rfl, fun _ => by simp⟩,
        by simpa using hrecorded.append (.of_quiet hquiet), hcases⟩
      simp only [Action.perform_bind, hs₄]
      rfl
    | _ =>
      exact ⟨(⟨t.name, settings.effectivePolicy, .failed, ds.filterMap Deed.result?, none⟩,
          some _), s₃, rfl, ⟨rfl, rfl, nofun, fun _ _ => rfl, fun _ => by simp⟩, hrecorded, hcases⟩
  · obtain ⟨s₄, hs₄, hquiet⟩ := hend
      ⟨t.name, settings.effectivePolicy, state, ds.filterMap Deed.result?, none⟩
    refine ⟨(⟨t.name, settings.effectivePolicy, state, ds.filterMap Deed.result?, none⟩, none), s₄,
      ?_, ⟨rfl, rfl, fun _ h => Except.ok.inj h, nofun, fun _ => by simp⟩,
      by simpa using hrecorded.append (.of_quiet hquiet), hcases⟩
    simp only [Action.perform_bind, hs₄]
    rfl

/-- A synchronization does `syncDeeds`, records them, and ends as `syncOutcome` says. -/
theorem sync_spec (settings : Settings) (source : LiveSource) (t : Table) (s : Session) :
    ∃ r s', (sync settings source t).perform s = (.ok r, s') ∧
      Answers (syncOutcome settings source t s) (syncDeeds settings source t s) r ∧
      Recorded (approver settings) t.name (fetched settings source t s).2
        (syncDeeds settings source t s) s' := by
  obtain ⟨place, s₀, hopen⟩ : ∃ place s₀, (Action.openSpan "cqlflow.migration.sync"
      (details [("cqlflow.table", .text t.name)])).perform s = (.ok place, s₀) := ⟨_, _, rfl⟩
  obtain ⟨ds, outcome, r, s₁, hs₁, hanswers, hrecorded, hcases⟩ :=
    synchronize_spec (a := approver settings) settings source t
      { s₀ with table := some t.name } rfl
  have hfetched : fetched settings source t s = (fetchLive source t.name).perform
      ((opening settings t).perform s).2 := rfl
  have hopening : ((opening settings t).perform s).2 = ((do
      let policy ← settings.notedPolicy
      Action.note 20 logger "migration.plan.start"
        [("table", .text t.name), ("policy", .text policy.name)] : Action Unit).perform
          { s₀ with table := some t.name }).2 := by
    unfold opening
    simp only [Action.perform_bind, hopen, Action.perform_modify]
  rw [hopening] at hfetched
  have hds : syncDeeds settings source t s = ds ∧ syncOutcome settings source t s = outcome := by
    unfold syncOutcome syncDeeds
    rw [hfetched]
    revert hcases
    rcases (fetchLive source t.name).perform _ with ⟨f | live, s₂⟩
    · rintro ⟨rfl, rfl⟩
      exact ⟨rfl, rfl⟩
    · rintro ⟨rfl, rfl⟩
      exact ⟨rfl, rfl⟩
  rw [hds.1, hds.2, hfetched]
  obtain ⟨s₂, hs₂, hquiet₂⟩ := Action.inTable_ok hs₁
  obtain ⟨s₃, hs₃, hquiet₃⟩ := Action.tracedOutcome_ok hopen hs₂
  exact ⟨r, s₃, hs₃, hanswers,
    by simpa using hrecorded.append (.of_quiet (hquiet₂.trans hquiet₃))⟩

end Migration

/-! ## What is allowed to deeds -/

namespace Deed

/-- The move that the deed makes. -/
def move : Deed → Move
  | asked q _ => .ask q
  | sent step _ => .send step

/-- The question was approved, or the statement succeeded. -/
def succeeds : Deed → Bool
  | asked _ approved => approved
  | sent _ f => f.isNone

/-- The deeds that succeed are those that do not end the run. -/
theorem failure?_eq_none {d : Deed} {table : String} : d.failure? table = none ↔ d.succeeds := by
  cases d with
  | asked q approved => cases approved <;> simp [failure?, succeeds]
  | sent step f => cases f <;> simp [failure?, succeeds]

/-- The state of a watch after a deed. A statement that failed changes nothing. -/
def watched {σ : Type} (w : Watch σ) (s : σ) : Deed → σ
  | asked q _ => w.onAsk s q
  | sent step none => w.onSend s step.statement
  | sent _ (some _) => s

end Deed

namespace Migration

/-- A move that is made with success. -/
def done : Move → Deed
  | .ask q => .asked q true
  | .send st => .sent st none

/-- A move either ends the run or is made with success. -/
theorem deeds_cons (a : Approver) (m : Move) (ms : List Move) (answers : List Value)
    (failures : List (Option Failure)) :
    (∃ e : Deed, e.move = m ∧ e.succeeds = false ∧ deeds a (m :: ms) answers failures = [e]) ∨
    ∃ answers' failures',
      deeds a (m :: ms) answers failures = done m :: deeds a ms answers' failures' := by
  cases m with
  | ask q =>
    rw [deeds]
    split
    · exact .inr ⟨_, _, rfl⟩
    · exact .inl ⟨.asked q false, rfl, rfl, rfl⟩
  | send st =>
    rw [deeds]
    split
    · rename_i f _
      exact .inl ⟨.sent st (some f), rfl, rfl, rfl⟩
    · exact .inr ⟨_, _, rfl⟩

theorem move_done (m : Move) : (done m).move = m := by cases m <;> rfl

theorem succeeds_done (m : Move) : (done m).succeeds = true := by cases m <;> rfl

theorem watched_done {σ : Type} (w : Watch σ) (s : σ) (m : Move) :
    Deed.watched w s (done m) = w.after s m := by cases m <;> rfl

/-- The deeds before a given one are the first moves of the plan, made with success, and the given
one is of the move that follows; when it is not a success, it is the last. -/
theorem deeds_split {a : Approver} {ms : List Move} {answers : List Value}
    {failures : List (Option Failure)} {before rest : List Deed} {d : Deed}
    (h : deeds a ms answers failures = before ++ d :: rest) :
    ∃ made left, ms = made ++ d.move :: left ∧ before = made.map done ∧
      (d = done d.move ∨ rest = []) := by
  induction ms generalizing answers failures before with
  | nil => cases before <;> cases h
  | cons m ms ih =>
    rcases deeds_cons a m ms answers failures with ⟨e, rfl, -, he⟩ | ⟨answers', failures', he⟩ <;>
      rw [he] at h
    · -- a deed that is no success has nothing behind it
      cases before with
      | nil =>
        obtain ⟨rfl, hrest⟩ := List.cons.inj h
        exact ⟨[], ms, rfl, rfl, .inr hrest.symm⟩
      | cons e' before => exact absurd (List.cons.inj h).2 (by simp)
    · cases before with
      | nil =>
        obtain ⟨rfl, -⟩ := List.cons.inj h
        exact ⟨[], ms, by rw [move_done, List.nil_append], rfl, .inl (by rw [move_done])⟩
      | cons e' before =>
        obtain ⟨rfl, htail⟩ := List.cons.inj h
        obtain ⟨made, left, rfl, rfl, hlast⟩ := ih htail
        exact ⟨m :: made, left, rfl, rfl, hlast⟩

/-- A run ends with the first deed that does not succeed. -/
theorem deeds_succeed {a : Approver} {ms : List Move} {answers : List Value}
    {failures : List (Option Failure)} {before rest : List Deed} {d : Deed}
    (h : deeds a ms answers failures = before ++ d :: rest) :
    (∀ e ∈ before, e.succeeds) ∧ (d.succeeds = false → rest = []) := by
  obtain ⟨made, left, -, rfl, hlast⟩ := deeds_split h
  refine ⟨List.forall_mem_map.2 fun m _ => succeeds_done m,
    fun hd => hlast.resolve_left fun hdone => ?_⟩
  rw [hdone, succeeds_done] at hd
  cases hd

/-- Every deed of a run is allowed in the state that the deeds before it lead to, when every move
of the plan is. -/
theorem allows_deeds {σ : Type} {w : Watch σ} {a : Approver} {ms : List Move} {s : σ}
    {answers : List Value} {failures : List (Option Failure)} {before rest : List Deed} {d : Deed}
    (hall : w.AllowsAll s ms) (h : deeds a ms answers failures = before ++ d :: rest) :
    w.Allows (before.foldl (Deed.watched w) s) d.move := by
  obtain ⟨made, left, rfl, rfl, -⟩ := deeds_split h
  rw [List.foldl_map]
  simp only [watched_done]
  exact ((w.allowsAll_append made (d.move :: left) s).1 hall).2.1

/-- A run that ends with a deed fails as the deed does. -/
theorem stop_append {table : String} {before : List Deed} {d : Deed}
    (h : ∀ e ∈ before, e.succeeds) : stop table (before ++ [d]) = d.failure? table := by
  have hbefore : stop table before = none :=
    List.findSome?_eq_none_iff.2 fun e he => Deed.failure?_eq_none.2 (h e he)
  unfold stop at hbefore ⊢
  rw [List.findSome?_append, hbefore, Option.none_or, List.findSome?_singleton]

section

variable {settings : Settings} {source : LiveSource} {t : Table} {s : Session}

/-- The moves of the plan for what was found. -/
def movesFound (settings : Settings) (source : LiveSource) (t : Table) (s : Session) : List Move :=
  match (fetched settings source t s).1 with
  | .ok live => (plan t settings.effectivePolicy live).moves
  | .error _ => []

theorem syncDeeds_eq (settings : Settings) (source : LiveSource) (t : Table) (s : Session) :
    syncDeeds settings source t s = deeds (approver settings) (movesFound settings source t s)
      (fetched settings source t s).2.answers (fetched settings source t s).2.store.failures := by
  unfold syncDeeds movesFound
  rcases fetched settings source t s with ⟨f | live, s₁⟩ <;> rfl

/-- A run fails with the deed that did not succeed. -/
theorem syncOutcome_stops {before : List Deed} {d : Deed}
    (h : syncDeeds settings source t s = before ++ [d]) (hbefore : ∀ e ∈ before, e.succeeds)
    (hd : d.succeeds = false) :
    ∃ f, d.failure? t.name = some f ∧ syncOutcome settings source t s = .error f := by
  obtain ⟨f, hf⟩ : ∃ f, d.failure? t.name = some f := by
    match d, hd with
    | .asked _ false, _ => exact ⟨_, rfl⟩
    | .sent _ (some _), _ => exact ⟨_, rfl⟩
  refine ⟨f, hf, ?_⟩
  rcases hfetched : fetched settings source t s with ⟨e | live, s₁⟩
  · rw [syncDeeds_of_error hfetched] at h
    cases before <;> cases h
  · rw [syncOutcome_of_fetched hfetched, h, stop_append hbefore, hf]

end

/-- Differences are resolved by altering. -/
def altering : Settings := { migration := { policy := .alter } }

/-- Every answer to come approves. -/
def Approves (a : Approver) (answers : List Value) : Prop :=
  a = .automatic ∨ ∀ v ∈ answers, isApproved v = true

theorem Approves.next {a : Approver} {answers : List Value} (h : Approves a answers) :
    isApproved (nextAnswer a answers) = true ∧ Approves a (laterAnswers a answers) := by
  have hy : isApproved (.text "y") = true := by decide
  rcases h with rfl | h
  · exact ⟨hy, .inl rfl⟩
  · cases a with
    | automatic => exact ⟨hy, .inl rfl⟩
    | operator =>
      cases answers with
      | nil => exact ⟨hy, .inr fun v hv => nomatch hv⟩
      | cons v vs =>
        exact ⟨h v List.mem_cons_self, .inr fun u hu => h u (List.mem_cons_of_mem v hu)⟩

/-- When every answer approves and the store never fails, a run makes every move. -/
theorem deeds_all {a : Approver} : ∀ {ms : List Move} {answers : List Value}
    {failures : List (Option Failure)}, Approves a answers → (∀ f ∈ failures, f = none) →
      deeds a ms answers failures = ms.map done
  | [], _, _, _, _ => rfl
  | .ask q :: ms, answers, failures, hanswers, hfailures => by
    obtain ⟨hnext, hlater⟩ := hanswers.next
    rw [deeds, if_pos hnext, deeds_all hlater hfailures]
    rfl
  | .send st :: ms, answers, failures, hanswers, hfailures => by
    have hdrop : ∀ f ∈ failures.drop 1, f = none :=
      fun f hf => hfailures f (List.mem_of_mem_drop hf)
    have hrest : deeds a ms answers (failures.drop 1) = ms.map done := deeds_all hanswers hdrop
    unfold deeds
    split
    · rename_i f hhead
      exact nomatch hfailures _ (List.mem_of_head? hhead)
    · rw [hrest]
      rfl

/-- A run of which every deed succeeds is not ended by a failure. -/
theorem stop_done (table : String) : ∀ ms : List Move, stop table (ms.map done) = none
  | [] => rfl
  | .ask _ :: ms => stop_done table ms
  | .send _ :: ms => stop_done table ms

end Migration

end WideColumn
