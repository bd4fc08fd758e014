import WideColumn.Model.Basic
import WideColumn.Proofs.Stillness

/-!
# What is sent

`Session.Sent` says that from one session to the other only statements with a property were sent,
`Session.SendsOnly` that nothing else was done either. A synchronization sends definitions and the
queries by which the store describes itself (`Migration.sync_sent`), the execution of a statement
nothing but the statement (`Prepared.execute_sendsOnly`), and a drop nothing but its definition.

A relation that is no preorder goes through the parts of an action that come before and after what
matters when these are framed (`Session.Frames`): still before, and within a preorder after. So what
fetching the live table does is what a synchronization as a whole does (`Migration.sync_frames`).
-/

namespace WideColumn

/-- The statement defines something. -/
def Call.IsDefinition (c : Call) : Prop := ∃ d : Ddl Identifier, c.statement = d.render

/-- The statement asks the store to describe itself. -/
def Call.IsIntrospection (c : Call) : Prop := ∃ k : SystemTable, c.statement = k.query

/-- What a synchronization may send. -/
def Call.IsOfSchema (c : Call) : Prop := c.IsDefinition ∨ c.IsIntrospection

namespace Session

variable {p : Call → Prop} {s s' : Session}

/-- From one session to the other only statements with a property were sent. -/
def Sent (p : Call → Prop) (s s' : Session) : Prop :=
  ∃ cs, (∀ c ∈ cs, p c) ∧ s'.store.sent = cs ++ s.store.sent

/-- From one session to the other only statements with a property were sent, and nothing was asked
or looked up. -/
structure SendsOnly (p : Call → Prop) (s s' : Session) : Prop where
  sent : s.Sent p s'
  answers : s'.answers = s.answers
  asked : s'.asked = s.asked
  consulted : s'.consulted = s.consulted

instance : IsPreorder Session (Sent p) where
  refl _ := ⟨[], fun _ h => (nomatch h), rfl⟩
  trans := by
    rintro s₁ s₂ s₃ ⟨cs, hcs, hsent⟩ ⟨cs', hcs', hsent'⟩
    refine ⟨cs' ++ cs, fun c hc => ?_, by rw [hsent', hsent, List.append_assoc]⟩
    exact (List.mem_append.1 hc).elim (hcs' c) (hcs c)

instance : IsPreorder Session (SendsOnly p) where
  refl s := ⟨refl s, rfl, rfl, rfl⟩
  trans _ _ _ h h' := ⟨trans_of (Sent p) h.sent h'.sent, h'.answers.trans h.answers,
    h'.asked.trans h.asked, h'.consulted.trans h.consulted⟩

theorem Still.sendsOnly (h : s.Still s') : s.SendsOnly p s' :=
  ⟨⟨[], fun _ hc => (nomatch hc), congrArg Store.sent h.store⟩, h.answers, h.asked, h.consulted⟩

theorem Still.sent (h : s.Still s') : s.Sent p s' := h.sendsOnly.sent

/-- What is still may come before what ends within `R`, and what stays within `K` after it. -/
structure Frames (R K : Session → Session → Prop) : Prop where
  still : ∀ {s s'}, s.Still s' → K s s'
  before : ∀ {s s₁ s₂}, s.Still s₁ → R s₁ s₂ → R s s₂
  after : ∀ {s s₁ s₂}, R s s₁ → K s₁ s₂ → R s s₂

/-- A preorder that admits what is still frames itself. -/
theorem Frames.of_still {R : Session → Session → Prop} [IsPreorder Session R]
    (h : ∀ s s', s.Still s' → R s s') : Frames R R :=
  ⟨h _ _, fun hstill => trans_of R (h _ _ hstill), trans_of R⟩

theorem frames_sent : Frames (Sent p) (Sent p) := .of_still fun _ _ => Still.sent

end Session

open Session

namespace Within

/-! ## Spans and contexts -/

section

variable {α β : Type} {R K : Session → Session → Prop} {a : Action α} {f : α → Action β}

theorem perform (h : Within R a) (s : Session) : R s (a.perform s).2 := h s

/-- What is still and ends well comes before. -/
theorem enter (h : Frames R K)
    (ha : ∀ s, ∃ x s', a.perform s = (.ok x, s') ∧ s.Still s') (hf : ∀ x, Within R (f x)) :
    Within R (a >>= f) := by
  intro s
  obtain ⟨x, s', hs', hstill⟩ := ha s
  change R s ((a >>= f).perform s).2
  rw [Action.perform_bind, hs']
  exact h.before hstill (hf x s')

/-- What stays within the second relation comes after. -/
theorem leave [IsPreorder Session K] (h : Frames R K) (ha : Within R a)
    (hf : ∀ x, Within K (f x)) : Within R (a >>= f) := by
  intro s
  have hfirst := ha.perform s
  change R s ((a >>= f).perform s).2
  rw [Action.perform_bind]
  rcases hrun : a.perform s with ⟨e | x, s₁⟩ <;> rw [hrun] at hfirst
  · exact hfirst
  · exact h.after hfirst (hf x s₁)

theorem tracedOutcome [IsPreorder Session K] (h : Frames R K) (name : String)
    (attributes : List (Value × Value)) {a : Action (α × Option Failure)} (ha : Within R a) :
    Within R (Action.tracedOutcome name attributes a) := by
  have hrecord (place : Nat) (f : Failure) : Within K (Action.recordFailure place f) :=
    fun s => h.still ⟨rfl, rfl, rfl, rfl⟩
  refine .enter h (fun s => ⟨_, _, rfl, rfl, rfl, rfl, rfl⟩) fun place =>
    .leave h ha.attempt fun outcome => ?_
  split
  · exact .bind (hrecord place _) fun _ => .pure _
  · exact .pure _
  · exact .bind (hrecord place _) fun _ => .throw _

theorem inTable [IsPreorder Session K] (h : Frames R K) (table : String) (ha : Within R a) :
    Within R (Action.inTable table a) := by
  have hreset (t : Option String) :
      Within K (modify fun s => { s with table := t } : Action PUnit) :=
    fun s => h.still ⟨rfl, rfl, rfl, rfl⟩
  refine .enter h (fun s => ⟨_, _, rfl, refl s⟩) fun before =>
    .enter h (fun s => ⟨_, _, rfl, rfl, rfl, rfl, rfl⟩) fun _ =>
      .leave h ha.attempt fun outcome => .bind (hreset _) fun _ => ?_
  split
  · exact .pure _
  · exact .throw _

end

/-! ## What is still sends nothing -/

variable {α : Type} {a : Action α} {p : Call → Prop}

theorem sendsOnly (h : a.IsStill) : Within (SendsOnly p) a := h.imp fun _ _ => Still.sendsOnly

theorem sent (h : a.IsStill) : Within (Sent p) a := h.imp fun _ _ => Still.sent

end Within

/-- Sending records the statement; whether the store then fails or answers, nothing else happens. -/
theorem Store.run_aside (statement : String) (params : List Value) (options : ExecutionOptions)
    (s : Session) :
    Aside { s with store := { s.store with
        sent := ⟨statement, params, options⟩ :: s.store.sent
        failures := s.store.failures.drop 1 } }
      ((Store.run statement params options).perform s).2 := by
  unfold Store.run
  simp only [Action.perform_bind, Action.perform_get, Action.perform_set]
  rcases s.store.failures.head? with _ | _ | f
  · exact refl _
  · exact refl _
  · exact Within.fail_of Session.admits_aside f _

/-- Sending a statement sends that statement. -/
theorem Store.run_sendsOnly {p : Call → Prop} {statement : String} {params : List Value}
    {options : ExecutionOptions} (h : p ⟨statement, params, options⟩) :
    Within (SendsOnly p) (Store.run statement params options) := by
  intro s
  have hstill := (Store.run_aside statement params options s).toStill
  have hsent : s.Sent p ((Store.run statement params options).perform s).2 :=
    ⟨[_], fun c hc => List.mem_singleton.1 hc ▸ h, congrArg Store.sent hstill.store⟩
  exact ⟨hsent, hstill.answers, hstill.asked, hstill.consulted⟩

/-! ## Synchronizing

What holds of a synchronization as a whole is put together from what holds of fetching the live
table, with which it begins, and of making the moves of the plan. -/

namespace Introspection

section
variable {R K : Session → Session → Prop} [IsPreorder Session K] (h : Frames R K)
include h

theorem query_frames {kind : SystemTable} {params : List Value}
    (hrun : Within R (Store.run kind.query params .definition)) : Within R (query kind params) := by
  refine .leave h (.attempt (.leave h hrun fun _ => ?_)) fun outcome => ?_
  · exact (Within.lift _).imp fun _ _ => h.still
  · split
    · exact .pure _
    · exact .throw _
    · exact (Within.refuse _).imp fun _ _ => h.still

omit h in
theorem views_within (hstill : ∀ s s', s.Still s' → K s s')
    (hquery : ∀ kind params, Within K (query kind params)) (keyspace : Value) :
    ∀ rows : List Row, Within K (views keyspace rows)
  | [] => .pure _
  | _ :: rows => .bind (.imp (.lift _) hstill) fun _ => .bind (hquery .columns _) fun _ =>
    .bind (.imp (.lift _) hstill) fun _ => .bind (.imp (.lift _) hstill) fun _ =>
      .bind (views_within hstill hquery keyspace rows) fun _ => .pure _

/-- Reading a table begins with the rows of its columns. -/
theorem read_frames {keyspace : Value} {table : String}
    (hfirst : Within R (query .columns [keyspace, .text table]))
    (hquery : ∀ kind params, Within K (query kind params)) : Within R (read keyspace table) := by
  have hstill : ∀ s s' : Session, s.Still s' → K s s' := fun _ _ => h.still
  refine .leave h hfirst fun rows => ?_
  split
  · exact .bind (.imp (.note _ _ _ _ _) hstill) fun _ => .pure _
  · exact .bind (.imp (.lift _) hstill) fun _ => .bind (hquery .indexes _) fun _ =>
      .bind (.imp (.lift _) hstill) fun _ => .bind (hquery .views _) fun _ =>
        .bind (views_within hstill hquery keyspace _) fun _ => .bind (.imp (.lift _) hstill)
          fun _ => .bind (.imp (.note _ _ _ _ _) hstill) fun _ => .pure _

end

theorem query_sent (kind : SystemTable) (params : List Value) :
    Within (Sent Call.IsIntrospection) (query kind params) :=
  query_frames frames_sent
    ((Store.run_sendsOnly ⟨kind, rfl⟩).imp fun _ _ hsends => hsends.sent)

end Introspection

theorem LiveSource.fetch_sent (source : LiveSource) (table : String) :
    Within (Sent Call.IsIntrospection) (source.fetch table) := by
  cases source with
  | given answer =>
    have hconsult : Within (Sent Call.IsIntrospection)
        (modify fun s => { s with consulted := table :: s.consulted } : Action PUnit) :=
      fun s => ⟨[], fun _ h => (nomatch h), rfl⟩
    exact .bind hconsult fun _ => .sent (.lift _)
  | keyspace name =>
    have hread : Within (Sent Call.IsIntrospection) (Introspection.read name table) :=
      Introspection.read_frames frames_sent (Introspection.query_sent _ _) Introspection.query_sent
    exact .map (.tracedOutcome frames_sent _ _ (.map hread))

namespace Migration

variable {a : Approver} {table : String}

theorem wrapped_still (phase : Phase) (statement : Value) (f : Failure) :
    (wrapped phase table statement f).IsStill := by
  cases f with
  | refusal r => exact .pure _
  | _ => exact .bind (.note _ _ _ _ _) fun _ => .pure _

theorem notedPolicy_still (settings : Settings) (s : Session) :
    ∃ policy s', settings.notedPolicy.perform s = (.ok policy, s') ∧ s.Still s' := by
  unfold Settings.notedPolicy
  split
  · exact ⟨_, _, rfl, rfl, rfl, rfl, rfl⟩
  · exact ⟨_, _, rfl, refl s⟩

/-- Making moves stays within a relation when asking and sending definitions do. -/
theorem perform_within {K : Session → Session → Prop} [IsPreorder Session K]
    (hstill : ∀ s s', s.Still s' → K s s') (hask : ∀ prompt, Within K (answer a prompt))
    (hsend : ∀ d : Ddl Identifier, Within K (Store.run d.render [] .definition)) :
    ∀ moves : List Move, Within K (perform a table moves)
  | [] => .pure _
  | .ask q :: rest => by
    have hconfirm : Within K (confirm a table q) := by
      refine .bind (.imp (.note _ _ _ _ _) hstill) fun _ => .bind (hask _) fun _ => ?_
      split
      · exact .bind (.imp (.note _ _ _ _ _) hstill) fun _ => .imp (.refuse _) hstill
      · exact .pure _
    refine .bind hconfirm.attempt fun outcome => ?_
    split
    · exact .pure _
    · exact perform_within hstill hask hsend rest
  | .send st :: rest => by
    have hstep : Within K (sendStep st) := .bind (.imp (.note _ _ _ _ _) hstill) fun _ =>
      .attempt (.bind (hsend st.statement) fun _ => .pure _)
    refine .bind hstep fun outcome => ?_
    split
    · exact .bind (perform_within hstill hask hsend rest) fun _ => .pure _
    · exact .bind (.imp (wrapped_still _ _ _) hstill) fun _ => .pure _

/-- The moves of a plan send definitions. -/
theorem perform_sent (moves : List Move) :
    Within (Sent Call.IsOfSchema) (perform a table moves) := by
  have hask (prompt : String) : Within (Sent Call.IsOfSchema) (answer a prompt) := by
    cases a with
    | automatic => exact .bind (.sent (.note _ _ _ _ _)) fun _ => .pure _
    | operator => exact fun s => ⟨[], fun _ h => (nomatch h), rfl⟩
  exact perform_within (fun _ _ => Still.sent) hask
    (fun d => (Store.run_sendsOnly (.inl ⟨d, rfl⟩)).imp fun _ _ h => h.sent) moves

/-- A synchronization begins with fetching the live table of the declared name, and makes moves
after that. -/
theorem sync_frames {R K : Session → Session → Prop} [IsPreorder Session K] (h : Frames R K)
    {settings : Settings} {source : LiveSource} {t : Table}
    (hfetch : Within R (source.fetch t.name))
    (hperform : ∀ moves, Within K (perform (approver settings) t.name moves)) :
    Within R (sync settings source t) := by
  have hstill : ∀ s s' : Session, s.Still s' → K s s' := fun _ _ => h.still
  have hlive : Within R (fetchLive source t.name) := by
    refine .leave h hfetch.attempt fun outcome => ?_
    split
    · exact .pure _
    · exact .bind (.imp (wrapped_still _ _ _) hstill) fun _ => .throw _
  have hcarry (policy : Policy) : Within R (carryOut (approver settings) source t policy) := by
    refine .leave h hlive.attempt fun outcome => ?_
    split
    · exact .pure _
    · refine .bind (hperform _) fun made => ?_
      split
      · exact .pure _
      · exact .bind (.attempt (.imp (.lift _) hstill)) fun _ => .pure _
  have hend (r : MigrationResult) : Within K (noteEnd r) := by
    unfold noteEnd
    split <;> exact .imp (.note _ _ _ _ _) hstill
  refine .tracedOutcome h _ _ (.inTable h _ ?_)
  refine .enter h (notedPolicy_still settings) fun policy =>
    .enter h (fun s => ⟨_, _, rfl, rfl, rfl, rfl, rfl⟩) fun _ =>
      .leave h (hcarry policy) fun made => ?_
  dsimp only
  split
  · exact .bind (hend _) fun _ => .pure _
  · exact .bind (hend _) fun _ => .pure _
  · exact .pure _

/-- A synchronization sends queries on the system tables and definitions. -/
theorem sync_sent (settings : Settings) (source : LiveSource) (t : Table) :
    Within (Sent Call.IsOfSchema) (sync settings source t) := by
  refine sync_frames frames_sent ?_ perform_sent
  exact (source.fetch_sent t.name).imp fun _ _ ⟨cs, hcs, hsent⟩ =>
    ⟨cs, fun c hc => .inr (hcs c hc), hsent⟩

end Migration

/-! ## Executing -/

/-- The statement is the one that is sent. -/
def Statement.IsSentBy (st : Statement) (c : Call) : Prop :=
  c.statement = st.render ∧ c.params = st.params

namespace Statement

variable {st : Statement}

theorem send_sendsOnly (options : ExecutionOptions) :
    Within (SendsOnly st.IsSentBy) (st.send options) := Store.run_sendsOnly ⟨rfl, rfl⟩

theorem failed_still {α : Type} (about : List (String × Value)) (f : Failure) :
    (st.failed about f : Action α).IsStill := by
  cases f with
  | refusal r => exact .throw _
  | _ => exact .refuse _

theorem execute_sendsOnly (table : String) (options : ExecutionOptions) :
    Within (SendsOnly st.IsSentBy) (st.execute table options) := by
  refine .bind (send_sendsOnly options).attempt fun outcome => ?_
  split
  · exact .pure _
  · split
    · refine .bind (.sendsOnly (.note _ _ _ _ _)) fun _ =>
        .bind (send_sendsOnly .definition).attempt fun again => ?_
      split
      · exact .pure _
      · exact .sendsOnly (failed_still _ _)
    · exact .sendsOnly (failed_still _ _)
    · exact .throw _

end Statement

/-- Sending a definition that drops something sends the definition and nothing else. -/
theorem Model.sendDrop_sendsOnly (table : String) (phase : Phase) (d : Ddl Identifier) :
    Within (SendsOnly Call.IsDefinition) (Model.sendDrop table phase (.define d)) := by
  have hsend : Within (SendsOnly Call.IsDefinition) ((Statement.define d).send .definition) :=
    Store.run_sendsOnly ⟨d, rfl⟩
  refine .bind (.sendsOnly (.note _ _ _ _ _)) fun _ => .bind hsend.attempt fun outcome => ?_
  split
  · exact .pure _
  · exact .throw _
  · exact .sendsOnly (.refuse _)

/-- Executing a statement between its hooks sends the statement and nothing else. -/
theorem Prepared.execute_sendsOnly (q : Prepared) (table : String) (options : ExecutionOptions) :
    Within (SendsOnly q.statement.IsSentBy) (q.execute table options) := by
  have hbefore : (q.askBefore table).IsStill := by
    unfold askBefore
    split
    · exact .pure _
    · refine .bind (PreparedCall.run_still _) fun answer => ?_
      split
      · exact .refuse _
      · exact .pure _
  have hafter : q.tellAfter.IsStill := by
    unfold tellAfter
    split
    · exact .pure _
    · exact .bind (PreparedCall.run_still _) fun _ => .pure _
  exact .bind (.sendsOnly hbefore) fun _ => .bind (.sendsOnly (.note _ _ _ _ _)) fun _ =>
    .bind (Statement.execute_sendsOnly table options) fun _ => .bind (.sendsOnly hafter)
      fun _ => .pure _

end WideColumn
