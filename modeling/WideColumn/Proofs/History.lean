import Mathlib.Data.List.Induction
import WideColumn.Proofs.Applicability
import WideColumn.Proofs.Calls

/-!
# Statements wait for a synchronization

A history is a sequence of calls on a model, each made in surroundings of its own: the settings, the
source of live tables, the failures and rows of the store and the answers of the operator may be
different every time (`Model.Occasion`). It is told by occurrences (`Model.History`). Whether the
model is ready after a history can be read off the occurrences (`Model.licensed_iff`), and since a
statement is only executed when the model is ready, it is executed after a synchronization that came
to its end, after which none failed and no removal of the table came to its end
(`Model.sent_licensed`).
-/

namespace WideColumn.Model

/-! ## Licences -/

namespace Occurrence

/-- A synchronization that came to its end. -/
def Grants (e : Occurrence) : Prop := e.doing = .synchronization ∧ e.returned = true

/-- A synchronization that failed, or a removal that came to its end. -/
def Revokes (e : Occurrence) : Prop :=
  e.doing = .synchronization ∧ e.returned = false ∨ e.doing = .removal ∧ e.returned = true

variable {e : Occurrence} {ready : Bool}

theorem readyAfter_of_grants (h : e.Grants) : e.readyAfter ready = true := by
  unfold readyAfter
  rw [h.1]
  exact h.2

theorem readyAfter_of_revokes (h : e.Revokes) : e.readyAfter ready = false := by
  unfold readyAfter
  rcases h with ⟨hdoing, hreturned⟩ | ⟨hdoing, hreturned⟩ <;> rw [hdoing]
  · exact hreturned
  · rw [hreturned, Bool.not_true, Bool.and_false]

/-- What neither grants nor revokes leaves the model as ready as it is. -/
theorem readyAfter_of_neither (hgrants : ¬ e.Grants) (hrevokes : ¬ e.Revokes) :
    e.readyAfter ready = ready := by
  unfold readyAfter
  cases hdoing : e.doing with
  | synchronization =>
    cases hreturned : e.returned with
    | true => exact absurd ⟨hdoing, hreturned⟩ hgrants
    | false => exact absurd (.inl ⟨hdoing, hreturned⟩) hrevokes
  | execution st => rfl
  | removal =>
    cases hreturned : e.returned with
    | true => exact absurd (.inr ⟨hdoing, hreturned⟩) hrevokes
    | false => exact Bool.and_true _

end Occurrence

/-- The readiness of a model after occurrences. -/
def readyAfter (ready : Bool) (es : List Occurrence) : Bool := es.foldl Occurrence.readyAfter ready

/-- A synchronization came to its end, and after it nothing revoked what it granted. -/
def Licensed (es : List Occurrence) : Prop :=
  ∃ before e after, es = before ++ e :: after ∧ e.Grants ∧ ∀ e' ∈ after, ¬ e'.Revokes

theorem licensed_append_singleton {es : List Occurrence} {e : Occurrence} :
    Licensed (es ++ [e]) ↔ e.Grants ∨ Licensed es ∧ ¬ e.Revokes := happenedSince_append_singleton

/-- A model that was not ready is ready after occurrences exactly when they license it. -/
theorem licensed_iff {es : List Occurrence} : Licensed es ↔ readyAfter false es = true := by
  induction es using List.reverseRecOn with
  | nil => exact iff_of_false not_happenedSince_nil (by simp [readyAfter])
  | append_singleton es e ih =>
    have hlast : readyAfter false (es ++ [e]) = e.readyAfter (readyAfter false es) := by
      unfold readyAfter
      rw [List.foldl_append]
      rfl
    rw [licensed_append_singleton, hlast, ih]
    by_cases hgrants : e.Grants
    · simp [Occurrence.readyAfter_of_grants hgrants, hgrants]
    · by_cases hrevokes : e.Revokes
      · simp [Occurrence.readyAfter_of_revokes hrevokes, hgrants, hrevokes]
      · simp [Occurrence.readyAfter_of_neither hgrants hrevokes, hgrants, hrevokes]

/-! ## Statements are executed by models that are ready -/

/-- Every statement is executed by a model that is ready, and is about rows. -/
def Guarded : Bool → List Occurrence → Prop
  | _, [] => True
  | ready, e :: es =>
    (∀ st, e.doing = .execution st → ready = true ∧ st.kind.defines = false) ∧
      Guarded (e.readyAfter ready) es

namespace Guarded

variable {ready : Bool}

theorem append : ∀ {ready : Bool} {es es' : List Occurrence}, Guarded ready es →
    Guarded (readyAfter ready es) es' → Guarded ready (es ++ es')
  | _, [], _, _, h' => h'
  | _, _ :: _, _, h, h' => ⟨h.1, append h.2 h'⟩

/-- The occurrences before an execution leave the model ready. -/
theorem ready_before : ∀ {ready : Bool} {before after : List Occurrence} {e : Occurrence}
    {st : Statement}, Guarded ready (before ++ e :: after) → e.doing = .execution st →
      readyAfter ready before = true ∧ st.kind.defines = false
  | _, [], _, _, st, h, hdoing => h.1 st hdoing
  | ready, e' :: before, after, e, _, h, hdoing => by
    have hrest : Guarded (e'.readyAfter ready) (before ++ e :: after) := h.2
    have hready := ready_before hrest hdoing
    exact hready

theorem of_course {k : StatementKind} {es : List Occurrence} (hk : k.defines = false)
    (h : Course k ready es) : Guarded ready es := by
  cases h with
  | nothing => trivial
  | execution hdoing hkind =>
    refine ⟨fun st hst => ?_, trivial⟩
    cases hdoing.symm.trans hst
    exact ⟨rfl, hkind ▸ hk⟩
  | refusal hdoing _ => exact ⟨fun st hst => (nomatch hdoing.symm.trans hst), trivial⟩
  | both hdoing hreturned hdoing' hkind =>
    refine ⟨fun st hst => (nomatch hdoing.symm.trans hst), fun st hst => ?_, trivial⟩
    cases hdoing'.symm.trans hst
    exact ⟨Occurrence.readyAfter_of_grants ⟨hdoing, hreturned⟩, hkind ▸ hk⟩

theorem of_fits {c : ModelCall} {returned : Bool} {es : List Occurrence}
    (h : Fits c returned ready es) : Guarded ready es := by
  have hone (doing : Doing) (hdoing : ∀ st, doing ≠ .execution st)
      (h : es = [] ∧ returned = false ∨ ∃ e : Occurrence, es = [e] ∧ e.doing = doing ∧
        e.returned = returned) : Guarded ready es := by
    rcases h with ⟨rfl, -⟩ | ⟨e, rfl, rfl, -⟩
    · trivial
    · exact ⟨fun st hst => absurd hst (hdoing st), trivial⟩
  cases c with
  | synchronize => exact hone .synchronization nofun h
  | dropTable => exact hone .removal nofun h
  | new | render => exact (h : es = []) ▸ trivial
  | find | findOne | insert | update | delete | truncate =>
    obtain ⟨k, hk, hcourse⟩ := h
    cases hk
    exact of_course rfl hcourse

end Guarded

/-! ## Histories -/

/-- A call with what it meets: the settings, where live tables are known from, how the store will
fail and answer, and how the operator will answer. -/
structure Occasion where
  call : ModelCall
  arguments : Arguments
  settings : Settings
  source : Option LiveSource
  failures : List (Option Failure)
  rows : List Value
  system : SystemRows
  answers : List Value

namespace Occasion

/-- The model and its session when the call is made. -/
def meet (o : Occasion) (s : Model × Session) : Model × Session :=
  ({ s.1 with settings := o.settings, source := o.source },
    { s.2 with
      store := { s.2.store with failures := o.failures, rows := o.rows, system := o.system }
      answers := o.answers })

/-- Make the call. -/
def perform (o : Occasion) (s : Model × Session) : Except Failure Answer × (Model × Session) :=
  (Model.call o.call o.arguments).perform (o.meet s)

/-- Make calls one after the other. -/
def performAll (os : List Occasion) (s : Model × Session) : Model × Session :=
  os.foldl (fun s o => (o.perform s).2) s

end Occasion

/-- A history: calls are made one after the other, and what each does is told by occurrences such as
its kind of call has. That there always are such occurrences is `history_exists`. -/
inductive History : Model × Session → List Occasion → List Occurrence → Model × Session → Prop
  | nil (s) : History s [] [] s
  | cons {s o os es es' s'} (htold : Told (o.meet s) es (o.perform s).2)
    (hfits : Fits o.call (o.perform s).1.isOk s.1.isReady es)
    (h : History (o.perform s).2 os es' s') : History s (o :: os) (es ++ es') s'

/-- Every sequence of calls has a history. -/
theorem history_exists : ∀ (os : List Occasion) (s : Model × Session),
    ∃ es, History s os es (Occasion.performAll os s)
  | [], s => ⟨[], .nil s⟩
  | o :: os, s => by
    obtain ⟨es, htold, hfits⟩ := call_told o.call o.arguments (o.meet s)
    obtain ⟨es', h⟩ := history_exists os (o.perform s).2
    exact ⟨es ++ es', .cons htold hfits h⟩

namespace History

variable {s s' : Model × Session} {os : List Occasion} {es : List Occurrence}

/-- The occurrences of a history tell how ready the model is, and everything that was sent. -/
theorem leads (h : History s os es s') :
    s'.1.isReady = readyAfter s.1.isReady es ∧ s'.1.table = s.1.table ∧
      s'.2.store.sent =
        ((es.flatMap Occurrence.sendings).map Sending.call).reverse ++ s.2.store.sent ∧
      ∀ e ∈ es, e.SendsOwn := by
  induction h with
  | nil s => exact ⟨rfl, rfl, rfl, fun _ h => (nomatch h)⟩
  | cons htold _ _ ih =>
    obtain ⟨hready, htable, hsent, hown⟩ := htold.leads
    obtain ⟨hready', htable', hsent', hown'⟩ := ih
    refine ⟨?_, htable'.trans htable, ?_, fun e he => ?_⟩
    · rw [hready', hready]
      unfold readyAfter
      rw [List.foldl_append]
      rfl
    · rw [hsent', hsent, List.flatMap_append, List.map_append, List.reverse_append,
        List.append_assoc]
      rfl
    · exact (List.mem_append.1 he).elim (hown e) (hown' e)

/-- In a history every statement is executed by a model that is ready. -/
theorem guarded (h : History s os es s') : Guarded s.1.isReady es := by
  induction h with
  | nil s => trivial
  | cons htold hfits _ ih =>
    rw [htold.leads.1] at ih
    exact (Guarded.of_fits hfits).append ih

end History

/-- A statement on rows is sent only where the occurrences before license it. -/
def SendsLicensed (es : List Occurrence) : Prop :=
  ∀ before e after, es = before ++ e :: after → ∀ x ∈ e.sendings, ∀ st : Statement,
    st.kind.defines = false → x.call.statement = st.render → Licensed before

namespace Occurrence

variable {e : Occurrence}

/-- A statement on rows is sent only to execute a statement. -/
theorem SendsOwn.execution (h : e.SendsOwn) {x : Sending} (hx : x ∈ e.sendings) {st : Statement}
    (hrows : st.kind.defines = false) (hst : x.call.statement = st.render) :
    ∃ st', e.doing = .execution st' := by
  unfold SendsOwn at h
  cases hdoing : e.doing with
  | execution st' => exact ⟨st', rfl⟩
  | synchronization =>
    rw [hdoing] at h
    exact absurd (h x hx) (Statement.not_isOfSchema hrows hst)
  | removal =>
    rw [hdoing] at h
    exact absurd (.inl (h x hx)) (Statement.not_isOfSchema hrows hst)

end Occurrence

/-- Every sequence of calls on a new model has a history, and in each of its histories everything
that was sent is told, and every statement on rows is sent after a synchronization that came to its
end, with none that failed and no removal that came to its end in between. While a model is ready,
no call but a synchronization looks live tables up; and a call that asks for its statement only
sends nothing, asks nobody and leaves the model as ready as it is. -/
theorem sent_licensed (os : List Occasion) {s : Model × Session} (hnew : s.1.isReady = false) :
    ((∃ es, History s os es (Occasion.performAll os s)) ∧ ∀ es s', History s os es s' →
      s'.2.store.sent =
          ((es.flatMap Occurrence.sendings).map Sending.call).reverse ++ s.2.store.sent ∧
        (∀ e ∈ es, e.SendsOwn) ∧ SendsLicensed es) ∧
    (∀ (c : ModelCall) (a : Arguments) (t : Model × Session), t.1.isReady = true →
      c ≠ .synchronize → ((call c a).perform t).2.2.consulted = t.2.consulted ∧
        ∃ es, Told t es ((call c a).perform t).2 ∧ ∀ e ∈ es, e.doing ≠ .synchronization) ∧
    ∀ (c : ModelCall) (a : Arguments) (v : Value) (t : Model × Session),
      ("return_query", v) ∈ a.named → v.isTrue = true →
        Unmoved t ((call c a).perform t).2 := by
  refine ⟨⟨history_exists os s, fun es s' h => ?_⟩, fun c a t hready hc => ?_,
    fun c a v t hv htrue => unmoved_of_returnQuery hv htrue t⟩
  · obtain ⟨-, -, hsent, hown⟩ := h.leads
    refine ⟨hsent, hown, fun before e after hes x hx st hrows hst => ?_⟩
    have he : e ∈ es := hes ▸ List.mem_append_right _ List.mem_cons_self
    obtain ⟨st', hdoing⟩ := (hown e he).execution hx hrows hst
    have hguarded : Guarded false (before ++ e :: after) := hes ▸ hnew ▸ h.guarded
    exact licensed_iff.2 (hguarded.ready_before hdoing).1
  · obtain ⟨es, htold, hfits⟩ := call_told c a t
    have hnone := (hready ▸ hfits : Fits c _ true es).no_synchronization hc
    exact ⟨(htold.kept_of_no_synchronization hnone).1, es, htold, hnone⟩

/-! ### A model of users -/

/-- A new model of users, with a view. -/
def users : Model := { table := Migration.viewed }

/-- A call without arguments, the store having no live table and failing as it is told to. -/
def occasion (call : ModelCall) (failures : List (Option Failure)) : Occasion where
  call
  arguments := {}
  settings := {}
  source := some (.given (.ok none))
  failures
  rows := []
  system := {}
  answers := []

/-- The store does not create the table at first; then the rows are deleted, the table is dropped,
and rows are deleted from a new one. -/
def truncations : List Occasion := [
  occasion .truncate [some (.thrown .runtime "unreachable" .null)],
  occasion .truncate [], occasion .dropTable [], occasion .truncate []]

/-- The statements that create the users and their view. -/
def creations : List String := [
  "CREATE TABLE IF NOT EXISTS \"users\" (\"id\" uuid, \"name\" text, PRIMARY KEY((\"id\")));",
  "CREATE MATERIALIZED VIEW IF NOT EXISTS \"by_name\" AS SELECT * FROM \"users\" " ++
    "WHERE \"name\" IS NOT NULL AND \"id\" IS NOT NULL PRIMARY KEY((\"name\"),\"id\");"]

/-- The rows are deleted twice, each time after the table was created. -/
theorem sent_licensed_truncations : users.isReady = false ∧
    (Occasion.performAll truncations (users, {})).2.store.sent.reverse.map Call.statement =
      creations.take 1 ++ creations ++ ["TRUNCATE TABLE \"users\";",
        "DROP MATERIALIZED VIEW IF EXISTS \"by_name\";", "DROP TABLE IF EXISTS \"users\";"] ++
      creations ++ ["TRUNCATE TABLE \"users\";"] ∧
    ∃ es, History (users, {}) truncations es (Occasion.performAll truncations (users, {})) ∧
      SendsLicensed es := by
  obtain ⟨⟨⟨es, h⟩, hall⟩, -⟩ := @sent_licensed truncations (users, {}) rfl
  exact ⟨rfl, by decide +kernel, es, h, (hall es _ h).2.2⟩

end WideColumn.Model
