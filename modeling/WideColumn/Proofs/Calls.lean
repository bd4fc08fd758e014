import WideColumn.Model.Call
import WideColumn.Proofs.Sent

/-!
# What calls do

What a call on a model does to the table is told as a list of occurrences: synchronizations,
executions of statements and removals of the table, each a run of its own with everything that was
sent for it (`Model.Told`). Between them nothing is sent and the model stays as ready as it is.
Every call is told in this way (`Model.call_told`): a call that executes a statement synchronizes
first if the model is not ready, and executes the statement only if that succeeds (`Model.Course`).
-/

namespace WideColumn

/-! ## Statements on rows and definitions -/

/-- The statements of the kind define something; the others are about rows. -/
def StatementKind.defines : StatementKind → Bool
  | .select | .insert | .update | .delete | .truncate => false
  | _ => true

theorem Ddl.kind_defines {ν : Type} (d : Ddl ν) : d.kind.defines = true := by cases d <;> rfl

/-- The text begins with the word. -/
def Opens (word text : String) : Prop := word.toList <+: text.toList

theorem Opens.append {word a b : String} (h : Opens word a) : Opens word (a ++ b) := by
  unfold Opens
  rw [String.toList_append]
  exact h.trans (List.prefix_append _ _)

/-- The word with which a definition begins. -/
theorem Ddl.opens (d : Ddl Identifier) :
    Opens "CREATE" d.render ∨ Opens "DROP" d.render ∨ Opens "ALTER" d.render := by
  unfold render
  cases d with
  | createTable =>
    left
    iterate 8 refine .append ?_
    exact (by decide : "CREATE".toList <+: "CREATE TABLE IF NOT EXISTS ".toList)
  | createIndex =>
    left
    iterate 4 refine .append ?_
    exact (by decide : "CREATE".toList <+: "CREATE INDEX IF NOT EXISTS ON ".toList)
  | createCustomIndex =>
    left
    iterate 7 refine .append ?_
    exact (by decide : "CREATE".toList <+: "CREATE CUSTOM INDEX IF NOT EXISTS ON ".toList)
  | createView =>
    left
    iterate 11 refine .append ?_
    exact (by decide : "CREATE".toList <+: "CREATE MATERIALIZED VIEW IF NOT EXISTS ".toList)
  | dropTable =>
    right; left
    iterate 4 refine .append ?_
    exact (by decide : "DROP".toList <+: "DROP TABLE".toList)
  | dropIndex =>
    right; left
    iterate 4 refine .append ?_
    exact (by decide : "DROP".toList <+: "DROP INDEX".toList)
  | dropView =>
    right; left
    iterate 4 refine .append ?_
    exact (by decide : "DROP".toList <+: "DROP MATERIALIZED VIEW".toList)
  | addColumn | retypeColumn =>
    right; right
    iterate 6 refine .append ?_
    exact (by decide : "ALTER".toList <+: "ALTER TABLE ".toList)
  | dropColumn =>
    right; right
    iterate 4 refine .append ?_
    exact (by decide : "ALTER".toList <+: "ALTER TABLE ".toList)

namespace Statement

variable {st : Statement}

/-- The word with which a statement on rows begins. -/
theorem opens_rows (h : st.kind.defines = false) :
    Opens "SELECT" st.render ∨ Opens "INSERT" st.render ∨ Opens "UPDATE" st.render ∨
      Opens "DELETE" st.render ∨ Opens "TRUNCATE" st.render := by
  cases st with
  | select s =>
    left
    change Opens "SELECT" s.render
    unfold SelectStatement.render
    iterate 11 refine .append ?_
    exact (by decide : "SELECT".toList <+: "SELECT ".toList)
  | insert s =>
    right; left
    change Opens "INSERT" s.render
    unfold InsertStatement.render
    iterate 9 refine .append ?_
    exact (by decide : "INSERT".toList <+: "INSERT INTO ".toList)
  | update s =>
    right; right; left
    change Opens "UPDATE" s.render
    unfold UpdateStatement.render
    iterate 8 refine .append ?_
    exact (by decide : "UPDATE".toList <+: "UPDATE ".toList)
  | delete s =>
    right; right; right; left
    change Opens "DELETE" s.render
    unfold DeleteStatement.render
    iterate 4 refine .append ?_
    exact (by decide : "DELETE".toList <+: "DELETE FROM ".toList)
  | truncate table =>
    right; right; right; right
    change Opens "TRUNCATE" ("TRUNCATE TABLE " ++ table.quoted ++ ";")
    iterate 2 refine .append ?_
    exact (by decide : "TRUNCATE".toList <+: "TRUNCATE TABLE ".toList)
  | define d => exact absurd h (by rw [kind, d.kind_defines]; decide)

/-- A statement on rows does not have the text of a definition. -/
theorem render_ne_definition (h : st.kind.defines = false) (d : Ddl Identifier) :
    st.render ≠ d.render := by
  intro heq
  have hwords : ∀ word ∈ ["SELECT", "INSERT", "UPDATE", "DELETE", "TRUNCATE"],
      ∀ other ∈ ["CREATE", "DROP", "ALTER"], ¬ (word.toList <+: other.toList) ∧
        ¬ (other.toList <+: word.toList) := by decide
  obtain ⟨word, hword, hopens⟩ : ∃ word ∈ ["SELECT", "INSERT", "UPDATE", "DELETE", "TRUNCATE"],
      Opens word st.render := by simpa using opens_rows h
  obtain ⟨other, hother, hopens'⟩ : ∃ other ∈ ["CREATE", "DROP", "ALTER"],
      Opens other st.render := by simpa [heq] using d.opens
  obtain ⟨hnot, hnot'⟩ := hwords word hword other hother
  exact (List.prefix_or_prefix_of_prefix hopens hopens').elim hnot hnot'

/-- A statement on rows names a table between double quotes. -/
theorem mem_quote_rows (h : st.kind.defines = false) : '"' ∈ st.render.toList := by
  have hquoted (i : Identifier) : '"' ∈ i.quoted.toList := by
    unfold Identifier.quoted
    simp [String.toList_append]
  cases st with
  | select s =>
    change '"' ∈ s.render.toList
    unfold SelectStatement.render
    simp only [String.toList_append, List.mem_append, hquoted, true_or, or_true]
  | insert s =>
    change '"' ∈ s.render.toList
    unfold InsertStatement.render
    simp only [String.toList_append, List.mem_append, hquoted, true_or, or_true]
  | update s =>
    change '"' ∈ s.render.toList
    unfold UpdateStatement.render
    simp only [String.toList_append, List.mem_append, hquoted, true_or, or_true]
  | delete s =>
    change '"' ∈ s.render.toList
    unfold DeleteStatement.render
    simp only [String.toList_append, List.mem_append, hquoted, true_or, or_true]
  | truncate table =>
    change '"' ∈ ("TRUNCATE TABLE " ++ table.quoted ++ ";").toList
    simp only [String.toList_append, List.mem_append, hquoted, true_or, or_true]
  | define d => exact absurd h (by rw [kind, d.kind_defines]; decide)

/-- Neither a definition nor a query by which the store describes itself is a statement on rows. -/
theorem not_isOfSchema (h : st.kind.defines = false) {c : Call} (hc : c.statement = st.render) :
    ¬ c.IsOfSchema := by
  rintro (⟨d, hd⟩ | ⟨k, hk⟩)
  · exact render_ne_definition h d (hc.symm.trans hd)
  · have hquote : '"' ∈ k.query.toList := (hc.symm.trans hk) ▸ mem_quote_rows h
    have hnone : '"' ∉ k.query.toList := by cases k <;> decide +kernel
    exact hnone hquote

end Statement

namespace Operation

variable {t : Table} {o : Operation} {s s' : Session} {p : Prepared}

/-- The statement of an operation on rows is of the kind that is asked for. -/
theorem compile_kind (hrows : o.kind.defines = false) (h : (o.compile t).perform s = (.ok p, s')) :
    p.statement.kind = o.kind := by
  cases o with
  | select o =>
    obtain ⟨statement, s₁, -, h⟩ := Action.bind_ok h
    cases h
    rfl
  | insert o =>
    obtain ⟨i, hi, -⟩ := Compile.insertion_ok h
    rw [hi]
    rfl
  | update o =>
    obtain ⟨u, hu, -⟩ := Compile.modification_ok h
    rw [hu]
    rfl
  | delete o =>
    obtain ⟨d, hd, -⟩ := Compile.deletion_ok h
    rw [hd]
    rfl
  | truncate o =>
    obtain ⟨table, s₁, -, h⟩ := Action.bind_ok h
    cases h
    rfl
  | _ => cases hrows

/-- The statement of an operation that defines is a definition. -/
theorem compile_define (hdefines : o.kind.defines = true)
    (h : (o.compile t).perform s = (.ok p, s')) : ∃ d, p.statement = .define d := by
  cases o with
  | select | insert | update | delete | truncate => cases hdefines
  | createIndex o =>
    obtain ⟨d, s₁, -, h⟩ := Action.bind_ok h
    exact definition_ok h
  | _ => exact definition_ok h

theorem ofArguments_kind {k : StatementKind} {table : String} {arguments : List (Value × Value)}
    (h : ofArguments k table arguments = .ok o) : o.kind = k := by
  unfold ofArguments at h
  split at h
  · have hentries := Checked.toExcept_ok h
    cases k
    all_goals
      obtain ⟨_, -, rfl⟩ := Checked.map_ok hentries
      rfl
  · cases h

end Operation

/-! ## Sendings -/

/-- A statement that was sent, and what the store failed with, if it did. -/
structure Sending where
  call : Call
  failure : Option Failure

/-- Statements with the failures that a script has for them, one after the other. -/
def Sending.ofScript : List Call → List (Option Failure) → List Sending
  | [], _ => []
  | c :: cs, failures => ⟨c, failures.head?.join⟩ :: ofScript cs (failures.drop 1)

theorem Sending.calls_ofScript : ∀ (cs : List Call) (failures : List (Option Failure)),
    (ofScript cs failures).map call = cs
  | [], _ => rfl
  | c :: cs, failures => congrArg (c :: ·) (calls_ofScript cs (failures.drop 1))

namespace Session

variable {s s' : Session}

/-- What was sent from one session to a later one, in order. The store meets each statement with the
next of its scripted failures. -/
def sendings (s s' : Session) : List Sending :=
  Sending.ofScript (s'.store.sent.take (s'.store.sent.length - s.store.sent.length)).reverse
    s.store.failures

theorem sendings_eq {cs : List Call} (h : s'.store.sent = cs ++ s.store.sent) :
    s.sendings s' = Sending.ofScript cs.reverse s.store.failures := by
  unfold sendings
  rw [h, List.length_append, Nat.add_sub_cancel, List.take_left]

/-- Everything that was sent is among the sendings. -/
theorem Sent.sendings {p : Call → Prop} (h : s.Sent p s') :
    s'.store.sent = ((s.sendings s').map Sending.call).reverse ++ s.store.sent ∧
      ∀ x ∈ s.sendings s', p x.call := by
  obtain ⟨cs, hcs, hsent⟩ := h
  have hcalls : (s.sendings s').map Sending.call = cs.reverse := by
    rw [sendings_eq hsent, Sending.calls_ofScript]
  refine ⟨by rw [hcalls, List.reverse_reverse, hsent], fun x hx => hcs _ ?_⟩
  exact List.mem_reverse.1 (hcalls ▸ List.mem_map_of_mem hx)

end Session

/-! ## What happened last -/

section

variable {α : Type} {p q : α → Prop}

/-- Something of one kind happened, and nothing of another kind after it. -/
def HappenedSince (p q : α → Prop) (xs : List α) : Prop :=
  ∃ before x after, xs = before ++ x :: after ∧ p x ∧ ∀ y ∈ after, ¬ q y

theorem not_happenedSince_nil : ¬ HappenedSince p q [] := by
  rintro ⟨before, x, after, hxs, -⟩
  exact absurd hxs (by simp)

theorem happenedSince_append_singleton {xs : List α} {x : α} :
    HappenedSince p q (xs ++ [x]) ↔ p x ∨ HappenedSince p q xs ∧ ¬ q x := by
  constructor
  · rintro ⟨before, g, after, hxs, hp, hafter⟩
    rcases List.eq_nil_or_concat' after with rfl | ⟨after', y, rfl⟩
    · obtain ⟨-, hlast⟩ := List.append_inj' hxs rfl
      exact .inl ((List.cons.inj hlast).1 ▸ hp)
    · rw [← List.cons_append, ← List.append_assoc] at hxs
      obtain ⟨hinit, hlast⟩ := List.append_inj' hxs rfl
      obtain rfl := (List.cons.inj hlast).1
      refine .inr ⟨⟨before, g, after', hinit, hp, fun y hy => ?_⟩, ?_⟩
      · exact hafter y (List.mem_append_left _ hy)
      · exact hafter x (List.mem_append_right _ (List.mem_singleton_self x))
  · rintro (hp | ⟨⟨before, g, after, rfl, hp, hafter⟩, hq⟩)
    · exact ⟨xs, x, [], rfl, hp, fun _ h => (nomatch h)⟩
    · refine ⟨before, g, after ++ [x], by simp, hp, fun y hy => ?_⟩
      rcases List.mem_append.1 hy with hy | hy
      · exact hafter y hy
      · exact List.mem_singleton.1 hy ▸ hq

end

namespace Model

/-! ## Runs -/

variable {α β : Type}

/-- Run a computation on a model and its session. -/
def Run.perform (r : Run α) (s : Model × Session) : Except Failure α × (Model × Session) := r.run s

theorem perform_bind (r : Run α) (f : α → Run β) (s : Model × Session) :
    (r >>= f : Run β).perform s = match r.perform s with
      | (.ok x, s₁) => (f x).perform s₁
      | (.error e, s₁) => (.error e, s₁) := by
  unfold Run.perform
  rw [run_bind]
  rcases r.run s with ⟨_ | x, s₁⟩ <;> rfl

theorem perform_act (a : Action α) (s : Model × Session) :
    (act a).perform s = ((a.perform s.2).1, (s.1, (a.perform s.2).2)) := rfl

theorem perform_this (s : Model × Session) : this.perform s = (.ok s.1, s) := rfl

theorem perform_change (f : Model → Model) (s : Model × Session) :
    (change f).perform s = (.ok (), (f s.1, s.2)) := rfl

theorem perform_throw (f : Failure) (s : Model × Session) :
    (throw f : Run α).perform s = (.error f, s) := rfl

theorem perform_pure (x : α) (s : Model × Session) : (pure x : Run α).perform s = (.ok x, s) := rfl

theorem perform_map (g : α → β) (r : Run α) (s : Model × Session) :
    (g <$> r : Run β).perform s = ((r.perform s).1.map g, (r.perform s).2) := by
  change (r >>= fun x => pure (g x) : Run β).perform s = _
  rw [perform_bind]
  rcases r.perform s with ⟨_ | x, s₁⟩ <;> rfl

/-- A sequence that ends well has parts that end well. -/
theorem bind_ok {r : Run α} {f : α → Run β} {s s' : Model × Session} {y : β}
    (h : (r >>= f : Run β).perform s = (.ok y, s')) :
    ∃ x s₁, r.perform s = (.ok x, s₁) ∧ (f x).perform s₁ = (.ok y, s') := by
  rw [perform_bind] at h
  rcases hr : r.perform s with ⟨_ | x, s₁⟩ <;> rw [hr] at h
  · cases h
  · exact ⟨x, s₁, rfl, h⟩

/-- From one state to the other nothing was sent, asked or looked up, and the model stayed as ready
as it was. -/
structure Unmoved (s s' : Model × Session) : Prop where
  isReady : s'.1.isReady = s.1.isReady
  table : s'.1.table = s.1.table
  still : s.2.Still s'.2

instance : IsPreorder (Model × Session) Unmoved where
  refl s := ⟨rfl, rfl, refl s.2⟩
  trans _ _ _ h h' := ⟨h'.isReady.trans h.isReady, h'.table.trans h.table,
    trans_of Session.Still h.still h'.still⟩

/-- The computation leaves the table and the readiness of the model alone. -/
abbrev IsUnmoving (r : Run α) : Prop := Within Unmoved r

theorem isUnmoving_act {a : Action α} (h : a.IsStill) : IsUnmoving (act a) :=
  fun s => ⟨rfl, rfl, h s.2⟩

theorem isUnmoving_lift (r : Except Failure α) : IsUnmoving (lift r) := isUnmoving_act (.lift r)

theorem isUnmoving_this : IsUnmoving this := fun s => refl s

theorem isUnmoving_operation (k : StatementKind) (parts : List (String × Value)) :
    IsUnmoving (operation k parts) := by
  refine .bind isUnmoving_this fun m => ?_
  dsimp only
  split
  · exact .pure _
  · exact isUnmoving_act (.refuse _)
  · exact .throw _

theorem isUnmoving_compile (o : Operation) : IsUnmoving (compile o) :=
  .bind isUnmoving_this fun m => isUnmoving_act (o.compile_still m.table)

theorem isUnmoving_dropStatements : IsUnmoving dropStatements := by
  have hviews (m : Model) : IsUnmoving (m.table.views.mapM fun v => do
      let p ← compile (← operation .dropView [("view_name", .text v.1)])
      return (Phase.viewDrop, p.statement)) :=
    .mapM fun v _ => .bind (isUnmoving_operation _ _) fun o => .bind (isUnmoving_compile o)
      fun _ => .pure _
  exact .bind isUnmoving_this fun m => .bind (hviews m) fun _ =>
    .bind (isUnmoving_operation _ _) fun o => .bind (isUnmoving_compile o) fun _ => .pure _

/-! ## Occurrences -/

/-- What is done to the table of a model. -/
inductive Doing where
  /-- The live table is brought in line with the declared one. -/
  | synchronization
  | execution (st : Statement)
  /-- The views and the table are dropped. -/
  | removal

/-- Something done to the table of a model: whether it came to its end, and what was sent for it. -/
structure Occurrence where
  doing : Doing
  returned : Bool
  sendings : List Sending

/-- A computation as an occurrence. -/
def Occurrence.ofRun (doing : Doing) (r : Run α) (s : Model × Session) : Occurrence where
  doing
  returned := (r.perform s).1.isOk
  sendings := s.2.sendings (r.perform s).2.2

/-- What happens between two states, told as occurrences: each is a run of its own, and nothing
happens between them. -/
inductive Told : Model × Session → List Occurrence → Model × Session → Prop
  | unmoved {s s'} (h : Unmoved s s') : Told s [] s'
  | synchronization (s) :
    Told s [.ofRun .synchronization synchronize s] (synchronize.perform s).2
  | execution (s) (p : Prepared) (options : ExecutionOptions) :
    Told s [.ofRun (.execution p.statement) (act (p.execute s.1.table.name options)) s]
      ((act (p.execute s.1.table.name options)).perform s).2
  | removal (s) : Told s [.ofRun .removal dropTable s] (dropTable.perform s).2
  | append {s s₁ s₂ os os'} (h : Told s os s₁) (h' : Told s₁ os' s₂) : Told s (os ++ os') s₂

namespace Occurrence

/-- The readiness of the model after the occurrence. -/
def readyAfter (ready : Bool) (o : Occurrence) : Bool :=
  match o.doing with
  | .synchronization => o.returned
  | .execution _ => ready
  | .removal => ready && !o.returned

/-- What is sent for the occurrence: definitions and the queries by which the store describes
itself, or the statement that is executed, or definitions. -/
def SendsOwn (o : Occurrence) : Prop :=
  match o.doing with
  | .synchronization => ∀ x ∈ o.sendings, x.call.IsOfSchema
  | .execution st => ∀ x ∈ o.sendings, st.IsSentBy x.call
  | .removal => ∀ x ∈ o.sendings, x.call.IsDefinition

/-- The occurrence leads from one state to the other. -/
structure Leads (o : Occurrence) (s s' : Model × Session) : Prop where
  isReady : s'.1.isReady = o.readyAfter s.1.isReady
  table : s'.1.table = s.1.table
  sent : s'.2.store.sent = (o.sendings.map Sending.call).reverse ++ s.2.store.sent
  own : o.SendsOwn

end Occurrence

/-- How a synchronization ends. -/
theorem perform_synchronize (m : Model) (s : Session) :
    synchronize.perform (m, s) = match (Action.lift m.liveSource).perform s with
      | (.error f, s₁) => (.error f, ({ m with isReady := false }, s₁))
      | (.ok source, s₁) => match (Migration.sync m.settings source m.table).perform s₁ with
        | (.error f, s₂) => (.error f, ({ m with isReady := false }, s₂))
        | (.ok (result, some f), s₂) =>
          (.error f, ({ m with isReady := false, lastMigration := some result }, s₂))
        | (.ok (result, none), s₂) =>
          (.ok result, ({ m with isReady := true, lastMigration := some result }, s₂)) := by
  unfold synchronize
  simp only [perform_bind, perform_change, perform_this, lift, perform_act]
  have hsource : ({ m with isReady := false } : Model).liveSource = m.liveSource := rfl
  rw [hsource]
  rcases (Action.lift m.liveSource).perform s with ⟨f | source, s₁⟩
  · rfl
  · dsimp only
    rcases (Migration.sync m.settings source m.table).perform s₁ with
      ⟨f | ⟨result, _ | f⟩, s₂⟩ <;> rfl

/-- A model is ready after a synchronization exactly when that came to its end. -/
theorem synchronize_spec (s : Model × Session) :
    (synchronize.perform s).2.1.isReady = (synchronize.perform s).1.isOk ∧
      (synchronize.perform s).2.1.table = s.1.table ∧
      s.2.Sent Call.IsOfSchema (synchronize.perform s).2.2 := by
  obtain ⟨m, s⟩ := s
  rw [perform_synchronize]
  have hlift : s.Sent Call.IsOfSchema ((Action.lift m.liveSource).perform s).2 :=
    Within.sent (.lift _) s
  rcases hsource : (Action.lift m.liveSource).perform s with ⟨f | source, s₁⟩ <;>
    rw [hsource] at hlift
  · exact ⟨rfl, rfl, hlift⟩
  · have hsync : s₁.Sent Call.IsOfSchema
        ((Migration.sync m.settings source m.table).perform s₁).2 :=
      Migration.sync_sent m.settings source m.table s₁
    have hsent := trans_of (Session.Sent Call.IsOfSchema) hlift hsync
    dsimp only
    rcases hmade : (Migration.sync m.settings source m.table).perform s₁ with
      ⟨f | ⟨result, _ | f⟩, s₂⟩ <;> rw [hmade] at hsent <;> exact ⟨rfl, rfl, hsent⟩

theorem leads_synchronization (s : Model × Session) :
    (Occurrence.ofRun .synchronization synchronize s).Leads s (synchronize.perform s).2 := by
  obtain ⟨hready, htable, hsends⟩ := synchronize_spec s
  obtain ⟨hsent, hown⟩ := hsends.sendings
  exact ⟨hready, htable, hsent, hown⟩

theorem operation_ok {k : StatementKind} {parts : List (String × Value)} {o : Operation}
    {s s' : Model × Session} (h : (operation k parts).perform s = (.ok o, s')) : o.kind = k := by
  obtain ⟨m, s₁, hm, h⟩ := bind_ok h
  dsimp only at h
  split at h
  · rename_i o' ho
    cases h
    exact Operation.ofArguments_kind ho
  · cases h
  · cases h

theorem compile_ok {o : Operation} {p : Prepared} {s s' : Model × Session}
    (h : (compile o).perform s = (.ok p, s')) :
    ∃ s₁, (o.compile s.1.table).perform s.2 = (.ok p, s₁) := by
  obtain ⟨m, s₁, hm, h⟩ := bind_ok h
  cases hm
  obtain ⟨hp, -⟩ := Prod.mk.inj ((perform_act _ _).symm.trans h)
  exact ⟨_, Prod.ext hp rfl⟩

theorem mapM_ok {f : α → Run β} : ∀ {xs : List α} {ys : List β} {s s' : Model × Session},
    (xs.mapM f : Run (List β)).perform s = (.ok ys, s') →
      List.Forall₂ (fun x y => ∃ s₁ s₂, (f x).perform s₁ = (.ok y, s₂)) xs ys
  | [], ys, s, s', h => by
    cases h
    exact .nil
  | x :: xs, ys, s, s', h => by
    rw [List.mapM_cons] at h
    obtain ⟨y, s₁, hy, h⟩ := bind_ok h
    obtain ⟨ys', s₂, hys', h⟩ := bind_ok h
    cases h
    exact .cons ⟨_, _, hy⟩ (mapM_ok hys')

/-- A model is dropped by one definition for each view and one for the table. -/
theorem dropStatements_ok {xs : List (Phase × Statement)} {s s' : Model × Session}
    (h : dropStatements.perform s = (.ok xs, s')) :
    xs.length = s.1.table.views.length + 1 ∧ ∀ x ∈ xs, ∃ d, x.2 = .define d := by
  have hdefines {k : StatementKind} {parts : List (String × Value)} {o : Operation} {p : Prepared}
      {s₁ s₂ s₃ s₄ : Model × Session} (ho : (operation k parts).perform s₁ = (.ok o, s₂))
      (hp : (compile o).perform s₃ = (.ok p, s₄)) (hk : k.defines = true) :
      ∃ d, p.statement = .define d := by
    obtain ⟨s₅, hp⟩ := compile_ok hp
    exact Operation.compile_define ((operation_ok ho).symm ▸ hk) hp
  obtain ⟨m, s₁, hm, h⟩ := bind_ok h
  cases hm
  obtain ⟨views, s₂, hviews, h⟩ := bind_ok h
  obtain ⟨o, s₃, ho, h⟩ := bind_ok h
  obtain ⟨p, s₄, hp, h⟩ := bind_ok h
  cases h
  have hviews := mapM_ok hviews
  refine ⟨by rw [List.length_append, hviews.length_eq]; rfl, fun x hx => ?_⟩
  rcases List.mem_append.1 hx with hx | hx
  · obtain ⟨v, -, s₅, s₆, hv⟩ := forall₂_mem_right hviews hx
    obtain ⟨o, s₇, ho, hv⟩ := bind_ok hv
    obtain ⟨p, s₈, hp, hv⟩ := bind_ok hv
    cases hv
    exact hdefines ho hp rfl
  · cases List.mem_singleton.1 hx
    exact hdefines ho hp rfl

/-- Send statements that drop something, one after the other. -/
def sendDrops (table : String) (xs : List (Phase × Statement)) : Run (List String) :=
  xs.mapM fun x => act (sendDrop table x.1 x.2)

/-- How a removal ends. -/
theorem perform_dropTable (s : Model × Session) :
    dropTable.perform s = match dropStatements.perform s with
      | (.error f, s₁) => (.error f, s₁)
      | (.ok xs, s₁) => match (sendDrops s₁.1.table.name xs).perform s₁ with
        | (.error f, s₂) => (.error f, s₂)
        | (.ok sent, s₂) => (.ok sent, ({ s₂.1 with isReady := false }, s₂.2)) := by
  have hdrop : dropTable = (do
      let xs ← dropStatements
      let sent ← sendDrops (← this).table.name xs
      change fun m => { m with isReady := false }
      return sent) := rfl
  rw [hdrop, perform_bind]
  rcases dropStatements.perform s with ⟨f | xs, s₁⟩
  · rfl
  · simp only [perform_bind, perform_this]
    rcases (sendDrops s₁.1.table.name xs).perform s₁ with ⟨f | sent, s₂⟩ <;> rfl

/-- From one state to the other nothing was done but that statements with a property were sent. -/
structure OnlySends (p : Call → Prop) (s s' : Model × Session) : Prop where
  model : s'.1 = s.1
  session : s.2.SendsOnly p s'.2

instance (p : Call → Prop) : IsPreorder (Model × Session) (OnlySends p) where
  refl s := ⟨rfl, refl s.2⟩
  trans _ _ _ h h' := ⟨h'.model.trans h.model,
    trans_of (Session.SendsOnly p) h.session h'.session⟩

theorem onlySends_act {p : Call → Prop} {a : Action α} (h : Within (Session.SendsOnly p) a) :
    Within (OnlySends p) (act a) := fun s => ⟨rfl, h s.2⟩

/-- A model is not ready after a removal that came to its end, and as ready as before after any
other. -/
theorem dropTable_spec (s : Model × Session) :
    (dropTable.perform s).2.1.isReady = (s.1.isReady && !(dropTable.perform s).1.isOk) ∧
      (dropTable.perform s).2.1.table = s.1.table ∧
      s.2.SendsOnly Call.IsDefinition (dropTable.perform s).2.2 := by
  have hunmoved : Unmoved s (dropStatements.perform s).2 := isUnmoving_dropStatements s
  rw [perform_dropTable]
  rcases hstatements : dropStatements.perform s with ⟨f | xs, s₁⟩ <;> rw [hstatements] at hunmoved
  · exact ⟨hunmoved.isReady.trans (Bool.and_true _).symm, hunmoved.table,
      hunmoved.still.sendsOnly⟩
  · have hsends : OnlySends Call.IsDefinition s₁
        ((sendDrops s₁.1.table.name xs).perform s₁).2 := by
      refine Within.mapM (fun x hx => onlySends_act ?_) s₁
      obtain ⟨d, hd⟩ := (dropStatements_ok hstatements).2 x hx
      exact hd ▸ sendDrop_sendsOnly _ _ d
    have hsent := trans_of (Session.SendsOnly Call.IsDefinition) hunmoved.still.sendsOnly
      hsends.session
    have htable := (congrArg Model.table hsends.model).trans hunmoved.table
    have hready := (congrArg Model.isReady hsends.model).trans hunmoved.isReady
    dsimp only
    rcases hmade : (sendDrops s₁.1.table.name xs).perform s₁ with ⟨f | sent, s₂⟩ <;>
      rw [hmade] at hsent htable hready
    · exact ⟨hready.trans (Bool.and_true _).symm, htable, hsent⟩
    · exact ⟨(Bool.and_false _).symm, htable, hsent⟩

theorem leads_removal (s : Model × Session) :
    (Occurrence.ofRun .removal dropTable s).Leads s (dropTable.perform s).2 := by
  obtain ⟨hready, htable, hsends⟩ := dropTable_spec s
  obtain ⟨hsent, hown⟩ := hsends.sent.sendings
  exact ⟨hready, htable, hsent, hown⟩

theorem leads_execution (s : Model × Session) (p : Prepared) (options : ExecutionOptions) :
    (Occurrence.ofRun (.execution p.statement) (act (p.execute s.1.table.name options)) s).Leads s
      ((act (p.execute s.1.table.name options)).perform s).2 := by
  obtain ⟨hsent, hown⟩ :=
    (p.execute_sendsOnly s.1.table.name options s.2).sent.sendings
  exact ⟨rfl, rfl, hsent, hown⟩

namespace Told

variable {s s' : Model × Session} {os : List Occurrence}

/-- Occurrences lead on from one to the next. -/
theorem leads (h : Told s os s') :
    s'.1.isReady = os.foldl Occurrence.readyAfter s.1.isReady ∧ s'.1.table = s.1.table ∧
      s'.2.store.sent =
        ((os.flatMap Occurrence.sendings).map Sending.call).reverse ++ s.2.store.sent ∧
      ∀ o ∈ os, o.SendsOwn := by
  have hsingle {o : Occurrence} {s s' : Model × Session} (h : o.Leads s s') :
      s'.1.isReady = [o].foldl Occurrence.readyAfter s.1.isReady ∧ s'.1.table = s.1.table ∧
        s'.2.store.sent =
          (([o].flatMap Occurrence.sendings).map Sending.call).reverse ++ s.2.store.sent ∧
        ∀ o' ∈ [o], o'.SendsOwn := by
    refine ⟨h.isReady, h.table, ?_, fun o' ho' => List.mem_singleton.1 ho' ▸ h.own⟩
    rw [List.flatMap_singleton]
    exact h.sent
  induction h with
  | unmoved h =>
    exact ⟨h.isReady, h.table, congrArg Store.sent h.still.store, fun _ h => (nomatch h)⟩
  | synchronization s => exact hsingle (leads_synchronization s)
  | execution s p options => exact hsingle (leads_execution s p options)
  | removal s => exact hsingle (leads_removal s)
  | append _ _ ih ih' =>
    obtain ⟨hready, htable, hsent, hown⟩ := ih
    obtain ⟨hready', htable', hsent', hown'⟩ := ih'
    refine ⟨?_, htable'.trans htable, ?_, fun o ho => ?_⟩
    · rw [List.foldl_append, ← hready, hready']
    · rw [hsent', hsent, List.flatMap_append, List.map_append, List.reverse_append,
        List.append_assoc]
    · exact (List.mem_append.1 ho).elim (hown o) (hown' o)

/-- Where nothing occurs nothing is sent, asked or looked up. -/
theorem unmoved_of_nil (h : Told s os s') (hos : os = []) : Unmoved s s' := by
  induction h with
  | unmoved h => exact h
  | synchronization | execution | removal => cases hos
  | append _ _ ih ih' =>
    obtain ⟨hfirst, hsecond⟩ := List.append_eq_nil_iff.1 hos
    exact trans_of Unmoved (ih hfirst) (ih' hsecond)

/-- Only a synchronization looks a live table up or asks the operator. -/
theorem kept_of_no_synchronization (h : Told s os s')
    (hos : ∀ o ∈ os, o.doing ≠ .synchronization) :
    s'.2.consulted = s.2.consulted ∧ s'.2.asked = s.2.asked := by
  induction h with
  | unmoved h => exact ⟨h.still.consulted, h.still.asked⟩
  | synchronization s => exact absurd rfl (hos _ (List.mem_singleton_self _))
  | execution s p options =>
    have hsends := p.execute_sendsOnly s.1.table.name options s.2
    exact ⟨hsends.consulted, hsends.asked⟩
  | removal s =>
    obtain ⟨-, -, hsends⟩ := dropTable_spec s
    exact ⟨hsends.consulted, hsends.asked⟩
  | append _ _ ih ih' =>
    obtain ⟨hconsulted, hasked⟩ := ih fun o ho => hos o (List.mem_append_left _ ho)
    obtain ⟨hconsulted', hasked'⟩ := ih' fun o ho => hos o (List.mem_append_right _ ho)
    exact ⟨hconsulted'.trans hconsulted, hasked'.trans hasked⟩

end Told

/-! ## Calls that execute a statement -/

/-- The occurrences of a call that executes a statement of a kind, by the readiness of the model: it
synchronizes if the model is not ready, and executes the statement only if that succeeds. It may
also end before anything occurs. -/
inductive Course (k : StatementKind) : Bool → List Occurrence → Prop
  | nothing {ready} : Course k ready []
  | execution {o st} (hdoing : o.doing = .execution st) (hkind : st.kind = k) : Course k true [o]
  | refusal {o} (hdoing : o.doing = .synchronization) (hreturned : o.returned = false) :
    Course k false [o]
  | both {o o' st} (hdoing : o.doing = .synchronization) (hreturned : o.returned = true)
    (hdoing' : o'.doing = .execution st) (hkind : st.kind = k) : Course k false [o, o']

/-- What the computation does is a course, and when only the statement is asked for it does
nothing. -/
def Executes (compileOnly : Bool) (k : StatementKind) (r : Run α) : Prop :=
  ∀ s, ∃ os, Told s os (r.perform s).2 ∧ Course k s.1.isReady os ∧ (compileOnly = true → os = [])

namespace Executes

variable {b : Bool} {k : StatementKind} {r : Run α}

theorem of_unmoving (h : IsUnmoving r) : Executes b k r :=
  fun s => ⟨[], .unmoved (h s), .nothing, fun _ => rfl⟩

/-- What goes before without moving anything counts for nothing. -/
theorem after {f : α → Run β} (h : IsUnmoving r)
    (hf : ∀ x, (∃ s s', r.perform s = (.ok x, s')) → Executes b k (f x)) :
    Executes b k (r >>= f : Run β) := by
  intro s
  have hunmoved : Unmoved s (r.perform s).2 := h s
  rw [perform_bind]
  rcases hr : r.perform s with ⟨e | x, s₁⟩ <;> rw [hr] at hunmoved
  · exact ⟨[], .unmoved hunmoved, .nothing, fun _ => rfl⟩
  · obtain ⟨os, htold, hcourse, hos⟩ := hf x ⟨s, s₁, hr⟩ s₁
    exact ⟨os, .append (.unmoved hunmoved) htold, hunmoved.isReady ▸ hcourse, hos⟩

/-- So does what comes after. -/
theorem before {f : α → Run β} (h : Executes b k r) (hf : ∀ x, IsUnmoving (f x)) :
    Executes b k (r >>= f : Run β) := by
  intro s
  obtain ⟨os, htold, hcourse, hos⟩ := h s
  refine ⟨os, ?_, hcourse, hos⟩
  rw [perform_bind]
  rcases hr : r.perform s with ⟨e | x, s₁⟩ <;> rw [hr] at htold
  · exact htold
  · have hrest : Unmoved s₁ ((f x).perform s₁).2 := hf x s₁
    exact List.append_nil os ▸ htold.append (.unmoved hrest)

theorem map {g : α → β} (h : Executes b k r) : Executes b k (g <$> r : Run β) :=
  h.before fun _ => .pure _

end Executes

theorem perform_tryCatch (r : Run α) (handle : Failure → Run α) (s : Model × Session) :
    (tryCatch r handle : Run α).perform s = match r.perform s with
      | (.ok x, s₁) => (.ok x, s₁)
      | (.error f, s₁) => (handle f).perform s₁ := by
  unfold Run.perform ExceptT.run
  simp only [tryCatch, tryCatchThe, MonadExceptOf.tryCatch, ExceptT.tryCatch, ExceptT.mk, bind,
    StateT.bind]
  rcases r s with ⟨_ | x, s₁⟩ <;> rfl

/-- A span around a computation leaves all to the computation. -/
theorem perform_traced (name : String) (r : Run α) (m : Model) (s : Session) :
    ∃ s₀ s₁, s.Aside s₀ ∧ (r.perform (m, s₀)).2.2.Aside s₁ ∧
      (traced name r).perform (m, s) =
        ((r.perform (m, s₀)).1, ((r.perform (m, s₀)).2.1, s₁)) := by
  obtain ⟨place, s₀, hopen, haside⟩ : ∃ place s₀, (act (Action.openSpan name
      (details [("cqlflow.table", .text m.table.name)]))).perform (m, s) = (.ok place, (m, s₀)) ∧
      s.Aside s₀ := ⟨_, _, rfl, ⟨⟨⟨rfl, rfl, rfl, rfl⟩, rfl⟩, rfl⟩⟩
  refine ⟨s₀, ?_⟩
  unfold traced
  simp only [perform_bind, perform_this, hopen, perform_tryCatch]
  rcases r.perform (m, s₀) with ⟨f | x, s₁⟩
  · exact ⟨((act (Action.recordFailure place f)).perform s₁).2.2, haside,
      ⟨⟨⟨rfl, rfl, rfl, rfl⟩, rfl⟩, rfl⟩, rfl⟩
  · exact ⟨s₁.2, haside, refl s₁.2, rfl⟩

theorem perform_ensureReady (s : Model × Session) :
    ensureReady.perform s = if s.1.isReady then (.ok (), s) else
      ((synchronize.perform s).1.map fun _ => (), (synchronize.perform s).2) := by
  unfold ensureReady
  rw [perform_bind, perform_this]
  cases hready : s.1.isReady with
  | true =>
    simp only [hready]
    rfl
  | false =>
    simp only [hready, Bool.not_false, if_true, perform_bind]
    rcases synchronize.perform s with ⟨f | r, s₁⟩ <;> rfl

/-- The execution of a statement without the span around it. -/
def executeReady (p : Prepared) (options : ExecutionOptions) : Run (List Value) := do
  ensureReady
  act (p.execute (← this).table.name options)

theorem execute_eq (p : Prepared) (options : ExecutionOptions) :
    execute p options = traced "cqlflow.model.execute" (executeReady p options) := rfl

theorem perform_executeReady (p : Prepared) (options : ExecutionOptions) (s : Model × Session) :
    (executeReady p options).perform s = match ensureReady.perform s with
      | (.ok _, s₁) => (act (p.execute s₁.1.table.name options)).perform s₁
      | (.error f, s₁) => (.error f, s₁) := by
  unfold executeReady
  rw [perform_bind]
  rcases ensureReady.perform s with ⟨f | _, s₁⟩
  · rfl
  · simp only [perform_bind, perform_this]

/-- A statement is executed by a model that is ready, or by one that has become so. -/
theorem told_executeReady (p : Prepared) (options : ExecutionOptions) (s : Model × Session) :
    ∃ os, Told s os ((executeReady p options).perform s).2 ∧
      Course p.statement.kind s.1.isReady os := by
  rw [perform_executeReady, perform_ensureReady]
  cases s.1.isReady with
  | true => exact ⟨_, .execution s p options, .execution rfl rfl⟩
  | false =>
    have hsync := Told.synchronization s
    rw [if_neg (by simp)]
    rcases hmade : synchronize.perform s with ⟨f | r, s₁⟩
    · rw [hmade] at hsync
      refine ⟨_, hsync, .refusal rfl ?_⟩
      simp only [Occurrence.ofRun, hmade]
      rfl
    · rw [hmade] at hsync
      refine ⟨_, hsync.append (.execution s₁ p options), .both rfl ?_ rfl rfl⟩
      simp only [Occurrence.ofRun, hmade]
      rfl

theorem executes_execute (p : Prepared) (options : ExecutionOptions) :
    Executes false p.statement.kind (execute p options) := by
  intro s
  rw [execute_eq]
  obtain ⟨s₀, s₁, hopened, hended, htraced⟩ :=
    perform_traced "cqlflow.model.execute" (executeReady p options) s.1 s.2
  obtain ⟨os, htold, hcourse⟩ := told_executeReady p options (s.1, s₀)
  refine ⟨os, ?_, hcourse, nofun⟩
  have hbefore : Unmoved s (s.1, s₀) := ⟨rfl, rfl, hopened.toStill⟩
  have hafter : Unmoved ((executeReady p options).perform (s.1, s₀)).2
      (((executeReady p options).perform (s.1, s₀)).2.1, s₁) := ⟨rfl, rfl, hended.toStill⟩
  have hall := ((Told.unmoved hbefore).append htold).append (.unmoved hafter)
  rw [List.nil_append, List.append_nil] at hall
  rw [htraced]
  exact hall

theorem executes_dispatch {o : Operation} {k : StatementKind} (hkind : o.kind = k)
    (hrows : k.defines = false) (compileOnly : Bool) (options : ExecutionOptions) :
    Executes compileOnly k (dispatch o compileOnly options) := by
  subst hkind
  refine .after (isUnmoving_compile o) fun p hp => ?_
  obtain ⟨s, s', hp⟩ := hp
  obtain ⟨s₁, hp⟩ := compile_ok hp
  cases compileOnly with
  | true => exact .of_unmoving (.pure _)
  | false =>
    rw [← Operation.compile_kind hrows hp]
    exact (executes_execute p options).before fun _ => .pure _

/-- The statement of an operation that is made of its parts, or the rows that it answers. -/
theorem executes_operation {k : StatementKind} {b : Bool} {parts : List (String × Value)}
    {f : Operation → Run α} (hf : ∀ o, o.kind = k → Executes b k (f o)) :
    Executes b k (operation k parts >>= f : Run α) :=
  .after (isUnmoving_operation k parts) fun o ⟨_, _, ho⟩ => hf o (operation_ok ho)

theorem isUnmoving_keep (r : Record) : IsUnmoving (keep r) :=
  .bind isUnmoving_this fun _ => .bind (fun _ => ⟨rfl, rfl, rfl, rfl, rfl, rfl⟩) fun _ => .pure _

theorem isUnmoving_collect (rows : List Value) : IsUnmoving (collect rows) := by
  refine .bind isUnmoving_this fun m => ?_
  split
  · exact .map (.mapM fun row _ => .bind (isUnmoving_lift _) fun _ => isUnmoving_keep _)
  · exact .bind (.mapM fun row _ => isUnmoving_act (Callback.apply_still _ _)) fun _ => .pure _

theorem executes_findWith (query : List (Value × Value)) (b : Bound) :
    Executes (b.holds "return_query") .select (findWith query b) := by
  refine executes_operation fun o ho => .after (isUnmoving_lift _) fun options _ =>
    (executes_dispatch ho rfl _ options).before fun answer => ?_
  split
  · exact .pure _
  · split
    · exact .pure _
    · exact isUnmoving_collect _

end Model

namespace ModelCall

/-- The kind of the statement that a call executes, if it executes one. -/
def kind? : ModelCall → Option StatementKind
  | find | findOne => some .select
  | insert => some .insert
  | update => some .update
  | delete => some .delete
  | truncate => some .truncate
  | dropTable | synchronize | new | render => none

end ModelCall

namespace Model

theorem lift_ok {r : Except Failure α} {x : α} {s s' : Model × Session}
    (h : (lift r).perform s = (.ok x, s')) : r = .ok x :=
  (Action.lift_ok (Prod.ext (Prod.mk.inj h).1 rfl : (Action.lift r).perform s.2 = (.ok x, _))).1

/-- A call that executes a statement does what a course tells, and nothing when only the statement
is asked for. -/
theorem executes_call {c : ModelCall} {k : StatementKind} (hk : c.kind? = some k) {a : Arguments}
    {b : Bool} (hb : ∀ bound, a.bind c.parameters = .ok bound → bound.holds "return_query" = b) :
    Executes b k (call c a) := by
  have hstart {f : Bound → Run Answer}
      (hf : ∀ bound, Executes (bound.holds "return_query") k (f bound)) :
      Executes b k (lift (a.bind c.parameters) >>= f : Run Answer) :=
    .after (isUnmoving_lift _) fun bound ⟨_, _, hbound⟩ => hb bound (lift_ok hbound) ▸ hf bound
  cases c <;> cases hk
  case find => exact hstart fun bound => .after (isUnmoving_lift _) fun _ _ => executes_findWith _ _
  case findOne =>
    exact hstart fun bound => .after (isUnmoving_lift _) fun _ _ => (executes_findWith _ _).map
  case insert =>
    exact hstart fun bound => .after (isUnmoving_lift _) fun _ _ =>
      executes_operation fun o ho => (executes_dispatch ho rfl _ _).map
  case update =>
    exact hstart fun bound => .after (isUnmoving_lift _) fun _ _ =>
      .after (isUnmoving_lift _) fun _ _ => .after (isUnmoving_lift _) fun _ _ =>
        executes_operation fun o ho => (executes_dispatch ho rfl _ _).map
  case delete =>
    exact hstart fun bound => .after (isUnmoving_lift _) fun _ _ =>
      executes_operation fun o ho => (executes_dispatch ho rfl _ _).map
  case truncate =>
    exact hstart fun bound => executes_operation fun o ho => (executes_dispatch ho rfl _ _).map

/-! ## Every call -/

/-- The occurrences are such as a call has, by whether the call returned and by the readiness of the
model before it. -/
def Fits (c : ModelCall) (returned ready : Bool) (os : List Occurrence) : Prop :=
  match c with
  | .synchronize => os = [] ∧ returned = false ∨
    ∃ o, os = [o] ∧ o.doing = .synchronization ∧ o.returned = returned
  | .dropTable => os = [] ∧ returned = false ∨
    ∃ o, os = [o] ∧ o.doing = .removal ∧ o.returned = returned
  | .new | .render => os = []
  | c => ∃ k, c.kind? = some k ∧ Course k ready os

/-- A model that is ready synchronizes only when it is called to. -/
theorem Fits.no_synchronization {c : ModelCall} {returned : Bool} {os : List Occurrence}
    (h : Fits c returned true os) (hc : c ≠ .synchronize) :
    ∀ o ∈ os, o.doing ≠ .synchronization := by
  have hcourse {k : StatementKind} (h : Course k true os) :
      ∀ o ∈ os, o.doing ≠ .synchronization := by
    cases h with
    | nothing => exact fun _ ho => (nomatch ho)
    | execution hdoing _ =>
      intro o ho
      rw [List.mem_singleton.1 ho, hdoing]
      nofun
  cases c with
  | synchronize => exact absurd rfl hc
  | dropTable =>
    rcases h with ⟨rfl, -⟩ | ⟨o, rfl, hdoing, -⟩
    · exact fun _ ho => (nomatch ho)
    · intro o' ho'
      rw [List.mem_singleton.1 ho', hdoing]
      nofun
  | new | render =>
    intro o ho
    rw [(h : os = [])] at ho
    cases ho
  | find | findOne | insert | update | delete | truncate =>
    obtain ⟨k, -, h⟩ := h
    exact hcourse h

/-- A call that is one computation is told by one occurrence, or by none when its arguments do not
fit. -/
theorem told_computation {doing : Doing} {r : Run α} {g : α → Answer} (a : Arguments)
    (p : Parameters) (htold : ∀ s, Told s [.ofRun doing r s] (r.perform s).2)
    (s : Model × Session) :
    let call : Run Answer := lift (a.bind p) >>= fun _ => g <$> r
    ∃ os, Told s os (call.perform s).2 ∧ (os = [] ∧ (call.perform s).1.isOk = false ∨
      ∃ o, os = [o] ∧ o.doing = doing ∧ o.returned = (call.perform s).1.isOk) := by
  intro call
  have hunmoved : Unmoved s ((lift (a.bind p)).perform s).2 := isUnmoving_lift _ s
  have hcall : call.perform s = match (lift (a.bind p)).perform s with
      | (.ok _, s₁) => ((r.perform s₁).1.map g, (r.perform s₁).2)
      | (.error e, s₁) => (.error e, s₁) := by
    change (lift (a.bind p) >>= fun _ => g <$> r : Run Answer).perform s = _
    rw [perform_bind]
    rcases (lift (a.bind p)).perform s with ⟨e | bound, s₁⟩
    · rfl
    · exact perform_map g r s₁
  rw [hcall]
  rcases hlift : (lift (a.bind p)).perform s with ⟨e | bound, s₁⟩ <;> rw [hlift] at hunmoved
  · exact ⟨[], .unmoved hunmoved, .inl ⟨rfl, rfl⟩⟩
  · refine ⟨_, (Told.unmoved hunmoved).append (htold s₁), .inr ⟨_, rfl, rfl, ?_⟩⟩
    dsimp only [Occurrence.ofRun]
    rcases r.perform s₁ with ⟨e | x, s₂⟩ <;> rfl

/-- What a call does is told by occurrences that fit it. -/
theorem call_told (c : ModelCall) (a : Arguments) (s : Model × Session) :
    ∃ os, Told s os ((call c a).perform s).2 ∧
      Fits c ((call c a).perform s).1.isOk s.1.isReady os := by
  have hrows {k : StatementKind} (hk : c.kind? = some k) :
      ∃ os, Told s os ((call c a).perform s).2 ∧ Course k s.1.isReady os := by
    obtain ⟨b, hb⟩ : ∃ b, ∀ bound, a.bind c.parameters = .ok bound →
        bound.holds "return_query" = b := by
      cases a.bind c.parameters with
      | error f => exact ⟨false, nofun⟩
      | ok bound => exact ⟨bound.holds "return_query", fun _ h => by rw [Except.ok.inj h]⟩
    obtain ⟨os, htold, hcourse, -⟩ := executes_call hk hb s
    exact ⟨os, htold, hcourse⟩
  cases c with
  | find | findOne | insert | update | delete | truncate =>
    obtain ⟨os, htold, hcourse⟩ := hrows rfl
    exact ⟨os, htold, _, rfl, hcourse⟩
  | new =>
    have hnew : IsUnmoving (call .new a) := .bind (isUnmoving_lift _) fun _ =>
      .bind (isUnmoving_lift _) fun _ => .bind isUnmoving_this fun _ =>
        .bind (isUnmoving_lift _) fun _ => .bind (isUnmoving_keep _) fun _ => .pure _
    exact ⟨[], .unmoved (hnew s), rfl⟩
  | render =>
    have hrender : IsUnmoving (call .render a) := .bind (isUnmoving_lift _) fun _ =>
      .bind isUnmoving_this fun _ => .pure _
    exact ⟨[], .unmoved (hrender s), rfl⟩
  | synchronize => exact told_computation a _ .synchronization s
  | dropTable =>
    exact told_computation (g := fun xs => .value (.list (xs.map .text))) a _ .removal s

/-! ## Calls that ask for their statement only -/

/-- Arguments that fit are each given once, and each is one of the parameters. -/
theorem Arguments.bind_ok {a : Arguments} {p : Parameters} {bound : Bound}
    (h : a.bind p = .ok bound) : bound.entries = a.entries p ∧ (Keyed.names (a.entries p)).Nodup ∧
      ∀ name ∈ Keyed.names (a.entries p), name ∈ p.placed ++ p.named := by
  unfold Arguments.bind at h
  split at h
  · rename_i hfits
    cases h
    simp only [Arguments.fits, Bool.and_eq_true, List.all_eq_true, beq_iff_eq,
      List.contains_iff_mem] at hfits
    obtain ⟨⟨⟨-, hknown⟩, hlength⟩, -⟩ := hfits
    refine ⟨rfl, Keyed.nodup_of_length_ofList hlength, fun name hname => ?_⟩
    obtain ⟨e, he, rfl⟩ := List.mem_map.1 hname
    exact hknown e he
  · cases h

/-- A call that asks for its statement only sends nothing, asks nobody, looks no live table up and
leaves the model as ready as it is. -/
theorem unmoved_of_returnQuery {c : ModelCall} {a : Arguments} {v : Value}
    (hv : ("return_query", v) ∈ a.named) (htrue : v.isTrue = true) (s : Model × Session) :
    Unmoved s ((call c a).perform s).2 := by
  have hentry : ("return_query", v) ∈ a.entries c.parameters := List.mem_append_right _ hv
  cases hk : c.kind? with
  | some k =>
    obtain ⟨os, htold, -, hos⟩ := executes_call hk (a := a) (b := true) (fun bound hbound => by
      obtain ⟨hentries, hnodup, -⟩ := Arguments.bind_ok hbound
      unfold Bound.holds Bound.get
      rw [hentries, Keyed.get?_of_mem hnodup hentry]
      exact htrue) s
    exact htold.unmoved_of_nil (hos rfl)
  | none =>
    -- the other calls have no such parameter, and end with their arguments
    have hparameters : "return_query" ∉ c.parameters.placed ++ c.parameters.named := by
      cases c with
      | dropTable | synchronize | new | render => decide
      | _ => cases hk
    have hunmoved : Unmoved s ((lift (a.bind c.parameters)).perform s).2 := isUnmoving_lift _ s
    unfold call
    rw [perform_bind]
    rcases hlift : (lift (a.bind c.parameters)).perform s with ⟨e | bound, s₁⟩ <;>
      rw [hlift] at hunmoved
    · exact hunmoved
    · obtain ⟨-, -, hknown⟩ := Arguments.bind_ok (lift_ok hlift)
      exact absurd (hknown _ (Keyed.mem_names_of_mem hentry)) hparameters

end Model

end WideColumn
