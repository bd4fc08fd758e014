import WideColumn.Proofs.History
import WideColumn.Proofs.Run

/-!
# Removals that fail

A removal drops the views one after the other and then the table, and ends with the first drop that
fails (`Model.sendDrops_attempt`). The model is told that it is no longer ready only when all drops
succeeded, so a model may be ready although a definition was executed since it was synchronized:
this is so exactly when a removal since then failed after its first drop
(`Model.defined_since_iff`), for which the model must have a view.
-/

namespace WideColumn

/-! ## Sendings one by one -/

theorem Sending.ofScript_append : ∀ (cs cs' : List Call) (failures : List (Option Failure)),
    ofScript (cs ++ cs') failures = ofScript cs failures ++ ofScript cs' (failures.drop cs.length)
  | [], _, _ => rfl
  | c :: cs, cs', failures => by
    have hrest := ofScript_append cs cs' (failures.drop 1)
    rw [List.drop_drop, Nat.add_comm] at hrest
    exact congrArg (⟨c, failures.head?.join⟩ :: ·) hrest

namespace Session

variable {s s₁ s₂ : Session} {xs ys : List Sending}

/-- From one session to the other just these sendings were made. -/
structure Makes (xs : List Sending) (s s' : Session) : Prop where
  sent : s'.store.sent = (xs.map Sending.call).reverse ++ s.store.sent
  failures : s'.store.failures = s.store.failures.drop xs.length
  script : xs = Sending.ofScript (xs.map Sending.call) s.store.failures

theorem Still.makes (h : s.Still s₁) : s.Makes [] s₁ :=
  ⟨congrArg Store.sent h.store, congrArg Store.failures h.store, rfl⟩

theorem Makes.append (h : s.Makes xs s₁) (h' : s₁.Makes ys s₂) : s.Makes (xs ++ ys) s₂ where
  sent := by
    rw [h'.sent, h.sent, List.map_append, List.reverse_append, List.append_assoc]
  failures := by
    rw [h'.failures, h.failures, List.drop_drop, List.length_append]
  script := by
    have hrest := h'.script
    rw [h.failures] at hrest
    rw [List.map_append, Sending.ofScript_append, List.length_map, ← h.script, ← hrest]

theorem Makes.sendings_eq (h : s.Makes xs s₁) : s.sendings s₁ = xs := by
  rw [Session.sendings_eq h.sent, List.reverse_reverse, ← h.script]

end Session

/-! ## Attempts -/

/-- Of so many statements the first ones are sent until one fails; whether none did. -/
inductive Attempt : Nat → Bool → List Sending → Prop
  | done : Attempt 0 true []
  | failed {n x} (hx : x.failure ≠ none) : Attempt (n + 1) false [x]
  | sent {n completed x xs} (hx : x.failure = none) (h : Attempt n completed xs) :
    Attempt (n + 1) completed (x :: xs)

namespace Attempt

variable {n : Nat} {completed : Bool} {xs : List Sending}

theorem length_le (h : Attempt n completed xs) : xs.length ≤ n := by
  induction h with
  | done => exact le_rfl
  | failed => exact Nat.le_add_left 1 _
  | sent _ _ ih => exact Nat.succ_le_succ ih

theorem ne_nil (h : Attempt n false xs) : xs ≠ [] := by
  cases h <;> exact List.cons_ne_nil _ _

/-- An attempt that failed sent something successfully exactly when it failed after its first
statement. -/
theorem exists_sent_iff (h : Attempt n false xs) :
    (∃ x ∈ xs, x.failure = none) ↔ 1 < xs.length := by
  cases h with
  | failed hx =>
    refine ⟨fun ⟨y, hy, hnone⟩ => ?_, fun h => absurd h (Nat.lt_irrefl 1)⟩
    exact absurd (List.mem_singleton.1 hy ▸ hnone) hx
  | sent hx h =>
    refine ⟨fun _ => ?_, fun _ => ⟨_, List.mem_cons_self, hx⟩⟩
    exact Nat.succ_lt_succ (List.length_pos_iff.2 h.ne_nil)

end Attempt

namespace Model

/-! ## Removals -/

/-- Sending a drop is one sending, which succeeds if the store does not fail. -/
theorem sendDrop_makes (table : String) (phase : Phase) (d : Ddl Identifier) (s : Session) :
    ∃ x, s.Makes [x] ((sendDrop table phase (.define d)).perform s).2 ∧
      ((sendDrop table phase (.define d)).perform s).1.isOk = x.failure.isNone := by
  obtain ⟨s₁, hnote, hstore₁⟩ : ∃ s₁, (Action.note 20 modelLogger "model.ddl.execute" [
      ("table", .text table), ("statement", .text (Statement.define d).render)]).perform s =
        (.ok (), s₁) ∧ s₁.store = s.store := ⟨_, rfl, rfl⟩
  obtain ⟨s₂, hs₂, hresult, hsent, hfailures, -⟩ := Migration.run_spec d.render s₁
  refine ⟨⟨⟨d.render, [], .definition⟩, s.store.failures.head?.join⟩, ?_⟩
  rw [hstore₁] at hresult hsent hfailures
  have hmade : s.Makes [⟨⟨d.render, [], .definition⟩, s.store.failures.head?.join⟩] s₂ :=
    ⟨hsent, hfailures, rfl⟩
  have hmet : ((Store.run d.render [] .definition).perform s₁).1.isOk =
      s.store.failures.head?.join.isNone := by
    revert hresult
    rcases s.store.failures.head? with _ | _ | f <;>
      rcases ((Store.run d.render [] .definition).perform s₁).1 with f' | rows <;>
      intro hresult <;> first | rfl | cases hresult
  have hsend : (Statement.define d).send .definition = Store.run d.render [] .definition := rfl
  rw [← hmet]
  unfold sendDrop
  simp only [Action.perform_bind, hnote, Action.perform_attempt, hsend]
  rcases hrun : (Store.run d.render [] .definition).perform s₁ with ⟨f | rows, s₃⟩ <;>
    rw [hrun] at hs₂ <;> obtain rfl : s₃ = s₂ := hs₂
  · -- a refusal is passed on, and any other failure becomes one
    cases f with
    | refusal r => exact ⟨hmade, rfl⟩
    | _ => exact ⟨hmade.append (Within.refuse _ s₃ : s₃.Still _).makes, rfl⟩
  · exact ⟨hmade, rfl⟩

/-- Drops are sent until one fails. -/
theorem sendDrops_attempt (table : String) : ∀ (xs : List (Phase × Statement)),
    (∀ x ∈ xs, ∃ d, x.2 = .define d) → ∀ s : Model × Session,
      ∃ ys, s.2.Makes ys ((sendDrops table xs).perform s).2.2 ∧
        Attempt xs.length ((sendDrops table xs).perform s).1.isOk ys
  | [], _, s => ⟨[], (refl s.2 : s.2.Still s.2).makes, .done⟩
  | x :: xs, hdefines, s => by
    obtain ⟨d, hd⟩ := hdefines x List.mem_cons_self
    obtain ⟨y, hy, hok⟩ := sendDrop_makes table x.1 d s.2
    have hcons : sendDrops table (x :: xs) = (do
        let first ← act (sendDrop table x.1 (.define d))
        let rest ← sendDrops table xs
        return first :: rest) := by
      unfold sendDrops
      rw [List.mapM_cons, hd]
    rw [hcons, perform_bind, perform_act]
    rcases hfirst : (sendDrop table x.1 (.define d)).perform s.2 with ⟨f | first, s₁⟩ <;>
      rw [hfirst] at hy hok
    · refine ⟨[y], hy, .failed fun hnone => ?_⟩
      rw [hnone] at hok
      cases hok
    · obtain ⟨ys, hys, hrest⟩ := sendDrops_attempt table xs
        (fun x' hx' => hdefines x' (List.mem_cons_of_mem x hx')) (s.1, s₁)
      have hmap : (sendDrops table xs >>= fun rest => pure (first :: rest) : Run _).perform
          (s.1, s₁) = (((sendDrops table xs).perform (s.1, s₁)).1.map (first :: ·),
            ((sendDrops table xs).perform (s.1, s₁)).2) := perform_map _ _ _
      dsimp only
      rw [hmap]
      refine ⟨y :: ys, hy.append hys, .sent (Option.isNone_iff_eq_none.1 hok.symm) ?_⟩
      rcases hmade : (sendDrops table xs).perform (s.1, s₁) with ⟨f | rest, s₂⟩ <;>
        rw [hmade] at hrest <;> exact hrest

/-- What is sent for the occurrence, if it is a removal: the drops of so many views and of the
table, until one fails, unless the removal ended before it sent any. -/
def Occurrence.Removes (views : Nat) (e : Occurrence) : Prop :=
  e.doing = .removal →
    e.sendings = [] ∧ e.returned = false ∨ Attempt (views + 1) e.returned e.sendings

theorem removes_ofRun (s : Model × Session) :
    (Occurrence.ofRun .removal dropTable s).Removes s.1.table.views.length := by
  intro _
  have hunmoved : Unmoved s (dropStatements.perform s).2 := isUnmoving_dropStatements s
  have hstill := hunmoved.still.makes
  unfold Occurrence.ofRun
  rw [perform_dropTable]
  rcases hstatements : dropStatements.perform s with ⟨f | xs, s₁⟩ <;> rw [hstatements] at hstill
  · exact .inl ⟨hstill.sendings_eq, rfl⟩
  · obtain ⟨hlength, hdefines⟩ := dropStatements_ok hstatements
    obtain ⟨ys, hys, hattempt⟩ := sendDrops_attempt s₁.1.table.name xs hdefines s₁
    have hmade := hstill.append hys
    rw [hlength] at hattempt
    right
    dsimp only
    rcases hsent : (sendDrops s₁.1.table.name xs).perform s₁ with ⟨f | sent, s₂⟩ <;>
      rw [hsent] at hmade hattempt <;> exact hmade.sendings_eq ▸ hattempt

theorem Told.removes {s s' : Model × Session} {es : List Occurrence} (h : Told s es s') :
    ∀ e ∈ es, e.Removes s.1.table.views.length := by
  induction h with
  | unmoved => exact fun _ he => (nomatch he)
  | synchronization | execution =>
    intro e he hdoing
    rw [List.mem_singleton.1 he] at hdoing
    cases hdoing
  | removal s => exact fun e he => List.mem_singleton.1 he ▸ removes_ofRun s
  | append h _ ih ih' =>
    intro e he
    exact (List.mem_append.1 he).elim (ih e) fun he => h.leads.2.1 ▸ ih' e he

theorem History.removes {s s' : Model × Session} {os : List Occasion} {es : List Occurrence}
    (h : History s os es s') : ∀ e ∈ es, e.Removes s.1.table.views.length := by
  induction h with
  | nil => exact fun _ he => (nomatch he)
  | cons htold _ _ ih =>
    intro e he
    rcases List.mem_append.1 he with he | he
    · exact htold.removes e he
    · have htable := htold.leads.2.1
      exact htable ▸ ih e he

/-! ## Definitions since the last synchronization -/

namespace Occurrence

/-- A definition was executed for the occurrence. -/
def Defines (e : Occurrence) : Prop := ∃ x ∈ e.sendings, x.call.IsDefinition ∧ x.failure = none

/-- A removal that failed after its first drop. -/
def BreaksOff (e : Occurrence) : Prop :=
  e.doing = .removal ∧ e.returned = false ∧ 1 < e.sendings.length

variable {e : Occurrence} {views : Nat}

theorem BreaksOff.defines (h : e.BreaksOff) (hremoves : e.Removes views) (hown : e.SendsOwn) :
    e.Defines := by
  obtain ⟨hdoing, hreturned, hlength⟩ := h
  have hdefines : ∀ x ∈ e.sendings, x.call.IsDefinition := by
    unfold SendsOwn at hown
    rwa [hdoing] at hown
  rcases hremoves hdoing with ⟨hnone, -⟩ | hattempt
  · rw [hnone] at hlength
    cases hlength
  · rw [hreturned] at hattempt
    obtain ⟨x, hx, hsent⟩ := hattempt.exists_sent_iff.2 hlength
    exact ⟨x, hx, hdefines x hx, hsent⟩

/-- What defines without a synchronization and without a removal that comes to its end is a removal
that breaks off. -/
theorem Defines.breaksOff (h : e.Defines) (hremoves : e.Removes views) (hown : e.SendsOwn)
    (hgrants : ¬ e.Grants) (hrevokes : ¬ e.Revokes)
    (hrows : ∀ st, e.doing = .execution st → st.kind.defines = false) : e.BreaksOff := by
  obtain ⟨x, hx, hdefinition, hsent⟩ := h
  cases hdoing : e.doing with
  | synchronization =>
    cases hreturned : e.returned with
    | true => exact absurd ⟨hdoing, hreturned⟩ hgrants
    | false => exact absurd (.inl ⟨hdoing, hreturned⟩) hrevokes
  | execution st =>
    unfold SendsOwn at hown
    rw [hdoing] at hown
    exact absurd (.inl hdefinition) (Statement.not_isOfSchema (hrows st hdoing) (hown x hx).1)
  | removal =>
    cases hreturned : e.returned with
    | true => exact absurd (.inr ⟨hdoing, hreturned⟩) hrevokes
    | false =>
      refine ⟨hdoing, hreturned, ?_⟩
      rcases hremoves hdoing with ⟨hnone, -⟩ | hattempt
      · rw [hnone] at hx
        cases hx
      · rw [hreturned] at hattempt
        exact hattempt.exists_sent_iff.1 ⟨x, hx, hsent⟩

/-- A removal that breaks off has dropped a view. -/
theorem BreaksOff.views_pos (h : e.BreaksOff) (hremoves : e.Removes views) : 0 < views := by
  obtain ⟨hdoing, -, hlength⟩ := h
  rcases hremoves hdoing with ⟨hnone, -⟩ | hattempt
  · rw [hnone] at hlength
    cases hlength
  · exact Nat.lt_of_succ_lt_succ (hlength.trans_le hattempt.length_le)

end Occurrence

/-- Something with the property occurred since the last synchronization that came to its end. -/
def Since (p : Occurrence → Prop) (es : List Occurrence) : Prop :=
  ∃ before g after, es = before ++ g :: after ∧ g.Grants ∧ (∀ e ∈ after, ¬ e.Grants) ∧
    ∃ e ∈ after, p e

/-- Nothing revokes a licence after the last synchronization that came to its end. -/
theorem Licensed.not_revokes {before after : List Occurrence} {g : Occurrence}
    (h : Licensed (before ++ g :: after)) (hlast : ∀ e ∈ after, ¬ e.Grants) :
    ∀ e ∈ after, ¬ e.Revokes := by
  obtain ⟨before', g', after', hes, hgrants, hafter⟩ := h
  rcases List.append_eq_append_iff.1 hes with ⟨cs, -, hcs⟩ | ⟨cs, -, hcs⟩
  · cases cs with
    | nil => exact (List.cons.inj hcs).2 ▸ hafter
    | cons c cs =>
      have hmem : g' ∈ after := (List.cons.inj hcs).2 ▸ List.mem_append_right _ List.mem_cons_self
      exact absurd hgrants (hlast g' hmem)
  · cases cs with
    | nil => exact (List.cons.inj hcs).2 ▸ hafter
    | cons c cs =>
      intro e he
      refine hafter e ?_
      rw [(List.cons.inj hcs).2]
      exact List.mem_append_right _ (List.mem_cons_of_mem g he)

/-- Every sequence of calls on a new model has a history; and in each of its histories after which
the model is ready, a definition was executed since the last synchronization that came to its end
exactly when a removal since then failed after its first drop, and never if the table has no
view. -/
theorem defined_since_iff (os : List Occasion) {s : Model × Session} (hnew : s.1.isReady = false) :
    (∃ es, History s os es (Occasion.performAll os s)) ∧ ∀ es s', History s os es s' →
      s'.1.isReady = true → Licensed es ∧
        (Since Occurrence.Defines es ↔ Since Occurrence.BreaksOff es) ∧
        (s.1.table.views = [] → ¬ Since Occurrence.Defines es) := by
  refine ⟨history_exists os s, fun es s' h hready => ?_⟩
  obtain ⟨hreadyAfter, -, -, hown⟩ := h.leads
  have hremoves := h.removes
  have hlicensed : Licensed es := licensed_iff.2 (hnew ▸ hreadyAfter ▸ hready)
  have hguarded : Guarded false es := hnew ▸ h.guarded
  have hforward : Since Occurrence.Defines es → Since Occurrence.BreaksOff es := by
    rintro ⟨before, g, after, rfl, hgrants, hlast, e, he, hdefines⟩
    have hmem : e ∈ before ++ g :: after := List.mem_append_right _ (List.mem_cons_of_mem g he)
    have hrows : ∀ st, e.doing = .execution st → st.kind.defines = false := by
      obtain ⟨earlier, later, hsplit⟩ := List.append_of_mem hmem
      intro st hdoing
      rw [hsplit] at hguarded
      exact (hguarded.ready_before hdoing).2
    exact ⟨before, g, after, rfl, hgrants, hlast, e, he, hdefines.breaksOff (hremoves e hmem)
      (hown e hmem) (hlast e he) (hlicensed.not_revokes hlast e he) hrows⟩
  refine ⟨hlicensed, ⟨hforward, ?_⟩, fun hviews hdefined => ?_⟩
  · rintro ⟨before, g, after, rfl, hgrants, hlast, e, he, hbreaks⟩
    have hmem : e ∈ before ++ g :: after := List.mem_append_right _ (List.mem_cons_of_mem g he)
    exact ⟨before, g, after, rfl, hgrants, hlast, e, he,
      hbreaks.defines (hremoves e hmem) (hown e hmem)⟩
  · obtain ⟨before, g, after, rfl, -, -, e, he, hbreaks⟩ := hforward hdefined
    have hmem : e ∈ before ++ g :: after := List.mem_append_right _ (List.mem_cons_of_mem g he)
    have hpos := hbreaks.views_pos (hremoves e hmem)
    rw [hviews] at hpos
    cases hpos

/-- A removal that came to its end does not count: the model was synchronized again since. -/
theorem defined_since_truncations : users.isReady = false ∧
    ∃ es, History (users, {}) truncations es (Occasion.performAll truncations (users, {})) ∧
      Licensed es ∧ (Since Occurrence.Defines es ↔ Since Occurrence.BreaksOff es) := by
  obtain ⟨⟨es, h⟩, hall⟩ := @defined_since_iff truncations (users, {}) rfl
  have hready : (Occasion.performAll truncations (users, {})).1.isReady = true := by decide +kernel
  obtain ⟨hlicensed, hiff, -⟩ := hall es _ h hready
  exact ⟨rfl, es, h, hlicensed, hiff⟩

/-! ### A removal that fails at the table -/

/-- After a synchronization, a removal that fails when it has sent more than one drop leaves the
model ready, although it defined something. -/
theorem defined_since_of_failed {sync removal : Occasion} {s : Model × Session}
    (hsync : sync.call = .synchronize) (hremoval : removal.call = .dropTable)
    (hreturned : (sync.perform s).1.isOk = true)
    (hfailed : (removal.perform (sync.perform s).2).1.isOk = false)
    (hsent : (sync.perform s).2.2.store.sent.length + 1 <
      (removal.perform (sync.perform s).2).2.2.store.sent.length) :
    (Occasion.performAll [sync, removal] s).1.isReady = true ∧
      ∃ es, History s [sync, removal] es (Occasion.performAll [sync, removal] s) ∧
        Since Occurrence.Defines es := by
  obtain ⟨es, htold, hfits⟩ : ∃ es, Told (sync.meet s) es (sync.perform s).2 ∧
      Fits sync.call (sync.perform s).1.isOk s.1.isReady es := call_told _ _ _
  obtain ⟨es', htold', hfits'⟩ : ∃ es', Told (removal.meet (sync.perform s).2) es'
      (removal.perform (sync.perform s).2).2 ∧ Fits removal.call
        (removal.perform (sync.perform s).2).1.isOk (sync.perform s).2.1.isReady es' :=
    call_told _ _ _
  have hhistory : History s [sync, removal] (es ++ (es' ++ []))
      (Occasion.performAll [sync, removal] s) := .cons htold hfits (.cons htold' hfits' (.nil _))
  rw [hsync, hreturned] at hfits
  rw [hremoval, hfailed] at hfits'
  obtain ⟨-, hnot⟩ | ⟨g, rfl, hg⟩ := hfits
  · cases hnot
  obtain ⟨-, -, hsendings, hown⟩ := htold'.leads
  obtain ⟨rfl, -⟩ | ⟨e, rfl, hdoing, hend⟩ := hfits'
  · rw [hsendings] at hsent
    exact absurd hsent (Nat.not_lt.2 (Nat.le_succ _))
  -- more was sent than one statement, so one of them went through
  have hbreaks : e.BreaksOff := by
    refine ⟨hdoing, hend, ?_⟩
    rw [hsendings, List.flatMap_singleton, List.length_append, List.length_reverse,
      List.length_map, Nat.add_comm] at hsent
    exact Nat.lt_of_add_lt_add_right hsent
  have hmem : e ∈ [e] := List.mem_singleton_self e
  have hgrants : ¬ e.Grants := fun h => (nomatch hdoing.symm.trans h.1)
  have hrevokes : ¬ e.Revokes := by
    rintro (⟨hsynchronizes, -⟩ | ⟨-, hends⟩)
    · cases hdoing.symm.trans hsynchronizes
    · cases hend.symm.trans hends
  refine ⟨?_, _, hhistory, [], g, [e], rfl, hg, fun e' he' => List.mem_singleton.1 he' ▸ hgrants,
    e, hmem, hbreaks.defines (htold'.removes e hmem) (hown e hmem)⟩
  have hready : (g.readyAfter s.1.isReady) = true := Occurrence.readyAfter_of_grants hg
  rw [hhistory.leads.1]
  exact (Occurrence.readyAfter_of_neither hgrants hrevokes).trans hready

/-- The store fails to drop the table. -/
def locked : Occasion := occasion .dropTable [none, some (.thrown .runtime "locked" .null)]

/-- The table and its view are created; then the view is dropped, but not the table. -/
def breakingOff : List Occasion := [occasion .synchronize [], locked]

/-- The model is ready, although the view was dropped after the only synchronization. -/
theorem defined_since_breakingOff :
    (Occasion.performAll breakingOff (users, {})).1.isReady = true ∧
    (Occasion.performAll breakingOff (users, {})).2.store.sent.reverse.map Call.statement =
      creations ++ ["DROP MATERIALIZED VIEW IF EXISTS \"by_name\";",
        "DROP TABLE IF EXISTS \"users\";"] ∧
    ∃ es, History (users, {}) breakingOff es (Occasion.performAll breakingOff (users, {})) ∧
      Since Occurrence.Defines es := by
  obtain ⟨hready, hhistory⟩ := @defined_since_of_failed (occasion .synchronize []) locked
    (users, {}) rfl rfl (by decide +kernel) (by decide +kernel) (by decide +kernel)
  exact ⟨hready, by decide +kernel, hhistory⟩

end Model

end WideColumn
