import WideColumn.Proofs.Invariant
import WideColumn.Proofs.Supply

/-!
# Synchronizing brings the store in line

When every question is approved and every statement succeeds, a synchronization leaves a table in
the store in which nothing differs from the declaration, so that the next one has nothing to do.
This is so whenever the table is created anew, and when it is altered exactly if no column that is
altered in place was to become static, or to be static no more: the statement that alters a type
leaves the mark as it is. The names of the declared views have to be written as they are in either
case.
-/

namespace WideColumn

/-- Nothing differs between the live table and the declared one. -/
def LiveTable.Settled (l : LiveTable) (t : Table) : Prop :=
  ∃ d, Describable.diff (.live l) (.declared t) = .ok d ∧ d.isEmpty = true

namespace Migration

open Draft ColumnDiff

variable {naming : String → String} {settings : Settings} {source : LiveSource} {t : Table}
  {s : Session} {live : Option LiveTable} {l : LiveTable}

/-! ## Runs that nothing hinders -/

/-- The live table is what is found, every question is approved and no statement fails. -/
structure Unhindered (settings : Settings) (source : LiveSource) (t : Table) (s : Session)
    (live : Option LiveTable) : Prop where
  found : (fetched settings source t s).1 = .ok live
  approves : Approves (approver settings) (fetched settings source t s).2.answers
  succeeds : ∀ f ∈ (fetched settings source t s).2.store.failures, f = none

/-- A run that nothing hinders makes every move of its plan, and ends as the plan does. -/
theorem Unhindered.deeds_eq (h : Unhindered settings source t s live) :
    syncDeeds settings source t s = (plan t settings.effectivePolicy live).moves.map done ∧
      syncOutcome settings source t s = (plan t settings.effectivePolicy live).outcome := by
  have hfetched : fetched settings source t s = (.ok live, (fetched settings source t s).2) :=
    Prod.ext h.found rfl
  have hdeeds := (syncDeeds_of_fetched hfetched).trans (deeds_all h.approves h.succeeds)
  refine ⟨hdeeds, ?_⟩
  rw [syncOutcome_of_fetched hfetched, hdeeds, stop_done]

/-- The synchronization comes to its end without a failure. -/
def Finishes (settings : Settings) (source : LiveSource) (t : Table) (s : Session) : Prop :=
  ∃ r s', (sync settings source t).perform s = (.ok r, s') ∧ r.2 = none ∧
    Recorded (approver settings) t.name (fetched settings source t s).2
      (syncDeeds settings source t s) s'

theorem Unhindered.finishes_iff (h : Unhindered settings source t s live) :
    Finishes settings source t s ↔
      ∃ state, (plan t settings.effectivePolicy live).outcome = .ok state := by
  obtain ⟨r, s', hs', hanswers, hrecorded⟩ := sync_spec settings source t s
  have hfailure := hanswers.failure
  rw [h.deeds_eq.2] at hfailure
  constructor
  · rintro ⟨r', s'', hs'', hnone, -⟩
    obtain ⟨hr, -⟩ := Prod.mk.inj (hs'.symm.trans hs'')
    rw [← Except.ok.inj hr, hfailure] at hnone
    cases houtcome : (plan t settings.effectivePolicy live).outcome with
    | ok state => exact ⟨state, rfl⟩
    | error f =>
      rw [houtcome] at hnone
      cases hnone
  · rintro ⟨state, houtcome⟩
    rw [houtcome] at hfailure
    exact ⟨r, s', hs', hfailure, hrecorded⟩

/-- The synchronization comes to its end without a failure, and nothing differs from the declaration
in the table that it leaves in the store. -/
def Settles (naming : String → String) (settings : Settings) (source : LiveSource) (t : Table)
    (s : Session) (live : Option LiveTable) : Prop :=
  ∃ r s' l, (sync settings source t).perform s = (.ok r, s') ∧ r.2 = none ∧
    Recorded (approver settings) t.name (fetched settings source t s).2
      (syncDeeds settings source t s) s' ∧
    (Simulated.afterDeeds naming ⟨live, [], []⟩ (syncDeeds settings source t s)).table? = some l ∧
    l.Settled t

/-- The store after all moves of a plan. -/
def planned (naming : String → String) (t : Table) (policy : Policy) (live : Option LiveTable) :
    Simulated :=
  (plan t policy live).moves.foldl (Simulated.watch naming).after ⟨live, [], []⟩

theorem Unhindered.afterDeeds_eq (h : Unhindered settings source t s live) :
    Simulated.afterDeeds naming ⟨live, [], []⟩ (syncDeeds settings source t s) =
      planned naming t settings.effectivePolicy live := by
  rw [Simulated.afterDeeds_eq, h.deeds_eq.1, foldl_done]
  rfl

/-- Whether a run that nothing hinders settles the table is a matter of its plan. -/
theorem Unhindered.settles_iff (h : Unhindered settings source t s live) :
    Settles naming settings source t s live ↔
      ∃ state l, (plan t settings.effectivePolicy live).outcome = .ok state ∧
        (planned naming t settings.effectivePolicy live).table? = some l ∧ l.Settled t := by
  constructor
  · rintro ⟨r, s', l, hs', hnone, hrecorded, htable, hsettled⟩
    obtain ⟨state, houtcome⟩ := h.finishes_iff.1 ⟨r, s', hs', hnone, hrecorded⟩
    exact ⟨state, l, houtcome, h.afterDeeds_eq ▸ htable, hsettled⟩
  · rintro ⟨state, l, houtcome, htable, hsettled⟩
    obtain ⟨r, s', hs', hnone, hrecorded⟩ := h.finishes_iff.2 ⟨state, houtcome⟩
    exact ⟨r, s', l, hs', hnone, hrecorded, h.afterDeeds_eq ▸ htable, hsettled⟩

/-- Where nothing differs, there is nothing to do. -/
theorem plan_settled (policy : Policy) (hsettled : l.Settled t) :
    plan t policy (some l) = ⟨[], .ok .noOp⟩ := by
  obtain ⟨d, hd, hempty⟩ := hsettled
  change Draft.bind (Draft.lift (Describable.diff (.live l) (.declared t))) _ = _
  simp only [hd, Draft.bind, Draft.lift, hempty, if_true]
  rfl

/-- Where nothing differs, the next synchronization asks and sends nothing. -/
theorem settled_noOp (hsettled : l.Settled t)
    (hfound : (fetched settings source t s).1 = .ok (some l)) :
    syncDeeds settings source t s = [] ∧
      ∃ r s', (sync settings source t).perform s = (.ok r, s') ∧ r.2 = none ∧ r.1.state = .noOp ∧
        r.1.steps = [] := by
  have hplan := plan_settled settings.effectivePolicy hsettled
  have hfetched : fetched settings source t s = (.ok (some l), (fetched settings source t s).2) :=
    Prod.ext hfound rfl
  have hdeeds : syncDeeds settings source t s = [] := by
    rw [syncDeeds_of_fetched hfetched, hplan]
    rfl
  have houtcome : syncOutcome settings source t s = .ok .noOp := by
    rw [syncOutcome_of_fetched hfetched, hdeeds, hplan]
    rfl
  obtain ⟨r, s', hs', hanswers, -⟩ := sync_spec settings source t s
  refine ⟨hdeeds, r, s', hs', ?_, hanswers.state _ houtcome, ?_⟩
  · rw [hanswers.failure, houtcome]
  · rw [hanswers.steps, hdeeds]
    rfl

/-! ## Views under their names -/

/-- The views of the store have identifiers for names after a plan when they had before. -/
theorem planned_namesViews (policy : Policy) (h : Simulated.NamesViews ⟨live, [], []⟩)
    {state : MigrationState} (houtcome : (plan t policy live).outcome = .ok state) :
    (planned naming t policy live).NamesViews := by
  have hkept := ((Simulated.follow_preserves naming t).plan policy live h).2 state houtcome
  have hsame : (Simulated.follow naming).after = (Simulated.watch naming).after := by
    funext s m
    cases m <;> rfl
  rw [hsame] at hkept
  exact hkept

theorem namesViews_of_live (h : ∀ l, live = some l → l.HasAcceptedNames) :
    Simulated.NamesViews ⟨live, [], []⟩ :=
  fun l hl view hview => ((h l hl).views view hview).1

/-- When nothing differs and the views there are have identifiers for names, the declared views have
names that are written as they are. -/
theorem plainViews_of_settled (hsettled : l.Settled t)
    (hviews : ∀ view ∈ Keyed.names l.views, Name.IsIdentifier view) : t.HasPlainViews := by
  obtain ⟨d, hd, hempty⟩ := hsettled
  obtain ⟨targets, declared, -, -, rfl⟩ := Describable.diff_ok hd
  obtain ⟨-, -, -, -, -, -, hadded, -⟩ := SchemaDiff.isEmpty_iff.1 hempty
  intro e he
  obtain ⟨v, hv, -⟩ := addedViews_eq_nil.1 hadded e he
  exact (hviews e.1 (Keyed.mem_names_of_mem (Keyed.mem_of_get? hv))).isPlain

/-! ## Tables that are altered -/

/-- The plan of a live table that differs is to drop it or to alter it. -/
theorem plan_differs {d : SchemaDiff} (hd : Describable.diff (.live l) (.declared t) = .ok d)
    (hdiffers : d.isEmpty = false) : plan t .drop (some l) = recreateAsking t l ∧
      plan t .alter (some l) = if d.keyChanged then recreateAsking t l else alter t l d := by
  constructor <;>
  · change Draft.bind (Draft.lift (Describable.diff (.live l) (.declared t))) _ = _
    simp only [hd, Draft.bind, Draft.lift, hdiffers]
    rfl

theorem keyChanged_of_hasKeyOf (h : l.HasKeyOf t) {d : SchemaDiff}
    (hd : Describable.diff (.live l) (.declared t) = .ok d) : d.keyChanged = false := by
  obtain ⟨targets, declared, -, -, rfl⟩ := Describable.diff_ok hd
  simp [SchemaDiff.between, sameKey_canonicalWith h]

/-- A table that was created is settled. -/
theorem created_settled (hprepared : Prepared t) (hbrackets : t.WritesBrackets)
    (hplain : t.HasPlainViews) : (t.created naming).Settled t := by
  obtain ⟨hindexed, hcolumns, hviews⟩ : (t.created naming).IsIndexedAs t ∧ _ ∧ _ :=
    Table.created_agrees hprepared hbrackets hplain
  obtain ⟨d, hd, hempty⟩ := diff_isEmpty hprepared hindexed
  exact ⟨d, hd, hempty.2 ⟨hcolumns, hviews⟩⟩

/-- After altering, the table is settled when it was created anew, and otherwise exactly when every
column that was altered in place keeps the mark that is declared. -/
theorem alter_settled_iff (naming : String → String) {d : SchemaDiff} {state : MigrationState}
    (hprepared : Prepared t) (hbrackets : t.WritesBrackets) (hplain : t.HasPlainViews)
      (hcanonical : l.Canonical)
    (hnames : l.HasAcceptedNames) (hkey : l.HasKeyOf t)
    (hd : Describable.diff (.live l) (.declared t) = .ok d)
    (houtcome : (alter t l d).outcome = .ok state) :
    ∃ l', ((alter t l d).moves.foldl (Simulated.watch naming).after ⟨l, [], []⟩).table? = some l' ∧
      (l'.Settled t ↔ (∃ e ∈ d.columns, e.Recreates t) ∨ ∀ e ∈ d.columns, e.KeepsMark) := by
  have hpending := pending_of_diff hprepared.wellFormed hcanonical hd
  have hkeeps : Keeps (Simulated.watch naming) ⟨l, [], []⟩ (alter t l d) _ :=
    keeps_alter (Marked d.columns) hprepared hcanonical hnames.keepsSpelling (marked_self hpending)
      (tracks_marked hprepared hbrackets hpending) hd (keyChanged_of_hasKeyOf hkey hd)
  have hrecreates := alter_outcome houtcome
  rcases hkeeps.2 state houtcome with
    ⟨hstate, htable⟩ | ⟨hstate, l₁, s₁, d₁, columns, haltered, hd₁, halike, htable⟩
  · refine ⟨_, htable, fun _ => .inl (hrecreates.1 hstate), fun _ => ?_⟩
    exact created_settled hprepared hbrackets hplain
  · refine ⟨_, htable, ?_⟩
    obtain ⟨hindexed, hviews, hcolumns⟩ :
        (LiveTable.reconciled naming t d₁ { l₁ with columns }).IsIndexedAs t ∧ _ ∧ _ :=
      haltered.reconciled_agrees hprepared hcanonical hkey hplain hd₁ halike
    obtain ⟨d₂, hd₂, hempty⟩ := diff_isEmpty hprepared hindexed
    have hmarks := hasColumnsOf_iff hprepared hbrackets hpending haltered.pending halike
    have hnot : ¬ ∃ e ∈ d.columns, e.Recreates t := by
      rw [← hrecreates, hstate]
      exact fun h => nomatch h
    have hsettled : (LiveTable.reconciled naming t d₁ { l₁ with columns }).Settled t ↔
        (LiveTable.reconciled naming t d₁ { l₁ with columns }).HasColumnsOf t := by
      constructor
      · rintro ⟨d₃, hd₃, hempty₃⟩
        rw [hd₂] at hd₃
        exact (hempty.1 (Except.ok.inj hd₃ ▸ hempty₃)).1
      · exact fun h => ⟨d₂, hd₂, hempty.2 ⟨h, hviews⟩⟩
    rw [hsettled, LiveTable.HasColumnsOf, hcolumns, hmarks]
    exact ⟨.inr, fun h => h.resolve_left hnot⟩

/-- Altering settles a table only when the names of its views are written as they are and columns
keep their marks, and whenever they do if everything that is declared can be created. -/
theorem plan_alter_settles (naming : String → String) {d : SchemaDiff}
    (hdescribed : t.Described) (hcanonical : l.Canonical)
    (hnames : l.HasAcceptedNames) (hkey : l.HasKeyOf t)
    (hd : Describable.diff (.live l) (.declared t) = .ok d) :
    ((∃ state l', (plan t .alter (some l)).outcome = .ok state ∧
        (planned naming t .alter (some l)).table? = some l' ∧ l'.Settled t) →
      t.HasPlainViews ∧ ((∃ e ∈ d.columns, e.Recreates t) ∨ ∀ e ∈ d.columns, e.KeepsMark)) ∧
    (t.Creatable → t.HasPlainViews →
      ((∃ e ∈ d.columns, e.Recreates t) ∨ ∀ e ∈ d.columns, e.KeepsMark) →
      ∃ state l', (plan t .alter (some l)).outcome = .ok state ∧
        (planned naming t .alter (some l)).table? = some l' ∧ l'.Settled t) := by
  have hwell := hdescribed.wellFormed
  have hidentifiers := hdescribed.identifiers
  have hbrackets := hdescribed.brackets
  have hnamed : Simulated.NamesViews ⟨some l, [], []⟩ :=
    namesViews_of_live fun _ hl => Option.some.inj hl ▸ hnames
  by_cases hempty : d.isEmpty = true
  · have hsettled : l.Settled t := ⟨d, hd, hempty⟩
    have hnone : d.columns = [] := (SchemaDiff.isEmpty_iff.1 hempty).1
    have hplan := plan_settled .alter hsettled
    refine ⟨fun _ => ⟨?_, .inr fun e he => ?_⟩, fun _ _ _ => ⟨.noOp, l, ?_⟩⟩
    · exact plainViews_of_settled hsettled fun view hview => (hnames.views view hview).1
    · rw [hnone] at he
      exact nomatch he
    · unfold planned
      rw [hplan]
      exact ⟨rfl, rfl, hsettled⟩
  -- from here on something differs, and the key does not, so the table is altered
  have hkept := keyChanged_of_hasKeyOf hkey hd
  have hplan : plan t .alter (some l) = alter t l d := by
    rw [(plan_differs hd (Bool.eq_false_iff.2 hempty)).2, hkept]
    rfl
  constructor
  · rintro ⟨state, l', houtcome, htable, hsettled⟩
    have hplain := plainViews_of_settled hsettled
      (planned_namesViews .alter hnamed houtcome l' htable)
    unfold planned at htable
    rw [hplan] at houtcome htable
    obtain ⟨l'', htable', hiff⟩ := alter_settled_iff naming
      ⟨hwell, hidentifiers, hplain.apart hwell⟩ hbrackets hplain hcanonical hnames hkey hd houtcome
    rw [htable] at htable'
    exact ⟨hplain, hiff.1 (Option.some.inj htable' ▸ hsettled)⟩
  · intro hcreatable hplain hmarks
    have hprepared : Prepared t := ⟨hwell, hidentifiers, hplain.apart hwell⟩
    obtain ⟨state, houtcome⟩ := ends_alter hdescribed hcreatable hcanonical hnames hd
    obtain ⟨l', htable, hiff⟩ := alter_settled_iff naming hprepared hbrackets hplain
      hcanonical hnames hkey hd houtcome
    unfold planned
    rw [hplan]
    exact ⟨state, l', houtcome, htable, hiff.2 hmarks⟩

/-- A canonical live table and a declared one have a difference. -/
theorem diff_of_canonical (hwell : t.WellFormed) (hcanonical : l.Canonical) :
    ∃ d, Describable.diff (.live l) (.declared t) = .ok d := by
  obtain ⟨targets, htargets⟩ := TableShape.canonicalTargets_ok fun text htext =>
    (hcanonical.targets text htext).imp fun _ htarget => htarget.1
  obtain ⟨declared, hdeclared⟩ := TableShape.canonicalTargets_ok fun text htext =>
    (hwell.indexes text htext).imp fun _ htarget => htarget.1
  exact ⟨_, Describable.diff_eq htargets hdeclared⟩

/-- A synchronization that alters a table settles it only when its views have names that are written
as they are and, unless the table is created anew, no column that is altered in place is declared
static where it is not, or not where it is; and whenever this is so, if everything that is declared
can be created. What is settled stays as it is in the next synchronization. -/
theorem sync_alter_settles (naming : String → String) {settings : Settings} {source : LiveSource}
    {t : Table} {s : Session} {live : LiveTable} (hregistered : t.Registered)
    (hidentifiers : ∀ column, t.IsStored column → Name.IsIdentifier column)
    (hshort : t.HasShortViews) (hbrackets : t.WritesBrackets) (hcanonical : live.Canonical)
    (hnames : live.HasAcceptedNames) (hkey : live.HasKeyOf t)
    (hpolicy : settings.effectivePolicy = .alter)
    (hrun : Unhindered settings source t s (some live)) :
    (∃ d, Describable.diff (.live live) (.declared t) = .ok d ∧
      (Settles naming settings source t s (some live) → t.HasPlainViews ∧
        ((∃ e ∈ d.columns, e.Recreates t) ∨ ∀ e ∈ d.columns, e.KeepsMark)) ∧
      (t.Creatable → t.HasPlainViews →
        ((∃ e ∈ d.columns, e.Recreates t) ∨ ∀ e ∈ d.columns, e.KeepsMark) →
        Settles naming settings source t s (some live))) ∧
    ∀ l, l.Settled t → ∀ settings source s, (fetched settings source t s).1 = .ok (some l) →
      syncDeeds settings source t s = [] ∧
      ∃ r s', (sync settings source t).perform s = (.ok r, s') ∧ r.2 = none ∧ r.1.state = .noOp ∧
        r.1.steps = [] := by
  refine ⟨?_, fun l hl settings source s hfound => settled_noOp hl hfound⟩
  obtain ⟨d, hd⟩ := diff_of_canonical hregistered.wellFormed hcanonical
  obtain ⟨honly, hwhenever⟩ := plan_alter_settles naming
    ⟨hregistered.wellFormed, hidentifiers, hbrackets, hshort⟩ hcanonical hnames hkey hd
  refine ⟨d, hd, fun hsettles => ?_, fun hcreatable hplain hmarks => ?_⟩
  · rw [hrun.settles_iff, hpolicy] at hsettles
    exact honly hsettles
  · rw [hrun.settles_iff, hpolicy]
    exact hwhenever hcreatable hplain hmarks

/-! ### A column that is removed -/

/-- The columns of `viewed` are identifiers. -/
theorem viewed_identifiers : ∀ column, viewed.IsStored column → Name.IsIdentifier column := by
  have hidentifiers : ∀ f ∈ viewed.storedFields, Name.IsIdentifier f.name := by decide
  rintro column ⟨f, hf, rfl⟩
  exact hidentifiers f hf

theorem viewed_brackets : viewed.WritesBrackets := by
  have hnone : ∀ f ∈ viewed.fields, f.argument = none := by decide
  intro f hf a ha
  rw [hnone f hf] at ha
  cases ha

theorem usersWithAge_names : usersWithAge.HasAcceptedNames := by
  refine ⟨by decide, by decide, fun name h => ?_⟩
  cases List.mem_singleton.1 h
  decide

/-- An age with an index and a view over it is removed, and nothing differs afterwards. -/
theorem settles_usersWithAge :
    Settles id altering (.given (.ok (some usersWithAge))) viewed {} (some usersWithAge) := by
  have hregistered : viewed.Registered :=
    .inl ⟨.text "users", viewedDefinition, by with_unfolding_all rfl⟩
  have hrun : Unhindered altering (.given (.ok (some usersWithAge))) viewed {}
      (some usersWithAge) := ⟨rfl, .inr fun _ h => (nomatch h), fun _ h => (nomatch h)⟩
  have hkey : usersWithAge.HasKeyOf viewed := ⟨rfl, rfl, by decide⟩
  have hpolicy : altering.effectivePolicy = .alter := rfl
  obtain ⟨d, hd, hsettled⟩ := (sync_alter_settles id hregistered viewed_identifiers (by decide)
    viewed_brackets usersWithAge_canonical.1 usersWithAge_names hkey hpolicy hrun).1
  have hcolumns : (Describable.diff (.live usersWithAge) (.declared viewed)).map
      SchemaDiff.columns = .ok [.removed "age" { type := "int" }] := by with_unfolding_all rfl
  rw [hd] at hcolumns
  refine hsettled.2 ⟨by decide, by decide, fun e he => ?_⟩ (by decide) (.inr fun e he => ?_)
  · exact nomatch he
  · rw [Except.ok.inj hcolumns] at he
    cases List.mem_singleton.1 he
    trivial

/-! ### A column that is to become static -/

/-- Readings with a static payload, as a definition. -/
def staticPayloadDefinition : Value := .map [
  (.text "fields", .map [(.text "id", .text "uuid"), (.text "at", .text "int"),
    (.text "payload", .map [(.text "type", .text "blob"), (.text "static", .bool true)])]),
  (.text "key", .list [.text "id", .text "at"])]

/-- The table that `staticPayloadDefinition` declares. -/
def staticPayload : Table where
  name := "readings"
  fields := [{ name := "id", type := "uuid" }, { name := "at", type := "int" },
    { name := "payload", type := "blob", isStatic := true }]
  partitionKey := ["id"]
  clusteringKey := ["at"]
  clusteringOrder := []
  indexes := []
  customIndexes := []
  views := []
  defaultTtl := none
  hooks := []

/-- A live table of readings whose payload is a number, and not static. -/
def plainPayload : LiveTable where
  table := "readings"
  columns := [("id", { type := "uuid" }), ("at", { type := "int" }), ("payload", { type := "int" })]
  partitionKey := ["id"]
  clusteringKey := ["at"]
  clusteringOrder := [("at", "ASC")]

/-- The payload gets its type and does not become static, so that the table still differs. -/
theorem not_settles_staticPayload :
    Table.ofDefinition (.text "readings") staticPayloadDefinition = .ok staticPayload ∧
    (∀ column, staticPayload.IsStored column → Name.IsIdentifier column) ∧
    staticPayload.HasShortViews ∧ staticPayload.WritesBrackets ∧ staticPayload.Creatable ∧
    staticPayload.HasPlainViews ∧ plainPayload.Canonical ∧ plainPayload.HasAcceptedNames ∧
    plainPayload.HasKeyOf staticPayload ∧
    Unhindered altering (.given (.ok (some plainPayload))) staticPayload {} (some plainPayload) ∧
    ¬ Settles id altering (.given (.ok (some plainPayload))) staticPayload {}
      (some plainPayload) := by
  have hrun : Unhindered altering (.given (.ok (some plainPayload))) staticPayload {}
      (some plainPayload) := ⟨rfl, .inr fun _ h => (nomatch h), fun _ h => (nomatch h)⟩
  refine ⟨by with_unfolding_all rfl, ?_, by decide, ?_,
    ⟨by decide, by decide, fun _ h => (nomatch h)⟩, by decide,
    ⟨by decide, by with_unfolding_all decide, fun _ h => (nomatch h), fun _ h => (nomatch h),
      by decide, by decide, by decide⟩,
    ⟨by decide, by decide, fun _ h => (nomatch h)⟩, ⟨rfl, rfl, by decide⟩, hrun, fun h => ?_⟩
  · have hidentifiers : ∀ f ∈ staticPayload.storedFields, Name.IsIdentifier f.name := by decide
    rintro column ⟨f, hf, rfl⟩
    exact hidentifiers f hf
  · have hnone : ∀ f ∈ staticPayload.fields, f.argument = none := by decide
    intro f hf a ha
    rw [hnone f hf] at ha
    cases ha
  · obtain ⟨_, l, -, htable, d, hd, hempty⟩ := hrun.settles_iff.1 h
    have hleft : (planned id staticPayload .alter (some plainPayload)).table? =
        some { plainPayload with
        columns := [("id", { type := "uuid" }), ("at", { type := "int" }),
          ("payload", { type := "blob" })] } := by with_unfolding_all rfl
    cases hleft.symm.trans htable
    have hdiffers : (Describable.diff (.live { plainPayload with
        columns := [("id", { type := "uuid" }), ("at", { type := "int" }),
          ("payload", { type := "blob" })] }) (.declared staticPayload)).map SchemaDiff.isEmpty =
        .ok false := by with_unfolding_all rfl
    rw [hd] at hdiffers
    exact absurd hempty (Bool.eq_false_iff.1 (Except.ok.inj hdiffers))

/-! ## Tables that are created anew -/

/-- The plan creates the table anew: there is none, or it differs and the policy is to drop it, or
to alter it when its key has changed or a key column cannot be altered in place. -/
def CreatesAnew (t : Table) (policy : Policy) : Option LiveTable → Prop
  | none => True
  | some l => ∃ d, Describable.diff (.live l) (.declared t) = .ok d ∧ d.isEmpty = false ∧
      (policy = .drop ∨
        policy = .alter ∧ (d.keyChanged = true ∨ ∃ e ∈ d.columns, e.Recreates t))

theorem createAll_of_recreate (h : (recreate t l).outcome = .ok ()) :
    (createAll t).outcome = .ok () := by
  obtain ⟨_, -, h, -⟩ := bind_ok h
  obtain ⟨_, -, h, -⟩ := bind_ok h
  exact h

/-- Differences of which one creates the table anew create everything. -/
theorem createAll_of_applyDiffs : ∀ {ds : List ColumnDiff} {l : LiveTable},
    (applyDiffs t l ds).outcome = .ok none → (createAll t).outcome = .ok ()
  | [], _, h => nomatch h
  | e :: ds, l, h => by
    obtain ⟨l?, hfirst, hrest, -⟩ := bind_ok h
    cases l? with
    | some l' => exact createAll_of_applyDiffs hrest
    | none =>
      have hrecreates := (applyDiff_outcome hfirst).1 rfl
      cases e with
      | added name new => exact hrecreates.elim
      | removed name old => exact hrecreates.elim
      | changed name aspect old new =>
        simp only [applyDiff, if_neg hrecreates.1, if_pos hrecreates.2] at hfirst
        obtain ⟨_, -, hfirst, -⟩ := bind_ok hfirst
        obtain ⟨_, hrecreated, -, -⟩ := bind_ok hfirst
        exact createAll_of_recreate hrecreated

/-- A live table is created anew at once, or while its columns are altered. -/
theorem plan_anew {policy : Policy} (h : CreatesAnew t policy (some l)) :
    plan t policy (some l) = recreateAsking t l ∨
    ∃ d, Describable.diff (.live l) (.declared t) = .ok d ∧ d.keyChanged = false ∧
      (∃ e ∈ d.columns, e.Recreates t) ∧ plan t policy (some l) = alter t l d := by
  obtain ⟨d, hd, hdiffers, hhow⟩ := h
  obtain ⟨hdrop, halter⟩ := plan_differs hd hdiffers
  rcases hhow with rfl | ⟨rfl, hhow⟩
  · exact .inl hdrop
  by_cases hkey : d.keyChanged = true
  · exact .inl (halter.trans (if_pos hkey))
  · exact .inr ⟨d, hd, Bool.eq_false_iff.2 hkey, hhow.resolve_left hkey, halter.trans (if_neg hkey)⟩

/-- A plan that creates the table anew creates everything that is declared. -/
theorem createAll_of_anew {policy : Policy} {state : MigrationState}
    (hanew : CreatesAnew t policy live) (h : (plan t policy live).outcome = .ok state) :
    (createAll t).outcome = .ok () := by
  cases live with
  | none =>
    obtain ⟨_, hcreated, -, -⟩ := bind_ok h
    exact hcreated
  | some l =>
    rcases plan_anew hanew with hplan | ⟨d, hd, hkey, hrecreates, hplan⟩
    · rw [hplan] at h
      obtain ⟨_, -, h, -⟩ := bind_ok h
      obtain ⟨_, hrecreated, -, -⟩ := bind_ok h
      exact createAll_of_recreate hrecreated
    · rw [hplan] at h
      have hstate := (alter_outcome h).2 hrecreates
      obtain ⟨l?, hfirst, hrest, -⟩ := bind_ok h
      cases l? with
      | none => exact createAll_of_applyDiffs hfirst
      | some l' =>
        obtain ⟨_, -, hrest, -⟩ := bind_ok hrest
        cases hrest
        cases hstate

/-- A plan that creates the table anew comes to its end when everything that is declared can be
created, and the store holds the declared table then. -/
theorem planned_anew {policy : Policy} (hdescribed : t.Described) (hprepared : Prepared t)
    (hcreatable : t.Creatable) (hlive : ∀ l, live = some l → l.Canonical ∧ l.HasAcceptedNames)
    (hanew : CreatesAnew t policy live) :
    (∃ state, (plan t policy live).outcome = .ok state) ∧
      (planned naming t policy live).table? = some (t.created naming) := by
  obtain ⟨hwell, hidentifiers, hapart⟩ := hprepared
  suffices (∃ state, (plan t policy live).outcome = .ok state) ∧
      ∀ state, (plan t policy live).outcome = .ok state →
        (planned naming t policy live).table? = some (t.created naming) by
    obtain ⟨⟨state, houtcome⟩, htable⟩ := this
    exact ⟨⟨state, houtcome⟩, htable state houtcome⟩
  cases live with
  | none =>
    have hends : Ends (plan t policy none) fun _ => True :=
      Ends.bind ⟨(), (createAll_ok_iff_creatable hdescribed).2 hcreatable, Ends.pure trivial⟩
    have hkeeps : Keeps (Simulated.watch naming) ⟨none, [], []⟩ (plan t policy none)
        fun _ s => s.table? = some (t.created naming) :=
      Keeps.bind ((creates_all rfl hwell hidentifiers hapart).mono fun _ _ h => Keeps.pure h)
    obtain ⟨state, houtcome, -⟩ := hends
    exact ⟨⟨state, houtcome⟩, hkeeps.2⟩
  | some l =>
    obtain ⟨hcanonical, hnames⟩ := hlive l rfl
    unfold planned
    -- the table is recreated at once, or on the way through the differences
    rcases plan_anew hanew with hplan | ⟨d, hd, hkey, hrecreates, hplan⟩
    · rw [hplan]
      have hmirrors : Mirrors (fun _ _ _ => True) l ⟨l, [], []⟩ :=
        .of_live hcanonical hnames.keepsSpelling fun _ _ => trivial
      have hkeeps : Keeps (Simulated.watch naming) ⟨l, [], []⟩ (recreateAsking t l)
          fun _ s => s.table? = some (t.created naming) :=
        Keeps.bind (Keeps.ask trivial (Keeps.bind ((hmirrors.keeps_recreate hwell hidentifiers
          hapart).mono fun _ _ h => Keeps.pure h)))
      exact ⟨⟨.recreated, ends_recreateAsking hdescribed (hnames.droppable hcanonical) hcreatable⟩,
        hkeeps.2⟩
    · rw [hplan]
      refine ⟨ends_alter hdescribed hcreatable hcanonical hnames hd, fun state houtcome => ?_⟩
      have hkeeps : Keeps (Simulated.watch naming) ⟨l, [], []⟩ (alter t l d) _ :=
        keeps_alter (fun _ _ _ => True) ⟨hwell, hidentifiers, hapart⟩ hcanonical
          hnames.keepsSpelling (fun _ _ => trivial) (fun e _ => tracks_trivial e) hd hkey
      rcases hkeeps.2 state houtcome with ⟨-, htable⟩ | ⟨hstate, -⟩
      · exact htable
      · rw [(alter_outcome houtcome).2 hrecreates] at hstate
        cases hstate

/-- A synchronization that creates the table anew settles it exactly when everything that is
declared can be created and the names of the views are written as they are; the store then holds
what is declared: the columns with their types and marks, the key and its order, the indexes, the
custom indexes and the views, and no others. -/
theorem sync_anew_settles (naming : String → String) {settings : Settings} {source : LiveSource}
    {t : Table} {s : Session} {live : Option LiveTable} (hregistered : t.Registered)
    (hidentifiers : ∀ column, t.IsStored column → Name.IsIdentifier column)
    (hshort : t.HasShortViews) (hbrackets : t.WritesBrackets)
    (hlive : ∀ l, live = some l → l.Canonical ∧ l.HasAcceptedNames)
    (hanew : CreatesAnew t settings.effectivePolicy live)
    (hrun : Unhindered settings source t s live) :
    (Settles naming settings source t s live ↔ t.Creatable ∧ t.HasPlainViews) ∧
    (Settles naming settings source t s live → ∃ l,
      (Simulated.afterDeeds naming ⟨live, [], []⟩ (syncDeeds settings source t s)).table? = some l ∧
      l.IsIndexedAs t ∧ l.HasColumnsOf t ∧ l.HasViewsOf t) := by
  have hwell := hregistered.wellFormed
  have hdescribed : t.Described := ⟨hwell, hidentifiers, hbrackets, hshort⟩
  have honly : Settles naming settings source t s live → t.Creatable ∧ t.HasPlainViews := by
    rw [hrun.settles_iff]
    rintro ⟨state, l, houtcome, htable, hsettled⟩
    refine ⟨(createAll_ok_iff_creatable hdescribed).1 (createAll_of_anew hanew houtcome), ?_⟩
    exact plainViews_of_settled hsettled (planned_namesViews settings.effectivePolicy
      (namesViews_of_live fun l hl => (hlive l hl).2) houtcome l htable)
  have hplanned : t.Creatable → t.HasPlainViews →
      (∃ state, (plan t settings.effectivePolicy live).outcome = .ok state) ∧
        (planned naming t settings.effectivePolicy live).table? = some (t.created naming) :=
    fun hcreatable hplain =>
      planned_anew hdescribed ⟨hwell, hidentifiers, hplain.apart hwell⟩ hcreatable hlive hanew
  refine ⟨⟨honly, fun ⟨hcreatable, hplain⟩ => ?_⟩, fun hsettles => ?_⟩
  · obtain ⟨⟨state, houtcome⟩, htable⟩ := hplanned hcreatable hplain
    exact hrun.settles_iff.2 ⟨state, _, houtcome, htable,
      created_settled ⟨hwell, hidentifiers, hplain.apart hwell⟩ hbrackets hplain⟩
  · obtain ⟨hcreatable, hplain⟩ := honly hsettles
    rw [hrun.afterDeeds_eq]
    exact ⟨_, (hplanned hcreatable hplain).2,
      Table.created_agrees ⟨hwell, hidentifiers, hplain.apart hwell⟩ hbrackets hplain⟩

/-! ### A table that is dropped -/

/-- Differences are resolved by dropping the table. -/
def dropping : Settings := { migration := { policy := .drop } }

/-- A table that has a column too many is dropped, and what is declared is created. -/
theorem settles_dropped :
    CreatesAnew viewed dropping.effectivePolicy (some usersWithAge) ∧
    Settles id dropping (.given (.ok (some usersWithAge))) viewed {} (some usersWithAge) := by
  have hregistered : viewed.Registered :=
    .inl ⟨.text "users", viewedDefinition, by with_unfolding_all rfl⟩
  have hanew : CreatesAnew viewed dropping.effectivePolicy (some usersWithAge) :=
    ⟨_, by with_unfolding_all rfl, by with_unfolding_all rfl, .inl rfl⟩
  have hrun : Unhindered dropping (.given (.ok (some usersWithAge))) viewed {}
      (some usersWithAge) := ⟨rfl, .inr fun _ h => (nomatch h), fun _ h => (nomatch h)⟩
  refine ⟨hanew, (sync_anew_settles id hregistered viewed_identifiers (by decide) viewed_brackets
    (fun l hl => ?_) hanew hrun).1.2 ⟨⟨by decide, by decide, fun _ h => (nomatch h)⟩, by decide⟩⟩
  cases hl
  exact ⟨usersWithAge_canonical.1, usersWithAge_names⟩

/-! ### A view whose name ends in a line end -/

/-- Users with a view whose name ends in a line end, as a definition. -/
def lineEndViewDefinition : Value := .map [
  (.text "fields", .map [(.text "id", .text "uuid"), (.text "name", .text "text")]),
  (.text "key", .list [.text "id"]),
  (.text "materialized_views", .map [
    (.text "v\n", .map [(.text "key", .list [.text "name", .text "id"])])])]

/-- The table that `lineEndViewDefinition` declares. -/
def lineEndView : Table where
  name := "users"
  fields := [{ name := "id", type := "uuid" }, { name := "name", type := "text" }]
  partitionKey := ["id"]
  clusteringKey := []
  clusteringOrder := []
  indexes := []
  customIndexes := []
  views := [("v\n", usersByName)]
  defaultTtl := none
  hooks := []

/-- The view is created under its name without the line end, so that the table that was just created
differs. -/
theorem not_settles_lineEndView :
    Table.ofDefinition (.text "users") lineEndViewDefinition = .ok lineEndView ∧
    (∀ column, lineEndView.IsStored column → Name.IsIdentifier column) ∧
    lineEndView.HasShortViews ∧ lineEndView.WritesBrackets ∧ lineEndView.Creatable ∧
    Unhindered {} (.given (.ok none)) lineEndView {} none ∧
    ¬ Settles id {} (.given (.ok none)) lineEndView {} none := by
  have hrun : Unhindered {} (.given (.ok none)) lineEndView {} none :=
    ⟨rfl, .inr fun _ h => (nomatch h), fun _ h => (nomatch h)⟩
  refine ⟨by with_unfolding_all rfl, viewed_identifiers, by decide, viewed_brackets,
    ⟨by decide, by decide, fun _ h => (nomatch h)⟩, hrun, fun h => ?_⟩
  obtain ⟨state, l, houtcome, htable, hsettled⟩ := hrun.settles_iff.1 h
  have hnamed : Simulated.NamesViews ⟨none, [], []⟩ := fun _ hl => nomatch hl
  have hplain := plainViews_of_settled hsettled (planned_namesViews _ hnamed houtcome l htable)
  exact absurd (hplain ("v\n", usersByName) List.mem_cons_self) (by decide)

end Migration

end WideColumn
