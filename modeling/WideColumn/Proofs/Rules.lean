import WideColumn.Proofs.Reading
import WideColumn.Proofs.Verdict

/-!
# The validators that a rule declares

The rule of a field is one validator, alone or in a map with the wording of the complaint, or a map
with a list of such entries. What it declares (`Rule.Declares`) is what the chain of the field has
after the check of the type, in the same order; flags add nothing.

The checks of a chain are run one after another. A check is reached (`Reaches`) when the value passes
all before it, and the run ends with the first one that does not answer that the value passes
(`StopsAt`). So a validator is reached by values of the right type only
(`FieldValidator.validate_declared`).
-/

namespace WideColumn

/-! ## What a rule declares -/

/-- The wording that stands beside a validator; null when there is none. -/
def Complaint.ofPart : Value → Complaint
  | .null => standard
  | .text s => fixed s
  | producer => made producer

namespace Rule

open Definition (part)

/-- An entry declares one validator: it is the validator, or a map with the validator and the
wording of the complaint. -/
inductive DeclaresOne : Value → Check × Complaint → Prop
  | alone {f} (hcall : f.isCallable = true) : DeclaresOne f (.validator f, .standard)
  | worded {es f} (hf : Value.get? es "validator" = some f) (hcall : f.isCallable = true) :
      DeclaresOne (.map es) (.validator f, .ofPart (part es "message"))

/-- A rule declares validators in an order. A map declares those of its list if it has one. -/
inductive Declares : Value → List (Check × Complaint) → Prop
  | null : Declares .null []
  | one {rule d} (h : DeclaresOne rule d)
      (hone : ∀ es, rule = .map es → Value.get? es "validators" = none) : Declares rule [d]
  | listed {es entries xs ds} (hentries : Value.get? es "validators" = some entries)
      (hxs : entries.sequence? = some xs) (h : List.Forall₂ DeclaresOne xs ds) :
      Declares (.map es) ds
  | flags {es} (hlist : Value.get? es "validators" = none)
      (hone : Value.get? es "validator" = none) : Declares (.map es) []

end Rule

namespace Definition

open Rule FieldValidator

variable {field entry rule : Value} {es : List (Value × Value)} {r : Rule} {rules : List Rule}

/-- What can be called stands under its key. -/
theorem get?_of_callable {key : String} (h : (part es key).isCallable = true) :
    Value.get? es key = some (part es key) := by
  unfold part at *
  cases hget : Value.get? es key with
  | none =>
    rw [hget] at h
    cases h
  | some v => rfl

theorem parseValidator_map_ok (h : parseValidator field (.map es) = .ok r) :
    (part es "validator").isCallable = true ∧
      ruleCheck? r = some (.validator (part es "validator"), .ofPart (part es "message")) := by
  unfold parseValidator at h
  dsimp only at h
  split at h
  · cases h
  · rename_i hcall
    refine ⟨by simpa using hcall, ?_⟩
    cases hmessage : part es "message" <;> rw [hmessage] at h <;>
      first
      | cases h; rfl
      | dsimp only at h; split at h <;> cases h; rfl

/-- A validator that stands alone is read like one in a map. -/
theorem parseValidator_alone (hentry : ∀ es, entry ≠ .map es) :
    parseValidator field entry = parseValidator field (.map [(.text "validator", entry)]) := by
  cases entry with
  | map es => exact absurd rfl (hentry es)
  | _ => rfl

theorem part_cons_self (key : String) (v : Value) : part ((.text key, v) :: es) key = v := by
  rw [part, Value.get?_text_cons, if_pos rfl]
  rfl

theorem part_cons_of_ne {k key : String} (v : Value) (hne : k ≠ key) :
    part ((.text k, v) :: es) key = part es key := by
  rw [part, Value.get?_text_cons, if_neg hne]
  rfl

/-- An entry that is read declares the check that it adds to the chain. -/
theorem parseValidator_ok (h : parseValidator field entry = .ok r) :
    ∃ d, DeclaresOne entry d ∧ ruleCheck? r = some d := by
  by_cases hentry : ∃ es, entry = .map es
  · obtain ⟨es, rfl⟩ := hentry
    obtain ⟨hcall, hr⟩ := parseValidator_map_ok h
    exact ⟨_, .worded (get?_of_callable hcall) hcall, hr⟩
  · rw [parseValidator_alone fun es hes => hentry ⟨es, hes⟩] at h
    obtain ⟨hcall, hr⟩ := parseValidator_map_ok h
    rw [part_cons_self] at hcall hr
    rw [part_cons_of_ne _ (by decide)] at hr
    exact ⟨_, .alone hcall, hr⟩

/-- Entries that are read declare the checks that they add to the chain. -/
theorem parseValidators_ok {entries : List Value}
    (h : entries.mapM (parseValidator field) = .ok rules) :
    List.Forall₂ DeclaresOne entries (rules.filterMap ruleCheck?) := by
  have hrules := forall₂_of_mapM h
  clear h
  induction hrules with
  | nil => exact .nil
  | cons hr _ ih =>
    obtain ⟨d, hd, hadds⟩ := parseValidator_ok hr
    rw [List.filterMap_cons_some hadds]
    exact .cons hd ih

/-- A map with one validator declares what its only entry does. -/
theorem declaresOne_only {f : Value} {d : Check × Complaint}
    (hone : Value.get? es "validator" = some f) (h : DeclaresOne
      (.map [(.text "validator", f), (.text "message", part es "message")]) d) :
    DeclaresOne (.map es) d := by
  cases h with
  | alone hcall => cases hcall
  | worded hf hcall =>
    rw [Value.get?_text_cons, if_pos rfl] at hf
    cases hf
    rw [part_cons_of_ne _ (by decide), part_cons_self]
    exact .worded hone hcall

/-- What the entries of a map declare is what the map declares. -/
theorem declares_of_validatorsOf {entries : List Value} {ds : List (Check × Complaint)}
    (h : validatorsOf es field = .ok entries) (hds : List.Forall₂ DeclaresOne entries ds) :
    Declares (.map es) ds := by
  unfold validatorsOf at h
  cases hlist : Value.get? es "validators" with
  | some v =>
    rw [hlist] at h
    have hxs : v.sequence? = some entries := by
      cases v <;> cases h <;> rfl
    exact .listed hlist hxs hds
  | none =>
    rw [hlist] at h
    cases hone : Value.get? es "validator" with
    | none =>
      rw [hone] at h
      cases h
      cases hds
      exact .flags hlist hone
    | some f =>
      rw [hone] at h
      cases h
      obtain ⟨d, ds, hd, hrest, rfl⟩ := List.forall₂_cons_left_iff.1 hds
      cases hrest
      refine .one (declaresOne_only hone hd) fun es' hes' => ?_
      cases hes'
      exact hlist

/-- The rules that are read add to the chain what the rule declares. -/
theorem parseRules_ok (h : parseRules rule field = .ok rules) :
    Declares rule (rules.filterMap ruleCheck?) := by
  cases rule with
  | null =>
    cases h
    exact .null
  | map es =>
    obtain ⟨entries, hentries, h⟩ := of_bind_ok h
    obtain ⟨rules', hrules', h⟩ := of_bind_ok h
    have hdeclares := declares_of_validatorsOf hentries (parseValidators_ok hrules')
    dsimp only at h
    split at h
    · cases h
      rwa [List.filterMap_append, List.filterMap_cons_none rfl, List.filterMap_nil,
        List.append_nil]
    · cases h
      exact hdeclares
  | function behaviour fixed site =>
    cases h
    exact .one (.alone rfl) nofun
  | _ => cases h

end Definition

/-! ## Runs of a chain -/

/-- A check of the chain is run: the value passes all before it. -/
def Reaches (x : Value) (s : Session) (checks : List (Check × Complaint)) (c : Check)
    (complaint : Complaint) (s₁ : Session) : Prop :=
  ∃ before after, checks = before ++ (c, complaint) :: after ∧ PassesAll x s before s₁

/-- The run of a chain ends with a check, as this one ends. -/
def StopsAt (x : Value) (s : Session) (checks : List (Check × Complaint)) (complaint : Complaint)
    (result : Except Failure Bool) (s' : Session) : Prop :=
  ∃ c s₁, Reaches x s checks c complaint s₁ ∧ (c.passes x).perform s₁ = (result, s')

section Chain

variable {x : Value} {c c' : Check} {complaint complaint' : Complaint}
  {checks : List (Check × Complaint)} {s s₁ s' : Session} {result : Except Failure Bool}

theorem reaches_cons : Reaches x s ((c', complaint') :: checks) c complaint s₁ ↔
    (c = c' ∧ complaint = complaint' ∧ s₁ = s) ∨
      ∃ s₀, (c'.passes x).perform s = (.ok true, s₀) ∧ Reaches x s₀ checks c complaint s₁ := by
  constructor
  · rintro ⟨before, after, hsplit, hbefore⟩
    cases hbefore with
    | nil =>
      cases hsplit
      exact .inl ⟨rfl, rfl, rfl⟩
    | cons hpassed hrest =>
      cases hsplit
      exact .inr ⟨_, hpassed, _, after, rfl, hrest⟩
  · rintro (⟨rfl, rfl, rfl⟩ | ⟨s₀, hpassed, before, after, rfl, hbefore⟩)
    · exact ⟨[], checks, rfl, .nil⟩
    · exact ⟨(c', complaint') :: before, after, rfl, .cons hpassed hbefore⟩

theorem stopsAt_cons : StopsAt x s ((c, complaint') :: checks) complaint result s' ↔
    (complaint = complaint' ∧ (c.passes x).perform s = (result, s')) ∨
      ∃ s₁, (c.passes x).perform s = (.ok true, s₁) ∧ StopsAt x s₁ checks complaint result s' := by
  constructor
  · rintro ⟨c', s₁, hreaches, hresult⟩
    rcases reaches_cons.1 hreaches with ⟨rfl, rfl, rfl⟩ | ⟨s₀, hpassed, hrest⟩
    · exact .inl ⟨rfl, hresult⟩
    · exact .inr ⟨s₀, hpassed, c', s₁, hrest, hresult⟩
  · rintro (⟨rfl, hresult⟩ | ⟨s₀, hpassed, c', s₁, hrest, hresult⟩)
    · exact ⟨c, s, reaches_cons.2 (.inl ⟨rfl, rfl, rfl⟩), hresult⟩
    · exact ⟨c', s₁, reaches_cons.2 (.inr ⟨s₀, hpassed, hrest⟩), hresult⟩

theorem not_stopsAt_nil : ¬ StopsAt x s [] complaint result s' := by
  rintro ⟨c, s₁, ⟨before, after, hsplit, -⟩, -⟩
  simp at hsplit

/-- The first check that the value fails is the one that the run ends with. -/
theorem failsFirst_iff :
    FailsFirst x s checks complaint s' ↔ StopsAt x s checks complaint (.ok false) s' := by
  induction checks generalizing s with
  | nil => exact iff_of_false nofun not_stopsAt_nil
  | cons entry rest ih =>
    obtain ⟨c, worded⟩ := entry
    rw [stopsAt_cons]
    constructor
    · intro h
      cases h with
      | here hfailed => exact .inl ⟨rfl, hfailed⟩
      | later hpassed hrest => exact .inr ⟨_, hpassed, ih.1 hrest⟩
    · rintro (⟨rfl, hfailed⟩ | ⟨s₁, hpassed, hrest⟩)
      · exact .here hfailed
      · exact .later hpassed (ih.2 hrest)

/-- The run fails with the first check that does not answer. -/
theorem firstComplaint_error_iff {f : Failure} :
    (firstComplaint x checks).perform s = (.error f, s') ↔
      ∃ complaint, StopsAt x s checks complaint (.error f) s' := by
  induction checks generalizing s with
  | nil => exact iff_of_false nofun fun ⟨_, h⟩ => not_stopsAt_nil h
  | cons entry rest ih =>
    obtain ⟨c, worded⟩ := entry
    simp only [stopsAt_cons]
    rw [firstComplaint, Action.perform_bind]
    constructor
    · intro h
      rcases hanswer : (c.passes x).perform s with ⟨f' | passed, s₁⟩ <;> rw [hanswer] at h
      · cases h
        exact ⟨worded, .inl ⟨rfl, rfl⟩⟩
      · cases passed with
        | true =>
          obtain ⟨complaint, hstops⟩ := ih.1 h
          exact ⟨complaint, .inr ⟨s₁, rfl, hstops⟩⟩
        | false => cases h
    · rintro ⟨complaint, ⟨-, hraised⟩ | ⟨s₁, hpassed, hstops⟩⟩
      · rw [hraised]
      · rw [hpassed]
        exact ih.2 ⟨complaint, hstops⟩

end Chain

namespace FieldValidator

variable {v : FieldValidator} {x : Value} {rule name : Value}

/-- A validator is reached by values of the type of the field only. -/
theorem accepts_of_reaches {f : Value} {complaint : Complaint} {s s₁ : Session}
    (h : Reaches x s v.chain (.validator f) complaint s₁) : v.type.accepts x = true := by
  rcases reaches_cons.1 h with ⟨hcheck, -⟩ | ⟨s₀, hpassed, -⟩
  · cases hcheck
  · have htype : (Except.ok (v.type.accepts x), s) = (.ok true, s₀) := hpassed
    exact Except.ok.inj (Prod.ext_iff.1 htype).1

/-- The chain of a field is the check of its type and then what its rule declares, in the same
order. The checks are run one after another: a value is valid when it passes all of them, the
complaint is that of the first one that it fails, and the first one that does not answer fails the
run. Nothing after it is run, and a validator is reached by values of the type only. -/
theorem validate_declared (hrules : Definition.parseRules rule name = .ok v.field.rules)
    (hchecked : exempts x = false) : ∃ declared, Rule.Declares rule declared ∧
      v.chain = (.type v.type, .standard) :: declared ∧
      (∀ s s', (v.validate x).perform s = (.ok none, s') ↔ PassesAll x s v.chain s') ∧
      (∀ s complaint s', (v.validate x).perform s = (.ok (some complaint), s') ↔
        StopsAt x s v.chain complaint (.ok false) s') ∧
      (∀ s f s', (v.validate x).perform s = (.error f, s') ↔
        ∃ complaint, StopsAt x s v.chain complaint (.error f) s') ∧
      (∀ f complaint s s₁, Reaches x s v.chain (.validator f) complaint s₁ →
        v.type.accepts x = true) ∧
      (v.type.accepts x = false → ∀ s, (v.validate x).perform s = (.ok (some .standard), s)) := by
  refine ⟨_, Definition.parseRules_ok hrules, rfl, fun s s' => ?_, fun s complaint s' => ?_,
    fun s f s' => ?_, fun _ _ _ _ => accepts_of_reaches, fun hwrong s => ?_⟩
  · rw [validate_none_iff, if_neg (by simp [hchecked])]
  · rw [validate_some_iff, and_iff_right hchecked, failsFirst_iff]
  · rw [validate, if_neg (by simp [hchecked]), firstComplaint_error_iff]
  · refine validate_some_iff.2 ⟨hchecked, .here ?_⟩
    rw [Check.passes, hwrong]
    rfl

/-! ### Ages that are observed -/

/-- A rule with three validators, of which the second one has its own wording. -/
def observedRule : Value := .map [(.text "validators", .list [
  .function .observe [.bool true] 0,
  .map [(.text "validator", .function .above [.int 0] 1), (.text "message", .text "too low")],
  .function .observe [.bool true] 2]), (.text "required", .bool true)]

/-- The field that has the rule. -/
def observedAge : Field where
  name := "age"
  type := "int"
  rules := [{ validator := some (.function .observe [.bool true] 0) },
    { validator := some (.function .above [.int 0] 1), message := some (.text "too low") },
    { validator := some (.function .observe [.bool true] 2) }, { required := true }]

/-- The validator of the field. -/
def observedValidator : FieldValidator := ⟨observedAge, .int, by decide⟩

/-- An age that is not positive is seen by the first validator, and not by the third one. -/
theorem declared_observed :
    Definition.parseRules observedRule (.text "age") = .ok observedValidator.field.rules ∧
    exempts (.int (-1)) = false ∧
    ∃ declared, Rule.Declares observedRule declared ∧
      observedValidator.chain = (.type .int, .standard) :: declared ∧
      StopsAt (.int (-1)) {} observedValidator.chain (.fixed "too low") (.ok false)
        { events := [⟨"validator", [.int (-1)]⟩] } := by
  have hrules : Definition.parseRules observedRule (.text "age") =
      .ok observedValidator.field.rules := by with_unfolding_all rfl
  obtain ⟨declared, hdeclares, hchain, -, hstops, -⟩ :=
    validate_declared (x := .int (-1)) hrules rfl
  exact ⟨hrules, rfl, declared, hdeclares, hchain, (hstops _ _ _).1 (by with_unfolding_all rfl)⟩

end FieldValidator

end WideColumn
