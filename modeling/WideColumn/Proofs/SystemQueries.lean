import WideColumn.Proofs.Introspection

/-!
# Queries on the system tables

Introspection is a sequence of queries. The store answers a query with the rows of the table that
is asked for (`Introspection.query_answered`), or fails it; then the query is refused
(`Introspection.query_failed`), with the refusal of the store itself if it made one.
-/

namespace WideColumn

/-! ## Queries -/

/-- The session after a statement was sent. -/
def Session.sending (s : Session) (c : Call) : Session :=
  { s with store := { s.store with
    sent := c :: s.store.sent
    failures := s.store.failures.drop 1 } }

namespace Store

/-- The store fails the statement that comes after a number of others. -/
def FailsAt (store : Store) (n : Nat) (f : Failure) : Prop := store.failures[n]? = some (some f)

variable {statement : String} {params : List Value} {options : ExecutionOptions} {s : Session}

/-- A statement that the store does not fail is answered with its rows. -/
theorem run_answered (h : ∀ f, ¬ s.store.FailsAt 0 f) :
    (run statement params options).perform s = (.ok (s.store.rowsFor statement params),
      s.sending ⟨statement, params, options⟩) := by
  unfold run
  simp only [Action.perform_bind, Action.perform_get, Action.perform_set, List.head?_eq_getElem?]
  cases hhead : s.store.failures[0]? with
  | none => rfl
  | some next =>
    cases next with
    | none => rfl
    | some f => exact absurd hhead (h f)

/-- A statement that the store fails fails in the same way. -/
theorem run_failed {f : Failure} (h : s.store.FailsAt 0 f) (statement : String)
    (params : List Value) (options : ExecutionOptions) :
    ∃ s', (run statement params options).perform s = (.error f, s') := by
  unfold run
  simp only [Action.perform_bind, Action.perform_get, Action.perform_set, List.head?_eq_getElem?]
  rw [h]
  obtain ⟨s', hs', -⟩ := Action.fail_quiet (α := List Value) f
    (s.sending ⟨statement, params, options⟩)
  exact ⟨s', hs'⟩

/-- A query on a system table is answered with what the table says of a name. -/
theorem rowsFor_query (store : Store) (kind : SystemTable) (keyspace : Value) (table : String) :
    store.rowsFor kind.query [keyspace, .text table] = store.system.find kind table := by
  have hkind : [SystemTable.columns, .indexes, .views].find? (fun t => t.query == kind.query) =
      some kind := by
    cases kind <;> decide
  unfold rowsFor
  rw [hkind]

end Store

/-- What comes after the statement comes first after it was sent. -/
theorem Session.failsAt_sending {s : Session} {c : Call} {n : Nat} {f : Failure} :
    (s.sending c).store.FailsAt n f ↔ s.store.FailsAt (1 + n) f := by
  rw [Store.FailsAt, sending, List.getElem?_drop]
  rfl

/-- A span keeps the outcome. -/
theorem Action.perform_traced {α : Type} (name : String) (attributes : List (Value × Value))
    (a : Action α) (s : Session) : ∃ s', (traced name attributes a).perform s =
      ((a.perform ((openSpan name attributes).perform s).2).1, s') := by
  unfold traced tracedOutcome
  rw [perform_map, perform_bind]
  rcases hopen : (openSpan name attributes).perform s with ⟨_ | place, s₀⟩
  · cases hopen
  · dsimp only
    rw [perform_bind, perform_attempt, perform_map]
    rcases a.perform s₀ with ⟨f | x, s₁⟩ <;> exact ⟨_, rfl⟩

namespace Introspection

variable {kind : SystemTable} {keyspace : Value} {table : String} {rows : List Row}
  {s s' : Session}

theorem query_answered (h : ∀ f, ¬ s.store.FailsAt 0 f)
    (hrows : (s.store.system.find kind table).mapM Value.toEntries = .ok rows) :
    (query kind [keyspace, .text table]).perform s =
      (.ok rows, s.sending ⟨kind.query, [keyspace, .text table], .definition⟩) := by
  unfold query
  rw [Action.perform_bind, Action.perform_attempt, Action.perform_bind, Store.run_answered h,
    Store.rowsFor_query]
  dsimp only
  rw [hrows]
  rfl

/-- A query that the store fails is refused: with the refusal of the store, or by one that tells
that a query on the system tables failed. -/
theorem query_failed {f : Failure} (h : s.store.FailsAt 0 f) (kind : SystemTable)
    (keyspace : Value) (table : String) :
    ∃ r s', (query kind [keyspace, .text table]).perform s = (.error (.refusal r), s') ∧
      (f = .refusal r ∨ r.code = .schemaQuery) := by
  obtain ⟨s₁, hrun⟩ := Store.run_failed h kind.query [keyspace, .text table] .definition
  unfold query
  rw [Action.perform_bind, Action.perform_attempt, Action.perform_bind, hrun]
  cases f with
  | refusal r => exact ⟨r, _, rfl, .inl rfl⟩
  | _ => exact ⟨_, _, rfl, .inr rfl⟩

/-- A query that ends well was answered by the store with the rows of the table, and sends itself
only. -/
theorem query_ok (h : (query kind [keyspace, .text table]).perform s = (.ok rows, s')) :
    (∀ f, ¬ s.store.FailsAt 0 f) ∧
      (s.store.system.find kind table).mapM Value.toEntries = .ok rows ∧
      s' = s.sending ⟨kind.query, [keyspace, .text table], .definition⟩ := by
  have hanswers : ∀ f, ¬ s.store.FailsAt 0 f := by
    intro f hf
    obtain ⟨r, s₁, hfailed, -⟩ := query_failed hf kind keyspace table
    cases hfailed.symm.trans h
  refine ⟨hanswers, ?_⟩
  obtain ⟨outcome, s₁, hattempt, h⟩ := Action.bind_ok h
  obtain ⟨houtcome, hsession⟩ := Prod.mk.inj ((Action.perform_attempt _ s).symm.trans hattempt)
  cases outcome with
  | error f =>
    cases f with
    | refusal r => cases h
    | _ => exact absurd h Action.refuse_ne_ok
  | ok rows' =>
    cases h
    obtain ⟨found, s₂, hrun, hlift⟩ := Action.bind_ok (Prod.ext (Except.ok.inj houtcome) hsession)
    rw [Store.run_answered hanswers, Store.rowsFor_query] at hrun
    cases hrun
    exact Action.lift_ok hlift

/-! ## Rows of indexes -/

/-- The options in the row of an index; there are none when it has no value for them. -/
def optionsOf (row : Row) : Except Failure (List (Value × Value)) :=
  if (part row "options").isTrue then (part row "options").toEntries else .ok []

/-- An index is read from its options, its kind and its name. -/
theorem index_eq (row : Row) : index row = (do
    let options ← optionsOf row
    let target := (Value.get? options "target").getD (.text "")
    if isKind "CUSTOM" row then
      let i ← customIndex target (without "target" options)
      return .custom i (← requiredPart row "index_name")
    else
      let target ← IndexTarget.ofValue target
      return .onTarget target.canonical (← requiredPart row "index_name")) := by
  unfold index optionsOf
  dsimp only
  split <;> rfl

end Introspection

end WideColumn
