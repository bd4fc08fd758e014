import Mathlib.Data.List.Induction
import WideColumn.Proofs.Calls

/-!
# What a record knows about itself

A record tells which of its fields were assigned since it was saved. What is done to a record is
told as a list of deeds: an assignment of a declared field, or a save that came to its end.
`Record.Life` is everything that may happen to a record from its making on, calls on the model and on
other records and failures included, with its deeds; and the record is at all times the one that its
deeds make of what it was at first (`Record.Life.tracks`).
-/

namespace WideColumn

/-! ## Deeds -/

namespace Record

/-- What is done to a record. -/
inductive Deed where
  /-- A declared field is given a value. -/
  | assigned (name : String) (value : Value)
  /-- The record was inserted. -/
  | saved

/-- The values of a record after a deed. -/
def Deed.overlay (values : List (Value × Value)) : Deed → List (Value × Value)
  | assigned name value => Value.insertEntry (.text name) value values
  | saved => values

variable {t : Table} {r : Record} {name : Value} {f : Field}

/-- The record after a deed. -/
def after (r : Record) (d : Deed) : Record :=
  match d with
  | .assigned name _ => { r with
      values := d.overlay r.values
      modified := if r.modified.contains name then r.modified else r.modified ++ [name] }
  | .saved => r.saved

/-- The record after deeds, one after the other. -/
def afterAll (r : Record) (ds : List Deed) : Record := ds.foldl after r

theorem afterAll_append (r : Record) (ds ds' : List Deed) :
    r.afterAll (ds ++ ds') = (r.afterAll ds).afterAll ds' := List.foldl_append

/-- The name was assigned, and the record was not saved after that. -/
def Unsaved (ds : List Deed) (name : String) : Prop :=
  HappenedSince (fun d => ∃ value, d = .assigned name value) (· = .saved) ds

/-- A deed adds the name that it assigns, and a save takes all names away. -/
theorem mem_modified_after (r : Record) (d : Deed) (name : String) :
    name ∈ (r.after d).modified ↔
      (∃ value, d = .assigned name value) ∨ name ∈ r.modified ∧ d ≠ .saved := by
  cases d with
  | assigned n value =>
    by_cases hn : n ∈ r.modified
    · have hkept : name = n → name ∈ r.modified := fun hname => hname ▸ hn
      simpa [after, hn, eq_comm (a := n)] using hkept
    · simp [after, hn, eq_comm (a := n), or_comm]
  | saved => simp [after, Record.saved]

/-- The modified names of a record that starts without any are those that are unsaved. -/
theorem mem_modified_afterAll (hclean : r.modified = []) (ds : List Deed) (name : String) :
    name ∈ (r.afterAll ds).modified ↔ Unsaved ds name := by
  induction ds using List.reverseRecOn with
  | nil =>
    have hnone : name ∉ (r.afterAll []).modified := by simp [afterAll, hclean]
    exact iff_of_false hnone not_happenedSince_nil
  | append_singleton ds d ih =>
    have hlast : name ∈ (r.afterAll (ds ++ [d])).modified ↔
        (∃ value, d = .assigned name value) ∨ name ∈ (r.afterAll ds).modified ∧ d ≠ .saved := by
      rw [afterAll_append]
      change name ∈ ((r.afterAll ds).after d).modified ↔ _
      rw [mem_modified_after]
    rw [hlast, ih]
    unfold Unsaved
    rw [happenedSince_append_singleton]

theorem values_afterAll (r : Record) (ds : List Deed) :
    (r.afterAll ds).values = ds.foldl Deed.overlay r.values := by
  induction ds generalizing r with
  | nil => rfl
  | cons d ds ih =>
    have hfirst : (r.after d).values = d.overlay r.values := by cases d <;> rfl
    change ((r.after d).afterAll ds).values = _
    rw [ih, hfirst, List.foldl_cons]

theorem isPersisted_afterAll (r : Record) (ds : List Deed) :
    (r.afterAll ds).isPersisted = true ↔ r.isPersisted = true ∨ .saved ∈ ds := by
  induction ds generalizing r with
  | nil => simp [afterAll]
  | cons d ds ih =>
    change ((r.after d).afterAll ds).isPersisted = true ↔ _
    rw [ih]
    cases d with
    | assigned name value => simp [after]
    | saved => simp [after, Record.saved]

/-! ## Assigning -/

/-- A declared name is the text of its field's name. -/
theorem eq_of_field? (h : field? t name = some f) :
    name = .text f.name ∧ t.field? f.name = some f := by
  obtain ⟨s, hs, hf⟩ := Option.bind_eq_some_iff.1 h
  have hname : f.name = s := by simpa using List.find?_some hf
  subst hname
  cases name <;> cases hs
  exact ⟨rfl, hf⟩

theorem set_declared (h : field? t name = some f) (value : Value) :
    r.set t name value = .ok (r.after (.assigned f.name value)) := by
  obtain ⟨rfl, hf⟩ := eq_of_field? h
  unfold set
  rw [h]
  rfl

theorem set_undeclared (h : field? t name = none) (value : Value) :
    ∃ e, r.set t name value = .error e := by
  unfold set
  rw [h]
  cases name.checkKey with
  | error e => exact ⟨e, rfl⟩
  | ok _ => exact ⟨_, rfl⟩

/-- The store keeps the values of the declared fields that are not virtual. -/
theorem mem_persistable {e : Value × Value} : e ∈ r.persistable t ↔ e ∈ r.values ∧
    ∃ f, t.field? f.name = some f ∧ e.1 = .text f.name ∧ f.isVirtual = false := by
  unfold persistable
  rw [List.mem_filter]
  refine and_congr_right fun _ => ?_
  constructor
  · intro hstored
    split at hstored
    · rename_i f hf
      obtain ⟨hname, hfound⟩ := eq_of_field? hf
      exact ⟨f, hfound, hname, by simpa using hstored⟩
    · cases hstored
  · rintro ⟨f, hfound, hname, hstored⟩
    have hf : field? t e.1 = some f := hname ▸ hfound
    rw [hf]
    simp [hstored]

/-- The assignments of entries up to the first one whose name is not declared. -/
def assignments (t : Table) : List (Value × Value) → List Deed
  | [] => []
  | (name, value) :: es =>
    match field? t name with
    | some f => .assigned f.name value :: assignments t es
    | none => []

theorem assignAll_ok : ∀ {es : List (Value × Value)} {r r' : Record},
    Model.assignAll t es r = .ok r' → r' = r.afterAll (assignments t es)
  | [], r, r', h => (Except.ok.inj h).symm
  | (name, value) :: es, r, r', h => by
    obtain ⟨r₁, hset, h⟩ :=
      of_bind_ok (show (r.set t name value >>= fun r => es.foldlM _ r) = _ from h)
    unfold assignments
    cases hf : field? t name with
    | some f =>
      rw [set_declared hf] at hset
      cases hset
      exact assignAll_ok h
    | none =>
      obtain ⟨e, he⟩ := set_undeclared (r := r) hf value
      cases he.symm.trans hset

end Record

/-! ## Calls on the model -/

namespace Model

/-- From one state to the other the table stays, and so does every record at its place; records may
be added. -/
structure KeepsRecords (s s' : Model × Session) : Prop where
  table : s'.1.table = s.1.table
  records : s.1.records <+: s'.1.records

instance : IsPreorder (Model × Session) KeepsRecords where
  refl _ := ⟨rfl, List.prefix_rfl⟩
  trans _ _ _ h h' := ⟨h'.table.trans h.table, h.records.trans h'.records⟩

/-- A record that is kept stays at its place. -/
theorem KeepsRecords.stays {s s' : Model × Session} (h : KeepsRecords s s') {place : Nat}
    {record : Record} (hrecord : s.1.records[place]? = some record) :
    s'.1.records[place]? = some record := by
  obtain ⟨added, hadded⟩ := h.records
  obtain ⟨hplace, -⟩ := List.getElem?_eq_some_iff.1 hrecord
  rw [← hadded, List.getElem?_append_left hplace, hrecord]

variable {α : Type}

theorem keeps_act (a : Action α) : Within KeepsRecords (act a) := fun _ => ⟨rfl, List.prefix_rfl⟩

theorem keeps_lift (r : Except Failure α) : Within KeepsRecords (lift r) := keeps_act _

/-- A failure without effects leaves a line in the journal at most. -/
theorem perform_lift_error (e : Failure) (s : Model × Session) :
    ∃ s₁, (lift (.error e : Except Failure α)).perform s = (.error e, s₁) ∧ KeepsRecords s s₁ := by
  cases e <;> exact ⟨_, rfl, ⟨rfl, List.prefix_rfl⟩⟩

theorem keeps_this : Within KeepsRecords this := fun s => refl s

theorem keeps_change {f : Model → Model} (htable : ∀ m, (f m).table = m.table)
    (hrecords : ∀ m, m.records <+: (f m).records) : Within KeepsRecords (change f) :=
  fun s => ⟨htable s.1, hrecords s.1⟩

theorem keeps_recordAt {r : RecordRef} : Within KeepsRecords (recordAt r) :=
  .bind keeps_this fun _ => .pure _

theorem keeps_keep (r : Record) : Within KeepsRecords (keep r) :=
  .bind keeps_this fun _ => .bind
    (keeps_change (fun _ => rfl) fun m => List.prefix_append m.records [r]) fun _ => .pure _

theorem keeps_synchronize : Within KeepsRecords synchronize := by
  refine .bind (keeps_change (fun _ => rfl) fun _ => List.prefix_rfl) fun _ => ?_
  refine .bind keeps_this fun m => .bind (keeps_lift _) fun source => ?_
  refine .bind (keeps_act _) fun r => ?_
  refine .bind (keeps_change (fun _ => rfl) fun _ => List.prefix_rfl) fun _ => ?_
  split
  · exact .throw _
  · exact .bind (keeps_change (fun _ => rfl) fun _ => List.prefix_rfl) fun _ => .pure _

theorem keeps_execute (p : Prepared) (options : ExecutionOptions) :
    Within KeepsRecords (execute p options) := by
  have hready : Within KeepsRecords ensureReady := by
    refine .bind keeps_this fun m => ?_
    split
    · exact .bind keeps_synchronize fun _ => .pure _
    · exact .pure _
  intro s
  obtain ⟨s₀, s₁, -, -, htraced⟩ :=
    perform_traced "cqlflow.model.execute" (executeReady p options) s.1 s.2
  have hinside : KeepsRecords (s.1, s₀) ((executeReady p options).perform (s.1, s₀)).2 :=
    Within.bind hready (fun _ => .bind keeps_this fun _ => keeps_act _) (s.1, s₀)
  change KeepsRecords s ((execute p options).perform (s.1, s.2)).2
  rw [execute_eq, htraced]
  exact ⟨hinside.table, hinside.records⟩

theorem keeps_operation (k : StatementKind) (parts : List (String × Value)) :
    Within KeepsRecords (operation k parts) := by
  refine .bind keeps_this fun m => ?_
  dsimp only
  split
  · exact .pure _
  · exact keeps_act _
  · exact .throw _

theorem keeps_compile (o : Operation) : Within KeepsRecords (compile o) :=
  .bind keeps_this fun _ => keeps_act _

theorem keeps_dispatch (o : Operation) (compileOnly : Bool) (options : ExecutionOptions) :
    Within KeepsRecords (dispatch o compileOnly options) := by
  refine .bind (keeps_compile o) fun p => ?_
  split
  · exact .pure _
  · exact .bind (keeps_execute p options) fun _ => .pure _

theorem keeps_dropTable : Within KeepsRecords dropTable := by
  have hview (v : String × View) : Within KeepsRecords (do
      let p ← compile (← operation .dropView [("view_name", .text v.1)])
      return (Phase.viewDrop, p.statement) : Run (Phase × Statement)) :=
    .bind (keeps_operation _ _) fun o => .bind (keeps_compile o) fun _ => .pure _
  have hstatements : Within KeepsRecords dropStatements :=
    .bind keeps_this fun _ => .bind (.mapM fun v _ => hview v) fun _ =>
      .bind (keeps_operation _ _) fun o => .bind (keeps_compile o) fun _ => .pure _
  refine .bind hstatements fun xs => .bind keeps_this fun _ => .bind (.mapM fun _ _ => keeps_act _)
    fun _ => .bind (keeps_change (fun _ => rfl) fun _ => List.prefix_rfl) fun _ => .pure _

theorem keeps_recordOfRow (row : Value) : Within KeepsRecords (recordOfRow row) :=
  .bind (keeps_lift _) fun _ => keeps_keep _

theorem keeps_collect (rows : List Value) : Within KeepsRecords (collect rows) := by
  refine .bind keeps_this fun m => ?_
  split
  · exact .map (.mapM fun row _ => keeps_recordOfRow row)
  · exact .bind (.mapM fun _ _ => keeps_act _) fun _ => .pure _

theorem keeps_findWith (query : List (Value × Value)) (b : Bound) :
    Within KeepsRecords (findWith query b) := by
  refine .bind (keeps_operation _ _) fun o => .bind (keeps_lift _) fun options =>
    .bind (keeps_dispatch o _ options) fun answer => ?_
  split
  · exact .pure _
  · split
    · exact .pure _
    · exact keeps_collect _

/-- A call on the model leaves its table and its records as they are. -/
theorem keeps_call (c : ModelCall) (a : Arguments) : Within KeepsRecords (call c a) := by
  refine .bind (keeps_lift _) fun b => ?_
  have hrows (k : StatementKind) (parts : List (String × Value)) :
      Within KeepsRecords (do
        let o ← operation k parts
        rowsAnswer <$> dispatch o (b.holds "return_query") : Run Answer) :=
    .bind (keeps_operation _ _) fun o => .map (keeps_dispatch o _ _)
  cases c with
  | find => exact .bind (keeps_lift _) fun _ => keeps_findWith _ _
  | findOne => exact .bind (keeps_lift _) fun _ => .map (keeps_findWith _ _)
  | insert => exact .bind (keeps_lift _) fun _ => hrows _ _
  | update =>
    exact .bind (keeps_lift _) fun _ => .bind (keeps_lift _) fun _ => .bind (keeps_lift _) fun _ =>
      hrows _ _
  | delete => exact .bind (keeps_lift _) fun _ => hrows _ _
  | truncate => exact hrows _ _
  | dropTable => exact .bind keeps_dropTable fun _ => .pure _
  | synchronize => exact .map keeps_synchronize
  | new =>
    exact .bind (keeps_lift _) fun _ => .bind keeps_this fun _ => .bind (keeps_lift _) fun _ =>
      .map (keeps_keep _)
  | render => exact .bind keeps_this fun _ => .pure _

end Model

/-! ## Calls on records -/

/-- The call asks for its statement only. -/
def Arguments.asksStatement (a : Arguments) : Bool :=
  ((Keyed.get? a.named "return_query").map Value.isTrue).getD false

/-- What a call does to its record, by how the call ends. Of entries those are assigned that come
before the first one whose name is not declared; and a save counts when the row was inserted. -/
def RecordCall.deeds (t : Table) (c : RecordCall) (a : Arguments) (x : Except Failure Answer) :
    List Record.Deed :=
  match c with
  | .set =>
    match a.bind c.parameters with
    | .ok b => Record.assignments t [(b.get "name", b.get "value")]
    | .error _ => []
  | .update =>
    match a.bind c.parameters with
    | .ok b =>
      match b.get "values" with
      | .map es => Record.assignments t es
      | _ => []
    | .error _ => []
  | .save => if x.isOk && !a.asksStatement then [.saved] else []
  | _ => []

namespace Model

variable {α β : Type} {r r' : RecordRef} {ds ds' : List Record.Deed} {s s₁ s' : Model × Session}

/-- From one state to the other deeds were done to a record, and nothing to any other. -/
structure Undergoes (r : RecordRef) (ds : List Record.Deed) (s s' : Model × Session) : Prop where
  table : s'.1.table = s.1.table
  own : ∀ record, s.1.records[r.place]? = some record →
    s'.1.records[r.place]? = some (record.afterAll ds)
  others : ∀ place record, place ≠ r.place → s.1.records[place]? = some record →
    s'.1.records[place]? = some record

namespace Undergoes

theorem of_keeps (h : KeepsRecords s s') : Undergoes r [] s s' where
  table := h.table
  own _ := h.stays
  others _ _ _ := h.stays

theorem trans (h : Undergoes r ds s s₁) (h' : Undergoes r ds' s₁ s') :
    Undergoes r (ds ++ ds') s s' where
  table := h'.table.trans h.table
  own record hrecord := by
    rw [Record.afterAll_append]
    exact h'.own _ (h.own record hrecord)
  others place record hplace hrecord :=
    h'.others place record hplace (h.others place record hplace hrecord)

/-- The record at its place is replaced by what deeds make of it. -/
theorem replace (r : RecordRef) (ds : List Record.Deed) (s : Model × Session) :
    Undergoes r ds s
      ((Model.replace r ((s.1.records[r.place]?.getD {}).afterAll ds)).perform s).2 where
  table := rfl
  own record hrecord := by
    obtain ⟨hplace, -⟩ := List.getElem?_eq_some_iff.1 hrecord
    rw [hrecord]
    exact List.getElem?_set_self hplace
  others place record hplace hrecord :=
    (List.getElem?_set_ne (Ne.symm hplace)).trans hrecord

/-- A computation that starts with a value without effects does nothing to a record unless there is
the value. -/
theorem lift_bind {x : Except Failure β} {f : β → Run α} (herror : ∀ e, x = .error e → ds = [])
    (hok : ∀ b, x = .ok b → Undergoes r ds s ((f b).perform s).2) :
    Undergoes r ds s ((lift x >>= f : Run α).perform s).2 := by
  rw [perform_bind]
  cases x with
  | ok b => exact hok b rfl
  | error e =>
    obtain ⟨s₁, hlift, hkeeps⟩ := perform_lift_error (α := β) e s
    rw [hlift, herror e rfl]
    exact of_keeps hkeeps

end Undergoes

theorem perform_recordAt (r : RecordRef) (s : Model × Session) :
    (recordAt r).perform s = (.ok (s.1.records[r.place]?.getD {}), s) := rfl

/-! ### Assignments -/

/-- An assignment of a declared name is done to the record. -/
theorem perform_assign_declared {name : Value} {f : Field} {r : RecordRef} {s : Model × Session}
    (h : Record.field? s.1.table name = some f) (value : Value) :
    ∃ s₁, (r.assign name value).perform s = (.ok (), s₁) ∧
      Undergoes r [.assigned f.name value] s s₁ := by
  refine ⟨_, ?_, .replace r [.assigned f.name value] s⟩
  unfold RecordRef.assign
  simp only [perform_bind, perform_recordAt, perform_this, Record.set_declared h]
  rfl

/-- An assignment of any other name fails, and nothing is done to the record. -/
theorem perform_assign_undeclared {name : Value} {r : RecordRef} {s : Model × Session}
    (h : Record.field? s.1.table name = none) (value : Value) :
    ∃ e s₁, (r.assign name value).perform s = (.error e, s₁) ∧ KeepsRecords s s₁ := by
  obtain ⟨e, he⟩ := Record.set_undeclared (r := s.1.records[r.place]?.getD {}) h value
  obtain ⟨s₁, hlift, hkeeps⟩ := perform_lift_error (α := Record) e s
  refine ⟨e, s₁, ?_, hkeeps⟩
  unfold RecordRef.assign
  simp only [perform_bind, perform_recordAt, perform_this, he, hlift]

/-- Entries are assigned one after the other, up to the first one whose name is not declared. -/
theorem undergoes_assignEach (r : RecordRef) : ∀ (es : List (Value × Value)) (s : Model × Session),
    Undergoes r (Record.assignments s.1.table es) s ((r.assignEach es).perform s).2
  | [], s => .of_keeps (refl s)
  | (name, value) :: es, s => by
    unfold RecordRef.assignEach Record.assignments
    rw [perform_bind]
    cases hf : Record.field? s.1.table name with
    | some f =>
      obtain ⟨s₁, hassign, hdone⟩ := perform_assign_declared (r := r) hf value
      have hrest := undergoes_assignEach r es s₁
      rw [hdone.table] at hrest
      rw [hassign]
      exact hdone.trans hrest
    | none =>
      obtain ⟨e, s₁, hassign, hkeeps⟩ := perform_assign_undeclared (r := r) hf value
      rw [hassign]
      exact .of_keeps hkeeps

/-! ### Saves -/

/-- An insertion answers its statement exactly when only that is asked for. -/
theorem insert_answer {a : Arguments} {answer : Answer}
    (h : (call .insert a).perform s = (.ok answer, s')) :
    (∃ st, answer = .statement st) ↔ a.asksStatement = true := by
  obtain ⟨b, s₁, hb, h⟩ := bind_ok h
  obtain ⟨values, s₂, -, h⟩ := bind_ok h
  obtain ⟨o, s₃, -, h⟩ := bind_ok h
  have hasks : b.holds "return_query" = a.asksStatement := by
    obtain ⟨hentries, -, -⟩ := Arguments.bind_ok (lift_ok hb)
    have hnamed : Keyed.get? b.entries "return_query" = Keyed.get? a.named "return_query" := by
      rw [hentries]
      unfold Arguments.entries
      cases a.placed <;> rfl
    unfold Bound.holds Bound.get Arguments.asksStatement
    rw [hnamed]
    cases Keyed.get? a.named "return_query" <;> rfl
  rw [← hasks]
  rw [perform_map] at h
  rcases hend : (dispatch o (b.holds "return_query")).perform s₃ with ⟨f | made, s₄⟩ <;>
    rw [hend] at h <;> cases h
  obtain ⟨p, s₅, -, hend⟩ := bind_ok hend
  split at hend
  · rename_i hholds
    cases hend
    exact iff_of_true ⟨_, rfl⟩ hholds
  · rename_i hholds
    obtain ⟨rows, s₆, -, hend⟩ := bind_ok hend
    cases hend
    exact iff_of_false (fun ⟨st, hst⟩ => nomatch hst) hholds

/-- A save inserts the values that the store keeps. The record counts as saved when the insertion
came to its end and was not asked for its statement only. -/
theorem perform_save (r : RecordRef) (options : List (String × Value)) (s : Model × Session) :
    (r.save options).perform s =
      match (call .insert ⟨[.map ((s.1.records[r.place]?.getD {}).persistable s.1.table)],
        options⟩).perform s with
      | (.error f, s₁) => (.error f, s₁)
      | (.ok (.statement st), s₁) => (.ok (.statement st), s₁)
      | (.ok _, s₁) =>
        (.ok (.record r), ((replace r (s₁.1.records[r.place]?.getD {}).saved).perform s₁).2) := by
  unfold RecordRef.save
  simp only [perform_bind, perform_recordAt, perform_this]
  rcases (call .insert _).perform s with ⟨f | answer, s₁⟩
  · rfl
  · cases answer <;> rfl

theorem undergoes_save (r : RecordRef) (options : List (String × Value)) (s : Model × Session) :
    Undergoes r (RecordCall.deeds s.1.table .save ⟨[], options⟩ ((r.save options).perform s).1) s
      ((r.save options).perform s).2 := by
  rw [perform_save]
  generalize (s.1.records[r.place]?.getD {}).persistable s.1.table = values
  have hkeeps : KeepsRecords s ((call .insert ⟨[.map values], options⟩).perform s).2 :=
    keeps_call _ _ s
  rcases hinsert : (call .insert ⟨[.map values], options⟩).perform s with ⟨f | answer, s₁⟩ <;>
    rw [hinsert] at hkeeps
  · exact .of_keeps hkeeps
  · have hasks := insert_answer hinsert
    have hsaved (h : ¬ ∃ st, answer = .statement st) :
        Undergoes r (RecordCall.deeds s.1.table .save ⟨[], options⟩ (.ok (.record r))) s
          ((replace r (s₁.1.records[r.place]?.getD {}).saved).perform s₁).2 := by
      have hdeeds :
          RecordCall.deeds s.1.table .save ⟨[], options⟩ (.ok (.record r)) = [.saved] := by
        have hnot : Arguments.asksStatement ⟨[], options⟩ = false :=
          Bool.eq_false_iff.2 fun h' => h (hasks.2 h')
        simp [RecordCall.deeds, hnot, Except.isOk, Except.toBool]
      rw [hdeeds]
      exact (Undergoes.of_keeps hkeeps).trans (.replace r [.saved] s₁)
    cases answer with
    | statement st =>
      have hdeeds : RecordCall.deeds s.1.table .save ⟨[], options⟩ (.ok (.statement st)) = [] := by
        have hyes : Arguments.asksStatement ⟨[], options⟩ = true := hasks.1 ⟨st, rfl⟩
        simp [RecordCall.deeds, hyes]
      dsimp only
      rw [hdeeds]
      exact .of_keeps hkeeps
    | _ => exact hsaved (fun ⟨st, hst⟩ => nomatch hst)

/-! ### Every call -/

theorem keeps_lookup (r : RecordRef) (name : Value) : Within KeepsRecords (r.lookup name) :=
  .bind keeps_recordAt fun _ => keeps_lift _

/-- A call that neither assigns nor saves leaves all records as they are. -/
theorem keeps_recordCall (r : RecordRef) {c : RecordCall} (a : Arguments) (hset : c ≠ .set)
    (hupdate : c ≠ .update) (hsave : c ≠ .save) : Within KeepsRecords (r.call c a) := by
  refine .bind (keeps_lift _) fun b => .bind keeps_recordAt fun record => ?_
  refine .bind keeps_this fun m => ?_
  cases c with
  | get => exact .bind (keeps_lookup r _) fun _ => .pure _
  | set => exact absurd rfl hset
  | update => exact absurd rfl hupdate
  | item =>
    refine .map (.bind (keeps_lookup r _) fun found => ?_)
    split
    · exact .pure _
    · exact .throw _
  | contains => exact .bind (keeps_lookup r _) fun _ => .pure _
  | isModified => exact .bind (keeps_lift _) fun _ => .pure _
  | save => exact absurd rfl hsave
  | delete => exact .bind keeps_recordAt fun _ => .bind keeps_this fun _ => keeps_call _ _
  | names | primaryKey | persistable | toMap | render => exact .pure _

/-- A call on a record does its deeds to the record, and nothing to any other. -/
theorem undergoes_call (r : RecordRef) (c : RecordCall) (a : Arguments) (s : Model × Session) :
    Undergoes r (c.deeds s.1.table a ((r.call c a).perform s).1) s ((r.call c a).perform s).2 := by
  cases c with
  | set =>
    refine Undergoes.lift_bind (fun e he => ?_) fun b hb => ?_
    · simp [RecordCall.deeds, show a.bind _ = _ from he]
    · have hdeeds : RecordCall.deeds s.1.table .set a ((r.call .set a).perform s).1 =
          Record.assignments s.1.table [(b.get "name", b.get "value")] := by
        simp [RecordCall.deeds, show a.bind _ = _ from hb]
      -- setting one field is assigning a list of one
      have hassign := undergoes_assignEach r [(b.get "name", b.get "value")] s
      rw [hdeeds]
      unfold RecordRef.assignEach at hassign
      simp only [perform_bind, perform_recordAt, perform_this] at hassign ⊢
      rcases hend : (r.assign (b.get "name") (b.get "value")).perform s with ⟨e | _, s₁⟩ <;>
        rw [hend] at hassign <;> exact hassign
  | update =>
    refine Undergoes.lift_bind (fun e he => ?_) fun b hb => ?_
    · simp [RecordCall.deeds, show a.bind _ = _ from he]
    · have hbound : a.bind RecordCall.update.parameters = .ok b := hb
      simp only [RecordCall.deeds, hbound, perform_bind, perform_recordAt, perform_this]
      cases b.get "values" with
      | map es =>
        have hassign := undergoes_assignEach r es s
        rw [perform_bind]
        rcases hend : (r.assignEach es).perform s with ⟨e | _, s₁⟩ <;>
          rw [hend] at hassign <;> exact hassign
      | _ => exact .of_keeps (refl s)
  | save =>
    have hcall : r.call .save a = (lift (Arguments.bind { a with named := [] }
        RecordCall.save.parameters) >>= fun _ => recordAt r >>= fun _ => this >>= fun _ =>
          r.save a.named) := rfl
    rw [hcall, perform_bind]
    cases Arguments.bind { a with named := [] } RecordCall.save.parameters with
    | error e =>
      obtain ⟨s₁, hlift, hkeeps⟩ := perform_lift_error (α := Bound) e s
      rw [hlift]
      exact .of_keeps hkeeps
    | ok b =>
      have hlift : (lift (.ok b) : Run Bound).perform s = (.ok b, s) := rfl
      simp only [hlift, perform_bind, perform_recordAt, perform_this]
      exact undergoes_save r a.named s
  | _ => exact .of_keeps (by exact keeps_recordCall r a (by simp) (by simp) (by simp) s)

end Model

/-! ## Records are made -/

/-- The records that an answer holds. -/
def Answer.refs : Answer → List RecordRef
  | .record r => [r]
  | .records rs => rs
  | _ => []

/-- The values that a new record is given, as assignments. -/
def Arguments.newDeeds (t : Table) (a : Arguments) : List Record.Deed :=
  match a.bind ModelCall.new.parameters with
  | .ok b =>
    match Definition.entriesOrNone (b.get "values") with
    | .ok es => Record.assignments t es
    | .error _ => []
  | .error _ => []

namespace Model

variable {a : Arguments} {answer : Answer} {r : RecordRef} {s s' : Model × Session}

/-- What ends well without effects changes nothing. -/
theorem lift_ok_eq {α : Type} {x : Except Failure α} {y : α}
    (h : (lift x).perform s = (.ok y, s')) : x = .ok y ∧ s' = s := by
  obtain rfl := lift_ok h
  cases h
  exact ⟨rfl, rfl⟩

/-- A record that is kept is the last one. -/
theorem keep_ok {record : Record} (h : (keep record).perform s = (.ok r, s')) :
    s'.1.records[r.place]? = some record ∧ s'.1.table = s.1.table := by
  cases h
  exact ⟨List.getElem?_concat_length, rfl⟩

/-- A new record has the values that it is given, all of which are of declared fields. -/
theorem new_ok (h : (call .new a).perform s = (.ok answer, s')) :
    ∃ r, answer = .record r ∧ s'.1.table = s.1.table ∧
      s'.1.records[r.place]? = some (({} : Record).afterAll (a.newDeeds s.1.table)) := by
  obtain ⟨b, s₁, hbind, hnew⟩ := bind_ok h
  obtain ⟨es, s₂, hentries, hassign⟩ := bind_ok (show (new b).perform s₁ = _ from hnew)
  obtain ⟨m, s₃, hm, hassign⟩ := bind_ok hassign
  obtain ⟨record, s₄, hrecord, hkeep⟩ := bind_ok hassign
  obtain ⟨hb, rfl⟩ := lift_ok_eq hbind
  obtain ⟨hes, rfl⟩ := lift_ok_eq hentries
  cases hm
  obtain ⟨hrecord, rfl⟩ := lift_ok_eq hrecord
  rw [perform_map] at hkeep
  rcases hkept : (keep record).perform s₄ with ⟨f | r, s₅⟩ <;> rw [hkept] at hkeep <;> cases hkeep
  obtain ⟨hplace, htable⟩ := keep_ok hkept
  refine ⟨r, rfl, htable, ?_⟩
  have hdeeds : a.newDeeds s₄.1.table = Record.assignments s₄.1.table es := by
    unfold Arguments.newDeeds
    rw [hb]
    dsimp only
    rw [hes]
  rw [hplace, Record.assignAll_ok hrecord, hdeeds]

theorem mapM_recordOfRow_ok : ∀ {rows : List Value} {rs : List RecordRef} {s : Model × Session},
    (rows.mapM recordOfRow : Run (List RecordRef)).perform s = (.ok rs, s') →
      ∀ r ∈ rs, ∃ row, s'.1.records[r.place]? = some (.ofRow row)
  | [], rs, s, h, r, hr => by
    cases h
    cases hr
  | row :: rows, rs, s, h, r, hr => by
    rw [List.mapM_cons] at h
    obtain ⟨r₁, s₁, hfirst, h⟩ := bind_ok h
    obtain ⟨rs₁, s₂, hrest, h⟩ := bind_ok h
    cases h
    rcases List.mem_cons.1 hr with rfl | hr
    · obtain ⟨es, s₃, -, hkept⟩ := bind_ok hfirst
      have hkeeps : KeepsRecords s₁ ((rows.mapM recordOfRow : Run _).perform s₁).2 :=
        Within.mapM (fun row _ => keeps_recordOfRow row) s₁
      rw [hrest] at hkeeps
      exact ⟨es, hkeeps.stays (keep_ok hkept).1⟩
    · exact mapM_recordOfRow_ok hrest r hr

/-- A record that is found is kept as it came from the store. -/
theorem find_ok {c : ModelCall} (hc : c = .find ∨ c = .findOne)
    (h : (call c a).perform s = (.ok answer, s')) :
    ∀ r ∈ answer.refs, ∃ row, s'.1.records[r.place]? = some (.ofRow row) := by
  have hcollect {rows : List Value} {answer : Answer} {s₁ : Model × Session}
      (h : (collect rows).perform s₁ = (.ok answer, s')) :
      ∀ r ∈ answer.refs, ∃ row, s'.1.records[r.place]? = some (.ofRow row) := by
    obtain ⟨m, s₂, -, h⟩ := bind_ok h
    split at h
    · rw [perform_map] at h
      rcases hrows : (rows.mapM recordOfRow : Run _).perform s₂ with ⟨f | rs, s₃⟩ <;>
        rw [hrows] at h <;> cases h
      exact mapM_recordOfRow_ok hrows
    · obtain ⟨values, s₃, -, h⟩ := bind_ok h
      cases h
      exact fun r hr => nomatch hr
  have hfindWith {query : List (Value × Value)} {b : Bound} {answer : Answer} {s₁ : Model × Session}
      (h : (findWith query b).perform s₁ = (.ok answer, s')) :
      ∀ r ∈ answer.refs, ∃ row, s'.1.records[r.place]? = some (.ofRow row) := by
    obtain ⟨o, s₂, -, h⟩ := bind_ok h
    obtain ⟨options, s₃, -, h⟩ := bind_ok h
    obtain ⟨made, s₄, -, h⟩ := bind_ok h
    split at h
    · cases h
      exact fun r hr => nomatch hr
    · split at h
      · cases h
        exact fun r hr => nomatch hr
      · exact hcollect h
  obtain ⟨b, s₁, -, h⟩ := bind_ok h
  rcases hc with rfl | rfl
  · obtain ⟨query, s₂, -, h⟩ := bind_ok h
    exact hfindWith h
  · obtain ⟨query, s₂, -, h⟩ := bind_ok h
    rw [perform_map] at h
    generalize Value.insertEntry (.text Query.limitKey) (.int 1) query = limited at h
    rcases hfound : (findWith limited b).perform s₂ with ⟨f | found, s₃⟩ <;>
      rw [hfound] at h <;> cases h
    intro r hr
    refine hfindWith hfound r ?_
    -- the first of the records that were found is one of them
    cases found with
    | records rs =>
      cases rs with
      | nil => cases hr
      | cons r' rs => exact List.mem_singleton.1 hr ▸ List.mem_cons_self
    | value v =>
      cases v with
      | list xs => cases xs <;> cases hr
      | _ => cases hr
    | _ => exact hr

end Model

/-! ## The life of a record -/

namespace Record

/-- Everything that may happen to a record from its making on, with its deeds. It is made of values
or found by a selection; then it is called, other records are called or the model is, and the calls
may end well or not. In between everything may change but the table and the records of the model. -/
inductive Life (r : RecordRef) : Table → Record → List Deed → Model × Session → Prop
  | made {a s s'} (h : (Model.call .new a).perform s = (.ok (.record r), s')) :
    Life r s.1.table {} (a.newDeeds s.1.table) s'
  | found {c a answer s s' first} (hc : c = .find ∨ c = .findOne)
    (h : (Model.call c a).perform s = (.ok answer, s')) (hr : r ∈ answer.refs)
    (hfirst : s'.1.records[r.place]? = some first) : Life r s.1.table first [] s'
  | called {t first ds s} (h : Life r t first ds s) (c : RecordCall) (a : Arguments) :
    Life r t first (ds ++ c.deeds t a ((r.call c a).perform s).1) ((r.call c a).perform s).2
  | other {t first ds s} (h : Life r t first ds s) {r'} (hne : r' ≠ r) (c : RecordCall)
    (a : Arguments) : Life r t first ds ((r'.call c a).perform s).2
  | model {t first ds s} (h : Life r t first ds s) (c : ModelCall) (a : Arguments) :
    Life r t first ds ((Model.call c a).perform s).2
  | meanwhile {t first ds s s'} (h : Life r t first ds s) (htable : s'.1.table = s.1.table)
    (hrecords : s'.1.records = s.1.records) : Life r t first ds s'

/-- What is assigned is a declared field. -/
theorem declared_of_assignments {t : Table} {name : String} {value : Value} :
    ∀ {es : List (Value × Value)}, .assigned name value ∈ assignments t es →
      ∃ f ∈ t.fields, f.name = name
  | [], h => nomatch h
  | (key, x) :: es, h => by
    unfold assignments at h
    cases hf : field? t key with
    | none =>
      rw [hf] at h
      cases h
    | some f =>
      rw [hf] at h
      rcases List.mem_cons.1 h with h | h
      · cases h
        obtain ⟨-, hfound⟩ := eq_of_field? hf
        exact ⟨f, List.mem_of_find?_eq_some hfound, rfl⟩
      · exact declared_of_assignments h

theorem declared_of_deeds {t : Table} {c : RecordCall} {a : Arguments} {x : Except Failure Answer}
    {name : String} {value : Value} (h : .assigned name value ∈ c.deeds t a x) :
    ∃ f ∈ t.fields, f.name = name := by
  unfold RecordCall.deeds at h
  split at h
  · split at h
    · exact declared_of_assignments h
    · cases h
  · split at h
    · split at h
      · exact declared_of_assignments h
      · cases h
    · cases h
  · split at h
    · cases List.mem_singleton.1 h
    · cases h
  · cases h

namespace Life

variable {r : RecordRef} {t : Table} {first : Record} {ds : List Deed} {s : Model × Session}

/-- The record is what its deeds have made of it. -/
theorem stands (h : Life r t first ds s) :
    s.1.table = t ∧ s.1.records[r.place]? = some (first.afterAll ds) := by
  induction h with
  | made h =>
    obtain ⟨r', hr', htable, hrecord⟩ := Model.new_ok h
    cases hr'
    exact ⟨htable, hrecord⟩
  | @found c a answer s s' first hc h hr hfirst =>
    have hkeeps : Model.KeepsRecords s ((Model.call c a).perform s).2 := Model.keeps_call c a s
    rw [h] at hkeeps
    exact ⟨hkeeps.table, hfirst⟩
  | @called t first ds s h c a ih =>
    obtain ⟨rfl, hrecord⟩ := ih
    have hdone := Model.undergoes_call r c a s
    rw [afterAll_append]
    exact ⟨hdone.table, hdone.own _ hrecord⟩
  | @other t first ds s h r' hne c a ih =>
    obtain ⟨htable, hrecord⟩ := ih
    have hdone := Model.undergoes_call r' c a s
    have hplace : r.place ≠ r'.place := fun hplace => hne (congrArg RecordRef.mk hplace.symm)
    exact ⟨hdone.table.trans htable, hdone.others _ _ hplace hrecord⟩
  | @model t first ds s h c a ih =>
    obtain ⟨htable, hrecord⟩ := ih
    have hkeeps : Model.KeepsRecords s ((Model.call c a).perform s).2 := Model.keeps_call c a s
    exact ⟨hkeeps.table.trans htable, hkeeps.stays hrecord⟩
  | meanwhile h htable hrecords ih =>
    obtain ⟨htable', hrecord⟩ := ih
    exact ⟨htable.trans htable', hrecords ▸ hrecord⟩

/-- The record starts without modified names: without anything at all, or as a row of the store. -/
theorem first_eq (h : Life r t first ds s) : first = {} ∨ ∃ row, first = .ofRow row := by
  induction h with
  | made h => exact .inl rfl
  | found hc h hr hfirst =>
    obtain ⟨row, hrow⟩ := Model.find_ok hc h _ hr
    exact .inr ⟨row, Option.some.inj (hfirst.symm.trans hrow)⟩
  | called _ _ _ ih | other _ _ _ _ ih | model _ _ _ ih | meanwhile _ _ _ ih => exact ih

theorem declared (h : Life r t first ds s) {name : String} {value : Value}
    (hmem : .assigned name value ∈ ds) : ∃ f ∈ t.fields, f.name = name := by
  induction h with
  | made h =>
    unfold Arguments.newDeeds at hmem
    split at hmem
    · split at hmem
      · exact declared_of_assignments hmem
      · cases hmem
    · cases hmem
  | found => cases hmem
  | called h c a ih => exact (List.mem_append.1 hmem).elim ih declared_of_deeds
  | other _ _ _ _ ih | model _ _ _ ih | meanwhile _ _ _ ih => exact ih hmem

/-- In all its life a record tells the names that were assigned since it was saved, which are names
of declared fields, has its first values overlaid by those that were assigned, and counts as the
store's when it came from there or was saved. An assignment succeeds exactly when it is a deed. A
save that fails or asks for its statement only leaves the record as it is; and a save inserts the
values of the declared fields that are not virtual. -/
theorem tracks (h : Life r t first ds s) : ∃ record,
    s.1.records[r.place]? = some record ∧
    (∀ name, name ∈ record.modified ↔ Unsaved ds name) ∧
    record.values = ds.foldl Deed.overlay first.values ∧
    (∀ name ∈ record.modified, ∃ f ∈ t.fields, f.name = name) ∧
    (record.isPersisted = true ↔ first.isPersisted = true ∨ .saved ∈ ds) ∧
    (first = {} ∨ ∃ row, first = .ofRow row) ∧
    (∀ name value, ((r.assign name value).perform s).1.isOk = true ↔
      ∃ d, assignments t [(name, value)] = [d]) ∧
    (∀ a, ((r.call .save a).perform s).1.isOk = false ∨ a.asksStatement = true →
      ((r.call .save a).perform s).2.1.records[r.place]? = some record) ∧
    ∃ values, values.Sublist record.values ∧
      (∀ e, e ∈ values ↔ e ∈ record.values ∧
        ∃ f, t.field? f.name = some f ∧ e.1 = .text f.name ∧ f.isVirtual = false) ∧
      ∀ options, (r.save options).perform s =
        match (Model.call .insert ⟨[.map values], options⟩).perform s with
        | (.error f, s₁) => (.error f, s₁)
        | (.ok (.statement st), s₁) => (.ok (.statement st), s₁)
        | (.ok _, s₁) => (.ok (.record r), ((Model.replace r record.saved).perform s₁).2) := by
  obtain ⟨rfl, hrecord⟩ := h.stands
  have hclean : first.modified = [] := by
    rcases h.first_eq with rfl | ⟨row, rfl⟩ <;> rfl
  have hmodified := mem_modified_afterAll hclean ds
  refine ⟨first.afterAll ds, hrecord, hmodified, values_afterAll first ds, fun name hname => ?_,
    isPersisted_afterAll first ds, h.first_eq, fun name value => ?_, fun a hleaves => ?_,
    (first.afterAll ds).persistable s.1.table, List.filter_sublist, fun e => ?_, fun options => ?_⟩
  · obtain ⟨before, d, after, rfl, ⟨value, rfl⟩, -⟩ := (hmodified name).1 hname
    exact h.declared (List.mem_append_right before List.mem_cons_self)
  · unfold assignments
    cases hf : field? s.1.table name with
    | some f =>
      obtain ⟨s₁, hassign, -⟩ := Model.perform_assign_declared (r := r) hf value
      rw [hassign]
      exact iff_of_true rfl ⟨_, rfl⟩
    | none =>
      obtain ⟨e, s₁, hassign, -⟩ := Model.perform_assign_undeclared (r := r) hf value
      rw [hassign]
      exact iff_of_false nofun nofun
  · have hdone := (Model.undergoes_call r .save a s).own _ hrecord
    have hnone : RecordCall.deeds s.1.table .save a ((r.call .save a).perform s).1 = [] := by
      unfold RecordCall.deeds
      rcases hleaves with hfails | hasks
      · simp [hfails]
      · simp [hasks]
    rwa [hnone] at hdone
  · exact mem_persistable
  · rw [Model.perform_save, hrecord, Option.getD_some]
    generalize (first.afterAll ds).persistable s.1.table = values
    have hkeeps : Model.KeepsRecords s
        ((Model.call .insert ⟨[.map values], options⟩).perform s).2 := Model.keeps_call _ _ s
    rcases hinsert : (Model.call .insert ⟨[.map values], options⟩).perform s with ⟨f | answer, s₁⟩
    · rfl
    · rw [hinsert] at hkeeps
      -- the insertion leaves the record as it is, and so it is this one that counts as saved
      have hkept : s₁.1.records[r.place]? = some (first.afterAll ds) := hkeeps.stays hrecord
      cases answer with
      | statement st => rfl
      | _ => simp only [hkept, Option.getD_some]

/-! ### A record with a note -/

/-- People with a note that is no column. -/
def noted : Table where
  name := "people"
  fields := [{ name := "id", type := "int" }, { name := "name", type := "text" },
    { name := "note", type := "text", isVirtual := true }]
  partitionKey := ["id"]
  clusteringKey := []
  clusteringOrder := []
  indexes := []
  customIndexes := []
  views := []
  defaultTtl := none
  hooks := []

/-- The first record of a model. -/
def firstRef : RecordRef := ⟨0⟩

/-- The values that a record is made of. -/
def person : Arguments := ⟨[.map [(.text "id", .int 1), (.text "name", .text "ann")]], []⟩

/-- A record was made. -/
def born : Model × Session :=
  ((Model.call .new person).perform ({ table := noted, isReady := true }, {})).2

/-- The entries of an update that ends on its way. -/
def remarks : Arguments :=
  ⟨[.map [(.text "note", .text "x"), (.text "nope", .int 2), (.text "name", .text "eve")]], []⟩

/-- The note is set, and the store will fail. -/
def annotated : Model × Session :=
  (((firstRef.call .update remarks).perform born).2.1,
    { store := { failures := [some (.thrown .runtime "unreachable" .null)] } })

/-- A save has failed. -/
def failed : Model × Session := ((firstRef.call .save ⟨[], []⟩).perform annotated).2

/-- A save has answered its statement. -/
def asked : Model × Session :=
  ((firstRef.call .save ⟨[], [("return_query", .bool true)]⟩).perform failed).2

/-- A save was executed. -/
def stored : Model × Session := ((firstRef.call .save ⟨[], []⟩).perform asked).2

/-- The name is set again. -/
def renamed : Model × Session :=
  ((firstRef.call .set ⟨[.text "name", .text "bob"], []⟩).perform stored).2

/-- What is done to the record. -/
def notedDeeds : List Deed := [.assigned "id" (.int 1), .assigned "name" (.text "ann"),
  .assigned "note" (.text "x"), .saved, .assigned "name" (.text "bob")]

/-- The life of the record. -/
theorem life_renamed : Life firstRef noted {} notedDeeds renamed := by
  have hnew : (Model.call .new person).perform ({ table := noted, isReady := true }, {}) =
      (.ok (.record firstRef), born) := by with_unfolding_all rfl
  have hborn : Life firstRef noted {} (person.newDeeds noted) born := .made hnew
  have hannotated : Life firstRef noted {} _ annotated :=
    (hborn.called .update remarks).meanwhile rfl rfl
  have hfailed : Life firstRef noted {} _ failed := hannotated.called .save ⟨[], []⟩
  have hasked : Life firstRef noted {} _ asked :=
    hfailed.called .save ⟨[], [("return_query", .bool true)]⟩
  have hstored : Life firstRef noted {} _ stored := hasked.called .save ⟨[], []⟩
  have hrenamed : Life firstRef noted {} _ renamed :=
    hstored.called .set ⟨[.text "name", .text "bob"], []⟩
  have hfails : ((firstRef.call .save ⟨[], []⟩).perform annotated).1.isOk = false := by
    decide +kernel
  have hsaves : ((firstRef.call .save ⟨[], []⟩).perform asked).1.isOk = true := by
    decide +kernel
  have hpersonDeeds : person.newDeeds noted =
      [.assigned "id" (.int 1), .assigned "name" (.text "ann")] := by with_unfolding_all rfl
  have hremarksDeeds (x : Except Failure Answer) : RecordCall.update.deeds noted remarks x =
      [.assigned "note" (.text "x")] := by with_unfolding_all rfl
  have hnamingDeeds (x : Except Failure Answer) :
      RecordCall.set.deeds noted ⟨[.text "name", .text "bob"], []⟩ x =
        [.assigned "name" (.text "bob")] := by with_unfolding_all rfl
  have hsaveDeeds {a : Arguments} {x : Except Failure Answer} :
      RecordCall.save.deeds noted a x = if x.isOk && !a.asksStatement then [.saved] else [] := rfl
  have hasks : Arguments.asksStatement ⟨[], [("return_query", .bool true)]⟩ = true := rfl
  have hexecutes : Arguments.asksStatement ⟨[], []⟩ = false := rfl
  simpa [notedDeeds, hpersonDeeds, hremarksDeeds, hnamingDeeds, hsaveDeeds, hfails, hsaves,
    hasks, hexecutes] using hrenamed

/-- The save has taken the note out of what is modified, and the name was assigned after it. -/
theorem tracks_renamed : Life firstRef noted {} notedDeeds renamed ∧
    ∃ record, renamed.1.records[0]? = some record ∧ "name" ∈ record.modified ∧
      "note" ∉ record.modified ∧ record.isPersisted = true ∧
      record.values =
        [(.text "id", .int 1), (.text "name", .text "bob"), (.text "note", .text "x")] := by
  obtain ⟨record, hrecord, hmodified, hvalues, -, hpersisted, -⟩ := Life.tracks life_renamed
  have hlast : notedDeeds = notedDeeds.take 3 ++ [.saved] ++ [.assigned "name" (.text "bob")] := rfl
  have hunsaved (name : String) : Unsaved notedDeeds name ↔ "name" = name := by
    rw [hlast]
    unfold Unsaved
    rw [happenedSince_append_singleton, happenedSince_append_singleton]
    simp
  have hoverlaid : notedDeeds.foldl Deed.overlay [] = [(.text "id", .int 1),
      (.text "name", .text "bob"), (.text "note", .text "x")] := by with_unfolding_all rfl
  exact ⟨life_renamed, record, hrecord, (hmodified _).2 ((hunsaved _).2 rfl),
    fun hnote => absurd ((hunsaved _).1 ((hmodified _).1 hnote)) (by decide),
    hpersisted.2 (.inr (by simp [notedDeeds])), hvalues.trans hoverlaid⟩

end Life

end Record

end WideColumn
