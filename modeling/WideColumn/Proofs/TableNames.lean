import WideColumn.Proofs.Alignment
import WideColumn.Proofs.Convergence
import WideColumn.Proofs.SelectList
import WideColumn.Proofs.Sent

/-!
# The names of a table and its views in its statements

A table is looked up under the name it was registered under. A statement has quoted names in a few
places (`Statement.sites`): what stands there are the names that were given, as they are written
(`Operation.compile_sites`), and a migration gives the name of the table and the names of the
declared views (`Migration.plan_isFor`). A name that passes the check of registration may end in a
line end, which is not written. So a table and its views are in the store under the names that they
were registered under exactly when none of these ends in a line end, and two tables are one in the
store exactly when their names are one but for a line end.
-/

namespace WideColumn

/-! ## Names with a line end -/

namespace Name

/-- From the first character to the last, the name is a letter followed by letters, digits and low
lines. -/
def IsWhole (name : String) : Prop := startsWith isLetter name.toList = true

/-- The last character is a line end. -/
def EndsLine (name : String) : Prop := name.toList.getLast? = some '\n'

instance (name : String) : Decidable (IsWhole name) := inferInstanceAs (Decidable (_ = _))

instance (name : String) : Decidable (EndsLine name) := inferInstanceAs (Decidable (_ = _))

variable {name other : String}

theorem IsWhole.not_endsLine (h : IsWhole name) : ¬ EndsLine name := by
  intro hend
  have hinner := isInner_of_startsWith (fun c hc => by simp [isInner, hc]) h
  exact isInner_ne_newline (hinner _ (List.mem_of_getLast? hend)) rfl

theorem IsWhole.isTable (h : IsWhole name) : isTable name = true := by
  unfold Name.isTable
  rw [show withoutFinalNewline name.toList = name.toList from if_neg h.not_endsLine]
  exact h

theorem isWhole_iff (h : isTable name = true) : IsWhole name ↔ ¬ EndsLine name := by
  refine ⟨IsWhole.not_endsLine, fun hend => ?_⟩
  unfold isTable at h
  rwa [show withoutFinalNewline name.toList = name.toList from if_neg hend] at h

/-- The name of a table or view that does not end in a line end is written as it is. -/
theorem spelled_of_not_endsLine (h : isTable name = true) (hend : ¬ EndsLine name) :
    spelled name = name := by
  unfold EndsLine at hend
  unfold spelled
  rw [clean_of_isTable h, withoutFinalNewline, if_neg hend, String.ofList_toList]

/-- One that ends in a line end is written without it. -/
theorem eq_spelled_newline (h : isTable name = true) (hend : EndsLine name) :
    name = spelled name ++ "\n" := by
  refine String.toList_injective ?_
  unfold EndsLine at hend
  unfold spelled
  rw [clean_of_isTable h, withoutFinalNewline, if_pos hend, String.toList_append,
    String.toList_ofList]
  exact (List.dropLast_append_getLast? _ hend).symm

theorem spelled_eq_iff (h : isTable name = true) : spelled name = name ↔ ¬ EndsLine name := by
  refine ⟨fun hspelled hend => ?_, spelled_of_not_endsLine h⟩
  have hlength := congrArg String.length (eq_spelled_newline h hend)
  rw [hspelled, String.length_append, show "\n".length = 1 from rfl] at hlength
  omega

/-- A name that is another one and a line end is written as that one, which is written as it is. -/
theorem spelled_newline (h : isTable (name ++ "\n") = true) :
    spelled (name ++ "\n") = spelled name := by
  have hchars : withoutFinalNewline (name ++ "\n").toList = name.toList := by
    unfold withoutFinalNewline
    rw [String.toList_append]
    exact (if_pos List.getLast?_concat).trans List.dropLast_concat
  have hwhole : IsWhole name := by
    unfold isTable at h
    rwa [hchars] at h
  rw [spelled_of_not_endsLine hwhole.isTable hwhole.not_endsLine, spelled, clean_of_isTable h,
    hchars, String.ofList_toList]

/-- A name that is written as another one is that one, but for a line end at the end of one of the
two. -/
theorem spelled_eq_spelled_iff (h : isTable name = true) (hother : isTable other = true) :
    spelled name = spelled other ↔ name = other ∨ name = other ++ "\n" ∨ other = name ++ "\n" := by
  constructor
  · intro heq
    by_cases hend : EndsLine name <;> by_cases hend' : EndsLine other
    · left
      rw [eq_spelled_newline h hend, heq, ← eq_spelled_newline hother hend']
    · right; left
      rw [← spelled_of_not_endsLine hother hend', ← heq, ← eq_spelled_newline h hend]
    · right; right
      rw [← spelled_of_not_endsLine h hend, heq, ← eq_spelled_newline hother hend']
    · left
      rw [← spelled_of_not_endsLine h hend, heq, spelled_of_not_endsLine hother hend']
  · rintro (rfl | rfl | rfl)
    · rfl
    · exact spelled_newline h
    · exact (spelled_newline hother).symm

end Name

/-! ## The places of names in statements -/

/-- A place in a statement where a table or a view is named, with the text since the place before
it. -/
structure Site where
  lead : String
  name : Identifier

/-- A statement as far as its last place. -/
def Site.textOf : List Site → String
  | [] => ""
  | site :: sites => site.lead ++ site.name.quoted ++ textOf sites

namespace Ddl

/-- The places where a definition names tables and views. -/
def sites : Ddl Identifier → List Site
  | createTable table _ _ => [⟨"CREATE TABLE IF NOT EXISTS ", table⟩]
  | dropTable table ifExists => [⟨"DROP TABLE" ++ ifExistsText ifExists ++ " ", table⟩]
  | addColumn table _ _ _ | dropColumn table _ | retypeColumn table _ _ => [⟨"ALTER TABLE ", table⟩]
  | createIndex table _ => [⟨"CREATE INDEX IF NOT EXISTS ON ", table⟩]
  | createCustomIndex table _ _ _ => [⟨"CREATE CUSTOM INDEX IF NOT EXISTS ON ", table⟩]
  | dropIndex _ _ => []
  | createView view table select _ => [
    ⟨"CREATE MATERIALIZED VIEW IF NOT EXISTS ", view⟩,
    ⟨" AS SELECT " ++ selectText select ++ " FROM ", table⟩]
  | dropView view ifExists => [⟨"DROP MATERIALIZED VIEW" ++ ifExistsText ifExists ++ " ", view⟩]

theorem render_sites (d : Ddl Identifier) : ∃ rest, d.render = Site.textOf d.sites ++ rest := by
  cases d with
  | dropIndex name ifExists => exact ⟨_, String.empty_append.symm⟩
  | _ =>
    unfold render sites
    simp only [Site.textOf, String.append_empty, String.append_assoc]
    exact ⟨_, rfl⟩

end Ddl

namespace Statement

/-- The places where a statement names tables and views. -/
def sites : Statement → List Site
  | select s => [⟨"SELECT " ++ (if s.isDistinct then "DISTINCT " else "") ++
      Projection.renderAll s.items ++ " FROM ", s.source⟩]
  | insert s => [⟨"INSERT INTO ", s.table⟩]
  | update s => [⟨"UPDATE ", s.table⟩]
  | delete s => [⟨"DELETE FROM ", s.table⟩]
  | truncate table => [⟨"TRUNCATE TABLE ", table⟩]
  | define d => d.sites

/-- A statement begins with what stands before its places and with the names there. -/
theorem render_sites (st : Statement) : ∃ rest, st.render = Site.textOf st.sites ++ rest := by
  unfold render sites
  cases st with
  | define d => exact d.render_sites
  | select s =>
    unfold SelectStatement.render
    simp only [Site.textOf, String.append_empty, String.append_assoc]
    exact ⟨_, rfl⟩
  | insert s =>
    unfold InsertStatement.render
    simp only [Site.textOf, String.append_empty, String.append_assoc]
    exact ⟨_, rfl⟩
  | update s =>
    unfold UpdateStatement.render
    simp only [Site.textOf, String.append_empty, String.append_assoc]
    exact ⟨_, rfl⟩
  | delete s =>
    unfold DeleteStatement.render
    simp only [Site.textOf, String.append_empty, String.append_assoc]
    exact ⟨_, rfl⟩
  | truncate table => exact ⟨";", by rw [Site.textOf, Site.textOf, String.append_empty]⟩

/-- The statement has names at its places, one after the other. -/
def Names (st : Statement) (names : List String) : Prop :=
  (∃ rest, st.render = Site.textOf st.sites ++ rest) ∧
    st.sites.map (fun site => site.name.text) = names

theorem names_iff {st : Statement} {names : List String} :
    st.Names names ↔ st.sites.map (fun site => site.name.text) = names :=
  and_iff_right st.render_sites

end Statement

/-! ## The names that operations give -/

namespace Compile

theorem definition_accept {d : Ddl String} {p : Prepared} {s s' : Session}
    (h : (definition d).perform s = (.ok p, s')) :
    ∃ d', d.accept = .ok d' ∧ p.statement = .define d' := by
  obtain ⟨d', _, hd', h⟩ := Action.bind_ok h
  cases h
  exact ⟨d', (Action.lift_ok hd').1, rfl⟩

end Compile

namespace Operation

open Compile

/-- The tables and views that an operation names, in the order of its statement. -/
def targets : Operation → List String
  | select o => [o.target]
  | insert o => [o.table]
  | update o => [o.table]
  | delete o => [o.table]
  | truncate o => [o.table]
  | createTable o => [o.table]
  | dropTable o => [o.table]
  | alterTable o => [o.table]
  | createIndex o => [o.table]
  | createCustomIndex o => [o.table]
  | dropIndex _ => []
  | createView o => [o.view, o.table]
  | dropView o => [o.view]

variable {t : Table} {o : Operation} {p : Prepared} {s s' : Session}

/-- At the places of its statement stand the names that the operation gives, as they are
accepted. -/
theorem compile_sites (h : (o.compile t).perform s = (.ok p, s')) :
    List.Forall₂ (fun name (site : Site) => Identifier.ofText name = .ok site.name) o.targets
      p.statement.sites := by
  cases o with
  | select o =>
    obtain ⟨statement, _, hstatement, h⟩ := Action.bind_ok h
    cases h
    exact .cons (selection_head hstatement).2 .nil
  | insert o =>
    obtain ⟨i, hi, -, htable, -⟩ := insertion_ok h
    exact hi ▸ .cons htable .nil
  | update o =>
    obtain ⟨u, hu, -, -, -, htable, -⟩ := modification_ok h
    exact hu ▸ .cons htable .nil
  | delete o =>
    obtain ⟨d, hd, -, htable, -⟩ := deletion_ok h
    exact hd ▸ .cons htable .nil
  | truncate o =>
    obtain ⟨table, _, htable, h⟩ := Action.bind_ok h
    cases h
    exact .cons (Action.lift_ok htable).1 .nil
  | createTable o =>
    obtain ⟨d, hd, hp⟩ := definition_accept h
    obtain ⟨i, _, _, hi, -, -, rfl⟩ := Ddl.accept_createTable hd
    exact hp ▸ .cons hi .nil
  | dropTable o =>
    obtain ⟨d, hd, hp⟩ := definition_accept h
    obtain ⟨i, hi, rfl⟩ := Ddl.accept_dropTable hd
    exact hp ▸ .cons hi .nil
  | alterTable o =>
    obtain ⟨d, hd, hp⟩ := definition_accept h
    unfold ColumnChange.ddl at hd
    split at hd
    · obtain ⟨i, _, hi, -, rfl⟩ := Ddl.accept_addColumn hd
      exact hp ▸ .cons hi .nil
    · obtain ⟨i, _, hi, -, rfl⟩ := Ddl.accept_dropColumn hd
      exact hp ▸ .cons hi .nil
    · obtain ⟨i, _, hi, -, rfl⟩ := Ddl.accept_retypeColumn hd
      exact hp ▸ .cons hi .nil
  | createIndex o =>
    obtain ⟨ddl, _, hddl, h⟩ := Action.bind_ok h
    have hddl := (Action.lift_ok hddl).1
    obtain ⟨d, hd, hp⟩ := definition_accept h
    unfold IndexCreation.ddl at hddl
    split at hddl
    · cases hddl
      obtain ⟨i, hi, rfl⟩ := Ddl.accept_createIndex hd
      exact hp ▸ .cons hi .nil
    · cases hddl
  | createCustomIndex o =>
    obtain ⟨d, hd, hp⟩ := definition_accept h
    obtain ⟨i, _, hi, -, rfl⟩ := Ddl.accept_createCustomIndex hd
    exact hp ▸ .cons hi .nil
  | dropIndex o =>
    obtain ⟨d, hd, hp⟩ := definition_accept h
    obtain ⟨i, -, rfl⟩ := Ddl.accept_dropIndex hd
    exact hp ▸ .nil
  | createView o =>
    obtain ⟨d, hd, hp⟩ := definition_accept h
    obtain ⟨v, i, _, _, hv, hi, -, -, rfl⟩ := Ddl.accept_createView hd
    exact hp ▸ .cons hv (.cons hi .nil)
  | dropView o =>
    obtain ⟨d, hd, hp⟩ := definition_accept h
    obtain ⟨v, hv, rfl⟩ := Ddl.accept_dropView hd
    exact hp ▸ .cons hv .nil

/-- So the statement has the names as they are written. -/
theorem compile_names (h : (o.compile t).perform s = (.ok p, s')) :
    p.statement.Names (o.targets.map Name.spelled) := by
  have hsites := compile_sites h
  rw [Statement.names_iff]
  generalize p.statement.sites = sites at hsites
  generalize o.targets = targets at hsites
  induction hsites with
  | nil => rfl
  | cons hname _ ih => rw [List.map_cons, List.map_cons, Identifier.ofText_text hname, ih]

/-- The rows of a table whose name is accepted can be removed. -/
theorem compile_truncation {name : String} {i : Identifier} (hi : Identifier.ofText name = .ok i)
    (s : Session) :
    ((truncate ⟨name⟩).compile t).perform s = (.ok ⟨.truncate i, none, none⟩, s) := by
  change Action.perform (do
    return Prepared.mk (.truncate (← Identifier.accept name)) none none) s = _
  unfold Identifier.accept
  rw [hi]
  rfl

end Operation

/-! ## The name under which the live table is looked up -/

namespace Session

variable {s s' : Session}

/-- From one session to the other no live table was looked up. -/
def LooksNothingUp (s s' : Session) : Prop := s'.consulted = s.consulted

/-- From one session to the other the live table of a name was looked up, and nothing else. -/
def LooksUp (name : String) (s s' : Session) : Prop := s'.consulted = name :: s.consulted

/-- Of what was sent from one session to the other, the statement was the first. -/
def SentFirst (c : Call) (s s' : Session) : Prop :=
  ∃ later, s'.store.sent = later ++ c :: s.store.sent

instance : IsPreorder Session LooksNothingUp where
  refl _ := rfl
  trans _ _ _ h h' := h'.trans h

theorem frames_looksUp (name : String) : Frames (LooksUp name) LooksNothingUp where
  still h := h.consulted
  before hstill h := by
    unfold LooksUp at h ⊢
    rw [h, hstill.consulted]
  after h h' := h'.trans h

theorem frames_sentFirst (c : Call) : Frames (SentFirst c) (Sent fun _ => True) where
  still := Still.sent
  before := by
    rintro s s₁ s₂ hstill ⟨later, h⟩
    exact ⟨later, by rw [h, hstill.store]⟩
  after := by
    rintro s s₁ s₂ ⟨later, h⟩ ⟨calls, -, h'⟩
    exact ⟨calls ++ later, by rw [h', h, List.append_assoc]⟩

theorem Sent.any {p : Call → Prop} : s.Sent p s' → s.Sent (fun _ => True) s'
  | ⟨calls, _, h⟩ => ⟨calls, fun _ _ => trivial, h⟩

end Session

namespace Migration

open Session

theorem perform_looksNothingUp {a : Approver} {table : String} (moves : List Move) :
    Within LooksNothingUp (perform a table moves) := by
  refine perform_within (fun _ _ => Still.consulted) (fun prompt => ?_) (fun d => ?_) moves
  · cases a with
    | automatic => exact .bind (.imp (.note _ _ _ _ _) fun _ _ => Still.consulted) fun _ => .pure _
    | operator => exact fun _ => rfl
  · exact (Store.run_sendsOnly (p := fun _ => True) trivial).imp fun _ _ => SendsOnly.consulted

/-- A synchronization looks up the live table of the declared name, once. -/
theorem sync_looksUp (settings : Settings) (answer : Except Failure (Option LiveTable))
    (t : Table) : Within (LooksUp t.name) (sync settings (.given answer) t) := by
  have hframes := frames_looksUp t.name
  have hfetch : Within (LooksUp t.name) ((LiveSource.given answer).fetch t.name) :=
    .leave hframes (fun _ => rfl) fun _ => .imp (.lift _) fun _ _ => Still.consulted
  exact sync_frames hframes hfetch perform_looksNothingUp

/-- The query for the columns of a table. -/
def columnsQuery (keyspace : Value) (table : String) : Call :=
  ⟨SystemTable.columns.query, [keyspace, .text table], .definition⟩

/-- A synchronization with the store first asks it for the columns of the table of the declared
name. -/
theorem sync_sentFirst (settings : Settings) (keyspace : Value) (t : Table) :
    Within (SentFirst (columnsQuery keyspace t.name)) (sync settings (.keyspace keyspace) t) := by
  have hframes := frames_sentFirst (columnsQuery keyspace t.name)
  have hrun : Within (SentFirst (columnsQuery keyspace t.name))
      (Store.run SystemTable.columns.query [keyspace, .text t.name] .definition) :=
    fun s => ⟨[], congrArg Store.sent (Store.run_aside _ _ _ s).toStill.store⟩
  have hread : Within (SentFirst (columnsQuery keyspace t.name))
      (Introspection.read keyspace t.name) :=
    Introspection.read_frames hframes (Introspection.query_frames hframes hrun)
      fun _ _ => (Introspection.query_sent _ _).imp fun _ _ => Sent.any
  have hfetch : Within (SentFirst (columnsQuery keyspace t.name))
      ((LiveSource.keyspace keyspace).fetch t.name) :=
    .leave hframes (.tracedOutcome hframes _ _ (.leave hframes hread fun _ => .pure _))
      fun _ => .pure _
  exact sync_frames hframes hfetch fun moves => (perform_sent moves).imp fun _ _ => Sent.any

/-- The watch that allows the definitions of a table. -/
def ofTable (t : Table) : Watch Unit where
  onAsk _ _ := ()
  allows _ d := d.IsFor t
  onSend _ _ := ()

/-- The statements of a plan are definitions of its table. -/
theorem plan_isFor {t : Table} {policy : Policy} {live : Option LiveTable} {step : Step}
    (h : .send step ∈ (plan t policy live).moves) : step.statement.IsFor t := by
  have hpreserves : (ofTable t).Preserves t fun _ => True :=
    ⟨fun _ _ _ => ⟨trivial, trivial⟩, fun _ _ _ hd => ⟨hd, trivial⟩⟩
  exact ((hpreserves.plan policy live trivial).1.of_mem h (s := ())).choose_spec

end Migration

/-! ## Registered names -/

namespace Table

/-- The names under which a table and its views are registered. -/
def ownNames (t : Table) : List String := t.name :: Keyed.names t.views

/-- Statements have the names of the table and its views as these are registered: the statement of
an operation on them names what the operation does, and a statement of a migration names declared
views and then the table. Indexes and views are dropped under the names that the live table has for
them. -/
structure WritesNames (t : Table) : Prop where
  operation : ∀ {o : Operation} {p : Prepared} {s s' : Session},
    (∀ name ∈ o.targets, name ∈ t.ownNames) → (o.compile t).perform s = (.ok p, s') →
      p.statement.Names o.targets
  migration : ∀ {policy live step}, .send step ∈ (Migration.plan t policy live).moves →
    step.statement.kind ≠ .dropView → step.statement.kind ≠ .dropIndex →
      ∃ views, (∀ name ∈ views, name ∈ Keyed.names t.views) ∧
        (Statement.define step.statement).Names (views ++ [t.name])

/-- The live table is looked up under a name: a source is asked for it once, and the store for the
columns of the table of that name before anything else. -/
structure LooksUp (t : Table) (name : String) : Prop where
  given : ∀ settings answer s,
    ((Migration.sync settings (.given answer) t).perform s).2.consulted = name :: s.consulted
  keyspace : ∀ settings keyspace s, ∃ later,
    ((Migration.sync settings (.keyspace keyspace) t).perform s).2.store.sent =
      later ++ ⟨SystemTable.columns.query, [keyspace, .text name], .definition⟩ :: s.store.sent

/-- Some operation on the table alone has a statement that names it so. -/
def Addresses (t : Table) (name : String) : Prop :=
  ∃ (o : Operation) (p : Prepared) (s s' : Session), o.targets = [t.name] ∧
    (o.compile t).perform s = (.ok p, s') ∧ p.statement.Names [name]

variable {t u : Table}

theorem looksUp (t : Table) : t.LooksUp t.name where
  given settings answer s := (Migration.sync_looksUp settings answer t).perform s
  keyspace settings keyspace s := (Migration.sync_sentFirst settings keyspace t).perform s

namespace WellFormed

theorem isTable (h : t.WellFormed) : ∀ name ∈ t.ownNames, Name.isTable name = true := by
  intro name hname
  rcases List.mem_cons.1 hname with rfl | hname
  · exact h.name.1
  · obtain ⟨e, he, rfl⟩ := List.mem_map.1 hname
    exact (h.view e he).name

/-- The name of a table passes the check of operations, too. -/
theorem tableName (h : t.WellFormed) : Member.tableName (.text t.name) = .ok t.name := by
  obtain ⟨hname, hlength⟩ := h.name
  have hsome : ¬ t.name.length < 1 := by
    intro hempty
    have hnil : t.name = "" := String.length_eq_zero_iff.1 (Nat.lt_one_iff.1 hempty)
    rw [hnil] at hname
    cases hname
  have hwithin : Coercion.textWithin 1 (some Name.maxLength) (.text t.name) = .ok t.name := by
    change (if _ then _ else if _ then _ else _) = _
    rw [if_neg hsome, if_neg (Nat.not_lt.2 hlength)]
  unfold Member.tableName
  rw [hwithin]
  exact if_pos hname

/-- Every operation on the table names it as it is written, and there is one. -/
theorem addresses_iff (h : t.WellFormed) {name : String} :
    t.Addresses name ↔ name = Name.spelled t.name := by
  constructor
  · rintro ⟨o, p, s, s', htargets, hp, hnames⟩
    have hwritten := Operation.compile_names hp
    rw [htargets] at hwritten
    exact List.head_eq_of_cons_eq (hnames.2.symm.trans hwritten.2)
  · rintro rfl
    obtain ⟨i, hi⟩ := Name.accepts_table h.name.1
    have hp := Operation.compile_truncation (t := t) hi {}
    exact ⟨_, _, _, _, rfl, hp, Operation.compile_names hp⟩

/-- Two tables are one to the store exactly when their names are one but for a line end. -/
theorem addresses_common_iff (h : t.WellFormed) (hu : u.WellFormed) :
    (∃ name, t.Addresses name ∧ u.Addresses name) ↔
      t.name = u.name ∨ t.name = u.name ++ "\n" ∨ u.name = t.name ++ "\n" := by
  simp only [h.addresses_iff, hu.addresses_iff, exists_eq_left]
  exact Name.spelled_eq_spelled_iff h.name.1 hu.name.1

/-- What a migration sends has the names of declared views and of the table, as they are written. -/
theorem names_of_isFor (h : t.WellFormed) (hend : ∀ name ∈ t.ownNames, ¬ Name.EndsLine name)
    {d : Ddl Identifier} (hd : d.IsFor t) (hview : d.kind ≠ .dropView)
    (hindex : d.kind ≠ .dropIndex) :
    ∃ views, (∀ name ∈ views, name ∈ Keyed.names t.views) ∧
      (Statement.define d).Names (views ++ [t.name]) := by
  have hwritten {name : String} {i : Identifier} (hname : name ∈ t.ownNames)
      (hi : Identifier.ofText name = .ok i) : i.text = name := by
    rw [Identifier.ofText_text hi]
    exact Name.spelled_of_not_endsLine (h.isTable name hname) (hend name hname)
  simp only [Statement.names_iff]
  cases d with
  | dropIndex => exact absurd rfl hindex
  | dropView => exact absurd rfl hview
  | createView view table select key =>
    obtain ⟨htable, name, hname, -, hi⟩ := hd
    have hview := hwritten (List.mem_cons_of_mem _ hname) hi
    have htable := hwritten List.mem_cons_self htable
    exact ⟨[name], fun n hn => List.mem_singleton.1 hn ▸ hname,
      congrArg₂ (fun x y => [x, y]) hview htable⟩
  | _ =>
    have htable := hwritten List.mem_cons_self hd
    exact ⟨[], fun _ hn => (nomatch hn), congrArg (fun x => [x]) htable⟩

/-- Statements have the names as these are registered exactly when none of them ends in a line
end. -/
theorem writesNames_iff (h : t.WellFormed) :
    t.WritesNames ↔ ∀ name ∈ t.ownNames, ¬ Name.EndsLine name := by
  have hspelled : ∀ name ∈ t.ownNames, (Name.spelled name = name ↔ ¬ Name.EndsLine name) :=
    fun name hname => Name.spelled_eq_iff (h.isTable name hname)
  constructor
  · intro hwrites name hname
    rw [← hspelled name hname]
    -- removing all rows is an operation for which any of the names will do
    obtain ⟨i, hi⟩ := Name.accepts_table (h.isTable name hname)
    have hp := Operation.compile_truncation (t := t) hi {}
    have hown : ∀ n ∈ (Operation.truncate ⟨name⟩).targets, n ∈ t.ownNames :=
      fun n hn => List.mem_singleton.1 hn ▸ hname
    have hnames := hwrites.operation hown hp
    exact List.head_eq_of_cons_eq ((Operation.compile_names hp).2.symm.trans hnames.2)
  · intro hend
    refine ⟨fun {o} _ _ _ hown hp => ?_,
      fun hstep => h.names_of_isFor hend (Migration.plan_isFor hstep)⟩
    have hsame : o.targets.map Name.spelled = o.targets := by
      refine (List.map_congr_left fun name hname => ?_).trans (List.map_id _)
      exact (hspelled name (hown name hname)).2 (hend name (hown name hname))
    exact hsame ▸ Operation.compile_names hp

end WellFormed

/-- A table is registered under the name that is given, which has no more characters than a name
may have, passes the check of operations and is the one under which the live table is looked up. Its
name and those of its views are names from the first character to the last, and statements have
these names, exactly when they do not end in a line end; and two tables are one to the store exactly
when their names are one but for a line end. -/
theorem ofDefinition_writesNames_iff {name definition : Value}
    (h : ofDefinition name definition = .ok t) :
    (name = .text t.name ∧ t.name.length ≤ Name.maxLength ∧
      Member.tableName (.text t.name) = .ok t.name ∧ t.LooksUp t.name) ∧
    (∀ own ∈ t.ownNames, Name.IsWhole own ↔ ¬ Name.EndsLine own) ∧
    (t.WritesNames ↔ ∀ own ∈ t.ownNames, ¬ Name.EndsLine own) ∧
    ∀ {name' definition' : Value} {u : Table}, ofDefinition name' definition' = .ok u →
      ((∃ own, t.Addresses own ∧ u.Addresses own) ↔
        t.name = u.name ∨ t.name = u.name ++ "\n" ∨ u.name = t.name ++ "\n") := by
  have hwell := Registered.wellFormed (.inl ⟨name, definition, h⟩)
  obtain ⟨table, es, d, rfl, -, hreads, hregister⟩ := ofDefinition_ok h
  have hname : t.name = table := (TableDraft.register_ok hregister).2.1.trans hreads.name
  refine ⟨⟨by rw [hname], hwell.name.2, hwell.tableName, t.looksUp⟩,
    fun own hown => Name.isWhole_iff (hwell.isTable own hown), hwell.writesNames_iff, fun hu => ?_⟩
  exact hwell.addresses_common_iff (Registered.wellFormed (.inl ⟨_, _, hu⟩))

open Migration

/-- Users with a view are in the store under the names that they are registered under. -/
theorem writesNames_viewed :
    ofDefinition (.text "users") viewedDefinition = .ok viewed ∧ viewed.LooksUp "users" ∧
      viewed.ownNames = ["users", "by_name"] ∧ viewed.WritesNames := by
  have hregistered : ofDefinition (.text "users") viewedDefinition = .ok viewed := by
    with_unfolding_all rfl
  obtain ⟨⟨-, -, -, hlooksUp⟩, -, hwrites, -⟩ := ofDefinition_writesNames_iff hregistered
  exact ⟨hregistered, hlooksUp, rfl, hwrites.2 (by decide)⟩

/-- Users with a name, registered under a name that ends in a line end. -/
def lineEndUsers : Table := { namedUsers with name := "users\n" }

/-- The live table is looked up under the name with the line end, while statements name the table
without it, as they name the table that is registered so. -/
theorem not_writesNames_lineEndUsers :
    ofDefinition (.text "users\n") namedUsersDefinition = .ok lineEndUsers ∧
    ofDefinition (.text "users") namedUsersDefinition = .ok namedUsers ∧
    ¬ Name.IsWhole lineEndUsers.name ∧ lineEndUsers.LooksUp "users\n" ∧
    (((Operation.truncate ⟨"users\n"⟩).compile lineEndUsers).perform {}).1.toOption.map
      (fun p => p.statement.render) = some "TRUNCATE TABLE \"users\";" ∧
    ¬ lineEndUsers.WritesNames ∧ lineEndUsers.Addresses "users" ∧ namedUsers.Addresses "users" := by
  have hlineEnd : ofDefinition (.text "users\n") namedUsersDefinition = .ok lineEndUsers := by
    with_unfolding_all rfl
  have hplain : ofDefinition (.text "users") namedUsersDefinition = .ok namedUsers := by
    with_unfolding_all rfl
  have hwell := Registered.wellFormed (.inl ⟨_, _, hlineEnd⟩)
  refine ⟨hlineEnd, hplain, by decide, looksUp _, by decide +kernel, fun hwrites => ?_,
    hwell.addresses_iff.2 (by decide),
    (Registered.wellFormed (.inl ⟨_, _, hplain⟩)).addresses_iff.2 (by decide)⟩
  exact absurd (hwell.writesNames_iff.1 hwrites) (by decide)

end Table

end WideColumn
