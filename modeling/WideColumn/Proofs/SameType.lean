import WideColumn.Proofs.Canonical
import WideColumn.Proofs.Registration
import WideColumn.Proofs.Sending

/-!
# One type in both statements

A column gets its type in one of two statements: the creation of its table writes the type as it was
declared, and its addition to a table that is there writes the canonical form, by which types are
compared. `ColumnType.meaning` is what the store takes a type text for. Both texts mean the same
exactly when the declared argument has no double quotes, which the canonical form leaves out, and
does not run into the name of the type (`Migration.same_type_iff`); an argument in angle brackets
never does.
-/

namespace WideColumn

/-! ## What a type text means -/

namespace ColumnType

/-- A type text without quotes as the store takes it: blanks and case removed, other spellings of
types replaced. -/
def plain (cs : List Char) : List Char :=
  replaceWord false (Text.lowerFrom [] (cs.filter fun c => !Text.isBlank c))

/-- The pieces between the double quotes of a text. -/
def pieces : List Char → List (List Char)
  | [] => [[]]
  | c :: cs =>
    if c = '"' then [] :: pieces cs
    else match pieces cs with
      | [] => [[c]]
      | p :: ps => (c :: p) :: ps

/-- What a type text means to the store: every other piece is a quoted name, which is taken as it
is. -/
def meaning (s : String) : List (List Char) :=
  (pieces s.toList).mapIdx fun i piece => if i % 2 = 0 then plain piece else piece

theorem pieces_of_notMem : ∀ {cs : List Char}, '"' ∉ cs → pieces cs = [cs]
  | [], _ => rfl
  | c :: cs, h => by
    obtain ⟨hc, hcs⟩ : '"' ≠ c ∧ '"' ∉ cs := by simpa using h
    rw [pieces, if_neg (Ne.symm hc), pieces_of_notMem hcs]

theorem length_pieces : ∀ cs : List Char, (pieces cs).length = cs.count '"' + 1
  | [] => rfl
  | c :: cs => by
    have ih := length_pieces cs
    unfold pieces
    split
    · rename_i hc
      rw [List.length_cons, ih, hc, List.count_cons_self]
    · rename_i hc
      rw [List.count_cons_of_ne hc]
      split
      · rename_i hnil
        rw [hnil] at ih
        cases ih
      · rename_i hcons
        rw [hcons] at ih
        exact ih

theorem meaning_of_notMem {s : String} (h : '"' ∉ s.toList) : meaning s = [plain s.toList] := by
  unfold meaning
  rw [pieces_of_notMem h]
  rfl

theorem length_meaning (s : String) : (meaning s).length = s.toList.count '"' + 1 := by
  unfold meaning
  rw [List.length_mapIdx, length_pieces]

/-- What has no words left to replace has none either when it stands in a word. -/
theorem replaceWord_true_replaceWord (cs : List Char) :
    replaceWord true (replaceWord false cs) = replaceWord false cs := by
  have h := replaceWord_replaceWord false cs
  generalize replaceWord false cs = ds at h
  revert h
  fun_cases replaceWord false ds with
  | case1 => exact fun _ => rfl
  | case2 rest hreplaced =>
    intro h
    exact absurd (List.cons.inj h).1 (by decide)
  | case3 rest hkept =>
    intro h
    rw [replaceWord, if_neg (by simp)]
    exact h
  | case4 c rest hne =>
    intro h
    rw [replaceWord]
    · exact h
    · exact hne

/-- The name of a type that has no other spelling means itself. -/
theorem plain_name {type : ColumnType} (h : type ≠ .varchar) :
    plain type.name.toList = type.name.toList := by
  have hall : ∀ type ∈ all, type ≠ .varchar → plain type.name.toList = type.name.toList := by
    decide +kernel
  exact hall type (by cases type <;> decide) h

theorem plain_varchar : plain varchar.name.toList = text.name.toList := by decide +kernel

/-- The canonical name of a type is the name of one without other spellings, and means the same. -/
theorem usual_name (type : ColumnType) : ∃ usual : ColumnType, usual ≠ .varchar ∧
    canonicalName type.name = usual.name ∧ plain type.name.toList = usual.name.toList := by
  by_cases hvarchar : type = .varchar
  · subst hvarchar
    exact ⟨.text, nofun, by decide +kernel, plain_varchar⟩
  · exact ⟨type, hvarchar, canonicalName_name hvarchar, plain_name hvarchar⟩

/-- No word to replace begins with the usual name of a type. -/
theorem replaceWord_usual {usual : ColumnType} (h : usual ≠ .varchar) (cs : List Char) :
    replaceWord false (usual.name.toList ++ cs) = usual.name.toList ++ replaceWord true cs := by
  have hword : "abcdefghijklmnopqrstuvwxyz".toList.all Text.isWord = true := by decide +kernel
  simp [List.all_cons] at hword
  cases usual <;> simp_all [name, replaceWord]

/-! ## Names and arguments -/

theorem notMem_quote_name (type : ColumnType) : '"' ∉ type.name.toList := by
  cases type <;> decide

/-- Without quotes, removing blanks alone and removing quotes too leaves the same. -/
theorem plain_eq {cs : List Char} (h : '"' ∉ cs) : plain cs =
    replaceWord false (Text.lowerFrom [] (cs.filter fun c => !Text.isSeparator c)) := by
  unfold plain
  congr 2
  refine List.filter_congr fun c hc => ?_
  have hquote : (c == '"') = false := beq_eq_false_iff_ne.2 fun heq => h (heq ▸ hc)
  rw [Text.isSeparator, hquote, Bool.or_false]

/-- The name of a type in front of what stays stays, and nothing that begins in it is replaced. -/
theorem plain_usual {usual : ColumnType} (h : usual ≠ .varchar) {cs ds : List Char}
    (hds : ds = replaceWord false (Text.lowerFrom [] (cs.filter fun c => !Text.isSeparator c))) :
    plain (usual.name.toList ++ ds) = usual.name.toList ++ ds := by
  have hsettled : ∀ d ∈ usual.name.toList ++ ds,
      Text.isSeparator d = false ∧ Text.lowerTable.Leaves d.toNat := by
    intro d hd
    rcases List.mem_append.1 hd with hd | hd
    · rw [← plain_name h, plain_eq (notMem_quote_name usual)] at hd
      exact canonicalArgument_settled _ hd
    · rw [hds] at hd
      exact canonicalArgument_settled _ hd
  have hfilter : (usual.name.toList ++ ds).filter (fun c => !Text.isBlank c) =
      usual.name.toList ++ ds := by
    refine List.filter_eq_self.2 fun d hd => ?_
    have hseparator := (hsettled d hd).1
    rw [Text.isSeparator, Bool.or_eq_false_iff] at hseparator
    rw [hseparator.1]
    rfl
  unfold plain
  rw [hfilter, Text.lowerFrom_of_leaves fun d hd => (hsettled d hd).2, replaceWord_usual h, hds,
    replaceWord_true_replaceWord]

/-! ### Arguments in angle brackets -/

theorem isWord_bracket : Text.isWord '<' = false := by decide +kernel

theorem exists_bracket {a : String} (h : IsBracketed a) : ∃ rest, a.toList = '<' :: rest := by
  cases hchars : a.toList with
  | nil =>
    rw [IsBracketed, hchars] at h
    cases h.1
  | cons c rest =>
    rw [IsBracketed, hchars] at h
    exact ⟨rest, by rw [Option.some.inj h.1]⟩

/-- What stands in front of a bracket does not count behind it. -/
theorem lowerFrom_bracket (before cs : List Char) :
    Text.lowerFrom before ('<' :: cs) = '<' :: Text.lowerFrom ['<'] cs := by
  have hpassed : Text.inRuns Text.caseIgnorableRuns '<' = false := by decide +kernel
  rw [Text.lowerFrom]
  · exact congrArg ('<' :: ·) (Text.lowerFrom_append hpassed before cs [])
  · decide

/-- A bracket is the end of a word. -/
theorem replaceWord_bracket (inWord : Bool) (cs : List Char) :
    replaceWord inWord ('<' :: cs) = '<' :: replaceWord false cs := by
  rw [replaceWord, isWord_bracket]
  rintro rest hv
  exact absurd hv (by decide)

/-- The name of a type in front of a bracket is replaced on its own. -/
theorem replaceWord_name_bracket (type : ColumnType) (cs : List Char) :
    replaceWord false (type.name.toList ++ '<' :: cs) =
      plain type.name.toList ++ replaceWord false ('<' :: cs) := by
  by_cases hvarchar : type = .varchar
  · subst hvarchar
    rw [plain_varchar, replaceWord_bracket]
    change replaceWord false ('v' :: 'a' :: 'r' :: 'c' :: 'h' :: 'a' :: 'r' :: '<' :: cs) = _
    rw [replaceWord, if_pos (by simp [isWord_bracket]), replaceWord_bracket]
    rfl
  · rw [replaceWord_usual hvarchar, plain_name hvarchar, replaceWord_bracket, replaceWord_bracket]

theorem leaves_of_mem_name (type : ColumnType) {c : Char} (hc : c ∈ type.name.toList) :
    Text.lowerTable.Leaves c.toNat := by
  have hletters : type.name.toList.all (fun c =>
      decide (0x5B ≤ c.toNat) && decide (c.toNat ≤ 0x7F)) = true := by
    cases type <;> decide
  have hletter := List.all_eq_true.1 hletters c hc
  rw [Bool.and_eq_true, decide_eq_true_eq, decide_eq_true_eq] at hletter
  exact Text.leaves_of_small hletter.1 hletter.2

/-- An argument in angle brackets does not run into the name in front of it. -/
theorem plain_bracketed (type : ColumnType) {a : String} (h : IsBracketed a) :
    plain (type.name.toList ++ a.toList) = plain type.name.toList ++ plain a.toList := by
  obtain ⟨rest, ha⟩ := exists_bracket h
  obtain ⟨-, hblank, -, -⟩ := name_chars type
  have hname : type.name.toList.filter (fun c => !Text.isBlank c) = type.name.toList :=
    List.filter_eq_self.2 (List.all_eq_true.1 hblank)
  unfold plain
  rw [List.filter_append, hname, ha, List.filter_cons_of_pos (by decide), lowerFrom_bracket [],
    Text.lowerFrom_append_of_leaves fun c hc => leaves_of_mem_name type hc, lowerFrom_bracket,
    replaceWord_name_bracket]
  unfold plain
  rw [hname]

end ColumnType

/-! ## Columns -/

namespace Column

open ColumnType

variable {c : Column}

/-- The argument of the column's type has no double quotes and does not run into the name of the
type: the two mean together what they mean one after the other. -/
structure HasPlainArgument (c : Column) : Prop where
  noQuote : '"' ∉ (c.argument.getD "").toList
  apart : plain (c.type.toList ++ (c.argument.getD "").toList) =
    plain c.type.toList ++ plain (c.argument.getD "").toList

/-- An argument in angle brackets is plain when it has no double quotes. -/
theorem hasPlainArgument_iff (htype : ∃ type : ColumnType, c.type = type.name)
    (hbrackets : ∀ a, c.argument = some a → a = "" ∨ IsBracketed a) :
    c.HasPlainArgument ↔ '"' ∉ (c.argument.getD "").toList := by
  refine ⟨HasPlainArgument.noQuote, fun hquote => ⟨hquote, ?_⟩⟩
  obtain ⟨type, htype⟩ := htype
  have hnone : plain (c.type.toList ++ "".toList) = plain c.type.toList ++ plain "".toList := by
    have hempty : plain [] = [] := rfl
    rw [String.toList_empty, List.append_nil, hempty, List.append_nil]
  cases hargument : c.argument with
  | none =>
    rw [Option.getD_none]
    exact hnone
  | some a =>
    rw [Option.getD_some]
    rcases hbrackets a hargument with rfl | hbracketed
    · exact hnone
    · rw [htype]
      exact plain_bracketed type hbracketed

theorem toList_canonicalArgument (argument : Option String) :
    ((canonicalArgument argument).getD "").toList = replaceWord false
      (Text.lowerFrom [] ((argument.getD "").toList.filter fun c => !Text.isSeparator c)) := by
  cases argument with
  | none => rfl
  | some a =>
    by_cases ha : a = ""
    · subst ha
      rfl
    · rw [canonicalArgument_some ha, Option.getD_some, Option.getD_some, String.toList_ofList]

theorem typeText_canonical (c : Column) : c.canonical.typeText =
    canonicalName c.type ++ (canonicalArgument c.argument).getD "" := by
  unfold typeText ColumnType.format Column.canonical
  dsimp only

/-- The canonical form of a type means what is left of its name and its argument. -/
theorem meaning_canonical (htype : ∃ type : ColumnType, c.type = type.name) :
    meaning c.canonical.typeText = [plain c.type.toList ++ replaceWord false
      (Text.lowerFrom [] ((c.argument.getD "").toList.filter fun c => !Text.isSeparator c))] := by
  obtain ⟨type, htype⟩ := htype
  obtain ⟨usual, hvarchar, hcanonical, hplain⟩ := usual_name type
  have htext : c.canonical.typeText.toList = usual.name.toList ++ replaceWord false
      (Text.lowerFrom [] ((c.argument.getD "").toList.filter fun c => !Text.isSeparator c)) := by
    rw [typeText_canonical, String.toList_append, toList_canonicalArgument, htype, hcanonical]
  have hquote : '"' ∉ c.canonical.typeText.toList := by
    rw [htext, List.mem_append, not_or]
    refine ⟨notMem_quote_name usual, fun hmem => ?_⟩
    have hseparator := (canonicalArgument_settled (c.argument.getD "").toList hmem).1
    exact absurd hseparator (by decide)
  rw [meaning_of_notMem hquote, htext, plain_usual hvarchar rfl, htype, hplain]

/-- The declared text of a type and its canonical form mean the same exactly when the argument is
plain. -/
theorem same_meaning_iff (htype : ∃ type : ColumnType, c.type = type.name) :
    meaning c.typeText = meaning c.canonical.typeText ↔ c.HasPlainArgument := by
  have htext : c.typeText.toList = c.type.toList ++ (c.argument.getD "").toList :=
    String.toList_append
  rw [meaning_canonical htype]
  by_cases hquote : '"' ∈ (c.argument.getD "").toList
  · refine ⟨fun hsame => ?_, fun hplain => absurd hquote hplain.noQuote⟩
    have hlength := congrArg List.length hsame
    have hcount : 0 < c.typeText.toList.count '"' := by
      rw [List.count_pos_iff, htext]
      exact List.mem_append_right _ hquote
    rw [length_meaning, List.length_singleton] at hlength
    omega
  · have hnone : '"' ∉ c.typeText.toList := by
      obtain ⟨type, htype⟩ := htype
      rw [htext, List.mem_append, not_or, htype]
      exact ⟨notMem_quote_name type, hquote⟩
    rw [meaning_of_notMem hnone, htext, ← plain_eq hquote]
    exact ⟨fun hsame => ⟨hquote, (List.cons.inj hsame).1⟩,
      fun hplain => congrArg (fun m => [m]) hplain.apart⟩

end Column

/-! ## What the statements write -/

namespace Migration

open Draft

variable {t : Table} {f : Field} {text : String} {isStatic : Bool}

/-- The creation of the table writes the type text and the mark for the column of the field. -/
def Creates (t : Table) (f : Field) (text : String) (isStatic : Bool) : Prop :=
  ∃ (step : Step) (table : Identifier) (columns : List (ColumnClause Identifier))
    (key : KeyClause Identifier) (name : Identifier), .send step ∈ (createAll t).moves ∧
      step.statement = .createTable table columns key ∧
      (f, ColumnClause.mk name text isStatic) ∈ t.storedFields.zip columns

/-- The addition of the field's column, which some live table does not have, writes the type text
and the mark. -/
def Adds (t : Table) (f : Field) (text : String) (isStatic : Bool) : Prop :=
  ∃ (l working : LiveTable) (d : SchemaDiff) (new : Column) (step : Step)
    (table column : Identifier), Keyed.get? l.columns f.name = none ∧
      Describable.diff (.live l) (.declared t) = .ok d ∧ .added f.name new ∈ d.columns ∧
      .send step ∈ (applyDiff t working (.added f.name new)).moves ∧
      step.statement = .addColumn table column text isStatic

/-- The watch of the columns that a creation writes. -/
def creating (t : Table) : Watch Unit where
  onAsk s _ := s
  allows _ statement := ∀ table columns key, statement = .createTable table columns key →
    t.columnClauses.mapM Ddl.acceptColumn = .ok columns
  onSend s _ := s

/-- A table is created with its columns as they are declared. -/
theorem keeps_creating (t : Table) : Keeps (creating t) () (createAll t) fun _ _ => True := by
  refine Keeps.bind (Keeps.createTable fun table columns key _ hcolumns _ => ⟨?_, ?_⟩)
  · rintro _ _ _ heq
    cases heq
    exact hcolumns
  refine Keeps.bind ((Keeps.forM (fun _ => True) (fun text _ _ _ => ?_) trivial).mono fun _ _ _ => ?_)
  · exact Keeps.createIndex fun _ _ _ _ => ⟨nofun, trivial⟩
  refine Keeps.bind (Keeps.lift fun shape _ => ?_)
  refine Keeps.bind ((Keeps.forM (fun _ => True) (fun e _ _ _ => ?_) trivial).mono fun _ _ _ => ?_)
  · exact Keeps.createCustomIndex fun _ _ _ _ _ _ => ⟨nofun, trivial⟩
  refine Keeps.forM (fun _ => True) (fun e _ _ _ => ?_) trivial
  exact Keeps.createView fun _ _ _ _ _ _ _ _ _ => ⟨nofun, trivial⟩

/-- A creation writes the type as it is declared. -/
theorem Creates.eq (h : Creates t f text isStatic) : text = f.typeText ∧ isStatic = f.isStatic := by
  obtain ⟨step, table, columns, key, name, hsend, hstatement, hzip⟩ := h
  obtain ⟨_, hallows⟩ := (keeps_creating t).1.of_mem hsend
  have hcolumns := Table.forall₂_columnClauses (hallows table columns key hstatement)
  exact ((List.forall₂_iff_zip.1 hcolumns).2 hzip).2

/-- A table that is created is created with a column for each stored field. -/
theorem creates_of_createAll {u : Unit} (h : (createAll t).outcome = .ok u)
    (hf : f ∈ t.storedFields) : Creates t f f.typeText f.isStatic := by
  obtain ⟨u, hcreated, -, hmoves⟩ := bind_ok h
  obtain ⟨table, columns, key, hcolumns, hsends⟩ := createTable_ok hcreated
  obtain ⟨c, hzip, -, htext, hmark⟩ :=
    exists_mem_zip (Table.forall₂_columnClauses hcolumns) hf
  have hcreate : .send ⟨"create_table", .create, .createTable table columns key⟩ ∈
      (createTable t).moves := hsends ▸ List.mem_cons_self
  refine ⟨⟨"create_table", .create, .createTable table columns key⟩, table, columns, key, c.name, ?_,
    rfl, ?_⟩
  · unfold createAll
    rw [hmoves]
    exact List.mem_append_left _ hcreate
  · rw [← htext, ← hmark]
    exact hzip

/-- The watch of the type and the mark that an addition writes. -/
def adding (new : Column) : Watch Unit where
  onAsk s _ := s
  allows _ statement := ∀ table column text isStatic,
    statement = .addColumn table column text isStatic →
      text = new.typeText ∧ isStatic = new.isStatic
  onSend s _ := s

/-- A column is added as the difference has it. -/
theorem keeps_adding (working : LiveTable) (name : String) (new : Column) :
    Keeps (adding new) () (applyDiff t working (.added name new)) fun _ _ => True := by
  refine Keeps.bind (Keeps.ask trivial (Keeps.map (Keeps.addColumn fun table column _ _ => ?_)))
  refine ⟨?_, trivial⟩
  rintro _ _ _ _ heq
  cases heq
  exact ⟨rfl, rfl⟩

/-- What a difference adds to a live table is what is declared in canonical form. -/
theorem added_eq (hwell : t.WellFormed) (hf : f ∈ t.storedFields) {l : LiveTable} {d : SchemaDiff}
    (hd : Describable.diff (.live l) (.declared t) = .ok d) :
    (Keyed.get? l.columns f.name = none → .added f.name f.column.canonical ∈ d.columns) ∧
      ∀ new, .added f.name new ∈ d.columns → new = f.column.canonical := by
  obtain ⟨targets, declared, -, -, rfl⟩ := Describable.diff_ok hd
  have hmem : (f.name, f.column.canonical) ∈ t.storedColumns :=
    List.mem_map.2 ⟨(f.name, f.column), List.mem_map.2 ⟨f, hf, rfl⟩, rfl⟩
  constructor
  · intro hmissing
    refine List.mem_append_left _ (List.mem_filterMap.2 ⟨_, hmem, ?_⟩)
    have hnone : Keyed.get? (l.canonicalWith targets).columns f.name = none := by
      change Keyed.get? (l.columns.map fun e => (e.1, e.2.canonical)) f.name = none
      rw [Keyed.get?_map, hmissing]
      rfl
    unfold SchemaDiff.columnDiff?
    rw [hnone]
  · intro new hadded
    rcases List.mem_append.1 hadded with hadded | hadded
    · obtain ⟨⟨name, c⟩, he, hdiff⟩ := List.mem_filterMap.1 hadded
      unfold SchemaDiff.columnDiff? at hdiff
      split at hdiff
      · cases hdiff
        have hget := Keyed.get?_of_mem hwell.nodup_storedColumns he
        rw [Keyed.get?_of_mem hwell.nodup_storedColumns hmem] at hget
        exact (Option.some.inj hget).symm
      · obtain ⟨aspect, -, hdiff⟩ := Option.map_eq_some_iff.1 hdiff
        cases hdiff
    · obtain ⟨e, -, he⟩ := List.mem_map.1 hadded
      cases he

/-- An addition writes the type in canonical form. -/
theorem Adds.eq (h : Adds t f text isStatic) (hwell : t.WellFormed) (hf : f ∈ t.storedFields) :
    text = f.column.canonical.typeText ∧ isStatic = f.isStatic := by
  obtain ⟨l, working, d, new, step, table, column, -, hd, hadded, hsend, hstatement⟩ := h
  obtain rfl := (added_eq hwell hf hd).2 new hadded
  obtain ⟨_, hallows⟩ := (keeps_adding working f.name f.column.canonical).1.of_mem hsend
  exact hallows table column text isStatic hstatement

/-- When the differences are applied to a table that stays, each of them is. -/
theorem applyDiffs_ok : ∀ {ds : List ColumnDiff} {l l' : LiveTable},
    (applyDiffs t l ds).outcome = .ok (some l') → ∀ d ∈ ds, ∃ working applied,
      (applyDiff t working d).outcome = .ok applied
  | [], _, _, _, d, hd => nomatch hd
  | e :: ds, l, l', h, d, hd => by
    obtain ⟨applied, happlied, h, -⟩ := bind_ok h
    rcases List.mem_cons.1 hd with rfl | hd
    · exact ⟨l, applied, happlied⟩
    · cases applied with
      | none => cases h
      | some applied => exact applyDiffs_ok h d hd

/-- A column is added to a table that is altered and does not have it. -/
theorem adds_of_altered (hwell : t.WellFormed) (hf : f ∈ t.storedFields) {l : LiveTable}
    (hmissing : Keyed.get? l.columns f.name = none)
    (h : (plan t .alter (some l)).outcome = .ok .altered) :
    Adds t f f.column.canonical.typeText f.isStatic := by
  obtain ⟨d, hd, h, -⟩ := bind_ok h
  have hadded := (added_eq hwell hf hd).1 hmissing
  -- a run that ends as altered went through all the differences
  obtain ⟨l', happlied⟩ : ∃ l', (applyDiffs t l d.columns).outcome = .ok (some l') := by
    split at h
    · cases h
    · dsimp only at h
      split at h
      · obtain ⟨_, -, h, -⟩ := bind_ok h
        obtain ⟨_, -, h, -⟩ := bind_ok h
        cases h
      · obtain ⟨l', hl', h, -⟩ := bind_ok h
        cases l' with
        | none => cases h
        | some l' => exact ⟨l', hl'⟩
  obtain ⟨working, applied, happlied⟩ := applyDiffs_ok happlied _ hadded
  obtain ⟨_, -, happlied, hmoves⟩ := bind_ok happlied
  obtain ⟨_, hcolumn, -, hmapped⟩ := bind_ok (show (addColumn t working f.name f.column.canonical >>=
    fun l => Pure.pure (some l)).outcome = _ from happlied)
  obtain ⟨_, hsend, -, hafter⟩ := bind_ok hcolumn
  obtain ⟨o, definition, statement, hmade, hdefinition, haccept, hsends⟩ := send_ok hsend
  cases ColumnChange.checked_ok hmade
  cases hdefinition
  obtain ⟨table, column, -, -, rfl⟩ := Ddl.accept_addColumn haccept
  refine ⟨l, working, d, f.column.canonical, ⟨"alter_add:" ++ f.name, .alter, _⟩, table, column,
    hmissing, hd, hadded, ?_, rfl⟩
  change _ ∈ (Draft.ask (.addColumn f.name f.column.canonical) >>= fun _ =>
    some <$> addColumn t working f.name f.column.canonical).moves
  rw [hmoves]
  refine List.mem_append_right _ ?_
  change _ ∈ (addColumn t working f.name f.column.canonical >>=
    fun l => Pure.pure (some l)).moves
  rw [hmapped]
  refine List.mem_append_left _ ?_
  unfold addColumn
  rw [hafter, hsends]
  exact List.mem_cons_self

/-! ## Both statements -/

/-- The creation of a table and the addition of a column to it write the same mark, and types that
mean the same exactly when the declared argument is plain; one in angle brackets is plain when it has
no double quotes. A plan that creates the table writes the column, and one that alters a live table
without the column adds it. -/
theorem same_type_iff (h : t.Registered) (hf : f ∈ t.storedFields) :
    (∀ created added mark mark', Creates t f created mark → Adds t f added mark' →
      mark = mark' ∧
        (ColumnType.meaning created = ColumnType.meaning added ↔ f.column.HasPlainArgument)) ∧
    ((∀ a, f.argument = some a → a = "" ∨ ColumnType.IsBracketed a) →
      (f.column.HasPlainArgument ↔ '"' ∉ (f.argument.getD "").toList)) ∧
    (∀ policy state, (plan t policy none).outcome = .ok state → ∃ text mark, Creates t f text mark) ∧
    ∀ l, Keyed.get? l.columns f.name = none → (plan t .alter (some l)).outcome = .ok .altered →
      ∃ text mark, Adds t f text mark := by
  have hwell := h.wellFormed
  have htype := hwell.typeName hf
  refine ⟨fun created added mark mark' hcreates hadds => ?_,
    Column.hasPlainArgument_iff htype, fun policy state hplan => ?_, fun l hmissing hplan => ?_⟩
  · obtain ⟨rfl, rfl⟩ := hcreates.eq
    obtain ⟨rfl, rfl⟩ := hadds.eq hwell hf
    have htext : f.typeText = f.column.typeText := by
      unfold Field.typeText Column.typeText Field.column
      rfl
    rw [htext]
    exact ⟨rfl, Column.same_meaning_iff htype⟩
  · obtain ⟨_, hcreated, -, -⟩ := bind_ok hplan
    exact ⟨_, _, creates_of_createAll hcreated hf⟩
  · exact ⟨_, _, adds_of_altered hwell hf hmissing hplan⟩

/-- A live table of users without names. -/
def unnamedUsers : LiveTable where
  table := "users"
  columns := [("id", { type := "uuid" })]
  partitionKey := ["id"]

/-! ### A list of names -/

/-- Users with a list of names, as a definition. -/
def listedDefinition : Value := .map [
  (.text "fields", .map [
    (.text "id", .text "uuid"),
    (.text "names", .map [(.text "type", .text "list"), (.text "type_def", .text "< VarChar >")])]),
  (.text "key", .list [.text "id"])]

/-- The names of users. -/
def names : Field := { name := "names", type := "list", argument := some "< VarChar >" }

/-- The table that `listedDefinition` declares. -/
def listed : Table where
  name := "users"
  fields := [{ name := "id", type := "uuid" }, names]
  partitionKey := ["id"]
  clusteringKey := []
  clusteringOrder := []
  indexes := []
  customIndexes := []
  views := []
  defaultTtl := none
  hooks := []

/-- The texts differ in blanks, in case and in the spelling of a type. -/
theorem same_type_listed : listed.Registered ∧ names ∈ listed.storedFields ∧
    Creates listed names "list< VarChar >" false ∧ Adds listed names "list<text>" false ∧
    ColumnType.meaning "list< VarChar >" = ColumnType.meaning "list<text>" := by
  have hregistered : listed.Registered :=
    .inl ⟨.text "users", listedDefinition, by with_unfolding_all rfl⟩
  have hstored : names ∈ listed.storedFields := List.mem_cons_of_mem _ List.mem_cons_self
  have hcreates : Creates listed names "list< VarChar >" false :=
    creates_of_createAll (by with_unfolding_all rfl) hstored
  have hcanonical : names.column.canonical.typeText = "list<text>" := by decide +kernel
  have hadds : Adds listed names "list<text>" false := by
    have hadded := adds_of_altered hregistered.wellFormed hstored (l := unnamedUsers) rfl
      (of_toOption_eq_some (by decide +kernel))
    rwa [hcanonical] at hadded
  obtain ⟨hsame, hplain, -, -⟩ := same_type_iff hregistered hstored
  refine ⟨hregistered, hstored, hcreates, hadds, (hsame _ _ _ _ hcreates hadds).2.2 ?_⟩
  refine (hplain fun a ha => .inr ?_).2 (by decide)
  cases ha
  decide

/-! ### A quoted name -/

/-- Users with a value of a type whose name is quoted, as a definition. -/
def quotedTypeDefinition : Value := .map [
  (.text "fields", .map [
    (.text "id", .text "uuid"),
    (.text "home", .map [(.text "type", .text "frozen"), (.text "type_def", .text "<\"MyType\">")])]),
  (.text "key", .list [.text "id"])]

/-- The home of a user. -/
def home : Field := { name := "home", type := "frozen", argument := some "<\"MyType\">" }

/-- The table that `quotedTypeDefinition` declares. -/
def quotedType : Table where
  name := "users"
  fields := [{ name := "id", type := "uuid" }, home]
  partitionKey := ["id"]
  clusteringKey := []
  clusteringOrder := []
  indexes := []
  customIndexes := []
  views := []
  defaultTtl := none
  hooks := []

/-- The table is created with a type of that very name, and the column is added with one whose name
is in small letters. -/
theorem not_same_type_quoted :
    Table.ofDefinition (.text "users") quotedTypeDefinition = .ok quotedType ∧
    home ∈ quotedType.storedFields ∧ Creates quotedType home "frozen<\"MyType\">" false ∧
    Adds quotedType home "frozen<mytype>" false ∧
    ColumnType.meaning "frozen<\"MyType\">" ≠ ColumnType.meaning "frozen<mytype>" := by
  have hdefinition : Table.ofDefinition (.text "users") quotedTypeDefinition = .ok quotedType := by
    with_unfolding_all rfl
  have hwell : quotedType.WellFormed := Table.Registered.wellFormed (.inl ⟨_, _, hdefinition⟩)
  have hstored : home ∈ quotedType.storedFields := List.mem_cons_of_mem _ List.mem_cons_self
  have hcanonical : home.column.canonical.typeText = "frozen<mytype>" := by decide +kernel
  refine ⟨hdefinition, hstored, creates_of_createAll (by with_unfolding_all rfl) hstored, ?_, ?_⟩
  · have hadded := adds_of_altered hwell hstored (l := unnamedUsers) rfl
      (of_toOption_eq_some (by decide +kernel))
    rwa [hcanonical] at hadded
  · intro hsame
    have hlength := congrArg List.length hsame
    rw [ColumnType.length_meaning, ColumnType.length_meaning] at hlength
    exact absurd hlength (by decide)

end Migration

end WideColumn
