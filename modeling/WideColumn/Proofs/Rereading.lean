import WideColumn.Operation.Compile
import WideColumn.Proofs.Action
import WideColumn.Proofs.Spelling
import WideColumn.Proofs.Targets

/-!
# Index targets in statements

A statement creates an index on a target with the column between double quotes, `"name"` or
`keys("tags")`. Whatever the column has in it, such a text stands for one target only
(`IndexTarget.Denotes.unique`), and reading it as an expression gives the target that was written:
the quote in front keeps a column that looks like an application from being read as one, and what is
read as a column has no quotes inside, no blanks around it and no line ends
(`IndexTarget.IsColumn`).
-/

namespace WideColumn.IndexTarget

variable {s : String} {target : IndexTarget}

/-! ## What is read -/

/-- A text that is read as the column of a target. -/
structure IsColumn (column : String) : Prop where
  nonempty : column ≠ ""
  stripped : Text.stripChars column.toList = column.toList
  unquoted : '"' ∉ column.toList
  unbroken : '\n' ∉ column.toList

/-- No line end stands between the parentheses of an application. -/
theorem applied?_unbroken {cs name wrapped : List Char} (h : applied? cs = some (name, wrapped)) :
    '\n' ∉ wrapped := by
  unfold applied? at h
  dsimp only at h
  split at h
  · split at h
    · cases h
    · split at h
      · split at h
        · cases h
          exact List.not_mem_nil
        · cases h
      · split at h
        · cases h
        · rename_i hunbroken
          cases h
          simpa using hunbroken
  · cases h

theorem parts?_unbroken {cs wrapped : List Char} {function : Option (List Char)}
    (h : parts? cs = some (function, wrapped)) : '\n' ∉ wrapped := by
  unfold parts? at h
  split at h
  · rename_i happlied
    cases h
    exact applied?_unbroken happlied
  · dsimp only at h
    split at h
    · cases h
    · rename_i hbare
      cases h
      simpa using (not_or.1 hbare).2

/-- The column of a target that was read from an expression. -/
theorem isColumn_of_ofText (h : ofText s = .ok target) : IsColumn target.column := by
  obtain ⟨function, wrapped, hparts, ⟨hne, hread⟩, -⟩ := read_ok h
  have hmem : ∀ c ∈ target.column.toList, c ∈ wrapped ∧ c ≠ '"' := by
    intro c hc
    rw [hread] at hc
    simpa using (Text.stripChars_sublist _).subset hc
  exact {
    nonempty := hne
    stripped := by rw [hread, Text.stripChars_stripChars]
    unquoted := fun hquote => (hmem '"' hquote).2 rfl
    unbroken := fun hline => parts?_unbroken hparts (hmem '\n' hline).1 }

/-! ## What is written -/

/-- The target that a text in a statement stands for: a name between double quotes, or an index
function applied to one. No double quote is inside the name. -/
inductive Denotes : String → IndexTarget → Prop
  | column {name : String} (h : '"' ∉ name.toList) :
    Denotes ("\"" ++ name ++ "\"") ⟨none, name⟩
  | applied (f : IndexFunction) {name : String} (h : '"' ∉ name.toList) :
    Denotes (f.name ++ "(\"" ++ name ++ "\")") ⟨some f, name⟩

/-- A text stands for one target. -/
theorem Denotes.unique {text : String} {a b : IndexTarget} (ha : Denotes text a)
    (hb : Denotes text b) : a = b := by
  generalize htext : text = text' at hb
  rcases ha with h | ⟨f, h⟩ <;> rcases hb with h' | ⟨g, h'⟩ <;>
    rw [← String.toList_inj] at htext
  · simpa [← String.toList_inj] using htext
  · cases g <;> simp [IndexFunction.name] at htext
  · cases f <;> simp [IndexFunction.name] at htext
  · cases f <;> cases g <;> simp_all [IndexFunction.name, ← String.toList_inj]

/-- The text of a target with a column that was read stands for the target and no other. -/
theorem denotes_format_iff (h : IsColumn target.column) (other : IndexTarget) :
    Denotes target.format other ↔ other = target := by
  have hself : Denotes target.format target := by
    obtain ⟨function, column⟩ := target
    cases function with
    | none => exact .column h.unquoted
    | some f => exact .applied f h.unquoted
  exact ⟨fun hother => hother.unique hself, fun heq => heq ▸ hself⟩

/-! ## Reading what is written -/

/-- A quoted column has no blanks around it and no line ends. -/
theorem IsColumn.quoted {column : String} (h : IsColumn column) :
    Text.stripChars ('"' :: (column.toList ++ ['"'])) = '"' :: (column.toList ++ ['"']) ∧
      ('"' :: (column.toList ++ ['"'])).contains '\n' = false := by
  refine ⟨Text.stripChars_between (by decide) (by decide) _, ?_⟩
  simpa using h.unbroken

/-- The parts of the text of a target are the function and the column between its quotes. -/
theorem parts?_format (h : IsColumn target.column) :
    parts? target.format.toList = some (target.function.map fun f => f.name.toList,
      '"' :: (target.column.toList ++ ['"'])) := by
  obtain ⟨function, column⟩ := target
  obtain ⟨hstripped, hunbroken⟩ := h.quoted
  unfold parts?
  cases function with
  | none =>
    have hformat : (format ⟨none, column⟩).toList = '"' :: (column.toList ++ ['"']) := by
      simp [format]
    -- an application begins with a letter or a low line, and this begins with a quote
    have hbare : applied? ('"' :: (column.toList ++ ['"'])) = none := by
      unfold applied?
      rw [List.dropWhile_cons_of_neg (by decide), Text.stripLeft_cons (by decide)]
      rfl
    rw [hformat, Text.stripLeft_cons (by decide), hbare]
    simp only [hstripped, hunbroken]
    rfl
  | some f =>
    have hformat : (format ⟨some f, column⟩).toList =
        f.name.toList ++ '(' :: ('"' :: (column.toList ++ ['"']) ++ [')']) := by
      simp [format]
    rw [hformat, stripLeft_function,
      applied?_function f (List.cons_ne_nil _ _) hstripped hunbroken]
    rfl

/-- The text of a target with a column that was read is read as the target. -/
theorem IsColumn.ofText_format (h : IsColumn target.column) :
    ofText target.format = .ok target := by
  have hempty : target.column.toList.isEmpty = false := by
    simpa [String.toList_eq_nil_iff] using h.nonempty
  unfold ofText read
  rw [parts?_format h]
  dsimp only
  rw [Name.filter_enclosed h.unquoted, h.stripped, hempty, if_neg Bool.false_ne_true, String.ofList_toList]
  obtain ⟨function, column⟩ := target
  cases function with
  | none => rfl
  | some f => cases f <;> rfl

/-- The creation of an index is put together when its target can be read and its table quoted. -/
theorem compile_creation (h : ofText s = .ok target) {name : String} {table : Identifier}
    (hname : Identifier.ofText name = .ok table) (t : Table) (session : Session) :
    ((Operation.createIndex ⟨name, s⟩).compile t).perform session =
      (.ok { statement := .define (.createIndex table target) }, session) := by
  have hddl : IndexCreation.ddl ⟨name, s⟩ = .ok (.createIndex name target) := by
    unfold IndexCreation.ddl
    rw [h]
  have haccept : (Ddl.createIndex name target).accept = .ok (.createIndex table target) := by
    simp only [Ddl.accept, hname]
    rfl
  have hlift : ((Operation.createIndex ⟨name, s⟩).compile t).perform session =
      (Compile.definition (.createIndex name target)).perform session := by
    unfold Operation.compile
    dsimp only
    rw [hddl]
    rfl
  rw [hlift]
  unfold Compile.definition
  rw [haccept]
  rfl

/-- What a statement writes for an index expression is read as what the expression is read as, has
the same canonical form, and stands for that function and that column and nothing else; and every
table that can be quoted gets a statement with it. -/
theorem format_rereads (h : ofText s = .ok target) :
    ofText target.format = ofText s ∧
    (ofText target.format).map canonical = (ofText s).map canonical ∧
    (∀ other, Denotes target.format other ↔ other = target) ∧
    ∀ (name : String) (table : Identifier), Identifier.ofText name = .ok table →
      ∀ (t : Table) (session : Session), ∃ p,
        ((Operation.createIndex ⟨name, s⟩).compile t).perform session = (.ok p, session) ∧
        p.statement.render = "CREATE INDEX IF NOT EXISTS ON " ++ table.quoted ++ " (" ++
          target.format ++ ");" := by
  have hcolumn := isColumn_of_ofText h
  have hreread : ofText target.format = ofText s := by rw [hcolumn.ofText_format, h]
  exact ⟨hreread, by rw [hreread], denotes_format_iff hcolumn, fun name table hname t session =>
    ⟨_, compile_creation h hname t session, rfl⟩⟩

/-- The function is given in capital letters, and the column looks like an application. -/
theorem format_rereads_nested :
    ofText " ENTRIES ( \"keys(a b)\" ) " = .ok ⟨some .entries, "keys(a b)"⟩ ∧
    ofText "entries(\"keys(a b)\")" = ofText " ENTRIES ( \"keys(a b)\" ) " ∧
    (∀ other, Denotes "entries(\"keys(a b)\")" other ↔ other = ⟨some .entries, "keys(a b)"⟩) := by
  have h : ofText " ENTRIES ( \"keys(a b)\" ) " = .ok ⟨some .entries, "keys(a b)"⟩ := by
    decide +kernel
  obtain ⟨hreread, -, hdenotes, -⟩ := format_rereads h
  exact ⟨h, hreread, hdenotes⟩

end WideColumn.IndexTarget
