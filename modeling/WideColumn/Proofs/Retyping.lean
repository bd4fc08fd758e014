import WideColumn.Proofs.Agreement

/-!
# Columns that are altered in place

A column whose type is widened is altered in place, and whether it is static is not altered with it
(`ColumnDiff.KeepsMark`). Every other difference leaves the column as it is declared. So once all
differences were applied, the columns are those that are declared exactly when no column that was
altered in place was to become static, or to be static no more.
-/

namespace WideColumn

/-! ## Kinds of differences -/

namespace ColumnDiff

/-- The column is altered in place. -/
def Widens : ColumnDiff → Prop
  | .added _ _ | .removed _ _ => False
  | .changed _ aspect old new => aspect = .type ∧ old.widensTo new = true

/-- The table is created anew, since the column is of the key and cannot be altered in place. -/
def Recreates (t : Table) : ColumnDiff → Prop
  | .added _ _ | .removed _ _ => False
  | .changed name aspect old new => ¬ (aspect = .type ∧ old.widensTo new = true) ∧
      t.isKey name = true

/-- A column that is altered in place is declared static exactly when it is. -/
def KeepsMark : ColumnDiff → Prop
  | .added _ _ | .removed _ _ => True
  | .changed _ aspect old new =>
    aspect = .type ∧ old.widensTo new = true → old.isStatic = new.isStatic

instance (t : Table) (d : ColumnDiff) : Decidable (d.Recreates t) := by
  cases d <;> unfold Recreates <;> infer_instance

instance (d : ColumnDiff) : Decidable d.KeepsMark := by
  cases d <;> unfold KeepsMark <;> infer_instance

/-- The mark that a column keeps which is altered in place. -/
def mark? : ColumnDiff → Option Bool
  | .added _ _ | .removed _ _ => none
  | .changed _ aspect old new =>
    if aspect = .type ∧ old.widensTo new = true then some old.isStatic else none

/-- The mark that the column of a name keeps when differences are applied. -/
def markOf (ds : List ColumnDiff) (name : String) : Option Bool :=
  (ds.find? fun d => d.name == name).bind mark?

theorem markOf_of_mem {ds : List ColumnDiff} {d : ColumnDiff} (hnames : (ds.map name).Nodup)
    (hd : d ∈ ds) : markOf ds d.name = d.mark? := by
  unfold markOf
  cases hfind : ds.find? fun e => e.name == d.name with
  | none => exact absurd (List.find?_eq_none.1 hfind d hd) (by simp)
  | some e =>
    have hsame : e = d := List.inj_on_of_nodup_map hnames (List.mem_of_find?_eq_some hfind) hd
      (by simpa using List.find?_some hfind)
    rw [hsame]
    rfl

/-- A column that keeps its mark is one that is altered in place. -/
theorem exists_of_markOf {ds : List ColumnDiff} {name : String} {mark : Bool}
    (h : markOf ds name = some mark) : ∃ aspect old new, .changed name aspect old new ∈ ds ∧
      (aspect = .type ∧ old.widensTo new = true) ∧ old.isStatic = mark := by
  obtain ⟨d, hd, hmark⟩ := Option.bind_eq_some_iff.1 h
  have hmem := List.mem_of_find?_eq_some hd
  have hname : d.name = name := by simpa using List.find?_some hd
  cases d with
  | added _ _ => cases hmark
  | removed _ _ => cases hmark
  | changed n aspect old new =>
    cases hname
    by_cases hwidens : aspect = .type ∧ old.widensTo new = true
    · rw [mark?, if_pos hwidens] at hmark
      exact ⟨aspect, old, new, hmem, hwidens, Option.some.inj hmark⟩
    · rw [mark?, if_neg hwidens] at hmark
      cases hmark

end ColumnDiff

/-- The column of the store is that of the copy, but for the mark that it keeps. -/
def ColumnDiff.Marked (ds : List ColumnDiff) (name : String) (a c : Column) : Prop :=
  a = { c with isStatic := (markOf ds name).getD c.isStatic }

namespace Migration

open ColumnDiff

variable {t : Table} {live l : LiveTable} {s : Simulated} {d : SchemaDiff}
  {columns : List (String × Column)}

/-! ## Columns of the store -/

/-- What a statement gives a declared column is the column with the mark of the statement. -/
theorem ofTypeText_declared (hprepared : Prepared t) (hbrackets : t.WritesBrackets) {name : String}
    {c : Column} (hc : Keyed.get? t.storedColumns name = some c) (isStatic : Bool) :
    Column.ofTypeText c.typeText isStatic = { c with isStatic } := by
  obtain ⟨hknown, hcanonical⟩ :=
    Table.storedColumn_canonical hprepared.wellFormed hbrackets hc
  rw [hknown.ofTypeText]
  obtain ⟨type, argument, mark⟩ := c
  simp only [Column.canonical, Column.mk.injEq] at hcanonical ⊢
  exact ⟨hcanonical.1, hcanonical.2.1, trivial⟩

/-- The statements for differences leave the columns of the store marked. -/
theorem tracks_marked {ds : List ColumnDiff} (hprepared : Prepared t)
    (hbrackets : t.WritesBrackets)
    (hpending : SchemaDiff.Pending t.storedColumns ds live.columns) :
    ∀ e ∈ ds, Tracks (Marked ds) e := by
  intro e he
  have hmark := markOf_of_mem hpending.names he
  obtain ⟨-, hnew⟩ := hpending.sides he
  cases e with
  | added name new =>
    simp only [ColumnDiff.name, mark?] at hmark
    simp only [Tracks, Marked, hmark]
    exact ofTypeText_declared hprepared hbrackets hnew new.isStatic
  | removed name old => trivial
  | changed name aspect old new =>
    simp only [ColumnDiff.name, mark?] at hmark
    simp only [Tracks, Marked, hmark]
    by_cases hwidens : aspect = .type ∧ old.widensTo new = true
    · simp only [if_pos hwidens]
      rintro a rfl
      exact ofTypeText_declared hprepared hbrackets hnew old.isStatic
    · simp only [if_neg hwidens]
      exact ofTypeText_declared hprepared hbrackets hnew new.isStatic

/-- At first the columns of the store are marked, since it holds the copy. -/
theorem marked_self {ds : List ColumnDiff}
    (hpending : SchemaDiff.Pending t.storedColumns ds live.columns) :
    ∀ e ∈ live.columns, Marked ds e.1 e.2 e.2 := by
  intro e he
  unfold Marked
  cases hmark : markOf ds e.1 with
  | none => rfl
  | some mark =>
    obtain ⟨aspect, old, new, hmem, -, rfl⟩ := exists_of_markOf hmark
    have hold := (hpending.sides hmem).1
    rw [ColumnDiff.name, Keyed.get?_of_mem hpending.distinct he] at hold
    cases hold
    rfl

/-- The columns of the store are those that are declared exactly when each keeps its mark. -/
theorem hasColumnsOf_iff {ds : List ColumnDiff} (hprepared : Prepared t)
    (hbrackets : t.WritesBrackets)
    (hpending : SchemaDiff.Pending t.storedColumns ds live.columns)
    (hdone : SchemaDiff.Pending t.storedColumns [] l.columns)
    (halike : Keyed.Alike (Marked ds) columns l.columns) :
    (∀ name, (Keyed.get? columns name).map Column.canonical = Keyed.get? t.storedColumns name) ↔
      ∀ e ∈ ds, e.KeepsMark := by
  -- but for its mark every column is as it is declared
  have hcolumn : ∀ name c, Keyed.get? t.storedColumns name = some c →
      (Keyed.get? columns name).map Column.canonical =
        some { c with isStatic := (markOf ds name).getD c.isStatic } := by
    intro name c hc
    obtain ⟨a, ha, hmarked⟩ := halike.get? ((hdone.get?_eq name).trans hc)
    obtain ⟨-, hcanonical⟩ := Table.storedColumn_canonical hprepared.wellFormed hbrackets hc
    rw [ha, Option.map_some, hmarked]
    obtain ⟨type, argument, mark⟩ := c
    simp only [Column.canonical, Column.mk.injEq] at hcanonical ⊢
    rw [hcanonical.1, hcanonical.2.1]
  constructor
  · intro hall e he
    cases e with
    | added name new => trivial
    | removed name old => trivial
    | changed name aspect old new =>
      intro hwidens
      have hnew := (hpending.sides he).2
      have hmark : markOf ds name = some old.isStatic :=
        (markOf_of_mem hpending.names he).trans (if_pos hwidens)
      have hsame : some { new with isStatic := (markOf ds name).getD new.isStatic } = some new :=
        (hcolumn name new hnew).symm.trans ((hall name).trans hnew)
      rw [hmark] at hsame
      have hisStatic := congrArg Column.isStatic (Option.some.inj hsame)
      exact hisStatic
  · intro hkeeps name
    cases hc : Keyed.get? t.storedColumns name with
    | none =>
      have habsent := Keyed.get?_eq_none.1 ((hdone.get?_eq name).trans hc)
      rw [← halike.names_eq] at habsent
      rw [Keyed.get?_eq_none.2 habsent]
      rfl
    | some c =>
      rw [hcolumn name c hc]
      cases hmark : markOf ds name with
      | none => rfl
      | some mark =>
        obtain ⟨aspect, old, new, hmem, hwidens, rfl⟩ := exists_of_markOf hmark
        have hnew := (hpending.sides hmem).2
        rw [ColumnDiff.name, hc] at hnew
        cases hnew
        have hsame := hkeeps _ hmem hwidens
        rw [hsame]
        rfl

/-! ## Whether the table is created anew -/

/-- A difference that is applied leaves a table unless it creates it anew. -/
theorem applyDiff_outcome {e : ColumnDiff} {l? : Option LiveTable}
    (h : (applyDiff t l e).outcome = .ok l?) : l? = none ↔ e.Recreates t := by
  -- every other way of applying a difference answers a table
  have hleft : ∀ {d : Draft LiveTable}, (some <$> d).outcome = .ok l? → l? ≠ none := by
    intro d hd hnone
    obtain ⟨l', -, hl', -⟩ := Draft.bind_ok hd
    cases hl'
    cases hnone
  cases e with
  | added name new =>
    obtain ⟨_, -, h, -⟩ := Draft.bind_ok h
    exact ⟨fun hnone => absurd hnone (hleft h), fun hrec => hrec.elim⟩
  | removed name old =>
    obtain ⟨_, -, h, -⟩ := Draft.bind_ok h
    exact ⟨fun hnone => absurd hnone (hleft h), fun hrec => hrec.elim⟩
  | changed name aspect old new =>
    simp only [applyDiff] at h
    by_cases hwidens : aspect = .type ∧ old.widensTo new = true
    · rw [if_pos hwidens] at h
      obtain ⟨_, -, h, -⟩ := Draft.bind_ok h
      exact ⟨fun hnone => absurd hnone (hleft h), fun hrec => absurd hwidens hrec.1⟩
    rw [if_neg hwidens] at h
    by_cases hkey : t.isKey name = true
    · rw [if_pos hkey] at h
      obtain ⟨_, -, h, -⟩ := Draft.bind_ok h
      obtain ⟨_, -, h, -⟩ := Draft.bind_ok h
      cases h
      exact ⟨fun _ => ⟨hwidens, hkey⟩, fun _ => rfl⟩
    · rw [if_neg hkey] at h
      obtain ⟨_, -, h, -⟩ := Draft.bind_ok h
      obtain ⟨_, -, h, -⟩ := Draft.bind_ok h
      exact ⟨fun hnone => absurd hnone (hleft h), fun hrec => absurd hrec.2 hkey⟩

/-- Differences that are applied to the end leave a table unless one of them creates it anew. -/
theorem applyDiffs_outcome : ∀ {ds : List ColumnDiff} {l : LiveTable} {l? : Option LiveTable},
    (applyDiffs t l ds).outcome = .ok l? → (l? = none ↔ ∃ e ∈ ds, e.Recreates t)
  | [], l, l?, h => by
    cases h
    simp
  | e :: ds, l, l?, h => by
    obtain ⟨l₁?, hfirst, hrest, -⟩ := Draft.bind_ok h
    have hrecreates := applyDiff_outcome hfirst
    cases l₁? with
    | none =>
      cases hrest
      exact ⟨fun _ => ⟨e, List.mem_cons_self, hrecreates.1 rfl⟩, fun _ => rfl⟩
    | some l₁ =>
      have hnot : ¬ e.Recreates t := fun hrec => nomatch hrecreates.2 hrec
      rw [applyDiffs_outcome hrest]
      simp only [List.mem_cons, exists_eq_or_imp, hnot, false_or]

end Migration

end WideColumn
