import WideColumn.Proofs.Shape

/-!
# The differences of columns

Whether a column differs between two tables depends on nothing but what the two have under its name
(`ColumnDiff.at?`). So bringing one column in line takes its difference away and leaves the others
(`SchemaDiff.Pending.next`), and when no difference is left the columns are the same.
-/

namespace WideColumn

namespace Column

theorem changedAspect?_eq_none {old new : Column} : old.changedAspect? new = none ↔ old = new := by
  obtain ⟨type, argument, isStatic⟩ := old
  obtain ⟨type', argument', isStatic'⟩ := new
  simp only [changedAspect?, mk.injEq]
  by_cases htype : type = type'
  · by_cases hargument : argument = argument'
    · by_cases hstatic : isStatic = isStatic' <;> simp [htype, hargument, hstatic]
    · simp [htype, hargument]
  · simp [htype]

end Column

namespace ColumnDiff

/-- The difference of what two tables have under a name. -/
def at? (name : String) : Option Column → Option Column → Option ColumnDiff
  | none, some new => some (.added name new)
  | some old, none => some (.removed name old)
  | some old, some new => (old.changedAspect? new).map fun a => .changed name a old new
  | none, none => none

theorem at?_name {name : String} {old? new? : Option Column} {d : ColumnDiff}
    (h : at? name old? new? = some d) : d.name = name := by
  cases old? with
  | none =>
    cases new? with
    | none => cases h
    | some new =>
      cases h
      rfl
  | some old =>
    cases new? with
    | none =>
      cases h
      rfl
    | some new =>
      obtain ⟨a, -, rfl⟩ := Option.map_eq_some_iff.1 h
      rfl

theorem at?_eq_none {name : String} {old? new? : Option Column} :
    at? name old? new? = none ↔ old? = new? := by
  rcases old? with _ | old <;> rcases new? with _ | new
  · simp [at?]
  · simp [at?]
  · simp [at?]
  · simp [at?, Column.changedAspect?_eq_none]

/-- A difference has the two sides of which it is one. -/
theorem at?_sides {name : String} {old? new? : Option Column} {d : ColumnDiff}
    (h : at? name old? new? = some d) : old? = d.old? ∧ new? = d.new? := by
  cases old? with
  | none =>
    cases new? with
    | none => cases h
    | some new =>
      cases h
      exact ⟨rfl, rfl⟩
  | some old =>
    cases new? with
    | none =>
      cases h
      exact ⟨rfl, rfl⟩
    | some new =>
      obtain ⟨a, -, rfl⟩ := Option.map_eq_some_iff.1 h
      exact ⟨rfl, rfl⟩

end ColumnDiff

namespace SchemaDiff

variable {live declared : List (String × Column)}

theorem columnDiff?_eq {e : String × Column} :
    columnDiff? live e = ColumnDiff.at? e.1 (Keyed.get? live e.1) (some e.2) := by
  unfold columnDiff?
  cases Keyed.get? live e.1 <;> rfl

/-- The differences of columns are those of what the two tables have under a name. -/
theorem mem_columnDiffs (hlive : (Keyed.names live).Nodup)
    (hdeclared : (Keyed.names declared).Nodup)
    {d : ColumnDiff} : d ∈ columnDiffs live declared ↔
      ColumnDiff.at? d.name (Keyed.get? live d.name) (Keyed.get? declared d.name) = some d := by
  unfold columnDiffs
  rw [List.mem_append, List.mem_filterMap, List.mem_map]
  constructor
  · rintro (⟨e, he, hd⟩ | ⟨e, he, rfl⟩)
    · rw [columnDiff?_eq] at hd
      rw [ColumnDiff.at?_name hd, Keyed.get?_of_mem hdeclared he]
      exact hd
    · obtain ⟨hmem, hnone⟩ := List.mem_filter.1 he
      rw [Option.isNone_iff_eq_none] at hnone
      simp only [ColumnDiff.name]
      rw [Keyed.get?_of_mem hlive hmem, hnone]
      rfl
  · intro h
    cases hnew : Keyed.get? declared d.name with
    | some new =>
      rw [hnew] at h
      exact .inl ⟨(d.name, new), Keyed.mem_of_get? hnew, columnDiff?_eq.trans h⟩
    | none =>
      rw [hnew] at h
      cases hold : Keyed.get? live d.name with
      | none =>
        rw [hold] at h
        cases h
      | some old =>
        rw [hold] at h
        refine .inr ⟨(d.name, old), List.mem_filter.2 ⟨Keyed.mem_of_get? hold, ?_⟩,
          Option.some.inj h⟩
        exact Option.isNone_iff_eq_none.2 hnew

/-- Each column has one difference at most. -/
theorem nodup_columnDiffs (hlive : (Keyed.names live).Nodup)
    (hdeclared : (Keyed.names declared).Nodup) :
    ((columnDiffs live declared).map ColumnDiff.name).Nodup := by
  have hnamed : ∀ {es : List (String × Column)},
      ((es.filterMap (columnDiff? live)).map ColumnDiff.name).Sublist (Keyed.names es) := by
    intro es
    induction es with
    | nil => exact .slnil
    | cons e es ih =>
      rw [List.filterMap_cons]
      cases hd : columnDiff? live e with
      | none => exact ih.cons _
      | some d =>
        have hname : d.name = e.1 := ColumnDiff.at?_name (columnDiff?_eq.symm.trans hd)
        rw [List.map_cons, hname]
        exact ih.cons_cons _
  unfold columnDiffs
  rw [List.map_append, List.map_map]
  refine List.nodup_append.2 ⟨hdeclared.sublist hnamed, ?_, fun x hx y hy hxy => ?_⟩
  · exact hlive.sublist (List.filter_sublist.map _)
  · obtain ⟨e, he, rfl⟩ := List.mem_map.1 hy
    have habsent := Option.isNone_iff_eq_none.1 (List.mem_filter.1 he).2
    refine Keyed.get?_eq_none.1 habsent ?_
    rw [show e.1 = x from hxy.symm]
    exact hnamed.subset hx

/-- The differences that are still to be applied are those of the columns as they are now. -/
structure Pending (declared : List (String × Column)) (ds : List ColumnDiff)
    (columns : List (String × Column)) : Prop where
  distinct : (Keyed.names columns).Nodup
  distinctDeclared : (Keyed.names declared).Nodup
  names : (ds.map ColumnDiff.name).Nodup
  mem : ∀ d, d ∈ ds ↔
    ColumnDiff.at? d.name (Keyed.get? columns d.name) (Keyed.get? declared d.name) = some d

namespace Pending

variable {columns columns' : List (String × Column)} {d : ColumnDiff} {ds : List ColumnDiff}

theorem columnDiffs (hlive : (Keyed.names live).Nodup) (hdeclared : (Keyed.names declared).Nodup) :
    Pending declared (columnDiffs live declared) live :=
  ⟨hlive, hdeclared, nodup_columnDiffs hlive hdeclared, fun _ => mem_columnDiffs hlive hdeclared⟩

/-- A column that is brought in line has no difference any more, and the others keep theirs. -/
theorem next (h : Pending declared (d :: ds) columns) (hnodup : (Keyed.names columns').Nodup)
    (hself : Keyed.get? columns' d.name = Keyed.get? declared d.name)
    (hothers : ∀ n, n ≠ d.name → Keyed.get? columns' n = Keyed.get? columns n) :
    Pending declared ds columns' := by
  obtain ⟨hd, hds⟩ := List.nodup_cons.1 h.names
  refine ⟨hnodup, h.distinctDeclared, hds, fun e => ?_⟩
  by_cases hname : e.name = d.name
  · rw [hname, hself, ColumnDiff.at?_eq_none.2 rfl]
    exact ⟨fun he => absurd (hname ▸ List.mem_map_of_mem he) hd, fun he => nomatch he⟩
  · rw [hothers _ hname, ← h.mem e, List.mem_cons]
    exact ⟨.inr, fun he => he.resolve_left fun heq => hname (heq ▸ rfl)⟩

/-- A column that is added or altered to be as it is declared. -/
theorem put {new : Column} (h : Pending declared (d :: ds) columns)
    (hnew : Keyed.get? declared d.name = some new) :
    Pending declared ds (Keyed.put d.name new columns) :=
  h.next (Keyed.nodup_put h.distinct) (Keyed.get?_put_self.trans hnew.symm)
    fun _ hn => Keyed.get?_put_of_ne hn

/-- A column that is not declared is removed. -/
theorem erase (h : Pending declared (d :: ds) columns) (hnew : Keyed.get? declared d.name = none) :
    Pending declared ds (Keyed.erase d.name columns) :=
  h.next (Keyed.nodup_erase h.distinct) (Keyed.get?_erase_self.trans hnew.symm)
    fun _ hn => Keyed.get?_erase_of_ne hn

/-- A column is removed and added as it is declared. -/
theorem replace {new : Column} (h : Pending declared (d :: ds) columns)
    (hnew : Keyed.get? declared d.name = some new) :
    Pending declared ds (Keyed.put d.name new (Keyed.erase d.name columns)) :=
  h.next (Keyed.nodup_put (Keyed.nodup_erase h.distinct)) (Keyed.get?_put_self.trans hnew.symm)
    fun _ hn => (Keyed.get?_put_of_ne hn).trans (Keyed.get?_erase_of_ne hn)

/-- When nothing is pending the columns are the declared ones. -/
theorem get?_eq (h : Pending declared [] columns) (name : String) :
    Keyed.get? columns name = Keyed.get? declared name := by
  cases hd : ColumnDiff.at? name (Keyed.get? columns name) (Keyed.get? declared name) with
  | none => exact ColumnDiff.at?_eq_none.1 hd
  | some d =>
    have hname := ColumnDiff.at?_name hd
    rw [← hname] at hd
    exact nomatch (h.mem d).2 hd

/-- What is pending says what the two tables have under its name. -/
theorem sides (h : Pending declared ds columns) (hd : d ∈ ds) :
    Keyed.get? columns d.name = d.old? ∧ Keyed.get? declared d.name = d.new? :=
  ColumnDiff.at?_sides ((h.mem d).1 hd)

end Pending

end SchemaDiff

end WideColumn
