import WideColumn.Proofs.Creation

/-!
# Altering a table step by step

The working copy and the simulated store stay in step while the differences of columns are applied
one after the other: what is still pending are the differences of the copy as it is now
(`Migration.Altered`). When none is left the indexes and views that still differ are dropped and
created, and the store comes to hold what `LiveTable.reconciled` says.
-/

namespace WideColumn

/-! ## Canonical live tables -/

/-- The live table is in the form in which introspection gives tables: names are distinct, types,
targets and custom indexes are canonical, each custom index is under its key, and each index has a
name of its own. -/
structure LiveTable.Canonical (l : LiveTable) : Prop where
  columns : (Keyed.names l.columns).Nodup
  types : ∀ e ∈ l.columns, e.2.canonical = e.2
  targets : ∀ text ∈ l.indexes, ∃ target, IndexTarget.ofText text = .ok target ∧
    target.canonical = text
  customIndexes : ∀ e ∈ l.customIndexes, e.1 = e.2.key ∧ e.2.canonical = e.2
  views : (Keyed.names l.views).Nodup
  ownNames : l.HasOwnNames

namespace LiveTable

variable {l : LiveTable}

/-- Canonical columns stay as they are. -/
theorem Canonical.columns_eq (h : l.Canonical) :
    l.columns.map (fun e => (e.1, e.2.canonical)) = l.columns := by
  refine (List.map_congr_left fun e he => ?_).trans (List.map_id _)
  rw [h.types e he]
  rfl

/-- What is left of the table, and what was created beside it, once its indexes and views are
brought in line. -/
def reconciled (naming : String → String) (t : Table) (d : SchemaDiff) (l : LiveTable) :
    LiveTable :=
  d.addedViews.foldl (withDeclaredView t)
    (d.addedCustomIndexes.foldl (withDeclaredCustomIndex naming t.keyedCustomIndexes)
      (d.addedIndexes.foldl (withIndexOn naming)
        (l.without ⟨d.removedIndexes, d.removedCustomIndexes, d.removedViews⟩)))

theorem columns_withDeclaredCustomIndex (naming : String → String)
    (declared : List (String × CustomIndex)) (l : LiveTable) (key : String) :
    (l.withDeclaredCustomIndex naming declared key).columns = l.columns := by
  unfold withDeclaredCustomIndex
  split <;> rfl

theorem views_withDeclaredCustomIndex (naming : String → String)
    (declared : List (String × CustomIndex)) (l : LiveTable) (key : String) :
    (l.withDeclaredCustomIndex naming declared key).views = l.views := by
  unfold withDeclaredCustomIndex
  split <;> rfl

end LiveTable

namespace Migration

open Draft

variable {naming : String → String} {same : String → Column → Column → Prop} {t : Table}
  {live l : LiveTable} {s : Simulated} {d : ColumnDiff} {ds : List ColumnDiff}

/-! ## Columns -/

/-- The relation between the columns of the store and of the copy holds of what the statement for a
difference makes of the column. -/
def Tracks (same : String → Column → Column → Prop) : ColumnDiff → Prop
  | .added name new => same name (.ofTypeText new.typeText new.isStatic) new
  | .removed _ _ => True
  | .changed name aspect old new =>
    if aspect = .type ∧ old.widensTo new then
      ∀ a, same name a old → same name (.ofTypeText new.typeText a.isStatic) new
    else same name (.ofTypeText new.typeText new.isStatic) new

theorem tracks_trivial (e : ColumnDiff) : Tracks (fun _ _ _ => True) e := by
  cases e <;> simp [Tracks]

/-- What is promised of a table whose declaration is brought in line with a live table. -/
structure Prepared (t : Table) : Prop where
  wellFormed : t.WellFormed
  identifiers : ∀ column, t.IsStored column → Name.IsIdentifier column
  apart : t.ViewsWrittenApart

theorem Prepared.keepsSpelling (h : Prepared t) {name : String} {c : Column}
    (hc : Keyed.get? t.storedColumns name = some c) : Name.KeepsSpelling name :=
  (h.identifiers name (Table.isStored_iff.2
    (Keyed.mem_names_of_mem (Keyed.mem_of_get? hc)))).isPlain.keepsSpelling

/-- The copy is of the live table, the store mirrors the copy, and the differences that are still to
be applied are those of the copy. -/
structure Altered (same : String → Column → Column → Prop) (t : Table) (live : LiveTable)
    (ds : List ColumnDiff) (l : LiveTable) (s : Simulated) : Prop where
  mirrors : Mirrors same l s
  pending : SchemaDiff.Pending t.storedColumns ds l.columns
  within : l.Within live

namespace Altered

/-- A column that is no key column is removed from the copy and the store. -/
theorem keeps_removeColumn {name : String} {old : Column} (h : Altered same t live ds l s)
    (hold : Keyed.get? l.columns name = some old) (hkey : name ∉ live.keyColumns) :
    Keeps (Simulated.watch naming) s (removeColumn t l name)
      fun l' s' => Mirrors same l' s' ∧ l'.columns = Keyed.erase name l.columns ∧
        l'.Within live := by
  refine (h.mirrors.keeps_removeColumn (Keyed.mem_names_of_mem (Keyed.mem_of_get? hold))
    (h.within.keyColumns ▸ hkey)).mono ?_
  rintro _ s' ⟨ds, rfl, h'⟩
  refine ⟨h', ?_, (h.within.without ds).withoutColumn name⟩
  rw [LiveTable.without_eq]
  rfl

/-- One difference is applied to the copy and the store, or the table is created anew. -/
theorem keeps_applyDiff (h : Altered same t live (d :: ds) l s) (hprepared : Prepared t)
    (hkey : live.keyColumns = t.keyColumns) (htracks : Tracks same d) :
    Keeps (Simulated.watch naming) s (applyDiff t l d) fun l? s' => match l? with
      | some l' => Altered same t live ds l' s'
      | none => s'.table? = some (t.created naming) := by
  obtain ⟨hold, hnew⟩ := h.pending.sides List.mem_cons_self
  refine Keeps.applyDiff (fun _ => trivial) ?added ?removed ?retyped ?anew ?replaced
  case added =>
    rintro name new rfl
    refine (h.mirrors.keeps_addColumn (Keyed.get?_eq_none.1 hold) (hprepared.keepsSpelling hnew)
      htracks).mono ?_
    rintro _ s' ⟨rfl, h'⟩
    exact ⟨h', h.pending.put hnew, h.within.withColumn name new⟩
  case removed =>
    rintro name old rfl
    have hnotKey : name ∉ live.keyColumns := by
      intro hmem
      obtain ⟨f, hf, hname, -⟩ := hprepared.wellFormed.key name (hkey ▸ hmem)
      exact Keyed.get?_eq_none.1 hnew (Table.isStored_iff.1 ⟨f, hf, hname⟩)
    refine (h.keeps_removeColumn hold hnotKey).mono ?_
    rintro l' s' ⟨h', hcolumns, hwithin⟩
    exact ⟨h', hcolumns ▸ h.pending.erase hnew, hwithin⟩
  case retyped =>
    rintro name aspect old new rfl hwidens
    simp only [Tracks, if_pos hwidens] at htracks
    refine (h.mirrors.keeps_retypeColumn h.pending.distinct hold htracks).mono ?_
    rintro _ s' ⟨rfl, h'⟩
    exact ⟨h', h.pending.put hnew, h.within.withColumn name new⟩
  case anew =>
    rintro name aspect old new rfl - -
    exact h.mirrors.keeps_recreate hprepared.wellFormed hprepared.identifiers hprepared.apart
  case replaced =>
    rintro name aspect old new rfl hwidens hisKey
    -- the column is dropped, so its name is free when it is added again
    simp only [Tracks, if_neg hwidens] at htracks
    have hnotKey : name ∉ live.keyColumns := by
      rw [hkey]
      simpa [Table.isKey] using hisKey
    refine (h.keeps_removeColumn hold hnotKey).mono ?_
    rintro l' s' ⟨h', hcolumns, hwithin⟩
    have habsent : name ∉ Keyed.names l'.columns := by
      rw [hcolumns]
      exact fun hmem => (Keyed.mem_names_erase.1 hmem).2 rfl
    refine (h'.keeps_addColumn habsent (hprepared.keepsSpelling hnew) htracks).mono ?_
    rintro _ s'' ⟨rfl, h''⟩
    refine ⟨h'', ?_, hwithin.withColumn name new⟩
    change SchemaDiff.Pending _ ds (Keyed.put name new l'.columns)
    exact hcolumns ▸ h.pending.replace hnew

/-- The differences are applied one after the other, unless the table is created anew. -/
theorem keeps_applyDiffs : ∀ {ds : List ColumnDiff} {l : LiveTable} {s : Simulated},
    Altered same t live ds l s → Prepared t → live.keyColumns = t.keyColumns →
    (∀ d ∈ ds, Tracks same d) →
    Keeps (Simulated.watch naming) s (applyDiffs t l ds) fun l? s' => match l? with
      | some l' => Altered same t live [] l' s'
      | none => s'.table? = some (t.created naming)
  | [], _, _, h, _, _, _ => Keeps.pure h
  | d :: ds, l, s, h, hprepared, hkey, htracks => by
    refine Keeps.bind ((h.keeps_applyDiff hprepared hkey (htracks d List.mem_cons_self)).mono
      fun l? s' hl? => ?_)
    cases l? with
    | none => exact Keeps.pure hl?
    | some l' =>
      exact keeps_applyDiffs hl? hprepared hkey fun e he => htracks e (List.mem_cons_of_mem d he)

end Altered

end Migration

end WideColumn
