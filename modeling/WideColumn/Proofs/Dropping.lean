import WideColumn.Proofs.Live
import WideColumn.Proofs.Sending
import WideColumn.Proofs.Simulation

/-!
# Drops one after the other

A plan drops views, indexes and custom indexes in three places: before a column, before the table,
and when they are not declared. A relation between the working copy and the state of a watch that
single drops keep (`Draft.KeptByDrops`) is kept in all three.
-/

namespace WideColumn

namespace Draft

variable {σ : Type} {w : Watch σ} {t : Table} {R : LiveTable → σ → Prop} {l : LiveTable} {s : σ}

/-- Every single drop takes the same away from the working copy and keeps the relation between the
copy and the state of the watch. So does every question. -/
structure KeptByDrops (w : Watch σ) (t : Table) (R : LiveTable → σ → Prop) : Prop where
  views : ∀ l s, R l s → (Keyed.names l.views).Nodup
  givenNames : ∀ l s, R l s → l.givenNames.Nodup
  ask : ∀ l s q, R l s → w.allowsAsk s q ∧ R l (w.onAsk s q)
  dropView : ∀ l s view, R l s → view ∈ Keyed.names l.views →
    Keeps w s (Migration.dropView t l view) fun l' s' => l' = l.withoutView view ∧ R l' s'
  dropIndex : ∀ l s text, R l s → text ∈ l.indexes →
    Keeps w s (Migration.dropIndex t l text) fun l' s' => l' = l.withoutIndex text ∧ R l' s'
  dropCustomIndex : ∀ l s key, R l s → key ∈ Keyed.names l.customIndexes →
    Keeps w s (Migration.dropCustomIndex t l key) fun l' s' =>
      l' = l.withoutCustomIndex key ∧ R l' s'

namespace KeptByDrops

/-- Parts over a list, each of which takes something away, where taking one thing away leaves the
others. -/
theorem foldl (there : LiveTable → String → Prop) {f : LiveTable → String → Draft LiveTable}
    {g : LiveTable → String → LiveTable}
    (hstep : ∀ l s x, R l s → there l x → Keeps w s (f l x) fun l' s' => l' = g l x ∧ R l' s')
    (hothers : ∀ l x y, x ≠ y → there l y → there (g l x) y) :
    ∀ {xs : List String} {l : LiveTable} {s : σ}, R l s → xs.Nodup → (∀ x ∈ xs, there l x) →
      Keeps w s (xs.foldlM f l) fun l' s' => l' = xs.foldl g l ∧ R l' s'
  | [], _, _, h, _, _ => Keeps.pure ⟨rfl, h⟩
  | x :: xs, l, s, h, hnodup, hthere => by
    obtain ⟨hx, hxs⟩ := List.nodup_cons.1 hnodup
    rw [List.foldlM_cons]
    refine Keeps.bind ((hstep l s x h (hthere x List.mem_cons_self)).mono ?_)
    rintro _ s' ⟨rfl, h'⟩
    refine foldl there hstep hothers h' hxs fun y hy => ?_
    exact hothers l x y (fun hxy => hx (hxy ▸ hy)) (hthere y (List.mem_cons_of_mem x hy))

/-- Distinct things of the copy are dropped one after the other, each by a part that takes it away
and keeps the relation. -/
theorem dropEach {view index customIndex : LiveTable → String → Draft LiveTable} {ds : Dependents}
    (hview : ∀ l s x, R l s → x ∈ Keyed.names l.views →
      Keeps w s (view l x) fun l' s' => l' = l.withoutView x ∧ R l' s')
    (hindex : ∀ l s x, R l s → x ∈ l.indexes →
      Keeps w s (index l x) fun l' s' => l' = l.withoutIndex x ∧ R l' s')
    (hcustomIndex : ∀ l s x, R l s → x ∈ Keyed.names l.customIndexes →
      Keeps w s (customIndex l x) fun l' s' => l' = l.withoutCustomIndex x ∧ R l' s')
    (h : R l s) (hds : l.Holds ds) :
    Keeps w s (Migration.dropEach view index customIndex ds l) fun l' s' =>
      l' = l.without ds ∧ R l' s' := by
  refine Keeps.bind ((foldl (fun l view => view ∈ Keyed.names l.views) hview
    (fun _ _ _ hne hmem => Keyed.mem_names_erase.2 ⟨hmem, Ne.symm hne⟩) h hds.nodupViews
    hds.views).mono ?_)
  rintro _ s₁ ⟨rfl, h₁⟩
  refine Keeps.bind ((foldl (fun l text => text ∈ l.indexes) hindex
    (fun _ _ _ hne hmem => List.mem_filter.2 ⟨hmem, bne_iff_ne.2 (Ne.symm hne)⟩) h₁
    hds.nodupIndexes fun text htext => ?_).mono ?_)
  · rw [LiveTable.foldl_withoutView]
    exact hds.indexes text htext
  rintro _ s₂ ⟨rfl, h₂⟩
  refine foldl (fun l key => key ∈ Keyed.names l.customIndexes) hcustomIndex
    (fun _ _ _ hne hmem => Keyed.mem_names_erase.2 ⟨hmem, Ne.symm hne⟩) h₂
    hds.nodupCustomIndexes fun key hkey => ?_
  rw [LiveTable.foldl_withoutIndex, LiveTable.foldl_withoutView]
  exact hds.customIndexes key hkey

variable (hR : KeptByDrops w t R)

include hR

/-- A drop under a question of its own. -/
theorem asking {q : Question} {d : Draft LiveTable} {post : LiveTable → σ → Prop}
    (hd : ∀ s, R l s → Keeps w s d post) (h : R l s) :
    Keeps w s (Draft.ask q >>= fun _ => d) post :=
  Keeps.bind (Keeps.ask (hR.ask l s q h).1 (hd _ (hR.ask l s q h).2))

/-- Distinct views of the copy are dropped. -/
theorem dropViews {views : List String} (h : R l s) (hnodup : views.Nodup)
    (hmem : ∀ view ∈ views, view ∈ Keyed.names l.views) :
    Keeps w s (views.foldlM (Migration.dropView t) l)
      fun l' s' => l' = views.foldl LiveTable.withoutView l ∧ R l' s' :=
  foldl (fun l view => view ∈ Keyed.names l.views) hR.dropView
    (fun _ _ _ hne hmem => Keyed.mem_names_erase.2 ⟨hmem, Ne.symm hne⟩) h hnodup hmem

/-- What depends on a column is dropped. -/
theorem dropDependents {column : String} (h : R l s) :
    Keeps w s (Migration.dropDependents t l column)
      fun l' s' => ∃ ds, l.dependentsOf column = .ok ds ∧ l' = l.without ds ∧ R l' s' := by
  rw [Migration.dropDependents_eq]
  refine Keeps.bind (Keeps.lift fun ds hds => ?_)
  obtain ⟨hindexes, hcustom, -⟩ := List.nodup_append.1 (hR.givenNames l s h)
  have hholds := LiveTable.holds_dependents hds (hR.views l s h) hindexes.of_map hcustom.of_map
  exact (dropEach hR.dropView hR.dropIndex hR.dropCustomIndex h hholds).mono
    fun _ _ h' => ⟨ds, hds, h'⟩

/-- What is not declared is dropped. -/
theorem dropUndeclared {d : SchemaDiff} (h : R l s) (hd : l.Holds d.removed) :
    Keeps w s (Migration.dropUndeclared t d l) fun l' s' => l' = l.without d.removed ∧ R l' s' := by
  refine dropEach (fun l _ view h hmem => hR.asking (fun s h => hR.dropView l s view h hmem) h)
    (fun l _ text h hmem => hR.asking (fun s h => hR.dropIndex l s text h hmem) h)
    (fun l s key h hmem => ?_) h hd
  obtain ⟨i, hi⟩ := Option.isSome_iff_exists.1 (Keyed.get?_isSome.2 hmem)
  unfold Migration.dropUndeclaredCustomIndex
  rw [hi]
  exact hR.asking (fun s h => hR.dropCustomIndex l s key h hmem) h

end KeptByDrops

end Draft

end WideColumn
