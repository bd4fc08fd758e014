import WideColumn.Migration.Plan
import WideColumn.Proofs.Outcome

/-!
# Watching the moves of a draft

A watch follows the moves of a draft with a state of its own and says which questions may be asked
and which statements may be sent in which state. `Draft.Keeps w s d post` says that a draft that
starts in the state `s` does only what the watch allows, and that what it comes to, when it ends
well, satisfies `post` together with the state it leaves behind. There is one rule for each way of
putting a draft together and one for each statement a plan sends; proofs about plans use the rules
and never look at the list of moves.
-/

namespace WideColumn

/-- A state that follows the moves of a draft, and the questions and statements it allows. -/
structure Watch (σ : Type) where
  allowsAsk : σ → Question → Prop := fun _ _ => True
  onAsk : σ → Question → σ
  allows : σ → Ddl Identifier → Prop
  onSend : σ → Ddl Identifier → σ

namespace Watch

variable {σ : Type}

/-- The state after a move. -/
def after (w : Watch σ) (s : σ) : Move → σ
  | .ask q => w.onAsk s q
  | .send st => w.onSend s st.statement

/-- The move is allowed in a state. -/
def Allows (w : Watch σ) (s : σ) : Move → Prop
  | .ask q => w.allowsAsk s q
  | .send st => w.allows s st.statement

/-- Every move is allowed where it is made. -/
def AllowsAll (w : Watch σ) : σ → List Move → Prop
  | _, [] => True
  | s, m :: ms => w.Allows s m ∧ AllowsAll w (w.after s m) ms

/-- The moves of two parts are allowed when the second ones are where the first ones lead to. -/
theorem allowsAll_append (w : Watch σ) : ∀ (ms ms' : List Move) (s : σ),
    w.AllowsAll s (ms ++ ms') ↔ w.AllowsAll s ms ∧ w.AllowsAll (ms.foldl w.after s) ms'
  | [], ms', s => by simp [AllowsAll]
  | m :: ms, ms', s => by
    have ih := allowsAll_append w ms ms' (w.after s m)
    simp only [List.cons_append, AllowsAll, List.foldl_cons, ih, and_assoc]

/-- Each of the moves is allowed in some state. -/
theorem AllowsAll.of_mem {w : Watch σ} : ∀ {ms : List Move} {s : σ} {m : Move},
    w.AllowsAll s ms → m ∈ ms → ∃ s', w.Allows s' m
  | _ :: _, s, m, ⟨hfirst, hrest⟩, hm => by
    rcases List.mem_cons.1 hm with rfl | hm
    · exact ⟨s, hfirst⟩
    · exact of_mem hrest hm

/-- Moves are allowed when each of them is where the ones before it lead to. -/
theorem allowsAll_of_each {w : Watch σ} {ms : List Move} {s : σ}
    (h : ∀ before m rest, ms = before ++ m :: rest → w.Allows (before.foldl w.after s) m) :
    w.AllowsAll s ms := by
  induction ms generalizing s with
  | nil => trivial
  | cons m ms ih =>
    refine ⟨h [] m ms rfl, ih fun before m' rest hms => ?_⟩
    exact h (m :: before) m' rest (congrArg (m :: ·) hms)

end Watch

namespace Draft

/-- It does not matter how parts are grouped, and a part without moves adds nothing. -/
instance : LawfulMonad Draft := by
  refine LawfulMonad.mk' Draft (fun d => ?_) (fun _ _ => rfl) fun d f g => ?_
  · change Draft.bind d Draft.pure = d
    obtain ⟨moves, outcome⟩ := d
    cases outcome with
    | error f => rfl
    | ok a => simp [Draft.bind, Draft.pure]
  · change Draft.bind (Draft.bind d f) g = Draft.bind d fun a => Draft.bind (f a) g
    unfold Draft.bind
    cases d.outcome with
    | error e => rfl
    | ok a =>
      dsimp only
      cases (f a).outcome with
      | error e => rfl
      | ok b => simp only [List.append_assoc]

variable {σ α β : Type} {w : Watch σ} {s : σ}

/-- The draft does only what the watch allows, and what it comes to satisfies `post` together with
the state it leaves behind. -/
def Keeps (w : Watch σ) (s : σ) (d : Draft α) (post : α → σ → Prop) : Prop :=
  w.AllowsAll s d.moves ∧ ∀ a, d.outcome = .ok a → post a (d.moves.foldl w.after s)

/-! ## Putting drafts together -/

theorem Keeps.pure {a : α} {post : α → σ → Prop} (h : post a s) :
    Keeps w s (Pure.pure a) post :=
  ⟨trivial, fun _ hb => Except.ok.inj hb ▸ h⟩

theorem Keeps.fail {f : Failure} {post : α → σ → Prop} : Keeps w s (Draft.fail f) post :=
  ⟨trivial, fun _ hb => nomatch hb⟩

/-- A computation without moves. -/
theorem Keeps.lift {r : Except Failure α} {post : α → σ → Prop}
    (h : ∀ a, r = .ok a → post a s) : Keeps w s (Draft.lift r) post :=
  ⟨trivial, h⟩

theorem Keeps.ask {q : Question} {post : Unit → σ → Prop} (hallows : w.allowsAsk s q)
    (h : post () (w.onAsk s q)) : Keeps w s (Draft.ask q) post :=
  ⟨⟨hallows, trivial⟩, fun _ _ => h⟩

/-- A weaker condition on what the draft comes to. -/
theorem Keeps.mono {d : Draft α} {post post' : α → σ → Prop} (h : Keeps w s d post)
    (hpost : ∀ a s', post a s' → post' a s') : Keeps w s d post' :=
  ⟨h.1, fun a ha => hpost a _ (h.2 a ha)⟩

/-- The second part starts where the first one leaves. -/
theorem Keeps.bind {d : Draft α} {f : α → Draft β} {post : β → σ → Prop}
    (h : Keeps w s d fun a s' => Keeps w s' (f a) post) : Keeps w s (d >>= f) post := by
  obtain ⟨hmoves, hnext⟩ := h
  change Keeps w s (Draft.bind d f) post
  unfold Draft.bind
  cases ho : d.outcome with
  | error e => exact ⟨hmoves, fun _ hb => nomatch hb⟩
  | ok a =>
    obtain ⟨hf, hpost⟩ := hnext a ho
    refine ⟨(w.allowsAll_append d.moves (f a).moves s).2 ⟨hmoves, hf⟩, fun b hb => ?_⟩
    rw [List.foldl_append]
    exact hpost b hb

theorem Keeps.map {g : α → β} {d : Draft α} {post : β → σ → Prop}
    (h : Keeps w s d fun a s' => post (g a) s') : Keeps w s (g <$> d) post :=
  Keeps.bind (h.mono fun _ _ ha => Keeps.pure ha)

/-- Parts over a list keep an invariant when each of them does; the parts done so far are in
`done`. -/
theorem Keeps.foldlM {ι : Type} {f : α → ι → Draft α} (inv : List ι → α → σ → Prop)
    {xs : List ι} : ∀ {done todo : List ι} {a : α} {s : σ},
      (∀ done x rest a s, xs = done ++ x :: rest → inv done a s →
        Keeps w s (f a x) fun a s => inv (done ++ [x]) a s) →
      xs = done ++ todo → inv done a s → Keeps w s (todo.foldlM f a) fun a s => inv xs a s
  | done, [], a, s, _, hxs, h => by
    rw [List.append_nil] at hxs
    subst hxs
    exact Keeps.pure h
  | done, x :: rest, a, s, hstep, hxs, h => by
    rw [List.foldlM_cons]
    refine Keeps.bind ((hstep done x rest a s hxs h).mono fun a' s' ha' => ?_)
    exact Keeps.foldlM inv hstep (by simp [hxs]) ha'

/-- Parts over a list, each of which keeps an invariant. -/
theorem Keeps.foldlM_inv {ι : Type} {f : α → ι → Draft α} (inv : α → σ → Prop) {xs : List ι} {a : α}
    (hstep : ∀ x ∈ xs, ∀ a s, inv a s → Keeps w s (f a x) inv) (h : inv a s) :
    Keeps w s (xs.foldlM f a) inv := by
  refine Keeps.foldlM (fun _ => inv) (fun done x rest a s hxs ha => ?_) (List.nil_append xs).symm h
  exact hstep x (hxs ▸ List.mem_append_right done List.mem_cons_self) a s ha

/-- Parts over a list that come to nothing, each of which keeps an invariant. -/
theorem Keeps.forM {ι : Type} {f : ι → Draft Unit} (inv : σ → Prop) :
    ∀ {xs : List ι} {s : σ}, (∀ x ∈ xs, ∀ s, inv s → Keeps w s (f x) fun _ => inv) → inv s →
      Keeps w s (xs.forM f) fun _ => inv
  | [], _, _, h => Keeps.pure h
  | x :: xs, s, hstep, h => by
    change Keeps w s (f x >>= fun _ => xs.forM f) _
    refine Keeps.bind ((hstep x (by simp) s h).mono fun _ s' hs' => ?_)
    exact Keeps.forM inv (fun y hy => hstep y (List.mem_cons_of_mem x hy)) hs'

/-- Parts over a list that come to nothing, of which the ones done so far are in `done`. -/
theorem Keeps.forM_done {ι : Type} {f : ι → Draft Unit} (inv : List ι → σ → Prop) {xs : List ι} :
    ∀ {done todo : List ι} {s : σ},
      (∀ done x s, x ∈ xs → inv done s → Keeps w s (f x) fun _ => inv (done ++ [x])) →
      xs = done ++ todo → inv done s → Keeps w s (todo.forM f) fun _ => inv xs
  | done, [], s, _, hxs, h => by
    rw [List.append_nil] at hxs
    subst hxs
    exact Keeps.pure h
  | done, x :: rest, s, hstep, hxs, h => by
    change Keeps w s (f x >>= fun _ => rest.forM f) _
    have hmem : x ∈ xs := hxs ▸ List.mem_append_right done List.mem_cons_self
    refine Keeps.bind ((hstep done x s hmem h).mono fun _ s' hs' => ?_)
    exact Keeps.forM_done inv hstep (by simp [hxs]) hs'

/-- A statement is sent once its parts have been checked and its names accepted. -/
theorem Keeps.send {name : String} {phase : Phase} {kind : StatementKind} {made : Checked α}
    {ddl : α → Except Failure (Ddl String)} {post : Unit → σ → Prop}
    (h : ∀ a d statement, made = .ok a → ddl a = .ok d → d.accept = .ok statement →
      w.allows s statement ∧ post () (w.onSend s statement)) :
    Keeps w s (Draft.send name phase kind made ddl) post := by
  unfold Draft.send
  refine Keeps.bind (Keeps.lift fun statement hst => ?_)
  cases made with
  | bad issues => exact nomatch hst
  | ok a =>
    change (ddl a >>= Ddl.accept) = .ok statement at hst
    cases hd : ddl a with
    | error e =>
      rw [hd] at hst
      exact nomatch hst
    | ok d =>
      rw [hd] at hst
      obtain ⟨hallows, hpost⟩ := h a d statement rfl hd hst
      exact ⟨⟨hallows, trivial⟩, fun _ _ => hpost⟩

/-! ## Drafts that end well -/

/-- A draft that ends well has made the moves of both parts. -/
theorem bind_ok {α β : Type} {d : Draft α} {f : α → Draft β} {b : β}
    (h : (d >>= f).outcome = .ok b) : ∃ a, d.outcome = .ok a ∧ (f a).outcome = .ok b ∧
      (d >>= f).moves = d.moves ++ (f a).moves := by
  change (Draft.bind d f).outcome = .ok b at h
  change ∃ a, _ ∧ _ ∧ (Draft.bind d f).moves = _
  unfold Draft.bind at h ⊢
  cases ho : d.outcome with
  | error e =>
    rw [ho] at h
    cases h
  | ok a =>
    rw [ho] at h
    exact ⟨a, rfl, h, rfl⟩

/-- A statement that is sent is the one made of the checked parts. -/
theorem send_ok {α : Type} {name : String} {phase : Phase} {kind : StatementKind}
    {made : Checked α} {ddl : α → Except Failure (Ddl String)} {u : Unit}
    (h : (Draft.send name phase kind made ddl).outcome = .ok u) :
    ∃ a d statement, made = .ok a ∧ ddl a = .ok d ∧ d.accept = .ok statement ∧
      (Draft.send name phase kind made ddl).moves = [.send ⟨name, phase, statement⟩] := by
  obtain ⟨statement, hst, -, hmoves⟩ := bind_ok h
  cases made with
  | bad issues => cases hst
  | ok a =>
    obtain ⟨d, hd, haccept⟩ := of_bind_ok (show (ddl a >>= Ddl.accept) = .ok statement from hst)
    exact ⟨a, d, statement, rfl, hd, haccept, hmoves⟩

/-- The draft ends well, and what it comes to satisfies `post`. -/
def Ends {α : Type} (d : Draft α) (post : α → Prop) : Prop := ∃ a, d.outcome = .ok a ∧ post a

section

variable {α β : Type} {d : Draft α}

theorem Ends.pure {a : α} {post : α → Prop} (h : post a) : Ends (Pure.pure a) post :=
  ⟨a, rfl, h⟩

theorem Ends.lift {r : Except Failure α} {a : α} {post : α → Prop} (hr : r = .ok a) (h : post a) :
    Ends (Draft.lift r) post := ⟨a, hr, h⟩

theorem Ends.ask {q : Question} {post : Unit → Prop} (h : post ()) : Ends (Draft.ask q) post :=
  ⟨(), rfl, h⟩

theorem Ends.mono {post post' : α → Prop} (h : Ends d post) (hpost : ∀ a, post a → post' a) :
    Ends d post' := by
  obtain ⟨a, ha, hp⟩ := h
  exact ⟨a, ha, hpost a hp⟩

theorem Ends.bind {f : α → Draft β} {post : β → Prop} (h : Ends d fun a => Ends (f a) post) :
    Ends (d >>= f) post := by
  obtain ⟨a, ha, b, hb, hp⟩ := h
  refine ⟨b, ?_, hp⟩
  change (Draft.bind d f).outcome = _
  unfold Draft.bind
  rw [ha]
  exact hb

theorem Ends.map {g : α → β} {post : β → Prop} (h : Ends d fun a => post (g a)) :
    Ends (g <$> d) post :=
  Ends.bind (h.mono fun _ ha => Ends.pure ha)

/-- Parts over a list that come to nothing, each of which ends well. -/
theorem Ends.forM {ι : Type} {f : ι → Draft Unit} : ∀ {xs : List ι},
    (∀ x ∈ xs, (f x).outcome = .ok ()) → (xs.forM f).outcome = .ok ()
  | [], _ => rfl
  | x :: xs, h => by
    have hrest : (xs.forM f).outcome = .ok () :=
      Ends.forM fun y hy => h y (List.mem_cons_of_mem x hy)
    obtain ⟨u, hu, -⟩ : Ends (f x >>= fun _ => xs.forM f) fun _ => True :=
      Ends.bind ⟨(), h x List.mem_cons_self, (), hrest, trivial⟩
    exact hu

/-- When parts over a list end well, so does each of them. -/
theorem forM_ok {ι : Type} {f : ι → Draft Unit} : ∀ {xs : List ι},
    (xs.forM f).outcome = .ok () → ∀ x ∈ xs, (f x).outcome = .ok ()
  | [], _, x, hx => nomatch hx
  | y :: ys, h, x, hx => by
    obtain ⟨u, hy, hys, -⟩ := bind_ok (show (f y >>= fun _ => ys.forM f).outcome = .ok () from h)
    rcases List.mem_cons.1 hx with rfl | hx
    · exact hy
    · exact forM_ok hys x hx

/-- A statement is sent when its parts pass their checks and its names are accepted. -/
theorem Ends.send {name : String} {phase : Phase} {kind : StatementKind} {made : Checked α}
    {ddl : α → Except Failure (Ddl String)} {a : α} {d : Ddl String} {statement : Ddl Identifier}
    (hmade : made = .ok a) (hd : ddl a = .ok d) (haccept : d.accept = .ok statement) :
    (Draft.send name phase kind made ddl).outcome = .ok () := by
  obtain ⟨u, hu, -⟩ : Ends (Draft.send name phase kind made ddl) fun _ => True := by
    refine Ends.bind (Ends.lift (a := statement) ?_ ⟨(), rfl, trivial⟩)
    rw [hmade]
    change (ddl a >>= Ddl.accept) = _
    rw [hd]
    exact haccept
  exact hu

end

end Draft

end WideColumn
