import Mathlib.Data.String.Basic
import WideColumn.Statement.Basic

/-!
# Where a statement has its placeholders

A reader of a statement goes through its characters and knows whether it is inside quotes; a
question mark is a placeholder when it is outside. A text is inert when it has no placeholder and
leaves the reader outside quotes (`IsInert`). What is written of inert texts and slots has its
placeholders at the places of the slots, and nowhere else (`Piece.placeholders_written`).
-/

namespace WideColumn

/-! ## Reading -/

/-- Where a reader is: outside quotes, or behind a quote that is not closed yet. -/
inductive Quoting where
  | outside
  | inside (quote : Char)
  deriving DecidableEq, Repr

namespace Quoting

/-- Where the reader is after one more character. A quote that is written twice inside quotes closes
them and opens them again. -/
def next : Quoting → Char → Quoting
  | outside, c => if c = '\'' ∨ c = '"' then inside c else outside
  | inside quote, c => if c = quote then outside else inside quote

/-- Where the reader is after some more characters. -/
def after (q : Quoting) (cs : List Char) : Quoting := cs.foldl next q

/-- The places of the question marks outside quotes, the first character being at `place`. -/
def placeholders : Quoting → Nat → List Char → List Nat
  | _, _, [] => []
  | q, place, c :: cs =>
    if q = outside ∧ c = '?' then place :: placeholders (q.next c) (place + 1) cs
    else placeholders (q.next c) (place + 1) cs

variable {q : Quoting} {cs ds : List Char} {quote : Char}

theorem after_cons (q : Quoting) (c : Char) (cs : List Char) :
    q.after (c :: cs) = (q.next c).after cs := rfl

/-- A character that is no placeholder. -/
theorem placeholders_cons {c : Char} (h : q = outside → c ≠ '?') (place : Nat) (cs : List Char) :
    placeholders q place (c :: cs) = placeholders (q.next c) (place + 1) cs :=
  if_neg fun hmark => h hmark.1 hmark.2

theorem after_append : q.after (cs ++ ds) = (q.after cs).after ds := List.foldl_append

theorem placeholders_append : ∀ (q : Quoting) (place : Nat) (cs : List Char),
    placeholders q place (cs ++ ds) =
      placeholders q place cs ++ placeholders (q.after cs) (place + cs.length) ds
  | _, _, [] => rfl
  | q, place, c :: cs => by
    have ih := placeholders_append (q.next c) (place + 1) cs
    rw [Nat.add_assoc, Nat.add_comm 1 cs.length] at ih
    by_cases hmark : q = outside ∧ c = '?'
    · rw [List.cons_append, placeholders, if_pos hmark, placeholders, if_pos hmark, ih]
      rfl
    · have hnot : q = outside → c ≠ '?' := fun hq hc => hmark ⟨hq, hc⟩
      rw [List.cons_append, placeholders_cons hnot, placeholders_cons hnot, ih]
      rfl

/-- Inside quotes there is no placeholder, and the reader stays there until the quote comes. -/
theorem inside_of_notMem : ∀ {cs : List Char}, quote ∉ cs →
    (inside quote).after cs = inside quote ∧ ∀ place, placeholders (inside quote) place cs = []
  | [], _ => ⟨rfl, fun _ => rfl⟩
  | c :: cs, h => by
    obtain ⟨hc, hcs⟩ : quote ≠ c ∧ quote ∉ cs := by simpa using h
    obtain ⟨hafter, hnone⟩ := inside_of_notMem hcs
    have hnext : (inside quote).next c = inside quote := if_neg (Ne.symm hc)
    refine ⟨?_, fun place => ?_⟩
    · rw [after_cons, hnext, hafter]
    · rw [placeholders_cons (fun h => Quoting.noConfusion h), hnext, hnone]

end Quoting

/-- The places of the placeholders of a statement. -/
def placeholders (statement : String) : List Nat := Quoting.placeholders .outside 0 statement.toList

/-! ## Inert texts -/

/-- The text has no placeholder, and a reader that comes to it outside quotes leaves it so. -/
def IsInert (s : String) : Prop :=
  Quoting.outside.after s.toList = .outside ∧ ∀ place,
    Quoting.placeholders .outside place s.toList = []

/-- The character is no question mark and no quote. -/
def Unmarked (c : Char) : Prop := c ≠ '?' ∧ c ≠ '\'' ∧ c ≠ '"'

instance (c : Char) : Decidable (Unmarked c) := inferInstanceAs (Decidable (_ ∧ _ ∧ _))

/-- A class of characters to which neither the question mark nor a quote belongs. -/
theorem Unmarked.of_class {p : Char → Bool} {c : Char} (hc : p c = true) (hmark : p '?' = false)
    (hsingle : p '\'' = false) (hdouble : p '"' = false) : Unmarked c := by
  refine ⟨?_, ?_, ?_⟩
  · rintro rfl
    exact absurd hc (by rw [hmark]; exact Bool.false_ne_true)
  · rintro rfl
    exact absurd hc (by rw [hsingle]; exact Bool.false_ne_true)
  · rintro rfl
    exact absurd hc (by rw [hdouble]; exact Bool.false_ne_true)

/-- The text has no question mark and no quote. -/
def IsUnmarked (s : String) : Prop := ∀ c ∈ s.toList, Unmarked c

instance (s : String) : Decidable (IsUnmarked s) := List.decidableBAll Unmarked s.toList

theorem IsUnmarked.isInert {s : String} (h : IsUnmarked s) : IsInert s := by
  unfold IsUnmarked at h
  unfold IsInert
  generalize s.toList = cs at h
  induction cs with
  | nil => exact ⟨rfl, fun _ => rfl⟩
  | cons c cs ih =>
    obtain ⟨hmark, hsingle, hdouble⟩ := h c List.mem_cons_self
    obtain ⟨hafter, hnone⟩ := ih fun d hd => h d (List.mem_cons_of_mem c hd)
    have hnext : Quoting.outside.next c = .outside := if_neg (by simp [hsingle, hdouble])
    refine ⟨?_, fun place => ?_⟩
    · rw [Quoting.after_cons, hnext, hafter]
    · rw [Quoting.placeholders_cons fun _ => hmark, hnext, hnone]

/-- A fixed part of a statement: that it has no question mark and no quote is computed. -/
theorem IsInert.fixed {s : String} (h : IsUnmarked s := by decide) : IsInert s := h.isInert

theorem isInert_empty : IsInert "" := .fixed

theorem IsUnmarked.append {s t : String} (hs : IsUnmarked s) (ht : IsUnmarked t) :
    IsUnmarked (s ++ t) := by
  intro c hc
  rw [String.toList_append] at hc
  exact (List.mem_append.1 hc).elim (hs c) (ht c)

theorem IsInert.append {s t : String} (hs : IsInert s) (ht : IsInert t) : IsInert (s ++ t) := by
  unfold IsInert
  rw [String.toList_append, Quoting.after_append, hs.1]
  refine ⟨ht.1, fun place => ?_⟩
  rw [Quoting.placeholders_append, hs.1, hs.2, ht.2]
  rfl

/-- Inert texts with an inert one between them. -/
theorem IsInert.intercalate {separator : String} (hseparator : IsInert separator) :
    ∀ {ts : List String}, (∀ t ∈ ts, IsInert t) → IsInert (separator.intercalate ts)
  | [], _ => by
    rw [String.intercalate_nil]
    exact isInert_empty
  | [t], h => by
    rw [String.intercalate_singleton]
    exact h t List.mem_cons_self
  | t :: u :: ts, h => by
    rw [String.intercalate_cons_cons]
    exact ((h t List.mem_cons_self).append hseparator).append
      (hseparator.intercalate fun v hv => h v (List.mem_cons_of_mem t hv))

/-- A text between quotes, with none of them inside. -/
theorem isInert_enclosed {quote : Char} {cs : List Char} (hquote : quote = '\'' ∨ quote = '"')
    (h : quote ∉ cs) : IsInert (String.ofList (quote :: cs ++ [quote])) := by
  obtain ⟨hafter, hnone⟩ := Quoting.inside_of_notMem h
  have hopen : Quoting.outside.next quote = .inside quote := if_pos hquote
  have hclose : (Quoting.inside quote).next quote = .outside := if_pos rfl
  have hmark : quote ≠ '?' := by
    rintro rfl
    exact absurd hquote (by decide)
  unfold IsInert
  rw [String.toList_ofList]
  refine ⟨?_, fun place => ?_⟩
  · rw [List.cons_append, Quoting.after_cons, hopen, Quoting.after_append, hafter]
    exact hclose
  · rw [List.cons_append, Quoting.placeholders_cons fun _ => hmark, hopen,
      Quoting.placeholders_append,
      hnone, hafter, Quoting.placeholders_cons fun _ => hmark]
    rfl

/-- A literal: quotes inside are written twice, so that none of its question marks is outside. -/
theorem isInert_literal (s : String) : IsInert (literal s) := by
  have hdoubled : ∀ cs : List Char, (Quoting.inside '\'').after (doubleQuotes cs) = .inside '\'' ∧
      ∀ place, Quoting.placeholders (.inside '\'') place (doubleQuotes cs) = [] := by
    intro cs
    induction cs with
    | nil => exact ⟨rfl, fun _ => rfl⟩
    | cons c cs ih =>
      unfold doubleQuotes
      split
      · exact ⟨ih.1, fun place => ih.2 (place + 1 + 1)⟩
      · rename_i hc
        have hnext : (Quoting.inside '\'').next c = .inside '\'' := if_neg hc
        refine ⟨?_, fun place => ?_⟩
        · rw [Quoting.after_cons, hnext, ih.1]
        · rw [Quoting.placeholders_cons (fun h => Quoting.noConfusion h), hnext, ih.2]
  obtain ⟨hafter, hnone⟩ := hdoubled s.toList
  unfold IsInert literal
  rw [String.toList_ofList]
  refine ⟨?_, fun place => ?_⟩
  · change (Quoting.inside '\'').after (doubleQuotes s.toList ++ ['\'']) = _
    rw [Quoting.after_append, hafter]
    rfl
  · change Quoting.placeholders (.inside '\'') (place + 1) (doubleQuotes s.toList ++ ['\'']) = _
    rw [Quoting.placeholders_append, hnone, hafter]
    rfl

/-! ## What is written -/

/-- What a value is bound for: a column that is inserted, an assignment, a relation that finds rows,
or one that has to hold. -/
inductive Origin where
  | inserted (column : Identifier)
  | assigned (a : Assignment)
  | sought (r : Relation)
  | required (r : Relation)

/-- A value that is bound, and what it is bound for. -/
structure Slot where
  origin : Origin
  value : Value

/-- The values of slots that are made of parameters are the parameters. -/
theorem Slot.values_flatMap {α : Type} (xs : List α) (origin : α → Origin)
    (params : α → List Value) :
    (xs.flatMap fun x => (params x).map (Slot.mk (origin x))).map Slot.value =
      xs.flatMap params := by
  rw [List.map_flatMap]
  refine List.flatMap_congr fun x _ => ?_
  rw [List.map_map]
  exact List.map_id _

/-- A statement is written of texts and of slots, for each of which it has a question mark. -/
inductive Piece where
  | text (s : String)
  | slot (s : Slot)

namespace Piece

/-- What is written of a piece. -/
def render : Piece → String
  | text s => s
  | slot _ => "?"

/-- What is written of pieces one after the other. -/
def written : List Piece → String
  | [] => ""
  | p :: ps => p.render ++ written ps

/-- The slots of pieces. -/
def slots : List Piece → List Slot
  | [] => []
  | text _ :: ps => slots ps
  | slot s :: ps => s :: slots ps

/-- The places of the slots, the first piece being written at `place`. -/
def places : Nat → List Piece → List Nat
  | _, [] => []
  | place, text s :: ps => places (place + s.toList.length) ps
  | place, slot _ :: ps => place :: places (place + 1) ps

/-- Pieces with a text between them. -/
def joined (separator : String) : List (List Piece) → List Piece
  | [] => []
  | [ps] => ps
  | ps :: qs :: rest => ps ++ text separator :: joined separator (qs :: rest)

/-- The texts among the pieces are inert. -/
def AllInert (ps : List Piece) : Prop := ∀ s, text s ∈ ps → IsInert s

variable {ps qs : List Piece} {separator : String}

@[simp] theorem written_nil : written [] = "" := rfl

@[simp] theorem written_cons (p : Piece) (ps : List Piece) :
    written (p :: ps) = p.render ++ written ps := rfl

@[simp] theorem render_text (s : String) : (text s).render = s := rfl

@[simp] theorem render_slot (s : Slot) : (slot s).render = "?" := rfl

@[simp] theorem written_append : ∀ ps qs : List Piece, written (ps ++ qs) = written ps ++ written qs
  | [], qs => (String.empty_append).symm
  | p :: ps, qs => by
    rw [List.cons_append, written_cons, written_append ps qs, written_cons, String.append_assoc]

@[simp] theorem slots_nil : slots [] = [] := rfl

@[simp] theorem slots_text (s : String) (ps : List Piece) : slots (text s :: ps) = slots ps := rfl

@[simp] theorem slots_slot (s : Slot) (ps : List Piece) : slots (slot s :: ps) = s :: slots ps :=
  rfl

@[simp] theorem slots_append : ∀ ps qs : List Piece, slots (ps ++ qs) = slots ps ++ slots qs
  | [], _ => rfl
  | text _ :: ps, qs => slots_append ps qs
  | slot s :: ps, qs => congrArg (s :: ·) (slots_append ps qs)

theorem written_joined : ∀ pss : List (List Piece),
    written (joined separator pss) = separator.intercalate (pss.map written)
  | [] => String.intercalate_nil.symm
  | [ps] => String.intercalate_singleton.symm
  | ps :: qs :: rest => by
    have ih := written_joined (qs :: rest)
    rw [joined, written_append, written_cons, render_text, ih, List.map_cons, List.map_cons,
      List.map_cons, String.intercalate_cons_cons, String.append_assoc]

theorem slots_joined : ∀ pss : List (List Piece), slots (joined separator pss) = pss.flatMap slots
  | [] => rfl
  | [ps] => by simp [joined]
  | ps :: qs :: rest => by
    have ih := slots_joined (qs :: rest)
    rw [joined, slots_append, slots_text, ih]
    rfl

@[simp] theorem length_places : ∀ (place : Nat) (ps : List Piece),
    (places place ps).length = (slots ps).length
  | _, [] => rfl
  | place, text s :: ps => length_places (place + s.toList.length) ps
  | place, slot _ :: ps => congrArg (· + 1) (length_places (place + 1) ps)

theorem allInert_nil : AllInert [] := fun _ h => nomatch h

theorem AllInert.text_cons {s : String} (hs : IsInert s) (h : AllInert ps) :
    AllInert (text s :: ps) := by
  intro s' hmem
  rcases List.mem_cons.1 hmem with heq | hmem
  · cases heq
    exact hs
  · exact h s' hmem

theorem AllInert.slot_cons {s : Slot} (h : AllInert ps) : AllInert (slot s :: ps) := by
  intro s' hmem
  rcases List.mem_cons.1 hmem with heq | hmem
  · cases heq
  · exact h s' hmem

theorem AllInert.append (hps : AllInert ps) (hqs : AllInert qs) : AllInert (ps ++ qs) :=
  fun s hmem => (List.mem_append.1 hmem).elim (hps s) (hqs s)

theorem AllInert.joined (hseparator : IsInert separator) : ∀ {pss : List (List Piece)},
    (∀ ps ∈ pss, AllInert ps) → AllInert (joined separator pss)
  | [], _ => allInert_nil
  | [ps], h => h ps List.mem_cons_self
  | ps :: _ :: _, h =>
    (h ps List.mem_cons_self).append ((AllInert.joined hseparator fun qs hqs =>
      h qs (List.mem_cons_of_mem ps hqs)).text_cons hseparator)

/-- What is written of slots and inert texts has its placeholders at the places of the slots. -/
theorem placeholders_written : ∀ {ps : List Piece}, AllInert ps → ∀ place,
    Quoting.placeholders .outside place (written ps).toList = places place ps
  | [], _, _ => by
    rw [written_nil, String.toList_empty]
    rfl
  | text s :: ps, h, place => by
    obtain ⟨hafter, hnone⟩ := h s List.mem_cons_self
    rw [written_cons, render_text, String.toList_append, Quoting.placeholders_append, hafter, hnone,
      List.nil_append]
    exact placeholders_written (fun s' hs' => h s' (List.mem_cons_of_mem _ hs')) _
  | slot s :: ps, h, place => by
    rw [written_cons, render_slot, String.toList_append]
    change place :: Quoting.placeholders .outside (place + 1) (written ps).toList = _
    rw [placeholders_written (fun s' hs' => h s' (List.mem_cons_of_mem _ hs'))]
    rfl

/-- The pieces write a text and have slots, and no text among them has a placeholder. -/
structure Writes (ps : List Piece) (s : String) (bound : List Slot) : Prop where
  inert : AllInert ps
  written : written ps = s
  slots : slots ps = bound

namespace Writes

variable {s t : String} {bound bound' : List Slot}

theorem of_eq (h : Writes ps s bound) (hs : s = t) (hbound : bound = bound') : Writes ps t bound' :=
  ⟨h.inert, h.written.trans hs, h.slots.trans hbound⟩

theorem nil : Writes [] "" [] := ⟨allInert_nil, rfl, rfl⟩

theorem text (h : IsInert s) : Writes [.text s] s [] :=
  ⟨allInert_nil.text_cons h, String.append_empty, rfl⟩

theorem slot (s : Slot) : Writes [.slot s] "?" [s] :=
  ⟨allInert_nil.slot_cons, String.append_empty, rfl⟩

theorem append (hps : Writes ps s bound) (hqs : Writes qs t bound') :
    Writes (ps ++ qs) (s ++ t) (bound ++ bound') :=
  ⟨hps.inert.append hqs.inert, by rw [written_append, hps.written, hqs.written],
    by rw [slots_append, hps.slots, hqs.slots]⟩

/-- Parts with an inert text between them. -/
theorem joined {α : Type} {xs : List α} {pieces : α → List Piece} {text : α → String}
    {bound : α → List Slot} (hseparator : IsInert separator)
    (h : ∀ x ∈ xs, Writes (pieces x) (text x) (bound x)) :
    Writes (Piece.joined separator (xs.map pieces)) (separator.intercalate (xs.map text))
      (xs.flatMap bound) := by
  refine ⟨AllInert.joined hseparator fun ps hps => ?_, ?_, ?_⟩
  · obtain ⟨x, hx, rfl⟩ := List.mem_map.1 hps
    exact (h x hx).inert
  · rw [written_joined, List.map_map]
    exact congrArg separator.intercalate (List.map_congr_left fun x hx => (h x hx).written)
  · rw [slots_joined, List.flatMap_map]
    exact List.flatMap_congr fun x hx => (h x hx).slots

/-- The placeholders of the text are at the places of the slots. -/
theorem placeholders_eq (h : Writes ps s bound) : placeholders s = places 0 ps := by
  rw [← h.written]
  exact placeholders_written h.inert 0

/-- There are as many placeholders as slots. -/
theorem length_placeholders (h : Writes ps s bound) : (placeholders s).length = bound.length := by
  rw [h.placeholders_eq, length_places, h.slots]

end Writes

end Piece

end WideColumn
