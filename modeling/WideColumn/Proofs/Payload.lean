import Mathlib.Data.List.Sort
import WideColumn.Proofs.Canonical
import WideColumn.Proofs.Json
import WideColumn.Proofs.Sorting

/-!
# What the key of a custom index is taken from

The text that identifies a custom index says its column, its implementation and its options, these
in the order of their names. Two canonical indexes have the same text exactly when they have the
same column, the same implementation and the same options in any order
(`CustomIndex.payload_eq_iff`), so that their keys differ only then, and whenever the digest tells
their texts apart.
-/

namespace WideColumn

namespace Value

/-! ## Maps with texts as keys -/

/-- The text of a key, when it is one. -/
def keyName : Value → String
  | text s => s
  | _ => ""

theorem less_text (s t : String) : less (.text s) (.text t) = .ok (decide (s < t)) := rfl

theorem mapM_ok_map {α ε : Type} (f : String × String → α × Except ε String)
    (hf : ∀ p, (f p).2 = .ok p.2) : ∀ ps : List (String × String),
    (ps.map f).mapM (·.2) = .ok (ps.map (·.2))
  | [] => rfl
  | p :: ps => by
    rw [List.map_cons, List.mapM_cons, hf, mapM_ok_map f hf ps]
    rfl

/-- The canonical text of a map whose keys are texts has the entries in the order of their keys. -/
theorem canonicalText_map {es : List (Value × Value)} {parts ordered : List (String × String)}
    (hentries : canonicalEntries es = parts.map fun p => (.text p.1, .ok p.2))
    (hnodup : (Keyed.names parts).Nodup) (hperm : ordered.Perm parts)
    (hordered : ordered.Pairwise fun p q => p.1 ≤ q.1) :
    canonicalText (.map es) = .ok (joined "\x7b" "\x7d" (ordered.map (·.2))) := by
  have hcompares : Sorting.ComparesBy (fun e f : Value × Except Unwritable String => less e.1 f.1)
      (fun e => e.1.keyName) (parts.map fun p => (.text p.1, .ok p.2)) := by
    intro x hx y hy
    obtain ⟨p, -, rfl⟩ := List.mem_map.1 hx
    obtain ⟨q, -, rfl⟩ := List.mem_map.1 hy
    exact less_text p.1 q.1
  have hsort : Sorting.sort (fun e f : Value × Except Unwritable String => less e.1 f.1)
      (parts.map fun p => (.text p.1, .ok p.2)) = .ok
        (ordered.map fun p => (.text p.1, .ok p.2)) := by
    refine Sorting.sort_eq_of_ordered hcompares ?_ (hperm.map _) ?_
    · rw [List.map_map]
      exact hnodup
    · exact List.pairwise_map.2 hordered
  unfold canonicalText
  rw [hentries, hsort]
  change joined "\x7b" "\x7d" <$> (ordered.map fun p => (Value.text p.1, Except.ok p.2)).mapM
    (·.2) = _
  rw [mapM_ok_map _ fun _ => rfl]
  rfl

/-- An entry of a map of texts. -/
def entryText (o : String × String) : String := jsonText o.1 ++ ": " ++ jsonText o.2

theorem canonicalEntries_texts : ∀ os : List (String × String),
    canonicalEntries (os.map fun o => (.text o.1, .text o.2)) =
      (os.map fun o => (o.1, entryText o)).map fun p => (.text p.1, .ok p.2)
  | [] => rfl
  | o :: os => by
    rw [List.map_cons, canonicalEntries, canonicalEntries_texts os, canonicalText]
    rfl

/-! ### Reading entries back -/

/-- The entries of a map one after the other. -/
def entriesText (os : List (String × String)) : String := ", ".intercalate (os.map entryText)

/-- What follows the first entry. -/
def afterEntry : List (String × String) → List Char
  | [] => []
  | o :: os => ',' :: ' ' :: (entriesText (o :: os)).toList

theorem entriesText_nil : (entriesText []).toList = [] := String.toList_empty

theorem entriesText_cons (o : String × String) (os : List (String × String)) :
    (entriesText (o :: os)).toList =
      (jsonText o.1).toList ++ ':' :: ' ' :: ((jsonText o.2).toList ++ afterEntry os) := by
  have hentry : (entryText o).toList = (jsonText o.1).toList ++ ':' :: ' ' ::
      (jsonText o.2).toList := by
    unfold entryText
    rw [String.toList_append, String.toList_append, List.append_assoc]
    rfl
  cases os with
  | nil =>
    change (", ".intercalate [entryText o]).toList = _
    rw [String.intercalate_singleton, hentry]
    simp [afterEntry]
  | cons o' os =>
    change (", ".intercalate (entryText o :: entryText o' :: os.map entryText)).toList = _
    rw [String.intercalate_cons_cons, String.toList_append, String.toList_append, hentry]
    simp [afterEntry, entriesText]

/-- The entries of a map and what follows its closing brace are determined by the characters that
are written. -/
theorem entriesText_inj : ∀ {os ps : List (String × String)} {cs ds : List Char},
    (entriesText os).toList ++ '\x7d' :: cs = (entriesText ps).toList ++ '\x7d' :: ds →
    os = ps ∧ cs = ds
  | [], [], cs, ds, h => ⟨rfl, (List.cons.inj (List.append_cancel_left h)).2⟩
  | [], p :: ps, cs, ds, h => by
    rw [entriesText_nil, entriesText_cons, toList_jsonText] at h
    exact absurd (List.cons.inj h).1 (by decide)
  | o :: os, [], cs, ds, h => by
    rw [entriesText_nil, entriesText_cons, toList_jsonText] at h
    exact absurd (List.cons.inj h).1 (by decide)
  | o :: os, p :: ps, cs, ds, h => by
    rw [entriesText_cons, entriesText_cons] at h
    simp only [List.cons_append, List.append_assoc] at h
    obtain ⟨hname, h⟩ := jsonText_append_inj h
    obtain ⟨hvalue, h⟩ := jsonText_append_inj (List.cons.inj (List.cons.inj h).2).2
    have hentry : o = p := Prod.ext hname hvalue
    cases os with
    | nil =>
      cases ps with
      | nil => exact ⟨by rw [hentry], (List.cons.inj h).2⟩
      | cons p' ps => exact absurd (List.cons.inj h).1 (by decide)
    | cons o' os =>
      cases ps with
      | nil => exact absurd (List.cons.inj h).1 (by decide)
      | cons p' ps =>
        obtain ⟨hrest, hafter⟩ := entriesText_inj (List.cons.inj (List.cons.inj h).2).2
        exact ⟨by rw [hentry, hrest], hafter⟩

end Value

namespace CustomIndex

open Value

variable {i j : CustomIndex}

/-! ## The text that identifies an index -/

/-- Options in the order of their names. -/
def ordered (options : List (String × String)) : List (String × String) :=
  options.mergeSort fun o p => decide (o.1 ≤ p.1)

theorem ordered_perm (options : List (String × String)) : (ordered options).Perm options :=
  List.mergeSort_perm _ _

theorem pairwise_ordered (options : List (String × String)) :
    (ordered options).Pairwise fun o p => o.1 ≤ p.1 := by
  refine (List.pairwise_mergeSort (fun o p q hop hpq => ?_) (fun o p => ?_) options).imp
    fun hle => of_decide_eq_true hle
  · exact decide_eq_true ((of_decide_eq_true hop).trans (of_decide_eq_true hpq))
  · rcases le_total o.1 p.1 with hle | hle <;> simp [hle]

/-- Options in order are the same exactly when the options are the same in any order. -/
theorem ordered_eq_iff {os ps : List (String × String)} (hos : (Keyed.names os).Nodup)
    (hps : (Keyed.names ps).Nodup) : ordered os = ordered ps ↔ Keyed.eqv (· == ·) os ps = true := by
  rw [Keyed.eqv_iff_perm hos hps]
  constructor
  · exact fun heq => (ordered_perm os).symm.trans (heq ▸ ordered_perm ps)
  · intro hperm
    have hnodup : (Keyed.names (ordered os)).Nodup :=
      ((ordered_perm os).map _).nodup_iff.2 hos
    have hsame : (ordered os).Perm (ordered ps) :=
      (ordered_perm os).trans (hperm.trans (ordered_perm ps).symm)
    have hfirst : Sorting.OrderedBy (fun o : String × String => o.1) (ordered os) :=
      pairwise_ordered os
    exact hfirst.eq_of_perm (pairwise_ordered ps) hnodup hsame

/-- The options of an index with distinct names, as they are written. -/
theorem canonicalText_options {options : List (String × String)}
    (hnodup : (Keyed.names options).Nodup) :
    canonicalText (optionsValue options) = .ok (joined "\x7b" "\x7d"
      ((ordered options).map entryText)) := by
  have hnames : (Keyed.names (options.map fun o => (o.1, entryText o))).Nodup := by
    unfold Keyed.names
    rw [List.map_map]
    exact hnodup
  have hordered :
      ((ordered options).map fun o => (o.1, entryText o)).Pairwise fun o p => o.1 ≤ p.1 :=
    List.pairwise_map.2 (pairwise_ordered options)
  unfold optionsValue
  rw [canonicalText_map (canonicalEntries_texts options) hnames
    ((ordered_perm options).map _) hordered,
    List.map_map]
  rfl

/-- The parts of the text that identifies an index are in the order of their keys. -/
theorem canonicalText_parts {es : List (Value × Value)} {column implementation options : String}
    (hentries : canonicalEntries es =
      [("on", column), ("using", implementation), ("options", options)].map
        fun p => (.text p.1, .ok p.2)) :
    canonicalText (.map es) = .ok (joined "\x7b" "\x7d" [column, options, implementation]) := by
  have hnodup : (Keyed.names [("on", column), ("using", implementation),
      ("options", options)]).Nodup :=
    show (["on", "using", "options"] : List String).Nodup by decide
  have hordered : [("on", column), ("options", options), ("using", implementation)].Pairwise
      fun p q => p.1 ≤ q.1 :=
    List.pairwise_map.1 (show (["on", "options", "using"] : List String).Pairwise (· ≤ ·) by decide)
  have hperm : [("on", column), ("options", options), ("using", implementation)].Perm
      [("on", column), ("using", implementation), ("options", options)] :=
    .cons _ (.swap _ _ [])
  rw [canonicalText_map hentries hnodup hperm hordered]
  rfl

/-- The text that identifies an index: its column without double quotes, its options in order, its
implementation. -/
theorem payloadOf_eq (hnodup : (Keyed.names i.options).Nodup) :
    payloadOf (.text i.column) (.text i.implementation) (optionsValue i.options) =
      .ok (joined "\x7b" "\x7d" [
        jsonText "on" ++ ": " ++ jsonText (unquoted i.column),
        jsonText "options" ++ ": " ++ joined "\x7b" "\x7d" ((ordered i.options).map entryText),
        jsonText "using" ++ ": " ++ jsonText i.implementation]) := by
  have hoptions : (if (optionsValue i.options).isTrue then optionsValue i.options else .map []) =
      optionsValue i.options := by
    unfold optionsValue
    cases i.options <;> rfl
  unfold payloadOf
  rw [hoptions]
  change canonicalText (.map [(.text "on", .text (unquoted i.column)),
    (.text "using", .text i.implementation), (.text "options", optionsValue i.options)]) = _
  rw [canonicalText_parts]
  simp only [canonicalEntries, canonicalText, canonicalText_options hnodup]
  rfl

/-- The characters of the text that identifies an index. -/
theorem toList_payload (hnodup : (Keyed.names i.options).Nodup) :
    i.payload.toList =
      "\x7b\"on\": ".toList ++ ((jsonText (unquoted i.column)).toList ++
        (", \"options\": \x7b".toList ++ ((entriesText (ordered i.options)).toList ++
          '\x7d' ::
            (", \"using\": ".toList ++ ((jsonText i.implementation).toList ++ ['\x7d']))))) := by
  have hon :
      "\x7b\"on\": ".toList = "\x7b".toList ++ ((jsonText "on").toList ++ ": ".toList) := by
    decide
  have hoptions : ", \"options\": \x7b".toList =
      ", ".toList ++ ((jsonText "options").toList ++ (": ".toList ++ "\x7b".toList)) := by decide
  have husing : ", \"using\": ".toList =
      ", ".toList ++ ((jsonText "using").toList ++ ": ".toList) := by decide
  unfold payload
  rw [payloadOf_eq hnodup, hon, hoptions, husing]
  change (joined _ _ _).toList = _
  unfold joined
  simp only [String.intercalate_cons_cons, String.intercalate_singleton, String.toList_append,
    List.append_assoc]
  rfl

/-- The text that identifies an index tells its column, its options and its implementation. -/
theorem payload_inj (hi : (Keyed.names i.options).Nodup) (hj : (Keyed.names j.options).Nodup)
    (h : i.payload = j.payload) :
    unquoted i.column = unquoted j.column ∧ ordered i.options = ordered j.options ∧
      i.implementation = j.implementation := by
  have h := congrArg String.toList h
  rw [toList_payload hi, toList_payload hj] at h
  obtain ⟨hcolumn, h⟩ := jsonText_append_inj (List.append_cancel_left h)
  obtain ⟨hoptions, h⟩ := entriesText_inj (List.append_cancel_left h)
  exact ⟨hcolumn, hoptions, (jsonText_append_inj (List.append_cancel_left h)).1⟩

/-- Two canonical indexes are identified by one text exactly when they have the same column,
implementation and options, these in any order. -/
theorem payload_eq_iff (hi : i.canonical = i) (hj : j.canonical = j)
    (hiOptions : (Keyed.names i.options).Nodup) (hjOptions : (Keyed.names j.options).Nodup) :
    i.payload = j.payload ↔ i.eqv j = true := by
  have hcolumn : ∀ {i : CustomIndex}, i.canonical = i → unquoted i.column = i.column := by
    intro i hi
    rw [← hi]
    exact unquoted_strip i.column
  unfold eqv
  rw [Bool.and_eq_true, Bool.and_eq_true, beq_iff_eq, beq_iff_eq,
    ← ordered_eq_iff hiOptions hjOptions,
    and_assoc]
  constructor
  · intro h
    obtain ⟨hsame, hoptions, himplementation⟩ := payload_inj hiOptions hjOptions h
    rw [hcolumn hi, hcolumn hj] at hsame
    exact ⟨hsame, himplementation, hoptions⟩
  · rintro ⟨hsame, himplementation, hoptions⟩
    unfold payload
    rw [payloadOf_eq hiOptions, payloadOf_eq hjOptions, hsame, himplementation, hoptions]

end CustomIndex

end WideColumn
