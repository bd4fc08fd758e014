import WideColumn.Schema.Definition
import WideColumn.Proofs.Keyed
import WideColumn.Proofs.Outcome

/-!
# What is read off a definition

A table that is registered from a map has what is written in the map, part by part
(`Definition.Reads`). What stands under keys is read entry by entry and put under the texts that the
keys come down to (`Coercion.ReadsEntries`).
-/

namespace WideColumn

/-! ## Lists and maps of values -/

theorem Value.eqv_text (s t : String) : (Value.text s).eqv (.text t) = (s == t) := by
  simp [Value.eqv, Value.eqvScalar, Value.magnitude?]

/-- Text keys are compared as texts. -/
theorem Value.get?_text_cons (k : String) (v : Value) (es : List (Value × Value)) (key : String) :
    Value.get? ((.text k, v) :: es) key = if k = key then some v else Value.get? es key := by
  change (if (Value.text key).eqv (.text k) = true then some v else Value.get? es key) = _
  simp only [Value.eqv_text, beq_iff_eq, eq_comm (a := key)]

@[simp] theorem Value.get?_nil (key : String) : Value.get? [] key = none := rfl

namespace Coercion

variable {α β γ : Type}

/-- Elements that are checked under their positions are checked one by one. -/
theorem forall₂_of_positioned {check : Coercion β} {xs : List Value} {ys : List β}
    (h : positioned check xs = .ok ys) : List.Forall₂ (fun x y => check x = .ok y) xs ys := by
  have hzip := (Checked.forall₂_of_all h).imp fun _ _ => Checked.under_ok
  have hmap : List.Forall₂ (fun x y => check x = .ok y) (xs.zipIdx.map Prod.fst) ys :=
    List.forall₂_map_left_iff.2 hzip
  rwa [List.zipIdx_map_fst] at hmap

/-- The entries are read one by one and put under the texts that their keys come down to. -/
def ReadsEntries (reads : Value × α → β → Prop) (es : List (Value × α))
    (rs : List (String × β)) : Prop :=
  ∃ ps, List.Forall₂ (fun e p => text e.1 = .ok p.1 ∧ reads e p.2) es ps ∧ rs = Keyed.ofList ps

namespace ReadsEntries

variable {reads : Value × α → β → Prop} {es : List (Value × α)} {rs : List (String × β)}

theorem nodup (h : ReadsEntries reads es rs) : (Keyed.names rs).Nodup := by
  obtain ⟨ps, -, rfl⟩ := h
  exact Keyed.nodup_ofList ps

/-- Entries may be read in two steps, of which the first leaves their keys alone. -/
theorem comp {first : Value × γ → Value × α → Prop} {given : List (Value × γ)}
    (hfirst : List.Forall₂ (fun g e => e.1 = g.1 ∧ first g e) given es)
    (h : ReadsEntries reads es rs) :
    ReadsEntries (fun g b => ∃ e, first g e ∧ reads e b) given rs := by
  obtain ⟨ps, hps, rfl⟩ := h
  refine ⟨ps, (forall₂_comp hfirst hps).imp fun g p hgp => ?_, rfl⟩
  obtain ⟨e, ⟨hkey, hge⟩, htext, hep⟩ := hgp
  exact ⟨hkey ▸ htext, e, hge, hep⟩

theorem imp {other : Value × α → β → Prop} (himp : ∀ e b, reads e b → other e b)
    (h : ReadsEntries reads es rs) : ReadsEntries other es rs := by
  obtain ⟨ps, hps, hrs⟩ := h
  exact ⟨ps, hps.imp fun e p hep => ⟨hep.1, himp e p.2 hep.2⟩, hrs⟩

end ReadsEntries

/-- Checked entries are read by the check. -/
theorem entriesOf_ok {check : α → Checked β} {es : List (Value × α)} {rs : List (String × β)}
    (h : entriesOf check es = .ok rs) : ReadsEntries (fun e b => check e.2 = .ok b) es rs := by
  obtain ⟨ps, hps, h⟩ := Checked.andThen_ok h
  cases h
  refine ⟨ps, (Checked.forall₂_of_all hps).imp fun e p hep => ?_, rfl⟩
  obtain ⟨key, value, hkey, hvalue, rfl⟩ := Checked.map2_ok hep
  exact ⟨Checked.under_ok (Checked.under_ok hkey), Checked.under_ok hvalue⟩

/-- Entries that are parsed one by one and then checked for their keys are read by the parser. -/
theorem keyed_ok (parse : Value → α → Except Failure β) {es : List (Value × α)}
    {parsed : List (Value × β)} {rs : List (String × β)}
    (hparsed : es.mapM (fun e => do return (e.1, ← parse e.1 e.2)) = .ok parsed)
    (h : keyed parsed = .ok rs) : ReadsEntries (fun e b => parse e.1 e.2 = .ok b) es rs := by
  have hfirst : List.Forall₂ (fun e p => p.1 = e.1 ∧ parse e.1 e.2 = .ok p.2) es parsed :=
    (forall₂_of_mapM hparsed).imp fun e p hep => by
      obtain ⟨b, hb, hpure⟩ := of_bind_ok hep
      cases hpure
      exact ⟨rfl, hb⟩
  refine ((entriesOf_ok h).comp hfirst).imp fun e b ⟨p, hparse, hp⟩ => ?_
  exact Checked.ok.inj hp ▸ hparse

theorem mapOf_ok {check : Coercion β} {v : Value} {rs : List (String × β)}
    (h : mapOf check v = .ok rs) :
    ∃ es, v = .map es ∧ ReadsEntries (fun e b => check e.2 = .ok b) es rs := by
  cases v with
  | map es => exact ⟨es, rfl, entriesOf_ok h⟩
  | _ => cases h

theorem required_ok {check : Coercion β} {es : List (Value × Value)} {name : String} {b : β}
    (h : required es name check = .ok b) : ∃ v, Value.get? es name = some v ∧ check v = .ok b := by
  have hmember := Checked.under_ok h
  split at hmember
  · exact ⟨_, ‹_›, hmember⟩
  · cases hmember

theorem defaulted_ok {check : Coercion β} {es : List (Value × Value)} {name : String} {absent b : β}
    (h : defaulted es name absent check = .ok b) :
    (Value.get? es name = none ∧ b = absent) ∨
      ∃ v, Value.get? es name = some v ∧ check v = .ok b := by
  unfold defaulted at h
  split at h
  · exact .inr ⟨_, ‹_›, Checked.under_ok h⟩
  · cases h
    exact .inl ⟨‹_›, rfl⟩

end Coercion

theorem Checked.toExcept_ok {α : Type} {subject : String} {c : Checked α} {a : α}
    (h : c.toExcept subject = .ok a) : c = .ok a := by
  cases c with
  | ok b => exact congrArg Checked.ok (Except.ok.inj h)
  | bad issues => cases h

/-! ## The parts of a definition -/

namespace Definition

open Coercion

/-- The columns that a view names: those that are given, or all of them. -/
def selected : Value → Except Failure (List Value)
  | .text s => .ok (if s.isEmpty then [.text "*"] else [.text s])
  | v => if v.isTrue then elements v else .ok [.text "*"]

/-- The custom indexes of a definition: those in the list, then the single one. -/
def customIndexesOf (es : List (Value × Value)) : Except Failure (List Value) := do
  let listed ← elementsOrNone (part es "custom_indexes")
  let single := part es "custom_index"
  return if single.isTrue then listed ++ [single] else listed

/-- The directions are read entry by entry. -/
def ReadsOrder (table : String) (order : Value) (directions : List (String × String)) : Prop :=
  ∃ es, entriesOrNone order = .ok es ∧
    ReadsEntries (fun e d => parseDirection (.text table) e = .ok (e.1, .text d)) es directions

/-- The view is read off the entries of a map. -/
structure ReadsView (table : String) (es : List (Value × Value)) (v : View) : Prop where
  key : parseKey (part es "key") (.text table) = .ok (v.partitionKey, v.clusteringKey)
  select : ∃ columns, selected (part es "select") = .ok columns ∧
    List.Forall₂ (fun x c => text x = .ok c) columns v.select
  order : ReadsOrder table (part es "clustering_order") v.clusteringOrder

/-- The custom index is read off the entries of a map. -/
structure ReadsCustomIndex (es : List (Value × Value)) (i : IndexDeclaration) : Prop where
  column : ∃ v, Value.get? es "on" = some v ∧ textWithin 1 none v = .ok i.column
  implementation : ∃ v, Value.get? es "using" = some v ∧ textWithin 1 none v = .ok i.implementation
  options : (Value.get? es "options" = none ∧ i.options = []) ∨
    ∃ os, Value.get? es "options" = some (.map os) ∧ ReadsEntries (fun e v => e.2 = v) os i.options

/-- The parts of a table are read off the entries of a map. -/
structure Reads (table : String) (es : List (Value × Value)) (d : TableDraft) : Prop where
  name : d.name = table
  fields : ∃ fs, part es "fields" = .map fs ∧
    ReadsEntries (fun e f => parseField e.1 e.2 table = .ok f) fs d.fields
  key : parseKey (part es "key") (.text table) = .ok (d.partitionKey, d.clusteringKey)
  order : ReadsOrder table (part es "clustering_order") d.clusteringOrder
  indexes : ∃ xs, elementsOrNone (part es "indexes") = .ok xs ∧
    List.Forall₂ (fun x s => text x = .ok s) xs d.indexes
  customIndexes : ∃ xs, customIndexesOf es = .ok xs ∧
    List.Forall₂ (fun x i => parseCustomIndex x = .ok i) xs d.customIndexes
  views : ∃ vs, entriesOrNone (part es "materialized_views") = .ok vs ∧
    ReadsEntries (fun e v => parseView e.1 e.2 table = .ok v) vs d.views

/-- The entries that declare a field: those of a map, or a type alone. -/
def fieldEntries : Value → List (Value × Value)
  | .map es => es
  | .text s => [(.text "type", .text s)]
  | _ => []

/-- A field has the name that it is declared under, the type that is read off its declaration, and
the argument that is declared apart from the type or, failing that, the one in it. -/
theorem parseField_ok {name definition : Value} {table : String} {f : Field}
    (h : parseField name definition table = .ok f) :
    ∃ type read, Value.get? (fieldEntries definition) "type" = some type ∧
      parseType table name type = .ok (f.type, read) ∧ textWithin 1 none name = .ok f.name ∧
      let given := (Value.get? (fieldEntries definition) "type_def").getD
        (part (fieldEntries definition) "typeDef")
      nullable text (if given.isTrue then given else (read.map Value.text).getD .null) =
        .ok f.argument := by
  unfold parseField at h
  dsimp only at h
  split at h
  · cases h
  · rename_i type htype
    obtain ⟨⟨typeName, read⟩, hread, h⟩ := of_bind_ok h
    obtain ⟨rules, -, h⟩ := of_bind_ok h
    obtain ⟨f₁, isStatic, h₁, -, rfl⟩ := Checked.seq_ok (Checked.toExcept_ok h)
    obtain ⟨f₂, isVirtual, h₂, -, rfl⟩ := Checked.seq_ok h₁
    obtain ⟨f₃, rules', h₃, -, rfl⟩ := Checked.seq_ok h₂
    obtain ⟨f₄, default, h₄, -, rfl⟩ := Checked.seq_ok h₃
    obtain ⟨f₅, argument, h₅, hargument, rfl⟩ := Checked.seq_ok h₄
    obtain ⟨f₆, type', h₆, htype', rfl⟩ := Checked.seq_ok h₅
    obtain ⟨s, hs, rfl⟩ := Checked.map_ok h₆
    cases htype'
    exact ⟨type, read, htype, hread, Checked.under_ok hs, Checked.under_ok hargument⟩

/-- A direction stands under the column of its entry. -/
theorem parseDirection_ok {table : Value} {e d : Value × Value}
    (h : parseDirection table e = .ok d) : d.1 = e.1 ∧ ∃ s, d.2 = .text s := by
  unfold parseDirection at h
  dsimp only at h
  split at h
  · cases h
    exact ⟨rfl, _, rfl⟩
  · cases h

theorem readsOrder {table : String} {order : Value} {given : List (Value × Value)}
    {directions : List (String × String)} (hgiven : parseOrder order (.text table) = .ok given)
    (h : mapOf text (.map given) = .ok directions) : ReadsOrder table order directions := by
  obtain ⟨es, hes, hgiven⟩ := of_bind_ok hgiven
  refine ⟨es, hes, ?_⟩
  have hfirst : List.Forall₂ (fun e d => d.1 = e.1 ∧ parseDirection (.text table) e = .ok d) es
      given :=
    (forall₂_of_mapM hgiven).imp fun e d hed => ⟨(parseDirection_ok hed).1, hed⟩
  refine ((entriesOf_ok h).comp hfirst).imp fun e direction hread => ?_
  obtain ⟨⟨column, v⟩, hparse, htext⟩ := hread
  obtain ⟨rfl, s, rfl⟩ := parseDirection_ok hparse
  cases htext
  exact hparse

/-- A view is read in four steps. -/
theorem parseView_map (name : Value) (es : List (Value × Value)) (table : String) :
    parseView name (.map es) table = (do
      let (partitionKey, clusteringKey) ← parseKey (part es "key") (.text table)
      let columns ← selected (part es "select")
      let order ← parseOrder (part es "clustering_order") (.text table)
      (View.mk <$> (positioned text columns).under "select"
        <*> pure partitionKey
        <*> pure clusteringKey
        <*> (mapOf text (.map order)).under "clustering_order").toExcept
          "MaterializedViewSchema") := by
  unfold parseView selected
  dsimp only
  refine bind_congr fun key => ?_
  generalize part es "select" = select
  cases select <;> dsimp only <;> split <;> rfl

theorem parseView_ok {name definition : Value} {table : String} {v : View}
    (h : parseView name definition table = .ok v) :
    ∃ es, definition = .map es ∧ ReadsView table es v := by
  cases definition with
  | map es =>
    rw [parseView_map] at h
    obtain ⟨⟨partition, clustering⟩, hkey, h⟩ := of_bind_ok h
    obtain ⟨columns, hcolumns, h⟩ := of_bind_ok h
    obtain ⟨given, hgiven, h⟩ := of_bind_ok h
    obtain ⟨f, order, hf, horder, rfl⟩ := Checked.seq_ok (Checked.toExcept_ok h)
    obtain ⟨f', clustering', hf', hclustering, rfl⟩ := Checked.seq_ok hf
    obtain ⟨f'', partition', hf'', hpartition, rfl⟩ := Checked.seq_ok hf'
    obtain ⟨select, hselect, rfl⟩ := Checked.map_ok hf''
    cases hclustering
    cases hpartition
    exact ⟨es, rfl, hkey, ⟨columns, hcolumns, forall₂_of_positioned (Checked.under_ok hselect)⟩,
      readsOrder hgiven (Checked.under_ok horder)⟩
  | _ => cases h

theorem parseCustomIndex_ok {definition : Value} {i : IndexDeclaration}
    (h : parseCustomIndex definition = .ok i) :
    ∃ es, definition = .map es ∧ ReadsCustomIndex es i := by
  cases definition with
  | map es =>
    unfold parseCustomIndex at h
    dsimp only at h
    split at h
    · obtain ⟨f, options, hf, hoptions, rfl⟩ := Checked.seq_ok (Checked.toExcept_ok h)
      obtain ⟨f', implementation, hf', himplementation, rfl⟩ := Checked.seq_ok hf
      obtain ⟨column, hcolumn, rfl⟩ := Checked.map_ok hf'
      refine ⟨es, rfl, required_ok hcolumn, required_ok himplementation, ?_⟩
      rcases defaulted_ok hoptions with hnone | ⟨v, hv, hmap⟩
      · exact .inl hnone
      · obtain ⟨os, rfl, hos⟩ := mapOf_ok hmap
        exact .inr ⟨os, hv, hos.imp fun e v hev => Checked.ok.inj hev⟩
    · cases h
  | _ => cases h

/-- What is put together from the parts of a table has these parts. -/
theorem draft_ok {name : String} {fields : List (Value × Field)} {views : List (Value × View)}
    {partition clustering : List String} {order : Checked (List (String × String))}
    {indexes : Checked (List String)} {customIndexes : List IndexDeclaration}
    {ttl : Checked (Option Int)} {hooks : Checked (List (String × Value))} {d : TableDraft}
    (h : (TableDraft.mk name <$> (keyed fields).under "fields" <*> pure partition
      <*> pure clustering <*> order.under "clustering_order" <*> indexes.under "indexes"
      <*> pure customIndexes <*> (keyed views).under "materialized_views" <*> ttl
      <*> hooks).toExcept "TableSchema" = .ok d) :
    d.name = name ∧ keyed fields = .ok d.fields ∧ d.partitionKey = partition ∧
      d.clusteringKey = clustering ∧ order = .ok d.clusteringOrder ∧ indexes = .ok d.indexes ∧
      d.customIndexes = customIndexes ∧ keyed views = .ok d.views := by
  obtain ⟨f₁, hooks', h₁, -, rfl⟩ := Checked.seq_ok (Checked.toExcept_ok h)
  obtain ⟨f₂, ttl', h₂, -, rfl⟩ := Checked.seq_ok h₁
  obtain ⟨f₃, views', h₃, hviews, rfl⟩ := Checked.seq_ok h₂
  obtain ⟨f₄, customIndexes', h₄, hcustom, rfl⟩ := Checked.seq_ok h₃
  obtain ⟨f₅, indexes', h₅, hindexes, rfl⟩ := Checked.seq_ok h₄
  obtain ⟨f₆, order', h₆, horder, rfl⟩ := Checked.seq_ok h₅
  obtain ⟨f₇, clustering', h₇, hclustering, rfl⟩ := Checked.seq_ok h₆
  obtain ⟨f₈, partition', h₈, hpartition, rfl⟩ := Checked.seq_ok h₇
  obtain ⟨fields', hfields, rfl⟩ := Checked.map_ok h₈
  cases hcustom
  cases hclustering
  cases hpartition
  exact ⟨rfl, Checked.under_ok hfields, rfl, rfl, Checked.under_ok horder,
    Checked.under_ok hindexes, rfl, Checked.under_ok hviews⟩

theorem parseDraft_ok {name : String} {es fields : List (Value × Value)}
    {key : List String × List String} {given : List Value} {options : Value} {d : TableDraft}
    (hfields : part es "fields" = .map fields)
    (hkey : parseKey (part es "key") (.text name) = .ok key)
    (hgiven : customIndexesOf es = .ok given)
    (h : parseDraft name es fields key given options = .ok d) : Reads name es d := by
  obtain ⟨fields', hfields', h⟩ := of_bind_ok h
  obtain ⟨order, horder, h⟩ := of_bind_ok h
  obtain ⟨indexes, hindexes, h⟩ := of_bind_ok h
  obtain ⟨customIndexes, hcustom, h⟩ := of_bind_ok h
  obtain ⟨entries, hentries, h⟩ := of_bind_ok h
  obtain ⟨views, hviews, h⟩ := of_bind_ok h
  dsimp only at h
  have hparts : d.name = name ∧ keyed fields' = .ok d.fields ∧ d.partitionKey = key.1 ∧
      d.clusteringKey = key.2 ∧ mapOf text (.map order) = .ok d.clusteringOrder ∧
      positioned text indexes = .ok d.indexes ∧ d.customIndexes = customIndexes ∧
      keyed views = .ok d.views := by
    split at h
    · exact draft_ok h
    · split at h
      · cases h
      · exact draft_ok h
  obtain ⟨hname, hdfields, hpartition, hclustering, hdorder, hdindexes, rfl, hdviews⟩ := hparts
  have hreadFields := keyed_ok (fun key v => parseField key v name) hfields' hdfields
  have hreadViews := keyed_ok (fun key v => parseView key v name) hviews hdviews
  refine ⟨hname, ⟨fields, hfields, hreadFields⟩, ?_, readsOrder horder hdorder,
    ⟨indexes, hindexes, forall₂_of_positioned hdindexes⟩, ⟨given, hgiven, forall₂_of_mapM hcustom⟩,
    ⟨entries, hentries, hreadViews⟩⟩
  rw [hkey, hpartition, hclustering]

theorem wrapMalformed_ok {α : Type} {table : String} {r : Except Failure α} {a : α}
    (h : wrapMalformed table r = .ok a) : r = .ok a := by
  unfold wrapMalformed at h
  split at h
  · cases h
  · exact h

end Definition

/-- A table that is registered from a map is the registered form of what is read off the map. -/
theorem Table.ofDefinition_ok {name definition : Value} {t : Table}
    (h : Table.ofDefinition name definition = .ok t) :
    ∃ table es d, name = .text table ∧ definition = .map es ∧ Definition.Reads table es d ∧
      d.register = .ok t := by
  cases name with
  | text table =>
    unfold ofDefinition at h
    dsimp only at h
    split at h
    · cases h
    · cases definition with
      | map es =>
        dsimp only at h
        split at h
        · rename_i hfields
          obtain ⟨key, hkey, h⟩ := of_bind_ok h
          obtain ⟨listed, hlisted, h⟩ := of_bind_ok h
          obtain ⟨d, hd, h⟩ := of_bind_ok (Definition.wrapMalformed_ok h)
          have hgiven : Definition.customIndexesOf es = .ok (if (Definition.part es
              "custom_index").isTrue then listed ++ [Definition.part es "custom_index"]
                else listed) := by
            unfold Definition.customIndexesOf
            rw [hlisted]
            rfl
          exact ⟨table, es, d, rfl, rfl, Definition.parseDraft_ok hfields hkey hgiven hd, h⟩
        · cases h
      | _ => cases h
  | _ => cases h

end WideColumn
