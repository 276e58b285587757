import JavaTree.Document.Format
import JavaTree.Proofs.Document.JsonText
import JavaTree.Proofs.Document.Nesting

/-! # Documents as YAML texts

    The limit on the levels of a document is there for the reader, which gives
    up where collections nest too deep.  This module shows that it is enough.

    What is taken for granted is said of plain values only: a value that nests
    no deeper than the reader goes is read back as it was written
    (`Yaml.Datum.ReadsBack`).  A document is not read by way of a plain value,
    so the two readers have to be compared: where the one finds the value of a
    document, the other finds the document (`Yaml.Composed.document_of_value`).

    The main statement is `Document.yaml_guard_suffices`. -/

namespace JavaTree

namespace Yaml

/-! ## Section 1: Plain values of a text -/

namespace Datum

mutual

/-- The value that a reader should find. -/
def toValue : Datum → Value
  | .flag b => .flag b
  | .int i => .int i
  | .text s => .text s
  | .list items => .list (toValues items)
  | .map entries => .map (toPairs entries)

/-- The values of some items. -/
def toValues : List Datum → List Value
  | [] => []
  | v :: rest => v.toValue :: toValues rest

/-- The keys and values of some entries. -/
def toPairs : List (String × Datum) → List (Value × Value)
  | [] => []
  | (key, v) :: rest => (.text key, v.toValue) :: toPairs rest

end

end Datum

/-- Read a plain value from a text. -/
def readValue (text : String) : Except DecodeError Value := do
  let c := Composed.ofText text
  let (v, _) ← (c.value maxNesting c.root).run (jumpsPerEvent * c.events)
  if c.complete then return v else .error .malformed

/-- Unless it nests too deep, the content is read back from its lines, with
    every scalar in its own form. -/
def Datum.ReadsBack (v : Datum) : Prop :=
  v.nesting ≤ maxNesting → readValue (v.write 0) = .ok v.toValue

end Yaml

open Yaml (Datum)

/-- The value of an attribute is the same in both formats. -/
theorem AttrValue.toValue?_toJson (v : AttrValue) : v.toJson.toValue? = some v.toDatum.toValue := by
  cases v with
  | flag b => rfl
  | int i => rfl
  | text s => rfl
  | span s =>
    simp [AttrValue.toJson, Span.toJson, Position.toJson, Document.jsonOfNat, Json.toValue?,
      Json.toEntries?, AttrValue.toDatum, Span.toDatum, Position.toDatum, Datum.toValue,
      Datum.toPairs]

theorem AttrValue.ofValue?_toDatum (v : AttrValue) : ofValue? v.toDatum.toValue = some v := by
  have h := Document.attributeOfJson_toJson v
  rw [Document.attributeOfJson, v.toValue?_toJson] at h
  dsimp only at h
  cases hv : ofValue? v.toDatum.toValue with
  | none =>
    rw [hv] at h
    cases h
  | some w =>
    rw [hv] at h
    cases h
    rfl

namespace Yaml

/-! ## Section 2: Reading step by step -/

section Steps

variable {α β : Type} {s s' : Nat}

theorem run_bind_eq_ok {x : Read α} {f : α → Read β} {b : β} :
    (x >>= f).run s = .ok (b, s') ↔
      ∃ a s₁, x.run s = .ok (a, s₁) ∧ (f a).run s₁ = .ok (b, s') := by
  rw [StateT.run_bind]
  cases h : x.run s with
  | error e =>
    constructor
    · rintro ⟨⟩
    · rintro ⟨a, s₁, ⟨⟩, -⟩
  | ok p =>
    obtain ⟨a, s₁⟩ := p
    constructor
    · intro hf
      exact ⟨a, s₁, rfl, hf⟩
    · rintro ⟨_, _, hp, hf⟩
      cases hp
      exact hf

theorem run_pure_eq_ok {a b : α} : (pure a : Read α).run s = .ok (b, s') ↔ a = b ∧ s = s' := by
  constructor
  · rintro ⟨⟩
    exact ⟨rfl, rfl⟩
  · rintro ⟨rfl, rfl⟩
    rfl

theorem run_mapM_nil {f : α → Read β} {xs : List α} (h : (xs.mapM f).run s = .ok ([], s')) :
    xs = [] ∧ s = s' := by
  cases xs with
  | nil =>
    rw [List.mapM_nil, run_pure_eq_ok] at h
    exact ⟨rfl, h.2⟩
  | cons x xs =>
    rw [List.mapM_cons, run_bind_eq_ok] at h
    obtain ⟨y, s₁, -, h⟩ := h
    rw [run_bind_eq_ok] at h
    obtain ⟨ys, s₂, -, h⟩ := h
    rw [run_pure_eq_ok] at h
    cases h.1

theorem run_mapM_cons {f : α → Read β} {xs : List α} {y : β} {ys : List β}
    (h : (xs.mapM f).run s = .ok (y :: ys, s')) :
    ∃ x rest s₁, xs = x :: rest ∧ (f x).run s = .ok (y, s₁) ∧
      (rest.mapM f).run s₁ = .ok (ys, s') := by
  cases xs with
  | nil =>
    rw [List.mapM_nil, run_pure_eq_ok] at h
    cases h.1
  | cons x xs =>
    rw [List.mapM_cons, run_bind_eq_ok] at h
    obtain ⟨y', s₁, hx, h⟩ := h
    rw [run_bind_eq_ok] at h
    obtain ⟨ys', s₂, hxs, h⟩ := h
    rw [run_pure_eq_ok] at h
    obtain ⟨heq, rfl⟩ := h
    cases heq
    exact ⟨x, xs, s₁, rfl, hx, hxs⟩

end Steps

/-! ## Section 3: What a plain value tells of a node -/

/-- The values that a scalar with the given text can have. -/
def IsScalarValue (text : String) : Value → Prop
  | .text s => s = text
  | .list _ => False
  | .map _ => False
  | _ => True

theorem isScalarValue_untagged {plain : Bool} {text : String} {v : Value}
    (h : untaggedValue? plain text = some v) : IsScalarValue text v := by
  rw [untaggedValue?] at h
  split at h
  · rw [plainValue?] at h
    split at h <;> cases h <;> trivial
  · cases h
    rfl

theorem isScalarValue_integer {text : String} {v : Value} (h : integerValue? text = some v) :
    IsScalarValue text v := by
  rw [integerValue?] at h
  split at h <;> cases h <;> trivial

theorem isScalarValue_of_scalarValue? {tag : Option Tag} {plain : Bool} {text : String} {v : Value}
    (h : scalarValue? tag plain text = some v) : IsScalarValue text v := by
  unfold scalarValue? at h
  split at h
  · cases h
  · split at h
    · exact isScalarValue_untagged h
    · split at h
      · exact isScalarValue_untagged h
      · split at h
        · split at h <;> cases h
          trivial
        · split at h
          · exact isScalarValue_integer h
          · split at h
            · split at h <;> cases h
              trivial
            · split at h
              · split at h <;> cases h
                trivial
              · cases h
                rfl

namespace Composed

/-- Read a key and its value. -/
def pair (c : Composed) (nesting : Nat) (entry : Node × Node) : Read (Value × Value) := do
  return (← c.value nesting entry.1, ← c.value nesting entry.2)

/-- What a node that is no alias holds: the reader starts with `s` jumps and
    has `s'` of them left. -/
inductive Content (c : Composed) : (nesting s : Nat) → Node → Value → (s' : Nat) → Prop where
  | scalar {nesting s : Nat} {tag : Option Tag} {plain : Bool} {text : String} {v : Value}
      (h : scalarValue? tag plain text = some v) :
      Content c nesting s (.scalar tag plain text) v s
  | sequence {nesting s s' : Nat} {tag : Option Tag} {items : List Node} {vs : List Value}
      (h : (items.mapM (c.value nesting)).run s = .ok (vs, s')) :
      Content c (nesting + 1) s (.sequence tag items) (.list vs) s'
  | mapping {nesting s s' : Nat} {tag : Option Tag} {entries : List (Node × Node)}
      {pairs : List (Value × Value)}
      (h : (entries.mapM (c.pair nesting)).run s = .ok (pairs, s')) :
      Content c (nesting + 1) s (.mapping tag entries) (.map pairs) s'

variable {c : Composed} {nesting : Nat} {n : Node} {s s' : Nat}

theorem run_readScalar {tag : Option Tag} {plain : Bool} {text : String} {v : Value}
    (h : (readScalar tag plain text).run s = .ok (v, s')) :
    c.Content nesting s (.scalar tag plain text) v s' := by
  rw [readScalar] at h
  cases hv : scalarValue? tag plain text with
  | none =>
    rw [hv] at h
    cases h
  | some w =>
    rw [hv] at h
    obtain ⟨rfl, rfl⟩ := run_pure_eq_ok.1 h
    exact .scalar hv

/-- A value is the content of a node or of the one it stands for. -/
theorem content_of_value {v : Value} (h : (c.value nesting n).run s = .ok (v, s')) :
    ∃ m s₁, (c.follow n).run s = .ok (m, s₁) ∧ c.Content nesting s₁ m v s' := by
  cases nesting with
  | zero =>
    -- Nothing may be entered any more, so a scalar is all that can be read.
    rw [Composed.value, run_bind_eq_ok] at h
    obtain ⟨m, s₁, hm, h⟩ := h
    refine ⟨m, s₁, hm, ?_⟩
    cases m with
    | scalar tag plain text => exact run_readScalar h
    | _ => cases h
  | succ nesting =>
    rw [Composed.value, run_bind_eq_ok] at h
    obtain ⟨m, s₁, hm, h⟩ := h
    refine ⟨m, s₁, hm, ?_⟩
    cases m with
    | scalar tag plain text => exact run_readScalar h
    | sequence tag items =>
      by_cases hallows : allowsTag tag = true
      · simp only [hallows, Bool.not_true, Bool.false_eq_true, if_false] at h
        rw [run_bind_eq_ok] at h
        obtain ⟨vs, s₂, hitems, h⟩ := h
        obtain ⟨rfl, rfl⟩ := run_pure_eq_ok.1 h
        exact .sequence hitems
      · simp only [hallows] at h
        cases h
    | mapping tag entries =>
      by_cases hallows : allowsTag tag = true
      · simp only [hallows, Bool.not_true, Bool.false_eq_true, if_false] at h
        rw [run_bind_eq_ok] at h
        obtain ⟨pairs, s₂, hentries, h⟩ := h
        obtain ⟨rfl, rfl⟩ := run_pure_eq_ok.1 h
        exact .mapping hentries
      · simp only [hallows] at h
        cases h
    | _ => cases h

/-! ## Section 4: The reader of documents follows the reader of values -/

theorem text_of_value {text : String} (h : (c.value nesting n).run s = .ok (.text text, s')) :
    (c.text n).run s = .ok (text, s') := by
  obtain ⟨m, s₁, hm, hcontent⟩ := content_of_value h
  rw [Composed.text, run_bind_eq_ok]
  refine ⟨m, s₁, hm, ?_⟩
  cases hcontent with
  | scalar hv =>
    obtain rfl := isScalarValue_of_scalarValue? hv
    rfl

theorem kind_of_value {k : Kind} (h : (c.value nesting n).run s = .ok (.text k.name, s')) :
    (c.kind n).run s = .ok (k, s') := by
  rw [Composed.kind, run_bind_eq_ok]
  refine ⟨k.name, s', text_of_value h, ?_⟩
  rw [Kind.ofName?_name]
  rfl

theorem entries_of_value {pairs : List (Value × Value)}
    (h : (c.value nesting n).run s = .ok (.map pairs, s')) :
    ∃ entries inside s₁, nesting = inside + 1 ∧
      (c.entries nesting n).run s = .ok ((entries, inside), s₁) ∧
        (entries.mapM (c.pair inside)).run s₁ = .ok (pairs, s') := by
  obtain ⟨m, s₁, hm, hcontent⟩ := content_of_value h
  cases hcontent with
  | scalar hv => cases isScalarValue_of_scalarValue? hv
  | @mapping inside _ _ tag entries _ hentries =>
    refine ⟨entries, inside, s₁, rfl, ?_, hentries⟩
    rw [Composed.entries, run_bind_eq_ok]
    exact ⟨_, s₁, hm, rfl⟩

theorem attribute_of_value {v : AttrValue}
    (h : (c.value nesting n).run s = .ok (v.toDatum.toValue, s')) :
    (c.attribute nesting n).run s = .ok (v, s') := by
  rw [Composed.attribute, run_bind_eq_ok]
  refine ⟨_, s', h, ?_⟩
  rw [AttrValue.ofValue?_toDatum]
  rfl

/-- An entry of a mapping, found one after the other. -/
theorem run_mapM_pair {entries : List (Node × Node)} {key : String} {v : Datum}
    {rest : List (String × Datum)}
    (h : (entries.mapM (c.pair nesting)).run s = .ok (Datum.toPairs ((key, v) :: rest), s')) :
    ∃ entry others s₁ s₂, entries = entry :: others ∧
      (c.text entry.1).run s = .ok (key, s₁) ∧
      (c.value nesting entry.2).run s₁ = .ok (v.toValue, s₂) ∧
      (others.mapM (c.pair nesting)).run s₂ = .ok (Datum.toPairs rest, s') := by
  rw [Datum.toPairs] at h
  obtain ⟨entry, others, s₂, rfl, hentry, hothers⟩ := run_mapM_cons h
  rw [Composed.pair, run_bind_eq_ok] at hentry
  obtain ⟨k, s₁, hkey, hentry⟩ := hentry
  rw [run_bind_eq_ok] at hentry
  obtain ⟨w, s₃, hvalue, hentry⟩ := hentry
  obtain ⟨heq, rfl⟩ := run_pure_eq_ok.1 hentry
  cases heq
  exact ⟨entry, others, s₁, s₃, rfl, text_of_value hkey, hvalue, hothers⟩

/-- Attributes come in key order, each onto those before it. -/
theorem foldlM_attributes {entries : List (Node × Node)} {before found : Attributes}
    {rest : List (String × AttrValue)} (hfound : found.entries = before.entries ++ rest)
    (h : (entries.mapM (c.pair nesting)).run s =
      .ok (Datum.toPairs (rest.map fun (key, v) => (key, v.toDatum)), s')) :
    (entries.foldlM (fun (found : Attributes) (k, v) => do
      let key ← c.text k
      return found.insert key (← c.attribute nesting v)) before).run s = .ok (found, s') := by
  -- The induction is on the attributes still to come; `before` holds those already read.
  induction rest generalizing before entries s with
  | nil =>
    obtain ⟨rfl, rfl⟩ := run_mapM_nil h
    rw [List.append_nil] at hfound
    obtain rfl := Attributes.eq_of_entries hfound
    rfl
  | cons e rest ih =>
    obtain ⟨key, v⟩ := e
    obtain ⟨entry, others, s₁, s₂, rfl, hkey, hvalue, hothers⟩ := run_mapM_pair h
    rw [List.foldlM_cons, run_bind_eq_ok]
    refine ⟨before.insert key v, s₂, ?_, ih (Attributes.entries_insert_of_append hfound) hothers⟩
    rw [run_bind_eq_ok]
    refine ⟨key, s₁, hkey, ?_⟩
    rw [run_bind_eq_ok]
    exact ⟨v, s₂, attribute_of_value hvalue, rfl⟩

theorem attributes_of_value {a : Attributes}
    (h : (c.value nesting n).run s = .ok (.map (Datum.toPairs a.toData), s')) :
    (c.attributes nesting n).run s = .ok (a, s') := by
  obtain ⟨entries, inside, s₁, rfl, hentries, hpairs⟩ := entries_of_value h
  rw [Composed.attributes, run_bind_eq_ok]
  exact ⟨_, s₁, hentries, foldlM_attributes rfl hpairs⟩

section Fields

variable {children : Node → Read (List Document)} {found : Document.Fields} {entry : Node × Node}
  {s₁ : Nat}

theorem run_field_kind {k : Kind} (hnew : found.kind = none)
    (hkey : (c.text entry.1).run s = .ok ("kind", s₁))
    (h : (c.kind entry.2).run s₁ = .ok (k, s')) :
    (c.field nesting children found entry).run s = .ok ({ found with kind := some k }, s') := by
  rw [Composed.field, run_bind_eq_ok]
  refine ⟨"kind", s₁, hkey, ?_⟩
  simp only [hnew, Option.isSome_none, Bool.false_eq_true, if_false]
  rw [run_bind_eq_ok]
  exact ⟨k, s', h, rfl⟩

theorem run_field_attributes {a : Attributes} (hnew : found.attributes = none)
    (hkey : (c.text entry.1).run s = .ok ("attributes", s₁))
    (h : (c.attributes nesting entry.2).run s₁ = .ok (a, s')) :
    (c.field nesting children found entry).run s =
      .ok ({ found with attributes := some a }, s') := by
  rw [Composed.field, run_bind_eq_ok]
  refine ⟨"attributes", s₁, hkey, ?_⟩
  simp only [hnew, Option.isSome_none, Bool.false_eq_true, if_false]
  rw [run_bind_eq_ok]
  exact ⟨a, s', h, rfl⟩

theorem run_field_children {ds : List Document} (hnew : found.children = none)
    (hkey : (c.text entry.1).run s = .ok ("children", s₁))
    (h : (children entry.2).run s₁ = .ok (ds, s')) :
    (c.field nesting children found entry).run s =
      .ok ({ found with children := some ds }, s') := by
  rw [Composed.field, run_bind_eq_ok]
  refine ⟨"children", s₁, hkey, ?_⟩
  simp only [hnew, Option.isSome_none, Bool.false_eq_true, if_false]
  rw [run_bind_eq_ok]
  exact ⟨ds, s', h, rfl⟩

end Fields

/-- A list of documents is read if its items are. -/
theorem documents_of_value {ds : List Document}
    (hitems : ∀ {nesting : Nat} {items : List Node} {s s' : Nat},
      (items.mapM (c.value nesting)).run s = .ok (Datum.toValues (Document.toData ds), s') →
        (items.mapM (c.document nesting)).run s = .ok (ds, s'))
    (h : (c.value nesting n).run s = .ok (.list (Datum.toValues (Document.toData ds)), s')) :
    (c.documents nesting n).run s = .ok (ds, s') := by
  obtain ⟨m, s₁, hm, hcontent⟩ := content_of_value h
  cases hcontent with
  | scalar hv => cases isScalarValue_of_scalarValue? hv
  | sequence hvalues =>
    rw [Composed.documents, run_bind_eq_ok]
    exact ⟨_, s₁, hm, hitems hvalues⟩

mutual

/-- Where the value of a document is found, the document is. -/
theorem document_of_value : (d : Document) → {nesting : Nat} → {n : Node} → {s s' : Nat} →
    (c.value nesting n).run s = .ok (d.toDatum.toValue, s') →
      (c.document nesting n).run s = .ok (d, s')
  | .node k a cs, nesting, n, s, s', h => by
    rw [Document.toDatum, Datum.toValue] at h
    obtain ⟨m, s₀, hm, hcontent⟩ := content_of_value h
    cases hcontent with
    | scalar hv => cases isScalarValue_of_scalarValue? hv
    | @mapping inside _ _ tag entries _ hentries =>
      -- There are exactly three entries, since the value has three.
      obtain ⟨first, others, s₁, s₂, rfl, hfirst, hkind, hothers⟩ := run_mapM_pair hentries
      obtain ⟨second, others, s₃, s₄, rfl, hsecond, hattributes, hothers⟩ :=
        run_mapM_pair hothers
      obtain ⟨third, others, s₅, s₆, rfl, hthird, hchildren, hothers⟩ := run_mapM_pair hothers
      obtain ⟨rfl, rfl⟩ := run_mapM_nil hothers
      rw [Composed.document, run_bind_eq_ok]
      refine ⟨_, s₀, hm, ?_⟩
      dsimp only
      rw [run_bind_eq_ok]
      refine ⟨⟨some k, some a, some cs⟩, s₆, ?_, rfl⟩
      -- The fields are met in the order in which they were written.
      rw [List.foldlM_cons, run_bind_eq_ok]
      refine ⟨_, s₂, run_field_kind rfl hfirst (kind_of_value hkind), ?_⟩
      rw [List.foldlM_cons, run_bind_eq_ok]
      refine ⟨_, s₄, run_field_attributes rfl hsecond (attributes_of_value hattributes), ?_⟩
      rw [List.foldlM_cons, run_bind_eq_ok]
      have hdocuments := documents_of_value (mapM_document cs) hchildren
      exact ⟨_, s₆, run_field_children rfl hthird hdocuments, rfl⟩

/-- Where the values of some documents are found one after the other, the
    documents are. -/
theorem mapM_document : (ds : List Document) → {nesting : Nat} → {items : List Node} →
    {s s' : Nat} →
    (items.mapM (c.value nesting)).run s = .ok (Datum.toValues (Document.toData ds), s') →
      (items.mapM (c.document nesting)).run s = .ok (ds, s')
  | [], nesting, items, s, s', h => by
    obtain ⟨rfl, rfl⟩ := run_mapM_nil h
    rfl
  | d :: ds, nesting, items, s, s', h => by
    rw [Document.toData, Datum.toValues] at h
    obtain ⟨item, others, s₁, rfl, hitem, hothers⟩ := run_mapM_cons h
    rw [List.mapM_cons, run_bind_eq_ok]
    refine ⟨d, s₁, document_of_value d hitem, ?_⟩
    rw [run_bind_eq_ok]
    exact ⟨ds, s', mapM_document ds hothers, rfl⟩

end

end Composed

/-! ## Section 5: Finding out what is read back -/

namespace Datum

mutual

/-- Whether a value is the one that a reader should find. -/
def isValue : Datum → Value → Bool
  | .flag b, .flag b' => b = b'
  | .int i, .int i' => i = i'
  | .text s, .text s' => s = s'
  | .list items, .list vs => areValues items vs
  | .map entries, .map pairs => arePairs entries pairs
  | _, _ => false

/-- Whether values are those of some items. -/
def areValues : List Datum → List Value → Bool
  | [], [] => true
  | v :: rest, w :: ws => v.isValue w && areValues rest ws
  | _, _ => false

/-- Whether keys and values are those of some entries. -/
def arePairs : List (String × Datum) → List (Value × Value) → Bool
  | [], [] => true
  | (key, v) :: rest, (.text s, w) :: pairs => key = s && v.isValue w && arePairs rest pairs
  | _, _ => false

end

mutual

theorem eq_toValue : (v : Datum) → (w : Value) → v.isValue w = true → w = v.toValue
  | .flag b, w, h => by
    cases w <;> simp_all [isValue, toValue]
  | .int i, w, h => by
    cases w <;> simp_all [isValue, toValue]
  | .text s, w, h => by
    cases w <;> simp_all [isValue, toValue]
  | .list items, w, h => by
    cases w with
    | list vs => rw [eq_toValues items vs h, toValue]
    | _ => cases h
  | .map entries, w, h => by
    cases w with
    | map pairs => rw [eq_toPairs entries pairs h, toValue]
    | _ => cases h

theorem eq_toValues : (items : List Datum) → (vs : List Value) → areValues items vs = true →
    vs = toValues items
  | [], vs, h => by
    cases vs with
    | nil => rfl
    | cons w ws => cases h
  | v :: rest, vs, h => by
    cases vs with
    | nil => cases h
    | cons w ws =>
      rw [areValues, Bool.and_eq_true] at h
      rw [eq_toValue v w h.1, eq_toValues rest ws h.2, toValues]

theorem eq_toPairs : (entries : List (String × Datum)) → (pairs : List (Value × Value)) →
    arePairs entries pairs = true → pairs = toPairs entries
  | [], pairs, h => by
    cases pairs with
    | nil => rfl
    | cons p ps => cases h
  | (key, v) :: rest, pairs, h => by
    cases pairs with
    | nil => cases h
    | cons p ps =>
      obtain ⟨k, w⟩ := p
      cases k with
      | text s =>
        rw [arePairs, Bool.and_eq_true, Bool.and_eq_true, decide_eq_true_eq] at h
        rw [eq_toValue v w h.1.2, eq_toPairs rest ps h.2, toPairs, h.1.1]
      | _ => cases h

end

/-- Whether the content is read back, found out by reading it. -/
def isReadBack (v : Datum) : Bool :=
  match readValue (v.write 0) with
  | .ok w => v.isValue w
  | .error _ => false

theorem readsBack_of_isReadBack {v : Datum} (h : v.isReadBack = true) : v.ReadsBack := by
  intro _
  unfold isReadBack at h
  generalize readValue (v.write 0) = result at h ⊢
  cases result with
  | error e => cases h
  | ok w => rw [eq_toValue v w h]

end Datum

end Yaml

/-! ## Section 6: The round trip -/

namespace Document

theorem decodeYaml_of_readValue {text : String} {d : Document}
    (h : Yaml.readValue text = .ok d.toDatum.toValue) : decodeYaml text = .ok d := by
  rw [Yaml.readValue] at h
  rw [decodeYaml]
  -- Both readers see the text only through its tree.
  generalize Yaml.Composed.ofText text = c at h ⊢
  dsimp only at h ⊢
  cases hvalue : (c.value Yaml.maxNesting c.root).run (Yaml.jumpsPerEvent * c.events) with
  | error e =>
    rw [hvalue] at h
    cases h
  | ok found =>
    obtain ⟨v, left⟩ := found
    rw [hvalue] at h
    by_cases hcomplete : c.complete = true
    · obtain rfl : v = d.toDatum.toValue := by
        simpa [hcomplete, bind, Except.bind, pure, Except.pure] using h
      rw [Yaml.Composed.document_of_value d hvalue]
      exact if_pos hcomplete
    · simp [hcomplete, bind, Except.bind] at h

theorem encode_yaml (d : Document) :
    encode .yaml d =
      if 60 < d.height then .error (.tooDeep d.height) else .ok (d.toDatum.write 0) := by
  show d.encodeYaml = _
  rw [encodeYaml, depth_eq_height, Yaml.write_toDatum]
  rfl

/-- The work list finds the height of a document, and exactly the documents of
    more than sixty levels are refused.  The text of any other is the layout of
    a value in which at most 122 collections are around each other, so that it
    is read back if values of 128 are. -/
theorem yaml_guard_suffices (d : Document) :
    d.depth = d.height ∧
    (∀ e, encode .yaml d = .error e ↔ 60 < d.height ∧ e = .tooDeep d.height) ∧
    ∀ text, encode .yaml d = .ok text →
      text = d.toDatum.write 0 ∧ d.toDatum.nesting ≤ 122 ∧
        d.toDatum.nesting ≤ Yaml.maxNesting ∧
        (d.toDatum.ReadsBack → decode .yaml text = .ok d) := by
  refine ⟨d.depth_eq_height, ?_, ?_⟩
  · intro e
    rw [encode_yaml]
    by_cases hdeep : 60 < d.height
    · rw [if_pos hdeep, Except.error.injEq]
      constructor
      · rintro rfl
        exact ⟨hdeep, rfl⟩
      · rintro ⟨-, rfl⟩
        rfl
    · rw [if_neg hdeep]
      constructor
      · rintro ⟨⟩
      · rintro ⟨h, -⟩
        exact absurd h hdeep
  · intro text htext
    rw [encode_yaml] at htext
    by_cases hdeep : 60 < d.height
    · rw [if_pos hdeep] at htext
      cases htext
    · rw [if_neg hdeep] at htext
      obtain rfl := Except.ok.inj htext
      -- Sixty levels cost 120 collections, and the attributes of the last one two more.
      have hlevels := d.nesting_toDatum
      have hnesting : d.toDatum.nesting ≤ 122 := by omega
      have hmax : d.toDatum.nesting ≤ Yaml.maxNesting := Nat.le_trans hnesting (by decide)
      refine ⟨rfl, hnesting, hmax, ?_⟩
      intro hback
      exact decodeYaml_of_readValue (hback hmax)

/-- A text that looks like a number, and a range. -/
def lookalikes : Document :=
  .node .compilationUnit
    (.ofList [("number", .text "42"), ("range", .span ⟨⟨1, 2⟩, ⟨3, 4⟩⟩)]) []

theorem readsBack_lookalikes : lookalikes.toDatum.ReadsBack :=
  Yaml.Datum.readsBack_of_isReadBack (by decide +kernel)

/-- A document with nodes below each other. -/
def tower : Nat → Document
  | 0 => default
  | n + 1 => .node .compilationUnit .empty [tower n]

theorem height_tower (n : Nat) : (tower n).height = n + 1 := by
  induction n with
  | zero => rfl
  | succ n ih =>
    rw [tower, height, heightAll, heightAll, ih]
    omega

/-- A document is read back, and one level more than sixty is refused. -/
theorem yaml_guard_suffices_lookalikes :
    (∃ text, encode .yaml lookalikes = .ok text ∧ decode .yaml text = .ok lookalikes) ∧
      encode .yaml (tower 60) = .error (.tooDeep 61) := by
  constructor
  · have htext : encode .yaml lookalikes = .ok (lookalikes.toDatum.write 0) := by
      rw [encode_yaml]
      exact if_neg (by decide)
    obtain ⟨-, -, -, hback⟩ := (yaml_guard_suffices lookalikes).2.2 _ htext
    exact ⟨_, htext, hback readsBack_lookalikes⟩
  · have hheight : (tower 60).height = 61 := height_tower 60
    refine ((yaml_guard_suffices (tower 60)).2.1 _).2 ⟨?_, ?_⟩
    · rw [hheight]
      decide
    · rw [hheight]

end Document

end JavaTree
