import JavaTree.Document.Format
import JavaTree.Proofs.Json.Parsing

/-! # Documents as JSON texts

    A document written as JSON is read back unchanged, and nothing but white
    space may follow it.  The text layer is settled for all JSON values by
    `Json.parse_pretty`; this module goes from documents to values and back.

    The choice of an attribute's form is the delicate step: a value carries
    no tag, so that flag, integer, source range and text must be told apart by
    their JSON values alone (`attributeOfJson_toJson`).

    The main statement is `Document.json_text_round_trip`. -/

namespace JavaTree

/-! ## Section 1: Names of kinds -/

/-- Different kinds have different names. -/
theorem Kind.ofName?_name (k : Kind) : ofName? k.name = some k := by
  have h : ∀ k ∈ all, ofName? k.name = some k := by decide
  exact h k (mem_all k)

/-! ## Section 2: Attribute values -/

theorem Value.word?_toNat (n : UInt32) : word? (.int n.toNat) = some n := by
  have hlt : n.toNat < UInt32.size := n.toNat_lt
  show (if n.toNat < UInt32.size then some (UInt32.ofNat n.toNat) else none) = _
  rw [if_pos hlt, UInt32.ofNat_toNat]

theorem Position.ofValue?_toJson (p : Position) :
    ∃ v, p.toJson.toValue? = some v ∧ Position.ofValue? v = some p := by
  refine ⟨.map [(.text "line", .int p.line.toNat), (.text "column", .int p.column.toNat)], ?_, ?_⟩
  · simp [toJson, Json.toValue?, Json.toEntries?, Document.jsonOfNat]
  · have hpair : Value.pair? "line" "column"
        (.map [(.text "line", .int p.line.toNat), (.text "column", .int p.column.toNat)]) =
          some (.int p.line.toNat, .int p.column.toNat) := rfl
    simp [ofValue?, hpair, Value.word?_toNat]

theorem Span.ofValue?_toJson (s : Span) :
    ∃ entries, s.toJson.toValue? = some (.map entries) ∧ Span.ofValue? (.map entries) = some s := by
  obtain ⟨v, hv, hstart⟩ := s.start.ofValue?_toJson
  obtain ⟨w, hw, hstop⟩ := s.stop.ofValue?_toJson
  refine ⟨[(.text "begin", v), (.text "end", w)], ?_, ?_⟩
  · simp [toJson, Json.toValue?, Json.toEntries?, hv, hw]
  · have hpair : Value.pair? "begin" "end" (.map [(.text "begin", v), (.text "end", w)]) =
        some (v, w) := rfl
    simp [ofValue?, hpair, hstart, hstop]

theorem fitsInt64_toInt (i : Int64) : fitsInt64 i.toInt = true := by
  have hlow : Int64.minValue.toInt ≤ i.toInt := Int64.minValue_le_toInt i
  have hhigh : i.toInt ≤ Int64.maxValue.toInt := Int64.toInt_le i
  rw [fitsInt64, Bool.and_eq_true, decide_eq_true_eq, decide_eq_true_eq]
  exact ⟨hlow, hhigh⟩

namespace Document

/-- An attribute value is read back from its JSON value, in the form it had. -/
theorem attributeOfJson_toJson (v : AttrValue) : attributeOfJson v.toJson = .ok v := by
  cases v with
  | flag b => rfl
  | int i =>
    have hvalue : AttrValue.ofValue? (.int i.toInt) = some (.int i) := by
      rw [AttrValue.ofValue?, if_pos (fitsInt64_toInt i), Int64.ofInt_toInt]
    rw [attributeOfJson, AttrValue.toJson, Json.toValue?]
    dsimp only
    rw [hvalue]
  | text s => rfl
  | span s =>
    obtain ⟨entries, hvalue, hspan⟩ := s.ofValue?_toJson
    rw [attributeOfJson, AttrValue.toJson, hvalue]
    simp [AttrValue.ofValue?, hspan]

end Document

/-! ## Section 3: Attribute maps -/

/-- An entry with the greatest key goes to the end. -/
theorem insertEntry_of_greatest {key : String} {value : AttrValue}
    {entries : List (String × AttrValue)} (h : ∀ e ∈ entries, e.1 < key) :
    insertEntry key value entries = entries ++ [(key, value)] := by
  induction entries with
  | nil => rfl
  | cons e rest ih =>
    have he : e.1 < key := h e List.mem_cons_self
    have hne : key ≠ e.1 := by
      intro heq
      rw [heq] at he
      exact String.lt_irrefl _ he
    rw [insertEntry, if_neg (String.lt_asymm he), if_neg hne, List.cons_append,
      ih fun d hd => h d (List.mem_cons_of_mem e hd)]

namespace Attributes

theorem eq_of_entries {a b : Attributes} (h : a.entries = b.entries) : a = b := by
  obtain ⟨entries, sorted⟩ := a
  obtain ⟨entries', sorted'⟩ := b
  obtain rfl : entries = entries' := h
  rfl

/-- The next entry in key order goes to the end. -/
theorem entries_insert_of_append {before found : Attributes} {key : String}
    {value : AttrValue} {rest : List (String × AttrValue)}
    (h : found.entries = before.entries ++ (key, value) :: rest) :
    found.entries = (before.insert key value).entries ++ rest := by
  -- The keys increase, so the next one is the greatest so far.
  have hgreatest : ∀ e ∈ before.entries, e.1 < key := by
    intro e he
    have hsorted := found.sorted
    rw [h, List.pairwise_append] at hsorted
    exact hsorted.2.2 e he (key, value) List.mem_cons_self
  show _ = insertEntry key value before.entries ++ rest
  rw [insertEntry_of_greatest hgreatest, h, List.append_assoc]
  rfl

end Attributes

namespace Document

/-- Entries are read in key order, each onto those before it. -/
theorem attributesOfMembers_append {before found : Attributes} {rest : List (String × AttrValue)}
    (h : found.entries = before.entries ++ rest) :
    attributesOfMembers before (rest.map fun (key, v) => (some key, v.toJson)) = .ok found := by
  induction rest generalizing before with
  | nil =>
    rw [List.append_nil] at h
    obtain rfl := Attributes.eq_of_entries h
    rfl
  | cons e rest ih =>
    obtain ⟨key, value⟩ := e
    rw [List.map_cons, attributesOfMembers, attributeOfJson_toJson]
    exact ih (Attributes.entries_insert_of_append h)

theorem attributesOfJson_toJson (a : Attributes) : attributesOfJson a.toJson = .ok a := by
  rw [Attributes.toJson, attributesOfJson]
  exact attributesOfMembers_append rfl

/-! ## Section 4: Nodes -/

theorem kindOfJson_name (k : Kind) : kindOfJson (.string (some k.name)) = .ok k := by
  rw [kindOfJson, Kind.ofName?_name]

mutual

/-- A document is read back from its JSON value. -/
theorem ofJson_toJson : (d : Document) → ofJson d.toJson = .ok d
  | .node k a cs => by
    have hchildren : childrenOfJson (.array (toJsonAll cs)) = .ok cs := by
      rw [childrenOfJson]
      exact ofItems_toJsonAll cs
    rw [toJson, ofJson]
    simp only [fieldsOfMembers, kindOfJson_name, attributesOfJson_toJson, hchildren]
    rfl

/-- Documents are read back from their JSON values, in order. -/
theorem ofItems_toJsonAll : (ds : List Document) → ofItems (toJsonAll ds) = .ok ds
  | [] => by
    rw [toJsonAll, ofItems]
  | d :: ds => by
    rw [toJsonAll, ofItems, ofJson_toJson d, ofItems_toJsonAll ds]
    rfl

end

/-! ## Section 5: The values of documents can be written -/

theorem writable_jsonOfNat {n : Nat} (h : n < Nat.pow 2 64) : (jsonOfNat n).Writable := by
  rw [jsonOfNat, Json.Writable]
  constructor <;> omega

end Document

theorem Position.writable_toJson (p : Position) : p.toJson.Writable := by
  have hline := Nat.lt_trans p.line.toNat_lt (by decide : _ < Nat.pow 2 64)
  have hcolumn := Nat.lt_trans p.column.toNat_lt (by decide : _ < Nat.pow 2 64)
  simp only [toJson, Json.Writable, Json.MembersWritable]
  exact ⟨rfl, Document.writable_jsonOfNat hline, rfl, Document.writable_jsonOfNat hcolumn, trivial⟩

theorem AttrValue.writable_toJson (v : AttrValue) : v.toJson.Writable := by
  cases v with
  | flag b => rw [toJson, Json.Writable]; trivial
  | int i =>
    have hlow := Int64.le_toInt i
    have hhigh := Int64.toInt_lt i
    rw [toJson, Json.Writable]
    simp only [Nat.pow_eq]
    omega
  | span s =>
    simp only [toJson, Span.toJson, Json.Writable, Json.MembersWritable]
    exact ⟨rfl, s.start.writable_toJson, rfl, s.stop.writable_toJson, trivial⟩
  | text s => rw [toJson, Json.Writable]; rfl

theorem Attributes.writable_toJson (a : Attributes) : a.toJson.Writable := by
  rw [toJson, Json.Writable]
  induction a.entries with
  | nil => rw [List.map_nil, Json.MembersWritable]; trivial
  | cons e rest ih =>
    rw [List.map_cons, Json.MembersWritable]
    exact ⟨rfl, e.2.writable_toJson, ih⟩

namespace Document

mutual

theorem writable_toJson : (d : Document) → d.toJson.Writable
  | .node k a cs => by
    simp only [toJson, Json.Writable, Json.MembersWritable]
    exact ⟨rfl, rfl, rfl, a.writable_toJson, rfl, allWritable_toJsonAll cs, trivial⟩

theorem allWritable_toJsonAll : (ds : List Document) → Json.AllWritable (toJsonAll ds)
  | [] => by
    rw [toJsonAll, Json.AllWritable]
    trivial
  | d :: ds => by
    rw [toJsonAll, Json.AllWritable]
    exact ⟨writable_toJson d, allWritable_toJsonAll ds⟩

end

/-! ## Section 6: The round trip -/

/-- The JSON text of a document is read back. -/
theorem decode_encodeJson (d : Document) : decode .json d.encodeJson = .ok d := by
  show decodeJson d.toJson.pretty = .ok d
  rw [decodeJson, Json.parse_pretty d.writable_toJson]
  dsimp only
  rw [ofJson_toJson]
  rfl

/-- Every document has a JSON text, from which it is read back with every
    attribute in its own form.  A text that goes on after the document with
    anything but white space is refused. -/
theorem json_text_round_trip (d : Document) :
    ∃ text, encode .json d = .ok text ∧ decode .json text = .ok d ∧
      ∀ s : String, (∃ c ∈ s.toList, ¬Json.isSpace c) →
        ∃ e, decode .json (text ++ s) = .error e := by
  refine ⟨d.encodeJson, rfl, d.decode_encodeJson, ?_⟩
  · rintro s ⟨c, hc, hspace⟩
    refine ⟨.malformed, ?_⟩
    show decodeJson (d.toJson.pretty ++ s) = .error .malformed
    rw [decodeJson, Json.parse_pretty_append d.writable_toJson hc hspace]
    dsimp only
    rw [ofJson_toJson]
    rfl

/-- Texts that look like other values stay texts, next to the smallest integer
    and a range. -/
theorem json_text_round_trip_lookalikes :
    let d : Document := .node .compilationUnit (.ofList
      [("number", .text "42"), ("flag", .text "true"), ("nothing", .text "null\x00\"\\"),
       ("least", .int Int64.minValue), ("range", .span ⟨⟨1, 2⟩, ⟨3, 4⟩⟩)]) [default]
    ∃ text, encode .json d = .ok text ∧ decode .json text = .ok d ∧
      ∃ e, decode .json (text ++ " \n]") = .error e := by
  intro d
  obtain ⟨text, htext, hback, hmore⟩ := json_text_round_trip d
  exact ⟨text, htext, hback, hmore " \n]" ⟨']', by decide, by decide⟩⟩

end Document

end JavaTree
