import JavaTree.Document.Yaml.Printer
import JavaTree.Proofs.Document.Levels
import Mathlib.Data.List.Basic

/-! # How deep the YAML text of a document nests

    A reader of YAML counts the collections around a value, and a document
    counts its levels.  Three kinds of collections come from one level: the
    mapping of the node, the list of its children, and the mapping of its
    attributes with the two mappings of a source range in it.

    `Yaml.Datum` is what a YAML text carries, whatever it stands for, and
    `Yaml.Datum.write` is its layout.  The text of a document is the layout of
    its datum (`Yaml.write_toDatum`), whose nesting is bounded by the levels
    (`Document.nesting_toDatum`). -/

namespace JavaTree

/-! ## Section 1: The work list finds the height -/

namespace Document

/-- The deepest level that pending documents reach. -/
def reach : List (Document × Nat) → Nat
  | [] => 0
  | (d, level) :: rest => max (level + heightAll d.children) (reach rest)

theorem reach_append (pending others : List (Document × Nat)) :
    reach (pending ++ others) = max (reach pending) (reach others) := by
  induction pending with
  | nil => simp [reach]
  | cons p pending ih =>
    rw [List.cons_append, reach, reach, ih]
    omega

/-- Documents one level further down, seen from the level above. -/
theorem max_reach_map (level : Nat) (ds : List Document) :
    max level (reach (ds.map (·, level + 1))) = level + heightAll ds := by
  induction ds with
  | nil => simp [reach, heightAll]
  | cons d ds ih =>
    rw [List.map_cons, reach, heightAll, height_eq]
    omega

theorem deepestLevel_eq (pending : List (Document × Nat)) (deepest : Nat) :
    deepestLevel pending deepest = max deepest (reach pending) := by
  fun_induction deepestLevel pending deepest with
  | case1 deepest => simp [reach]
  | case2 deepest d level rest ih =>
    -- The children of `d` stand on the list one level further down, and `d` itself has counted.
    have hchildren := max_reach_map level d.children
    rw [ih, reach_append, reach]
    omega

/-- The work list finds as many levels as there are. -/
theorem depth_eq_height (d : Document) : d.depth = d.height := by
  rw [depth, deepestLevel_eq, reach, reach, height_eq]
  omega

end Document

/-! ## Section 2: What a YAML text carries -/

namespace Yaml

/-- The content of a YAML text: scalars, lists, and mappings with texts as
    keys. -/
inductive Datum where
  | flag (b : Bool)
  | int (i : Int)
  | text (s : String)
  | list (items : List Datum)
  | map (entries : List (String × Datum))

namespace Datum

mutual

/-- The greatest number of collections on a path into the content. -/
def nesting : Datum → Nat
  | .list items => 1 + nestingAll items
  | .map entries => 1 + nestingEntries entries
  | _ => 0

/-- The greatest nesting of some items. -/
def nestingAll : List Datum → Nat
  | [] => 0
  | v :: rest => max v.nesting (nestingAll rest)

/-- The greatest nesting of some values. -/
def nestingEntries : List (String × Datum) → Nat
  | [] => 0
  | (_, v) :: rest => max v.nesting (nestingEntries rest)

end

/-! ### Layout -/

/-- Whether the content is a collection that needs lines of its own. -/
def isFilled : Datum → Bool
  | .list (_ :: _) => true
  | .map (_ :: _) => true
  | _ => false

/-- The column of a value whose key stands in a column.  The items of a list
    are not moved to the right. -/
def columnAfter (column : Nat) : Datum → Nat
  | .list (_ :: _) => column
  | _ => column + 2

/-- What stands between the colon of a key and the value. -/
def gapAfter (column : Nat) (v : Datum) : String :=
  if v.isFilled then "\n" ++ spaces (v.columnAfter column) else " "

mutual

/-- The lines of some content whose upper left corner is in a column. -/
def write (column : Nat) : Datum → String
  | .flag b => endLine (if b then "true" else "false")
  | .int i => endLine (toString i)
  | .text s => endLine (writeText column s)
  | .list items =>
    if items.isEmpty then "[]\n" else (spaces column).intercalate (writeItems column items)
  | .map entries =>
    if entries.isEmpty then "\x7b\x7d\n"
    else (spaces column).intercalate (writeEntries column entries)

/-- The items of a list, each from its dash on. -/
def writeItems (column : Nat) : List Datum → List String
  | [] => []
  | v :: rest => ("- " ++ v.write (column + 2)) :: writeItems column rest

/-- The entries of a mapping, each from its key on.  A key that does not fit on
    one line is set off by a question mark, and its value by a colon. -/
def writeEntries (column : Nat) : List (String × Datum) → List String
  | [] => []
  | (key, v) :: rest =>
    (if isSimpleKey key then
      writeText (column + 2) key ++ ":" ++ (v.gapAfter column ++ v.write (v.columnAfter column))
    else
      endLine ("? " ++ writeText (column + 2) key) ++ spaces column ++ ":" ++ " "
        ++ v.write (column + 2)) :: writeEntries column rest

end

end Datum

end Yaml

/-! ## Section 3: The datum of a document -/

/-- A position as a mapping. -/
def Position.toDatum (p : Position) : Yaml.Datum :=
  .map [("line", .int p.line.toNat), ("column", .int p.column.toNat)]

/-- A source range as a mapping of two positions. -/
def Span.toDatum (s : Span) : Yaml.Datum :=
  .map [("begin", s.start.toDatum), ("end", s.stop.toDatum)]

/-- An attribute value, without a mark of its form. -/
def AttrValue.toDatum : AttrValue → Yaml.Datum
  | .flag b => .flag b
  | .int i => .int i.toInt
  | .span s => s.toDatum
  | .text s => .text s

/-- The entries of an attribute map. -/
def Attributes.toData (a : Attributes) : List (String × Yaml.Datum) :=
  a.entries.map fun (key, v) => (key, v.toDatum)

namespace Document

mutual

/-- A node as a mapping of its three fields. -/
def toDatum : Document → Yaml.Datum
  | .node k a cs =>
    .map [("kind", .text k.name), ("attributes", .map a.toData), ("children", .list (toData cs))]

/-- The nodes of a list. -/
def toData : List Document → List Yaml.Datum
  | [] => []
  | d :: ds => d.toDatum :: toData ds

end

end Document

open Yaml (Datum)

theorem AttrValue.nesting_toDatum (v : AttrValue) : v.toDatum.nesting ≤ 2 := by
  cases v with
  | flag b => simp [toDatum, Datum.nesting]
  | int i => simp [toDatum, Datum.nesting]
  | text s => simp [toDatum, Datum.nesting]
  | span s =>
    simp [toDatum, Span.toDatum, Position.toDatum, Datum.nesting, Datum.nestingEntries]

theorem Attributes.nestingEntries_toData (a : Attributes) :
    Datum.nestingEntries a.toData ≤ 2 := by
  rw [toData]
  induction a.entries with
  | nil => simp [Datum.nestingEntries]
  | cons e rest ih =>
    have hvalue := e.2.nesting_toDatum
    rw [List.map_cons, Datum.nestingEntries]
    omega

namespace Document

mutual

/-- A level costs a mapping and a list.  At the last one the list is empty, and
    the attributes count. -/
theorem nesting_toDatum : (d : Document) → d.toDatum.nesting ≤ 2 * d.height + 2
  | .node k a cs => by
    have hattributes := a.nestingEntries_toData
    have hchildren := nestingAll_toData cs
    -- The attributes add three collections, and the children two more than theirs.
    simp only [toDatum, Datum.nesting, Datum.nestingEntries, height]
    omega

theorem nestingAll_toData : (ds : List Document) →
    Datum.nestingAll (toData ds) ≤ 2 * heightAll ds + 2
  | [] => by
    simp [toData, Datum.nestingAll]
  | d :: ds => by
    have hfirst := nesting_toDatum d
    have hrest := nestingAll_toData ds
    rw [toData, Datum.nestingAll, heightAll]
    omega

end

end Document

/-! ## Section 4: The text of a document is the layout of its datum -/

namespace Yaml

/-- Lines with their indentation, the first one included. -/
theorem append_intercalate (indent first : String) (rest : List String) :
    indent ++ indent.intercalate (first :: rest) =
      String.join ((first :: rest).map (indent ++ ·)) := by
  induction rest generalizing first with
  | nil => simp
  | cons second rest ih =>
    rw [String.intercalate_cons_cons, List.map_cons, String.join_cons, ← ih second]
    simp only [String.append_assoc]

theorem endLine_space (s : String) : endLine (" " ++ s) = " " ++ endLine s := by
  by_cases hs : s = ""
  · subst hs
    decide
  · have hnil : s.toList ≠ [] := by
      intro h
      exact hs (String.toList_inj.1 h)
    have hlast : (" " ++ s).toList.getLast? = s.toList.getLast? := by
      rw [String.toList_append, List.getLast?_append_of_ne_nil _ hnil]
    rw [endLine, endLine, hlast]
    split
    · rfl
    · rw [String.append_assoc]

/-- A number does not end its line itself. -/
theorem endLine_toString (n : Nat) : endLine (toString n) = toString n ++ "\n" := by
  -- The last character is a digit, and no digit ends a line.
  have hdigit : ∀ c, (toString n).toList.getLast? = some c → isBreak c = false := by
    intro c hc
    have hmem : c ∈ Nat.toDigits 10 n := by
      have h := List.mem_of_getLast? hc
      simpa using h
    have hdigit := Nat.isDigit_of_mem_toDigits (by decide) (by decide) hmem
    rw [isBreak]
    simp only [Bool.or_eq_false_iff, decide_eq_false_iff_not]
    refine ⟨⟨⟨⟨?_, ?_⟩, ?_⟩, ?_⟩, ?_⟩ <;>
      · rintro rfl
        revert hdigit
        decide
  rw [endLine]
  cases h : (toString n).toList.getLast? with
  | none => rfl
  | some c => simp [hdigit c h]

/-- A text that is written as it is, also as a key. -/
def IsWord (s : String) : Prop :=
  Style.of s = .plain ∧ isSimpleKey s = true ∧ endLine s = s ++ "\n"

instance (s : String) : Decidable (IsWord s) := inferInstanceAs (Decidable (_ ∧ _ ∧ _))

theorem isWord_fields :
    ∀ name ∈ ["kind", "attributes", "children", "begin", "end", "line", "column"], IsWord name := by
  decide +kernel

theorem isWord_kind (k : Kind) : IsWord k.name := by
  have hall : ∀ k ∈ Kind.all, IsWord k.name := by decide +kernel
  exact hall k (Kind.mem_all k)

theorem writeText_of_isWord {s : String} (h : IsWord s) (column : Nat) :
    writeText column s = s := by
  rw [writeText, h.1]

namespace Datum

theorem writeEntries_word {key : String} (h : IsWord key) (column : Nat) (v : Datum)
    (rest : List (String × Datum)) :
    writeEntries column ((key, v) :: rest) =
      (key ++ ":" ++ (v.gapAfter column ++ v.write (v.columnAfter column))) ::
        writeEntries column rest := by
  rw [writeEntries, if_pos h.2.1, writeText_of_isWord h]

/-- A mapping of two words. -/
theorem write_pair {first second : String} (hfirst : IsWord first) (hsecond : IsWord second)
    (column : Nat) (v w : Datum) :
    write column (.map [(first, v), (second, w)]) =
      first ++ ":" ++ (v.gapAfter column ++ v.write (v.columnAfter column)) ++ spaces column ++
        (second ++ ":" ++ (w.gapAfter column ++ w.write (w.columnAfter column))) := by
  rw [write, writeEntries_word hfirst, writeEntries_word hsecond, writeEntries,
    String.intercalate_cons_cons, String.intercalate_singleton]
  rfl

theorem write_position (column : Nat) (p : Position) :
    spaces column ++ write column p.toDatum = writePosition column p := by
  have hnumber : ∀ n : UInt32, write (column + 2) (.int n.toNat) = toString n.toNat ++ "\n" :=
    fun n => endLine_toString n.toNat
  rw [Position.toDatum, write_pair (isWord_fields _ (by decide)) (isWord_fields _ (by decide))]
  simp only [gapAfter, isFilled, columnAfter, hnumber, writePosition, numberEntry,
    String.append_assoc]
  rfl

theorem write_span (column : Nat) (s : Span) : write column s.toDatum = writeSpan column s := by
  have hposition := write_position (column + 2)
  rw [Span.toDatum, write_pair (isWord_fields _ (by decide)) (isWord_fields _ (by decide)),
    writeSpan, ← hposition, ← hposition]
  simp only [Position.toDatum, gapAfter, isFilled, columnAfter, String.append_assoc]
  rfl

/-- A scalar attribute value stands behind its colon on the same line. -/
theorem write_scalar {column : Nat} {v : AttrValue} {text : String}
    (h : writeScalar? (column + 2) v = some text) :
    v.toDatum.gapAfter column = " " ∧ v.toDatum.columnAfter column = column + 2 ∧
      " " ++ v.toDatum.write (column + 2) = endLine (" " ++ text) := by
  rw [endLine_space]
  cases v with
  | flag b =>
    obtain rfl := Option.some.inj h
    exact ⟨rfl, rfl, rfl⟩
  | int i =>
    obtain rfl := Option.some.inj h
    exact ⟨rfl, rfl, rfl⟩
  | text s =>
    obtain rfl := Option.some.inj h
    exact ⟨rfl, rfl, rfl⟩
  | span s => cases h

/-- An attribute, from its key on, with the indentation of the key. -/
theorem writeEntries_attribute (column : Nat) (key : String) (v : AttrValue)
    (rest : List (String × Datum)) :
    ∃ block, writeEntries column ((key, v.toDatum) :: rest) = block :: writeEntries column rest ∧
      spaces column ++ block = writeAttribute column key v := by
  refine ⟨_, by rw [writeEntries], ?_⟩
  -- A range is the only attribute value that needs lines of its own.
  cases hscalar : writeScalar? (column + 2) v with
  | some text =>
    obtain ⟨hgap, hcolumn, hwrite⟩ := write_scalar hscalar
    have hvalue : writeAttribute column key v = if isSimpleKey key then
          spaces column ++ writeText (column + 2) key ++ ":" ++ endLine (" " ++ text)
        else spaces column ++ endLine ("? " ++ writeText (column + 2) key) ++ spaces column ++
          ":" ++ endLine (" " ++ text) := by
      rw [writeAttribute]
      cases v with
      | span s => cases hscalar
      | _ => simp only [hscalar, Option.getD_some]
    rw [hvalue, hgap, hcolumn]
    split <;> simp only [String.append_assoc, hwrite]
  | none =>
    cases v with
    | span s =>
      have hgap : gapAfter column s.toDatum = "\n" ++ spaces (column + 2) := rfl
      have hcolumn : columnAfter column s.toDatum = column + 2 := rfl
      rw [AttrValue.toDatum, hgap, hcolumn, write_span, writeAttribute]
      split <;> simp only [String.append_assoc, Bool.false_eq_true, if_true, if_false]
    | _ => cases hscalar

theorem map_writeEntries (column : Nat) (entries : List (String × AttrValue)) :
    (writeEntries column (entries.map fun (key, v) => (key, v.toDatum))).map (spaces column ++ ·) =
      entries.map fun (key, v) => writeAttribute column key v := by
  induction entries with
  | nil => rfl
  | cons e rest ih =>
    obtain ⟨key, v⟩ := e
    obtain ⟨block, hblock, hattribute⟩ := writeEntries_attribute column key v
      (rest.map fun (key, v) => (key, v.toDatum))
    rw [List.map_cons, hblock, List.map_cons, ih, hattribute, List.map_cons]

/-- A nonempty mapping below its key. -/
theorem gapAfter_append_write_map (column : Nat) (e : String × Datum)
    (rest : List (String × Datum)) :
    gapAfter column (.map (e :: rest)) ++ write (columnAfter column (.map (e :: rest)))
        (.map (e :: rest)) =
      "\n" ++ String.join
        ((writeEntries (column + 2) (e :: rest)).map (spaces (column + 2) ++ ·)) := by
  have hgap : gapAfter column (.map (e :: rest)) = "\n" ++ spaces (column + 2) := rfl
  have hcolumn : columnAfter column (.map (e :: rest)) = column + 2 := rfl
  have hwrite : write (column + 2) (.map (e :: rest)) =
      (spaces (column + 2)).intercalate (writeEntries (column + 2) (e :: rest)) := by
    rw [write]
    rfl
  rw [hgap, hcolumn, hwrite, writeEntries, String.append_assoc, append_intercalate]

theorem write_attributes (column : Nat) (a : Attributes) :
    gapAfter column (.map a.toData) ++
        write (columnAfter column (.map a.toData)) (.map a.toData) = writeAttributes column a := by
  rw [Attributes.toData, writeAttributes]
  cases a.entries with
  | nil => rfl
  | cons e rest =>
    rw [List.map_cons, gapAfter_append_write_map]
    exact congrArg (fun blocks => "\n" ++ String.join blocks)
      (map_writeEntries (column + 2) (e :: rest))

/-- A nonempty list below its key. -/
theorem gapAfter_append_write_list (column : Nat) (v : Datum) (rest : List Datum) :
    gapAfter column (.list (v :: rest)) ++ write (columnAfter column (.list (v :: rest)))
        (.list (v :: rest)) =
      "\n" ++ String.join ((writeItems column (v :: rest)).map (spaces column ++ ·)) := by
  have hgap : gapAfter column (.list (v :: rest)) = "\n" ++ spaces column := rfl
  have hcolumn : columnAfter column (.list (v :: rest)) = column := rfl
  have hwrite : write column (.list (v :: rest)) =
      (spaces column).intercalate (writeItems column (v :: rest)) := by
    rw [write]
    rfl
  rw [hgap, hcolumn, hwrite, writeItems, String.append_assoc, append_intercalate]

end Datum

theorem writeNode_eq (column : Nat) (k : Kind) (a : Attributes) (cs : List Document) :
    writeNode column (.node k a cs) =
      "kind: " ++ k.name ++ "\n" ++ spaces column ++ "attributes:" ++ writeAttributes column a ++
        spaces column ++ "children:" ++
          if cs.isEmpty then " []\n" else "\n" ++ writeItems column cs := by
  cases cs with
  | nil => rw [writeNode, List.isEmpty_nil, if_pos rfl]
  | cons d rest =>
    rw [writeNode, List.isEmpty_cons]
    rfl

mutual

/-- The text of a document is the layout of its datum. -/
theorem write_toDatum : (d : Document) → (column : Nat) →
    d.toDatum.write column = writeNode column d
  | .node k a cs, column => by
    -- An empty list stays on the line of its key, so the children are told apart first.
    have hitems := join_writeItems cs column
    have hchildren : Datum.gapAfter column (.list (Document.toData cs)) ++
        Datum.write (Datum.columnAfter column (.list (Document.toData cs)))
          (.list (Document.toData cs)) =
        if cs.isEmpty then " []\n" else "\n" ++ writeItems column cs := by
      cases cs with
      | nil => rfl
      | cons d rest =>
        rw [Document.toData] at hitems ⊢
        rw [Datum.gapAfter_append_write_list, hitems]
        rfl
    have hkind : Datum.gapAfter column (.text k.name) ++
        Datum.write (Datum.columnAfter column (.text k.name)) (.text k.name) =
          " " ++ (k.name ++ "\n") := by
      show " " ++ endLine (writeText (column + 2) k.name) = _
      rw [writeText_of_isWord (isWord_kind k), (isWord_kind k).2.2]
    rw [writeNode_eq, Document.toDatum, Datum.write,
      Datum.writeEntries_word (isWord_fields _ (by decide)),
      Datum.writeEntries_word (isWord_fields _ (by decide)),
      Datum.writeEntries_word (isWord_fields _ (by decide)), Datum.writeEntries,
      hkind, Datum.write_attributes, hchildren]
    -- The printer has each field name in one piece with what follows it.
    have hfirst : "kind: " = "kind" ++ (":" ++ " ") := rfl
    have hsecond : "attributes:" = "attributes" ++ ":" := rfl
    have hthird : "children:" = "children" ++ ":" := rfl
    simp only [List.isEmpty_cons, Bool.false_eq_true, if_false, String.intercalate_cons_cons,
      String.intercalate_singleton, String.append_assoc, hfirst, hsecond, hthird]

/-- The texts of the items of a list, with their indentation. -/
theorem join_writeItems : (ds : List Document) → (column : Nat) →
    String.join ((Datum.writeItems column (Document.toData ds)).map (spaces column ++ ·)) =
      writeItems column ds
  | [], column => by
    rw [Document.toData, Datum.writeItems, List.map_nil, writeItems]
    rfl
  | d :: ds, column => by
    rw [Document.toData, Datum.writeItems, List.map_cons, String.join_cons, writeItems,
      write_toDatum d, join_writeItems ds]
    simp only [String.append_assoc]

end

end Yaml

end JavaTree
