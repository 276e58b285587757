import JavaTree.Document.Format
import JavaTree.Print
import JavaTree.Toml.Reader

/-! # Configuration

    The options of a run and how they are read from a TOML text.  Every
    section and every key may be left out, and unknown ones are passed over.
    A section may also be given as the list of its values in order. -/

namespace JavaTree

/-! ## Section 1: Options -/

/-- The options of a run. -/
structure Config where
  /-- How source code is laid out. -/
  layout : Layout := {}
  /-- Whether the graph has styles. -/
  styled : Bool := true
  /-- The format of the tree artifact. -/
  treeFormat : Format := .yaml
  /-- Whether artifacts are made in parallel. -/
  parallel : Bool := false
  /-- How many workers share the work. -/
  workers : Option Nat := none
  deriving DecidableEq, Repr

/-- The number of workers asked for.  Zero leaves the choice to the
    program. -/
def Config.chosenWorkers? (c : Config) : Option Nat := c.workers.filter (0 < ·)

/-! ## Section 2: Reading values -/

namespace Toml.Value

/-- A natural number. -/
def natural? : Value → Option Nat
  | .integer (.ofNat n) => some n
  | _ => none

/-- A truth value. -/
def boolean? : Value → Option Bool
  | .boolean b => some b
  | _ => none

/-- A text. -/
def string? : Value → Option String
  | .string s => some s
  | _ => none

/-- Whether the value is an array or a table without content. -/
def isEmpty : Value → Bool
  | .array [] => true
  | .table _ [] => true
  | .tables [] => true
  | _ => false

/-- The format with exactly the given name. -/
def formatNamed? (name : String) : Option Format :=
  if name = "yaml" then some .yaml else if name = "json" then some .json else none

/-- A format: its name, or a table whose one key is the name and whose value
    is empty. -/
def format? : Value → Option Format
  | .string s => formatNamed? s
  | .table _ [(name, v)] => if v.isEmpty then formatNamed? name else none
  | _ => none

/-- The values of a section by field: named in a table, or in order in a
    list.  A list may be shorter, and what is beyond the last field does not
    count.  A date stands for a table of its own parts, none of which is a
    field of a section. -/
def fields? (names : List String) : Value → Option (List (String × Value))
  | .table _ entries => some entries
  | .array items => some (names.zip items)
  | .tables items => some (names.zip (items.reverse.map (.table .header)))
  | .datetime => some []
  | _ => none

end Toml.Value

namespace Config

/-- The value of a field, or its default if it is left out. -/
def field? {α : Type} (fields : List (String × Toml.Value)) (name : String)
    (read : Toml.Value → Option α) (default : α) : Option α :=
  match fields.lookup name with
  | some v => read v
  | none => some default

/-- The fields of a section; none if it is left out. -/
def section? (entries : Toml.Entries) (name : String) (names : List String) :
    Option (List (String × Toml.Value)) :=
  match entries.lookup name with
  | some v => v.fields? names
  | none => some []

/-- Read the options from a table. -/
def ofEntries? (entries : Toml.Entries) : Option Config := do
  let format ← section? entries "format" ["indent_width", "line_terminator"]
  let graph ← section? entries "graph" ["styled"]
  let tree ← section? entries "tree" ["format"]
  let pipeline ← section? entries "pipeline" ["parallel", "workers"]
  return {
    layout :=
      { indentWidth := ← field? format "indent_width" Toml.Value.natural? 2
        lineTerminator := ← field? format "line_terminator" Toml.Value.string? "\n" }
    styled := ← field? graph "styled" Toml.Value.boolean? true
    treeFormat := ← field? tree "format" Toml.Value.format? .yaml
    parallel := ← field? pipeline "parallel" Toml.Value.boolean? false
    workers := ← field? pipeline "workers" (fun v => v.natural?.map some) none }

/-- Read the options from a TOML text. -/
def ofText? (text : String) : Option Config := (Toml.parse? text).bind ofEntries?

end Config

end JavaTree
