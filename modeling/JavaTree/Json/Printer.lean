import JavaTree.Json.Basic

/-! # JSON text

    `Json.pretty` writes a value with one item or member on each line and two
    spaces for each level.  Empty arrays and objects stay on one line.  In a
    string only the quote, the backslash and the control characters are
    escaped. -/

namespace JavaTree.Json

/-- A lower-case hexadecimal digit. -/
def hexDigit (n : Nat) : Char := (Nat.digitChar n)

/-- The characters that stand for `c` inside a string literal. -/
def escapeChar (c : Char) : List Char :=
  match c with
  | '"' => ['\\', '"']
  | '\\' => ['\\', '\\']
  | '\x08' => ['\\', 'b']
  | '\x0c' => ['\\', 'f']
  | '\n' => ['\\', 'n']
  | '\r' => ['\\', 'r']
  | '\t' => ['\\', 't']
  | c =>
    if c.toNat < 0x20 then
      ['\\', 'u', '0', '0', hexDigit (c.toNat / 16), hexDigit (c.toNat % 16)]
    else [c]

/-- A string literal. -/
def quote (s : String) : String := "\"" ++ String.ofList (s.toList.flatMap escapeChar) ++ "\""

/-- A number literal. -/
def Number.render : Number → String
  | .integer i => toString i
  | .decimal significand exponent => toString significand ++ "e" ++ toString exponent

/-- A line break and the indentation of a level. -/
def lineBreak (level : Nat) : String := "\n" ++ String.ofList (List.replicate (2 * level) ' ')

mutual

/-- The text of a value that stands at a level.  What is broken off or has no
    text is written as `null`. -/
def renderAt (level : Nat) : Json → String
  | .null | .cut | .string none => "null"
  | .bool true => "true"
  | .bool false => "false"
  | .number n => n.render
  | .string (some s) => quote s
  | .array [] => "[]"
  | .array (v :: rest) =>
      "[" ++ lineBreak (level + 1) ++ renderAt (level + 1) v ++ renderItems (level + 1) rest
        ++ lineBreak level ++ "]"
  | .object [] => "\x7b\x7d"
  | .object ((key, v) :: rest) =>
      "\x7b" ++ lineBreak (level + 1) ++ quote (key.getD "") ++ ": " ++ renderAt (level + 1) v
        ++ renderMembers (level + 1) rest ++ lineBreak level ++ "\x7d"

/-- The items after the first. -/
def renderItems (level : Nat) : List Json → String
  | [] => ""
  | v :: rest => "," ++ lineBreak level ++ renderAt level v ++ renderItems level rest

/-- The members after the first. -/
def renderMembers (level : Nat) : List (Option String × Json) → String
  | [] => ""
  | (key, v) :: rest =>
      "," ++ lineBreak level ++ quote (key.getD "") ++ ": " ++ renderAt level v
        ++ renderMembers level rest

end

/-- The text of a value, ended by a line break. -/
def pretty (v : Json) : String := renderAt 0 v ++ "\n"

end JavaTree.Json
