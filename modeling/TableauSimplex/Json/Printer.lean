import TableauSimplex.Json.Value

/-!
# Writing JSON

Documents are written in ASCII: any other character becomes an escape of one or two units of
sixteen bits. Two layouts are used.

* `Value.indented`: every item and field on a line of its own, two blanks per level.
* `Value.compact`: everything on one line.
-/

namespace TableauSimplex.Json

/-- An escape of one unit of sixteen bits. -/
def unitEscape (unit : Nat) : String := "\\u" ++ Text.hexText 4 unit

/-- A code point inside a JSON text. -/
def escapedCode (code : Nat) : String :=
  if code == '"'.toNat then "\\\""
  else if code == '\\'.toNat then "\\\\"
  else if code == '\n'.toNat then "\\n"
  else if code == '\r'.toNat then "\\r"
  else if code == '\t'.toNat then "\\t"
  else if code == 0x08 then "\\b"
  else if code == 0x0c then "\\f"
  else if 0x20 ≤ code && code ≤ 0x7e then (Char.ofNat code).toString
  else String.join ((Text.unitsOf code).map unitEscape)

/-- A text with its quotes. -/
def textLiteral (s : String) : String :=
  "\"" ++ String.join ((Text.codes s).map escapedCode) ++ "\""

namespace Value

/-- A value without items or fields. -/
def scalarText : Value → String
  | null => "null"
  | bool b => if b then "true" else "false"
  | whole n => toString n
  | decimal x => documentText x
  | text s => textLiteral s
  | list _ => "[]"
  | object _ => "\x7b\x7d"

/-- A line break and the blanks of a level. -/
def newline (level : Nat) : String := "\n" ++ String.ofList (List.replicate (2 * level) ' ')

mutual

/-- A value laid out over lines, starting at the given level. -/
def layout (level : Nat) : Value → String
  | list (first :: rest) =>
    "[" ++ newline (level + 1) ++ layout (level + 1) first ++ layoutItems (level + 1) rest ++
      newline level ++ "]"
  | object ((key, first) :: rest) =>
    "\x7b" ++ newline (level + 1) ++ textLiteral key ++ ": " ++ layout (level + 1) first ++
      layoutFields (level + 1) rest ++ newline level ++ "\x7d"
  | v => scalarText v

/-- Further items, each on its line. -/
def layoutItems (level : Nat) : List Value → String
  | [] => ""
  | v :: rest => "," ++ newline level ++ layout level v ++ layoutItems level rest

/-- Further fields, each on its line. -/
def layoutFields (level : Nat) : List (String × Value) → String
  | [] => ""
  | (key, v) :: rest =>
    "," ++ newline level ++ textLiteral key ++ ": " ++ layout level v ++ layoutFields level rest

end

/-- A document over lines. -/
def indented (v : Value) : String := layout 0 v

mutual

/-- A document on one line. -/
def compact : Value → String
  | list (first :: rest) => "[" ++ compact first ++ compactItems rest ++ "]"
  | object ((key, first) :: rest) =>
    "\x7b" ++ textLiteral key ++ ":" ++ compact first ++ compactFields rest ++ "\x7d"
  | v => scalarText v

/-- Further items on the same line. -/
def compactItems : List Value → String
  | [] => ""
  | v :: rest => "," ++ compact v ++ compactItems rest

/-- Further fields on the same line. -/
def compactFields : List (String × Value) → String
  | [] => ""
  | (key, v) :: rest => "," ++ textLiteral key ++ ":" ++ compact v ++ compactFields rest

end

end Value

end TableauSimplex.Json
