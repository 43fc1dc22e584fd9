import TableauSimplex.Error
import TableauSimplex.Number.Reader
import TableauSimplex.Text.Codes

/-!
# Reading JSON

A document is one value between blanks. Beyond the JSON grammar the names `NaN`, `Infinity` and
`-Infinity` are numbers. A key that is repeated in an object keeps its first place and its last
value. Values nested too deeply and whole numbers with too many digits are refused where they are
met.

* `read`: the value of a document, or the first fault of a text that is not one.
-/

namespace TableauSimplex.Json

/-- The text after the blanks at its front. -/
def skipBlanks (cs : List Char) : List Char :=
  cs.dropWhile fun c => c == ' ' || c == '\t' || c == '\n' || c == '\r'

/-! ## Text -/

/-- The value of a hexadecimal digit. -/
def hexValue? (c : Char) : Option Nat :=
  if c.isDigit then some (c.toNat - '0'.toNat)
  else if 'a' ≤ c && c ≤ 'f' then some (c.toNat - 'a'.toNat + 10)
  else if 'A' ≤ c && c ≤ 'F' then some (c.toNat - 'A'.toNat + 10)
  else none

/-- The character that a short escape stands for. -/
def shortEscape? : Char → Option Char
  | '"' => some '"'
  | '\\' => some '\\'
  | '/' => some '/'
  | 'b' => some '\x08'
  | 'f' => some '\x0c'
  | 'n' => some '\n'
  | 'r' => some '\r'
  | 't' => some '\t'
  | _ => none

/-- The code units up to the closing quote, and the rest. A long escape is one unit of sixteen
bits; any other character is one unit of its own. -/
def readUnits : List Char → Option (List Nat × List Char)
  | [] => none
  | '"' :: rest => some ([], rest)
  | '\\' :: 'u' :: a :: b :: c :: d :: rest => do
    let high := (← hexValue? a) * 16 + (← hexValue? b)
    let low := (← hexValue? c) * 16 + (← hexValue? d)
    let (units, left) ← readUnits rest
    return ((high * 256 + low) :: units, left)
  | '\\' :: c :: rest => do
    let char ← shortEscape? c
    let (units, left) ← readUnits rest
    return (char.toNat :: units, left)
  | c :: rest =>
    if c.toNat < 0x20 || c == '\\' then none
    else do
      let (units, left) ← readUnits rest
      return (c.toNat :: units, left)

/-- A text whose opening quote has been read. -/
def readText (cs : List Char) : Option (String × List Char) :=
  (readUnits cs).map fun (units, rest) => (Text.ofCodes (Text.joinUnits units), rest)

/-! ## Numbers -/

/-- The value of one digit. -/
def plainDigit (c : Char) : Nat := c.toNat - '0'.toNat

/-- The plain digits at the front, and the rest. -/
def spanPlain (cs : List Char) : List Nat × List Char :=
  ((cs.takeWhile Char.isDigit).map plainDigit, cs.dropWhile Char.isDigit)

/-- The digits of a whole part: a single zero, or digits that do not start with one. -/
def spanWhole : List Char → Option (List Nat × List Char)
  | '0' :: rest => some ([0], rest)
  | cs => match spanPlain cs with
    | ([], _) => none
    | found => some found

/-- A fraction, if the text goes on with a point and a digit. -/
def spanFraction : List Char → Option (List Nat) × List Char
  | '.' :: rest => match spanPlain rest with
    | ([], _) => (none, '.' :: rest)
    | (ds, left) => (some ds, left)
  | cs => (none, cs)

/-- An exponent, if the text goes on with a mark and a number. -/
def spanPower : List Char → Option Int × List Char
  | [] => (none, [])
  | c :: rest =>
    if c == 'e' || c == 'E' then
      let (negative, body) := spanSign rest
      match spanPlain body with
      | ([], _) => (none, c :: rest)
      | (ds, left) => (some (if negative then -(ofDigits ds : Int) else ofDigits ds), left)
    else (none, c :: rest)

/-- What was found, or else the fault of a text that breaks the grammar. -/
def orMalformed {β : Type} : Option β → Except Error β
  | some found => .ok found
  | none => .error .notADocument

/-- The whole number of a list of digits. -/
def wholeOf (negative : Bool) (ds : List Nat) : Except Error Value :=
  if digitLimit < ds.length then .error (.tooManyDigits ds.length)
  else .ok (.whole (if negative then -(ofDigits ds : Int) else ofDigits ds))

/-- A number. It is a decimal when it has a fraction or an exponent, and whole otherwise. -/
def readNumber (cs : List Char) : Except Error (Value × List Char) := do
  let (negative, body) := match cs with
    | '-' :: rest => (true, rest)
    | _ => (false, cs)
  let (whole, afterWhole) ← orMalformed (spanWhole body)
  let (fraction, afterFraction) := spanFraction afterWhole
  let (power, left) := spanPower afterFraction
  match fraction, power with
  | none, none => return (← wholeOf negative whole, left)
  | _, _ =>
    let places := fraction.getD []
    let x := doubleOfDecimal (ofDigits (whole ++ places)) (power.getD 0 - places.length)
    return (.decimal (if negative then -x else x), left)

/-! ## Values -/

/-- The rest of a text that starts with the given word. -/
def dropWord? (word : String) (cs : List Char) : Option (List Char) :=
  if word.toList.isPrefixOf cs then some (cs.drop word.length) else none

/-- The values that are written as words. -/
def words : List (String × Value) :=
  [("null", .null), ("true", .bool true), ("false", .bool false), ("NaN", .decimal (0.0 / 0.0)),
    ("Infinity", .decimal (1.0 / 0.0)), ("-Infinity", .decimal (-1.0 / 0.0))]

/-- A value written as a word. -/
def readWord (cs : List Char) : Option (Value × List Char) :=
  words.findSome? fun (word, value) => (dropWord? word cs).map (value, ·)

/-- How many lists and objects may stand inside each other. -/
def deepest : Nat := 990

mutual

/-- A value at the front of the text, and the rest, with `depth` levels of nesting left. Every level
and every item uses one unit of fuel. -/
def readValue : Nat → Nat → List Char → Except Error (Value × List Char)
  | 0, _, _ => .error .notADocument
  | _ + 1, _, '"' :: rest => orMalformed ((readText rest).map fun (s, left) => (.text s, left))
  | _ + 1, 0, '[' :: _ => .error .tooDeep
  | fuel + 1, depth + 1, '[' :: rest =>
    match skipBlanks rest with
    | ']' :: left => .ok (.list [], left)
    | start => (readItems fuel depth start).map fun (items, left) => (.list items, left)
  | _ + 1, 0, '\x7b' :: _ => .error .tooDeep
  | fuel + 1, depth + 1, '\x7b' :: rest =>
    match skipBlanks rest with
    | '\x7d' :: left => .ok (.object [], left)
    | start => (readFields fuel depth [] start).map fun (fields, left) => (.object fields, left)
  | _ + 1, _, cs =>
    match readWord cs with
    | some found => .ok found
    | none => readNumber cs

/-- The items of a list up to its closing bracket, at least one. -/
def readItems : Nat → Nat → List Char → Except Error (List Value × List Char)
  | 0, _, _ => .error .notADocument
  | fuel + 1, depth, cs =>
    match readValue fuel depth (skipBlanks cs) with
    | .error fault => .error fault
    | .ok (item, rest) =>
      match skipBlanks rest with
      | ']' :: left => .ok ([item], left)
      | ',' :: more => (readItems fuel depth more).map fun (items, left) => (item :: items, left)
      | _ => .error .notADocument

/-- The fields of an object up to its closing brace, at least one, added to those before. -/
def readFields : Nat → Nat → List (String × Value) → List Char →
    Except Error (List (String × Value) × List Char)
  | fuel + 1, depth, before, '"' :: cs =>
    match readText cs with
    | none => .error .notADocument
    | some (key, rest) =>
      match skipBlanks rest with
      | ':' :: start =>
        match readValue fuel depth (skipBlanks start) with
        | .error fault => .error fault
        | .ok (value, after) =>
          let fields := setField before key value
          match skipBlanks after with
          | '\x7d' :: left => .ok (fields, left)
          | ',' :: more => readFields fuel depth fields (skipBlanks more)
          | _ => .error .notADocument
      | _ => .error .notADocument
  | _, _, _, _ => .error .notADocument

end

/-- The value of a document. No value has more levels and items than its text has characters. -/
def read (text : String) : Except Error Value := do
  let cs := text.toList
  let (value, rest) ← readValue (2 * cs.length + 2) deepest (skipBlanks cs)
  if (skipBlanks rest).isEmpty then return value else throw .notADocument

end TableauSimplex.Json
