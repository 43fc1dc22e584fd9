import TableauSimplex.Number.Style
import TableauSimplex.Text.Quoted

/-!
# JSON values

Models come as JSON documents and results can be written as JSON documents. Whole numbers are kept
apart from decimals: they are unbounded and are written without a point.

* `Value`: a document. The fields of an object keep their order, and `setField` keeps each key once.
* `Value.isTruthy`: whether a value counts as a yes.
* `Value.inspect`: a value as it is named inside a message, with text in quotes. A value with more
  than `Value.mostLevels` levels cannot be named.
* `Value.display`: a value as it is shown to a reader, with text bare.
-/

namespace TableauSimplex.Json

/-- A JSON document. -/
inductive Value where
  | null
  | bool (b : Bool)
  | whole (n : Int)
  | decimal (x : Float)
  | text (s : String)
  | list (items : List Value)
  | object (fields : List (String × Value))
  deriving Inhabited

/-- The fields with one of them set: a key that is already there keeps its place. -/
def setField (fields : List (String × Value)) (key : String) (value : Value) :
    List (String × Value) :=
  if fields.any (·.1 == key) then fields.map fun f => if f.1 == key then (key, value) else f
  else fields ++ [(key, value)]

namespace Value

/-- The fields of an object. Nothing else has fields. -/
def fields : Value → List (String × Value)
  | object fields => fields
  | _ => []

/-- The field of an object under a key. -/
def field? (v : Value) (key : String) : Option Value := (v.fields.find? (·.1 == key)).map (·.2)

/-- Whether a value counts as a yes: not null, false, zero or empty. -/
def isTruthy : Value → Bool
  | null => false
  | bool b => b
  | whole n => n != 0
  | decimal x => x != 0.0
  | text s => !s.isEmpty
  | list items => !items.isEmpty
  | object fields => !fields.isEmpty

/-- The values that a value runs through: the items of a list, the keys of an object, and the
characters of a text. Nothing else can be run through. -/
def items? : Value → Option (List Value)
  | list items => some items
  | object fields => some (fields.map fun f => text f.1)
  | text s => some ((Text.codes s).map fun code => text (Text.ofCodes [code]))
  | _ => none

/-- The name of a truth value. -/
def truthName (b : Bool) : String := if b then "True" else "False"

mutual

/-- A value as messages name it: text is quoted, lists and objects are spelled out. -/
def inspect : Value → String
  | null => "None"
  | bool b => truthName b
  | whole n => toString n
  | decimal x => exactText x
  | text s => Text.quoted s
  | list items => "[" ++ ", ".intercalate (inspectItems items) ++ "]"
  | object fields => "\x7b" ++ ", ".intercalate (inspectFields fields) ++ "\x7d"

/-- The items of a list, each as messages name it. -/
def inspectItems : List Value → List String
  | [] => []
  | v :: rest => inspect v :: inspectItems rest

/-- The fields of an object, each as messages name it. -/
def inspectFields : List (String × Value) → List String
  | [] => []
  | (key, v) :: rest => (Text.quoted key ++ ": " ++ inspect v) :: inspectFields rest

end

mutual

/-- How many values stand inside each other, the outermost one included. -/
def levels : Value → Nat
  | list items => levelsOfItems items + 1
  | object fields => levelsOfFields fields + 1
  | _ => 1

/-- The most levels of an item. -/
def levelsOfItems : List Value → Nat
  | [] => 0
  | v :: rest => max (levels v) (levelsOfItems rest)

/-- The most levels of a field. -/
def levelsOfFields : List (String × Value) → Nat
  | [] => 0
  | (_, v) :: rest => max (levels v) (levelsOfFields rest)

end

/-- The most levels that a value may have to be named. Every level is spelled out by a call inside
the call for the level around it, and only so many calls may be open. -/
def mostLevels : Nat := 985

/-- A value as it is shown: text stands for itself. -/
def display : Value → String
  | text s => s
  | v => inspect v

end Value

end TableauSimplex.Json
