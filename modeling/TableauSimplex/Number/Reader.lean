import TableauSimplex.Text.Digit

/-!
# Reading numbers

Numbers arrive as text in two grammars, both with blanks allowed around them and single
underscores allowed between digits: whole numbers and decimals. A decimal is read as the double
nearest to it.

* `wholeNumber?`: the whole number a text stands for.
* `double?`: the double a text stands for, infinities and not-a-number included.
* `doubleOfDecimal`: the double nearest to a decimal, without computing needlessly large powers.
-/

namespace TableauSimplex

/-- The digits at the front of a text and the rest of it. A single underscore between two digits is
left out; any other one ends the run. `inside` tells that a digit came just before. -/
def spanDigits (inside : Bool) : List Char → List Nat × List Char
  | [] => ([], [])
  | c :: rest =>
    match Text.digitValue? c with
    | some d =>
      let (ds, left) := spanDigits true rest
      (d :: ds, left)
    | none =>
      if inside && c == '_' && (rest.head?.bind Text.digitValue?).isSome then spanDigits false rest
      else ([], c :: rest)

/-- The digits of a number at the front of a text, and the rest of the text. -/
def spanNumber (cs : List Char) : List Nat × List Char := spanDigits false cs

/-- The number that a list of digits stands for. -/
def ofDigits (ds : List Nat) : Nat := ds.foldl (fun n d => 10 * n + d) 0

/-- A sign at the front of a text, and the rest. -/
def spanSign : List Char → Bool × List Char
  | '-' :: rest => (true, rest)
  | '+' :: rest => (false, rest)
  | cs => (false, cs)

/-- The most digits that a whole number may be written with. -/
def digitLimit : Nat := 4300

/-- A whole number with an optional sign. -/
def wholeNumber? (text : String) : Option Int :=
  let (negative, body) := spanSign (Text.stripBlanks text.toList)
  match spanNumber body with
  | ([], _) => none
  | (ds, []) =>
    if digitLimit < ds.length then none
    else some (if negative then -(ofDigits ds : Int) else ofDigits ds)
  | _ => none

/-- The double nearest to `digits * 10 ^ exponent`. Beyond the range of doubles the answer is an
infinity or zero without computing the power. -/
def doubleOfDecimal (digits : Nat) (exponent : Int) : Float :=
  let magnitude : Int := exponent + (toString digits).length
  if digits == 0 || magnitude < -400 then 0.0
  else if 400 < magnitude then 1.0 / 0.0
  else Float.ofScientific digits (exponent < 0) exponent.natAbs

/-- An optional exponent, and the rest of the text. -/
def spanExponent : List Char → Int × List Char
  | [] => (0, [])
  | c :: rest =>
    if c == 'e' || c == 'E' then
      let (negative, body) := spanSign rest
      match spanNumber body with
      | ([], _) => (0, c :: rest)
      | (ds, left) => (if negative then -(ofDigits ds : Int) else ofDigits ds, left)
    else (0, c :: rest)

/-- A decimal without sign: digits, an optional fraction and an optional exponent. -/
def unsignedDouble? (cs : List Char) : Option Float :=
  let (whole, afterWhole) := spanNumber cs
  let (fraction, afterFraction) := match afterWhole with
    | '.' :: rest => spanNumber rest
    | _ => ([], afterWhole)
  let (exponent, left) := spanExponent afterFraction
  if (whole.isEmpty && fraction.isEmpty) || !left.isEmpty then none
  else some (doubleOfDecimal (ofDigits (whole ++ fraction)) (exponent - fraction.length))

/-- The names of the values that are not finite, in lowercase. -/
def namedDouble? (cs : List Char) : Option Float :=
  match String.ofList (cs.map Char.toLower) with
  | "inf" | "infinity" => some (1.0 / 0.0)
  | "nan" => some (0.0 / 0.0)
  | _ => none

/-- The double that a text stands for. -/
def double? (text : String) : Option Float :=
  let (negative, body) := spanSign (Text.stripBlanks text.toList)
  ((namedDouble? body).or (unsignedDouble? body)).map fun x => if negative then -x else x

end TableauSimplex
