import TableauSimplex.Number.Decimal

/-!
# Doubles as text

A double is written from its exact value. Three forms are used: the shortest text that reads back
(`exactText`), a number of significant digits without trailing zeros (`significantText`), and a
fixed number of places (`placesText`).

* `Style`: the choices of a form, gathered in one record each.
* `Decimal.text`: a decimal in a given style.
-/

namespace TableauSimplex

/-- How a decimal is written: which leading exponents are positional, and whether a whole number
keeps a point and a zero. -/
structure Style where
  /-- Leading exponents below this one are written in scientific form. -/
  leastPositional : Int
  /-- Leading exponents from this one on are written in scientific form. -/
  leastScientific : Int
  /-- Whether a whole number in positional form ends in `.0`. -/
  pointed : Bool
  /-- The text of an infinity, without its sign. -/
  infinity : String
  /-- The text of not-a-number. -/
  nan : String

namespace Style

/-- The exact form: positional from `0.0001` up to below `1e16`, and always with a point or an
exponent. -/
def exact : Style := ⟨-4, 16, true, "inf", "nan"⟩

/-- The exact form inside a JSON document. -/
def document : Style := { exact with infinity := "Infinity", nan := "NaN" }

/-- The form with `count` significant digits: positional as long as the digits reach the point. -/
def significant (count : Nat) : Style := ⟨-4, count, false, "inf", "nan"⟩

end Style

/-- A minus sign, or nothing. -/
def signText (negative : Bool) : String := if negative then "-" else ""

/-- A run of zeros. -/
def zeros (count : Nat) : String := String.ofList (List.replicate count '0')

namespace Decimal

/-- The same value without trailing zeros among the digits. -/
def trim (d : Decimal) : Decimal :=
  if _ : d.digits ≠ 0 ∧ d.digits % 10 = 0 then trim ⟨d.digits / 10, d.exponent + 1⟩ else d
termination_by d.digits
decreasing_by omega

/-- An exponent with its sign and at least two digits. -/
def exponentText (e : Int) : String :=
  let digits := toString e.natAbs
  (if e < 0 then "e-" else "e+") ++ (if digits.length < 2 then "0" ++ digits else digits)

/-- Digits cut by a point after the first `whole` of them. -/
def pointedText (digits : List Char) (whole : Nat) : String :=
  let fraction := digits.drop whole
  String.ofList (digits.take whole) ++
    (if fraction.isEmpty then "" else "." ++ String.ofList fraction)

/-- A decimal without sign in the given style. -/
def text (style : Style) (d : Decimal) : String :=
  if d.digits == 0 then (if style.pointed then "0.0" else "0")
  else
    let d := d.trim
    let digits := (toString d.digits).toList
    let lead := d.exponent + digits.length - 1
    if lead < style.leastPositional || style.leastScientific ≤ lead then
      pointedText digits 1 ++ exponentText lead
    else if lead < 0 then
      "0." ++ zeros (-lead - 1).toNat ++ String.ofList digits
    else if d.exponent < 0 then
      pointedText digits (lead + 1).toNat
    else
      String.ofList digits ++ zeros d.exponent.toNat ++ (if style.pointed then ".0" else "")

/-- A decimal that ends `count` places after the point, with all of them written. -/
def placesText (count : Nat) (d : Decimal) : String :=
  let digits := (toString d.digits).toList
  let padded := List.replicate (count + 1 - digits.length) '0' ++ digits
  pointedText padded (padded.length - count)

end Decimal

/-- A double in a style, given the decimal that stands for a positive finite value. -/
def textWith (style : Style) (decimal : Nat → Int → Decimal) (x : Float) : String :=
  match Binary.ofFloat x with
  | .nan => style.nan
  | .infinite negative => signText negative ++ style.infinity
  | .finite negative m e =>
    signText negative ++ (if m == 0 then ⟨0, 0⟩ else decimal m e : Decimal).text style

/-- The shortest text that reads back as the same double. -/
def exactText : Float → String := textWith Style.exact Decimal.shortest

/-- The shortest text that reads back as the same double, with the names a JSON document uses for
the values that are not finite. -/
def documentText : Float → String := textWith Style.document Decimal.shortest

/-- At most `count` significant digits, without trailing zeros. -/
def significantText (count : Nat) : Float → String :=
  textWith (Style.significant count) (Decimal.significant count)

/-- Exactly `count` places after the point. -/
def placesText (count : Nat) (x : Float) : String :=
  match Binary.ofFloat x with
  | .nan => "nan"
  | .infinite negative => signText negative ++ "inf"
  | .finite negative m e => signText negative ++ (Decimal.places count m e).placesText count

/-- Two places, dropped when both are zeros. This is how coefficients stand in equations. -/
def coefficientText (x : Float) : String :=
  let text := placesText 2 x
  if text.endsWith ".00" then (text.dropEnd 3).toString else text

end TableauSimplex
