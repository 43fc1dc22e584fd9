import TableauSimplex.Json.Value
import TableauSimplex.Limit
import TableauSimplex.Number.Reader

/-!
# What can go wrong

Every failure is a value that names its cause. The wording of a cause is given by `Error.message`.
Some causes are faults in how a value was put together and have no wording of their own.
-/

namespace TableauSimplex

/-- The causes of failure. -/
inductive Error where
  /-- A text that is not a number. -/
  | notANumber (text : String)
  /-- A value of a kind that no number can be made of. -/
  | wrongKind
  /-- A whole number beyond the range of doubles. -/
  | tooLarge
  /-- A text that is no document. -/
  | notADocument
  /-- A value that is nested too deeply to be read or to be named. -/
  | tooDeep
  /-- A whole number of a document with too many digits. -/
  | tooManyDigits (count : Nat)
  /-- A value that is no relation between the sides of a constraint. -/
  | unknownSign (value : Json.Value)
  /-- A value that is no direction of optimization. -/
  | unknownSense (value : Json.Value)
  /-- A penalty that is not a positive finite number. -/
  | badPenalty
  /-- A tolerance below zero. -/
  | negativeTolerance (name : String)
  /-- A limit on steps that leaves no room for any. -/
  | badLimits
  /-- A margin or an extent of a plot that is not positive. -/
  | badPlot
  /-- A row of another length than the columns it belongs to. -/
  | widthMismatch (given columns : Nat)
  /-- A smallest entry sought among none. -/
  | noColumns
  /-- An index beyond the end of a list. -/
  | outOfRange
  /-- A pivot on a zero entry. -/
  | zeroPivot
  /-- A division by zero. -/
  | zeroDivisor
  /-- A list of fewer values than needed. -/
  | tooFew (expected given : Nat)
  /-- A list of more values than allowed. -/
  | tooMany (expected : Nat)
  /-- Rows of a matrix that differ in shape from some depth on. -/
  | ragged (shape : List Nat)
  /-- A matrix nested more deeply than `limit`. -/
  | tooManyAxes (limit : Nat)
  /-- Right sides that do not go with `size` unknowns. -/
  | sideMismatch (given size : Nat)
  /-- A block of numbers where a single number has to be compared. -/
  | noComparison (isEmpty : Bool)
  /-- A matrix that does not go with `size` right-hand sides. -/
  | notSquare (size : Nat) (shape : List Nat)
  /-- A determinant that is too small. -/
  | illConditioned
  /-- A zero pivot in an elimination. -/
  | singular
  /-- An entering column without a positive entry. -/
  | unbounded (column : Json.Value)
  /-- More pivots needed than allowed. -/
  | noConvergence (limit : Limit)
  /-- A value that no whole number is near to. -/
  | notFinite (why : NotFinite)
  /-- A field that a model description lacks. -/
  | missingField (key : String)
  /-- A model description that is not made of lists. -/
  | notLists
  /-- Lists of a model description that differ in their number of constraints. -/
  | unequalConstraints
  /-- A row of a model description that does not go with the objective. -/
  | unequalRow
  /-- A sign of a model description that is none of the three. -/
  | badSigns
  /-- A list of names that does not go with the objective. -/
  | unequalNames
  /-- A name of a logging level that is not one. -/
  | unknownLevel (name : String)

namespace Error

/-- The cause of a failure over a value that the message names, unless the value has too many levels
for that. -/
def naming (cause : Json.Value → Error) (v : Json.Value) : Error :=
  if v.levels ≤ Json.Value.mostLevels then cause v else .tooDeep

/-- A shape as it is shown: its lengths in brackets, a single one with a comma after it. -/
def shapeText : List Nat → String
  | [n] => "(" ++ toString n ++ ",)"
  | lengths => "(" ++ ", ".intercalate (lengths.map toString) ++ ")"

/-- The wording of a cause. Causes that are never shown have none. -/
def message : Error → String
  | notANumber text => "could not convert string to float: " ++ Text.quoted text
  | tooLarge => "int too large to convert to float"
  | notADocument => "<invalid json>"
  | tooManyDigits count =>
    s!"Exceeds the limit ({digitLimit} digits) for integer string conversion: value has {count} " ++
      "digits; use sys.set_int_max_str_digits() to increase the limit"
  | unknownSign value => value.inspect ++ " is not a valid Sign"
  | unknownSense value => value.inspect ++ " is not a valid Sense"
  | badPenalty => "big_m must be a positive finite number."
  | negativeTolerance name => name ++ " must be non-negative."
  | badLimits => "max_iterations and max_nodes must be positive."
  | badPlot => "plot_margin and min_plot_extent must be positive."
  | widthMismatch given columns =>
    "could not broadcast input array from shape " ++ shapeText [given] ++ " into shape " ++
      shapeText [columns]
  | noColumns => "attempt to get argmin of an empty sequence"
  | zeroPivot => "Zero pivot encountered"
  | zeroDivisor => "float division by zero"
  | tooFew expected given =>
    s!"not enough values to unpack (expected {expected}, got {given})"
  | tooMany expected => s!"too many values to unpack (expected {expected})"
  | ragged shape =>
    "setting an array element with a sequence. The requested array has an inhomogeneous shape " ++
      s!"after {shape.length} dimensions. The detected shape was " ++ shapeText shape ++
      " + inhomogeneous part."
  | tooManyAxes limit =>
    "setting an array element with a sequence. The requested array would exceed the maximum " ++
      s!"number of dimension of {limit}."
  | sideMismatch given size =>
    "solve: Input operand 1 has a mismatch in its core dimension 0, with gufunc signature " ++
      s!"(m,m),(m,n)->(m,n) (size {given} is different from {size})"
  | noComparison isEmpty =>
    if isEmpty then
      "The truth value of an empty array is ambiguous. Use `array.size > 0` to check that an " ++
        "array is not empty."
    else
      "The truth value of an array with more than one element is ambiguous. " ++
        "Use a.any() or a.all()"
  | notSquare size shape =>
    s!"expected a {size}x{size} matrix, got shape " ++ shapeText shape
  | illConditioned => "Singular or ill-conditioned system (no unique solution)."
  | singular => "Singular matrix"
  | unbounded column =>
    "Unbounded LP: no positive entry under entering column " ++ column.display ++ "."
  | noConvergence limit => "Simplex did not converge within " ++ limit.text ++ " iterations."
  | notFinite .nan => "cannot convert float NaN to integer"
  | notFinite .infinite => "cannot convert float infinity to integer"
  | missingField key => "missing field " ++ Text.quoted key ++ " in LP description"
  | notLists => "c, b and senses must be lists and A a list of lists"
  | unequalConstraints => "A, b and senses must have one entry per constraint"
  | unequalRow => "every constraint needs one coefficient per objective coefficient"
  | badSigns => "sense must be one of <=, >=, ="
  | unequalNames => "variables must name every objective coefficient"
  | unknownLevel name => "Unknown level: " ++ Text.quoted name
  | wrongKind | outOfRange | tooDeep => ""

end Error

end TableauSimplex
