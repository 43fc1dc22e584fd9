import TableauSimplex.CommandLine.Grammar
import TableauSimplex.Number.Reader
import TableauSimplex.Settings

/-!
# The options of the program

The program is given the path of a model and options that change how the model is solved and what is
reported. A switch that is repeated counts as its last setting.

* `Options`: all that a command line says.
* `Options.ofWords`: the options of a command line, or a refusal, or a call for help.
* `Options.settings`: the settings of a run.
-/

namespace TableauSimplex.CommandLine

/-- What a command line says. -/
structure Options where
  path : String := ""
  /-- The sense that replaces the one of the model. -/
  sense : Option String := none
  /-- Whether the tables of the iterations are left out. -/
  isQuiet : Bool := false
  penalty : Float := 100000.0
  maxIterations : Int := 100
  maxNodes : Int := 5000
  /-- Whether the model is solved in whole numbers too. -/
  solvesInteger : Bool := false
  showsDual : Bool := false
  /-- Whether the result is written as a document instead of text. -/
  writesDocument : Bool := false
  showsGraph : Bool := false
  logLevel : String := "WARNING"

/-- A command line as understood. -/
inductive Request where
  | solve (options : Options)
  | help
  | refused

/-- The switches of the program. -/
def switches : List Switch := [
  ⟨"-h", false⟩, ⟨"--help", false⟩, ⟨"--sense", true⟩, ⟨"--no-verbose", false⟩, ⟨"--M", true⟩,
  ⟨"--max-iterations", true⟩, ⟨"--max-nodes", true⟩, ⟨"--integer", false⟩, ⟨"--dual", false⟩,
  ⟨"--json-output", false⟩, ⟨"--graph", false⟩, ⟨"--log-level", true⟩]

namespace Options

/-- The options with one switch set, unless its value does not do. -/
def set (o : Options) (name value : String) : Option Options :=
  match name with
  | "--sense" =>
    if value == "max" || value == "min" then some { o with sense := some value } else none
  | "--no-verbose" => some { o with isQuiet := true }
  | "--M" => (double? value).map fun x => { o with penalty := x }
  | "--max-iterations" => (wholeNumber? value).map fun n => { o with maxIterations := n }
  | "--max-nodes" => (wholeNumber? value).map fun n => { o with maxNodes := n }
  | "--integer" => some { o with solvesInteger := true }
  | "--dual" => some { o with showsDual := true }
  | "--json-output" => some { o with writesDocument := true }
  | "--graph" => some { o with showsGraph := true }
  | "--log-level" => some { o with logLevel := value }
  | _ => none

/-- Whether a switch asks for help. -/
def isHelp (which : Switch) : Bool := which.name == "-h" || which.name == "--help"

/-- Sets switches in order and goes on with the options after the last one. A switch that asks for
help and one with a value that does not do end it before. -/
def follow (o : Options) (finish : Options → Request) : List (Switch × String) → Request
  | [] => finish o
  | (which, value) :: rest =>
    if isHelp which then .help
    else
      match o.set which.name value with
      | some next => next.follow finish rest
      | none => .refused

/-- The request that the words of a command line make. There has to be one plain word. -/
def ofWords (words : List String) : Request :=
  match Token.ofWords switches words with
  | none => .refused
  | some tokens =>
    let assignment := ({} : Assignment).ofTokens tokens
    ({} : Options).follow (fun o =>
      match assignment.words, assignment.isComplete with
      | [path], true => .solve { o with path }
      | _, _ => .refused) assignment.settings

/-- The settings of a run. -/
def settings (o : Options) : Settings Float :=
  { penalty := o.penalty, maxIterations := .whole o.maxIterations, maxNodes := .whole o.maxNodes }

end Options

end TableauSimplex.CommandLine
