import TableauSimplex.CommandLine.Options
import TableauSimplex.IntegerSearch
import TableauSimplex.Json.Printer
import TableauSimplex.Json.Reader
import TableauSimplex.Problem.Document
import TableauSimplex.Report.Document
import TableauSimplex.Report.Drawing
import TableauSimplex.Report.Text
import TableauSimplex.Text.Uppercase

/-!
# The program

The program reads a model, solves it, and reports the tables of all iterations and the result. On
request it also solves the model in whole numbers, formulates its dual, writes everything as one
document, and draws a graph. Nothing here touches the world: a file is a text or a fault, and the
output is a value.

* `Outcome`: how the program ends, and what it has put out.
* `run`: the outcome of a command line, given how files are read.
-/

namespace TableauSimplex.CommandLine

open Json (Value)

/-- Why a file could not be read. -/
inductive FileFault where
  | missing
  | denied
  | isDirectory
  | notDirectory
  | nameTooLong
  /-- The path holds the character that ends paths. -/
  | endedEarly
  /-- Characters of the path, from place `first` to place `last`, are halves of surrogate pairs. -/
  | brokenText (first last : Nat)
  deriving Repr, DecidableEq

/-- The wording of a fault at a path. -/
def FileFault.message (path : String) : FileFault → String
  | missing => "[Errno 2] No such file or directory: " ++ Text.quoted path
  | denied => "[Errno 13] Permission denied: " ++ Text.quoted path
  | isDirectory => "[Errno 21] Is a directory: " ++ Text.quoted path
  | notDirectory => "[Errno 20] Not a directory: " ++ Text.quoted path
  | nameTooLong => "[Errno 36] File name too long: " ++ Text.quoted path
  | endedEarly => "embedded null byte"
  | brokenText first last =>
    "'utf-8' codec can't encode character" ++
      (if first = last then
        " '\\u" ++ Text.hexText 4 ((Text.codes path).getD first 0) ++
          s!"' in position {first}"
      else s!"s in position {first}-{last}") ++
      ": surrogates not allowed"

/-- What a program that has ended has put out. -/
structure Output where
  exitCode : Nat := 0
  text : String := ""
  messages : String := ""
  drawing : List Instruction := []

/-- How the program ends. -/
inductive Outcome where
  | finished (output : Output)
  /-- The command line makes no sense. -/
  | refused
  | help
  /-- A failure that is not one of the input, with the text put out before. -/
  | failed (cause : Error) (text : String)

/-! ## Reading the model -/

/-- What a model cannot be read for: a fault of its file or its form, or a failure. -/
inductive Rejection where
  | input (message : String)
  | failure (cause : Error)

/-- Faults of the input are told apart from failures: they are those that a model can be mended
for. -/
def Rejection.ofError : Error → Rejection
  | .tooLarge => .failure .tooLarge
  | .wrongKind => .failure .wrongKind
  | .tooDeep => .failure .tooDeep
  | cause => .input cause.message

/-- The model in a file. -/
def readModel (o : Options) (content : Except FileFault String) :
    Except Rejection (Problem Float) := do
  let text ← content.mapError fun fault => .input (fault.message o.path)
  let document ← (Json.read text).mapError Rejection.ofError
  (Problem.ofDocument document (o.sense.map .text)).mapError Rejection.ofError

/-- The model and the settings. -/
def readInput (o : Options) (content : Except FileFault String) :
    Except Rejection (Problem Float × Settings Float) := do
  let problem ← readModel o content
  o.settings.check.mapError Rejection.ofError
  return (problem, o.settings)

/-! ## Solving -/

/-- All answers to a model, with the events on the way. -/
structure Answers where
  solution : Solution Float
  /-- The integer solution, if one was asked for; there may be none. -/
  integer : Option (Option (Solution Float))
  dual : Option (Dual Float)
  events : List (Event Float)

/-- Solves a model as the options ask. -/
def answer (o : Options) (p : Problem Float) (s : Settings Float) : Except Error Answers := do
  let (solution, events) ← solveLogged p s true
  let (integer, searchEvents) ← if o.solvesInteger then do
      let result := searchInteger p s
      let found ← result.answer
      let note := if result.search.isExhausted then [Event.nodeLimitNote] else []
      pure (some found, result.search.log ++ note)
    else pure (none, [])
  let dual ← if o.showsDual then some <$> Dual.ofProblem p else pure none
  return ⟨solution, integer, dual, events ++ searchEvents⟩

/-! ## Reporting -/

/-- All answers as one document. -/
def Answers.document (a : Answers) : Value :=
  let integer := a.integer.map fun s =>
    ("integer_solution", optionalValue (Solution.document .decimal .decimal) s)
  let dual := a.dual.map fun d => ("dual", d.document .decimal)
  .object ([("solution", a.solution.document .decimal .decimal)] ++ integer.toList ++ dual.toList)

/-- The tables of the iterations, each after an empty line. A table that cannot be made ends the
text. -/
def tables : List (Iteration Float) → String × Option Error
  | [] => ("", none)
  | i :: rest =>
    match i.table with
    | .error cause => ("\n", some cause)
    | .ok table =>
      let (more, cause) := tables rest
      ("\n" ++ table ++ "\n" ++ more, cause)

/-- The text of the integer result. -/
def integerText : Option (Solution Float) → String
  | none => "\n=== Integer result ===\nNo integer solution found.\n"
  | some s => s.summary "Integer result"

/-- The text of the dual. -/
def dualText (d : Dual Float) : String :=
  "\n=== Dual problem ===\n" ++ "\n".intercalate d.lines ++ "\n"

/-- The text of the results, without the tables. -/
def Answers.resultText (a : Answers) : String :=
  a.solution.summary "Result" ++ (a.integer.map integerText).getD "" ++
    (a.dual.map dualText).getD ""

/-- The report of all answers, and the cause if it could not be finished. -/
def Answers.report (o : Options) (a : Answers) : String × Option Error :=
  if o.writesDocument then (a.document.indented ++ "\n", none)
  else
    match if o.isQuiet then ("", none) else tables a.solution.iterations with
    | (text, some cause) => (text, some cause)
    | (text, none) => (text ++ a.resultText, none)

/-- The graph to show: the one with the integer point if there is one. -/
def Answers.graph (a : Answers) : Option (Plane.Graph Float) :=
  (a.integer.join.bind (·.graph)).or a.solution.graph

/-- The text that stands for a graph that there is none of. -/
def noGraph : String := "Graph only supports 2 variables.\n"

/-- The text and the drawing of the graph, if one was asked for. -/
def Answers.drawing (o : Options) (p : Problem Float) (a : Answers) :
    Except Error (String × List Instruction) :=
  if !o.showsGraph then .ok ("", [])
  else
    match a.graph with
    | none => .ok (noGraph, [])
    | some graph => (("", ·)) <$> graph.drawing p.names

/-- The log of the events from a weight on. -/
def shownLog (least : Nat) (events : List (Event Float)) : String :=
  logText (events.filter fun e => least ≤ e.level.weight)

/-! ## Running -/

/-- The outcome for a model that could be read. -/
def solveModel (o : Options) (least : Nat) (p : Problem Float) (s : Settings Float) : Outcome :=
  match answer o p s with
  | .error cause => .failed cause ""
  | .ok answers =>
    match answers.report o with
    | (text, some cause) => .failed cause text
    | (text, none) =>
      match answers.drawing o p with
      | .error cause => .failed cause text
      | .ok (more, drawing) =>
        .finished { text := text ++ more, messages := shownLog least answers.events, drawing }

/-- The outcome for options, given the content of the model file. The level of the log is looked at
before the file. -/
def runOptions (o : Options) (content : Except FileFault String) : Outcome :=
  let name := Text.uppercase o.logLevel
  match Level.ofName? name with
  | none => .failed (.unknownLevel name) ""
  | some least =>
    match readInput o content with
    | .error (.failure cause) => .failed cause ""
    | .error (.input message) =>
      .finished { exitCode := 2, messages := "error: " ++ message ++ "\n" }
    | .ok (problem, settings) => solveModel o least problem settings

/-- The outcome of a command line, given how files are read. -/
def run (words : List String) (read : String → Except FileFault String) : Outcome :=
  match Options.ofWords words with
  | .refused => .refused
  | .help => .help
  | .solve options => runOptions options (read options.path)

end TableauSimplex.CommandLine
