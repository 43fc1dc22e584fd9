import TableauSimplex.Solution.Basic
import TableauSimplex.Text.Lines

/-!
# The log

Solving and searching leave a trail of events. An event is a value; its level, its source and its
text are read off it.

* `Event`: what is worth noting.
* `Event.entry`, `logText`, `logLines`: events as entries of a log, and the log as text and lines.
* `Level.ofName?`: the levels by which a log is cut off.
-/

namespace TableauSimplex

/-- How much an event matters. -/
inductive Level where
  | debug
  | info
  | warning
  deriving Repr, DecidableEq

namespace Level

/-- The name of a level. -/
def name : Level → String
  | debug => "DEBUG"
  | info => "INFO"
  | warning => "WARNING"

/-- The weight of a level. A log shows the events from some weight on. -/
def weight : Level → Nat
  | debug => 10
  | info => 20
  | warning => 30

/-- The least weight that a log shows, by the name of a level. Names of levels above all events are
known too. -/
def ofName? : String → Option Nat
  | "NOTSET" => some 0
  | "DEBUG" => some 10
  | "INFO" => some 20
  | "WARN" => some 30
  | "WARNING" => some 30
  | "ERROR" => some 40
  | "CRITICAL" => some 50
  | "FATAL" => some 50
  | _ => none

end Level

/-- The part of the program that an event comes from. -/
inductive Source where
  | engine
  | analysis
  | solver
  | search
  | commandLine
  deriving Repr, DecidableEq

/-- The name of a source. -/
def Source.name : Source → String
  | engine => "tableau_lp.engine"
  | analysis => "tableau_lp.analysis"
  | solver => "tableau_lp.solver"
  | search => "tableau_lp.branch_and_bound"
  | commandLine => "tableau_lp.cli"

/-- What is worth noting. -/
inductive Event (α : Type) where
  /-- A pivot was made. -/
  | pivoted (number : Int) (entering leaving : Name) (row col : Int)
  /-- No row bounds the entering column. -/
  | unbounded (column : Name)
  /-- The limit on pivots was reached. -/
  | noConvergence (limit : Limit)
  /-- No row admits a pivot to another optimum. -/
  | noOtherVertex (column : Name)
  /-- A solve ended. -/
  | solved (status : Status) (z : α) (pivots : Nat)
  /-- The search stopped at its limit with nodes still open. -/
  | searchStopped (nodes stillOpen : Nat)
  /-- A node has no optimum. -/
  | pruned (node : Nat) (status : Status)
  /-- A better integer solution was found. -/
  | incumbent (node : Nat) (z : α)
  /-- A node was split on a variable. -/
  | branched (node depth : Nat) (name : Name) (value : α)
  /-- The search ended. -/
  | searched (nodes : Nat) (best : Option α)
  /-- The limit of the search leaves its answer unproven. -/
  | nodeLimitNote

namespace Event

variable {α : Type}

/-- The level of an event. -/
def level : Event α → Level
  | pivoted .. | noOtherVertex .. | pruned .. | incumbent .. | branched .. => .debug
  | unbounded .. | solved .. | searched .. => .info
  | noConvergence .. | searchStopped .. | nodeLimitNote => .warning

/-- The source of an event. -/
def source : Event α → Source
  | pivoted .. => .engine
  | noOtherVertex .. => .analysis
  | unbounded .. | noConvergence .. | solved .. => .solver
  | searchStopped .. | pruned .. | incumbent .. | branched .. | searched .. => .search
  | nodeLimitNote => .commandLine

/-- The event of the pivot that an iteration records. -/
def ofIteration? (i : Iteration α) : Option (Event α) := do
  return pivoted i.number (← i.entering) (← i.leaving) (← i.pivotRow) (← i.pivotCol)

/-- A value in six significant digits. -/
private def brief (x : Float) : String := significantText 6 x

/-- The text of an event. -/
def text : Event Float → String
  | pivoted number entering leaving row col =>
    s!"pivot {number}: " ++ entering.display ++ " enters, " ++ leaving.display ++
      s!" leaves (row {row}, col {col})"
  | unbounded column => (Error.unbounded column).message
  | noConvergence limit => (Error.noConvergence limit).message
  | noOtherVertex column =>
    "no pivot row for alternate optimum on column " ++ column.display
  | solved status z pivots =>
    "solve finished: status=" ++ status.word ++ " z=" ++ brief z ++ s!" after {pivots} pivots"
  | searchStopped nodes stillOpen =>
    s!"branch and bound stopped after {nodes} nodes with {stillOpen} open"
  | pruned node status => s!"node {node} pruned: " ++ status.word
  | incumbent node z => s!"node {node}: new incumbent z=" ++ brief z
  | branched node depth name value =>
    s!"node {node} (depth {depth}): branching on " ++ name.display ++ "=" ++ brief value
  | searched nodes best =>
    s!"branch and bound explored {nodes} nodes, best z=" ++
      (match best with
      | some z => exactText z
      | none => "None")
  | nodeLimitNote => "node limit reached; integer result may not be optimal"

/-- An event as an entry of the log. -/
def entry (e : Event Float) : String :=
  e.level.name ++ " " ++ e.source.name ++ ": " ++ e.text

end Event

/-- The log of events: every entry with a line feed after it. -/
def logText (events : List (Event Float)) : String := String.join (events.map (·.entry ++ "\n"))

/-- The lines of a log. A name may hold line ends, so that one entry may take several lines. -/
def logLines (events : List (Event Float)) : List String := Text.linesOf (logText events)

end TableauSimplex
