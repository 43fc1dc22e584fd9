import TableauSimplex.Text.Digit

/-!
# Command lines

A command line is a list of words. A word that starts with a dash names a switch, by its full name
or by any front of it that no other switch shares; a value may be joined to it by an equals sign.
After a switch of one letter further letters may follow that name switches of their own. Negative
numbers and words with a blank inside are plain, and so is every word after `--`.

* `Switch`: a switch and whether it takes a value.
* `Token.ofWords`: the words told apart, unless a front is shared.
* `Assignment.ofTokens`: the plain words and the settings of the switches.
-/

namespace TableauSimplex.CommandLine

/-- A switch by its full name. -/
structure Switch where
  name : String
  takesValue : Bool
  deriving Repr, DecidableEq

/-- Whether a switch is a single dash and a letter. -/
def Switch.isLetter (s : Switch) : Bool := !s.name.startsWith "--"

/-- What a word of the command line is. -/
inductive Token where
  | plain (word : String)
  /-- The word after which all others are plain. -/
  | separator
  | switch (which : Switch) (joined : Option String)
  /-- A word that looks like a switch and is none. -/
  | unknown
  deriving Repr, DecidableEq

/-- A word cut at its first equals sign. -/
def cutAtEquals (word : String) : String × Option String :=
  let cs := word.toList
  match cs.dropWhile (· != '=') with
  | [] => (word, none)
  | _ :: after => (String.ofList (cs.takeWhile (· != '=')), some (String.ofList after))

/-- A word without the line end that may close it. -/
def withoutLineEnd (word : List Char) : List Char :=
  if word.getLast? = some '\n' then word.dropLast else word

/-- Whether a word is a negative number: a dash, then digits, or digits with a point and more
digits. -/
def isNegativeNumber (word : String) : Bool :=
  let isDigit (c : Char) : Bool := (Text.digitValue? c).isSome
  match withoutLineEnd word.toList with
  | '-' :: body =>
    match body.dropWhile isDigit with
    | [] => !body.isEmpty
    | '.' :: fraction => !fraction.isEmpty && fraction.all isDigit
    | _ => false
  | _ => false

/-- The switches that a word may stand for: the one with that very name, or all whose names start
with it. Only words with two dashes may be cut short. -/
def candidates (switches : List Switch) (front : String) : List Switch :=
  match switches.filter (·.name == front) with
  | [] => if front.startsWith "--" then switches.filter (·.name.startsWith front) else []
  | found => found

/-- Whether every letter names a switch. -/
def areLetters (switches : List Switch) (letters : List Char) : Bool :=
  letters.all fun c => switches.any (·.name == String.ofList ['-', c])

/-- What a word is that starts with a switch of one letter. Letters that go on naming switches are
switches too, also after an equals sign; anything else is a value joined to the first letter. -/
def letterToken? (switches : List Switch) (word : String) : Option Token :=
  (switches.find? fun s => s.isLetter && word.startsWith s.name).map fun which =>
    match word.toList.drop which.name.length with
    | [] => .switch which none
    | first :: rest =>
      let letters := if first = '=' then rest else first :: rest
      if !letters.isEmpty && areLetters switches letters then .switch which none
      else .switch which (some (String.ofList letters))

/-- What a word with a dash before `--` is, unless it may stand for several switches. -/
def Token.ofDashed (switches : List Switch) (word : String) : Option Token :=
  let (front, joined) := cutAtEquals word
  match candidates switches front with
  | [which] => some (.switch which joined)
  | [] =>
    if isNegativeNumber word || word.toList.contains ' ' then some (.plain word) else some .unknown
  | _ => none

/-- What a word before `--` is, unless it may stand for several switches. -/
def Token.ofWord (switches : List Switch) (word : String) : Option Token :=
  if !word.startsWith "-" || word.length == 1 then some (.plain word)
  else
    match letterToken? switches word with
    | some token => some token
    | none => Token.ofDashed switches word

/-- What the words of a command line are. -/
def Token.ofWords (switches : List Switch) : List String → Option (List Token)
  | [] => some []
  | word :: rest =>
    if word == "--" then some (.separator :: rest.map .plain)
    else do
      let token ← Token.ofWord switches word
      return token :: (← Token.ofWords switches rest)

/-- The plain words of a command line, and its switches in order, each with its value if it takes
one. -/
structure Assignment where
  words : List String := []
  settings : List (Switch × String) := []
  /-- Whether everything on the command line found a place. -/
  isComplete : Bool := true
  deriving Repr

namespace Assignment

/-- Adds a plain word. -/
def addWord (a : Assignment) (word : String) : Assignment := { a with words := a.words ++ [word] }

/-- Adds a switch with its value. -/
def add (a : Assignment) (which : Switch) (value : String) : Assignment :=
  { a with settings := a.settings ++ [(which, value)] }

/-- Marks that something found no place. -/
def incomplete (a : Assignment) : Assignment := { a with isComplete := false }

/-- The assignment that tokens make, on top of those before. The value of a switch is joined to it
or is the next word; a switch without its value, or with one that it does not take, ends the
assignment. The separator has to stand next to a plain word. -/
def ofTokens (a : Assignment) : List Token → Assignment
  | [] => a
  | .plain word :: .separator :: rest => (a.addWord word).ofTokens rest
  | .plain word :: rest => (a.addWord word).ofTokens rest
  | .separator :: .plain word :: rest => (a.addWord word).ofTokens rest
  | .separator :: _ => a.incomplete
  | .unknown :: rest => a.incomplete.ofTokens rest
  | .switch which (some value) :: rest =>
    if which.takesValue then (a.add which value).ofTokens rest else a.incomplete
  | .switch which none :: .plain value :: rest =>
    if which.takesValue then (a.add which value).ofTokens rest
    else (a.add which "").ofTokens (.plain value :: rest)
  | .switch which none :: rest =>
    if which.takesValue then a.incomplete else (a.add which "").ofTokens rest

end Assignment

end TableauSimplex.CommandLine
