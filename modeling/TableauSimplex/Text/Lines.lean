/-!
# Lines

A text is cut into lines at every line end that Unicode knows. A carriage return and a line feed
after it are one line end. A line end that closes the text opens no further line.

* `isLineEnd`: the characters that end a line.
* `linesOf`: the lines of a text, without their ends.
-/

namespace TableauSimplex.Text

/-- A character that ends a line: the line and form feeds, the tabulation of lines, the carriage
return, the separators of files, groups and records, the next-line control, and the separators of
lines and paragraphs. -/
def isLineEnd (c : Char) : Bool :=
  let n := c.toNat
  (0x0A ≤ n && n ≤ 0x0D) || (0x1C ≤ n && n ≤ 0x1E) || n == 0x85 || n == 0x2028 || n == 0x2029

/-- The lines of what is left of a text. The line at hand is given from its end to its front. -/
def cutLines (line : List Char) : List Char → List String
  | [] => if line.isEmpty then [] else [String.ofList line.reverse]
  | '\r' :: '\n' :: rest => String.ofList line.reverse :: cutLines [] rest
  | c :: rest =>
    if isLineEnd c then String.ofList line.reverse :: cutLines [] rest
    else cutLines (c :: line) rest

/-- The lines of a text. -/
def linesOf (text : String) : List String := cutLines [] text.toList

end TableauSimplex.Text
