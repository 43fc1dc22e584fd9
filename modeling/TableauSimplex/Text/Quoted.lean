import TableauSimplex.Text.Codes
import TableauSimplex.Text.Printable

/-!
# Quoted text

A message that names a piece of text shows it in quotes, so that its limits and its control
characters can be seen.

* `quoted`: the text in single quotes, or in double quotes if it holds single ones only.
* `hexText`: a number in hexadecimal with leading zeros.
-/

namespace TableauSimplex.Text

/-- A number in lowercase hexadecimal, filled with zeros to the given width. -/
def hexText (size n : Nat) : String :=
  let digits := Nat.toDigits 16 n
  String.ofList (List.replicate (size - digits.length) '0' ++ digits)

/-- One code point inside quotes. One that cannot be printed is named by its number. -/
def quotedCode (mark : Char) (code : Nat) : String :=
  if code == mark.toNat || code == '\\'.toNat then String.ofList ['\\', Char.ofNat code]
  else if code == '\n'.toNat then "\\n"
  else if code == '\r'.toNat then "\\r"
  else if code == '\t'.toNat then "\\t"
  else if isPrintable code then ofCodes [code]
  else if code < 0x100 then "\\x" ++ hexText 2 code
  else if code < 0x10000 then "\\u" ++ hexText 4 code
  else "\\U" ++ hexText 8 code

/-- A text in quotes. Double quotes are used only where they save escapes. -/
def quoted (text : String) : String :=
  let cs := text.toList
  let mark := if cs.contains '\'' && !cs.contains '"' then '"' else '\''
  mark.toString ++ String.join ((codes text).map (quotedCode mark)) ++ mark.toString

/-- A text moved to the right end of a field, counted in code points. -/
def padLeft (size : Nat) (text : String) : String :=
  String.ofList (List.replicate (size - width text) ' ') ++ text

end TableauSimplex.Text
