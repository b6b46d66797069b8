import Dialogue.Text.Class
import Dialogue.Text.Half

/-!
# Quoted text

A quoted text stands between single quotes, or between double quotes when it holds a single quote
and no double one.  Inside, the quote in use and the backslash follow a backslash; line feed,
carriage return and tab have letters of their own; what is not printable is written by its code
point in two, four or eight lower case hexadecimal digits, and so is half a surrogate pair.
-/

namespace Dialogue.Text

/-- One character of a text quoted with `quote`. -/
def escapeChar (quote c : Char) : List Char :=
  if c = quote ∨ c = '\\' then ['\\', c]
  else if c = '\n' then ['\\', 'n']
  else if c = '\r' then ['\\', 'r']
  else if c = '\t' then ['\\', 't']
  else if isPrintable c && !isHalf c then [c]
  else if codePoint c < 0x100 then '\\' :: 'x' :: hexDigits 2 (codePoint c)
  else if codePoint c < 0x10000 then '\\' :: 'u' :: hexDigits 4 (codePoint c)
  else '\\' :: 'U' :: hexDigits 8 (codePoint c)

/-- The quote that a text is written with: single, unless only single quotes occur in it. -/
def quoteFor (cs : List Char) : Char :=
  if cs.contains '\'' && !cs.contains '"' then '"' else '\''

/-- The text between quotes, with escapes. -/
def quoted (s : String) : String :=
  let cs := s.toList
  let q := quoteFor cs
  String.ofList (q :: cs.flatMap (escapeChar q) ++ [q])

/-- What is said of a text that should be an integer of a base; its end is cut off when it is long.
-/
def notIntegerMessage (base : Nat) (s : String) : String :=
  "invalid literal for int() with base " ++ toString base ++ ": " ++
    String.ofList ((quoted s).toList.take 200)

/-- What is said of a text that should be a number. -/
def notNumberMessage (s : String) : String := "could not convert string to float: " ++ quoted s

end Dialogue.Text
