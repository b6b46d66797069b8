import Dialogue.Double.Shortest
import Dialogue.Text.Quoted
import Dialogue.Value.Key

/-!
# JSON text of a value

Two layouts of the same tokens: `compact` puts everything on one line without blanks, and `pretty`
gives every item and entry a line of its own, indented by two blanks per level.  Both are pure
ASCII: other characters are written as escapes of their UTF-16 units.  `compactUnicode` is `compact`
with those characters as they are.  Numbers that are not finite are written `NaN`, `Infinity` and
`-Infinity`, which the reader accepts.  A moment is written as its text, and a key that is no text
as the text that stands for it.
-/

namespace Dialogue.Json

/-- One UTF-16 unit as an escape. -/
def unitEscape (n : Nat) : List Char := '\\' :: 'u' :: Text.hexDigits 4 n

/-- One character inside a JSON string. -/
def escapeChar (c : Char) : List Char :=
  if c = '"' ∨ c = '\\' then ['\\', c]
  else if c = '\n' then ['\\', 'n']
  else if c = '\r' then ['\\', 'r']
  else if c = '\t' then ['\\', 't']
  else if c.toNat = 8 then ['\\', 'b']
  else if c.toNat = 12 then ['\\', 'f']
  else if 32 ≤ c.toNat ∧ c.toNat ≤ 126 then [c]
  else if c.toNat < 0x10000 then unitEscape c.toNat
  else
    let n := c.toNat - 0x10000
    unitEscape (0xD800 + n / 0x400) ++ unitEscape (0xDC00 + n % 0x400)

/-- One character inside a JSON string that is not bound to ASCII. -/
def escapeUnicode (c : Char) : List Char := if c.toNat < 127 then escapeChar c else [c]

/-- One character inside a JSON string as it is shown: half a surrogate pair is one unit.  What is
stored is written by `escapeChar` instead, so that two halves do not read back as a pair. -/
def escapeShown (c : Char) : List Char :=
  if Text.isHalf c then unitEscape (Text.codePoint c) else escapeChar c

/-- A JSON string, quotes included; `escape` writes its characters. -/
def stringWith (escape : Char → List Char) (s : String) : String :=
  String.ofList ('"' :: s.toList.flatMap escape ++ ['"'])

/-- A JSON number. -/
def number (d : Double) : String := d.textWith "NaN" "Infinity"

mutual
/-- The value on one line; `escape` writes the characters of strings. -/
def compactWith (escape : Char → List Char) : Value → String
  | .null => "null"
  | .bool b => if b then "true" else "false"
  | .int n => toString n
  | .double d => number d
  | .str s => stringWith escape s
  | .moment m => stringWith escape m.text
  | .list items => "[" ++ String.intercalate "," (compactItems escape items) ++ "]"
  | .dict fields => "\x7b" ++ String.intercalate "," (compactFields escape fields) ++ "\x7d"
  | .table entries => "\x7b" ++ String.intercalate "," (compactEntries escape entries) ++ "\x7d"

/-- The items on one line each. -/
def compactItems (escape : Char → List Char) : List Value → List String
  | [] => []
  | v :: rest => compactWith escape v :: compactItems escape rest

/-- The entries of an object on one line each. -/
def compactFields (escape : Char → List Char) : List (String × Value) → List String
  | [] => []
  | (k, v) :: rest =>
    (stringWith escape k ++ ":" ++ compactWith escape v) :: compactFields escape rest

/-- The entries of a table on one line each. -/
def compactEntries (escape : Char → List Char) : List (Value × Value) → List String
  | [] => []
  | (k, v) :: rest =>
    (stringWith escape k.keyText ++ ":" ++ compactWith escape v) :: compactEntries escape rest
end

/-- The value on one line, in ASCII. -/
def compact (v : Value) : String := compactWith escapeChar v

/-- The value on one line, other characters than ASCII as they are. -/
def compactUnicode (v : Value) : String := compactWith escapeUnicode v

/-- A line break and the indentation of a level. -/
def newline (level : Nat) : String := String.ofList ('\n' :: List.replicate (2 * level) ' ')

/-- Lines between brackets, each on its own line one level deeper; nothing between the brackets
when there are none. -/
def bracketed (left right : String) (level : Nat) (lines : List String) : String :=
  if lines.isEmpty then left ++ right
  else left ++ newline (level + 1) ++ String.intercalate ("," ++ newline (level + 1)) lines ++
    newline level ++ right

mutual
/-- The value with one item or entry per line; `escape` writes the characters of strings, and
`level` is the depth it stands at. -/
def prettyAt (escape : Char → List Char) (level : Nat) : Value → String
  | .list items => bracketed "[" "]" level (prettyItems escape (level + 1) items)
  | .dict fields => bracketed "\x7b" "\x7d" level (prettyFields escape (level + 1) fields)
  | .table entries => bracketed "\x7b" "\x7d" level (prettyEntries escape (level + 1) entries)
  | .moment m => stringWith escape m.text
  | .null => "null"
  | .bool b => if b then "true" else "false"
  | .int n => toString n
  | .double d => number d
  | .str s => stringWith escape s

/-- The items at a level. -/
def prettyItems (escape : Char → List Char) (level : Nat) : List Value → List String
  | [] => []
  | v :: rest => prettyAt escape level v :: prettyItems escape level rest

/-- The entries of an object at a level. -/
def prettyFields (escape : Char → List Char) (level : Nat) :
    List (String × Value) → List String
  | [] => []
  | (k, v) :: rest =>
    (stringWith escape k ++ ": " ++ prettyAt escape level v) :: prettyFields escape level rest

/-- The entries of a table at a level. -/
def prettyEntries (escape : Char → List Char) (level : Nat) : List (Value × Value) → List String
  | [] => []
  | (k, v) :: rest =>
    (stringWith escape k.keyText ++ ": " ++ prettyAt escape level v) ::
      prettyEntries escape level rest
end

/-- The value with one item or entry per line, as it is stored. -/
def pretty (v : Value) : String := prettyAt escapeChar 0 v

/-- The value with one item or entry per line, as it is shown. -/
def shown (v : Value) : String := prettyAt escapeShown 0 v

end Dialogue.Json
