import Dialogue.Double.Shortest
import Dialogue.Text.Quoted
import Dialogue.Value.Basic

/-!
# Values as text

`Value.display` is the text that a value contributes to a message or a comparison: a text is shown
as it is, a moment without the names of its parts, and everything else in the notation of
`Value.literal`, where texts stand between quotes.
Truth values and null are written `True`, `False` and `None`.
-/

namespace Dialogue.Value

mutual
/-- The value in literal notation. -/
def literal : Value → String
  | .null => "None"
  | .bool b => if b then "True" else "False"
  | .int n => toString n
  | .double d => d.text
  | .str s => Text.quoted s
  | .list items => "[" ++ String.intercalate ", " (literals items) ++ "]"
  | .dict fields => "\x7b" ++ String.intercalate ", " (entryLiterals fields) ++ "\x7d"
  | .moment m => m.literal
  | .table entries => "\x7b" ++ String.intercalate ", " (tableLiterals entries) ++ "\x7d"

/-- The items in literal notation. -/
def literals : List Value → List String
  | [] => []
  | v :: rest => v.literal :: literals rest

/-- The entries in literal notation, key and value with a colon between them. -/
def entryLiterals : List (String × Value) → List String
  | [] => []
  | (k, v) :: rest => (Text.quoted k ++ ": " ++ v.literal) :: entryLiterals rest

/-- The entries of a table in literal notation. -/
def tableLiterals : List (Value × Value) → List String
  | [] => []
  | (k, v) :: rest => (k.literal ++ ": " ++ v.literal) :: tableLiterals rest
end

/-- The text of a value: a text is itself, a moment its plain text, anything else its literal
notation. -/
def display : Value → String
  | .str s => s
  | .moment m => m.text
  | v => v.literal

/-- The text of a value that counts as absent is empty. -/
def displayOrEmpty (v : Value) : String := if v.isEmpty then "" else v.display

end Dialogue.Value
