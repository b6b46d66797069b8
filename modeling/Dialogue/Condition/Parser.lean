import Dialogue.Amount
import Dialogue.Condition.Document

/-!
# Reading conditions

A condition is written as a field, a comparator and a value, with white space allowed around the
comparator.  A field is a run of letters, digits, points, low lines and hyphens.  Where a text can
be divided in several ways the longest field is taken, and after it the first comparator of
`Comparator.all` that leaves a value.  The value goes to the end of the text and holds no line
feed; a value between two equal quotes is the text between them.

There are no connectives.  A bare value in which `and`, `or`, `&&` or `||` joins two parts makes the
whole text no condition, rather than a condition on a strange value.
-/

namespace Dialogue

/-- Whether the character may stand in the name of a field. -/
def isFieldChar (c : Char) : Bool :=
  ('a' ≤ c && c ≤ 'z') || ('A' ≤ c && c ≤ 'Z') || ('0' ≤ c && c ≤ '9') ||
  c == '.' || c == '_' || c == '-'

namespace Operand

/-- The text between two equal quotes, when it holds no line feed. -/
def unquote? : List Char → Option (List Char)
  | [] => none
  | q :: rest =>
    if (q = '"' ∨ q = '\'') ∧ rest.getLast? = some q ∧ !rest.dropLast.contains '\n' then
      some rest.dropLast
    else none

/-- Reads a value from its characters, white space around it left out. -/
def ofChars (cs : List Char) : Operand :=
  let body := Text.stripChars cs
  match unquote? body with
  | some literal =>
    let text := String.ofList literal
    { text := text, quoted := true, amount := Amount.read? text }
  | none =>
    let text := String.ofList body
    { text := text, quoted := false, amount := Amount.read? text }

/-- Reads a value. -/
def ofText (s : String) : Operand := ofChars s.toList

end Operand

namespace Condition

/-- What follows a given beginning. -/
def dropPrefix? : List Char → List Char → Option (List Char)
  | [], cs => some cs
  | _ :: _, [] => none
  | p :: ps, c :: cs => if p = c then dropPrefix? ps cs else none

/-- A letter without the difference of case, in ASCII. -/
def foldAscii (c : Char) : Char := if 'A' ≤ c ∧ c ≤ 'Z' then Char.ofNat (c.toNat + 32) else c

/-- Whether the text starts with the given lower case word and white space after it. -/
def startsWithWord (word cs : List Char) : Bool :=
  match dropPrefix? word ((cs.take word.length).map foldAscii) with
  | some _ => ((cs.drop word.length).head?.map Text.isBlank).getD false
  | none => false

/-- Whether a connective starts here. -/
def connectiveHere : List Char → Bool
  | '&' :: '&' :: _ => true
  | '|' :: '|' :: _ => true
  | c :: rest =>
    Text.isBlank c && (startsWithWord ['a', 'n', 'd'] rest || startsWithWord ['o', 'r'] rest)
  | [] => false

/-- Whether a connective stands anywhere in the text. -/
def hasConnective : List Char → Bool
  | [] => false
  | c :: rest => connectiveHere (c :: rest) || hasConnective rest

/-- The value that a comparator leaves at the start of a text: behind the comparator and white
space, not empty and without a line feed. -/
def valueAfter? (op : Comparator) (cs : List Char) : Option (List Char) :=
  (dropPrefix? op.symbol.toList cs).bind fun rest =>
    let body := rest.dropWhile Text.isBlank
    if body.isEmpty || body.contains '\n' then none else some body

/-- The first comparator that leaves a value, and the value. -/
def comparison? (cs : List Char) : Option (Comparator × List Char) :=
  Comparator.all.findSome? fun op =>
    (valueAfter? op (cs.dropWhile Text.isBlank)).map fun body => (op, body)

/-- Divides a text into field, comparator and value; `n` is the length of the longest field to
try. -/
def divide? (cs : List Char) : Nat → Option (List Char × Comparator × List Char)
  | 0 => none
  | n + 1 =>
    match comparison? (cs.drop (n + 1)) with
    | some (op, body) => some (cs.take (n + 1), op, body)
    | none => divide? cs n

/-- Reads a condition from the characters of a text; none when it is not a single comparison. -/
def ofChars? (cs : List Char) : Option Condition :=
  let body := Text.stripChars cs
  match divide? body (body.takeWhile isFieldChar).length with
  | none => none
  | some (field, op, rest) =>
    let value := Operand.ofChars rest
    if !value.quoted && hasConnective value.text.toList then none
    else some { field := String.ofList field, op := op, value := value }

/-- Reads a condition; none when the text is not a single comparison. -/
def parse? (s : String) : Option Condition := ofChars? s.toList

/-- Reads a condition from a value; a value that counts as absent is the empty text. -/
def ofValue? (v : Value) : Option Condition := parse? v.displayOrEmpty

end Condition

end Dialogue
