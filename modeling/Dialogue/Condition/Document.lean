import Dialogue.Double.Basic
import Dialogue.Schema.Record
import Dialogue.Schema.Scalar

/-!
# Conditions and their documents

A condition compares one collected field with one value: `budget >= 10L`,
`requirement contains "villa"`.  `Condition.Parser` reads conditions from text and
`Condition.Holds` decides them.

A condition can also be given ready made, as an object with a field, a comparator and a value, and
a value can be written as an object (`Condition.ofDocument`, `Condition.document`).
-/

namespace Dialogue

/-- How a condition compares.  `other` is an operator without a meaning; nothing satisfies it. -/
inductive Comparator where
  | eq
  | ne
  | ge
  | le
  | gt
  | lt
  | contains
  | other (symbol : String)
  deriving DecidableEq, Repr

namespace Comparator

/-- The sign or word that the comparator is written with. -/
def symbol : Comparator → String
  | .eq => "=="
  | .ne => "!="
  | .ge => ">="
  | .le => "<="
  | .gt => ">"
  | .lt => "<"
  | .contains => "contains"
  | .other symbol => symbol

/-- The comparators of the condition language, in the order in which they are tried: a sign stands
before the signs that begin it. -/
def all : List Comparator := [.eq, .ne, .ge, .le, .gt, .lt, .contains]

/-- The comparator written with the given sign or word. -/
def ofSymbol (symbol : String) : Comparator :=
  (all.find? fun c => c.symbol == symbol).getD (.other symbol)

end Comparator

/-- The value on the right of a comparator: its text without quotes, whether it was quoted, and the
amount that the text names. -/
structure Operand where
  text : String
  quoted : Bool := false
  amount : Option Double := none
  deriving DecidableEq, Repr

/-- A single comparison of a collected field with a value. -/
structure Condition where
  field : String
  op : Comparator
  value : Operand
  deriving DecidableEq, Repr

/-! ## Documents of conditions -/

open Schema

namespace Operand

/-- Reads the value of a condition. -/
def ofValue : Value → Checked Operand
  | .dict fields =>
    ((required fields (.plain "text") readText).pair
      ((optional fields (.plain "quoted") false readBool).pair
        (optional fields (.plain "amount") none readNumberOrNull))).map
    fun (text, quoted, amount) => { text, quoted, amount }
  | v => Checked.fault (.notRecord "ExprValue") v

/-- The value of a condition as an object. -/
def document (o : Operand) : Value :=
  .dict [("text", .str o.text), ("quoted", .bool o.quoted),
    ("amount", (o.amount.map Value.double).getD .null)]

end Operand

namespace Condition

/-- Reads the value of a condition that must be there. -/
def readOperand (fields : Fields) : Checked Operand :=
  match Fields.get? fields "value" with
  | some v => (Operand.ofValue v).under "value"
  | none => (Checked.fault .missing (.dict fields)).under "value"

/-- Reads the fields of a condition. -/
def ofFields (fields : Fields) : Checked Condition :=
  ((required fields (.plain "field") readText).pair
    ((required fields (.plain "op") readText).pair (readOperand fields))).map
  fun (field, op, value) => { field, op := Comparator.ofSymbol op, value }

/-- Reads a condition. -/
def ofDocument (v : Value) : Except Mismatch Condition :=
  let checked := match v with
    | .dict fields => ofFields fields
    | v => Checked.fault (.notRecord "ConditionExpr") v
  checked.toExcept "ConditionExpr"

/-- A condition as an object. -/
def document (c : Condition) : Value :=
  .dict [("field", .str c.field), ("op", .str c.op.symbol), ("value", c.value.document)]

end Condition

end Dialogue
