import Dialogue.Amount
import Dialogue.Condition.Document

/-!
# Deciding conditions

A condition holds of collected data or does not.  A field that is missing, null or blank satisfies
no comparator, `!=` included.  Where both sides name amounts the amounts are compared, otherwise
the texts: without white space around them, in lower case, by code points.
-/

namespace Dialogue

namespace Text

/-- Whether one list of characters occurs in another as a stretch. -/
def occursIn (part : List Char) : List Char → Bool
  | [] => part.isEmpty
  | c :: rest => part.isPrefixOf (c :: rest) || occursIn part rest

end Text

namespace Comparator

/-- The comparator on amounts. -/
def holdsOfAmounts : Comparator → Double → Double → Bool
  | .eq, a, b => a.same b
  | .ne, a, b => !a.same b
  | .ge, a, b => b.le a
  | .le, a, b => a.le b
  | .gt, a, b => b.lt a
  | .lt, a, b => a.lt b
  | .contains, _, _ => false
  | .other _, _, _ => false

/-- The comparator on texts. -/
def holdsOfTexts : Comparator → String → String → Bool
  | .eq, a, b => a == b
  | .ne, a, b => a != b
  | .ge, a, b => decide (b < a) || a == b
  | .le, a, b => decide (a < b) || a == b
  | .gt, a, b => decide (b < a)
  | .lt, a, b => decide (a < b)
  | .contains, _, _ => false
  | .other _, _, _ => false

end Comparator

namespace Condition

/-- The text that a comparison of texts looks at. -/
def comparable (s : String) : String := Text.lower (Text.strip s)

/-- Whether the condition holds of a field's value. -/
def holdsOf (c : Condition) (left : Value) : Bool :=
  if left.isNull || Text.isBlankText left.display then false
  else
    match c.op with
    | .contains =>
      Text.occursIn (Text.lowerChars c.value.text.toList) (Text.lowerChars left.display.toList)
    | op =>
      match Amount.ofValue? left, c.value.amount with
      | some a, some b => op.holdsOfAmounts a b
      | _, _ => op.holdsOfTexts (comparable left.display) (comparable c.value.text)

/-- Whether the condition holds of collected data. -/
def holds (c : Condition) (data : Fields) : Bool := c.holdsOf (Fields.getD data c.field)

theorem holds_of_get?_eq_none {c : Condition} {data : Fields}
    (h : Fields.get? data c.field = none) : c.holds data = false := by
  simp [holds, Fields.getD, h, holdsOf, Value.isNull]

end Condition

end Dialogue
