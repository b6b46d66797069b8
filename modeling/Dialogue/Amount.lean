import Dialogue.Text.Blank
import Dialogue.Text.Case
import Dialogue.Text.Digit
import Dialogue.Value.Display

/-!
# Amounts in free text

People write a budget the way they say it: `12L`, `10 lakh`, `1.5 cr`, `10,00,000`, `Rs 50000`.
`Amount.read?` gives the positive finite number that such a text names, so that answers can be
compared as numbers.

A text is first reduced (`Amount.reduce`): lower case, without commas and without white space.  What
is left may start with a currency.  After it stands either a decimal with a unit, which multiplies
it, or anything whose digits and points together are a decimal.  Nothing below or at zero is an
amount, nor is anything too great for a double.
-/

namespace Dialogue.Amount

/-- The words for a unit and the number that the unit stands for. -/
def units : List (String × Nat) :=
  [("l", 100000), ("lac", 100000), ("lacs", 100000), ("lakh", 100000), ("lakhs", 100000),
   ("cr", 10000000), ("crore", 10000000), ("crores", 10000000)]

/-- The number that a unit stands for. -/
def unitFactor? (cs : List Char) : Option Nat := units.lookup (String.ofList cs)

/-- The text in lower case, without commas and white space. -/
def reduce (s : String) : List Char :=
  (Text.lowerChars (Text.stripChars s.toList)).filter fun c => c != ',' && !Text.isBlank c

/-- The reduced text without the currency that it starts with. -/
def dropCurrency : List Char → List Char
  | 'r' :: 's' :: '.' :: rest => rest
  | 'r' :: 's' :: rest => rest
  | 'i' :: 'n' :: 'r' :: rest => rest
  | '₹' :: rest => rest
  | cs => cs

/-- The digits before a point, those after it, and the rest.  A point counts only with a digit
after it. -/
def splitDecimal (cs : List Char) : List Char × List Char × List Char :=
  let whole := cs.takeWhile Text.isDigit
  match cs.dropWhile Text.isDigit with
  | '.' :: rest =>
    let fraction := rest.takeWhile Text.isDigit
    if fraction.isEmpty then (whole, [], '.' :: rest)
    else (whole, fraction, rest.dropWhile Text.isDigit)
  | rest => (whole, [], rest)

/-- The double nearest to the decimal with these digits before and after the point. -/
def decimal (whole fraction : List Char) : Double :=
  Double.ofDecimal false (Text.ofDigits ((whole ++ fraction).filterMap Text.digit?))
    (-(fraction.length : Int))

/-- The number named by a decimal and a unit. -/
def withUnit? (cs : List Char) : Option Double :=
  let (whole, fraction, rest) := splitDecimal cs
  if whole.isEmpty then none
  else (unitFactor? rest).map fun k => (decimal whole fraction).mulNat k

/-- The number that the digits `0` to `9` and the points of a text write together. -/
def plain? (cs : List Char) : Option Double :=
  let kept := cs.filter fun c => Text.isAsciiDigit c || c == '.'
  let whole := kept.takeWhile Text.isAsciiDigit
  let fraction := (kept.dropWhile Text.isAsciiDigit).drop 1
  if fraction.contains '.' || (whole ++ fraction).isEmpty then none
  else some (decimal whole fraction)

/-- The amount that a text names. -/
def read? (s : String) : Option Double :=
  match reduce s with
  | '-' :: _ => none
  | cs =>
    let body := dropCurrency cs
    let number? := match withUnit? body with
      | some n => some n
      | none => plain? body
    number?.filter (·.isPositive)

/-- The amount that a value names; null and truth values name none. -/
def ofValue? : Value → Option Double
  | .null => none
  | .bool _ => none
  | v => read? v.display

theorem isPositive_of_read? {s : String} {d : Double} (h : read? s = some d) :
    d.isPositive = true := by
  unfold read? at h
  split at h
  · simp at h
  · exact (Option.filter_eq_some_iff.1 h).2

end Dialogue.Amount
