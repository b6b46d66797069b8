import Dialogue.Double.Basic

/-!
# Shortest decimal text of a double

`Double.shortest` gives the digits and the decimal exponent of the shortest decimal number that
reads back as the given one, the nearest of those if there are several.  For one, two, … up to
seventeen digits it looks at the two neighbours of the value on the grid of that many digits; the
first grid with a neighbour that reads back wins.  Should none do, the exact expansion of the value
is given, which ends and is the value itself.  So whatever is given reads back by construction.

`Double.text` writes digits and exponent: positionally while the first digit stands between
`10 ^ (-4)` and `10 ^ 15`, otherwise with an exponent of at least two digits.
-/

namespace Dialogue.Double

/-- The greatest `k` with `10 ^ k ≤ num / den`, for positive `num` and `den`. -/
def floorLog10 (num den : Nat) : Int :=
  let guess : Int := floorLog2 num den * 30103 / 100000
  let reaches (k : Int) : Bool :=
    if 0 ≤ k then den * Nat.pow 10 k.toNat ≤ num else den ≤ num * Nat.pow 10 (-k).toNat
  if reaches (guess + 1) then guess + 1 else if reaches guess then guess else guess - 1

/-- The two neighbours of `num / den` among the multiples of `10 ^ exponent`, the nearer first; at
equal distance the even multiple comes first. -/
def neighbours (num den : Nat) (exponent : Int) : List Nat :=
  let (n, d) := if 0 ≤ exponent then (num, den * Nat.pow 10 exponent.toNat)
    else (num * Nat.pow 10 (-exponent).toNat, den)
  let low := n / d
  if roundDiv n d = low then [low, low + 1] else [low + 1, low]

/-- A number without the zeros at its end, which go to the exponent; `fuel` bounds their count. -/
def dropZeros : Nat → Nat → Int → Nat × Int
  | 0, n, e => (n, e)
  | fuel + 1, n, e => if n ≠ 0 ∧ n % 10 = 0 then dropZeros fuel (n / 10) (e + 1) else (n, e)

/-- The exact decimal expansion of `num / 2 ^ k`. -/
def exactDecimal (num den : Nat) : Nat × Int :=
  let k := den.log2
  dropZeros 2000 (num * Nat.pow 5 k) (-(k : Int))

/-- The shortest digits and their exponent that read back as the magnitude of a finite number. -/
def shortest (d : Double) : Nat × Int :=
  let (num, den) := d.ratio
  if num = 0 then (0, 0)
  else
    let top := floorLog10 num den
    let hit := (List.range 17).findSome? fun (n : Nat) =>
      let exponent := top - (n : Int)
      (neighbours num den exponent).findSome? fun (digits : Nat) =>
        if (ofDecimal false digits exponent).magnitude = d.magnitude then some (digits, exponent)
        else none
    match hit with
    | some (digits, exponent) => dropZeros 20 digits exponent
    | none => exactDecimal num den

/-- The text of `digits · 10 ^ exponent`, a point always in it: positional while the first digit
stands between `10 ^ (-4)` and `10 ^ 15`. -/
def decimalText (digits : Nat) (exponent : Int) : String :=
  let ds := (Nat.repr digits).toList
  let point : Int := ds.length + exponent
  if -4 < point ∧ point ≤ 16 then
    if point ≤ 0 then
      String.ofList ('0' :: '.' :: List.replicate (-point).toNat '0' ++ ds)
    else if exponent < 0 then
      String.ofList (ds.take point.toNat ++ '.' :: ds.drop point.toNat)
    else String.ofList (ds ++ List.replicate exponent.toNat '0' ++ ['.', '0'])
  else
    let e := point - 1
    let lead := match ds with
      | [c] => [c]
      | c :: rest => c :: '.' :: rest
      | [] => ['0']
    let size := (Nat.repr e.natAbs).toList
    String.ofList (lead ++ 'e' :: (if e < 0 then '-' else '+') ::
      (if size.length < 2 then '0' :: size else size))

/-- The text of a finite magnitude. -/
def magnitudeText (d : Double) : String :=
  let (digits, exponent) := d.shortest
  if digits = 0 then "0.0" else decimalText digits exponent

/-- The text of a number with the spellings given for NaN and infinity. -/
def textWith (nanText infinityText : String) (d : Double) : String :=
  if d.isNaN then nanText
  else (if d.negative then "-" else "") ++
    (if d.isInfinite then infinityText else d.magnitudeText)

/-- The text of a number, `nan` and `inf` for what is not finite. -/
def text (d : Double) : String := d.textWith "nan" "inf"

/-! ## A double to fifteen digits

`Double.rounded?` writes a number with at most fifteen significant digits, a half rounded up.  There
is always a digit on both sides of the point; zeros at the end are left out, zero has no sign, and
an exponent of at least two digits stands where the number is below `10 ^ (-4)` or not below `10 ^
15`.
-/

/-- The number of significant digits. -/
def significant : Nat := 15

/-- A quotient rounded to the nearest natural number, halves upwards. -/
def roundHalfUp (num den : Nat) : Nat := (2 * num + den) / (2 * den)

/-- The significant digits of `num / den` as a number, and the power of ten that they are multiplied
by. -/
def significantDigits (num den : Nat) : Nat × Int :=
  if num = 0 then (0, 0)
  else
    let exponent := floorLog10 num den - (significant - 1 : Nat)
    let digits := if 0 ≤ exponent then roundHalfUp num (den * Nat.pow 10 exponent.toNat)
      else roundHalfUp (num * Nat.pow 10 (-exponent).toNat) den
    dropZeros 20 digits exponent

/-- The text of `digits · 10 ^ exponent`. -/
def roundedText (digits : Nat) (exponent : Int) : String :=
  let ds := (Nat.repr digits).toList
  let top : Int := ds.length + exponent - 1
  let point (whole fraction : List Char) : List Char :=
    whole ++ '.' :: (if fraction.isEmpty then ['0'] else fraction)
  if top < -4 ∨ (significant : Int) ≤ top then
    let size := (Nat.repr top.natAbs).toList
    String.ofList (point (ds.take 1) (ds.drop 1) ++ 'e' :: (if top < 0 then '-' else '+') ::
      (if size.length < 2 then '0' :: size else size))
  else if top < 0 then
    String.ofList (point ['0'] (List.replicate (-top - 1).toNat '0' ++ ds))
  else
    let padded := ds ++ List.replicate exponent.toNat '0'
    String.ofList (point (padded.take (top + 1).toNat) (padded.drop (top + 1).toNat))

/-- The text of a number with at most fifteen significant digits; none for what is no number. -/
def rounded? (d : Double) : Option String :=
  if d.isNaN then none
  else
    let sign := if d.negative && d.magnitude != 0 then "-" else ""
    if d.isInfinite then some (sign ++ "Inf")
    else
      let (num, den) := d.ratio
      let (digits, exponent) := significantDigits num den
      some (sign ++ if digits = 0 then "0.0" else roundedText digits exponent)

end Dialogue.Double
