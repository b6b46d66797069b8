import Dialogue.Text.Digit

/-!
# Double precision numbers

A `Double` is a binary64 number held as its 64 bits, so equality is decidable and a number that
passes through the library comes out bit for bit.  Arithmetic is done exactly on the natural
numbers behind the bits: a finite magnitude is `mantissa · 2 ^ exponent`, and `ofRatio` rounds a
quotient of natural numbers to the nearest magnitude, halves to the even neighbour.

The magnitudes of finite numbers are ordered as their bits are, which is what `Double.rank` and the
comparisons `lt`, `le` and `same` rest on.
-/

namespace Dialogue

/-- A binary64 number by its bits: the sign, eleven bits of exponent, fifty-two of fraction. -/
structure Double where
  bits : UInt64
  deriving DecidableEq, Repr

namespace Double

/-- Everything but the sign, as a number: exponent field above fraction. -/
def magnitude (d : Double) : Nat := d.bits.toNat % Nat.pow 2 63

/-- Whether the sign bit is set. -/
def negative (d : Double) : Bool := Nat.pow 2 63 ≤ d.bits.toNat

/-- The magnitude of infinity: all bits of the exponent field set, no bit of the fraction. -/
def infinityMagnitude : Nat := 2047 * Nat.pow 2 52

/-- The number of the given sign and magnitude. -/
def ofMagnitude (negative : Bool) (m : Nat) : Double :=
  ⟨UInt64.ofNat ((if negative then Nat.pow 2 63 else 0) + m % Nat.pow 2 63)⟩

/-- Positive infinity. -/
def infinity : Double := ofMagnitude false infinityMagnitude

/-- The quiet NaN that stands for every NaN. -/
def nan : Double := ⟨0x7FF8000000000000⟩

/-- Positive zero. -/
def zero : Double := ⟨0⟩

/-- Whether the number is not a number. -/
def isNaN (d : Double) : Bool := infinityMagnitude < d.magnitude

/-- Whether the number is an infinity. -/
def isInfinite (d : Double) : Bool := d.magnitude == infinityMagnitude

/-- Whether the number is neither infinite nor NaN. -/
def isFinite (d : Double) : Bool := d.magnitude < infinityMagnitude

/-- The fraction with the hidden bit of normal numbers. -/
def mantissa (d : Double) : Nat :=
  if d.magnitude < Nat.pow 2 52 then d.magnitude
  else d.magnitude % Nat.pow 2 52 + Nat.pow 2 52

/-- The power of two that the mantissa is multiplied by, above the least one `2 ^ (-1074)`. -/
def scale (d : Double) : Nat := d.magnitude / Nat.pow 2 52 - 1

/-- The magnitude of a finite number as a quotient of natural numbers. -/
def ratio (d : Double) : Nat × Nat :=
  if 1074 ≤ d.scale then (d.mantissa * Nat.pow 2 (d.scale - 1074), 1)
  else (d.mantissa, Nat.pow 2 (1074 - d.scale))

/-- A quotient rounded to the nearest natural number, halves to the even one. -/
def roundDiv (num den : Nat) : Nat :=
  let q := num / den
  let r := num % den
  if 2 * r < den then q
  else if den < 2 * r then q + 1
  else if q % 2 = 0 then q else q + 1

/-- The greatest `k` with `2 ^ k ≤ num / den`, for positive `num` and `den`. -/
def floorLog2 (num den : Nat) : Int :=
  let k : Int := (num.log2 : Int) - (den.log2 : Int)
  let reaches :=
    if 0 ≤ k then den * Nat.pow 2 k.toNat ≤ num else den ≤ num * Nat.pow 2 (-k).toNat
  if reaches then k else k - 1

/-- The magnitude nearest to `num / den`, halves to the even neighbour; from the middle between the
greatest finite number and its successor on it is infinity. -/
def roundMagnitude (num den : Nat) : Nat :=
  if num = 0 ∨ den = 0 then 0
  else
    let scale := (floorLog2 num den - 52 + 1074).toNat
    let m :=
      if 1074 ≤ scale then roundDiv num (den * Nat.pow 2 (scale - 1074))
      else roundDiv (num * Nat.pow 2 (1074 - scale)) den
    min (scale * Nat.pow 2 52 + m) infinityMagnitude

/-- The double nearest to `num / den` with the given sign. -/
def ofRatio (negative : Bool) (num den : Nat) : Double :=
  ofMagnitude negative (roundMagnitude num den)

/-- The double nearest to `digits · 10 ^ exponent`.  Exponents far outside the range of doubles are
not expanded. -/
def ofDecimal (negative : Bool) (digits : Nat) (exponent : Int) : Double :=
  if digits = 0 then ofMagnitude negative 0
  else if 400 < exponent then ofMagnitude negative infinityMagnitude
  else if 0 ≤ exponent then ofRatio negative (digits * Nat.pow 10 exponent.toNat) 1
  else
    let size : Int := digits.log2 / 3 + 1
    if exponent + size < -400 then ofMagnitude negative 0
    else ofRatio negative digits (Nat.pow 10 (-exponent).toNat)

/-- The double nearest to an integer. -/
def ofInt (n : Int) : Double := ofRatio (n < 0) n.natAbs 1

/-- The number times a natural number, rounded to the nearest double. -/
def mulNat (d : Double) (k : Nat) : Double :=
  if d.isNaN then nan
  else if d.isInfinite then (if k = 0 then nan else d)
  else
    let (num, den) := d.ratio
    ofRatio d.negative (num * k) den

/-- The sum of two numbers, rounded to the nearest double.  A sum of zero is negative only where
both numbers are. -/
def add (a b : Double) : Double :=
  if a.isNaN || b.isNaN then nan
  else if a.isInfinite || b.isInfinite then
    if a.isInfinite && b.isInfinite && a.negative != b.negative then nan
    else if a.isInfinite then a else b
  else
    let (m, k) := a.ratio
    let (n, l) := b.ratio
    let x : Int := (if a.negative then -1 else 1) * (m * l : Nat)
    let y : Int := (if b.negative then -1 else 1) * (n * k : Nat)
    if x + y = 0 then ofMagnitude (a.negative && b.negative) 0
    else ofRatio (x + y < 0) (x + y).natAbs (k * l)

/-- The place of a number in the numeric order; both zeros have place zero, NaN has none. -/
def rank? (d : Double) : Option Int :=
  if d.isNaN then none
  else some (if d.negative then -(d.magnitude : Int) else d.magnitude)

/-- Numeric equality: the zeros are equal, NaN equals nothing. -/
def same (a b : Double) : Bool :=
  match a.rank?, b.rank? with
  | some x, some y => x == y
  | _, _ => false

/-- Numeric order; NaN is below nothing and above nothing. -/
def lt (a b : Double) : Bool :=
  match a.rank?, b.rank? with
  | some x, some y => x < y
  | _, _ => false

/-- Numeric order or equality. -/
def le (a b : Double) : Bool :=
  match a.rank?, b.rank? with
  | some x, some y => x ≤ y
  | _, _ => false

/-- Whether the number is finite and above zero. -/
def isPositive (d : Double) : Bool := d.isFinite && !d.negative && d.magnitude != 0

/-- The integer that a finite number without a fractional part is. -/
def integer? (d : Double) : Option Int :=
  if d.isFinite then
    let (num, den) := d.ratio
    if num % den = 0 then some (if d.negative then -(num / den : Nat) else (num / den : Nat))
    else none
  else none

/-- A finite number without its fractional part. -/
def truncate? (d : Double) : Option Int :=
  if d.isFinite then
    let (num, den) := d.ratio
    some (if d.negative then -(num / den : Nat) else (num / den : Nat))
  else none

/-- The bits in sixteen hexadecimal digits, read back by `ofHex?`. -/
def ofHex? (cs : List Char) : Option Double :=
  let digit (c : Char) : Option Nat :=
    if '0' ≤ c ∧ c ≤ '9' then some (c.toNat - 48)
    else if 'a' ≤ c ∧ c ≤ 'f' then some (c.toNat - 87)
    else if 'A' ≤ c ∧ c ≤ 'F' then some (c.toNat - 55)
    else none
  if cs.length = 16 then
    (cs.mapM digit).map fun ds => ⟨UInt64.ofNat (ds.foldl (fun n d => 16 * n + d) 0)⟩
  else none

/-! ## Numbers in decimal notation

`Double.decimal?` reads digits with a point and an exponent as the nearest double.  Signs, words and
white space are left to the formats that allow them.
-/

/-- The number written by digits, a point, digits and an exponent, each part optional as long as
one digit comes before the exponent. -/
def decimal? (negative : Bool) (cs : List Char) : Option Double :=
  let whole := cs.takeWhile Text.isAsciiDigit
  let (fraction, rest) := match cs.dropWhile Text.isAsciiDigit with
    | '.' :: after => (after.takeWhile Text.isAsciiDigit, after.dropWhile Text.isAsciiDigit)
    | after => ([], after)
  if (whole ++ fraction).isEmpty then none
  else
    let digits := Text.ofNumerals (whole ++ fraction)
    match rest with
    | [] => some (Double.ofDecimal negative digits (-(fraction.length : Int)))
    | rest =>
      match Text.exponent? rest with
      | some (e, []) => some (Double.ofDecimal negative digits (e - fraction.length))
      | _ => none

end Double

end Dialogue
