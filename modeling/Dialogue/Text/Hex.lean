import Dialogue.Text.Utf8

/-!
# Hexadecimal digits and percent escapes

The digits of base sixteen, lower case as escapes write them and upper case as percent signs
announce them.  `hexValue?` reads either.

In an address a character that may not stand for itself is written by its UTF-8 bytes, each as a
percent sign and two hexadecimal digits.  `percentEncode` escapes all characters but those of a
class; `percentBytes` gives the bytes of a text with its escapes resolved, and `percentDecode` the
text of those bytes.
-/

namespace Dialogue.Text

/-- The lower case hexadecimal digit of a number below sixteen. -/
def hexDigit (n : Nat) : Char :=
  if n < 10 then Char.ofNat (48 + n) else Char.ofNat (87 + n)

/-- The upper case hexadecimal digit of a number below sixteen. -/
def upperHexDigit (n : Nat) : Char :=
  if n < 10 then Char.ofNat (48 + n) else Char.ofNat (55 + n)

/-- The value of a hexadecimal digit. -/
def hexValue? (c : Char) : Option Nat :=
  if '0' ≤ c ∧ c ≤ '9' then some (c.toNat - 48)
  else if 'a' ≤ c ∧ c ≤ 'f' then some (c.toNat - 87)
  else if 'A' ≤ c ∧ c ≤ 'F' then some (c.toNat - 55)
  else none

/-- The number in exactly `width` lower case hexadecimal digits, higher ones dropped. -/
def hexDigits : Nat → Nat → List Char
  | 0, _ => []
  | width + 1, n => hexDigits width (n / 16) ++ [hexDigit (n % 16)]

/-- The bytes that pairs of hexadecimal digits write; the reading ends where no pair follows. -/
def hexBytes : List Char → List UInt8
  | a :: b :: rest =>
    match hexValue? a, hexValue? b with
    | some x, some y => UInt8.ofNat (16 * x + y) :: hexBytes rest
    | _, _ => []
  | _ => []

theorem hexValue?_hexDigit : ∀ {n : Nat}, n < 16 → hexValue? (hexDigit n) = some n := by
  decide

/-! ## Percent escapes -/

/-- The escape of a byte. -/
def percentByte (b : UInt8) : List Char :=
  ['%', upperHexDigit (b.toNat / 16), upperHexDigit (b.toNat % 16)]

/-- The characters with all those escaped that are not of the class. -/
def percentEncode (keeps : Char → Bool) (cs : List Char) : List Char :=
  cs.flatMap fun c => if keeps c then [c] else (String.utf8EncodeChar c).flatMap percentByte

/-- The bytes of a text, escapes resolved; a percent sign that starts no escape stands for itself.
-/
def percentBytes : List Char → List UInt8
  | '%' :: a :: b :: rest =>
    match hexValue? a, hexValue? b with
    | some x, some y => UInt8.ofNat (16 * x + y) :: percentBytes rest
    | _, _ => 0x25 :: percentBytes (a :: b :: rest)
  | c :: rest => String.utf8EncodeChar c ++ percentBytes rest
  | [] => []
termination_by cs => cs.length

/-- The text with its escapes resolved; bytes that are no text are replaced. -/
def percentDecode (cs : List Char) : List Char := decodeUtf8 (percentBytes cs)

end Dialogue.Text
