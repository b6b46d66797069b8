/-!
# Bytes that should be UTF-8

`decodeUtf8` reads bytes as UTF-8 and never fails: the longest beginning of a character that is not
completed is replaced by one replacement character, and so is a byte that starts no character.  It
goes byte by byte and keeps the character that is still open (`Opened`): the bits so far, how many
bytes are owed and between which bounds the next one has to lie, which is how overlong forms, halves
of surrogate pairs and numbers beyond Unicode are kept out.

`utf8` goes the other way.
-/

namespace Dialogue.Text

/-- What stands for bytes that are no character. -/
def replacement : Char := Char.ofNat 0xFFFD

/-- A character of which the first bytes were read: its bits so far, the number of bytes owed, and
the least and the greatest byte that may come next. -/
structure Opened where
  bits : Nat
  owed : Nat
  least : Nat
  greatest : Nat
  deriving DecidableEq, Repr

/-- Reads a byte between characters: the characters that are complete, and the one left open. -/
def firstByte (b : Nat) : List Char × Option Opened :=
  if b < 0x80 then ([Char.ofNat b], none)
  else if 0xC2 ≤ b ∧ b ≤ 0xDF then ([], some ⟨b - 0xC0, 1, 0x80, 0xBF⟩)
  else if 0xE0 ≤ b ∧ b ≤ 0xEF then
    ([], some ⟨b - 0xE0, 2, if b = 0xE0 then 0xA0 else 0x80, if b = 0xED then 0x9F else 0xBF⟩)
  else if 0xF0 ≤ b ∧ b ≤ 0xF4 then
    ([], some ⟨b - 0xF0, 3, if b = 0xF0 then 0x90 else 0x80, if b = 0xF4 then 0x8F else 0xBF⟩)
  else ([replacement], none)

/-- Reads a byte inside a character.  A byte that does not belong to it leaves the character
unfinished and is read afresh. -/
def nextByte (o : Opened) (b : Nat) : List Char × Option Opened :=
  if o.least ≤ b ∧ b ≤ o.greatest then
    let bits := o.bits * 64 + (b - 0x80)
    if o.owed ≤ 1 then ([Char.ofNat bits], none) else ([], some ⟨bits, o.owed - 1, 0x80, 0xBF⟩)
  else
    let (cs, next) := firstByte b
    (replacement :: cs, next)

/-- The characters of bytes, with a character still open. -/
def decodeFrom : Option Opened → List UInt8 → List Char
  | none, [] => []
  | some _, [] => [replacement]
  | opened, b :: rest =>
    let (cs, next) := match opened with
      | none => firstByte b.toNat
      | some o => nextByte o b.toNat
    cs ++ decodeFrom next rest

/-- The characters of bytes. -/
def decodeUtf8 (bytes : List UInt8) : List Char := decodeFrom none bytes

/-- The bytes of characters. -/
def utf8 (cs : List Char) : List UInt8 := cs.flatMap String.utf8EncodeChar

end Dialogue.Text
