import Dialogue.Text.Hex

/-!
# Halves of surrogate pairs

An escape in a document can write one half of a surrogate pair alone.  A half is no character, and
yet a text may hold it: it is kept, compared and copied like any other, and it shows only where the
text has to be encoded (`encodingFault?`).

Texts are made of characters here, so a character stands for each half: one of the 2048 from
U+DD800 on, which have no meaning in Unicode.  A text that holds one of these for its own sake is
taken to hold the half.
-/

namespace Dialogue.Text

/-- The character of a number below 0x110000; of half a pair, the one that stands for it. -/
def ofCodePoint (n : Nat) : Char :=
  if 0xD800 ≤ n ∧ n < 0xE000 then Char.ofNat (n + 0xD0000) else Char.ofNat n

/-- Whether the character stands for half a pair. -/
def isHalf (c : Char) : Bool := 0xDD800 ≤ c.toNat && c.toNat < 0xDE000

/-- The number that the character stands for. -/
def codePoint (c : Char) : Nat := if isHalf c then c.toNat - 0xD0000 else c.toNat

/-- Why a text cannot be encoded: the first halves in it that stand together, by the number of the
first of them, the number of characters before it and the number of halves. -/
structure EncodingFault where
  half : Nat
  position : Nat
  count : Nat
  deriving DecidableEq, Repr

/-- The halves that a fault is about, as a report names them. -/
def EncodingFault.subject (f : EncodingFault) : String :=
  if f.count = 1 then
    "character '" ++ String.ofList ('\\' :: 'u' :: hexDigits 4 f.half) ++ "' in position " ++
      toString f.position
  else
    "characters in position " ++ toString f.position ++ "-" ++ toString (f.position + f.count - 1)

/-- The wording of a fault. -/
def EncodingFault.message (f : EncodingFault) : String :=
  "'utf-8' codec can't encode " ++ f.subject ++ ": surrogates not allowed"

/-- Why the text cannot be encoded; none where it can. -/
def encodingFault? (s : String) : Option EncodingFault :=
  let isWhole (c : Char) : Bool := !isHalf c
  match s.toList.dropWhile isWhole with
  | [] => none
  | c :: rest =>
    some ⟨codePoint c, (s.toList.takeWhile isWhole).length, (rest.takeWhile isHalf).length + 1⟩

end Dialogue.Text
