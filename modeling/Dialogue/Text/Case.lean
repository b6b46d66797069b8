import Dialogue.Text.CaseTable
import Dialogue.Text.Class

/-!
# Full case mapping

`lower` and `upper` map every letter that has a counterpart, in any script.  Two rules look beyond
the single character: `İ` becomes two characters, and a capital sigma that ends a word becomes the
final sigma.  A word ends where no cased letter follows, characters that are passed over
(`caseIgnorableRanges`) not counted.
-/

namespace Dialogue.Text

/-- Where the run sends a code point that it holds. -/
def Run.image? (r : Run) (n : Nat) : Option Nat :=
  if r.first ≤ n ∧ n ≤ r.last ∧ (n - r.first) % r.stride = 0 then some (n + r.shift).toNat else none

/-- The character that the first run holding it sends it to; a character in no run stays. -/
def mapRuns (runs : List Run) (c : Char) : Char :=
  match runs.findSome? (·.image? c.toNat) with
  | some n => Char.ofNat n
  | none => c

/-- Whether the character is passed over when a word's end is looked for. -/
def isCaseIgnorable (c : Char) : Bool := covers caseIgnorableRanges c.toNat

/-- Whether the character is a cased letter. -/
def isCased (c : Char) : Bool := covers casedRanges c.toNat

/-- The lower case of one character outside its context. -/
def lowerChar (c : Char) : List Char :=
  if c.toNat < 0x80 then
    [if 'A' ≤ c ∧ c ≤ 'Z' then Char.ofNat (c.toNat + 32) else c]
  else if c = 'İ' then ['i', Char.ofNat 0x307]
  else [mapRuns lowerRuns c]

/-- Whether a cased letter comes next, characters to pass over left out. -/
def casedNext (cs : List Char) : Bool :=
  match cs.dropWhile isCaseIgnorable with
  | c :: _ => isCased c
  | [] => false

/-- Lower case of the rest of a text; `inWord` says that a cased letter came before, characters to
pass over left out. -/
def lowerFrom (inWord : Bool) : List Char → List Char
  | [] => []
  | c :: rest =>
    let inWord' := if isCaseIgnorable c then inWord else isCased c
    if c = 'Σ' then (if inWord && !casedNext rest then 'ς' else 'σ') :: lowerFrom inWord' rest
    else lowerChar c ++ lowerFrom inWord' rest

/-- The lower case of a text, as characters. -/
def lowerChars (cs : List Char) : List Char := lowerFrom false cs

/-- The lower case of a text. -/
def lower (s : String) : String := String.ofList (lowerChars s.toList)

/-- The upper case of one character. -/
def upperChar (c : Char) : List Char :=
  if c.toNat < 0x80 then
    [if 'a' ≤ c ∧ c ≤ 'z' then Char.ofNat (c.toNat - 32) else c]
  else
    match upperSequences.find? (·.1 = c.toNat) with
    | some (_, ns) => ns.map Char.ofNat
    | none => [mapRuns upperRuns c]

/-- The upper case of a text. -/
def upper (s : String) : String := String.ofList (s.toList.flatMap upperChar)

end Dialogue.Text
