import Dialogue.Double.Basic
import Dialogue.Text.Half
import Dialogue.Text.Utf8
import Dialogue.Value.Basic

/-!
# Reading JSON text

`Json.read` reads one JSON value that fills the whole text, white space around it allowed.  Beside
the grammar of JSON it accepts the numbers `NaN`, `Infinity` and `-Infinity`; of a repeated key the
last value counts.  A number with a point or an exponent is a double, any other an integer.  Half a
surrogate pair that is escaped alone is kept.

What is wrong with a text is told by an `Error`: its cause and the position of the character that
shows it.  Inside the reader a position is the number of characters that are left, so that no
function has to carry the text before it.

JSON text starts with an ASCII character, so where zeros stand among its first bytes tells how it is
encoded: in UTF-16 or UTF-32 of either order of bytes, or in UTF-8.  A mark before UTF-8 is dropped.
`Json.ofBytes?` decodes bytes so; none stands for bytes that end in the middle of a unit or hold a
number beyond Unicode.
-/

namespace Dialogue.Json

/-- Why a text is not JSON. -/
inductive Cause where
  | value
  | propertyName
  | colon
  | comma
  | unterminatedString
  | controlCharacter
  | escape
  | unicodeEscape
  | extraData
  | byteOrderMark
  deriving DecidableEq, Repr

/-- The wording of a cause. -/
def Cause.message : Cause → String
  | .value => "Expecting value"
  | .propertyName => "Expecting property name enclosed in double quotes"
  | .colon => "Expecting ':' delimiter"
  | .comma => "Expecting ',' delimiter"
  | .unterminatedString => "Unterminated string starting at"
  | .controlCharacter => "Invalid control character at"
  | .escape => "Invalid \\escape"
  | .unicodeEscape => "Invalid \\uXXXX escape"
  | .extraData => "Extra data"
  | .byteOrderMark => "Unexpected UTF-8 BOM (decode using utf-8-sig)"

/-- A cause and where it shows: inside the reader the number of characters left, in its answer the
number of characters before. -/
structure Error where
  cause : Cause
  position : Nat
  deriving DecidableEq, Repr

/-- The white space of JSON. -/
def isSpace (c : Char) : Bool := c = ' ' || c = '\t' || c = '\n' || c = '\r'

/-- The text after its leading white space. -/
def skip (cs : List Char) : List Char := cs.dropWhile isSpace

/-- Fails at the place where the given characters are left. -/
def failAt {α : Type} (cause : Cause) (left : List Char) : Except Error α :=
  .error ⟨cause, left.length⟩

/-- The UTF-16 unit written by four hexadecimal digits. -/
def unit? (a b c d : Char) : Option Nat := do
  let a ← Text.hexValue? a
  let b ← Text.hexValue? b
  let c ← Text.hexValue? c
  let d ← Text.hexValue? d
  return ((a * 16 + b) * 16 + c) * 16 + d

/-- Whether the unit is the first half of a pair. -/
def isHighUnit (n : Nat) : Bool := 0xD800 ≤ n && n < 0xDC00

/-- Whether the unit is the second half of a pair. -/
def isLowUnit (n : Nat) : Bool := 0xDC00 ≤ n && n < 0xE000

/-- The character that a letter after a backslash stands for. -/
def simpleEscape? (c : Char) : Option Char :=
  match c with
  | '"' => some '"'
  | '\\' => some '\\'
  | '/' => some '/'
  | 'b' => some (Char.ofNat 8)
  | 'f' => some (Char.ofNat 12)
  | 'n' => some '\n'
  | 'r' => some '\r'
  | 't' => some '\t'
  | _ => none

/-- The characters of a string up to its closing quote, and what follows it.  `start` is the number
of characters left at the opening quote. -/
def stringBody (start : Nat) : List Char → Except Error (List Char × List Char)
  | [] => .error ⟨.unterminatedString, start⟩
  | '"' :: rest => .ok ([], rest)
  | '\\' :: 'u' :: a :: b :: c :: d :: '\\' :: 'u' :: e :: f :: g :: h :: z :: rest => do
    match unit? a b c d with
    | none => .error ⟨.unicodeEscape, rest.length + 12⟩
    | some high =>
      if isHighUnit high then
        match unit? e f g h with
        | none => .error ⟨.unicodeEscape, rest.length + 6⟩
        | some low =>
          if isLowUnit low then
            let (s, left) ← stringBody start (z :: rest)
            return (Char.ofNat (0x10000 + (high - 0xD800) * 0x400 + (low - 0xDC00)) :: s, left)
          else
            let (s, left) ← stringBody start ('\\' :: 'u' :: e :: f :: g :: h :: z :: rest)
            return (Text.ofCodePoint high :: s, left)
      else
        let (s, left) ← stringBody start ('\\' :: 'u' :: e :: f :: g :: h :: z :: rest)
        return (Text.ofCodePoint high :: s, left)
  | '\\' :: 'u' :: a :: b :: c :: d :: z :: rest => do
    match unit? a b c d with
    | none => .error ⟨.unicodeEscape, rest.length + 6⟩
    | some n =>
      let (s, left) ← stringBody start (z :: rest)
      return (Text.ofCodePoint n :: s, left)
  | '\\' :: 'u' :: rest => .error ⟨.unicodeEscape, rest.length + 1⟩
  | ['\\'] => .error ⟨.unterminatedString, start⟩
  | '\\' :: c :: rest => do
    match simpleEscape? c with
    | none => .error ⟨.escape, rest.length + 2⟩
    | some d =>
      let (s, left) ← stringBody start rest
      return (d :: s, left)
  | c :: rest => do
    if c.toNat < 32 then .error ⟨.controlCharacter, rest.length + 1⟩
    else
      let (s, left) ← stringBody start rest
      return (c :: s, left)

/-- The digits of a fraction after a point, and what follows; none without point or digits. -/
def fraction? : List Char → Option (List Char × List Char)
  | '.' :: rest =>
    let ds := rest.takeWhile Text.isAsciiDigit
    if ds.isEmpty then none else some (ds, rest.dropWhile Text.isAsciiDigit)
  | _ => none

/-- The number at the start of a text without its sign, and what follows. -/
def unsigned? (negative : Bool) (cs : List Char) : Option (Value × List Char) :=
  let whole := match cs with
    | '0' :: _ => ['0']
    | _ => cs.takeWhile Text.isAsciiDigit
  if whole.isEmpty then none
  else
    let rest := cs.drop whole.length
    let fraction := fraction? rest
    let rest := (fraction.map (·.2)).getD rest
    let exponent := Text.exponent? rest
    let left := (exponent.map (·.2)).getD rest
    if fraction.isNone && exponent.isNone then
      let n : Int := Text.ofNumerals whole
      some (.int (if negative then -n else n), left)
    else
      let ds := (fraction.map (·.1)).getD []
      let e := (exponent.map (·.1)).getD 0
      let digits := Text.ofNumerals (whole ++ ds)
      some (.double (Double.ofDecimal negative digits (e - ds.length)), left)

/-- The value written by a word or a number at the start of a text, and what follows. -/
def atom? : List Char → Option (Value × List Char)
  | 'n' :: 'u' :: 'l' :: 'l' :: rest => some (.null, rest)
  | 't' :: 'r' :: 'u' :: 'e' :: rest => some (.bool true, rest)
  | 'f' :: 'a' :: 'l' :: 's' :: 'e' :: rest => some (.bool false, rest)
  | 'N' :: 'a' :: 'N' :: rest => some (.double Double.nan, rest)
  | 'I' :: 'n' :: 'f' :: 'i' :: 'n' :: 'i' :: 't' :: 'y' :: rest =>
    some (.double Double.infinity, rest)
  | '-' :: 'I' :: 'n' :: 'f' :: 'i' :: 'n' :: 'i' :: 't' :: 'y' :: rest =>
    some (.double (Double.ofMagnitude true Double.infinityMagnitude), rest)
  | '-' :: rest => unsigned? true rest
  | cs => unsigned? false cs

mutual
/-- The value at the start of a text, and what follows it.  The first argument bounds the number
of steps; the length of the text is enough. -/
def value : Nat → List Char → Except Error (Value × List Char)
  | 0, cs => failAt .value cs
  | fuel + 1, cs =>
    match cs with
    | '"' :: rest => do
      let (s, left) ← stringBody cs.length rest
      return (.str (String.ofList s), left)
    | '[' :: rest =>
      match skip rest with
      | ']' :: left => .ok (.list [], left)
      | body => do
        let (vs, left) ← items fuel body
        return (.list vs, left)
    | '\x7b' :: rest =>
      match skip rest with
      | '\x7d' :: left => .ok (.dict [], left)
      | body => do
        let (es, left) ← entries fuel body
        return (.dict (Keyed.ofEntries es), left)
    | _ =>
      match atom? cs with
      | some r => .ok r
      | none => failAt .value cs

/-- The items of a list from the first on, and what follows the closing bracket. -/
def items : Nat → List Char → Except Error (List Value × List Char)
  | 0, cs => failAt .value cs
  | fuel + 1, cs => do
    let (v, left) ← value fuel cs
    match skip left with
    | ']' :: left => return ([v], left)
    | ',' :: left =>
      let (vs, left) ← items fuel (skip left)
      return (v :: vs, left)
    | left => failAt .comma left

/-- The entries of an object from the first on, and what follows the closing brace. -/
def entries : Nat → List Char → Except Error (List (String × Value) × List Char)
  | 0, cs => failAt .value cs
  | fuel + 1, cs => do
    match cs with
    | '"' :: rest =>
      let (key, left) ← stringBody cs.length rest
      match skip left with
      | ':' :: left =>
        let (v, left) ← value fuel (skip left)
        match skip left with
        | '\x7d' :: left => return ([(String.ofList key, v)], left)
        | ',' :: left =>
          let (es, left) ← entries fuel (skip left)
          return ((String.ofList key, v) :: es, left)
        | left => failAt .comma left
      | left => failAt .colon left
    | _ => failAt .propertyName cs
end

/-- Reads one value that fills the text; positions count the characters before. -/
def readChars (cs : List Char) : Except Error Value :=
  let outcome := do
    let (v, left) ← value (cs.length + 1) (skip cs)
    let left := skip left
    if left.isEmpty then .ok v else failAt .extraData left
  outcome.mapError fun e => ⟨e.cause, cs.length - e.position⟩

/-- Reads one value that fills the text.  A mark of the encoding is not part of a text. -/
def read (s : String) : Except Error Value :=
  if s.toList.head? = some (Char.ofNat 0xFEFF) then .error ⟨.byteOrderMark, 0⟩
  else readChars s.toList

/-! ## The encoding of JSON text -/

/-- How text is encoded. -/
inductive Encoding where
  | utf8
  | utf16 (littleEndian : Bool)
  | utf32 (littleEndian : Bool)
  deriving DecidableEq, Repr

/-- The encoding of a JSON text. -/
def Encoding.detect : List UInt8 → Encoding
  | [a, b] => if a = 0 then .utf16 false else if b = 0 then .utf16 true else .utf8
  | a :: b :: c :: d :: _ =>
    if a = 0 then (if b = 0 then .utf32 false else .utf16 false)
    else if b = 0 then (if c = 0 ∧ d = 0 then .utf32 true else .utf16 true)
    else .utf8
  | _ => .utf8

/-- The number that bytes write in base 256, the most significant first. -/
def ofBigEndian (bytes : List UInt8) : Nat := bytes.foldl (fun n b => 256 * n + b.toNat) 0

/-- The numbers of `size` bytes each; none when bytes are left over.  `fuel` bounds their count. -/
def units? (size : Nat) (littleEndian : Bool) : Nat → List UInt8 → Option (List Nat)
  | _, [] => some []
  | 0, _ => none
  | fuel + 1, bytes => do
    let unit := bytes.take size
    if unit.length < size then none
    let rest ← units? size littleEndian fuel (bytes.drop size)
    return ofBigEndian (if littleEndian then unit.reverse else unit) :: rest

/-- The characters of UTF-16 units; half a pair may stand alone. -/
def charsOfUnits : List Nat → List Char
  | high :: low :: rest =>
    if isHighUnit high && isLowUnit low then
      Char.ofNat (0x10000 + (high - 0xD800) * 0x400 + (low - 0xDC00)) :: charsOfUnits rest
    else Text.ofCodePoint high :: charsOfUnits (low :: rest)
  | [unit] => [Text.ofCodePoint unit]
  | [] => []

/-- The characters of a JSON text in bytes. -/
def ofBytes? (bytes : List UInt8) : Option (List Char) :=
  match Encoding.detect bytes with
  | .utf8 =>
    some (Text.decodeUtf8 (if [0xEF, 0xBB, 0xBF].isPrefixOf bytes then bytes.drop 3 else bytes))
  | .utf16 littleEndian => (units? 2 littleEndian bytes.length bytes).map charsOfUnits
  | .utf32 littleEndian => do
    let ns ← units? 4 littleEndian bytes.length bytes
    if ns.all (· ≤ 0x10FFFF) then some (ns.map Text.ofCodePoint) else none

end Dialogue.Json
