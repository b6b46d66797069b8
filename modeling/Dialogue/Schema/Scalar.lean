import Dialogue.Double.Basic
import Dialogue.Schema.Issue
import Dialogue.Text.Blank

/-!
# Reading scalars leniently

Documents that were written by other tools spell scalars in more than one way: an integer may come
as `"3"`, `" +3 "`, `3.0` or `true`.  The readers of this module accept those spellings and name the
fault of any other.
-/

namespace Dialogue.Schema

/-- A number without the zeros, and low lines between them, that lead it; one zero stays where
nothing else does.  A sign may stand behind the zeros.  None when the number does not start with a
digit or a minus sign. -/
def dropLeadingZeros : List Char → Option (List Char)
  | '0' :: rest =>
    match rest.dropWhile fun c => c = '0' ∨ c = '_' with
    | [] => some [(rest.getLast?).getD '0']
    | '.' :: after =>
      let gap := rest.takeWhile fun c => c = '0' ∨ c = '_'
      some ((gap.getLast?).getD '0' :: '.' :: after)
    | c :: after => if ('1' ≤ c ∧ c ≤ '9') ∨ c = '-' then some (c :: after) else none
  | c :: rest => if ('1' ≤ c ∧ c ≤ '9') ∨ c = '-' then some (c :: rest) else none
  | [] => none

/-- A number without a point and the zeros behind it. -/
def dropDecimalZeros (cs : List Char) : List Char :=
  match cs.dropWhile (· != '.') with
  | '.' :: zeros => if !zeros.isEmpty && zeros.all (· = '0') then cs.takeWhile (· != '.') else cs
  | _ => cs

/-- Whether two low lines stand side by side. -/
def hasDoubleLowLine : List Char → Bool
  | '_' :: '_' :: _ => true
  | _ :: rest => hasDoubleLowLine rest
  | [] => false

/-- Whether low lines stand only singly and between other characters. -/
def hasInnerLowLines (cs : List Char) : Bool :=
  cs.head? != some '_' && cs.getLast? != some '_' && !hasDoubleLowLine cs

/-- A number without single low lines between its digits. -/
def dropLowLines (cs : List Char) : List Char :=
  if hasInnerLowLines cs then cs.filter (· != '_') else cs

/-- Digits without a leading zero, as a number. -/
def canonicalDigits? (cs : List Char) : Option Nat :=
  if cs.isEmpty || !cs.all Text.isAsciiDigit || (cs.head? == some '0' && 1 < cs.length) then none
  else some (Text.ofNumerals cs)

/-- The sign that a number starts with, whether it is a minus, and what follows it; none where two
signs stand together. -/
def splitSign? : List Char → Option (Bool × List Char)
  | '+' :: '-' :: _ => none
  | '+' :: rest => some (false, rest)
  | '-' :: '-' :: _ => none
  | '-' :: '+' :: _ => none
  | '-' :: rest => some (true, rest)
  | cs => some (false, cs)

/-- The integer that a text spells. -/
def integerOfText? (s : String) : Option Int := do
  let (negative, body) ← splitSign? (Text.trimChars Text.isPadding s.toList)
  let cs := dropLowLines (dropDecimalZeros (← dropLeadingZeros body))
  match if negative then '-' :: cs else cs with
  | '-' :: ds => (canonicalDigits? ds).map fun n => -(n : Int)
  | ds => (canonicalDigits? ds).map fun n => (n : Int)

/-- Reads an integer. -/
def readInteger : Value → Except Fault Int
  | .int n => .ok n
  | .bool b => .ok (if b then 1 else 0)
  | .double d =>
    match d.isFinite, d.integer? with
    | false, _ => .error .notFinite
    | true, none => .error .fractionalInteger
    | true, some n => if n.natAbs < Nat.pow 2 63 then .ok n else .error .oversizedInteger
  | .str s =>
    match integerOfText? s with
    | some n => .ok n
    | none => .error .unreadableInteger
  | _ => .error .notInteger

/-- Reads a text. -/
def readText : Value → Except Fault String
  | .str s => .ok s
  | _ => .error .notText

/-- Reads a text or null. -/
def readTextOrNull : Value → Except Fault (Option String)
  | .null => .ok none
  | v => (readText v).map some

/-- Reads an integer or null. -/
def readIntegerOrNull : Value → Except Fault (Option Int)
  | .null => .ok none
  | v => (readInteger v).map some

/-- Reads an object. -/
def readObject : Value → Except Fault Fields
  | .dict fields => .ok fields
  | _ => .error .notObject

/-- The words for true and for false. -/
def boolWords : List (String × Bool) :=
  [("0", false), ("off", false), ("f", false), ("false", false), ("n", false), ("no", false),
   ("1", true), ("on", true), ("t", true), ("true", true), ("y", true), ("yes", true)]

/-- Zero is false and one is true; an integer of more than sixty-three bits is not even tried. -/
def boolOfInteger (n : Int) : Except Fault Bool :=
  if n = 0 then .ok false
  else if n = 1 then .ok true
  else if n.natAbs < Nat.pow 2 63 then .error .unreadableBool
  else .error .notBool

/-- Reads a truth value. -/
def readBool : Value → Except Fault Bool
  | .bool b => .ok b
  | .int n => boolOfInteger n
  | .double d =>
    match d.integer? with
    | some n => boolOfInteger n
    | none => .error .notBool
  | .str s =>
    match boolWords.lookup s.toLower with
    | some b => .ok b
    | none => .error .unreadableBool
  | _ => .error .notBool

/-- The number that characters spell, `inf`, `infinity` and `nan` in any case included. -/
def numberOfChars? (cs : List Char) : Option Double :=
  let (negative, body) := Text.splitSign cs
  let word := (String.ofList body).toLower
  if word = "inf" ∨ word = "infinity" then
    some (Double.ofMagnitude negative Double.infinityMagnitude)
  else if word = "nan" then some Double.nan
  else Double.decimal? negative body

/-- The number that a text spells.  White space may stand around it or low lines within it, but not
both. -/
def numberOfText? (s : String) : Option Double :=
  let cs := s.toList
  (numberOfChars? (Text.trimChars Text.isPadding cs)).or
    (if hasInnerLowLines cs then numberOfChars? (cs.filter (· != '_')) else none)

/-- Reads a number; an integer beyond the range of doubles is none. -/
def readNumber : Value → Except Fault Double
  | .double d => .ok d
  | .int n => if (Double.ofInt n).isFinite then .ok (Double.ofInt n) else .error .notNumber
  | .bool b => .ok (Double.ofInt (if b then 1 else 0))
  | .str s =>
    match numberOfText? s with
    | some d => .ok d
    | none => .error .unreadableNumber
  | _ => .error .notNumber

/-- Reads a number or null. -/
def readNumberOrNull : Value → Except Fault (Option Double)
  | .null => .ok none
  | v => (readNumber v).map some

end Dialogue.Schema
