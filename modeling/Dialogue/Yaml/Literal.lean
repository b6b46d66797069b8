import Dialogue.Double.Basic
import Dialogue.Text.Case
import Dialogue.Text.Hex
import Dialogue.Text.Quoted
import Dialogue.Text.Split
import Dialogue.Value.Basic
import Dialogue.Yaml.Cursor

/-!
# What scalars stand for

A plain scalar is null, a truth value, a number or a moment where it is written like one, and a text
otherwise (`Kind.ofPlain`).  `Kind.read` gives the value of a scalar of a kind.

Integers are also written in base two, eight and sixteen, and integers and numbers as digits of base
sixty between colons.  Low lines between digits are left out.  An exponent has to have a sign, and a
number that starts with a point has none.
-/

namespace Dialogue.Yaml

/-- What a node stands for.  `merge` and `standard` are the keys that take entries over from other
mappings and that name the value of a mapping; a node of a kind that is not known stands for
nothing. -/
inductive Kind where
  | null
  | bool
  | integer
  | number
  | moment
  | text
  | sequence
  | mapping
  | merge
  | standard
  | unknown
  deriving DecidableEq, Repr

/-! ## Words -/

/-- A word as it is, with a capital and in capitals. -/
def spellings (word : String) : List String := [word, word.capitalize, word.toUpper]

/-- The words for null. -/
def nullWords : List String := "~" :: "" :: spellings "null"

/-- The words for true and false, in small letters. -/
def boolWords : List (String × Bool) :=
  [("yes", true), ("true", true), ("on", true), ("no", false), ("false", false), ("off", false)]

/-- Whether the text is a word for true or false. -/
def isBool (s : String) : Bool := boolWords.any fun e => (spellings e.1).contains s

/-! ## Digits -/

/-- Whether the character is a digit or a low line. -/
def isDigitOrLine (c : Char) : Bool := c.isDigit || c == '_'

/-- Whether the characters are a digit of base sixty: one numeral, or two of which the first one is
below six. -/
def isSixtieth : List Char → Bool
  | [a] => a.isDigit
  | [a, b] => '0' ≤ a && a ≤ '5' && b.isDigit
  | _ => false

/-- The characters without low lines. -/
def dropLines (cs : List Char) : List Char := cs.filter (· != '_')

/-! ## Integers -/

/-- Whether characters without a sign are an integer. -/
def isUnsigned : List Char → Bool
  | ['0'] => true
  | '0' :: 'b' :: ds => !ds.isEmpty && ds.all fun c => c == '0' || c == '1' || c == '_'
  | '0' :: 'x' :: ds => !ds.isEmpty && ds.all fun c => (Text.hexValue? c).isSome || c == '_'
  | '0' :: ds => ds.all fun c => ('0' ≤ c && c ≤ '7') || c == '_'
  | c :: rest =>
    match Text.splitOn ':' rest with
    | whole :: sixtieths => c.isDigit && whole.all isDigitOrLine && sixtieths.all isSixtieth
    | [] => false
  | [] => false

/-- Whether the characters are an integer. -/
def isInteger (cs : List Char) : Bool := isUnsigned (Text.splitSign cs).2

/-- The number in digits of a base. -/
def inBase (base : Nat) (cs : List Char) : Except Fault Nat :=
  match cs.mapM Text.hexValue? with
  | some (d :: ds) =>
    if (d :: ds).all (· < base) then .ok ((d :: ds).foldl (fun n d => base * n + d) 0)
    else .error (.range (Text.notIntegerMessage base (String.ofList cs)))
  | _ => .error (.range (Text.notIntegerMessage base (String.ofList cs)))

/-- The integer that characters write, without low lines and sign. -/
def unsigned (cs : List Char) : Except Fault Nat :=
  match cs with
  | ['0'] => .ok 0
  | '0' :: 'b' :: ds => inBase 2 ds
  | '0' :: 'x' :: ds => inBase 16 ds
  | '0' :: _ => inBase 8 cs
  | cs => do
    let parts ← (Text.splitOn ':' cs).mapM (inBase 10)
    return parts.foldl (fun n part => 60 * n + part) 0

/-- The integer that characters write. -/
def integer (cs : List Char) : Except Fault Int := do
  let (negative, body) := Text.splitSign (dropLines cs)
  return Text.signed negative (← unsigned body)

/-! ## Numbers -/

/-- Whether the characters are an exponent, or nothing. -/
def isExponent : List Char → Bool
  | [] => true
  | e :: sign :: d :: ds =>
    (e == 'e' || e == 'E') && (sign == '+' || sign == '-') && (d :: ds).all Char.isDigit
  | _ => false

/-- Whether characters without a sign, starting with a digit, are a number. -/
def isDecimal (cs : List Char) : Bool :=
  match Text.splitOn ':' (cs.takeWhile (· != '.')), cs.dropWhile (· != '.') with
  | whole :: sixtieths, '.' :: after =>
    let exponent := after.dropWhile isDigitOrLine
    (whole.head?.any Char.isDigit) && whole.all isDigitOrLine && sixtieths.all isSixtieth &&
      (if sixtieths.isEmpty then isExponent exponent else exponent.isEmpty)
  | _, _ => false

/-- Whether the characters are a number that is no integer. -/
def isNumber (cs : List Char) : Bool :=
  let (_, body) := Text.splitSign cs
  let words (word : String) : List (List Char) := [word, word.toUpper].map String.toList
  isDecimal body || (".Inf".toList :: words ".inf").contains body ||
    (".NaN".toList :: words ".nan").contains cs ||
    (match cs with
     | '.' :: d :: rest => d.isDigit && isExponent (rest.dropWhile isDigitOrLine)
     | _ => false)

/-- The number that characters write, without low lines and sign. -/
def decimal (cs : List Char) : Except Fault Double :=
  match Double.decimal? false cs with
  | some d => .ok d
  | none => .error (.range (Text.notNumberMessage (String.ofList cs)))

/-- The sum of parts, the last one of units, every other one of sixty times the parts after it. -/
def sixtySum : Nat → List Double → Double
  | _, [] => .zero
  | base, part :: rest => go base (Double.add .zero (part.mulNat base)) rest
where
  /-- Adds the parts that are left to a sum. -/
  go (base : Nat) (sum : Double) : List Double → Double
    | [] => sum
    | part :: rest => go (60 * base) (sum.add (part.mulNat (60 * base))) rest

/-- The number with the sign given. -/
def withSign (negative : Bool) (d : Double) : Double := Double.ofMagnitude negative d.magnitude

/-- The number that characters write. -/
def number (cs : List Char) : Except Fault Double := do
  let (negative, body) := Text.splitSign (dropLines (cs.map Char.toLower))
  if body = ".inf".toList then return Double.ofMagnitude negative Double.infinityMagnitude
  else if body = ".nan".toList then return .nan
  else
    match ← (Text.splitOn ':' body).mapM decimal with
    | [d] => return withSign negative d
    | parts => return withSign negative (sixtySum 1 parts.reverse)

/-! ## Moments -/

/-- Digits at the start of a text, at least and at most as many as given, and what follows. -/
def digits? (least most : Nat) (cs : List Char) : Option (Nat × List Char) :=
  let ds := (cs.take most).takeWhile Char.isDigit
  if least ≤ ds.length then some (Text.ofNumerals ds, cs.drop ds.length) else none

/-- What follows a character. -/
def after? (x : Char) : List Char → Option (List Char)
  | c :: rest => if c = x then some rest else none
  | [] => none

/-- What follows blanks and tabs. -/
def dropSpaces (cs : List Char) : List Char := cs.dropWhile fun c => c = ' ' ∨ c = '\t'

/-- The microseconds of a fraction of a second: its first six digits. -/
def microseconds (ds : List Char) : Nat :=
  let ds := ds.take 6
  Text.ofNumerals ds * Nat.pow 10 (6 - ds.length)

/-- The distance from universal time that fills the rest of a text; none where it is not known. -/
def zone? (cs : List Char) : Option (Option Int) :=
  if cs.isEmpty then some none
  else
    match dropSpaces cs with
    | ['Z'] => some (some 0)
    | sign :: rest => do
      if sign != '+' && sign != '-' then none
      let (hours, rest) ← digits? 1 2 rest
      let minutes ← if rest.isEmpty then some 0 else do
        let (minutes, rest) ← digits? 2 2 (← after? ':' rest)
        if rest.isEmpty then some minutes else none
      return some (Text.signed (sign == '-') (3600 * hours + 60 * minutes))
    | [] => none

/-- A time of day that fills the rest of a text. -/
def timeOfDay? (cs : List Char) : Option TimeOfDay := do
  let (hour, rest) ← digits? 1 2 cs
  let (minute, rest) ← digits? 2 2 (← after? ':' rest)
  let (second, rest) ← digits? 2 2 (← after? ':' rest)
  let (fraction, rest) := match after? '.' rest with
    | some rest => (rest.takeWhile Char.isDigit, rest.dropWhile Char.isDigit)
    | none => ([], rest)
  return ⟨hour, minute, second, microseconds fraction, ← zone? rest⟩

/-- The parts of a moment that are written as a day alone or as a day and a time; a day alone has
two digits for month and day. -/
def parts? (cs : List Char) : Option (Day × Option TimeOfDay) := do
  let (year, rest) ← digits? 4 4 cs
  let (month, rest') ← digits? 1 2 (← after? '-' rest)
  let (day, rest'') ← digits? 1 2 (← after? '-' rest')
  match rest'' with
  | [] => if cs.length = 10 then some (⟨year, month, day⟩, none) else none
  | c :: after =>
    if c = 'T' ∨ c = 't' then return (⟨year, month, day⟩, some (← timeOfDay? after))
    else if c = ' ' ∨ c = '\t' then
      return (⟨year, month, day⟩, some (← timeOfDay? (dropSpaces after)))
    else none

/-- The moment that characters write. -/
def moment (cs : List Char) : Except Fault Value :=
  match parts? cs with
  | none => .error .value
  | some (day, time) =>
    match Moment.make? day time with
    | .ok m => .ok (.moment m)
    | .error fault => .error (.range fault.message)

/-! ## Kinds -/

namespace Kind

/-- The kind of a plain scalar. -/
def ofPlain (s : String) : Kind :=
  let cs := s.toList
  if isBool s then .bool
  else if isNumber cs then .number
  else if isInteger cs then .integer
  else if s = "<<" then .merge
  else if nullWords.contains s then .null
  else if (parts? cs).isSome then .moment
  else if s = "=" then .standard
  else .text

/-- The kind that a standard tag names. -/
def ofName (name : String) : Kind :=
  ([("null", .null), ("bool", .bool), ("int", .integer), ("float", .number), ("timestamp", .moment),
    ("str", .text), ("seq", .sequence), ("map", .mapping), ("merge", .merge),
    ("value", .standard)] : List (String × Kind)).lookup name |>.getD .unknown

/-- The value of a scalar of a kind. -/
def read (kind : Kind) (s : String) : Except Fault Value :=
  match kind with
  | .null => .ok .null
  | .bool =>
    match boolWords.lookup s.toLower with
    | some b => .ok (.bool b)
    | none => .error .value
  | .integer => (Yaml.integer s.toList).map .int
  | .number => (Yaml.number s.toList).map .double
  | .moment => Yaml.moment s.toList
  | .text => .ok (.str s)
  | .sequence | .mapping | .merge | .standard | .unknown => .error .value

end Kind

end Dialogue.Yaml
