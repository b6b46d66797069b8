import Dialogue.Value.Display

/-!
# What is wrong with a document

Reading a typed record from a document finds all its faults at once.  An `Issue` is one fault: where
it is, what it is (`Fault`), and the value that shows it.  A `Mismatch` is all the faults of one
record, in the order of its fields, together with the name of the record.

`Mismatch.report` is the full account with a line per fault and the value at fault;
`Mismatch.summary` gives a line with place and wording per fault.
-/

namespace Dialogue.Schema

/-- What can be wrong with a value. -/
inductive Fault where
  | missing
  | notText
  | notInteger
  | unreadableInteger
  | fractionalInteger
  | oversizedInteger
  | notFinite
  | notBool
  | unreadableBool
  | notNumber
  | unreadableNumber
  | notObject
  | notRecord (name : String)
  | notAttributes
  | noTag
  | unknownTag (tag : String)
  | rejected (reason : String)
  deriving DecidableEq, Repr

namespace Fault

/-- The short name of a fault. -/
def code : Fault → String
  | .missing => "missing"
  | .notText => "string_type"
  | .notInteger => "int_type"
  | .unreadableInteger => "int_parsing"
  | .fractionalInteger => "int_from_float"
  | .oversizedInteger => "int_parsing_size"
  | .notFinite => "finite_number"
  | .notBool => "bool_type"
  | .unreadableBool => "bool_parsing"
  | .notNumber => "float_type"
  | .unreadableNumber => "float_parsing"
  | .notObject => "dict_type"
  | .notRecord _ => "model_type"
  | .notAttributes => "model_attributes_type"
  | .noTag => "union_tag_not_found"
  | .unknownTag _ => "union_tag_invalid"
  | .rejected _ => "value_error"

/-- The wording of a fault. -/
def message : Fault → String
  | .missing => "Field required"
  | .notText => "Input should be a valid string"
  | .notInteger => "Input should be a valid integer"
  | .unreadableInteger =>
    "Input should be a valid integer, unable to parse string as an integer"
  | .fractionalInteger =>
    "Input should be a valid integer, got a number with a fractional part"
  | .oversizedInteger =>
    "Unable to parse input string as an integer, exceeded maximum size"
  | .notFinite => "Input should be a finite number"
  | .notBool => "Input should be a valid boolean"
  | .unreadableBool => "Input should be a valid boolean, unable to interpret input"
  | .notNumber => "Input should be a valid number"
  | .unreadableNumber =>
    "Input should be a valid number, unable to parse string as a number"
  | .notObject => "Input should be a valid dictionary"
  | .notRecord name => "Input should be a valid dictionary or instance of " ++ name
  | .notAttributes =>
    "Input should be a valid dictionary or object to extract fields from"
  | .noTag => "Unable to extract tag using discriminator 'type'"
  | .unknownTag tag => "Input tag '" ++ tag ++ "' found using 'type' does not match any of " ++
    "the expected tags: 'reply', 'question', 'condition', 'handoff', 'end'"
  | .rejected reason => "Value error, " ++ reason

end Fault

/-- One fault, its place as a path of keys, and the value at fault. -/
structure Issue where
  path : List String
  fault : Fault
  input : Value

/-- The issue one key further out. -/
def Issue.under (key : String) (i : Issue) : Issue := { i with path := key :: i.path }

/-- All faults of one record. -/
structure Mismatch where
  record : String
  issues : List Issue

/-- The kind of a value as reports name it. -/
def kindName : Value → String
  | .null => "NoneType"
  | .bool _ => "bool"
  | .int _ => "int"
  | .double _ => "float"
  | .str _ => "str"
  | .list _ => "list"
  | .dict _ => "dict"
  | .moment m => if m.time.isSome then "datetime" else "date"
  | .table _ => "dict"

/-- The longest beginning that takes no more than `budget` bytes. -/
def takeBytes (budget : Nat) : List Char → List Char
  | [] => []
  | c :: rest => if c.utf8Size ≤ budget then c :: takeBytes (budget - c.utf8Size) rest else []

/-- A text of more than fifty bytes is shown by its first twenty-five and its last twenty-four,
whole characters only. -/
def abbreviate (s : String) : String :=
  if s.utf8ByteSize ≤ 50 then s
  else
    let cs := s.toList
    String.ofList (takeBytes 25 cs) ++ "..." ++ String.ofList (takeBytes 24 cs.reverse).reverse

/-- The place on the web where faults are explained, scheme and path. -/
def guide : String × String := ("https", "errors.pydantic.dev/2.14/v/")

/-- The line that says where the meaning of a fault is explained. -/
def explanation (f : Fault) : String :=
  "    For further information visit " ++ guide.1 ++ "://" ++ guide.2 ++ f.code

namespace Issue

/-- The place of the issue, the parts of the path joined by points. -/
def place (i : Issue) : String := String.intercalate "." i.path

/-- Place and wording on one line. -/
def summary (i : Issue) : String := i.place ++ ": " ++ i.fault.message

/-- The lines that a report gives to the issue. -/
def reportLines (i : Issue) : List String :=
  (if i.path.isEmpty then [] else [i.place]) ++
    ["  " ++ i.fault.message ++ " [type=" ++ i.fault.code ++ ", input_value=" ++
      abbreviate i.input.literal ++ ", input_type=" ++ kindName i.input ++ "]",
    explanation i.fault]

end Issue

namespace Mismatch

/-- A line per fault. -/
def summary (m : Mismatch) : String := String.intercalate "\n" (m.issues.map (·.summary))

/-- The full account: how many faults of which record, then each with the value at fault. -/
def report (m : Mismatch) : String :=
  let n := m.issues.length
  let header :=
    toString n ++ " validation error" ++ (if n = 1 then "" else "s") ++ " for " ++ m.record
  String.intercalate "\n" (header :: m.issues.flatMap (·.reportLines))

end Mismatch

end Dialogue.Schema
