import Dialogue.Schema.Issue

/-!
# Reading records

A record is read field by field, and the faults of all fields are collected in the order of the
fields.  A field has a name in documents and may have an older second name, which counts when the
first is not there.  Keys that no field takes are the extras of the record.

`Checked` is the outcome of such a reading, and `Checked.pair` and `Checked.map` combine the fields
of a record; a pair keeps the faults of both sides (`issues_pair`).
-/

namespace Dialogue.Schema

/-- What was read, or everything that is wrong. -/
inductive Checked (α : Type) where
  | ok (a : α)
  | bad (issues : List Issue)

namespace Checked

variable {α β : Type}

/-- Applies a function to what was read. -/
def map (f : α → β) : Checked α → Checked β
  | .ok a => .ok (f a)
  | .bad is => .bad is

/-- Reads two things, keeping what is wrong with either. -/
def pair : Checked α → Checked β → Checked (α × β)
  | .ok a, .ok b => .ok (a, b)
  | .ok _, .bad is => .bad is
  | .bad is, .ok _ => .bad is
  | .bad is, .bad js => .bad (is ++ js)

/-- Reads under a key: faults lie one key deeper. -/
def under (key : String) : Checked α → Checked α
  | .ok a => .ok a
  | .bad is => .bad (is.map (·.under key))

/-- A single fault of a value. -/
def fault (f : Fault) (input : Value) : Checked α := .bad [⟨[], f, input⟩]

/-- The outcome of reading a scalar. -/
def ofExcept (input : Value) : Except Fault α → Checked α
  | .ok a => .ok a
  | .error f => fault f input

/-- The record, or its mismatch. -/
def toExcept (record : String) : Checked α → Except Mismatch α
  | .ok a => .ok a
  | .bad is => .error ⟨record, is⟩

end Checked

/-- A field by its name in documents and a second name that counts when the first is absent. -/
structure Slot where
  name : String
  older : String
  deriving DecidableEq, Repr

/-- A field with one name. -/
def Slot.plain (name : String) : Slot := ⟨name, name⟩

/-- The key under which the field stands, and its value. -/
def Slot.find? (slot : Slot) (fields : Fields) : Option (String × Value) :=
  match Fields.get? fields slot.name with
  | some v => some (slot.name, v)
  | none => (Fields.get? fields slot.older).map fun v => (slot.older, v)

/-- The key that the field takes away from the extras. -/
def Slot.taken (slot : Slot) (fields : Fields) : List String :=
  (slot.find? fields).toList.map (·.1)

/-- The entries that none of the fields takes. -/
def extras (slots : List Slot) (fields : Fields) : Fields :=
  Fields.without fields (slots.flatMap (·.taken fields))

variable {α : Type}

/-- Reads a field that must be there. -/
def required (fields : Fields) (slot : Slot) (read : Value → Except Fault α) : Checked α :=
  match slot.find? fields with
  | some (key, v) => (Checked.ofExcept v (read v)).under key
  | none => (Checked.fault .missing (.dict fields)).under slot.name

/-- Reads a field that has a default. -/
def optional (fields : Fields) (slot : Slot) (default : α) (read : Value → Except Fault α) :
    Checked α :=
  match slot.find? fields with
  | some (key, v) => (Checked.ofExcept v (read v)).under key
  | none => .ok default

/-- Reads a field that has a default and is a record of its own. -/
def optionalRecord (fields : Fields) (slot : Slot) (default : α) (read : Value → Checked α) :
    Checked α :=
  match slot.find? fields with
  | some (key, v) => (read v).under key
  | none => .ok default

end Dialogue.Schema
