import Dialogue.Identifier
import Dialogue.Step.Basic
import Dialogue.Step.Document

/-!
# Flows and their documents

A flow is a named, versioned list of steps.  Step numbers are places in the list, counted from zero.

`Flow.ofValue` reads a flow and reports all faults of its fields.  The steps never make it fail:
what is no step stays as malformed data (`Entry.ofValue`).  A flow without a name takes its
identifier for one, and a flow without an identifier gets the safe form of its name.

`Flow.document` writes a flow back, entries that are null left out.
-/

namespace Dialogue

/-- A named and versioned list of steps. -/
structure Flow where
  id : String
  name : String
  version : Int := 1
  createdAt : String
  updatedAt : Option String := none
  steps : List Entry := []
  extras : Fields := []

namespace Flow

/-- What stands at a step number; nothing outside the list. -/
def entry? (flow : Flow) (index : Int) : Option Entry :=
  if 0 ≤ index then flow.steps[index.toNat]? else none

/-- The number of steps. -/
def size (flow : Flow) : Nat := flow.steps.length

/-- Whether the number is one of a step. -/
def inRange (flow : Flow) (index : Int) : Bool := 0 ≤ index && index < flow.size

theorem isSome_entry? (flow : Flow) (index : Int) :
    (flow.entry? index).isSome = flow.inRange index := by
  unfold entry? inRange size
  by_cases h : 0 ≤ index
  · have hlt : index.toNat < flow.steps.length ↔ index < flow.steps.length := by omega
    simp only [h, if_true, decide_true, Bool.true_and]
    by_cases hi : index < flow.steps.length
    · simp [hi, hlt.2 hi]
    · simp [hi, Nat.not_lt.1 (mt hlt.1 hi)]
  · simp [h]

/-! ## Documents of flows -/

open Schema

/-- The field for the time of creation. -/
def createdSlot : Slot := ⟨"createdAt", "created_at"⟩

/-- The field for the time of the last change. -/
def updatedSlot : Slot := ⟨"updatedAt", "updated_at"⟩

/-- The fields of a flow. -/
def slots : List Slot :=
  [.plain "id", .plain "name", .plain "version", createdSlot, updatedSlot, .plain "steps"]

/-- Gives a document without a name its identifier as name. -/
def nameFromId (fields : Fields) : Fields :=
  let id := Fields.getD fields "id"
  if (Fields.getD fields "name").isEmpty && !id.isEmpty then Fields.set fields "name" id else fields

/-- Reads the steps; null is no steps. -/
def readSteps : Value → Except Fault (List Entry)
  | .null => .ok []
  | .list items => .ok (items.map Entry.ofValue)
  | _ => .error (.rejected "steps must be a list")

/-- Reads the fields of a flow; `now` is the time of creation when none is given. -/
def ofFields (now : String) (fields : Fields) : Checked Flow :=
  ((optional fields (.plain "id") "" readText).pair
    ((required fields (.plain "name") readText).pair
      ((optional fields (.plain "version") 1 readInteger).pair
        ((optional fields createdSlot now readText).pair
          ((optional fields updatedSlot none readTextOrNull).pair
            (optional fields (.plain "steps") [] readSteps)))))).map
  fun (id, name, version, createdAt, updatedAt, steps) =>
    { id := if id.isEmpty then Identifier.safeName (.str name) else id
      name, version, createdAt, updatedAt, steps
      extras := Schema.extras slots fields }

/-- Reads a flow. -/
def ofValue (now : String) (v : Value) : Except Mismatch Flow :=
  let checked := match v with
    | .dict fields => ofFields now (nameFromId fields)
    | v => Checked.fault (.notRecord "Flow") v
  checked.toExcept "Flow"

/-- The entries of a flow before its extras. -/
def entries (flow : Flow) : Fields :=
  [("id", .str flow.id), ("name", .str flow.name), ("version", .int flow.version),
    ("createdAt", .str flow.createdAt), ("updatedAt", .ofOption flow.updatedAt),
    ("steps", .list (flow.steps.map Entry.storedDocument))]

/-- The document of a flow, without entries that are null. -/
def document (flow : Flow) : Fields :=
  Fields.dropNulls flow.entries ++ Value.plainFields (Fields.dropNulls flow.extras)

end Flow

end Dialogue
