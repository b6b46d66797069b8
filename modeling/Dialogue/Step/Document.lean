import Dialogue.Schema.Record
import Dialogue.Schema.Scalar
import Dialogue.Step.Basic
import Dialogue.Text.Digit
import Dialogue.Value.Display

/-!
# Documents of steps

`Entry.ofValue` reads one stored step and never fails: what is no step becomes malformed data with
the first reason found.  Reasons are looked for in the order identifier, field, text.  Conditions
are read most leniently, because a condition that cannot be used still takes its else branch: the
expression may be any value, and a target that is no whole number counts as missing.

`Step.document` writes a step back, keys in a fixed order, extras last, what is null included;
`Step.storedDocument` leaves out what is null.
-/

namespace Dialogue

open Schema

namespace Step

/-- The field that holds the expression of a condition. -/
def exprSlot : Slot := ⟨"if", "expr"⟩

/-- The field that holds the target of a condition that holds. -/
def thenSlot : Slot := ⟨"thenStepIndex", "then_step_index"⟩

/-- The field that holds the target of a condition that does not hold. -/
def elseSlot : Slot := ⟨"elseStepIndex", "else_step_index"⟩

/-- The expression of a condition: null, or the text of whatever is given. -/
def exprOfValue : Value → Option String
  | .null => none
  | v => some v.display

/-- An integer written by an optional minus sign and decimal digits of any script. -/
def targetOfText? (s : String) : Option Int :=
  match Text.stripChars s.toList with
  | '-' :: ds => (Text.digits? ds).map fun n => -(n : Int)
  | ds => (Text.digits? ds).map fun n => (n : Int)

/-- The target of a branch: a whole number, also as a text; anything else is no target. -/
def targetOfValue : Value → Option Int
  | .int n => some n
  | .double d => d.integer?
  | .str s => targetOfText? s
  | _ => none

/-- The value of a field, null when it is not there. -/
def slotValue (fields : Fields) (slot : Slot) : Value :=
  ((slot.find? fields).map (·.2)).getD .null

/-- Reads a field that must be there, as text. -/
def needText (fields : Fields) (key : String) : Except Fault String :=
  match Fields.get? fields key with
  | some v => readText v
  | none => .error .missing

/-- Reads a field that may be missing or null, as text. -/
def mayText (fields : Fields) (key : String) : Except Fault (Option String) :=
  match Fields.get? fields key with
  | some v => readTextOrNull v
  | none => .ok none

/-- Reads the identifier; a step without one gets a fresh one. -/
def readId (fields : Fields) : Except Fault String :=
  match Fields.get? fields "id" with
  | some v => readText v
  | none => .ok freshId

/-- Reads the field that a question asks for, without white space around it. -/
def readField (fields : Fields) : Except Fault String := do
  let field := Text.strip (← needText fields "field")
  if field.isEmpty then .error (.rejected "question step needs a field") else return field

/-- The fields that a step of a kind has. -/
def slots : Kind → List Slot
  | .reply => [.plain "id", .plain "type", .plain "text"]
  | .question => [.plain "id", .plain "type", .plain "field", .plain "text"]
  | .condition => [.plain "id", .plain "type", exprSlot, thenSlot, elseSlot]
  | .handoff => [.plain "id", .plain "type", .plain "reason", .plain "text"]
  | .finish => [.plain "id", .plain "type", .plain "text"]

/-- Reads what a step of a kind does. -/
def readAction (fields : Fields) : Kind → Except Fault Action
  | .reply => do return .reply (← needText fields "text")
  | .question => do
    let field ← readField fields
    return .question field (← needText fields "text")
  | .condition =>
    .ok (.condition (exprOfValue (slotValue fields exprSlot))
      (targetOfValue (slotValue fields thenSlot)) (targetOfValue (slotValue fields elseSlot)))
  | .handoff => do
    let reason ← match Fields.get? fields "reason" with
      | some v => readText v
      | none => .ok "handoff"
    return .handoff reason (← mayText fields "text")
  | .finish => do return .finish (← mayText fields "text")

/-- Reads the kind of a step from its tag. -/
def readKind (fields : Fields) : Except Fault Kind :=
  match Fields.get? fields "type" with
  | none => .error .noTag
  | some v =>
    match v.text?.bind Kind.ofTag? with
    | some k => .ok k
    | none => .error (.unknownTag v.display)

/-- Reads a step. -/
def ofValue? : Value → Except Fault Step
  | .dict fields => do
    let kind ← readKind fields
    let id ← readId fields
    let action ← readAction fields kind
    return { id := id, action := action, extras := Schema.extras (slots kind) fields }
  | _ => .error .notAttributes

/-- The entries of an action, in their fixed order. -/
def Action.entries : Action → Fields
  | .reply text => [("text", .str text)]
  | .question field text => [("field", .str field), ("text", .str text)]
  | .condition expr thenTarget elseTarget =>
    [("if", .ofOption expr), ("thenStepIndex", .ofIndex thenTarget),
      ("elseStepIndex", .ofIndex elseTarget)]
  | .handoff reason text => [("reason", .str reason), ("text", .ofOption text)]
  | .finish text => [("text", .ofOption text)]

/-- The entries of a step before its extras. -/
def entries (s : Step) : Fields :=
  ("id", .str s.id) :: ("type", .str s.kind.tag) :: s.action.entries

/-- The document of a step, what is null included. -/
def document (s : Step) : Value :=
  .dict (s.entries ++ Value.plainFields s.extras)

/-- The document of a step as it is stored: entries that are null are left out. -/
def storedDocument (s : Step) : Value :=
  .dict (Fields.dropNulls s.entries ++ Value.plainFields (Fields.dropNulls s.extras))

end Step

namespace Entry

/-- Reads what stands at one place of a flow. -/
def ofValue (v : Value) : Entry :=
  match Step.ofValue? v with
  | .ok s => .step s
  | .error f => .malformed v f.message

/-- What is stored for one place of a flow: malformed data is written back as it is. -/
def storedDocument : Entry → Value
  | .step s => s.storedDocument
  | .malformed raw _ => raw.plain

end Entry

end Dialogue
