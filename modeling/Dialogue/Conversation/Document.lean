import Dialogue.Schema.Record
import Dialogue.Schema.Scalar
import Dialogue.Value.Basic

/-!
# Conversations and their documents

A conversation is where one counterparty stands in one flow: the number of the next step, the
question that is waiting for an answer, and the answers collected so far.

`Conversation.ofValue` reads a stored conversation and reports all faults of its fields;
`Conversation.document` writes it back, what is null included, except that a conversation without
handoff has no entry for it.
-/

namespace Dialogue

/-- The question that waits for an answer: the field it fills and its step number. -/
structure Waiting where
  field : String
  stepIndex : Int
  deriving DecidableEq, Repr

/-- That and when a person took over, and why. -/
structure Handoff where
  reason : String
  takenAt : String
  deriving DecidableEq, Repr

/-- Where one counterparty stands in one flow.  The times that a message sets are kept as it gives
them. -/
structure Conversation where
  flow : String
  stepIndex : Int := 0
  waiting : Option Waiting := none
  data : Fields := []
  startedAt : String
  updatedAt : Value
  lastInboundAt : Value := .null
  completedAt : Value := .null
  handoff : Option Handoff := none
  extras : Fields := []

namespace Conversation

/-- Whether the conversation has come to its end. -/
def isCompleted (c : Conversation) : Bool := !c.completedAt.isEmpty

/-- A conversation that starts now at the first step of a flow. -/
def start (flow now : String) : Conversation :=
  { flow := flow, startedAt := now, updatedAt := .str now }

end Conversation

/-! ## Documents of conversations -/

open Schema

namespace Waiting

/-- Reads the waiting question. -/
def ofValue (v : Value) : Checked (Option Waiting) :=
  match v with
  | .null => .ok none
  | .dict fields =>
    ((required fields (.plain "field") readText).pair
      (required fields ⟨"stepIndex", "step_index"⟩ readInteger)).map
    fun (field, stepIndex) => some { field, stepIndex }
  | v => Checked.fault (.notRecord "Waiting") v

/-- The document of the waiting question. -/
def document (w : Waiting) : Value :=
  .dict [("field", .str w.field), ("stepIndex", .int w.stepIndex)]

end Waiting

namespace Handoff

/-- Reads the fields of a handoff. -/
def ofFields (fields : Fields) : Checked Handoff :=
  ((required fields (.plain "reason") readText).pair
    (required fields (.plain "at") readText)).map
  fun (reason, takenAt) => { reason, takenAt }

/-- Reads a handoff. -/
def ofValue (v : Value) : Checked (Option Handoff) :=
  match v with
  | .null => .ok none
  | .dict fields => (ofFields fields).map some
  | v => Checked.fault (.notRecord "HandoffInfo") v

/-- The document of a handoff. -/
def document (h : Handoff) : Value :=
  .dict [("reason", .str h.reason), ("at", .str h.takenAt)]

end Handoff

namespace Conversation

/-- The field for the next step. -/
def stepSlot : Slot := ⟨"stepIndex", "step_index"⟩

/-- The field for the time of the first message. -/
def startedSlot : Slot := ⟨"startedAt", "started_at"⟩

/-- The field for the time of the last change. -/
def updatedSlot : Slot := ⟨"updatedAt", "updated_at"⟩

/-- The field for the time of the last message. -/
def lastInboundSlot : Slot := ⟨"lastInboundAt", "last_inbound_at"⟩

/-- The field for the time of completion. -/
def completedSlot : Slot := ⟨"completedAt", "completed_at"⟩

/-- The fields of a conversation. -/
def slots : List Slot :=
  [.plain "flow", stepSlot, .plain "waiting", .plain "data", startedSlot, updatedSlot,
    lastInboundSlot, completedSlot, .plain "handoff"]

/-- Reads the fields of a conversation; `now` stands for the times that are not given. -/
def ofFields (now : String) (fields : Fields) : Checked Conversation :=
  ((required fields (.plain "flow") readText).pair
    ((optional fields stepSlot 0 readInteger).pair
      ((optionalRecord fields (.plain "waiting") none Waiting.ofValue).pair
        ((optional fields (.plain "data") [] readObject).pair
          ((optional fields startedSlot now readText).pair
            ((optional fields updatedSlot now readText).pair
              ((optional fields lastInboundSlot none readTextOrNull).pair
                ((optional fields completedSlot none readTextOrNull).pair
                  (optionalRecord fields (.plain "handoff") none Handoff.ofValue))))))))).map
  fun (flow, stepIndex, waiting, data, startedAt, updatedAt, lastInboundAt, completedAt, handoff) =>
    { flow, stepIndex, waiting, data, startedAt, handoff
      updatedAt := .str updatedAt
      lastInboundAt := .ofOption lastInboundAt
      completedAt := .ofOption completedAt
      extras := Schema.extras slots fields }

/-- Reads a conversation. -/
def ofValue (now : String) (v : Value) : Except Mismatch Conversation :=
  let checked := match v with
    | .dict fields => ofFields now fields
    | v => Checked.fault (.notRecord "Conversation") v
  checked.toExcept "Conversation"

/-- The entries of a conversation before its extras. -/
def entries (c : Conversation) : Fields :=
  [("flow", .str c.flow), ("stepIndex", .int c.stepIndex),
    ("waiting", (c.waiting.map Waiting.document).getD .null),
    ("data", .dict (Value.plainFields c.data)),
    ("startedAt", .str c.startedAt), ("updatedAt", c.updatedAt.plain),
    ("lastInboundAt", c.lastInboundAt.plain), ("completedAt", c.completedAt.plain)] ++
  (c.handoff.map fun h => ("handoff", h.document)).toList

/-- The document of a conversation. -/
def document (c : Conversation) : Fields := c.entries ++ Value.plainFields c.extras

end Conversation

end Dialogue
