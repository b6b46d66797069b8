import Dialogue.Conversation.Document

/-!
# What a turn comes to

A turn is one message of a counterparty and what the flow does about it.  Its `Outcome` says why
nothing could be done, or what was done, with at most one text to send and the conversation after
it.
-/

namespace Dialogue

/-- What a turn did. -/
inductive TurnAction where
  | ask
  | reply
  | handoff
  | finish
  | noop
  deriving DecidableEq, Repr

/-- The word for an action. -/
def TurnAction.word : TurnAction → String
  | .ask => "ask"
  | .reply => "reply"
  | .handoff => "handoff"
  | .finish => "end"
  | .noop => "noop"

/-- What a turn comes to.

* `notFound`, `empty`: there is no flow of the name, or it has no steps.
* `stuck`: more conditions passed than one turn allows; the state is the one reached.
* `acted`: the flow did something, with a text to send or without. -/
inductive Outcome where
  | notFound (flow : String)
  | empty (flow : String)
  | stuck (state : Conversation)
  | acted (action : TurnAction) (message : Option String) (state : Conversation)

namespace Outcome

/-- Whether the turn went well. -/
def isOk : Outcome → Bool
  | .acted _ _ _ => true
  | _ => false

/-- The text to send. -/
def message : Outcome → Option String
  | .acted _ message _ => message
  | _ => none

/-- The conversation after the turn. -/
def state : Outcome → Option Conversation
  | .stuck c => some c
  | .acted _ _ c => some c
  | _ => none

/-- The flow that the turn was about. -/
def flow : Outcome → String
  | .notFound name => name
  | .empty name => name
  | .stuck c => c.flow
  | .acted _ _ c => c.flow

/-- The word for what was done. -/
def actionWord : Outcome → Option String
  | .stuck _ => some "error"
  | .acted action _ _ => some action.word
  | _ => none

/-- Why nothing was done. -/
def reason : Outcome → Option String
  | .notFound _ => some "flow_not_found"
  | .empty _ => some "flow_empty"
  | .stuck _ => some "condition_hop_limit"
  | .acted _ _ _ => none

/-- The outcome as an object. -/
def document (o : Outcome) : Fields :=
  [("ok", .bool o.isOk), ("flow", .str o.flow), ("action", .ofOption o.actionWord),
    ("message", (o.message.map fun text =>
      Value.dict [("type", .str "text"), ("text", .str text)]).getD .null),
    ("reason", .ofOption o.reason),
    ("state", (o.state.map fun c => Value.dict c.document).getD .null)]

end Outcome

end Dialogue
