import Dialogue.Engine.Turn
import Dialogue.Store.Operations

/-!
# Inbound messages

`Inbound.handle` takes one message through a flow on a store: it loads the flow and the
conversation, runs the turn (`Turn.run`) and carries out its effects in their order.

A message is admitted piece by piece, in the order in which the pieces are needed.  The flow is
looked for before anything else; a conversation that starts afresh needs a name and a time that are
texts; the text of the message is needed after that, and a handoff needs the time once more.
-/

namespace Dialogue

open Program

/-- One message of a counterparty. -/
structure Inbound where
  tenant : Value
  counterparty : Value
  text : Value
  flow : Value
  now : Value

namespace Inbound

/-- The name of the flow where an outcome has to name it. -/
def outcomeName (flow : Value) : Except Failure String :=
  match flow with
  | .str s => .ok s
  | v => .error (.invalid ⟨"FlowResult", [⟨["flow"], .notText, v⟩]⟩)

/-- The text of a message without white space around it; an absent message is empty. -/
def messageText (text : Value) : Except Failure String :=
  if text.isEmpty then .ok ""
  else
    match text with
    | .str s => .ok (Text.strip s)
    | _ => .error .notText

/-- Carries out the effects of a turn. -/
def carryOut (tenant counterparty : Value) : List Turn.Effect → Program Unit
  | [] => .done ()
  | .log e :: rest => .log e (carryOut tenant counterparty rest)
  | .save c :: rest =>
    (Store.setConversation tenant counterparty c).bind fun _ => carryOut tenant counterparty rest

/-- Takes a message through a flow.  `clock` is the time that counts when the message brings none,
`hops` the number of conditions that may pass. -/
def handle (clock : String) (hops : Int) (m : Inbound) : Program Outcome := do
  match ← perform (.loadFlow m.tenant m.flow) with
  | none =>
    tell (.flowNotFound m.tenant m.flow)
    return .notFound (← Program.ofExcept id (outcomeName m.flow))
  | some flow =>
    if flow.steps.isEmpty then
      tell (.flowEmpty m.tenant m.flow)
      return .empty (← Program.ofExcept id (outcomeName m.flow))
    else
      let stored ← Store.getConversation clock m.tenant m.counterparty
      let now := m.now.orElse (.str clock)
      let conversation ← Program.ofExcept .invalid (Turn.resume m.flow now stored)
      let text ← Program.ofExcept id (messageText m.text)
      let ctx : Turn.Context :=
        { tenant := m.tenant, counterparty := Identifier.redact m.counterparty, hops, text, now }
      let (effects, result) := Turn.run ctx flow conversation
      carryOut m.tenant m.counterparty effects
      Program.ofExcept .invalid result

end Inbound

end Dialogue
