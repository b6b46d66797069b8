import Dialogue.Condition.Holds
import Dialogue.Condition.Parser
import Dialogue.Engine.Outcome
import Dialogue.Event
import Dialogue.Flow.Document
import Dialogue.Template

/-!
# A turn through a flow

`Turn.run` takes a conversation, a message and a flow through one turn.  It changes nothing itself:
it gives the outcome together with the effects in their order, each a conversation to store or an
event to log.

A turn resumes the stored conversation or starts a fresh one (`Turn.resume`), records the message if
a question waits for it (`Turn.record`), and then walks the steps (`Turn.walk`).  Malformed data and
conditions are passed silently.  Every other step ends the walk, and so does the end of the flow.
The number of conditions in one turn is bounded: the walk ends as `stuck` before the first condition
too many.

The time of a turn is kept as it is given, but a conversation that starts and a handoff need a time
that is a text.  A handoff without one is a fault, which comes after the effects of the conditions
before it.

The walk ends because the bound on conditions falls at every condition and the distance to the end
of the flow falls at every malformed step.
-/

namespace Dialogue.Turn

/-- What a turn does to the world around it. -/
inductive Effect where
  | save (c : Conversation)
  | log (e : Event)

/-- The field under which conditions see the message of the turn. -/
def lastField : String := "_last"

/-- What is fixed for a turn: the tenant and the masked number for the log, the bound on conditions,
the message without white space around it, and the time. -/
structure Context where
  tenant : Value
  counterparty : String
  hops : Int
  text : String
  now : Value

/-- What a turn does before its outcome, and the outcome, or what is wrong with the record that it
could not make. -/
abbrev Result : Type := List Effect × Except Schema.Mismatch Outcome

/-- What keeps a value from being the text of a field. -/
def textIssues (field : String) : Value → List Schema.Issue
  | .str _ => []
  | v => [⟨[field], .notText, v⟩]

/-- A conversation that starts now; the name of its flow and the time must be texts. -/
def start (name now : Value) : Except Schema.Mismatch Conversation :=
  match name, now with
  | .str name, .str now => .ok (Conversation.start name now)
  | name, now =>
    .error ⟨"Conversation",
      textIssues "flow" name ++ textIssues "started_at" now ++ textIssues "updated_at" now⟩

/-- The stored conversation, if it is of the flow and not completed. -/
def ongoing? (name : Value) (stored : Option Conversation) : Option Conversation :=
  stored.filter fun c => name == .str c.flow && !c.isCompleted

/-- The conversation to go on with: the one that goes on, otherwise a fresh one. -/
def resume (name now : Value) (stored : Option Conversation) :
    Except Schema.Mismatch Conversation := do
  let c ← match ongoing? name stored with
    | some c => pure c
    | none => start name now
  return { c with updatedAt := now, lastInboundAt := now }

/-- Records a message that is not empty as the answer to the question that waits. -/
def record (text : String) (c : Conversation) : Conversation :=
  match c.waiting with
  | some w =>
    if text.isEmpty then c
    else
      { c with
        data := Fields.set c.data w.field (.str text)
        stepIndex := max c.stepIndex (w.stepIndex + 1)
        waiting := none }
  | none => c

/-- The data that conditions see: the collected answers and the message of the turn. -/
def conditionData (text : String) (c : Conversation) : Fields :=
  Fields.set c.data lastField (.str text)

/-- The event of an expression that cannot be read. -/
def unreadableEvents (expr : Option String) : List Effect :=
  match expr.bind Condition.parse? with
  | some _ => []
  | none => [.log (.conditionUnreadable (expr.getD ""))]

/-- Whether an expression holds; one that cannot be read does not. -/
def holds (expr : Option String) (data : Fields) : Bool :=
  match expr.bind Condition.parse? with
  | some c => c.holds data
  | none => false

/-- The step after a condition: the target of the branch taken, or the next step. -/
def nextIndex (index : Int) (taken : Option Int) : Int :=
  (Step.target? taken).getD (index + 1)

/-- Ends a turn: the conversation is stored and the turn logged. -/
def emit (ctx : Context) (c : Conversation) (action : TurnAction) (message : Option String) :
    Result :=
  ([.save c,
    .log (.inboundHandled ctx.tenant c.flow action.word c.stepIndex (c.waiting.map (·.field))
      c.isCompleted ctx.counterparty)],
   .ok (.acted action message c))

/-- Hands the conversation over; the time of it must be a text. -/
def handOver (ctx : Context) (flow : Flow) (c : Conversation) (reason : String)
    (text : Option String) : Result :=
  match ctx.now with
  | .str now =>
    emit ctx
      { c with stepIndex := flow.size, completedAt := ctx.now, handoff := some ⟨reason, now⟩ }
      .handoff text
  | now => ([], .error ⟨"HandoffInfo", textIssues "at" now⟩)

/-- The text of a step, placeholders filled in; a text that is missing or empty is none. -/
def rendered (text : Option String) (data : Fields) : Option String :=
  (text.filter fun t => !t.isEmpty).map fun t => Template.render t data

/-- What a step that is neither malformed nor a condition does. -/
def speak (ctx : Context) (flow : Flow) (c : Conversation) : Step.Action → Result
  | .question field text =>
    emit ctx { c with waiting := some ⟨field, c.stepIndex⟩ } .ask
      (some (Template.render text c.data))
  | .reply text =>
    let c := { c with stepIndex := c.stepIndex + 1 }
    let body := Template.render text c.data
    match flow.entry? c.stepIndex with
    | some (.step ⟨_, .question field question, _⟩) =>
      emit ctx { c with waiting := some ⟨field, c.stepIndex⟩ } .ask
        (some (body ++ "\n\n" ++ Template.render question c.data))
    | _ => emit ctx c .reply (some body)
  | .handoff reason text =>
    handOver ctx flow c (if reason.isEmpty then "handoff" else reason) (rendered text c.data)
  | .finish text =>
    emit ctx { c with stepIndex := flow.size, completedAt := ctx.now } .finish
      (rendered text c.data)
  | .condition _ _ _ => emit ctx c .noop none

/-- Walks the steps of a flow; `budget` is the number of conditions that may still pass. -/
def walk (ctx : Context) (flow : Flow) (budget : Nat) (c : Conversation) : Result :=
  match h : flow.entry? c.stepIndex with
  | none => emit ctx c .noop none
  | some (.malformed _ _) =>
    have : (flow.size - (c.stepIndex + 1)).toNat < (flow.size - c.stepIndex).toNat := by
      have hr : flow.inRange c.stepIndex = true := by
        rw [← Flow.isSome_entry?, h]; rfl
      simp only [Flow.inRange, Bool.and_eq_true, decide_eq_true_eq] at hr
      omega
    let (effects, result) := walk ctx flow budget { c with stepIndex := c.stepIndex + 1 }
    (.log (.stepSkipped c.flow c.stepIndex) :: effects, result)
  | some (.step s) =>
    match s.action with
    | .condition expr thenTarget elseTarget =>
      match budget with
      | 0 =>
        ([.log (.hopLimit ctx.tenant c.flow c.stepIndex ctx.hops ctx.counterparty)], .ok (.stuck c))
      | budget + 1 =>
        let taken := if holds expr (conditionData ctx.text c) then thenTarget else elseTarget
        let c' := { c with stepIndex := nextIndex c.stepIndex taken }
        let (effects, result) := walk ctx flow budget c'
        (unreadableEvents expr ++ .save c' :: effects, result)
    | action => speak ctx flow c action
termination_by (budget, (flow.size - c.stepIndex).toNat)

/-- One turn of a conversation that was resumed: records and walks. -/
def run (ctx : Context) (flow : Flow) (c : Conversation) : Result :=
  walk ctx flow ctx.hops.toNat (record ctx.text c)

end Dialogue.Turn
