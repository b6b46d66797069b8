import Dialogue.Value.Basic

/-!
# Steps of a flow

A flow is a list of steps.  A step says something, asks a question, branches silently, hands over to
a person or ends.  What a stored step holds beyond that is kept as its extras.

An `Entry` is what stands at one place of a flow: a step, or data that is no step.  The latter keeps
its place so that step numbers do not shift, and keeps its data so that it is written back
unchanged.
-/

namespace Dialogue

/-- What a step does.

* `reply` says a text and goes on.
* `question` says a text and waits for the answer, which is recorded under `field`.
* `condition` goes to one of two steps without saying anything.
* `handoff` passes the conversation to a person.
* `finish` ends the conversation. -/
inductive Step.Action where
  | reply (text : String)
  | question (field text : String)
  | condition (expr : Option String) (thenTarget elseTarget : Option Int)
  | handoff (reason : String) (text : Option String)
  | finish (text : Option String)
  deriving DecidableEq, Repr

/-- A step: its identifier, what it does, and the entries of its document that mean nothing here. -/
structure Step where
  id : String
  action : Step.Action
  extras : Fields := []

/-- The kinds of steps. -/
inductive Step.Kind where
  | reply
  | question
  | condition
  | handoff
  | finish
  deriving DecidableEq, Repr

namespace Step.Kind

/-- The word for a kind in documents. -/
def tag : Step.Kind → String
  | .reply => "reply"
  | .question => "question"
  | .condition => "condition"
  | .handoff => "handoff"
  | .finish => "end"

/-- All kinds, in the order in which they are listed to people. -/
def all : List Step.Kind := [.reply, .question, .condition, .handoff, .finish]

/-- The kind that a word names. -/
def ofTag? (tag : String) : Option Step.Kind := all.find? fun k => k.tag == tag

@[simp] theorem ofTag?_tag (k : Step.Kind) : ofTag? k.tag = some k := by
  cases k <;> decide

end Step.Kind

/-- The kind of an action. -/
def Step.Action.kind : Step.Action → Step.Kind
  | .reply _ => .reply
  | .question _ _ => .question
  | .condition _ _ _ => .condition
  | .handoff _ _ => .handoff
  | .finish _ => .finish

/-- The kind of a step. -/
def Step.kind (s : Step) : Step.Kind := s.action.kind

/-- The identifier of a step that is made here.  It would be drawn anew for every step, at random
and from the time; one constant stands for all of them, so nothing is said about which differ. -/
def Step.freshId : String := "stp_000000000000_0"

/-- What stands at one place of a flow: a step, or data that is no step together with the reason. -/
inductive Entry where
  | step (s : Step)
  | malformed (raw : Value) (reason : String)

/-- The target of a branch that leads somewhere: missing and negative targets do not. -/
def Step.target? (target : Option Int) : Option Int := target.filter fun t => decide (0 ≤ t)

end Dialogue
