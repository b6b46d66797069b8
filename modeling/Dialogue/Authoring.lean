import Dialogue.Flow.Check
import Dialogue.Store.Operations

/-!
# Authoring flows

What an author does to the flows of a tenant: create a flow from a preset, look at it, have it
checked and add steps to it.
-/

namespace Dialogue.Authoring

open Program

/-- The name under which a flow is created: without white space around it, and not empty. -/
def newName (name : Value) : Except Failure String :=
  if name.isEmpty then .error .nameRequired
  else
    match name with
    | .str s => if Text.isBlankText s then .error .nameRequired else .ok (Text.strip s)
    | _ => .error .notText

/-- The flow of a preset; without a preset a flow without steps. -/
def fromPreset (now : String) (preset : Value) (name : String) : Except Failure Flow :=
  match preset with
  | .list (_ :: _) => .error .notHashable
  | .dict (_ :: _) => .error .notHashable
  | preset =>
    match Flow.build? now preset name with
    | some flow => .ok flow
    | none => .error (.unknownPreset preset)

/-- Creates a flow from a preset, over an existing one too.  Answers the flow and where it lies. -/
def createFlow (now : String) (tenant name preset : Value) : Program (Flow × String) := do
  let name ← Program.ofExcept id (newName name)
  let flow ← Program.ofExcept id (fromPreset now preset name)
  Store.saveFlow now tenant flow

/-- The flow of a name. -/
def showFlow (tenant name : Value) : Program Flow := do
  match ← perform (.loadFlow tenant name) with
  | some flow => return flow
  | none => Program.fail (.flowNotFound name)

/-- What is wrong with the flow of a name. -/
def checkFlow (tenant name : Value) : Program (List Flow.Problem) := do
  return (← showFlow tenant name).problems

/-- Adds a step to a flow and logs what is wrong with the flow after it.  Answers the document of
the step and the flow. -/
def addStep (now : String) (tenant name : Value) (draft : Step.Draft) :
    Program (Fields × Flow) := do
  let step ← Program.ofExcept .draft draft.build
  let flow ← Store.appendStep now tenant name (.dict step)
  tellAll (flow.problems.map fun p => .flowProblem tenant name p.message)
  return (step, flow)

end Dialogue.Authoring
