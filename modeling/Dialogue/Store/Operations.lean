import Dialogue.Conversation.Document
import Dialogue.Flow.Document
import Dialogue.Flow.Preset
import Dialogue.Store.Program

/-!
# Operations of a store

Versions of flows, the built-in preset and the reading of conversations are the same for every kind
of store: saving over a flow gives it a version above both, appending a step gives it the next
version, and a preset is created only where no flow is.  A conversation that cannot be read counts
as absent, and the next save replaces it.

`now` is the time of the operation.
-/

namespace Dialogue.Store

open Program

/-! ## Flows -/

/-- Saves a flow under its own name.  Over an existing flow it takes the next version and the time
of the change. -/
def saveFlow (now : String) (tenant : Value) (flow : Flow) : Program (Flow × String) := do
  if flow.name.isEmpty then Program.fail .flowUnnamed
  else
    let existing ← perform (.loadFlow tenant (.str flow.name))
    let saved := match existing with
      | some old => { flow with version := max flow.version old.version + 1, updatedAt := some now }
      | none => flow
    let location ← perform (.writeFlow tenant saved)
    tell (.flowSaved tenant saved.name saved.version saved.size)
    return (saved, location)

/-- Creates the built-in flow under a name unless there is a flow.  Answers whether it was created,
and where the flow lies. -/
def ensurePreset (now : String) (tenant name : Value) : Program (Bool × String) := do
  let flow ← Program.ofExcept .invalid (Flow.ofPresetNamed now .leadQualification name)
  let created ← perform (.createFlow tenant flow)
  if created then tell (.presetCreated tenant name)
  let location ← perform (.locateFlow tenant name)
  return (created, location)

/-- The flow with one step more, the next version and the time of the change. -/
def withStep (now : String) (step : Value) (flow : Flow) : Flow :=
  { flow with
    steps := flow.steps ++ [Entry.ofValue step]
    version := flow.version + 1
    updatedAt := some now }

/-- Loads a flow; a flow that is not there is first made from the built-in preset. -/
def loadOrCreate (now : String) (tenant name : Value) : Program Flow := do
  match ← perform (.loadFlow tenant name) with
  | some flow => return flow
  | none =>
    let preset ← Program.ofExcept .invalid (Flow.ofPresetNamed now .leadQualification name)
    let _ ← perform (.createFlow tenant preset)
    match ← perform (.loadFlow tenant name) with
    | some flow => return flow
    | none => Program.fail (.flowUnavailable name)

/-- Appends a step to a flow. -/
def appendStep (now : String) (tenant name step : Value) : Program Flow := do
  let flow ← loadOrCreate now tenant name
  let grown := withStep now step flow
  let _ ← perform (.writeFlow tenant grown)
  tell (.stepAppended tenant name (grown.size - 1) grown.version)
  return grown

/-! ## Conversations -/

/-- The storage key of a counterparty: its digits, of which there must be one. -/
def counterpartyKey (counterparty : Value) : Except Failure String :=
  let key := Identifier.digits counterparty
  if key.isEmpty then .error (.noDigits counterparty) else .ok key

/-- Reads the conversation with a counterparty; one that is empty or cannot be read is absent. -/
def getConversation (now : String) (tenant counterparty : Value) :
    Program (Option Conversation) := do
  let key ← Program.ofExcept id (counterpartyKey counterparty)
  match ← perform (.fetchConversation (Identifier.safeName tenant) key) with
  | none => return none
  | some document =>
    if document.isEmpty then return none
    else
      match Conversation.ofValue now document with
      | .ok c => return some c
      | .error _ =>
        tell (.conversationUnreadable tenant (Identifier.redact counterparty))
        return none

/-- Stores the conversation with a counterparty. -/
def setConversation (tenant counterparty : Value) (c : Conversation) : Program Unit := do
  let key ← Program.ofExcept id (counterpartyKey counterparty)
  perform (.putConversation (Identifier.safeName tenant) key (.dict c.document))

/-- Forgets the conversation with a counterparty; answers whether there was one. -/
def clearConversation (tenant counterparty : Value) : Program Bool := do
  let key ← Program.ofExcept id (counterpartyKey counterparty)
  let removed ← perform (.deleteConversation (Identifier.safeName tenant) key)
  if removed then tell (.conversationCleared tenant (Identifier.redact (.str key)))
  return removed

end Dialogue.Store
