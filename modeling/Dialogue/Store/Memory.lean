import Dialogue.Flow.Document
import Dialogue.Identifier
import Dialogue.Store.Program

/-!
# The store in memory

Flows and conversations lie under pairs of storage keys.  A document that counts as absent reads as
absent; a flow whose document does not fit fails to load.
-/

namespace Dialogue.Store

/-- Documents in memory. -/
structure Memory where
  flows : Keyed Key Value := []
  conversations : Keyed Key Value := []

namespace Memory

/-- Where a flow lies. -/
def location (tenant name : Value) : String :=
  "memory://" ++ Identifier.safeName tenant ++ "/flows/" ++ Identifier.safeName name

/-- The document under a key, none where it counts as absent. -/
def document? (entries : Keyed Key Value) (key : Key) : Option Value :=
  (entries.get? key).filter fun v => !v.isEmpty

/-- Accesses to the store in memory; `now` is the time that documents without one are given. -/
def access (now : String) : (a : Access) → Run (Traced Memory) a.Answer
  | .loadFlow tenant name => do
    let m ← Run.read
    match document? m.flows (flowKey tenant name) with
    | none => return none
    | some doc =>
      let flow ← Run.ofExcept .invalid (Flow.ofValue now doc)
      return some flow
  | .createFlow tenant flow => do
    let m ← Run.read
    let key := flowKey tenant (.str flow.name)
    if m.flows.has key then return false
    else
      Run.write fun m => { m with flows := m.flows.set key (.dict flow.document) }
      return true
  | .writeFlow tenant flow => do
    Run.write fun m =>
      { m with flows := m.flows.set (flowKey tenant (.str flow.name)) (.dict flow.document) }
    return location tenant (.str flow.name)
  | .listFlows tenant => do
    return listUnder (Identifier.safeName tenant) (← Run.read).flows
  | .locateFlow tenant name => Run.pure (location tenant name)
  | .fetchConversation tenant key => do
    return document? (← Run.read).conversations (tenant, key)
  | .putConversation tenant key doc =>
    Run.write fun m => { m with conversations := m.conversations.set (tenant, key) doc }
  | .deleteConversation tenant key => do
    let m ← Run.read
    Run.write fun m => { m with conversations := m.conversations.erase (tenant, key) }
    return ((m.conversations.get? (tenant, key)).map fun v => !v.isNull).getD false
  | .listConversations tenant => do
    return listUnder (Identifier.safeName tenant) (← Run.read).conversations

end Memory

end Dialogue.Store
