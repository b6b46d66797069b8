import Dialogue.Database.Connection
import Dialogue.Double.Shortest
import Dialogue.Flow.Document
import Dialogue.Store.Program
import Dialogue.Value.Basic

/-!
# The store in a database

Flows and conversations are rows of the tables of a database.  The tables are made on first use,
once for flows and once for conversations, behind the connection to the address that the store was
made with.  A connection that is opened again later goes to the address in the settings.

A new row of a conversation takes the empty text for a flow that is null; an old one refuses it.  A
row that is there keeps its document where the new one counts as the same (`Table.kept`), so what is
read back may still have the old numbers.
-/

namespace Dialogue.Store

namespace Table

open Database

/-- What a store in a database works on: the files, the connection, and whether the tables are known
to be there. -/
structure State where
  site : Site
  flowsReady : Bool := false
  conversationsReady : Bool := false

/-- Runs over files and connection. -/
def onSite {α : Type} (m : Run (Traced Site) α) : Run (Traced State) α :=
  Run.zoom (fun t => ⟨t.state.site, t.events⟩)
    (fun u t => ⟨{ t.state with site := u.state }, u.events⟩) m

/-- Makes the tables before flows are first used. -/
def readyFlows (address : Value) : Run (Traced State) Unit := do
  if !(← Run.read).flowsReady then
    onSite (createTables address)
    Run.write fun s => { s with flowsReady := true }

/-- Makes the tables before conversations are first used. -/
def readyConversations (address : Value) : Run (Traced State) Unit := do
  if !(← Run.read).conversationsReady then
    onSite (createTables address)
    Run.write fun s => { s with conversationsReady := true }

/-- Where a flow lies. -/
def location (tenant name : Value) : String :=
  "sql://flows/" ++ Identifier.safeName tenant ++ "/" ++ Identifier.safeName name

/-- Whether an integer fits into a column. -/
def fits (n : Int) : Bool := -(Nat.pow 2 63 : Int) ≤ n && n < Nat.pow 2 63

/-- A value in a column of texts: numbers and truth values are stored as their digits, and what is
no number as null. -/
def textColumn : Value → Except Failure Value
  | .null => .ok .null
  | .str s => .ok (.str s)
  | .bool b => .ok (.str (if b then "1" else "0"))
  | .int n => if fits n then .ok (.str (toString n)) else .error (.database .numberTooLarge)
  | .double d => .ok (.ofOption d.rounded?)
  | _ => .error (.database .columnUnsupported)

/-- The document of a row that is written: the one it held, where the new one counts as the same. -/
def kept (held : Option Value) (doc : Value) : Value :=
  match held with
  | some old => if doc.same old then old else doc
  | none => doc

/-- The row of a conversation; `old` is the row that it replaces. -/
def conversationRow (old : Option ConversationRow) : Value → Except Failure ConversationRow
  | .dict fields => do
    let flow ← match old, (Fields.get? fields "flow").getD (.str "") with
      | none, .null => .ok (.str "")
      | _, v => textColumn v
    let completedAt ← textColumn (Fields.getD fields "completedAt")
    if flow.isNull then .error (.database .columnMissing)
    else return { flow, completedAt, document := kept (old.map (·.document)) (.dict fields) }
  | _ => .error .notDocument

/-- The row of a flow; `old` is the row that it replaces.  Versions take up to sixty-three bits. -/
def flowRow (old : Option FlowRow) (flow : Flow) : Except Failure FlowRow :=
  if fits flow.version then
    .ok { version := flow.version, document := kept (old.map (·.document)) (.dict flow.document) }
  else .error (.database .numberTooLarge)

/-- Accesses to the store in a database; `now` is the time that documents without one are given,
`address` the one that the store was made with and `configured` the one in the settings. -/
def access (now : String) (address configured : Value) :
    (a : Access) → Run (Traced State) a.Answer
  | .loadFlow tenant name => do
    readyFlows address
    let (_, tables) ← onSite (current configured)
    match tables.flows.get? (flowKey tenant name) with
    | none => return none
    | some row =>
      match Flow.ofValue now row.document with
      | .ok flow => return some flow
      | .error _ =>
        Run.note (.flowRowUnreadable tenant name)
        return none
  | .createFlow tenant flow => do
    readyFlows address
    let (connection, tables) ← onSite (current configured)
    let key := flowKey tenant (.str flow.name)
    if tables.flows.has key then return false
    else
      let row ← Run.ofExcept id (flowRow none flow)
      onSite (store connection { tables with flows := tables.flows.set key row })
      return true
  | .writeFlow tenant flow => do
    readyFlows address
    let (connection, tables) ← onSite (current configured)
    let key := flowKey tenant (.str flow.name)
    let row ← Run.ofExcept id (flowRow (tables.flows.get? key) flow)
    onSite (store connection { tables with flows := tables.flows.set key row })
    return location tenant (.str flow.name)
  | .listFlows tenant => do
    readyFlows address
    let (_, tables) ← onSite (current configured)
    return listUnder (Identifier.safeName tenant) tables.flows
  | .locateFlow tenant name => Run.pure (location tenant name)
  | .fetchConversation tenant key => do
    readyConversations address
    let (_, tables) ← onSite (current configured)
    return ((tables.conversations.get? (tenant, key)).map (·.document)).filter fun v => !v.isEmpty
  | .putConversation tenant key doc => do
    readyConversations address
    let (connection, tables) ← onSite (current configured)
    let row ← Run.ofExcept id (conversationRow (tables.conversations.get? (tenant, key)) doc)
    onSite (store connection
      { tables with conversations := tables.conversations.set (tenant, key) row })
  | .deleteConversation tenant key => do
    readyConversations address
    let (connection, tables) ← onSite (current configured)
    if tables.conversations.has (tenant, key) then
      onSite (store connection
        { tables with conversations := tables.conversations.erase (tenant, key) })
      return true
    else return false
  | .listConversations tenant => do
    readyConversations address
    let (_, tables) ← onSite (current configured)
    return listUnder (Identifier.safeName tenant) tables.conversations

/-- Puts a document where a flow lies, as it is, in a row of version one. -/
def placeFlow (address configured : Value) (tenant name doc : Value) :
    Run (Traced State) Unit := do
  readyFlows address
  let (connection, tables) ← onSite (current configured)
  let row : FlowRow := { document := doc }
  onSite (store connection { tables with flows := tables.flows.set (flowKey tenant name) row })

end Table

end Dialogue.Store
