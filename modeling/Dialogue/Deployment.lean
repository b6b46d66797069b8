import Dialogue.Store.Directory
import Dialogue.Store.Memory
import Dialogue.Store.Table

/-!
# A deployment

A deployment is an installation at work: its settings, the time, the files that last, the connection
to the database, the stores that were made and the log.  Stores are known by their numbers in the
order in which they were made.  A store for flows and one for conversations make an `Engine`, and
`Deployment.run` runs a program over one.

A store is made from its kind and place (`Deployment.makeStores`).  The stores that were made first
are kept for all who ask later, until they are dropped (`Deployment.openStores`); who asks for
stores without saying which gets those that are kept, or those that the settings describe
(`Deployment.openEngine`).
-/

namespace Dialogue

open Store

/-- A store, of one of three kinds.  One in a database knows the address that it was made with, and
whether the tables are there. -/
inductive Backend where
  | memory (documents : Memory)
  | directory (dir : Path)
  | table (address : Value) (flowsReady conversationsReady : Bool)

/-- The kinds of stores. -/
inductive Backend.Kind where
  | memory
  | directory
  | table
  deriving DecidableEq, Repr

/-- The kind of a store. -/
def Backend.kind : Backend → Backend.Kind
  | .memory _ => .memory
  | .directory _ => .directory
  | .table _ _ _ => .table

/-- What a store is made from: the name of its kind, the directory for files and the address of a
database. -/
structure Backend.Request where
  backend : Value := .str "memory"
  dir : Value := .str "./data"
  address : Value := .null

/-- The store for flows and the store for conversations, by their numbers. -/
structure Engine where
  flows : Nat := 0
  conversations : Nat := 0
  deriving DecidableEq, Repr

/-- An installation at work.  `flows` and `conversations` are the stores that are kept, and `engine`
is the one in use. -/
structure Deployment where
  clock : String
  settings : Settings := Settings.shipped
  files : Files := []
  connection : Option Database.Connection := none
  stores : List Backend := []
  flows : Option Nat := none
  conversations : Option Nat := none
  engine : Engine := {}
  events : List Event := []

namespace Deployment

/-- Adds an event to the log. -/
def log (e : Event) (d : Deployment) : Deployment := { d with events := e :: d.events }

/-- The store of a number; there is an empty one in memory for a number without a store. -/
def store (d : Deployment) (n : Nat) : Backend := d.stores[n]?.getD (.memory {})

/-- Replaces the store of a number. -/
def setStore (n : Nat) (b : Backend) (d : Deployment) : Deployment :=
  { d with stores := d.stores.set n b }

/-- The address that a store was made with, or the one in the settings when it was made without. -/
def addressOr (d : Deployment) (address : Value) : Value :=
  address.orElse d.settings.database.url

/-- Runs over the documents in memory that a store has. -/
def onMemory {α : Type} (n : Nat) (documents : Memory) (m : Run (Traced Memory) α) :
    Run Deployment α :=
  Run.zoom (fun d => ⟨documents, d.events⟩)
    (fun t d => { d.setStore n (.memory t.state) with events := t.events }) m

/-- Runs over the files. -/
def onFiles {α : Type} (m : Run (Traced Files) α) : Run Deployment α :=
  Run.zoom (fun d => ⟨d.files, d.events⟩)
    (fun t d => { d with files := t.state, events := t.events }) m

/-- Runs over the files and the connection. -/
def onSite {α : Type} (m : Run (Traced Database.Site) α) : Run Deployment α :=
  Run.zoom (fun d => ⟨⟨d.files, d.connection⟩, d.events⟩)
    (fun t d => { d with
      files := t.state.files, connection := t.state.connection, events := t.events }) m

/-- Runs over what a store in a database works on. -/
def onTable {α : Type} (n : Nat) (address : Value) (flowsReady conversationsReady : Bool)
    (m : Run (Traced Table.State) α) : Run Deployment α :=
  Run.zoom (fun d => ⟨⟨⟨d.files, d.connection⟩, flowsReady, conversationsReady⟩, d.events⟩)
    (fun t d => { d.setStore n (.table address t.state.flowsReady t.state.conversationsReady) with
      files := t.state.site.files, connection := t.state.site.connection, events := t.events }) m

/-- An access to the store of a number. -/
def accessStore (n : Nat) (a : Access) : Run Deployment a.Answer := fun d =>
  match d.store n with
  | .memory documents => onMemory n documents (Memory.access d.clock a) d
  | .directory dir => onFiles (Directory.access d.clock dir a) d
  | .table address flowsReady conversationsReady =>
    onTable n address flowsReady conversationsReady
      (Table.access d.clock (d.addressOr address) d.settings.database.url a) d

/-- An access to the stores of an engine. -/
def access (e : Engine) (a : Access) : Run Deployment a.Answer :=
  accessStore (if a.isAboutFlows then e.flows else e.conversations) a

/-- Runs a program over the stores of an engine. -/
def run {α : Type} (e : Engine) (p : Program α) : Run Deployment α := p.run (access e) log

/-- Puts a document where a flow lies, as it is. -/
def placeFlow (e : Engine) (tenant name doc : Value) : Run Deployment Unit := fun d =>
  match d.store e.flows with
  | .memory documents =>
    onMemory e.flows documents
      (Run.write fun m => { m with flows := m.flows.set (flowKey tenant name) doc }) d
  | .directory dir => onFiles (Directory.writeJson (Directory.flowPath dir tenant name) doc) d
  | .table address flowsReady conversationsReady =>
    onTable e.flows address flowsReady conversationsReady
      (Table.placeFlow (d.addressOr address) d.settings.database.url tenant name doc) d

/-! ## Making stores -/

/-- Adds a store; its number is the answer. -/
def addStore (b : Backend) : Run Deployment Nat := fun d =>
  (.ok d.stores.length, { d with stores := d.stores ++ [b] })

/-- Logs an event. -/
def note (e : Event) : Run Deployment Unit := Run.modify (log e)

/-- Keeps a store for flows. -/
def keepFlows (n : Nat) : Run Deployment Unit := Run.modify fun d => { d with flows := some n }

/-- Keeps a store for conversations. -/
def keepConversations (n : Nat) : Run Deployment Unit :=
  Run.modify fun d => { d with conversations := some n }

/-- Makes a store in memory and keeps it. -/
def makeMemory : Run Deployment Engine := do
  let n ← addStore (.memory {})
  keepFlows n
  note .memoryFlowsReady
  keepConversations n
  note .memoryConversationsReady
  note (.storeCreated "memory" none)
  return ⟨n, n⟩

/-- Makes a store in the files of a directory and keeps it.  The directory of the conversations may
fail to be made after the store for flows is kept. -/
def makeDirectory (dir : Value) : Run Deployment Engine := do
  match dir with
  | .str s =>
    let path := Path.ofText s
    onFiles (Directory.openFlows path)
    let n ← addStore (.directory path)
    keepFlows n
    onFiles (Directory.openConversations path)
    keepConversations n
    note (.storeCreated "file" (some dir))
    return ⟨n, n⟩
  | _ => Run.fail .notPath

/-- Makes a store in a database and keeps it. -/
def makeTable (address : Value) : Run Deployment Engine := do
  let n ← addStore (.table address false false)
  keepFlows n
  keepConversations n
  note (.storeCreated "sql" none)
  return ⟨n, n⟩

/-- Makes the stores that a request describes and keeps them; a kind that is unknown means memory.
-/
def makeStores (r : Backend.Request) : Run Deployment Engine := do
  match r.backend with
  | .str "sql" => makeTable r.address
  | .str "file" => makeDirectory r.dir
  | .str "memory" => makeMemory
  | other =>
    note (.storeUnknown other)
    makeMemory

/-- The stores that are kept, or those that a request describes where one of the two is missing. -/
def openStores (r : Backend.Request) : Run Deployment Engine := fun d =>
  match d.flows, d.conversations with
  | some flows, some conversations => (.ok ⟨flows, conversations⟩, d)
  | _, _ => makeStores r d

/-- The request that the settings make. -/
def configured (d : Deployment) : Backend.Request :=
  { backend := d.settings.database.storeBackend
    dir := d.settings.database.storeFileDir
    address := d.settings.database.url }

/-- The store for flows that is kept, or that of the settings. -/
def openFlows : Run Deployment Nat := fun d =>
  match d.flows with
  | some n => (.ok n, d)
  | none => Run.bind (openStores d.configured) (fun e => Run.pure e.flows) d

/-- The store for conversations that is kept, or that of the settings. -/
def openConversations : Run Deployment Nat := fun d =>
  match d.conversations with
  | some n => (.ok n, d)
  | none => Run.bind (openStores d.configured) (fun e => Run.pure e.conversations) d

/-- The engine of the stores that are kept, or of those of the settings. -/
def openEngine : Run Deployment Engine := do
  let flows ← openFlows
  let conversations ← openConversations
  return ⟨flows, conversations⟩

/-- Drops the stores that are kept. -/
def dropStores : Run Deployment Unit :=
  Run.modify fun d => { d with flows := none, conversations := none }

/-- Closes the connection to the database, if one is open. -/
def closeDatabase : Run Deployment Unit := onSite Database.disconnect

/-- Puts the engine to use that is opened. -/
def start (opening : Run Deployment Engine) : Run Deployment Unit := do
  let e ← opening
  Run.modify fun d => { d with engine := e }

/-- Starts over: the connection is closed, the stores are dropped and an engine is opened anew. -/
def restart (opening : Run Deployment Engine) : Run Deployment Unit := do
  closeDatabase
  dropStores
  start opening

end Deployment

end Dialogue
