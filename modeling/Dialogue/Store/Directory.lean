import Dialogue.Files.Change
import Dialogue.Flow.Document
import Dialogue.Identifier
import Dialogue.Json.Printer
import Dialogue.Json.Reader
import Dialogue.Store.Program

/-!
# The store in files

Every flow of a tenant is a JSON file of its own, `<dir>/<tenant>/flows/<flow>.json`.  All
conversations of a tenant lie in one JSON file, `<dir>/state/<tenant>.json`, an object from
counterparties to conversations that is read, changed and written as a whole.  A file that cannot be
read is reported and counts as absent.

A file is written under a name of its own first and then takes the place of the old one, so the name
that it is written under has to be one that a file can have, too.
-/

namespace Dialogue.Store

namespace Directory

/-- The length by which the name of a file in the making exceeds that of the file. -/
def scratchLength : Nat := 8

/-- The directory of the flows of a tenant. -/
def flowsPath (dir : Path) (tenant : Value) : Path :=
  dir.below [Identifier.safeName tenant, "flows"]

/-- The file of a flow. -/
def flowPath (dir : Path) (tenant name : Value) : Path :=
  (flowsPath dir tenant).below [Identifier.safeName name ++ ".json"]

/-- The directory of the conversations. -/
def stateDirectory (dir : Path) : Path := dir.below ["state"]

/-- The file of the conversations of a tenant. -/
def statePath (dir : Path) (tenant : String) : Path :=
  (stateDirectory dir).below [Identifier.safeName (.str tenant) ++ ".json"]

/-- What a look at a file finds. -/
inductive Reading where
  | absent
  | value (v : Value)
  | unreadable

/-- Reads a JSON file.  A directory of that name, and a name that no file can have, are failures. -/
def readJson (path : Path) : Run (Traced Files) Reading := do
  let files ← Run.read
  match ← Run.ofExcept .files (files.content? path) with
  | none => return .absent
  | some (.text s) =>
    match Json.read s with
    | .ok v => return .value v
    | .error _ => return .unreadable
  | some _ => return .unreadable

/-- Whether the file in the making has a name that is too long, by itself or as a path. -/
def isTooLong (path : Path) : Bool :=
  Files.maxName < path.name.utf8ByteSize + scratchLength ||
    Files.maxPath ≤ path.text.utf8ByteSize + scratchLength

/-- Makes the directory that a file goes to, where a name for the file in the making has to be free.
-/
def prepare (path : Path) : Run Files Unit := do
  Files.ensureDirectories path.parent
  if isTooLong path then Run.fail (.files .nameTooLong)

/-- Writes a JSON file. -/
def writeJson (path : Path) (v : Value) : Run (Traced Files) Unit :=
  Run.silently do
    prepare path
    Files.apply fun files => files.write path (.text (Json.pretty v))

/-- Writes a JSON file unless something lies there; answers whether it was written. -/
def createJson (path : Path) (v : Value) : Run (Traced Files) Bool :=
  Run.silently do
    prepare path
    match (← Run.get).find? path with
    | .ok none =>
      Files.apply fun files => files.write path (.text (Json.pretty v))
      return true
    | _ => return false

/-- The conversations of a tenant; nothing where the file is absent, unreadable or no object. -/
def readState (dir : Path) (tenant : String) : Run (Traced Files) Fields := do
  match ← readJson (statePath dir tenant) with
  | .absent => return []
  | .unreadable =>
    Run.note (.stateFileUnreadable (statePath dir tenant).text)
    return []
  | .value (.dict fields) => return fields
  | .value _ => return []

/-- The name of a flow file without its ending; none for other names. -/
def flowOfFile? (name : String) : Option String :=
  let cs := name.toList
  if ".json".toList.isSuffixOf cs then
    if cs.length = 5 then some name else some (String.ofList (cs.take (cs.length - 5)))
  else none

/-- Makes the directory of flows, unless it is there. -/
def openFlows (dir : Path) : Run (Traced Files) Unit := do
  Run.silently (Files.ensureDirectories dir)
  Run.note (.fileFlowsReady dir.text)

/-- Makes the directory of conversations, unless it is there. -/
def openConversations (dir : Path) : Run (Traced Files) Unit := do
  Run.silently (Files.ensureDirectories (stateDirectory dir))
  Run.note (.fileConversationsReady (stateDirectory dir).text)

/-- Accesses to the store in the files of a directory; `now` is the time that documents without one
are given. -/
def access (now : String) (dir : Path) : (a : Access) → Run (Traced Files) a.Answer
  | .loadFlow tenant name => do
    let path := flowPath dir tenant name
    let unreadable : Run (Traced Files) (Option Flow) := do
      Run.note (.flowFileUnreadable path.text)
      return none
    match ← readJson path with
    | .absent => return none
    | .unreadable => unreadable
    | .value v =>
      match Flow.ofValue now v with
      | .ok flow => return some flow
      | .error _ => unreadable
  | .createFlow tenant flow =>
    createJson (flowPath dir tenant (.str flow.name)) (.dict flow.document)
  | .writeFlow tenant flow => do
    let path := flowPath dir tenant (.str flow.name)
    writeJson path (.dict flow.document)
    return path.text
  | .listFlows tenant => do
    let names ← Run.ofExcept .files ((← Run.read).names (flowsPath dir tenant))
    return sortTexts (names.filterMap flowOfFile?)
  | .locateFlow tenant name => Run.pure (flowPath dir tenant name).text
  | .fetchConversation tenant key => do
    match Fields.get? (← readState dir tenant) key with
    | some (.dict fields) => return some (.dict fields)
    | _ => return none
  | .putConversation tenant key doc => do
    let state ← readState dir tenant
    writeJson (statePath dir tenant) (.dict (Fields.set state key doc))
  | .deleteConversation tenant key => do
    let state ← readState dir tenant
    if Fields.has state key then
      writeJson (statePath dir tenant) (.dict (state.erase key))
      return true
    else return false
  | .listConversations tenant => do
    return sortTexts (Keyed.keys (← readState dir (Identifier.safeName tenant)))

end Directory

end Dialogue.Store
