import Dialogue.Database.Address
import Dialogue.Files.Change

/-!
# The connection to a database

A connection is opened when it is first needed and serves everything after it, until it is closed.
What lies in a file lasts; what lies in memory lasts as long as the connection.  Opening a file that
is missing makes an empty one, in which there are no tables as yet.
-/

namespace Dialogue.Database

/-- An open connection: the address as it may be shown, where the database lies, and the tables of a
database in memory. -/
structure Connection where
  shown : String
  location : Location
  tables : Option Tables := none

/-- What databases work on: the files, and the connection if one is open. -/
structure Site where
  files : Files
  connection : Option Connection := none

/-- The failure for a fault of a database. -/
def failed {σ α : Type} (fault : Fault) : Run σ α := Run.fail (.database fault)

/-- The connection to the database of an address. -/
def Connection.ofAddress (address : Value) : Except Fault Connection := do
  match address with
  | .str s =>
    let a ← Address.parse (driverAddress s)
    let location ← a.location?
    return { shown := a.shown, location }
  | _ => .error .notAddress

/-- The connection that is open, opened to the given address if there is none. -/
def connect (address : Value) : Run (Traced Site) Connection := do
  match (← Run.read).connection with
  | some connection => return connection
  | none =>
    let connection ← Run.ofExcept .database (Connection.ofAddress address)
    Run.write fun site => { site with connection := some connection }
    Run.note (.connectionOpened "sqlite" connection.shown)
    return connection

/-- Closes the connection if one is open. -/
def disconnect : Run (Traced Site) Unit := do
  if (← Run.read).connection.isSome then
    Run.write fun site => { site with connection := none }
    Run.note .connectionClosed

/-- The tables in a file, none where they were not made.  A file that is missing is made. -/
def fileTables (path : Path) (makes : Bool) : Run Files (Option Tables) := do
  let files ← Run.get
  match files.place path with
  | .error .nulCharacter => Run.fail (.files .nulCharacter)
  | .error _ => failed .cannotOpen
  | .ok place =>
    match files.node? place with
    | some (.file (.database tables)) => return some tables
    | some (.file (.text s)) => if s.isEmpty then return none else failed .notDatabase
    | some (.file (.binary _)) => failed .notDatabase
    | some .directory => failed .cannotOpen
    | none =>
      if makes then
        Files.apply fun files => files.write path (.text "")
        return none
      else failed .cannotOpen

/-- Runs over the files. -/
def onFiles {α : Type} (m : Run Files α) : Run (Traced Site) α :=
  Run.silently (Run.zoom (·.files) (fun files site => { site with files }) m)

/-- The tables behind the connection, none where they were not made. -/
def tables? (connection : Connection) : Run (Traced Site) (Option Tables) :=
  match connection.location with
  | .memory => do
    return (← Run.read).connection.bind (·.tables)
  | .file path makes => onFiles (fileTables path makes)
  | .nowhere => failed .cannotOpen

/-- Replaces the tables behind the connection. -/
def store (connection : Connection) (tables : Tables) : Run (Traced Site) Unit :=
  match connection.location with
  | .memory =>
    Run.write fun site =>
      { site with connection := site.connection.map fun c => { c with tables := some tables } }
  | .file path _ => onFiles (Files.apply fun files => files.write path (.database tables))
  | .nowhere => failed .cannotOpen

/-- Makes the tables behind the connection where they are missing. -/
def createTables (address : Value) : Run (Traced Site) Unit := do
  let connection ← connect address
  if (← tables? connection).isNone then store connection {}
  Run.note (.schemaReady "sqlite" Tables.names)

/-- The connection and the tables behind it.  There is a failure where they were never made. -/
def current (address : Value) : Run (Traced Site) (Connection × Tables) := do
  let connection ← connect address
  match ← tables? connection with
  | some tables => return (connection, tables)
  | none => failed .tableMissing

end Dialogue.Database
