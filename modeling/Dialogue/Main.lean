import Dialogue.Command.Run
import Dialogue.Moment
import Std.Time.DateTime.Timestamp

/-!
# The command line program

`main` reads the files that a command may touch, carries the command out (`Command.run`), writes the
files that changed and prints the answer.  What is logged goes to the standard error stream.
-/

namespace Dialogue

/-- The content of a file. -/
def contentOfBytes (bytes : ByteArray) : Content :=
  match String.fromUTF8? bytes with
  | some s => .text s
  | none => .binary bytes

/-- The files together with what lies at a path. -/
def readPath (path : String) (files : Files) : IO Files := do
  let here ← IO.currentDir
  if ← (here / path).isDir then
    return (Files.ensureDirectories (.ofText path) files).2
  else if ← (here / path).pathExists then
    let content := contentOfBytes (← IO.FS.readBinFile path)
    return (Files.writeBelow (.ofText path) content files).2
  else return files

/-- The files together with a directory and all that lies below it. -/
partial def readTree (dir : String) (files : Files) : IO Files := do
  let here ← IO.currentDir
  if !(← (here / dir).isDir) then return files
  let mut found ← readPath dir files
  for entry in ← (here / dir).readDir do
    let path := dir ++ "/" ++ entry.fileName
    if ← entry.path.isDir then found ← readTree path found
    else found ← readPath path found
  return found

/-- Makes what is new and writes what changed. -/
def writeChanges (before after : Files) : IO Unit := do
  for (place, node) in after do
    let path := String.intercalate "/" place
    match node, before.get? place with
    | .directory, none => IO.FS.createDirAll path
    | .file (.text s), some (.file (.text t)) => if s != t then IO.FS.writeFile path s
    | .file (.text s), _ => IO.FS.writeFile path s
    | _, _ => pure ()

/-- The variables of the environment that a text refers to. -/
def readEnvironment (text : String) : IO Settings.Environment := do
  let mut env : Settings.Environment := []
  for name in Settings.references text.toList do
    match ← IO.getEnv name with
    | some v => env := env.set name v
    | none => pure ()
  return env

/-- The line of the log for an event. -/
def logLine (e : Event) : String :=
  Json.compact (.dict (e.fields ++ [("event", .str e.name), ("level", .str e.level.name)]))

/-- Carries out a command line that was read. -/
def carryOut (inv : Command.Invocation) : IO UInt32 := do
  let config ← match inv.config with
    | .str path => if path.isEmpty then IO.getEnv "FLOWS_CONFIG" else pure (some path)
    | _ => IO.getEnv "FLOWS_CONFIG"
  let inv := { inv with config := .ofOption config }
  let files ← match config with
    | some path => readPath path []
    | none => pure []
  let text := match config.map fun path => files.content? (.ofText path) with
    | some (.ok (some (.text s))) => s
    | _ => ""
  let env ← readEnvironment text
  let settings := (Command.settingsOf env inv files).toOption.getD {}
  let files ← readTree settings.database.storeFileDir.display files
  let now ← Std.Time.Timestamp.now
  let start : Deployment := { clock := Clock.text now.toSecondsSinceUnixEpoch.val.toNat, files }
  let (result, finish) := Command.run env inv start
  writeChanges files finish.files
  for e in Logging.logged finish.settings finish.events.reverse do
    IO.eprintln (logLine e)
  match result with
  | .ok r =>
    IO.print r.output
    return UInt32.ofNat r.code
  | .error f =>
    IO.eprintln f.message
    return 1

end Dialogue

/-- The command line program. -/
def main (args : List String) : IO UInt32 := do
  match Dialogue.Command.Invocation.parse args with
  | .ok inv => Dialogue.carryOut inv
  | .error stop =>
    IO.eprintln "usage: [--tenant NAME] [--config PATH] [--json] COMMAND ..."
    return UInt32.ofNat stop.status
