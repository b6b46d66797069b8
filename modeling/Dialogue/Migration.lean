import Dialogue.Deployment

/-!
# Preparing the database

An operator can make the tables of the database before anything uses it, or ask which are missing.
Either way the settings are read afresh, and the connection is closed at the end.
-/

namespace Dialogue.Migration

open Database

/-- What a migration reports: the exit code and the text. -/
structure Report where
  code : Nat
  text : String
  deriving Repr, DecidableEq

/-- Lines of text, each with its end. -/
def lines (ls : List String) : String := String.join (ls.map fun l => l ++ "\n")

/-- The names of the tables with commas between them. -/
def tableNames : String := String.intercalate ", " Tables.names

/-- Makes the tables behind a connection, or with `check` reports on them. -/
def prepare (check : Bool) (address : Value) (connection : Connection) :
    Run (Traced Site) Report := do
  let header := "sqlite: " ++ connection.shown
  if check then
    if (← tables? connection).isSome then
      return ⟨0, lines [header, "All tables present: " ++ tableNames ++ " ✓"]⟩
    else
      return ⟨1, lines [header, "Missing tables: " ++ tableNames,
        "Run without --check to create them."]⟩
  else
    createTables address
    return ⟨0, lines [header, "Tables ready: " ++ tableNames ++ " ✓"]⟩

/-- Runs a migration under settings that are read by `load`.  The connection is closed even where
the tables could not be looked at. -/
def run (check : Bool) (load : Files → Except Failure Settings) : Run Deployment Report := do
  let settings ← Run.ofExcept id (load (← Run.get).files)
  Run.modify fun d => { d with settings }
  let address := settings.database.url
  let connection ← Deployment.onSite (connect address)
  (Deployment.onSite (prepare check address connection)).andThen Deployment.closeDatabase

end Dialogue.Migration
