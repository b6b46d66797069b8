import Dialogue.Value.Key

/-!
# Settings

What an installation decides: where data is stored, which flow answers which message, how many
conditions may pass in one turn and what is logged.  Entries whose kind nothing here depends on are
kept as the values that were given.
-/

namespace Dialogue

/-- Where data is stored: the kind of store, the directory of the file store and the address of the
database. -/
structure DatabaseSettings where
  url : Value := .str "sqlite:///./flows.db"
  storeBackend : Value := .str "memory"
  storeFileDir : Value := .str "./data"

/-- Which flow answers which message, and the bound on conditions in one turn. -/
structure FlowSettings where
  defaultPreset : Value := .str "lead-qualification"
  maxConditionHops : Int := 100
  active : Value := .str ""
  intentMap : Value.Entries := []

/-- What is logged and how. -/
structure LoggingSettings where
  level : String := "INFO"
  json : Value := .bool false

/-- All settings. -/
structure Settings where
  appName : Value := .str "FlowEngine"
  debug : Bool := false
  activeTenant : Value := .str "default"
  database : DatabaseSettings := {}
  flows : FlowSettings := {}
  logging : LoggingSettings := {}

namespace Settings

/-- The settings of an installation that has no settings file of its own. -/
def shipped : Settings :=
  { database := { storeBackend := .str "file" }
    flows :=
      { active := .str "lead-qualification"
        intentMap := [(.str "lead", .str "lead-qualification")] } }

end Settings

namespace FlowSettings

/-- The flow for a message: the one that its intent is mapped to, otherwise the active one, if any.
None when the intent is a value that cannot be a key. -/
def resolve? (s : FlowSettings) (intent : Value) : Option Value :=
  let fallback := s.active.orElse .null
  if intent.isEmpty then some fallback
  else if intent.isKey then some ((s.intentMap.find? intent).getD fallback)
  else none

end FlowSettings

end Dialogue
