import Dialogue.Authoring
import Dialogue.Command.Arguments
import Dialogue.Deployment
import Dialogue.Engine.Inbound
import Dialogue.Json.Printer
import Dialogue.Logging
import Dialogue.Settings.File

/-!
# Carrying out commands

A command answers with a text for people, or with an object when `--json` is given, and with an exit
code: 0 where all is well, 1 where a flow has problems, a turn did not go well or the command was
refused.  A failure that no caller can mend ends the command without an answer.

Objects are printed in ASCII.  A text is printed as it is, and that fails where it holds half a
surrogate pair: the command is refused then, and if the refusal itself cannot be printed, the
command ends without an answer.

`Command.run` starts with stores made from the settings, so what is in memory lasts no longer than
the command.
-/

namespace Dialogue.Command

open Program

/-- The answer of a command: its exit code, its object and its text. -/
structure Answer where
  code : Nat := 0
  object : Fields
  text : String

/-- What a command prints, with its exit code. -/
structure Result where
  code : Nat
  output : String

/-- Prints an answer. -/
def Answer.print (json : Bool) (a : Answer) : Except Failure Result :=
  if json then .ok ⟨a.code, Json.shown (.dict a.object) ++ "\n"⟩
  else
    match Text.encodingFault? a.text with
    | none => .ok ⟨a.code, a.text ++ "\n"⟩
    | some fault => .error (.encoding fault)

/-- An object that starts with success and the tenant. -/
def success (tenant : Value) (fields : Fields) : Fields :=
  ("ok", .bool true) :: ("tenant", tenant) :: fields

/-- The text for the outcome of a turn: the object, and the text to send where there is one. -/
def outcomeText (o : Outcome) : String :=
  Json.shown (.dict o.document) ++
    (match o.message with
     | some text => "\nNext outbound: " ++ text
     | none => "")

/-- What a command does. -/
def program (clock : String) (hops : Int) (tenant : Value) : Action → Program Answer
  | .list => do
    let names ← perform (.listFlows tenant)
    return {
      object := success tenant [("flows", .ofTexts names)]
      text := String.intercalate "\n"
        (("Flows (" ++ tenant.display ++ "): " ++ toString names.length) :: names) }
  | .create name preset blank => do
    let (flow, location) ← Authoring.createFlow clock tenant (.str name)
      (if blank then .null else preset)
    return {
      object := success tenant [("path", .str location), ("flow", .dict flow.document)]
      text := "Flow saved: " ++ location }
  | .addStep flow kind text field condition thenTarget elseTarget reason => do
    let (step, grown) ← Authoring.addStep clock tenant flow
      { kind, text, field, condition, thenTarget, elseTarget, reason }
    return {
      object := success tenant [("step", .dict step), ("version", .int grown.version)]
      text := "Added step to " ++ flow.display ++ ": " ++ (Fields.getD step "type").display ++
        " (" ++ (Fields.getD step "id").display ++ ") at index " ++
        toString ((grown.size : Int) - 1) }
  | .show flow => do
    let found ← Authoring.showFlow tenant flow
    return {
      object := success tenant [("flow", .dict found.document)]
      text := Json.shown (.dict found.document) }
  | .check flow => do
    let problems := (← Authoring.checkFlow tenant flow).map (·.message)
    return {
      code := if problems.isEmpty then 0 else 1
      object := [("ok", .bool problems.isEmpty), ("tenant", tenant),
        ("problems", .ofTexts problems)]
      text := if problems.isEmpty then "No problems found. ✓"
        else String.intercalate "\n" problems }
  | .trial flow sender text => do
    let outcome ← Inbound.handle clock hops
      { tenant, counterparty := sender, text, flow, now := .null }
    return {
      code := if outcome.isOk then 0 else 1
      object := [("ok", .bool true), ("out", .dict outcome.document)]
      text := outcomeText outcome }
  | .reset sender => do
    let removed ← Store.clearConversation tenant sender
    return {
      object := success tenant [("removed", .bool removed)]
      text := if removed then "Conversation cleared." else "No conversation stored." }

/-- The answer to a failure that the caller can mend. -/
def refusal (f : Failure) : Answer :=
  { code := 1
    object := [("ok", .bool false), ("error", .str f.message)]
    text := "Error: " ++ f.message }

/-- The settings that a command line names: those in a file, or those that are shipped. -/
def settingsOf (env : Settings.Environment) (inv : Invocation) (files : Files) :
    Except Failure Settings :=
  match inv.config with
  | .str path =>
    if path.isEmpty then .ok Settings.shipped else Settings.load env (.ofText path) files
  | _ => .ok Settings.shipped

/-- A fresh process: only the files of a deployment last. -/
def fresh (settings : Settings) (d : Deployment) : Deployment :=
  { clock := d.clock, settings, files := d.files, events := d.events }

/-- Makes ready for a command: settings, log and stores. -/
def prepare (env : Settings.Environment) (inv : Invocation) : Run Deployment Settings := do
  let settings ← Run.ofExcept id (settingsOf env inv (← Run.get).files)
  Run.modify (fresh settings)
  let _ ← Run.ofExcept .logging (Logging.threshold settings)
  Deployment.start Deployment.openEngine
  return settings

/-- Prints the answer of a command, or a refusal for a failure that the caller can mend; an answer
that cannot be printed is such a failure. -/
def conclude (json : Bool) (answered : Except Failure Answer) : Except Failure Result :=
  match answered.bind (·.print json) with
  | .ok result => .ok result
  | .error f => if f.kind = .other then .error f else (refusal f).print json

/-- Carries a command out over the stores that are in use. -/
def carryOut (settings : Settings) (inv : Invocation) : Run Deployment Result := fun d =>
  let tenant := inv.tenant.orElse settings.activeTenant
  let p := program d.clock settings.flows.maxConditionHops tenant inv.action
  let (answered, d) := Deployment.run d.engine p d
  (conclude inv.json answered, d)

/-- Carries out a command line in a fresh process.  What fails before the command begins ends it
without an answer. -/
def run (env : Settings.Environment) (inv : Invocation) : Run Deployment Result := do
  let settings ← prepare env inv
  carryOut settings inv

end Dialogue.Command
