import Dialogue.Database.Address
import Dialogue.Files.Basic
import Dialogue.Logging
import Dialogue.Schema.Issue
import Dialogue.Service.Message
import Dialogue.Settings.Load
import Dialogue.Step.Draft
import Dialogue.Yaml.Cursor

/-!
# Why an operation fails

A `Failure` is the cause for which an operation gives no answer.  Its `kind` says who has to act:
the caller asked for a flow that is not there, described something that cannot be made, gave a
value that does not fit, or met a fault that no caller can mend.

Two limits are idealised, so that what runs into them is not among the causes.  Recursion may be of
any depth: `Json.read` and the printers follow every nested document, and `Flow.cycles` every chain
of silent steps, where a machine may give up after about a thousand.  Numerals may be of any length:
`Step.targetOfText?`, `Text.integer?` and `Json.read` read integers of more than 4300 digits, too.
-/

namespace Dialogue

/-- Why an operation fails. -/
inductive Failure where
  | draft (fault : Step.Draft.Fault)
  | nameRequired
  | unknownPreset (preset : Value)
  | flowNotFound (name : Value)
  | flowUnavailable (name : Value)
  | flowUnnamed
  | invalid (mismatch : Schema.Mismatch)
  | noDigits (counterparty : Value)
  | settings (fault : Settings.Fault)
  | yaml (fault : Yaml.Fault)
  | logging (fault : Logging.Fault)
  | files (fault : Files.Fault)
  | database (fault : Database.Fault)
  | notText
  | notHashable
  | notDocument
  | notPath
  | request (fault : Service.Refusal)
  | encoding (fault : Text.EncodingFault)

/-- Who has to act on a failure. -/
inductive Failure.Kind where
  | notFound
  | authoring
  | value
  | other
  deriving DecidableEq, Repr

namespace Failure

/-- Who has to act on a fault of a step's description. -/
def draftKind : Step.Draft.Fault → Kind
  | .unknownKind _ | .noField | .noText | .noCondition => .authoring
  | .unreadableTarget _ | .nanTarget => .value
  | .notText | .notTarget | .infiniteTarget => .other

/-- Who has to act on a failure. -/
def kind : Failure → Kind
  | .draft fault => draftKind fault
  | .nameRequired => .authoring
  | .unknownPreset _ => .authoring
  | .flowNotFound _ => .notFound
  | .flowUnnamed => .value
  | .invalid _ => .value
  | .noDigits _ => .value
  | .settings (.hops reason) => draftKind reason
  | .settings (.pairSize _ _) => .value
  | .yaml (.range _) => .value
  | .files .nulCharacter => .value
  | .database fault => if fault.isValue then .value else .other
  | .request .numberNotFinite => .value
  | .request (.encoding _) => .value
  | .encoding _ => .value
  | _ => .other

/-- The wording of a failure; faults that no caller can mend have none. -/
def message : Failure → String
  | .draft fault => fault.message
  | .nameRequired => "Flow name is required."
  | .unknownPreset preset => "Unknown preset: " ++ preset.display
  | .flowNotFound name => "Flow not found: " ++ name.display
  | .flowUnavailable name => "Flow not found: " ++ name.display
  | .flowUnnamed => "Flow missing name."
  | .invalid mismatch => mismatch.report
  | .noDigits counterparty => "Counterparty id has no digits: " ++ counterparty.literal
  | .settings fault => fault.message
  | .yaml fault => fault.message
  | .logging fault => fault.message
  | .files fault => fault.message
  | .database fault => fault.message
  | .request fault => fault.message
  | .encoding fault => fault.message
  | _ => ""

end Failure

end Dialogue
