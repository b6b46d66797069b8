import Dialogue.Step.Document
import Dialogue.Text.Quoted

/-!
# Drafting steps

An author describes a step by its kind and a handful of arguments.  `Step.Draft.build` checks the
description and gives the document of the step; `Step.Draft.Fault` says why a description is
refused.

Arguments come as values: texts where people type them, integers for targets.  An argument that
counts as absent is not given; an argument of the wrong kind is a fault of its own.
-/

namespace Dialogue.Step

/-- The description of a step. -/
structure Draft where
  kind : Value
  text : Value := .null
  field : Value := .null
  condition : Value := .null
  thenTarget : Value := .null
  elseTarget : Value := .null
  reason : Value := .null

namespace Draft

/-- Why a description is refused. -/
inductive Fault where
  | unknownKind (kind : Value)
  | noField
  | noText
  | noCondition
  | notText
  | notTarget
  | unreadableTarget (text : String)
  | nanTarget
  | infiniteTarget
  deriving Repr

/-- The wording of a fault. -/
def Fault.message : Fault → String
  | .unknownKind kind => "Unknown step type '" ++ kind.display ++ "'. Use one of: " ++
    String.intercalate ", " (Kind.all.map (·.tag)) ++ "."
  | .noField => "--field is required for question steps."
  | .noText => "--text is required for reply/end steps."
  | .noCondition => "--if is required for condition steps."
  | .notText => ""
  | .notTarget => ""
  | .unreadableTarget text => Text.notIntegerMessage 10 text
  | .nanTarget => "cannot convert float NaN to integer"
  | .infiniteTarget => "cannot convert float infinity to integer"

/-- The kind that a description names. -/
def kind? (v : Value) : Option Kind := v.text?.bind Kind.ofTag?

/-- An argument that must be a text with something in it, without white space around it. -/
def needText (v : Value) (missing : Fault) : Except Fault String :=
  if v.isEmpty then .error missing
  else
    match v with
    | .str s => if Text.isBlankText s then .error missing else .ok (Text.strip s)
    | _ => .error .notText

/-- A target as an integer: fractional parts are cut off, texts may use digits of any script. -/
def toTarget : Value → Except Fault Int
  | .int n => .ok n
  | .bool b => .ok (if b then 1 else 0)
  | .double d =>
    if d.isNaN then .error .nanTarget
    else
      match d.truncate? with
      | some n => .ok n
      | none => .error .infiniteTarget
  | .str s =>
    match Text.integer? s with
    | some n => .ok n
    | none => .error (.unreadableTarget s)
  | _ => .error .notTarget

/-- The entry for a target that is given. -/
def targetEntry (key : String) (v : Value) : Except Fault Fields :=
  if v.isNull then .ok [] else (toTarget v).map fun n => [(key, .int n)]

/-- The document of the step that is described. -/
def build (d : Draft) : Except Fault Fields :=
  match kind? d.kind with
  | none => .error (.unknownKind d.kind)
  | some kind =>
    let head : Fields := [("id", .str freshId), ("type", .str kind.tag)] ++
      (if d.text.isEmpty then [] else [("text", d.text)])
    match kind with
    | .question => do
      let field ← needText d.field .noField
      let asked := if d.text.isEmpty then [("text", Value.str ("Please share " ++ field ++ "."))]
        else []
      return head ++ [("field", .str field)] ++ asked
    | .reply | .finish => if d.text.isEmpty then .error .noText else .ok head
    | .condition => do
      let condition ← needText d.condition .noCondition
      let thenEntry ← targetEntry "thenStepIndex" d.thenTarget
      let elseEntry ← targetEntry "elseStepIndex" d.elseTarget
      return head ++ [("if", .str condition)] ++ thenEntry ++ elseEntry
    | .handoff => .ok (head ++ [("reason", d.reason.orElse (.str "handoff"))])

end Draft

end Dialogue.Step
