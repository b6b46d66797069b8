import Dialogue.Flow.Document
import Dialogue.Identifier
import Dialogue.Schema.Issue

/-!
# Built-in flows

A preset is a flow that can be made under any name.  `leadQualification` greets, collects name,
requirement, location and budget, passes a great budget to a person and otherwise asks for the
timeline and ends with a summary.
-/

namespace Dialogue

/-- The built-in flows. -/
inductive Preset where
  | leadQualification
  deriving DecidableEq, Repr

namespace Preset

/-- The name of a preset. -/
def name : Preset → String
  | .leadQualification => "lead-qualification"

/-- The preset of a name. -/
def ofName? (s : String) : Option Preset :=
  if s = leadQualification.name then some .leadQualification else none

/-- A step that is made here. -/
def step (action : Step.Action) : Entry := .step { id := Step.freshId, action := action }

/-- A placeholder for a field. -/
def field (name : String) : String := "\x7b\x7b" ++ name ++ "\x7d\x7d"

/-- The steps of a preset. -/
def steps : Preset → List Entry
  | .leadQualification =>
    [step (.reply "Thanks for contacting us. I will ask a few quick questions to help you."),
     step (.question "name" "What is your name?"),
     step (.question "requirement" "What are you looking for?"),
     step (.question "location" "Which area/location?"),
     step (.question "budget" "What is your budget range?"),
     step (.condition (some "budget >= 10L") (some 6) (some 7)),
     step (.handoff "high_budget" (some ("Thanks " ++ field "name" ++
       ". Noted. Our senior advisor will contact you shortly."))),
     step (.question "timeline" "When do you want to proceed?"),
     step (.finish (some ("Thanks " ++ field "name" ++ ". Noted: " ++
       field "requirement" ++ " in " ++
       field "location" ++ ", budget " ++ field "budget" ++ ", timeline " ++ field "timeline" ++
       ". Our team will get back shortly.")))]

end Preset

namespace Flow

/-- A flow of the given steps under a name, made now.  A name that is empty gives way to the
identifier. -/
def make (now name : String) (steps : List Entry) : Flow :=
  let id := Identifier.safeName (.str name)
  { id := id, name := if name.isEmpty then id else name, createdAt := now, steps := steps }

/-- A flow made from a preset. -/
def ofPreset (now : String) (preset : Preset) (name : String) : Flow := make now name preset.steps

/-- A flow without steps. -/
def blank (now name : String) : Flow := make now name []

/-- A flow made from the preset of the given name, without steps when none is named; nothing when
the name is of no preset. -/
def build? (now : String) (preset : Value) (name : String) : Option Flow :=
  if preset.isEmpty then some (blank now name)
  else (preset.text?.bind Preset.ofName?).map fun p => ofPreset now p name

/-- A flow made from a preset under a name that is given as a value; a name that counts as absent
gives way to the identifier. -/
def ofPresetNamed (now : String) (preset : Preset) (name : Value) : Except Schema.Mismatch Flow :=
  match name with
  | .str s => .ok (ofPreset now preset s)
  | v =>
    if v.isEmpty then .ok (ofPreset now preset "")
    else .error ⟨"Flow", [⟨["name"], .notText, v⟩]⟩

end Flow

end Dialogue
