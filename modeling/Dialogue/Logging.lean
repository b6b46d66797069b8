import Dialogue.Event
import Dialogue.Settings.Basic

/-!
# What is logged

The settings name the level from which on events are logged; a name that is unknown counts as
information.  Two names belong to the layout of log lines and not to a level, so no log can be set
up with them.
-/

namespace Dialogue.Logging

/-- Why no log can be set up: the name stands for a text, or for something that is no text either.
-/
inductive Fault where
  | text (s : String)
  | notLevel
  deriving DecidableEq, Repr

/-- The wording of a fault: the text that the name stands for. -/
def Fault.message : Fault → String
  | .text s => s
  | .notLevel => ""

/-- The ranks that have names. -/
def ranks : List (String × Nat) :=
  [("NOTSET", 0), ("DEBUG", 10), ("INFO", 20), ("WARN", 30), ("WARNING", 30), ("ERROR", 40),
   ("CRITICAL", 50), ("FATAL", 50)]

/-- The rank of a level by its name. -/
def rankOf? (name : String) : Except Fault Nat :=
  if name = "BASIC_FORMAT" then .error (.text "%(levelname)s:%(name)s:%(message)s")
  else if name = "_STYLES" then .error .notLevel
  else .ok ((ranks.lookup name).getD 20)

/-- The rank that an event must have to be logged. -/
def threshold (settings : Settings) : Except Fault Nat :=
  if settings.debug then .ok 10 else rankOf? settings.logging.level

/-- The events that are logged under the settings, in their order. -/
def logged (settings : Settings) (events : List Event) : List Event :=
  match threshold settings with
  | .ok rank => events.filter fun e => rank ≤ e.level.rank
  | .error _ => []

end Dialogue.Logging
