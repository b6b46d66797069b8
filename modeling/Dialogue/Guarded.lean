import Dialogue.Authoring
import Dialogue.Identifier
import Dialogue.Keyed

/-!
# Programs that hold locks

Every store has a lock for each tenant, made when it is first asked for and found under the storage
key of the tenant, so that all spellings of a tenant share one.  Who asks for a lock that is held
waits; a lock that was released goes to any of those who wait.

Calls that run side by side keep out of each other's way by locks.  A `Guarded` program is a program
that holds a lock over a part of itself: what writes to a store does so inside of a lock of the
tenant, and what is read or logged before and after needs none.  `Guarded.unlocked` is the program
without its locks, which is what a call does that runs alone.

* Saving a flow looks for the old one and writes the new one inside of the lock
  (`Guarded.saveFlow`).
* A preset is built and created inside of it (`Guarded.ensurePreset`).
* A step is appended inside of it, from the first load to the write (`Guarded.appendStep`).
* A conversation is stored and removed inside of it, each by itself (`Program.guarded`).
-/

namespace Dialogue.Store

/-- The lock of a tenant, known by its storage key, in a store for flows or one for conversations.
-/
inductive Lock where
  | flows (tenant : String)
  | conversations (tenant : String)
  deriving DecidableEq, Repr

/-- The lock of the flows of a tenant. -/
def Lock.ofFlows (tenant : Value) : Lock := .flows (Identifier.safeName tenant)

/-- The locks that were made, each with whether it is held. -/
abbrev Locks := Keyed Lock Bool

namespace Locks

/-- Whether a lock is held. -/
def isHeld (locks : Locks) (l : Lock) : Bool := (locks.get? l).getD false

/-- The locks after one of them was taken; none while it is held. -/
def take? (locks : Locks) (l : Lock) : Option Locks :=
  if locks.isHeld l then none else some (locks.set l true)

/-- The locks after one of them was released. -/
def release (locks : Locks) (l : Lock) : Locks := locks.set l false

variable {locks locks' : Locks} {l other : Lock}

/-- Who takes a lock finds it free and holds it then; the other locks stay as they are. -/
theorem of_take?_eq_some (htaken : locks.take? l = some locks') :
    locks.isHeld l = false ∧ locks'.isHeld l = true ∧
      ∀ other, other ≠ l → locks'.isHeld other = locks.isHeld other := by
  rw [take?] at htaken
  split at htaken
  · cases htaken
  · rename_i hfree
    cases htaken
    refine ⟨by simpa using hfree, by simp [isHeld], fun other hdifferent => ?_⟩
    rw [isHeld, isHeld, Keyed.get?_set_of_ne _ _ hdifferent]

theorem take?_eq_none (held : locks.isHeld l = true) : locks.take? l = none := if_pos held

theorem isHeld_set (locks : Locks) (l other : Lock) (held : Bool) :
    Locks.isHeld (locks.set l held) other = if other = l then held else locks.isHeld other := by
  by_cases hsame : other = l
  · simp [isHeld, hsame]
  · rw [if_neg hsame, isHeld, isHeld, Keyed.get?_set_of_ne _ _ hsame]

@[simp] theorem isHeld_release_self : (locks.release l).isHeld l = false := by
  simp [release, isHeld_set]

theorem isHeld_release_of_ne (hdifferent : other ≠ l) :
    (locks.release l).isHeld other = locks.isHeld other := by
  rw [release, isHeld_set, if_neg hdifferent]

end Locks

end Dialogue.Store

namespace Dialogue

open Store

/-- A program that holds locks over parts of itself. -/
inductive Guarded (α : Type) : Type 1 where
  | done (a : α)
  | fail (f : Failure)
  | log (e : Event) (next : Guarded α)
  | access (a : Access) (next : a.Answer → Guarded α)
  | hold {β : Type} (l : Lock) (inside : Program β) (next : β → Guarded α)

namespace Guarded

variable {α β : Type}

/-- One program after another. -/
def bind : Guarded α → (α → Guarded β) → Guarded β
  | .done a, k => k a
  | .fail f, _ => .fail f
  | .log e next, k => .log e (next.bind k)
  | .access a next, k => .access a fun r => (next r).bind k
  | .hold l inside next, k => .hold l inside fun b => (next b).bind k

/-- The program without its locks. -/
def unlocked : Guarded α → Program α
  | .done a => .done a
  | .fail f => .fail f
  | .log e next => .log e next.unlocked
  | .access a next => .access a fun r => (next r).unlocked
  | .hold _ inside next => inside.bind fun b => (next b).unlocked

/-- Goes on with a result or ends in the failure that stands for it. -/
def ofExcept {ε : Type} (toFailure : ε → Failure) : Except ε α → Guarded α
  | .ok a => .done a
  | .error e => .fail (toFailure e)

/-- A program that holds no lock. -/
def ofProgram : Program α → Guarded α
  | .done a => .done a
  | .fail f => .fail f
  | .log e next => .log e (ofProgram next)
  | .access a next => .access a fun r => ofProgram (next r)

/-! ## Flows -/

/-- Writes a flow over the one of its name.  Over an existing flow it takes the next version and the
time of the change. -/
def replaceFlow (now : String) (tenant : Value) (flow : Flow) : Program (Flow × String) := do
  let existing ← Program.perform (.loadFlow tenant (.str flow.name))
  let saved := match existing with
    | some old => { flow with version := max flow.version old.version + 1, updatedAt := some now }
    | none => flow
  let location ← Program.perform (.writeFlow tenant saved)
  return (saved, location)

/-- Saves a flow under its own name. -/
def saveFlow (now : String) (tenant : Value) (flow : Flow) : Guarded (Flow × String) :=
  if flow.name.isEmpty then .fail .flowUnnamed
  else
    .hold (.ofFlows tenant) (replaceFlow now tenant flow) fun (saved, location) =>
      .log (.flowSaved tenant saved.name saved.version saved.size) (.done (saved, location))

/-- Creates the built-in flow under a name unless there is a flow. -/
def createPreset (now : String) (tenant name : Value) : Program Bool := do
  let flow ← Program.ofExcept .invalid (Flow.ofPresetNamed now .leadQualification name)
  Program.perform (.createFlow tenant flow)

/-- Creates the built-in flow under a name unless there is a flow.  Answers whether it was created,
and where the flow lies. -/
def ensurePreset (now : String) (tenant name : Value) : Guarded (Bool × String) :=
  .hold (.ofFlows tenant) (createPreset now tenant name) fun created =>
    let located : Guarded (Bool × String) :=
      .access (.locateFlow tenant name) fun location => .done (created, location)
    if created then .log (.presetCreated tenant name) located else located

/-- Writes a flow with a step more; a flow that is not there is first made from the built-in preset.
-/
def extendFlow (now : String) (tenant name step : Value) : Program Flow := do
  let flow ← loadOrCreate now tenant name
  let grown := withStep now step flow
  let _ ← Program.perform (.writeFlow tenant grown)
  return grown

/-- Appends a step to a flow. -/
def appendStep (now : String) (tenant name step : Value) : Guarded Flow :=
  .hold (.ofFlows tenant) (extendFlow now tenant name step) fun grown =>
    .log (.stepAppended tenant name (grown.size - 1) grown.version) (.done grown)

/-- Creates a flow from a preset, over an existing one too. -/
def createFlow (now : String) (tenant name preset : Value) : Guarded (Flow × String) :=
  (ofExcept id (Authoring.newName name)).bind fun name =>
    (ofExcept id (Authoring.fromPreset now preset name)).bind fun flow => saveFlow now tenant flow

/-- Adds a step to a flow and logs what is wrong with the flow after it. -/
def addStep (now : String) (tenant name : Value) (draft : Step.Draft) : Guarded (Fields × Flow) :=
  (ofExcept .draft draft.build).bind fun step =>
    (appendStep now tenant name (.dict step)).bind fun flow =>
      ofProgram <|
        (Program.tellAll (flow.problems.map fun p => .flowProblem tenant name p.message)).bind
          fun _ => .done (step, flow)

end Guarded

/-! ## Conversations -/

/-- The lock inside of which an access is made that changes conversations. -/
def Store.Access.lock? : Access → Option Lock
  | .putConversation tenant _ _ | .deleteConversation tenant _ => some (.conversations tenant)
  | _ => none

/-- A program that holds the lock of the tenant whenever it changes conversations. -/
def Program.guarded {α : Type} : Program α → Guarded α
  | .done a => .done a
  | .fail f => .fail f
  | .log e next => .log e next.guarded
  | .access a next =>
    match a.lock? with
    | none => .access a fun r => (next r).guarded
    | some l => .hold l (Program.perform a) fun r => (next r).guarded

end Dialogue
