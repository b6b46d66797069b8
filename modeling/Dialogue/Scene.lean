import Dialogue.Guarded
import Dialogue.Run

/-!
# Calls that run side by side

A `Scene` is a state that several calls work on at a time, with the locks that they hold and how far
each call has come (`Task`).  One step lets one call do one thing: log an event, make one access,
take a lock or release it (`Scene.step`).  A schedule says which call goes on next, again and again
(`Scene.play`); a call that waits for a lock, or has ended, does nothing when it is its turn.

What a store reads and writes in one piece is one access.  An access inside of a lock may take two
strokes, one that reads and one that writes what was read with a change (`Strokes`), and other calls
may go on in between.  A call that fails inside of a lock releases it.
-/

namespace Dialogue

open Store

/-- What a call does to a state: accesses in one piece, the two strokes of an access, and events. -/
structure Strokes (σ : Type) where
  access : (a : Access) → Run σ a.Answer
  first : Access → Run σ Fields
  second : (a : Access) → Fields → Run σ a.Answer
  log : Event → σ → σ

/-- How far a call has come.  Inside of a lock it may have made the first stroke of the access that
comes next; then it knows what that stroke read. -/
inductive Task (α : Type) : Type 1 where
  | outside (rest : Guarded α)
  | inside {β : Type} (l : Lock) (seen : Option Fields) (rest : Program β) (next : β → Guarded α)

/-- What a call ended with, if it has ended. -/
def Task.result? {α : Type} : Task α → Option (Except Failure α)
  | .outside (.done a) => some (.ok a)
  | .outside (.fail f) => some (.error f)
  | _ => none

/-- A state that calls work on side by side.  `turns` tells who took a lock, latest first. -/
structure Scene (σ ι α : Type) : Type 1 where
  state : σ
  locks : Locks := []
  tasks : ι → Task α
  turns : List ι := []

namespace Scene

variable {σ ι α : Type} [DecidableEq ι]

/-- The scene in which a call has come to another task, and the state to another one. -/
def set (s : Scene σ ι α) (i : ι) (state : σ) (task : Task α) : Scene σ ι α :=
  { s with state, tasks := fun j => if j = i then task else s.tasks j }

/-- A call goes on with what an access outside of locks answered. -/
def goOn {β : Type} (next : β → Guarded α) : Except Failure β → Task α
  | .ok r => .outside (next r)
  | .error f => .outside (.fail f)

/-- A call goes on inside of a lock with what an access answered. -/
def goOnInside {β γ : Type} (l : Lock) (rest : γ → Program β) (next : β → Guarded α) :
    Except Failure γ → Task α
  | .ok r => .inside l none (rest r) next
  | .error f => .inside l none (.fail f) next

/-- Lets a call do one thing. -/
def step (strokes : ι → Strokes σ) (i : ι) (s : Scene σ ι α) : Scene σ ι α :=
  match s.tasks i with
  | .outside (.done _) => s
  | .outside (.fail _) => s
  | .outside (.log e next) => s.set i ((strokes i).log e s.state) (.outside next)
  | .outside (.access a next) =>
    let (r, state) := (strokes i).access a s.state
    s.set i state (goOn next r)
  | .outside (.hold l rest next) =>
    match s.locks.take? l with
    | none => s
    | some locks =>
      { s.set i s.state (.inside l none rest next) with locks, turns := i :: s.turns }
  | .inside l _ (.done b) next =>
    { s.set i s.state (.outside (next b)) with locks := s.locks.release l }
  | .inside l _ (.fail f) _ =>
    { s.set i s.state (.outside (.fail f)) with locks := s.locks.release l }
  | .inside l seen (.log e rest) next =>
    s.set i ((strokes i).log e s.state) (.inside l seen rest next)
  | .inside l none (.access a rest) next =>
    match (strokes i).first a s.state with
    | (.ok seen, state) => s.set i state (.inside l (some seen) (.access a rest) next)
    | (.error f, state) => s.set i state (.inside l none (.fail f) next)
  | .inside l (some seen) (.access a rest) next =>
    let (r, state) := (strokes i).second a seen s.state
    s.set i state (goOnInside l rest next r)

/-- Lets calls go on in the order of a schedule. -/
def play (strokes : ι → Strokes σ) (schedule : List ι) (s : Scene σ ι α) : Scene σ ι α :=
  schedule.foldl (fun s i => s.step strokes i) s

end Scene

end Dialogue
