import Dialogue.Event
import Dialogue.Failure

/-!
# Running over a state

A `Run` changes a state and ends in a result or a failure; what it changed before a failure stays
changed.  A state may carry a log (`Traced`), and a run over a part of a state is one over the whole
(`Run.zoom`).
-/

namespace Dialogue

/-- Running over a state: a result or a failure, and the state after it. -/
def Run (σ α : Type) : Type := σ → Except Failure α × σ

/-- A state and the events so far, latest first. -/
structure Traced (σ : Type) where
  state : σ
  events : List Event := []

/-- Adds an event. -/
def Traced.log {σ : Type} (e : Event) (t : Traced σ) : Traced σ :=
  { t with events := e :: t.events }

namespace Run

variable {σ τ α β : Type}

/-- A result that leaves the state as it is. -/
def pure (a : α) : Run σ α := fun s => (.ok a, s)

/-- A failure that leaves the state as it is. -/
def fail (f : Failure) : Run σ α := fun s => (.error f, s)

/-- One run after another; a failure ends both. -/
def bind (m : Run σ α) (k : α → Run σ β) : Run σ β := fun s =>
  match m s with
  | (.ok a, t) => k a t
  | (.error f, t) => (.error f, t)

instance : Monad (Run σ) where
  pure := Run.pure
  bind := Run.bind

/-- The state. -/
def get : Run σ σ := fun s => (.ok s, s)

/-- Changes the state. -/
def modify (f : σ → σ) : Run σ Unit := fun s => (.ok (), f s)

/-- Goes on with a result or ends in the failure that stands for it. -/
def ofExcept {ε : Type} (toFailure : ε → Failure) : Except ε α → Run σ α
  | .ok a => Run.pure a
  | .error e => Run.fail (toFailure e)

/-- One run and then another, whether the first one fails or not; the result is that of the first.
-/
def andThen (m : Run σ α) (always : Run σ Unit) : Run σ α := fun s =>
  let (r, t) := m s
  (r, (always t).2)

/-- Runs over a part of a state. -/
def zoom (get : σ → τ) (put : τ → σ → σ) (m : Run τ α) : Run σ α := fun s =>
  let (r, t) := m (get s)
  (r, put t s)

/-! ## States with a log -/

/-- The state without its log. -/
def read : Run (Traced σ) σ := fun t => (.ok t.state, t)

/-- Changes the state, not the log. -/
def write (f : σ → σ) : Run (Traced σ) Unit := fun t => (.ok (), { t with state := f t.state })

/-- Logs an event. -/
def note (e : Event) : Run (Traced σ) Unit := fun t => (.ok (), t.log e)

/-- Runs over a state without its log. -/
def silently (m : Run σ α) : Run (Traced σ) α := fun t =>
  let (r, s) := m t.state
  (r, { t with state := s })

end Run

end Dialogue
