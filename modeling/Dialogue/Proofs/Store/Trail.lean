import Dialogue.Store.Program

/-!
# What a program does on the way

`Program.run` says what a program comes to.  `Program.trail` says what it does on the way there:
every access with the state before and after it, and every event that it tells.  A statement about
all states in the middle of a run, or about what a run reads and writes, is one about its trail.

`trail_bind` is the counterpart of `run_bind`: the trail of one program after another is the trail
of the first, followed by that of the second where the first does not fail.

What a program may access, and the states that it may pass through, are followed from one access to
the next (`Confined`).
-/

namespace Dialogue.Program

variable {σ α β : Type}

/-- One thing that a run does: an access, between two states, or an event that it tells. -/
inductive Deed (σ : Type) where
  | asked (before : σ) (a : Store.Access) (after : σ)
  | told (e : Event)

namespace Deed

/-- The access that was made. -/
def access? : Deed σ → Option Store.Access
  | asked _ a _ => some a
  | told _ => none

/-- The event that was told. -/
def event? : Deed σ → Option Event
  | asked _ _ _ => none
  | told e => some e

/-- The state after an access. -/
def after? : Deed σ → Option σ
  | asked _ _ t => some t
  | told _ => none

end Deed

/-- What a run does, in order. -/
def trail (access : (a : Store.Access) → Run σ a.Answer) (log : Event → σ → σ) :
    Program α → σ → List (Deed σ)
  | .done _, _ => []
  | .fail _, _ => []
  | .log e next, s => .told e :: next.trail access log (log e s)
  | .access a next, s =>
    .asked s a (access a s).2 ::
      match (access a s).1 with
      | .ok r => (next r).trail access log (access a s).2
      | .error _ => []

/-- The accesses of a run, in order. -/
def accesses (access : (a : Store.Access) → Run σ a.Answer) (log : Event → σ → σ)
    (p : Program α) (s : σ) : List Store.Access :=
  (p.trail access log s).filterMap Deed.access?

/-- The events that a run tells, in order. -/
def events (access : (a : Store.Access) → Run σ a.Answer) (log : Event → σ → σ)
    (p : Program α) (s : σ) : List Event :=
  (p.trail access log s).filterMap Deed.event?

variable (access : (a : Store.Access) → Run σ a.Answer) (log : Event → σ → σ)

/-- The trail of one program after another. -/
theorem trail_bind (p : Program α) (k : α → Program β) (s : σ) :
    (p.bind k).trail access log s =
      p.trail access log s ++
        match p.run access log s with
        | (.ok a, t) => (k a).trail access log t
        | (.error _, _) => [] := by
  induction p generalizing s with
  | done a => rfl
  | fail f => rfl
  | log e next ih => simp only [bind, trail, run, ih, List.cons_append]
  | access a next ih =>
    simp only [bind, trail, run, Run.bind, List.cons_append]
    rcases access a s with ⟨r | r, t⟩
    · rfl
    · simp only [ih]

/-- Running one program after another, state by state. -/
theorem run_bind_apply (p : Program α) (k : α → Program β) (s : σ) :
    (p.bind k).run access log s =
      match p.run access log s with
      | (.ok a, t) => (k a).run access log t
      | (.error f, t) => (.error f, t) := by
  rw [run_bind]
  rfl

/-! ## Programs that are confined -/

section

variable {access : (a : Store.Access) → Run σ a.Answer} {log : Event → σ → σ}
  {Allowed : Store.Access → Prop} {I : σ → Prop}

/-- A program that makes allowed accesses only and passes through states of a kind, from a state
on. -/
inductive Confined (access : (a : Store.Access) → Run σ a.Answer) (log : Event → σ → σ)
    (Allowed : Store.Access → Prop) (I : σ → Prop) : Program α → σ → Prop where
  | done {s : σ} (a : α) (here : I s) : Confined access log Allowed I (.done a) s
  | fail {s : σ} (f : Failure) (here : I s) : Confined access log Allowed I (.fail f) s
  | log {s : σ} {e : Event} {next : Program α}
      (rest : Confined access log Allowed I next (log e s)) :
      Confined access log Allowed I (.log e next) s
  | access {s : σ} {a : Store.Access} {next : a.Answer → Program α} (allowed : Allowed a)
      (after : I (access a s).2)
      (rest : ∀ r, (access a s).1 = .ok r →
        Confined access log Allowed I (next r) (access a s).2) :
      Confined access log Allowed I (.access a next) s

variable {p : Program α} {s : σ}

theorem Confined.bind {k : α → Program β} (hconfined : p.Confined access log Allowed I s)
    (hgoesOn : ∀ a t, I t → (k a).Confined access log Allowed I t) :
    (p.bind k).Confined access log Allowed I s := by
  induction hconfined with
  | done a here => exact hgoesOn a _ here
  | fail f here => exact .fail f here
  | log hrest ih => exact .log ih
  | access hallowed hafter hrest ih => exact .access hallowed hafter ih

theorem Confined.allowed (hconfined : p.Confined access log Allowed I s) :
    ∀ a ∈ p.accesses access log s, Allowed a := by
  induction hconfined with
  | done a here => simp [accesses, trail]
  | fail f here => simp [accesses, trail]
  | log hrest ih => simpa [accesses, trail, Deed.access?] using ih
  | @access s a next hallowed hafter hrest ih =>
    simp only [accesses, trail, List.filterMap_cons, Deed.access?]
    refine List.forall_mem_cons.2 ⟨hallowed, ?_⟩
    cases hanswered : (access a s).1 with
    | error f => simp
    | ok r => exact ih r hanswered

theorem Confined.states (hconfined : p.Confined access log Allowed I s) :
    (∀ t ∈ (p.trail access log s).filterMap Deed.after?, I t) ∧ I (p.run access log s).2 := by
  induction hconfined with
  | done a here => exact ⟨by simp [trail], here⟩
  | fail f here => exact ⟨by simp [trail], here⟩
  | log hrest ih => simpa [trail, run, Deed.after?] using ih
  | @access s a next hallowed hafter hrest ih =>
    simp only [trail, run, Run.bind, List.filterMap_cons, Deed.after?, List.forall_mem_cons]
    rcases hran : access a s with ⟨f | r, t⟩
    · rw [hran] at hafter
      exact ⟨⟨hafter, by simp⟩, hafter⟩
    · have hlater := ih r (by rw [hran])
      rw [hran] at hafter hlater
      exact ⟨⟨hafter, hlater.1⟩, hlater.2⟩

end

end Dialogue.Program
