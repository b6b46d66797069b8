import Dialogue.Scene

/-!
# One step of a scene

What a call does when it is its turn, task by task.  In a scene that started without locks, a lock
is held if and only if a call is inside of it, and it is one call only (`Scene.Disciplined`).
-/

namespace Dialogue

open Store

/-- The lock that a call is inside of. -/
def Task.lock? {α : Type} : Task α → Option Lock
  | .outside _ => none
  | .inside l _ _ _ => some l

@[simp] theorem Task.lock?_outside {α : Type} (g : Guarded α) : (Task.outside g).lock? = none := rfl

@[simp] theorem Task.lock?_inside {α β : Type} (l : Lock) (seen : Option Fields) (rest : Program β)
    (next : β → Guarded α) : (Task.inside l seen rest next).lock? = some l := rfl

namespace Strokes

variable {σ α β : Type} (k : Strokes σ)

/-- What a program comes to that makes all its accesses in one piece. -/
def run (p : Program α) : Run σ α := p.run k.access k.log

variable {k} {s t : σ} {a : Access}

theorem run_access_ok {next : a.Answer → Program α} {r : a.Answer}
    (hanswered : k.access a s = (.ok r, t)) : k.run (.access a next) s = k.run (next r) t := by
  show Run.bind _ _ s = _
  rw [Run.bind, hanswered]
  rfl

theorem run_access_error {next : a.Answer → Program α} {f : Failure}
    (hfailed : k.access a s = (.error f, t)) : k.run (.access a next) s = (.error f, t) := by
  show Run.bind _ _ s = _
  rw [Run.bind, hfailed]

end Strokes

namespace Scene

section

variable {σ ι α : Type} [DecidableEq ι] {s : Scene σ ι α} {i j : ι} {state : σ} {task : Task α}

@[simp] theorem tasks_set_self : (s.set i state task).tasks i = task := if_pos rfl

theorem tasks_set_of_ne (hdifferent : j ≠ i) : (s.set i state task).tasks j = s.tasks j :=
  if_neg hdifferent

theorem set_self (s : Scene σ ι α) {i : ι} : s.set i s.state (s.tasks i) = s := by
  have hsame : (fun j => if j = i then s.tasks i else s.tasks j) = s.tasks := by
    funext j
    split
    · rename_i hequal
      rw [hequal]
    · rfl
  rw [set, hsame]

@[simp] theorem state_set : (s.set i state task).state = state := rfl

@[simp] theorem locks_set : (s.set i state task).locks = s.locks := rfl

@[simp] theorem turns_set : (s.set i state task).turns = s.turns := rfl

end

/-! ## What a call does next -/

section

variable {σ ι α β : Type} [DecidableEq ι] {strokes : ι → Strokes σ} {s : Scene σ ι α} {i : ι}
  {l : Lock} {seen : Option Fields} {next : β → Guarded α}

theorem step_of_result {r : Except Failure α} (htask : (s.tasks i).result? = some r) :
    s.step strokes i = s := by
  rcases hthere : s.tasks i with g | _
  · rw [hthere] at htask
    cases g with
    | done a => rw [step, hthere]
    | fail f => rw [step, hthere]
    | log | access | hold => cases htask
  · rw [hthere] at htask
    cases htask

theorem step_of_log {e : Event} {next : Guarded α} (htask : s.tasks i = .outside (.log e next)) :
    s.step strokes i = s.set i ((strokes i).log e s.state) (.outside next) := by
  rw [step, htask]

theorem step_of_access {a : Access} {next : a.Answer → Guarded α}
    (htask : s.tasks i = .outside (.access a next)) :
    s.step strokes i = s.set i ((strokes i).access a s.state).2
      (goOn next ((strokes i).access a s.state).1) := by
  rw [step, htask]

theorem step_of_held {rest : Program β} (htask : s.tasks i = .outside (.hold l rest next))
    (held : s.locks.isHeld l = true) : s.step strokes i = s := by
  rw [step, htask]
  simp only [Locks.take?_eq_none held]

/-- A call takes a lock that is free. -/
theorem step_of_free {rest : Program β} (htask : s.tasks i = .outside (.hold l rest next))
    (hfree : s.locks.isHeld l = false) :
    s.step strokes i = { s.set i s.state (.inside l none rest next) with
      locks := s.locks.set l true, turns := i :: s.turns } := by
  have htaken : s.locks.take? l = some (s.locks.set l true) := if_neg (by simp [hfree])
  rw [step, htask]
  simp only [htaken]

theorem step_of_inside_done {b : β} (htask : s.tasks i = .inside l seen (.done b) next) :
    s.step strokes i =
      { s.set i s.state (.outside (next b)) with locks := s.locks.release l } := by
  rw [step, htask]

theorem step_of_inside_fail {f : Failure} (htask : s.tasks i = .inside l seen (.fail f) next) :
    s.step strokes i =
      { s.set i s.state (.outside (.fail f)) with locks := s.locks.release l } := by
  rw [step, htask]

theorem step_of_inside_log {e : Event} {rest : Program β}
    (htask : s.tasks i = .inside l seen (.log e rest) next) :
    s.step strokes i = s.set i ((strokes i).log e s.state) (.inside l seen rest next) := by
  rw [step, htask]

variable {a : Access} {rest : a.Answer → Program β}

theorem step_of_first_ok {fields : Fields} {t : σ}
    (htask : s.tasks i = .inside l none (.access a rest) next)
    (hread : (strokes i).first a s.state = (.ok fields, t)) :
    s.step strokes i = s.set i t (.inside l (some fields) (.access a rest) next) := by
  rw [step, htask]
  simp only [hread]

theorem step_of_first_error {f : Failure} {t : σ}
    (htask : s.tasks i = .inside l none (.access a rest) next)
    (hfailed : (strokes i).first a s.state = (.error f, t)) :
    s.step strokes i = s.set i t (.inside l none (.fail f) next) := by
  rw [step, htask]
  simp only [hfailed]

theorem step_of_second {fields : Fields}
    (htask : s.tasks i = .inside l (some fields) (.access a rest) next) :
    s.step strokes i = s.set i ((strokes i).second a fields s.state).2
      (goOnInside l rest next ((strokes i).second a fields s.state).1) := by
  rw [step, htask]

end

/-! ## Who holds a lock -/

section

variable {σ ι α : Type} [DecidableEq ι] {strokes : ι → Strokes σ} {s : Scene σ ι α} {i j : ι}
  {l : Lock}

theorem lock?_goOn {β : Type} (next : β → Guarded α) (r : Except Failure β) :
    (goOn next r).lock? = none := by
  cases r <;> rfl

theorem lock?_goOnInside {β γ : Type} (l : Lock) (rest : γ → Program β) (next : β → Guarded α)
    (r : Except Failure γ) : (goOnInside l rest next r).lock? = some l := by
  cases r <;> rfl

/-- How a step of a call changes who holds a lock: not at all, or the call takes one that is free,
or it releases the one that it is inside of.  The state changes in the first case only. -/
theorem step_cases (strokes : ι → Strokes σ) (i : ι) (s : Scene σ ι α) :
    (∃ t task, task.lock? = (s.tasks i).lock? ∧ s.step strokes i = s.set i t task) ∨
    (∃ l task, (s.tasks i).lock? = none ∧ s.locks.isHeld l = false ∧ task.lock? = some l ∧
      s.step strokes i =
        { s.set i s.state task with locks := s.locks.set l true, turns := i :: s.turns }) ∨
    (∃ l task, (s.tasks i).lock? = some l ∧ task.lock? = none ∧
      s.step strokes i = { s.set i s.state task with locks := s.locks.release l }) := by
  have hidle (hsame : s.step strokes i = s) :
      ∃ t task, task.lock? = (s.tasks i).lock? ∧ s.step strokes i = s.set i t task :=
    ⟨s.state, s.tasks i, rfl, hsame.trans s.set_self.symm⟩
  cases htask : s.tasks i with
  | outside g =>
    rw [htask] at hidle
    cases g with
    | done a => exact .inl (hidle (step_of_result (by rw [htask]; rfl)))
    | fail f => exact .inl (hidle (step_of_result (by rw [htask]; rfl)))
    | log e next => exact .inl ⟨_, .outside next, rfl, step_of_log htask⟩
    | access a next => exact .inl ⟨_, _, lock?_goOn _ _, step_of_access htask⟩
    | hold l rest next =>
      cases hfree : s.locks.isHeld l with
      | true => exact .inl (hidle (step_of_held htask hfree))
      | false => exact .inr (.inl ⟨l, _, rfl, hfree, rfl, step_of_free htask hfree⟩)
  | inside l seen rest next =>
    cases rest with
    | done b => exact .inr (.inr ⟨l, _, rfl, rfl, step_of_inside_done htask⟩)
    | fail f => exact .inr (.inr ⟨l, _, rfl, rfl, step_of_inside_fail htask⟩)
    | log e rest => exact .inl ⟨_, .inside l seen rest next, rfl, step_of_inside_log htask⟩
    | access a rest =>
      cases seen with
      | some fields => exact .inl ⟨_, _, lock?_goOnInside _ _ _ _, step_of_second htask⟩
      | none =>
        rcases hread : (strokes i).first a s.state with ⟨f | fields, t⟩
        · exact .inl ⟨t, .inside l none (.fail f) next, rfl, step_of_first_error htask hread⟩
        · exact .inl ⟨t, .inside l (some fields) (.access a rest) next, rfl,
          step_of_first_ok htask hread⟩

theorem tasks_step_of_ne (hdifferent : j ≠ i) : (s.step strokes i).tasks j = s.tasks j := by
  rcases step_cases strokes i s with ⟨t, task, -, hsame⟩ | ⟨l, task, -, -, -, hsame⟩ |
    ⟨l, task, -, -, hsame⟩ <;> rw [hsame]
  · exact tasks_set_of_ne hdifferent
  · exact if_neg hdifferent
  · exact if_neg hdifferent

/-- A lock is held if and only if a call is inside of it, and then it is one call only. -/
structure Disciplined (s : Scene σ ι α) : Prop where
  held : ∀ i l, (s.tasks i).lock? = some l → s.locks.isHeld l = true
  alone : ∀ i j l, (s.tasks i).lock? = some l → (s.tasks j).lock? = some l → i = j
  holder : ∀ l, s.locks.isHeld l = true → ∃ i, (s.tasks i).lock? = some l

omit [DecidableEq ι] in
theorem disciplined_start (start : σ) (calls : ι → Guarded α) :
    Disciplined { state := start, tasks := fun i => .outside (calls i) } where
  held i l hinside := by cases hinside
  alone i j l hinside := by cases hinside
  holder l held := by cases held

theorem lock?_tasks_set (s : Scene σ ι α) (i : ι) (t : σ) (task : Task α) (j : ι) :
    ((s.set i t task).tasks j).lock? = if j = i then task.lock? else (s.tasks j).lock? := by
  by_cases hsame : j = i
  · rw [if_pos hsame, hsame, tasks_set_self]
  · rw [if_neg hsame, tasks_set_of_ne hsame]

theorem Disciplined.of_stays (hdisciplined : s.Disciplined) (t : σ) {task : Task α}
    (hstays : task.lock? = (s.tasks i).lock?) : (s.set i t task).Disciplined := by
  have hunchanged (j : ι) : ((s.set i t task).tasks j).lock? = (s.tasks j).lock? := by
    rw [lock?_tasks_set]
    split
    · rename_i hequal
      rw [hstays, hequal]
    · rfl
  obtain ⟨held, halone, holder⟩ := hdisciplined
  exact
    { held := fun j l hinside => held j l (hunchanged j ▸ hinside)
      alone := fun j k l hinside hinside' =>
        halone j k l (hunchanged j ▸ hinside) (hunchanged k ▸ hinside')
      holder := fun l hheld => (holder l hheld).imp fun j hinside => (hunchanged j).trans hinside }

/-- A call takes a lock that is free: it is inside of it now, and nobody was before. -/
theorem Disciplined.of_takes (hdisciplined : s.Disciplined) {task : Task α}
    (hbefore : (s.tasks i).lock? = none) (hfree : s.locks.isHeld l = false)
    (hafter : task.lock? = some l) :
    Disciplined
      { s.set i s.state task with locks := s.locks.set l true, turns := i :: s.turns } := by
  obtain ⟨held, halone, holder⟩ := hdisciplined
  have hnobody (j : ι) : (s.tasks j).lock? ≠ some l := fun hinside => by
    rw [held j l hinside] at hfree
    cases hfree
  have hnow (j : ι) : ((s.set i s.state task).tasks j).lock? =
      if j = i then some l else (s.tasks j).lock? := hafter ▸ lock?_tasks_set s i s.state task j
  refine ⟨fun j l' hinside => ?_, fun j k l' hinside hinside' => ?_, fun l' hheld => ?_⟩
  · refine (Locks.isHeld_set _ _ _ _).trans ?_
    split
    · rfl
    · rename_i hdifferent
      rw [hnow] at hinside
      split at hinside
      · exact absurd (Option.some.inj hinside).symm hdifferent
      · exact held j l' hinside
  · rw [hnow] at hinside hinside'
    split at hinside <;> split at hinside'
    · simp [*]
    · exact absurd (hinside'.trans hinside.symm) (hnobody k)
    · exact absurd (hinside.trans hinside'.symm) (hnobody j)
    · exact halone j k l' hinside hinside'
  · rw [show Locks.isHeld _ l' = _ from Locks.isHeld_set _ _ _ _] at hheld
    split at hheld
    · rename_i hequal
      exact ⟨i, (hnow i).trans (by simp [hequal])⟩
    · obtain ⟨j, hinside⟩ := holder l' hheld
      have hother : j ≠ i := by
        rintro rfl
        rw [hbefore] at hinside
        cases hinside
      exact ⟨j, (hnow j).trans (by simp [hother, hinside])⟩

/-- A call releases the lock that it was the only one inside of. -/
theorem Disciplined.of_releases (hdisciplined : s.Disciplined) {task : Task α}
    (hbefore : (s.tasks i).lock? = some l) (hafter : task.lock? = none) :
    Disciplined { s.set i s.state task with locks := s.locks.release l } := by
  obtain ⟨held, halone, holder⟩ := hdisciplined
  have hnow (j : ι) : ((s.set i s.state task).tasks j).lock? =
      if j = i then none else (s.tasks j).lock? := hafter ▸ lock?_tasks_set s i s.state task j
  refine ⟨fun j l' hinside => ?_, fun j k l' hinside hinside' => ?_, fun l' hheld => ?_⟩
  · rw [hnow] at hinside
    split at hinside
    · cases hinside
    · rename_i hother
      have hdifferent : l' ≠ l := by
        rintro rfl
        exact hother (halone j i _ hinside hbefore)
      exact (Locks.isHeld_release_of_ne hdifferent).trans (held j l' hinside)
  · rw [hnow] at hinside hinside'
    split at hinside
    · cases hinside
    · split at hinside'
      · cases hinside'
      · exact halone j k l' hinside hinside'
  · have hdifferent : l' ≠ l := by
      rintro rfl
      have hfree : Locks.isHeld (s.locks.release l') l' = true := hheld
      simp at hfree
    obtain ⟨j, hinside⟩ := holder l' ((Locks.isHeld_release_of_ne hdifferent).symm.trans hheld)
    have hother : j ≠ i := by
      rintro rfl
      exact hdifferent (Option.some.inj (hinside.symm.trans hbefore))
    exact ⟨j, (hnow j).trans (by simp [hother, hinside])⟩

theorem Disciplined.step (hdisciplined : s.Disciplined) (strokes : ι → Strokes σ) (i : ι) :
    (s.step strokes i).Disciplined := by
  rcases step_cases strokes i s with ⟨t, task, hstays, hsame⟩ |
    ⟨l, task, hbefore, hfree, hafter, hsame⟩ |
    ⟨l, task, hbefore, hafter, hsame⟩ <;> rw [hsame]
  · exact hdisciplined.of_stays t hstays
  · exact hdisciplined.of_takes hbefore hfree hafter
  · exact hdisciplined.of_releases hbefore hafter

theorem Disciplined.play (hdisciplined : s.Disciplined) (strokes : ι → Strokes σ)
    (schedule : List ι) : (s.play strokes schedule).Disciplined := by
  induction schedule generalizing s with
  | nil => exact hdisciplined
  | cons i rest ih => exact ih (hdisciplined.step strokes i)

end

end Scene

end Dialogue
