import Dialogue.Proofs.Scene.Step

/-!
# No call waits forever

Whatever calls have done so far, each of them can be brought to its end (`Disciplined.ends`): a call
that waits for a lock waits for one that is inside of it, and that one leaves it after so many steps
of its own, because programs are finite.  A call that has ended stays so, and any number of calls
can be brought to their end together (`Disciplined.exists_all_end`).
-/

namespace Dialogue.Scene

open Store

variable {σ ι α : Type} [DecidableEq ι] {strokes : ι → Strokes σ} {s : Scene σ ι α} {i j : ι}
  {l : Lock}

theorem play_append (strokes : ι → Strokes σ) (schedule more : List ι) (s : Scene σ ι α) :
    s.play strokes (schedule ++ more) = (s.play strokes schedule).play strokes more :=
  List.foldl_append

theorem tasks_play_of_notMem {schedule : List ι} (hunlisted : j ∉ schedule) :
    (s.play strokes schedule).tasks j = s.tasks j := by
  induction schedule generalizing s with
  | nil => rfl
  | cons i rest ih =>
    rw [List.mem_cons, not_or] at hunlisted
    obtain ⟨hdifferent, hothers⟩ := hunlisted
    exact (ih hothers).trans (tasks_step_of_ne hdifferent)

variable (strokes) in
/-- A call comes out of a lock by steps of its own, with a result of what it did there or failed. -/
def Leaves {β : Type} (i : ι) (next : β → Guarded α) (s : Scene σ ι α) : Prop :=
  ∃ steps : List ι, (∀ k ∈ steps, k = i) ∧ ∃ g, (s.play strokes steps).tasks i = .outside g ∧
    ((∃ b, g = next b) ∨ ∃ f, g = .fail f)

section

variable {β : Type} {next : β → Guarded α}

theorem Leaves.of_step (hleaves : Leaves strokes i next (s.step strokes i)) :
    Leaves strokes i next s := by
  obtain ⟨steps, honly, hleft⟩ := hleaves
  exact ⟨i :: steps, List.forall_mem_cons.2 ⟨rfl, honly⟩, hleft⟩

theorem leaves_of_outside {g : Guarded α} (htask : s.tasks i = .outside g)
    (hleft : (∃ b, g = next b) ∨ ∃ f, g = .fail f) : Leaves strokes i next s :=
  ⟨[], by simp, g, htask, hleft⟩

theorem leaves_of_fail {seen : Option Fields} {f : Failure}
    (htask : s.tasks i = .inside l seen (.fail f) next) : Leaves strokes i next s := by
  refine Leaves.of_step ?_
  rw [step_of_inside_fail htask]
  exact leaves_of_outside (if_pos rfl) (.inr ⟨f, rfl⟩)

/-- A call comes out of a lock because what it does inside is finite. -/
theorem leaves_of_inside (strokes : ι → Strokes σ) (rest : Program β) {seen : Option Fields}
    (htask : s.tasks i = .inside l seen rest next) : Leaves strokes i next s := by
  induction rest generalizing s seen with
  | done b =>
    refine Leaves.of_step ?_
    rw [step_of_inside_done htask]
    exact leaves_of_outside (if_pos rfl) (.inl ⟨b, rfl⟩)
  | fail f => exact leaves_of_fail htask
  | log e rest ih =>
    refine Leaves.of_step ?_
    rw [step_of_inside_log htask]
    exact ih tasks_set_self
  | access a rest ih =>
    have hsecond {s : Scene σ ι α} {fields : Fields}
        (htask : s.tasks i = .inside l (some fields) (.access a rest) next) :
        Leaves strokes i next s := by
      refine Leaves.of_step ?_
      rw [step_of_second htask]
      rcases ((strokes i).second a fields s.state).1 with f | r
      · exact leaves_of_fail tasks_set_self
      · exact ih r tasks_set_self
    cases seen with
    | some fields => exact hsecond htask
    | none =>
      refine Leaves.of_step ?_
      rcases hread : (strokes i).first a s.state with ⟨f | fields, t⟩
      · rw [step_of_first_error htask hread]
        exact leaves_of_fail tasks_set_self
      · rw [step_of_first_ok htask hread]
        exact hsecond tasks_set_self

end

/-- A lock that is held can be freed by steps of the call that is inside of it. -/
theorem Disciplined.exists_frees (hdisciplined : s.Disciplined) (strokes : ι → Strokes σ)
    (houtside : (s.tasks i).lock? = none) (l : Lock) :
    ∃ steps : List ι, i ∉ steps ∧ (s.play strokes steps).locks.isHeld l = false := by
  cases held : s.locks.isHeld l with
  | false => exact ⟨[], by simp, held⟩
  | true =>
    obtain ⟨j, holder⟩ := hdisciplined.holder l held
    have hdifferent : j ≠ i := by
      rintro rfl
      rw [houtside] at holder
      cases holder
    cases htask : s.tasks j with
    | outside g =>
      rw [htask] at holder
      cases holder
    | inside l' seen rest next =>
      rw [htask] at holder
      obtain rfl : l' = l := Option.some.inj holder
      obtain ⟨steps, honly, g, hleft, -⟩ := leaves_of_inside strokes rest htask
      refine ⟨steps, fun hlisted => hdifferent (honly i hlisted).symm, ?_⟩
      refine Bool.eq_false_iff.2 fun hstill => ?_
      obtain ⟨k, hinside⟩ := (hdisciplined.play strokes steps).holder l' hstill
      by_cases hsame : k = j
      · rw [hsame, hleft] at hinside
        cases hinside
      · rw [tasks_play_of_notMem fun hlisted => hsame (honly k hlisted)] at hinside
        exact hsame (hdisciplined.alone k j l' hinside (by rw [htask]; rfl))

variable (strokes) in
/-- A call comes to its end if calls go on in some order. -/
def Ends (i : ι) (s : Scene σ ι α) : Prop :=
  ∃ steps : List ι, ((s.play strokes steps).tasks i).result? ≠ none

theorem Ends.of_play (first : List ι) (hends : Ends strokes i (s.play strokes first)) :
    Ends strokes i s := by
  obtain ⟨steps, hended⟩ := hends
  exact ⟨first ++ steps, by rwa [play_append]⟩

theorem ends_of_result {r : Except Failure α} (hended : (s.tasks i).result? = some r) :
    Ends strokes i s :=
  ⟨[], fun hnothing => by cases hended.symm.trans hnothing⟩

theorem ends_of_fail {f : Failure} (htask : s.tasks i = .outside (.fail f)) : Ends strokes i s :=
  ends_of_result (r := .error f) (by rw [htask]; rfl)

/-- A call comes to its end from outside of locks: one that it needs can be freed, and it comes out
of it again. -/
theorem ends_of_outside (g : Guarded α) (hdisciplined : s.Disciplined)
    (htask : s.tasks i = .outside g) : Ends strokes i s := by
  induction g generalizing s with
  | done a => exact ends_of_result (r := .ok a) (by rw [htask]; rfl)
  | fail f => exact ends_of_fail htask
  | log e next ih =>
    refine Ends.of_play [i] (ih (hdisciplined.play strokes [i]) ?_)
    show (s.step strokes i).tasks i = _
    rw [step_of_log htask, tasks_set_self]
  | access a next ih =>
    have hstepped : (s.step strokes i).tasks i = goOn next ((strokes i).access a s.state).1 := by
      rw [step_of_access htask, tasks_set_self]
    rcases hanswered : ((strokes i).access a s.state).1 with f | r <;> rw [hanswered] at hstepped
    · exact Ends.of_play [i] (ends_of_fail hstepped)
    · exact Ends.of_play [i] (ih r (hdisciplined.play strokes [i]) hstepped)
  | hold l rest next ih =>
    obtain ⟨first, hunlisted, hfree⟩ :=
      hdisciplined.exists_frees strokes (show (s.tasks i).lock? = none by rw [htask]; rfl) l
    have hwaits : (s.play strokes first).tasks i = .outside (.hold l rest next) :=
      (tasks_play_of_notMem hunlisted).trans htask
    have hinside : (((s.play strokes first).step strokes i).tasks i) =
        .inside l none rest next := by
      rw [step_of_free hwaits hfree]
      exact if_pos rfl
    obtain ⟨steps, -, g, hleft, hleaves⟩ := leaves_of_inside strokes rest hinside
    have hdisciplined' := ((hdisciplined.play strokes first).step strokes i).play strokes steps
    refine Ends.of_play first (Ends.of_play [i] (Ends.of_play steps ?_))
    rcases hleaves with ⟨b, rfl⟩ | ⟨f, rfl⟩
    · exact ih b hdisciplined' hleft
    · exact ends_of_fail hleft

/-- A call can be brought to its end, whatever the others have done so far. -/
theorem Disciplined.ends (hdisciplined : s.Disciplined) (strokes : ι → Strokes σ) (i : ι) :
    Ends strokes i s := by
  cases htask : s.tasks i with
  | outside g => exact ends_of_outside g hdisciplined htask
  | inside l seen rest next =>
    obtain ⟨steps, -, g, hleft, -⟩ := leaves_of_inside strokes rest htask
    exact Ends.of_play steps (ends_of_outside g (hdisciplined.play strokes steps) hleft)

theorem tasks_play_of_result {r : Except Failure α} (hended : (s.tasks i).result? = some r)
    (schedule : List ι) : (s.play strokes schedule).tasks i = s.tasks i := by
  induction schedule generalizing s with
  | nil => rfl
  | cons j rest ih =>
    have hstill : (s.step strokes j).tasks i = s.tasks i := by
      by_cases hsame : i = j
      · rw [← hsame, step_of_result hended]
      · exact tasks_step_of_ne hsame
    exact (ih (hstill ▸ hended)).trans hstill

/-- Calls can be brought to their end together. -/
theorem Disciplined.exists_all_end (hdisciplined : s.Disciplined) (strokes : ι → Strokes σ)
    (calls : List ι) :
    ∃ schedule, ∀ i ∈ calls, ((s.play strokes schedule).tasks i).result? ≠ none := by
  induction calls with
  | nil => exact ⟨[], by simp⟩
  | cons i rest ih =>
    obtain ⟨schedule, hothers⟩ := ih
    obtain ⟨steps, hended⟩ := (hdisciplined.play strokes schedule).ends strokes i
    refine ⟨schedule ++ steps, List.forall_mem_cons.2 ⟨?_, fun j hlisted => ?_⟩⟩
    · rwa [play_append]
    · obtain ⟨r, hfinished⟩ := Option.ne_none_iff_exists'.1 (hothers j hlisted)
      rw [play_append, tasks_play_of_result hfinished]
      exact hothers j hlisted

end Dialogue.Scene
