import Dialogue.Proofs.Guarded
import Dialogue.Proofs.Scene.Step

/-!
# Calls that keep apart

Calls that each see a part of the state of their own do not see each other, however their steps are
mixed, if no part is changed by an access of a call that it does not belong to (`Scene.Apart`).
What a call reads in the first stroke of an access may well be changed by others, but not by a call
that is kept out by the lock around the access.

The invariant follows each call with the state that it would have come to alone (`Scene.OnCourse`):
the call sees the same of both states, and what is left for it to do comes to the same from the
latter as the whole call when it is alone.
-/

namespace Dialogue

open Run Store

/-- What is left for a call to do, without its locks. -/
def Task.rest {α : Type} : Task α → Program α
  | .outside g => g.unlocked
  | .inside _ _ rest next => rest.bind fun b => (next b).unlocked

namespace Scene

/-- How calls treat a state of which each sees the part under its key.  They do not see what the
relation `R` leaves open, an access is its first stroke and then the second one, and an access
neither changes what others see nor what the first stroke of an access inside of another lock
reads. -/
structure Apart {σ ι κ : Type} (R : σ → σ → Prop) (View : κ → σ → σ → Prop) (key : ι → κ)
    (Allowed : ι → Access → Prop) (Answers : (a : Access) → a.Answer → Prop)
    (strokes : ι → Strokes σ) : Prop where
  equivalence : Equivalence R
  related : ∀ {k s s' t t'}, R s s' → R t t' → View k s t → View k s' t'
  log : ∀ i e s, R s ((strokes i).log e s)
  first : ∀ i a s, R s ((strokes i).first a s).2
  agreesFirst : ∀ i a, Agrees R ((strokes i).first a)
  agreesSecond : ∀ i a seen, Agrees R ((strokes i).second a seen)
  access : ∀ i a, (strokes i).access a = Run.bind ((strokes i).first a) ((strokes i).second a)
  agrees : ∀ i {a}, Allowed i a → Agrees (View (key i)) ((strokes i).access a)
  spares : ∀ i {a k}, Allowed i a → k ≠ key i → Spares (View k) ((strokes i).access a)
  answers : ∀ i {a k s t r}, Allowed i a → View k s t → ((strokes i).access a s).1 = .ok r →
    Answers a r
  reads : ∀ i j {a b l k s t}, Allowed i a → Allowed j b → a.lock? = some l → b.lock? ≠ some l →
    View k s t → ((strokes i).first a ((strokes j).access b s).2).1 = ((strokes i).first a s).1

section

variable {σ ι α : Type} (k : Strokes σ) (Allowed : Access → Prop)
  (Answers : (a : Access) → a.Answer → Prop)

/-- How far a call has come that holds locks over single accesses.  Inside of a lock, what the first
stroke of the access has read is still there. -/
inductive Stage (state : σ) : Task α → Prop where
  | outside {g : Guarded α} (behaves : g.Behaves Allowed Answers) : Stage state (.outside g)
  | before {a : Access} {l : Lock} {next : a.Answer → Guarded α} (locked : a.lock? = some l)
      (allowed : Allowed a) (goesOn : ∀ r, Answers a r → (next r).Behaves Allowed Answers) :
      Stage state (.inside l none (.access a .done) next)
  | midway {a : Access} {l : Lock} {seen : Fields} {next : a.Answer → Guarded α}
      (locked : a.lock? = some l) (allowed : Allowed a)
      (goesOn : ∀ r, Answers a r → (next r).Behaves Allowed Answers)
      (saw : (k.first a state).1 = .ok seen) :
      Stage state (.inside l (some seen) (.access a .done) next)
  | made {β : Type} {l : Lock} {b : β} {next : β → Guarded α}
      (behaves : (next b).Behaves Allowed Answers) : Stage state (.inside l none (.done b) next)
  | failed {β : Type} {l : Lock} {f : Failure} {next : β → Guarded α} :
      Stage state (.inside l none (.fail f) next)

end

variable {σ ι κ α : Type} {R : σ → σ → Prop} {View : κ → σ → σ → Prop} {key : ι → κ}
  {Allowed : ι → Access → Prop} {Answers : (a : Access) → a.Answer → Prop} {strokes : ι → Strokes σ}
  {calls : ι → Guarded α} {start s t : σ} {i j : ι} {task : Task α} {a : Access}

/-- A call is on the way that it would take alone. -/
structure OnCourse (View : κ → σ → σ → Prop) (key : ι → κ) (Allowed : ι → Access → Prop)
    (Answers : (a : Access) → a.Answer → Prop) (strokes : ι → Strokes σ) (calls : ι → Guarded α)
    (start : σ) (i : ι) (s : σ) (task : Task α) : Prop where
  stage : Stage (strokes i) (Allowed i) Answers s task
  alone : ∃ t, View (key i) s t ∧
    (strokes i).run task.rest t = (strokes i).run (calls i).unlocked start

section

variable (hapart : Apart R View key Allowed Answers strokes)

include hapart

/-! ## What others do -/

theorem OnCourse.of_related
    (hcourse : OnCourse View key Allowed Answers strokes calls start i s task) (hrelated : R s t) :
    OnCourse View key Allowed Answers strokes calls start i t task := by
  obtain ⟨hstage, v, hsees, halone⟩ := hcourse
  refine ⟨?_, v, hapart.related hrelated (hapart.equivalence.refl v) hsees, halone⟩
  cases hstage with
  | outside hbehaves => exact .outside hbehaves
  | before hlocked hallowed hgoesOn => exact .before hlocked hallowed hgoesOn
  | midway hlocked hallowed hgoesOn hsaw =>
    exact .midway hlocked hallowed hgoesOn (((hapart.agreesFirst i _ _ _ hrelated).1).symm.trans
      hsaw)
  | made hbehaves => exact .made hbehaves
  | failed => exact .failed

/-- An access of another call leaves a call on its way, unless both are inside of one lock. -/
theorem OnCourse.of_access
    (hcourse : OnCourse View key Allowed Answers strokes calls start i s task)
    (hdifferent : key i ≠ key j) (hallowed : Allowed j a)
    (hbeside : ∀ l, task.lock? = some l → a.lock? ≠ some l) :
    OnCourse View key Allowed Answers strokes calls start i ((strokes j).access a s).2 task := by
  obtain ⟨hstage, v, hsees, halone⟩ := hcourse
  refine ⟨?_, v, hapart.spares j hallowed hdifferent _ _ hsees, halone⟩
  cases hstage with
  | outside hbehaves => exact .outside hbehaves
  | before hlocked hown hgoesOn => exact .before hlocked hown hgoesOn
  | midway hlocked hown hgoesOn hsaw =>
    exact .midway hlocked hown hgoesOn
      ((hapart.reads i j hown hallowed hlocked (hbeside _ rfl) hsees).trans hsaw)
  | made hbehaves => exact .made hbehaves
  | failed => exact .failed

/-! ## What a call does -/

/-- Where a call comes to by an access is where it comes to alone. -/
theorem Apart.alone_access (next : a.Answer → Guarded α) (hallowed : Allowed i a)
    (hsees : View (key i) s t)
    (halone : (strokes i).run (.access a fun r => (next r).unlocked) t =
      (strokes i).run (calls i).unlocked start) :
    (∀ r, ((strokes i).access a s).1 = .ok r → Answers a r ∧
      ∃ v, View (key i) ((strokes i).access a s).2 v ∧
        (strokes i).run (next r).unlocked v = (strokes i).run (calls i).unlocked start) ∧
    ∀ f, ((strokes i).access a s).1 = .error f →
      ∃ v, View (key i) ((strokes i).access a s).2 v ∧
        (strokes i).run (.fail f) v = (strokes i).run (calls i).unlocked start := by
  obtain ⟨hsame, hafter⟩ := hapart.agrees i hallowed _ _ hsees
  refine ⟨fun r hanswered => ⟨hapart.answers i hallowed hsees hanswered, _, hafter, ?_⟩,
    fun f hfailed => ⟨_, hafter, ?_⟩⟩
  · have hran : (strokes i).access a t = (.ok r, ((strokes i).access a t).2) :=
      Prod.ext (hsame.symm.trans hanswered) rfl
    rw [← halone, Strokes.run_access_ok hran]
  · have hran : (strokes i).access a t = (.error f, ((strokes i).access a t).2) :=
      Prod.ext (hsame.symm.trans hfailed) rfl
    rw [← halone, Strokes.run_access_error hran]
    rfl

/-- The second stroke of an access whose first stroke would still read the same comes to what the
access comes to in one piece. -/
theorem Apart.second_of_first {seen : Fields} (hsaw : ((strokes i).first a s).1 = .ok seen) :
    ((strokes i).second a seen s).1 = ((strokes i).access a s).1 ∧
      R ((strokes i).access a s).2 ((strokes i).second a seen s).2 := by
  have hunseen := hapart.first i a s
  rcases hran : (strokes i).first a s with ⟨r, t⟩
  rw [hran] at hsaw hunseen
  obtain rfl : r = .ok seen := hsaw
  have hwhole : (strokes i).access a s = (strokes i).second a seen t := by
    rw [hapart.access, Run.bind, hran]
  obtain ⟨hresult, hafter⟩ := hapart.agreesSecond i a seen _ _ hunseen
  rw [hwhole]
  exact ⟨hresult, hapart.equivalence.symm hafter⟩

theorem Apart.access_of_first {f : Failure} {t : σ}
    (hfailed : (strokes i).first a s = (.error f, t)) : (strokes i).access a s = (.error f, t) := by
  rw [hapart.access, Run.bind, hfailed]

/-- What others see of a step: nothing, or an access, inside of the lock that the call is inside of
if the access needs one. -/
def Unseen (R : σ → σ → Prop) (Allowed : Access → Prop) (k : Strokes σ) (task : Task α) (s t : σ) :
    Prop :=
  R s t ∨ ∃ a, Allowed a ∧ (a.lock? = none ∨ a.lock? = task.lock?) ∧ R (k.access a s).2 t

variable [DecidableEq ι] {s : Scene σ ι α}

/-- A step of a call outside of locks keeps it on its way. -/
theorem OnCourse.step_outside {g : Guarded α} {v : σ} (htask : s.tasks i = .outside g)
    (hbehaves : g.Behaves (Allowed i) Answers) (hsees : View (key i) s.state v)
    (halone : (strokes i).run g.unlocked v = (strokes i).run (calls i).unlocked start) :
    OnCourse View key Allowed Answers strokes calls start i (s.step strokes i).state
        ((s.step strokes i).tasks i) ∧
      Unseen R (Allowed i) (strokes i) (s.tasks i) s.state (s.step strokes i).state := by
  have hsame := hapart.equivalence.refl
  have hstays : OnCourse View key Allowed Answers strokes calls start i s.state (.outside g) :=
    ⟨.outside hbehaves, v, hsees, halone⟩
  cases hbehaves with
  | done a =>
    rw [step_of_result (by rw [htask]; rfl), htask]
    exact ⟨hstays, .inl (hsame _)⟩
  | fail f =>
    rw [step_of_result (by rw [htask]; rfl), htask]
    exact ⟨hstays, .inl (hsame _)⟩
  | log e hbehaves =>
    have hunseen := hapart.log i e
    rw [step_of_log htask, tasks_set_self]
    exact ⟨⟨.outside hbehaves, _, hapart.related (hunseen _) (hunseen _) hsees, halone⟩,
      .inl (hunseen _)⟩
  | @access a next hfree hallowed hgoesOn =>
    obtain ⟨hok, herror⟩ := hapart.alone_access _ hallowed hsees halone
    rw [step_of_access htask, tasks_set_self, htask]
    refine ⟨?_, .inr ⟨_, hallowed, .inl hfree, hsame _⟩⟩
    rcases hanswered : ((strokes i).access a s.state).1 with f | r
    · exact ⟨.outside (.fail f), herror f hanswered⟩
    · obtain ⟨hwell, halone⟩ := hok r hanswered
      exact ⟨.outside (hgoesOn r hwell), halone⟩
  | @hold a l next hlocked hallowed hgoesOn =>
    cases held : s.locks.isHeld l with
    | true =>
      rw [step_of_held htask held, htask]
      exact ⟨hstays, .inl (hsame _)⟩
    | false =>
      rw [step_of_free htask held]
      show OnCourse _ _ _ _ _ _ _ _ s.state ((s.set i s.state _).tasks i) ∧ _
      rw [tasks_set_self]
      exact ⟨⟨.before hlocked hallowed hgoesOn, v, hsees, halone⟩, .inl (hsame _)⟩

/-- The first stroke of an access inside of a lock reads what the access finds. -/
theorem OnCourse.step_before {l : Lock} {next : a.Answer → Guarded α} {v : σ}
    (htask : s.tasks i = .inside l none (.access a .done) next) (hlocked : a.lock? = some l)
    (hallowed : Allowed i a) (hgoesOn : ∀ r, Answers a r → (next r).Behaves (Allowed i) Answers)
    (hsees : View (key i) s.state v)
    (halone : (strokes i).run (.access a fun r => (next r).unlocked) v =
      (strokes i).run (calls i).unlocked start) :
    OnCourse View key Allowed Answers strokes calls start i (s.step strokes i).state
        ((s.step strokes i).tasks i) ∧
      Unseen R (Allowed i) (strokes i) (s.tasks i) s.state (s.step strokes i).state := by
  have hunseen := hapart.first i a s.state
  rcases hread : (strokes i).first a s.state with ⟨f | fields, t⟩ <;> rw [hread] at hunseen
  · obtain ⟨-, herror⟩ := hapart.alone_access next hallowed hsees halone
    have hfailed := hapart.access_of_first hread
    rw [hfailed] at herror
    rw [step_of_first_error htask hread, tasks_set_self]
    exact ⟨⟨.failed, herror f rfl⟩, .inl hunseen⟩
  · have hsaw := (hapart.agreesFirst i a _ _ hunseen).1.symm
    rw [hread] at hsaw
    rw [step_of_first_ok htask hread, tasks_set_self]
    exact ⟨⟨.midway hlocked hallowed hgoesOn hsaw, v,
      hapart.related hunseen (hapart.equivalence.refl v) hsees, halone⟩, .inl hunseen⟩

/-- The second stroke of an access inside of a lock completes it. -/
theorem OnCourse.step_midway {l : Lock} {fields : Fields} {next : a.Answer → Guarded α} {v : σ}
    (htask : s.tasks i = .inside l (some fields) (.access a .done) next)
    (hlocked : a.lock? = some l) (hallowed : Allowed i a)
    (hgoesOn : ∀ r, Answers a r → (next r).Behaves (Allowed i) Answers)
    (hsaw : ((strokes i).first a s.state).1 = .ok fields) (hsees : View (key i) s.state v)
    (halone : (strokes i).run (.access a fun r => (next r).unlocked) v =
      (strokes i).run (calls i).unlocked start) :
    OnCourse View key Allowed Answers strokes calls start i (s.step strokes i).state
        ((s.step strokes i).tasks i) ∧
      Unseen R (Allowed i) (strokes i) (s.tasks i) s.state (s.step strokes i).state := by
  obtain ⟨hresult, hunseen⟩ := hapart.second_of_first hsaw
  obtain ⟨hok, herror⟩ := hapart.alone_access next hallowed hsees halone
  have hstays (v : σ) (hsees : View (key i) _ v) :=
    hapart.related hunseen (hapart.equivalence.refl v) hsees
  rw [step_of_second htask, tasks_set_self, hresult, htask]
  refine ⟨?_, .inr ⟨_, hallowed, .inr hlocked, hunseen⟩⟩
  rcases hanswered : ((strokes i).access a s.state).1 with f | r
  · obtain ⟨v, hsees, halone⟩ := herror f hanswered
    exact ⟨.failed, v, hstays v hsees, halone⟩
  · obtain ⟨hwell, v, hsees, halone⟩ := hok r hanswered
    exact ⟨.made (hgoesOn r hwell), v, hstays v hsees, halone⟩

/-- A step of a call keeps it on its way. -/
theorem OnCourse.step
    (hcourse : OnCourse View key Allowed Answers strokes calls start i s.state (s.tasks i)) :
    OnCourse View key Allowed Answers strokes calls start i (s.step strokes i).state
        ((s.step strokes i).tasks i) ∧
      Unseen R (Allowed i) (strokes i) (s.tasks i) s.state (s.step strokes i).state := by
  obtain ⟨hstage, v, hsees, halone⟩ := hcourse
  have hsame := hapart.equivalence.refl
  cases htask : s.tasks i with
  | outside g =>
    rw [htask] at hstage halone
    cases hstage with
    | outside hbehaves => exact htask ▸ step_outside hapart htask hbehaves hsees halone
  | inside l seen rest next =>
    rw [htask] at hstage halone
    cases hstage with
    | before hlocked hallowed hgoesOn =>
      exact htask ▸ step_before hapart htask hlocked hallowed hgoesOn hsees halone
    | midway hlocked hallowed hgoesOn hsaw =>
      exact htask ▸ step_midway hapart htask hlocked hallowed hgoesOn hsaw hsees halone
    | made hbehaves =>
      rw [step_of_inside_done htask]
      show OnCourse _ _ _ _ _ _ _ _ s.state ((s.set i s.state (.outside _)).tasks i) ∧ _
      rw [tasks_set_self]
      exact ⟨⟨.outside hbehaves, v, hsees, halone⟩, .inl (hsame _)⟩
    | failed =>
      rw [step_of_inside_fail htask]
      show OnCourse _ _ _ _ _ _ _ _ s.state ((s.set i s.state (.outside _)).tasks i) ∧ _
      rw [tasks_set_self]
      exact ⟨⟨.outside (.fail _), v, hsees, halone⟩, .inl (hsame _)⟩

/-! ## Runs -/

omit hapart in
variable (View key Allowed Answers strokes calls start) in
/-- Every call is on the way that it would take alone, and what no call sees is as it was. -/
structure Along (s : Scene σ ι α) : Prop where
  disciplined : s.Disciplined
  course : ∀ i, OnCourse View key Allowed Answers strokes calls start i s.state (s.tasks i)
  others : ∀ k, View k start start → (∀ i, key i ≠ k) → View k s.state start

theorem Along.step (hdistinct : ∀ i j, key i = key j → i = j)
    (halong : Along View key Allowed Answers strokes calls start s) (i : ι) :
    Along View key Allowed Answers strokes calls start (s.step strokes i) := by
  obtain ⟨hdisciplined, hcourse, hothers⟩ := halong
  obtain ⟨hown, hunseen⟩ := OnCourse.step hapart (hcourse i)
  refine ⟨hdisciplined.step strokes i, fun j => ?_, fun k hsees hfree => ?_⟩
  · by_cases hequal : j = i
    · exact hequal ▸ hown
    · rw [tasks_step_of_ne hequal]
      rcases hunseen with hrelated | ⟨a, hallowed, hinside, hrelated⟩
      · exact (hcourse j).of_related hapart hrelated
      · refine OnCourse.of_related hapart ((hcourse j).of_access hapart
          (fun hsame => hequal (hdistinct j i hsame)) hallowed fun l held hneeds => ?_) hrelated
        rcases hinside with hfree | hsame
        · rw [hfree] at hneeds
          cases hneeds
        · exact hequal (hdisciplined.alone j i l held (hsame.symm.trans hneeds))
  · have hsame := hapart.equivalence.refl start
    rcases hunseen with hrelated | ⟨a, hallowed, -, hrelated⟩
    · exact hapart.related hrelated hsame (hothers k hsees hfree)
    · exact hapart.related hrelated hsame
        (hapart.spares i hallowed (hfree i).symm _ _ (hothers k hsees hfree))

/-- However calls are mixed, each goes the way that it would take alone. -/
theorem along_play (hdistinct : ∀ i j, key i = key j → i = j)
    (hsees : ∀ i, View (key i) start start)
    (hbehaves : ∀ i, (calls i).Behaves (Allowed i) Answers) (schedule : List ι) :
    Along View key Allowed Answers strokes calls start
      (play strokes schedule { state := start, tasks := fun i => .outside (calls i) }) := by
  have hfirst : Along View key Allowed Answers strokes calls start
      { state := start, tasks := fun i => .outside (calls i) } :=
    ⟨disciplined_start start calls, fun i => ⟨.outside (hbehaves i), start, hsees _, rfl⟩,
      fun k hsees _ => hsees⟩
  generalize ({ state := start, tasks := fun i => .outside (calls i) } : Scene σ ι α) = s at hfirst
  induction schedule generalizing s with
  | nil => exact hfirst
  | cons i rest ih => exact ih _ (hfirst.step hapart hdistinct i)

omit hapart [DecidableEq ι] in
/-- A call that has ended came to what it comes to alone, and it sees what it would see then. -/
theorem Along.result (halong : Along View key Allowed Answers strokes calls start s)
    {r : Except Failure α} (hended : (s.tasks i).result? = some r) :
    r = ((strokes i).run (calls i).unlocked start).1 ∧
      View (key i) s.state ((strokes i).run (calls i).unlocked start).2 := by
  obtain ⟨-, v, hsees, halone⟩ := halong.course i
  cases htask : s.tasks i with
  | inside l seen rest next =>
    rw [htask] at hended
    cases hended
  | outside g =>
    rw [htask] at hended halone
    cases g with
    | done a =>
      cases hended
      rw [← halone]
      exact ⟨rfl, hsees⟩
    | fail f =>
      cases hended
      rw [← halone]
      exact ⟨rfl, hsees⟩
    | log | access | hold => cases hended

end

end Scene

end Dialogue
