import Dialogue.Proofs.Guarded
import Dialogue.Proofs.Scene.Step

/-!
# Calls that take turns

Calls that work on flows inside of one and the same lock do what they do one after another, in the
order in which they take the lock, however their steps are mixed (`Scene.serial_play`).

The invariant of a run side by side (`Scene.Serial`) compares the scene with the run in which every
call that has taken the lock is carried out at once.  While nobody holds the lock, the state is that
of the run in turns; while somebody does, that call still comes to what it comes to there.  A call
that has released the lock is idle: what it does then neither changes what is stored nor depends on
it.  States are compared by a relation that leaves open what calls do not see, such as the log.
-/

namespace Dialogue

open Store

namespace Scene

/-- How calls treat flows.  They do not see what the relation leaves open, they make every access to
a flow in one piece, and where a flow lies is the same in all states that a property holds of. -/
structure InOnePiece {σ ι : Type} (R : σ → σ → Prop) (J : σ → Prop) (strokes : ι → Strokes σ) :
    Prop where
  equivalence : Equivalence R
  log : ∀ i e s, R s ((strokes i).log e s)
  agrees : ∀ i {a : Access}, a.isAboutFlows = true → Run.Agrees R ((strokes i).access a)
  first : ∀ i {a : Access}, a.isAboutFlows = true → ∀ s,
    ((strokes i).first a s).1 = .ok [] ∧ R s ((strokes i).first a s).2
  second : ∀ i {a : Access}, a.isAboutFlows = true → ∀ seen,
    (strokes i).second a seen = (strokes i).access a
  locates : ∀ i tenant name, ∃ l, ∀ s, J s →
    ((strokes i).access (.locateFlow tenant name) s).1 = .ok l ∧
      R s ((strokes i).access (.locateFlow tenant name) s).2
  related : ∀ {s t}, R s t → J s → J t
  keeps : ∀ i {a : Access}, a.isAboutFlows = true → ∀ s, J s → J ((strokes i).access a s).2

variable {σ ι α : Type} {R : σ → σ → Prop} {J : σ → Prop} {strokes : ι → Strokes σ}
  {calls : ι → Guarded α} {l : Lock} {start : σ}

section

variable (hfine : InOnePiece R J strokes) (i : ι)

include hfine

theorem InOnePiece.agrees_run {p : Program α} (hflows : p.Makes fun a => a.isAboutFlows = true) :
    Run.Agrees R ((strokes i).run p) := by
  refine Program.agrees_of_makes (fun e s t hrelated => ?_)
    (fun a habout => hfine.agrees i habout) hflows
  exact hfine.equivalence.trans (hfine.equivalence.symm (hfine.log i e s))
    (hfine.equivalence.trans hrelated (hfine.log i e t))

/-- An idle program comes to the same in all states, and it changes nothing that calls see. -/
theorem InOnePiece.settles {g : Guarded α} (hidle : g.IsIdle) :
    ∃ r, ∀ s, J s → ((strokes i).run g.unlocked s).1 = r ∧
      R s ((strokes i).run g.unlocked s).2 := by
  induction hidle with
  | done a => exact ⟨.ok a, fun s _ => ⟨rfl, hfine.equivalence.refl s⟩⟩
  | fail f => exact ⟨.error f, fun s _ => ⟨rfl, hfine.equivalence.refl s⟩⟩
  | log e hrest ih =>
    obtain ⟨r, hsettles⟩ := ih
    refine ⟨r, fun s holds => ?_⟩
    obtain ⟨hresult, hafter⟩ := hsettles _ (hfine.related (hfine.log i e s) holds)
    exact ⟨hresult, hfine.equivalence.trans (hfine.log i e s) hafter⟩
  | @locate tenant name next hrest ih =>
    obtain ⟨place, hlocated⟩ := hfine.locates i tenant name
    obtain ⟨r, hsettles⟩ := ih place
    refine ⟨r, fun s holds => ?_⟩
    obtain ⟨hfound, hsame⟩ := hlocated s holds
    have hran : (strokes i).run (Guarded.access (.locateFlow tenant name) next).unlocked s =
        (strokes i).run (next place).unlocked ((strokes i).access (.locateFlow tenant name) s).2 :=
      Strokes.run_access_ok (Prod.ext hfound rfl)
    obtain ⟨hresult, hafter⟩ := hsettles _ (hfine.related hsame holds)
    rw [hran]
    exact ⟨hresult, hfine.equivalence.trans hsame hafter⟩

end

/-! ## The run in turns -/

variable (strokes calls start) in
/-- The state after calls that were carried out one after another, the latest first. -/
def inTurn : List ι → σ
  | [] => start
  | i :: earlier => ((strokes i).run (calls i).unlocked (inTurn earlier)).2

variable (strokes calls start) in
/-- What a call answers after those that were carried out before it. -/
def answerAfter (earlier : List ι) (i : ι) : Except Failure α :=
  ((strokes i).run (calls i).unlocked (inTurn strokes calls start earlier)).1

variable (strokes J) in
/-- A call is idle and comes to a result, whatever the others do in the meantime. -/
def Settled (i : ι) (task : Task α) (r : Except Failure α) : Prop :=
  ∃ g, task = .outside g ∧ g.IsIdle ∧ ∀ s, J s → ((strokes i).run g.unlocked s).1 = r

variable (strokes calls start J) in
/-- All calls whose turn is over come to what they come to in turn. -/
def Past (tasks : ι → Task α) : List ι → Prop
  | [] => True
  | i :: earlier =>
    Settled J strokes i (tasks i) (answerAfter strokes calls start earlier i) ∧ Past tasks earlier

/-- The turn of a call that holds the lock. -/
structure Turn (R : σ → σ → Prop) (strokes : ι → Strokes σ) (calls : ι → Guarded α) (l : Lock)
    (start : σ) (s : Scene σ ι α) (i : ι) (earlier : List ι) {β : Type} (seen : Option Fields)
    (rest : Program β) (next : β → Guarded α) : Prop where
  task : s.tasks i = .inside l seen rest next
  flows : rest.Makes fun a => a.isAboutFlows = true
  idle : ∀ b, (next b).IsIdle
  result : ((strokes i).run (rest.bind fun b => (next b).unlocked) s.state).1 =
    answerAfter strokes calls start earlier i
  after : R (inTurn strokes calls start (i :: earlier))
    ((strokes i).run (rest.bind fun b => (next b).unlocked) s.state).2

/-- The scene goes as the run in turns. -/
structure Serial (R : σ → σ → Prop) (J : σ → Prop) (strokes : ι → Strokes σ)
    (calls : ι → Guarded α) (l : Lock) (start : σ) (s : Scene σ ι α) : Prop where
  nodup : s.turns.Nodup
  waiting : ∀ i, i ∉ s.turns → s.tasks i = .outside (calls i)
  holds : J s.state
  current :
    (s.locks.isHeld l = false ∧ R (inTurn strokes calls start s.turns) s.state ∧
      Past J strokes calls start s.tasks s.turns) ∨
    (s.locks.isHeld l = true ∧ ∃ i earlier, s.turns = i :: earlier ∧
      Past J strokes calls start s.tasks earlier ∧
      ∃ (β : Type) (seen : Option Fields) (rest : Program β) (next : β → Guarded α),
        Turn R strokes calls l start s i earlier seen rest next)

theorem Past.congr {tasks tasks' : ι → Task α} {turns : List ι}
    (hpast : Past J strokes calls start tasks turns)
    (hkeeps : ∀ i ∈ turns, ∀ r,
      Settled J strokes i (tasks i) r → Settled J strokes i (tasks' i) r) :
    Past J strokes calls start tasks' turns := by
  induction turns with
  | nil => trivial
  | cons i earlier ih =>
    exact ⟨hkeeps i List.mem_cons_self _ hpast.1,
      ih hpast.2 fun j hlisted => hkeeps j (List.mem_cons_of_mem i hlisted)⟩

theorem Past.settled {i : ι} {tasks : ι → Task α} {turns : List ι}
    (hpast : Past J strokes calls start tasks turns) (hlisted : i ∈ turns) :
    ∃ r, Settled J strokes i (tasks i) r := by
  induction turns with
  | nil => cases hlisted
  | cons j earlier ih =>
    rcases List.mem_cons.1 hlisted with rfl | hlisted
    · exact ⟨_, hpast.1⟩
    · exact ih hpast.2 hlisted

/-! ## One step -/

section

variable [DecidableEq ι] {s : Scene σ ι α} {i : ι} (hfine : InOnePiece R J strokes)

include hfine

/-- A call that is idle goes on to the same result.  It changes nothing that others see. -/
theorem step_of_settled {r : Except Failure α} (holds : J s.state)
    (hsettled : Settled J strokes i (s.tasks i) r) :
    ∃ state task, s.step strokes i = s.set i state task ∧ R s.state state ∧
      ∀ r, Settled J strokes i (s.tasks i) r → Settled J strokes i task r := by
  obtain ⟨g, houtside, hidle, -⟩ := hsettled
  have hsame (h : s.step strokes i = s) : ∃ state task, s.step strokes i = s.set i state task ∧
      R s.state state ∧ ∀ r, Settled J strokes i (s.tasks i) r → Settled J strokes i task r := by
    exact ⟨s.state, s.tasks i, h.trans s.set_self.symm, hfine.equivalence.refl _, fun r => id⟩
  cases hidle with
  | done a => exact hsame (by rw [step, houtside])
  | fail f => exact hsame (by rw [step, houtside])
  | @log e next hrest =>
    refine ⟨(strokes i).log e s.state, .outside next, by rw [step, houtside], hfine.log i e _, ?_⟩
    rintro r ⟨g, houtside', -, hresult⟩
    obtain rfl : Guarded.log e next = g := by
      rw [houtside] at houtside'
      injection houtside'
    obtain ⟨r', hsettles⟩ := hfine.settles i hrest
    have hlater := (hsettles _ (hfine.related (hfine.log i e _) holds)).1
    obtain rfl : r' = r := hlater.symm.trans (hresult _ holds)
    exact ⟨next, rfl, hrest, fun t holds => (hsettles t holds).1⟩
  | @locate tenant name next hrest =>
    obtain ⟨place, hlocated⟩ := hfine.locates i tenant name
    obtain ⟨hfound, hunchanged⟩ := hlocated _ holds
    rcases hran : (strokes i).access (.locateFlow tenant name) s.state with ⟨answer, t⟩
    rw [hran] at hfound hunchanged
    obtain rfl : answer = .ok place := hfound
    refine ⟨t, .outside (next place), by rw [step, houtside]; simp only [hran]; rfl, hunchanged, ?_⟩
    rintro r ⟨g, houtside', -, hresult⟩
    obtain rfl : Guarded.access (.locateFlow tenant name) next = g := by
      rw [houtside] at houtside'
      injection houtside'
    obtain ⟨r', hsettles⟩ := hfine.settles i (hrest place)
    have hlater := (hsettles _ (hfine.related hunchanged holds)).1
    have hnow := hresult _ holds
    rw [Guarded.unlocked, Strokes.run_access_ok hran] at hnow
    obtain rfl : r' = r := hlater.symm.trans hnow
    exact ⟨next place, rfl, hrest place, fun t holds => (hsettles t holds).1⟩

theorem Serial.step_of_settled (hserial : Serial R J strokes calls l start s)
    (hlisted : i ∈ s.turns) {r : Except Failure α} (hsettled : Settled J strokes i (s.tasks i) r) :
    Serial R J strokes calls l start (s.step strokes i) := by
  obtain ⟨state, task, hsame, hunseen, hkeeps⟩ := Scene.step_of_settled hfine hserial.holds hsettled
  rw [hsame]
  have hstays {turns : List ι} (hpast : Past J strokes calls start s.tasks turns) :
      Past J strokes calls start (s.set i state task).tasks turns := by
    refine hpast.congr fun j _ r' hsettled' => ?_
    by_cases hequal : j = i
    · subst hequal
      rw [tasks_set_self]
      exact hkeeps r' hsettled'
    · rwa [tasks_set_of_ne hequal]
  refine ⟨hserial.nodup, fun j hunlisted => ?_, hfine.related hunseen hserial.holds, ?_⟩
  · have hdifferent : j ≠ i := fun hequal => hunlisted (hequal ▸ hlisted)
    rw [tasks_set_of_ne hdifferent]
    exact hserial.waiting j hunlisted
  · rcases hserial.current with
      ⟨hfree, hreached, hpast⟩ | ⟨held, j, earlier, hturns, hpast, β, seen, rest, next, hturn⟩
    · exact .inl ⟨hfree, hfine.equivalence.trans hreached hunseen, hstays hpast⟩
    · have hdifferent : j ≠ i := by
        rintro rfl
        obtain ⟨g, houtside, -⟩ := hsettled
        rw [hturn.task] at houtside
        cases houtside
      have hflows := hturn.flows.bind fun b => (hturn.idle b).makes_unlocked
      obtain ⟨hresult, hafter⟩ := hfine.agrees_run j hflows _ _ hunseen
      refine .inr ⟨held, j, earlier, hturns, hstays hpast, β, seen, rest, next, ?_⟩
      exact
        { task := by rw [tasks_set_of_ne hdifferent, hturn.task]
          flows := hturn.flows
          idle := hturn.idle
          result := hresult.symm.trans hturn.result
          after := hfine.equivalence.trans hturn.after hafter }

theorem Serial.step_of_waiting (hserial : Serial R J strokes calls l start s)
    (htakes : (calls i).TakesTurn l) (hunlisted : i ∉ s.turns) :
    Serial R J strokes calls l start (s.step strokes i) := by
  have htask := hserial.waiting i hunlisted
  cases hcalled : calls i with
  | done a => rw [hcalled] at htakes; cases htakes
  | log e next => rw [hcalled] at htakes; cases htakes
  | access a next => rw [hcalled] at htakes; cases htakes
  | fail f =>
    rw [hcalled] at htask
    have hsame : s.step strokes i = s := by rw [step, htask]
    rwa [hsame]
  | hold l' rest next =>
    have hmakes := htakes.makes_unlocked
    rw [hcalled] at htask htakes
    obtain ⟨hflows, hidle⟩ :
        rest.Makes (fun a => a.isAboutFlows = true) ∧ ∀ b, (next b).IsIdle := by
      cases htakes with
      | hold hflows hidle => exact ⟨hflows, hidle⟩
    obtain rfl : l' = l := by cases htakes; rfl
    rcases hserial.current with ⟨hfree, hreached, hpast⟩ | ⟨held, -⟩
    · cases htaken : s.locks.take? l' with
      | none => simp [Locks.take?, hfree] at htaken
      | some locks =>
        have hstepped : s.step strokes i =
            { s.set i s.state (.inside l' none rest next) with locks, turns := i :: s.turns } := by
          rw [step, htask]
          simp only [htaken]
        obtain ⟨hresult, hafter⟩ := hfine.agrees_run i hmakes _ _ hreached
        rw [hcalled] at hresult hafter
        rw [hstepped]
        refine ⟨List.nodup_cons.2 ⟨hunlisted, hserial.nodup⟩, fun j hother => ?_,
          hserial.holds, .inr
          ⟨(Locks.of_take?_eq_some htaken).2.1, i, s.turns, rfl, ?_, _, none, rest, next, ?_⟩⟩
        · have hdifferent : j ≠ i := fun hequal => hother (hequal ▸ List.mem_cons_self)
          exact (if_neg hdifferent).trans
            (hserial.waiting j fun hlisted => hother (List.mem_cons_of_mem i hlisted))
        · refine hpast.congr fun j hlisted r hsettled => ?_
          have hdifferent : j ≠ i := fun hequal => hunlisted (hequal ▸ hlisted)
          show Settled _ _ _ ((s.set i s.state _).tasks j) _
          rwa [tasks_set_of_ne hdifferent]
        · exact
            { task := if_pos rfl
              flows := hflows, idle := hidle
              result := by
                rw [answerAfter, hcalled]
                exact hresult.symm
              after := by
                rw [inTurn, hcalled]
                exact hafter }
    · have hsame : s.step strokes i = s := by
        rw [step, htask]
        simp only [Locks.take?_eq_none held]
      rwa [hsame]

omit hfine in
/-- The call that holds the lock goes on inside of it. -/
theorem Serial.of_turn (hserial : Serial R J strokes calls l start s) {earlier : List ι}
    (hturns : s.turns = i :: earlier) (hpast : Past J strokes calls start s.tasks earlier)
    (held : s.locks.isHeld l = true) {state : σ} (holds : J state) {β : Type}
    {seen : Option Fields} {rest : Program β} {next : β → Guarded α}
    (hturn : Turn R strokes calls l start (s.set i state (.inside l seen rest next)) i earlier seen
      rest next) :
    Serial R J strokes calls l start (s.set i state (.inside l seen rest next)) := by
  have hnodup := hserial.nodup
  rw [hturns] at hnodup
  refine ⟨hserial.nodup, fun j hunlisted => ?_, holds, .inr
    ⟨held, i, earlier, hturns, ?_, β, seen, rest, next, hturn⟩⟩
  · have hdifferent : j ≠ i := by
      rintro rfl
      exact hunlisted (by simp [hturns])
    rw [tasks_set_of_ne hdifferent]
    exact hserial.waiting j hunlisted
  · refine hpast.congr fun j hlisted r hsettled => ?_
    have hdifferent : j ≠ i := by
      rintro rfl
      exact (List.nodup_cons.1 hnodup).1 hlisted
    rwa [tasks_set_of_ne hdifferent]

/-- The call that holds the lock releases it, and is idle from then on. -/
theorem Serial.of_release (hserial : Serial R J strokes calls l start s) {earlier : List ι}
    (hturns : s.turns = i :: earlier) (hpast : Past J strokes calls start s.tasks earlier)
    {g : Guarded α} (hidle : g.IsIdle)
    (hresult : ((strokes i).run g.unlocked s.state).1 = answerAfter strokes calls start earlier i)
    (hafter : R (inTurn strokes calls start (i :: earlier))
      ((strokes i).run g.unlocked s.state).2) :
    Serial R J strokes calls l start
      { s.set i s.state (.outside g) with locks := s.locks.release l } := by
  have hnodup := hserial.nodup
  rw [hturns] at hnodup
  obtain ⟨r, hsettles⟩ := hfine.settles i hidle
  obtain ⟨hnow, hunseen⟩ := hsettles _ hserial.holds
  refine ⟨hserial.nodup, fun j hunlisted => ?_, hserial.holds, .inl
    ⟨Locks.isHeld_release_self, ?_, ?_⟩⟩
  · have hdifferent : j ≠ i := by
      rintro rfl
      exact hunlisted (by simp [hturns])
    exact (if_neg hdifferent).trans (hserial.waiting j hunlisted)
  · show R (inTurn strokes calls start s.turns) s.state
    rw [hturns]
    exact hfine.equivalence.trans hafter (hfine.equivalence.symm hunseen)
  · show Past J strokes calls start (s.set i s.state (.outside g)).tasks s.turns
    rw [hturns]
    refine ⟨⟨g, tasks_set_self, hidle, fun t holds => ?_⟩, hpast.congr fun j hlisted r hsettled =>
      ?_⟩
    · rw [(hsettles t holds).1, ← hnow, hresult]
    · have hdifferent : j ≠ i := by
        rintro rfl
        exact (List.nodup_cons.1 hnodup).1 hlisted
      rwa [tasks_set_of_ne hdifferent]

/-- The call that holds the lock makes the first stroke of an access, which reads nothing. -/
theorem Serial.step_of_first (hserial : Serial R J strokes calls l start s) {earlier : List ι}
    (hturns : s.turns = i :: earlier) (hpast : Past J strokes calls start s.tasks earlier)
    (held : s.locks.isHeld l = true) {a : Access} {β : Type} {rest : a.Answer → Program β}
    {next : β → Guarded α} (habout : a.isAboutFlows = true)
    (hturn : Turn R strokes calls l start s i earlier none (.access a rest) next) :
    Serial R J strokes calls l start (s.step strokes i) := by
  obtain ⟨htask, hflows, hidle, hresult, hafter⟩ := hturn
  obtain ⟨hnothing, hunseen⟩ := hfine.first i habout s.state
  rcases hran : (strokes i).first a s.state with ⟨r, t⟩
  rw [hran] at hnothing hunseen
  obtain rfl : r = .ok [] := hnothing
  have hstepped : s.step strokes i = s.set i t (.inside l (some []) (.access a rest) next) := by
    rw [step, htask]
    simp only [hran]
  have hrelated := hfine.agrees_run i (hflows.bind fun b => (hidle b).makes_unlocked) _ _ hunseen
  rw [hstepped]
  exact hserial.of_turn hturns hpast held (hfine.related hunseen hserial.holds)
    { task := tasks_set_self
      flows := hflows
      idle := hidle
      result := hrelated.1.symm.trans hresult
      after := hfine.equivalence.trans hafter hrelated.2 }

/-- The call that holds the lock makes the second stroke of an access, which does all of it. -/
theorem Serial.step_of_second (hserial : Serial R J strokes calls l start s) {earlier : List ι}
    (hturns : s.turns = i :: earlier) (hpast : Past J strokes calls start s.tasks earlier)
    (held : s.locks.isHeld l = true) {a : Access} {β : Type} {rest : a.Answer → Program β}
    {next : β → Guarded α} {seen : Fields} (habout : a.isAboutFlows = true)
    (hgoesOn : ∀ r, (rest r).Makes fun a => a.isAboutFlows = true)
    (hturn : Turn R strokes calls l start s i earlier (some seen) (.access a rest) next) :
    Serial R J strokes calls l start (s.step strokes i) := by
  obtain ⟨htask, -, hidle, hresult, hafter⟩ := hturn
  have holds := hfine.keeps i habout _ hserial.holds
  rcases hran : (strokes i).access a s.state with ⟨f | r, t⟩
  · have hstepped : s.step strokes i = s.set i t (.inside l none (.fail f) next) := by
      rw [step, htask]
      simp only [hfine.second i habout, hran]
      rfl
    rw [Program.bind, Strokes.run_access_error hran] at hresult hafter
    rw [hran] at holds
    rw [hstepped]
    exact hserial.of_turn hturns hpast held holds
      { task := tasks_set_self, flows := .fail f, idle := hidle, result := hresult,
        after := hafter }
  · have hstepped : s.step strokes i = s.set i t (.inside l none (rest r) next) := by
      rw [step, htask]
      simp only [hfine.second i habout, hran]
      rfl
    rw [Program.bind, Strokes.run_access_ok hran] at hresult hafter
    rw [hran] at holds
    rw [hstepped]
    exact hserial.of_turn hturns hpast held holds
      { task := tasks_set_self, flows := hgoesOn r, idle := hidle, result := hresult,
        after := hafter }

/-- The call that holds the lock goes on. -/
theorem Serial.step_of_turn (hserial : Serial R J strokes calls l start s) {earlier : List ι}
    (hturns : s.turns = i :: earlier) (hpast : Past J strokes calls start s.tasks earlier)
    (held : s.locks.isHeld l = true) {β : Type} {seen : Option Fields} {rest : Program β}
    {next : β → Guarded α} (hturn : Turn R strokes calls l start s i earlier seen rest next) :
    Serial R J strokes calls l start (s.step strokes i) := by
  obtain ⟨htask, hflows, hidle, hresult, hafter⟩ := hturn
  cases hflows with
  | done b =>
    have hstepped : s.step strokes i =
        { s.set i s.state (.outside (next b)) with locks := s.locks.release l } := by
      rw [step, htask]
    rw [hstepped]
    exact hserial.of_release hfine hturns hpast (hidle b) hresult hafter
  | fail f =>
    have hstepped : s.step strokes i =
        { s.set i s.state (.outside (.fail f)) with locks := s.locks.release l } := by
      rw [step, htask]
    rw [hstepped]
    exact hserial.of_release hfine hturns hpast (.fail f) hresult hafter
  | @log e rest hflows =>
    have hstepped : s.step strokes i =
        s.set i ((strokes i).log e s.state) (.inside l seen rest next) := by
      rw [step, htask]
    rw [hstepped]
    refine hserial.of_turn hturns hpast held (hfine.related (hfine.log i e _) hserial.holds) ?_
    exact { task := tasks_set_self, flows := hflows, idle := hidle, result := hresult,
            after := hafter }
  | access habout hgoesOn =>
    cases seen with
    | none =>
      exact hserial.step_of_first hfine hturns hpast held habout
        ⟨htask, .access habout hgoesOn, hidle, hresult, hafter⟩
    | some seen =>
      exact hserial.step_of_second hfine hturns hpast held habout hgoesOn
        ⟨htask, .access habout hgoesOn, hidle, hresult, hafter⟩

/-- One step of a call keeps the scene going as the run in turns. -/
theorem Serial.step (htakes : ∀ i, (calls i).TakesTurn l)
    (hserial : Serial R J strokes calls l start s) (i : ι) :
    Serial R J strokes calls l start (s.step strokes i) := by
  by_cases hlisted : i ∈ s.turns
  · rcases hserial.current with
      ⟨-, -, hpast⟩ | ⟨held, j, earlier, hturns, hpast, β, seen, rest, next, hturn⟩
    · obtain ⟨r, hsettled⟩ := hpast.settled hlisted
      exact hserial.step_of_settled hfine hlisted hsettled
    · by_cases hsame : i = j
      · subst hsame
        exact hserial.step_of_turn hfine hturns hpast held hturn
      · rw [hturns] at hlisted
        obtain ⟨r, hsettled⟩ := hpast.settled ((List.mem_cons.1 hlisted).resolve_left hsame)
        exact hserial.step_of_settled hfine (hturns ▸ hlisted) hsettled
  · exact hserial.step_of_waiting hfine (htakes i) hlisted

/-- However calls are mixed, the scene goes as the run in turns. -/
theorem serial_play (htakes : ∀ i, (calls i).TakesTurn l) (holds : J start) (schedule : List ι) :
    Serial R J strokes calls l start
      (play strokes schedule { state := start, tasks := fun i => .outside (calls i) }) := by
  have hfirst : Serial R J strokes calls l start
      { state := start, tasks := fun i => .outside (calls i) } :=
    ⟨List.nodup_nil, fun _ _ => rfl, holds, .inl ⟨rfl, hfine.equivalence.refl _, trivial⟩⟩
  generalize ({ state := start, tasks := fun i => .outside (calls i) } : Scene σ ι α) = s at hfirst
  induction schedule generalizing s with
  | nil => exact hfirst
  | cons i rest ih => exact ih _ (hfirst.step hfine htakes i)

end

end Scene

end Dialogue
