import Dialogue.Proofs.Deployment.Isolation
import Dialogue.Proofs.Deployment.Strokes

/-!
# Demands that are met side by side

Any number of demands may be made of a deployment at a time (`Deployment.playAll`), each a program
that holds the locks that its operation takes (`Demand.guarded`).

Demands that write flows of one tenant, whatever the spelling, are answered as if they had been made
one after another, in the order in which they took the lock of the tenant, and they leave behind
what they leave behind then (`Deployment.replies_of_playAll`).
-/

namespace Dialogue

open Run Store

namespace Demand

/-- A demand as a program that holds locks, at the time of a clock. -/
def guarded (clock : String) : Demand → Guarded Answer
  | operate (.createFlow tenant name preset) =>
    (Guarded.createFlow clock tenant name preset).bind fun (flow, location) =>
      .done (.located (.flow flow) location)
  | operate (.saveFlow tenant flow) =>
    (Guarded.saveFlow clock tenant flow).bind fun (flow, location) =>
      .done (.located (.flow flow) location)
  | operate (.ensurePreset tenant name) =>
    (Guarded.ensurePreset clock tenant name).bind fun (created, location) =>
      .done (.located (.created created) location)
  | operate (.appendStep tenant name step) =>
    (Guarded.appendStep clock tenant name step).bind fun flow => .done (.plain (.flow flow))
  | operate (.addStep tenant name draft) =>
    (Guarded.addStep clock tenant name draft).bind fun (document, flow) =>
      .done (.plain (.step document flow))
  | operate op => (op.program clock).guarded.bind fun answer => .done (.plain answer)
  | check tenant name => (Authoring.checkFlow tenant name).guarded.bind fun problems =>
      .done (.problems problems)

theorem unlocked_guarded (clock : String) (demand : Demand) :
    (demand.guarded clock).unlocked = demand.program clock := by
  cases demand with
  | check tenant name =>
    rw [guarded, Guarded.unlocked_bind, Program.unlocked_guarded]
    rfl
  | operate op =>
    have hplain : ((op.program clock).guarded.bind fun answer =>
        .done (Answer.plain answer)).unlocked =
          (op.program clock).bind fun answer => .done (.plain answer) := by
      rw [Guarded.unlocked_bind, Program.unlocked_guarded]
      rfl
    cases op with
    | createFlow tenant name preset =>
      rw [guarded, Guarded.unlocked_bind, Guarded.unlocked_createFlow]
      rfl
    | saveFlow tenant flow =>
      rw [guarded, Guarded.unlocked_bind, Guarded.unlocked_saveFlow]
      rfl
    | ensurePreset tenant name =>
      rw [guarded, Guarded.unlocked_bind, Guarded.unlocked_ensurePreset]
      rfl
    | appendStep tenant name step =>
      rw [guarded, Guarded.unlocked_bind, Guarded.unlocked_appendStep]
      exact (Program.bind_assoc (Store.appendStep clock tenant name step)
        (fun flow => .done (Operation.Answer.flow flow))
        fun answer => .done (Answer.plain answer)).symm
    | addStep tenant name draft =>
      rw [guarded, Guarded.unlocked_bind, Guarded.unlocked_addStep]
      exact (Program.bind_assoc (Authoring.addStep clock tenant name draft)
        (fun added => .done (Operation.Answer.step added.1 added.2))
        fun answer => .done (Answer.plain answer)).symm
    | _ => exact hplain

/-- The demand writes a flow: it saves one, appends a step to one or ensures that there is one. -/
def Writes : Demand → Prop
  | operate (.saveFlow _ _) | operate (.appendStep _ _ _) | operate (.ensurePreset _ _) => True
  | _ => False

/-- A demand that writes a flow takes the lock of its tenant, once. -/
theorem takesTurn_guarded (clock : String) {demand : Demand} (hwrites : demand.Writes) :
    (demand.guarded clock).TakesTurn (.ofFlows demand.tenant) := by
  cases demand with
  | check tenant name => exact hwrites.elim
  | operate op =>
    cases op with
    | saveFlow tenant flow =>
      exact (Guarded.takesTurn_saveFlow clock tenant flow).bind fun _ => .done _
    | ensurePreset tenant name =>
      exact (Guarded.takesTurn_ensurePreset clock tenant name).bind fun _ => .done _
    | appendStep tenant name step =>
      exact (Guarded.takesTurn_appendStep clock tenant name step).bind fun _ => .done _
    | _ => exact hwrites.elim

end Demand

namespace Deployment

variable {ι : Type} [DecidableEq ι]

omit [DecidableEq ι] in
/-- Demands are made of a deployment, and none has got anywhere yet. -/
def scene (calls : ι → Asking) (d : Deployment) : Scene Deployment ι Demand.Answer :=
  { state := d, tasks := fun i => .outside ((calls i).demand.guarded (calls i).clock) }

/-- Demands are met side by side, in the order of a schedule. -/
def playAll (calls : ι → Asking) (schedule : List ι) (d : Deployment) :
    Scene Deployment ι Demand.Answer :=
  (d.scene calls).play (fun i => strokes d.engine (calls i).clock) schedule

variable {d d' : Deployment} {e : Engine} {clock : String} {α : Type}

/-- A call that sets the time before each of its accesses does what it does if the time was set
before. -/
theorem run_strokes (p : Program α) (htimed : d.clock = clock) :
    (strokes e clock).run p d = p.run (access e) log d := by
  induction p generalizing d with
  | done a => rfl
  | fail f => rfl
  | log event next ih => exact ih htimed
  | access a next ih =>
    have hsame : (strokes e clock).access a d = access e a d := by
      subst htimed
      rfl
    have hlater : (access e a d).2.clock = clock := (clock_accessStore _ a d).trans htimed
    rw [Program.run]
    rcases hran : access e a d with ⟨f | r, t⟩
    · rw [Strokes.run_access_error (hsame.trans hran), Run.bind, hran]
    · rw [hran] at hlater
      rw [Strokes.run_access_ok (hsame.trans hran), ih r hlater, Run.bind, hran]

theorem engine_run (p : Program α) (d : Deployment) :
    (p.run (access e) log d).2.engine = d.engine := by
  induction p generalizing d with
  | done a => rfl
  | fail f => rfl
  | log event next ih => exact ih _
  | access a next ih =>
    have hkept : (access e a d).2.engine = d.engine := engine_accessStore _ a d
    rw [Program.run, Run.bind]
    rcases hran : access e a d with ⟨f | r, t⟩
    · rwa [hran] at hkept
    · rw [hran] at hkept
      exact (ih r t).trans hkept

theorem engine_meet (clock : String) (demand : Demand) (d : Deployment) :
    (d.meet clock demand).2.engine = d.engine := engine_run _ _

/-- A call does not see what deployments differ in that are the same. -/
theorem agrees_run (e : Engine) (clock : String) (p : Program α) :
    Agrees Same ((strokes e clock).run p) := by
  have hmakes : p.Makes fun _ => True := by
    induction p with
    | done a => exact .done a
    | fail f => exact .fail f
    | log event next ih => exact .log event ih
    | access a next ih => exact .access trivial ih
  refine Program.agrees_of_makes (fun event d d' hsame => ?_) (fun a _ => agrees_at _ a clock)
    hmakes
  rw [← hsame]
  rfl

/-- A demand is met on a deployment as its program runs on one that is the same. -/
theorem meet_of_same (hengine : d.engine = e) (hsame : d.Same d') (clock : String)
    (demand : Demand) :
    (d.meet clock demand).1 = ((strokes e clock).run (demand.guarded clock).unlocked d').1 ∧
      (d.meet clock demand).2.Same
        ((strokes e clock).run (demand.guarded clock).unlocked d').2 := by
  have htimed : (strokes e clock).run (demand.program clock) { d with clock } =
      d.meet clock demand := by
    have hat : Deployment.clock { d with clock } = clock := rfl
    rw [meet, run, hengine]
    exact run_strokes _ hat
  have hsame' : Same { d with clock } d' := by
    rw [← hsame]
    rfl
  rw [Demand.unlocked_guarded, ← htimed]
  exact agrees_run e clock _ _ _ hsame'

theorem call_eq_strokes (hengine : d.engine = e) (clock : String) (op : Operation) :
    d.call clock op = (strokes e clock).run (op.program clock) { d with clock } := by
  subst hengine
  have hat : Deployment.clock { d with clock } = clock := rfl
  exact (run_strokes _ hat).symm

theorem call_of_same (hsame : d.Same d') (clock : String) (op : Operation) :
    (d.call clock op).1 = (d'.call clock op).1 := by
  have hengine : d'.engine = d.engine := by rw [← hsame]
  have hsame' : Same { d with clock } { d' with clock } := by
    rw [← hsame]
    rfl
  rw [call_eq_strokes rfl, call_eq_strokes hengine]
  exact (agrees_run d.engine clock (op.program clock) _ _ hsame').1

/-! ## Replies in turn -/

theorem replies_append (askings : List Asking) (asking : Asking) (d : Deployment) :
    d.replies (askings ++ [asking]) = d.replies askings ++
        [(asking, ((d.afterAll askings).meet asking.clock asking.demand).1)] := by
  induction askings generalizing d with
  | nil => rfl
  | cons first rest ih => simp only [List.cons_append, replies, afterAll, ih]

theorem afterAll_append (askings : List Asking) (asking : Asking) (d : Deployment) :
    d.afterAll (askings ++ [asking]) =
      ((d.afterAll askings).meet asking.clock asking.demand).2 := by
  induction askings generalizing d with
  | nil => rfl
  | cons first rest ih => simp only [List.cons_append, afterAll, ih]

theorem engine_afterAll (askings : List Asking) (d : Deployment) :
    (d.afterAll askings).engine = d.engine := by
  induction askings generalizing d with
  | nil => rfl
  | cons asking rest ih => rw [afterAll, ih, engine_meet]

variable {calls : ι → Asking} {tenant : Value}

omit [DecidableEq ι] in
/-- Demands that are met one after another leave the deployment that the run in turns comes to. -/
theorem same_inTurn (calls : ι → Asking) (d : Deployment) (turns : List ι) :
    Same (d.afterAll (turns.reverse.map calls))
      (Scene.inTurn (fun i => strokes d.engine (calls i).clock)
        (fun i => (calls i).demand.guarded (calls i).clock) d turns) := by
  induction turns with
  | nil => rfl
  | cons i earlier ih =>
    rw [List.reverse_cons, List.map_append, List.map_singleton, afterAll_append]
    exact (meet_of_same (engine_afterAll _ d) ih _ _).2

omit [DecidableEq ι] in
/-- Calls that are past and have ended are answered as in turn. -/
theorem replies_of_past {J : Deployment → Prop} (holds : J d) {tasks : ι → Task Demand.Answer}
    (hended : ∀ i, (tasks i).result? ≠ none) {turns : List ι}
    (hpast : Scene.Past J (fun i => strokes d.engine (calls i).clock)
      (fun i => (calls i).demand.guarded (calls i).clock) d tasks turns) :
    (turns.reverse.map fun i => (calls i, (tasks i).result?)) =
      (d.replies (turns.reverse.map calls)).map fun reply => (reply.1, some reply.2) := by
  induction turns with
  | nil => rfl
  | cons i earlier ih =>
    obtain ⟨⟨g, houtside, -, hresult⟩, hpast⟩ := hpast
    have hanswered := (meet_of_same (engine_afterAll _ d) (same_inTurn calls d earlier)
      (calls i).clock (calls i).demand).1
    have hown : (tasks i).result? = some (((d.afterAll (earlier.reverse.map calls)).meet
        (calls i).clock (calls i).demand).1) := by
      have hfinished := hended i
      have hcame := hresult d holds
      rw [hanswered]
      rw [houtside] at hfinished ⊢
      cases g with
      | done a => exact congrArg some hcame
      | fail f => exact congrArg some hcame
      | log | access | hold => exact absurd rfl hfinished
    simp only [List.reverse_cons, List.map_append, List.map_cons, List.map_nil, replies_append,
      ih hpast, hown]

/-- A demand that neither has taken the lock nor is going to was refused. -/
theorem refused_of_ended {demand : Demand} (hwrites : demand.Writes)
    (hended : (Task.outside (demand.guarded clock)).result? ≠ none) :
    (Task.outside (demand.guarded clock)).result? = some (.error .flowUnnamed) ∧
      demand.program clock = .fail .flowUnnamed := by
  have hunlocked := demand.unlocked_guarded clock
  cases demand with
  | check tenant name => exact hwrites.elim
  | operate op =>
    cases op with
    | saveFlow tenant flow =>
      simp only [Demand.guarded, Guarded.saveFlow] at hended hunlocked ⊢
      split at hended
      · rename_i hunnamed
        rw [if_pos hunnamed] at hunlocked ⊢
        exact ⟨rfl, hunlocked.symm⟩
      · exact absurd rfl hended
    | ensurePreset tenant name => exact absurd rfl hended
    | appendStep tenant name step => exact absurd rfl hended
    | _ => exact hwrites.elim

/-- Demands that write flows of one tenant, met side by side, take the lock in some order, each once
at most.  They are answered as if they had been met in this order one after another, and they leave
the same deployment.  Those that did not take the lock were refused, and they are at any time. -/
theorem replies_of_playAll (hwrites : ∀ i, (calls i).demand.Writes)
    (hown : ∀ i, (calls i).isOf tenant) (schedule : List ι)
    (hended : ∀ i, ((d.playAll calls schedule).tasks i).result? ≠ none) :
    let scene := d.playAll calls schedule
    let order := scene.turns.reverse
    order.Nodup ∧
      (order.map fun i => (calls i, (scene.tasks i).result?)) =
        (d.replies (order.map calls)).map (fun reply => (reply.1, some reply.2)) ∧
      (d.afterAll (order.map calls)).Same scene.state ∧
      ∀ i, i ∉ order → (scene.tasks i).result? = some (.error .flowUnnamed) ∧
        (calls i).demand.program (calls i).clock = .fail .flowUnnamed := by
  have htakes : ∀ i, ((calls i).demand.guarded (calls i).clock).TakesTurn (.ofFlows tenant) := by
    intro i
    have hsame : Lock.ofFlows (calls i).demand.tenant = .ofFlows tenant :=
      congrArg Lock.flows (by simpa [Asking.isOf] using hown i)
    exact hsame ▸ Demand.takesTurn_guarded _ (hwrites i)
  have hfine := inOnePiece_strokes d.engine (fun i => (calls i).clock) d
  let Placed (d' : Deployment) : Prop :=
    (d'.store d.engine.flows).locate = (d.store d.engine.flows).locate
  have hplaced : Placed d := rfl
  have hserial := Scene.serial_play hfine htakes hplaced schedule
  rcases hserial.current with ⟨-, hreached, hpast⟩ | ⟨-, i, _, -, -, _, _, _, _, hturn⟩
  · refine ⟨List.pairwise_reverse.2 (hserial.nodup.imp Ne.symm),
      replies_of_past hplaced hended hpast, equivalence_same.trans (same_inTurn calls d _) hreached,
      fun i hunlisted => ?_⟩
    have hwaits := hserial.waiting i fun hlisted => hunlisted (List.mem_reverse.2 hlisted)
    have hfinished := hended i
    rw [show (d.playAll calls schedule).tasks i = _ from hwaits] at hfinished ⊢
    exact refused_of_ended (hwrites i) hfinished
  · -- a call that holds the lock has not ended
    exact absurd (congrArg Task.result? hturn.task) (hended i)

end Deployment

end Dialogue
