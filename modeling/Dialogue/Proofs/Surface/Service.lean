import Dialogue.Proofs.Surface.Request
import Dialogue.Proofs.Surface.Running

/-!
# Requests over files with any content

Every request that is sent is answered, whatever the files hold.  The status of the answer is 500 in
one case only: where the request adds a step that is blocked (`exists_handle`).
-/

namespace Dialogue.Service

open Store

variable {ctx : Context} {body : Option Value} {route : Route} {response : Response} {hops : Int}
  {d : Deployment} {engine : Engine} {r : Request}

/-- The flow that a message is for. -/
def NewMessage.flowFor (m : NewMessage) (settings : Settings) : Value :=
  (Value.ofOption m.flow).orElse ((settings.flows.resolve? (.ofOption m.intent)).getD .null)

/-- The flow that a route names; some name it in the body of a request. -/
def Route.flow? (settings : Settings) (body : Option Value) : Route → Option Value
  | .createFlow => (readBody NewFlow.read body).toOption.map fun n => .str n.name
  | .showFlow name => some (.str name)
  | .checkFlow name => some (.str name)
  | .addStep name => some (.str name)
  | .tryFlow name => some (.str name)
  | .inbound => (readBody NewMessage.read body).toOption.map (·.flowFor settings)
  | _ => none

/-- The step that a route adds, with the flow that it adds the step to. -/
def Route.step? (body : Option Value) : Route → Option (Value × Step.Draft)
  | .addStep name => (readBody NewStep.read body).toOption.map fun s => (.str name, s.draft)
  | _ => none

/-! ## What a route comes to -/

theorem status_of_readBody {α : Type} {read : Fields → Schema.Checked α}
    (hfailed : readBody read body = .error response) : response.status = 422 := by
  unfold readBody at hfailed
  split at hfailed
  · cases hfailed
    rfl
  · cases hfailed
    rfl
  · split at hfailed <;> cases hfailed
    rfl
  · cases hfailed
    rfl

/-- A failure that a caller can mend. -/
def IsMendable (f : Failure) : Prop := f.kind ≠ .other

/-- A response that is no fault. -/
def IsNoFault (response : Response) : Prop := response.status ≠ 500

/-- What goes on with a body mends if it does so with every body that fits. -/
theorem mends_withBody {α : Type} {read : Fields → Schema.Checked α} {k : α → Program Response}
    (hmends : ∀ a, readBody read body = .ok a →
      (k a).Mends Access.IsShort IsMendable IsNoFault) :
    (withBody read body k).Mends Access.IsShort IsMendable IsNoFault := by
  unfold withBody
  cases hreads : readBody read body with
  | ok a => exact hmends a hreads
  | error response =>
    refine .done ?_
    rw [IsNoFault, status_of_readBody hreads]
    decide

theorem mends_turn (hshort : ctx.tenant.IsShort) (m : NewMessage) {flow : Value}
    (hflow : flow.IsShort) :
    (turn ctx m flow).Mends Access.IsShort IsMendable fun _ => True :=
  mends_handle hshort rfl hflow (.inr ⟨_, rfl⟩) (Inbound.orElse_clock ctx.clock m.now)
    (by simp [IsMendable, Failure.kind]) fun _ _ => by simp [IsMendable, Failure.kind]

/-- All routes but the one that adds a step mend, and what they answer is no fault. -/
theorem mends_program (hshort : ctx.tenant.IsShort)
    (hflow : ∀ flow ∈ route.flow? ctx.settings body, flow.IsShort)
    (hnone : route.step? body = none) :
    (program ctx body route).Mends Access.IsShort IsMendable IsNoFault := by
  have hfine (status : Nat) (hother : status ≠ 500) (fields : Fields) :
      IsNoFault (Response.object status fields) := hother
  have hdigits (counterparty : Value) : IsMendable (.noDigits counterparty) := by
    simp [IsMendable, Failure.kind]
  have hfound (name : Value) : IsMendable (.flowNotFound name) := by
    simp [IsMendable, Failure.kind]
  cases route with
  | health => exact .done (hfine 200 (by decide) _)
  | listFlows => exact .access hshort fun _ => .done (hfine 200 (by decide) _)
  | createFlow =>
    refine mends_withBody fun n hreads => ?_
    have hname : (Value.str n.name).IsShort := hflow _ (by rw [Route.flow?, hreads]; rfl)
    have hargument : (Value.ofOption n.preset).IsArgument := by
      cases n.preset with
      | none => exact .inl rfl
      | some s => exact .inr ⟨s, rfl⟩
    refine (mends_createFlow hshort hname hargument ?_ ?_ ?_).bind fun _ _ =>
      .done (hfine 201 (by decide) _)
    all_goals simp [IsMendable, Failure.kind]
  | showFlow name =>
    exact (mends_showFlow hshort (hflow _ rfl) (hfound _)).bind fun _ _ =>
      .done (hfine 200 (by decide) _)
  | checkFlow name =>
    exact (mends_checkFlow hshort (hflow _ rfl) (hfound _)).bind fun _ _ =>
      .done (hfine 200 (by decide) _)
  | addStep name =>
    refine mends_withBody fun s hreads => ?_
    rw [Route.step?, hreads] at hnone
    cases hnone
  | tryFlow name =>
    refine mends_withBody fun m hreads => ?_
    exact (mends_turn hshort m (hflow _ rfl)).bind fun _ _ => .done (hfine 200 (by decide) _)
  | inbound =>
    refine mends_withBody fun m hreads => ?_
    have hfor : (m.flowFor ctx.settings).IsShort := hflow _ (by rw [Route.flow?, hreads]; rfl)
    show (ite _ _ _ : Program Response).Mends _ _ _
    split
    · exact .done (hfine 200 (by decide) _)
    · exact (mends_turn hshort m hfor).bind fun _ _ => .done (hfine 200 (by decide) _)
  | listConversations => exact .access hshort fun _ => .done (hfine 200 (by decide) _)
  | showConversation counterparty =>
    refine (mends_getConversation hshort (hdigits _)).bind fun found _ => ?_
    cases found with
    | none => exact .done (hfine 404 (by decide) _)
    | some c => exact .done (hfine 200 (by decide) _)
  | resetConversation counterparty =>
    exact (mends_clearConversation hshort (hdigits _)).bind fun _ _ =>
      .done (hfine 200 (by decide) _)

theorem mendable_draft {kind : Value} {fault : Step.Draft.Fault}
    (hamong : fault = .unknownKind kind ∨ fault = .noField ∨ fault = .noText ∨
      fault = .noCondition) : IsMendable (.draft fault) := by
  rcases hamong with rfl | rfl | rfl | rfl <;> simp [IsMendable, Failure.kind, Failure.draftKind]

theorem NewStep.isTyped_draft (s : NewStep) : s.draft.IsTyped := by
  have hofText (text : Option String) : (Value.ofOption text).IsArgument := by
    cases text with
    | none => exact .inl rfl
    | some text => exact .inr ⟨text, rfl⟩
  have hofTarget (target : Option Int) : (Value.ofIndex target).IsTarget := by
    cases target with
    | none => exact .inl rfl
    | some n => exact .inr (.inr ⟨n, rfl⟩)
  exact ⟨hofText _, hofText _, hofTarget _, hofTarget _⟩

/-- A route comes to a response that is no fault or to what the caller can mend, unless it adds a
step that is blocked. -/
theorem exists_run_program (ctx : Context) (body : Option Value) (route : Route)
    (hstands : Deployment.Stands engine Directory.data Directory.dataPlace d)
    (hnow : ctx.clock = d.clock) (hofTenant : ctx.tenant.IsShort)
    (hofFlow : ∀ flow ∈ route.flow? ctx.settings body, flow.IsShort) (hinner : d.HasShortNames) :
    ∃ r d', Deployment.run engine (program ctx body route) d = (r, d') ∧
      ((∃ step ∈ route.step? body, d.Blocks ctx.tenant step.1 step.2) ∧
          (∃ f, r = .error f ∧ f.kind = .other) ∨
        ¬ (∃ step ∈ route.step? body, d.Blocks ctx.tenant step.1 step.2) ∧
          IsMended IsMendable IsNoFault r) := by
  cases hadded : route.step? body with
  | none =>
    obtain ⟨r, d', hran, hmended, -⟩ := hstands.run (mends_program hofTenant hofFlow hadded)
    exact ⟨r, d', hran, .inr ⟨by simp, hmended⟩⟩
  | some step =>
    cases route with
    | addStep name =>
      cases hreads : readBody NewStep.read body with
      | error response =>
        rw [Route.step?, hreads] at hadded
        cases hadded
      | ok s =>
        rw [Route.step?, hreads] at hadded
        cases hadded
        let answer (p : Fields × Flow) : Response :=
          success ctx 201 [("step", .dict p.1), ("index", .int ((p.2.size : Int) - 1)),
            ("version", .int p.2.version)]
        obtain ⟨r, d', hran, hwhat⟩ := hstands.run_addStep hofTenant (hofFlow _ rfl)
          (.inr ⟨name, rfl⟩)
          (Q := IsNoFault) hinner s.isTyped_draft (fun fault hamong => mendable_draft hamong) answer
          fun _ => show 201 ≠ 500 by decide
        refine ⟨r, d', ?_, by simpa using hwhat⟩
        rw [program, withBody, hreads, hnow]
        exact hran
    | _ => cases hadded

/-! ## From the request to the status -/

/-- A request to a route adds a step that is blocked. -/
def Request.IsBlockedAt (r : Request) (route : Route) (d : Deployment) : Prop :=
  ∃ body, r.bodyFor route = .ok body ∧
    ∃ step ∈ route.step? body, d.Blocks (tenantOf d.settings r) step.1 step.2

/-- What a request names is short enough for files. -/
structure Request.HasShortNames (r : Request) (settings : Settings) : Prop where
  tenant : (tenantOf settings r).IsShort
  flow : ∀ route ∈ r.route?, ∀ body, r.bodyFor route = .ok body →
    ∀ flow ∈ route.flow? settings body, flow.IsShort

/-- A request adds a step that is blocked. -/
def Request.IsBlocked (r : Request) (d : Deployment) : Prop :=
  ∃ route ∈ r.route?, r.IsBlockedAt route d

end Dialogue.Service
