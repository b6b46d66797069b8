import Dialogue.Proofs.Deployment.Sound
import Dialogue.Proofs.Deployment.Storage

/-!
# Histories of a deployment

A history is a sequence of operations, between which the process may be started over.  The answers
to it do not depend on where a deployment keeps what it stores (`Storage.answers_eq`): one that
outlasts its process answers like one in memory that is never started over.

What is listed at any time is sorted, without repetition, and there (`ListsWell`).
-/

namespace Dialogue

open Store

/-- What happens to a deployment: its process starts over, or it is asked something at the time of a
clock. -/
inductive Act where
  | restart
  | call (clock : String) (op : Operation)

/-- The acts that ask for something. -/
def Act.isCall : Act → Bool
  | restart => false
  | call _ _ => true

namespace Deployment

/-- Asks a deployment for something. -/
def call (clock : String) (op : Operation) (d : Deployment) :
    Except Failure Operation.Answer × Deployment :=
  Deployment.run d.engine (op.program clock) { d with clock }

/-- Starts a deployment over, with the stores of a request. -/
def again (r : Backend.Request) (d : Deployment) : Deployment := (restart (openStores r) d).2

/-- What a deployment that was started by a request answers to a history. -/
def answers (r : Backend.Request) : List Act → Deployment →
    List (Except Failure Operation.Answer)
  | [], _ => []
  | .restart :: rest, d => answers r rest (d.again r)
  | .call clock op :: rest, d => (d.call clock op).1 :: answers r rest (d.call clock op).2

/-- A deployment after a history. -/
def after (r : Backend.Request) : List Act → Deployment → Deployment
  | [], d => d
  | .restart :: rest, d => after r rest (d.again r)
  | .call clock op :: rest, d => after r rest (d.call clock op).2

/-- The accesses of a call. -/
def accessesOf (clock : String) (op : Operation) (d : Deployment) : List Access :=
  (op.program clock).accesses (access d.engine) log { d with clock }

/-- The accesses of a history. -/
def accesses (r : Backend.Request) : List Act → Deployment → List Access
  | [], _ => []
  | .restart :: rest, d => accesses r rest (d.again r)
  | .call clock op :: rest, d => d.accessesOf clock op ++ accesses r rest (d.call clock op).2

/-- What is listed is sorted, without repetition, and there. -/
structure ListsWell (d : Deployment) : Prop where
  flows : ∀ {clock clock' tenant names},
    (d.call clock (.listFlows tenant)).1 = .ok (.names names) →
      names.Pairwise (· < ·) ∧ ∀ name ∈ names, ∃ flow,
        ((d.call clock (.listFlows tenant)).2.call clock' (.loadFlow tenant (.str name))).1 =
          .ok (.found (some flow))
  conversations : ∀ {clock clock' tenant numbers},
    (d.call clock (.listConversations tenant)).1 = .ok (.names numbers) →
      numbers.Pairwise (· < ·) ∧ ∀ number ∈ numbers, ∃ c,
        ((d.call clock (.listConversations tenant)).2.call clock'
          (.getConversation tenant (.str number))).1 = .ok (.conversation (some c))

end Deployment

/-! ## The same answers -/

namespace Storage

variable {k : Storage} {r r' : Backend.Request} {now now' clock : String} {n n' : Nat}
  {d mem : Deployment} {m : Memory} {op : Operation}

/-- A call comes to what it comes to on contents, if all its accesses are taken. -/
theorem Serves.call (hserves : k.Serves r now n d m) (hsound : m.Sound) (hvalid : op.Valid)
    (hrevalidates : op.Revalidates)
    (htakes :
      ∀ a ∈ (op.program clock).accesses (Memory.perform clock) (fun _ m => m) m, k.Takes a) :
    (d.call clock op).1 = ((op.program clock).run (Memory.perform clock) (fun _ m => m) m).1 ∧
      k.Serves r clock n (d.call clock op).2
        ((op.program clock).run (Memory.perform clock) (fun _ m => m) m).2 ∧
      ((op.program clock).run (Memory.perform clock) (fun _ m => m) m).2.Sound ∧
      d.accessesOf clock op =
        (op.program clock).accesses (Memory.perform clock) (fun _ m => m) m := by
  have hran : d.call clock op =
      (op.program clock).run (Deployment.access ⟨n, n⟩) Deployment.log { d with clock } :=
    congrArg (fun e => (op.program clock).run (Deployment.access e) Deployment.log { d with clock })
      hserves.engine
  have hasked : d.accessesOf clock op =
      (op.program clock).accesses (Deployment.access ⟨n, n⟩) Deployment.log { d with clock } :=
    congrArg
      (fun e => (op.program clock).accesses (Deployment.access e) Deployment.log { d with clock })
      hserves.engine
  rw [hran, hasked]
  exact (mirrors k r clock n).run_eq (fun _ hsound => hsound.tidy)
    (fun _ hsound key => hsound.reads clock key) (op.program clock) (hserves.setClock clock) hsound
    (Operation.safe_sound hsound hvalid hrevalidates) (op.discerns hsound) htakes

/-- A deployment that is started over keeps the same contents as before, or none. -/
theorem Serves.again (hserves : k.Serves r now n d m) :
    ∃ n' m', k.Serves r now n' (d.again r) m' ∧ (m' = m ∨ m' = {}) := by
  by_cases hlasts : k.Lasts
  · obtain ⟨n', d', hrestarted, hserves'⟩ := hserves.restart hlasts
    refine ⟨n', m, ?_, .inl rfl⟩
    rwa [Deployment.again, hrestarted]
  · obtain ⟨n', d', hrestarted, hserves'⟩ := hserves.restart_empty hlasts
    refine ⟨n', {}, ?_, .inr rfl⟩
    rwa [Deployment.again, hrestarted]

/-- A history of what can be asked. -/
def IsHistory (history : List Act) : Prop :=
  ∀ clock op, .call clock op ∈ history → op.Valid ∧ op.Revalidates

/-- A deployment that outlasts its process answers like one in memory whose process goes on. -/
theorem answers_eq {history : List Act} (hfine : IsHistory history)
    (hinMemory : memory.Serves r now n mem m) (hserves : k.Serves r' now' n' d m) (hsound : m.Sound)
    (hlasts : k.Lasts ∨ history.filter Act.isCall = history)
    (htakes : ∀ a ∈ mem.accesses r (history.filter Act.isCall), k.Takes a) :
    d.answers r' history = mem.answers r (history.filter Act.isCall) ∧
      ∃ m' now₁ now₂ n₂, memory.Serves r now₁ n (mem.after r (history.filter Act.isCall)) m' ∧
        k.Serves r' now₂ n₂ (d.after r' history) m' ∧ m'.Sound := by
  induction history generalizing now now' n' d mem m with
  | nil => exact ⟨rfl, m, now, now', n', hinMemory, hserves, hsound⟩
  | cons act rest ih =>
    have hothers : IsHistory rest := fun clock op hlisted =>
      hfine clock op (List.mem_cons_of_mem _ hlisted)
    cases act with
    | restart =>
      have hlasts' : k.Lasts := by
        refine hlasts.resolve_right fun hnone => ?_
        have hrestarts : Act.restart ∈ (Act.restart :: rest).filter Act.isCall := by simp [hnone]
        simp [Act.isCall] at hrestarts
      obtain ⟨n'', d', hrestarted, hserves'⟩ := hserves.restart hlasts'
      have hrenewed : d.again r' = d' := by rw [Deployment.again, hrestarted]
      simp only [Deployment.answers, Deployment.after, hrenewed]
      exact ih hothers hinMemory hserves' hsound (.inl hlasts') htakes
    | call clock op =>
      obtain ⟨hvalid, hrevalidates⟩ := hfine clock op List.mem_cons_self
      have hkeeps : (Act.call clock op :: rest).filter Act.isCall =
          .call clock op :: rest.filter Act.isCall := rfl
      rw [hkeeps] at htakes hlasts ⊢
      have htaken : ∀ a ∈ (op.program clock).accesses (Memory.perform clock) (fun _ m => m) m,
          memory.Takes a := fun _ _ => trivial
      obtain ⟨hanswer, hinMemory', hsound', hasked⟩ :=
        hinMemory.call hsound hvalid hrevalidates htaken
      simp only [Deployment.accesses, List.forall_mem_append] at htakes
      rw [hasked] at htakes
      obtain ⟨hanswer', hserves', -, -⟩ := hserves.call hsound hvalid hrevalidates htakes.1
      obtain ⟨hsame, hfinal⟩ := ih hothers hinMemory' hserves' hsound'
        (hlasts.imp_right fun hall => by simpa using hall) htakes.2
      exact ⟨by rw [Deployment.answers, Deployment.answers, hanswer, hanswer', hsame], hfinal⟩

end Storage

/-! ## New deployments -/

namespace Deployment

/-- A deployment that was just started by a request. -/
def started (r : Backend.Request) : Deployment := ({ clock := "t0" } : Deployment).again r

theorem fresh_started : Storage.memory.Fresh {} (started {}) :=
  ⟨⟨{ clock := "t0" }, rfl⟩, rfl, trivial⟩

/-- A flow that its own document is read as can be saved. -/
theorem valid_saveFlow (tenant : Value) {now : String} {flow : Flow} (hwellFormed : flow.WellFormed)
    (hsame : Flow.ofValue now (.dict flow.document) = .ok flow) :
    (Operation.saveFlow tenant flow).Valid :=
  ⟨now, .dict flow.document, (Flow.isPlain_document hwellFormed).1, hsame⟩

theorem valid_cityFlow (tenant : Value) : (Operation.saveFlow tenant Inbound.cityFlow).Valid := by
  have hwellFormed : Inbound.cityFlow.WellFormed :=
    ⟨by decide, Schema.isRest_nil _, List.forall_mem_singleton.2 (Schema.isRest_nil _)⟩
  have hsame : Flow.ofValue "t0" (.dict Inbound.cityFlow.document) = .ok Inbound.cityFlow := rfl
  exact valid_saveFlow tenant hwellFormed hsame

end Deployment

end Dialogue
