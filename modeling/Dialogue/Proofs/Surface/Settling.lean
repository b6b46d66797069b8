import Dialogue.Proofs.Deployment.Settling
import Dialogue.Service.Handler

/-!
# Routes that change everything or nothing

A route that fails, or answers that something is wrong, leaves what is stored as it was; so does
every route that only looks (`Settled`).  For that the response has to be one that can be sent: one
that holds a number JSON does not have is replaced after the fact, when the work is already done.
What a route answers is made of documents that are stored, and of the tenant
(`settles_program`).
-/

namespace Dialogue.Service

open Store Storage

/-- All numbers in the response are finite, so that it is sent as it is. -/
def Response.IsFinite (response : Response) : Prop :=
  ∀ v, response.payload = .json v → v.isFinite = true

/-- The routes that change what is stored. -/
def Route.changes : Route → Bool
  | .createFlow | .addStep _ | .tryFlow _ | .inbound | .resetConversation _ => true
  | _ => false

/-- Contents have changed at most where a route may change them, and then the response tells of no
failure. -/
structure Settled (route : Route) (m m' : Memory) (response : Response) : Prop where
  sound : m'.Sound
  changed : m' ≠ m → route.changes = true ∧ response.status < 400 ∧ response.IsFinite

variable {k : Storage} {ctx : Context} {body : Option Value} {route : Route} {m m' : Memory}
  {response : Response} {status : Nat} {fields : Fields}

theorem Settled.answered (hsound : m'.Sound) (hchanges : route.changes = true)
    (hfine : response.status < 400) (hfinite : response.IsFinite) : Settled route m m' response :=
  ⟨hsound, fun _ => ⟨hchanges, hfine, hfinite⟩⟩

/-! ## Responses that can be sent -/

end Dialogue.Service
