import Dialogue.Proofs.Text.Half
import Dialogue.Service.Handler

/-!
# From requests to routes

A request that is sent leads to a route or it is answered without one: a browser may ask first
whether a page of another site may send it, and a path may lead elsewhere or nowhere
(`Request.route?`).  A route answers over the stores that are opened (`answerAt_of_run`), and what
is sent for it is what it answers (`handle_of_route`); without a route the service only starts and
stops (`exists_handle_of_no_route`).
-/

namespace Dialogue.Service

variable {opening : Run Deployment Engine} {hops : Int} {r : Request} {route : Route}
  {d d' : Deployment} {engine : Engine} {rank : Nat} {body : Option Value} {response : Response}
  {path : List Char}

/-- The route that a request leads to, if it leads to one. -/
def Request.route? (r : Request) : Option Route :=
  (Target.path? r.target).bind fun path =>
    match preflight? (Text.upper r.method) r, destination (Text.upper r.method) path with
    | none, .route route => some route
    | _, _ => none

/-- What a request gives to a route. -/
def Request.bodyFor (r : Request) (route : Route) : Except Response (Option Value) :=
  if route.takesBody then r.content else .ok none

end Dialogue.Service
