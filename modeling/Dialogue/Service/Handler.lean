import Dialogue.Authoring
import Dialogue.Deployment
import Dialogue.Engine.Inbound
import Dialogue.Logging
import Dialogue.Service.Message
import Dialogue.Service.Route

/-!
# Answering requests

`Service.handle` answers one request over a deployment.  The tenant comes from the header
`X-Tenant`, or from the settings.  What a route does is a program over the stores
(`Service.program`); failures become responses by their kind: what is not there is 404, what cannot
be made or does not fit is 400, and anything else is 500.

The body of a request is read before the stores are opened, and looked at as a record after that.  A
service that works on a database closes its connection when it stops.
-/

namespace Dialogue.Service

open Program

/-- What is fixed for a request: the settings, the time, the bound on conditions and the tenant. -/
structure Context where
  settings : Settings
  clock : String
  hops : Int
  tenant : Value

/-- The tenant of a request. -/
def tenantOf (settings : Settings) (r : Request) : Value :=
  (Value.ofOption (r.header? "x-tenant")).orElse settings.activeTenant

/-- The response with an object that starts with success and the tenant. -/
def success (ctx : Context) (status : Nat) (fields : Fields) : Response :=
  .object status (("ok", .bool true) :: ("tenant", ctx.tenant) :: fields)

/-- Goes on with the body of a request, or answers what is wrong with it. -/
def withBody {α : Type} (read : Fields → Schema.Checked α) (body : Option Value)
    (k : α → Program Response) : Program Response :=
  match readBody read body with
  | .ok a => k a
  | .error response => .done response

/-- The description of a step to be added. -/
def NewStep.draft (s : NewStep) : Step.Draft :=
  { kind := .str s.type
    text := .ofOption s.text
    field := .ofOption s.field
    condition := .ofOption s.condition
    thenTarget := .ofIndex s.thenTarget
    elseTarget := .ofIndex s.elseTarget
    reason := .ofOption s.reason }

/-- Takes a message through a flow. -/
def turn (ctx : Context) (m : NewMessage) (flow : Value) : Program Outcome :=
  Inbound.handle ctx.clock ctx.hops
    { tenant := ctx.tenant
      counterparty := .str m.sender
      text := .str m.text
      flow := flow
      now := .ofOption m.now }

/-- What a route does. -/
def program (ctx : Context) (body : Option Value) : Route → Program Response
  | .health =>
    .done (.object 200 [("status", .str "healthy"), ("app", ctx.settings.appName),
      ("store_backend", ctx.settings.database.storeBackend)])
  | .listFlows => do
    let names ← perform (.listFlows ctx.tenant)
    return success ctx 200 [("flows", .ofTexts names)]
  | .createFlow => withBody NewFlow.read body fun r => do
    let (flow, location) ←
      Authoring.createFlow ctx.clock ctx.tenant (.str r.name) (.ofOption r.preset)
    return success ctx 201 [("path", .str location), ("flow", .dict flow.document)]
  | .showFlow name => do
    let flow ← Authoring.showFlow ctx.tenant (.str name)
    return success ctx 200 [("flow", .dict flow.document)]
  | .checkFlow name => do
    let problems ← Authoring.checkFlow ctx.tenant (.str name)
    return .object 200 [("ok", .bool problems.isEmpty), ("tenant", ctx.tenant),
      ("problems", .ofTexts (problems.map (·.message)))]
  | .addStep name => withBody NewStep.read body fun r => do
    let (step, flow) ← Authoring.addStep ctx.clock ctx.tenant (.str name) r.draft
    return success ctx 201 [("step", .dict step), ("index", .int ((flow.size : Int) - 1)),
      ("version", .int flow.version)]
  | .tryFlow name => withBody NewMessage.read body fun m => do
    let outcome ← turn ctx m (.str name)
    return .object 200 [("ok", .bool true), ("out", .dict outcome.document)]
  | .inbound => withBody NewMessage.read body fun m => do
    let resolved := (ctx.settings.flows.resolve? (.ofOption m.intent)).getD .null
    let flow := (Value.ofOption m.flow).orElse resolved
    if flow.isEmpty then
      return .object 200 [("ok", .bool false), ("reason", .str "no_flow_configured"),
        ("message", .null)]
    else
      let outcome ← turn ctx m flow
      return .object 200 outcome.document
  | .listConversations => do
    let numbers ← perform (.listConversations ctx.tenant)
    return success ctx 200 [("conversations", .ofTexts numbers)]
  | .showConversation counterparty => do
    match ← Store.getConversation ctx.clock ctx.tenant (.str counterparty) with
    | none => return .error 404 "Conversation not found"
    | some c => return success ctx 200 [("state", .dict c.document)]
  | .resetConversation counterparty => do
    let removed ← Store.clearConversation ctx.tenant (.str counterparty)
    -- this answer is a document, so that it is never refused for its numbers
    return success { ctx with tenant := ctx.tenant.plain } 200 [("removed", .bool removed)]

/-- The response to a failure. -/
def responseTo (f : Failure) : Response :=
  match f.kind with
  | .notFound => .error 404 f.message
  | .authoring => .error 400 f.message
  | .value => .error 400 f.message
  | .other => .fault

/-- Whether a route takes a body. -/
def Route.takesBody : Route → Bool
  | .createFlow | .addStep _ | .tryFlow _ | .inbound => true
  | _ => false

/-- Whether a route works on the stores. -/
def Route.usesStores : Route → Bool
  | .health => false
  | _ => true

/-- Answers a request at a route, over the stores that are opened by `opening`. -/
def answerAt (opening : Run Deployment Engine) (hops : Int) (r : Request) (route : Route) :
    Run Deployment Response := fun d =>
  match if route.takesBody then r.content else .ok none with
  | .error response => (.ok response, d)
  | .ok body =>
    let ctx : Context :=
      { settings := d.settings, clock := d.clock, hops, tenant := tenantOf d.settings r }
    let work : Run Deployment Response := do
      let e ← if route.usesStores then opening else pure {}
      Deployment.run e (program ctx body route)
    match work d with
    | (.ok response, d) => (.ok response, d)
    | (.error f, d) => (.ok (responseTo f), d)

/-- The methods that a page of another site may ask for. -/
def sharedMethods : List String := ["DELETE", "GET", "HEAD", "OPTIONS", "PATCH", "POST", "PUT"]

/-- What a page of another site must not ask for: a method that is not shared, and a private
network. -/
def disallowed (method : String) (network : Option String) : List String :=
  (if sharedMethods.contains method then [] else ["method"]) ++
    (if network = some "true" then ["private-network"] else [])

/-- The response to a browser that asks whether a page of another site may send a request. -/
def preflight? (method : String) (r : Request) : Option Response :=
  match r.header? "origin", r.header? "access-control-request-method" with
  | some _, some wanted =>
    if method != "OPTIONS" then none
    else
      match disallowed wanted (r.header? "access-control-request-private-network") with
      | [] => some ⟨200, .text "OK"⟩
      | faults => some ⟨400, .text ("Disallowed CORS " ++ String.intercalate ", " faults)⟩
  | _, _ => none

/-- Makes the response to a request for a path. -/
def respond (opening : Run Deployment Engine) (hops : Int) (r : Request) (path : List Char) :
    Run Deployment Response := fun d =>
  let method := Text.upper r.method
  match preflight? method r with
  | some response => (.ok response, d)
  | none =>
    match destination method path with
    | .nowhere => (.ok (.detail 404 "Not Found"), d)
    | .otherMethod => (.ok (.detail 405 "Method Not Allowed"), d)
    | .redirect => (.ok ⟨307, .text ""⟩, d)
    | .route route => answerAt opening hops r route d

/-- The response as it is sent for the request. -/
def Request.finish (r : Request) (response : Response) : Response :=
  if Text.upper r.method = "HEAD" then response.bare else response.sealed

/-- Answers a request for a path: the response is made, and then it is sent. -/
def answer (opening : Run Deployment Engine) (hops : Int) (r : Request) (path : List Char) :
    Run Deployment Response := fun d =>
  let (result, d) := respond opening hops r path d
  (result.map r.finish, d)

/-- Stops the service: its connection is closed and the stop logged. -/
def stop : Run Deployment Unit := fun d =>
  let d := match d.settings.database.storeBackend with
    | .str "sql" => (Deployment.closeDatabase d).2
    | _ => d
  (.ok (), d.log .serviceStopped)

/-- Answers one request by a service that starts before it and stops after it.  The service does not
start where no log can be set up, and it does not stop in order when the request is not sent. -/
def handle (opening : Run Deployment Engine) (hops : Int) (r : Request) :
    Run Deployment Response := fun d =>
  match Logging.threshold d.settings, r.refusal?, Target.path? r.target with
  | .error fault, _, _ => (.error (.logging fault), d)
  | .ok _, some refusal, _ => (.error (.request refusal), d)
  | .ok _, none, none => (.error (.request .target), d)
  | .ok _, none, some path =>
    let (result, d) := answer opening hops r path d
    (result, (stop d).2)

end Dialogue.Service
