import Dialogue.Service.Target

/-!
# Routes of the service

A path names a resource; together with the method it names what to do.  Behind a path that ends in a
fixed word one line feed is overlooked.  A path with a slash too many or too few at its end is
redirected where that helps.
-/

namespace Dialogue.Service

/-- What a target names. -/
inductive Resource where
  | health
  | flows
  | flow (name : String)
  | flowCheck (name : String)
  | flowSteps (name : String)
  | flowTrial (name : String)
  | inbound
  | conversations
  | conversation (counterparty : String)
  | description
  deriving DecidableEq, Repr

/-- What to do. -/
inductive Route where
  | health
  | listFlows
  | createFlow
  | showFlow (name : String)
  | checkFlow (name : String)
  | addStep (name : String)
  | tryFlow (name : String)
  | inbound
  | listConversations
  | showConversation (counterparty : String)
  | resetConversation (counterparty : String)
  deriving DecidableEq, Repr

namespace Resource

/-- The resource whose path ends in a fixed word.  The pages that describe the service are known,
but not served. -/
def fixed? : List String → Option Resource
  | ["", "health"] => some .health
  | ["", "api", "v1", "flows"] => some .flows
  | ["", "api", "v1", "flows", name, "validate"] =>
    if name.isEmpty then none else some (.flowCheck name)
  | ["", "api", "v1", "flows", name, "steps"] =>
    if name.isEmpty then none else some (.flowSteps name)
  | ["", "api", "v1", "flows", name, "test"] =>
    if name.isEmpty then none else some (.flowTrial name)
  | ["", "api", "v1", "messages", "inbound"] => some .inbound
  | ["", "api", "v1", "conversations"] => some .conversations
  | ["", "docs"] | ["", "docs", "oauth2-redirect"] | ["", "redoc"] | ["", "openapi.json"] =>
    some .description
  | _ => none

/-- The resource whose path ends in a name. -/
def named? : List String → Option Resource
  | ["", "api", "v1", "flows", name] => if name.isEmpty then none else some (.flow name)
  | ["", "api", "v1", "conversations", counterparty] =>
    if counterparty.isEmpty then none else some (.conversation counterparty)
  | _ => none

/-- The parts of a path. -/
def partsOf (path : List Char) : List String := (Text.splitOn '/' path).map String.ofList

/-- The resource of a path. -/
def ofPath (path : List Char) : Option Resource :=
  let line := if path.getLast? = some '\n' then path.dropLast else path
  (fixed? (partsOf line)).or (named? (partsOf path))

/-- What a method does to a resource. -/
def route? (method : String) : Resource → Option Route
  | .health => if method = "GET" then some .health else none
  | .flows =>
    if method = "GET" then some .listFlows
    else if method = "POST" then some .createFlow else none
  | .flow name => if method = "GET" then some (.showFlow name) else none
  | .flowCheck name => if method = "GET" then some (.checkFlow name) else none
  | .flowSteps name => if method = "POST" then some (.addStep name) else none
  | .flowTrial name => if method = "POST" then some (.tryFlow name) else none
  | .inbound => if method = "POST" then some .inbound else none
  | .conversations => if method = "GET" then some .listConversations else none
  | .conversation counterparty =>
    if method = "GET" then some (.showConversation counterparty)
    else if method = "DELETE" then some (.resetConversation counterparty) else none
  | .description => none

end Resource

/-- The path with a slash at its end where it had none, and without slashes at its end where it had
some. -/
def toggleSlash (path : List Char) : List Char :=
  if path.getLast? = some '/' then Text.dropEndWhile (· = '/') path else path ++ ['/']

/-- Where a path leads. -/
inductive Destination where
  | route (r : Route)
  | otherMethod
  | redirect
  | nowhere
  deriving DecidableEq, Repr

/-- Where a method and a path lead. -/
def destination (method : String) (path : List Char) : Destination :=
  match Resource.ofPath path with
  | some resource =>
    match resource.route? method with
    | some r => .route r
    | none => .otherMethod
  | none =>
    if path ≠ ['/'] ∧ (Resource.ofPath (toggleSlash path)).isSome then .redirect else .nowhere

end Dialogue.Service
