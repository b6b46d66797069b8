import Dialogue.Json.Printer
import Dialogue.Json.Reader
import Dialogue.Schema.Record
import Dialogue.Schema.Scalar
import Dialogue.Service.Target

/-!
# Requests and responses

The service answers requests over HTTP with JSON.  A client refuses to send some requests
(`Request.refusal?`).  The body of a request is read as JSON if its media type says so or is not
given (`Request.content`); it is a record, too, and what is wrong with it is reported fault by fault
in the response, under the status 422.
-/

/-! ## Requests that are not sent

A client refuses some requests before the service sees them: a target that cannot be asked for, a
header that is no text or no ASCII, a body with a number that JSON does not have, and one that
cannot be encoded.
-/

namespace Dialogue.Service

/-- Why a request is not sent. -/
inductive Refusal where
  | target
  | headerNotText
  | headerNotAscii
  | numberNotFinite
  | encoding (fault : Text.EncodingFault)
  deriving DecidableEq, Repr

/-- The wording of a refusal that lies in a value; the others have none. -/
def Refusal.message : Refusal → String
  | .numberNotFinite => "Out of range float values are not JSON compliant"
  | .encoding fault => fault.message
  | _ => ""

/-! ## Requests -/

open Schema

/-- The body of a request: none, a value that is sent as JSON, or a text. -/
inductive Body where
  | empty
  | json (v : Value)
  | text (s : String)

/-- A request: its method, its target, its headers and its body. -/
structure Request where
  method : String
  target : String
  headers : List (String × Value) := []
  body : Body := .empty

namespace Request

/-- Whether the text is ASCII. -/
def isAscii (s : String) : Bool := s.toList.all (·.toNat < 128)

/-- What is wrong with a header. -/
def headerRefusal? : String × Value → Option Refusal
  | (name, .str v) => if isAscii name && isAscii v then none else some .headerNotAscii
  | (name, _) => some (if isAscii name then .headerNotText else .headerNotAscii)

/-- The text of the body. -/
def bodyText (r : Request) : String :=
  match r.body with
  | .empty => ""
  | .json v => Json.compactUnicode v
  | .text s => s

/-- Whether the body has a number that JSON does not have. -/
def hasUnwritableNumber (r : Request) : Bool :=
  match r.body with
  | .json v => !v.isFinite
  | _ => false

/-- Why a client does not send the request. -/
def refusal? (r : Request) : Option Refusal :=
  if (Target.path? r.target).isNone then some .target
  else
    (r.headers.findSome? headerRefusal?).or
      (if r.hasUnwritableNumber then some .numberNotFinite
       else (Text.encodingFault? r.bodyText).map .encoding)

/-- The value of a header, whatever the case of its name. -/
def header? (r : Request) (name : String) : Option String :=
  (r.headers.find? fun h => h.1.toLower == name).bind (·.2.text?)

/-- Whether a media type is JSON or based on it; parameters do not count. -/
def isJsonType (s : String) : Bool :=
  let media := Text.stripChars (Text.splitFirst ';' s.toList).1
  match Text.splitOn '/' (media.map Char.toLower) with
  | [main, sub] =>
    main = "application".toList && (sub = "json".toList || "+json".toList.isSuffixOf sub)
  | _ => false

/-- Whether the body is read as JSON. -/
def hasJson (r : Request) : Bool := ((r.header? "content-type").map isJsonType).getD true

end Request

/-- What a response carries. -/
inductive Payload where
  | json (v : Value)
  | text (s : String)

/-- A response. -/
structure Response where
  status : Nat
  payload : Payload

namespace Response

/-- A response with a JSON value. -/
def json (status : Nat) (v : Value) : Response := ⟨status, .json v⟩

/-- A response with an object. -/
def object (status : Nat) (fields : Fields) : Response := json status (.dict fields)

/-- A response to what went wrong. -/
def error (status : Nat) (message : String) : Response :=
  object status [("ok", .bool false), ("error", .str message)]

/-- A response that only says what is the matter. -/
def detail (status : Nat) (message : String) : Response :=
  object status [("detail", .str message)]

/-- The response to a fault that nobody expected. -/
def fault : Response := ⟨500, .text "Internal Server Error"⟩

mutual
/-- The form in which a value is sent: moments as texts, and keys as texts. -/
def sent : Value → Value
  | .moment m => .str m.isoText
  | .list items => .list (sentList items)
  | .dict fields => .dict (sentFields fields)
  | .table entries => .dict (Keyed.ofEntries (sentEntries entries))
  | v => v

/-- `sent` on every item. -/
def sentList : List Value → List Value
  | [] => []
  | v :: rest => sent v :: sentList rest

/-- `sent` on the value of every entry. -/
def sentFields : List (String × Value) → List (String × Value)
  | [] => []
  | (k, v) :: rest => (k, sent v) :: sentFields rest

/-- `sent` on the value of every entry of a table. -/
def sentEntries : List (Value × Value) → List (String × Value)
  | [] => []
  | (.moment m, v) :: rest => (m.isoText, sent v) :: sentEntries rest
  | (k, v) :: rest => (k.keyText, sent v) :: sentEntries rest
end

/-- Why a value cannot be sent: JSON has no number that is not finite, and half a surrogate pair
cannot be encoded. -/
def unsendable? (v : Value) : Option String :=
  if v.isFinite then (Text.encodingFault? (Json.compactUnicode (sent v))).map (·.message)
  else some "Out of range float values are not JSON compliant"

/-- The response as it is sent; one that cannot be sent is replaced. -/
def sealed (r : Response) : Response :=
  match r.payload with
  | .json v =>
    match unsendable? v with
    | none => json r.status (sent v)
    | some message => error 400 message
  | .text _ => r

/-- The response without what it carries. -/
def bare (r : Response) : Response := ⟨r.status, .text ""⟩

/-- A fault of the body as the response reports it. -/
def issueDetail (i : Issue) : Value :=
  .dict [("type", .str i.fault.code), ("loc", .list (.str "body" :: i.path.map .str)),
    ("msg", .str i.fault.message), ("input", i.input)]

/-- The response to a body that does not fit. -/
def unfit (details : List Value) : Response := object 422 [("detail", .list details)]

/-- The response to a body that is no JSON. -/
def unreadable (e : Json.Error) : Response :=
  unfit [.dict [("type", .str "json_invalid"),
    ("loc", .list [.str "body", .int (e.position : Int)]), ("msg", .str "JSON decode error"),
    ("input", .dict []), ("ctx", .dict [("error", .str e.cause.message)])]]

end Response

/-- The value of the body of a request; none without a body.  What is no JSON is a text. -/
def Request.content (r : Request) : Except Response (Option Value) :=
  let text := r.bodyText
  if text.isEmpty then .ok none
  else if r.hasJson then
    match Json.ofBytes? (Text.utf8 text.toList) with
    | none => .error (.detail 400 "There was an error parsing the body")
    | some cs =>
      match Json.readChars cs with
      | .ok v => .ok (some v)
      | .error e => .error (.unreadable e)
  else .ok (some (.str text))

/-- Reads the body of a request as a record. -/
def readBody {α : Type} (read : Fields → Checked α) : Option Value → Except Response α
  | none | some .null => .error (.unfit [Response.issueDetail ⟨[], .missing, .null⟩])
  | some (.dict fields) =>
    match read fields with
    | .ok a => .ok a
    | .bad issues => .error (.unfit (issues.map Response.issueDetail))
  | some v => .error (.unfit [Response.issueDetail ⟨[], .notAttributes, v⟩])

/-! ## The bodies of requests -/

/-- A flow to be created: its name and its preset, null for none. -/
structure NewFlow where
  name : String
  preset : Option String
  deriving DecidableEq, Repr

/-- Reads a flow to be created. -/
def NewFlow.read (fields : Fields) : Checked NewFlow :=
  ((required fields (.plain "name") readText).pair
    (optional fields (.plain "preset") (some "lead-qualification") readTextOrNull)).map
  fun (name, preset) => { name, preset }

/-- A step to be added. -/
structure NewStep where
  type : String
  text : Option String
  field : Option String
  condition : Option String
  thenTarget : Option Int
  elseTarget : Option Int
  reason : Option String
  deriving DecidableEq, Repr

/-- Reads a step to be added. -/
def NewStep.read (fields : Fields) : Checked NewStep :=
  ((required fields (.plain "type") readText).pair
    ((optional fields (.plain "text") none readTextOrNull).pair
      ((optional fields (.plain "field") none readTextOrNull).pair
        ((optional fields ⟨"if", "condition"⟩ none readTextOrNull).pair
          ((optional fields ⟨"thenStepIndex", "then_step_index"⟩ none readIntegerOrNull).pair
            ((optional fields ⟨"elseStepIndex", "else_step_index"⟩ none readIntegerOrNull).pair
              (optional fields (.plain "reason") none readTextOrNull))))))).map
  fun (type, text, field, condition, thenTarget, elseTarget, reason) =>
    { type, text, field, condition, thenTarget, elseTarget, reason }

/-- A message of a counterparty. -/
structure NewMessage where
  sender : String
  text : String
  intent : Option String
  flow : Option String
  now : Option String
  deriving DecidableEq, Repr

/-- Reads a message of a counterparty. -/
def NewMessage.read (fields : Fields) : Checked NewMessage :=
  ((required fields ⟨"from", "sender"⟩ readText).pair
    ((optional fields (.plain "text") "" readText).pair
      ((optional fields (.plain "intent") none readTextOrNull).pair
        ((optional fields (.plain "flow") none readTextOrNull).pair
          (optional fields (.plain "now") none readTextOrNull))))).map
  fun (sender, text, intent, flow, now) => { sender, text, intent, flow, now }

end Dialogue.Service
