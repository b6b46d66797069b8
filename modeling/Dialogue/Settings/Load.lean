import Dialogue.Settings.Basic
import Dialogue.Step.Draft
import Dialogue.Text.Case
import Dialogue.Text.Class

/-!
# Loading settings

`Settings.ofValue` makes settings from the content of a settings file.  Texts may refer to variables
of the environment as a dollar sign and a name in braces; a variable that is not set is left as
written, and what a variable puts in is not looked at again.  Null and unknown entries are passed
over.
-/

namespace Dialogue.Settings

/-- Variables and their values. -/
abbrev Environment := Keyed String String

/-- Why a settings file is refused. -/
inductive Fault where
  | notMapping
  | hops (reason : Step.Draft.Fault)
  | notPairs
  | pairSize (index size : Nat)
  deriving Repr

/-- The wording of a fault; a fault about the kind of a value has none. -/
def Fault.message : Fault → String
  | .notMapping => ""
  | .hops reason => reason.message
  | .notPairs => ""
  | .pairSize index size => "dictionary update sequence element #" ++ toString index ++
    " has length " ++ toString size ++ "; 2 is required"

/-- The name in a reference to a variable that starts the text, and what follows the reference. -/
def reference? : List Char → Option (List Char × List Char)
  | '$' :: '\x7b' :: rest =>
    let name := rest.takeWhile Text.isWord
    if name.isEmpty then none
    else
      match rest.dropWhile Text.isWord with
      | '\x7d' :: after => some (name, after)
      | _ => none
  | _ => none

/-- Replaces the references in a text; `skip` counts characters that belong to a reference already
replaced. -/
def expandChars (env : Environment) : Nat → List Char → List Char
  | _, [] => []
  | skip + 1, _ :: rest => expandChars env skip rest
  | 0, c :: rest =>
    match reference? (c :: rest) with
    | some (name, _) =>
      match env.get? (String.ofList name) with
      | some v => v.toList ++ expandChars env (name.length + 2) rest
      | none => c :: expandChars env 0 rest
    | none => c :: expandChars env 0 rest

/-- The names of all variables that a text refers to. -/
def references : List Char → List String
  | [] => []
  | c :: rest =>
    match reference? (c :: rest) with
    | some (name, _) => String.ofList name :: references rest
    | none => references rest

mutual
/-- Replaces the references in all texts of a value; keys stay. -/
def expand (env : Environment) : Value → Value
  | .str s => .str (String.ofList (expandChars env 0 s.toList))
  | .list items => .list (expandList env items)
  | .dict fields => .dict (expandFields env fields)
  | .table entries => .table (expandEntries env entries)
  | v => v

/-- `expand` on every item. -/
def expandList (env : Environment) : List Value → List Value
  | [] => []
  | v :: rest => expand env v :: expandList env rest

/-- `expand` on the value of every entry. -/
def expandFields (env : Environment) : List (String × Value) → List (String × Value)
  | [] => []
  | (k, v) :: rest => (k, expand env v) :: expandFields env rest

/-- `expand` on the value of every entry of a table. -/
def expandEntries (env : Environment) : List (Value × Value) → List (Value × Value)
  | [] => []
  | (k, v) :: rest => (k, expand env v) :: expandEntries env rest
end

/-- The entries of a section whose keys are texts; a section that counts as absent has none. -/
def section? (v : Value) : Except Fault Fields :=
  if v.isEmpty then .ok []
  else
    match v.entries? with
    | some entries => .ok entries.texts
    | none => .error .notMapping

/-- The entries of a whole file whose keys are texts; a file that holds nothing has none.  A lone
text that only becomes empty when its references are replaced is still no mapping. -/
def root? (env : Environment) (v : Value) : Except Fault Fields :=
  if v.isEmpty then .ok []
  else
    match (expand env v).entries? with
    | some entries => .ok entries.texts
    | none => .error .notMapping

/-- An entry of a section, or its default when it is missing or null. -/
def entryOr (fields : Fields) (key : String) (default : Value) : Value :=
  match Fields.getD fields key with
  | .null => default
  | v => v

/-- The two items of a pair in a list of pairs.  A mapping of two entries stands for its keys. -/
def pair (index : Nat) : Value → Except Fault (Value × Value)
  | .list items => ofItems items
  | .str s => ofItems (s.toList.map fun c => .str (String.singleton c))
  | v =>
    match v.entries? with
    | some entries => ofItems (entries.map (·.1))
    | none => .error .notPairs
where
  /-- The pair of two items. -/
  ofItems : List Value → Except Fault (Value × Value)
    | [a, b] => .ok (a, b)
    | items => .error (.pairSize index items.length)

/-- The pairs of a list of pairs. -/
def pairs (index : Nat) : List Value → Except Fault (List (Value × Value))
  | [] => .ok []
  | v :: rest => do
    let (key, value) ← pair index v
    if key.isKey then return (key, value) :: (← pairs (index + 1) rest) else .error .notPairs

/-- A mapping, also given as a list of pairs. -/
def mapping (v : Value) : Except Fault Value.Entries :=
  if v.isEmpty then .ok []
  else
    match v, v.entries? with
    | _, some entries => .ok entries
    | .list items, none => (pairs 0 items).map Value.Entries.ofPairs
    | .str s, none =>
      (pairs 0 (s.toList.map fun c => .str (String.singleton c))).map Value.Entries.ofPairs
    | _, none => .error .notPairs

/-- Makes settings from the content of a settings file. -/
def ofValue (env : Environment) (v : Value) : Except Fault Settings := do
  let raw ← root? env v
  let database ← section? (Fields.getD raw "database")
  let flows ← section? (Fields.getD raw "flows")
  let logging ← section? (Fields.getD raw "logging")
  let hops ← (Step.Draft.toTarget (entryOr flows "max_condition_hops" (.int 100))).mapError .hops
  let intents ← mapping (entryOr flows "intent_map" (.dict []))
  return {
    appName := (Fields.getD raw "app_name").orElse (.str "FlowEngine")
    debug := !(Fields.getD raw "debug").isEmpty
    activeTenant := (Fields.getD raw "active_tenant").orElse (.str "default")
    database :=
      { url := entryOr database "url" (.str "sqlite:///./flows.db")
        storeBackend := entryOr database "store_backend" (.str "memory")
        storeFileDir := entryOr database "store_file_dir" (.str "./data") }
    flows :=
      { defaultPreset := entryOr flows "default_preset" (.str "lead-qualification")
        maxConditionHops := hops
        active := entryOr flows "active" (.str "")
        intentMap := intents }
    logging :=
      { level := Text.upper (entryOr logging "level" (.str "INFO")).display
        json := entryOr logging "json" (.bool false) } }

/-- All settings as an object. -/
def document (s : Settings) : Value :=
  .dict
    [("app_name", s.appName), ("debug", .bool s.debug), ("active_tenant", s.activeTenant),
      ("database", .dict
        [("url", s.database.url), ("store_backend", s.database.storeBackend),
          ("store_file_dir", s.database.storeFileDir)]),
      ("flows", .dict
        [("default_preset", s.flows.defaultPreset),
          ("max_condition_hops", .int s.flows.maxConditionHops), ("active", s.flows.active),
          ("intent_map",
            .dict (Keyed.ofEntries (s.flows.intentMap.map fun e => (e.1.display, e.2))))]),
      ("logging", .dict [("level", .str s.logging.level), ("json", s.logging.json)])]

end Dialogue.Settings
