import Dialogue.Value.Basic

/-!
# Log events

Everything worth telling an operator is an event: its name, how serious it is and the particulars.
Phone numbers appear in events only in their masked form, which is why an event holds the text of
the masked number and not the number.
-/

namespace Dialogue

/-- How serious an event is. -/
inductive Level where
  | debug
  | info
  | warning
  | error
  deriving DecidableEq, Repr

namespace Level

/-- The word for a level. -/
def name : Level → String
  | .debug => "debug"
  | .info => "info"
  | .warning => "warning"
  | .error => "error"

/-- The rank of a level among those that a log can be cut off at. -/
def rank : Level → Nat
  | .debug => 10
  | .info => 20
  | .warning => 30
  | .error => 40

end Level

/-- A log event. -/
inductive Event where
  | conditionUnreadable (expr : String)
  | flowNotFound (tenant flow : Value)
  | flowEmpty (tenant flow : Value)
  | stepSkipped (flow : String) (index : Int)
  | hopLimit (tenant : Value) (flow : String) (index hops : Int) (counterparty : String)
  | inboundHandled (tenant : Value) (flow action : String) (stepIndex : Int)
      (waiting : Option String) (completed : Bool) (counterparty : String)
  | flowSaved (tenant : Value) (flow : String) (version : Int) (steps : Nat)
  | stepAppended (tenant flow : Value) (index : Nat) (version : Int)
  | presetCreated (tenant flow : Value)
  | flowProblem (tenant flow : Value) (problem : String)
  | conversationCleared (tenant : Value) (counterparty : String)
  | conversationUnreadable (tenant : Value) (counterparty : String)
  | flowFileUnreadable (path : String)
  | stateFileUnreadable (path : String)
  | flowRowUnreadable (tenant flow : Value)
  | memoryFlowsReady
  | memoryConversationsReady
  | fileFlowsReady (dir : String)
  | fileConversationsReady (dir : String)
  | storeCreated (backend : String) (dir : Option Value)
  | storeUnknown (backend : Value)
  | connectionOpened (dialect address : String)
  | schemaReady (dialect : String) (tables : List String)
  | connectionClosed
  | serviceStarted (tenant backend : Value)
  | serviceStopped

namespace Event

/-- The name of an event. -/
def name : Event → String
  | .conditionUnreadable _ => "condition_unparseable"
  | .flowNotFound _ _ => "flow_not_found"
  | .flowEmpty _ _ => "flow_empty"
  | .stepSkipped _ _ => "flow_step_skipped"
  | .hopLimit _ _ _ _ _ => "flow_condition_hop_limit"
  | .inboundHandled _ _ _ _ _ _ _ => "flow_inbound_handled"
  | .flowSaved _ _ _ _ => "flow_saved"
  | .stepAppended _ _ _ _ => "flow_step_appended"
  | .presetCreated _ _ => "preset_flow_created"
  | .flowProblem _ _ _ => "flow_validation_warning"
  | .conversationCleared _ _ => "conversation_cleared"
  | .conversationUnreadable _ _ => "conversation_load_error"
  | .flowFileUnreadable _ => "file_flow_load_error"
  | .stateFileUnreadable _ => "file_state_load_error"
  | .flowRowUnreadable _ _ => "sql_flow_load_error"
  | .memoryFlowsReady => "inmemory_flow_store_initialized"
  | .memoryConversationsReady => "inmemory_conversation_store_initialized"
  | .fileFlowsReady _ => "file_flow_store_initialized"
  | .fileConversationsReady _ => "file_conversation_store_initialized"
  | .storeCreated _ _ => "store_created"
  | .storeUnknown _ => "unknown_store_backend"
  | .connectionOpened _ _ => "sql_engine_created"
  | .schemaReady _ _ => "sql_schema_ready"
  | .connectionClosed => "sql_engine_disposed"
  | .serviceStarted _ _ => "flow_api_started"
  | .serviceStopped => "flow_api_stopped"

/-- How serious an event is. -/
def level : Event → Level
  | .stepSkipped _ _ => .debug
  | .hopLimit _ _ _ _ _ => .error
  | .conditionUnreadable _ | .flowNotFound _ _ | .flowEmpty _ _ | .flowProblem _ _ _
  | .conversationUnreadable _ _ | .flowFileUnreadable _ | .stateFileUnreadable _
  | .flowRowUnreadable _ _ | .storeUnknown _ => .warning
  | _ => .info

/-- The particulars of an event. -/
def fields : Event → Fields
  | .conditionUnreadable expr => [("expr", .str expr)]
  | .flowNotFound tenant flow => [("tenant", tenant), ("flow", flow)]
  | .flowEmpty tenant flow => [("tenant", tenant), ("flow", flow)]
  | .stepSkipped flow index => [("flow", .str flow), ("index", .int index)]
  | .hopLimit tenant flow index hops counterparty =>
    [("tenant", tenant), ("flow", .str flow), ("index", .int index), ("hops", .int hops),
      ("counterparty", .str counterparty), ("hint", .str "reset_conversation")]
  | .inboundHandled tenant flow action stepIndex waiting completed counterparty =>
    [("tenant", tenant), ("flow", .str flow), ("action", .str action),
      ("step_index", .int stepIndex), ("waiting", .ofOption waiting),
      ("completed", .bool completed), ("counterparty", .str counterparty)]
  | .flowSaved tenant flow version steps =>
    [("tenant", tenant), ("flow", .str flow), ("version", .int version), ("steps", .int steps)]
  | .stepAppended tenant flow index version =>
    [("tenant", tenant), ("flow", flow), ("index", .int index), ("version", .int version)]
  | .presetCreated tenant flow => [("tenant", tenant), ("flow", flow)]
  | .flowProblem tenant flow problem =>
    [("tenant", tenant), ("flow", flow), ("problem", .str problem)]
  | .conversationCleared tenant counterparty =>
    [("tenant", tenant), ("counterparty", .str counterparty)]
  | .conversationUnreadable tenant counterparty =>
    [("tenant", tenant), ("counterparty", .str counterparty)]
  | .flowFileUnreadable path => [("path", .str path)]
  | .stateFileUnreadable path => [("path", .str path)]
  | .flowRowUnreadable tenant flow => [("tenant", tenant), ("flow", flow)]
  | .memoryFlowsReady => []
  | .memoryConversationsReady => []
  | .fileFlowsReady dir => [("data_dir", .str dir)]
  | .fileConversationsReady dir => [("state_dir", .str dir)]
  | .storeCreated backend dir =>
    ("backend", .str backend) :: (dir.map fun d => ("data_dir", d)).toList
  | .storeUnknown backend => [("backend", backend), ("fallback", .str "memory")]
  | .connectionOpened dialect address => [("dialect", .str dialect), ("url", .str address)]
  | .schemaReady dialect tables => [("dialect", .str dialect), ("tables", .ofTexts tables)]
  | .connectionClosed => []
  | .serviceStarted tenant backend => [("tenant", tenant), ("store_backend", backend)]
  | .serviceStopped => []

end Event

end Dialogue
