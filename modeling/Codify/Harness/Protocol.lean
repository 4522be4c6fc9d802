import Mathlib.Data.List.Sort
import Codify.Framework.Fallible
import Codify.Framework.Json

/-! # Canonical Events

    The event validators of app/core/harness_protocol.py. An event is a JSON
    object; `validateEventBySchema` returns it normalized or says why not.

    Three things come from Python itself and stay parameters (`Python`):
    `datetime.fromisoformat`, `str` and `repr`.
-/

namespace Codify.Harness

open Codify.Framework

/-! ### Constants -/

def canonicalEventSchema : String := "codify.worker.event/v1"
def canonicalEventSchemaV2 : String := "codify.worker.event/v2"
def firstSequence : Int := 1

/-- `MODEL_PROTOCOLS`. -/
def modelProtocols : List String :=
  ["anthropic_messages", "openai_responses", "openai_chat_completions"]

/-- `CONTROL_EVENT_TYPES`. -/
def controlEventTypes : List String :=
  ["control.command.delivered", "control.command.rejected", "control.queue.updated"]

/-- `V2_AUDIT_EVENT_TYPES`. -/
def v2AuditEventTypes : List String := controlEventTypes ++ ["agent_settled"]

/-- `REJECTION_CODES`. -/
def rejectionCodes : List String :=
  ["task_not_running", "attempt_mismatch", "unsupported_harness", "control_gate_closed",
   "not_authorized", "payload_too_large", "invalid_command_type", "delivery_outcome_unknown"]

/-- The values of `FailureKind`. -/
def failureKinds : List String :=
  ["configuration_error", "authentication_error", "rate_limited", "sandbox_error",
   "protocol_error", "timeout", "cancelled", "engine_error", "crash", "settled_race"]

/-- `KNOWN_EVENT_TYPES`. -/
def knownEventTypes : List String :=
  ["run.started", "model.resolved", "message.delta", "message.completed",
   "reasoning_summary.delta", "reasoning_summary.completed",
   "reasoning_summary.interrupted", "reasoning_summary.started", "tool.started",
   "tool.completed", "context.compacted", "provider.retry", "usage.updated",
   "usage.final", "harness.completed", "harness.failed", "delivery.started",
   "delivery.completed", "delivery.failed", "worker.finalization", "run.completed",
   "run.failed", "diagnostic"]

/-- `TASK_TERMINAL_TYPES`. -/
def taskTerminalTypes : List String := ["run.completed", "run.failed"]

/-- `HARNESS_TERMINAL_TYPES`. -/
def harnessTerminalTypes : List String := ["harness.completed", "harness.failed"]

/-- `HIDDEN_REASONING_KEYS`. -/
def hiddenReasoningKeys : List String :=
  ["thinking", "chain_of_thought", "hidden_reasoning", "encrypted_content"]

/-- `ROOT_AGENT_ID`. -/
def rootAgentId : String := "root"

/-- `AGENT_ATTRIBUTED_EVENT_TYPES`. -/
def agentAttributedEventTypes : List String :=
  ["message.delta", "message.completed", "reasoning_summary.started",
   "reasoning_summary.delta", "reasoning_summary.completed",
   "reasoning_summary.interrupted", "tool.started", "tool.completed",
   "context.compacted", "diagnostic"]

/-- `DELEGATION_EVENT_TYPES`. -/
def delegationEventTypes : List String := ["tool.started", "tool.completed"]

/-- `AGENT_REF_KEYS`. -/
def agentRefKeys : List String := ["id", "parent_id", "role"]

/-- `SUBAGENT_REF_KEYS`. -/
def subagentRefKeys : List String := ["id", "parent_id", "role", "status", "usage"]

/-- `SUBAGENT_STATUSES`. -/
def subagentStatuses : List String := ["completed", "failed", "cancelled"]

def usageTokenKeys : List String :=
  ["input_tokens", "cached_input_tokens", "output_tokens", "reasoning_tokens"]

/-- `SUBAGENT_USAGE_KEYS`. -/
def subagentUsageKeys : List String := usageTokenKeys ++ ["cost", "currency"]

/-! ### Errors -/

/-- What a validator can raise: the protocol's own error, the Python error of an operation on a
    value of the wrong type, or that of a limit; the ingest also what the database raises. -/
inductive EventError where
  /-- `HarnessProtocolError`. -/
  | protocol (message : String) (code : String)
  /-- A list or dict tested for membership in a set. -/
  | typeError
  /-- `.get` on a value that is no dict. -/
  | attributeError
  /-- A limit of the interpreter, on nesting or on the digits of an integer. -/
  | interpreterError
  /-- The database refuses a row. -/
  | databaseError
  deriving DecidableEq, Repr

/-- `HarnessProtocolError(message)` with the default code. -/
def protocolError (message : String) : EventError := .protocol message "protocol_error"

/-- `raise` unless the condition holds. -/
def require (condition : Bool) (error : EventError) : Except EventError Unit :=
  if condition then .ok () else .error error

/-- `raise` when the guard holds and the condition does not. -/
def requireIf (guarded condition : Bool) (error : EventError) : Except EventError Unit :=
  require (!guarded || condition) error

/-- A check that is made only under a condition. -/
def onlyIf (condition : Bool) (check : Except EventError Unit) : Except EventError Unit :=
  if condition then check else .ok ()

variable {condition v2 : Bool} {error : EventError} {t : String} {raw event : JsonObject}

@[simp] theorem require_eq_ok_iff {u : Unit} :
    require condition error = .ok u ↔ condition = true := by
  cases condition <;> simp [require]

@[simp] theorem requireIf_eq_ok_iff {guarded condition : Bool}
    {u : Unit} : requireIf guarded condition error = .ok u ↔
      (guarded = true → condition = true) := by
  cases guarded <;> simp [requireIf]

@[simp] theorem unit_bind_eq_ok_iff {α : Type} {x : Except EventError Unit}
    {f : Unit → Except EventError α} {a : α} :
    (x >>= f) = .ok a ↔ x = .ok () ∧ f () = .ok a := by
  rw [bind_eq_ok_iff]
  constructor
  · rintro ⟨⟨⟩, hx, hf⟩
    exact ⟨hx, hf⟩
  · rintro ⟨hx, hf⟩
    exact ⟨(), hx, hf⟩

/-- `value in strings` for a set of strings. -/
def memberOf (value : Json) (strings : List String) : Except EventError Bool :=
  if value.hashable then .ok (strings.any value.isStr) else .error .typeError

/-- `", ".join(sorted(texts))`. -/
def joinSorted (texts : List String) : String :=
  ", ".intercalate (texts.insertionSort (· ≤ ·))

/-- What the validators use of the Python standard library. -/
structure Python where
  /-- `datetime.fromisoformat`: `none` for a `ValueError`, else whether the result
      carries a timezone. -/
  fromIsoFormat : String → Option Bool
  /-- `str(value)` for a value that is no string. -/
  str : Json → String
  /-- `repr(value)`. -/
  repr : Json → String

/-! ### Field Validators -/

/-- `_validate_identity_text`. -/
def validateIdentityText (value : Json) (field : String) : Except EventError Unit :=
  match value.asString with
  | some text => require (!blank text) (protocolError s!"{field} must be a non-empty string")
  | none => .error (protocolError s!"{field} must be a non-empty string")

/-- The keys of a dict outside an allowed set, as one text. -/
def rejectUnknownKeys (value : JsonObject) (allowed : List String) (field : String) :
    Except EventError Unit :=
  let unknown := value.keys.filter (· ∉ allowed)
  let names := joinSorted unknown
  require unknown.isEmpty (protocolError s!"{field} has unsupported keys: {names}")

/-- `_validate_agent_ref`. -/
def validateAgentRef (value : Json) (field : String) : Except EventError Unit :=
  match value.asObject with
  | none => .error (protocolError s!"{field} must be an object")
  | some value => do
    rejectUnknownKeys value agentRefKeys field
    let missing := agentRefKeys.filter (!value.has ·)
    let names := joinSorted missing
    require missing.isEmpty (protocolError s!"{field} is missing: {names}")
    validateIdentityText (value.get "id") s!"{field}.id"
    validateIdentityText (value.get "parent_id") s!"{field}.parent_id"
    validateIdentityText (value.get "role") s!"{field}.role"
    require (!(value.get "id").isStr rootAgentId)
      (protocolError s!"{field}.id must identify a child agent, not '{rootAgentId}'")

/-- A token counter: a non-negative integer or null. -/
def validTokenCount (value : Json) : Bool :=
  value.isNull || value.asInt.any (0 ≤ ·)

/-- A cost: a non-negative number or null. A float NaN is not below zero. -/
def validCost : Json → Bool
  | .null => true
  | .int n => 0 ≤ n
  | .float x => !x.isNegative
  | _ => false

def validCurrency (value : Json) : Bool := value.isNull || value.asString.isSome

/-- The checks on the numbers of a usage object under a field name. -/
def validateUsageNumbers (usage : JsonObject) (field : String) : Except EventError Unit := do
  usageTokenKeys.forM fun key =>
    require (validTokenCount (usage.get key))
      (protocolError s!"{field}.{key} must be a non-negative integer or null")
  require (validCost (usage.get "cost"))
    (protocolError s!"{field}.cost must be a non-negative number or null")
  require (validCurrency (usage.get "currency"))
    (protocolError s!"{field}.currency must be a string or null")

/-- `_validate_subagent_usage`. -/
def validateSubagentUsage (value : Json) (field : String) : Except EventError Unit :=
  match value.asObject with
  | none => .error (protocolError s!"{field} must be an object")
  | some value => do
    rejectUnknownKeys value subagentUsageKeys field
    validateUsageNumbers value field

/-- `_validate_delegation_subagent`. -/
def validateDelegationSubagent (value : Json) (field : String) : Except EventError Unit :=
  match value.asObject with
  | none => .error (protocolError s!"{field} must be an object")
  | some value => do
    rejectUnknownKeys value subagentRefKeys field
    validateIdentityText (value.get "id") s!"{field}.id"
    validateIdentityText (value.get "parent_id") s!"{field}.parent_id"
    validateIdentityText (value.get "role") s!"{field}.role"
    let status := value.get "status"
    if !status.isNull then
      let known ← memberOf status subagentStatuses
      require known
        (protocolError s!"{field}.status must be one of ['cancelled', 'completed', 'failed']")
    if !(value.get "usage").isNull then
      validateSubagentUsage (value.get "usage") s!"{field}.usage"

/-- `_validate_agent_attribution`. -/
def validateAgentAttribution (eventType : String) (payload : JsonObject) :
    Except EventError Unit := do
  let agent := payload.get "agent"
  if !agent.isNull then
    require (eventType ∈ agentAttributedEventTypes)
      (protocolError s!"{eventType} must not carry payload.agent")
    validateAgentRef agent "payload.agent"
  let subagent := payload.get "subagent"
  if !subagent.isNull then
    require (eventType ∈ delegationEventTypes)
      (protocolError s!"{eventType} must not carry payload.subagent")
    validateDelegationSubagent subagent "payload.subagent"

/-- `_parse_timestamp`; the parsed value is not used by the validators. -/
def parseTimestamp (py : Python) (value : Json) : Except EventError Unit :=
  match value.asString with
  | none => .error (protocolError "occurred_at must be a non-empty RFC3339 timestamp")
  | some text => do
    require (!blank text)
      (protocolError "occurred_at must be a non-empty RFC3339 timestamp")
    match py.fromIsoFormat (replaceChar text 'Z' "+00:00") with
    | none => throw (protocolError "occurred_at must be an RFC3339 timestamp")
    | some hasTimezone =>
      require hasTimezone (protocolError "occurred_at must include a timezone")

/-- `_validate_raw_ref`. -/
def validateRawRef (rawRef : Json) : Except EventError Unit :=
  if rawRef.isNull then
    .ok ()
  else
    match rawRef.asObject with
    | none => .error (protocolError "raw_ref must be an object or null")
    | some rawRef => do
      require ((rawRef.get "stream").asString.any (startsWith · "harness-events/"))
        (protocolError "raw_ref.stream must reference harness-events/")
      require ((rawRef.get "line").asInt.any (1 ≤ ·))
        (protocolError "raw_ref.line must be a positive integer")

mutual

/-- `_contains_hidden_reasoning`, on a stack that is deep enough. -/
def containsHiddenReasoning : Json → Bool
  | .obj fields => fieldsContainHiddenReasoning fields
  | .arr items => itemsContainHiddenReasoning items
  | _ => false
termination_by structural x => x

def fieldsContainHiddenReasoning : List (String × Json) → Bool
  | [] => false
  | p :: rest => fieldContainsHiddenReasoning p || fieldsContainHiddenReasoning rest
termination_by structural x => x

/-- One item of a dict: its key, then its value. -/
def fieldContainsHiddenReasoning : String × Json → Bool
  | (key, child) => lower key ∈ hiddenReasoningKeys || containsHiddenReasoning child
termination_by structural x => x

def itemsContainHiddenReasoning : List Json → Bool
  | [] => false
  | child :: rest => containsHiddenReasoning child || itemsContainHiddenReasoning rest
termination_by structural x => x

end

/-- `value or {}` as the source of `.get` calls. -/
def usageSource (value : Json) : Except EventError JsonObject :=
  if !value.truthy then
    .ok []
  else
    match value.asObject with
    | some source => .ok source
    | none => .error .attributeError

/-- `normalize_usage`. -/
def normalizeUsage (value : Json) : Except EventError JsonObject := do
  let source ← usageSource value
  let engineFields := source.get "engine_fields"
  let normalized : JsonObject :=
    [("input_tokens", source.get "input_tokens"),
     ("cached_input_tokens", source.get "cached_input_tokens"),
     ("output_tokens", source.get "output_tokens"),
     ("reasoning_tokens", source.get "reasoning_tokens"),
     ("cost", source.get "cost"),
     ("currency", source.get "currency"),
     ("engine_fields", if engineFields.truthy then engineFields else .obj [])]
  validateUsageNumbers normalized "usage"
  require (normalized.get "engine_fields").asObject.isSome
    (protocolError "usage.engine_fields must be an object")
  return normalized

/-- `normalize_event_type`: an unknown non-terminal type becomes a diagnostic. -/
def normalizeEventType (eventType : String) (payload : JsonObject) (rawRef : Json)
    (extraKnownTypes : List String) : Except EventError (String × JsonObject) :=
  if eventType ∈ knownEventTypes ∨ eventType ∈ extraKnownTypes then
    .ok (eventType, payload)
  else if startsWith eventType "run." then
    .error (.protocol s!"unknown task terminal event type: {eventType}" "unknown_terminal")
  else
    .ok ("diagnostic",
      [("code", .str "unknown_event_type"), ("original_type", .str eventType),
       ("raw_ref", if rawRef.truthy then rawRef else .null)])

def nonEmptyText (value : Json) : Bool := value.asString.any (!blank ·)

/-- `isinstance(failure, Mapping) and failure.get("kind") in set(FailureKind)`. -/
def knownFailure (failure : Json) : Except EventError Bool :=
  match failure.asObject with
  | none => .ok false
  | some failure => memberOf (failure.get "kind") failureKinds

/-- `_validate_event_payload`. -/
def validateEventPayload (eventType : String) (payload : JsonObject) :
    Except EventError Unit := do
  if eventType = "run.completed" then
    let success := match payload.get "success" with
      | .bool true => true
      | _ => false
    require ((payload.get "status").isStr "completed" && success)
      (protocolError "run.completed requires completed/success payload")
  else if eventType = "reasoning_summary.started" then
    require (nonEmptyText (payload.get "reasoning_id"))
      (protocolError "reasoning_summary.started requires a non-empty reasoning_id")
  else if eventType = "reasoning_summary.interrupted" then
    require (nonEmptyText (payload.get "reasoning_id"))
      (protocolError "reasoning_summary.interrupted requires a non-empty reasoning_id")
    let reason := payload.get "reason"
    require (reason.isNull || reason.asString.any fun text => !blank text && text.length ≤ 200)
      (protocolError "reasoning_summary.interrupted reason must be a short string")
  else if eventType = "run.failed" then
    let known ← memberOf (payload.get "status") ["failed", "cancelled", "protocol_error"]
    require known (protocolError "run.failed requires a known failure status")
    let unsuccessful := match payload.get "success" with
      | .bool false => true
      | _ => false
    require unsuccessful (protocolError "run.failed requires success=false")
    let knownKind ← knownFailure (payload.get "failure")
    require knownKind (protocolError "run.failed requires a known failure.kind")
  else if eventType = "harness.failed" then
    let knownKind ← knownFailure (payload.get "failure")
    require knownKind (protocolError "harness.failed requires a known failure.kind")

/-- `_validate_v2_harness`. -/
def validateV2Harness (harness : JsonObject) : Except EventError Unit :=
  match (harness.get "control_transport").asObject with
  | none => .error (protocolError "harness.control_transport must be an object")
  | some transport => do
    require (nonEmptyText (transport.get "kind"))
      (protocolError "harness.control_transport.kind must be a string")
    let protocol := transport.get "protocol"
    require (protocol.isNull || nonEmptyText protocol)
      (protocolError "harness.control_transport.protocol must be a string")
    match (harness.get "model_protocols").asList with
    | none => throw (protocolError "harness.model_protocols must be a non-empty array")
    | some protocols =>
      require (!protocols.isEmpty)
        (protocolError "harness.model_protocols must be a non-empty array")
      require (protocols.all fun p => p.asString.any (· ∈ modelProtocols))
        (protocolError
          "harness.model_protocols contains an unsupported protocol; fail closed")

def requireKeys (eventType : String) (payload : JsonObject) (keys : List String) :
    Except EventError Unit :=
  keys.forM fun key =>
    require (!(payload.get key).isNull) (protocolError s!"{eventType} requires {key}")

/-- `_validate_control_event`. -/
def validateControlEvent (eventType : String) (payload : JsonObject) :
    Except EventError Unit := do
  if eventType = "control.command.delivered" then
    requireKeys eventType payload
      ["command_id", "payload_digest", "sequence_no", "delivered_at"]
  else if eventType = "control.command.rejected" then
    requireKeys eventType payload
      ["command_id", "payload_digest", "sequence_no", "rejection_code"]
    require (payload.get "rejection_message").asString.isSome
      (protocolError "control.command.rejected requires rejection_message")
    let known ← memberOf (payload.get "rejection_code") rejectionCodes
    require known (protocolError "control.command.rejected requires a known rejection_code")
  if eventType = "control.queue.updated" then
    require (payload.get "queue").asList.isSome
      (protocolError "control.queue.updated requires queue array")

/-! ### Event Envelope -/

/-- The fields every canonical event carries. -/
def requiredEventFields : List String :=
  ["schema", "event_id", "attempt_id", "seq", "occurred_at", "type", "task_id", "harness",
   "payload"]

/-- `str(event.get("type") or "")`. -/
def eventTypeText (py : Python) (value : Json) : String :=
  if !value.truthy then "" else value.asString.getD (py.str value)

/-- The checks on the `harness` block, with the block. -/
def validateHarness (harness : Json) (requireV2Harness : Bool) :
    Except EventError JsonObject :=
  match harness.asObject with
  | none => .error (protocolError "harness must be an object")
  | some harness => do
    ["key", "adapter_version", "cli_version"].forM fun key =>
      require (nonEmptyText (harness.get key))
        (protocolError s!"harness.{key} must be a non-empty string")
    onlyIf requireV2Harness (validateV2Harness harness)
    return harness

/-- The checks on the payload before it is normalized, with the payload. -/
def validatePayload (payload : Json) : Except EventError JsonObject :=
  match payload.asObject with
  | none => .error (protocolError "payload must be an object")
  | some fields => do
    require (!containsHiddenReasoning payload)
      (protocolError "payload contains a forbidden hidden-reasoning field")
    return fields

/-- The checks on the scalar fields of the envelope. -/
def validateEnvelope (py : Python) (event : JsonObject) (schema : String) :
    Except EventError Unit := do
  let missing := requiredEventFields.filter (!event.has ·)
  let names := joinSorted missing
  require missing.isEmpty (protocolError s!"missing canonical event fields: {names}")
  let found := py.repr (event.get "schema")
  require ((event.get "schema").isStr schema)
    (protocolError s!"unsupported event schema: {found}")
  require (nonEmptyText (event.get "event_id"))
    (protocolError "event_id must be a non-empty string")
  require (nonEmptyText (event.get "attempt_id"))
    (protocolError "attempt_id must be a non-empty string")
  require ((event.get "seq").asInt.any (firstSequence ≤ ·))
    (protocolError "seq must be an integer >= 1")
  parseTimestamp py (event.get "occurred_at")
  require ((event.get "task_id").asInt.any (1 ≤ ·))
    (protocolError "task_id must be a positive integer")

/-- The usage block of a usage event is normalized in place. -/
def normalizePayload (eventType : String) (payload : JsonObject) :
    Except EventError JsonObject :=
  if eventType = "usage.updated" ∨ eventType = "usage.final" then do
    let usage ← normalizeUsage (payload.get "usage")
    return payload.set "usage" (.obj usage)
  else
    .ok payload

/-- The rules on a normalized payload, by event type. -/
def validatePayloadRules (requireV2Harness : Bool) (eventType : String)
    (payload : JsonObject) : Except EventError Unit := do
  onlyIf (requireV2Harness && eventType ∈ controlEventTypes)
    (validateControlEvent eventType payload)
  validateAgentAttribution eventType payload
  validateEventPayload eventType payload

/-- `_validate_event_core`. -/
def validateEventCore (py : Python) (event : JsonObject) (schema : String)
    (requireV2Harness : Bool) : Except EventError JsonObject := do
  validateEnvelope py event schema
  let _ ← validateHarness (event.get "harness") requireV2Harness
  let payload ← validatePayload (event.get "payload")
  validateRawRef (event.get "raw_ref")
  let (eventType, payload) ←
    normalizeEventType (eventTypeText py (event.get "type")) payload (event.get "raw_ref")
      (if requireV2Harness then v2AuditEventTypes else [])
  let payload ← normalizePayload eventType payload
  validatePayloadRules requireV2Harness eventType payload
  return (event.set "type" (.str eventType)).set "payload" (.obj payload)

/-- `validate_event_by_schema`. -/
def validateEventBySchema (py : Python) (event : JsonObject) : Except EventError JsonObject :=
  let schema := event.get "schema"
  if schema.isStr canonicalEventSchema then
    validateEventCore py event canonicalEventSchema false
  else if schema.isStr canonicalEventSchemaV2 then
    validateEventCore py event canonicalEventSchemaV2 true
  else
    let found := py.repr schema
    .error (protocolError s!"unsupported event schema: {found}")

/-! ### Reading a Validated Event

    The validators have checked the types, so the accessors below have no error
    case of their own. -/

namespace Event

/-- `event["event_id"]`. -/
def eventId (event : JsonObject) : String := (event.get "event_id").asString.getD ""

/-- `event["attempt_id"]`. -/
def attemptId (event : JsonObject) : String := (event.get "attempt_id").asString.getD ""

/-- `event["seq"]`. -/
def seq (event : JsonObject) : Int := (event.get "seq").asInt.getD 0

/-- `event["task_id"]`. -/
def taskId (event : JsonObject) : Int := (event.get "task_id").asInt.getD 0

/-- `event["type"]`. -/
def type (event : JsonObject) : String := (event.get "type").asString.getD ""

/-- `event["schema"]`. -/
def schema (event : JsonObject) : String := (event.get "schema").asString.getD ""

/-- `event["harness"]`. -/
def harness (event : JsonObject) : JsonObject := (event.get "harness").asObject.getD []

/-- `event["harness"]["key"]`. -/
def harnessKey (event : JsonObject) : String := ((harness event).get "key").asString.getD ""

/-- `event["harness"]["adapter_version"]`. -/
def adapterVersion (event : JsonObject) : String :=
  ((harness event).get "adapter_version").asString.getD ""

/-- `event["harness"]["cli_version"]`. -/
def cliVersion (event : JsonObject) : String :=
  ((harness event).get "cli_version").asString.getD ""

/-- `event["harness"].get("control_transport")`. -/
def controlTransport (event : JsonObject) : Json := (harness event).get "control_transport"

/-- `event["harness"].get("model_protocols")`. -/
def modelProtocols (event : JsonObject) : Json := (harness event).get "model_protocols"

end Event

/-- A `run.completed` or `run.failed` event. -/
def isTaskTerminal (eventType : String) : Bool := eventType ∈ taskTerminalTypes

/-- A `harness.completed` or `harness.failed` event. -/
def isHarnessTerminal (eventType : String) : Bool := eventType ∈ harnessTerminalTypes

/-- A `delivery.` event. -/
def isDelivery (eventType : String) : Bool := startsWith eventType "delivery."

/-! ### Event Types -/

variable {py : Python}

theorem isHarnessTerminal_iff :
    isHarnessTerminal t = true ↔ t = "harness.completed" ∨ t = "harness.failed" := by
  simp [isHarnessTerminal, harnessTerminalTypes]

theorem isTaskTerminal_iff :
    isTaskTerminal t = true ↔ t = "run.completed" ∨ t = "run.failed" := by
  simp [isTaskTerminal, taskTerminalTypes]

theorem not_delivery_of_boundary
    (h : isHarnessTerminal t = true ∨ t = "worker.finalization" ∨ isTaskTerminal t = true ∨
      t = "run.started") : isDelivery t = false := by
  rw [isHarnessTerminal_iff, isTaskTerminal_iff] at h
  rcases h with (rfl | rfl) | rfl | (rfl | rfl) | rfl <;> decide

theorem not_taskTerminal_of_boundary
    (h : isHarnessTerminal t = true ∨ t = "worker.finalization" ∨ t = "run.started") :
    isTaskTerminal t = false := by
  rw [isHarnessTerminal_iff] at h
  rcases h with (rfl | rfl) | rfl | rfl <;> decide

theorem ne_finalization_of_harnessTerminal (h : isHarnessTerminal t = true) :
    t ≠ "worker.finalization" := by
  rcases isHarnessTerminal_iff.mp h with rfl | rfl <;> decide

/-! ### What Validation Says -/

/-- The normalized form of `raw`: only the type and the payload may differ, and the type
    is kept when it is known or becomes a diagnostic. -/
structure NormalForm (raw event : JsonObject) : Prop where
  /-- The `harness` block is a dict. -/
  harness : ∃ harness, raw.get "harness" = .obj harness
  seq : ∃ n : Int, raw.get "seq" = .int n
  rest : ∃ eventType payload,
    event = (raw.set "type" (.str eventType)).set "payload" (.obj payload)
  type : ∀ t, raw.get "type" = .str t → t ≠ "" →
    Event.type event = t ∨ (Event.type event = "diagnostic" ∧ t ∉ knownEventTypes)

theorem NormalForm.get_eq (h : NormalForm raw event) (key : String)
    (htype : key ≠ "type") (hpayload : key ≠ "payload") : event.get key = raw.get key := by
  obtain ⟨eventType, payload, rfl⟩ := h.rest
  rw [JsonObject.get_set_ne _ hpayload, JsonObject.get_set_ne _ htype]

theorem validateHarness_eq_ok {value : Json} {harness : JsonObject}
    (h : validateHarness value v2 = .ok harness) : value = .obj harness := by
  unfold validateHarness at h
  cases value with
  | obj fields =>
    simp only [Json.asObject, unit_bind_eq_ok_iff, pure_eq_ok, Except.ok.injEq] at h
    rw [h.2.2]
  | _ => simp [Json.asObject] at h

theorem validateEnvelope_seq {schema : String}
    (h : validateEnvelope py event schema = .ok ()) :
    ∃ n : Int, event.get "seq" = .int n := by
  simp only [validateEnvelope, unit_bind_eq_ok_iff, require_eq_ok_iff] at h
  obtain ⟨-, -, -, -, hseq, -⟩ := h
  cases hv : event.get "seq" with
  | int n => exact ⟨n, rfl⟩
  | _ => simp [hv, Json.asInt] at hseq

theorem normalizeEventType_eq_ok {t eventType : String} {payload payload' : JsonObject}
    {rawRef : Json} {extra : List String}
    (h : normalizeEventType t payload rawRef extra = .ok (eventType, payload')) :
    eventType = t ∨ (eventType = "diagnostic" ∧ t ∉ knownEventTypes) := by
  unfold normalizeEventType at h
  split at h
  · left
    exact (Prod.mk.inj (Except.ok.inj h)).1.symm
  · rename_i hunknown
    split at h
    · cases h
    · right
      exact ⟨(Prod.mk.inj (Except.ok.inj h)).1.symm, fun hk => hunknown (.inl hk)⟩

theorem type_set (raw : JsonObject) (eventType : String) (payload : JsonObject) :
    Event.type ((raw.set "type" (.str eventType)).set "payload" (.obj payload)) = eventType := by
  simp [Event.type, Json.asString]

theorem validateEventCore_normalForm {schema : String}
    (h : validateEventCore py raw schema v2 = .ok event) :
    NormalForm raw event := by
  simp only [validateEventCore, unit_bind_eq_ok_iff] at h
  obtain ⟨henv, h⟩ := h
  obtain ⟨harness, hharness, h⟩ := bind_eq_ok_iff.mp h
  obtain ⟨payload, -, h⟩ := bind_eq_ok_iff.mp h
  simp only [unit_bind_eq_ok_iff] at h
  obtain ⟨-, h⟩ := h
  obtain ⟨⟨eventType, payload'⟩, htype, h⟩ := bind_eq_ok_iff.mp h
  obtain ⟨payload'', -, h⟩ := bind_eq_ok_iff.mp h
  simp only [unit_bind_eq_ok_iff, pure_eq_ok, Except.ok.injEq] at h
  obtain ⟨-, rfl⟩ := h
  refine ⟨⟨harness, validateHarness_eq_ok hharness⟩, validateEnvelope_seq henv,
    ⟨eventType, payload'', rfl⟩, ?_⟩
  intro t ht hne
  have htext : eventTypeText py (raw.get "type") = t := by
    simp [eventTypeText, ht, Json.truthy, Json.asString, hne]
  rw [htext] at htype
  rw [type_set]
  exact normalizeEventType_eq_ok htype

/-- A valid event and its normalized form differ in the type and the payload only. -/
theorem validateEventBySchema_normalForm
    (h : validateEventBySchema py raw = .ok event) : NormalForm raw event := by
  unfold validateEventBySchema at h
  simp only at h
  split at h
  · exact validateEventCore_normalForm h
  · split at h
    · exact validateEventCore_normalForm h
    · cases h

/-- A Python that reads every timestamp as one with a timezone, as it does for the
    timestamps of the concrete runs. -/
def zonedPython : Python where
  fromIsoFormat := fun _ => some true
  str := fun _ => ""
  repr := fun _ => ""

end Codify.Harness
