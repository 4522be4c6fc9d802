import Codify.Framework.System
import Codify.Harness.Protocol
import Mathlib.Data.List.Infix

/-! # Pi Event Translator

    `pi_events` (deploy/worker-entrypoint/harness/adapters/pi_events.py) reads
    Pi's RPC stream record by record and emits canonical events. It keeps the
    state of the stream in one dict and decides the harness terminal at the end
    of the input.

    A handler that raises ends the process without a terminal: it is `none`
    here. Only operations on values of a wrong type raise (a list as the type of
    a record, a number among text deltas). The state of a `subagent` call is one
    dict that mixes its child rows with bookkeeping and with the captured input,
    as in the source.

    The sanitizer and the parts of Python that print values are parameters.
-/

namespace Codify.Harness.PiEvents

open Codify.Framework Codify.Harness

/-! ### Environment -/

/-- What the translator uses of `sanitize` and of the Python library. -/
structure Env where
  py : Python
  sanitize : String → String
  /-- `clean_message`. -/
  cleanMessage : String → String
  /-- `json.dumps(value, ensure_ascii=False, separators=(",", ":"))`. -/
  dumps : Json → String
  /-- `json.loads`, for the arguments of a tool call. -/
  loads : String → Option Json
  /-- `_native_timestamp`. -/
  nativeTimestamp : Json → Option String

/-- `str(value)`. -/
def str (env : Env) (value : Json) : String := value.asString.getD (env.py.str value)

variable (env : Env)

/-- `str(value or fallback)`. -/
def strOr (value : Json) (fallback : String) : String :=
  if value.truthy then str env value else fallback

/-- `text[:n]`. -/
def cut (n : Nat) (text : String) : String := String.ofList (text.toList.take n)

/-- `sub in text`. -/
def contains (text sub : String) : Bool := decide (sub.toList <:+: text.toList)

/-- `"".join(parts)`; a part that is no string raises. -/
def joinParts (parts : List Json) : Option String := (parts.mapM Json.asString).map String.join

/-- `isinstance(value, int) and not isinstance(value, bool) and value >= 0`, with the number. -/
def asCount (value : Json) : Option Int := value.asInt.filter (0 ≤ ·)

/-- `isinstance(value, str) and value`, with the text. -/
def asText (value : Json) : Option String := value.asString.filter (· ≠ "")

/-- `isinstance(value, str) and value.strip()`, with the text. -/
def asWords (value : Json) : Option String := value.asString.filter (!blank ·)

/-- `value if isinstance(value, dict) else {}`. -/
def dictOr (value : Json) : JsonObject := value.asObject.getD []

def optStr : Option String → Json
  | some text => .str text
  | none => .null

/-! ### State -/

/-- A canonical event. -/
structure Event where
  type : String
  payload : JsonObject
  rawLine : Nat

/-- An entry of `tool_starts`. -/
structure Lifecycle where
  started : Bool := false
  completed : Bool := false
  name : Option String := none

/-- An entry of `pending_tool_calls`. -/
structure PendingCall where
  toolId : Json
  name : Json
  arguments : Json

/-- `pending_tool_calls`: several keys may name one call. -/
structure PendingCalls where
  keys : OrderedDict String Nat := []
  /-- The calls, in the order in which they were first seen. -/
  calls : List PendingCall := []

/-- A failure kind with its message. -/
structure Failure where
  kind : String
  message : String

inductive Terminal where
  | completed
  | failed
  deriving DecidableEq

/-- `_STATE`, with the session id captured before sanitization, the line counter of `main` and
    what has been written so far. -/
structure State where
  modelResolved : Bool := false
  sessionNegotiated : Bool := false
  pendingModelResolvedLine : Option Nat := none
  modelId : Json := .null
  sessionId : Option String := none
  thinking : List Json := []
  thinkingReasoningId : Option String := none
  textParts : List Json := []
  toolStarts : OrderedDict String Lifecycle := []
  pending : PendingCalls := {}
  messageCompletedEmitted : Bool := false
  usage : JsonObject := []
  terminal : Option Terminal := none
  terminalLine : Nat := 0
  terminalFailure : Option Failure := none
  aborted : Bool := false
  assistantFinalLine : Option Nat := none
  agentEndSuccessLine : Option Nat := none
  agentSettledLine : Option Nat := none
  lastRawLine : Nat := 0
  delegations : OrderedDict String JsonObject := []
  childUsage : OrderedDict String (OrderedDict String Int) := []
  /-- `_REAL_SESSION_ID`. -/
  realSessionId : Option String := none
  lineNo : Nat := 0
  events : List Event := []
  /-- The result file. -/
  result : Option JsonObject := none

variable (record : JsonObject) (callId : String) (rawLine : Nat) (s : State)

/-- `_emit` without an agent. -/
def State.emit (type : String) (payload : JsonObject) (rawLine : Nat) : State :=
  { s with events := s.events ++ [{ type, payload, rawLine }] }

/-- The payload of an event with an agent. -/
def attributed (agent : JsonObject) (type : String) (payload : JsonObject) : JsonObject :=
  if type ∈ agentAttributedEventTypes then payload.set "agent" (.obj agent) else payload

/-- `_emit` with an agent. -/
def State.emitFor (agent : JsonObject) (type : String) (payload : JsonObject) (rawLine : Nat) :
    State :=
  s.emit type (attributed agent type payload) rawLine

/-! ### Session and Failures -/

/-- `_session_id`. -/
def sessionIdOf (value : Json) : Option String :=
  match s.realSessionId with
  | some id => some id
  | none => if value.isNull then s.sessionId.filter (· ≠ "") else asText value

/-- `_session_id()` as a value. -/
def State.session : Json := optStr (sessionIdOf s .null)

/-- `_emit_model_resolved`. -/
def emitModelResolved (rawLine : Nat) : State :=
  if s.modelResolved then s
  else
    { s with modelResolved := true, pendingModelResolvedLine := none }.emit "model.resolved"
      [("model", s.modelId), ("session_id", s.session)] rawLine

/-- `_flush_pending_model_resolved`. -/
def flushPendingModelResolved : State :=
  match s.pendingModelResolvedLine with
  | some line => if s.modelResolved then s else emitModelResolved s line
  | none => s

/-- `_failure_kind`. -/
def failureKind (message : String) : String :=
  let lowered := lower message
  if ["abort", "interrupt"].any (contains lowered) then "cancelled"
  else if ["401", "unauthorized", "authentication failed", "authentication error",
      "invalid api key", "invalid x-api-key"].any (contains lowered) then "authentication_error"
  else if ["429", "rate limit", "too many requests"].any (contains lowered) then "rate_limited"
  else if ["model not found", "unknown model", "model not configured"].any (contains lowered) then
    "configuration_error"
  else if ["sandbox", "permission denied"].any (contains lowered) then "sandbox_error"
  else "engine_error"

/-- `_failure_message`. -/
def failureMessage (value : Json) (fallback : String) : String :=
  cut 2000 (env.cleanMessage (env.sanitize (strOr env value fallback)))

def failureOf (message : String) : Failure := ⟨failureKind message, message⟩

def Failure.toJson (f : Failure) : Json := .obj [("kind", .str f.kind), ("message", .str f.message)]

/-- A failure that stays until the end of the input or the next retry. -/
def State.fail (failure : Failure) : State := { s with terminalFailure := some failure }

/-- A failure that also marks the run as aborted. -/
def State.abort (failure : Failure) : State :=
  { s with aborted := true, terminalFailure := some failure }

/-! ### Usage -/

def costTotal (cost : Json) : Json :=
  let number : Json → Json
    | .int n => .int n
    | .float x => .float x
    | _ => .null
  match cost with
  | .obj fields => number (JsonObject.get fields "total")
  | value => number value

/-- `_usage`. -/
def usageOf : JsonObject :=
  let source := dictOr (record.get "usage")
  [("input_tokens", source.get "input"), ("cached_input_tokens", source.get "cacheRead"),
   ("output_tokens", source.get "output"), ("reasoning_tokens", .null),
   ("cost", costTotal (source.get "cost")), ("currency", .null),
   ("engine_fields", .obj (source.filter fun p =>
     p.1 ∉ ["input", "output", "cacheRead", "cacheWrite", "cacheWrite1h", "totalTokens", "cost"]))]

/-- One child's counters added to a usage dict. -/
def addChildUsage (combined : JsonObject) (usage : OrderedDict String Int) : JsonObject :=
  usage.foldl (fun combined p =>
    combined.set p.1 <|
      match combined.get p.1 with
      | .int current => .int (current + p.2)
      | _ => .int p.2) combined

/-- `_attempt_usage`. -/
def attemptUsage (childUsage : OrderedDict String (OrderedDict String Int))
    (rootUsage : JsonObject) : JsonObject :=
  if rootUsage.isEmpty then rootUsage
  else (childUsage.map (·.2)).foldl addChildUsage rootUsage

/-- `_set_usage` with `emit_update`. -/
def setUsage : State :=
  match (record.get "usage").asObject with
  | none => s
  | some _ =>
    let normalized := usageOf record
    let changed := !(Json.obj normalized).pyEq (.obj s.usage)
    let s := { s with usage := normalized }
    if changed && ["input_tokens", "cached_input_tokens", "output_tokens", "cost"].any
        (fun key => !(normalized.get key).isNull) then
      s.emit "usage.updated" [("usage", .obj (attemptUsage s.childUsage normalized))] rawLine
    else s

/-- `_child_usage`: the counters of a snapshot. -/
def childUsageOf (result : JsonObject) : OrderedDict String Int :=
  let usage := dictOr (result.get "usage")
  [("input", "input_tokens"), ("output", "output_tokens"),
    ("cacheRead", "cached_input_tokens")].filterMap fun (source, target) =>
      (asCount (usage.get source)).map fun n => (target, n)

/-- `_record_child_usage`. -/
def recordChildUsage (childId : String) (usage : OrderedDict String Int) (s : State) : State :=
  if usage.isEmpty then s
  else
    let totals := (s.childUsage.lookup childId).getD []
    let totals := usage.foldl (fun (totals : OrderedDict String Int) p =>
      totals.set p.1 (max ((totals.lookup p.1).getD 0) p.2)) totals
    { s with childUsage := s.childUsage.set childId totals }

/-! ### Values for Projection -/

mutual

/-- `_sanitize_value`. -/
def sanitizeValue (env : Env) : Json → Nat → Json
  | .str text, depth =>
    if 6 < depth then .str "<DEPTH_LIMIT>" else .str (cut 4000 (env.sanitize text))
  | .obj fields, depth =>
    if 6 < depth then .str "<DEPTH_LIMIT>"
    else .obj ((sanitizeFields env fields (depth + 1)).take 64)
  | .arr items, depth =>
    if 6 < depth then .str "<DEPTH_LIMIT>"
    else .arr ((sanitizeItems env items (depth + 1)).take 64)
  | value, depth => if 6 < depth then .str "<DEPTH_LIMIT>" else value
termination_by structural value => value

def sanitizeFields (env : Env) : List (String × Json) → Nat → List (String × Json)
  | [], _ => []
  | p :: rest, depth => sanitizeField env p depth :: sanitizeFields env rest depth
termination_by structural fields => fields

def sanitizeField (env : Env) : String × Json → Nat → String × Json
  | (key, value), depth => (key, sanitizeValue env value depth)
termination_by structural p => p

def sanitizeItems (env : Env) : List Json → Nat → List Json
  | [], _ => []
  | value :: rest, depth => sanitizeValue env value depth :: sanitizeItems env rest depth
termination_by structural items => items

end

mutual

/-- `redact_hidden_reasoning`. -/
def redactHiddenReasoning : Json → Json
  | .obj fields => .obj (redactFields fields)
  | .arr items => .arr (redactItems items)
  | value => value
termination_by structural value => value

def redactFields : List (String × Json) → List (String × Json)
  | [] => []
  | p :: rest => redactField p :: redactFields rest
termination_by structural fields => fields

def redactField : String × Json → String × Json
  | (key, value) =>
    (key,
      if key = "signature" then .str "<REDACTED_SIGNATURE>"
      else if key ∈ hiddenReasoningKeys then .str "<HIDDEN_REASONING_OMITTED>"
      else redactHiddenReasoning value)
termination_by structural p => p

def redactItems : List Json → List Json
  | [] => []
  | value :: rest => redactHiddenReasoning value :: redactItems rest
termination_by structural items => items

end

/-- `_TOOL_NAME_ALIASES`. -/
def toolNameAliases : OrderedDict String String :=
  [("bash", "Bash"), ("shell", "Bash"), ("write", "Write"), ("read", "Read"), ("edit", "Edit"),
   ("patch", "Edit"), ("multiedit", "MultiEdit"), ("multi_edit", "MultiEdit"), ("glob", "Glob"),
   ("grep", "Grep"), ("todo", "Todo")]

/-- `_display_tool_name` of a text. -/
def displayToolName (name : String) : String :=
  let raw := strip name
  let raw := if raw = "" then "unknown" else raw
  (toolNameAliases.lookup (lower raw)).getD raw

/-- `_tool_input`. -/
def toolInput : JsonObject :=
  let toolName := lower (strOr env (record.get "toolName") "unknown")
  let args := dictOr (record.get "args")
  let sanitized := dictOr (sanitizeValue env (.obj args) 0)
  if toolName ∈ ["read", "write", "edit", "patch", "multiedit", "multi_edit"] then
    match asText (((args.get "path").orElse (args.get "filePath")).orElse (args.get "file_path")) with
    | some path =>
      ((sanitized.erase "path").erase "filePath").set "file_path"
        (.str (cut 4000 (env.sanitize path)))
    | none => sanitized
  else if toolName ∈ ["bash", "shell"] then
    match (((args.get "command").orElse (args.get "cmd")).orElse (args.get "script")).asString with
    | some command => [("command", .str (cut 1000 (env.sanitize command)))]
    | none => sanitized
  else sanitized

/-- The texts of the `text` blocks of a content list. -/
def textBlocks (content : List Json) : List String :=
  content.filterMap fun block =>
    block.asObject.bind fun block =>
      if (block.get "type").isStr "text" then (block.get "text").asString else none

/-- `_tool_output`. -/
def toolOutput : String :=
  let result := record.get "result"
  let whole : String :=
    match sanitizeValue env result 0 with
    | .str text => cut 2000 text
    | .null => ""
    | value => cut 2000 (env.dumps value)
  match result.asObject with
  | some fields =>
    match fields.get "content" with
    | .arr content => cut 2000 (env.sanitize (String.join (textBlocks content)))
    | .str content => cut 2000 (env.sanitize content)
    | _ => whole
  | none => whole

/-- `_message_text`. -/
def messageText (message : JsonObject) : String :=
  match message.get "content" with
  | .str text => text
  | .arr content => String.join (textBlocks content)
  | _ => ""

/-- `_tool_call_arguments`. -/
def toolCallArguments : Json → JsonObject
  | .obj fields => fields
  | .str text =>
    match env.loads text with
    | none => [("raw", .str (cut 4000 (env.sanitize text)))]
    | some (.obj fields) => fields
    | some value => [("value", sanitizeValue env value 0)]
  | _ => []

/-! ### Messages -/

/-- `_close_open_thinking`. -/
def closeOpenThinking (reason : String) (rawLine : Nat) (s : State) : State :=
  match s.thinkingReasoningId with
  | none => s
  | some id =>
    { s.emit "reasoning_summary.interrupted"
        [("reasoning_id", .str id), ("reason", .str reason)] rawLine with
      thinking := [], thinkingReasoningId := none }

def reasoningIdAt : String := s!"pi-thinking-{rawLine}"

/-- `thinking_start`. -/
def thinkingStart : State :=
  let s := closeOpenThinking "next_block_started_without_end" rawLine s
  { s with thinking := [], thinkingReasoningId := some (reasoningIdAt rawLine) }.emit
    "reasoning_summary.started" [("reasoning_id", .str (reasoningIdAt rawLine))] rawLine

/-- The payload that completes a reasoning block; a block that was never started has no id. -/
def thinkingPayload (thinking : String) (id : Option String) : JsonObject :=
  let payload : JsonObject := [("client", .str "pi")]
  let payload := match id with
    | some id => payload.set "reasoning_id" (.str id)
    | none => payload
  if thinking = "" then payload else payload.set "text" (.str thinking)

/-- `thinking_end`. -/
def thinkingEnd : Option State :=
  (joinParts s.thinking).map fun thinking =>
    { s.emit "reasoning_summary.completed" (thinkingPayload thinking s.thinkingReasoningId)
        rawLine with
      thinking := [], thinkingReasoningId := none }

/-- The text of a block that ends: what the event says, else the deltas. -/
def endText (event : JsonObject) (s : State) : Option String :=
  match asText (event.get "content") with
  | some content => some content
  | none => joinParts s.textParts

/-- A text that is not empty replaces the deltas. -/
def keepText (content : String) (s : State) : State :=
  if content = "" then s else { s with textParts := [.str content] }

/-- The message is reported unless that has happened. -/
def reportMessage (content : String) (rawLine : Nat) (s : State) : State :=
  if content ≠ "" ∧ s.messageCompletedEmitted = false then
    { s.emit "message.completed" [("message_id", .null), ("text", .str content)] rawLine with
      messageCompletedEmitted := true }
  else s

/-- A text that is not blank is the last of the assistant so far. -/
def markText (content : String) (rawLine : Nat) (s : State) : State :=
  if blank content then s else { s with assistantFinalLine := some rawLine }

/-- `text_end`. -/
def textEnd (event : JsonObject) (rawLine : Nat) (s : State) : Option State :=
  (endText event s).map fun content =>
    markText content rawLine (reportMessage content rawLine (keepText content s))

/-- `event["toolCall"]`, or an empty dict. -/
def toolCallOf (event : JsonObject) : JsonObject := dictOr (event.get "toolCall")

def contentKeyOf (event : JsonObject) : String :=
  if (event.get "contentIndex").isNull then "unknown"
  else "content:" ++ str env (event.get "contentIndex")

def givenId (event : JsonObject) : Json :=
  ((toolCallOf event).get "id").orElse (event.get "toolCallId")

def toolIdOf (event : JsonObject) : Json :=
  if (givenId event).truthy then .str (strip (str env (givenId event))) else givenId event

def idKeyOf (event : JsonObject) : Option String :=
  if (givenId event).truthy then some ("id:" ++ strip (str env (givenId event))) else none

namespace PendingCalls

def addKey (pending : PendingCalls) (key : String) (i : Nat) : PendingCalls :=
  { pending with keys := pending.keys.set key i }

def modify (pending : PendingCalls) (i : Nat) (f : PendingCall → PendingCall) : PendingCalls :=
  { pending with calls := pending.calls.modify i f }

def find (env : Env) (event : JsonObject) (pending : PendingCalls) : Option Nat :=
  (pending.keys.lookup (contentKeyOf env event)).or
    ((idKeyOf env event).bind fun key => pending.keys.lookup key)

/-- The call that an event is about; a new one is stored. -/
def entry (env : Env) (event : JsonObject) (pending : PendingCalls) : Nat × PendingCalls :=
  match pending.find env event with
  | some i => (i, pending)
  | none =>
    let contentKey := contentKeyOf env event
    let key := if (event.get "contentIndex").isNull then (idKeyOf env event).getD contentKey
      else contentKey
    let i := pending.calls.length
    (i, { keys := pending.keys.set key i
          calls := pending.calls ++ [⟨toolIdOf env event, (toolCallOf event).get "name", .str ""⟩] })

/-- The call of an event under all its keys, with the id and the name that the event gives it. -/
def register (env : Env) (event : JsonObject) (pending : PendingCalls) : Nat × PendingCalls :=
  let (i, pending) := pending.entry env event
  let pending := if (event.get "contentIndex").isNull then pending
    else pending.addKey (contentKeyOf env event) i
  let pending := match idKeyOf env event with
    | some key => pending.addKey key i
    | none => pending
  let toolId := toolIdOf env event
  let pending := if toolId.truthy then pending.modify i fun c => { c with toolId } else pending
  let name := (toolCallOf event).get "name"
  (i, if name.truthy then pending.modify i fun c => { c with name } else pending)

/-- The keys of an event without its call. -/
def release (env : Env) (event : JsonObject) (pending : PendingCalls) : PendingCalls :=
  { pending with
    keys := (pending.keys.erase (contentKeyOf env event)).erase ((idKeyOf env event).getD "") }

end PendingCalls

/-- `entry["arguments"] += delta`: a text grows, a list takes the characters, all else raises. -/
def appendArguments (arguments : Json) (delta : String) : Option Json :=
  match arguments with
  | .str text => some (.str (text ++ delta))
  | .arr items => some (.arr (items ++ delta.toList.map fun c => .str c.toString))
  | _ => none

/-- A diagnostic about a nested tool call. -/
def callDiagnostic (code : String) (event : JsonObject) (rawLine : Nat) (s : State) : State :=
  s.emit "diagnostic" [("code", .str code), ("content_index", event.get "contentIndex")] rawLine

/-- `toolcall_delta`. -/
def toolcallDelta (event : JsonObject) (i : Nat) (pending : PendingCalls) : Option PendingCalls :=
  match (event.get "delta").asString, pending.calls[i]? with
  | some delta, some call =>
    (appendArguments call.arguments delta).map fun arguments =>
      pending.modify i fun c => { c with arguments }
  | _, _ => some pending

def finalArguments (event : JsonObject) (call : PendingCall) : Json :=
  let toolCall := toolCallOf event
  if !(toolCall.get "arguments").isNull then toolCall.get "arguments"
  else if !(toolCall.get "input").isNull then toolCall.get "input"
  else call.arguments

/-- `toolcall_end`. -/
def toolcallEnd (event : JsonObject) (rawLine i : Nat) (s : State) : State :=
  let s := { s with pending := s.pending.release env event }
  match s.pending.calls[i]? with
  | none => s
  | some call =>
    let toolId := call.toolId.orElse (toolIdOf env event)
    if toolId.truthy then
      let pending := s.pending.modify i fun c =>
        { toolId
          name := ((toolCallOf event).get "name").orElse c.name
          arguments := finalArguments event call }
      { s with pending := pending.addKey ("id:" ++ str env toolId) i }
    else callDiagnostic "toolcall_missing_id" event rawLine s

/-- `_handle_nested_toolcall`. -/
def handleNestedToolcall (event : JsonObject) (rawLine : Nat) (s : State) : Option State :=
  let i := (s.pending.register env event).1
  let s := { s with pending := (s.pending.register env event).2 }
  if (event.get "type").isStr "toolcall_delta" then
    (toolcallDelta event i s.pending).map fun pending =>
      callDiagnostic "toolcall_delta" event rawLine { s with pending }
  else if (event.get "type").isStr "toolcall_start" then
    some (callDiagnostic "toolcall_started" event rawLine s)
  else some (toolcallEnd env event rawLine i s)

/-- `record["assistantMessageEvent"]`, or an empty dict. -/
def messageEvent : JsonObject := dictOr (record.get "assistantMessageEvent")

/-- `text_delta`. -/
def textDelta (event : JsonObject) (rawLine : Nat) (s : State) : State :=
  let delta := (event.get "delta").orElse (.str "")
  { s with textParts := s.textParts ++ [delta] }.emit "message.delta"
    [("content", delta), ("role", .str "assistant")] rawLine

/-- The branches of `_handle_message_update`. -/
def handleMessageEvent (event : JsonObject) (rawLine : Nat) (s : State) : Option State :=
  let etype := event.get "type"
  if etype.isStr "thinking_start" then some (thinkingStart rawLine s)
  else if etype.isStr "thinking_delta" then
    some { s with thinking := s.thinking ++ [(event.get "delta").orElse (.str "")] }
  else if etype.isStr "thinking_end" then thinkingEnd rawLine s
  else if etype.isStr "text_start" then
    some { s with textParts := [], messageCompletedEmitted := false }
  else if etype.isStr "text_delta" then some (textDelta event rawLine s)
  else if etype.isStr "text_end" then textEnd event rawLine s
  else if etype.hashable then
    if ["toolcall_start", "toolcall_delta", "toolcall_end"].any etype.isStr then
      handleNestedToolcall env event rawLine s
    else if etype.truthy then
      some (s.emit "diagnostic" [("code", .str "unknown_message_event"), ("type", etype)] rawLine)
    else some s
  else none

/-- `_handle_message_update`. -/
def handleMessageUpdate : Option State :=
  handleMessageEvent env (messageEvent record) rawLine (setUsage record rawLine s)

def isMessageError (message : JsonObject) : Bool :=
  (message.get "stopReason").isStr "error" ||
    (!(message.get "stopReason").isStr "aborted" && (asWords (message.get "errorMessage")).isSome)

def isMessageStop (message : JsonObject) : Bool :=
  (message.get "stopReason").isStr "stop" || (message.get "stopReason").isStr "end_turn"

/-- The message is reported unless its text block has been. -/
def finishMessage (message : JsonObject) (rawLine : Nat) (s : State) : State :=
  let content := messageText message
  if content ≠ "" ∧ s.messageCompletedEmitted = false then
    { s.emit "message.completed"
        [("message_id", message.get "id"), ("text", .str content)] rawLine with
      textParts := [.str content]
      messageCompletedEmitted := true
      assistantFinalLine := some rawLine }
  else s

/-- `record["message"]`, or an empty dict. -/
def endedMessage : JsonObject := dictOr (record.get "message")

/-- The branches of `_handle_message_end`. -/
def closeMessage (message : JsonObject) (rawLine : Nat) (s : State) : State :=
  let errorMessage := message.get "errorMessage"
  if isMessageError message then
    let failure := failureOf (failureMessage env errorMessage "Pi message ended with an error")
    closeOpenThinking "message_error" rawLine (s.fail failure)
  else if (message.get "stopReason").isStr "aborted" then
    let failure : Failure := ⟨"cancelled", failureMessage env errorMessage "Pi run aborted"⟩
    closeOpenThinking "message_aborted" rawLine (s.abort failure)
  else if isMessageStop message then finishMessage message rawLine s
  else s

/-- `_handle_message_end`. -/
def handleMessageEnd : State :=
  closeMessage env (endedMessage record) rawLine (setUsage (endedMessage record) rawLine s)

/-! ### Responses -/

/-- An ACK of `steer` or `follow_up`. -/
def handleCommandAck : State :=
  let success := (record.get "success").truthy
  match (record.get "__command_ack").asObject.filter fun ack => (ack.get "command_id").truthy with
  | some ack =>
    if success then
      s.emit "control.command.delivered"
        [("command_id", ack.get "command_id"), ("payload_digest", ack.get "payload_digest"),
         ("sequence_no", ack.get "sequence_no"), ("delivered_at", ack.get "_delivered_at")] rawLine
    else
      s.emit "control.command.rejected"
        [("command_id", ack.get "command_id"), ("payload_digest", ack.get "payload_digest"),
         ("sequence_no", ack.get "sequence_no"),
         ("rejection_code", if ack.has "rejection_code" then ack.get "rejection_code"
           else .str "delivery_outcome_unknown"),
         ("rejection_message", (ack.get "rejection_message").orElse
           (.str (failureMessage env (record.get "error")
             "Harness rejected the control command")))] rawLine
  | none =>
    s.emit "diagnostic"
      [("code", .str "native_ack_without_command_id"), ("command", record.get "command")] rawLine

/-- What `get_state` says about the model and the session. -/
def readState : State :=
  let data := dictOr (record.get "data")
  let model := dictOr (data.get "model")
  { s with
    modelId := (model.get "id").orElse s.modelId
    sessionId := sessionIdOf s ((data.get "sessionId").orElse (optStr s.sessionId)) }

def handleGetState : State :=
  let s := readState record s
  if s.modelResolved then
    s.emit "diagnostic" [("code", .str "session_resumed"), ("session_id", s.session)] rawLine
  else if s.sessionNegotiated then emitModelResolved s rawLine
  else
    let line := (s.pendingModelResolvedLine.filter (· ≠ 0)).getD rawLine
    { s with pendingModelResolvedLine := some line }

/-- `_handle_response`. -/
def handleResponse : Option State :=
  let command := record.get "command"
  let success := (record.get "success").truthy
  if command.isStr "new_session" && success then some { s with sessionNegotiated := true }
  else if command.isStr "get_state" && success then some (handleGetState record rawLine s)
  else if command.hashable then
    if command.isStr "steer" || command.isStr "follow_up" then
      some (handleCommandAck env record rawLine s)
    else if command.isStr "abort" then
      some (s.emit "diagnostic" [("code", .str "abort_ack"), ("success", .bool success)] rawLine)
    else if command.isStr "prompt" && !success then
      let message := failureMessage env (record.get "error") "Pi rejected the initial prompt"
      some (s.fail (failureOf message))
    else if success then some s
    else
      some (s.emit "diagnostic"
        [("code", .str "native_command_failed"), ("command", command)] rawLine)
  else none

/-- `_handle_queue_update`. -/
def handleQueueUpdate : State :=
  let queued : String → String → List Json := fun key name =>
    (((record.get key).asList.getD []).zipIdx).filterMap fun p =>
      (asText p.1).map fun text => .obj [("id", .str s!"{name}[{p.2}]"), ("text", .str text)]
  s.emit "control.queue.updated"
    [("queue", .arr (queued "steering" "steering" ++ queued "followUp" "followUp"))] rawLine

/-! ### Delegations -/

/-- `SUBAGENT_TOOL_NAME`. -/
def subagentToolName : String := "subagent"

/-- `_DELEGATION_TERMINAL_STATES`. -/
def delegationTerminalStates : OrderedDict String String :=
  [("completed", "completed"), ("complete", "completed"), ("failed", "failed"),
   ("error", "failed"), ("errored", "failed"), ("cancelled", "cancelled"),
   ("canceled", "cancelled"), ("stopped", "cancelled"), ("aborted", "cancelled")]

def State.delegation (callId : String) : JsonObject := (s.delegations.lookup callId).getD []

def State.setDelegation (callId : String) (delegation : JsonObject) : State :=
  { s with delegations := s.delegations.set callId delegation }

/-- `_subagent_details`. -/
def subagentDetails : Option JsonObject :=
  ["partialResult", "result"].findSome? fun key =>
    (record.get key).asObject.bind fun candidate =>
      (candidate.get "details").asObject.filter (!·.isEmpty)

/-- `isinstance(value, int)`, with the number; a bool is one. -/
def asIndex : Json → Option Int
  | .int n => some n
  | .bool b => some (Json.boolToInt b)
  | _ => none

def dictItems (items : List Json) : List JsonObject := items.filterMap Json.asObject

/-- `_merged_children`: each child of the inventory with its result. -/
def mergedChildren (details : JsonObject) : List (JsonObject × JsonObject) :=
  let inventory := (dictOr (details.get "workflowChildren")).get "children"
  let results := dictItems ((details.get "results").asList.getD [])
  let merged : List (JsonObject × JsonObject) :=
    match inventory with
    | .arr children =>
      if children.length = results.length then
        (children.zip results).filterMap fun p => p.1.asObject.map fun child => (child, p.2)
      else
        children.zipIdx.filterMap fun p => p.1.asObject.map fun child =>
          (child, (results.find? fun result => asIndex (result.get "index") = some (p.2 : Int)).getD [])
    | _ => []
  if merged.isEmpty then results.map fun result => ([], result) else merged

/-- The parts of a POSIX path below its root. -/
def pathParts (path : String) : List String :=
  ((path.toList.splitOnP (· == '/')).map String.ofList).filter fun part => part ≠ "" ∧ part ≠ "."

/-- The child directory that a session file names, else the name of the file. -/
def sessionFileScope (sessionFile : String) : String :=
  let parts := pathParts (strip sessionFile)
  let parent := parts.dropLast
  let name := fun (parts : List String) => parts.getLast?.getD ""
  let scope := if startsWith (name parent) "run-" then name parent.dropLast else name parent
  if scope = "" then name parts else scope

/-- The scope of a child and whether it is only the temporary index. -/
def delegationScope (child result : JsonObject) : String × Bool :=
  let inventoryKey :=
    ((child.get "childId").orElse (child.get "key")).orElse (result.get "workflowKey")
  let runId := (child.get "runId").orElse (result.get "runId")
  let named := (asWords inventoryKey).or (asWords runId)
  let named := named.or (((asWords (result.get "sessionFile")).map sessionFileScope).filter (· ≠ ""))
  match named with
  | some scope => (strip scope, false)
  | none =>
    let index := result.get "index"
    (if (asIndex index).isSome then strip (str env index) else "0", true)

/-- `_delegation_identity`: the id of the row and whether it is provisional. -/
def delegationIdentity (child result : JsonObject) : String × Bool :=
  let (scope, provisional) := delegationScope env child result
  (callId ++ ":" ++ scope, provisional)

/-- `_child_tool_rows`. -/
def childToolRows (result : JsonObject) : List JsonObject :=
  (dictItems ((result.get "toolCalls").asList.getD [])).filterMap fun entry =>
    (asWords (entry.get "text")).map fun text =>
      let row : JsonObject := [("text", .str (cut 1000 (env.sanitize (strip text))))]
      let row := match asWords (entry.get "expandedText") with
        | some expanded => row.set "expandedText" (.str (cut 4000 (env.sanitize (strip expanded))))
        | none => row
      let row := ["toolCallId", "toolName"].foldl (fun (row : JsonObject) key =>
        match asWords (entry.get key) with
        | some value => row.set key (.str (cut 120 (env.sanitize (strip value))))
        | none => row) row
      let row := match asText (entry.get "output") with
        | some output => row.set "output" (.str output)
        | none => row
      let row := match entry.get "isError" with
        | .bool isError => row.set "isError" (.bool isError)
        | _ => row
      [("startedAt", "started_at"), ("endedAt", "ended_at")].foldl (fun (row : JsonObject) p =>
        match env.nativeTimestamp (entry.get p.1) with
        | some timestamp => row.set p.2 (.str timestamp)
        | none => row) row

def childCommandId (toolId : String) (p : JsonObject × Nat) : String :=
  match asWords (p.1.get "toolCallId") with
  | some nativeId => toolId ++ ":tool:" ++ strip nativeId
  | none => toolId ++ s!":tool{p.2}"

/-- The name a tool call of a child is shown with. -/
def childToolName (row : JsonObject) : String :=
  let toolName := cut 120 (env.sanitize (displayToolName (strOr env (row.get "toolName") "bash")))
  if toolName = "" then "Bash" else toolName

/-- The payload that starts a tool call of a child. -/
def childToolStarted (toolId : String) (p : JsonObject × Nat) : JsonObject :=
  let row := p.1
  let input : JsonObject :=
    if childToolName env row = "Bash" then [("command", row.get "text")]
    else [("summary", (row.get "expandedText").orElse (row.get "text"))]
  let started : JsonObject :=
    [("tool_id", .str (childCommandId toolId p)), ("name", .str (childToolName env row)),
     ("input", .obj input)]
  match (row.get "started_at").asString with
  | some startedAt => started.set "started_at" (.str startedAt)
  | none => started

/-- The payload that completes a tool call of a child. -/
def childToolCompleted (toolId : String) (p : JsonObject × Nat) : JsonObject :=
  let row := p.1
  let completed : JsonObject :=
    [("tool_id", .str (childCommandId toolId p)), ("name", .str (childToolName env row)),
     ("error", .bool (row.get "isError").truthy)]
  let completed := match asText (row.get "output") with
    | some output => completed.set "output" (.str (cut 2000 (env.sanitize output)))
    | none => completed
  match (row.get "ended_at").asString with
  | some endedAt => completed.set "ended_at" (.str endedAt)
  | none => completed

/-- The two events of one tool call of a child. -/
def emitChildToolRow (toolId : String) (agent : JsonObject) (rawLine : Nat) (s : State)
    (p : JsonObject × Nat) : State :=
  (s.emitFor agent "tool.started" (childToolStarted env toolId p) rawLine).emitFor agent
    "tool.completed" (childToolCompleted env toolId p) rawLine

/-- The payload that ends a row left open, from the dict of the row; a `subagent` that is no
    dict raises. -/
def settlePayload (toolId : String) (flags : JsonObject) : Option JsonObject :=
  let state := lower (strOr env (flags.get "state") "")
  let status := (delegationTerminalStates.lookup state).getD "cancelled"
  let subagent := (flags.get "subagent").orElse (.obj [])
  subagent.asObject.map fun subagent =>
    let payload : JsonObject :=
      [("tool_id", .str toolId), ("name", .str "Subagent"), ("error", .bool (status == "failed")),
       ("subagent", .obj (subagent.set "status" (.str status)))]
    match asText (flags.get "output") with
    | some output => payload.set "output" (.str output)
    | none => payload

/-- The entries of the dict of a call that the sweep takes for open rows. -/
def isOpenRow (entry : Json) : Bool :=
  match entry with
  | .obj flags => (JsonObject.get flags "started").truthy && !(JsonObject.get flags "completed").truthy
  | _ => false

/-- One entry in the sweep over the dict of a call. -/
def settleEntry (p : String × Json) : Option State :=
  if isOpenRow p.2 then
    let flags := dictOr p.2
    (settlePayload env p.1 flags).map fun payload =>
      (s.setDelegation callId ((s.delegation callId).set p.1
        (.obj (flags.set "completed" (.bool true))))).emit "tool.completed" payload rawLine
  else some s

/-- `_settle_open_delegations` for one call. -/
def settleDelegation (callId : String) : Option State :=
  (s.delegation callId).foldlM (settleEntry env callId rawLine) s

/-- `_settle_open_delegations` for all calls. -/
def settleOpenDelegations : Option State :=
  s.delegations.keys.foldlM (settleDelegation env rawLine) s

/-- The payload that ends the row of a call without children. -/
def childlessCompletion : JsonObject :=
  let completed : JsonObject :=
    [("tool_id", .str callId), ("name", .str "Subagent"),
     ("error", .bool (record.get "isError").truthy)]
  if toolOutput env record = "" then completed
  else completed.set "output" (.str (toolOutput env record))

/-- `_settle_childless_call`. -/
def settleChildlessCall : State :=
  let delegation := s.delegation callId
  if !(record.get "type").isStr "tool_execution_end" then s
  else if (delegation.get "rows").truthy || (delegation.get "childless").truthy then s
  else
    let input := (delegation.get "input").asObject.getD (toolInput env record)
    let s := s.setDelegation callId (delegation.set "childless" (.bool true))
    (s.emit "tool.started"
      [("tool_id", .str callId), ("name", .str "Subagent"), ("input", .obj input)] rawLine).emit
      "tool.completed" (childlessCompletion env record callId) rawLine

/-- What one snapshot says about one child. -/
structure Snapshot where
  toolId : String
  provisional : Bool
  /-- `native_role`. -/
  nativeRole : Json
  role : String
  /-- The child's state in lower case. -/
  state : String
  status : Option String
  result : JsonObject

/-- The status of a child without an inventory, from the end of its call. -/
def callStatus (record result : JsonObject) : String :=
  let outputState := lower (strOr env (result.get "outputState") "")
  match (result.get "exitCode").asInt with
  | some exitCode => if exitCode = 0 then "completed" else "failed"
  | none =>
    if outputState ≠ "" then (if outputState = "absent" then "failed" else "completed")
    else if (record.get "isError").truthy then "failed" else "completed"

/-- A pair of `_merged_children`, read. -/
def readSnapshot (hasInventory isFinal : Bool) (entry : JsonObject × JsonObject) : Snapshot :=
  let (child, result) := entry
  let (toolId, provisional) := delegationIdentity env callId child result
  let nativeRole := (child.get "agent").orElse (result.get "agent")
  let state := lower (strOr env (child.get "state") "")
  let status := delegationTerminalStates.lookup state
  { toolId, provisional, nativeRole, state, result
    role := ((asWords nativeRole).map strip).getD "agent"
    status :=
      if status.isNone && !hasInventory && isFinal then some (callStatus env record result)
      else status }

/-- The reference to the child on its rows. -/
def Snapshot.agent (snap : Snapshot) : JsonObject :=
  [("id", .str snap.toolId), ("parent_id", .str "root"), ("role", .str snap.role)]

def Snapshot.task (snap : Snapshot) : Option String :=
  match asWords (snap.result.get "task") with
  | some task => some task
  | none => asWords ((dictOr (snap.result.get "progressSummary")).get "sessionName")

/-- The dict of a row that is not there yet. -/
def freshRow : JsonObject :=
  [("started", .bool false), ("completed", .bool false), ("task", .null)]

def State.row (callId toolId : String) : JsonObject :=
  ((s.delegation callId).get toolId).asObject.getD freshRow

def State.setRow (callId toolId : String) (flags : JsonObject) : State :=
  s.setDelegation callId ((s.delegation callId).set toolId (.obj flags))

/-- What the plugin last reported for the child. -/
def rememberChild (snap : Snapshot) (s : State) : State :=
  let flags := s.row callId snap.toolId
  let flags := if snap.state = "" then flags else flags.set "state" (.str snap.state)
  let flags := match asText (snap.result.get "finalOutput") with
    | some output => flags.set "output" (.str output)
    | none => flags
  s.setRow callId snap.toolId flags

/-- The payload that opens the row of a child. -/
def startedPayload (snap : Snapshot) : JsonObject :=
  let input : JsonObject := [("role", .str snap.role)]
  let input := match snap.task with
    | some task => input.set "task" (.str (env.cleanMessage (env.sanitize task)))
    | none => input
  [("tool_id", .str snap.toolId), ("name", .str "Subagent"), ("input", .obj input),
   ("subagent", .obj snap.agent)]

def markStarted (snap : Snapshot) (s : State) : State :=
  s.setRow callId snap.toolId
    (((s.row callId snap.toolId).set "started" (.bool true)).set "subagent" (.obj snap.agent))

def countRow : State :=
  let rows := ((s.delegation callId).get "rows").asInt.getD 0
  s.setDelegation callId ((s.delegation callId).set "rows" (.int (rows + 1)))

def openChild (snap : Snapshot) (rawLine : Nat) (s : State) : State :=
  countRow callId
    (markStarted callId snap (s.emit "tool.started" (startedPayload env snap) rawLine))

def markCompleted (snap : Snapshot) (s : State) : State :=
  s.setRow callId snap.toolId ((s.row callId snap.toolId).set "completed" (.bool true))

/-- The payload that ends the row of a child. -/
def completedPayload (snap : Snapshot) (status : String) : JsonObject :=
  let usage := childUsageOf snap.result
  let subagent := snap.agent.set "status" (.str status)
  let subagent := if usage.isEmpty then subagent
    else subagent.set "usage" (.obj (usage.map fun p => (p.1, .int p.2)))
  let completed : JsonObject :=
    [("tool_id", .str snap.toolId), ("name", .str "Subagent"),
     ("error", .bool (status == "failed")), ("subagent", .obj subagent)]
  match asText (snap.result.get "finalOutput") with
  | some text => completed.set "output" (.str text)
  | none => completed

def reportAnswer (snap : Snapshot) (rawLine : Nat) (s : State) : State :=
  match asWords (snap.result.get "finalOutput") with
  | some text =>
    s.emitFor snap.agent "message.completed"
      [("message_id", .str snap.toolId), ("text", .str (env.cleanMessage (env.sanitize text)))]
      rawLine
  | none => s

/-- The row of a child ends with the facts of this snapshot. -/
def completeChild (snap : Snapshot) (status : String) (rawLine : Nat) (s : State) : State :=
  let s := recordChildUsage snap.toolId (childUsageOf snap.result) (markCompleted callId snap s)
  let s := (childToolRows env snap.result).zipIdx.foldl
    (emitChildToolRow env snap.toolId snap.agent rawLine) s
  (reportAnswer env snap rawLine s).emit "tool.completed" (completedPayload snap status) rawLine

/-- A row can be opened: the snapshot names the child, or it is the last one. -/
def Snapshot.named (snap : Snapshot) (isFinal : Bool) : Bool :=
  isFinal || (snap.nativeRole.truthy && !snap.provisional)

/-- A row can be ended: the snapshot carries the answer, or it is the last one. -/
def Snapshot.complete (snap : Snapshot) (isFinal : Bool) : Bool :=
  isFinal || (!snap.nativeRole.isNull && (asWords (snap.result.get "finalOutput")).isSome)

/-- The row of the child is open or has been. -/
def State.rowStarted (callId toolId : String) : Bool := ((s.row callId toolId).get "started").truthy

def State.rowCompleted (callId toolId : String) : Bool :=
  ((s.row callId toolId).get "completed").truthy

/-- The row of a child opens unless it has been opened before. -/
def openUnlessStarted (snap : Snapshot) (rawLine : Nat) (s : State) : State :=
  if s.rowStarted callId snap.toolId then s else openChild env callId snap rawLine s

/-- The row of a child ends if the snapshot says so. -/
def completeIfDone (isFinal : Bool) (snap : Snapshot) (rawLine : Nat) (s : State) : State :=
  match snap.status with
  | none => s
  | some status =>
    if s.rowCompleted callId snap.toolId || !snap.complete isFinal then s
    else completeChild env callId snap status rawLine s

def projectChild (isFinal : Bool) (rawLine : Nat) (s : State) (snap : Snapshot) : State :=
  let s := rememberChild callId snap s
  if !s.rowStarted callId snap.toolId && !snap.named isFinal then s
  else completeIfDone env callId isFinal snap rawLine (openUnlessStarted env callId snap rawLine s)

/-- The call's input is captured from the first record that carries arguments. -/
def captureInput : State :=
  let s := s.setDelegation callId (s.delegation callId)
  if (record.get "args").asObject.isSome && !(s.delegation callId).has "input" then
    s.setDelegation callId ((s.delegation callId).set "input" (.obj (toolInput env record)))
  else s

def snapshotsOf (details : JsonObject) : List Snapshot :=
  let isFinal := (record.get "type").isStr "tool_execution_end"
  let hasInventory := ((dictOr (details.get "workflowChildren")).get "children").truthy
  (mergedChildren details).map (readSnapshot env record callId hasInventory isFinal)

/-- What a record says about the children of its call. -/
def callSnapshots : List Snapshot :=
  match subagentDetails record with
  | none => []
  | some details => snapshotsOf env record callId details

/-- The record is the last one of its call. -/
def isFinalRecord : Bool := (record.get "type").isStr "tool_execution_end"

/-- `_handle_subagent_tool`. -/
def handleSubagentTool : Option State :=
  let s := (callSnapshots env record callId).foldl
    (projectChild env callId (isFinalRecord record) rawLine) (captureInput env record callId s)
  let settled := if isFinalRecord record then settleDelegation env rawLine s callId else some s
  settled.map (settleChildlessCall env record callId rawLine)

/-! ### Tools -/

/-- `_take_pending_tool_call`: the call, and what is left without any key that names it. -/
def takePendingToolCall (pending : PendingCalls) : Option PendingCall × PendingCalls :=
  match pending.keys.lookup ("id:" ++ callId) with
  | none => (none, pending)
  | some i => (pending.calls[i]?, { pending with keys := pending.keys.filter fun p => p.2 ≠ i })

/-- The start record with what the model-side call says and the record does not. -/
def fillFromPending (pending : PendingCall) : JsonObject :=
  let record :=
    if !(record.get "toolName").truthy && pending.name.truthy then
      record.set "toolName" pending.name
    else record
  if (record.get "args").isNull then
    record.set "args" (.obj (toolCallArguments env pending.arguments))
  else record

def State.lifecycle (callId : String) : Lifecycle := (s.toolStarts.lookup callId).getD {}

def State.setLifecycle (callId : String) (l : Lifecycle) : State :=
  { s with toolStarts := s.toolStarts.set callId l }

def recordToolName : String := displayToolName (strOr env (record.get "toolName") "unknown")

/-- The payload of the completion of a generic tool. -/
def toolCompletion (l : Lifecycle) : JsonObject :=
  let name := (record.get "toolName").orElse (optStr l.name)
  let result := record.get "result"
  let completion : JsonObject :=
    [("tool_id", .str callId), ("name", .str (displayToolName (strOr env name "unknown"))),
     ("output", .str (toolOutput env record)), ("error", .bool (record.get "isError").truthy)]
  let errorMessage :=
    if (record.get "errorMessage").isNull && result.asObject.isSome then
      ((dictOr result).get "error").orElse ((dictOr result).get "message")
    else record.get "errorMessage"
  let completion := match asWords errorMessage with
    | some message =>
      completion.set "error_message" (.str (cut 2000 (env.cleanMessage (env.sanitize message))))
    | none => completion
  let exitCode :=
    if (record.get "exitCode").isNull && result.asObject.isSome then
      ((dictOr result).get "exitCode").orElse ((dictOr result).get "exit_code")
    else record.get "exitCode"
  match exitCode.asInt with
  | some code => completion.set "exit_code" (.int code)
  | none => completion

/-- `tool_execution_start` of a generic tool. -/
def startTool : State :=
  let l := s.lifecycle callId
  if l.started then s
  else
    (s.emit "tool.started"
      [("tool_id", .str callId), ("name", .str (recordToolName env record)),
       ("input", redactHiddenReasoning (.obj (toolInput env record)))] rawLine).setLifecycle callId
      { l with started := true, name := some (recordToolName env record) }

def reportMissingStart : State :=
  if (s.lifecycle callId).started then s
  else s.emit "diagnostic" [("code", .str "tool_start_missing"), ("tool_id", .str callId),
    ("name", .str (recordToolName env record))] rawLine

/-- `tool_execution_end` of a generic tool. -/
def endTool : State :=
  let l := s.lifecycle callId
  if l.completed then s
  else
    ((reportMissingStart env record callId rawLine s).emit "tool.completed"
      (toolCompletion env record callId l) rawLine).setLifecycle callId { l with completed := true }

/-- The part of `_handle_tool` for a tool that is no delegation. -/
def handleGenericTool : State :=
  let s := s.setLifecycle callId (s.lifecycle callId)
  if (record.get "type").isStr "tool_execution_start" then startTool env record callId rawLine s
  else if (record.get "type").isStr "tool_execution_end" then endTool env record callId rawLine s
  else s

/-- The id of the call a tool record is about. -/
def toolCallIdOf : String := strip (strOr env (record.get "toolCallId") "")

/-- The tool of a record is the delegation tool. -/
def isSubagentTool : Bool :=
  lower (strip (strOr env (record.get "toolName") "")) == subagentToolName

/-- The model-side call that a start record consumes, and what is left. -/
def consumePending (pending : PendingCalls) : Option PendingCall × PendingCalls :=
  if (record.get "type").isStr "tool_execution_start" then takePendingToolCall callId pending
  else (none, pending)

/-- A record of a tool with what its model-side call adds. -/
def filledRecord : JsonObject :=
  match (consumePending record (toolCallIdOf env record) s.pending).1 with
  | some pending => fillFromPending env record pending
  | none => record

/-- `_handle_tool`. -/
def handleTool : Option State :=
  let callId := toolCallIdOf env record
  if callId = "" then
    some (s.emit "diagnostic"
      [("code", .str "tool_missing_id"), ("name", .str (recordToolName env record))] rawLine)
  else
    let filled := filledRecord env record s
    let s := { s with pending := (consumePending record callId s.pending).2 }
    if isSubagentTool env filled then handleSubagentTool env filled callId rawLine s
    else some (handleGenericTool env filled callId rawLine s)

/-! ### Retries, Compaction and the End of a Turn -/

/-- `_handle_retry_start`. -/
def handleRetryStart (source : Option String) (s : State) : State :=
  let message := ((record.get "errorMessage").orElse (record.get "finalError")).orElse
    (record.get "error")
  let payload : JsonObject :=
    [("attempt", record.get "attempt"), ("max_attempts", record.get "maxAttempts"),
     ("failure_kind", .str (failureKind (failureMessage env message "Pi provider retry"))),
     ("retry_delay_ms", record.get "delayMs")]
  let payload := match source with
    | some source => payload.set "source" (.str source)
    | none => payload
  { s with terminalFailure := none }.emit "provider.retry" payload rawLine

/-- `_handle_retry_end`. -/
def handleRetryEnd : State :=
  let success := (record.get "success").truthy
  let payload : JsonObject :=
    [("code", .str "provider_retry_finished"), ("attempt", record.get "attempt"),
     ("success", .bool success)]
  if success then s.emit "diagnostic" payload rawLine
  else
    let failure := failureOf (failureMessage env (record.get "finalError") "Pi provider retry failed")
    (s.fail failure).emit "diagnostic" (payload.set "failure_kind" (.str failure.kind)) rawLine

/-- The payload of `context.compacted`. -/
def compactionPayload : JsonObject :=
  let payload : JsonObject :=
    [("session_id", s.session), ("reason", record.get "reason"),
     ("aborted", .bool (record.get "aborted").truthy),
     ("will_retry", .bool (record.get "willRetry").truthy)]
  [("tokensBefore", "tokens_before"),
    ("estimatedTokensAfter", "estimated_tokens_after")].foldl (fun (payload : JsonObject) p =>
      match ((dictOr (record.get "result")).get p.1).asInt with
      | some n => payload.set p.2 (.int n)
      | none => payload) payload

/-- `_handle_compaction`. -/
def handleCompaction : State :=
  if (record.get "type").isStr "compaction_start" then
    s.emit "diagnostic" [("code", .str "compaction_started"), ("reason", record.get "reason")] rawLine
  else
    let s := setUsage (dictOr (record.get "result")) rawLine s
    let s := s.emit "context.compacted" (compactionPayload record s) rawLine
    let errorMessage := record.get "errorMessage"
    if errorMessage.truthy && !(record.get "aborted").truthy && !(record.get "willRetry").truthy then
      s.fail (failureOf (failureMessage env errorMessage "Pi compaction failed"))
    else s

/-- What an `agent_end` record reports as an error. -/
def agentEndError : Json := (record.get "errorMessage").orElse (record.get "terminationReason")

/-- An `agent_end` without a retry and without an error. -/
def isSuccessfulAgentEnd : Bool :=
  !(record.get "willRetry").truthy && !(agentEndError record).truthy

/-- `_handle_agent_end`. -/
def handleAgentEnd : State :=
  if s.terminal.isSome then s
  else if s.aborted then s
  else if isSuccessfulAgentEnd record then { s with agentEndSuccessLine := some rawLine }
  else if (agentEndError record).truthy then
    s.fail (failureOf (failureMessage env (agentEndError record) "Pi agent ended with an error"))
  else s

/-- `_handle_agent_settled`. -/
def handleAgentSettled : State :=
  { s.emit "agent_settled" [("aborted", .bool s.aborted), ("settled_line", .int rawLine)] rawLine with
    agentSettledLine := some rawLine }

/-! ### The Dispatch -/

/-- The record that the owner has marked as the start of a drained follow-up's turn. -/
def emitReopen : State :=
  match (record.get "__pi_reopen_after").asObject with
  | some reopen =>
    s.emit "diagnostic"
      [("code", .str "pi_follow_up_turn_started"), ("command_id", reopen.get "command_id"),
       ("native_id", reopen.get "native_id")] rawLine
  | none => s

/-- A diagnostic with nothing but fields of the record. -/
def handleExtensionError : State :=
  s.emit "diagnostic"
    [("code", .str "extension_error"), ("event", record.get "event"),
     ("message", .str (cut 2000 (env.cleanMessage (env.sanitize
       (strOr env (record.get "error") "Pi extension error")))))] rawLine

/-- `bash_execution_update`. -/
def handleBashUpdate : State :=
  let payload : JsonObject :=
    [("code", .str "bash_execution_update"), ("request_id", record.get "id")]
  let payload := match (record.get "delta").asString with
    | some delta => payload.set "output" (.str (cut 2000 (env.sanitize delta)))
    | none => payload
  s.emit "diagnostic" payload rawLine

def responseCommand : Json :=
  if (record.get "type").isStr "response" then record.get "command" else .null

/-- A pending model is reported once the record shows that no session is negotiated. -/
def beginSession : State :=
  if (responseCommand record).isStr "new_session" && (record.get "success").truthy then
    { s with sessionNegotiated := true }
  else if (responseCommand record).isStr "get_state" then s
  else flushPendingModelResolved s

/-- What comes before the branch on the type. -/
def beginRecord : State :=
  emitReopen record rawLine (beginSession record { s with lastRawLine := rawLine })

/-- The types whose records have no handler of their own. -/
def handleOther : State :=
  let type := record.get "type"
  if type.isStr "compaction_start" || type.isStr "compaction_end" then
    handleCompaction env record rawLine s
  else if type.isStr "auto_retry_start" then handleRetryStart env record rawLine none s
  else if type.isStr "auto_retry_end" then handleRetryEnd env record rawLine s
  else if type.isStr "summarization_retry_scheduled" then
    handleRetryStart env record rawLine (some "summarization") s
  else if type.isStr "summarization_retry_attempt_start" then
    s.emit "diagnostic" [("code", .str "summarization_retry_started"),
      ("source", record.get "source"), ("reason", record.get "reason")] rawLine
  else if type.isStr "summarization_retry_finished" then
    s.emit "diagnostic" [("code", .str "summarization_retry_finished")] rawLine
  else if type.isStr "extension_error" then handleExtensionError env record rawLine s
  else if type.isStr "bash_execution_update" then handleBashUpdate env record rawLine s
  else s.emit "diagnostic" [("code", .str "unknown_raw_event"), ("type", type)] rawLine

/-- The types that only mark the course of a turn. -/
def silentTypes : List String := ["agent_start", "message_start", "turn_end"]

def toolTypes : List String :=
  ["tool_execution_start", "tool_execution_update", "tool_execution_end"]

/-- `translate`. -/
def translate : Option State :=
  let s := beginRecord record rawLine s
  let type := record.get "type"
  if type.isStr "response" then handleResponse env record rawLine s
  else if silentTypes.any type.isStr then some s
  else if type.isStr "turn_start" then some { s with messageCompletedEmitted := false }
  else if type.isStr "message_update" then handleMessageUpdate env record rawLine s
  else if type.isStr "message_end" then some (handleMessageEnd env record rawLine s)
  else if type.isStr "queue_update" then some (handleQueueUpdate record rawLine s)
  else if toolTypes.any type.isStr then handleTool env record rawLine s
  else if type.isStr "agent_end" then some (handleAgentEnd env record rawLine s)
  else if type.isStr "agent_settled" then some (handleAgentSettled rawLine s)
  else if type.hashable then some (handleOther env record rawLine s)
  else none

/-! ### The End of the Input -/

/-- `_write_result`. -/
def writeResult (success : Bool) (result : String) (failure : Option Failure) (s : State) : State :=
  let usage := attemptUsage s.childUsage s.usage
  let status :=
    if success then "completed"
    else if failure.any (·.kind == "protocol_error") then "protocol_error" else "failed"
  let failureValue : Json := match failure with
    | some f =>
      let message :=
        if f.message ≠ "" then f.message
        else if result ≠ "" then result else "Pi execution failed"
      Failure.toJson { f with message }
    | none => .null
  let file : JsonObject :=
    [("status", .str status), ("success", .bool success), ("result", .str result),
     ("session_id", s.session), ("model", s.modelId), ("usage", .obj usage),
     ("failure", failureValue)]
  let s := { s with result := some file }
  if usage.isEmpty then s else s.emit "usage.final" [("usage", .obj usage)] s.terminalLine

/-- The generic tools that have no completion. -/
def activeTools : List String := (s.toolStarts.filter fun p => !p.2.completed).map (·.1)

/-- The three lines are there and in order. -/
def State.ordered : Bool :=
  match s.assistantFinalLine, s.agentEndSuccessLine, s.agentSettledLine with
  | some a, some e, some t => a < e && e < t
  | _, _, _ => false

/-- The message of a stream that lacks its lifecycle. -/
def incompleteMessage : String :=
  let missing :=
    (if s.assistantFinalLine.isNone then ["final_assistant_text"] else []) ++
    (if s.agentEndSuccessLine.isNone then ["successful_agent_end"] else []) ++
    (if s.agentSettledLine.isNone then ["agent_settled"] else [])
  let detail := if missing.isEmpty then "out_of_order_turn_terminal" else ",".intercalate missing
  s!"Pi protocol ended without complete terminal lifecycle: {detail}"

def failTerminal (line : Nat) (failure : Failure) (s : State) : Option State :=
  (joinParts s.textParts).map fun text =>
    writeResult false text (some failure)
      { s with terminal := some .failed, terminalLine := line, terminalFailure := some failure }

/-- The terminal is decided and the result written. -/
def decideTerminal : Option State :=
  let lastLine := ((s.agentSettledLine.filter (· ≠ 0)).getD s.lastRawLine)
  match s.terminalFailure with
  | some failure => failTerminal lastLine failure s
  | none =>
    if activeTools s ≠ [] then
      let ids := ",".intercalate (activeTools s)
      failTerminal lastLine
        ⟨"protocol_error", s!"Pi protocol ended with active tool executions: {ids}"⟩ s
    else if s.ordered then
      (joinParts s.textParts).map fun text =>
        writeResult true (strip text) none
          { s with terminal := some .completed, terminalLine := s.agentSettledLine.getD 0 }
    else failTerminal s.lastRawLine ⟨"protocol_error", incompleteMessage s⟩ s

/-- The terminal event, after what is still open has been closed. -/
def emitTerminal : Option State := do
  let s ← settleOpenDelegations env s.terminalLine s
  if s.terminal = some .completed then
    let s := closeOpenThinking "stream_ended_without_block_end" s.terminalLine s
    let text ← joinParts s.textParts
    some (s.emit "harness.completed"
      [("result", .str (strip text)), ("session_id", s.session)] s.terminalLine)
  else
    let s := closeOpenThinking "harness_failed" s.terminalLine s
    let failure := s.terminalFailure.getD ⟨"engine_error", "Pi turn failed"⟩
    some (s.emit "harness.failed" [("failure", failure.toJson)] s.terminalLine)

/-- `_emit_terminal_at_eof`. -/
def emitTerminalAtEof : Option State := (decideTerminal s).bind (emitTerminal env)

/-! ### The Main Loop -/

/-- A line of the input that is not blank, as `main` reads it. -/
structure Line where
  /-- `_capture_real_session_id`: the id the line itself reports. -/
  sessionId : Option String := none
  /-- The sanitized text. -/
  text : String := ""
  /-- The sanitized text parsed, strictly or leniently, if it parses, with the hidden reasoning
      redacted. -/
  record : Option Json
  /-- An escape of the text stands for a lone surrogate, which no file can be written with. -/
  surrogates : Bool := false

/-- The session id and the number of a line are noted before it is read. -/
def beginLine (line : Line) (s : State) : State :=
  { s with realSessionId := line.sessionId.or s.realSessionId, lineNo := s.lineNo + 1 }

/-- A line that holds no dict; `null` is reported like a line that does not parse. -/
def reportLine (line : Line) (s : State) : State :=
  let notJson : String → State := fun text =>
    s.emit "diagnostic" [("code", .str "non_json_raw_line"), ("text", .str (cut 500 text))] s.lineNo
  match line.record with
  | none => notJson line.text
  | some .null => notJson "null"
  | some _ => s.emit "diagnostic" [("code", .str "non_object_raw_event")] s.lineNo

def Line.dict (line : Line) : Option JsonObject := line.record.bind Json.asObject

/-- One line in the loop of `main`, which writes it to the archive first. -/
def stepLine (line : Line) : Option State :=
  let s := beginLine line s
  if line.surrogates then none
  else
    match line.dict with
    | some record => translate env record s.lineNo s
    | none => some (reportLine line s)

/-- The loop of `main`. -/
def translateLines (lines : List Line) : Option State := lines.foldlM (stepLine env) s

/-- `main`: what the process leaves when its input ends. -/
def main (lines : List Line) : Option State :=
  (translateLines env {} lines).bind (emitTerminalAtEof env)

/-! ### Concrete Runs -/

/-- An environment whose sanitizer changes nothing. -/
def plainEnv : Env where
  py :=
    { fromIsoFormat := fun _ => some true
      str := fun value =>
        match value with
        | .int n => toString n
        | _ => ""
      repr := fun _ => "" }
  sanitize := id
  cleanMessage := id
  dumps := fun _ => ""
  loads := fun _ => none
  nativeTimestamp := fun _ => none

def lineOf : Line := { record := some (.obj record) }

/-- A `message_update` line. -/
def updateLine (event : JsonObject) : Line :=
  lineOf [("type", .str "message_update"), ("assistantMessageEvent", .obj event)]

end Codify.Harness.PiEvents
