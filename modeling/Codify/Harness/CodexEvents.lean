import Codify.Framework.Tally
import Codify.Harness.PiEvents

/-! # Codex Event Translator

    `codex_events` (deploy/worker-entrypoint/harness/adapters/codex_events.py)
    reads the App Server's messages line by line and emits canonical events. The
    root thread and the child threads share one stream: an item names its thread
    in `params.threadId`, and the module's global `_CURRENT_AGENT` remembers the
    thread of the last item.

    Each line is read twice: raw, for the ids of the root thread, and sanitized,
    for everything else. A handler that raises ends the process; it is `none`
    here.
-/

namespace Codify.Harness.CodexEvents

open Codify.Framework Codify.Harness
open Codify.Harness.PiEvents (Event Failure Terminal cut contains asText dictOr optStr attributed)

/-! ### Environment and State -/

/-- What the translator uses of `sanitize`, of the environment and of the Python library. -/
structure Env where
  py : Python
  sanitize : String → String
  /-- `clean_message`. -/
  cleanMessage : String → String
  /-- `json.loads`; `none` for a `JSONDecodeError`. -/
  loads : String → Option Json
  /-- `OPENAI_MODEL`. -/
  openaiModel : Option String

/-- `str(value)`. -/
def str (env : Env) (value : Json) : String := value.asString.getD (env.py.str value)

variable (env : Env)

/-- `str(value or fallback)`. -/
def strOr (value : Json) (fallback : String) : String :=
  if value.truthy then str env value else fallback

/-- `_STATE` and `_CURRENT_AGENT`, with the line counter of `main` and what has been written so
    far. A child agent is its thread id: its role and its parent are always the same. -/
structure State where
  threadId : String := ""
  sessionId : String := ""
  retryCount : Nat := 0
  modelResolved : Bool := false
  lastAssistantText : Json := .str ""
  messageText : OrderedDict String String := []
  reasoningSummaryText : OrderedDict String String := []
  usage : Json := .obj []
  childUsage : OrderedDict String (OrderedDict String Int) := []
  openReasoning : List String := []
  closedReasoning : List String := []
  terminalType : Option Terminal := none
  terminalLine : Nat := 0
  terminalFailure : Option Failure := none
  agents : List String := []
  delegationToolByChild : OrderedDict String String := []
  closedDelegations : List String := []
  pendingSpawnPrompt : OrderedDict String Json := []
  pendingSpawnStartLine : OrderedDict String Nat := []
  /-- `_CURRENT_AGENT`. -/
  currentAgent : Option String := none
  lineNo : Nat := 0
  events : List Event := []
  /-- The result file. -/
  result : Option JsonObject := none

/-! ### Agents -/

def agentOf (threadId : String) : JsonObject :=
  [("id", .str threadId), ("parent_id", .str "root"), ("role", .str "agent")]

/-- The payload of an event under the current agent. -/
def payloadFor (currentAgent : Option String) (type : String) (payload : JsonObject) :
    JsonObject :=
  match currentAgent with
  | some agent => attributed (agentOf agent) type payload
  | none => payload

variable (record : JsonObject) (message : String) (item : JsonObject) (rawLine : Nat) (s : State)

/-- `_emit`. -/
def State.emit (type : String) (payload : JsonObject) (rawLine : Nat) : State :=
  { s with events := s.events ++ [⟨type, payloadFor s.currentAgent type payload, rawLine⟩] }

/-- The thread of a value, if it is a child's. -/
def State.childThread (threadId : Json) : Option String := (asText threadId).filter (· ≠ s.threadId)

/-- `_register_child_thread`. -/
def State.registerChildThread (threadId : String) : State :=
  if threadId ∈ s.agents then s else { s with agents := s.agents ++ [threadId] }

/-- The current agent becomes a thread, which is registered if it is a child. -/
def State.enterThread (threadId : Json) : State :=
  match s.childThread threadId with
  | some child => { s.registerChildThread child with currentAgent := some child }
  | none => { s with currentAgent := none }

/-- `_set_current_agent`. -/
def setCurrentAgent : State := s.enterThread (record.get "thread_id")

/-! ### Identity -/

/-- `_configured_model`. -/
def configuredModel : Option String := (env.openaiModel.map strip).filter (· ≠ "")

def State.setIdentity (threadId : String) (sessionId : Json) : State :=
  { s with threadId, sessionId := (asText sessionId).getD threadId }

/-- `isinstance(value, str) and value and "<" not in value`, with the text. -/
def unmasked (value : Json) : Option String := (asText value).filter fun text => !contains text "<"

def captureThread (thread : JsonObject) : State :=
  match unmasked (thread.get "id") with
  | some threadId => s.setIdentity threadId (thread.get "sessionId")
  | none => s

/-- `_capture_real_thread_id`, on the parsed raw line; a value that is no dict raises. -/
def captureRealThreadId (raw : Option Json) (s : State) : Option State :=
  match raw with
  | none => some s
  | some (.obj fields) =>
    let record : JsonObject := fields
    let s := match unmasked (record.get "thread_id") with
      | some threadId => { s with threadId, sessionId := threadId }
      | none => s
    some ([dictOr ((dictOr (record.get "params")).get "thread"),
      dictOr ((dictOr (record.get "result")).get "thread")].foldl captureThread s)
  | some _ => none

/-- `_thread_id`. -/
def threadIdOf (record : JsonObject) : Option String :=
  if s.threadId ≠ "" then some s.threadId
  else (asText (record.get "thread_id")).or (asText ((dictOr (record.get "params")).get "threadId"))

/-- `_session_id`. -/
def sessionIdOf : Option String :=
  if s.sessionId ≠ "" then some s.sessionId
  else if s.threadId ≠ "" then some s.threadId
  else none

/-- `_set_thread_identity`. -/
def setThreadIdentity (thread : JsonObject) (s : State) : State :=
  match asText (thread.get "id") with
  | some threadId => s.setIdentity threadId (thread.get "sessionId")
  | none => s

/-- `_emit_model_resolved`. -/
def emitModelResolved : State :=
  if s.modelResolved then s
  else
    { s with modelResolved := true }.emit "model.resolved"
      [("model", optStr (configuredModel env)), ("session_id", optStr (sessionIdOf s))] rawLine

/-! ### Reasoning -/

/-- `_reasoning_id`. -/
def reasoningIdOf (itemId : String) : String :=
  let owner := (s.currentAgent.filter (· ≠ "")).getD (if s.threadId ≠ "" then s.threadId else "thread")
  s!"codex-reason-{owner}-{itemId}"

def summaryPart (part : Json) : String :=
  match part with
  | .obj fields =>
    if (JsonObject.get fields "type").isStr "summary_text" then
      ((JsonObject.get fields "text").asString).getD ""
    else ""
  | _ => ""

/-- `_reasoning_summary_text`. -/
def reasoningSummaryTextOf : String :=
  String.join (((item.get "summary").asList.getD []).map summaryPart)

def interruptBlock (reason : String) (rawLine : Nat) (s : State) (reasoningId : String) : State :=
  s.emit "reasoning_summary.interrupted"
    [("reasoning_id", .str reasoningId), ("reason", .str reason)] rawLine

/-- `_close_open_reasoning`. -/
def closeOpenReasoning (reason : String) (rawLine : Nat) (s : State) : State :=
  { s.openReasoning.foldl (interruptBlock reason rawLine) s with openReasoning := [] }

/-! ### Usage -/

/-- `_failure_kind`. -/
def failureKind : String :=
  let lowered := lower message
  if ["cancelled", "canceled", "interrupt", "sigterm"].any (contains lowered) then "cancelled"
  else if ["401", "unauthorized", "authentication"].any (contains lowered) then
    "authentication_error"
  else if ["429", "rate limit", "too many requests"].any (contains lowered) then "rate_limited"
  else if ["sandbox", "permission denied"].any (contains lowered) then "sandbox_error"
  else "engine_error"

/-- `source[key]` for the first of two keys that is there. -/
def firstOf (source : JsonObject) (key other : String) : Json :=
  if source.has key then source.get key else source.get other

/-- `known_keys`. -/
def knownUsageKeys : List String :=
  ["input_tokens", "cached_input_tokens", "output_tokens", "reasoning_output_tokens", "cost",
    "currency", "inputTokens", "cachedInputTokens", "outputTokens", "reasoningOutputTokens",
    "totalTokens", "cacheWriteInputTokens"]

def usageFields (source : JsonObject) : JsonObject :=
  [("input_tokens", firstOf source "input_tokens" "inputTokens"),
   ("cached_input_tokens", firstOf source "cached_input_tokens" "cachedInputTokens"),
   ("output_tokens", firstOf source "output_tokens" "outputTokens"),
   ("reasoning_tokens", firstOf source "reasoning_output_tokens" "reasoningOutputTokens"),
   ("cost", source.get "cost"), ("currency", source.get "currency"),
   ("engine_fields", .obj (source.filter fun p => p.1 ∉ knownUsageKeys))]

/-- `token_usage.get("last") or token_usage.get("total") or {}`. -/
def lastUsage (tokenUsage : JsonObject) : Json :=
  ((tokenUsage.get "last").orElse (tokenUsage.get "total")).orElse (.obj [])

/-- The source that `_usage` reads: the record's usage, else its parameters', else the state's. -/
def usageSource : Json :=
  let params := dictOr (record.get "params")
  let token : Json := match (params.get "tokenUsage").asObject with
    | some tokenUsage => lastUsage tokenUsage
    | none => .obj []
  (((Json.obj (dictOr (record.get "usage"))).orElse token).orElse
    (.obj (dictOr (params.get "usage")))).orElse (s.usage.orElse (.obj []))

/-- `_usage`; a source that is no dict raises. -/
def usageOf : Option JsonObject := (usageSource record s).asObject.map usageFields

def counters (usage : JsonObject) : OrderedDict String Int :=
  usage.filterMap fun p => (PiEvents.asCount p.2).map fun n => (p.1, n)

/-- `_record_child_usage`. -/
def recordChildUsage (threadId : String) (usage : JsonObject) (s : State) : State :=
  let totals := (s.childUsage.lookup threadId).getD []
  { s with childUsage :=
      s.childUsage.set threadId ((counters usage).foldl Tally.raise totals) }

/-- `_attempt_usage`. -/
def attemptUsage (s : State) (rootUsage : JsonObject) : JsonObject :=
  PiEvents.attemptUsage s.childUsage rootUsage

/-- `_write_result`. -/
def writeResult (success : Bool) (result : Json) (usage : JsonObject) (failureMessage : String)
    (s : State) : State :=
  let message :=
    if failureMessage ≠ "" then failureMessage else strOr env result "Codex execution failed"
  let failure : Json :=
    if success then .null
    else .obj [("kind", .str (failureKind message)), ("message", .str message)]
  let file : JsonObject :=
    [("status", .str (if success then "completed" else "failed")), ("success", .bool success),
     ("result", result), ("session_id", optStr (sessionIdOf s)),
     ("model", optStr (configuredModel env)), ("usage", .obj (attemptUsage s usage)),
     ("failure", failure), ("capability_warnings", .arr [])]
  { s with result := some file }

/-- The turn has failed, and the result says so. -/
def failTurn : Option State :=
  let s := { s with
    terminalType := some .failed
    terminalLine := rawLine
    terminalFailure := some ⟨failureKind message, message⟩ }
  (usageOf record s).map fun usage => writeResult env false (.str message) usage message s

/-! ### Delegations -/

/-- `_TERMINAL_CHILD_STATUSES`. -/
def terminalChildStatus (native : String) : Option String :=
  [("completed", "completed"), ("failed", "failed"), ("errored", "failed"), ("error", "failed"),
    ("cancelled", "cancelled"), ("canceled", "cancelled")].lookup native

/-- The payload that settles a delegation. -/
def settledPayload (toolId childId status : String) (message : Json) : JsonObject :=
  let completed : JsonObject :=
    [("tool_id", .str toolId), ("name", .str "Subagent"), ("error", .bool (status == "failed")),
     ("subagent", .obj ((agentOf childId).set "status" (.str status)))]
  match asText message with
  | some output => completed.set "output" (.str (env.cleanMessage output))
  | none => completed

/-- `_delegation_detail`: the tool of a delegation whose child is known. -/
def delegationTool (childId : String) : Option String :=
  ((s.delegationToolByChild.lookup childId).filter (· ≠ "")).filter fun _ =>
    decide (childId ∈ s.agents)

/-- `_close_delegation`. -/
def closeDelegation (status : String) (message : Json) (rawLine : Nat) (s : State)
    (childId : String) : State :=
  match delegationTool s childId with
  | none => s
  | some toolId =>
    if childId ∈ s.closedDelegations then s
    else
      { s with closedDelegations := childId :: s.closedDelegations }.emit "tool.completed"
        (settledPayload env toolId childId status message) rawLine

def settledStatus (childState : JsonObject) : Option String :=
  terminalChildStatus (lower (strOr env (childState.get "status") ""))

/-- One entry of `agentsStates`. -/
def applyChildState (p : String × Json) : State :=
  match p.2.asObject with
  | none => s
  | some childState =>
    match settledStatus env childState with
    | none => s
    | some status => closeDelegation env status (childState.get "message") rawLine s p.1

/-- `_apply_child_states`. -/
def applyChildStates (states : Json) (rawLine : Nat) (s : State) : State :=
  (dictOr states).foldl (applyChildState env rawLine) s

/-- `for item in value or []`; a value that cannot be iterated over raises. -/
def iterate (value : Json) : Option (List Json) :=
  if !value.truthy then some []
  else
    match value with
    | .arr items => some items
    | .str text => some (text.toList.map fun c => .str (String.singleton c))
    | .obj fields => some (fields.map fun p => .str p.1)
    | _ => none

def startedPayload (toolId childId : String) (prompt : Json) : JsonObject :=
  [("tool_id", .str toolId), ("name", .str "Subagent"),
   ("input", .obj [("role", .str "agent"), ("task", .str (env.cleanMessage (str env prompt)))]),
   ("subagent", .obj (agentOf childId))]

def spawnReceiver (toolId : String) (startLine : Nat) (s : State) (receiver : Json) : State :=
  match s.childThread receiver with
  | none => s
  | some childId =>
    let s := s.registerChildThread childId
    if s.delegationToolByChild.lookup childId = some toolId then s
    else
      { s with delegationToolByChild := s.delegationToolByChild.set childId toolId }.emit
        "tool.started"
        (startedPayload env toolId childId ((s.pendingSpawnPrompt.lookup toolId).getD (.str "")))
        startLine

/-- The branch on `spawn_agent`. -/
def handleSpawn (toolId : String) (rawLine : Nat) (s : State) : Option State :=
  let s := match asText (item.get "prompt") with
    | some prompt =>
      { s with pendingSpawnPrompt := s.pendingSpawnPrompt.set toolId (.str prompt) }
    | none => s
  let startLine := (s.pendingSpawnStartLine.lookup toolId).getD rawLine
  let receivers := item.get "receiver_thread_ids"
  (iterate receivers).map fun items =>
    let s := items.foldl (spawnReceiver env toolId startLine) s
    if receivers.truthy then
      { s with pendingSpawnStartLine := s.pendingSpawnStartLine.erase toolId }
    else s

/-- `_handle_collab_item`. -/
def handleCollabItem : Option State :=
  let tool := strOr env (item.get "tool") ""
  match s.currentAgent with
  | some agent =>
    some (s.emit "diagnostic"
      [("code", .str "subagent_depth_unsupported"), ("parent_id", .str agent),
       ("tool", .str tool)] rawLine)
  | none =>
    match asText (item.get "id") with
    | none =>
      some (s.emit "diagnostic"
        [("code", .str "collab_item_missing_id"), ("tool", .str tool)] rawLine)
    | some toolId =>
      (if tool = "spawn_agent" then handleSpawn env item toolId rawLine s else some s).map
        (applyChildStates env (item.get "agents_states") rawLine)

/-! ### Items -/

def startReasoning : State :=
  let reasoningId := reasoningIdOf s (strOr env (item.get "id") "")
  if reasoningId ∈ s.openReasoning ∨ reasoningId ∈ s.closedReasoning then s
  else
    { s with openReasoning := s.openReasoning ++ [reasoningId] }.emit "reasoning_summary.started"
      [("reasoning_id", .str reasoningId)] rawLine

def startCollabItem : Option State :=
  match asText (item.get "id") with
  | none => some s
  | some itemId =>
    let prompt := item.get "prompt"
    let s := { s with
      pendingSpawnStartLine := s.pendingSpawnStartLine.set itemId rawLine
      pendingSpawnPrompt :=
        if prompt.truthy then s.pendingSpawnPrompt.set itemId prompt else s.pendingSpawnPrompt }
    if (item.get "receiver_thread_ids").truthy then handleCollabItem env item rawLine s
    else some s

/-- `item.started`. -/
def startItem : Option State :=
  let type := item.get "type"
  if type.isStr "reasoning" then some (startReasoning env item rawLine s)
  else if type.isStr "command_execution" then
    some (s.emit "tool.started"
      [("tool_id", item.get "id"), ("name", .str "shell"),
       ("input", .obj [("command", (item.get "command").orElse (.str ""))])] rawLine)
  else if type.isStr "collab_agent_tool_call" then startCollabItem env item rawLine s
  else some s

def completedPayload (reasoningId summary : String) : JsonObject :=
  let payload : JsonObject := [("reasoning_id", .str reasoningId), ("client", .str "codex")]
  if summary ≠ "" then payload.set "text" (.str summary) else payload

def completeReasoning : State :=
  let itemId := strOr env (item.get "id") ""
  let reasoningId := reasoningIdOf s itemId
  if reasoningId ∈ s.openReasoning then
    let streamed := (s.reasoningSummaryText.lookup itemId).getD ""
    let own := reasoningSummaryTextOf item
    let s := { s with reasoningSummaryText := s.reasoningSummaryText.erase itemId }.emit
      "reasoning_summary.completed"
      (completedPayload reasoningId (if own ≠ "" then own else streamed)) rawLine
    { s with
      openReasoning := s.openReasoning.filter (· ≠ reasoningId)
      closedReasoning := reasoningId :: s.closedReasoning }
  else if reasoningId ∈ s.closedReasoning then s
  else
    { s with reasoningSummaryText := s.reasoningSummaryText.erase itemId }.emit "diagnostic"
      [("code", .str "reasoning_completed_without_start"), ("item_id", item.get "id")] rawLine

/-- `exit_code not in (None, 0)`. -/
def failedExit (exitCode : Json) : Bool := !(exitCode.isNull || exitCode.pyEq (.int 0))

/-- The text of a message: its own or what was streamed; an id that is a list or a dict raises. -/
def messageTextOf : Option Json :=
  let text := item.get "text"
  if text.truthy then some text
  else
    match item.get "id" with
    | .str itemId => some (.str ((s.messageText.lookup itemId).getD ""))
    | id => if id.hashable then some (.str "") else none

/-- A message ends; only the root's becomes the task result. -/
def completeMessage : Option State :=
  (messageTextOf item s).map fun text =>
    let s := if s.currentAgent.isNone then { s with lastAssistantText := text } else s
    s.emit "message.completed" [("message_id", item.get "id"), ("text", text)] rawLine

def completeError : State :=
  let message := env.cleanMessage (strOr env (item.get "message") "")
  if contains (lower message) "compaction" then
    s.emit "context.compacted" [("evidence", .str "cli_compaction_advisory")] rawLine
  else
    s.emit "diagnostic" [("code", .str "capability_warning"), ("message", .str message)] rawLine

/-- `item.completed`. -/
def completeItem : Option State :=
  let type := item.get "type"
  if type.isStr "reasoning" then some (completeReasoning env item rawLine s)
  else if type.isStr "command_execution" then
    some (s.emit "tool.completed"
      [("tool_id", item.get "id"), ("output", (item.get "aggregated_output").orElse (.str "")),
       ("error", .bool (failedExit (item.get "exit_code"))), ("exit_code", item.get "exit_code")]
      rawLine)
  else if type.isStr "agent_message" then completeMessage item rawLine s
  else if type.isStr "collab_agent_tool_call" then handleCollabItem env item rawLine s
  else if type.isStr "error" then some (completeError env item rawLine s)
  else some s

/-! ### Records -/

/-- `turn.completed`. -/
def completeTurn : Option State :=
  let s := closeOpenReasoning "turn_completed_without_block_end" rawLine s
  let s := s.delegationToolByChild.keys.foldl (closeDelegation env "cancelled" .null rawLine) s
  (usageOf record s).map fun usage =>
    let s := s.emit "usage.final" [("usage", .obj usage)] rawLine
    let s := { s with terminalType := some .completed, terminalLine := rawLine }
    writeResult env true s.lastAssistantText usage "" s

/-- `thread.started`. -/
def startThread : State :=
  let s := match asText (record.get "thread_id") with
    | some threadId => if s.threadId = "" then { s with threadId, sessionId := threadId } else s
    | none => s
  if s.modelResolved then
    s.emit "diagnostic"
      [("code", .str "session_resumed"), ("session_id", optStr (threadIdOf s record))] rawLine
  else emitModelResolved env rawLine s

def emitRetry : State :=
  { s with retryCount := s.retryCount + 1 }.emit "provider.retry"
    [("attempt", .int (s.retryCount + 1)), ("failure_kind", .str (failureKind message))] rawLine

/-- `turn.failed`. -/
def failedTurn : Option State :=
  let s := closeOpenReasoning "turn_failed" rawLine s
  let message :=
    env.cleanMessage (strOr env ((dictOr (record.get "error")).get "message") "Codex turn failed")
  failTurn env record message rawLine s

/-- The part of `translate` behind the App Server messages. -/
def translateRecord : Option State :=
  let s := setCurrentAgent record s
  let type := record.get "type"
  let item := dictOr (record.get "item")
  if type.isStr "thread.started" then some (startThread env record rawLine s)
  else if type.isStr "turn.started" then some s
  else if type.isStr "error" then
    some (emitRetry (strOr env (record.get "message") "") rawLine s)
  else if type.isStr "turn.failed" then failedTurn env record rawLine s
  else if type.isStr "item.started" then startItem env item rawLine s
  else if type.isStr "item.completed" then completeItem env item rawLine s
  else if type.isStr "turn.completed" then completeTurn env record rawLine s
  else
    some (s.emit "diagnostic" [("code", .str "unknown_raw_event"), ("type", type)] rawLine)

/-! ### App Server Messages -/

def itemType (type : Json) : Option Json :=
  match type with
  | .str "agentMessage" => some (.str "agent_message")
  | .str "commandExecution" => some (.str "command_execution")
  | .str "collabAgentToolCall" => some (.str "collab_agent_tool_call")
  | type => if type.hashable then some type else none

/-- `_COLLAB_TOOL_ALIASES`. -/
def collabToolAliases : List (String × String) :=
  [("spawnAgent", "spawn_agent"), ("closeAgent", "close_agent"), ("resumeAgent", "resume_agent"),
    ("sendMessage", "send_message")]

/-- A snake-case name for a camel-case field. -/
def renameField (p : String × String) : JsonObject :=
  if item.has p.1 && !item.has p.2 then item.set p.2 (item.get p.1) else item

/-- The snake-case name of a collaboration tool. -/
def renameTool : JsonObject :=
  if (item.get "type").isStr "collab_agent_tool_call" then
    match collabToolAliases.lookup (strOr env (item.get "tool") "") with
    | some tool => item.set "tool" (.str tool)
    | none => item.set "tool" (item.get "tool")
  else item

/-- `_app_server_item`; a type that is a list or a dict raises. -/
def appServerItem : Option JsonObject :=
  (itemType (item.get "type")).map fun type =>
    let item := [("receiverThreadIds", "receiver_thread_ids"),
      ("senderThreadId", "sender_thread_id"), ("agentsStates", "agents_states")].foldl renameField
        (item.set "type" type)
    [("aggregatedOutput", "aggregated_output"), ("exitCode", "exit_code")].foldl renameField
      (renameTool env item)

def itemRecord (type : String) (item : JsonObject) (params : JsonObject) : JsonObject :=
  [("type", .str type), ("item", .obj item), ("thread_id", params.get "threadId")]

/-- `item/started` and `item/completed`. -/
def handleItem (type : String) (params : JsonObject) (rawLine : Nat) (s : State) : Option State :=
  (appServerItem env (dictOr (params.get "item"))).bind fun item =>
    translateRecord env (itemRecord type item params) rawLine s

/-- A delta is added to the text of its item. -/
def addDelta (texts : OrderedDict String String) (params : JsonObject) :
    OrderedDict String String :=
  match (params.get "itemId").asString, (params.get "delta").asString with
  | some itemId, some delta => texts.set itemId ((texts.lookup itemId).getD "" ++ delta)
  | _, _ => texts

/-- The child that a token usage belongs to, with what it reports. -/
def childReport (params tokenUsage : JsonObject) : Option (String × JsonObject) :=
  match asText (params.get "threadId"),
      ((tokenUsage.get "total").orElse (tokenUsage.get "last")).asObject with
  | some threadId, some source => if source.isEmpty then none else some (threadId, source)
  | _, _ => none

/-- `thread/tokenUsage/updated`. -/
def handleTokenUsage (params : JsonObject) (s : State) : State :=
  match (params.get "tokenUsage").asObject with
  | none => s
  | some tokenUsage =>
    if (params.get "threadId").isStr s.threadId then { s with usage := lastUsage tokenUsage }
    else
      match childReport params tokenUsage with
      | some (threadId, source) => recordChildUsage threadId (usageFields source) s
      | none => s

def turnFailure (turn : JsonObject) : String :=
  let error := dictOr (turn.get "error")
  strOr env (error.get "message") ("Codex turn " ++ strOr env (turn.get "status") "failed")

def turnFailedRecord (turn : JsonObject) (s : State) : JsonObject :=
  [("type", .str "turn.failed"),
   ("error", .obj [("message", .str (env.cleanMessage (turnFailure env turn)))]),
   ("usage", s.usage.orElse (.obj []))]

def turnCompletedRecord : JsonObject :=
  [("type", .str "turn.completed"), ("usage", s.usage.orElse (.obj []))]

/-- `turn/completed`; a child's turn does not settle the harness. -/
def handleTurnCompleted (params : JsonObject) (rawLine : Nat) (s : State) : Option State :=
  if !(params.get "threadId").isStr s.threadId then some s
  else
    let turn := dictOr (params.get "turn")
    if (turn.get "status").isStr "completed" then
      translateRecord env (turnCompletedRecord s) rawLine s
    else translateRecord env (turnFailedRecord env turn s) rawLine s

/-- `error`. -/
def handleErrorNotification (params : JsonObject) (rawLine : Nat) (s : State) : State :=
  let message := env.cleanMessage (strOr env (params.get "message") "Codex App Server error")
  if (params.get "willRetry").truthy then emitRetry message rawLine s
  else
    s.emit "diagnostic" [("code", .str "app_server_error"), ("message", .str message)] rawLine

/-- `thread/compacted`, with the agent of its own thread. -/
def handleCompacted (params : JsonObject) (rawLine : Nat) (s : State) : State :=
  { (s.enterThread (params.get "threadId")).emit "context.compacted"
      [("evidence", .str "codex_app_server")] rawLine with currentAgent := s.currentAgent }

/-- The branches of `_translate_app_server` on a notification. -/
def handleNotification (method : String) (params : JsonObject) (rawLine : Nat) (s : State) : Option
    State :=
  if method = "thread/started" then
    some (emitModelResolved env rawLine (setThreadIdentity (dictOr (params.get "thread")) s))
  else if method = "item/started" then handleItem env "item.started" params rawLine s
  else if method = "item/completed" then handleItem env "item.completed" params rawLine s
  else if method = "item/agentMessage/delta" then
    some { s with messageText := addDelta s.messageText params }
  else if method = "item/reasoning/summaryTextDelta" then
    some { s with reasoningSummaryText := addDelta s.reasoningSummaryText params }
  else if method = "thread/tokenUsage/updated" then some (handleTokenUsage params s)
  else if method = "turn/completed" then handleTurnCompleted env params rawLine s
  else if method = "error" then some (handleErrorNotification env params rawLine s)
  else if method = "thread/compacted" then some (handleCompacted params rawLine s)
  else some s

def requestError : String :=
  env.cleanMessage
    (strOr env ((dictOr (record.get "error")).get "message") "Codex App Server request failed")

/-- The branch of `_translate_app_server` on a response with an error. -/
def failRequest : Option State :=
  failTurn env record (requestError env record) rawLine
    (closeOpenReasoning "request_failed" rawLine s)

/-- `_translate_app_server`; `none` inside means that the record is not taken. -/
def translateAppServer : Option (State × Bool) :=
  match record.get "method" with
  | .str method =>
    (handleNotification env method (dictOr (record.get "params")) rawLine s).map (·, true)
  | _ =>
    let result := dictOr (record.get "result")
    let thread := dictOr (result.get "thread")
    let s := setThreadIdentity thread s
    if record.has "error" && record.has "id" then (failRequest env record rawLine s).map (·, true)
    else
      some (s, !thread.isEmpty || !(dictOr (result.get "turn")).isEmpty || record.has "result")

/-- `translate`. -/
def translate : Option State :=
  if record.has "method" || (record.has "error" && record.has "id") then
    (translateAppServer env record rawLine s).bind fun (s, taken) =>
      if taken then some s else translateRecord env record rawLine s
  else translateRecord env record rawLine s

/-! ### The Main Loop -/

/-- A line of the input that is not blank, as `main` reads it. -/
structure Line where
  /-- The line itself parsed, if it parses. -/
  raw : Option Json
  /-- The sanitized text. -/
  text : String
  /-- The sanitized text parsed, if it parses. -/
  record : Option Json

def lineOf (rawInput : String) : Line :=
  ⟨env.loads rawInput, env.sanitize rawInput, env.loads (env.sanitize rawInput)⟩

def Line.dict (line : Line) : Option JsonObject := line.record.bind Json.asObject

/-- A line that holds no dict; `null` is reported like a line that does not parse. -/
def reportLine (line : Line) (s : State) : State :=
  let notJson : String → State := fun text =>
    s.emit "diagnostic" [("code", .str "non_json_raw_line"), ("text", .str (cut 500 text))] s.lineNo
  match line.record with
  | none => notJson line.text
  | some .null => notJson "null"
  | some _ => s.emit "diagnostic" [("code", .str "non_object_raw_event")] s.lineNo

def readLine (line : Line) (s : State) : Option State :=
  let s := { s with lineNo := s.lineNo + 1 }
  match line.dict with
  | some record => translate env record s.lineNo s
  | none => some (reportLine line s)

/-- One line in the loop of `main`. -/
def stepLine (line : Line) : Option State :=
  (captureRealThreadId line.raw s).bind fun s =>
    if line.text = "" then some s else readLine env line s

/-- The loop of `main`. -/
def translateLines (lines : List Line) : Option State := lines.foldlM (stepLine env) s

/-- `_emit_terminal_at_eof`. -/
def emitTerminalAtEof : State :=
  match s.terminalType with
  | some .completed =>
    s.emit "harness.completed"
      [("result", s.lastAssistantText), ("session_id", optStr (sessionIdOf s))] s.terminalLine
  | some .failed =>
    let failure := s.terminalFailure.getD ⟨"engine_error", "Codex turn failed"⟩
    s.emit "harness.failed"
      [("failure", .obj [("kind", .str failure.kind), ("message", .str failure.message)])]
      s.terminalLine
  | none => s

/-- `main`: what the process leaves when its input ends. -/
def main (lines : List Line) : Option State := (translateLines env {} lines).map emitTerminalAtEof

end Codify.Harness.CodexEvents
