import Codify.Harness.OpenCodeAdmission

/-! # The OpenCode Bridge Drains the Event Stream

    `_run_attempt` of adapters/opencode_bridge.py from the subscription on. The
    bridge reads the server's stream up to `server.connected`, sends the prompt,
    and forwards what belongs to the task until the translator is done. What
    happens around it (whether the translator still reads, how a command request
    ends, what the server answers) depends on what the bridge has forwarded.

    A foreign record does nothing: it is not forwarded and, unless it declares a
    session of the task, it registers nothing. The two loops on the stream without
    the foreign records therefore go through the same states.
-/

namespace Codify.Harness.OpenCodeBridge

open Codify.Framework Codify.Harness

/-! ### Surroundings and State -/

/-- What the bridge meets in one attempt. The answers that can change in the course of it
    depend on the records forwarded so far. -/
structure Surroundings where
  py : Python
  /-- `_legacy_summarize_requested()`. -/
  summarizeRequested : Bool
  /-- The summarize request is answered with 200, 202 or 204. -/
  summarizeAcknowledged : Bool
  /-- The prompt is accepted, or a command is under way. -/
  promptAccepted : Bool
  /-- The record could be written, and the translator still runs. -/
  listening : List JsonObject → Bool
  /-- `report_command_failure()` in the loop. -/
  commandFailure : List JsonObject → Bool
  /-- `report_command_failure()` once the command thread is joined. -/
  commandFailureAtEnd : List JsonObject → Bool
  /-- The translator still runs after the loop. -/
  running : List JsonObject → Bool
  /-- The translator's exit status, by what it was sent and whether the state was recovered. -/
  exitStatus : List JsonObject → Bool → Int

/-- The variables of `_run_attempt`. -/
structure State where
  /-- The keys of `_SessionAdmission._parents`, the root first. -/
  parents : List String
  activeToolIds : List String
  legacySummarizeAttempted : Bool
  sawTerminalSignal : Bool
  forwarded : List JsonObject
  /-- The ids `_persist_descendant_session` wrote. -/
  persisted : List String

def State.init (root : String) : State :=
  { parents := [root]
    activeToolIds := []
    legacySummarizeAttempted := false
    sawTerminalSignal := false
    forwarded := []
    persisted := [] }

/-- `admission.register(record)`. -/
def State.register (s : State) (record : JsonObject) : State :=
  { s with
    parents := OpenCodeBridge.register s.parents record
    persisted := s.persisted ++ (newSession s.parents record).toList }

variable (py : Python) (env : Surroundings) (s : State) (record : JsonObject)

/-- `_forward(record, proc)`. -/
def State.forward : State := { s with forwarded := s.forwarded ++ [record] }

/-- How the bridge stops reading. -/
inductive Stop where
  | exhausted
  | unsubscribed
  | promptRefused
  | closed
  | commandFailed
  | raised
  deriving DecidableEq

/-- The bridge leaves the loop before the stream ends. -/
def Stop.early : Stop → Bool
  | .promptRefused | .closed | .commandFailed => true
  | _ => false

/-! ### Tools -/

/-- `value is not None and str(value).strip()`, stripped. -/
def toolText : Json → Option String
  | .null => none
  | .str text => if strip text = "" then none else some (strip text)
  | value => if strip (py.str value) = "" then none else some (strip (py.str value))

/-- `_opencode_tool_id`. -/
def opencodeToolId (properties part : JsonObject) : Option String :=
  (["callID", "callId", "toolCallID", "toolCallId", "id"].map part.get ++
    ["callID", "callId", "toolCallID", "toolCallId", "partID", "partId"].map
      properties.get).findSome? (toolText py)

/-- `record["properties"]["part"]`, `{}` where there is none. -/
def partOf : JsonObject :=
  let properties := (record.get "properties").asObject.getD []
  (properties.get "part").asObject.getD []

/-- `part["state"]["status"]`. -/
def toolStatus : Json := JsonObject.get (((partOf record).get "state").asObject.getD []) "status"

/-- `_update_active_tool_ids`; `none` is a `TypeError`. -/
def updateActiveToolIds (active : List String) : Option (List String) :=
  if (record.get "type").isStr "message.part.updated" ∧ ((partOf record).get "type").isStr "tool" then
    match opencodeToolId py ((record.get "properties").asObject.getD []) (partOf record) with
    | none => some active
    | some toolId =>
      if ¬ (toolStatus record).hashable then none
      else if ["pending", "running"].any (toolStatus record).isStr then some (active.insert toolId)
      else if ["completed", "error", "failed"].any (toolStatus record).isStr then
        some (active.filter (· ≠ toolId))
      else some active
  else some active

/-! ### The Two Loops -/

/-- How the first loop ends; `rest` is what the stream still holds. -/
inductive Subscription where
  | connected (rest : List JsonObject)
  | missing
  | raised

/-- The loop that waits for `server.connected`. -/
def subscribe (s : State) : List JsonObject → State × Subscription
  | [] => (s, .missing)
  | record :: rest =>
    if ¬ (record.get "type").hashable then (s, .raised)
    else
      let s := s.register record
      if admits s.parents record then
        let s := s.forward record
        if (record.get "type").isStr "server.connected" then (s, .connected rest)
        else subscribe s rest
      else subscribe s rest

def probes : Bool :=
  (record.get "type").isStr "session.idle" && s.activeToolIds.isEmpty &&
    !s.legacySummarizeAttempted && env.summarizeRequested

def isTerminal : Bool :=
  ((record.get "type").isStr "session.idle" || (record.get "type").isStr "session.error") &&
    recordSessionId record == s.parents.head?

/-- An admitted record from the terminal check on. -/
def deliver : State × Option Stop :=
  let s := { s with sawTerminalSignal := s.sawTerminalSignal || isTerminal s record }
  let s := s.forward record
  if ¬ env.listening s.forwarded then (s, some .closed)
  else if env.commandFailure s.forwarded then (s, some .commandFailed)
  else (s, none)

def drainOwn : State × Option Stop :=
  match updateActiveToolIds env.py record s.activeToolIds with
  | none => (s, some .raised)
  | some active =>
    let s := { s with activeToolIds := active }
    if probes env s record then
      let s := { s with legacySummarizeAttempted := true }
      if env.summarizeAcknowledged then (s, none) else deliver env s record
    else deliver env s record

def drainRecord : State × Option Stop :=
  if ¬ (record.get "type").hashable then (s, some .raised)
  else
    let s := s.register record
    if admits s.parents record then drainOwn env s record else (s, none)

/-- The drain loop, with what it leaves unread. -/
def drain (env : Surroundings) (s : State) : List JsonObject → State × Stop × List JsonObject
  | [] => (s, .exhausted, [])
  | record :: rest =>
    match drainRecord env s record with
    | (s', some stop) => (s', stop, rest)
    | (s', none) => drain env s' rest

/-! ### The Attempt -/

/-- How the stream ends. -/
inductive Ending where
  | ended
  | disconnected
  deriving DecidableEq

/-- What an attempt leaves behind. -/
structure Outcome where
  /-- The records of the stream that were forwarded. -/
  forwarded : List JsonObject
  persisted : List String
  /-- A summarize request was made. -/
  summarized : Bool
  /-- `_recover_status` was called. -/
  recovered : Bool
  /-- The return code; a `TypeError` ends the process with 1. -/
  code : Int
  stop : Stop

def failed (stop : Stop) : Outcome :=
  { forwarded := s.forwarded
    persisted := s.persisted
    summarized := s.legacySummarizeAttempted
    recovered := false
    code := 1
    stop := stop }

/-- `_run_attempt` behind the drain loop. -/
def finish (ending : Ending) (s : State) (stop : Stop) : Outcome :=
  if stop = .raised ∨ stop = .commandFailed ∨ env.commandFailureAtEnd s.forwarded then
    failed s stop
  else
    let recovered := decide (stop = .exhausted) && env.running s.forwarded &&
      (decide (ending = .disconnected) || !s.sawTerminalSignal)
    { forwarded := s.forwarded
      persisted := s.persisted
      summarized := s.legacySummarizeAttempted
      recovered := recovered
      code := env.exitStatus s.forwarded recovered
      stop := stop }

/-- `_run_attempt` from the subscription on, with the records it leaves unread. -/
def runAttempt (root : String) (ending : Ending) (stream : List JsonObject) : Outcome × List
    JsonObject :=
  match subscribe (State.init root) stream with
  | (s, .missing) => (failed s .unsubscribed, [])
  | (s, .raised) => (failed s .raised, [])
  | (s, .connected rest) =>
    if env.promptAccepted then
      let (s', stop, unread) := drain env s rest
      (finish env ending s' stop, unread)
    else (failed s .promptRefused, rest)

end Codify.Harness.OpenCodeBridge
