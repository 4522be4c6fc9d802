import Codify.Framework.System
import Codify.Harness.Replay

/-! # The Worker's Event Writer

    `emit` of deploy/worker-entrypoint/harness/events.py appends one record to
    `event.jsonl`. The writer keeps no state between calls: every call derives
    the order from the file, with a full scan for the lifecycle types and from
    the first and the last record for all others.

    The file is `none` while it does not exist, else its records in order.
    What a call reads besides the file comes with the call: the timeout marker,
    the clock, the generated UUID and, for `run.started`, the launcher's warning
    file. The environment (`WriterEnv`) is constant.
-/

namespace Codify.Harness.WorkerEvents

open Codify.Framework Codify.Harness List Lifecycle Json Identity

/-! ### Constants -/

/-- `V2_CONTRACT`. -/
def v2Contract : String := "codify.worker.harness/v2"

/-- `KNOWN_TYPES`. -/
def knownTypes : List String :=
  ["run.started", "model.resolved", "message.delta", "message.completed",
   "reasoning_summary.delta", "reasoning_summary.completed",
   "reasoning_summary.interrupted", "reasoning_summary.started", "tool.started",
   "tool.completed", "context.compacted", "provider.retry", "usage.updated",
   "usage.final", "harness.completed", "harness.failed", "delivery.started",
   "delivery.completed", "delivery.failed", "worker.finalization", "run.completed",
   "run.failed", "control.command.delivered", "control.command.rejected",
   "control.queue.updated", "agent_settled", "diagnostic"]

/-- `event_type in _LIFECYCLE_SCAN_TYPES or event_type.startswith("delivery.")`. -/
def needsHistory (eventType : String) : Bool :=
  isHarnessTerminal eventType || isTaskTerminal eventType ||
    eventType == "worker.finalization" || isDelivery eventType

/-- The warning codes the writer forwards. -/
def forwardedWarningCodes : List String :=
  ["worker_kit_runtime_drift_warning", "optional_harness_unavailable",
   "optional_runtime_tool_missing"]

/-- What `emit` can raise. -/
inductive EmitError where
  | runtimeError (message : String)
  /-- `.get` on a usage block that is no dict. -/
  | attributeError
  /-- `int(...)` of `TASK_ID`. -/
  | valueError
  /-- A list or dict tested for membership in a set. -/
  | typeError
  deriving DecidableEq, Repr

/-- `raise RuntimeError(message)` unless the condition holds. -/
def ensure (condition : Bool) (message : String) : Except EmitError Unit :=
  if condition then .ok () else .error (.runtimeError message)

/-- `raise RuntimeError(message)` when the guard holds and the condition does not. -/
def ensureIf (guarded condition : Bool) (message : String) : Except EmitError Unit :=
  ensure (!guarded || condition) message

/-! ### Reading the File -/

/-- `_read_first_event`. -/
def readFirstEvent (records : List JsonObject) : Option JsonObject := records.head?

/-- `_read_last_event`. -/
def readLastEvent (records : List JsonObject) : Option JsonObject := records.getLast?

/-- `record.get("type")` of a record the writer wrote. -/
def recordType (record : JsonObject) : Option String := (record.get "type").asString

/-- What `emit` derives from the file. -/
structure History where
  firstEvent : Option JsonObject := none
  lastEvent : Option JsonObject := none
  harnessTerminalSeen : Bool := false

/-- `_scan_event_stream`. -/
def scanEventStream (records : List JsonObject) : History :=
  records.foldl (fun h record =>
    { firstEvent := h.firstEvent.or (some record)
      lastEvent := some record
      harnessTerminalSeen := h.harnessTerminalSeen || (recordType record).any isHarnessTerminal })
    {}

/-- The history a call looks at; without a full scan no harness terminal is seen. -/
def readHistory (file : Option (List JsonObject)) (eventType : String) : History :=
  match file with
  | none => {}
  | some records =>
    if needsHistory eventType then scanEventStream records
    else
      { firstEvent := readFirstEvent records
        lastEvent := readLastEvent records }

/-- `_event_seq`. -/
def eventSeq (event : JsonObject) : Except EmitError Int :=
  match (event.get "seq").asInt with
  | some seq =>
    if seq < 1 then .error (.runtimeError "canonical event stream has invalid final seq")
    else .ok seq
  | none => .error (.runtimeError "canonical event stream has invalid final seq")

/-- The sequence number of the last record, 0 without one. -/
def History.lastSeq (h : History) : Except EmitError Int :=
  match h.lastEvent with
  | none => .ok 0
  | some event => eventSeq event

def History.lastType (h : History) : Option String := h.lastEvent.bind recordType

/-- The ordering checks of `emit`. -/
def checkOrder (h : History) (lastSeq : Int) (eventType : String) : Except EmitError Unit := do
  let lastType := h.lastType
  let finalized := lastType == some "worker.finalization"
  ensure (!lastType.any isTaskTerminal) "cannot append an event after the Task terminal"
  ensureIf (lastSeq == 0) (eventType == "run.started")
    s!"run.started must be the first canonical event; got {eventType}"
  ensureIf (eventType == "run.started") (!decide (0 < lastSeq))
    "run.started appears more than once"
  ensureIf (isHarnessTerminal eventType) (!h.harnessTerminalSeen)
    "harness terminal appears more than once"
  ensureIf (isDelivery eventType) h.harnessTerminalSeen
    "delivery event appears before harness terminal"
  ensureIf (eventType == "worker.finalization") h.harnessTerminalSeen
    "worker.finalization appears before harness terminal"
  ensureIf (eventType == "worker.finalization") (!finalized)
    "worker.finalization appears more than once"
  ensureIf (isTaskTerminal eventType) h.harnessTerminalSeen
    "task terminal appears before harness terminal"
  ensureIf (isTaskTerminal eventType) finalized
    "Task terminal must immediately follow worker.finalization"
  ensureIf finalized (isTaskTerminal eventType)
    "only the Task terminal may follow worker.finalization"

/-! ### Building a Record -/

/-- The process environment and `int`, which parses `TASK_ID`. -/
structure WriterEnv where
  getenv : String → Option String
  int : String → Option Int

/-- `_required_env`. -/
def requiredEnv (env : WriterEnv) (name : String) : Except EmitError String :=
  let value := strip ((env.getenv name).getD "")
  if value = "" then
    .error (.runtimeError s!"{name} is required for canonical event emission")
  else
    .ok value

/-- `text.split(",")`. -/
def splitComma (text : String) : List String := (text.toList.splitOn ',').map String.ofList

/-- Whether the contract of the run is V2. -/
def isV2 (env : WriterEnv) : Bool :=
  strip ((env.getenv "CODIFY_RUNTIME_CONTRACT_VERSION").getD "") == v2Contract

/-- `harness["control_transport"]` of a V2 run. -/
def controlTransport (env : WriterEnv) : Json :=
  .obj
    [("kind", .str ((env.getenv "CODIFY_HARNESS_CONTROL_TRANSPORT_KIND").getD "rpc_stdio")),
     ("protocol",
       ((env.getenv "CODIFY_HARNESS_CONTROL_TRANSPORT_PROTOCOL").map str).getD .null)]

/-- `harness["model_protocols"]` of a V2 run. -/
def modelProtocolsBlock (env : WriterEnv) : Json :=
  let named := (splitComma ((env.getenv "CODIFY_HARNESS_MODEL_PROTOCOLS").getD "")).filter
    (!blank ·)
  let protocols :=
    if named.isEmpty then
      [(env.getenv "CODIFY_HARNESS_MODEL_PROTOCOL").getD "anthropic_messages"]
    else named
  .arr (protocols.map str)

/-- The `harness` block of every record. -/
def harnessBlock (env : WriterEnv) : Except EmitError JsonObject := do
  let key ← requiredEnv env "CODIFY_HARNESS_KEY"
  let adapterVersion ← requiredEnv env "CODIFY_ADAPTER_VERSION"
  let cliVersion ← requiredEnv env "CODIFY_CLI_VERSION"
  let identity : JsonObject :=
    [("key", .str key), ("adapter_version", .str adapterVersion),
     ("cli_version", .str cliVersion)]
  if isV2 env then
    return identity ++
      [("control_transport", controlTransport env),
       ("model_protocols", modelProtocolsBlock env)]
  else
    return identity

def eventSchema (env : WriterEnv) : String :=
  let schema := (env.getenv "CODIFY_EVENT_SCHEMA").getD ""
  if schema ≠ "" then schema
  else if isV2 env then "codify.worker.event/v2"
  else "codify.worker.event/v1"

/-- `_normalize_payload`. -/
def normalizePayload (eventType : String) (payload : JsonObject) :
    Except EmitError JsonObject :=
  if eventType = "usage.updated" ∨ eventType = "usage.final" then
    let usage := payload.get "usage"
    match (if usage.truthy then usage.asObject else some []) with
    | none => .error .attributeError
    | some (source : JsonObject) =>
      let engineFields := source.get "engine_fields"
      .ok (payload.set "usage" (.obj
        [("input_tokens", source.get "input_tokens"),
         ("cached_input_tokens", source.get "cached_input_tokens"),
         ("output_tokens", source.get "output_tokens"),
         ("reasoning_tokens", source.get "reasoning_tokens"),
         ("cost", source.get "cost"),
         ("currency", source.get "currency"),
         ("engine_fields", if engineFields.truthy then engineFields else .obj [])]))
  else
    .ok payload

/-- What one `emit` call brings along. -/
structure Call where
  eventType : String
  payload : JsonObject := []
  rawRef : Option JsonObject := none
  /-- The timeout marker exists. -/
  timeoutRequested : Bool := false
  /-- `str(uuid.uuid4())`. -/
  eventId : String
  /-- `datetime.now(UTC)` as text. -/
  occurredAt : String

/-- An unknown non-terminal type is written as a diagnostic. -/
def classify (call : Call) : Except EmitError (String × JsonObject) :=
  if call.eventType ∈ knownTypes then
    .ok (call.eventType, call.payload)
  else if startsWith call.eventType "run." then
    let eventType := call.eventType
    .error (.runtimeError s!"unknown Task terminal event: {eventType}")
  else
    .ok ("diagnostic",
      [("code", .str "unknown_event_type"), ("original_type", .str call.eventType),
       ("raw_ref", (call.rawRef.map obj).getD .null)])

/-- A terminal emitted after the timeout marker carries the timeout taxonomy. -/
def applyTimeout (timeoutRequested : Bool) (eventType : String) (payload : JsonObject) :
    JsonObject :=
  if (isHarnessTerminal eventType || isTaskTerminal eventType) && timeoutRequested then
    let failure : JsonObject := (payload.get "failure").asObject.getD []
    let failure := JsonObject.set failure "kind" (.str "timeout")
    let failure := JsonObject.set failure "message" (.str "Task timed out")
    let payload := JsonObject.set payload "failure" (.obj failure)
    if eventType = "run.failed" then
      JsonObject.set (JsonObject.set payload "status" (.str "failed")) "success" (.bool false)
    else payload
  else payload

def buildRecord (schema eventId attemptId : String) (seq : Int) (occurredAt eventType : String)
    (taskId : Int) (harness payload : JsonObject) (rawRef : Option JsonObject) : JsonObject :=
  ([("schema", .str schema), ("event_id", .str eventId), ("attempt_id", .str attemptId),
    ("seq", .int seq), ("occurred_at", .str occurredAt), ("type", .str eventType),
    ("task_id", .int taskId), ("harness", .obj harness), ("payload", .obj payload)] : JsonObject) ++
    (rawRef.map fun ref => [("raw_ref", obj ref)]).getD []

/-- `TASK_ID` as an integer. -/
def taskIdEnv (env : WriterEnv) : Except EmitError Int := do
  let text ← requiredEnv env "TASK_ID"
  match env.int text with
  | some taskId => return taskId
  | none => throw .valueError

/-- `emit` up to the append: the type written and the record. -/
def prepareRecord (env : WriterEnv) (file : Option (List JsonObject)) (call : Call) :
    Except EmitError (String × JsonObject) := do
  let (eventType, payload) ← classify call
  let _ ← requiredEnv env "CODIFY_RUNTIME_DIR"
  let payload := applyTimeout call.timeoutRequested eventType payload
  let history := readHistory file eventType
  let lastSeq ← history.lastSeq
  checkOrder history lastSeq eventType
  let harness ← harnessBlock env
  ensure (history.firstEvent.all fun first => (first.get "harness").pyEq (.obj harness))
    "Harness identity changed inside one canonical attempt"
  let attemptId ← requiredEnv env "CODIFY_ATTEMPT_ID"
  let taskId ← taskIdEnv env
  let payload ← normalizePayload eventType payload
  return (eventType,
    buildRecord (eventSchema env) call.eventId attemptId (lastSeq + 1) call.occurredAt eventType
      taskId harness payload call.rawRef)

/-! ### Emitting -/

/-- A line of the warning file with what its own `emit` call brings along; `none` is a
    line that is no JSON. -/
structure Warning where
  line : Option Json
  eventId : String
  occurredAt : String

def recordsOf (file : Option (List JsonObject)) : List JsonObject := file.getD []

/-- The nested `emit("diagnostic", payload, None)` of one warning line. -/
def emitWarning (env : WriterEnv) (file : Option (List JsonObject)) (warning : Warning) :
    Except EmitError (Option (List JsonObject)) :=
  match warning.line.bind asObject with
  | none => .ok file
  | some payload =>
    if !(payload.get "code").hashable then .error .typeError
    else if forwardedWarningCodes.any (payload.get "code").isStr then do
      let (_, record) ← prepareRecord env file
        { eventType := "diagnostic", payload, eventId := warning.eventId,
          occurredAt := warning.occurredAt }
      return some (recordsOf file ++ [record])
    else .ok file

/-- `_flush_runtime_warnings`: a nested call that raises ends the loop; what was appended
    stays. -/
def flushRuntimeWarnings (env : WriterEnv) :
    Option (List JsonObject) → List Warning → Except EmitError Unit × Option (List JsonObject)
  | file, [] => (.ok (), file)
  | file, warning :: rest =>
    match emitWarning env file warning with
    | .error e => (.error e, file)
    | .ok file => flushRuntimeWarnings env file rest

/-- `emit`: its outcome and the file after it. -/
def emit (env : WriterEnv) (file : Option (List JsonObject)) (call : Call)
    (warnings : List Warning) : Except EmitError Unit × Option (List JsonObject) :=
  match prepareRecord env file call with
  | .error e => (.error e, file)
  | .ok (eventType, record) =>
    let file := some (recordsOf file ++ [record])
    if eventType = "run.started" then flushRuntimeWarnings env file warnings else (.ok (), file)

/-- `emit` calls on one runtime directory whose `event.jsonl` does not exist yet. -/
def writerSystem (env : WriterEnv) :
    System (Option (List JsonObject)) (Call × List Warning) where
  init := fun file => file = none
  next := fun file (call, warnings) => some (emit env file call warnings).2

/-! ### What a Call Reads -/

theorem scanEventStream_eq (records : List JsonObject) :
    scanEventStream records =
      { firstEvent := records.head?
        lastEvent := records.getLast?
        harnessTerminalSeen := records.any fun r => (recordType r).any isHarnessTerminal } := by
  induction records using reverseRecOn with
  | nil => rfl
  | append_singleton records record ih =>
    have hsnoc : scanEventStream (records ++ [record]) =
        { firstEvent := (scanEventStream records).firstEvent.or (some record)
          lastEvent := some record
          harnessTerminalSeen := (scanEventStream records).harnessTerminalSeen ||
            (recordType record).any isHarnessTerminal } := by
      simp [scanEventStream]
    rw [hsnoc, ih]
    simp [head?_append]

/-- The first and the last record are the same with and without the full scan; a harness
    terminal is seen by the calls that scan. -/
theorem readHistory_eq (file : Option (List JsonObject)) (eventType : String) :
    readHistory file eventType =
      { firstEvent := (recordsOf file).head?
        lastEvent := (recordsOf file).getLast?
        harnessTerminalSeen := needsHistory eventType &&
          (recordsOf file).any fun r => (recordType r).any isHarnessTerminal } := by
  cases file with
  | none => simp [readHistory, recordsOf]
  | some records =>
    cases hneeds : needsHistory eventType with
    | true => simp [readHistory, recordsOf, hneeds, scanEventStream_eq]
    | false => simp [readHistory, recordsOf, hneeds, readFirstEvent, readLastEvent]

variable {message t t' : String} {env : WriterEnv} {records : List JsonObject}
  {record event : JsonObject} {file : Option (List JsonObject)} {py : Python}

@[simp] theorem ensure_eq_ok_iff {condition : Bool} {u : Unit} :
    ensure condition message = .ok u ↔ condition = true := by
  cases condition <;> simp [ensure]

@[simp] theorem ensureIf_eq_ok_iff {guarded condition : Bool} {u : Unit} :
    ensureIf guarded condition message = .ok u ↔ (guarded = true → condition = true) := by
  cases guarded <;> simp [ensureIf]

@[simp] theorem check_bind_eq_ok_iff {α : Type} {x : Except EmitError Unit}
    {f : Unit → Except EmitError α} {a : α} :
    (x >>= f) = .ok a ↔ x = .ok () ∧ f () = .ok a := by
  rw [bind_eq_ok_iff]
  constructor
  · rintro ⟨⟨⟩, hx, hf⟩
    exact ⟨hx, hf⟩
  · rintro ⟨hx, hf⟩
    exact ⟨(), hx, hf⟩

section Record

variable (schema eventId attemptId : String) (seq : Int) (occurredAt eventType : String)
  (taskId : Int) (harness payload : JsonObject) (rawRef : Option JsonObject)

@[simp] theorem buildRecord_type :
    (buildRecord schema eventId attemptId seq occurredAt eventType taskId harness payload
      rawRef).get "type" = .str eventType := by
  simp [buildRecord, JsonObject.get, lookup_cons]

@[simp] theorem buildRecord_seq :
    (buildRecord schema eventId attemptId seq occurredAt eventType taskId harness payload
      rawRef).get "seq" = .int seq := by
  simp [buildRecord, JsonObject.get, lookup_cons]

@[simp] theorem buildRecord_attemptId :
    (buildRecord schema eventId attemptId seq occurredAt eventType taskId harness payload
      rawRef).get "attempt_id" = .str attemptId := by
  simp [buildRecord, JsonObject.get, lookup_cons]

@[simp] theorem buildRecord_taskId :
    (buildRecord schema eventId attemptId seq occurredAt eventType taskId harness payload
      rawRef).get "task_id" = .int taskId := by
  simp [buildRecord, JsonObject.get, lookup_cons]

@[simp] theorem buildRecord_harness :
    (buildRecord schema eventId attemptId seq occurredAt eventType taskId harness payload
      rawRef).get "harness" = .obj harness := by
  simp [buildRecord, JsonObject.get, lookup_cons]

end Record

/-! ### What the File Holds -/

/-- A record of the run described by `env`, with its sequence number. -/
structure IsRecord (env : WriterEnv) (seq : Int) (record : JsonObject) : Prop where
  type : ∃ t ∈ knownTypes, record.get "type" = .str t
  seq : record.get "seq" = .int seq
  attemptId : ∃ attemptId, requiredEnv env "CODIFY_ATTEMPT_ID" = .ok attemptId ∧
    record.get "attempt_id" = .str attemptId
  taskId : ∃ taskId, taskIdEnv env = .ok taskId ∧ record.get "task_id" = .int taskId
  harness : ∃ harness, harnessBlock env = .ok harness ∧ record.get "harness" = .obj harness

/-- The files the writer can produce: each record is of the run, numbered by its rank,
    and admitted by the lifecycle of the records before it. -/
inductive Written (env : WriterEnv) : List JsonObject → Prop where
  | nil : Written env []
  | snoc {records : List JsonObject} {record : JsonObject} : Written env records →
      IsRecord env (records.length + 1) record →
      (ofTypes (records.map Event.type)).terminalType = none →
      (ofTypes (records.map Event.type)).Admits (records.length + 1)
        (Event.type record) →
      Written env (records ++ [record])

theorem Written.valid (h : Written env records) :
    Lifecycle.Valid (records.map Event.type) := by
  induction h with
  | nil => exact .nil
  | snoc _ _ hnone hadmits ih =>
    rw [map_append, map_cons, map_nil]
    refine .snoc ih hnone ?_
    simpa using hadmits

theorem Written.isRecord
    (h : Written env records) (hr : record ∈ records) :
    ∃ seq, IsRecord env seq record := by
  induction h with
  | nil => cases hr
  | snoc _ hrec _ _ ih =>
    rcases mem_append.mp hr with hr | hr
    · exact ih hr
    · obtain rfl : record = _ := by simpa using hr
      exact ⟨_, hrec⟩

theorem IsRecord.recordType_eq {seq : Int}
    (h : IsRecord env seq record) : recordType record = some (Event.type record) := by
  obtain ⟨t, -, ht⟩ := h.type
  simp [recordType, Event.type, ht, Json.asString]

theorem Written.lastSeq_eq
    (h : Written env records) (hfile : recordsOf file = records)
    (eventType : String) : (readHistory file eventType).lastSeq = .ok (records.length : Int) := by
  rw [readHistory_eq, hfile]
  cases h with
  | nil => rfl
  | @snoc records record _ hrec _ _ =>
    have hlt : ¬ (records.length : Int) + 1 < 1 := by omega
    simp [History.lastSeq, eventSeq, hrec.seq, asInt, hlt]

theorem Written.harnessSeen_eq
    (h : Written env records) :
    (records.any fun r => (recordType r).any isHarnessTerminal) =
      (ofTypes (records.map Event.type)).harnessEnded := by
  have hrecord : ∀ r ∈ records,
      (recordType r).any isHarnessTerminal = isHarnessTerminal (Event.type r) := by
    intro r hr
    obtain ⟨seq, hrec⟩ := h.isRecord hr
    simp [hrec.recordType_eq]
  rw [ofTypes_harnessEnded, any_map, Bool.eq_iff_iff, any_eq_true, any_eq_true]
  constructor
  · rintro ⟨r, hr, hseen⟩
    exact ⟨r, hr, (hrecord r hr).symm.trans hseen⟩
  · rintro ⟨r, hr, hseen⟩
    exact ⟨r, hr, (hrecord r hr).trans hseen⟩

theorem Written.lastType_eq
    (h : Written env records) :
    records.getLast?.bind recordType = (records.map Event.type).getLast? := by
  rw [getLast?_map]
  cases hlast : records.getLast? with
  | none => rfl
  | some record =>
    obtain ⟨seq, hrec⟩ := h.isRecord (mem_of_getLast? hlast)
    simp [hrec.recordType_eq]

/-- The writer's check of the order admits what the lifecycle admits. -/
theorem Written.admits_of_checkOrder
    (h : Written env (recordsOf file))
    (hok : checkOrder (readHistory file t) ((recordsOf file).length : Int) t = .ok ()) :
    (ofTypes ((recordsOf file).map Event.type)).terminalType = none ∧
    (ofTypes ((recordsOf file).map Event.type)).Admits
      ((recordsOf file).length + 1) t := by
  set records := recordsOf file with hrecords
  set lc := ofTypes (records.map Event.type) with hlc
  have hlast : (readHistory file t).lastType = (records.map Event.type).getLast? := by
    rw [readHistory_eq]
    exact h.lastType_eq
  have hseen : (readHistory file t).harnessTerminalSeen = (needsHistory t && lc.harnessEnded) := by
    rw [readHistory_eq, ← hrecords, h.harnessSeen_eq]
  simp only [checkOrder, check_bind_eq_ok_iff, ensure_eq_ok_iff, ensureIf_eq_ok_iff, hlast,
    hseen, beq_iff_eq, Bool.not_eq_true', decide_eq_false_iff_not] at hok
  obtain ⟨hopen, hfirst, hstart, hharness, hdel, hfin, hfin', hterm, hterm', hfinal⟩ := hok
  -- a stream past its terminal has it as its last type
  have hnone : lc.terminalType = none := by
    cases hlt : lc.terminalType with
    | none => rfl
    | some x =>
      obtain ⟨hx, hxt⟩ := h.valid.terminal_last hlt
      simp [hx, hxt] at hopen
  have hflag := h.valid.finalization_last hnone
  have hfinalized : lc.finalizationSeen = true ↔
      (records.map Event.type).getLast? = some "worker.finalization" := by
    rw [hlc, hflag, beq_iff_eq]
  refine ⟨hnone, ?_, ?_, ?_, ?_, ?_, ?_, ?_, ?_⟩
  · simp [hlc]
  · intro hseen'
    exact hfinal (hfinalized.mp hseen')
  · intro ht
    have hzero : records.length = 0 := by
      have := hstart ht
      omega
    have hnil : records = [] := length_eq_zero_iff.mp hzero
    simp [hlc, hnil, firstSequence]
  · intro ht
    have hne : records ≠ [] := by
      intro hnil
      exact ht (hfirst (by simp [hnil]))
    simpa [hlc] using hne
  · intro ht
    have hneeds : needsHistory t = true := by simp [needsHistory, ht]
    simpa [hneeds] using hharness ht
  · intro ht
    have := hdel ht
    simp only [Bool.and_eq_true] at this
    exact this.2
  · intro ht
    have hended := hfin ht
    simp only [Bool.and_eq_true] at hended
    refine ⟨hended.2, ?_⟩
    rw [← Bool.not_eq_true, hfinalized]
    have := hfin' ht
    simpa using this
  · intro ht
    have hended := hterm ht
    simp only [Bool.and_eq_true] at hended
    exact ⟨hended.2, hfinalized.mpr (hterm' ht)⟩

theorem Written.prepareRecord_snoc
    (h : Written env (recordsOf file)) {call : Call} {eventType : String}
    (hok : prepareRecord env file call = .ok (eventType, record)) :
    Written env (recordsOf file ++ [record]) := by
  obtain ⟨⟨t, payload⟩, hclassify, hok⟩ := bind_eq_ok_iff.mp hok
  obtain ⟨_, -, hok⟩ := bind_eq_ok_iff.mp hok
  simp only [h.lastSeq_eq rfl, ok_bind, check_bind_eq_ok_iff] at hok
  obtain ⟨horder, hok⟩ := hok
  obtain ⟨harness, hharness, hok⟩ := bind_eq_ok_iff.mp hok
  simp only [check_bind_eq_ok_iff] at hok
  obtain ⟨-, hok⟩ := hok
  obtain ⟨attemptId, hattempt, hok⟩ := bind_eq_ok_iff.mp hok
  obtain ⟨taskId, htask, hok⟩ := bind_eq_ok_iff.mp hok
  obtain ⟨payload', -, hok⟩ := bind_eq_ok_iff.mp hok
  simp only [pure_eq_ok, Except.ok.injEq, Prod.mk.injEq] at hok
  obtain ⟨rfl, rfl⟩ := hok
  have hknown : t ∈ knownTypes := by
    unfold classify at hclassify
    split at hclassify
    · obtain ⟨rfl, -⟩ := Prod.mk.inj (Except.ok.inj hclassify)
      assumption
    · simp only at hclassify
      split at hclassify
      · cases hclassify
      · obtain ⟨rfl, -⟩ := Prod.mk.inj (Except.ok.inj hclassify)
        decide
  have htype : Event.type (buildRecord (eventSchema env) call.eventId attemptId
      ((recordsOf file).length + 1) call.occurredAt t taskId harness payload' call.rawRef) =
      t := by
    simp [Event.type, Json.asString]
  have hadmits := h.admits_of_checkOrder horder
  refine .snoc h ⟨⟨t, hknown, by simp⟩, by simp, ⟨attemptId, hattempt, by simp⟩,
    ⟨taskId, htask, by simp⟩, ⟨harness, hharness, by simp⟩⟩ hadmits.1 ?_
  rw [htype]
  exact hadmits.2

/-! ### Runs -/

theorem Written.flushRuntimeWarnings (file : Option (List JsonObject))
    (h : Written env (recordsOf file)) (warnings : List Warning) :
    Written env (recordsOf (flushRuntimeWarnings env file warnings).2) := by
  induction warnings generalizing file with
  | nil => exact h
  | cons warning rest ih =>
    simp only [WorkerEvents.flushRuntimeWarnings]
    cases hemit : emitWarning env file warning with
    | error e => exact h
    | ok file' =>
      refine ih file' ?_
      unfold emitWarning at hemit
      split at hemit
      · cases hemit
        exact h
      · split at hemit
        · cases hemit
        · split at hemit
          · obtain ⟨⟨t, record⟩, hprep, hfile⟩ := bind_eq_ok_iff.mp hemit
            cases hfile
            exact h.prepareRecord_snoc hprep
          · cases hemit
            exact h

theorem Written.emit
    (h : Written env (recordsOf file)) (call : Call) (warnings : List Warning) :
    Written env (recordsOf (emit env file call warnings).2) := by
  unfold WorkerEvents.emit
  cases hprep : prepareRecord env file call with
  | error e => exact h
  | ok out =>
    obtain ⟨t, record⟩ := out
    have hsnoc := h.prepareRecord_snoc hprep
    simp only
    split
    · exact Written.flushRuntimeWarnings (some _) hsnoc warnings
    · exact hsnoc

theorem written_reachable
    (h : (writerSystem env).Reachable System.anyStep file) : Written env (recordsOf file) := by
  refine h.invariant (P := fun file => Written env (recordsOf file)) ?_ ?_
  · rintro file rfl
    exact .nil
  · rintro file ⟨call, warnings⟩ file' hfile _ hstep
    cases hstep
    exact hfile.emit call warnings

theorem Written.emit_after_terminal
    (h : Written env (recordsOf file)) {r : JsonObject} (hr : r ∈ recordsOf file)
    (hterm : isTaskTerminal (Event.type r) = true) (call : Call) (warnings : List Warning) :
    (WorkerEvents.emit env file call warnings).2 = file := by
  unfold WorkerEvents.emit
  cases hprep : prepareRecord env file call with
  | error e => rfl
  | ok out =>
    obtain ⟨t, record⟩ := out
    have hsnoc := h.prepareRecord_snoc hprep
    have hsome : (ofTypes ((recordsOf file).map Event.type)).terminalType.isSome := by
      rw [h.valid.terminalType_isSome_iff, any_eq_true]
      exact ⟨_, mem_map_of_mem hr, hterm⟩
    generalize hrecords : recordsOf file ++ [record] = records at hsnoc
    cases hsnoc with
    | nil => simp at hrecords
    | snoc _ _ hnone _ =>
      obtain ⟨hsame, -⟩ := append_inj' hrecords rfl
      rw [hsame, hnone] at hsome
      simp at hsome

/-! ### Replaying the File -/

/-- An event type without a role in the lifecycle. -/
structure Plain (t : String) : Prop where
  task : isTaskTerminal t = false
  harness : isHarnessTerminal t = false
  delivery : isDelivery t = false
  start : t ≠ "run.started"
  finalization : t ≠ "worker.finalization"

def SameRole (t t' : String) : Prop := t = t' ∨ (Plain t ∧ Plain t')

theorem plain_diagnostic : Plain "diagnostic" := by
  refine ⟨?_, ?_, ?_, ?_, ?_⟩ <;> decide

theorem plain_of_unknown (hk : t ∈ knownTypes) (hu : t ∉ knownEventTypes) :
    Plain t := by
  have hsplit : ∀ t ∈ knownTypes, t ∈ knownEventTypes ∨ t ∈ v2AuditEventTypes := by decide
  have haudit := (hsplit t hk).resolve_left hu
  simp only [v2AuditEventTypes, controlEventTypes, cons_append, nil_append,
    mem_cons, not_mem_nil, or_false] at haudit
  rcases haudit with rfl | rfl | rfl | rfl <;> refine ⟨?_, ?_, ?_, ?_, ?_⟩ <;> decide

theorem SameRole.advance_eq (h : SameRole t t') (lc : Lifecycle) (seq : Int) :
    lc.advance seq t = lc.advance seq t' := by
  rcases h with rfl | ⟨ht, ht'⟩
  · rfl
  · simp [advance, ht.harness, ht'.harness, ht.task, ht'.task,
      beq_false_of_ne ht.finalization, beq_false_of_ne ht'.finalization]

theorem SameRole.admits (h : SameRole t t') {lc : Lifecycle} {seq : Int}
    (hadm : lc.Admits seq t) : lc.Admits seq t' := by
  rcases h with rfl | ⟨ht, ht'⟩
  · exact hadm
  · refine ⟨hadm.next, ?_, ?_, ?_, ?_, ?_, ?_, ?_⟩
    · intro hfin
      have := hadm.final hfin
      simp [ht.task] at this
    · exact fun hs => absurd hs ht'.start
    · exact fun _ => hadm.running ht.start
    · simp [ht'.harness]
    · simp [ht'.delivery]
    · exact fun hs => absurd hs ht'.finalization
    · simp [ht'.task]

theorem ofTypes_sameRole {α : Type} {f g : α → String} {xs : List α}
    (h : ∀ x ∈ xs, SameRole (f x) (g x)) :
    ofTypes (xs.map f) = ofTypes (xs.map g) := by
  induction xs using reverseRecOn with
  | nil => rfl
  | append_singleton xs x ih =>
    have hxs := ih fun y hy => h y (by simp [hy])
    simp only [map_append, map_cons, map_nil, ofTypes_append, hxs]
    exact (h x (by simp)).advance_eq _ _

theorem pyEqItems_str (texts : List String) :
    pyEqItems (texts.map str) (texts.map str) = true := by
  induction texts with
  | nil => rfl
  | cons t rest ih => simp [pyEqItems, pyEq, ih]

/-- The transport and protocols of the run are texts, so they equal themselves. -/
theorem harnessBlock_pyEq {harness : JsonObject}
    (h : harnessBlock env = .ok harness) :
    (harness.get "control_transport").pyEq (harness.get "control_transport") = true ∧
    (harness.get "model_protocols").pyEq (harness.get "model_protocols") = true := by
  obtain ⟨key, -, h⟩ := bind_eq_ok_iff.mp h
  obtain ⟨adapter, -, h⟩ := bind_eq_ok_iff.mp h
  obtain ⟨cli, -, h⟩ := bind_eq_ok_iff.mp h
  split at h
  · cases h
    constructor
    · simp only [JsonObject.get, lookup_cons, cons_append, nil_append]
      cases hp : env.getenv "CODIFY_HARNESS_CONTROL_TRANSPORT_PROTOCOL" <;>
        simp [controlTransport, hp, pyEq, pyEqFields, pyEqField, lookup_cons]
    · simp only [JsonObject.get, lookup_cons, cons_append, nil_append]
      simp [modelProtocolsBlock, pyEq, pyEqItems_str]
  · cases h
    simp [JsonObject.get, lookup_cons, pyEq]

/-- The normalized form of a record; a record that is not valid stays as it is. -/
def normalizeRecord (py : Python) (record : JsonObject) : JsonObject :=
  match validateEventBySchema py record with
  | .ok event => event
  | .error _ => record

theorem validate_eq_normalizeRecord
    (h : ∃ event, validateEventBySchema py record = .ok event) :
    validateEventBySchema py record = .ok (normalizeRecord py record) := by
  obtain ⟨event, hevent⟩ := h
  rw [hevent, normalizeRecord, hevent]

theorem IsRecord.normalForm {seq : Int}
    (h : IsRecord env seq record) (hn : NormalForm record event) :
    SameRole (Event.type record) (Event.type event) ∧ Event.seq event = seq := by
  obtain ⟨t, hknown, ht⟩ := h.type
  have htype : Event.type record = t := by simp [Event.type, ht, Json.asString]
  have hne : t ≠ "" := by
    rintro rfl
    exact absurd hknown (by decide)
  refine ⟨?_, ?_⟩
  · rw [htype]
    rcases hn.type t ht hne with hsame | ⟨hdiag, hunknown⟩
    · exact .inl hsame.symm
    · rw [hdiag]
      exact .inr ⟨plain_of_unknown hknown hunknown, plain_diagnostic⟩
  · rw [Event.seq, hn.get_eq "seq" (by decide) (by decide), h.seq]
    rfl

theorem IsRecord.identity_matches {i j : Int}
    {first record first' record' : JsonObject} (hf : IsRecord env i first)
    (hr : IsRecord env j record) (hnf : NormalForm first first')
    (hnr : NormalForm record record') : (of first').Matches record' := by
  obtain ⟨attemptId, hattempt, hfa⟩ := hf.attemptId
  obtain ⟨attemptId', hattempt', hra⟩ := hr.attemptId
  obtain rfl : attemptId = attemptId' := Except.ok.inj (hattempt.symm.trans hattempt')
  obtain ⟨taskId, htask, hft⟩ := hf.taskId
  obtain ⟨taskId', htask', hrt⟩ := hr.taskId
  obtain rfl : taskId = taskId' := Except.ok.inj (htask.symm.trans htask')
  obtain ⟨harness, hharness, hfh⟩ := hf.harness
  obtain ⟨harness', hharness', hrh⟩ := hr.harness
  obtain rfl : harness = harness' := Except.ok.inj (hharness.symm.trans hharness')
  have hblock : ∀ {raw event : JsonObject}, NormalForm raw event →
      raw.get "harness" = .obj harness → Event.harness event = harness := by
    intro raw event hn hraw
    rw [Event.harness, hn.get_eq "harness" (by decide) (by decide), hraw]
    rfl
  have hf' := hblock hnf hfh
  have hr' := hblock hnr hrh
  have hself := harnessBlock_pyEq hharness
  refine ⟨?_, ?_, ?_, ?_, ?_, ?_, ?_⟩
  · simp only [of, Event.attemptId, hnr.get_eq "attempt_id" (by decide) (by decide),
      hnf.get_eq "attempt_id" (by decide) (by decide), hra, hfa]
  · simp only [of, Event.taskId, hnr.get_eq "task_id" (by decide) (by decide),
      hnf.get_eq "task_id" (by decide) (by decide), hrt, hft]
  · simp only [of, Event.harnessKey, hf', hr']
  · simp only [of, Event.adapterVersion, hf', hr']
  · simp only [of, Event.cliVersion, hf', hr']
  · simp only [of, Event.controlTransport, hf', hr']
    exact hself.1
  · simp only [of, Event.modelProtocols, hf', hr']
    exact hself.2

theorem NormalForm.eventId_eq {raw event : JsonObject} (h : NormalForm raw event) :
    Event.eventId event = Event.eventId raw := by
  rw [Event.eventId, h.get_eq "event_id" (by decide) (by decide)]
  rfl

/-- **Refinement**: the normalized records of a file are accepted by a fresh replay. -/
theorem Written.accepted
    (h : Written env records)
    (hvalid : ∀ r ∈ records, ∃ e, validateEventBySchema py r = .ok e)
    (hids : (records.map Event.eventId).Nodup) :
    ∃ replay, Replay.Accepted (records.map (normalizeRecord py)) replay := by
  induction h with
  | nil => exact ⟨{}, .nil⟩
  | @snoc records record hw hrec hnone hadmits ih =>
    have hform : ∀ r ∈ records ++ [record], NormalForm r (normalizeRecord py r) := fun r hr =>
      validateEventBySchema_normalForm (validate_eq_normalizeRecord (hvalid r hr))
    have hlast := hform record (by simp)
    rw [map_append, nodup_append] at hids
    obtain ⟨replay, hacc⟩ := ih (fun r hr => hvalid r (by simp [hr])) hids.1
    have hsum := hacc.summary
    have htypes : ofTypes ((records.map (normalizeRecord py)).map Event.type) =
        ofTypes (records.map Event.type) := by
      rw [map_map]
      refine (ofTypes_sameRole fun r hr => ?_).symm
      obtain ⟨seq, hr'⟩ := hw.isRecord hr
      exact (hr'.normalForm (hform r (by simp [hr]))).1
    have hlc : replay.toLifecycle = ofTypes (records.map Event.type) :=
      hsum.lifecycle.trans htypes
    refine ⟨replay.record (normalizeRecord py record), ?_⟩
    rw [map_append, map_cons, map_nil]
    refine .snoc hacc ⟨?_, ?_, ?_, ?_⟩
    · rw [hsum.seen, NormalForm.eventId_eq hlast]
      intro hmem
      obtain ⟨e, he, heq⟩ := mem_map.mp hmem
      obtain ⟨r, hr, rfl⟩ := mem_map.mp he
      rw [NormalForm.eventId_eq (hform r (by simp [hr]))] at heq
      exact hids.2.2 _ (mem_map_of_mem hr) _ (by simp) heq
    · rw [hlc]
      exact hnone
    · intro i hi
      rw [hsum.identity, head?_map] at hi
      obtain ⟨first', hfirst', rfl⟩ := Option.map_eq_some_iff.mp hi
      obtain ⟨first, hfirst, rfl⟩ := Option.map_eq_some_iff.mp hfirst'
      have hmem : first ∈ records := mem_of_mem_head? hfirst
      obtain ⟨seq, hf⟩ := hw.isRecord hmem
      exact hf.identity_matches hrec (hform first (by simp [hmem])) hlast
    · have hnorm := hrec.normalForm hlast
      rw [hlc, hnorm.2]
      exact hnorm.1.admits hadmits

/-- **The writer refines the protocol.** After any sequence of `emit` calls on a runtime
    directory without `event.jsonl`, if every record is valid taken alone and the event ids
    are distinct: a fresh replay accepts the records up to every point of the file; and
    once a `run.completed` or `run.failed` record exists the file never changes again. -/
theorem writer_refines_replay (py : Python) (env : WriterEnv)
    (h : (writerSystem env).Reachable System.anyStep file)
    (hvalid : ∀ r ∈ recordsOf file, ∃ e, validateEventBySchema py r = .ok e)
    (hids : ((recordsOf file).map Event.eventId).Nodup) :
    (∀ n, ∃ replay, Replay.ofEvents py ((recordsOf file).take n) = .ok replay) ∧
    ((∃ r ∈ recordsOf file, Event.type r = "run.completed" ∨ Event.type r = "run.failed") →
      ∀ file', (writerSystem env).Run System.anyStep file file' → file' = file) := by
  have hw := written_reachable h
  constructor
  · intro n
    obtain ⟨replay, hacc⟩ := hw.accepted hvalid hids
    have hok : Replay.ofEvents py (recordsOf file) = .ok replay :=
      hacc.ofEvents_eq _ fun r hr => validate_eq_normalizeRecord (hvalid r hr)
    rw [← take_append_drop n (recordsOf file), Replay.ofEvents, foldlM_append] at hok
    obtain ⟨before, hbefore, -⟩ := bind_eq_ok_iff.mp hok
    exact ⟨before, hbefore⟩
  · rintro ⟨r, hr, hterm⟩ file' hrun
    have hterm : isTaskTerminal (Event.type r) = true := isTaskTerminal_iff.mpr hterm
    refine hrun.preserves (P := fun f => f = file) ?_ rfl
    rintro f ⟨call, warnings⟩ f' rfl _ hstep
    cases hstep
    exact hw.emit_after_terminal hr hterm call warnings

def sampleEnv : WriterEnv where
  getenv := fun name =>
    [("CODIFY_RUNTIME_DIR", "/run"), ("CODIFY_HARNESS_KEY", "pi"),
     ("CODIFY_ADAPTER_VERSION", "1"), ("CODIFY_CLI_VERSION", "2"),
     ("CODIFY_RUNTIME_CONTRACT_VERSION", v2Contract), ("CODIFY_ATTEMPT_ID", "a-1"),
     ("TASK_ID", "7")].lookup name
  int := fun text => if text = "7" then some 7 else none

/-- A run that starts, flushes one warning and ends in `harness.completed`, the
    finalization and the task terminal. -/
theorem writer_refines_replay_run :
    ∃ file, (writerSystem sampleEnv).Reachable System.anyStep file ∧
      (recordsOf file).map Event.type =
        ["run.started", "diagnostic", "harness.completed", "worker.finalization", "run.completed"] ∧
      (∃ replay, Replay.ofEvents zonedPython ((recordsOf file).take 5) = .ok replay) ∧
      ∀ file', (writerSystem sampleEnv).Run System.anyStep file file' → file' = file := by
  have hreach := System.reachable_of_exec rfl (show (writerSystem sampleEnv).exec none
    [({ eventType := "run.started", eventId := "e1", occurredAt := "t" },
        [{ line := some (.obj [("code", .str "optional_harness_unavailable")]),
           eventId := "e2", occurredAt := "t" }]),
     ({ eventType := "harness.completed", eventId := "e3", occurredAt := "t" }, []),
     ({ eventType := "worker.finalization", eventId := "e4", occurredAt := "t" }, []),
     ({ eventType := "run.completed", eventId := "e5", occurredAt := "t"
        payload := [("status", .str "completed"), ("success", .bool true)] }, [])] =
      some _ from rfl)
  refine ⟨_, hreach, rfl, And.imp (· 5) (· ⟨_, mem_of_getLast? rfl, .inl rfl⟩)
    (writer_refines_replay zonedPython sampleEnv hreach (fun r hr => ?_) (by decide))⟩
  have hok := all_eq_true (p := fun r => (validateEventBySchema zonedPython r).toOption.isSome).mp
    (by rfl) r hr
  cases hv : validateEventBySchema zonedPython r with
  | ok e => exact ⟨e, rfl⟩
  | error e => simp [hv, Except.toOption] at hok

end Codify.Harness.WorkerEvents
