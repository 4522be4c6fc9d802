import Mathlib.Algebra.GroupWithZero.Nat
import Mathlib.Data.List.MinMax
import Codify.Framework.Fallible
import Codify.Framework.Json
import Codify.Framework.Table
import Codify.Models

/-! # Control Commands

    The command rows of app/core/task_harness_commands.py. A command is created
    for the current attempt of a RUNNING Task under the attempt row lock, which
    allocates its sequence number, and then moves
    `queued → dispatching → delivered | rejected | outcome_unknown`.

    A writer of a command row is a function on the session's object: `none`
    when the object's status does not allow the write. `saveCommand` flushes
    such an object; the CHECK constraints of the table refuse a row whose
    status and terminal timestamps disagree.
-/

namespace Codify.Harness.Commands

open Codify Codify.Framework

/-! ### Rows -/

/-- `TaskHarnessAttempt.control_state`. -/
inductive ControlState where
  | disabled
  | starting
  | accepting
  | closing
  | closed
  deriving DecidableEq, Repr

/-- `TaskHarnessCommand.command_type`. -/
inductive CommandType where
  | steer
  | followUp
  deriving DecidableEq, Repr

/-- `TaskHarnessCommand.status`. -/
inductive CommandStatus where
  | queued
  | dispatching
  | delivered
  | rejected
  | outcomeUnknown
  deriving DecidableEq, Repr

/-- `status in ("queued", "dispatching")`. -/
def CommandStatus.live : CommandStatus → Bool
  | .queued | .dispatching => true
  | .delivered | .rejected | .outcomeUnknown => false

/-- The three statuses in which a command ends. -/
def CommandStatus.terminal (st : CommandStatus) : Bool := !st.live

/-- The gate and lease columns of one row of `task_harness_attempts`. -/
structure TaskHarnessAttempt where
  attemptId : String
  taskId : Nat
  attemptNo : Nat := 1
  eventSchema : String
  harnessKey : String
  controlState : ControlState := .disabled
  awaitingFollowUpTurn : Bool := false
  pendingFollowUpCommandId : Option String := none
  pendingFollowUpNativeId : Option String := none
  forceCloseRequested : Bool := false
  nextCommandSequence : Nat := 1
  commandDispatchOwner : Option String := none
  commandDispatchExpiresAt : Option DateTime := none
  deriving DecidableEq, Repr

/-- One row of `task_harness_commands`. -/
structure TaskHarnessCommand where
  commandId : String
  taskId : Nat
  attemptId : String
  sequenceNo : Nat
  commandType : CommandType
  payload : JsonObject
  payloadDigest : String
  status : CommandStatus := .queued
  createdBy : String
  createdAt : DateTime
  deliveryAttempts : Nat := 0
  lastAttemptAt : Option DateTime := none
  dispatchStartedAt : Option DateTime := none
  nativeRequestId : Option String := none
  nativeSentAt : Option DateTime := none
  nativeAckAt : Option DateTime := none
  outcomeUnknownAt : Option DateTime := none
  deliveredAt : Option DateTime := none
  rejectedAt : Option DateTime := none
  rejectionCode : Option String := none
  rejectionMessage : Option String := none

/-- The CHECK constraints that tie the status to the terminal timestamps. -/
def TaskHarnessCommand.checks (c : TaskHarnessCommand) : Bool :=
  ((c.status.live || c.status == .outcomeUnknown) ==
    (c.deliveredAt.isNone && c.rejectedAt.isNone)) &&
  ((c.status == .delivered) == c.deliveredAt.isSome) &&
  ((c.status == .rejected) == c.rejectedAt.isSome) &&
  ((c.status == .outcomeUnknown) == c.outcomeUnknownAt.isSome)

/-- The committed rows. The status of a Task is all the command plane reads of it. -/
structure Db where
  taskStatus : Nat → Option TaskStatus := fun _ => none
  attempts : List TaskHarnessAttempt := []
  commands : List TaskHarnessCommand := []

namespace Db

variable (db : Db)

/-- `Task.status == TaskStatus.RUNNING`. -/
def taskRunning (taskId : Nat) : Bool := db.taskStatus taskId == some .running

variable (attemptId : String)

def attempt? : Option TaskHarnessAttempt := Table.row? (·.attemptId) attemptId db.attempts

def command? (commandId : String) : Option TaskHarnessCommand :=
  Table.row? (·.commandId) commandId db.commands

def commandsOf : List TaskHarnessCommand :=
  db.commands.filter fun c => decide (c.attemptId = attemptId)

def mapCommands (f : TaskHarnessCommand → TaskHarnessCommand) (db : Db) : Db :=
  { db with commands := db.commands.map f }

def updateAttempt (f : TaskHarnessAttempt → TaskHarnessAttempt) (db : Db) : Db :=
  { db with attempts := Table.update (·.attemptId) attemptId f db.attempts }

end Db

/-! ### Identifiers and Text -/

/-- `[0-9a-fA-F]`. -/
def isHexDigit (c : Char) : Bool :=
  ('0' ≤ c && c ≤ '9') || ('a' ≤ c && c ≤ 'f') || ('A' ≤ c && c ≤ 'F')

/-- `_UUID_COMMAND_ID_RE.fullmatch`. -/
def isUuid (s : String) : Bool :=
  s.toList.length == 36 && s.toList.zipIdx.all fun (c, i) =>
    if i == 8 || i == 13 || i == 18 || i == 23 then c == '-' else isHexDigit c

/-- `_ULID_COMMAND_ID_RE.fullmatch`: Crockford's alphabet without I, L, O and U. -/
def isUlid (s : String) : Bool :=
  s.toList.length == 26 && s.toList.all fun c =>
    let u := c.toUpper
    ('0' ≤ c && c ≤ '9') || ('A' ≤ u && u ≤ 'H') || u == 'J' || u == 'K' || u == 'M' ||
      u == 'N' || ('P' ≤ u && u ≤ 'T') || ('V' ≤ u && u ≤ 'Z')

/-- `normalize_command_id`. -/
def normalizeCommandId (commandId : String) : Option String :=
  if isUuid commandId then some (String.ofList (commandId.toList.map Char.toLower))
  else if isUlid commandId then some (String.ofList (commandId.toList.map Char.toUpper))
  else none

/-- `command_text_utf16_code_units`. -/
def commandTextUtf16CodeUnits (text : String) : Nat :=
  (text.toList.map fun c => if c.toNat < 0x10000 then 1 else 2).sum

/-- `is_valid_command_text`; a Lean character is never a surrogate. -/
def isValidCommandText (text : String) : Bool := commandTextUtf16CodeUnits text ≤ 4000

/-- `command_type in {"steer", "follow_up"}`, with the type. -/
def CommandType.parse : String → Option CommandType
  | "steer" => some .steer
  | "follow_up" => some .followUp
  | _ => none

/-! ### create_command -/

/-- `CommandCreateResult`. -/
structure CommandCreateResult where
  commandId : String := ""
  sequenceNo : Nat := 0
  created : Bool := false
  outcome : String
  rejectionCode : Option String := none
  rejectionMessage : Option String := none
  deriving DecidableEq, Repr

/-- How `create_command` ends without a new row. -/
inductive CreateStop where
  | answered (result : CommandCreateResult)
  /-- `CommandError`. -/
  | raised (message code : String)
  deriving DecidableEq, Repr

/-- A rejection: the code is also the outcome. -/
def reject (commandId code message : String) : CreateStop :=
  .answered
    { commandId, outcome := code, rejectionCode := some code, rejectionMessage := some message }

/-- Answer with a rejection unless the condition holds. -/
def unlessRejected (condition : Bool) (stop : CreateStop) : Except CreateStop Unit :=
  if condition then .ok () else .error stop

/-- A value that a check needs, or the answer without it. -/
def orStop {α : Type} (value : Option α) (stop : CreateStop) : Except CreateStop α :=
  match value with
  | some a => .ok a
  | none => .error stop

@[simp] theorem unlessRejected_eq_ok_iff {condition : Bool} {stop : CreateStop} {u : Unit} :
    unlessRejected condition stop = .ok u ↔ condition = true := by
  unfold unlessRejected
  split <;> simp_all

@[simp] theorem orStop_eq_ok_iff {α : Type} {value : Option α} {stop : CreateStop} {a : α} :
    orStop value stop = .ok a ↔ value = some a := by
  cases value <;> simp [orStop]

/-- The arguments of `create_command`. -/
structure CreateRequest where
  taskId : Nat
  commandId : String
  commandType : String
  payload : JsonObject
  createdBy : String

/-- What `create_command` calls: the digest of the canonical command object (SHA-256)
    and the capabilities in the frozen Runtime Bundle of a Task. -/
structure CommandEnv where
  canonicalDigest : Nat → String → CommandType → JsonObject → String
  bundleSupportsCommand : Nat → String → CommandType → Bool

/-- `CANONICAL_EVENT_SCHEMA_V2`. -/
def canonicalEventSchemaV2 : String := "codify.worker.event/v2"

/-- `_load_current_attempt`. -/
def loadCurrentAttempt (taskId : Nat) (db : Db) : Option TaskHarnessAttempt :=
  (db.attempts.filter fun a => decide (a.taskId = taskId)).argmax (·.attemptNo)

/-- The answer to an id that exists already. -/
def existingAnswer (env : CommandEnv) (request : CreateRequest) (commandType : CommandType)
    (commandId : String) (existing : TaskHarnessCommand) : CreateStop :=
  if existing.payloadDigest =
      env.canonicalDigest request.taskId existing.attemptId commandType request.payload then
    .answered { commandId, sequenceNo := existing.sequenceNo, outcome := "existing_same" }
  else
    reject commandId "existing_conflict" "command_id already exists with a different payload"

/-- An id that exists is answered from its row. -/
def checkNewId (env : CommandEnv) (request : CreateRequest) (commandType : CommandType)
    (commandId : String) (db : Db) : Except CreateStop Unit :=
  match db.command? commandId with
  | none => .ok ()
  | some existing => .error (existingAnswer env request commandType commandId existing)

/-- The text shown for a gate that is not accepting. -/
def ControlState.text : ControlState → String
  | .disabled => "disabled"
  | .starting => "starting"
  | .accepting => "accepting"
  | .closing => "closing"
  | .closed => "closed"

/-- The row that `create_command` inserts. -/
def newCommand (env : CommandEnv) (request : CreateRequest) (commandType : CommandType)
    (commandId : String) (attempt : TaskHarnessAttempt) (now : DateTime) : TaskHarnessCommand :=
  { commandId
    taskId := request.taskId
    attemptId := attempt.attemptId
    sequenceNo := attempt.nextCommandSequence
    commandType
    payload := request.payload
    payloadDigest :=
      env.canonicalDigest request.taskId attempt.attemptId commandType request.payload
    createdBy := request.createdBy
    createdAt := now }

/-- The checks of the arguments; the normalized id and the type. -/
def checkArguments (request : CreateRequest) : Except CreateStop (String × CommandType) := do
  let commandId ← orStop (normalizeCommandId request.commandId)
    (reject "" "invalid_command_id" "command_id must be a ULID or UUID")
  let commandType ← orStop (CommandType.parse request.commandType)
    (reject commandId "invalid_command_type" "type must be steer or follow_up")
  let text ← orStop (request.payload.get "text").asString
    (reject commandId "invalid_command_type" "payload.text must be a string")
  unlessRejected (isValidCommandText text)
    (reject commandId "payload_too_large"
      "payload.text exceeds the 4000 UTF-16 code unit limit")
  return (commandId, commandType)

/-- The check behind the Task row lock. -/
def checkTask (commandId : String) (status : Option TaskStatus) : Except CreateStop Unit := do
  let status ← orStop status (.raised "unknown task" "task_not_found")
  unlessRejected (status == .running)
    (reject commandId "task_not_running" "task is not RUNNING")

/-- The checks behind the attempt row lock. -/
def checkAttempt (env : CommandEnv) (request : CreateRequest) (commandType : CommandType)
    (commandId : String) (attempt : Option TaskHarnessAttempt) :
    Except CreateStop TaskHarnessAttempt := do
  let attempt ← orStop attempt
    (reject commandId "task_not_running" "no running Harness attempt")
  unlessRejected (attempt.eventSchema == canonicalEventSchemaV2)
    (reject commandId "attempt_mismatch" "attempt is not an exact V2 attempt")
  unlessRejected (env.bundleSupportsCommand request.taskId attempt.harnessKey commandType)
    (reject commandId "unsupported_harness"
      ("frozen Runtime Bundle harness " ++ attempt.harnessKey ++ " does not support " ++
        request.commandType))
  unlessRejected (attempt.controlState == .accepting)
    (reject commandId "control_gate_closed"
      ("control gate is " ++ attempt.controlState.text ++ ", not accepting"))
  return attempt

/-- The commit of a new row: it is there, and the attempt has used its number. -/
def insertCommand (command : TaskHarnessCommand) (db : Db) : Db :=
  let db := db.updateAttempt command.attemptId fun a =>
    { a with nextCommandSequence := command.sequenceNo + 1 }
  { db with commands := db.commands ++ [command] }

/-- The answer of a call that has flushed its row. -/
def created (command : TaskHarnessCommand) : CommandCreateResult :=
  { commandId := command.commandId
    sequenceNo := command.sequenceNo
    created := true
    outcome := "created" }

/-- `create_command`. A racing insert of the same id is answered from the committed row,
    as an insert before the existence check is. -/
def createCommand (env : CommandEnv) (request : CreateRequest) (now : DateTime) (db : Db) :
    Except CreateStop (CommandCreateResult × Db) := do
  let (commandId, commandType) ← checkArguments request
  checkNewId env request commandType commandId db
  checkTask commandId (db.taskStatus request.taskId)
  let attempt ← checkAttempt env request commandType commandId (loadCurrentAttempt request.taskId db)
  let command := newCommand env request commandType commandId attempt now
  return (created command, insertCommand command db)

/-! ### Writers of a Command Row -/

section Writers

variable (command : TaskHarnessCommand)

/-- `begin_command_dispatch`. -/
def beginCommandDispatch (startedAt : DateTime) : Option TaskHarnessCommand :=
  if command.status = .queued then
    some { command with
      status := .dispatching
      dispatchStartedAt := some startedAt
      lastAttemptAt := some startedAt
      deliveryAttempts := command.deliveryAttempts + 1 }
  else none

/-- `mark_command_native_sent`. -/
def markCommandNativeSent (nativeRequestId : Option String) (sentAt : DateTime) :
    Option TaskHarnessCommand :=
  if command.status = .dispatching then
    some { command with nativeRequestId, nativeSentAt := some sentAt }
  else none

/-- `write_command_delivery`. -/
def writeCommandDelivery (deliveredAt : DateTime) : Option TaskHarnessCommand :=
  if command.status = .dispatching then
    some { command with
      status := .delivered
      deliveredAt := some deliveredAt
      lastAttemptAt := some deliveredAt
      nativeAckAt := some deliveredAt }
  else none

/-- `write_command_rejection`. -/
def writeCommandRejection (rejectionCode rejectionMessage : String) (rejectedAt : DateTime) :
    Option TaskHarnessCommand :=
  if command.status.live then
    some { command with
      status := .rejected
      rejectedAt := some rejectedAt
      rejectionCode := some rejectionCode
      rejectionMessage := some rejectionMessage
      lastAttemptAt := some rejectedAt
      nativeAckAt := if command.nativeSentAt.isSome then some rejectedAt else command.nativeAckAt }
  else none

/-- `requeue_pre_send_failure`. -/
def requeuePreSendFailure : Option TaskHarnessCommand :=
  if command.status = .dispatching ∧ command.nativeSentAt = none then
    some { command with status := .queued, dispatchStartedAt := none }
  else none

/-- `write_command_outcome_unknown`. -/
def writeCommandOutcomeUnknown (message : String) (occurredAt : DateTime) :
    Option TaskHarnessCommand :=
  if command.status = .dispatching then
    some { command with
      status := .outcomeUnknown
      outcomeUnknownAt := some occurredAt
      rejectionCode := some "delivery_outcome_unknown"
      rejectionMessage := some message
      lastAttemptAt := some occurredAt }
  else none

end Writers

/-! ### Flushing a Command Object -/

/-- The row after a flush of an object that was loaded as `loaded`. -/
def flushCommand (loaded current row : TaskHarnessCommand) : TaskHarnessCommand :=
  { row with
    status := flushColumn loaded.status current.status row.status
    deliveryAttempts :=
      flushColumn loaded.deliveryAttempts current.deliveryAttempts row.deliveryAttempts
    lastAttemptAt := flushColumn loaded.lastAttemptAt current.lastAttemptAt row.lastAttemptAt
    dispatchStartedAt :=
      flushColumn loaded.dispatchStartedAt current.dispatchStartedAt row.dispatchStartedAt
    nativeRequestId :=
      flushColumn loaded.nativeRequestId current.nativeRequestId row.nativeRequestId
    nativeSentAt := flushColumn loaded.nativeSentAt current.nativeSentAt row.nativeSentAt
    nativeAckAt := flushColumn loaded.nativeAckAt current.nativeAckAt row.nativeAckAt
    outcomeUnknownAt :=
      flushColumn loaded.outcomeUnknownAt current.outcomeUnknownAt row.outcomeUnknownAt
    deliveredAt := flushColumn loaded.deliveredAt current.deliveredAt row.deliveredAt
    rejectedAt := flushColumn loaded.rejectedAt current.rejectedAt row.rejectedAt
    rejectionCode := flushColumn loaded.rejectionCode current.rejectionCode row.rejectionCode
    rejectionMessage :=
      flushColumn loaded.rejectionMessage current.rejectionMessage row.rejectionMessage }

/-- `db.flush()` of one object; `none` is the `IntegrityError` of a violated CHECK. -/
def saveCommand (loaded current : TaskHarnessCommand) (db : Db) : Option Db :=
  let commands :=
    Table.update (·.commandId) loaded.commandId (flushCommand loaded current) db.commands
  if commands.all (·.checks) then some { db with commands } else none

/-- A writer applied to the session's object and flushed. A write that the object's status
    does not allow changes nothing (`false`). -/
def writeThrough (command : TaskHarnessCommand) (written : Option TaskHarnessCommand) (db : Db) :
    Option (Db × TaskHarnessCommand × Bool) :=
  match written with
  | none => some (db, command, false)
  | some current => (saveCommand command current db).map fun db => (db, current, true)

end Codify.Harness.Commands
