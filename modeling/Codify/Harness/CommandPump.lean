import Mathlib.Data.String.Basic
import Codify.Framework.System
import Codify.Harness.CommandGate

/-! # The Command Pump

    `run_pump_cycle` of app/core/worker_command_pump.py. A cycle leases one attempt
    and sends the front of its queue. The dispatch is committed before the
    transport is called; when the transport returns, the same session goes on
    with the attempt and command objects it loaded before that commit
    (`expire_on_commit` is off, and selecting a loaded row again does not
    refresh its object). A cycle is therefore cut into these steps:

    * `pumpCycle`: claim or promote, up to the dispatch commit or to the end;
    * `pumpReply`: record the answer of the transport and go on with the loop;
    * `pumpClose` and `pumpClosed`: the close handshake of a drained gate, when
      it follows a dispatch and no row lock protects it any more.

    Any number of pumps run, with any clock readings (so leases expire at any
    time) and any crashes; the projector's and the lifecycle's gate transitions
    come in between.
-/

namespace Codify.Harness.Commands

open Codify Codify.Framework

/-! ### The Queue Front -/

/-- `_load_head_command`. -/
def loadHeadCommand (taskId : Nat) (attemptId : String) (db : Db) : Option TaskHarnessCommand :=
  (db.commands.filter fun c =>
    decide (c.taskId = taskId) && decide (c.attemptId = attemptId) && c.status.live).argmin
      (·.sequenceNo)

/-! ### Leases -/

section Claim

variable (taskId : Nat) (owner : String) (now : DateTime)

/-- No lease, an expired one, or the pump's own. -/
def leaseFree (a : TaskHarnessAttempt) : Bool :=
  a.commandDispatchExpiresAt.all (fun expires => decide (expires < now)) ||
    a.commandDispatchOwner == some owner

/-- The attempts that `_claim_next_attempt` may lease. -/
def claimable (db : Db) (a : TaskHarnessAttempt) : Bool :=
  decide (a.taskId = taskId) && db.taskRunning taskId &&
    (a.controlState == .accepting || a.controlState == .closing) &&
    (db.commands.any (fun c =>
        decide (c.attemptId = a.attemptId) && decide (c.taskId = taskId) && c.status.live) ||
      (a.controlState == .closing && !a.awaitingFollowUpTurn)) &&
    leaseFree owner now a

/-- The attempts that `_promote_starting_attempt` may probe. -/
def promotable (db : Db) (a : TaskHarnessAttempt) : Bool :=
  decide (a.taskId = taskId) && db.taskRunning taskId && a.controlState == .starting &&
    leaseFree owner now a

/-- `DEFAULT_LEASE_TTL_SECONDS`, in microseconds. -/
def defaultLeaseTtl : Int := 120000000

def TaskHarnessAttempt.lease (a : TaskHarnessAttempt) : TaskHarnessAttempt :=
  { a with
    commandDispatchOwner := some owner
    commandDispatchExpiresAt := some (now + defaultLeaseTtl) }

/-- The first matching attempt that nobody else has locked (`SKIP LOCKED`). -/
def selectAttempt (locked : List String) (eligible : TaskHarnessAttempt → Bool) (db : Db) :
    Option TaskHarnessAttempt :=
  (db.attempts.filter fun a => eligible a && !locked.contains a.attemptId).argmin (·.attemptId)

/-- `_claim_next_attempt`. -/
def claimNextAttempt (locked : List String) (db : Db) : Option (Db × TaskHarnessAttempt) :=
  (selectAttempt locked (claimable taskId owner now db) db).map fun a =>
    (db.updateAttempt a.attemptId (·.lease owner now), a.lease owner now)

/-- The columns written by a probe: the lease and, on an ACK, the gate. -/
def TaskHarnessAttempt.promote (probeAck : Bool) (a : TaskHarnessAttempt) : TaskHarnessAttempt :=
  let a := a.lease owner now
  if probeAck then { a with controlState := .accepting } else a

/-- `_promote_starting_attempt`. -/
def promoteStartingAttempt (locked : List String) (probeAck : Bool) (db : Db) :
    Option (Db × TaskHarnessAttempt) :=
  (selectAttempt locked (promotable taskId owner now db) db).map fun a =>
    (db.updateAttempt a.attemptId (·.promote owner now probeAck), a.promote owner now probeAck)

end Claim

/-! ### Dispatch -/

variable (attempt : TaskHarnessAttempt) (command : TaskHarnessCommand)

/-- `str(1_000_000 + command.sequence_no)`. -/
def nativeRequestIdOf : String := toString (1000000 + command.sequenceNo)

variable (db : Db)

/-- The WHERE clause of the arming UPDATE. -/
def canArm (a : TaskHarnessAttempt) : Bool :=
  a.controlState == .closing && !a.awaitingFollowUpTurn && db.taskRunning a.taskId

def TaskHarnessAttempt.arm (a : TaskHarnessAttempt) : TaskHarnessAttempt :=
  { a with
    awaitingFollowUpTurn := true
    pendingFollowUpCommandId := some command.commandId
    pendingFollowUpNativeId := some (nativeRequestIdOf command) }

/-- Arm the gate for a follow-up that is sent while it drains; `none` when the conditional
    UPDATE misses. The decision to arm reads the session's object, the UPDATE the row. -/
def armFollowUp : Option (Db × TaskHarnessAttempt) :=
  if command.commandType = .followUp ∧ attempt.controlState = .closing then
    if (db.attempt? attempt.attemptId).any (canArm db) then
      some (db.updateAttempt attempt.attemptId (·.arm command), attempt.arm command)
    else none
  else some (db, attempt)

/-- A command between its dispatch commit and its outcome. -/
structure InFlight where
  command : TaskHarnessCommand
  startedAt : DateTime
  /-- The iterations left of `for _ in range(max_commands_per_attempt)`. -/
  budget : Nat

/-- `dispatch_one_command` up to its commit; `none` is `"terminalized"`. -/
def beginDispatch (now : DateTime) (db : Db) :
    Option (Db × TaskHarnessAttempt × TaskHarnessCommand) :=
  match armFollowUp attempt command db with
  | none => none
  | some (db, attempt) =>
    match beginCommandDispatch command now with
    | none => none
    | some claimed => (saveCommand command claimed db).map fun db => (db, attempt, claimed)

/-- `_clear_pending_follow_up`, for a follow-up. -/
def clearPendingFollowUp : Db × TaskHarnessAttempt :=
  if command.commandType = .followUp then
    (db.updateAttempt attempt.attemptId fun a =>
      if a.pendingFollowUpCommandId = some command.commandId then a.clearPending else a,
     attempt.clearPending)
  else (db, attempt)

/-- `_fail_pending_follow_up`, for a follow-up. The native id is the session object's. -/
def failPendingFollowUp (reason : String) (now : DateTime) (db : Db) : Db × TaskHarnessAttempt :=
  if command.commandType = .followUp then
    match requestForceCloseAfterUnknownFollowUp attempt.attemptId command.commandId
        attempt.pendingFollowUpNativeId reason now db with
    | some db => (db, attempt.forceClose)
    | none => (db, attempt)
  else (db, attempt)

/-- Record an unknown outcome and fail the follow-up that waits for it. -/
def recordUnknown (message reason : String) (occurredAt now : DateTime) (db : Db) : Option
    (Db × TaskHarnessAttempt) :=
  match writeThrough command (writeCommandOutcomeUnknown command message occurredAt) db with
  | none => none
  | some (db, _, _) => some (failPendingFollowUp attempt command reason now db)

/-- The loop of `run_pump_cycle`, up to its next dispatch commit (`some`) or its end. -/
def pumpLoop (now : DateTime) :
    Nat → TaskHarnessAttempt → Db → Db × TaskHarnessAttempt × Option InFlight
  | 0, attempt, db => (db, attempt, none)
  | budget + 1, attempt, db =>
    match loadHeadCommand attempt.taskId attempt.attemptId db with
    | none => (db, attempt, none)
    | some head =>
      if head.status = .dispatching then
        -- _recover_dispatching_head: a previous owner died after its durable claim; the row
        -- was just loaded, so its flush cannot violate a constraint
        match recordUnknown attempt head "dispatcher recovery cannot prove native send outcome"
            "dispatcher recovery cannot prove follow-up delivery" now now db with
        | some (db, attempt) => (db, attempt, none)
        | none => (db, attempt, none)
      else
        match beginDispatch attempt head now db with
        | some (db, attempt, claimed) =>
          (db, attempt, some { command := claimed, startedAt := now, budget })
        | none => pumpLoop now budget attempt db

/-! ### Outcomes -/

/-- The `status` of a transport outcome. -/
inductive ReplyStatus where
  | ack
  | reject
  | retry
  /-- `unknown`, or anything unrecognized. -/
  | other
  deriving DecidableEq, Repr

/-- The outcome dict of a transport. -/
structure Answer where
  status : ReplyStatus
  nativeSent : Bool := false
  nativeRequestId : Option String := none
  rejectionCode : Option String := none
  deriving DecidableEq, Repr

/-- How a transport call ends. -/
inductive Reply where
  | raised
  | answered (answer : Answer)
  deriving DecidableEq, Repr

/-- The reply leaves open whether the command was delivered. -/
def Reply.ambiguous : Reply → Bool
  | .raised => true
  | .answered answer => answer.status == .other

/-- What the second half of `dispatch_one_command` leaves. -/
structure Recorded where
  db : Db
  attempt : TaskHarnessAttempt
  /-- The loop goes on: the final status is not `"queued"`. -/
  again : Bool
  requeued : Bool := false

/-- `if outcome.get("native_sent")`: mark the command. -/
def markSent (answer : Answer) (now : DateTime) (command : TaskHarnessCommand) (db : Db) :
    Option (Db × TaskHarnessCommand × Bool) :=
  if answer.nativeSent then
    writeThrough command (markCommandNativeSent command answer.nativeRequestId now) db
  else some (db, command, true)

/-- `outcome.get("rejection_code") or "delivery_outcome_unknown"`. -/
def Answer.code (answer : Answer) : String :=
  match answer.rejectionCode with
  | some code => if code = "" then "delivery_outcome_unknown" else code
  | none => "delivery_outcome_unknown"

/-- Record the status of an answer, after the native-send mark. -/
def recordStatus (startedAt now : DateTime) (answer : Answer) (db : Db) : Option Recorded :=
  match answer.status with
  | .ack =>
    (writeThrough command (writeCommandDelivery command now) db).map fun (db, _, _) =>
      { db, attempt, again := true }
  | .reject =>
    (writeThrough command
      (writeCommandRejection command answer.code "control command rejected by Pi owner" now)
      db).map fun (db, _, _) =>
        let (db, attempt) := clearPendingFollowUp attempt command db
        { db, attempt, again := true }
  | .retry =>
    (writeThrough command (requeuePreSendFailure command) db).map fun (db, _, requeued) =>
      let (db, attempt) := clearPendingFollowUp attempt command db
      { db, attempt, again := false, requeued }
  | .other =>
    -- the occurrence time is the dispatch start, not the time of the answer
    (recordUnknown attempt command "control transport returned an unrecognized outcome"
      "follow-up delivery outcome unknown" startedAt now db).map fun (db, attempt) =>
        { db, attempt, again := true }

/-- `dispatch_one_command` from the transport's return; `none` is an `IntegrityError`, which
    rolls the session back. -/
def recordReply (startedAt now : DateTime) (reply : Reply) (db : Db) : Option Recorded :=
  match reply with
  | .raised =>
    (recordUnknown attempt command "transport exited before reporting dispatch outcome"
      "follow-up transport outcome unknown" now now db).map fun (db, attempt) =>
        { db, attempt, again := true }
  | .answered answer =>
    match markSent answer now command db with
    | none => none
    | some (db, command, sent) =>
      if sent then recordStatus attempt command startedAt now answer db
      else some { db, attempt, again := true }

/-! ### Closing -/

/-- The test before `_close_drained_attempt`: the gate as the session's object has it, the
    queue as committed. -/
def drained : Bool :=
  attempt.controlState == .closing && !attempt.awaitingFollowUpTurn &&
    (loadHeadCommand attempt.taskId attempt.attemptId db).isNone

/-- `_close_drained_attempt` after the ACK: the flush of the session's object. -/
def closeDrainedAttempt : Db :=
  db.updateAttempt attempt.attemptId fun a =>
    { a with
      controlState := flushColumn attempt.controlState .closed a.controlState
      forceCloseRequested :=
        flushColumn attempt.forceCloseRequested false a.forceCloseRequested }

/-! ### The System -/

/-- Where a pump stands. -/
inductive PumpPhase where
  | idle
  /-- The transport holds a command. -/
  | sending (attempt : TaskHarnessAttempt) (flight : InFlight)
  /-- The loop is over; the close test comes next. -/
  | finishing (attempt : TaskHarnessAttempt)
  /-- The close frame is in flight. -/
  | closing (attempt : TaskHarnessAttempt)

/-- What happened to a command: the transport was invoked for it, or it was put back. -/
inductive SendEvent where
  | sent (commandId : String)
  | requeued (commandId : String)
  deriving DecidableEq, Repr

/-- The committed rows, the pumps, and the history of sends (newest first). -/
structure State where
  db : Db := {}
  pumps : Nat → PumpPhase := fun _ => .idle
  history : List SendEvent := []

/-- One transaction of the control plane. -/
inductive Label where
  /-- `create_task_attempt`, for a Task without an attempt. -/
  | createTaskAttempt (attemptId : String) (taskId : Nat) (eventSchema harnessKey : String)
      (controlSupported : Bool)
  /-- The status of a Task changes. -/
  | setTaskStatus (taskId : Nat) (status : TaskStatus)
  | createCommand (request : CreateRequest) (now : DateTime)
  | pumpCycle (pump taskId : Nat) (owner : String) (now : DateTime) (locked : List String)
      (probeAck closeAck : Bool)
  | pumpReply (pump : Nat) (reply : Reply) (now : DateTime)
  | pumpClose (pump : Nat)
  | pumpClosed (pump : Nat) (ack : Bool)
  | crash (pump : Nat)
  | beginControlDrain (attemptId : String)
  | reopenControl (attemptId : String) (commandId nativeId : Option String)
  | closeControlGate (attemptId reason : String) (now : DateTime)
  | closeTaskControlGates (taskId : Nat) (reason : String) (now : DateTime)

def State.setPump (s : State) (pump : Nat) (phase : PumpPhase) : State :=
  { s with pumps := fun q => if q = pump then phase else s.pumps q }

/-- `_claim_next_attempt`, else `_promote_starting_attempt`. -/
def claimOrPromote (taskId : Nat) (owner : String) (now : DateTime) (locked : List String)
    (probeAck : Bool) (db : Db) : Option (Db × TaskHarnessAttempt) :=
  (claimNextAttempt taskId owner now locked db).or
    (promoteStartingAttempt taskId owner now locked probeAck db)

/-- `max_commands_per_attempt`. -/
def maxCommandsPerAttempt : Nat := 8

/-- The loop continues after a claim or a reply: a new command in flight, or the loop is over
    and `atEnd` follows. -/
def State.afterLoop (s : State) (pump : Nat)
    (result : Db × TaskHarnessAttempt × Option InFlight) (atEnd : TaskHarnessAttempt → PumpPhase) :
    State :=
  let (db, attempt, flight) := result
  match flight with
  | some flight =>
    { ({ s with db }).setPump pump (.sending attempt flight) with
      history := .sent flight.command.commandId :: s.history }
  | none => ({ s with db }).setPump pump (atEnd attempt)

/-- The end of a cycle that never committed: the attempt row is still locked, so the close
    handshake is part of the claiming transaction. -/
def closeLocked (closeAck : Bool) (result : Db × TaskHarnessAttempt × Option InFlight) :
    Db × TaskHarnessAttempt × Option InFlight :=
  let (db, attempt, flight) := result
  match flight with
  | some _ => result
  | none =>
    if drained attempt db && closeAck then (closeDrainedAttempt attempt db, attempt, none)
    else result

/-- The transactions of the control plane. -/
def next (env : CommandEnv) (s : State) : Label → Option State
  | .createTaskAttempt attemptId taskId eventSchema harnessKey controlSupported =>
    if s.db.attempts.all (fun a => decide (a.taskId ≠ taskId)) &&
        s.db.attempts.all (fun a => decide (a.attemptId ≠ attemptId)) then
      let attempt : TaskHarnessAttempt :=
        { attemptId, taskId, eventSchema, harnessKey
          controlState := if controlSupported then .starting else .disabled }
      some { s with db := { s.db with attempts := s.db.attempts ++ [attempt] } }
    else none
  | .setTaskStatus taskId status =>
    some { s with db := { s.db with
      taskStatus := fun id => if id = taskId then some status else s.db.taskStatus id } }
  | .createCommand request now =>
    match createCommand env request now s.db with
    | .ok (_, db) => some { s with db }
    | .error _ => none
  | .pumpCycle pump taskId owner now locked probeAck closeAck =>
    match s.pumps pump, claimOrPromote taskId owner now locked probeAck s.db with
    | .idle, some (db, attempt) =>
      some (s.afterLoop pump
        (closeLocked closeAck (pumpLoop now maxCommandsPerAttempt attempt db)) fun _ => .idle)
    | _, _ => none
  | .pumpReply pump reply now =>
    match s.pumps pump with
    | .sending attempt flight =>
      match recordReply attempt flight.command flight.startedAt now reply s.db with
      | none => some (s.setPump pump .idle)
      | some r =>
        let s := if r.requeued then
          { s with history := .requeued flight.command.commandId :: s.history } else s
        some (s.afterLoop pump
          (if r.again then pumpLoop now flight.budget r.attempt r.db else (r.db, r.attempt, none))
          .finishing)
    | _ => none
  | .pumpClose pump =>
    match s.pumps pump with
    | .finishing attempt =>
      some (s.setPump pump (if drained attempt s.db then .closing attempt else .idle))
    | _ => none
  | .pumpClosed pump ack =>
    match s.pumps pump with
    | .closing attempt =>
      some (({ s with db := if ack then closeDrainedAttempt attempt s.db else s.db }).setPump
        pump .idle)
    | _ => none
  | .crash pump => some (s.setPump pump .idle)
  | .beginControlDrain attemptId =>
    some { s with db := beginControlDrain attemptId s.db }
  | .reopenControl attemptId commandId nativeId =>
    some { s with db := reopenControlAfterNativeTurnStart attemptId commandId nativeId s.db }
  | .closeControlGate attemptId reason now =>
    some { s with db := closeControlGate attemptId reason now s.db }
  | .closeTaskControlGates taskId reason now =>
    some { s with db := closeTaskControlGates taskId reason now s.db }

/-- The control plane, from an empty database. -/
def controlPlane (env : CommandEnv) : System State Label where
  init := fun s => s.db.attempts = [] ∧ s.db.commands = [] ∧ s.history = [] ∧
    ∀ pump, s.pumps pump = .idle
  next := next env

end Codify.Harness.Commands
