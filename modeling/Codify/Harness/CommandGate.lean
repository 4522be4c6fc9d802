import Codify.Harness.Commands

/-! # The Control Gate

    The gate transitions of app/core/task_command_gate.py. The gate of an attempt
    opens as `starting`, becomes `accepting` once the bridge answers, is drained
    through `closing` and ends `closed`. A follow-up sent while the gate drains
    keeps it open until Pi reports the native turn (`reopen`), refuses the
    follow-up, or leaves its outcome unknown (`force close`).

    The conditional UPDATEs are functions of the committed row; they join the
    Task, which must be RUNNING. Comparing a nullable column with `None` is
    `IS NULL`, so equality of options is the comparison of the source.
-/

namespace Codify.Harness.Commands

open Codify Codify.Framework

variable (attemptId : String) (a : TaskHarnessAttempt)

def TaskHarnessAttempt.clearPending : TaskHarnessAttempt :=
  { a with
    awaitingFollowUpTurn := false
    pendingFollowUpCommandId := none
    pendingFollowUpNativeId := none }

/-- `begin_control_drain`. -/
def beginControlDrain (db : Db) : Db :=
  db.updateAttempt attemptId fun a =>
    if a.controlState = .accepting ∨ a.controlState = .starting then
      { a with controlState := .closing }
    else a

/-- The WHERE clause of `reopen_control_after_native_turn_start`. -/
def canReopen (commandId nativeId : Option String) (db : Db) (a : TaskHarnessAttempt) : Bool :=
  a.controlState == .closing && a.awaitingFollowUpTurn && !a.forceCloseRequested &&
    a.pendingFollowUpCommandId == commandId && a.pendingFollowUpNativeId == nativeId &&
    db.taskRunning a.taskId

/-- `reopen_control_after_native_turn_start`. -/
def reopenControlAfterNativeTurnStart (commandId nativeId : Option String) (db : Db) : Db :=
  db.updateAttempt attemptId fun a =>
    if canReopen commandId nativeId db a then
      { a.clearPending with controlState := .accepting }
    else a

/-- Reject one command of an attempt that was never sent. -/
def rejectQueued (attemptId reason : String) (now : DateTime) (c : TaskHarnessCommand) :
    TaskHarnessCommand :=
  if c.attemptId = attemptId ∧ c.status = .queued then
    (writeCommandRejection c "control_gate_closed" reason now).getD c
  else c

/-- Terminalize one command of an attempt that is in flight. -/
def abandonDispatching (now : DateTime) (c : TaskHarnessCommand) : TaskHarnessCommand :=
  if c.attemptId = attemptId ∧ c.status = .dispatching then
    (writeCommandOutcomeUnknown c
      "control gate closed before native delivery outcome was known" now).getD c
  else c

/-- The columns that `close_control_gate` writes. -/
def TaskHarnessAttempt.closeGate : TaskHarnessAttempt :=
  { a.clearPending with controlState := .closed, forceCloseRequested := false }

/-- `close_control_gate`. -/
def closeControlGate (attemptId reason : String) (now : DateTime) (db : Db) : Db :=
  ((db.updateAttempt attemptId TaskHarnessAttempt.closeGate).mapCommands
    (rejectQueued attemptId reason now)).mapCommands (abandonDispatching attemptId now)

/-- The attempts whose gate is still open. -/
def TaskHarnessAttempt.gateOpen : Bool :=
  a.controlState == .starting || a.controlState == .accepting || a.controlState == .closing

/-- `close_task_control_gates`. -/
def closeTaskControlGates (taskId : Nat) (reason : String) (now : DateTime) (db : Db) : Db :=
  (db.attempts.filter fun a => decide (a.taskId = taskId) && a.gateOpen).foldl
    (fun db a => closeControlGate a.attemptId reason now db) db

/-- The WHERE clause of `request_force_close_after_unknown_follow_up`. -/
def canForceClose (commandId : String) (nativeId : Option String) (db : Db)
    (a : TaskHarnessAttempt) : Bool :=
  db.taskRunning a.taskId && a.controlState == .closing &&
    a.pendingFollowUpCommandId == some commandId && a.pendingFollowUpNativeId == nativeId

/-- The columns that `request_force_close_after_unknown_follow_up` writes. -/
def TaskHarnessAttempt.forceClose : TaskHarnessAttempt :=
  { a.clearPending with forceCloseRequested := true }

/-- `request_force_close_after_unknown_follow_up`; `none` when no row matches. -/
def requestForceCloseAfterUnknownFollowUp (attemptId commandId : String)
    (nativeId : Option String) (reason : String) (now : DateTime) (db : Db) : Option Db :=
  if (db.attempt? attemptId).any (canForceClose commandId nativeId db) then
    some ((db.updateAttempt attemptId TaskHarnessAttempt.forceClose).mapCommands
      (rejectQueued attemptId reason now))
  else none

end Codify.Harness.Commands
