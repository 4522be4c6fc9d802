import Codify.Framework.Json
import Codify.Sessions

/-! # The Runtime Readiness Gate

    `_apply_runtime_readiness_gate` (app/scheduler.py) runs before the claim, on
    the Task object that `_get_next_task` loaded. It decides from the frozen
    snapshot, the stored readiness and, for V1, a probe; the decision is a
    `GateVerdict`. What it then writes, it writes to the object: no row is
    locked or read again.
-/

namespace Codify.Scheduler

open Codify Codify.Framework

/-! ### Decision -/

/-- `HARNESS_CONTRACT_VERSION_V2`. -/
def harnessContractVersionV2 : String := "codify.worker.harness/v2"

/-- `FAILURE_WORKER_KIT_NOT_FOUND`. -/
def failureWorkerKitNotFound : String := "worker_kit_not_found"

/-- What the gate reads of a `TaskWorkerProfileSnapshot`. -/
structure RuntimeSnapshot where
  /-- `runtime_locator_fingerprint`. -/
  fingerprint : Option String := none
  /-- `runtime_contract_version`. -/
  contractVersion : Option String := none
  /-- `harness_config_snapshot["requested_runtime_contract_version"]`. -/
  requestedContractVersion : Option String := none
  /-- `_frozen_v2_snapshot_is_complete`. -/
  isComplete : Bool := false
  cliSource : Option String := none
  deriving DecidableEq, Repr

/-- `RuntimeReadiness.status`. -/
inductive ReadinessStatus where
  | ready
  | unavailable
  | unknown
  deriving DecidableEq, Repr

/-- What the gate reads of a `RuntimeReadiness`. -/
structure RuntimeReadiness where
  status : ReadinessStatus := .unknown
  failureCode : Option String := none
  failureMessage : Option String := none
  /-- `is_harness_available` for the Harness of the Task. -/
  harnessAvailable : Option Bool := none
  /-- `harness_cli_unavailable_detail` for the Harness of the Task. -/
  harnessDetail : Json := .null

/-- The reply of `run_deterministic_kit_probe`. -/
inductive ProbeReply where
  /-- `RuntimeProbeTransientError`. -/
  | transient
  | outcome (readiness : RuntimeReadiness)

/-- The outcome of the gate for one candidate. -/
inductive GateVerdict where
  /-- The claim may proceed. -/
  | proceed
  /-- Nothing is written; the Task stays as it is until the next cycle. -/
  | leave
  /-- `_park_tasks_for_unavailable_runtime`. -/
  | park
  /-- `_fail_task_for_runtime_check`. -/
  | failRuntimeCheck (failureCode failureMessage : Option String)
  /-- `_fail_task_for_execution_identity`. -/
  | failExecutionIdentity (message : String)
  /-- The failure of `_harness_availability_gate`. -/
  | failHarness (detail : Json)

/-- `_harness_availability_gate`. -/
def harnessAvailabilityGate (snapshot : RuntimeSnapshot) (readiness : RuntimeReadiness) :
    GateVerdict :=
  let requested := (snapshot.requestedContractVersion.filter (· ≠ "")).or snapshot.contractVersion
  if requested ≠ some harnessContractVersionV2 then .proceed
  else if !snapshot.isComplete then
    .failExecutionIdentity "V2 Task snapshot has no complete verified Harness CLI identity"
  else if snapshot.cliSource = some "host_mount" then .proceed
  else if readiness.status ≠ .ready then .proceed
  else if readiness.harnessAvailable = some false then .failHarness readiness.harnessDetail
  else .proceed

/-- A deterministic unavailable conclusion: a missing Kit parks, anything else fails. -/
def unavailableVerdict (readiness : RuntimeReadiness) : GateVerdict :=
  if readiness.failureCode = some failureWorkerKitNotFound then .park
  else .failRuntimeCheck readiness.failureCode readiness.failureMessage

def probeVerdict (snapshot : RuntimeSnapshot) : ProbeReply → GateVerdict
  | .transient => .leave
  | .outcome readiness =>
    match readiness.status with
    | .ready => harnessAvailabilityGate snapshot readiness
    | .unavailable => unavailableVerdict readiness
    | .unknown => .leave

/-- `_apply_runtime_readiness_gate`, up to its writes. -/
def applyRuntimeReadinessGate (snapshot : Option RuntimeSnapshot) (readiness : RuntimeReadiness)
    (probe : ProbeReply) : GateVerdict :=
  match snapshot with
  | none => .proceed
  | some snapshot =>
    let isV2 := snapshot.contractVersion = some harnessContractVersionV2
    if isV2 && !snapshot.isComplete then
      .failExecutionIdentity "V2 Task snapshot has no complete verified Worker Kit/CLI identity"
    else if (snapshot.fingerprint.filter (· ≠ "")).isNone then .proceed
    else if readiness.status = .unavailable then unavailableVerdict readiness
    else if isV2 || readiness.status = .ready then harnessAvailabilityGate snapshot readiness
    else probeVerdict snapshot probe

/-! ### Writes -/

/-- `_park_queued_task`. -/
def parkQueuedTask (task : Task) : Task :=
  if task.status ≠ .queued then task else { task with status := .pending }

/-- The columns of a Task that ends before any container exists. -/
def stopBeforeStart (status : TaskStatus) (message : String) (now : DateTime) (task : Task) :
    Task :=
  { task with
    status
    errorMessage := some message
    completedAt := some now
    rawLogsFinalizedAt := task.rawLogsFinalizedAt.or (some now) }

section Writes

/- `json.dumps`. -/
variable (dumps : Json → String)

/-- `_fail_task_for_runtime_check`. -/
def failTaskForRuntimeCheck (failureCode failureMessage : Option String) (now : DateTime)
    (task : Task) : Task :=
  let text := fun value : Option String => value.elim Json.null Json.str
  stopBeforeStart .failed
    (dumps (.obj
      [("code", .str "worker_runtime_check_failed"),
       ("message", .str "Worker Kit runtime check failed"),
       ("failure_code", text failureCode),
       ("failure_message", text failureMessage)]))
    now task

/-- `_fail_task_for_execution_identity`. -/
def failTaskForExecutionIdentity (message : String) (now : DateTime) (task : Task) : Task :=
  stopBeforeStart .failed
    (dumps (.obj [("code", .str "execution_contract_mismatch"), ("message", .str message)]))
    now task

/-- The columns written by `_harness_availability_gate`; unlike its siblings it keeps an
    earlier completion time and does not finalize the raw logs. -/
def failTaskForHarness (detail : Json) (now : DateTime) (task : Task) : Task :=
  { task with
    status := .failed
    errorMessage := some (String.ofList ((dumps detail).toList.take 1000))
    completedAt := task.completedAt.or (some now) }

/-- The candidate object after the first write of the gate. -/
def gateWrite (verdict : GateVerdict) (now : DateTime) (task : Task) : Task :=
  match verdict with
  | .proceed | .leave => task
  | .park => parkQueuedTask task
  | .failRuntimeCheck code message => failTaskForRuntimeCheck dumps code message now task
  | .failExecutionIdentity message => failTaskForExecutionIdentity dumps message now task
  | .failHarness detail => failTaskForHarness dumps detail now task

variable {dumps} {verdict : GateVerdict} {now : DateTime} {task : Task}

variable (dumps) in
/-- The gate keeps the status of the object, parks a QUEUED object or fails it. -/
theorem gateWrite_status (verdict : GateVerdict) (now : DateTime) (task : Task) :
    (gateWrite dumps verdict now task).status = task.status ∨
      (task.status = .queued ∧ (gateWrite dumps verdict now task).status = .pending) ∨
      (gateWrite dumps verdict now task).status = .failed := by
  cases verdict with
  | proceed => exact .inl rfl
  | leave => exact .inl rfl
  | park =>
    by_cases hqueued : task.status = .queued
    · exact .inr (.inl ⟨hqueued, by simp [gateWrite, parkQueuedTask, hqueued]⟩)
    · exact .inl (by simp [gateWrite, parkQueuedTask, hqueued])
  | failRuntimeCheck code message => exact .inr (.inr rfl)
  | failExecutionIdentity message => exact .inr (.inr rfl)
  | failHarness detail => exact .inr (.inr rfl)

@[simp] theorem gateWrite_id : (gateWrite dumps verdict now task).id = task.id := by
  cases verdict with
  | park =>
    show (parkQueuedTask task).id = task.id
    unfold parkQueuedTask
    split <;> rfl
  | _ => rfl

@[simp] theorem gateWrite_issueSequence :
    (gateWrite dumps verdict now task).issueSequence = task.issueSequence := by
  cases verdict with
  | park =>
    show (parkQueuedTask task).issueSequence = task.issueSequence
    unfold parkQueuedTask
    split <;> rfl
  | _ => rfl

end Writes

end Codify.Scheduler
