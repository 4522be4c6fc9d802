import Codify.Sessions
import Codify.IssueSchedule

/-! # Task Actions

    The four actions of app/api/task_action_routes.py that change a Task:
    `cancel_task`, `override_task_status`, `execute_task` and `reschedule_task`.
    A request loads the Task as an object, without a lock, and validates it.

    * `override_task_status` and `execute_task` then write the object.
    * `reschedule_task` locks the Issue row and verifies the queue window first,
      but it does not read the Task again: it writes the object it validated.
    * `cancel_task` reads the row again with `populate_existing` in both of its
      phases, under the Issue and the Task lock.
-/

namespace Codify.Api

open Codify Codify.Framework Codify.IssueTaskOrder
open Codify.IssueSchedule (rescheduled)

/-- `HTTPException`. -/
structure HttpError where
  statusCode : Nat
  detail : String
  deriving DecidableEq, Repr

/-- `TaskStatus.value`. -/
def statusValue : TaskStatus → String
  | .pending => "pending"
  | .queued => "queued"
  | .running => "running"
  | .completed => "completed"
  | .failed => "failed"
  | .cancelled => "cancelled"

/-! ### Validation -/

variable (task : Task)

/-- `validate_task_status_for_cancel`. -/
def validateTaskStatusForCancel : Except HttpError Unit :=
  if task.status.active then .ok ()
  else .error ⟨400, "Cannot cancel task with status " ++ statusValue task.status⟩

/-- `validate_task_status_for_execute`. -/
def validateTaskStatusForExecute : Except HttpError Unit :=
  if task.status = .pending ∨ task.status = .queued then .ok ()
  else .error ⟨400, "Task must be in PENDING or QUEUED status to execute immediately, current: " ++
    statusValue task.status⟩

/-- `validate_task_status_for_reschedule`. -/
def validateTaskStatusForReschedule : Except HttpError Unit :=
  if ¬(task.status = .pending ∨ task.status = .queued) then
    .error ⟨400, "Task must be in PENDING or QUEUED status to reschedule, current: " ++
      statusValue task.status⟩
  else if task.status = .pending ∧ task.scheduledAt = none then
    .error ⟨400, "Only scheduled or queued tasks can update their scheduled time"⟩
  else .ok ()

/-- `validate_scheduled_datetime_in_future`, on a normalized time. -/
def validateScheduledDatetimeInFuture (now scheduledAt : DateTime) : Except HttpError DateTime :=
  if scheduledAt ≤ now then
    .error ⟨400, "Scheduled datetime must be in the future for manual tasks"⟩
  else .ok scheduledAt

/-- The two values that `override_task_status` accepts. -/
def overrideTarget (requested : String) : Option TaskStatus :=
  if requested = "completed" then some .completed
  else if requested = "failed" then some .failed
  else none

/-- The checks of `override_task_status`, in the order of the source: the new status. -/
def validateOverride (requested : String) (task : Task) : Except HttpError TaskStatus :=
  match overrideTarget requested with
  | none => .error ⟨400, "status must be 'completed' or 'failed'"⟩
  | some newStatus =>
    if ¬(task.status = .completed ∨ task.status = .failed) then
      .error ⟨400, "Can only override completed or failed tasks, current: " ++
        statusValue task.status⟩
    else if task.status = newStatus then
      .error ⟨400, "Task is already " ++ statusValue task.status⟩
    else .ok newStatus

theorem overrideTarget_eq_some {requested : String} {st : TaskStatus}
    (h : overrideTarget requested = some st) : st = .completed ∨ st = .failed := by
  unfold overrideTarget at h
  split at h
  · exact .inl (Option.some.inj h).symm
  · split at h
    · exact .inr (Option.some.inj h).symm
    · cases h

theorem validateOverride_eq_ok {requested : String} {task : Task} {st : TaskStatus}
    (h : validateOverride requested task = .ok st) :
    (task.status = .completed ∧ st = .failed) ∨ (task.status = .failed ∧ st = .completed) := by
  unfold validateOverride at h
  split at h
  · cases h
  next newStatus htarget =>
  split at h
  · cases h
  next hloaded =>
  split at h
  · cases h
  next hne =>
  cases h
  have hloaded := not_not.mp hloaded
  rcases overrideTarget_eq_some htarget with rfl | rfl
  · exact .inr ⟨hloaded.resolve_left hne, rfl⟩
  · exact .inl ⟨hloaded.resolve_right hne, rfl⟩

/-! ### Writes of the Loaded Object -/

/-- `override_task_status`. -/
def overrideTaskStatus (newStatus : TaskStatus) (task : Task) : Task :=
  { task with status := newStatus, isManuallyOverridden := true }

/-- `execute_task`. -/
def executeTask : Task := { task with scheduledAt := none }

section Reschedule

variable (sessionNamespaceFor : String → Option String → String)
variable (snapshots : Nat → Option WorkerSnapshot)

/-- `reschedule_task` from the Issue row lock to the commit, for an object loaded before. The
    window reads the rows that are active in the database, through the session: the Task
    itself enters it as the loaded object. -/
def rescheduleTask (scheduledAt : DateTime) (object : Task) (tasks : List Task) :
    Except OrderError (List Task) := do
  let selected := selectObjects [object] (tasks.filter (·.issueId = object.issueId))
  let (_, repaired) ← ensureIssueOrderIntegrityLocked sessionNamespaceFor snapshots
    object.issueId false selected
  let isActive := fun t : Task => (taskRow? t.id tasks).any (·.status.active)
  let window ← computeScheduleWindow object.issueId (some object.id) (repaired.filter isActive)
  let _ ← checkWindow window scheduledAt
  return flushObjects selected (Table.update Task.id object.id (rescheduled scheduledAt) repaired)
    tasks

variable {sessionNamespaceFor snapshots}

/-- A reschedule commits the repairs of the ordering service and its own write. -/
theorem rescheduleTask_eq_ok {scheduledAt : DateTime} {object : Task} {tasks tasks' : List Task}
    (h : rescheduleTask sessionNamespaceFor snapshots scheduledAt object tasks = .ok tasks') :
    ∃ selected repaired,
      selected = selectObjects [object] (tasks.filter (·.issueId = object.issueId)) ∧
      RepairsOnly selected repaired ∧
      tasks' = flushObjects selected
        (Table.update Task.id object.id (rescheduled scheduledAt) repaired) tasks := by
  simp only [rescheduleTask] at h
  obtain ⟨⟨report, repaired⟩, hensure, h⟩ := bind_eq_ok_iff.mp h
  obtain ⟨window, -, h⟩ := bind_eq_ok_iff.mp h
  obtain ⟨-, -, h⟩ := bind_eq_ok_iff.mp h
  refine ⟨_, repaired, rfl, ensureIssueOrderIntegrityLocked_repairsOnly hensure, ?_⟩
  exact (Except.ok.inj h).symm

end Reschedule

/-! ### Cancellation -/

/-- Phase A of `cancel_task` on the row it locked: a waiting Task ends at once, a RUNNING Task
    records the intent. The flag says whether a container has to be stopped. -/
def cancelPhaseA (now : DateTime) (task : Task) : Except HttpError (Task × Bool) := do
  validateTaskStatusForCancel task
  if task.status = .pending ∨ task.status = .queued then
    return ({ task with
              status := .cancelled
              completedAt := some now
              errorMessage := some "Cancelled by user" }, false)
  else
    return ({ task with cancelRequestedAt := task.cancelRequestedAt.or (some now) }, true)

/-- What `find_task_container`, the stop and the read of the console log replied. -/
inductive ContainerReply where
  /-- `TaskContainerNotFoundError`. -/
  | notFound
  /-- `DockerConnectionsUnavailableError` or `TaskContainerLookupError`. -/
  | unavailable
  /-- Any other exception of the lookup. -/
  | unknown
  /-- The container was found; was it stopped or killed, and was its log read. -/
  | found (stopped logRead : Bool)
  deriving DecidableEq, Repr

/-- The container part of `cancel_task` on the refreshed Task: whether the container is
    confirmed absent, and whether its console log was read. -/
def cancelContainer (reply : ContainerReply) : Except HttpError (Bool × Bool) :=
  let published := (task.containerId.filter (·.trimAscii.toString ≠ "")).isSome
  match reply with
  | .notFound =>
    if task.status = .running ∧ ¬published then
      .error ⟨503, "Cancellation was recorded while the worker container is still " ++
        "starting; the task remains active until startup converges"⟩
    else .ok (true, false)
  | .unavailable =>
    .error ⟨503, "Cancellation could not be confirmed because the worker Docker " ++
      "daemon is unavailable; the task remains active"⟩
  | .unknown =>
    .error ⟨503, "Cancellation could not be confirmed because the worker container " ++
      "state is unknown; the task remains active"⟩
  | .found stopped logRead =>
    if stopped then .ok (false, logRead)
    else
      .error ⟨503,
        "Cancellation could not stop the worker container; the task remains active"⟩

/-- The row written by Phase B of `cancel_task`. -/
def cancelPhaseB (now : DateTime) (containerAbsent logRead : Bool) (task : Task) : Task :=
  let finalized := containerAbsent || logRead || task.rawLogsFinalizedAt.isSome
  { task with
    rawLogsFinalizedAt :=
      if finalized then task.rawLogsFinalizedAt.or (some now) else task.rawLogsFinalizedAt
    containerId := if containerAbsent && finalized then none else task.containerId }

/-- Phase B releases the owner lock of a terminal Task without container reference. -/
def cancelReleases : Bool := task.status.terminal && task.containerId.isNone

theorem cancelPhaseA_eq_ok {now : DateTime} {task task' : Task} {stop : Bool}
    (h : cancelPhaseA now task = .ok (task', stop)) :
    task'.id = task.id ∧ task'.issueId = task.issueId ∧
      task'.issueSequence = task.issueSequence ∧
      ((stop = false ∧ (task.status = .pending ∨ task.status = .queued) ∧
          task'.status = .cancelled) ∨
        (stop = true ∧ task.status = .running ∧ task'.status = .running)) := by
  simp only [cancelPhaseA] at h
  obtain ⟨_, hvalid, h⟩ := bind_eq_ok_iff.mp h
  split at h
  · next hwaiting =>
    cases h
    exact ⟨rfl, rfl, rfl, .inl ⟨rfl, hwaiting, rfl⟩⟩
  · next hwaiting =>
    cases h
    have hrunning : task.status = .running := by
      unfold validateTaskStatusForCancel at hvalid
      split at hvalid
      · next hactive => cases hst : task.status <;> simp_all [TaskStatus.active]
      · cases hvalid
    exact ⟨rfl, rfl, rfl, .inr ⟨rfl, hrunning, hrunning⟩⟩

end Codify.Api
