import Codify.IssueTaskLineage
import Codify.TaskTransitions

/-! # Writers of the Scheduled Time

    `check_slot_capacity` (app/core/slot_capacity.py) counts the active Tasks in
    the hour of a scheduled time. Three writers call it under the advisory lock
    of the hour, which PostgreSQL keeps until the transaction ends:
    `create_task_record`, `retry_task_record` and `reschedule_task`.

    The module runs these writers, `execute_task` and the status changes of the
    Scheduler and of the workers as one transition system. A transaction is cut
    where another one can commit in between:

    * a request validates the objects it loaded, without a lock;
    * it takes the Issue row lock and prepares its write (`Transaction`);
    * it takes the lock of the slot, counts, and commits.

    Refusals for another reason (an exhausted quota, a missing prompt, a runtime
    that is not ready) are the label `abort`.
-/

namespace Codify.Api.SlotWriters

open Codify Codify.Framework Codify.IssueTaskOrder Codify.Api Codify.TaskLifecycle
open Codify.IssueSchedule (AppendRequest createTaskRecord checkAppendTime newTask rescheduled)
open Codify.IssueTaskLineage (RetryRequest retryTaskRecord retryTask)

/-! ### The Check -/

/-- `SLOT_DURATION_HOURS`, in microseconds. -/
def slotDuration : Int := 3600000000

/-- The start of the hour of `_get_slot_boundaries`. -/
def hourStart (scheduledAt : DateTime) : DateTime := scheduledAt - scheduledAt % slotDuration

/-- The end of the hour of `_get_slot_boundaries`. -/
def hourEnd (scheduledAt : DateTime) : DateTime := hourStart scheduledAt + slotDuration

/-- The settings that the check reads. -/
structure Settings where
  slotMaxTasks : Nat
  slotMaxTasksEnforce : Bool
  deriving DecidableEq, Repr

/-- `SlotCapacityInfo`. -/
structure SlotCapacityInfo where
  hourStart : DateTime
  hourEnd : DateTime
  count : Nat
  max : Nat
  isFull : Bool
  enforce : Bool
  deriving DecidableEq, Repr

/-- The WHERE clause of the count: an active Task scheduled in the hour of `time`. -/
def inSlot (time : DateTime) (task : Task) : Bool :=
  task.status.active &&
    task.scheduledAt.any fun t => decide (hourStart time ≤ t) && decide (t < hourEnd time)

/-- The count of `check_slot_capacity`. -/
def slotCount (time : DateTime) (excludeTaskId : Option Nat) (tasks : List Task) : Nat :=
  tasks.countP fun t => inSlot time t && excludeTaskId.all (t.id != ·)

/-- `check_slot_capacity`, without its lock. -/
def checkSlotCapacity (settings : Settings) (scheduledAt : DateTime)
    (excludeTaskId : Option Nat) (tasks : List Task) : SlotCapacityInfo :=
  let count := slotCount scheduledAt excludeTaskId tasks
  { hourStart := hourStart scheduledAt
    hourEnd := hourEnd scheduledAt
    count
    max := settings.slotMaxTasks
    isFull := decide (0 < settings.slotMaxTasks) && decide (settings.slotMaxTasks ≤ count)
    enforce := settings.slotMaxTasksEnforce }

theorem inSlot_congr {a b : DateTime} (h : hourStart a = hourStart b) : inSlot a = inSlot b := by
  funext t
  unfold inSlot hourEnd
  rw [h]

theorem mem_hour_iff {time t : DateTime} :
    (hourStart time ≤ t ∧ t < hourEnd time) ↔ hourStart t = hourStart time := by
  have hhour : ∀ a b : Int, (a - a % 3600000000 ≤ b ∧ b < a - a % 3600000000 + 3600000000) ↔
      b - b % 3600000000 = a - a % 3600000000 := by
    intro a b
    omega
  exact hhour time t

/-! ### Transactions -/

/-- The write that a transaction has prepared under the Issue row lock. -/
structure Transaction where
  issueId : Nat
  /-- The objects as the session loaded them. -/
  loaded : List Task
  /-- The same objects as the session flushes them. -/
  current : List Task
  /-- The row that the session adds, with its `retry_source_task_id` and its snapshot. -/
  inserted : Option Task := none
  retrySourceTaskId : Option Nat := none
  snapshot : Option WorkerSnapshot := none
  /-- The time whose slot is checked. -/
  scheduledAt : Option DateTime
  excludeTaskId : Option Nat := none
  /-- The Tasks that existed when the request was validated. -/
  checkedIds : List Nat := []

/-- A request between two of its statements. -/
inductive Session where
  /-- `retry_task_record` after its checks, with the source it loaded. -/
  | retry (source : Task) (outputSessionId : Option String) (request : RetryRequest)
      (checkedIds : List Nat)
  /-- `execute_task` with the validated object. -/
  | execute (object : Task)
  /-- `reschedule_task` with the validated object. -/
  | reschedule (object : Task) (scheduledAt : DateTime)
  /-- The Issue row is locked and the queue window was verified. -/
  | ordered (tx : Transaction)
  /-- The slot is locked too. -/
  | slotLocked (tx : Transaction)
  /-- The slot was not full. -/
  | admitted (tx : Transaction)

/-- The database and the requests under way. -/
structure State where
  tasks : List Task := []
  /-- `Task.retry_source_task_id`, by Task id. -/
  retrySources : Nat → Option Nat := fun _ => none
  /-- `task_worker_profile_snapshots`, by Task id. -/
  snapshots : Nat → Option WorkerSnapshot := fun _ => none
  sessions : Nat → Option Session := fun _ => none
  /-- The session that holds the row lock of an Issue. -/
  issueLocks : Nat → Option Nat := fun _ => none
  /-- The session that holds the advisory lock of a slot, by the start of its hour. -/
  slotLocks : DateTime → Option Nat := fun _ => none

/-- What the deployment fixes. -/
structure Env where
  settings : Settings
  sessionNamespaceFor : String → Option String → String

/-- One statement, or one commit, of one request; sessions are numbered. -/
inductive Label where
  /-- `retry_task_record` loads its source, validates it and looks for an active retry. -/
  | openRetry (k : Nat) (now : DateTime) (request : RetryRequest)
      (outputSessionId : Option String)
  | openExecute (k taskId : Nat)
  | openReschedule (k taskId : Nat) (now scheduledAt : DateTime)
  /-- The three writers take the Issue row lock and prepare their write. -/
  | orderCreate (k issueId newId : Nat) (now : DateTime) (request : AppendRequest)
  | orderRetry (k newId : Nat) (now : DateTime)
  | orderReschedule (k : Nat)
  /-- `pg_advisory_xact_lock`. -/
  | lockSlot (k : Nat)
  /-- The count, and the refusal of a full slot. -/
  | countSlot (k : Nat)
  | commit (k : Nat)
  /-- The request fails, and its transaction is rolled back. -/
  | abort (k : Nat)
  /-- A Task ends. -/
  | terminate (taskId : Nat) (status : TaskStatus)
  /-- The Scheduler promotes a PENDING Task, and starts a QUEUED one. -/
  | promote (taskId : Nat)
  | start (taskId : Nat)

/-- `validate_task_status_for_retry`. -/
def validateTaskStatusForRetry (task : Task) : Except HttpError Unit :=
  if task.status = .failed ∨ task.status = .cancelled then .ok ()
  else .error ⟨400, "Cannot retry task with status " ++ statusValue task.status⟩

/-- `reschedule_task` up to its slot check: the objects it selected, and the same objects with
    its write. -/
def rescheduleObjects (sessionNamespaceFor : String → Option String → String)
    (snapshots : Nat → Option WorkerSnapshot) (scheduledAt : DateTime) (object : Task)
    (tasks : List Task) : Except OrderError (List Task × List Task) := do
  let selected := selectObjects [object] (tasks.filter (·.issueId = object.issueId))
  let (_, repaired) ← ensureIssueOrderIntegrityLocked sessionNamespaceFor snapshots
    object.issueId false selected
  let isActive := fun t : Task => (taskRow? t.id tasks).any (·.status.active)
  let window ← computeScheduleWindow object.issueId (some object.id) (repaired.filter isActive)
  let _ ← checkWindow window scheduledAt
  return (selected, Table.update Task.id object.id (rescheduled scheduledAt) repaired)

namespace State

variable (s : State)

/-- The retries of a Task that have not ended. -/
def activeRetries (sourceId : Nat) : List Task :=
  s.tasks.filter fun t => decide (s.retrySources t.id = some sourceId) && t.status.active

def setSession (k : Nat) (session : Session) : State :=
  { s with sessions := fun j => if j = k then some session else s.sessions j }

/-- The transaction ends: its locks are released. -/
def close (k : Nat) : State :=
  { s with
    sessions := fun j => if j = k then none else s.sessions j
    issueLocks := fun i => if s.issueLocks i = some k then none else s.issueLocks i
    slotLocks := fun h => if s.slotLocks h = some k then none else s.slotLocks h }

/-- `SELECT ... FOR UPDATE` on the Issue row, with the write prepared under it. -/
def lockIssue (k : Nat) (tx : Transaction) : Option State :=
  if s.issueLocks tx.issueId = none then
    some { s.setSession k (.ordered tx) with
      issueLocks := fun i => if i = tx.issueId then some k else s.issueLocks i }
  else none

/-- A request starts with the row as it is loaded now. -/
def openSession (k taskId : Nat) (validate : Task → Except HttpError Session) : Option State :=
  match s.sessions k, taskRow? taskId s.tasks with
  | none, some task =>
    match validate task with
    | .ok session => some (s.setSession k session)
    | .error _ => none
  | _, _ => none

/-- The checks of `retry_task_record` before the Issue row lock. -/
def validateRetry (now : DateTime) (request : RetryRequest) (outputSessionId : Option String)
    (source : Task) : Except HttpError Session := do
  validateTaskStatusForRetry source
  match s.activeRetries request.sourceId with
  | existing :: _ =>
    throw ⟨409, "An active retry task (#" ++ toString existing.id ++
      ") already exists for task #" ++ toString request.sourceId⟩
  | [] =>
    match request.scheduledAt with
    | none => return .retry source outputSessionId request (s.tasks.map Task.id)
    | some t =>
      let _ ← validateScheduledDatetimeInFuture now t
      return .retry source outputSessionId request (s.tasks.map Task.id)

section Prepare

variable (env : Env)

/-- `create_task_record` from the Issue row lock to its slot check. -/
def orderCreate (k issueId newId : Nat) (now : DateTime) (request : AppendRequest) :
    Option State :=
  if (s.sessions k).isSome ∨ (taskRow? newId s.tasks).isSome then none
  else
    let loaded := s.tasks.filter (·.issueId = issueId)
    match createTaskRecord env.sessionNamespaceFor s.snapshots issueId newId now request
        loaded with
    | .error _ => none
    | .ok rows =>
      s.lockIssue k
        { issueId
          loaded
          current := rows.filter (·.id ≠ newId)
          inserted := taskRow? newId rows
          snapshot := some { harnessKey := some request.harnessKey,
                             endpointFingerprint := request.endpointFingerprint }
          scheduledAt := request.scheduledAt }

/-- `retry_task_record` from the Issue row lock to its slot check. -/
def orderRetry (k newId : Nat) (now : DateTime) : Option State :=
  match s.sessions k with
  | some (.retry source outputSessionId request checkedIds) =>
    if (taskRow? newId s.tasks).isSome then none
    else
      let loaded := selectObjects [source] (s.tasks.filter (·.issueId = source.issueId))
      match retryTaskRecord env.sessionNamespaceFor s.snapshots source.issueId
          (fun _ => outputSessionId) newId now request source loaded with
      | .error _ => none
      | .ok rows =>
        s.lockIssue k
          { issueId := source.issueId
            loaded
            current := rows.filter (·.id ≠ newId)
            inserted := taskRow? newId rows
            retrySourceTaskId := some source.id
            snapshot := s.snapshots source.id
            scheduledAt := request.scheduledAt
            excludeTaskId := some request.sourceId
            checkedIds }
  | _ => none

/-- `reschedule_task` from the Issue row lock to its slot check. -/
def orderReschedule (k : Nat) : Option State :=
  match s.sessions k with
  | some (.reschedule object scheduledAt) =>
    match rescheduleObjects env.sessionNamespaceFor s.snapshots scheduledAt object s.tasks with
    | .error _ => none
    | .ok (loaded, current) =>
      s.lockIssue k
        { issueId := object.issueId
          loaded
          current
          scheduledAt := some scheduledAt
          excludeTaskId := some object.id }
  | _ => none

/-- The lock of the slot; an unscheduled append does not take it. -/
def lockSlot (k : Nat) : Option State :=
  match s.sessions k with
  | some (.ordered tx) =>
    match tx.scheduledAt with
    | none => none
    | some t =>
      if 0 < env.settings.slotMaxTasks then
        if s.slotLocks (hourStart t) = none then
          some { s.setSession k (.slotLocked tx) with
            slotLocks := fun h => if h = hourStart t then some k else s.slotLocks h }
        else none
      else some (s.setSession k (.slotLocked tx))
  | _ => none

/-- The count; a full slot ends the request with `SLOT_FULL` when the limit is enforced. -/
def countSlot (k : Nat) : Option State :=
  match s.sessions k with
  | some (.slotLocked tx) =>
    match tx.scheduledAt with
    | none => none
    | some t =>
      let info := checkSlotCapacity env.settings t tx.excludeTaskId s.tasks
      if info.isFull && info.enforce then some (s.close k)
      else some (s.setSession k (.admitted tx))
  | _ => none

end Prepare

/-- The flush and the commit of a prepared write; the id of a new row is unique. -/
def commitTransaction (k : Nat) (tx : Transaction) : Option State :=
  let tasks := flushObjects tx.loaded tx.current s.tasks
  match tx.inserted with
  | none => some { s.close k with tasks }
  | some task =>
    if (taskRow? task.id s.tasks).isSome then none
    else
      some { s.close k with
        tasks := tasks ++ [task]
        retrySources := fun id => if id = task.id then tx.retrySourceTaskId else s.retrySources id
        snapshots := fun id => if id = task.id then tx.snapshot else s.snapshots id }

def commit (k : Nat) : Option State :=
  match s.sessions k with
  | some (.execute object) =>
    some { s.close k with
      tasks := Table.update Task.id object.id (flushTask object (executeTask object)) s.tasks }
  | some (.ordered tx) => if tx.scheduledAt = none then s.commitTransaction k tx else none
  | some (.admitted tx) => s.commitTransaction k tx
  | _ => none

def setStatus (taskId : Nat) (enabled : TaskStatus → Bool) (status : TaskStatus) :
    Option State :=
  match taskRow? taskId s.tasks with
  | none => none
  | some task =>
    if enabled task.status then
      some { s with tasks := Table.update Task.id taskId ({ · with status }) s.tasks }
    else none

end State

def step (env : Env) (s : State) : Label → Option State
  | .openRetry k now request outputSessionId =>
    s.openSession k request.sourceId (s.validateRetry now request outputSessionId)
  | .openExecute k taskId => s.openSession k taskId fun task => do
    validateTaskStatusForExecute task
    return .execute task
  | .openReschedule k taskId now scheduledAt => s.openSession k taskId fun task => do
    validateTaskStatusForReschedule task
    let scheduledAt ← validateScheduledDatetimeInFuture now scheduledAt
    return .reschedule task scheduledAt
  | .orderCreate k issueId newId now request => s.orderCreate env k issueId newId now request
  | .orderRetry k newId now => s.orderRetry env k newId now
  | .orderReschedule k => s.orderReschedule env k
  | .lockSlot k => s.lockSlot env k
  | .countSlot k => s.countSlot env k
  | .commit k => s.commit k
  | .abort k => if (s.sessions k).isSome then some (s.close k) else none
  | .terminate taskId status =>
    if status.terminal then s.setStatus taskId (·.active) status else none
  | .promote taskId => s.setStatus taskId (· = .pending) .queued
  | .start taskId => s.setStatus taskId (· = .queued) .running

/-- The writers of `scheduled_at`, from an empty table. -/
def slotWriters (env : Env) : System State Label where
  init := fun s => s = {}
  next := step env

end Codify.Api.SlotWriters
