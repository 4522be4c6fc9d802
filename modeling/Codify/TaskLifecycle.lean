import Codify.Api.TaskActions
import Codify.Scheduler.Claim

/-! # The Life of a Task

    The writers of the Task table as one transition system. Each commit is one
    step, and what a coroutine keeps in memory between two commits is part of
    the state:

    * **Requests**: `create_task_record`, `cancel_task`, `override_task_status`,
      `execute_task` and `reschedule_task`, each with the object it loaded.
    * **Scheduler**: one cycle at a time with one session. The session keeps the
      objects it loaded; a bulk UPDATE also writes the objects of the rows it
      matched (`synchronize_session`).
    * **Workers**: a live worker commits terminal statuses and clears its
      container; its finalizer decides on the release of the Issue lock in one
      statement and deletes the pair in a later one.
    * **Lock cleanup**: observes the stale pairs, then deletes them.

    Timestamps, replies of Docker and of the readiness probe, and the order in
    which coroutines move are chosen by the label.
-/

namespace Codify.TaskLifecycle

open Codify Codify.Framework Codify.IssueTaskOrder Codify.Scheduler Codify.Api
open Codify.IssueSchedule (AppendRequest createTaskRecord rescheduled)

/-! ### State -/

/-- A request between two of its commits. -/
inductive Request where
  /-- `cancel_task` before Phase A. -/
  | cancel (taskId issueId : Nat)
  /-- `cancel_task` of a RUNNING Task after Phase A: the container has to be stopped. -/
  | cancelStop (taskId issueId : Nat)
  /-- `cancel_task` before Phase B. -/
  | cancelFinish (taskId issueId : Nat) (containerAbsent logRead : Bool)
  /-- `override_task_status` with the validated object. -/
  | override (object : Task) (newStatus : TaskStatus)
  /-- `execute_task` with the validated object. -/
  | execute (object : Task)
  /-- `reschedule_task` with the validated object, before the Issue row lock. -/
  | reschedule (object : Task) (scheduledAt : DateTime)
  deriving DecidableEq, Repr

/-- Where the Scheduler cycle is. -/
inductive Stage where
  /-- Between two cycles: no session. -/
  | idle
  /-- Before a candidate is chosen. -/
  | cycle
  /-- The readiness gate runs for the candidate. -/
  | gate (taskId : Nat)
  /-- The candidate is parked; the SELECT of the Tasks with the same Kit is next. -/
  | parkScope (taskId : Nat)
  /-- These Tasks remain to be parked. -/
  | parkOthers (taskIds : List Nat)
  /-- The gate let the candidate pass. -/
  | claim (taskId : Nat)
  deriving DecidableEq, Repr

structure State where
  tasks : List Task := []
  locks : List IssueExecutionLock := []
  /-- `task_worker_profile_snapshots`, by Task id. -/
  snapshots : Nat → Option WorkerSnapshot := fun _ => none
  requests : List Request := []
  stage : Stage := .idle
  /-- The objects of the Scheduler's session. -/
  objects : List Task := []
  /-- `_running_issues`. -/
  runningIssues : List Nat := []
  /-- The Tasks with a live handle in `_worker_tasks`. -/
  workers : List Nat := []
  /-- The pairs that finalizers have decided to release. -/
  releasing : List IssueExecutionLock := []
  /-- The pairs that the lock cleanup has observed as stale. -/
  stale : List IssueExecutionLock := []

/-- What the deployment fixes. -/
structure Env where
  /-- `json.dumps`. -/
  dumps : Json → String
  sessionNamespaceFor : String → Option String → String
  /-- The bundle filter of `v2_only`, by Task id. -/
  bundleAdmitted : Nat → Bool

/-! ### Labels -/

/-- One step of one coroutine. -/
inductive Label where
  /-- `create_task_record`, also for a retry; the id comes from the database sequence. -/
  | append (issueId newId : Nat) (now : DateTime) (request : AppendRequest)
  /-- A request loads and validates its Task. -/
  | openCancel (taskId : Nat)
  | openOverride (taskId : Nat) (requested : String)
  | openExecute (taskId : Nat)
  | openReschedule (taskId : Nat) (now scheduledAt : DateTime)
  /-- The next commit of the request at an index. -/
  | cancelPhaseA (i : Nat) (now : DateTime)
  | cancelContainer (i : Nat) (reply : ContainerReply)
  | cancelPhaseB (i : Nat) (now : DateTime)
  | commitOverride (i : Nat)
  | commitExecute (i : Nat)
  | commitReschedule (i : Nat) (slotFull : Bool)
  /-- A cycle opens its session. -/
  | openCycle
  /-- A plain SELECT of the cycle loads the Task. -/
  | load (taskId : Nat)
  /-- An object that the cycle no longer references is collected. -/
  | forget (taskId : Nat)
  | closeCycle
  | normalize
  | promote (now : DateTime) (promotableIds : List Nat)
  | getNext
  /-- The readiness gate decides and commits its first write. -/
  | gate (snapshot : Option RuntimeSnapshot) (readiness : RuntimeReadiness) (probe : ProbeReply)
      (now : DateTime)
  /-- The SELECT of `_park_other_queued_tasks`: the QUEUED Tasks with a snapshot in scope. -/
  | selectOthers (scope : List Nat)
  | parkOther
  | claim (ctx : ClaimContext)
  /-- A live worker publishes its container. -/
  | publishContainer (taskId : Nat) (containerId : String)
  /-- A live worker commits a terminal status. -/
  | finishWorker (taskId : Nat) (status : TaskStatus)
  /-- A live worker removed its container. -/
  | clearContainer (taskId : Nat)
  /-- The finalizer drops the handle and reads the Task and the lock. -/
  | detachWorker (taskId : Nat)
  /-- The owner-scoped DELETE of a finalizer. -/
  | releaseOwner (i : Nat)
  /-- `_clear_retained_container_reference`. -/
  | clearRetained (taskId : Nat)
  /-- The two statements of `cleanup_inactive_issue_execution_locks`. -/
  | observeStale
  | deleteStale
  /-- `_reconcile_running_state` sets the blocked Issues; any outcome is allowed here. -/
  | reconcile (issues : List Nat)

namespace State

/-! ### Requests -/

section Requests

variable (env : Env) (s : State)

/-- Write one row that the transaction holds locked. -/
def writeRow (taskId : Nat) (f : Task → Task) : List Task := Table.update Task.id taskId f s.tasks

/-- The queue context of the Scheduler's SQL statements. -/
def queueContext : QueueContext :=
  { locks := s.locks, runningIssues := s.runningIssues, bundleAdmitted := env.bundleAdmitted }

/-- `create_task_record`: the repairs of the order check and the new row in one commit. -/
def append (issueId newId : Nat) (now : DateTime) (request : AppendRequest) : Option State :=
  let issueTasks := s.tasks.filter (·.issueId = issueId)
  if (taskRow? newId s.tasks).isSome then none
  else
    match createTaskRecord env.sessionNamespaceFor s.snapshots issueId newId now request
        issueTasks with
    | .error _ => none
    | .ok rows =>
      some { s with
        tasks := flushObjects issueTasks rows s.tasks ++ rows.filter (·.id = newId)
        snapshots := fun id =>
          if id = newId then
            some { harnessKey := some request.harnessKey,
                   endpointFingerprint := request.endpointFingerprint }
          else s.snapshots id }

/-- A validated request starts with the row as it is loaded now. -/
def openRequest (taskId : Nat) (validate : Task → Except HttpError Request) : Option State :=
  match taskRow? taskId s.tasks with
  | none => none
  | some task =>
    match validate task with
    | .error _ => none
    | .ok request => some { s with requests := s.requests ++ [request] }

/-- Phase A of `cancel_task`; a Task that is gone or terminal ends the request. -/
def runCancelPhaseA (i : Nat) (now : DateTime) : Option State :=
  match s.requests[i]? with
  | some (.cancel taskId issueId) =>
    match taskRow? taskId s.tasks with
    | none => some { s with requests := s.requests.eraseIdx i }
    | some task =>
      match Api.cancelPhaseA now task with
      | .error _ => some { s with requests := s.requests.eraseIdx i }
      | .ok (task', stop) =>
        some { s with
          tasks := s.writeRow taskId fun _ => task'
          requests := s.requests.set i
            (if stop then .cancelStop taskId issueId
             else .cancelFinish taskId issueId true false) }
  | _ => none

/-- The container part of `cancel_task`, on the Task as it is refreshed now. -/
def runCancelContainer (i : Nat) (reply : ContainerReply) : Option State :=
  match s.requests[i]? with
  | some (.cancelStop taskId issueId) =>
    match taskRow? taskId s.tasks with
    | none => some { s with requests := s.requests.eraseIdx i }
    | some task =>
      match Api.cancelContainer task reply with
      | .error _ => some { s with requests := s.requests.eraseIdx i }
      | .ok (absent, logRead) =>
        some { s with requests := s.requests.set i (.cancelFinish taskId issueId absent logRead) }
  | _ => none

/-- Phase B of `cancel_task`. -/
def runCancelPhaseB (i : Nat) (now : DateTime) : Option State :=
  match s.requests[i]? with
  | some (.cancelFinish taskId issueId absent logRead) =>
    match taskRow? taskId s.tasks with
    | none => some { s with requests := s.requests.eraseIdx i }
    | some task =>
      let task' := Api.cancelPhaseB now absent logRead task
      some { s with
        tasks := s.writeRow taskId fun _ => task'
        locks := if cancelReleases task' then releaseIssueExecutionLock issueId taskId s.locks
          else s.locks
        requests := s.requests.eraseIdx i }
  | _ => none

/-- The commit of `override_task_status`. -/
def runOverride (i : Nat) : Option State :=
  match s.requests[i]? with
  | some (.override object newStatus) =>
    some { s with
      tasks := s.writeRow object.id (flushTask object (overrideTaskStatus newStatus object))
      requests := s.requests.eraseIdx i }
  | _ => none

/-- The commit of `execute_task`. -/
def runExecute (i : Nat) : Option State :=
  match s.requests[i]? with
  | some (.execute object) =>
    some { s with
      tasks := s.writeRow object.id (flushTask object (executeTask object))
      requests := s.requests.eraseIdx i }
  | _ => none

/-- The transaction of `reschedule_task`; a refused time or a full slot writes nothing. -/
def runReschedule (i : Nat) (slotFull : Bool) : Option State :=
  match s.requests[i]? with
  | some (.reschedule object scheduledAt) =>
    match rescheduleTask env.sessionNamespaceFor s.snapshots scheduledAt object s.tasks with
    | .error _ => some { s with requests := s.requests.eraseIdx i }
    | .ok tasks =>
      some { s with
        tasks := if slotFull then s.tasks else tasks
        requests := s.requests.eraseIdx i }
  | _ => none

end Requests

/-! ### Scheduler Cycle -/

section Cycle

variable (env : Env) (s : State)

/-- The session after a plain SELECT of the given rows. -/
def loadRows (rows : List Task) : List Task :=
  s.objects ++ rows.filter fun r => (taskRow? r.id s.objects).isNone

/-- The cycle is over and its session is closed. -/
def endCycle : State := { s with stage := .idle, objects := [] }

/-- A bulk UPDATE of the status, on the matched rows and on their objects. -/
def updateStatus (status : TaskStatus) (tasks : List Task) : State :=
  let matched := fun id => (taskRow? id tasks).any fun t => (taskRow? id s.tasks).any
    fun t₀ => t₀.status ≠ t.status
  { s with
    tasks
    objects := s.objects.map fun o => if matched o.id then { o with status } else o }

/-- `_get_next_task` and the mutex check of `_run_cycle`. -/
def runGetNext : Option State :=
  match s.stage with
  | .cycle =>
    match getNextTask (s.queueContext env) s.tasks with
    | none => some s.endCycle
    | some task =>
      if s.runningIssues.contains task.issueId then some s.endCycle
      else some { s with stage := .gate task.id, objects := s.loadRows [task] }
  | _ => none

/-- Commit the write of one object of the session. -/
def writeObject (object object' : Task) : State :=
  { s with
    tasks := s.writeRow object.id (flushTask object object')
    objects := Table.update Task.id object.id (fun _ => object') s.objects }

/-- The readiness gate: it decides, commits its first write and ends the cycle unless the
    candidate may be claimed or other Tasks have to be parked. -/
def runGate (verdict : GateVerdict) (now : DateTime) : Option State :=
  match s.stage with
  | .gate taskId =>
    match taskRow? taskId s.objects with
    | none => none
    | some object =>
      match verdict with
      | .proceed => some { s with stage := .claim taskId }
      | .leave => some s.endCycle
      | .park =>
        some { s.writeObject object (parkQueuedTask object) with stage := .parkScope taskId }
      | verdict => some (s.writeObject object (gateWrite env.dumps verdict now object)).endCycle
  | _ => none

/-- The SELECT of `_park_other_queued_tasks`. -/
def runSelectOthers (scope : List Nat) : Option State :=
  match s.stage with
  | .parkScope taskId =>
    let rows := s.tasks.filter fun t => t.status = .queued ∧ t.id ≠ taskId ∧ t.id ∈ scope
    some { s with stage := .parkOthers (rows.map (·.id)), objects := s.loadRows rows }
  | _ => none

/-- `_park_queued_task` on the next of the other Tasks. -/
def runParkOther : Option State :=
  match s.stage with
  | .parkOthers [] => some s.endCycle
  | .parkOthers (taskId :: rest) =>
    match taskRow? taskId s.objects with
    | none => none
    | some object =>
      some { s.writeObject object (parkQueuedTask object) with stage := .parkOthers rest }
  | _ => none

/-- The claim transaction; the sets in memory follow the commit. -/
def runClaim (ctx : ClaimContext) : Option State :=
  match s.stage with
  | .claim taskId =>
    match taskRow? taskId s.objects with
    | none => none
    | some object =>
      match claimTask env.dumps env.sessionNamespaceFor s.snapshots ctx s.objects object s.tasks
          s.locks with
      | .rolledBack => some s.endCycle
      | .settled tasks => some { s with tasks }.endCycle
      | .claimed tasks locks =>
        some { s with
          tasks
          locks
          runningIssues := object.issueId :: s.runningIssues
          workers := taskId :: s.workers }.endCycle
  | _ => none

end Cycle

/-! ### Workers and Lock Cleanup -/

section Workers

variable (s : State)

def workerWrite (taskId : Nat) (enabled : Task → Bool) (f : Task → Task) : Option State :=
  match taskRow? taskId s.tasks with
  | none => none
  | some task =>
    if taskId ∈ s.workers ∧ enabled task then some { s with tasks := s.writeRow taskId f }
    else none

/-- The finalizer of `_run_task_background`, once the row is terminal: it keeps the lock for a
    retained container, and otherwise unblocks the Issue and goes on to release the lock. A
    lock of another Task is left alone. -/
def runDetach (taskId : Nat) : Option State :=
  match taskRow? taskId s.tasks with
  | none => none
  | some task =>
    if taskId ∈ s.workers ∧ task.status.terminal then
      let detached := { s with workers := s.workers.filter (· ≠ taskId) }
      let owned := s.locks.all fun lock => lock.issueId ≠ task.issueId ∨ lock.taskId = taskId
      if !owned then some detached
      else if task.containerId.isSome then
        some { detached with runningIssues := task.issueId :: s.runningIssues }
      else
        some { detached with
          runningIssues := s.runningIssues.filter (· ≠ task.issueId)
          releasing := s.releasing ++ [{ issueId := task.issueId, taskId }] }
    else none

/-- The owner-scoped DELETE that a finalizer decided on. -/
def runReleaseOwner (i : Nat) : Option State :=
  match s.releasing[i]? with
  | none => none
  | some pair =>
    some { s with
      locks := releaseIssueExecutionLock pair.issueId pair.taskId s.locks
      releasing := s.releasing.eraseIdx i }

/-- `_clear_retained_container_reference` of a terminal Task: its lock goes unless another Task
    of the Issue still has a container. -/
def runClearRetained (taskId : Nat) : Option State :=
  match taskRow? taskId s.tasks with
  | none => none
  | some task =>
    if task.status.terminal then
      let blocked := s.tasks.any fun t =>
        t.issueId = task.issueId ∧ t.id ≠ taskId ∧ t.containerId.isSome
      let owns := s.locks.contains { issueId := task.issueId, taskId }
      some { s with
        tasks := s.writeRow taskId ({ · with containerId := none })
        locks := if blocked then s.locks
          else releaseIssueExecutionLock task.issueId taskId s.locks
        runningIssues := if !blocked && owns then s.runningIssues.filter (· ≠ task.issueId)
          else s.runningIssues }
    else none

end Workers

end State

/-! ### The System -/

def step (env : Env) (s : State) : Label → Option State
  | .append issueId newId now request => s.append env issueId newId now request
  | .openCancel taskId => s.openRequest taskId fun task => do
    validateTaskStatusForCancel task
    return .cancel task.id task.issueId
  | .openOverride taskId requested => s.openRequest taskId fun task => do
    let newStatus ← validateOverride requested task
    return .override task newStatus
  | .openExecute taskId => s.openRequest taskId fun task => do
    validateTaskStatusForExecute task
    return .execute task
  | .openReschedule taskId now scheduledAt => s.openRequest taskId fun task => do
    validateTaskStatusForReschedule task
    let scheduledAt ← validateScheduledDatetimeInFuture now scheduledAt
    return .reschedule task scheduledAt
  | .cancelPhaseA i now => s.runCancelPhaseA i now
  | .cancelContainer i reply => s.runCancelContainer i reply
  | .cancelPhaseB i now => s.runCancelPhaseB i now
  | .commitOverride i => s.runOverride i
  | .commitExecute i => s.runExecute i
  | .commitReschedule i slotFull => s.runReschedule env i slotFull
  | .openCycle => if s.stage = .idle then some { s with stage := .cycle, objects := [] } else none
  | .load taskId =>
    match taskRow? taskId s.tasks with
    | none => none
    | some task => if s.stage = .cycle then some { s with objects := s.loadRows [task] } else none
  | .forget taskId =>
    if s.stage = .cycle then some { s with objects := s.objects.filter (·.id ≠ taskId) } else none
  | .closeCycle => if s.stage = .cycle then some s.endCycle else none
  | .normalize =>
    if s.stage = .cycle then
      some (s.updateStatus .pending (normalizeIllegalQueuedTasks s.tasks))
    else none
  | .promote now promotableIds =>
    if s.stage = .cycle then
      some (s.updateStatus .queued
        (promoteDueHeads (s.queueContext env) now promotableIds s.tasks))
    else none
  | .getNext => s.runGetNext env
  | .gate snapshot readiness probe now =>
    s.runGate env (applyRuntimeReadinessGate snapshot readiness probe) now
  | .selectOthers scope => s.runSelectOthers scope
  | .parkOther => s.runParkOther
  | .claim ctx => s.runClaim env ctx
  | .publishContainer taskId containerId =>
    s.workerWrite taskId (·.status = .running) ({ · with containerId := some containerId })
  | .finishWorker taskId status =>
    s.workerWrite taskId (fun t => (t.status = .running || t.status.terminal) && status.terminal)
      ({ · with status })
  | .clearContainer taskId =>
    s.workerWrite taskId (·.status.terminal) ({ · with containerId := none })
  | .detachWorker taskId => s.runDetach taskId
  | .releaseOwner i => s.runReleaseOwner i
  | .clearRetained taskId => s.runClearRetained taskId
  | .observeStale => some { s with stale := stalePairs s.tasks s.locks }
  | .deleteStale => some { s with locks := deletePairs s.stale s.locks, stale := [] }
  | .reconcile issues => some { s with runningIssues := issues }

/-- A database at rest: no request, no cycle and no worker is under way, ids are unique, and an
    Issue has at most one lock. -/
structure AtRest (s : State) : Prop where
  ids : Table.KeyUnique Task.id s.tasks
  locks : LocksUnique s.locks
  requests : s.requests = []
  stage : s.stage = .idle
  objects : s.objects = []
  workers : s.workers = []
  releasing : s.releasing = []
  stale : s.stale = []

/-- The writers of the Task table, from any database at rest. -/
def taskLifecycle (env : Env) : System State Label where
  init := AtRest
  next := step env

/-! ### Concrete Runs -/

def plainEnv : Env where
  dumps := fun _ => ""
  sessionNamespaceFor := fun key _ => key
  bundleAdmitted := fun _ => true

/-- A Task of Issue 7 is appended and promoted. -/
def queuedTask : List Label :=
  [.append 7 1 0 { harnessKey := "claude" }, .openCycle, .promote 1 [1], .closeCycle]

/-- The Scheduler claims the QUEUED candidate of a cycle. -/
def claimNext (now : DateTime) : List Label :=
  [.openCycle, .getNext, .gate none {} .transient now, .claim { now := now }]

theorem atRest_empty : AtRest ({} : State) := by
  refine ⟨?_, ?_, rfl, rfl, rfl, rfl, rfl, rfl⟩
  · exact List.nodup_nil
  · exact List.nodup_nil

end Codify.TaskLifecycle
