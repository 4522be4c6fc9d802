import Codify.Framework.System
import Codify.Framework.Table
import Codify.Models

/-! # The CI Failure Collector

    A failed pipeline becomes a run (`receive_gitlab_webhook`,
    app/api/webhook_handler.py). Collectors claim runs and process them one by one
    (`claim_collecting_runs`, `process_ci_failure_run`,
    app/core/ci_failure_collector.py); a run whose gates pass becomes a repair
    Task of the Issue.

    The gates are read one statement at a time, with remote calls in between, and
    the Task is inserted at the end of the same transaction. The module runs any
    number of collectors and webhooks beside the manual creation of Tasks and
    their life. What GitLab answers is the choice of a label: the Issue that a
    pipeline matches, the failed jobs, and whether a later check lets the run go.
-/

namespace Codify.CiRepair

open Codify Codify.Framework

/-! ### Rows -/

abbrev Time := Int

inductive TaskMode where
  | plan
  | execute
  | freeform
  deriving DecidableEq, Repr

inductive TriggerSource where
  | manual
  | ciAutoRepair
  deriving DecidableEq, Repr

/-- The columns of `tasks` that the gates read. -/
structure Task where
  id : Nat
  issueId : Nat
  taskMode : TaskMode
  triggerSource : TriggerSource
  ciFailureRunId : Option Nat
  status : TaskStatus
  createdAt : Time
  completedAt : Option Time := none
  commitSha : Option String := none
  deriving DecidableEq, Repr

/-- `CIFailureRun.status`. -/
inductive RunStatus where
  | collecting
  | collected
  | taskCreated
  | ignored
  | failed
  deriving DecidableEq, Repr

/-- The columns of `ci_failure_runs` that decide what becomes of a run. -/
structure Run where
  id : Nat
  projectId : Nat
  pipelineId : Nat
  status : RunStatus
  repairTaskId : Option Nat := none
  lockedAt : Option Time := none
  deriving DecidableEq, Repr

/-- The columns of `issues` that the gates read. -/
structure Issue where
  id : Nat
  closed : Bool
  ciAutoRepairEnabled : Bool
  deriving DecidableEq, Repr

abbrev runRow? (id : Nat) (rows : List Run) : Option Run := Table.row? Run.id id rows

abbrev taskRow? (id : Nat) (rows : List Task) : Option Task := Table.row? Task.id id rows

abbrev issueRow? (id : Nat) (rows : List Issue) : Option Issue := Table.row? Issue.id id rows

/-- The settings. -/
structure Env where
  ciAutoRepairMaxAttempts : Nat
  /-- `stale_after_seconds`, in microseconds. -/
  staleAfter : Time := 300000000
  /-- The limit of one claim. -/
  limit : Nat := 5

/-! ### Gates -/

/-- `task_delivery_eligible_clause`. -/
def deliveryEligible (t : Task) : Bool :=
  decide (t.taskMode = .execute) || (decide (t.taskMode = .freeform) && t.commitSha.isSome)

/-- A completed manual delivery of an Issue. -/
def manualDelivery (issueId : Nat) (t : Task) : Bool :=
  decide (t.issueId = issueId) && decide (t.triggerSource = .manual) && deliveryEligible t &&
    decide (t.status = .completed)

/-- The end of the last completed manual delivery. -/
def resetAt (issueId : Nat) (tasks : List Task) : Option Time :=
  ((tasks.filter (manualDelivery issueId)).filterMap Task.completedAt).max?

/-- A repair of an Issue that was created after the reset. -/
def attempt (issueId : Nat) (reset : Option Time) (t : Task) : Bool :=
  decide (t.issueId = issueId) && decide (t.triggerSource = .ciAutoRepair) &&
    reset.all (· < t.createdAt)

/-- `_count_ci_auto_repair_attempts`. -/
def countAttempts (issueId : Nat) (tasks : List Task) : Nat :=
  tasks.countP (attempt issueId (resetAt issueId tasks))

/-- An active Task that changes the code of an Issue. -/
def activeTask (issueId : Nat) (t : Task) : Bool :=
  decide (t.issueId = issueId) && decide (t.taskMode ≠ .plan) && t.status.active

/-! ### Sessions -/

/-- How far a run has been processed. -/
inductive Stage where
  /-- The run row is loaded, and then updated: its row is locked. -/
  | loaded
  | flushed
  /-- The Issue is found, open and enabled for repair. -/
  | matched
  /-- The two gates. -/
  | counted
  | cleared
  /-- The jobs are stored. -/
  | collected
  /-- The Issue row is locked. -/
  | ordered
  /-- The Task is inserted, but not committed. -/
  | inserted (task : Task)
  deriving DecidableEq, Repr

/-- A run in the hands of `process_ci_failure_run`. -/
structure Processing where
  /-- The row as it was loaded, and the Tasks that existed then. -/
  run : Run
  known : List Nat
  stage : Stage
  lockedAt : Time
  issueId : Nat
  jobs : List Nat
  /-- The runs of the batch that come after it. -/
  rest : List Nat
  deriving DecidableEq, Repr

/-- A request or a collector between two of its statements. -/
inductive Session where
  /-- `claim_collecting_runs` has selected its runs. -/
  | claiming (ids : List Nat) (now : Time)
  | batch (ids : List Nat)
  | processing (p : Processing)
  /-- A webhook for a pipeline with a settled run, or without a run. -/
  | reopening (run : Run)
  | receiving (projectId pipelineId : Nat)
  /-- `create_task_record` has locked its Issue, and then inserted its Task. -/
  | creating (issueId : Nat)
  | created (issueId taskId : Nat) (mode : TaskMode) (now : Time)
  deriving DecidableEq, Repr

/-- The tables, the sessions, and who holds the lock of a row. -/
structure State where
  tasks : List Task := []
  runs : List Run := []
  issues : List Issue := []
  /-- `ci_failure_jobs`: the run and the job. -/
  jobs : List (Nat × Nat) := []
  sessions : Nat → Option Session := fun _ => none
  runLocks : Nat → Option Nat := fun _ => none
  issueLocks : Nat → Option Nat := fun _ => none

/-- One statement, or the commit, of one session; sessions are numbered. -/
inductive Label where
  | openWebhook (k projectId pipelineId : Nat)
  | openClaim (k : Nat) (now : Time) (ids : List Nat)
  | load (k : Nat)
  | flush (k : Nat) (now : Time)
  /-- The Issue that the pipeline matches, if any. -/
  | matchIssue (k : Nat) (issueId : Option Nat)
  | countAttempts (k : Nat)
  | checkActive (k : Nat)
  | collect (k : Nat) (jobs : List Nat)
  | lockIssue (k : Nat)
  | insertRepair (k taskId : Nat) (now : Time)
  | openCreate (k issueId : Nat)
  | insertManual (k taskId : Nat) (mode : TaskMode) (now : Time)
  /-- The commit; the id of a new run is given by its sequence. -/
  | commit (k newId : Nat)
  /-- A later check lets the run go (`_ignore_run`). -/
  | ignore (k : Nat)
  /-- The processing raises: what it has done so far is committed with `failed`. -/
  | fail (k : Nat)
  /-- The session ends without a commit. -/
  | abort (k : Nat)
  | advanceTask (taskId : Nat)
  | finishTask (taskId : Nat) (status : TaskStatus) (now : Time) (commitSha : Option String)
  deriving DecidableEq, Repr

/-! ### Steps -/

def claimable (cutoff : Time) (run : Run) : Bool :=
  decide (run.status = .collecting) && run.lockedAt.all (· < cutoff)

def repairTask (p : Processing) (taskId : Nat) (now : Time) : Task where
  id := taskId
  issueId := p.issueId
  taskMode := .execute
  triggerSource := .ciAutoRepair
  ciFailureRunId := some p.run.id
  status := .pending
  createdAt := now

def manualTask (issueId taskId : Nat) (mode : TaskMode) (now : Time) : Task where
  id := taskId
  issueId
  taskMode := mode
  triggerSource := .manual
  ciFailureRunId := none
  status := .pending
  createdAt := now

/-- The columns that the end of a run has changed. -/
def endRow (p : Processing) (status : RunStatus) (repairTaskId : Option Nat) (row : Run) : Run where
  id := row.id
  projectId := row.projectId
  pipelineId := row.pipelineId
  status := flushColumn p.run.status status row.status
  repairTaskId := flushColumn p.run.repairTaskId repairTaskId row.repairTaskId
  lockedAt := some p.lockedAt

/-- The columns that a webhook for a settled run has changed. -/
def reopenRow (run row : Run) : Run where
  id := row.id
  projectId := row.projectId
  pipelineId := row.pipelineId
  status := .collecting
  repairTaskId := row.repairTaskId
  lockedAt := flushColumn run.lockedAt none row.lockedAt

/-- The Task that is inserted but not committed. -/
def Processing.task? (p : Processing) : Option Task :=
  match p.stage with
  | .inserted task => some task
  | _ => none

namespace State

variable (s : State)

variable (k : Nat)

def setSession (session : Session) : State :=
  { s with sessions := fun j => if j = k then some session else s.sessions j }

/-- The transaction ends: its locks are released. -/
def close : State :=
  { s with
    sessions := fun j => if j = k then none else s.sessions j
    runLocks := fun r => if s.runLocks r = some k then none else s.runLocks r
    issueLocks := fun i => if s.issueLocks i = some k then none else s.issueLocks i }

variable (p : Processing)

/-- The commit that ends the processing of a run. -/
def endRun (status : RunStatus) (repairTaskId : Option Nat) : State :=
  { s with
    runs := Table.update Run.id p.run.id (endRow p status repairTaskId) s.runs
    jobs := s.jobs ++ p.jobs.map fun job => (p.run.id, job) }

def addTask (task : Task) : Option State :=
  if (taskRow? task.id s.tasks).isSome then none else some { s with tasks := s.tasks ++ [task] }

/-- The run is let go, and the batch goes on. -/
def ignoreRun : State :=
  ((s.endRun p .ignored p.run.repairTaskId).close k).setSession k (.batch p.rest)

/-- A gate lets the run pass to its next stage, or lets it go. -/
def gate (passed : Bool) (stage : Stage) : State :=
  if passed then s.setSession k (.processing { p with stage }) else s.ignoreRun k p

def processing? (stage : Stage) : Option Processing :=
  match s.sessions k with
  | some (.processing p) => if p.stage = stage then some p else none
  | _ => none

/-- The next run of a batch is loaded; one that has its repair already is passed over. -/
def load : Option State :=
  match s.sessions k with
  | some (.batch (id :: rest)) =>
    match runRow? id s.runs with
    | none => some (s.close k)
    | some run =>
      if run.repairTaskId.isSome then some (s.setSession k (.batch rest))
      else some (s.setSession k (.processing
        { run, known := s.tasks.map Task.id, stage := .loaded, lockedAt := 0, issueId := 0,
          jobs := [], rest }))
  | _ => none

/-- What a commit writes; a constraint or a lock may be in its way. -/
def written (newId : Nat) : Session → Option State
  | .claiming ids now =>
    if ids.all fun id => (s.runLocks id).isNone then
      some { s with runs := s.runs.map fun row =>
        if row.id ∈ ids then { row with lockedAt := some now } else row }
    else none
  | .reopening run =>
    if s.runLocks run.id = none then
      some { s with runs := Table.update Run.id run.id (reopenRow run) s.runs }
    else none
  | .receiving projectId pipelineId =>
    if s.runs.any fun r => r.id = newId ∨ (r.projectId = projectId ∧ r.pipelineId = pipelineId) then
      none
    else
      some { s with runs := s.runs ++
        [{ id := newId, projectId, pipelineId, status := .collecting }] }
  | .created issueId taskId mode now => s.addTask (manualTask issueId taskId mode now)
  | .processing p =>
    p.task?.bind fun task => (s.addTask task).map (·.endRun p .taskCreated (some task.id))
  | _ => none

/-- The session after its commit: a claim becomes a batch, a batch goes on. -/
def after : Session → Option Session
  | .claiming ids _ => some (.batch ids)
  | .processing p => some (.batch p.rest)
  | _ => none

def commit (k newId : Nat) : Option State :=
  (s.sessions k).bind fun session =>
    (s.written newId session).map fun t =>
      match after session with
      | some next => (t.close k).setSession k next
      | none => t.close k

/-- The processing raises: what it has inserted is committed, but not noted in the run. -/
def fail : Option State :=
  match s.sessions k with
  | some (.processing p) =>
    match p.stage, p.task? with
    | .loaded, _ => some (s.close k)
    | _, none => some ((s.endRun p .failed p.run.repairTaskId).close k)
    | _, some task => (s.addTask task).map fun t => (t.endRun p .failed p.run.repairTaskId).close k
  | _ => none

/-- One row of `tasks` is changed. -/
def updateTask (taskId : Nat) (f : Task → Option Task) : Option State :=
  (taskRow? taskId s.tasks).bind fun task => (f task).map fun task' =>
    { s with tasks := Table.update Task.id taskId (fun _ => task') s.tasks }

end State

def advance (t : Task) : Option Task :=
  match t.status with
  | .pending => some { t with status := .queued }
  | .queued => some { t with status := .running }
  | _ => none

def finish (status : TaskStatus) (now : Time) (commitSha : Option String) (t : Task) :
    Option Task :=
  if t.status.active && status.terminal then
    some { t with status, completedAt := some now, commitSha }
  else none

def step (env : Env) (s : State) : Label → Option State
  | .openWebhook k projectId pipelineId =>
    if (s.sessions k).isSome then none
    else
      match s.runs.find? fun r => r.projectId = projectId ∧ r.pipelineId = pipelineId with
      | none => some (s.setSession k (.receiving projectId pipelineId))
      | some run =>
        if run.status = .ignored ∨ run.status = .failed then
          some (s.setSession k (.reopening run))
        else some s
  | .openClaim k now ids =>
    if (s.sessions k).isNone ∧ ids.length ≤ env.limit ∧
        ∀ id ∈ ids, (runRow? id s.runs).any (claimable (now - env.staleAfter)) then
      some (s.setSession k (.claiming ids now))
    else none
  | .load k => s.load k
  | .flush k now => (s.processing? k .loaded).bind fun p =>
    if s.runLocks p.run.id = none then
      some { s.setSession k (.processing { p with stage := .flushed, lockedAt := now }) with
        runLocks := fun r => if r = p.run.id then some k else s.runLocks r }
    else none
  | .matchIssue k issueId => (s.processing? k .flushed).map fun p =>
    match issueId.bind fun id => issueRow? id s.issues with
    | none => s.ignoreRun k p
    | some issue =>
      s.gate k { p with issueId := issue.id } (!issue.closed && issue.ciAutoRepairEnabled) .matched
  | .countAttempts k => (s.processing? k .matched).map fun p =>
    s.gate k p (decide (countAttempts p.issueId s.tasks < env.ciAutoRepairMaxAttempts)) .counted
  | .checkActive k => (s.processing? k .counted).map fun p =>
    s.gate k p (!s.tasks.any (activeTask p.issueId)) .cleared
  | .collect k jobs => (s.processing? k .cleared).map fun p =>
    if jobs.any fun job => (p.run.id, job) ∈ s.jobs then s.close k
    else s.setSession k (.processing { p with stage := .collected, jobs })
  | .lockIssue k => (s.processing? k .collected).bind fun p =>
    if s.issueLocks p.issueId = none then
      some { s.setSession k (.processing { p with stage := .ordered }) with
        issueLocks := fun i => if i = p.issueId then some k else s.issueLocks i }
    else none
  | .insertRepair k taskId now => (s.processing? k .ordered).map fun p =>
    s.setSession k (.processing { p with stage := .inserted (repairTask p taskId now) })
  | .openCreate k issueId =>
    if (s.sessions k).isNone ∧ s.issueLocks issueId = none ∧
        (issueRow? issueId s.issues).any fun i => !i.closed then
      some { s.setSession k (.creating issueId) with
        issueLocks := fun i => if i = issueId then some k else s.issueLocks i }
    else none
  | .insertManual k taskId mode now =>
    match s.sessions k with
    | some (.creating issueId) =>
      some (s.setSession k (.created issueId taskId mode now))
    | _ => none
  | .commit k newId => s.commit k newId
  | .ignore k =>
    match s.sessions k with
    | some (.processing p) =>
      if p.stage = .cleared ∨ p.stage = .collected ∨ p.stage = .ordered then
        some (s.ignoreRun k p)
      else none
    | _ => none
  | .fail k => s.fail k
  | .abort k => if (s.sessions k).isSome then some (s.close k) else none
  | .advanceTask taskId => s.updateTask taskId advance
  | .finishTask taskId status now commitSha => s.updateTask taskId (finish status now commitSha)

end Codify.CiRepair
