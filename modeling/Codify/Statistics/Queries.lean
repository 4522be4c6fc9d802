import Codify.Api.TaskActions
import Codify.Framework.Aggregate

/-! # Lifecycle Statistics: Queries

    `app/api/system_statistics_queries.py` on PostgreSQL. Two lists of rows, the
    current ones normalized (`currentTaskBranch`, `currentIssueBranch`) and the
    archived ones, are joined and aggregated. A column that can be NULL is an
    `Option`; a comparison with NULL does not hold.

    The primary keys make a join with a snapshot or a provider a lookup.
    `date_trunc` in the reporting time zone is the argument `calendar` of a trend.
-/

namespace Codify.Statistics

open Codify Codify.Framework Codify.Framework.Aggregate

/-! ### Tables -/

/-- `provider_runtime_snapshot`, when there is one; a key that is absent is null. -/
structure RuntimeSnapshot where
  providerId : Option Int := none
  providerName : Option String := none
  configuredModel : Option String := none
  deriving DecidableEq

/-- One row of `tasks`, with the columns that are reported. -/
structure Task extends Codify.Task where
  projectId : Nat
  providerId : Option Int := none
  providerRuntimeSnapshot : Option RuntimeSnapshot := none
  modelName : Option String := none
  taskMode : String := "execute"
  triggerSource : String := "manual"
  isRetry : Bool := false
  inputTokens : Option Int := none
  outputTokens : Option Int := none
  additions : Int := 0
  deletions : Int := 0
  totalChanges : Int := 0
  changeStatsRecordedAt : Option DateTime := none
  deriving DecidableEq

/-- One row of `issues`. -/
structure Issue where
  id : Nat
  projectId : Nat
  status : String := "open"
  createdAt : DateTime := 0
  mergeRequestIid : Option Nat := none
  mergeRequestUrl : Option String := none
  deriving DecidableEq

/-- One row of `ai_providers`. -/
structure AIProvider where
  id : Int
  name : String
  model : String
  deriving DecidableEq

/-- One row of `task_worker_profile_snapshots`. -/
structure WorkerProfileSnapshot where
  taskId : Nat
  harnessKey : Option String := none
  deriving DecidableEq

/-- One row of `deleted_task_statistics`. -/
structure DeletedTask where
  sourceTaskId : Nat
  sourceIssueId : Nat
  projectId : Nat
  providerId : Option Int := none
  providerName : Option String := none
  providerModel : Option String := none
  harnessKey : Option String := none
  taskMode : Option String := none
  triggerSource : Option String := none
  isRetry : Option Bool := none
  lastStatus : Option String := none
  deletedBeforeTerminal : Option Bool := none
  isManuallyOverridden : Option Bool := none
  createdAt : Option DateTime := none
  scheduledAt : Option DateTime := none
  startedAt : Option DateTime := none
  terminalAt : Option DateTime := none
  inputTokens : Option Int := none
  outputTokens : Option Int := none
  additions : Option Int := none
  deletions : Option Int := none
  totalChanges : Option Int := none
  changeDataAvailable : Option Bool := none
  sourceDeletedAt : DateTime
  deriving DecidableEq

/-- One row of `deleted_issue_statistics`. -/
structure DeletedIssue where
  sourceIssueId : Nat
  projectId : Nat
  createdAt : Option DateTime := none
  lastStatus : Option String := none
  hadMergeRequest : Option Bool := none
  forcedWithActiveTasks : Option Bool := none
  sourceDeletedAt : DateTime
  deriving DecidableEq

/-- The tables that the statistics read. -/
structure Database where
  tasks : List Task
  issues : List Issue
  providers : List AIProvider
  snapshots : List WorkerProfileSnapshot
  deletedTasks : List DeletedTask
  deletedIssues : List DeletedIssue
  deriving DecidableEq

/-- The row of the snapshot that is joined. -/
def Database.snapshotOf (db : Database) (task : Task) : Option WorkerProfileSnapshot :=
  db.snapshots.find? (·.taskId == task.id)

/-- The row of the provider that is joined; a NULL id joins nothing. -/
def Database.providerOf (db : Database) (task : Task) : Option AIProvider :=
  task.providerId.bind fun id => db.providers.find? (·.id == id)

/-! ### Rows -/

/-- `data_state` of a row. -/
inductive DataState where
  | retained
  | deleted
  deriving DecidableEq

/-- One row of `all_task_statistics`. -/
structure TaskRow where
  taskId : Nat
  issueId : Nat
  projectId : Nat
  providerId : Option Int
  providerName : Option String
  providerModel : Option String
  harnessKey : Option String
  taskMode : Option String
  triggerSource : Option String
  isRetry : Option Bool
  status : Option String
  deletedBeforeTerminal : Option Bool
  isManuallyOverridden : Option Bool
  createdAt : Option DateTime
  scheduledAt : Option DateTime
  startedAt : Option DateTime
  terminalAt : Option DateTime
  inputTokens : Option Int
  outputTokens : Option Int
  additions : Option Int
  deletions : Option Int
  totalChanges : Option Int
  changeDataAvailable : Option Bool
  dataState : DataState
  sourceDeletedAt : Option DateTime
  deriving DecidableEq

/-- One row of `all_issue_statistics`. -/
structure IssueRow where
  issueId : Nat
  projectId : Nat
  status : Option String
  createdAt : Option DateTime
  hadMergeRequest : Option Bool
  dataState : DataState
  sourceDeletedAt : Option DateTime
  deriving DecidableEq

/-- `_non_empty`. -/
def nonEmpty (col : Option String) : Bool := col.any (· != "")

/-- `_normalized_current_dimensions`: the provider id. -/
def normProviderId (task : Task) : Option Int :=
  match task.providerRuntimeSnapshot.bind (·.providerId) with
  | some id => some id
  | none => task.providerId

/-- `_normalized_current_dimensions`: the provider name. -/
def normProviderName (task : Task) (provider : Option AIProvider) : Option String :=
  let snapped := task.providerRuntimeSnapshot.bind (·.providerName)
  if nonEmpty snapped then snapped else provider.map (·.name)

/-- `_normalized_current_dimensions`: the provider model. -/
def normProviderModel (task : Task) (provider : Option AIProvider) : Option String :=
  let snapped := task.providerRuntimeSnapshot.bind (·.configuredModel)
  if nonEmpty task.modelName then task.modelName
  else if nonEmpty snapped then snapped
  else provider.map (·.model)

/-- `_normalized_current_dimensions`: the Harness key. -/
def normHarnessKey (task : Task) (snapshot : Option WorkerProfileSnapshot) : Option String :=
  let snapped := snapshot.bind (·.harnessKey)
  if nonEmpty snapped then snapped else task.projectedHarnessKey

def currentTaskRow (db : Database) (task : Task) : TaskRow where
  taskId := task.id
  issueId := task.issueId
  projectId := task.projectId
  providerId := normProviderId task
  providerName := normProviderName task (db.providerOf task)
  providerModel := normProviderModel task (db.providerOf task)
  harnessKey := normHarnessKey task (db.snapshotOf task)
  taskMode := some task.taskMode
  triggerSource := some task.triggerSource
  isRetry := some task.isRetry
  status := some (Api.statusValue task.status)
  deletedBeforeTerminal := some false
  isManuallyOverridden := some task.isManuallyOverridden
  createdAt := some task.createdAt
  scheduledAt := task.scheduledAt
  startedAt := task.startedAt
  terminalAt := task.completedAt
  inputTokens := task.inputTokens
  outputTokens := task.outputTokens
  additions := some task.additions
  deletions := some task.deletions
  totalChanges := some task.totalChanges
  changeDataAvailable := some task.changeStatsRecordedAt.isSome
  dataState := .retained
  sourceDeletedAt := none

def deletedTaskRow (row : DeletedTask) : TaskRow where
  taskId := row.sourceTaskId
  issueId := row.sourceIssueId
  projectId := row.projectId
  providerId := row.providerId
  providerName := row.providerName
  providerModel := row.providerModel
  harnessKey := row.harnessKey
  taskMode := row.taskMode
  triggerSource := row.triggerSource
  isRetry := row.isRetry
  status := row.lastStatus
  deletedBeforeTerminal := row.deletedBeforeTerminal
  isManuallyOverridden := row.isManuallyOverridden
  createdAt := row.createdAt
  scheduledAt := row.scheduledAt
  startedAt := row.startedAt
  terminalAt := row.terminalAt
  inputTokens := row.inputTokens
  outputTokens := row.outputTokens
  additions := row.additions
  deletions := row.deletions
  totalChanges := row.totalChanges
  changeDataAvailable := row.changeDataAvailable
  dataState := .deleted
  sourceDeletedAt := some row.sourceDeletedAt

def currentIssueRow (issue : Issue) : IssueRow where
  issueId := issue.id
  projectId := issue.projectId
  status := some issue.status
  createdAt := some issue.createdAt
  hadMergeRequest := some (issue.mergeRequestIid.isSome || issue.mergeRequestUrl.isSome)
  dataState := .retained
  sourceDeletedAt := none

def deletedIssueRow (row : DeletedIssue) : IssueRow where
  issueId := row.sourceIssueId
  projectId := row.projectId
  status := row.lastStatus
  createdAt := row.createdAt
  hadMergeRequest := row.hadMergeRequest
  dataState := .deleted
  sourceDeletedAt := some row.sourceDeletedAt

/-! ### Filters -/

/-- The parameters of a report. -/
structure Filters where
  projectId : Option Nat := none
  providerId : Option Int := none
  harnessKey : Option String := none
  deriving DecidableEq

/-- The conditions of `_current_task_branch` and `_deleted_task_branch`. -/
def Filters.task (f : Filters) (r : TaskRow) : Bool :=
  f.projectId.all (r.projectId == ·) && f.providerId.all (r.providerId == some ·) &&
    f.harnessKey.all (r.harnessKey == some ·)

/-- The condition of `_current_issue_branch` and `_deleted_issue_branch`. -/
def Filters.issue (f : Filters) (r : IssueRow) : Bool := f.projectId.all (r.projectId == ·)

/-- `build_all_task_statistics_cte` with the data state `all`. -/
def allTasks (db : Database) (f : Filters) : List TaskRow :=
  ((db.tasks.map (currentTaskRow db)) ++ db.deletedTasks.map deletedTaskRow).filter f.task

/-- `build_all_issue_statistics_cte` with the data state `all`. -/
def allIssues (db : Database) (f : Filters) : List IssueRow :=
  (db.issues.map currentIssueRow ++ db.deletedIssues.map deletedIssueRow).filter f.issue

/-! ### Expressions -/

/-- `TERMINAL_TASK_STATUSES`. -/
def terminalTaskStatuses : List String := ["completed", "failed", "cancelled"]

/-- `t.c.status == status`. -/
def hasStatus (status : String) (r : TaskRow) : Bool := r.status == some status

/-- `_token_complete`. -/
def tokenComplete (r : TaskRow) : Bool := r.inputTokens.isSome && r.outputTokens.isSome

/-- `_token_partial`. -/
def tokenPartial (r : TaskRow) : Bool :=
  (r.inputTokens.isSome && r.outputTokens.isNone) || (r.inputTokens.isNone && r.outputTokens.isSome)

/-- `_token_missing`. -/
def tokenMissing (r : TaskRow) : Bool := r.inputTokens.isNone && r.outputTokens.isNone

/-- `_change_available`. -/
def changeAvailable (r : TaskRow) : Bool := r.changeDataAvailable == some true

/-- `_token_eligible`; a NULL flag is not eligible. -/
def tokenEligible (r : TaskRow) : Bool :=
  r.status.any (terminalTaskStatuses.contains ·) && r.startedAt.isSome &&
    r.deletedBeforeTerminal == some false

/-- `_code_eligible`. -/
def codeEligible (r : TaskRow) : Bool :=
  (r.taskMode == some "execute" || r.taskMode == some "freeform") && hasStatus "completed" r &&
    r.deletedBeforeTerminal == some false

/-- `extract(epoch from …)`. -/
def durationSeconds (start stop : DateTime) : ℚ := (stop - start : Int) / 1000000

/-- `task_execution_seconds`. -/
def taskExecutionSeconds (r : TaskRow) : Option ℚ :=
  match r.startedAt, r.terminalAt with
  | some start, some stop => if start ≤ stop then some (durationSeconds start stop) else none
  | _, _ => none

/-- `case((_token_complete, input_tokens))`. -/
def knownInputTokens (r : TaskRow) : Option Int := if tokenComplete r then r.inputTokens else none

/-- `case((_token_complete, output_tokens))`. -/
def knownOutputTokens (r : TaskRow) : Option Int := if tokenComplete r then r.outputTokens else none

/-- `case((_change_available, total_changes))`. -/
def knownTotalChanges (r : TaskRow) : Option Int := if changeAvailable r then r.totalChanges else none

/-! ### Reports -/

/-- What `build_lifetime_task_query` returns. -/
structure LifetimeTasks where
  taskCount : Nat
  deletedTaskCount : Nat
  completed : Nat
  failed : Nat
  cancelled : Nat
  deletedBeforeTerminal : Nat
  knownExecutionSeconds : Option ℚ
  avgExecutionSeconds : Option ℚ
  executionValidSamples : Nat
  knownInputTokens : Option Int
  knownOutputTokens : Option Int
  knownTotalChanges : Option Int
  tokenCompleteSamples : Nat
  tokenPartialSamples : Nat
  tokenMissingSamples : Nat
  tokenEligibleSamples : Nat
  changeAvailableSamples : Nat
  codeEligibleSamples : Nat

/-- `case((data_state == "deleted", task_id))`. -/
def isDeleted (r : TaskRow) : Bool := r.dataState == .deleted

/-- `build_lifetime_task_query`. -/
def lifetimeTasks (rows : List TaskRow) : LifetimeTasks where
  taskCount := rows.length
  deletedTaskCount := countIf isDeleted rows
  completed := countIf (hasStatus "completed") rows
  failed := countIf (hasStatus "failed") rows
  cancelled := countIf (hasStatus "cancelled") rows
  deletedBeforeTerminal := countIf (·.deletedBeforeTerminal == some true) rows
  knownExecutionSeconds := sum taskExecutionSeconds rows
  avgExecutionSeconds := avg taskExecutionSeconds rows
  executionValidSamples := count taskExecutionSeconds rows
  knownInputTokens := sum knownInputTokens rows
  knownOutputTokens := sum knownOutputTokens rows
  knownTotalChanges := sum knownTotalChanges rows
  tokenCompleteSamples := countIf (fun r => tokenEligible r && tokenComplete r) rows
  tokenPartialSamples := countIf (fun r => tokenEligible r && tokenPartial r) rows
  tokenMissingSamples := countIf (fun r => tokenEligible r && tokenMissing r) rows
  tokenEligibleSamples := countIf tokenEligible rows
  changeAvailableSamples := countIf (fun r => codeEligible r && changeAvailable r) rows
  codeEligibleSamples := countIf codeEligible rows

/-- What `build_lifetime_issue_query` returns. -/
structure LifetimeIssues where
  issueCount : Nat
  deletedIssueCount : Nat
  issuesWithMr : Nat

/-- `build_lifetime_issue_query`. -/
def lifetimeIssues (rows : List IssueRow) : LifetimeIssues where
  issueCount := rows.length
  deletedIssueCount := countIf (·.dataState == .deleted) rows
  issuesWithMr := countIf (·.hadMergeRequest == some true) rows

/-- The buckets of a trend. -/
inductive Bucket where
  | day
  | week
  | month
  deriving DecidableEq

/-- `bucket_expression`: the number of the bucket of a time; NULL stays NULL. -/
abbrev Calendar := Bucket → DateTime → Int

/-- `time_col >= since`. -/
def since (bound : Option DateTime) (time : Option DateTime) : Bool :=
  bound.all fun b => time.any (b ≤ ·)

/-- `build_task_created_trend`: the counts by bucket. -/
def taskCreatedTrend (calendar : Calendar) (bucket : Bucket) (bound : Option DateTime)
    (rows : List TaskRow) : Option Int → Option Nat :=
  group (fun r => r.createdAt.map (calendar bucket)) List.length
    (rows.filter fun r => since bound r.createdAt)

/-- One point of the finished trend. -/
structure Finished where
  taskCount : Nat
  completed : Nat
  failed : Nat
  cancelled : Nat
  knownInputTokens : Option Int
  knownOutputTokens : Option Int
  knownTotalChanges : Option Int
  knownExecutionSeconds : Option ℚ

/-- The aggregates of `build_task_finished_trend`. -/
def finished (rows : List TaskRow) : Finished where
  taskCount := rows.length
  completed := countIf (hasStatus "completed") rows
  failed := countIf (hasStatus "failed") rows
  cancelled := countIf (hasStatus "cancelled") rows
  knownInputTokens := sum knownInputTokens rows
  knownOutputTokens := sum knownOutputTokens rows
  knownTotalChanges := sum knownTotalChanges rows
  knownExecutionSeconds := sum taskExecutionSeconds rows

/-- `build_task_finished_trend`. -/
def taskFinishedTrend (calendar : Calendar) (bucket : Bucket) (bound : Option DateTime)
    (rows : List TaskRow) : Option Int → Option Finished :=
  group (fun r => r.terminalAt.map (calendar bucket)) finished
    (rows.filter fun r => r.terminalAt.isSome && since bound r.terminalAt)

/-- `build_issue_created_trend`. -/
def issueCreatedTrend (calendar : Calendar) (bucket : Bucket) (bound : Option DateTime)
    (rows : List IssueRow) : Option Int → Option Nat :=
  group (fun r => r.createdAt.map (calendar bucket)) List.length
    (rows.filter fun r => since bound r.createdAt)

/-- One row of a breakdown, behind its key. -/
structure Breakdown where
  taskCount : Nat
  completed : Nat
  failed : Nat
  cancelled : Nat
  deletedCount : Nat
  knownInputTokens : Option Int
  knownOutputTokens : Option Int
  knownTotalChanges : Option Int

/-- The aggregates of `_breakdown_select`, which the provider breakdown repeats. -/
def breakdown (rows : List TaskRow) : Breakdown where
  taskCount := rows.length
  completed := countIf (hasStatus "completed") rows
  failed := countIf (hasStatus "failed") rows
  cancelled := countIf (hasStatus "cancelled") rows
  deletedCount := countIf isDeleted rows
  knownInputTokens := sum knownInputTokens rows
  knownOutputTokens := sum knownOutputTokens rows
  knownTotalChanges := sum knownTotalChanges rows

/-- `build_project_breakdown`. -/
def projectBreakdown (rows : List TaskRow) : Nat → Option Breakdown :=
  group (·.projectId) breakdown rows

/-- `build_provider_breakdown`. -/
def providerBreakdown (rows : List TaskRow) :
    Option Int × Option String × Option String → Option Breakdown :=
  group (fun r => (r.providerId, r.providerName, r.providerModel)) breakdown rows

/-- `build_harness_breakdown`. -/
def harnessBreakdown (rows : List TaskRow) : Option String → Option Breakdown :=
  group (·.harnessKey) breakdown rows

/-- `build_task_mode_breakdown`. -/
def taskModeBreakdown (rows : List TaskRow) : Option String → Option Breakdown :=
  group (·.taskMode) breakdown rows

end Codify.Statistics
