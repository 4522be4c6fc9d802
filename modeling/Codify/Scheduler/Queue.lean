import Mathlib.Data.List.Lex
import Codify.Sessions

/-! # The Issue Queue and its Lock Table

    * **Locks** (app/core/issue_execution_locks.py): at most one row per Issue,
      inserted with `ON CONFLICT DO NOTHING`; every delete names the pair of
      Issue and owner.
    * **Queue** (app/scheduler.py): `_normalize_illegal_queued_tasks`,
      `_promote_due_heads` and `_get_next_task`, each one SQL statement over the
      committed rows. The legal head of an Issue is its active Task with the
      least sequence number, and only while no active Task lacks one.
-/

namespace Codify.Scheduler

open Codify Codify.Framework List

/-! ### Issue Execution Locks -/

/-- `acquire_issue_execution_lock`: `none` when the Issue is locked already. -/
def acquireIssueExecutionLock (task : Task) (locks : List IssueExecutionLock) :
    Option (List IssueExecutionLock) :=
  if locks.any (·.issueId == task.issueId) then none
  else some (locks ++ [{ issueId := task.issueId, taskId := task.id }])

def deletePairs (pairs locks : List IssueExecutionLock) : List IssueExecutionLock :=
  locks.filter (· ∉ pairs)

/-- `release_issue_execution_lock`. -/
def releaseIssueExecutionLock (issueId ownerTaskId : Nat) (locks : List IssueExecutionLock) :
    List IssueExecutionLock :=
  deletePairs [{ issueId, taskId := ownerTaskId }] locks

/-- The owner is missing, or terminal without a container reference. -/
def isInactive (tasks : List Task) (lock : IssueExecutionLock) : Bool :=
  match taskRow? lock.taskId tasks with
  | none => true
  | some task => task.status.terminal && task.containerId.isNone

/-- The pairs that `cleanup_inactive_issue_execution_locks` observes as stale; its DELETE is a
    later statement. -/
def stalePairs (tasks : List Task) (locks : List IssueExecutionLock) : List IssueExecutionLock :=
  locks.filter (isInactive tasks)

variable {lock : IssueExecutionLock} {locks locks' : List IssueExecutionLock} {task : Task}
  {tasks : List Task}

theorem mem_deletePairs {pairs locks : List IssueExecutionLock} :
    lock ∈ deletePairs pairs locks ↔ lock ∈ locks ∧ lock ∉ pairs := by
  simp [deletePairs]

theorem acquireIssueExecutionLock_eq_some
    (h : acquireIssueExecutionLock task locks = some locks') :
    (∀ lock ∈ locks, lock.issueId ≠ task.issueId) ∧
      locks' = locks ++ [{ issueId := task.issueId, taskId := task.id }] := by
  unfold acquireIssueExecutionLock at h
  split at h
  · cases h
  next hfree =>
  refine ⟨?_, (Option.some.inj h).symm⟩
  intro lock hlock heq
  exact hfree (any_eq_true.mpr ⟨lock, hlock, by simpa using heq⟩)

abbrev LocksUnique (locks : List IssueExecutionLock) : Prop :=
  Table.KeyUnique IssueExecutionLock.issueId locks

theorem LocksUnique.deletePairs (h : LocksUnique locks)
    (pairs : List IssueExecutionLock) : LocksUnique (deletePairs pairs locks) :=
  Table.KeyUnique.filter h _

theorem LocksUnique.acquire
    (h : LocksUnique locks) (hacq : acquireIssueExecutionLock task locks = some locks') :
    LocksUnique locks' := by
  obtain ⟨hfree, rfl⟩ := acquireIssueExecutionLock_eq_some hacq
  exact Table.KeyUnique.append h hfree

theorem terminal_of_mem_stalePairs
    (hunique : Table.KeyUnique Task.id tasks)
    (h : lock ∈ stalePairs tasks locks) (htask : task ∈ tasks)
    (hid : task.id = lock.taskId) :
    task.status.active = false ∧ task.containerId = none := by
  have hrow : taskRow? lock.taskId tasks = some task :=
    hunique.row?_eq_some_iff.mpr ⟨htask, hid⟩
  have hinactive : isInactive tasks lock = true := (mem_filter.mp h).2
  simpa [isInactive, hrow] using hinactive

/-! ### Legal Heads -/

/-- An active Task of the Issue has no sequence number. -/
def hasActiveNullSequence (tasks : List Task) (task : Task) : Bool :=
  tasks.any fun t => t.issueId == task.issueId && t.status.active && t.issueSequence.isNone

/-- `t.issue_sequence < task.issue_sequence`, false when one of them is NULL. -/
def precedes (t task : Task) : Bool :=
  match t.issueSequence, task.issueSequence with
  | some m, some n => m < n
  | _, _ => false

/-- `_has_active_predecessor`. -/
def hasActivePredecessor (tasks : List Task) (task : Task) : Bool :=
  tasks.any fun t => t.issueId == task.issueId && t.status.active && precedes t task

/-- A Task with a sequence number in an Issue without active NULLs and without an active
    predecessor. -/
def isLegalHead (tasks : List Task) (task : Task) : Bool :=
  task.issueSequence.isSome && !hasActiveNullSequence tasks task &&
    !hasActivePredecessor tasks task

/-- Without active predecessor: every Task of the Issue with a smaller number is terminal. -/
theorem terminal_of_precedes {task t : Task}
    (h : hasActivePredecessor tasks task = false) (ht : t ∈ tasks)
    (hissue : t.issueId = task.issueId) (hlt : precedes t task = true) :
    t.status.active = false := by
  simp only [hasActivePredecessor, any_eq_false, Bool.and_eq_true, beq_iff_eq,
    not_and, Bool.not_eq_true] at h
  by_contra hactive
  rw [Bool.not_eq_false] at hactive
  exact absurd hlt (by simp [h t ht ⟨hissue, hactive⟩])

/-! ### Queue Statements -/

/-- `_normalize_illegal_queued_tasks`: a QUEUED Task that is no legal head returns to
    PENDING. -/
def normalizeIllegalQueuedTasks (tasks : List Task) : List Task :=
  tasks.map fun t =>
    if t.status = .queued && !isLegalHead tasks t then { t with status := .pending } else t

/-- What the queue statements read besides the Task rows. -/
structure QueueContext where
  locks : List IssueExecutionLock
  /-- `_running_issues`. -/
  runningIssues : List Nat
  /-- The filter of `v2_only`: the Task's bundle pins the V2 contract. In the other modes every
      Task passes. -/
  bundleAdmitted : Nat → Bool

variable (ctx : QueueContext)

/-- The Issue is neither locked nor blocked in memory, and the bundle is admitted. -/
def QueueContext.isFree (task : Task) : Bool :=
  !(ctx.locks.any (·.issueId == task.issueId)) && !(ctx.runningIssues.contains task.issueId) &&
    ctx.bundleAdmitted task.id

/-- A PENDING Task that `_promote_due_heads` may promote. -/
def isDueHead (now : DateTime) (tasks : List Task) (task : Task) : Bool :=
  task.status = .pending && isLegalHead tasks task && task.scheduledAt.all (· ≤ now) &&
    ctx.isFree task

/-- `_promote_due_heads`. The UPDATE evaluates the conditions again, so of the ids that the
    readiness loop kept only those still eligible are promoted. -/
def promoteDueHeads (now : DateTime) (promotableIds : List Nat) (tasks : List Task) : List Task :=
  tasks.map fun t =>
    if isDueHead ctx now tasks t && promotableIds.contains t.id then
      { t with status := .queued }
    else t

/-- The ORDER BY of `_get_next_task`: priority, scheduled before immediate, earlier time,
    earlier creation, id. -/
def queueKey (task : Task) : List Int :=
  [task.priority, if task.scheduledAt.isSome then 0 else 1, task.scheduledAt.getD 0,
   task.createdAt, task.id]

def isCandidate (tasks : List Task) (task : Task) : Bool :=
  task.status = .queued && isLegalHead tasks task && ctx.isFree task

/-- `_get_next_task`. -/
def getNextTask (tasks : List Task) : Option Task :=
  (tasks.filter (isCandidate ctx tasks)).argmin queueKey

theorem getNextTask_eq_some {ctx : QueueContext}
    (h : getNextTask ctx tasks = some task) :
    task ∈ tasks ∧ isCandidate ctx tasks task = true ∧
      ∀ t ∈ tasks, isCandidate ctx tasks t = true → queueKey task ≤ queueKey t := by
  obtain ⟨hmem, hcandidate⟩ := mem_filter.mp (argmin_mem h)
  refine ⟨hmem, hcandidate, ?_⟩
  intro t ht htc
  have hin : t ∈ tasks.filter (isCandidate ctx tasks) := mem_filter.mpr ⟨ht, htc⟩
  exact not_lt.mp (not_lt_of_mem_argmin hin h)

end Codify.Scheduler
