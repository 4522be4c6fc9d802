import Codify.Scheduler.Queue
import Codify.Scheduler.ReadinessGate

/-! # The Atomic Claim

    The transaction of `_execute_task` (app/scheduler.py) after the readiness
    gate: lock the Issue row, verify the order, read the Task again with
    `populate_existing`, confirm that it is the due legal head, insert the
    IssueExecutionLock and set QUEUED to RUNNING, all in one commit.

    The order check runs on the objects of the session and its repairs are
    flushed with the commit. The Task itself is read again after it, so its own
    repairs are lost and a NULL sequence number is still seen as NULL.
-/

namespace Codify.Scheduler

open Codify Codify.Framework Codify.IssueTaskOrder

/-- `ExecutionPolicyError`. -/
structure ExecutionPolicyError where
  code : String
  message : String
  deriving DecidableEq, Repr

/-- `LEGACY_CONTRACT_NOT_EXECUTABLE`. -/
def legacyContractNotExecutable : String := "legacy_contract_not_executable"

/-- What the claim learns from outside the Task rows. -/
structure ClaimContext where
  /-- `utcnow()`. -/
  now : DateTime
  /-- What `require_task_executable_contract` raised. -/
  policyError : Option ExecutionPolicyError := none
  /-- `usage_limit_exceeded_detail` of what `raise_if_over_limit` raised. -/
  usageLimit : Option Json := none
  /-- `select_task_timeout` resolved a timeout and the commit succeeded. -/
  commits : Bool := true

/-- How the claim transaction ended. -/
inductive ClaimOutcome where
  /-- Nothing was written. -/
  | rolledBack
  /-- The Task was demoted or ended; no lock was taken. -/
  | settled (tasks : List Task)
  /-- The Task is RUNNING and owns the lock of its Issue. -/
  | claimed (tasks : List Task) (locks : List IssueExecutionLock)

/-- `_demote_queued_task`. -/
def demoteQueuedTask (task : Task) : Task := { task with status := .pending }

def startTask (now : DateTime) (task : Task) : Task :=
  { task with status := .running, startedAt := some now }

section Claim

variable (dumps : Json → String)
variable (sessionNamespaceFor : String → Option String → String)
variable (snapshots : Nat → Option WorkerSnapshot)

/-- The rejection of a contract that is not executable: a legacy contract is cancelled, any
    other error fails the Task. -/
def rejectContract (error : ExecutionPolicyError) (now : DateTime) (task : Task) : Task :=
  stopBeforeStart (if error.code = legacyContractNotExecutable then .cancelled else .failed)
    (dumps (.obj
      [("code", .str error.code), ("message", .str error.message), ("action", .str "claim"),
       ("subject", .str (toString task.id))]))
    now task

/-- The commit of the claim transaction: the candidate row is written by `write`, the other
    rows of the session by the flush of their repairs. -/
def commitClaim (selected repaired : List Task) (taskId : Nat) (write : Task → Task)
    (tasks : List Task) : List Task :=
  tasks.map fun r => if r.id = taskId then write r else flushRow selected repaired r

/-- The checks on the Task that was read again, in the order of the source. -/
def settleClaim (ctx : ClaimContext) (task : Task) (commit : (Task → Task) → List Task)
    (tasks : List Task) (locks : List IssueExecutionLock) : ClaimOutcome :=
  if task.issueSequence.isNone then .settled (commit demoteQueuedTask)
  else if task.scheduledAt.any (ctx.now < ·) then .settled (commit demoteQueuedTask)
  else if hasActivePredecessor tasks task then .settled (commit demoteQueuedTask)
  else
    match ctx.policyError, ctx.usageLimit with
    | some error, _ => .settled (commit (rejectContract dumps error ctx.now))
    | none, some detail => .settled (commit (stopBeforeStart .failed (dumps detail) ctx.now))
    | none, none =>
      match acquireIssueExecutionLock task locks with
      | none => .rolledBack
      | some locks' =>
        if ctx.commits then .claimed (commit (startTask ctx.now)) locks' else .rolledBack

/-- The claim transaction of `_execute_task` for the candidate `object` of a session. -/
def claimTask (ctx : ClaimContext) (objects : List Task) (object : Task) (tasks : List Task)
    (locks : List IssueExecutionLock) : ClaimOutcome :=
  let selected := selectObjects objects (tasks.filter (·.issueId = object.issueId))
  match ensureIssueOrderIntegrityLocked sessionNamespaceFor snapshots object.issueId true
      selected with
  | .error _ => .rolledBack
  | .ok (_, repaired) =>
    match taskRow? object.id tasks with
    | none => .rolledBack
    | some task =>
      if task.status ≠ .queued then .rolledBack
      else settleClaim dumps ctx task (commitClaim selected repaired object.id · tasks) tasks locks

variable {dumps sessionNamespaceFor snapshots}

/-- What a committed claim transaction wrote. -/
structure ClaimCommit (objects : List Task) (object : Task) (tasks : List Task) (task : Task)
    (write : Task → Task) (tasks' : List Task) : Prop where
  row : taskRow? object.id tasks = some task
  queued : task.status = .queued
  rows : ∃ selected repaired,
    selected = selectObjects objects (tasks.filter (·.issueId = object.issueId)) ∧
    RepairsOnly selected repaired ∧
    tasks' = commitClaim selected repaired object.id write tasks

variable (dumps sessionNamespaceFor snapshots) in
/-- The transaction rolls back before the checks, or it settles the row it read again. -/
theorem claimTask_cases (ctx : ClaimContext) (objects : List Task) (object : Task)
    (tasks : List Task) (locks : List IssueExecutionLock) :
    claimTask dumps sessionNamespaceFor snapshots ctx objects object tasks locks = .rolledBack ∨
    ∃ task, ∃ commit : (Task → Task) → List Task,
      (∀ write, ClaimCommit objects object tasks task write (commit write)) ∧
      claimTask dumps sessionNamespaceFor snapshots ctx objects object tasks locks =
        settleClaim dumps ctx task commit tasks locks := by
  simp only [claimTask]
  split
  · exact .inl rfl
  next report repaired hensure =>
  split
  · exact .inl rfl
  next task hrow =>
  split
  · exact .inl rfl
  next hqueued =>
  refine .inr ⟨task, _, fun write => ⟨hrow, not_not.mp hqueued, _, repaired, rfl, ?_, rfl⟩, rfl⟩
  exact ensureIssueOrderIntegrityLocked_repairsOnly hensure

/-- A write that ends the attempt: it keeps the identity and the turn of the row and leaves it
    PENDING or terminal. -/
structure SettleWrite (write : Task → Task) : Prop where
  id : ∀ t, (write t).id = t.id
  issueId : ∀ t, (write t).issueId = t.issueId
  sequence : ∀ t, (write t).issueSequence = t.issueSequence
  status : ∀ t, (write t).status = .pending ∨ (write t).status = .failed ∨
    (write t).status = .cancelled

theorem settleWrite_demote : SettleWrite demoteQueuedTask :=
  ⟨fun _ => rfl, fun _ => rfl, fun _ => rfl, fun _ => .inl rfl⟩

theorem settleWrite_usageLimit (message : String) (now : DateTime) :
    SettleWrite (stopBeforeStart .failed message now) :=
  ⟨fun _ => rfl, fun _ => rfl, fun _ => rfl, fun _ => .inr (.inl rfl)⟩

theorem settleWrite_rejectContract (error : ExecutionPolicyError) (now : DateTime) :
    SettleWrite (rejectContract dumps error now) := by
  refine ⟨fun _ => rfl, fun _ => rfl, fun _ => rfl, fun _ => .inr ?_⟩
  simp only [rejectContract, stopBeforeStart]
  by_cases hlegacy : error.code = legacyContractNotExecutable
  · simp [hlegacy]
  · simp [hlegacy]

variable {commit : (Task → Task) → List Task} {ctx : ClaimContext}
  {locks locks' : List IssueExecutionLock} {task object : Task} {tasks tasks' objects : List Task}

theorem settleClaim_eq_settled
    (h : settleClaim dumps ctx task commit tasks locks = .settled tasks') :
    ∃ write, SettleWrite write ∧ tasks' = commit write := by
  unfold settleClaim at h
  split at h
  · exact ⟨_, settleWrite_demote, (ClaimOutcome.settled.inj h).symm⟩
  · split at h
    · exact ⟨_, settleWrite_demote, (ClaimOutcome.settled.inj h).symm⟩
    · split at h
      · exact ⟨_, settleWrite_demote, (ClaimOutcome.settled.inj h).symm⟩
      · split at h
        · exact ⟨_, settleWrite_rejectContract _ _, (ClaimOutcome.settled.inj h).symm⟩
        · exact ⟨_, settleWrite_usageLimit _ _, (ClaimOutcome.settled.inj h).symm⟩
        · split at h
          · cases h
          · split at h <;> cases h

theorem settleClaim_eq_claimed
    (h : settleClaim dumps ctx task commit tasks locks = .claimed tasks' locks') :
    tasks' = commit (startTask ctx.now) ∧ task.issueSequence.isSome = true ∧
      hasActivePredecessor tasks task = false ∧
      acquireIssueExecutionLock task locks = some locks' := by
  unfold settleClaim at h
  split at h
  · cases h
  next hseq =>
  split at h
  · cases h
  · split at h
    · cases h
    · next hpred =>
      split at h
      · cases h
      · cases h
      · split at h
        · cases h
        · next locks'' hacq =>
          split at h
          · obtain ⟨rfl, rfl⟩ := ClaimOutcome.claimed.inj h
            refine ⟨rfl, ?_, by simpa using hpred, hacq⟩
            simpa [Option.isSome_iff_ne_none] using hseq
          · cases h

/-- A claim that took effect: the Task was QUEUED and without active predecessor, its Issue
    was free, and now it is RUNNING and owns the lock. -/
theorem claimTask_eq_claimed
    (h : claimTask dumps sessionNamespaceFor snapshots ctx objects object tasks locks =
      .claimed tasks' locks') :
    ∃ task, ClaimCommit objects object tasks task (startTask ctx.now) tasks' ∧
      task.issueSequence.isSome = true ∧ hasActivePredecessor tasks task = false ∧
      acquireIssueExecutionLock task locks = some locks' := by
  rcases claimTask_cases dumps sessionNamespaceFor snapshots ctx objects object tasks locks
    with hback | hsettle
  · rw [hback] at h
    cases h
  · obtain ⟨task, commit, hcommit, heq⟩ := hsettle
    rw [heq] at h
    obtain ⟨rfl, hseq, hpred, hacq⟩ := settleClaim_eq_claimed h
    exact ⟨task, hcommit _, hseq, hpred, hacq⟩

/-- A claim that settled: the QUEUED Task was demoted to PENDING, or it ended. -/
theorem claimTask_eq_settled
    (h : claimTask dumps sessionNamespaceFor snapshots ctx objects object tasks locks =
      .settled tasks') :
    ∃ task write, ClaimCommit objects object tasks task write tasks' ∧ SettleWrite write := by
  rcases claimTask_cases dumps sessionNamespaceFor snapshots ctx objects object tasks locks
    with hback | hsettle
  · rw [hback] at h
    cases h
  · obtain ⟨task, commit, hcommit, heq⟩ := hsettle
    rw [heq] at h
    obtain ⟨write, hwrite, rfl⟩ := settleClaim_eq_settled h
    exact ⟨task, write, hcommit _, hwrite⟩

end Claim

end Codify.Scheduler
