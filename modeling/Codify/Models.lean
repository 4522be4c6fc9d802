import Mathlib.Data.List.Basic

/-! # Database Rows

    The columns of `tasks` and `issue_execution_locks` (app/models.py) that the
    modelled functions read or write. Identifiers, sequence numbers and lineage
    generations are natural numbers; a timestamp is a naive UTC `datetime`,
    counted in microseconds.
-/

namespace Codify

/-- A naive UTC timestamp in microseconds. -/
abbrev DateTime := Int

/-- `TaskStatus`. -/
inductive TaskStatus where
  | pending
  | queued
  | running
  | completed
  | failed
  | cancelled
  deriving DecidableEq, Repr

namespace TaskStatus

/-- `ACTIVE_STATUSES`. -/
def active : TaskStatus → Bool
  | .pending | .queued | .running => true
  | .completed | .failed | .cancelled => false

/-- `TERMINAL_STATUS_VALUES`. -/
def terminal (st : TaskStatus) : Bool := !st.active

@[simp] theorem terminal_eq_true_iff {st : TaskStatus} :
    st.terminal = true ↔ st.active = false := by
  simp [terminal]

end TaskStatus

/-- `Task.session_mode`. -/
inductive SessionMode where
  | continue
  | fresh
  deriving DecidableEq, Repr

/-- `Task.lineage_projection_reason`. -/
inductive LineageReason where
  | initial
  | inherited
  | fresh
  | legacyNamespaceChange
  deriving DecidableEq, Repr

/-- One row of `tasks`. -/
structure Task where
  id : Nat
  issueId : Nat
  status : TaskStatus := .pending
  sessionMode : SessionMode := .continue
  priority : Int := 0
  scheduledAt : Option DateTime := none
  /-- The turn number within the Issue; NULL only on legacy rows. -/
  issueSequence : Option Nat := none
  projectedHarnessKey : Option String := none
  projectedSessionNamespace : Option String := none
  projectedLineageGeneration : Option Nat := none
  projectedResetTaskId : Option Nat := none
  lineageProjectionReason : Option LineageReason := none
  containerId : Option String := none
  errorMessage : Option String := none
  isManuallyOverridden : Bool := false
  createdAt : DateTime := 0
  startedAt : Option DateTime := none
  completedAt : Option DateTime := none
  cancelRequestedAt : Option DateTime := none
  rawLogsFinalizedAt : Option DateTime := none
  deriving DecidableEq, Repr

/-- One row of `issue_execution_locks`; `issueId` is the primary key. -/
structure IssueExecutionLock where
  issueId : Nat
  taskId : Nat
  deriving DecidableEq, Repr

end Codify
