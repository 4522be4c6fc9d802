import Mathlib.Algebra.Group.Nat.Defs
import Mathlib.Data.List.Sort
import Mathlib.Data.List.MinMax
import Codify.Framework.Bounds
import Codify.Framework.Fallible
import Codify.Models

/-! # Issue Input-Stream Ordering

    The ordering service of app/core/issue_task_order.py. `issueSequence` is the
    turn number within an Issue; all functions here run inside the Issue row
    lock and receive the Issue's Task rows (`issueTasks`) as selected.

    A function that writes columns of the loaded rows returns the rows it wrote.
    Timestamps stay timestamps where the source passes them through
    `isoformat`/`fromisoformat`, which is the identity on naive datetimes.
-/

namespace Codify.IssueTaskOrder

open Codify Codify.Framework List Option

/-! ### Errors -/

/-- The `reason` of an `IssueOrderIntegrityError`. -/
inductive IntegrityReason where
  | sequenceMismatch
  | duplicateSequence
  | activeNullSequence
  | activeTaskMissingSnapshot
  | continueNamespaceChange
  deriving DecidableEq, Repr

/-- `schedule_window_detail`: the `issue_schedule_order_conflict` envelope. -/
structure ScheduleWindowDetail where
  code : String := "issue_schedule_order_conflict"
  message : String := "Scheduled time is outside the current Issue queue window"
  hasValidWindow : Bool
  minScheduledAt : Option DateTime
  minSourceTaskId : Option Nat
  maxScheduledAt : Option DateTime
  maxSourceTaskId : Option Nat
  deriving DecidableEq, Repr

/-- The lineage facts of one Task (`_task_projection`). -/
structure Projection where
  harnessKey : String
  sessionNamespace : String
  generation : Nat
  resetTaskId : Option Nat
  reason : LineageReason
  deriving DecidableEq, Repr

/-- The three exceptions of the ordering service. -/
inductive OrderError where
  /-- `IssueOrderIntegrityError`, code `issue_sequence_repair_required`. -/
  | integrity (issueId : Nat) (reason : IntegrityReason)
  /-- `ScheduleWindowConflict`. -/
  | scheduleWindow (detail : ScheduleWindowDetail)
  /-- `LineageConflict`, code `issue_lineage_conflict`. -/
  | lineage (issueId : Nat) (tailLineage : Projection)
  deriving DecidableEq, Repr

/-! ### Lineage Projections -/

/-- The columns of `TaskWorkerProfileSnapshot` read by the lineage repair. -/
structure WorkerSnapshot where
  harnessKey : Option String
  /-- `model_endpoint_snapshot["fingerprint"]`. -/
  endpointFingerprint : Option String
  deriving DecidableEq, Repr

/-- `LEGACY_NAMESPACE`. -/
def legacyNamespace : String := "legacy"

/-- `_has_full_projection`. -/
def hasFullProjection (task : Task) : Bool :=
  if task.projectedHarnessKey.isNone || task.projectedSessionNamespace.isNone
      || task.projectedLineageGeneration.isNone || task.lineageProjectionReason.isNone then
    false
  else if task.projectedLineageGeneration.any (0 < ·) && task.projectedResetTaskId.isNone then
    -- only the legacy generation 0 may carry a NULL reset
    false
  else
    true

/-- `_task_projection`. -/
def taskProjection (task : Task) : Option Projection :=
  if !hasFullProjection task then
    none
  else
    match task.projectedHarnessKey, task.projectedSessionNamespace,
        task.projectedLineageGeneration, task.lineageProjectionReason with
    | some harnessKey, some sessionNamespace, some generation, some reason =>
      some { harnessKey, sessionNamespace, generation,
             resetTaskId := task.projectedResetTaskId, reason }
    | _, _, _, _ => none

/-- Write the five projection columns of a Task. -/
def setProjection (task : Task) (p : Projection) : Task :=
  { task with
    projectedHarnessKey := some p.harnessKey
    projectedSessionNamespace := some p.sessionNamespace
    projectedLineageGeneration := some p.generation
    projectedResetTaskId := p.resetTaskId
    lineageProjectionReason := some p.reason }

section Repair

/- `session_namespace_for` hashes the harness key and the endpoint fingerprint;
   nothing here depends on which namespace it returns. -/
variable (sessionNamespaceFor : String → Option String → String)
variable (snapshots : Nat → Option WorkerSnapshot)

/-- The harness key and namespace a projection can be derived from: the frozen
    Worker snapshot, or the legacy placeholder for a terminal Task. -/
def derivedLineage (task : Task) : Option (String × String) :=
  let frozen := (snapshots task.id).bind fun s =>
    (s.harnessKey.filter (· != "")).map (·, s.endpointFingerprint)
  match frozen with
  | some (harnessKey, fingerprint) =>
    some (harnessKey, sessionNamespaceFor harnessKey fingerprint)
  | none =>
    if task.status.terminal then some (legacyNamespace, legacyNamespace) else none

/-- The projection that follows `tail`; `none` for an active `continue` Task that
    crosses the tail namespace. -/
def followingProjection (tail : Option Projection) (task : Task)
    (harnessKey sessionNamespace : String) : Option Projection :=
  match tail with
  | none =>
    some { harnessKey, sessionNamespace
           generation := if task.sessionMode = .fresh then 1 else 0
           resetTaskId := if task.sessionMode = .fresh then some task.id else none
           reason := .initial }
  | some tail =>
    if task.sessionMode = .fresh then
      some { harnessKey, sessionNamespace, generation := tail.generation + 1,
             resetTaskId := some task.id, reason := .fresh }
    else if harnessKey = tail.harnessKey ∧ sessionNamespace = tail.sessionNamespace then
      some { harnessKey, sessionNamespace, generation := tail.generation,
             resetTaskId := tail.resetTaskId, reason := .inherited }
    else if task.status.active then
      none
    else
      some { harnessKey, sessionNamespace, generation := tail.generation + 1,
             resetTaskId := some task.id, reason := .legacyNamespaceChange }

/-- The loop of `_repair_lineage_projections`: the number of repaired Tasks and the
    rows, or the reason the Issue is blocked. -/
def repairLoop (tail : Option Projection) (repaired : Nat) :
    List Task → Except IntegrityReason (Nat × List Task)
  | [] => .ok (repaired, [])
  | task :: rest =>
    if hasFullProjection task then do
      let (n, rows) ← repairLoop (taskProjection task) repaired rest
      return (n, task :: rows)
    else
      match derivedLineage sessionNamespaceFor snapshots task with
      | none =>
        if task.status.active then
          .error .activeTaskMissingSnapshot
        else do
          -- a terminal legacy row without snapshot keeps its NULLs and never blocks
          let (n, rows) ← repairLoop tail repaired rest
          return (n, task :: rows)
      | some (harnessKey, sessionNamespace) =>
        match followingProjection tail task harnessKey sessionNamespace with
        | none => .error .continueNamespaceChange
        | some p => do
          let (n, rows) ← repairLoop (some p) (repaired + 1) rest
          return (n, setProjection task p :: rows)

/-- The deterministic `(created_at, id)` order. -/
def createdBefore (a b : Task) : Prop :=
  a.createdAt < b.createdAt ∨ (a.createdAt = b.createdAt ∧ a.id ≤ b.id)

instance (a b : Task) : Decidable (createdBefore a b) :=
  inferInstanceAs (Decidable (_ ∨ _))

/-- `_repair_lineage_projections`. -/
def repairLineageProjections (tasks : List Task) : Except IntegrityReason (Nat × List Task) :=
  repairLoop sessionNamespaceFor snapshots none 0 (tasks.insertionSort createdBefore)

/-! ### Sequence Integrity -/

/-- First pass: a non-NULL sequence that disagrees with the rank, or that was seen
    before, is corruption. -/
def checkRanks (rank : Nat) (seen : List Nat) : List Task → Except IntegrityReason Unit
  | [] => .ok ()
  | task :: rest =>
    match task.issueSequence with
    | none => checkRanks (rank + 1) seen rest
    | some seq =>
      if seq ≠ rank then .error .sequenceMismatch
      else if seq ∈ seen then .error .duplicateSequence
      else checkRanks (rank + 1) (seq :: seen) rest

/-- Backfill NULL sequences with the rank. -/
def repairNullSequences (rank : Nat) : List Task → Nat × List Task
  | [] => (0, [])
  | task :: rest =>
    let (n, rows) := repairNullSequences (rank + 1) rest
    match task.issueSequence with
    | none => (n + 1, { task with issueSequence := some rank } :: rows)
    | some _ => (n, task :: rows)

/-- The report of `ensure_issue_order_integrity_locked`; a blocked Issue raises, so
    `blocked` is always false and left out. -/
structure IntegrityReport where
  repairedSequences : Nat
  repairedProjections : Nat
  maxSequence : Nat
  tailProjection : Option Projection
  deriving DecidableEq, Repr

/-- `max((t.issue_sequence ...), default=0)`. -/
def maxSequence (tasks : List Task) : Nat :=
  (tasks.filterMap (·.issueSequence)).foldl max 0

/-- `max(tasks, key=lambda t: (t.issue_sequence or 0))`. -/
def tailTask (tasks : List Task) : Option Task :=
  tasks.argmax fun t => t.issueSequence.getD 0

/-- The sequence pass: ranks are checked, then NULLs are repaired or, for an active
    Task, refused. -/
def ensureSequences (repairNulls : Bool) (tasks : List Task) :
    Except IntegrityReason (Nat × List Task) := do
  checkRanks 1 [] tasks
  if repairNulls then
    return repairNullSequences 1 tasks
  else if tasks.any fun t => t.issueSequence.isNone && t.status.active then
    throw .activeNullSequence
  else
    return (0, tasks)

/-- `ensure_issue_order_integrity_locked`: the report and the rows as written. -/
def ensureIssueOrderIntegrityLocked (issueId : Nat) (repairNulls : Bool)
    (issueTasks : List Task) : Except OrderError (IntegrityReport × List Task) :=
  let tasks := issueTasks.insertionSort createdBefore
  if tasks.isEmpty then
    .ok ({ repairedSequences := 0, repairedProjections := 0, maxSequence := 0,
           tailProjection := none }, [])
  else do
    let (repairedSequences, tasks) ←
      (ensureSequences repairNulls tasks).mapError (.integrity issueId)
    let (repairedProjections, tasks) ←
      (repairLineageProjections sessionNamespaceFor snapshots tasks).mapError
        (.integrity issueId)
    return ({ repairedSequences, repairedProjections, maxSequence := maxSequence tasks,
              tailProjection := (tailTask tasks).bind taskProjection }, tasks)

end Repair

/-! ### Schedule Window -/

/-- The window of `compute_schedule_window`. -/
structure ScheduleWindow where
  hasValidWindow : Bool
  minScheduledAt : Option DateTime
  minSourceTaskId : Option Nat
  maxScheduledAt : Option DateTime
  maxSourceTaskId : Option Nat
  deriving DecidableEq, Repr

/-- The four accumulators of the window scan. -/
structure WindowBounds where
  minTime : Option DateTime := none
  minSource : Option Nat := none
  maxTime : Option DateTime := none
  maxSource : Option Nat := none

open WindowBounds

variable (excludeTaskId : Option Nat) (acc : WindowBounds) (time : DateTime) (source : Nat)

/-- `if min_time is None or task.scheduled_at > min_time`. -/
def WindowBounds.raiseFloor : WindowBounds :=
  if acc.minTime.all (· < time) then
    { acc with minTime := some time, minSource := some source }
  else
    acc

/-- `if max_time is None or task.scheduled_at < max_time`. -/
def WindowBounds.lowerCeiling : WindowBounds :=
  if acc.maxTime.all (time < ·) then
    { acc with maxTime := some time, maxSource := some source }
  else
    acc

/-- One iteration of the window scan. With an excluded Task earlier Tasks raise the
    floor and later ones lower the ceiling; in append mode every Task raises the
    floor. -/
def windowStep (excludeSeq : Option Nat) (acc : WindowBounds) (task : Task) : WindowBounds :=
  match task.scheduledAt with
  | none => acc
  | some time =>
    match excludeSeq with
    | none => acc.raiseFloor time task.id
    | some pivot =>
      match task.issueSequence with
      | none => acc
      | some seq =>
        if seq < pivot then acc.raiseFloor time task.id
        else if pivot < seq then acc.lowerCeiling time task.id
        else acc

/-- `compute_schedule_window`. -/
def computeScheduleWindow (issueId : Nat) (excludeTaskId : Option Nat)
    (issueTasks : List Task) : Except OrderError ScheduleWindow :=
  let tasks := issueTasks.filter (·.status.active)
  if tasks.any (·.issueSequence.isNone) then
    .error (.integrity issueId .activeNullSequence)
  else
    let scheduled := tasks.filter fun t =>
      t.scheduledAt.isSome && excludeTaskId.all (t.id != ·)
    let scheduled := scheduled.insertionSort fun a b =>
      a.issueSequence.getD (10 ^ 9) ≤ b.issueSequence.getD (10 ^ 9)
    let excludeSeq := excludeTaskId.bind fun x =>
      (tasks.find? (·.id == x)).bind (·.issueSequence)
    let b := scheduled.foldl (windowStep excludeSeq) {}
    let hasValid := b.minTime.all fun lo => b.maxTime.all (lo ≤ ·)
    .ok { hasValidWindow := hasValid
          minScheduledAt := b.minTime
          minSourceTaskId := b.minSource
          maxScheduledAt := b.maxTime
          maxSourceTaskId := b.maxSource }

/-- The conflict raised for a window, under one of the three messages. -/
def windowConflict (window : ScheduleWindow) (hasValidWindow : Bool) (message : String) :
    OrderError :=
  .scheduleWindow
    { message
      hasValidWindow
      minScheduledAt := window.minScheduledAt
      minSourceTaskId := window.minSourceTaskId
      maxScheduledAt := window.maxScheduledAt
      maxSourceTaskId := window.maxSourceTaskId }

/-- The three checks of `validate_schedule_time_locked` on a computed window. -/
def checkWindow (window : ScheduleWindow) (scheduledAt : DateTime) :
    Except OrderError ScheduleWindow :=
  if !window.hasValidWindow then
    .error (windowConflict window false
      "No valid schedule window exists for this Issue queue")
  else if window.minScheduledAt.any (scheduledAt < ·) then
    .error (windowConflict window true "Scheduled time is before this Issue's queue floor")
  else if window.maxScheduledAt.any (· < scheduledAt) then
    .error (windowConflict window true "Scheduled time is after this Issue's queue ceiling")
  else
    .ok window

/-- `validate_schedule_time_locked`: the window used and the rows as the integrity
    check left them. -/
def validateScheduleTimeLocked (sessionNamespaceFor : String → Option String → String)
    (snapshots : Nat → Option WorkerSnapshot) (issueId : Nat) (scheduledAt : DateTime)
    (excludeTaskId : Option Nat) (issueTasks : List Task) :
    Except OrderError (ScheduleWindow × List Task) := do
  let (_, tasks) ←
    ensureIssueOrderIntegrityLocked sessionNamespaceFor snapshots issueId false issueTasks
  let window ← computeScheduleWindow issueId excludeTaskId tasks
  let window ← checkWindow window scheduledAt
  return (window, tasks)

/-! ### Tail Lineage -/

/-- `project_tail_lineage`. -/
def projectTailLineage (tailProjection : Option Projection) (issueId : Nat)
    (harnessKey sessionNamespace : String) (sessionMode : SessionMode) :
    Except OrderError Projection :=
  match tailProjection.filter (·.sessionNamespace != legacyNamespace) with
  | none =>
    -- no tail, or a legacy placeholder that carries no session evidence
    .ok { harnessKey, sessionNamespace
          generation := if sessionMode = .fresh then 1 else 0
          resetTaskId := none
          reason := .initial }
  | some tail =>
    if sessionMode = .fresh then
      .ok { harnessKey, sessionNamespace, generation := tail.generation + 1,
            resetTaskId := none, reason := .fresh }
    else if harnessKey = tail.harnessKey ∧ sessionNamespace = tail.sessionNamespace then
      .ok { harnessKey, sessionNamespace, generation := tail.generation,
            resetTaskId := tail.resetTaskId, reason := .inherited }
    else
      .error (.lineage issueId tail)

/-! ### Well-Ordered Rows -/

/-- The rows carry the sequence numbers `k, k + 1, ...`. -/
def SequencedFrom : Nat → List Task → Prop
  | _, [] => True
  | k, task :: rest => task.issueSequence = some k ∧ SequencedFrom (k + 1) rest

/-- What every writer inside the Issue lock maintains: rows in creation order, the
    sequence number of a row is its rank, and every lineage is projected. -/
structure WellOrdered (tasks : List Task) : Prop where
  sequenced : SequencedFrom 1 tasks
  created : tasks.Pairwise createdBefore
  ids : (tasks.map (·.id)).Nodup
  projected : ∀ t ∈ tasks, hasFullProjection t = true

variable {k : Nat} {tasks tasks' : List Task} {b : WindowBounds} {floor ceiling : Set DateTime}
  {pivot : Option Nat} {new : Task} {clock : DateTime} {nextId : Nat}

theorem sequencedFrom_append {task : Task}
    (h : SequencedFrom k tasks) (hs : task.issueSequence = some (k + tasks.length)) :
    SequencedFrom k (tasks ++ [task]) := by
  induction tasks generalizing k with
  | nil => simpa [SequencedFrom] using hs
  | cons t rest ih =>
    refine ⟨h.1, ih h.2 ?_⟩
    rw [hs, length_cons]
    congr 1
    omega

theorem created_append (hcreated : tasks.Pairwise createdBefore)
    (hpast : ∀ t ∈ tasks, t.createdAt ≤ clock ∧ t.id < nextId)
    (hid : new.id = nextId) (hnow : new.createdAt = clock) :
    (tasks ++ [new]).Pairwise createdBefore := by
  refine pairwise_append.mpr ⟨hcreated, pairwise_singleton _ _, ?_⟩
  intro a ha b hb
  obtain rfl : b = new := by simpa using hb
  -- the clock never runs backwards and ids grow, so the new row is the last one
  have hbefore := hpast a ha
  unfold createdBefore
  rw [hnow, hid]
  rcases lt_or_eq_of_le hbefore.1 with hlt | heq
  · exact .inl hlt
  · exact .inr ⟨heq, hbefore.2.le⟩

theorem ids_append (hids : (tasks.map (·.id)).Nodup)
    (hpast : ∀ t ∈ tasks, t.id < nextId) (hid : new.id = nextId) :
    ((tasks ++ [new]).map (·.id)).Nodup := by
  rw [map_append, nodup_append]
  refine ⟨hids, by simp, ?_⟩
  intro a ha b hb
  obtain ⟨t, ht, rfl⟩ := List.mem_map.mp ha
  obtain rfl : b = new.id := by simpa using hb
  rw [hid]
  exact (hpast t ht).ne

theorem past_append (hpast : ∀ t ∈ tasks, t.createdAt ≤ clock ∧ t.id < nextId)
    (hid : new.id = nextId) (hnow : new.createdAt = clock) :
    ∀ t ∈ tasks ++ [new], t.createdAt ≤ clock ∧ t.id < nextId + 1 := by
  refine forall_mem_append.mpr ⟨fun t ht => ?_, forall_mem_singleton.mpr ?_⟩
  · obtain ⟨hclock, hnext⟩ := hpast t ht
    exact ⟨hclock, Nat.lt_succ_of_lt hnext⟩
  · rw [hid, hnow]
    exact ⟨le_rfl, Nat.lt_succ_self nextId⟩

/-- A row created after all others, with the next number. -/
theorem WellOrdered.append (h : WellOrdered tasks)
    (hpast : ∀ t ∈ tasks, t.createdAt ≤ clock ∧ t.id < nextId)
    (hid : new.id = nextId) (hnow : new.createdAt = clock)
    (hseq : new.issueSequence = some (tasks.length + 1)) (hfull : hasFullProjection new = true) :
    WellOrdered (tasks ++ [new]) where
  sequenced := sequencedFrom_append h.sequenced (by rw [hseq, Nat.add_comm])
  created := created_append h.created hpast hid hnow
  ids := ids_append h.ids (fun t ht => (hpast t ht).2) hid
  projected := forall_mem_append.mpr ⟨h.projected, forall_mem_singleton.mpr hfull⟩

theorem SequencedFrom.bounds (h : SequencedFrom k tasks)
    {t : Task} (ht : t ∈ tasks) :
    ∃ q, t.issueSequence = some q ∧ k ≤ q ∧ q < k + tasks.length := by
  induction tasks generalizing k with
  | nil => cases ht
  | cons task rest ih =>
    rcases mem_cons.mp ht with rfl | hmem
    · exact ⟨k, h.1, le_rfl, by simp⟩
    · obtain ⟨q, hq, hlo, hhi⟩ := ih h.2 hmem
      exact ⟨q, hq, by omega, by rw [length_cons]; omega⟩

theorem SequencedFrom.map (h : SequencedFrom k tasks)
    {f : Task → Task} (hf : ∀ t, (f t).issueSequence = t.issueSequence) :
    SequencedFrom k (tasks.map f) := by
  induction tasks generalizing k with
  | nil => trivial
  | cons task rest ih => exact ⟨(hf task).trans h.1, ih h.2⟩

theorem WellOrdered.eq_of_id (hord : WellOrdered tasks) {a b : Task}
    (ha : a ∈ tasks) (hb : b ∈ tasks) (hid : a.id = b.id) : a = b :=
  inj_on_of_nodup_map hord.ids ha hb hid

theorem foldl_max_sequencedFrom
    (h : SequencedFrom (k + 1) tasks) :
    (tasks.filterMap (·.issueSequence)).foldl max k = k + tasks.length := by
  induction tasks generalizing k with
  | nil => rfl
  | cons task rest ih =>
    have hmax : max k (k + 1) = k + 1 := by omega
    rw [filterMap_cons_some h.1, foldl_cons, hmax, ih h.2, length_cons]
    omega

theorem WellOrdered.maxSequence_eq (h : WellOrdered tasks) :
    maxSequence tasks = tasks.length := by
  have := foldl_max_sequencedFrom h.sequenced
  rw [maxSequence, this, Nat.zero_add]

theorem checkRanks_of_sequencedFrom {seen : List Nat}
    (h : SequencedFrom k tasks) (hseen : ∀ q ∈ seen, q < k) :
    checkRanks k seen tasks = .ok () := by
  induction tasks generalizing k seen with
  | nil => rfl
  | cons task rest ih =>
    have hnot : k ∉ seen := fun hk => absurd (hseen k hk) (lt_irrefl k)
    have hseen' : ∀ q ∈ k :: seen, q < k + 1 := by
      intro q hq
      rcases mem_cons.mp hq with rfl | hq
      · omega
      · have := hseen q hq
        omega
    simp [checkRanks, h.1, hnot, ih h.2 hseen']

theorem repairNullSequences_of_sequencedFrom
    (h : SequencedFrom k tasks) : repairNullSequences k tasks = (0, tasks) := by
  induction tasks generalizing k with
  | nil => rfl
  | cons task rest ih => simp [repairNullSequences, ih h.2, h.1]

theorem repairLoop_of_projected {ns : String → Option String → String}
    {snapshots : Nat → Option WorkerSnapshot} {tail : Option Projection} {n : Nat}
    (h : ∀ t ∈ tasks, hasFullProjection t = true) :
    repairLoop ns snapshots tail n tasks = .ok (n, tasks) := by
  induction tasks generalizing tail with
  | nil => rfl
  | cons task rest ih =>
    have hrest : ∀ t ∈ rest, hasFullProjection t = true :=
      fun t ht => h t (mem_cons_of_mem _ ht)
    simp [repairLoop, h task mem_cons_self, ih hrest]

theorem ensureSequences_of_sequencedFrom {repairNulls : Bool}
    (h : SequencedFrom 1 tasks) : ensureSequences repairNulls tasks = .ok (0, tasks) := by
  have hnone : (tasks.any fun t => t.issueSequence.isNone && t.status.active) = false := by
    rw [List.any_eq_false]
    intro t ht
    obtain ⟨q, hq, -⟩ := h.bounds ht
    simp [hq]
  have hranks : checkRanks 1 [] tasks = .ok () :=
    checkRanks_of_sequencedFrom h (by simp)
  cases repairNulls with
  | false => simp [ensureSequences, hranks, hnone]
  | true => simp [ensureSequences, hranks, repairNullSequences_of_sequencedFrom h]

/-- On well-ordered rows the integrity check repairs nothing and reports the tail. -/
theorem WellOrdered.ensureIssueOrderIntegrityLocked_eq
    (h : WellOrdered tasks) (ns : String → Option String → String)
    (snapshots : Nat → Option WorkerSnapshot) (issueId : Nat) (repairNulls : Bool) :
    ensureIssueOrderIntegrityLocked ns snapshots issueId repairNulls tasks =
      .ok ({ repairedSequences := 0, repairedProjections := 0,
             maxSequence := tasks.length,
             tailProjection := (tailTask tasks).bind taskProjection }, tasks) := by
  have hsort : tasks.insertionSort createdBefore = tasks := h.created.insertionSort_eq
  cases tasks with
  | nil => rfl
  | cons task rest =>
    simp [ensureIssueOrderIntegrityLocked, hsort,
      ensureSequences_of_sequencedFrom h.sequenced, repairLineageProjections,
      repairLoop_of_projected h.projected, h.maxSequence_eq]

/-! ### What the Window Says -/

/-- The scheduled times that bound the window from below: with a pivot, those of the
    Tasks before it. -/
def floorTimes (pivot : Option Nat) (tasks : List Task) : Set DateTime :=
  {x | ∃ t ∈ tasks, t.scheduledAt = some x ∧
    ∀ p ∈ pivot, ∃ q, t.issueSequence = some q ∧ q < p}

/-- The scheduled times that bound the window from above: those of the Tasks after
    the pivot, none in append mode. -/
def ceilingTimes (pivot : Option Nat) (tasks : List Task) : Set DateTime :=
  {x | ∃ t ∈ tasks, t.scheduledAt = some x ∧
    ∃ p ∈ pivot, ∃ q, t.issueSequence = some q ∧ p < q}

theorem raiseFloor_minTime : (acc.raiseFloor time source).minTime = raiseTo time acc.minTime := by
  cases hm : acc.minTime with
  | none => simp [raiseFloor, raiseTo, hm]
  | some m => by_cases hlt : m < time <;> simp [raiseFloor, raiseTo, hm, hlt]

theorem raiseFloor_maxTime : (acc.raiseFloor time source).maxTime = acc.maxTime := by
  unfold raiseFloor
  split <;> rfl

theorem lowerCeiling_maxTime (acc : WindowBounds) (time : DateTime) (source : Nat) :
    (acc.lowerCeiling time source).maxTime = lowerTo time acc.maxTime := by
  cases hm : acc.maxTime with
  | none => simp [lowerCeiling, lowerTo, hm]
  | some m => by_cases hlt : time < m <;> simp [lowerCeiling, lowerTo, hm, hlt]

theorem lowerCeiling_minTime : (acc.lowerCeiling time source).minTime = acc.minTime := by
  unfold lowerCeiling
  split <;> rfl

/-- The accumulators bound the times scanned so far. -/
structure WindowBounds.Spec (b : WindowBounds) (floor ceiling : Set DateTime) : Prop where
  floor : GreatestOf floor b.minTime
  ceiling : LeastOf ceiling b.maxTime

attribute [local simp] floorTimes ceilingTimes windowStep

theorem floorTimes_cons (pivot : Option Nat) (task : Task) (rest : List Task) :
    floorTimes pivot (task :: rest) = floorTimes pivot [task] ∪ floorTimes pivot rest := by
  ext x
  simp [or_and_right, exists_or]

theorem ceilingTimes_cons (pivot : Option Nat) (task : Task) (rest : List Task) :
    ceilingTimes pivot (task :: rest) = ceilingTimes pivot [task] ∪ ceilingTimes pivot rest := by
  ext x
  simp [or_and_right, exists_or]

theorem windowStep_spec
    (h : b.Spec floor ceiling) (pivot : Option Nat) (task : Task) :
    (windowStep pivot b task).Spec (floorTimes pivot [task] ∪ floor)
      (ceilingTimes pivot [task] ∪ ceiling) := by
  have hraise : ∀ time, (b.raiseFloor time task.id).Spec (insert time floor) ceiling := by
    intro time
    refine ⟨?_, ?_⟩
    · rw [raiseFloor_minTime]
      exact h.floor.raiseTo time
    · rw [raiseFloor_maxTime]
      exact h.ceiling
  have hlower : ∀ time, (b.lowerCeiling time task.id).Spec floor (insert time ceiling) := by
    intro time
    refine ⟨?_, ?_⟩
    · rw [lowerCeiling_minTime]
      exact h.floor
    · rw [lowerCeiling_maxTime]
      exact h.ceiling.lowerTo time
  cases ht : task.scheduledAt with
  | none => simpa [ht] using h
  | some time =>
    cases pivot with
    | none =>
      simpa [ht, Set.insert_def] using hraise time
    | some p =>
      cases hq : task.issueSequence with
      | none => simpa [ht, hq] using h
      | some q =>
        rcases Nat.lt_trichotomy q p with hlt | heq | hgt
        · simpa [ht, hq, hlt, hlt.not_gt, Set.insert_def] using hraise time
        · simpa [ht, hq, heq] using h
        · simpa [ht, hq, hgt, hgt.not_gt, Set.insert_def] using hlower time

theorem foldl_windowStep_spec
    (h : b.Spec floor ceiling) (pivot : Option Nat) (tasks : List Task) :
    (tasks.foldl (windowStep pivot) b).Spec (floorTimes pivot tasks ∪ floor)
      (ceilingTimes pivot tasks ∪ ceiling) := by
  induction tasks generalizing b floor ceiling with
  | nil => simpa using h
  | cons task rest ih =>
    have := ih (windowStep_spec h pivot task)
    rw [floorTimes_cons, ceilingTimes_cons, Set.union_comm (floorTimes pivot [task]),
      Set.union_comm (ceilingTimes pivot [task]), Set.union_assoc, Set.union_assoc]
    exact this

theorem floorTimes_congr
    (h : ∀ t, t.scheduledAt.isSome → (t ∈ tasks ↔ t ∈ tasks')) :
    floorTimes pivot tasks = floorTimes pivot tasks' := by
  ext x
  constructor
  · rintro ⟨t, ht, hx, hp⟩
    exact ⟨t, (h t (by simp [hx])).mp ht, hx, hp⟩
  · rintro ⟨t, ht, hx, hp⟩
    exact ⟨t, (h t (by simp [hx])).mpr ht, hx, hp⟩

theorem ceilingTimes_congr
    (h : ∀ t, t.scheduledAt.isSome → (t ∈ tasks ↔ t ∈ tasks')) :
    ceilingTimes pivot tasks = ceilingTimes pivot tasks' := by
  ext x
  constructor
  · rintro ⟨t, ht, hx, hp⟩
    exact ⟨t, (h t (by simp [hx])).mp ht, hx, hp⟩
  · rintro ⟨t, ht, hx, hp⟩
    exact ⟨t, (h t (by simp [hx])).mpr ht, hx, hp⟩

/-- The active Tasks other than the excluded one. -/
def otherActive (tasks : List Task) : List Task :=
  tasks.filter fun t => t.status.active && excludeTaskId.all (t.id != ·)

/-- The sequence number of the excluded Task, when it is active. -/
def pivotOf (tasks : List Task) : Option Nat :=
  excludeTaskId.bind fun x =>
    ((tasks.filter (·.status.active)).find? (·.id == x)).bind (·.issueSequence)

theorem WellOrdered.pivotOf_eq (hord : WellOrdered tasks) {k : Task}
    (hk : k ∈ tasks) (hactive : k.status.active = true) :
    pivotOf (some k.id) tasks = k.issueSequence := by
  have hmem : k ∈ tasks.filter (·.status.active) := mem_filter.mpr ⟨hk, hactive⟩
  have hfind : (tasks.filter (·.status.active)).find? (·.id == k.id) = some k := by
    cases hf : (tasks.filter (·.status.active)).find? (·.id == k.id) with
    | none =>
      have := find?_eq_none.mp hf k hmem
      simp at this
    | some u =>
      have hid : u.id = k.id := by simpa using find?_some hf
      have hu : u ∈ tasks := mem_of_mem_filter (mem_of_find?_eq_some hf)
      rw [hord.eq_of_id hu hk hid]
  rw [pivotOf, bind_some, hfind, bind_some]

/-- What a window says about the rows it was computed from. -/
structure ScheduleWindow.Spec (w : ScheduleWindow) (excludeTaskId : Option Nat)
    (tasks : List Task) : Prop where
  floor : GreatestOf (floorTimes (pivotOf excludeTaskId tasks)
    (otherActive excludeTaskId tasks)) w.minScheduledAt
  ceiling : LeastOf (ceilingTimes (pivotOf excludeTaskId tasks)
    (otherActive excludeTaskId tasks)) w.maxScheduledAt
  valid : w.hasValidWindow = true ↔
    ∀ lo, w.minScheduledAt = some lo → ∀ hi, w.maxScheduledAt = some hi → lo ≤ hi

/-- `compute_schedule_window` fails only on an active NULL sequence; else the floor is
    the greatest time before the pivot and the ceiling the least time after it. -/
theorem computeScheduleWindow_spec
    (hseq : ∀ t ∈ tasks, t.issueSequence.isSome) (issueId : Nat)
    (excludeTaskId : Option Nat) :
    ∃ w, computeScheduleWindow issueId excludeTaskId tasks = .ok w ∧
      w.Spec excludeTaskId tasks := by
  have hnone : ((tasks.filter (·.status.active)).any (·.issueSequence.isNone)) = false := by
    rw [List.any_eq_false]
    intro t ht
    have := hseq t (mem_of_mem_filter ht)
    simpa [isSome_iff_ne_none] using this
  have hempty : ({} : WindowBounds).Spec ∅ ∅ := ⟨rfl, rfl⟩
  have hspec := foldl_windowStep_spec hempty
    (pivotOf excludeTaskId tasks)
    ((((tasks.filter (·.status.active)).filter fun t =>
      t.scheduledAt.isSome && excludeTaskId.all (t.id != ·))).insertionSort fun a b =>
        a.issueSequence.getD (10 ^ 9) ≤ b.issueSequence.getD (10 ^ 9))
  have hmem : ∀ t : Task, t.scheduledAt.isSome →
      (t ∈ ((((tasks.filter (·.status.active)).filter fun t =>
        t.scheduledAt.isSome && excludeTaskId.all (t.id != ·))).insertionSort fun a b =>
          a.issueSequence.getD (10 ^ 9) ≤ b.issueSequence.getD (10 ^ 9)) ↔
        t ∈ otherActive excludeTaskId tasks) := by
    intro t ht
    rw [mem_insertionSort]
    simp only [otherActive, mem_filter, ht, Bool.true_and, Bool.and_eq_true]
    tauto
  rw [Set.union_empty, Set.union_empty, floorTimes_congr hmem, ceilingTimes_congr hmem] at hspec
  refine ⟨_, by simp only [computeScheduleWindow, hnone]; rfl, hspec.floor, hspec.ceiling, ?_⟩
  simp only [Option.all_eq_true, decide_eq_true_eq]

theorem checkWindow_eq_ok_iff {w w' : ScheduleWindow} {t : DateTime} :
    checkWindow w t = .ok w' ↔ w' = w ∧ w.hasValidWindow = true ∧
      (∀ lo, w.minScheduledAt = some lo → lo ≤ t) ∧
      (∀ hi, w.maxScheduledAt = some hi → t ≤ hi) := by
  have hlo : w.minScheduledAt.any (t < ·) = false ↔
      ∀ lo, w.minScheduledAt = some lo → lo ≤ t := by
    cases w.minScheduledAt <;> simp
  have hhi : w.maxScheduledAt.any (· < t) = false ↔
      ∀ hi, w.maxScheduledAt = some hi → t ≤ hi := by
    cases w.maxScheduledAt <;> simp
  rw [← hlo, ← hhi, checkWindow]
  cases w.hasValidWindow with
  | false => simp
  | true =>
    cases w.minScheduledAt.any (t < ·) with
    | true => simp
    | false => cases w.maxScheduledAt.any (· < t) <;> simp [eq_comm]

end Codify.IssueTaskOrder
