import Codify.Framework.Table
import Codify.IssueTaskOrder

/-! # Sessions over the Task Table

    Sessions run with `expire_on_commit=False` and `autoflush=False`
    (app/database.py). A session keeps every Task it has loaded as an object,
    and a plain SELECT that returns the row of a loaded object hands out the
    object as it is: only `populate_existing` and `refresh` read the row again.

    * `selectObjects` is such a SELECT.
    * `flushObjects` is the commit: each object writes the columns in which it
      differs from what the session had loaded.
    * The ordering service works on objects too. What it writes is limited to
      the order columns (`Repaired`), and it never rewrites a sequence number.
-/

namespace Codify

open Codify.Framework Codify.IssueTaskOrder List

/-! ### Objects and Rows -/

/-- The row of a Task after its session flushed the object. -/
def flushTask (loaded current row : Task) : Task :=
  { row with
    status := flushColumn loaded.status current.status row.status
    sessionMode := flushColumn loaded.sessionMode current.sessionMode row.sessionMode
    priority := flushColumn loaded.priority current.priority row.priority
    scheduledAt := flushColumn loaded.scheduledAt current.scheduledAt row.scheduledAt
    issueSequence := flushColumn loaded.issueSequence current.issueSequence row.issueSequence
    projectedHarnessKey := flushColumn loaded.projectedHarnessKey
      current.projectedHarnessKey row.projectedHarnessKey
    projectedSessionNamespace := flushColumn loaded.projectedSessionNamespace
      current.projectedSessionNamespace row.projectedSessionNamespace
    projectedLineageGeneration := flushColumn loaded.projectedLineageGeneration
      current.projectedLineageGeneration row.projectedLineageGeneration
    projectedResetTaskId := flushColumn loaded.projectedResetTaskId
      current.projectedResetTaskId row.projectedResetTaskId
    lineageProjectionReason := flushColumn loaded.lineageProjectionReason
      current.lineageProjectionReason row.lineageProjectionReason
    containerId := flushColumn loaded.containerId current.containerId row.containerId
    errorMessage := flushColumn loaded.errorMessage current.errorMessage row.errorMessage
    isManuallyOverridden := flushColumn loaded.isManuallyOverridden
      current.isManuallyOverridden row.isManuallyOverridden
    startedAt := flushColumn loaded.startedAt current.startedAt row.startedAt
    completedAt := flushColumn loaded.completedAt current.completedAt row.completedAt
    cancelRequestedAt := flushColumn loaded.cancelRequestedAt
      current.cancelRequestedAt row.cancelRequestedAt
    rawLogsFinalizedAt := flushColumn loaded.rawLogsFinalizedAt
      current.rawLogsFinalizedAt row.rawLogsFinalizedAt }

def taskRow? (taskId : Nat) (tasks : List Task) : Option Task := Table.row? Task.id taskId tasks

/-- A plain SELECT: an object for each row, the loaded one where the session has it. -/
def selectObjects (objects rows : List Task) : List Task :=
  rows.map fun row => (taskRow? row.id objects).getD row

/-- One row at the commit of a session whose objects went from `loaded` to `current`. -/
def flushRow (loaded current : List Task) (row : Task) : Task :=
  match taskRow? row.id loaded, taskRow? row.id current with
  | some o, some o' => flushTask o o' row
  | _, _ => row

/-- The table at the commit of a session whose objects went from `loaded` to `current`. -/
def flushObjects (loaded current tasks : List Task) : List Task :=
  tasks.map (flushRow loaded current)

@[simp] theorem flushTask_id (o o' r : Task) : (flushTask o o' r).id = r.id := rfl

@[simp] theorem flushTask_issueId (o o' r : Task) : (flushTask o o' r).issueId = r.issueId := rfl

@[simp] theorem flushTask_status (o o' r : Task) :
    (flushTask o o' r).status = flushColumn o.status o'.status r.status := rfl

@[simp] theorem flushTask_scheduledAt (o o' r : Task) :
    (flushTask o o' r).scheduledAt = flushColumn o.scheduledAt o'.scheduledAt r.scheduledAt :=
  rfl

@[simp] theorem flushTask_issueSequence (o o' r : Task) :
    (flushTask o o' r).issueSequence =
      flushColumn o.issueSequence o'.issueSequence r.issueSequence := rfl

@[simp] theorem flushRow_id (loaded current : List Task) (r : Task) :
    (flushRow loaded current r).id = r.id := by
  unfold flushRow
  split <;> rfl

@[simp] theorem flushRow_issueId (loaded current : List Task) (r : Task) :
    (flushRow loaded current r).issueId = r.issueId := by
  unfold flushRow
  split <;> rfl

theorem mem_of_taskRow? {taskId : Nat} {tasks : List Task} {t : Task}
    (h : taskRow? taskId tasks = some t) : t ∈ tasks ∧ t.id = taskId :=
  Table.mem_of_row? h

theorem mem_selectObjects {objects rows : List Task} {o : Task}
    (h : o ∈ selectObjects objects rows) : o ∈ objects ∨ o ∈ rows := by
  obtain ⟨row, hrow, rfl⟩ := mem_map.mp h
  cases hfind : taskRow? row.id objects with
  | none => exact .inr (by simpa using hrow)
  | some o => exact .inl (by simpa using (mem_of_taskRow? hfind).1)

@[simp] theorem selectObjects_ids (objects rows : List Task) :
    (selectObjects objects rows).map Task.id = rows.map Task.id := by
  unfold selectObjects
  rw [map_map]
  refine map_congr_left fun row _ => ?_
  cases hfind : taskRow? row.id objects with
  | none => simp [hfind]
  | some o => simp [hfind, (mem_of_taskRow? hfind).2]

theorem eq_of_mem_selectObjects_singleton {object o : Task} {rows : List Task}
    (h : o ∈ selectObjects [object] rows) (hid : o.id = object.id) : o = object := by
  obtain ⟨row, -, rfl⟩ := mem_map.mp h
  by_cases hrow : row.id = object.id
  · simp [taskRow?, Table.row?, hrow]
  · have hnone : taskRow? row.id [object] = none := by
      simp [taskRow?, Table.row?, Ne.symm hrow]
    rw [hnone] at hid
    exact absurd hid hrow

theorem keyUnique_selectObjects {rows : List Task} (h : Table.KeyUnique Task.id rows)
    (objects : List Task) : Table.KeyUnique Task.id (selectObjects objects rows) := by
  show ((selectObjects objects rows).map Task.id).Nodup
  rw [selectObjects_ids]
  exact h

/-! ### What the Ordering Service Writes -/

/-- A Task without the columns that the ordering service repairs. -/
def unordered (t : Task) : Task :=
  { t with
    issueSequence := none
    projectedHarnessKey := none
    projectedSessionNamespace := none
    projectedLineageGeneration := none
    projectedResetTaskId := none
    lineageProjectionReason := none }

/-- `o'` is `o` with some of its order columns filled in. -/
structure Repaired (o o' : Task) : Prop where
  core : unordered o' = unordered o
  sequence : ∀ n, o.issueSequence = some n → o'.issueSequence = some n

namespace Repaired

variable {o o' o'' : Task}

theorem refl (o : Task) : Repaired o o := ⟨rfl, fun _ h => h⟩

theorem trans (h : Repaired o o') (h' : Repaired o' o'') : Repaired o o'' :=
  ⟨h'.core.trans h.core, fun n hn => h'.sequence n (h.sequence n hn)⟩

theorem id (h : Repaired o o') : o'.id = o.id := by
  show (unordered o').id = (unordered o).id
  rw [h.core]

theorem status (h : Repaired o o') : o'.status = o.status := by
  show (unordered o').status = (unordered o).status
  rw [h.core]

theorem setProjection (o : Task) (p : Projection) :
    Repaired o (IssueTaskOrder.setProjection o p) :=
  ⟨rfl, fun _ h => h⟩

end Repaired

/-- What a pass of the ordering service returns: the rows it was given, repaired. -/
structure RepairsOnly (tasks rows : List Task) : Prop where
  back : ∀ o' ∈ rows, ∃ o ∈ tasks, Repaired o o'
  forth : ∀ o ∈ tasks, ∃ o' ∈ rows, Repaired o o'

theorem RepairsOnly.nil : RepairsOnly [] [] := ⟨by simp, by simp⟩

theorem RepairsOnly.trans {tasks rows rows' : List Task} (h : RepairsOnly tasks rows)
    (h' : RepairsOnly rows rows') : RepairsOnly tasks rows' := by
  constructor
  · intro o'' ho''
    obtain ⟨o', ho', hr'⟩ := h'.back o'' ho''
    obtain ⟨o, ho, hr⟩ := h.back o' ho'
    exact ⟨o, ho, hr.trans hr'⟩
  · intro o ho
    obtain ⟨o', ho', hr⟩ := h.forth o ho
    obtain ⟨o'', ho'', hr'⟩ := h'.forth o' ho'
    exact ⟨o'', ho'', hr.trans hr'⟩

theorem RepairsOnly.cons {task row : Task} {tasks rows : List Task} (h : Repaired task row)
    (hrest : RepairsOnly tasks rows) : RepairsOnly (task :: tasks) (row :: rows) := by
  constructor
  · intro o' ho'
    rcases mem_cons.mp ho' with rfl | ho'
    · exact ⟨task, mem_cons_self, h⟩
    · obtain ⟨o, ho, hr⟩ := hrest.back o' ho'
      exact ⟨o, mem_cons_of_mem _ ho, hr⟩
  · intro o ho
    rcases mem_cons.mp ho with rfl | ho
    · exact ⟨row, mem_cons_self, h⟩
    · obtain ⟨o', ho', hr⟩ := hrest.forth o ho
      exact ⟨o', mem_cons_of_mem _ ho', hr⟩

theorem RepairsOnly.of_mem_iff {tasks rows : List Task} (h : ∀ o, o ∈ rows ↔ o ∈ tasks) :
    RepairsOnly tasks rows :=
  ⟨fun o ho => ⟨o, (h o).mp ho, .refl o⟩, fun o ho => ⟨o, (h o).mpr ho, .refl o⟩⟩

theorem repairsOnly_insertionSort (tasks : List Task) :
    RepairsOnly tasks (tasks.insertionSort createdBefore) :=
  .of_mem_iff fun _ => mem_insertionSort _

theorem repairNullSequences_repairsOnly (rank : Nat) (tasks : List Task) :
    RepairsOnly tasks (repairNullSequences rank tasks).2 := by
  induction tasks generalizing rank with
  | nil => exact .nil
  | cons task rest ih =>
    cases hseq : task.issueSequence with
    | none =>
      simp only [repairNullSequences, hseq]
      exact (ih (rank + 1)).cons ⟨rfl, by simp [hseq]⟩
    | some n =>
      simp only [repairNullSequences, hseq]
      exact (ih (rank + 1)).cons (.refl task)

section Repair

variable {ns : String → Option String → String} {snapshots : Nat → Option WorkerSnapshot}

theorem repairLoop_repairsOnly {tail : Option Projection} {repaired n : Nat}
    {tasks rows : List Task}
    (h : repairLoop ns snapshots tail repaired tasks = .ok (n, rows)) :
    RepairsOnly tasks rows := by
  induction tasks generalizing tail repaired n rows with
  | nil =>
    obtain ⟨-, rfl⟩ : repaired = n ∧ [] = rows := by simpa [repairLoop] using h
    exact .nil
  | cons task rest ih =>
    -- each of the four branches puts one repaired row before the repaired rest
    have hcons : ∀ {tail' : Option Projection} {k : Nat} {row : Task}, Repaired task row →
        ((repairLoop ns snapshots tail' k rest).bind fun r => .ok (r.1, row :: r.2)) =
          .ok (n, rows) →
        RepairsOnly (task :: rest) rows := by
      intro tail' k row hrow hdo
      obtain ⟨⟨m, rows'⟩, hrec, hret⟩ := bind_eq_ok_iff.mp hdo
      obtain ⟨-, rfl⟩ : m = n ∧ row :: rows' = rows := by simpa using hret
      exact (ih hrec).cons hrow
    unfold repairLoop at h
    split at h
    · exact hcons (.refl task) h
    · split at h
      · split at h
        · cases h
        · exact hcons (.refl task) h
      · split at h
        · cases h
        · next p _ => exact hcons (.setProjection task p) h

/-- **Frame of the ordering service**: it writes order columns only. -/
theorem ensureIssueOrderIntegrityLocked_repairsOnly {issueId : Nat} {repairNulls : Bool}
    {tasks rows : List Task} {report : IntegrityReport}
    (h : ensureIssueOrderIntegrityLocked ns snapshots issueId repairNulls tasks =
      .ok (report, rows)) : RepairsOnly tasks rows := by
  simp only [ensureIssueOrderIntegrityLocked] at h
  split at h
  · next hempty =>
    obtain ⟨-, rfl⟩ := Prod.mk.inj (Except.ok.inj h)
    have hperm := perm_insertionSort createdBefore tasks
    rw [List.isEmpty_iff.mp hempty] at hperm
    obtain rfl : tasks = [] := hperm.symm.eq_nil
    exact .nil
  · obtain ⟨⟨k, sequenced⟩, hseq, h⟩ := bind_eq_ok_iff.mp h
    obtain ⟨⟨m, projected⟩, hproj, h⟩ := bind_eq_ok_iff.mp h
    obtain ⟨-, rfl⟩ := Prod.mk.inj (Except.ok.inj h)
    have hsequences : RepairsOnly (tasks.insertionSort createdBefore) sequenced := by
      have hseq := mapError_eq_ok_iff.mp hseq
      obtain ⟨-, -, hseq⟩ := bind_eq_ok_iff.mp hseq
      split at hseq
      · obtain ⟨-, rfl⟩ := Prod.mk.inj (Except.ok.inj hseq)
        exact repairNullSequences_repairsOnly 1 _
      · split at hseq
        · cases hseq
        · obtain ⟨-, rfl⟩ := Prod.mk.inj (Except.ok.inj hseq)
          exact .of_mem_iff fun _ => Iff.rfl
    have hprojections : RepairsOnly (sequenced.insertionSort createdBefore) projected :=
      repairLoop_repairsOnly (mapError_eq_ok_iff.mp hproj)
    exact (repairsOnly_insertionSort tasks).trans
      (hsequences.trans ((repairsOnly_insertionSort sequenced).trans hprojections))

end Repair

/-! ### Commits of Repaired Objects -/

/-- A commit of repaired objects keeps every column of a row but its order columns. -/
theorem flushTask_repaired {o o' : Task} (h : Repaired o o') (r : Task) :
    unordered (flushTask o o' r) = unordered r := by
  obtain ⟨hcore, -⟩ := h
  simp only [unordered, Task.mk.injEq] at hcore
  obtain ⟨-, -, h1, h2, h3, h4, -, -, -, -, -, -, h5, h6, h7, -, h8, h9, h10, h11⟩ := hcore
  simp only [unordered, flushTask, h1, h2, h3, h4, h5, h6, h7, h8, h9, h10, h11,
    flushColumn_untouched]

/-- At the commit of repaired objects, a row keeps all but its order columns. -/
theorem flushRow_repairsOnly {loaded current : List Task} (hunique : Table.KeyUnique Task.id loaded)
    (h : RepairsOnly loaded current) (r : Task) :
    unordered (flushRow loaded current r) = unordered r := by
  unfold flushRow
  split
  · next o o' ho ho' =>
    obtain ⟨hmem, hid⟩ := mem_of_taskRow? ho
    obtain ⟨hmem', hid'⟩ := mem_of_taskRow? ho'
    obtain ⟨o₀, ho₀, hr⟩ := h.back o' hmem'
    obtain rfl : o₀ = o := hunique.eq_of_key_eq ho₀ hmem (by rw [← hr.id, hid', hid])
    exact flushTask_repaired hr r
  · rfl

/-- At the commit of repaired objects that all had a sequence number, a row keeps its own. -/
theorem flushRow_sequence {loaded current : List Task} (hunique : Table.KeyUnique Task.id loaded)
    (h : RepairsOnly loaded current) (hseq : ∀ o ∈ loaded, o.issueSequence ≠ none) (r : Task) :
    (flushRow loaded current r).issueSequence = r.issueSequence := by
  unfold flushRow
  split
  · next o o' ho ho' =>
    obtain ⟨hmem, hid⟩ := mem_of_taskRow? ho
    obtain ⟨hmem', hid'⟩ := mem_of_taskRow? ho'
    obtain ⟨o₀, ho₀, hr⟩ := h.back o' hmem'
    obtain rfl : o₀ = o := hunique.eq_of_key_eq ho₀ hmem (by rw [← hr.id, hid', hid])
    obtain ⟨n, hn⟩ := Option.ne_none_iff_exists'.mp (hseq o₀ ho₀)
    simp [hn, hr.sequence n hn]
  · rfl

end Codify
