import Codify.TaskLifecycle

/-! # What One Step Does to a Row

    Every step rewrites the rows of the Task table one by one and may add a row
    at its end. `RowStep` says once, for all steps, how a row can change: it
    keeps its identity and its turn, and its status changes for one of the
    reasons of `StatusStep`. A status that comes from an object loaded earlier
    and not read again is a `statusWrites` entry.
-/

namespace Codify.TaskLifecycle

open Codify Codify.Framework Codify.IssueTaskOrder Codify.Scheduler Codify.Api List
open Codify.IssueSchedule (AppendRequest createTaskRecord checkAppendTime newTask rescheduled)

variable {env : Env} {s : State} {l : Label} {locks' : List IssueExecutionLock}

/-! ### Status Writes of Loaded Objects -/

/-- The status column that one object of a session writes at a commit. -/
def statusWrite (object object' : Task) : List (Task × TaskStatus) :=
  if object'.status = object.status then [] else [(object, object'.status)]

/-- The statuses that a step commits from an object it loaded in an earlier step and did not
    read again: `reschedule_task`, the readiness gate and `_park_other_queued_tasks`. -/
def statusWrites (env : Env) (s : State) : Label → List (Task × TaskStatus)
  | .commitReschedule i slotFull =>
    match s.requests[i]? with
    | some (.reschedule object scheduledAt) =>
      match rescheduleTask env.sessionNamespaceFor s.snapshots scheduledAt object s.tasks with
      | .error _ => []
      | .ok _ => if slotFull then [] else statusWrite object (rescheduled scheduledAt object)
    | _ => []
  | .gate snapshot readiness probe now =>
    match s.stage with
    | .gate taskId =>
      match taskRow? taskId s.objects with
      | none => []
      | some object =>
        statusWrite object (gateWrite env.dumps
          (applyRuntimeReadinessGate snapshot readiness probe) now object)
    | _ => []
  | .parkOther =>
    match s.stage with
    | .parkOthers (taskId :: _) =>
      match taskRow? taskId s.objects with
      | none => []
      | some object => statusWrite object (parkQueuedTask object)
    | _ => []
  | _ => []

/-- Why the status of a row changed in a step from `s` that leaves the locks `locks'`. -/
inductive StatusStep (env : Env) (s : State) (l : Label) (locks' : List IssueExecutionLock)
    (r : Task) : TaskStatus → Prop where
  | keep : StatusStep env s l locks' r r.status
  | normalize (hl : l = .normalize) (h : r.status = .queued) : StatusStep env s l locks' r .pending
  | promote (now : DateTime) (ids : List Nat) (hl : l = .promote now ids)
      (h : r.status = .pending) : StatusStep env s l locks' r .queued
  | settle (ctx : ClaimContext) (hl : l = .claim ctx) (h : r.status = .queued) {st : TaskStatus}
      (hst : st = .pending ∨ st = .failed ∨ st = .cancelled) : StatusStep env s l locks' r st
  | start (ctx : ClaimContext) (hl : l = .claim ctx) (h : r.status = .queued)
      (hpred : hasActivePredecessor s.tasks r = false)
      (hlock : acquireIssueExecutionLock r s.locks = some locks') :
      StatusStep env s l locks' r .running
  | cancel (i : Nat) (now : DateTime) (hl : l = .cancelPhaseA i now)
      (h : r.status = .pending ∨ r.status = .queued) : StatusStep env s l locks' r .cancelled
  | override (i : Nat) (object : Task) {st : TaskStatus} (hl : l = .commitOverride i)
      (h : s.requests[i]? = some (.override object st)) (hid : object.id = r.id) :
      StatusStep env s l locks' r st
  | stale (object : Task) {st : TaskStatus} (h : (object, st) ∈ statusWrites env s l)
      (hid : object.id = r.id) : StatusStep env s l locks' r st
  | worker {st : TaskStatus} (hl : l = .finishWorker r.id st) (hlive : r.id ∈ s.workers)
      (h : r.status = .running ∨ r.status.active = false) (hst : st.active = false) :
      StatusStep env s l locks' r st

/-- Every Task in the database and in the sessions has its sequence number. -/
structure Sequenced (s : State) : Prop where
  rows : ∀ t ∈ s.tasks, t.issueSequence ≠ none
  objects : ∀ o ∈ s.objects, o.issueSequence ≠ none
  requests : ∀ o t, .reschedule o t ∈ s.requests → o.issueSequence ≠ none

/-- How one row changes in one step. -/
structure RowStep (env : Env) (s : State) (l : Label) (locks' : List IssueExecutionLock)
    (r r' : Task) : Prop where
  id : r'.id = r.id
  issueId : r'.issueId = r.issueId
  sequence : Sequenced s → r'.issueSequence = r.issueSequence
  status : StatusStep env s l locks' r r'.status

theorem RowStep.refl (r : Task) : RowStep env s l locks' r r :=
  ⟨rfl, rfl, fun _ => rfl, .keep⟩

theorem RowStep.of_eq {r r' : Task} (hid : r'.id = r.id) (hissue : r'.issueId = r.issueId)
    (hseq : r'.issueSequence = r.issueSequence) (hst : r'.status = r.status) :
    RowStep env s l locks' r r' :=
  ⟨hid, hissue, fun _ => hseq, hst ▸ .keep⟩

variable {r object : Task} {tasks' : List Task} {scheduledAt : DateTime}

theorem RowStep.of_repairs {loaded current : List Task}
    (hunique : Table.KeyUnique Task.id loaded) (h : RepairsOnly loaded current)
    (hseq : Sequenced s → ∀ o ∈ loaded, o.issueSequence ≠ none) :
    RowStep env s l locks' r (flushRow loaded current r) := by
  have hcore := flushRow_repairsOnly hunique h r
  have hstatus : (flushRow loaded current r).status = r.status := by
    show (unordered (flushRow loaded current r)).status = (unordered r).status
    rw [hcore]
  exact ⟨flushRow_id .., flushRow_issueId ..,
    fun hs => flushRow_sequence hunique h (hseq hs) r, hstatus ▸ .keep⟩

/-! ### Rewritten Tables -/

/-- Every row of the new table is a row of the old one after a `RowStep`. -/
def Rewrites (env : Env) (s : State) (l : Label) (locks' : List IssueExecutionLock)
    (tasks' : List Task) : Prop :=
  ∃ g : Task → Task, tasks' = s.tasks.map g ∧ ∀ r ∈ s.tasks, RowStep env s l locks' r (g r)

theorem Rewrites.refl : Rewrites env s l locks' s.tasks :=
  ⟨id, (map_id _).symm, fun r _ => .refl r⟩

theorem Rewrites.writeRow {taskId : Nat} {f : Task → Task}
    (h : ∀ r ∈ s.tasks, r.id = taskId → RowStep env s l locks' r (f r)) :
    Rewrites env s l locks' (s.writeRow taskId f) := by
  refine ⟨_, rfl, ?_⟩
  intro r hr
  show RowStep env s l locks' r (if r.id = taskId then f r else r)
  split
  · next hid => exact h r hr hid
  · exact .refl r

/-- The row of an object written at a commit: it keeps its status or takes the written one. -/
theorem RowStep.flush {object object' r : Task}
    (hseq : object'.issueSequence = object.issueSequence)
    (hst : object'.status = object.status ∨ StatusStep env s l locks' r object'.status) :
    RowStep env s l locks' r (flushTask object object' r) := by
  refine ⟨rfl, rfl, fun _ => by simp [hseq], ?_⟩
  rw [flushTask_status]
  unfold flushColumn
  split
  · exact .keep
  · next hne => exact hst.resolve_left hne

theorem Rewrites.commitClaim {object task : Task} {write : Task → Task}
    (hunique : Table.KeyUnique Task.id s.tasks)
    (h : ClaimCommit s.objects object s.tasks task write tasks')
    (hid : (write task).id = task.id) (hissue : (write task).issueId = task.issueId)
    (hseq : (write task).issueSequence = task.issueSequence)
    (hst : StatusStep env s l locks' task (write task).status) : Rewrites env s l locks' tasks' := by
  obtain ⟨selected, repaired, rfl, hrepairs, rfl⟩ := h.rows
  obtain ⟨hmem, htaskid⟩ := mem_of_taskRow? h.row
  refine ⟨_, rfl, ?_⟩
  intro r hr
  show RowStep env s l locks' r (if r.id = object.id then write r else flushRow _ repaired r)
  split
  · next hrid =>
    obtain rfl := hunique.eq_of_key_eq hr hmem (hrid.trans htaskid.symm)
    exact ⟨hid, hissue, fun _ => hseq, hst⟩
  · refine .of_repairs ?_ hrepairs ?_
    · exact keyUnique_selectObjects (hunique.filter _) _
    · intro hs o ho
      rcases mem_selectObjects ho with ho | ho
      · exact hs.objects o ho
      · exact hs.rows o (mem_filter.mp ho).1

theorem taskRow?_rescheduled (k taskId : Nat) (scheduledAt : DateTime) (rows : List Task) :
    taskRow? k (Table.update Task.id taskId (rescheduled scheduledAt) rows) =
      (taskRow? k rows).map fun o => if o.id = taskId then rescheduled scheduledAt o else o := by
  apply Table.row?_update
  intro o
  rfl

/-- The row of the rescheduled Task: the session hands out the object it loaded, so the row is
    left alone or receives the repaired and rescheduled object. -/
theorem flushRow_rescheduled
    {rows selected repaired : List Task} (hkeys : Table.KeyUnique Task.id selected)
    (hselected : selected = selectObjects [object] rows)
    (hrepairs : RepairsOnly selected repaired) (hid : r.id = object.id) :
    (taskRow? r.id selected = none ∨ taskRow? r.id repaired = none) ∧
      flushRow selected (Table.update Task.id object.id (rescheduled scheduledAt) repaired) r =
        r ∨
    ∃ o₁, object ∈ selected ∧ Repaired object o₁ ∧
      flushRow selected (Table.update Task.id object.id (rescheduled scheduledAt) repaired) r =
        flushTask object (rescheduled scheduledAt o₁) r := by
  unfold flushRow
  rw [taskRow?_rescheduled]
  cases ho : taskRow? r.id selected with
  | none => exact .inl ⟨.inl rfl, rfl⟩
  | some o =>
    cases ho₁ : taskRow? r.id repaired with
    | none => exact .inl ⟨.inr rfl, rfl⟩
    | some o₁ =>
      obtain ⟨hmem, hoid⟩ := mem_of_taskRow? ho
      obtain ⟨hmem₁, hoid₁⟩ := mem_of_taskRow? ho₁
      obtain ⟨o₀, ho₀, hrep⟩ := hrepairs.back o₁ hmem₁
      obtain rfl : o₀ = o := hkeys.eq_of_key_eq ho₀ hmem (by rw [← hrep.id, hoid₁, hoid])
      obtain rfl : o₀ = object :=
        eq_of_mem_selectObjects_singleton (hselected ▸ hmem) (hoid.trans hid)
      refine .inr ⟨o₁, hmem, hrep, ?_⟩
      simp [hoid₁, hid]

/-- The rows at the commit of a reschedule: the repairs, and the write of the loaded object. -/
theorem Rewrites.reschedule {i : Nat}
    (hunique : Table.KeyUnique Task.id s.tasks)
    (hreq : s.requests[i]? = some (.reschedule object scheduledAt))
    (h : rescheduleTask env.sessionNamespaceFor s.snapshots scheduledAt object s.tasks =
      .ok tasks') : Rewrites env s (.commitReschedule i false) locks' tasks' := by
  have hwrites : statusWrites env s (.commitReschedule i false) =
      statusWrite object (rescheduled scheduledAt object) := by
    simp [statusWrites, hreq, h]
  obtain ⟨selected, repaired, hselected, hrepairs, rfl⟩ := rescheduleTask_eq_ok h
  have hkeys : Table.KeyUnique Task.id selected :=
    hselected ▸ keyUnique_selectObjects (hunique.filter _) _
  have hsequenced : Sequenced s → ∀ o ∈ selected, o.issueSequence ≠ none := by
    intro hs o ho
    rcases mem_selectObjects (hselected ▸ ho) with ho | ho
    · obtain rfl : o = object := by simpa using ho
      exact hs.requests o scheduledAt (mem_of_getElem? hreq)
    · exact hs.rows o (mem_filter.mp ho).1
  refine ⟨_, rfl, ?_⟩
  intro r hr
  by_cases hid : r.id = object.id
  · rcases flushRow_rescheduled hkeys hselected hrepairs hid with
      ⟨-, hsame⟩ | ⟨o₁, hmem, hrep, hflush⟩
    · rw [hsame]
      exact .refl r
    · rw [hflush]
      refine ⟨rfl, rfl, ?_, ?_⟩
      · intro hs
        obtain ⟨n, hn⟩ := Option.ne_none_iff_exists'.mp (hsequenced hs object hmem)
        simp [rescheduled, hn, hrep.sequence n hn]
      · have hst : (rescheduled scheduledAt o₁).status =
            (rescheduled scheduledAt object).status := by
          simp [rescheduled, hrep.status]
        rw [flushTask_status, hst]
        unfold flushColumn
        split
        · exact .keep
        next hne =>
        refine .stale object ?_ hid.symm
        rw [hwrites]
        simp [statusWrite, hne]
  · -- another Task of the Issue: only its repairs
    have hsame : flushRow selected
        (Table.update Task.id object.id (rescheduled scheduledAt) repaired) r =
        flushRow selected repaired r := by
      unfold flushRow
      rw [taskRow?_rescheduled]
      cases hfind : taskRow? r.id repaired with
      | none => rfl
      | some o =>
        have hoid : o.id ≠ object.id := by
          rw [(mem_of_taskRow? hfind).2]
          exact hid
        simp [hoid]
    rw [hsame]
    exact .of_repairs hkeys hrepairs hsequenced

/-! ### Appended Rows -/

theorem le_maxSequence {tasks : List Task} {t : Task} {n : Nat} (ht : t ∈ tasks)
    (hn : t.issueSequence = some n) : n ≤ maxSequence tasks := by
  have hfold : ∀ (ns : List Nat) (acc : Nat), acc ≤ ns.foldl max acc ∧
      ∀ m ∈ ns, m ≤ ns.foldl max acc := by
    intro ns
    induction ns with
    | nil => simp
    | cons k ks ih =>
      intro acc
      obtain ⟨hacc, hmem⟩ := ih (max acc k)
      refine ⟨le_trans (le_max_left _ _) hacc, ?_⟩
      intro m hm
      rcases mem_cons.mp hm with rfl | hm
      · exact le_trans (le_max_right _ _) hacc
      · exact hmem m hm
  exact (hfold _ 0).2 n (mem_filterMap.mpr ⟨t, ht, hn⟩)

section Append

variable {ns : String → Option String → String} {snapshots : Nat → Option WorkerSnapshot}

variable {issueId : Nat} {tasks rows : List Task}

theorem le_report_maxSequence {repairNulls : Bool}
    {report : IntegrityReport}
    (h : ensureIssueOrderIntegrityLocked ns snapshots issueId repairNulls tasks =
      .ok (report, rows)) {t : Task} {n : Nat} (ht : t ∈ tasks) (hn : t.issueSequence = some n) :
    n ≤ report.maxSequence := by
  obtain ⟨t', ht', hrep⟩ := (ensureIssueOrderIntegrityLocked_repairsOnly h).forth t ht
  simp only [ensureIssueOrderIntegrityLocked] at h
  split at h
  · obtain ⟨-, rfl⟩ := Prod.mk.inj (Except.ok.inj h)
    simp at ht'
  · obtain ⟨⟨k, sequenced⟩, -, h⟩ := bind_eq_ok_iff.mp h
    obtain ⟨⟨m, projected⟩, -, h⟩ := bind_eq_ok_iff.mp h
    cases h
    exact le_maxSequence ht' (hrep.sequence n hn)

theorem checkAppendTime_repairsOnly {scheduledAt : Option DateTime}
    (h : checkAppendTime ns snapshots issueId scheduledAt tasks = .ok rows) :
    RepairsOnly tasks rows := by
  cases scheduledAt with
  | none =>
    obtain rfl : tasks = rows := by simpa [checkAppendTime] using h
    exact .of_mem_iff fun _ => Iff.rfl
  | some t =>
    obtain ⟨⟨w, rows'⟩, hvalid, hret⟩ := bind_eq_ok_iff.mp h
    obtain rfl : rows' = rows := by simpa using hret
    obtain ⟨⟨report, rows''⟩, hensure, hvalid⟩ := bind_eq_ok_iff.mp hvalid
    obtain ⟨_, -, hvalid⟩ := bind_eq_ok_iff.mp hvalid
    obtain ⟨_, -, hvalid⟩ := bind_eq_ok_iff.mp hvalid
    obtain ⟨-, rfl⟩ := Prod.mk.inj (Except.ok.inj hvalid)
    exact ensureIssueOrderIntegrityLocked_repairsOnly hensure

/-- What `create_task_record` returns: the repaired rows of the Issue and the new tail. -/
theorem createTaskRecord_rows {issueId newId : Nat} {now : DateTime} {request : AppendRequest}
    (h : createTaskRecord ns snapshots issueId newId now request tasks = .ok rows) :
    ∃ repaired m p, RepairsOnly tasks repaired ∧
      (∀ t ∈ tasks, ∀ n, t.issueSequence = some n → n ≤ m) ∧
      rows = repaired ++ [newTask issueId newId now request m p] := by
  obtain ⟨⟨report, rows₁⟩, hensure, h⟩ := bind_eq_ok_iff.mp h
  obtain ⟨rows₂, htime, h⟩ := bind_eq_ok_iff.mp h
  obtain ⟨p, -, h⟩ := bind_eq_ok_iff.mp h
  refine ⟨rows₂, report.maxSequence, p, ?_, ?_, (Except.ok.inj h).symm⟩
  · exact (ensureIssueOrderIntegrityLocked_repairsOnly hensure).trans
      (checkAppendTime_repairsOnly htime)
  · intro t ht n hn
    exact le_report_maxSequence hensure ht hn

end Append

end Codify.TaskLifecycle
