import Codify.Framework.System
import Codify.IssueTaskOrder

/-! # The Schedule of One Issue

    The writers of `scheduled_at` run one at a time under the Issue row lock:
    `create_task_record` (append), `reschedule_task`, `execute_task`
    (execute-now) and the status changes of the Scheduler and of the Worker.
    This module runs them as a transition system over the Task rows of one
    Issue and shows that the queue stays monotone: over the active Tasks with a
    scheduled time, the time does not decrease with `issue_sequence`.
-/

namespace Codify.IssueSchedule

open Codify Codify.Framework Codify.IssueTaskOrder List Option

/-! ### Operations -/

/-- The part of a `CreateTaskRequest` that the ordering service sees. -/
structure AppendRequest where
  scheduledAt : Option DateTime := none
  harnessKey : String
  endpointFingerprint : Option String := none
  sessionMode : SessionMode := .continue
  priority : Int := 0
  deriving DecidableEq, Repr

section Operations

variable (sessionNamespaceFor : String → Option String → String)
variable (snapshots : Nat → Option WorkerSnapshot) (issueId : Nat)

/-- The row inserted by `create_task_record`. A fresh generation is its own reset
    point, and its id exists only after the flush. -/
def newTask (newId : Nat) (now : DateTime) (request : AppendRequest) (maxSequence : Nat)
    (projection : Projection) : Task :=
  let task : Task :=
    { id := newId
      issueId := issueId
      sessionMode := request.sessionMode
      priority := request.priority
      scheduledAt := request.scheduledAt
      issueSequence := some (maxSequence + 1)
      createdAt := now }
  let resetTaskId :=
    if request.sessionMode = .fresh ∧ projection.resetTaskId = none then some newId
    else projection.resetTaskId
  setProjection task { projection with resetTaskId }

/-- A scheduled append must satisfy the queue floor; one without a time is free. -/
def checkAppendTime (scheduledAt : Option DateTime) (tasks : List Task) :
    Except OrderError (List Task) :=
  match scheduledAt with
  | none => .ok tasks
  | some t => do
    let (_, tasks) ←
      validateScheduleTimeLocked sessionNamespaceFor snapshots issueId t none tasks
    return tasks

/-- `create_task_record`, from the Issue row lock to the commit. -/
def createTaskRecord (newId : Nat) (now : DateTime) (request : AppendRequest)
    (issueTasks : List Task) : Except OrderError (List Task) := do
  let (report, tasks) ←
    ensureIssueOrderIntegrityLocked sessionNamespaceFor snapshots issueId true issueTasks
  let tasks ←
    checkAppendTime sessionNamespaceFor snapshots issueId request.scheduledAt tasks
  let projection ← projectTailLineage report.tailProjection issueId request.harnessKey
    (sessionNamespaceFor request.harnessKey request.endpointFingerprint) request.sessionMode
  return tasks ++ [newTask issueId newId now request report.maxSequence projection]

def updateTask (taskId : Nat) (f : Task → Task) (tasks : List Task) : List Task :=
  tasks.map fun t => if t.id = taskId then f t else t

/-- The columns written by `reschedule_task`. -/
def rescheduled (scheduledAt : DateTime) (task : Task) : Task :=
  { task with
    scheduledAt := some scheduledAt
    status := if task.status = .queued then .pending else task.status }

/-- `reschedule_task`, from the Issue row lock to the commit. -/
def rescheduleTask (taskId : Nat) (scheduledAt : DateTime) (issueTasks : List Task) :
    Except OrderError (List Task) := do
  let (_, tasks) ← validateScheduleTimeLocked sessionNamespaceFor snapshots issueId
    scheduledAt (some taskId) issueTasks
  return updateTask taskId (rescheduled scheduledAt) tasks

end Operations

/-! ### The System -/

/-- The rows of one Issue, with the clock and the id sequence of the database. -/
structure State where
  tasks : List Task := []
  /-- `task_worker_profile_snapshots`, by Task id. -/
  snapshots : Nat → Option WorkerSnapshot := fun _ => none
  clock : DateTime := 0
  nextId : Nat := 1

/-- One serial operation on the Issue. -/
inductive Label where
  | append (request : AppendRequest)
  | reschedule (taskId : Nat) (scheduledAt : DateTime)
  /-- `execute_task`: clears `scheduled_at`. -/
  | executeNow (taskId : Nat)
  /-- A promotion, demotion or claim: the Task stays active. -/
  | activate (taskId : Nat) (status : TaskStatus)
  /-- A transition to a terminal status. -/
  | terminate (taskId : Nat) (status : TaskStatus)
  /-- Time passes and other Issues draw Task ids. -/
  | elapse (microseconds ids : Nat)
  deriving DecidableEq, Repr

def activeTask? (tasks : List Task) (taskId : Nat) : Option Task :=
  tasks.find? fun t => t.id == taskId && t.status.active

/-- The operations on one Issue, one at a time; a refused request is not a step. -/
def issueSchedule (sessionNamespaceFor : String → Option String → String) (issueId : Nat) :
    System State Label where
  init := fun s => s.tasks = []
  next := fun s l =>
    match l with
    | .append request =>
      match createTaskRecord sessionNamespaceFor s.snapshots issueId s.nextId s.clock request
          s.tasks with
      | .error _ => none
      | .ok tasks =>
        some { s with
          tasks
          nextId := s.nextId + 1
          snapshots := fun id =>
            if id = s.nextId then
              some { harnessKey := some request.harnessKey,
                     endpointFingerprint := request.endpointFingerprint }
            else s.snapshots id }
    | .reschedule taskId scheduledAt => do
      let _ ← activeTask? s.tasks taskId
      match rescheduleTask sessionNamespaceFor s.snapshots issueId taskId scheduledAt
          s.tasks with
      | .error _ => none
      | .ok tasks => some { s with tasks }
    | .executeNow taskId => do
      let _ ← activeTask? s.tasks taskId
      some { s with tasks := updateTask taskId ({ · with scheduledAt := none }) s.tasks }
    | .activate taskId status => do
      let _ ← activeTask? s.tasks taskId
      if status.active then
        some { s with tasks := updateTask taskId ({ · with status }) s.tasks }
      else none
    | .terminate taskId status => do
      let _ ← activeTask? s.tasks taskId
      if status.terminal then
        some { s with tasks := updateTask taskId ({ · with status }) s.tasks }
      else none
    | .elapse microseconds ids =>
      some { s with clock := s.clock + microseconds, nextId := s.nextId + ids }

/-! ### Monotone Queues -/

/-- Over the active Tasks with a scheduled time, the time does not decrease with the
    sequence number. -/
def ScheduleMonotone (tasks : List Task) : Prop :=
  ∀ a ∈ tasks, ∀ b ∈ tasks, a.status.active → b.status.active →
    ∀ i ∈ a.issueSequence, ∀ j ∈ b.issueSequence, i < j →
      ∀ x ∈ a.scheduledAt, ∀ y ∈ b.scheduledAt, x ≤ y

variable {tasks tasks' : List Task} {ns : String → Option String → String} {t now : DateTime}
  {new k : Task} {f : Task → Task} {taskId : Nat} {s : State} {p : Projection}
  {tail : Option Projection} {request : AppendRequest}

theorem ScheduleMonotone.floor_le_ceiling (h : ScheduleMonotone tasks)
    (excludeTaskId pivot : Option Nat) :
    ∀ lo ∈ floorTimes pivot (otherActive excludeTaskId tasks),
      ∀ hi ∈ ceilingTimes pivot (otherActive excludeTaskId tasks), lo ≤ hi := by
  rintro lo ⟨a, ha, hlo, hbelow⟩ hi ⟨b, hb, hhi, p, hp, j, hj, hpj⟩
  obtain ⟨i, hi', hip⟩ := hbelow p hp
  obtain ⟨ha, hactive⟩ := mem_filter.mp ha
  obtain ⟨hb, hactive'⟩ := mem_filter.mp hb
  simp only [Bool.and_eq_true] at hactive hactive'
  exact h a ha b hb hactive.1 hactive'.1 i hi' j hj (hip.trans hpj) lo hlo hi hhi

theorem window_valid (hord : WellOrdered tasks)
    (hmono : ScheduleMonotone tasks) (issueId : Nat) (excludeTaskId : Option Nat) :
    ∃ w, computeScheduleWindow issueId excludeTaskId tasks = .ok w ∧
      w.Spec excludeTaskId tasks ∧ w.hasValidWindow = true := by
  have hseq : ∀ t ∈ tasks, t.issueSequence.isSome := by
    intro t ht
    obtain ⟨q, hq, -⟩ := hord.sequenced.bounds ht
    simp [hq]
  obtain ⟨w, hw, hspec⟩ := computeScheduleWindow_spec hseq issueId excludeTaskId
  refine ⟨w, hw, hspec, hspec.valid.mpr ?_⟩
  intro lo hlo hi hhi
  have hceil : ∀ x ∈ floorTimes (pivotOf excludeTaskId tasks)
      (otherActive excludeTaskId tasks), x ≤ hi := by
    intro x hx
    exact (hspec.ceiling.forall_le_iff x).mpr (hmono.floor_le_ceiling excludeTaskId _ x hx) hi hhi
  exact (hspec.floor.forall_le_iff hi).mpr hceil lo hlo

/-- `validate_schedule_time_locked` writes nothing to a well-ordered queue and accepts
    exactly the times between the floor and the ceiling. -/
theorem validate_accepts_iff (hord : WellOrdered tasks)
    (hmono : ScheduleMonotone tasks) (ns : String → Option String → String)
    (snapshots : Nat → Option WorkerSnapshot) (issueId : Nat) (t : DateTime)
    (excludeTaskId : Option Nat) :
    (∃ w, validateScheduleTimeLocked ns snapshots issueId t excludeTaskId tasks =
        .ok (w, tasks)) ↔
      (∀ lo ∈ floorTimes (pivotOf excludeTaskId tasks) (otherActive excludeTaskId tasks), lo ≤ t) ∧
      (∀ hi ∈ ceilingTimes (pivotOf excludeTaskId tasks) (otherActive excludeTaskId tasks),
        t ≤ hi) := by
  obtain ⟨w, hw, hspec, hvalid⟩ := window_valid hord hmono issueId excludeTaskId
  rw [← hspec.floor.forall_le_iff, ← hspec.ceiling.forall_le_iff]
  simp only [validateScheduleTimeLocked, hord.ensureIssueOrderIntegrityLocked_eq, ok_bind, hw]
  constructor
  · rintro ⟨w', h⟩
    obtain ⟨w'', hcheck, -⟩ := bind_eq_ok_iff.mp h
    exact (checkWindow_eq_ok_iff.mp hcheck).2.2
  · intro h
    have hcheck : checkWindow w t = .ok w := checkWindow_eq_ok_iff.mpr ⟨rfl, hvalid, h⟩
    exact ⟨w, by simp [hcheck]⟩

theorem validate_rows (hord : WellOrdered tasks)
    {snapshots : Nat → Option WorkerSnapshot}
    {issueId : Nat} {excludeTaskId : Option Nat} {w : ScheduleWindow}
    (h : validateScheduleTimeLocked ns snapshots issueId t excludeTaskId tasks =
      .ok (w, tasks')) : tasks' = tasks := by
  simp only [validateScheduleTimeLocked, hord.ensureIssueOrderIntegrityLocked_eq, ok_bind] at h
  obtain ⟨w', -, h⟩ := bind_eq_ok_iff.mp h
  obtain ⟨w'', -, h⟩ := bind_eq_ok_iff.mp h
  simp only [pure_eq_ok, Except.ok.injEq, Prod.mk.injEq] at h
  exact h.2.symm

/-! ### Writing a Time -/

/-- **Append**: a new tail Task at `t` keeps the queue monotone exactly when no active
    Task is scheduled after `t`. -/
theorem monotone_append_iff (hord : WellOrdered tasks)
    (hmono : ScheduleMonotone tasks)
    (hseq : new.issueSequence = some (tasks.length + 1)) (hactive : new.status.active = true)
    (htime : new.scheduledAt = some t) :
    ScheduleMonotone (tasks ++ [new]) ↔
      ∀ lo ∈ floorTimes none (otherActive none tasks), lo ≤ t := by
  constructor
  · rintro h lo ⟨a, ha, hlo, -⟩
    obtain ⟨ha, haa⟩ := mem_filter.mp ha
    obtain ⟨i, hi, -, hlt⟩ := hord.sequenced.bounds ha
    refine h a (by simp [ha]) new (by simp) (by simpa using haa) hactive i hi
      (tasks.length + 1) hseq (by omega) lo hlo t htime
  · intro h a ha b hb haa hba i hi j hj hij x hx y hy
    rcases mem_append.mp ha with hat | han <;> rcases mem_append.mp hb with hbt | hbn
    · exact hmono a hat b hbt haa hba i hi j hj hij x hx y hy
    · obtain rfl : b = new := by simpa using hbn
      obtain rfl : t = y := some.inj (htime.symm.trans hy)
      exact h x ⟨a, mem_filter.mpr ⟨hat, by simp [haa]⟩, hx, by simp⟩
    · obtain rfl : a = new := by simpa using han
      obtain ⟨q, hq, -, hlt⟩ := hord.sequenced.bounds hbt
      obtain rfl : q = j := some.inj (hq.symm.trans hj)
      obtain rfl : tasks.length + 1 = i := some.inj (hseq.symm.trans hi)
      omega
    · obtain rfl : a = new := by simpa using han
      obtain rfl : b = a := by simpa using hbn
      obtain rfl : i = j := some.inj (hi.symm.trans hj)
      exact absurd hij (lt_irrefl i)

theorem monotone_append_unscheduled (hmono : ScheduleMonotone tasks)
    (htime : new.scheduledAt = none) : ScheduleMonotone (tasks ++ [new]) := by
  intro a ha b hb haa hba i hi j hj hij x hx y hy
  rcases mem_append.mp ha with hat | han
  · rcases mem_append.mp hb with hbt | hbn
    · exact hmono a hat b hbt haa hba i hi j hj hij x hx y hy
    · obtain rfl : b = new := by simpa using hbn
      rw [htime] at hy
      cases hy
  · obtain rfl : a = new := by simpa using han
    rw [htime] at hx
    cases hx

theorem mem_updateTask {t' : Task} :
    t' ∈ updateTask taskId f tasks ↔
      ∃ t ∈ tasks, t' = if t.id = taskId then f t else t := by
  simp [updateTask, eq_comm]

theorem activeTask?_eq_some
    (h : activeTask? tasks taskId = some k) :
    k ∈ tasks ∧ k.id = taskId ∧ k.status.active = true := by
  have hp := find?_some h
  simp only [Bool.and_eq_true, beq_iff_eq] at hp
  exact ⟨mem_of_find?_eq_some h, hp.1, hp.2⟩

/-- **Reschedule**: moving an active Task to `t` keeps the queue monotone exactly when
    `t` lies between the times before and the times after it. -/
theorem monotone_reschedule_iff (hord : WellOrdered tasks)
    (hmono : ScheduleMonotone tasks) (hk : k ∈ tasks)
    (hactive : k.status.active = true) (t : DateTime) :
    ScheduleMonotone (updateTask k.id (rescheduled t) tasks) ↔
      (∀ lo ∈ floorTimes (pivotOf (some k.id) tasks) (otherActive (some k.id) tasks), lo ≤ t) ∧
      (∀ hi ∈ ceilingTimes (pivotOf (some k.id) tasks) (otherActive (some k.id) tasks),
        t ≤ hi) := by
  obtain ⟨p, hp, -⟩ := hord.sequenced.bounds hk
  rw [hord.pivotOf_eq hk hactive, hp]
  have hkactive : (rescheduled t k).status.active = true := by
    simp only [rescheduled]
    split
    · rfl
    · exact hactive
  have hknew : rescheduled t k ∈ updateTask k.id (rescheduled t) tasks :=
    mem_updateTask.mpr ⟨k, hk, by simp⟩
  have hother : ∀ a ∈ otherActive (some k.id) tasks,
      a ∈ tasks ∧ a.status.active = true ∧ a ∈ updateTask k.id (rescheduled t) tasks := by
    intro a ha
    obtain ⟨ha, hcond⟩ := mem_filter.mp ha
    simp only [all_some, Bool.and_eq_true, bne_iff_ne] at hcond
    exact ⟨ha, hcond.1, mem_updateTask.mpr ⟨a, ha, by simp [hcond.2]⟩⟩
  constructor
  · intro h
    constructor
    · rintro lo ⟨a, ha, hlo, hbelow⟩
      obtain ⟨i, hi, hip⟩ := hbelow p rfl
      obtain ⟨-, haa, hanew⟩ := hother a ha
      exact h a hanew _ hknew haa hkactive i hi p hp hip lo hlo t rfl
    · rintro hi ⟨b, hb, hhi, p', hp', j, hj, hpj⟩
      obtain rfl : p = p' := some.inj hp'
      obtain ⟨-, hba, hbnew⟩ := hother b hb
      exact h _ hknew b hbnew hkactive hba p hp j hj hpj t rfl hi hhi
  · rintro ⟨hfloor, hceil⟩ a' ha' b' hb' haa hba i hi j hj hij x hx y hy
    obtain ⟨a, ha, rfl⟩ := mem_updateTask.mp ha'
    obtain ⟨b, hb, rfl⟩ := mem_updateTask.mp hb'
    by_cases hak : a.id = k.id <;> by_cases hbk : b.id = k.id
    · obtain rfl := hord.eq_of_id ha hk hak
      obtain rfl := hord.eq_of_id hb hk hbk
      obtain rfl : i = j := some.inj (hi.symm.trans hj)
      exact absurd hij (lt_irrefl i)
    · obtain rfl := hord.eq_of_id ha hk hak
      simp only [if_true, rescheduled, mem_def, Option.some.injEq] at hi hx
      subst hx
      simp only [hbk, if_false] at hj hy hba
      obtain rfl : p = i := some.inj (hp.symm.trans hi)
      exact hceil y ⟨b, mem_filter.mpr ⟨hb, by simp [hba, hbk]⟩, hy, p, rfl, j, hj, hij⟩
    · obtain rfl := hord.eq_of_id hb hk hbk
      simp only [if_true, rescheduled, mem_def, Option.some.injEq] at hj hy
      subst hy
      simp only [hak, if_false] at hi hx haa
      obtain rfl : p = j := some.inj (hp.symm.trans hj)
      refine hfloor x ⟨a, mem_filter.mpr ⟨ha, by simp [haa, hak]⟩, hx, ?_⟩
      rintro p' hp'
      obtain rfl : p = p' := some.inj hp'
      exact ⟨i, hi, hij⟩
    · simp only [hak, hbk, if_false] at hi hx haa hj hy hba
      exact hmono a ha b hb haa hba i hi j hj hij x hx y hy

theorem monotone_update (hmono : ScheduleMonotone tasks)
    (hseq : ∀ t, (f t).issueSequence = t.issueSequence)
    (hactive : ∀ t ∈ tasks, t.id = taskId → (f t).status.active = true →
      t.status.active = true)
    (htime : ∀ t x, (f t).scheduledAt = some x → t.scheduledAt = some x) :
    ScheduleMonotone (updateTask taskId f tasks) := by
  have hback : ∀ t' ∈ updateTask taskId f tasks, t'.status.active = true →
      ∃ t ∈ tasks, t.status.active = true ∧ t.issueSequence = t'.issueSequence ∧
        ∀ x, t'.scheduledAt = some x → t.scheduledAt = some x := by
    intro t' ht' ha
    obtain ⟨t, ht, rfl⟩ := mem_updateTask.mp ht'
    by_cases hid : t.id = taskId
    · simp only [hid, if_true] at ha ⊢
      exact ⟨t, ht, hactive t ht hid ha, (hseq t).symm, htime t⟩
    · simp only [hid, if_false] at ha ⊢
      exact ⟨t, ht, ha, rfl, fun _ hx => hx⟩
  intro a' ha' b' hb' haa hba i hi j hj hij x hx y hy
  obtain ⟨a, ha, haa, hsa, hta⟩ := hback a' ha' haa
  obtain ⟨b, hb, hba, hsb, htb⟩ := hback b' hb' hba
  exact hmono a ha b hb haa hba i (hsa.trans hi) j (hsb.trans hj) hij x (hta x hx) y (htb y hy)

/-! ### Invariants -/

/-- What every serial execution maintains. -/
structure Inv (s : State) : Prop where
  ordered : WellOrdered s.tasks
  /-- Rows are in the past of the clock and of the id sequence. -/
  past : ∀ t ∈ s.tasks, t.createdAt ≤ s.clock ∧ t.id < s.nextId
  monotone : ScheduleMonotone s.tasks

/-- A write of one row that keeps its identity, rank and lineage keeps the rows
    well-ordered. -/
theorem wellOrdered_update (hord : WellOrdered tasks)
    (hid : ∀ t, (f t).id = t.id)
    (hseq : ∀ t, (f t).issueSequence = t.issueSequence)
    (hcreated : ∀ t, (f t).createdAt = t.createdAt)
    (hproj : ∀ t, hasFullProjection (f t) = hasFullProjection t) :
    WellOrdered (updateTask taskId f tasks) := by
  have hif : ∀ {α : Type} (g : Task → α), (∀ t, g (f t) = g t) →
      ∀ t : Task, g (if t.id = taskId then f t else t) = g t := by
    intro α g hg t
    split
    · exact hg t
    · rfl
  refine ⟨hord.sequenced.map (hif (·.issueSequence) hseq), ?_, ?_, ?_⟩
  · refine pairwise_map.mpr (hord.created.imp ?_)
    intro a b hab
    simpa only [createdBefore, hif (·.createdAt) hcreated, hif (·.id) hid] using hab
  · have hids : (updateTask taskId f tasks).map (·.id) = tasks.map (·.id) := by
      simp [updateTask, Function.comp_def, hif (·.id) hid]
    rw [hids]
    exact hord.ids
  · intro t' ht'
    obtain ⟨t, ht, rfl⟩ := mem_updateTask.mp ht'
    rw [hif hasFullProjection hproj]
    exact hord.projected t ht

/-- A write of one row that keeps its identity, rank and lineage keeps everything but
    the monotone order, which the caller provides. -/
theorem inv_update (h : Inv s)
    (hid : ∀ t, (f t).id = t.id) (hseq : ∀ t, (f t).issueSequence = t.issueSequence)
    (hcreated : ∀ t, (f t).createdAt = t.createdAt)
    (hproj : ∀ t, hasFullProjection (f t) = hasFullProjection t)
    (hmono : ScheduleMonotone (updateTask taskId f s.tasks)) :
    Inv { s with tasks := updateTask taskId f s.tasks } := by
  refine ⟨wellOrdered_update h.ordered hid hseq hcreated hproj, ?_, hmono⟩
  intro t' ht'
  obtain ⟨t, ht, rfl⟩ := mem_updateTask.mp ht'
  have := h.past t ht
  split
  · rwa [hid, hcreated]
  · exact this

theorem taskProjection_reset {task : Task} (h : taskProjection task = some p) :
    0 < p.generation → p.resetTaskId.isSome := by
  intro hpos
  cases hk : task.projectedHarnessKey <;> cases hn : task.projectedSessionNamespace <;>
    cases hg : task.projectedLineageGeneration <;> cases hr : task.lineageProjectionReason <;>
    simp [taskProjection, hasFullProjection, hk, hn, hg, hr] at h
  obtain ⟨hreset, rfl⟩ := h
  exact isSome_iff_ne_none.mpr (hreset hpos)

/-- A projected generation above 0 is fresh, or inherits the reset point of the tail. -/
theorem projectTailLineage_reset {issueId : Nat}
    {harnessKey sessionNamespace : String} {sessionMode : SessionMode}
    (htail : ∀ q, tail = some q → 0 < q.generation → q.resetTaskId.isSome)
    (h : projectTailLineage tail issueId harnessKey sessionNamespace sessionMode = .ok p)
    (hpos : 0 < p.generation) : sessionMode = .fresh ∨ p.resetTaskId.isSome := by
  unfold projectTailLineage at h
  split at h
  · cases h
    left
    by_contra hmode
    simp [hmode] at hpos
  · rename_i q hq
    split at h
    · left
      assumption
    · split at h
      · cases h
        exact .inr (htail q (filter_eq_some_iff.mp hq).1 hpos)
      · cases h

/-- The lineage projected for a new tail Task is complete once a fresh generation is
    its own reset point. -/
theorem newTask_projected {issueId newId : Nat}
    {sessionNamespace : String} {n : Nat}
    (htail : ∀ q, tail = some q → 0 < q.generation → q.resetTaskId.isSome)
    (h : projectTailLineage tail issueId request.harnessKey sessionNamespace
      request.sessionMode = .ok p) :
    hasFullProjection (newTask issueId newId now request n p) = true := by
  have hcomplete := projectTailLineage_reset htail h
  by_cases hmode : request.sessionMode = .fresh <;> cases hreset : p.resetTaskId <;>
    simp_all [newTask, setProjection, hasFullProjection]

theorem createTaskRecord_eq_ok
    {snapshots : Nat → Option WorkerSnapshot} {issueId newId : Nat}
    (hord : WellOrdered tasks)
    (h : createTaskRecord ns snapshots issueId newId now request tasks = .ok tasks') :
    ∃ p, tasks' = tasks ++ [newTask issueId newId now request tasks.length p] ∧
      hasFullProjection (newTask issueId newId now request tasks.length p) = true ∧
      ∀ t, request.scheduledAt = some t →
        ∃ w, validateScheduleTimeLocked ns snapshots issueId t none tasks = .ok (w, tasks) := by
  simp only [createTaskRecord, hord.ensureIssueOrderIntegrityLocked_eq, ok_bind] at h
  obtain ⟨rows, hrows, h⟩ := bind_eq_ok_iff.mp h
  obtain ⟨p, hp, h⟩ := bind_eq_ok_iff.mp h
  have hvalid : rows = tasks ∧ ∀ t, request.scheduledAt = some t →
      ∃ w, validateScheduleTimeLocked ns snapshots issueId t none tasks = .ok (w, tasks) := by
    cases ht : request.scheduledAt with
    | none =>
      simp only [checkAppendTime, ht, Except.ok.injEq] at hrows
      exact ⟨hrows.symm, by simp⟩
    | some t =>
      simp only [checkAppendTime, ht] at hrows
      obtain ⟨⟨w, rows'⟩, hw, hret⟩ := bind_eq_ok_iff.mp hrows
      obtain rfl := validate_rows hord hw
      simp only [pure_eq_ok, Except.ok.injEq] at hret
      refine ⟨hret.symm, ?_⟩
      rintro t' ht'
      cases ht'
      exact ⟨w, hw⟩
  obtain ⟨rfl, hvalid⟩ := hvalid
  simp only [pure_eq_ok, Except.ok.injEq] at h
  refine ⟨p, h.symm, newTask_projected ?_ hp, hvalid⟩
  intro q hq
  obtain ⟨task, -, hq⟩ := bind_eq_some_iff.mp hq
  exact taskProjection_reset hq

theorem inv_append {issueId : Nat}
    (h : Inv s)
    (hok : createTaskRecord ns s.snapshots issueId s.nextId s.clock request s.tasks =
      .ok tasks') (snapshots' : Nat → Option WorkerSnapshot) :
    Inv { s with tasks := tasks', nextId := s.nextId + 1, snapshots := snapshots' } := by
  obtain ⟨p, rfl, hproj, hvalid⟩ := createTaskRecord_eq_ok h.ordered hok
  set new := newTask issueId s.nextId s.clock request s.tasks.length p with hnew
  have hseq : new.issueSequence = some (s.tasks.length + 1) := rfl
  refine ⟨h.ordered.append h.past rfl rfl hseq hproj, past_append h.past rfl rfl, ?_⟩
  cases ht : request.scheduledAt with
  | none => exact monotone_append_unscheduled h.monotone ht
  | some t =>
    have hfloor := ((validate_accepts_iff h.ordered h.monotone ns s.snapshots issueId t
      none).mp (hvalid t ht)).1
    exact (monotone_append_iff h.ordered h.monotone hseq rfl ht).mpr hfloor

theorem inv_reschedule {issueId : Nat}
    (h : Inv s)
    (hk : activeTask? s.tasks taskId = some k)
    (hok : rescheduleTask ns s.snapshots issueId taskId t s.tasks = .ok tasks') :
    Inv { s with tasks := tasks' } := by
  obtain ⟨hmem, rfl, hactive⟩ := activeTask?_eq_some hk
  obtain ⟨⟨w, rows⟩, hw, hrows⟩ := bind_eq_ok_iff.mp hok
  obtain rfl := validate_rows h.ordered hw
  simp only [pure_eq_ok, Except.ok.injEq] at hrows
  obtain rfl := hrows
  have hbounds := (validate_accepts_iff h.ordered h.monotone ns s.snapshots issueId t
    (some k.id)).mp ⟨w, hw⟩
  exact inv_update h (fun _ => rfl) (fun _ => rfl) (fun _ => rfl) (fun _ => rfl)
    ((monotone_reschedule_iff h.ordered h.monotone hmem hactive t).mpr hbounds)

/-- Each operation keeps the order, the past and the schedule. -/
theorem inv_step {issueId : Nat} {s s' : State}
    {l : Label} (h : Inv s) (hstep : (issueSchedule ns issueId).next s l = some s') :
    Inv s' := by
  simp only [issueSchedule] at hstep
  cases l with
  | append request =>
    simp only at hstep
    split at hstep
    · cases hstep
    · rename_i tasks' hok
      cases hstep
      exact inv_append h hok _
  | reschedule taskId t =>
    obtain ⟨k, hk, hstep⟩ := bind_eq_some_iff.mp hstep
    split at hstep
    · cases hstep
    · rename_i tasks' hok
      cases hstep
      exact inv_reschedule h hk hok
  | executeNow taskId =>
    obtain ⟨k, hk, hstep⟩ := bind_eq_some_iff.mp hstep
    cases hstep
    exact inv_update h (fun _ => rfl) (fun _ => rfl) (fun _ => rfl) (fun _ => rfl)
      (monotone_update h.monotone (fun _ => rfl) (fun _ _ _ ha => ha) (by simp))
  | activate taskId status =>
    obtain ⟨k, hk, hstep⟩ := bind_eq_some_iff.mp hstep
    obtain ⟨hmem, rfl, hactive⟩ := activeTask?_eq_some hk
    split at hstep
    · cases hstep
      refine inv_update h (fun _ => rfl) (fun _ => rfl) (fun _ => rfl) (fun _ => rfl)
        (monotone_update h.monotone (fun _ => rfl) ?_ (fun _ _ hx => hx))
      intro t ht hid _
      rw [h.ordered.eq_of_id ht hmem hid]
      exact hactive
    · cases hstep
  | terminate taskId status =>
    obtain ⟨k, hk, hstep⟩ := bind_eq_some_iff.mp hstep
    split at hstep
    · rename_i hterminal
      cases hstep
      refine inv_update h (fun _ => rfl) (fun _ => rfl) (fun _ => rfl) (fun _ => rfl)
        (monotone_update h.monotone (fun _ => rfl) ?_ (fun _ _ hx => hx))
      intro t _ _ ha
      simp_all
    · cases hstep
  | elapse microseconds ids =>
    cases hstep
    refine ⟨h.ordered, ?_, h.monotone⟩
    intro t ht
    have := h.past t ht
    exact ⟨Int.le_trans this.1 (Int.le_add_of_nonneg_right (Int.natCast_nonneg _)),
      by simp only; omega⟩

theorem inv_reachable {issueId : Nat}
    (h : (issueSchedule ns issueId).Reachable System.anyStep s) : Inv s := by
  refine h.invariant ?_ (fun s l s' hs _ hstep => inv_step hs hstep)
  intro s hs
  have hs : s.tasks = [] := hs
  refine ⟨⟨?_, ?_, ?_, ?_⟩, ?_, ?_⟩ <;> simp [hs, SequencedFrom, ScheduleMonotone]

/-! ### Schedule Monotonicity -/

/-- In every state reached by serial operations on an empty Issue: the queue is
    monotone; every schedule window is valid; a time is accepted for an append exactly
    when the new tail Task at that time keeps the queue monotone; and it is accepted for
    the reschedule of an active Task exactly when writing it keeps the queue monotone. -/
theorem schedule_monotonicity (ns : String → Option String → String) (issueId : Nat)
    (h : (issueSchedule ns issueId).Reachable System.anyStep s) :
    ScheduleMonotone s.tasks ∧
    (∀ excludeTaskId, ∃ w, computeScheduleWindow issueId excludeTaskId s.tasks = .ok w ∧
      w.hasValidWindow = true) ∧
    (∀ t (new : Task), new.issueSequence = some (maxSequence s.tasks + 1) →
      new.status.active = true → new.scheduledAt = some t →
      ((∃ r, validateScheduleTimeLocked ns s.snapshots issueId t none s.tasks = .ok r) ↔
        ScheduleMonotone (s.tasks ++ [new]))) ∧
    (∀ t, ∀ k ∈ s.tasks, k.status.active = true →
      ((∃ r, validateScheduleTimeLocked ns s.snapshots issueId t (some k.id) s.tasks = .ok r) ↔
        ScheduleMonotone (updateTask k.id (rescheduled t) s.tasks))) := by
  have hinv := inv_reachable h
  have haccept : ∀ t excludeTaskId,
      (∃ r, validateScheduleTimeLocked ns s.snapshots issueId t excludeTaskId s.tasks =
        .ok r) ↔
      ∃ w, validateScheduleTimeLocked ns s.snapshots issueId t excludeTaskId s.tasks =
        .ok (w, s.tasks) := by
    intro t excludeTaskId
    constructor
    · rintro ⟨⟨w, rows⟩, hw⟩
      obtain rfl := validate_rows hinv.ordered hw
      exact ⟨w, hw⟩
    · rintro ⟨w, hw⟩
      exact ⟨_, hw⟩
  refine ⟨hinv.monotone, ?_, ?_, ?_⟩
  · intro excludeTaskId
    obtain ⟨w, hw, -, hvalid⟩ := window_valid hinv.ordered hinv.monotone issueId excludeTaskId
    exact ⟨w, hw, hvalid⟩
  · intro t new hseq hactive htime
    rw [hinv.ordered.maxSequence_eq] at hseq
    rw [haccept, validate_accepts_iff hinv.ordered hinv.monotone,
      monotone_append_iff hinv.ordered hinv.monotone hseq hactive htime]
    simp [pivotOf, ceilingTimes]
  · intro t k hk hactive
    rw [haccept, validate_accepts_iff hinv.ordered hinv.monotone,
      monotone_reschedule_iff hinv.ordered hinv.monotone hk hactive]

/-- A run with two scheduled appends, a reschedule of the first Task and an
    execute-now of the second. -/
theorem schedule_monotonicity_run :
    ∃ s, (issueSchedule (fun key _ => key) 7).Reachable System.anyStep s ∧
      s.tasks.map (·.scheduledAt) = [some 15, none] ∧ ScheduleMonotone s.tasks := by
  have hreach := System.reachable_of_exec (s := ({} : State)) rfl
    (show (issueSchedule (fun key _ => key) 7).exec {}
      [.append { harnessKey := "claude", scheduledAt := some 10 }, .elapse 3 2,
       .append { harnessKey := "claude", scheduledAt := some 20 }, .activate 1 .queued,
       .reschedule 1 15, .executeNow 4] = some _ from rfl)
  exact ⟨_, hreach, rfl, (schedule_monotonicity _ _ hreach).1⟩

end Codify.IssueSchedule
