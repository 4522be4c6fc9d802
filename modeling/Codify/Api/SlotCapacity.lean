import Codify.Api.SlotWriters

/-! # Slot Capacity

    A slot is counted under its lock and filled before the lock is released, so
    no slot exceeds the maximum, as long as no other write brings a Task into
    it. The one write that could is the commit of a reschedule that loaded a
    QUEUED Task: it sets the Task back to PENDING, also when the Task has ended
    in the meantime and a retry of it is about to be committed into its slot.

    * `Evolves` says what any step does to the rows.
    * `TxInv` says what a prepared write does to the slots.
    * `slot_capacity_never_exceeded` is the bound for every run of calm steps.
-/

namespace Codify.Api.SlotWriters

open Codify Codify.Framework Codify.IssueTaskOrder Codify.Api Codify.TaskLifecycle List Option
open Codify.IssueSchedule (AppendRequest createTaskRecord checkAppendTime newTask rescheduled)
open Codify.IssueTaskLineage (RetryRequest retryTaskRecord retryTask)

variable {env : Env} {s s' : State} {l : Label}

/-! ### Prepared Writes -/

section Prepared

variable {ns : String → Option String → String} {snapshots : Nat → Option WorkerSnapshot}

/-- What `retry_task_record` returns: the repaired rows of the Issue and the new tail. -/
theorem retryTaskRecord_rows {issueId newId : Nat} {outputSessions : Nat → Option String}
    {now : DateTime} {request : RetryRequest} {source : Task} {tasks rows : List Task}
    (h : retryTaskRecord ns snapshots issueId outputSessions newId now request source tasks =
      .ok rows) :
    ∃ repaired source' mode fresh m p, RepairsOnly tasks repaired ∧
      rows = repaired ++ [retryTask newId now request source' mode fresh m p] := by
  unfold retryTaskRecord at h
  split at h
  · cases h
  · obtain ⟨⟨report, rows₁⟩, hensure, h⟩ := bind_eq_ok_iff.mp h
    obtain ⟨p, -, h⟩ := bind_eq_ok_iff.mp h
    obtain ⟨rows₂, htime, h⟩ := bind_eq_ok_iff.mp h
    refine ⟨rows₂, _, _, _, _, p, ?_, (Except.ok.inj h).symm⟩
    exact (ensureIssueOrderIntegrityLocked_repairsOnly (mapError_eq_ok_iff.mp hensure)).trans
      (checkAppendTime_repairsOnly (mapError_eq_ok_iff.mp htime))

/-- What `reschedule_task` flushes: repaired objects, and the new time of its own. -/
theorem rescheduleObjects_eq_ok {scheduledAt : DateTime} {object : Task}
    {tasks loaded current : List Task}
    (h : rescheduleObjects ns snapshots scheduledAt object tasks = .ok (loaded, current)) :
    ∃ repaired, loaded = selectObjects [object] (tasks.filter (·.issueId = object.issueId)) ∧
      RepairsOnly loaded repaired ∧
      current = Table.update Task.id object.id (rescheduled scheduledAt) repaired := by
  simp only [rescheduleObjects] at h
  obtain ⟨⟨report, repaired⟩, hensure, h⟩ := bind_eq_ok_iff.mp h
  obtain ⟨window, -, h⟩ := bind_eq_ok_iff.mp h
  obtain ⟨-, -, h⟩ := bind_eq_ok_iff.mp h
  cases h
  exact ⟨repaired, rfl, ensureIssueOrderIntegrityLocked_repairsOnly hensure, rfl⟩

end Prepared

variable {loaded repaired tasks tasks' : List Task} {new : Task} {newId taskId k j m : Nat}
  {time now : DateTime} {tx : Transaction} {f : Task → Task} {session : Session}
  {enabled : TaskStatus → Bool} {status : TaskStatus}

theorem append_rows_split
    (hnew : ∀ o ∈ loaded, o.id ≠ newId) (hrepairs : RepairsOnly loaded repaired)
    (hid : new.id = newId) :
    (repaired ++ [new]).filter (·.id ≠ newId) = repaired ∧
      taskRow? newId (repaired ++ [new]) = some new := by
  have hrepaired : ∀ o ∈ repaired, o.id ≠ newId := by
    intro o' ho'
    obtain ⟨o, ho, hrep⟩ := hrepairs.back o' ho'
    rw [hrep.id]
    exact hnew o ho
  constructor
  · rw [filter_append, filter_eq_self.mpr]
    · simp [hid]
    · intro o ho
      simpa using hrepaired o ho
  · have hnone : repaired.find? (fun r => decide (r.id = newId)) = none := by
      rw [find?_eq_none]
      intro o ho
      simpa using hrepaired o ho
    simp [taskRow?, Table.row?, find?_append, hnone, hid]

theorem inSlot_iff {task : Task} :
    inSlot time task = true ↔
      task.status.active = true ∧ ∃ t, task.scheduledAt = some t ∧
        hourStart t = hourStart time := by
  unfold inSlot
  rw [Bool.and_eq_true]
  refine and_congr_right fun _ => ?_
  cases task.scheduledAt with
  | none => simp
  | some t =>
    rw [any_some, Bool.and_eq_true, decide_eq_true_iff, decide_eq_true_iff, mem_hour_iff]
    simp

/-- A source that has ended, and the row that says so. -/
def Ended (tasks : List Task) (taskId : Nat) : Prop :=
  (∃ r ∈ tasks, r.id = taskId) ∧ ∀ r ∈ tasks, r.id = taskId → r.status.active = false

/-- What a prepared write does: it changes no status, and it brings a Task only into the slot
    that it checks, a new one or the one that it leaves out of the count. -/
structure TxInv (tasks : List Task) (tx : Transaction) : Prop where
  status : ∀ r, (flushRow tx.loaded tx.current r).status = r.status
  slot : ∀ r time, inSlot time (flushRow tx.loaded tx.current r) = true →
    inSlot time r = true ∨
      tx.inserted = none ∧ tx.excludeTaskId = some r.id ∧
        ∃ t, tx.scheduledAt = some t ∧ hourStart t = hourStart time
  inserted : ∀ task, tx.inserted = some task →
    task.status = .pending ∧ task.scheduledAt = tx.scheduledAt
  source : ∀ task taskId, tx.inserted = some task → tx.excludeTaskId = some taskId →
    Ended tasks taskId
  excluded : tx.inserted = none → tx.excludeTaskId.isSome

theorem TxInv.append
    (hkeys : Table.KeyUnique Task.id loaded)
    (hnew : ∀ o ∈ loaded, o.id ≠ newId) (hrepairs : RepairsOnly loaded repaired)
    (hid : new.id = newId) (hpending : new.status = .pending)
    (htime : new.scheduledAt = tx.scheduledAt) (hloaded : tx.loaded = loaded)
    (hcurrent : tx.current = (repaired ++ [new]).filter (·.id ≠ newId))
    (hinserted : tx.inserted = taskRow? newId (repaired ++ [new]))
    (hsource : ∀ taskId, tx.excludeTaskId = some taskId → Ended tasks taskId) :
    TxInv tasks tx := by
  obtain ⟨hfilter, hrow⟩ := append_rows_split hnew hrepairs hid
  rw [hfilter] at hcurrent
  rw [hrow] at hinserted
  have hframe : ∀ r, unordered (flushRow tx.loaded tx.current r) = unordered r := by
    intro r
    rw [hloaded, hcurrent]
    exact flushRow_repairsOnly hkeys hrepairs r
  have hstatus : ∀ r, (flushRow tx.loaded tx.current r).status = r.status := by
    intro r
    show (unordered (flushRow tx.loaded tx.current r)).status = (unordered r).status
    rw [hframe r]
  refine ⟨hstatus, ?_, ?_, ?_, ?_⟩
  · intro r time h
    left
    have hsame : inSlot time (unordered (flushRow tx.loaded tx.current r)) =
        inSlot time (unordered r) := by
      rw [hframe r]
    exact hsame.symm.trans h
  · intro task htask
    rw [hinserted] at htask
    rw [← some.inj htask]
    exact ⟨hpending, htime⟩
  · intro task taskId _ hexclude
    exact hsource taskId hexclude
  · intro hnone
    rw [hinserted] at hnone
    cases hnone

/-- What a reschedule prepares leaves the Task that it moves out of the count. -/
theorem TxInv.reschedule {tasks rows repaired : List Task} {object : Task}
    {scheduledAt : DateTime} (hrows : Table.KeyUnique Task.id rows)
    (hpending : object.status ≠ .queued)
    (hloaded : tx.loaded = selectObjects [object] rows)
    (hrepairs : RepairsOnly tx.loaded repaired)
    (hcurrent : tx.current = Table.update Task.id object.id (rescheduled scheduledAt) repaired)
    (hinserted : tx.inserted = none) (hexclude : tx.excludeTaskId = some object.id)
    (htime : tx.scheduledAt = some scheduledAt) : TxInv tasks tx := by
  have hkeys : Table.KeyUnique Task.id tx.loaded := hloaded ▸ keyUnique_selectObjects hrows _
  -- the row of another Task gets its repairs only
  have hother : ∀ r : Task, r.id ≠ object.id →
      unordered (flushRow tx.loaded tx.current r) = unordered r := by
    intro r hne
    have hsame : flushRow tx.loaded tx.current r = flushRow tx.loaded repaired r := by
      unfold flushRow
      rw [hcurrent, taskRow?_rescheduled]
      cases hrow : taskRow? r.id repaired with
      | none => rfl
      | some o =>
        have hid := (mem_of_taskRow? hrow).2
        simp [hid, hne]
    rw [hsame]
    exact flushRow_repairsOnly hkeys hrepairs r
  have hown : ∀ r : Task, r.id = object.id →
      (flushRow tx.loaded tx.current r).status = r.status ∧
        ((flushRow tx.loaded tx.current r).scheduledAt = r.scheduledAt ∨
          (flushRow tx.loaded tx.current r).scheduledAt = some scheduledAt) := by
    intro r hid
    rw [hcurrent]
    rcases flushRow_rescheduled hkeys hloaded hrepairs hid with ⟨-, hflush⟩ | ⟨o, -, hrep, hflush⟩
    · rw [hflush]
      exact ⟨rfl, .inl rfl⟩
    · rw [hflush]
      constructor
      · have hstatus : (rescheduled scheduledAt o).status = object.status := by
          simp [rescheduled, hrep.status, hpending]
        rw [flushTask_status, hstatus, flushColumn_untouched]
      · rw [flushTask_scheduledAt]
        unfold flushColumn
        split
        · exact .inl rfl
        · exact .inr rfl
  refine ⟨?_, ?_, ?_, ?_, ?_⟩
  · intro r
    by_cases hid : r.id = object.id
    · exact (hown r hid).1
    · show (unordered (flushRow tx.loaded tx.current r)).status = (unordered r).status
      rw [hother r hid]
  · intro r time h
    by_cases hid : r.id = object.id
    · obtain ⟨hstatus, hsame | hnew⟩ := hown r hid
      · left
        rw [inSlot_iff, hstatus, hsame] at h
        exact inSlot_iff.mpr h
      · right
        refine ⟨hinserted, by rw [hexclude, hid], scheduledAt, htime, ?_⟩
        obtain ⟨-, t, ht, hhour⟩ := inSlot_iff.mp h
        rw [hnew] at ht
        rw [some.inj ht]
        exact hhour
    · left
      have hsame : inSlot time (unordered (flushRow tx.loaded tx.current r)) =
          inSlot time (unordered r) := by
        rw [hother r hid]
      exact hsame.symm.trans h
  · intro task htask
    rw [hinserted] at htask
    cases htask
  · intro task taskId htask
    rw [hinserted] at htask
    cases htask
  · intro _
    rw [hexclude]
    rfl

/-! ### What a Step Does to the Rows -/

/-- The rows after a step: each keeps its id, an ended Task stays ended, and at most one row
    with a new id is added. -/
def Evolves (tasks tasks' : List Task) : Prop :=
  ∃ (f : Task → Task) (new : Option Task), tasks' = tasks.map f ++ new.toList ∧
    (∀ r, (f r).id = r.id) ∧
    (∀ r ∈ tasks, r.status.active = false → (f r).status.active = false) ∧
    ∀ t, new = some t → ∀ r ∈ tasks, r.id ≠ t.id

theorem Evolves.refl (tasks : List Task) : Evolves tasks tasks :=
  ⟨id, none, by simp, fun _ => rfl, fun _ _ h => h, by simp⟩

theorem Evolves.update
    (hid : ∀ r, (f r).id = r.id)
    (hended : ∀ r ∈ tasks, r.id = taskId → r.status.active = false →
      (f r).status.active = false) :
    Evolves tasks (Table.update Task.id taskId f tasks) := by
  refine ⟨fun r => if r.id = taskId then f r else r, none, by simp [Table.update], ?_, ?_, by simp⟩
  · intro r
    show (if r.id = taskId then f r else r).id = r.id
    split
    · exact hid r
    · rfl
  · intro r hr hend
    show (if r.id = taskId then f r else r).status.active = false
    split
    · next heq => exact hended r hr heq hend
    · exact hend

theorem Evolves.ids (h : Evolves tasks tasks')
    (hunique : Table.KeyUnique Task.id tasks) : Table.KeyUnique Task.id tasks' := by
  obtain ⟨f, new, rfl, hid, -, hnew⟩ := h
  have hmap := hunique.map (f := f) hid
  cases new with
  | none => simpa using hmap
  | some t =>
    refine hmap.append ?_
    intro r' hr'
    obtain ⟨r, hr, rfl⟩ := List.mem_map.mp hr'
    rw [hid r]
    exact hnew t rfl r hr

theorem Evolves.ended (h : Evolves tasks tasks')
    (hend : Ended tasks taskId) : Ended tasks' taskId := by
  obtain ⟨f, new, rfl, hid, hended, hnew⟩ := h
  obtain ⟨⟨r₀, hr₀, hr₀id⟩, hall⟩ := hend
  refine ⟨⟨f r₀, mem_append_left _ (List.mem_map_of_mem hr₀), (hid r₀).trans hr₀id⟩, ?_⟩
  intro r' hr' hr'id
  rcases mem_append.mp hr' with hr' | hr'
  · obtain ⟨r, hr, rfl⟩ := List.mem_map.mp hr'
    exact hended r hr (hall r hr ((hid r).symm.trans hr'id))
  · -- the new row has another id than the row that has ended
    have hsome : new = some r' := by simpa using hr'
    exact absurd (hr₀id.trans hr'id.symm) (hnew r' hsome r₀ hr₀)

theorem TxInv.evolves (h : TxInv tasks tx)
    (hev : Evolves tasks tasks') : TxInv tasks' tx where
  status := h.status
  slot := h.slot
  inserted := h.inserted
  source := fun task taskId htask hexclude => hev.ended (h.source task taskId htask hexclude)
  excluded := h.excluded

def SessionInv (tasks : List Task) : Session → Prop
  | .retry source _ request _ => source.id = request.sourceId ∧ Ended tasks source.id
  | .execute _ => True
  | .reschedule object _ => object.status ≠ .queued
  | .ordered tx => TxInv tasks tx
  | .slotLocked tx => TxInv tasks tx
  | .admitted tx => TxInv tasks tx

theorem SessionInv.evolves
    (h : SessionInv tasks session) (hev : Evolves tasks tasks') : SessionInv tasks' session := by
  cases session with
  | retry source output request checkedIds => exact ⟨h.1, hev.ended h.2⟩
  | execute object => trivial
  | reschedule object scheduledAt => exact h
  | ordered tx | slotLocked tx | admitted tx => exact TxInv.evolves h hev

/-- No reschedule loads a QUEUED Task. -/
def Calm (s : State) : Label → Prop
  | .openReschedule _ taskId _ _ => ∀ r ∈ s.tasks, r.id = taskId → r.status ≠ .queued
  | _ => True

/-- What calm steps maintain. -/
structure CalmInv (s : State) : Prop where
  ids : Table.KeyUnique Task.id s.tasks
  sessions : ∀ k session, s.sessions k = some session → SessionInv s.tasks session

theorem calmInv_init : CalmInv {} where
  ids := nodup_nil
  sessions := fun _ _ hk => nomatch hk

/-- What a calm step does: the rows evolve, and a request under way is one of before or meets
    its invariant. -/
structure CalmStep (s s' : State) : Prop where
  evolves : Evolves s.tasks s'.tasks
  sessions : ∀ k session, s'.sessions k = some session →
    s.sessions k = some session ∨ SessionInv s.tasks session

theorem CalmStep.inv (h : CalmStep s s') (hinv : CalmInv s) : CalmInv s' where
  ids := h.evolves.ids hinv.ids
  sessions := by
    intro k session hk
    rcases h.sessions k session hk with hold | hnew
    · exact (hinv.sessions k session hold).evolves h.evolves
    · exact hnew.evolves h.evolves

attribute [local simp] State.setSession

theorem CalmStep.setSession (hsession : SessionInv s.tasks session)
    (htasks : s'.tasks = s.tasks) (hsessions : s'.sessions = (s.setSession k session).sessions) :
    CalmStep s s' where
  evolves := htasks ▸ .refl s.tasks
  sessions := by
    intro j x hx
    rw [hsessions] at hx
    by_cases hj : j = k
    · right
      obtain rfl : session = x := by simpa [hj] using hx
      exact hsession
    · left
      simpa [hj] using hx

theorem mem_close_sessions
    (h : (s.close k).sessions j = some session) : j ≠ k ∧ s.sessions j = some session := by
  by_cases hj : j = k
  · simp [State.close, hj] at h
  · exact ⟨hj, by simpa [State.close, hj] using h⟩

theorem CalmStep.close (hev : Evolves s.tasks s'.tasks)
    (hsessions : s'.sessions = (s.close k).sessions) : CalmStep s s' where
  evolves := hev
  sessions := by
    intro j x hx
    rw [hsessions] at hx
    exact .inl (mem_close_sessions hx).2

theorem lockIssue_eq_some (h : s.lockIssue k tx = some s') :
    s'.tasks = s.tasks ∧ s'.slotLocks = s.slotLocks ∧ s'.retrySources = s.retrySources ∧
      s'.sessions = (s.setSession k (.ordered tx)).sessions := by
  unfold State.lockIssue at h
  split at h
  · cases h
    exact ⟨rfl, rfl, rfl, rfl⟩
  · cases h

theorem orderCreate_eq_some {issueId newId : Nat} {request : AppendRequest}
    (h : s.orderCreate env k issueId newId now request = some s') :
    ∃ tx, s.lockIssue k tx = some s' ∧ tx.retrySourceTaskId = none := by
  simp only [State.orderCreate] at h
  split at h
  · cases h
  · split at h
    · cases h
    · exact ⟨_, h, rfl⟩

theorem orderRetry_eq_some (h : s.orderRetry env k newId now = some s') :
    ∃ source output request tx, s.sessions k = some (.retry source output request tx.checkedIds) ∧
      s.lockIssue k tx = some s' ∧ tx.retrySourceTaskId = some source.id := by
  simp only [State.orderRetry] at h
  split at h
  · next source output request checkedIds hk =>
    split at h
    · cases h
    · split at h
      · cases h
      · exact ⟨source, output, request, _, hk, h, rfl⟩
  · cases h

theorem orderReschedule_eq_some (h : s.orderReschedule env k = some s') :
    ∃ tx, s.lockIssue k tx = some s' ∧ tx.retrySourceTaskId = none := by
  unfold State.orderReschedule at h
  split at h
  · split at h
    · cases h
    · exact ⟨_, h, rfl⟩
  · cases h

theorem lockSlot_eq_some (h : s.lockSlot env k = some s') :
    ∃ tx t locks, s.sessions k = some (.ordered tx) ∧ tx.scheduledAt = some t ∧
      s' = { s.setSession k (.slotLocked tx) with slotLocks := locks } ∧
      (0 < env.settings.slotMaxTasks → s.slotLocks (hourStart t) = none ∧
        locks = fun h => if h = hourStart t then some k else s.slotLocks h) := by
  unfold State.lockSlot at h
  split at h
  · next tx hk =>
    split at h
    · cases h
    next t ht =>
    split at h
    · split at h
      · next hfree => exact ⟨tx, t, _, hk, ht, (some.inj h).symm, fun _ => ⟨hfree, rfl⟩⟩
      · cases h
    · next hmax =>
      exact ⟨tx, t, s.slotLocks, hk, ht, (some.inj h).symm, fun h => absurd h hmax⟩
  · cases h

/-- A full slot ends the request. -/
theorem countSlot_eq_some (h : s.countSlot env k = some s') :
    ∃ tx t, s.sessions k = some (.slotLocked tx) ∧ tx.scheduledAt = some t ∧
      (s' = s.close k ∨
        ¬ ((checkSlotCapacity env.settings t tx.excludeTaskId s.tasks).isFull &&
          (checkSlotCapacity env.settings t tx.excludeTaskId s.tasks).enforce) = true ∧
        s' = s.setSession k (.admitted tx)) := by
  simp only [State.countSlot] at h
  split at h
  · next tx hk =>
    split at h
    · cases h
    next t ht =>
    split at h
    · exact ⟨tx, t, hk, ht, .inl (some.inj h).symm⟩
    · next hfull => exact ⟨tx, t, hk, ht, .inr ⟨hfull, (some.inj h).symm⟩⟩
  · cases h

theorem openSession_eq_some {validate : Task → Except HttpError Session}
    (h : s.openSession k taskId validate = some s') :
    s.sessions k = none ∧ ∃ task session, taskRow? taskId s.tasks = some task ∧
      validate task = .ok session ∧ s' = s.setSession k session := by
  unfold State.openSession at h
  split at h
  · next task hk htask =>
    split at h
    · next session hvalid => exact ⟨hk, task, session, htask, hvalid, (some.inj h).symm⟩
    · cases h
  · cases h

/-- The source of a retry that passed its checks has ended, and had no active retry. -/
theorem validateRetry_eq_ok {request : RetryRequest} {output : Option String}
    {source : Task}
    (h : s.validateRetry now request output source = .ok session) :
    session = .retry source output request (s.tasks.map Task.id) ∧
      source.status.active = false ∧ s.activeRetries request.sourceId = [] := by
  simp only [State.validateRetry] at h
  obtain ⟨⟨⟩, hstatus, h⟩ := bind_eq_ok_iff.mp h
  have hended : source.status.active = false := by
    unfold validateTaskStatusForRetry at hstatus
    split at hstatus
    · next hor =>
      rcases hor with hst | hst
      · rw [hst]; rfl
      · rw [hst]; rfl
    · cases hstatus
  split at h
  · cases h
  next hnone =>
  split at h
  · exact ⟨(Except.ok.inj h).symm, hended, hnone⟩
  · obtain ⟨_, -, h⟩ := bind_eq_ok_iff.mp h
    exact ⟨(Except.ok.inj h).symm, hended, hnone⟩

/-! ### One Lemma for Each Operation -/

theorem calmStep_orderCreate {k issueId newId : Nat} {request : AppendRequest}
    (hinv : CalmInv s) (h : s.orderCreate env k issueId newId now request = some s') :
    CalmStep s s' := by
  simp only [State.orderCreate] at h
  split at h
  · cases h
  next hfree =>
  have hnewId : ∀ r ∈ s.tasks, r.id ≠ newId := by
    apply Table.row?_eq_none_iff.mp
    exact not_isSome_iff_eq_none.mp fun hsome => hfree (.inr hsome)
  split at h
  · cases h
  next rows hrows =>
  obtain ⟨htasks, -, -, hsessions⟩ := lockIssue_eq_some h
  refine .setSession ?_ htasks hsessions
  obtain ⟨repaired, m, p, hrepairs, -, rfl⟩ := createTaskRecord_rows hrows
  refine .append (hinv.ids.filter _) ?_ hrepairs ?_ ?_ ?_ rfl rfl rfl ?_
  · intro o ho
    exact hnewId o (mem_filter.mp ho).1
  · rfl
  · rfl
  · rfl
  · intro taskId hexclude
    cases hexclude

theorem calmStep_orderRetry (hinv : CalmInv s)
    (h : s.orderRetry env k newId now = some s') : CalmStep s s' := by
  simp only [State.orderRetry] at h
  split at h
  · next source output request checkedIds hk =>
    obtain ⟨hsource, hended⟩ := hinv.sessions k _ hk
    split at h
    · cases h
    next hfree =>
    have hnewId : ∀ r ∈ s.tasks, r.id ≠ newId :=
      Table.row?_eq_none_iff.mp (not_isSome_iff_eq_none.mp hfree)
    split at h
    · cases h
    next rows hrows =>
    obtain ⟨htasks, -, -, hsessions⟩ := lockIssue_eq_some h
    refine .setSession ?_ htasks hsessions
    obtain ⟨repaired, source', mode, fresh, m, p, hrepairs, rfl⟩ := retryTaskRecord_rows hrows
    refine .append (keyUnique_selectObjects (hinv.ids.filter _) _) ?_ hrepairs ?_ ?_ ?_ rfl
      rfl rfl ?_
    · intro o ho
      -- an object of the session has the id of a row
      have hmem := List.mem_map_of_mem (f := Task.id) ho
      rw [selectObjects_ids] at hmem
      obtain ⟨r, hr, hid⟩ := List.mem_map.mp hmem
      rw [← hid]
      exact hnewId r (mem_filter.mp hr).1
    · rfl
    · rfl
    · rfl
    · intro taskId hexclude
      rw [← some.inj hexclude, ← hsource]
      exact hended
  · cases h

theorem calmStep_orderReschedule (hinv : CalmInv s)
    (h : s.orderReschedule env k = some s') : CalmStep s s' := by
  unfold State.orderReschedule at h
  split at h
  · next object scheduledAt hk =>
    have hpending : object.status ≠ .queued := hinv.sessions k _ hk
    split at h
    · cases h
    next loaded current hobjects =>
    obtain ⟨htasks, -, -, hsessions⟩ := lockIssue_eq_some h
    refine .setSession ?_ htasks hsessions
    obtain ⟨repaired, rfl, hrepairs, rfl⟩ := rescheduleObjects_eq_ok hobjects
    exact .reschedule (hinv.ids.filter _) hpending rfl hrepairs rfl rfl rfl rfl
  · cases h

theorem calmStep_lockSlot (hinv : CalmInv s) (h : s.lockSlot env k = some s') :
    CalmStep s s' := by
  obtain ⟨tx, _, _, hk, -, rfl, -⟩ := lockSlot_eq_some h
  have htx : TxInv s.tasks tx := hinv.sessions k _ hk
  exact .setSession (show SessionInv s.tasks (.slotLocked tx) from htx) rfl rfl

theorem calmStep_countSlot (hinv : CalmInv s) (h : s.countSlot env k = some s') :
    CalmStep s s' := by
  obtain ⟨tx, _, hk, -, rfl | ⟨-, rfl⟩⟩ := countSlot_eq_some h
  · exact .close (.refl _) rfl
  · have htx : TxInv s.tasks tx := hinv.sessions k _ hk
    exact .setSession (show SessionInv s.tasks (.admitted tx) from htx) rfl rfl

theorem commitTransaction_eq_some
    (h : s.commitTransaction k tx = some s') :
    s'.tasks = flushObjects tx.loaded tx.current s.tasks ++ tx.inserted.toList ∧
      (∀ task, tx.inserted = some task → ∀ r ∈ s.tasks, r.id ≠ task.id) ∧
      s'.sessions = (s.close k).sessions ∧ s'.slotLocks = (s.close k).slotLocks ∧
      s'.retrySources = (fun id =>
        if tx.inserted.any (·.id = id) then tx.retrySourceTaskId else s.retrySources id) := by
  unfold State.commitTransaction at h
  split at h
  · next hnone =>
    cases h
    rw [hnone]
    exact ⟨by simp, by simp, rfl, rfl, by simp [State.close]⟩
  · next task hsome =>
    split at h
    · cases h
    next hfree =>
    cases h
    rw [hsome]
    refine ⟨rfl, ?_, rfl, rfl, ?_⟩
    · intro task' htask'
      cases htask'
      exact Table.row?_eq_none_iff.mp (not_isSome_iff_eq_none.mp hfree)
    · funext id
      simp [eq_comm]

theorem evolves_commit (htx : TxInv s.tasks tx)
    (hfree : ∀ task, tx.inserted = some task → ∀ r ∈ s.tasks, r.id ≠ task.id) :
    Evolves s.tasks (flushObjects tx.loaded tx.current s.tasks ++ tx.inserted.toList) := by
  refine ⟨flushRow tx.loaded tx.current, tx.inserted, rfl, fun r => flushRow_id _ _ r, ?_, hfree⟩
  intro r _ hended
  rw [htx.status r]
  exact hended

theorem calmStep_commit (hinv : CalmInv s) (h : s.commit k = some s') :
    CalmStep s s' := by
  have htransaction : ∀ tx, TxInv s.tasks tx → s.commitTransaction k tx = some s' →
      CalmStep s s' := by
    intro tx htx hcommit
    obtain ⟨htasks, hfree, hsessions, -⟩ := commitTransaction_eq_some hcommit
    refine .close ?_ hsessions
    rw [htasks]
    exact evolves_commit htx hfree
  unfold State.commit at h
  split at h
  · next object hk =>
    cases h
    have hstatus : ∀ r, (flushTask object (executeTask object) r).status = r.status := by
      intro r
      simp [executeTask]
    refine .close (.update (fun _ => rfl) ?_) rfl
    intro r _ _ hended
    rw [hstatus r]
    exact hended
  · next tx hk =>
    split at h
    · exact htransaction tx (hinv.sessions k _ hk) h
    · cases h
  · next tx hk => exact htransaction tx (hinv.sessions k _ hk) h
  · cases h

theorem setStatus_eq_some
    (h : s.setStatus taskId enabled status = some s') :
    (∃ task, taskRow? taskId s.tasks = some task ∧ enabled task.status = true) ∧
      s' = { s with tasks := Table.update Task.id taskId ({ · with status }) s.tasks } := by
  unfold State.setStatus at h
  split at h
  · cases h
  next task hrow =>
  split at h
  · next henabled => exact ⟨⟨task, hrow, henabled⟩, (some.inj h).symm⟩
  · cases h

theorem calmStep_setStatus
    (hinv : CalmInv s) (henabled : ∀ st, enabled st = true → st.active = true)
    (h : s.setStatus taskId enabled status = some s') : CalmStep s s' := by
  obtain ⟨⟨task, hrow, hen⟩, rfl⟩ := setStatus_eq_some h
  obtain ⟨hmem, hid⟩ := mem_of_taskRow? hrow
  refine ⟨.update (fun _ => rfl) ?_, fun _ _ hk => .inl hk⟩
  intro r hr hrid hended
  obtain rfl := hinv.ids.eq_of_key_eq hr hmem (hrid.trans hid.symm)
  rw [henabled _ hen] at hended
  cases hended

/-- A calm step keeps the rows evolving and every prepared write sound. -/
theorem calmStep (hinv : CalmInv s) (hcalm : Calm s l) (h : step env s l = some s') :
    CalmStep s s' := by
  cases l with
  | openRetry k now request output =>
    obtain ⟨-, task, session, hrow, hvalid, rfl⟩ := openSession_eq_some h
    obtain ⟨rfl, hended, -⟩ := validateRetry_eq_ok hvalid
    obtain ⟨hmem, hid⟩ := mem_of_taskRow? hrow
    refine CalmStep.setSession ?_ rfl rfl
    refine ⟨hid, ⟨task, hmem, rfl⟩, ?_⟩
    intro r hr hrid
    obtain rfl := hinv.ids.eq_of_key_eq hr hmem hrid
    exact hended
  | openExecute k taskId =>
    obtain ⟨-, task, session, -, hvalid, rfl⟩ := openSession_eq_some h
    obtain ⟨-, -, hvalid⟩ := bind_eq_ok_iff.mp hvalid
    cases hvalid
    exact .setSession (show SessionInv s.tasks (.execute task) from trivial) rfl rfl
  | openReschedule k taskId now scheduledAt =>
    obtain ⟨-, task, session, hrow, hvalid, rfl⟩ := openSession_eq_some h
    obtain ⟨-, -, hvalid⟩ := bind_eq_ok_iff.mp hvalid
    obtain ⟨t, -, hvalid⟩ := bind_eq_ok_iff.mp hvalid
    cases hvalid
    obtain ⟨hmem, hid⟩ := mem_of_taskRow? hrow
    have hsession : SessionInv s.tasks (.reschedule task t) := hcalm task hmem hid
    exact .setSession hsession rfl rfl
  | orderCreate k issueId newId now request => exact calmStep_orderCreate hinv h
  | orderRetry k newId now => exact calmStep_orderRetry hinv h
  | orderReschedule k => exact calmStep_orderReschedule hinv h
  | lockSlot k => exact calmStep_lockSlot hinv h
  | countSlot k => exact calmStep_countSlot hinv h
  | commit k => exact calmStep_commit hinv h
  | abort k =>
    simp only [step] at h
    split at h
    · cases h
      exact .close (.refl _) rfl
    · cases h
  | terminate taskId status =>
    simp only [step] at h
    split at h
    · exact calmStep_setStatus hinv (fun _ hst => hst) h
    · cases h
  | promote taskId =>
    change s.setStatus taskId (· = .pending) .queued = some s' at h
    refine calmStep_setStatus hinv ?_ h
    intro st hst
    rw [of_decide_eq_true hst]
    rfl
  | start taskId =>
    change s.setStatus taskId (· = .queued) .running = some s' at h
    refine calmStep_setStatus hinv ?_ h
    intro st hst
    rw [of_decide_eq_true hst]
    rfl

/-! ### Counting a Slot -/

theorem slotCount_map_le
    (hid : ∀ r, (f r).id = r.id)
    (hslot : ∀ r ∈ tasks, inSlot time (f r) = true → inSlot time r = true)
    (excludeTaskId : Option Nat) :
    slotCount time excludeTaskId (tasks.map f) ≤ slotCount time excludeTaskId tasks := by
  unfold slotCount
  rw [countP_map]
  apply countP_mono_left
  intro r hr hcounted
  simp only [Function.comp_apply, Bool.and_eq_true, hid r] at hcounted ⊢
  exact ⟨hslot r hr hcounted.1, hcounted.2⟩

theorem slotCount_update_le
    (hid : ∀ r, (f r).id = r.id)
    (hslot : ∀ r ∈ tasks, r.id = taskId → inSlot time (f r) = true → inSlot time r = true)
    (excludeTaskId : Option Nat) :
    slotCount time excludeTaskId (Table.update Task.id taskId f tasks) ≤
      slotCount time excludeTaskId tasks := by
  refine slotCount_map_le (f := fun r => if r.id = taskId then f r else r) ?_ ?_ excludeTaskId
  · intro r
    show (if r.id = taskId then f r else r).id = r.id
    split
    · exact hid r
    · rfl
  · intro r hr h
    by_cases heq : r.id = taskId
    · rw [if_pos heq] at h
      exact hslot r hr heq h
    · rwa [if_neg heq] at h

theorem slotCount_commit_other
    (htx : TxInv tasks tx) (hother : ∀ t, tx.scheduledAt = some t → hourStart t ≠ hourStart time)
    (excludeTaskId : Option Nat) :
    slotCount time excludeTaskId (flushObjects tx.loaded tx.current tasks ++ tx.inserted.toList) ≤
      slotCount time excludeTaskId tasks := by
  have hflush : slotCount time excludeTaskId (flushObjects tx.loaded tx.current tasks) ≤
      slotCount time excludeTaskId tasks := by
    refine slotCount_map_le (fun r => flushRow_id _ _ r) ?_ excludeTaskId
    intro r _ hin
    rcases htx.slot r time hin with h | ⟨-, -, t, ht, hhour⟩
    · exact h
    · exact absurd hhour (hother t ht)
  have hinserted : slotCount time excludeTaskId tx.inserted.toList = 0 := by
    unfold slotCount
    rw [countP_eq_zero]
    intro task htask hcounted
    rw [mem_toList] at htask
    rw [Bool.and_eq_true, inSlot_iff] at hcounted
    obtain ⟨⟨-, t, ht, hhour⟩, -⟩ := hcounted
    exact hother t ((htx.inserted task htask).2.symm.trans ht) hhour
  have hsum : slotCount time excludeTaskId
      (flushObjects tx.loaded tx.current tasks ++ tx.inserted.toList) =
      slotCount time excludeTaskId (flushObjects tx.loaded tx.current tasks) +
        slotCount time excludeTaskId tx.inserted.toList := countP_append
  omega

/-- A commit adds at most one Task to a slot. -/
theorem slotCount_commit_own
    (htx : TxInv tasks tx) (hunique : Table.KeyUnique Task.id tasks) :
    slotCount time none (flushObjects tx.loaded tx.current tasks ++ tx.inserted.toList) ≤
      slotCount time tx.excludeTaskId tasks + 1 := by
  cases hinserted : tx.inserted with
  | none =>
    -- the one Task that the reschedule moves is the one that it did not count
    obtain ⟨taskId, hexclude⟩ := isSome_iff_exists.mp (htx.excluded hinserted)
    have hle := hunique.countP_map_le (f := flushRow tx.loaded tx.current) (p := inSlot time)
      (q := inSlot time) taskId ?_
    · have hall : slotCount time none (flushObjects tx.loaded tx.current tasks) =
          (tasks.map (flushRow tx.loaded tx.current)).countP (inSlot time) := by
        simp [slotCount, flushObjects]
      have hexcluded : slotCount time tx.excludeTaskId tasks =
          tasks.countP (fun r => inSlot time r && !decide (r.id = taskId)) := by
        rw [hexclude]
        unfold slotCount
        refine countP_congr fun r _ => ?_
        simp
      simp only [toList_none, append_nil]
      omega
    · intro r _ hin
      rcases htx.slot r time hin with h | ⟨-, hid, -⟩
      · exact .inl h
      · right
        rw [hexclude] at hid
        exact (some.inj hid).symm
  | some task =>
    -- the source that a retry did not count has ended
    have hsame : slotCount time none tasks ≤ slotCount time tx.excludeTaskId tasks := by
      unfold slotCount
      apply countP_mono_left
      intro r hr hin
      have hin : inSlot time r = true := by simpa using hin
      rw [Bool.and_eq_true]
      refine ⟨hin, ?_⟩
      rw [Option.all_eq_true]
      intro taskId hexclude
      rw [bne_iff_ne]
      intro hid
      have hended := (htx.source task taskId hinserted hexclude).2 r hr hid
      rw [(inSlot_iff.mp hin).1] at hended
      cases hended
    have hflush : slotCount time none (flushObjects tx.loaded tx.current tasks) ≤
        slotCount time none tasks := by
      refine slotCount_map_le (fun r => flushRow_id _ _ r) ?_ none
      intro r _ hin
      rcases htx.slot r time hin with h | ⟨hnone, -⟩
      · exact h
      · rw [hinserted] at hnone
        cases hnone
    have hsum : slotCount time none (flushObjects tx.loaded tx.current tasks ++ [task]) =
        slotCount time none (flushObjects tx.loaded tx.current tasks) +
          slotCount time none [task] := countP_append
    have hone : slotCount time none [task] ≤ 1 := countP_le_length
    rw [toList_some]
    omega

/-! ### The Bound -/

/-- A session that holds the lock of a slot. -/
def Locks (s : State) (k : Nat) (tx : Transaction) : Prop :=
  s.sessions k = some (.slotLocked tx) ∨ s.sessions k = some (.admitted tx)

/-- No slot is overfull, and an admitted request has a place left in its slot, whose lock it
    holds. -/
structure SlotInv (m : Nat) (s : State) : Prop where
  bound : ∀ time, slotCount time none s.tasks ≤ m
  admitted : ∀ k tx t, s.sessions k = some (.admitted tx) → tx.scheduledAt = some t →
    slotCount t tx.excludeTaskId s.tasks < m
  locked : ∀ k tx t, Locks s k tx → tx.scheduledAt = some t → s.slotLocks (hourStart t) = some k

theorem SlotInv.mono (h : SlotInv m s)
    (hcount : ∀ time excludeTaskId,
      slotCount time excludeTaskId s'.tasks ≤ slotCount time excludeTaskId s.tasks)
    (hadmitted : ∀ k tx, s'.sessions k = some (.admitted tx) → s.sessions k = some (.admitted tx))
    (hlocks : ∀ k tx, Locks s' k tx →
      Locks s k tx ∧ ∀ hour, s.slotLocks hour = some k → s'.slotLocks hour = some k) :
    SlotInv m s' where
  bound := fun time => (hcount time none).trans (h.bound time)
  admitted := fun k tx t hk ht =>
    Nat.lt_of_le_of_lt (hcount t _) (h.admitted k tx t (hadmitted k tx hk) ht)
  locked := by
    intro k tx t hk ht
    obtain ⟨hold, hkeep⟩ := hlocks k tx hk
    exact hkeep _ (h.locked k tx t hold ht)

/-- A step that changes neither the rows nor the locks, and brings no session to its slot. -/
theorem SlotInv.setSession (h : SlotInv m s)
    (htasks : s'.tasks = s.tasks) (hslots : s'.slotLocks = s.slotLocks)
    (hsessions : s'.sessions = (s.setSession k session).sessions)
    (hnot : ∀ tx, session ≠ .slotLocked tx ∧ session ≠ .admitted tx) : SlotInv m s' := by
  have hother : ∀ (j : Nat) (x : Transaction → Session), (∀ tx, session ≠ x tx) →
      ∀ tx, s'.sessions j = some (x tx) → s.sessions j = some (x tx) := by
    intro j x hx tx hj
    rw [hsessions] at hj
    by_cases hjk : j = k
    · simp only [State.setSession, hjk, if_true] at hj
      exact absurd (some.inj hj) (hx tx)
    · simpa [hjk] using hj
  refine h.mono ?_ ?_ ?_
  · intro time excludeTaskId
    rw [htasks]
  · intro j tx hj
    exact hother j .admitted (fun tx => (hnot tx).2) tx hj
  · intro j tx hj
    refine ⟨?_, fun hour hhour => hslots ▸ hhour⟩
    rcases hj with hj | hj
    · exact .inl (hother j .slotLocked (fun tx => (hnot tx).1) tx hj)
    · exact .inr (hother j .admitted (fun tx => (hnot tx).2) tx hj)

theorem locks_close (hsessions : s'.sessions = (s.close k).sessions)
    (hslots : s'.slotLocks = (s.close k).slotLocks) (h : Locks s' j tx) :
    j ≠ k ∧ Locks s j tx ∧ ∀ hour, s.slotLocks hour = some j → s'.slotLocks hour = some j := by
  unfold Locks at h
  rw [hsessions] at h
  have hj : j ≠ k ∧ Locks s j tx := by
    rcases h with h | h
    · exact ⟨(mem_close_sessions h).1, .inl (mem_close_sessions h).2⟩
    · exact ⟨(mem_close_sessions h).1, .inr (mem_close_sessions h).2⟩
  refine ⟨hj.1, hj.2, ?_⟩
  intro hour hhour
  rw [hslots]
  simp [State.close, hhour, hj.1]

theorem SlotInv.close (h : SlotInv m s)
    (hcount : ∀ time excludeTaskId,
      slotCount time excludeTaskId s'.tasks ≤ slotCount time excludeTaskId s.tasks)
    (hsessions : s'.sessions = (s.close k).sessions)
    (hslots : s'.slotLocks = (s.close k).slotLocks) : SlotInv m s' := by
  refine h.mono hcount ?_ ?_
  · intro j tx hj
    rw [hsessions] at hj
    exact (mem_close_sessions hj).2
  · intro j tx hj
    exact (locks_close hsessions hslots hj).2

/-- The commit of a prepared write: its own slot had a place left, and the counts of the other
    slots, whose locks other sessions hold, do not rise. -/
theorem SlotInv.commit (h : SlotInv m s) (hinv : CalmInv s)
    (htx : TxInv s.tasks tx)
    (hplace : ∀ t, tx.scheduledAt = some t → s.sessions k = some (.admitted tx))
    (hcommit : s.commitTransaction k tx = some s') : SlotInv m s' := by
  obtain ⟨htasks, -, hsessions, hslots, -⟩ := commitTransaction_eq_some hcommit
  have hother : ∀ time, (∀ t, tx.scheduledAt = some t → hourStart t ≠ hourStart time) →
      ∀ excludeTaskId,
        slotCount time excludeTaskId s'.tasks ≤ slotCount time excludeTaskId s.tasks := by
    intro time hne excludeTaskId
    rw [htasks]
    exact slotCount_commit_other htx hne excludeTaskId
  refine ⟨?_, ?_, ?_⟩
  · intro time
    by_cases hown : ∃ t, tx.scheduledAt = some t ∧ hourStart t = hourStart time
    · obtain ⟨t, ht, hhour⟩ := hown
      have hlt := h.admitted k tx t (hplace t ht) ht
      have hle : slotCount t none s'.tasks ≤ slotCount t tx.excludeTaskId s.tasks + 1 := by
        rw [htasks]
        exact slotCount_commit_own htx hinv.ids
      have hsame : slotCount time none s'.tasks = slotCount t none s'.tasks := by
        unfold slotCount
        rw [inSlot_congr hhour]
      omega
    · refine (hother time ?_ none).trans (h.bound time)
      intro t ht hhour
      exact hown ⟨t, ht, hhour⟩
  · intro j tx' t' hj ht'
    rw [hsessions] at hj
    obtain ⟨hjk, hold⟩ := mem_close_sessions hj
    refine Nat.lt_of_le_of_lt (hother t' ?_ _) (h.admitted j tx' t' hold ht')
    -- two sessions do not hold one slot
    intro t ht hhour
    have hk := h.locked k tx t (.inr (hplace t ht)) ht
    have hj' := h.locked j tx' t' (.inr hold) ht'
    rw [hhour, hj'] at hk
    exact hjk (some.inj hk)
  · intro j tx' t' hj ht'
    obtain ⟨-, hold, hkeep⟩ := locks_close hsessions hslots hj
    exact hkeep _ (h.locked j tx' t' hold ht')

theorem slotInv_lockSlot (h : SlotInv m s) (hmax : 0 < env.settings.slotMaxTasks)
    (hlock : s.lockSlot env k = some s') : SlotInv m s' := by
  obtain ⟨tx, t, locks, hk, ht, rfl, hlocks⟩ := lockSlot_eq_some hlock
  obtain ⟨hfree, rfl⟩ := hlocks hmax
  refine ⟨h.bound, ?_, ?_⟩
  · intro j tx' t' hj ht'
    by_cases hjk : j = k
    · simp [hjk] at hj
    · exact h.admitted j tx' t' (by simpa [hjk] using hj) ht'
  · intro j tx' t' hj ht'
    by_cases hjk : j = k
    · have htx : tx' = tx := by
        rcases hj with hj | hj
        · simp only [State.setSession, hjk, if_true, Option.some.injEq,
            Session.slotLocked.injEq] at hj
          exact hj.symm
        · simp [hjk] at hj
      rw [htx, ht] at ht'
      rw [← some.inj ht', hjk]
      simp
    · have hold : Locks s j tx' := by
        simpa [Locks, hjk] using hj
      have hheld := h.locked j tx' t' hold ht'
      have hne : hourStart t' ≠ hourStart t := by
        intro heq
        rw [heq, hfree] at hheld
        cases hheld
      simp only [hne, if_false]
      exact hheld

theorem slotInv_countSlot (h : SlotInv env.settings.slotMaxTasks s)
    (hmax : 0 < env.settings.slotMaxTasks) (henforce : env.settings.slotMaxTasksEnforce = true)
    (hcount : s.countSlot env k = some s') : SlotInv env.settings.slotMaxTasks s' := by
  obtain ⟨tx, t, hk, ht, rfl | ⟨hfull, rfl⟩⟩ := countSlot_eq_some hcount
  · exact h.close (fun _ _ => Nat.le_refl _) rfl rfl
  have hplace : slotCount t tx.excludeTaskId s.tasks < env.settings.slotMaxTasks := by
    simpa [checkSlotCapacity, henforce, hmax] using hfull
  refine ⟨h.bound, ?_, ?_⟩
  · intro j tx' t' hj ht'
    by_cases hjk : j = k
    · simp only [State.setSession, hjk, if_true, Option.some.injEq, Session.admitted.injEq] at hj
      rw [← hj] at ht' ⊢
      rw [ht] at ht'
      rw [← some.inj ht']
      exact hplace
    · exact h.admitted j tx' t' (by simpa [hjk] using hj) ht'
  · intro j tx' t' hj ht'
    by_cases hjk : j = k
    · have htx : tx' = tx := by
        rcases hj with hj | hj
        · simp [hjk] at hj
        · simp only [State.setSession, hjk, if_true, Option.some.injEq,
            Session.admitted.injEq] at hj
          exact hj.symm
      rw [htx] at ht'
      rw [hjk]
      exact h.locked k tx t' (.inl hk) ht'
    · exact h.locked j tx' t' (by simpa [Locks, hjk] using hj) ht'

theorem slotInv_setStatus
    (h : SlotInv m s) (hinv : CalmInv s) (henabled : ∀ st, enabled st = true → st.active = true)
    (hset : s.setStatus taskId enabled status = some s') : SlotInv m s' := by
  obtain ⟨⟨task, hrow, hen⟩, rfl⟩ := setStatus_eq_some hset
  obtain ⟨hmem, hid⟩ := mem_of_taskRow? hrow
  refine h.mono ?_ (fun _ _ hk => hk) (fun _ _ hk => ⟨hk, fun _ hhour => hhour⟩)
  intro time excludeTaskId
  refine slotCount_update_le (f := ({ · with status })) (fun _ => rfl) ?_ excludeTaskId
  intro r hr hrid hin
  -- the row was active already, and keeps its time
  obtain rfl := hinv.ids.eq_of_key_eq hr hmem (hrid.trans hid.symm)
  exact inSlot_iff.mpr ⟨henabled _ hen, (inSlot_iff.mp hin).2⟩

theorem slotInv_commit (h : SlotInv m s) (hinv : CalmInv s)
    (hcommit : s.commit k = some s') : SlotInv m s' := by
  unfold State.commit at hcommit
  split at hcommit
  · next object hk =>
    cases hcommit
    refine h.close (k := k) ?_ rfl rfl
    intro time excludeTaskId
    refine slotCount_update_le (f := flushTask object (executeTask object)) (fun _ => rfl) ?_
      excludeTaskId
    intro r _ _ hin
    -- the flush keeps the time of the row or clears it
    obtain ⟨hactive, t, ht, hhour⟩ := inSlot_iff.mp hin
    refine inSlot_iff.mpr ⟨by simpa [executeTask] using hactive, t, ?_, hhour⟩
    rw [flushTask_scheduledAt] at ht
    unfold flushColumn at ht
    split at ht
    · exact ht
    · cases ht
  · next tx hk =>
    split at hcommit
    · next hnone =>
      refine h.commit hinv (hinv.sessions k _ hk) ?_ hcommit
      intro t ht
      rw [hnone] at ht
      cases ht
    · cases hcommit
  · next tx hk => exact h.commit hinv (hinv.sessions k _ hk) (fun _ _ => hk) hcommit
  · cases hcommit

/-- Each step keeps every slot within its bound. -/
theorem slotInv_step (h : SlotInv env.settings.slotMaxTasks s) (hinv : CalmInv s)
    (hmax : 0 < env.settings.slotMaxTasks) (henforce : env.settings.slotMaxTasksEnforce = true)
    (hstep : step env s l = some s') : SlotInv env.settings.slotMaxTasks s' := by
  -- in front of the slot lock a request holds no place
  have hopen : ∀ {k taskId : Nat} {validate : Task → Except HttpError Session},
      (∀ task session, validate task = .ok session →
        ∀ tx, session ≠ .slotLocked tx ∧ session ≠ .admitted tx) →
      s.openSession k taskId validate = some s' → SlotInv env.settings.slotMaxTasks s' := by
    intro k taskId validate hnot hsome
    obtain ⟨-, task, session, -, hvalid, rfl⟩ := openSession_eq_some hsome
    exact h.setSession rfl rfl rfl (hnot task session hvalid)
  have hlockIssue : ∀ {k : Nat} {tx : Transaction}, s.lockIssue k tx = some s' →
      SlotInv env.settings.slotMaxTasks s' := by
    intro k tx hsome
    obtain ⟨htasks, hslots, -, hsessions⟩ := lockIssue_eq_some hsome
    exact h.setSession htasks hslots hsessions (by simp)
  cases l with
  | openRetry k now request output =>
    refine hopen ?_ hstep
    intro task session hvalid
    obtain ⟨rfl, -⟩ := validateRetry_eq_ok hvalid
    simp
  | openExecute k taskId =>
    refine hopen ?_ hstep
    intro task session hvalid
    obtain ⟨-, -, hvalid⟩ := bind_eq_ok_iff.mp hvalid
    cases hvalid
    simp
  | openReschedule k taskId now scheduledAt =>
    refine hopen ?_ hstep
    intro task session hvalid
    obtain ⟨-, -, hvalid⟩ := bind_eq_ok_iff.mp hvalid
    obtain ⟨t, -, hvalid⟩ := bind_eq_ok_iff.mp hvalid
    cases hvalid
    simp
  | orderCreate k issueId newId now request =>
    obtain ⟨tx, hlocked, -⟩ := orderCreate_eq_some hstep
    exact hlockIssue hlocked
  | orderRetry k newId now =>
    obtain ⟨-, -, -, tx, -, hlocked, -⟩ := orderRetry_eq_some hstep
    exact hlockIssue hlocked
  | orderReschedule k =>
    obtain ⟨tx, hlocked, -⟩ := orderReschedule_eq_some hstep
    exact hlockIssue hlocked
  | lockSlot k => exact slotInv_lockSlot h hmax hstep
  | countSlot k => exact slotInv_countSlot h hmax henforce hstep
  | commit k => exact slotInv_commit h hinv hstep
  | abort k =>
    simp only [step] at hstep
    split at hstep
    · cases hstep
      exact h.close (fun _ _ => Nat.le_refl _) rfl rfl
    · cases hstep
  | terminate taskId status =>
    simp only [step] at hstep
    split at hstep
    · exact slotInv_setStatus h hinv (fun _ hst => hst) hstep
    · cases hstep
  | promote taskId =>
    change s.setStatus taskId (· = .pending) .queued = some s' at hstep
    refine slotInv_setStatus h hinv ?_ hstep
    intro st hst
    rw [of_decide_eq_true hst]
    rfl
  | start taskId =>
    change s.setStatus taskId (· = .queued) .running = some s' at hstep
    refine slotInv_setStatus h hinv ?_ hstep
    intro st hst
    rw [of_decide_eq_true hst]
    rfl

/-- **Bound**: no slot exceeds the maximum. -/
theorem slotCount_le (hmax : 0 < env.settings.slotMaxTasks)
    (henforce : env.settings.slotMaxTasksEnforce = true)
    (h : (slotWriters env).Reachable Calm s) (time : DateTime) :
    slotCount time none s.tasks ≤ env.settings.slotMaxTasks := by
  have hboth := h.invariant (P := fun s => CalmInv s ∧ SlotInv env.settings.slotMaxTasks s) ?_ ?_
  · exact hboth.2.bound time
  · rintro s rfl
    refine ⟨calmInv_init, ?_, ?_, ?_⟩
    · intro time
      exact Nat.zero_le _
    · intro k tx t hk
      cases hk
    · intro k tx t hk
      rcases hk with hk | hk <;> cases hk
  · intro s l s' hinv hcalm hstep
    exact ⟨(calmStep hinv.1 hcalm hstep).inv hinv.1, slotInv_step hinv.2 hinv.1 hmax henforce hstep⟩

/-- In every run from an empty table in which no reschedule loads a QUEUED Task, the hour of any
    time holds at most the maximum of active Tasks. -/
theorem slot_capacity_never_exceeded (env : Env) (hmax : 0 < env.settings.slotMaxTasks)
    (henforce : env.settings.slotMaxTasksEnforce = true) {s : State}
    (h : (slotWriters env).Reachable Calm s) (time : DateTime) :
    (s.tasks.filter (inSlot time)).length ≤ env.settings.slotMaxTasks := by
  have hle := slotCount_le hmax henforce h time
  have hcount : slotCount time none s.tasks = (s.tasks.filter (inSlot time)).length := by
    rw [← countP_eq_length_filter]
    simp [slotCount]
  omega

/-! ### Concrete Runs -/

/-- A deployment that allows one Task for each slot. -/
def oneTaskEnv : Env where
  settings := { slotMaxTasks := 1, slotMaxTasksEnforce := true }
  sessionNamespaceFor := fun key _ => key

/-- Two Issues compete for a slot, and the first Task fails while it runs and is retried in it. -/
def competingWriters : List Label :=
  [.orderCreate 0 7 1 0 { harnessKey := "claude", scheduledAt := some 10 },
    .orderCreate 1 8 2 0 { harnessKey := "claude", scheduledAt := some 20 }, .lockSlot 0,
    .countSlot 0, .commit 0, .lockSlot 1, .countSlot 1, .openReschedule 3 1 5 25, .orderReschedule 3,
    .lockSlot 3, .countSlot 3, .commit 3, .promote 1, .start 1, .terminate 1 .failed,
    .openRetry 2 5 { sourceId := 1, scheduledAt := some 30 } none, .orderRetry 2 3 5, .lockSlot 2,
    .countSlot 2, .commit 2]

instance (s : State) (l : Label) : Decidable (Calm s l) :=
  match l with
  | .openReschedule _ taskId _ _ =>
    inferInstanceAs (Decidable (∀ r ∈ s.tasks, r.id = taskId → r.status ≠ .queued))
  | .openRetry .. | .openExecute .. | .orderCreate .. | .orderRetry .. | .orderReschedule _
  | .lockSlot _ | .countSlot _ | .commit _ | .abort _ | .terminate .. | .promote _ | .start _ =>
    .isTrue trivial

theorem slot_capacity_competing :
    ∃ s, (slotWriters oneTaskEnv).Reachable Calm s ∧
      s.tasks.map (fun t => (t.id, t.status, t.scheduledAt)) =
        [(1, .failed, some 25), (3, .pending, some 30)] ∧
      (s.tasks.filter (inSlot 0)).length ≤ 1 := by
  have hexec : ((slotWriters oneTaskEnv).execWhile Calm {} competingWriters).map
      (fun s => s.tasks.map fun t => (t.id, t.status, t.scheduledAt)) =
      some [(1, .failed, some 25), (3, .pending, some 30)] := by
    decide +kernel
  obtain ⟨s, hreach, htasks⟩ := System.exists_reachable_of_execWhile hexec rfl
  exact ⟨s, hreach, htasks, slot_capacity_never_exceeded oneTaskEnv (by decide) rfl hreach 0⟩

/-- A reschedule loads Task 1 while it is QUEUED. The Task ends, a retry of it is checked, the
    reschedule revives it, and the retry leaves it out of its count. -/
def revivedSource : List Label :=
  [.orderCreate 0 7 1 0 { harnessKey := "claude", scheduledAt := some 10 }, .lockSlot 0,
    .countSlot 0, .commit 0, .promote 1, .openReschedule 1 1 5 20, .terminate 1 .failed,
    .openRetry 2 5 { sourceId := 1, scheduledAt := some 30 } none, .orderReschedule 1, .lockSlot 1,
    .countSlot 1, .commit 1, .orderRetry 2 2 5, .lockSlot 2, .countSlot 2, .commit 2]

theorem revivedSource_overfills :
    ¬ ∀ s, (slotWriters oneTaskEnv).Reachable System.anyStep s →
      ∀ time, (s.tasks.filter (inSlot time)).length ≤ 1 := by
  intro hclaim
  have hs := System.reachable_of_exec (show (slotWriters oneTaskEnv).init {} from rfl)
    (show (slotWriters oneTaskEnv).exec {} revivedSource = some _ from rfl)
  exact absurd (hclaim _ hs 0) (by decide)

end Codify.Api.SlotWriters
