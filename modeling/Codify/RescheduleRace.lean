import Codify.TaskFrame

/-! # Reschedule against Claim

    `reschedule_task` checks the status of a Task before it takes the Issue row
    lock and does not read the Task again under it. When the Scheduler claims
    the Task in between, the commit demotes a RUNNING Task to PENDING while its
    worker is alive and owns the Issue lock. `UnclaimedCommits` says when a
    reschedule commit leaves a claimed Task alone: exactly when the row still
    waits, or the loaded object was PENDING and the time does not change.
-/

namespace Codify.TaskLifecycle

open Codify Codify.Framework Codify.IssueTaskOrder Codify.Scheduler Codify.Api List
open Codify.IssueSchedule (rescheduled)

variable {env : Env} {s s' : State} {l : Label}

/-! ### The Condition -/

instance (st : TaskStatus) : Decidable (isWaiting st) := inferInstanceAs (Decidable (_ ∨ _))

/-- The commit of `object` with a new time does not touch the row: the row still waits, or the
    object is PENDING and either it or the row already has that time. -/
def UnclaimedWrite (object : Task) (scheduledAt : DateTime) (r : Task) : Prop :=
  isWaiting r.status ∨
    object.status = .pending ∧
      (object.scheduledAt = some scheduledAt ∨ r.scheduledAt = some scheduledAt)

/-- The object and the time that a reschedule commits in this step. -/
def rescheduleCommits (env : Env) (s : State) : Label → List (Task × DateTime)
  | .commitReschedule i slotFull =>
    match s.requests[i]? with
    | some (.reschedule object scheduledAt) =>
      match rescheduleTask env.sessionNamespaceFor s.snapshots scheduledAt object s.tasks with
      | .error _ => []
      | .ok _ => if slotFull then [] else [(object, scheduledAt)]
    | _ => []
  | _ => []

/-- Every reschedule that commits finds the row of its Task unclaimed, or changes nothing. -/
def UnclaimedCommits (env : Env) (s : State) (l : Label) : Prop :=
  ∀ w ∈ rescheduleCommits env s l, ∀ r ∈ s.tasks, r.id = w.1.id → UnclaimedWrite w.1 w.2 r

instance (object : Task) (scheduledAt : DateTime) (r : Task) :
    Decidable (UnclaimedWrite object scheduledAt r) :=
  inferInstanceAs (Decidable (_ ∨ _ ∧ (_ ∨ _)))

instance (env : Env) (s : State) (l : Label) : Decidable (UnclaimedCommits env s l) :=
  inferInstanceAs (Decidable (∀ w ∈ rescheduleCommits env s l, ∀ r ∈ s.tasks,
    r.id = w.1.id → UnclaimedWrite w.1 w.2 r))

/-! ### Where Stale Statuses Come From -/

variable {object r r' : Task} {st : TaskStatus} {scheduledAt : DateTime}

/-- A status committed from a loaded object: a QUEUED object is rescheduled or parked, or an
    object of the session fails. -/
theorem statusWrites_cases
    (h : (object, st) ∈ statusWrites env s l) :
    (∃ i scheduledAt tasks', l = .commitReschedule i false ∧
      s.requests[i]? = some (.reschedule object scheduledAt) ∧
      rescheduleTask env.sessionNamespaceFor s.snapshots scheduledAt object s.tasks = .ok tasks' ∧
      object.status = .queued ∧ st = .pending) ∨
    (object ∈ s.objects ∧ (object.status = .queued ∧ st = .pending ∨ st = .failed)) := by
  have hwrite : ∀ {o o' : Task}, (object, st) ∈ statusWrite o o' →
      object = o ∧ st = o'.status ∧ o'.status ≠ o.status := by
    intro o o' hmem
    unfold statusWrite at hmem
    split at hmem
    · cases hmem
    next hne =>
    obtain ⟨rfl, rfl⟩ : object = o ∧ st = o'.status := by simpa using hmem
    exact ⟨rfl, rfl, hne⟩
  unfold statusWrites at h
  split at h
  · next i slotFull =>
    split at h
    · next o scheduledAt hreq =>
      split at h
      · cases h
      next tasks' hok =>
      split at h
      · cases h
      next hslot =>
      obtain ⟨rfl, rfl, hne⟩ := hwrite h
      have hqueued : object.status = .queued := by
        by_contra hne'
        simp [rescheduled, hne'] at hne
      refine .inl ⟨i, scheduledAt, tasks', by simp_all, hreq, hok, hqueued, ?_⟩
      simp [rescheduled, hqueued]
    · cases h
  · split at h
    · split at h
      · cases h
      · next o hobject =>
        obtain ⟨rfl, rfl, hne⟩ := hwrite h
        refine .inr ⟨(mem_of_taskRow? hobject).1, ?_⟩
        exact (gateWrite_status env.dumps _ _ object).resolve_left hne
    · cases h
  · split at h
    · split at h
      · cases h
      · next o hobject =>
        obtain ⟨rfl, rfl, hne⟩ := hwrite h
        refine .inr ⟨(mem_of_taskRow? hobject).1, ?_⟩
        exact (gateWrite_status env.dumps .park 0 object).resolve_left hne
    · cases h
  · cases h

/-! ### The Invariant -/

/-- What every run of unclaimed commits maintains. -/
structure ClaimedInv (s : State) : Prop where
  ids : Table.KeyUnique Task.id s.tasks
  /-- A Task with a live worker does not wait. -/
  workers : ∀ k ∈ s.workers, ∃ r ∈ s.tasks, r.id = k ∧ ¬isWaiting r.status
  /-- The session of the cycle holds no waiting object of a Task with a live worker. -/
  objects : ∀ o ∈ s.objects, isWaiting o.status → o.id ∉ s.workers
  overrides : ∀ o st, .override o st ∈ s.requests → ¬isWaiting st
  /-- A reschedule under way holds a waiting object of a row of its Issue. -/
  reschedules : ∀ o t, .reschedule o t ∈ s.requests →
    isWaiting o.status ∧ ∃ r ∈ s.tasks, r.id = o.id ∧ r.issueId = o.issueId

theorem ClaimedInv.not_worker (hinv : ClaimedInv s) (hr : r ∈ s.tasks)
    (hwaiting : isWaiting r.status) : r.id ∉ s.workers := by
  intro hlive
  obtain ⟨r', hr', hid, hst⟩ := hinv.workers r.id hlive
  obtain rfl := hinv.ids.eq_of_key_eq hr' hr hid
  exact hst hwaiting

theorem StatusStep.not_waiting {locks' : List IssueExecutionLock}
    (hinv : ClaimedInv s) (hguard : UnclaimedCommits env s l) (hr : r ∈ s.tasks)
    (hlive : r.id ∈ s.workers) (hst : ¬isWaiting r.status)
    (h : StatusStep env s l locks' r st) : ¬isWaiting st := by
  cases h with
  | keep => exact hst
  | normalize hl hq | settle ctx hl hq | start ctx hl hq => exact absurd (.inr hq) hst
  | promote now ids hl hp => exact absurd (.inl hp) hst
  | cancel i now hl hw => exact absurd hw hst
  | override i object hl hreq hid => exact hinv.overrides object st (mem_of_getElem? hreq)
  | stale object hwrite hid =>
    rcases statusWrites_cases hwrite with
      ⟨i, t, tasks', rfl, hreq, hok, hqueued, rfl⟩ | ⟨hobject, ⟨hqueued, rfl⟩ | rfl⟩
    · -- a reschedule of a QUEUED object: the condition says that the row still waits
      have hcommit : (object, t) ∈ rescheduleCommits env s (.commitReschedule i false) := by
        simp [rescheduleCommits, hreq, hok]
      rcases hguard _ hcommit r hr hid.symm with hwaiting | ⟨hpending, -⟩
      · exact absurd hwaiting hst
      · rw [hqueued] at hpending
        cases hpending
    · exact absurd hlive (hid ▸ hinv.objects object hobject (.inr hqueued))
    · intro hw
      rcases hw with hw | hw <;> cases hw
  | worker hl _ hrow hended =>
    intro hw
    rcases hw with rfl | rfl <;> cases hended

theorem isWaiting_of_validate {task : Task}
    (h : validateTaskStatusForReschedule task = .ok ()) : isWaiting task.status := by
  unfold validateTaskStatusForReschedule at h
  split at h
  · cases h
  · next hw => exact not_not.mp hw

theorem claimedInv_step (hinv : ClaimedInv s) (hguard : UnclaimedCommits env s l)
    (h : step env s l = some s') : ClaimedInv s' := by
  have hframe := step_frame hinv.ids h
  have hold : ∀ k ∈ s.workers, ∃ r ∈ s'.tasks, r.id = k ∧ ¬isWaiting r.status := by
    intro k hk
    obtain ⟨r, hr, rfl, hst⟩ := hinv.workers k hk
    obtain ⟨r', hr', hrow⟩ := hframe.table.forth hr
    exact ⟨r', hr', hrow.id, hrow.status.not_waiting hinv hguard hr hk hst⟩
  refine ⟨hframe.table.keyUnique hinv.ids, ?_, ?_, ?_, ?_⟩
  · intro k hk
    rcases hframe.workers with hfewer | ⟨ctx, hl, htask, hempty, hworkers, htask', hid, hrun⟩
    · exact hold k (hfewer k hk)
    · rw [hworkers] at hk
      rcases mem_cons.mp hk with rfl | hk
      · refine ⟨_, htask', hid, ?_⟩
        rw [hrun]
        intro hw
        rcases hw with hw | hw <;> cases hw
      · exact hold k hk
  · intro o ho hwaiting
    rcases hframe.workers with hfewer | ⟨ctx, hl, htask, hempty, -⟩
    · intro hlive
      obtain ⟨o₀, ho₀, hid, hw₀⟩ := (hframe.objects o ho).waiting hwaiting
      have hlive₀ : o₀.id ∈ s.workers := hid ▸ hfewer _ hlive
      rcases ho₀ with ho₀ | ho₀
      · exact hinv.objects o₀ ho₀ hw₀ hlive₀
      · exact hinv.not_worker ho₀ hw₀ hlive₀
    · rw [hempty] at ho
      cases ho
  · intro o st hmem
    rcases hframe.requests _ hmem with hmem | hnew
    · exact hinv.overrides o st hmem
    · cases hnew with
      | override hobject hvalid =>
        intro hw
        rcases validateOverride_eq_ok hvalid with ⟨-, rfl⟩ | ⟨-, rfl⟩ <;>
          rcases hw with hw | hw <;> cases hw
  · intro o t hmem
    rcases hframe.requests _ hmem with hmem | hnew
    · obtain ⟨hw, r, hr, hid, hissue⟩ := hinv.reschedules o t hmem
      obtain ⟨r', hr', hrow⟩ := hframe.table.forth hr
      exact ⟨hw, r', hr', hrow.id.trans hid, hrow.issueId.trans hissue⟩
    · cases hnew with
      | reschedule hobject hvalid =>
        obtain ⟨r', hr', hrow⟩ := hframe.table.forth hobject
        exact ⟨isWaiting_of_validate hvalid, r', hr', hrow.id, hrow.issueId⟩

theorem claimedInv_reachable (h : (taskLifecycle env).Reachable (UnclaimedCommits env) s) :
    ClaimedInv s := by
  refine h.invariant ?_ (fun s l s' hinv hguard hstep => claimedInv_step hinv hguard hstep)
  intro s hs
  have hs : AtRest s := hs
  refine ⟨hs.ids, ?_, ?_, ?_, ?_⟩
  · simp [hs.workers]
  · simp [hs.objects]
  · simp [hs.requests]
  · simp [hs.requests]

/-! ### The Commit on a Claimed Row -/

/-- A reschedule that commits writes the repaired and rescheduled object to the row of its
    Task. -/
theorem rescheduleTask_row {tasks' : List Task}
    (hunique : Table.KeyUnique Task.id s.tasks)
    (h : rescheduleTask env.sessionNamespaceFor s.snapshots scheduledAt object s.tasks =
      .ok tasks') (hr : r ∈ s.tasks) (hid : r.id = object.id)
    (hissue : r.issueId = object.issueId) (hr' : r' ∈ tasks') (hid' : r'.id = r.id) :
    ∃ o₁, Repaired object o₁ ∧ r' = flushTask object (rescheduled scheduledAt o₁) r := by
  obtain ⟨selected, repaired, hselected, hrepairs, rfl⟩ := rescheduleTask_eq_ok h
  have hkeys : Table.KeyUnique Task.id selected :=
    hselected ▸ keyUnique_selectObjects (hunique.filter _) _
  obtain ⟨r₀, hr₀, rfl⟩ := mem_map.mp hr'
  obtain rfl : r₀ = r := hunique.eq_of_key_eq hr₀ hr (by simpa using hid')
  -- the row belongs to the Issue, so the session holds its object
  have hmem : r₀.id ∈ selected.map Task.id := by
    rw [hselected, selectObjects_ids]
    exact mem_map_of_mem (mem_filter.mpr ⟨hr, by simpa using hissue⟩)
  obtain ⟨o, ho, hoid⟩ := mem_map.mp hmem
  obtain ⟨o', ho', hrep⟩ := hrepairs.forth o ho
  rcases flushRow_rescheduled hkeys hselected hrepairs hid with ⟨hnone | hnone, -⟩ | hflush
  · exact absurd hoid (Table.row?_eq_none_iff.mp hnone o ho)
  · exact absurd (hrep.id.trans hoid) (Table.row?_eq_none_iff.mp hnone o' ho')
  · obtain ⟨o₁, -, hrep₁, hflush⟩ := hflush
    exact ⟨o₁, hrep₁, hflush⟩

/-- On a RUNNING row the write of a waiting object changes nothing exactly when the object is
    PENDING and the time stays. -/
theorem flush_rescheduled_unchanged_iff {object o₁ r : Task}
    (hrep : Repaired object o₁) (hwaiting : isWaiting object.status)
    (hrunning : r.status = .running) :
    ((flushTask object (rescheduled scheduledAt o₁) r).status = r.status ∧
      (flushTask object (rescheduled scheduledAt o₁) r).scheduledAt = r.scheduledAt) ↔
    UnclaimedWrite object scheduledAt r := by
  have hnot : ¬isWaiting r.status := by
    rw [hrunning]
    intro hw
    rcases hw with hw | hw <;> cases hw
  have htime : flushColumn object.scheduledAt (some scheduledAt) r.scheduledAt = r.scheduledAt ↔
      object.scheduledAt = some scheduledAt ∨ r.scheduledAt = some scheduledAt := by
    unfold flushColumn
    split
    · next heq => simp [heq]
    · next hne => simp [eq_comm, Ne.symm hne]
  unfold UnclaimedWrite
  rcases hwaiting with hpending | hqueued
  · simp [rescheduled, hrep.status, hpending, htime, hnot]
  · simp [rescheduled, hrep.status, hqueued, flushColumn, hrunning, isWaiting]

/-- A reschedule commit leaves the RUNNING row of its Task alone if and only if it meets the
    condition. -/
theorem commitReschedule_unchanged_iff (hinv : ClaimedInv s) {i : Nat} {slotFull : Bool}
    (hreq : s.requests[i]? = some (.reschedule object scheduledAt))
    (h : step env s (.commitReschedule i slotFull) = some s') (hr : r ∈ s.tasks)
    (hid : r.id = object.id) (hrunning : r.status = .running) (hr' : r' ∈ s'.tasks)
    (hid' : r'.id = r.id) :
    (r'.status = r.status ∧ r'.scheduledAt = r.scheduledAt) ↔
      UnclaimedCommits env s (.commitReschedule i slotFull) := by
  obtain ⟨hwaiting, r₀, hr₀, hid₀, hissue⟩ :=
    hinv.reschedules object scheduledAt (mem_of_getElem? hreq)
  obtain rfl : r₀ = r := hinv.ids.eq_of_key_eq hr₀ hr (hid₀.trans hid.symm)
  simp only [step, State.runReschedule, hreq] at h
  split at h
  · next hrefused =>
    cases h
    obtain rfl : r' = r₀ := hinv.ids.eq_of_key_eq hr' hr hid'
    simp [UnclaimedCommits, rescheduleCommits, hreq, hrefused]
  · next tasks hok =>
    cases h
    cases slotFull with
    | true =>
      obtain rfl : r' = r₀ := hinv.ids.eq_of_key_eq hr' hr hid'
      simp [UnclaimedCommits, rescheduleCommits, hreq, hok]
    | false =>
      obtain ⟨o₁, hrep, rfl⟩ := rescheduleTask_row hinv.ids hok hr hid hissue hr' hid'
      rw [flush_rescheduled_unchanged_iff hrep hwaiting hrunning]
      have hcommits : rescheduleCommits env s (.commitReschedule i false) =
          [(object, scheduledAt)] := by
        simp [rescheduleCommits, hreq, hok]
      unfold UnclaimedCommits
      rw [hcommits]
      constructor
      · intro hrow w hw r₁ hr₁ hid₁
        obtain rfl : w = (object, scheduledAt) := by simpa using hw
        obtain rfl : r₁ = r₀ := hinv.ids.eq_of_key_eq hr₁ hr (hid₁.trans hid.symm)
        exact hrow
      · intro hall
        exact hall _ (mem_singleton_self _) r₀ hr hid

/-! ### Reschedule Never Touches a Claimed Task -/

/-- In every run of unclaimed commits, a Task that owns the lock of its Issue and has a live
    worker is never PENDING; and a reschedule commit leaves status and time of a RUNNING row
    unchanged if and only if it meets the condition. -/
theorem reschedule_spares_claimed (env : Env) {s : State}
    (hs : (taskLifecycle env).Reachable (UnclaimedCommits env) s) :
    (∀ r ∈ s.tasks, { issueId := r.issueId, taskId := r.id } ∈ s.locks → r.id ∈ s.workers →
      r.status ≠ .pending) ∧
    (∀ i slotFull object scheduledAt s', s.requests[i]? = some (.reschedule object scheduledAt) →
      (taskLifecycle env).next s (.commitReschedule i slotFull) = some s' →
      ∀ r ∈ s.tasks, r.id = object.id → r.status = .running →
      ∀ r' ∈ s'.tasks, r'.id = r.id →
        ((r'.status = r.status ∧ r'.scheduledAt = r.scheduledAt) ↔
          UnclaimedCommits env s (.commitReschedule i slotFull))) := by
  have hinv := claimedInv_reachable hs
  constructor
  · intro r hr _ hlive hpending
    exact hinv.not_worker hr (.inl hpending) hlive
  · intro i slotFull object scheduledAt s' hreq hstep r hr hid hrunning r' hr' hid'
    exact commitReschedule_unchanged_iff hinv hreq hstep hr hid hrunning hr' hid'

/-- The Task is rescheduled while it waits, promoted again when it is due, and claimed. -/
theorem reschedule_spares_claimed_run :
    ∃ s, (taskLifecycle plainEnv).Reachable (UnclaimedCommits plainEnv) s ∧
      s.tasks.map (fun r => (r.id, r.status, r.scheduledAt)) = [(1, .running, some 100)] ∧
      s.locks = [{ issueId := 7, taskId := 1 }] ∧ s.workers = [1] ∧
      ∀ r ∈ s.tasks, { issueId := r.issueId, taskId := r.id } ∈ s.locks → r.id ∈ s.workers →
        r.status ≠ .pending := by
  have hrun := System.run_of_execWhile
    (show (taskLifecycle plainEnv).execWhile (UnclaimedCommits plainEnv) {}
      (queuedTask ++ [.openReschedule 1 5 100, .commitReschedule 0 false, .openCycle,
        .promote 101 [1], .closeCycle] ++ claimNext 102) = some _ from rfl)
  have hs : (taskLifecycle plainEnv).Reachable (UnclaimedCommits plainEnv) _ :=
    ⟨{}, atRest_empty, hrun⟩
  exact ⟨_, hs, rfl, rfl, rfl, (reschedule_spares_claimed plainEnv hs).1⟩

/-- A reschedule validates the QUEUED Task, the Scheduler claims it, and then the reschedule
    commits: the RUNNING row is PENDING with a new time, although its worker is alive and owns
    the lock of the Issue. -/
theorem reschedule_demotes_claimed :
    (¬ ∀ s i slotFull object scheduledAt s', (taskLifecycle plainEnv).Reachable System.anyStep s →
      s.requests[i]? = some (.reschedule object scheduledAt) →
      (taskLifecycle plainEnv).next s (.commitReschedule i slotFull) = some s' →
      ∀ r ∈ s.tasks, r.id = object.id → r.status = .running → ∀ r' ∈ s'.tasks, r'.id = r.id →
        r'.status = r.status ∧ r'.scheduledAt = r.scheduledAt) ∧
    (¬ ∀ s, (taskLifecycle plainEnv).Reachable System.anyStep s →
      ∀ r ∈ s.tasks, { issueId := r.issueId, taskId := r.id } ∈ s.locks → r.id ∈ s.workers →
        r.status ≠ .pending) := by
  have hs := System.reachable_of_exec atRest_empty (show (taskLifecycle plainEnv).exec {}
    (queuedTask ++ [.openReschedule 1 5 100] ++ claimNext 6) = some _ from rfl)
  constructor
  · intro hclaim
    have hsame := hclaim _ 0 false _ 100 _ hs rfl rfl _ mem_cons_self rfl rfl _ mem_cons_self rfl
    exact absurd hsame.1 (by decide)
  · intro hclaim
    have hs' := hs.run (.step (.refl _) trivial
      (show (taskLifecycle plainEnv).next _ (.commitReschedule 0 false) = some _ from rfl))
    exact hclaim _ hs' _ mem_cons_self mem_cons_self mem_cons_self rfl

end Codify.TaskLifecycle
