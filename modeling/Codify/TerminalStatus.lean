import Codify.TaskFrame

/-! # Terminal Statuses

    A Task that is COMPLETED, FAILED or CANCELLED stays so, and only
    `override_task_status` may change the status, between COMPLETED and FAILED.

    * Writers that read the row again under its lock keep this: `cancel_task`
      in both phases and the claim.
    * `reschedule_task`, `_park_queued_task` and the failures of the readiness
      gate write an object that was loaded earlier, and it may be out of date.
      `FreshWrites` asks that at such a commit the row is not terminal.
-/

namespace Codify.TaskLifecycle

open Codify Codify.Framework Codify.Scheduler Codify.Api List

variable {env : Env} {s s' t : State} {l : Label}

/-! ### The Condition -/

/-- No status is committed from a loaded object over a terminal row: at the commit of
    `reschedule_task`, of `_park_queued_task` or of a failure of the readiness gate, a terminal
    row of the Task already has the status that is written. -/
def FreshWrites (env : Env) (s : State) (l : Label) : Prop :=
  ∀ w ∈ statusWrites env s l, ∀ r ∈ s.tasks,
    r.id = w.1.id → r.status.active = false → r.status = w.2

/-- The worker ends a RUNNING Task; what it does to a terminal row of its own is not among the
    steps considered here. -/
def EndsRunning (s : State) : Label → Prop
  | .finishWorker taskId _ => ∀ r ∈ s.tasks, r.id = taskId → r.status.active = true
  | _ => True

/-- The steps considered: commits of fresh objects, and workers that end RUNNING Tasks. -/
def FreshSteps (env : Env) (s : State) (l : Label) : Prop :=
  FreshWrites env s l ∧ EndsRunning s l

instance (env : Env) (s : State) (l : Label) : Decidable (FreshWrites env s l) :=
  inferInstanceAs (Decidable (∀ w ∈ statusWrites env s l, ∀ r ∈ s.tasks,
    r.id = w.1.id → r.status.active = false → r.status = w.2))

instance (s : State) (l : Label) : Decidable (EndsRunning s l) :=
  match l with
  | .finishWorker taskId _ =>
    inferInstanceAs (Decidable (∀ r ∈ s.tasks, r.id = taskId → r.status.active = true))
  | .append .. | .openCancel .. | .openOverride .. | .openExecute .. | .openReschedule ..
  | .cancelPhaseA .. | .cancelContainer .. | .cancelPhaseB .. | .commitOverride ..
  | .commitExecute .. | .commitReschedule .. | .openCycle | .load .. | .forget .. | .closeCycle
  | .normalize | .promote .. | .getNext | .gate .. | .selectOthers .. | .parkOther | .claim ..
  | .publishContainer .. | .clearContainer .. | .detachWorker .. | .releaseOwner ..
  | .clearRetained .. | .observeStale | .deleteStale | .reconcile .. => .isTrue trivial

instance (env : Env) (s : State) (l : Label) : Decidable (FreshSteps env s l) :=
  inferInstanceAs (Decidable (_ ∧ _))

/-! ### Overrides under Way -/

def isOverridable (st : TaskStatus) : Prop := st = .completed ∨ st = .failed

theorem isOverridable.ended {st : TaskStatus} (h : isOverridable st) : st.active = false := by
  rcases h with rfl | rfl <;> rfl

/-- An override under way swaps COMPLETED and FAILED, and its row is one of the two. -/
def OverridesTerminal (s : State) : Prop :=
  ∀ object st, .override object st ∈ s.requests →
    isOverridable st ∧ ∃ r ∈ s.tasks, r.id = object.id ∧ isOverridable r.status

/-- What every run of fresh steps maintains. -/
structure TerminalInv (s : State) : Prop where
  ids : Table.KeyUnique Task.id s.tasks
  overrides : OverridesTerminal s

attribute [local simp] TaskStatus.active

/-- One step on a terminal row: nothing, or an override between COMPLETED and FAILED. -/
theorem StatusStep.of_ended {locks' : List IssueExecutionLock} {r : Task} {st : TaskStatus}
    (hinv : TerminalInv s) (hfresh : FreshSteps env s l) (hr : r ∈ s.tasks)
    (hended : r.status.active = false) (h : StatusStep env s l locks' r st) :
    st = r.status ∨ (∃ i, l = .commitOverride i) ∧ isOverridable r.status ∧ isOverridable st := by
  cases h with
  | keep => exact .inl rfl
  | normalize hl hst | promote now ids hl hst | settle ctx hl hst | start ctx hl hst =>
    simp [hst] at hended
  | cancel i now hl hst => rcases hst with hst | hst <;> simp [hst] at hended
  | override i object hl hreq hid =>
    obtain ⟨hst, r₀, hr₀, hid₀, hrow⟩ := hinv.overrides object st (mem_of_getElem? hreq)
    obtain rfl := hinv.ids.eq_of_key_eq hr₀ hr (hid₀.trans hid)
    exact .inr ⟨⟨i, hl⟩, hrow, hst⟩
  | stale object hwrite hid => exact .inl (hfresh.1 _ hwrite r hr hid.symm hended).symm
  | worker hl hlive hst hst' =>
    subst hl
    have hactive : r.status.active = true := hfresh.2 r hr rfl
    rw [hended] at hactive
    cases hactive

theorem terminalInv_step (hinv : TerminalInv s) (hfresh : FreshSteps env s l)
    (h : step env s l = some s') : TerminalInv s' := by
  have hframe := step_frame hinv.ids h
  -- the row of an override under way stays COMPLETED or FAILED
  have hrow : ∀ r ∈ s.tasks, isOverridable r.status →
      ∃ r' ∈ s'.tasks, r'.id = r.id ∧ isOverridable r'.status := by
    intro r hr hst
    obtain ⟨r', hr', hrow⟩ := hframe.table.forth hr
    refine ⟨r', hr', hrow.id, ?_⟩
    rcases hrow.status.of_ended hinv hfresh hr hst.ended with heq | ⟨-, -, hst'⟩
    · rwa [heq]
    · exact hst'
  refine ⟨hframe.table.keyUnique hinv.ids, ?_⟩
  intro object st hmem
  rcases hframe.requests _ hmem with hold | hnew
  · obtain ⟨hst, r, hr, hid, hrst⟩ := hinv.overrides object st hold
    obtain ⟨r', hr', hid', hrst'⟩ := hrow r hr hrst
    exact ⟨hst, r', hr', hid'.trans hid, hrst'⟩
  · cases hnew with
    | override hobject hvalid =>
      rcases validateOverride_eq_ok hvalid with ⟨hloaded, rfl⟩ | ⟨hloaded, rfl⟩
      · exact ⟨.inr rfl, hrow object hobject (.inl hloaded)⟩
      · exact ⟨.inl rfl, hrow object hobject (.inr hloaded)⟩

theorem terminalInv_reachable (h : (taskLifecycle env).Reachable (FreshSteps env) s) :
    TerminalInv s := by
  refine h.invariant ?_ (fun s l s' hinv hfresh hstep => terminalInv_step hinv hfresh hstep)
  intro s hs
  have hs : AtRest s := hs
  refine ⟨hs.ids, ?_⟩
  intro object st hmem
  rw [hs.requests] at hmem
  cases hmem

/-! ### Terminal Rows along Runs -/

/-- Every terminal row stays terminal and every CANCELLED row CANCELLED. -/
def KeepsTerminal (s s' : State) : Prop :=
  ∀ r ∈ s.tasks, r.status.active = false → ∃ r' ∈ s'.tasks, r'.id = r.id ∧
    r'.status.active = false ∧ (r.status = .cancelled → r'.status = .cancelled)

theorem KeepsTerminal.refl (s : State) : KeepsTerminal s s :=
  fun r hr hended => ⟨r, hr, rfl, hended, id⟩

theorem KeepsTerminal.trans {u : State} (hst : KeepsTerminal s t) (htu : KeepsTerminal t u) :
    KeepsTerminal s u := by
  intro r hr hended
  obtain ⟨r', hr', hid', hended', hcancelled'⟩ := hst r hr hended
  obtain ⟨r'', hr'', hid'', hended'', hcancelled''⟩ := htu r' hr' hended'
  exact ⟨r'', hr'', hid''.trans hid', hended'', hcancelled'' ∘ hcancelled'⟩

theorem step_terminal (hinv : TerminalInv s) (hfresh : FreshSteps env s l)
    (h : step env s l = some s') :
    ∀ r ∈ s.tasks, r.status.active = false → ∃ r' ∈ s'.tasks, r'.id = r.id ∧
      (r'.status = r.status ∨
        (∃ i, l = .commitOverride i) ∧ isOverridable r.status ∧ isOverridable r'.status) := by
  intro r hr hended
  obtain ⟨r', hr', hrow⟩ := (step_frame hinv.ids h).table.forth hr
  exact ⟨r', hr', hrow.id, hrow.status.of_ended hinv hfresh hr hended⟩

theorem keepsTerminal_step (hinv : TerminalInv s) (hfresh : FreshSteps env s l)
    (h : step env s l = some s') : KeepsTerminal s s' := by
  intro r hr hended
  obtain ⟨r', hr', hid, hst⟩ := step_terminal hinv hfresh h r hr hended
  refine ⟨r', hr', hid, ?_, ?_⟩
  · rcases hst with heq | ⟨-, -, hst⟩
    · rwa [heq]
    · exact hst.ended
  · intro hcancelled
    rcases hst with heq | ⟨-, hrow, -⟩
    · rwa [heq]
    · rw [hcancelled] at hrow
      rcases hrow with hrow | hrow <;> cases hrow

/-- **Terminal statuses are absorbing** along every run whose commits from loaded objects meet
    `FreshWrites`: a terminal row stays terminal, a CANCELLED row stays CANCELLED, and in one
    step a terminal status changes only by an override between COMPLETED and FAILED. -/
theorem terminal_status_absorbing (env : Env) {s t : State}
    (hs : (taskLifecycle env).Reachable (FreshSteps env) s)
    (hrun : (taskLifecycle env).Run (FreshSteps env) s t) :
    (∀ r ∈ s.tasks, r.status.active = false → ∃ r' ∈ t.tasks, r'.id = r.id ∧
      r'.status.active = false ∧ (r.status = .cancelled → r'.status = .cancelled)) ∧
    (∀ l t', FreshSteps env t l → (taskLifecycle env).next t l = some t' →
      ∀ r ∈ t.tasks, r.status.active = false → ∃ r' ∈ t'.tasks, r'.id = r.id ∧
        (r'.status = r.status ∨
          (∃ i, l = .commitOverride i) ∧ isOverridable r.status ∧ isOverridable r'.status)) := by
  constructor
  · exact hrun.relates (fun s l s' hinv hfresh hstep => terminalInv_step hinv hfresh hstep)
      KeepsTerminal.refl (fun _ _ _ => KeepsTerminal.trans)
      (fun s l s' hinv hfresh hstep => keepsTerminal_step hinv hfresh hstep)
      (terminalInv_reachable hs)
  · intro l t' hfresh hstep
    exact step_terminal (terminalInv_reachable (hs.run hrun)) hfresh hstep

/-- A fresh reschedule demotes the QUEUED Task; then it is cancelled and stays CANCELLED. -/
theorem terminal_status_absorbing_run :
    ∃ s t, (taskLifecycle plainEnv).Reachable (FreshSteps plainEnv) s ∧
      (taskLifecycle plainEnv).Run (FreshSteps plainEnv) s t ∧
      s.tasks.map (fun r => (r.id, r.status, r.scheduledAt)) = [(1, .cancelled, some 100)] ∧
      ∃ r' ∈ t.tasks, r'.id = 1 ∧ r'.status = .cancelled := by
  have hfirst : ∃ s, (taskLifecycle plainEnv).execWhile (FreshSteps plainEnv) {}
      (queuedTask ++ [.openReschedule 1 5 100, .commitReschedule 0 false, .openCancel 1,
        .cancelPhaseA 0 6]) = some s ∧
      (∃ t, (taskLifecycle plainEnv).execWhile (FreshSteps plainEnv) s
        [.cancelPhaseB 0 7, .append 7 2 8 { harnessKey := "claude" }] = some t) ∧
      s.tasks.map (fun r => (r.id, r.status, r.scheduledAt)) = [(1, .cancelled, some 100)] :=
    ⟨_, rfl, ⟨_, rfl⟩, rfl⟩
  obtain ⟨s, hexec, ⟨t, hexec'⟩, htasks⟩ := hfirst
  have hs : (taskLifecycle plainEnv).Reachable (FreshSteps plainEnv) s :=
    ⟨{}, atRest_empty, System.run_of_execWhile hexec⟩
  have hrun : (taskLifecycle plainEnv).Run (FreshSteps plainEnv) s t :=
    System.run_of_execWhile hexec'
  obtain ⟨r, hr, hrow⟩ := mem_map.mp (htasks ▸ mem_singleton_self _)
  obtain ⟨hid, hst, -⟩ : r.id = 1 ∧ r.status = .cancelled ∧ r.scheduledAt = some 100 := by
    simpa using hrow
  obtain ⟨r', hr', hid', -, hcancelled⟩ :=
    (terminal_status_absorbing plainEnv hs hrun).1 r hr (by simp [hst])
  exact ⟨s, t, hs, hrun, htasks, r', hr', hid'.trans hid, hcancelled hst⟩

/-- A reschedule that validated the QUEUED Task commits after the cancellation: the CANCELLED
    Task is PENDING again. -/
theorem reschedule_revives_cancelled :
    ¬ ∀ s t, (taskLifecycle plainEnv).Reachable System.anyStep s →
      (taskLifecycle plainEnv).Run System.anyStep s t →
      ∀ r ∈ s.tasks, r.status.active = false → ∃ r' ∈ t.tasks, r'.id = r.id ∧
        r'.status.active = false ∧ (r.status = .cancelled → r'.status = .cancelled) := by
  intro hclaim
  have hs := System.reachable_of_exec atRest_empty (show (taskLifecycle plainEnv).exec {}
    (queuedTask ++ [.openReschedule 1 5 100, .openCancel 1, .cancelPhaseA 1 6]) = some _ from rfl)
  obtain ⟨r', hr', -, hended, -⟩ := hclaim _ _ hs (System.run_of_exec
    (show (taskLifecycle plainEnv).exec _ [.commitReschedule 0 false] = some _ from rfl))
    _ mem_cons_self rfl
  cases mem_singleton.mp hr'
  cases hended

end Codify.TaskLifecycle
