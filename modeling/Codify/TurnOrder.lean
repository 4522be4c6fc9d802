import Codify.TaskFrame

/-! # Turn Order within an Issue

    The Tasks of one Issue run one at a time and in the order of their sequence
    numbers. The argument rests on three facts:

    * a RUNNING Task owns the lock of its Issue, and there is one lock per Issue;
    * a lock is deleted only when its owner has ended, so a late finalizer or
      lock cleanup never frees the Issue of a RUNNING Task;
    * once a Task has started, no Task with a smaller or equal number waits any
      more, and new Tasks come after it.

    `TurnSteps` excludes only the commits that write a status from an object
    loaded earlier (`reschedule_task` and the writes of the readiness gate):
    appends, execute-now, cancellations, overrides, workers, the lock cleanup,
    the queue statements and the claim are all turn steps.
-/

namespace Codify.TaskLifecycle

open Codify Codify.Framework Codify.IssueTaskOrder Codify.Scheduler Codify.Api List Option

variable {env : Env} {s s' t : State} {l : Label}

/-- The step commits no status from an object loaded earlier. -/
def TurnSteps (env : Env) (s : State) (l : Label) : Prop := (statusWrites env s l).isEmpty = true

instance (env : Env) (s : State) (l : Label) : Decidable (TurnSteps env s l) :=
  inferInstanceAs (Decidable (_ = _))

/-- A database at rest whose Tasks are numbered, each number once in an Issue; every lock has
    its owner, and a RUNNING Task owns the lock of its Issue. -/
structure OrderedAtRest (s : State) : Prop extends AtRest s where
  sequenced : ∀ r ∈ s.tasks, r.issueSequence ≠ none
  distinct : ∀ a ∈ s.tasks, ∀ b ∈ s.tasks, a.issueId = b.issueId →
    a.issueSequence = b.issueSequence → a.id = b.id
  owned : ∀ lock ∈ s.locks, ∃ r ∈ s.tasks, r.id = lock.taskId
  owners : ∀ r ∈ s.tasks, r.status = .running →
    { issueId := r.issueId, taskId := r.id } ∈ s.locks

/-! ### One Step -/

/-- How a turn step moves a status. -/
inductive TurnMove (s : State) (r : Task) (locks' : List IssueExecutionLock) :
    TaskStatus → Prop where
  | keep : TurnMove s r locks' r.status
  | wait {st : TaskStatus} (h : isWaiting r.status) (hst : isWaiting st) : TurnMove s r locks' st
  | finish {st : TaskStatus} (hst : st.active = false) : TurnMove s r locks' st
  | start (h : r.status = .queued) (hpred : hasActivePredecessor s.tasks r = false)
      (hlock : acquireIssueExecutionLock r s.locks = some locks') : TurnMove s r locks' .running

/-- What every run of turn steps maintains. -/
structure TurnInv (s : State) : Prop where
  ids : Table.KeyUnique Task.id s.tasks
  locks : LocksUnique s.locks
  sequenced : Sequenced s
  distinct : ∀ a ∈ s.tasks, ∀ b ∈ s.tasks, a.issueId = b.issueId →
    a.issueSequence = b.issueSequence → a.id = b.id
  /-- Every lock has its owner. -/
  owned : ∀ lock ∈ s.locks, ∃ r ∈ s.tasks, r.id = lock.taskId
  /-- Every RUNNING Task owns the lock of its Issue. -/
  owners : ∀ r ∈ s.tasks, r.status = .running →
    { issueId := r.issueId, taskId := r.id } ∈ s.locks
  overrides : ∀ o st, .override o st ∈ s.requests → st.active = false
  /-- Pairs that are going to be deleted belong to Tasks that have ended. -/
  releasing : ∀ p ∈ s.releasing, ∃ r ∈ s.tasks, r.id = p.taskId ∧ r.status.active = false
  stale : ∀ p ∈ s.stale, ∃ r ∈ s.tasks, r.id = p.taskId ∧ r.status.active = false

variable {locks' : List IssueExecutionLock} {r : Task} {st : TaskStatus}

theorem StatusStep.turnMove
    (hinv : TurnInv s) (hturn : TurnSteps env s l) (h : StatusStep env s l locks' r st) :
    TurnMove s r locks' st := by
  cases h with
  | keep => exact .keep
  | normalize hl hq => exact .wait (.inr hq) (.inl rfl)
  | promote now ids hl hp => exact .wait (.inl hp) (.inr rfl)
  | settle ctx hl hq hst =>
    rcases hst with rfl | rfl | rfl
    · exact .wait (.inr hq) (.inl rfl)
    · exact .finish rfl
    · exact .finish rfl
  | start ctx hl hq hpred hlock => exact .start hq hpred hlock
  | cancel i now hl hw => exact .finish rfl
  | override i object hl hreq hid =>
    exact .finish (hinv.overrides object st (mem_of_getElem? hreq))
  | stale object hwrite hid =>
    rw [List.isEmpty_iff.mp hturn] at hwrite
    cases hwrite
  | worker hl hlive hrow hst => exact .finish hst

theorem TurnMove.not_waiting
    (h : TurnMove s r locks' st) (hst : ¬isWaiting r.status) : ¬isWaiting st := by
  cases h with
  | keep => exact hst
  | wait hw _ => exact absurd hw hst
  | finish hended =>
    intro hw
    rcases hw with rfl | rfl <;> cases hended
  | start hq _ _ => exact absurd (.inr hq) hst

theorem TurnMove.ended
    (h : TurnMove s r locks' st) (hended : r.status.active = false) : st.active = false := by
  have hnot : ¬isWaiting r.status := by
    intro hw
    rcases hw with hw | hw <;> simp [hw, TaskStatus.active] at hended
  cases h with
  | keep => exact hended
  | wait hw _ => exact absurd hw hnot
  | finish hst => exact hst
  | start hq _ _ => exact absurd (.inr hq) hnot

section Step

variable (hinv : TurnInv s) (hturn : TurnSteps env s l) (h : step env s l = some s')
include hinv hturn h

theorem ended_step {k : Nat} (hk : ∃ r ∈ s.tasks, r.id = k ∧ r.status.active = false) :
    ∃ r ∈ s'.tasks, r.id = k ∧ r.status.active = false := by
  obtain ⟨r, hr, rfl, hended⟩ := hk
  obtain ⟨r', hr', hrow⟩ := (step_frame hinv.ids h).table.forth hr
  exact ⟨r', hr', hrow.id, (hrow.status.turnMove hinv hturn).ended hended⟩

omit hturn in
theorem lock_survives {r : Task} (hr : r ∈ s.tasks) (hrunning : r.status = .running) :
    { issueId := r.issueId, taskId := r.id } ∈ s'.locks := by
  have hlock := hinv.owners r hr hrunning
  -- the owner is RUNNING, so its pair is not among those that are deleted
  have hended : ∀ k, k = r.id →
      ¬∃ r₀ ∈ s.tasks, r₀.id = k ∧ r₀.status.active = false := by
    rintro k rfl ⟨r₀, hr₀, hid, hended⟩
    obtain rfl := hinv.ids.eq_of_key_eq hr₀ hr hid
    simp [hrunning, TaskStatus.active] at hended
  rcases (step_frame hinv.ids h).locks with hsame | ⟨ctx, hl, htask, hacq⟩ | ⟨pairs, hdel, hpairs⟩
  · rwa [hsame]
  · obtain ⟨-, heq⟩ := acquireIssueExecutionLock_eq_some hacq
    rw [heq]
    exact mem_append_left _ hlock
  · rw [hdel]
    refine mem_deletePairs.mpr ⟨hlock, ?_⟩
    intro hmem
    rcases hpairs _ hmem with hrel | hstale | hended'
    · exact hended r.id rfl (hinv.releasing _ hrel)
    · exact hended r.id rfl (hinv.stale _ hstale)
    · exact hended r.id rfl ⟨r, hr, rfl, hended' r hr rfl⟩

theorem owners_step : ∀ r ∈ s'.tasks, r.status = .running →
    { issueId := r.issueId, taskId := r.id } ∈ s'.locks := by
  intro r' hr' hrunning
  rcases (step_frame hinv.ids h).table.back hr' with ⟨r, hr, hrow⟩ | ⟨fresh, hfresh, hmem⟩
  · rw [hrow.id, hrow.issueId]
    have hmove := hrow.status.turnMove hinv hturn
    rw [hrunning] at hmove
    generalize hst : TaskStatus.running = st at hmove
    cases hmove with
    | keep => exact lock_survives hinv h hr hst.symm
    | wait _ hw => rcases hw with rfl | rfl <;> cases hst
    | finish hended =>
      subst hst
      cases hended
    | start _ _ hacq =>
      rw [(acquireIssueExecutionLock_eq_some hacq).2]
      exact mem_append_right _ (mem_singleton_self _)
  · cases hfresh with
    | none => cases hmem
    | tail t m hid hnew hissue hpending =>
      obtain rfl : r' = t := by simpa using hmem
      rw [hpending] at hrunning
      cases hrunning

theorem distinct_step : ∀ a ∈ s'.tasks, ∀ b ∈ s'.tasks, a.issueId = b.issueId →
    a.issueSequence = b.issueSequence → a.id = b.id := by
  have hframe := step_frame hinv.ids h
  -- a new tail has a number that no row of its Issue has
  have hfreshRow : ∀ a b, RowStep env s l s'.locks a b → a ∈ s.tasks → ∀ fresh,
      FreshRows s l fresh → ∀ c ∈ fresh, c.issueId = b.issueId →
      c.issueSequence ≠ b.issueSequence := by
    intro a b hrow ha fresh hfresh c hc hissue hseq
    cases hfresh with
    | none => cases hc
    | tail t m hid hnew hissue' _ htseq hmax =>
      obtain rfl : c = t := by simpa using hc
      have hle := hmax a ha (by rw [← hrow.issueId, ← hissue, hissue']) (m + 1) (by
        rw [← hrow.sequence hinv.sequenced, ← hseq, htseq])
      omega
  intro a ha b hb hissue hseq
  rcases hframe.table.back ha with ⟨a₀, ha₀, hrowa⟩ | ⟨fresh, hfresh, hmem⟩
  · rcases hframe.table.back hb with ⟨b₀, hb₀, hrowb⟩ | ⟨fresh, hfresh, hmem⟩
    · rw [hrowa.id, hrowb.id]
      refine hinv.distinct a₀ ha₀ b₀ hb₀ ?_ ?_
      · rw [← hrowa.issueId, ← hrowb.issueId, hissue]
      · rw [← hrowa.sequence hinv.sequenced, ← hrowb.sequence hinv.sequenced, hseq]
    · exact absurd hseq.symm (hfreshRow a₀ a hrowa ha₀ fresh hfresh b hmem hissue.symm)
  · rcases hframe.table.back hb with ⟨b₀, hb₀, hrowb⟩ | ⟨fresh', hfresh', hmem'⟩
    · exact absurd hseq (hfreshRow b₀ b hrowb hb₀ fresh hfresh a hmem hissue)
    · cases hfresh with
      | none => cases hmem
      | tail t m hid =>
        cases hfresh' with
        | none => cases hmem'
        | tail t' m' hid' =>
          obtain rfl : a = t := by simpa using hmem
          obtain rfl : b = t' := by simpa using hmem'
          exact hid.trans hid'.symm

omit hturn in
theorem sequenced_step : Sequenced s' := by
  have hframe := step_frame hinv.ids h
  refine ⟨?_, ?_, ?_⟩
  · intro r' hr'
    rcases hframe.table.back hr' with ⟨r, hr, hrow⟩ | ⟨fresh, hfresh, hmem⟩
    · rw [hrow.sequence hinv.sequenced]
      exact hinv.sequenced.rows r hr
    · cases hfresh with
      | none => cases hmem
      | tail t m hid hnew hissue hst hseq =>
        obtain rfl : r' = t := by simpa using hmem
        simp [hseq]
  · intro o ho
    obtain ⟨o₀, ho₀, -, hseq⟩ := (hframe.objects o ho).origin
    rw [hseq]
    exact ho₀.elim (hinv.sequenced.objects o₀) (hinv.sequenced.rows o₀)
  · intro o time hmem
    rcases hframe.requests _ hmem with hmem | hnew
    · exact hinv.sequenced.requests o time hmem
    · cases hnew with
      | reschedule hobject hvalid => exact hinv.sequenced.rows o hobject

theorem turnInv_step : TurnInv s' := by
  have hframe := step_frame hinv.ids h
  have hrows : ∀ k, (∃ r ∈ s.tasks, r.id = k) → ∃ r ∈ s'.tasks, r.id = k := by
    rintro k ⟨r, hr, rfl⟩
    obtain ⟨r', hr', hrow⟩ := hframe.table.forth hr
    exact ⟨r', hr', hrow.id⟩
  refine ⟨hframe.table.keyUnique hinv.ids, ?_, sequenced_step hinv h,
    distinct_step hinv hturn h, ?_, owners_step hinv hturn h, ?_, ?_, ?_⟩
  · rcases hframe.locks with hsame | ⟨ctx, hl, htask, hacq⟩ | ⟨pairs, hdel, -⟩
    · rw [hsame]
      exact hinv.locks
    · exact hinv.locks.acquire hacq
    · rw [hdel]
      exact hinv.locks.deletePairs pairs
  · intro lock hlock
    rcases hframe.locks with hsame | ⟨ctx, hl, htask, hacq⟩ | ⟨pairs, hdel, -⟩
    · exact hrows _ (hinv.owned lock (hsame ▸ hlock))
    · rw [(acquireIssueExecutionLock_eq_some hacq).2] at hlock
      rcases mem_append.mp hlock with hlock | hlock
      · exact hrows _ (hinv.owned lock hlock)
      · obtain rfl := mem_singleton.mp hlock
        exact hrows _ ⟨_, htask, rfl⟩
    · rw [hdel] at hlock
      exact hrows _ (hinv.owned lock (mem_deletePairs.mp hlock).1)
  · intro o st hmem
    rcases hframe.requests _ hmem with hmem | hnew
    · exact hinv.overrides o st hmem
    · cases hnew with
      | override hobject hvalid =>
        rcases validateOverride_eq_ok hvalid with ⟨-, rfl⟩ | ⟨-, rfl⟩ <;> rfl
  · intro p hp
    refine ended_step hinv hturn h ?_
    rcases hframe.releasing p hp with hp | ⟨hended, r, hr, hid⟩
    · exact hinv.releasing p hp
    · exact ⟨r, hr, hid, hended r hr hid⟩
  · intro p hp
    refine ended_step hinv hturn h ?_
    rcases hframe.stale p hp with hp | ⟨hended, hlock⟩
    · exact hinv.stale p hp
    · obtain ⟨r, hr, hid⟩ := hinv.owned p hlock
      exact ⟨r, hr, hid, hended r hr hid⟩

end Step

theorem turnInv_atRest (h : OrderedAtRest s) : TurnInv s := by
  refine ⟨h.ids, h.locks, ⟨h.sequenced, ?_, ?_⟩, h.distinct, h.owned, h.owners, ?_, ?_, ?_⟩
  · simp [h.objects]
  · simp [h.requests]
  · simp [h.requests]
  · simp [h.releasing]
  · simp [h.stale]

theorem turnInv_run (h₀ : OrderedAtRest s) (hrun : (taskLifecycle env).Run (TurnSteps env) s t) :
    TurnInv t :=
  hrun.preserves (fun _ _ _ hinv hturn hstep => turnInv_step hinv hturn hstep) (turnInv_atRest h₀)

/-! ### Starts -/

/-- The Task `r` becomes RUNNING between `s` and `s'`. -/
def Starts (s s' : State) (r : Task) : Prop :=
  r ∈ s.tasks ∧ r.status ≠ .running ∧ ∃ r' ∈ s'.tasks, r'.id = r.id ∧ r'.status = .running

/-- A Task starts from QUEUED, and no active Task of its Issue has a smaller number. -/
theorem Starts.claimed (hinv : TurnInv s) (hturn : TurnSteps env s l)
    (h : step env s l = some s') (hstart : Starts s s' r) :
    r.status = .queued ∧ hasActivePredecessor s.tasks r = false := by
  obtain ⟨hr, hnot, r', hr', hid, hrunning⟩ := hstart
  obtain ⟨r'', hr'', hrow⟩ := (step_frame hinv.ids h).table.forth hr
  have hids := (step_frame hinv.ids h).table.keyUnique hinv.ids
  obtain rfl : r'' = r' := hids.eq_of_key_eq hr'' hr' (hrow.id.trans hid.symm)
  have hmove := hrow.status.turnMove hinv hturn
  rw [hrunning] at hmove
  generalize hst : TaskStatus.running = st at hmove
  cases hmove with
  | keep => exact absurd hst.symm hnot
  | wait _ hw => rcases hw with rfl | rfl <;> cases hst
  | finish hended =>
    subst hst
    cases hended
  | start hq hpred _ => exact ⟨hq, hpred⟩

/-- Number `n` of an Issue has started: no Task up to it waits, and new Tasks come after it. -/
structure Passed (issueId n : Nat) (s : State) : Prop where
  mark : ∃ r ∈ s.tasks, r.issueId = issueId ∧ r.issueSequence = some n
  done : ∀ r ∈ s.tasks, r.issueId = issueId → ∀ m, r.issueSequence = some m → m ≤ n →
    ¬isWaiting r.status

theorem passed_step {issueId n : Nat} (hinv : TurnInv s) (hturn : TurnSteps env s l)
    (h : step env s l = some s') (hpassed : Passed issueId n s) : Passed issueId n s' := by
  have hframe := step_frame hinv.ids h
  obtain ⟨r, hr, hissue, hseq⟩ := hpassed.mark
  constructor
  · obtain ⟨r', hr', hrow⟩ := hframe.table.forth hr
    exact ⟨r', hr', hrow.issueId.trans hissue, (hrow.sequence hinv.sequenced).trans hseq⟩
  · intro q' hq' hissue' m hm hle
    rcases hframe.table.back hq' with ⟨q, hq, hrow⟩ | ⟨fresh, hfresh, hmem⟩
    · refine (hrow.status.turnMove hinv hturn).not_waiting ?_
      exact hpassed.done q hq (hrow.issueId ▸ hissue') m ((hrow.sequence hinv.sequenced) ▸ hm) hle
    · cases hfresh with
      | none => cases hmem
      | tail t k hid hnew hissue₀ _ hkseq hmax =>
        obtain rfl : q' = t := by simpa using hmem
        have hbound := hmax r hr (hissue.trans (hissue'.symm.trans hissue₀)) n hseq
        rw [hkseq] at hm
        have := some.inj hm
        omega

theorem Starts.passed (hinv : TurnInv s) (hturn : TurnSteps env s l)
    (h : step env s l = some s') (hstart : Starts s s' r) {n : Nat}
    (hn : r.issueSequence = some n) : Passed r.issueId n s' := by
  have hframe := step_frame hinv.ids h
  obtain ⟨-, hpred⟩ := hstart.claimed hinv hturn h
  obtain ⟨hr, -, r', hr', hid, hrunning⟩ := hstart
  obtain ⟨r'', hr'', hrow⟩ := hframe.table.forth hr
  have hids := hframe.table.keyUnique hinv.ids
  obtain rfl : r'' = r' := hids.eq_of_key_eq hr'' hr' (hrow.id.trans hid.symm)
  have hrseq : r''.issueSequence = some n := (hrow.sequence hinv.sequenced).trans hn
  refine ⟨⟨r'', hr'', hrow.issueId, hrseq⟩, ?_⟩
  intro q' hq' hissue m hm hle
  rcases Nat.lt_or_eq_of_le hle with hlt | rfl
  · rcases hframe.table.back hq' with ⟨q, hq, hqrow⟩ | ⟨fresh, hfresh, hmem⟩
    · -- a Task with a smaller number has ended before
      have hqseq : q.issueSequence = some m := (hqrow.sequence hinv.sequenced) ▸ hm
      have hended := terminal_of_precedes hpred hq (hqrow.issueId ▸ hissue)
        (by simp [precedes, hqseq, hn, hlt])
      have hended' := (hqrow.status.turnMove hinv hturn).ended hended
      intro hw
      rcases hw with hw | hw <;> simp [hw, TaskStatus.active] at hended'
    · cases hfresh with
      | none => cases hmem
      | tail t k _ _ hissue₀ _ hkseq hmax =>
        obtain rfl : q' = t := by simpa using hmem
        have hbound := hmax r hr (hissue.symm.trans hissue₀) n hn
        rw [hkseq] at hm
        have := some.inj hm
        omega
  · have hsame := distinct_step hinv hturn h q' hq' r'' hr'' (hissue.trans hrow.issueId.symm)
      (hm.trans hrseq.symm)
    obtain rfl := hids.eq_of_key_eq hq' hr'' hsame
    rw [hrunning]
    intro hw
    rcases hw with hw | hw <;> cases hw

/-! ### Mutual Exclusion and Turn Order -/

/-- Over every run of turn steps: at most one Task of an Issue is RUNNING; every RUNNING Task
    owns the lock of its Issue; at the commit that makes a Task RUNNING every Task of the Issue
    with a smaller number is terminal; and a Task that starts later has a larger number. -/
theorem issue_turn_order (env : Env) {s₀ s : State} (h₀ : OrderedAtRest s₀)
    (hrun : (taskLifecycle env).Run (TurnSteps env) s₀ s) :
    (∀ a ∈ s.tasks, ∀ b ∈ s.tasks, a.status = .running → b.status = .running →
      a.issueId = b.issueId → a = b) ∧
    (∀ r ∈ s.tasks, r.status = .running →
      { issueId := r.issueId, taskId := r.id } ∈ s.locks) ∧
    (∀ l s', TurnSteps env s l → (taskLifecycle env).next s l = some s' →
      ∀ r, Starts s s' r →
      (∀ q ∈ s'.tasks, q.issueId = r.issueId → precedes q r = true → q.status.active = false) ∧
      ∀ t l' t', (taskLifecycle env).Run (TurnSteps env) s' t → TurnSteps env t l' →
        (taskLifecycle env).next t l' = some t' → ∀ q, Starts t t' q →
        q.issueId = r.issueId → precedes r q = true) := by
  have hinv := turnInv_run h₀ hrun
  refine ⟨?_, hinv.owners, ?_⟩
  · intro a ha b hb harun hbrun hissue
    have hlocks : (⟨a.issueId, a.id⟩ : IssueExecutionLock) = ⟨b.issueId, b.id⟩ :=
      hinv.locks.eq_of_key_eq (hinv.owners a ha harun) (hinv.owners b hb hbrun) hissue
    exact hinv.ids.eq_of_key_eq ha hb (IssueExecutionLock.mk.inj hlocks).2
  · intro l s' hturn hstep r hstart
    have hinv' := turnInv_step hinv hturn hstep
    obtain ⟨n, hn⟩ := ne_none_iff_exists'.mp (hinv.sequenced.rows r hstart.1)
    have hpassed := hstart.passed hinv hturn hstep hn
    refine ⟨?_, ?_⟩
    · intro q' hq' hissue hlt
      obtain ⟨hqueued, hpred⟩ := hstart.claimed hinv hturn hstep
      rcases (step_frame hinv.ids hstep).table.back hq' with ⟨q, hq, hrow⟩ | ⟨fresh, hfresh, hmem⟩
      · have hqlt : precedes q r = true := by
          simpa [precedes, hrow.sequence hinv.sequenced] using hlt
        have hended := terminal_of_precedes hpred hq (hrow.issueId ▸ hissue) hqlt
        exact (hrow.status.turnMove hinv hturn).ended hended
      · cases hfresh with
        | none => cases hmem
        | tail t k _ _ hissue₀ _ hkseq hmax =>
          obtain rfl : q' = t := by simpa using hmem
          have hbound := hmax r hstart.1 (hissue.symm.trans hissue₀) n hn
          simp only [precedes, hkseq, hn, decide_eq_true_eq] at hlt
          omega
    · intro t l' t' hrun' hturn' hstep' q hq hissue
      have hlater : TurnInv t ∧ Passed r.issueId n t :=
        hrun'.preserves (P := fun s => TurnInv s ∧ Passed r.issueId n s) (fun _ _ _ h hturn hstep =>
            ⟨turnInv_step h.1 hturn hstep, passed_step h.1 hturn hstep h.2⟩)
          ⟨hinv', hpassed⟩
      obtain ⟨hinvt, hpassedt⟩ := hlater
      obtain ⟨hqueued, -⟩ := hq.claimed hinvt hturn' hstep'
      obtain ⟨m, hm⟩ := ne_none_iff_exists'.mp (hinvt.sequenced.rows q hq.1)
      have hlt : n < m := by
        by_contra hle
        exact hpassedt.done q hq.1 hissue m hm (not_lt.mp hle) (.inr hqueued)
      simp [precedes, hn, hm, hlt]

theorem orderedAtRest_empty : OrderedAtRest ({} : State) := by
  refine ⟨atRest_empty, ?_, ?_, ?_, ?_⟩ <;> intro x hx <;> cases hx

/-- The first Task of the Issue runs and completes, its finalizer releases the lock, and the
    second Task starts. -/
theorem issue_turn_order_run :
    ∃ s, (taskLifecycle plainEnv).Run (TurnSteps plainEnv) {} s ∧
      s.tasks.map (fun r => (r.id, r.status)) = [(1, .completed), (2, .running)] ∧
      ∀ r ∈ s.tasks, r.status = .running →
        { issueId := r.issueId, taskId := r.id } ∈ s.locks := by
  have hrun := System.run_of_execWhile
    (show (taskLifecycle plainEnv).execWhile (TurnSteps plainEnv) {}
      (queuedTask ++ [.append 7 2 1 { harnessKey := "claude" }] ++ claimNext 2 ++
        [.publishContainer 1 "c1", .finishWorker 1 .completed, .clearContainer 1,
         .detachWorker 1, .observeStale, .releaseOwner 0, .openCycle, .promote 3 [1, 2],
         .closeCycle] ++ claimNext 4 ++ [.deleteStale]) = some _ from rfl)
  exact ⟨_, hrun, rfl, (issue_turn_order plainEnv orderedAtRest_empty hrun).2.1⟩

end Codify.TaskLifecycle
