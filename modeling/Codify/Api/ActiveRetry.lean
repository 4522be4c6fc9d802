import Codify.Api.SlotCapacity

/-! # One Active Retry

    `retry_task_record` refuses a source that has an active retry. It looks for
    one before it takes the Issue row lock and does not look again, so two calls
    that both pass the check insert one retry each, one after the other.

    `SettledSince` is the condition under which the check still stands at the
    commit: each retry of the source that was committed since the check has
    ended. Nothing else in a calm run adds a retry or revives one.
-/

namespace Codify.Api.SlotWriters

open Codify Codify.Framework Codify.IssueTaskOrder Codify.Api Codify.TaskLifecycle List Session
open Codify.IssueSchedule (AppendRequest)
open Codify.IssueTaskLineage (RetryRequest)

variable {env : Env} {s s' : State} {l : Label}

/-! ### The System -/

def Session.transaction? : Session → Option Transaction
  | .ordered tx => some tx
  | .slotLocked tx => some tx
  | .admitted tx => some tx
  | _ => none

/-- The source that a retry has checked, and the Tasks that existed then. -/
def Session.checked? : Session → Option (Nat × List Nat)
  | .retry _ _ request checkedIds => some (request.sourceId, checkedIds)
  | .ordered tx => tx.retrySourceTaskId.map (·, tx.checkedIds)
  | .slotLocked tx => tx.retrySourceTaskId.map (·, tx.checkedIds)
  | .admitted tx => tx.retrySourceTaskId.map (·, tx.checkedIds)
  | _ => none

/-- A database at rest, in which no source has two active retries. -/
structure RetryAtRest (s : State) : Prop where
  ids : Table.KeyUnique Task.id s.tasks
  sessions : s.sessions = fun _ => none
  issueLocks : s.issueLocks = fun _ => none
  slotLocks : s.slotLocks = fun _ => none
  one : ∀ sourceId, (s.activeRetries sourceId).length ≤ 1

/-- The writers of the Task table, from any database at rest. -/
def taskRetry (env : Env) : System State Label where
  init := RetryAtRest
  next := step env

/-- At the commit of a retry, each retry of its source that was committed since its check has
    ended. -/
def SettledSince (s : State) : Label → Prop
  | .commit k => ∀ tx ∈ (s.sessions k).bind transaction?,
      ∀ sourceId ∈ tx.retrySourceTaskId, ∀ t ∈ s.activeRetries sourceId, t.id ∈ tx.checkedIds
  | _ => True

/-- A calm step in which the check of a retry still stands. -/
def SettledStep (s : State) (l : Label) : Prop := Calm s l ∧ SettledSince s l

variable {sourceId k : Nat} {t : Task} {tx : Transaction}

theorem mem_activeRetries :
    t ∈ s.activeRetries sourceId ↔
      t ∈ s.tasks ∧ s.retrySources t.id = some sourceId ∧ t.status.active = true := by
  simp [State.activeRetries]

/-! ### Where Retries Come From -/

/-- Every step but a commit keeps the sources and the ids of the rows. -/
structure SameIds (s s' : State) : Prop where
  sources : s'.retrySources = s.retrySources
  ids : s'.tasks.map Task.id = s.tasks.map Task.id

theorem sameIds_lockIssue (h : s.lockIssue k tx = some s') :
    SameIds s s' := by
  obtain ⟨htasks, -, hsources, -⟩ := lockIssue_eq_some h
  exact ⟨hsources, by rw [htasks]⟩

theorem sameIds_setStatus {taskId : Nat} {enabled : TaskStatus → Bool} {status : TaskStatus}
    (h : s.setStatus taskId enabled status = some s') : SameIds s s' := by
  obtain ⟨-, rfl⟩ := setStatus_eq_some h
  refine ⟨rfl, ?_⟩
  show ((s.tasks.map _).map Task.id) = _
  rw [map_map]
  refine map_congr_left fun r _ => ?_
  simp only [Function.comp_apply]
  split <;> rfl

/-- Only a commit adds Tasks. -/
theorem sameIds_step (hl : ∀ k, l ≠ .commit k) (h : step env s l = some s') : SameIds s s' := by
  have hopen : ∀ {k taskId : Nat} {validate : Task → Except HttpError Session},
      s.openSession k taskId validate = some s' → SameIds s s' := by
    intro k taskId validate hsome
    obtain ⟨-, task, session, -, -, rfl⟩ := openSession_eq_some hsome
    exact ⟨rfl, rfl⟩
  cases l with
  | openRetry k now request output => exact hopen h
  | openExecute k taskId => exact hopen h
  | openReschedule k taskId now scheduledAt => exact hopen h
  | orderCreate k issueId newId now request =>
    obtain ⟨tx, hlocked, -⟩ := orderCreate_eq_some h
    exact sameIds_lockIssue hlocked
  | orderRetry k newId now =>
    obtain ⟨-, -, -, tx, -, hlocked, -⟩ := orderRetry_eq_some h
    exact sameIds_lockIssue hlocked
  | orderReschedule k =>
    obtain ⟨tx, hlocked, -⟩ := orderReschedule_eq_some h
    exact sameIds_lockIssue hlocked
  | lockSlot k =>
    obtain ⟨-, -, -, -, -, rfl, -⟩ := lockSlot_eq_some h
    exact ⟨rfl, rfl⟩
  | countSlot k => obtain ⟨-, -, -, -, rfl | ⟨-, rfl⟩⟩ := countSlot_eq_some h <;> exact ⟨rfl, rfl⟩
  | commit k => exact absurd rfl (hl k)
  | abort k =>
    simp only [step] at h
    split at h
    · cases h
      exact ⟨rfl, rfl⟩
    · cases h
  | terminate taskId status =>
    simp only [step] at h
    split at h
    · exact sameIds_setStatus h
    · cases h
  | promote taskId =>
    change s.setStatus taskId (· = .pending) .queued = some s' at h
    exact sameIds_setStatus h
  | start taskId =>
    change s.setStatus taskId (· = .queued) .running = some s' at h
    exact sameIds_setStatus h

/-- The row that a commit adds, with its source. -/
def Adds (s s' : State) (tx : Transaction) (task : Task) : Prop :=
  tx.inserted = some task ∧ (∀ r ∈ s.tasks, r.id ≠ task.id) ∧
    s'.tasks = flushObjects tx.loaded tx.current s.tasks ++ [task] ∧
    s'.retrySources =
      fun id => if id = task.id then tx.retrySourceTaskId else s.retrySources id

theorem commitTransaction_cases
    (h : s.commitTransaction k tx = some s') : SameIds s s' ∨ ∃ task, Adds s s' tx task := by
  obtain ⟨htasks, hfree, -, -, hsources⟩ := commitTransaction_eq_some h
  cases hinserted : tx.inserted with
  | none =>
    left
    rw [hinserted] at htasks hsources
    refine ⟨by simpa using hsources, ?_⟩
    rw [htasks, Option.toList_none, append_nil]
    show (s.tasks.map _).map Task.id = _
    rw [map_map]
    exact map_congr_left fun r _ => flushRow_id _ _ r
  | some task =>
    right
    rw [hinserted] at htasks hsources
    refine ⟨task, hinserted, hfree task hinserted, htasks, ?_⟩
    rw [hsources]
    funext id
    simp [eq_comm]

/-- A commit keeps the sources and the ids of the rows, or adds the row of its write. -/
theorem commit_cases (h : s.commit k = some s') :
    SameIds s s' ∨
    ∃ tx task, (s.sessions k).bind transaction? = some tx ∧ Adds s s' tx task := by
  have htransaction : ∀ tx, (s.sessions k).bind transaction? = some tx →
      s.commitTransaction k tx = some s' → SameIds s s' ∨
      ∃ tx task, (s.sessions k).bind transaction? = some tx ∧ Adds s s' tx task := by
    intro tx htx hcommit
    rcases commitTransaction_cases hcommit with hsame | ⟨task, hadds⟩
    · exact .inl hsame
    · exact .inr ⟨tx, task, htx, hadds⟩
  unfold State.commit at h
  split at h
  · next object hk =>
    cases h
    refine .inl ⟨rfl, ?_⟩
    show ((s.tasks.map _).map Task.id) = _
    rw [map_map]
    refine map_congr_left fun r _ => ?_
    simp only [Function.comp_apply]
    split <;> rfl
  · next tx hk =>
    split at h
    · exact htransaction tx (by rw [hk]; rfl) h
    · cases h
  · next tx hk => exact htransaction tx (by rw [hk]; rfl) h
  · cases h

theorem activeRetry_of_old (hunique : Table.KeyUnique Task.id s.tasks)
    (hev : Evolves s.tasks s'.tasks)
    (hsources : ∀ r ∈ s.tasks, s'.retrySources r.id = s.retrySources r.id)
    (ht : t ∈ s'.activeRetries sourceId) {r : Task} (hr : r ∈ s.tasks) (hid : r.id = t.id) :
    r ∈ s.activeRetries sourceId := by
  obtain ⟨hmem, hsource, hactive⟩ := mem_activeRetries.mp ht
  rw [← hid, hsources r hr] at hsource
  refine mem_activeRetries.mpr ⟨hr, hsource, ?_⟩
  by_contra hended
  have hend : Ended s.tasks t.id := by
    refine ⟨⟨r, hr, hid⟩, ?_⟩
    intro r' hr' hid'
    obtain rfl := hunique.eq_of_key_eq hr' hr (hid'.trans hid.symm)
    simpa using hended
  rw [(hev.ended hend).2 t hmem rfl] at hactive
  cases hactive

/-! ### The Invariant -/

/-- What settled steps maintain: no source has two active retries, and none of the Tasks that a
    retry saw at its check is an active retry of its source. -/
structure RetryInv (s : State) : Prop where
  calm : CalmInv s
  checked : ∀ k session sourceId ids, s.sessions k = some session →
    session.checked? = some (sourceId, ids) →
    (∀ i ∈ ids, ∃ r ∈ s.tasks, r.id = i) ∧ ∀ t ∈ s.activeRetries sourceId, t.id ∉ ids
  one : ∀ sourceId, ∀ a ∈ s.activeRetries sourceId, ∀ b ∈ s.activeRetries sourceId, a.id = b.id

/-- The checks under way after a step were under way before, or are made by it. -/
theorem checked_step {session : Session} {ids : List Nat} (hinv : CalmInv s)
    (h : step env s l = some s') (hk : s'.sessions k = some session)
    (hchecked : session.checked? = some (sourceId, ids)) :
    (∃ old, s.sessions k = some old ∧ old.checked? = some (sourceId, ids)) ∨
      ids = s.tasks.map Task.id ∧ s.activeRetries sourceId = [] ∧ s'.tasks = s.tasks ∧
        s'.retrySources = s.retrySources := by
  -- a session that moves on keeps what it has checked
  have hmoved : ∀ {j : Nat} {x : Session}, s'.sessions = (s.setSession j x).sessions →
      (x.checked? = none ∨ ∃ old, s.sessions j = some old ∧ old.checked? = x.checked?) →
      ∃ old, s.sessions k = some old ∧ old.checked? = some (sourceId, ids) := by
    intro j x hsessions hx
    rw [hsessions] at hk
    by_cases hjk : k = j
    · simp only [State.setSession, hjk, if_true, Option.some.injEq] at hk
      rcases hx with hnone | ⟨old, hold, hsame⟩
      · rw [hk, hchecked] at hnone
        cases hnone
      · rw [hjk]
        exact ⟨old, hold, by rw [hsame, hk, hchecked]⟩
    · exact ⟨session, by simpa [State.setSession, hjk] using hk, hchecked⟩
  have hclosed : ∀ {j : Nat}, s'.sessions = (s.close j).sessions →
      ∃ old, s.sessions k = some old ∧ old.checked? = some (sourceId, ids) := by
    intro j hsessions
    rw [hsessions] at hk
    exact ⟨session, (mem_close_sessions hk).2, hchecked⟩
  cases l with
  | openRetry j now request output =>
    obtain ⟨-, task, x, hrow, hvalid, rfl⟩ := openSession_eq_some h
    obtain ⟨rfl, -, hnone⟩ := validateRetry_eq_ok hvalid
    by_cases hjk : k = j
    · right
      simp only [State.setSession, hjk, if_true, Option.some.injEq] at hk
      rw [← hk] at hchecked
      cases hchecked
      exact ⟨rfl, hnone, rfl, rfl⟩
    · exact .inl ⟨session, by simpa [State.setSession, hjk] using hk, hchecked⟩
  | openExecute j taskId =>
    obtain ⟨-, task, x, -, hvalid, rfl⟩ := openSession_eq_some h
    obtain ⟨-, -, hvalid⟩ := bind_eq_ok_iff.mp hvalid
    cases hvalid
    exact .inl (hmoved rfl (.inl rfl))
  | openReschedule j taskId now scheduledAt =>
    obtain ⟨-, task, x, -, hvalid, rfl⟩ := openSession_eq_some h
    obtain ⟨-, -, hvalid⟩ := bind_eq_ok_iff.mp hvalid
    obtain ⟨t, -, hvalid⟩ := bind_eq_ok_iff.mp hvalid
    cases hvalid
    exact .inl (hmoved rfl (.inl rfl))
  | orderCreate j issueId newId now request =>
    obtain ⟨tx, hlocked, hnone⟩ := orderCreate_eq_some h
    exact .inl (hmoved (lockIssue_eq_some hlocked).2.2.2 (.inl (by simp [Session.checked?, hnone])))
  | orderRetry j newId now =>
    obtain ⟨source, _, request, tx, hj, hlocked, hretried⟩ := orderRetry_eq_some h
    have hsource : source.id = request.sourceId := (hinv.sessions j _ hj).1
    refine .inl (hmoved (lockIssue_eq_some hlocked).2.2.2 (.inr ⟨_, hj, ?_⟩))
    simp [Session.checked?, hretried, hsource]
  | orderReschedule j =>
    obtain ⟨tx, hlocked, hnone⟩ := orderReschedule_eq_some h
    exact .inl (hmoved (lockIssue_eq_some hlocked).2.2.2 (.inl (by simp [Session.checked?, hnone])))
  | lockSlot j =>
    obtain ⟨tx, _, _, hj, -, rfl, -⟩ := lockSlot_eq_some h
    exact .inl (hmoved (j := j) (x := .slotLocked tx) rfl (.inr ⟨_, hj, rfl⟩))
  | countSlot j =>
    obtain ⟨tx, _, hj, -, rfl | ⟨-, rfl⟩⟩ := countSlot_eq_some h
    · exact .inl (hclosed (j := j) rfl)
    · exact .inl (hmoved (j := j) (x := .admitted tx) rfl (.inr ⟨_, hj, rfl⟩))
  | commit j =>
    simp only [step, State.commit] at h
    split at h
    · cases h
      exact .inl (hclosed (j := j) rfl)
    · split at h
      · exact .inl (hclosed (commitTransaction_eq_some h).2.2.1)
      · cases h
    · exact .inl (hclosed (commitTransaction_eq_some h).2.2.1)
    · cases h
  | abort j =>
    simp only [step] at h
    split at h
    · cases h
      exact .inl (hclosed (j := j) rfl)
    · cases h
  | terminate taskId status =>
    simp only [step] at h
    split at h
    · obtain ⟨-, rfl⟩ := setStatus_eq_some h
      exact .inl ⟨session, hk, hchecked⟩
    · cases h
  | promote taskId =>
    change s.setStatus taskId (· = .pending) .queued = some s' at h
    obtain ⟨-, rfl⟩ := setStatus_eq_some h
    exact .inl ⟨session, hk, hchecked⟩
  | start taskId =>
    change s.setStatus taskId (· = .queued) .running = some s' at h
    obtain ⟨-, rfl⟩ := setStatus_eq_some h
    exact .inl ⟨session, hk, hchecked⟩

/-- An active retry after a step was one before, or is the row that its commit adds. -/
theorem activeRetry_step (hinv : CalmInv s) (hcalm : Calm s l)
    (h : step env s l = some s') (ht : t ∈ s'.activeRetries sourceId) :
    (∃ r ∈ s.activeRetries sourceId, r.id = t.id) ∨
    ∃ k tx, l = .commit k ∧ (s.sessions k).bind transaction? = some tx ∧
      tx.inserted = some t ∧ tx.retrySourceTaskId = some sourceId ∧ ∀ r ∈ s.tasks, r.id ≠ t.id := by
  have hev := (calmStep hinv hcalm h).evolves
  have hsame : SameIds s s' → ∃ r ∈ s.activeRetries sourceId, r.id = t.id := by
    intro hsame
    have hid : t.id ∈ s'.tasks.map Task.id := mem_map_of_mem (mem_activeRetries.mp ht).1
    rw [hsame.ids] at hid
    obtain ⟨r, hr, hrid⟩ := mem_map.mp hid
    exact ⟨r, activeRetry_of_old hinv.ids hev (fun _ _ => by rw [hsame.sources]) ht hr hrid, hrid⟩
  by_cases hl : ∃ k, l = .commit k
  · obtain ⟨k, rfl⟩ := hl
    rcases commit_cases h with hsameIds | ⟨tx, task, htx, hinserted, hfree, htasks, hsources⟩
    · exact .inl (hsame hsameIds)
    · obtain ⟨hmem, hsource, -⟩ := mem_activeRetries.mp ht
      rw [htasks] at hmem
      rcases mem_append.mp hmem with hmem | hmem
      · left
        obtain ⟨r, hr, rfl⟩ := mem_map.mp hmem
        have hrid : r.id = (flushRow tx.loaded tx.current r).id := (flushRow_id _ _ r).symm
        refine ⟨r, activeRetry_of_old hinv.ids hev ?_ ht hr hrid, hrid⟩
        intro r' hr'
        rw [hsources]
        simp [hfree r' hr']
      · right
        obtain rfl := mem_singleton.mp hmem
        rw [hsources] at hsource
        exact ⟨k, tx, rfl, htx, hinserted, by simpa using hsource, hfree⟩
  · exact .inl (hsame (sameIds_step (fun k hk => hl ⟨k, hk⟩) h))

/-- A settled step gives no source a second active retry. -/
theorem retryInv_step (hinv : RetryInv s) (hguard : SettledStep s l)
    (h : step env s l = some s') : RetryInv s' := by
  obtain ⟨hcalm, hsettled⟩ := hguard
  have hstep := calmStep hinv.calm hcalm h
  -- at the commit of a retry no retry of its source is active
  have hnone : ∀ k tx sourceId, l = .commit k →
      (s.sessions k).bind transaction? = some tx →
      tx.retrySourceTaskId = some sourceId → s.activeRetries sourceId = [] := by
    rintro k tx sourceId rfl htx hsource
    rw [eq_nil_iff_forall_not_mem]
    intro t ht
    obtain ⟨session, hk, hsession⟩ := Option.bind_eq_some_iff.mp htx
    have hchecked : session.checked? = some (sourceId, tx.checkedIds) := by
      cases session <;> simp_all [transaction?, checked?]
    exact (hinv.checked k session sourceId _ hk hchecked).2 t ht
      (hsettled tx htx sourceId hsource t ht)
  refine ⟨hstep.inv hinv.calm, ?_, ?_⟩
  · intro k session sourceId ids hk hchecked
    rcases checked_step hinv.calm h hk hchecked with ⟨old, hold, holdChecked⟩ | hnew
    · obtain ⟨hexist, hnot⟩ := hinv.checked k old sourceId ids hold holdChecked
      constructor
      · intro i hi
        obtain ⟨r, hr, rfl⟩ := hexist i hi
        obtain ⟨f, new, htasks, hid, -, -⟩ := hstep.evolves
        refine ⟨f r, ?_, hid r⟩
        rw [htasks]
        exact mem_append_left _ (mem_map_of_mem hr)
      · intro t ht hmem
        rcases activeRetry_step hinv.calm hcalm h ht with ⟨r, hr, hid⟩ | ⟨_, _, _, _, _, _, hfree⟩
        · exact hnot r hr (hid ▸ hmem)
        · obtain ⟨r, hr, hid⟩ := hexist _ hmem
          exact hfree r hr hid
    · obtain ⟨rfl, hempty, htasks, hsources⟩ := hnew
      constructor
      · intro i hi
        obtain ⟨r, hr, rfl⟩ := mem_map.mp hi
        exact ⟨r, htasks ▸ hr, rfl⟩
      · intro t ht
        have hsame : s'.activeRetries sourceId = s.activeRetries sourceId := by
          unfold State.activeRetries
          rw [htasks, hsources]
        rw [hsame, hempty] at ht
        cases ht
  · intro sourceId a ha b hb
    rcases activeRetry_step hinv.calm hcalm h ha with ⟨ra, hra, hida⟩ | ⟨k, tx, hl, htx, hia, hsa, -⟩
    · rcases activeRetry_step hinv.calm hcalm h hb with ⟨rb, hrb, hidb⟩ | ⟨k, tx, hl, htx, -, hsb, -⟩
      · rw [← hida, ← hidb]
        exact hinv.one sourceId ra hra rb hrb
      · rw [hnone k tx sourceId hl htx hsb] at hra
        cases hra
    · rcases activeRetry_step hinv.calm hcalm h hb with ⟨rb, hrb, -⟩ | ⟨k', tx', hl', htx', hib, -, -⟩
      · rw [hnone k tx sourceId hl htx hsa] at hrb
        cases hrb
      · obtain rfl := Label.commit.inj (hl.symm.trans hl')
        cases htx.symm.trans htx'
        rw [Option.some.inj (hia.symm.trans hib)]

theorem activeRetries_length_le_one (hunique : Table.KeyUnique Task.id s.tasks)
    (hone : ∀ a ∈ s.activeRetries sourceId, ∀ b ∈ s.activeRetries sourceId, a.id = b.id) :
    (s.activeRetries sourceId).length ≤ 1 := by
  have hnodup : ((s.activeRetries sourceId).map Task.id).Nodup := hunique.filter _
  cases hlist : s.activeRetries sourceId with
  | nil => simp
  | cons a rest =>
    rw [hlist] at hnodup hone
    cases rest with
    | nil => simp
    | cons b rest =>
      have hid := hone a mem_cons_self b (mem_cons_of_mem _ mem_cons_self)
      simp [hid] at hnodup

theorem retryInv_atRest (h : RetryAtRest s) : RetryInv s where
  calm :=
    { ids := h.ids
      sessions := by
        intro k session hk
        rw [h.sessions] at hk
        cases hk }
  checked := by
    intro k session sourceId ids hk
    rw [h.sessions] at hk
    cases hk
  one := by
    intro sourceId a ha b hb
    have hle := h.one sourceId
    match hlist : s.activeRetries sourceId with
    | [] =>
      rw [hlist] at ha
      cases ha
    | [c] =>
      rw [hlist] at ha hb
      rw [mem_singleton.mp ha, mem_singleton.mp hb]
    | _ :: _ :: _ =>
      rw [hlist] at hle
      simp at hle

/-- In every run of settled steps, a source has at most one retry that is PENDING, QUEUED or
    RUNNING. -/
theorem at_most_one_active_retry (env : Env) {s : State}
    (h : (taskRetry env).Reachable SettledStep s) (sourceId : Nat) :
    (s.activeRetries sourceId).length ≤ 1 := by
  have hinv := h.invariant (P := RetryInv) (fun _ h => retryInv_atRest h)
    (fun _ _ _ hinv hguard hstep => retryInv_step hinv hguard hstep)
  exact activeRetries_length_le_one hinv.calm.ids (hinv.one sourceId)

instance (s : State) (l : Label) : Decidable (SettledSince s l) :=
  match l with
  | .commit k => inferInstanceAs (Decidable (∀ tx ∈ (s.sessions k).bind transaction?,
      ∀ sourceId ∈ tx.retrySourceTaskId, ∀ t ∈ s.activeRetries sourceId, t.id ∈ tx.checkedIds))
  | .openRetry .. | .openExecute .. | .openReschedule .. | .orderCreate .. | .orderRetry ..
  | .orderReschedule _ | .lockSlot _ | .countSlot _ | .abort _ | .terminate .. | .promote _
  | .start _ => .isTrue trivial

instance (s : State) (l : Label) : Decidable (SettledStep s l) :=
  inferInstanceAs (Decidable (_ ∧ _))

/-- A database with one Task that has failed. -/
def failedSource : State where
  tasks := [{ id := 1, issueId := 7, status := .failed, issueSequence := some 1,
              projectedHarnessKey := some "claude", projectedSessionNamespace := some "claude",
              projectedLineageGeneration := some 0, lineageProjectionReason := some .initial }]
  snapshots := fun id =>
    if id = 1 then some { harnessKey := some "claude", endpointFingerprint := none } else none

theorem retryAtRest_failedSource : RetryAtRest failedSource where
  ids := nodup_singleton 1
  sessions := rfl
  issueLocks := rfl
  slotLocks := rfl
  one := fun sourceId => by
    have hnone : failedSource.activeRetries sourceId = [] := rfl
    rw [hnone]
    exact Nat.zero_le 1

/-- The first retry fails before the second call checks. -/
theorem at_most_one_active_retry_in_turn :
    ∃ s, (taskRetry oneTaskEnv).Reachable SettledStep s ∧
      s.tasks.map (fun t => (t.id, t.status)) = [(1, .failed), (2, .failed), (3, .pending)] ∧
      (s.activeRetries 1).length ≤ 1 := by
  have hexec : ((taskRetry oneTaskEnv).execWhile SettledStep failedSource
      [.openRetry 1 5 { sourceId := 1 } none, .orderRetry 1 2 5, .commit 1,
        .terminate 2 .failed, .openRetry 2 6 { sourceId := 1 } none, .orderRetry 2 3 6,
        .commit 2]).map (fun s => s.tasks.map fun t => (t.id, t.status)) =
      some [(1, .failed), (2, .failed), (3, .pending)] := by
    decide +kernel
  obtain ⟨s, hreach, htasks⟩ := System.exists_reachable_of_execWhile hexec retryAtRest_failedSource
  exact ⟨s, hreach, htasks, at_most_one_active_retry oneTaskEnv hreach 1⟩

/-- Two calls check before either commits, and both commit a retry of Task 1. -/
theorem two_active_retries :
    ¬ ∀ s, (taskRetry oneTaskEnv).Reachable System.anyStep s →
      ∀ sourceId, (s.activeRetries sourceId).length ≤ 1 := by
  intro hclaim
  have hs := System.reachable_of_exec retryAtRest_failedSource
    (show (taskRetry oneTaskEnv).exec failedSource
      [.openRetry 1 5 { sourceId := 1 } none, .openRetry 2 5 { sourceId := 1 } none,
        .orderRetry 1 2 6, .commit 1, .orderRetry 2 3 7, .commit 2] = some _ from rfl)
  exact absurd (hclaim _ hs 1) (by decide)

end Codify.Api.SlotWriters
