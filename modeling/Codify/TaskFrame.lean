import Codify.TaskTransitions

/-! # What One Step Does to the State

    `Frame` says once, for all steps, how the Task table, the requests, the
    objects of the Scheduler's session, the workers and the lock table change.
    Every invariant of the lifecycle is derived from it.
-/

namespace Codify.TaskLifecycle

open Codify Codify.Framework Codify.IssueTaskOrder Codify.Scheduler Codify.Api List Rewrites State
open Codify.IssueSchedule (AppendRequest newTask rescheduled)

variable {env : Env} {s s' : State} {l : Label}

/-! ### The Frame -/

/-- The rows that a step adds: a new PENDING Task at the tail of its Issue. -/
inductive FreshRows (s : State) : Label → List Task → Prop where
  | none {l : Label} : FreshRows s l []
  | tail {issueId newId : Nat} {now : DateTime} {request : AppendRequest} (t : Task) (m : Nat)
      (hid : t.id = newId) (hnew : ∀ r ∈ s.tasks, r.id ≠ newId) (hissue : t.issueId = issueId)
      (hst : t.status = .pending) (hseq : t.issueSequence = some (m + 1))
      (hmax : ∀ r ∈ s.tasks, r.issueId = issueId → ∀ n, r.issueSequence = some n → n ≤ m) :
      FreshRows s (.append issueId newId now request) [t]

def TableStep (env : Env) (s : State) (l : Label) (s' : State) : Prop :=
  ∃ tasks fresh, s'.tasks = tasks ++ fresh ∧ Rewrites env s l s'.locks tasks ∧ FreshRows s l fresh

/-- A request that holds an object holds a row as it was loaded and validated. -/
inductive NewRequest (s : State) : Request → Prop where
  | cancel (taskId issueId : Nat) : NewRequest s (.cancel taskId issueId)
  | cancelStop (taskId issueId : Nat) : NewRequest s (.cancelStop taskId issueId)
  | cancelFinish (taskId issueId : Nat) (containerAbsent logRead : Bool) :
      NewRequest s (.cancelFinish taskId issueId containerAbsent logRead)
  | override {task : Task} {requested : String} {st : TaskStatus} (h : task ∈ s.tasks)
      (hvalid : validateOverride requested task = .ok st) : NewRequest s (.override task st)
  | execute {task : Task} (h : task ∈ s.tasks) : NewRequest s (.execute task)
  | reschedule {task : Task} (h : task ∈ s.tasks)
      (hvalid : validateTaskStatusForReschedule task = .ok ()) (scheduledAt : DateTime) :
      NewRequest s (.reschedule task scheduledAt)

def isWaiting (st : TaskStatus) : Prop := st = .pending ∨ st = .queued

/-- An object of the session after a step: one it had, or a row it loaded. It waits only if it
    waited before or if its row did. -/
structure ObjectStep (s : State) (o : Task) : Prop where
  origin : ∃ o₀, (o₀ ∈ s.objects ∨ o₀ ∈ s.tasks) ∧ o.id = o₀.id ∧
    o.issueSequence = o₀.issueSequence
  waiting : isWaiting o.status →
    ∃ o₀, (o₀ ∈ s.objects ∨ o₀ ∈ s.tasks) ∧ o.id = o₀.id ∧ isWaiting o₀.status

/-- How the live workers change: they finish, or the claim adds one and closes its session. -/
inductive WorkerStep (s : State) (l : Label) (s' : State) : Prop where
  | fewer (h : ∀ k ∈ s'.workers, k ∈ s.workers)
  | claimed (ctx : ClaimContext) (hl : l = .claim ctx) {task task' : Task}
      (htask : task ∈ s.tasks) (hobjects : s'.objects = [])
      (hworkers : s'.workers = task.id :: s.workers) (htask' : task' ∈ s'.tasks)
      (hid : task'.id = task.id) (hrunning : task'.status = .running)

/-- A pair whose owner, if its row exists, is terminal. -/
def ownerEnded (s : State) (pair : IssueExecutionLock) : Prop :=
  ∀ r ∈ s.tasks, r.id = pair.taskId → r.status.active = false

/-- How the lock table changes. -/
inductive LockStep (s : State) (l : Label) (s' : State) : Prop where
  | same (h : s'.locks = s.locks)
  | acquired (ctx : ClaimContext) (hl : l = .claim ctx) {task : Task} (htask : task ∈ s.tasks)
      (h : acquireIssueExecutionLock task s.locks = some s'.locks)
  | deleted (pairs : List IssueExecutionLock) (h : s'.locks = deletePairs pairs s.locks)
      (hpairs : ∀ p ∈ pairs, p ∈ s.releasing ∨ p ∈ s.stale ∨ ownerEnded s p)

/-- What one step does to the state. -/
structure Frame (env : Env) (s : State) (l : Label) (s' : State) : Prop where
  table : TableStep env s l s'
  requests : ∀ q ∈ s'.requests, q ∈ s.requests ∨ NewRequest s q
  objects : ∀ o ∈ s'.objects, ObjectStep s o
  workers : WorkerStep s l s'
  locks : LockStep s l s'
  releasing : ∀ p ∈ s'.releasing, p ∈ s.releasing ∨ ownerEnded s p ∧ ∃ r ∈ s.tasks, r.id = p.taskId
  stale : ∀ p ∈ s'.stale, p ∈ s.stale ∨ ownerEnded s p ∧ p ∈ s.locks

variable {o task : Task} {i taskId : Nat} {now : DateTime} {status : TaskStatus}
  {enabled : Task → Bool} {f : Task → Task}

theorem ObjectStep.of_object (h : o ∈ s.objects) : ObjectStep s o :=
  ⟨⟨o, .inl h, rfl, rfl⟩, fun hw => ⟨o, .inl h, rfl, hw⟩⟩

theorem ObjectStep.of_row (h : o ∈ s.tasks) : ObjectStep s o :=
  ⟨⟨o, .inr h, rfl, rfl⟩, fun hw => ⟨o, .inr h, rfl, hw⟩⟩

theorem Rewrites.tableStep (h : Rewrites env s l s'.locks s'.tasks) : TableStep env s l s' :=
  ⟨s'.tasks, [], (append_nil _).symm, h, .none⟩

theorem tableStep_same (h : s'.tasks = s.tasks) : TableStep env s l s' :=
  tableStep (h ▸ .refl)

theorem Frame.of_session (htable : TableStep env s l s')
    (hrequests : ∀ q ∈ s'.requests, q ∈ s.requests ∨ NewRequest s q)
    (hobjects : ∀ o ∈ s'.objects, ObjectStep s o) (hworkers : s'.workers = s.workers)
    (hlocks : s'.locks = s.locks) (hreleasing : s'.releasing = s.releasing)
    (hstale : s'.stale = s.stale) : Frame env s l s' where
  table := htable
  requests := hrequests
  objects := hobjects
  workers := .fewer fun _ hk => hworkers ▸ hk
  locks := .same hlocks
  releasing := fun _ hp => .inl (hreleasing ▸ hp)
  stale := fun _ hp => .inl (hstale ▸ hp)

theorem Frame.of_request (htable : TableStep env s l s')
    (hrequests : ∀ q ∈ s'.requests, q ∈ s.requests ∨ NewRequest s q)
    (hobjects : s'.objects = s.objects) (hworkers : s'.workers = s.workers)
    (hlocks : s'.locks = s.locks) (hreleasing : s'.releasing = s.releasing)
    (hstale : s'.stale = s.stale) : Frame env s l s' :=
  .of_session htable hrequests (fun _ ho => .of_object (hobjects ▸ ho)) hworkers hlocks
    hreleasing hstale

theorem Frame.of_table (htable : TableStep env s l s') (hrequests : s'.requests = s.requests)
    (hobjects : s'.objects = s.objects) (hworkers : s'.workers = s.workers)
    (hlocks : s'.locks = s.locks) (hreleasing : s'.releasing = s.releasing)
    (hstale : s'.stale = s.stale) : Frame env s l s' :=
  .of_request htable (fun _ hq => .inl (hrequests ▸ hq)) hobjects hworkers hlocks hreleasing hstale

theorem Frame.refl : Frame env s l s :=
  .of_table (tableStep_same rfl) rfl rfl rfl rfl rfl rfl

theorem mem_requests_eraseIdx {q : Request} (h : q ∈ s.requests.eraseIdx i) :
    q ∈ s.requests ∨ NewRequest s q :=
  .inl (mem_of_mem_eraseIdx h)

theorem mem_requests_set {q new : Request} (hnew : NewRequest s new)
    (h : q ∈ s.requests.set i new) : q ∈ s.requests ∨ NewRequest s q := by
  rcases mem_or_eq_of_mem_set h with h | rfl
  · exact .inl h
  · exact .inr hnew

/-- The place in the cycle is not part of the frame, and objects may be dropped. -/
theorem Frame.moveTo (h : Frame env s l s') (stage : Stage) {objects : List Task}
    (hobjects : objects = s'.objects ∨ objects = []) :
    Frame env s l { s' with stage, objects } where
  table := h.table
  requests := h.requests
  objects := by
    intro o ho
    rcases hobjects with rfl | rfl
    · exact h.objects o ho
    · simp at ho
  workers := by
    rcases h.workers with hfewer | ⟨ctx, hl, htask, hempty, hworkers, htask', hid, hrunning⟩
    · exact .fewer hfewer
    · refine .claimed ctx hl htask ?_ hworkers htask' hid hrunning
      exact hobjects.elim (·.trans hempty) id
  locks := by
    rcases h.locks with hsame | ⟨ctx, hl, htask, hacq⟩ | ⟨pairs, hdel, hpairs⟩
    · exact .same hsame
    · exact .acquired ctx hl htask hacq
    · exact .deleted pairs hdel hpairs
  releasing := h.releasing
  stale := h.stale

theorem Frame.endCycle (h : Frame env s l s') : Frame env s l s'.endCycle :=
  h.moveTo .idle (.inr rfl)

theorem Frame.withStage (h : Frame env s l s') (stage : Stage) :
    Frame env s l { s' with stage } :=
  h.moveTo stage (.inl rfl)

/-! ### Requests -/

/-- An append adds its own row and repairs the others. -/
theorem frame_append {issueId newId : Nat} {request : AppendRequest}
    (hunique : Table.KeyUnique Task.id s.tasks)
    (h : s.append env issueId newId now request = some s') :
    Frame env s (.append issueId newId now request) s' := by
  simp only [State.append] at h
  split at h
  · cases h
  next hfree =>
  have hnewId : ∀ r ∈ s.tasks, r.id ≠ newId :=
    Table.row?_eq_none_iff.mp (Option.not_isSome_iff_eq_none.mp hfree)
  split at h
  · cases h
  next rows hrows =>
  cases h
  obtain ⟨repaired, m, p, hrepairs, hmax, rfl⟩ := createTaskRecord_rows hrows
  set new := newTask issueId newId now request m p with hnew
  have hrepairedId : ∀ o ∈ repaired, o.id ≠ newId := by
    intro o' ho'
    obtain ⟨o, ho, hrep⟩ := hrepairs.back o' ho'
    rw [hrep.id]
    exact hnewId o (mem_filter.mp ho).1
  have hfresh : (repaired ++ [new]).filter (fun t => decide (t.id = newId)) = [new] := by
    rw [filter_append, filter_eq_nil_iff.mpr]
    · simp [hnew, newTask, setProjection]
    · intro o ho
      simpa using hrepairedId o ho
  refine .of_table ⟨flushObjects _ _ s.tasks, [new], congrArg (_ ++ ·) hfresh,
    ⟨_, rfl, ?_⟩, ?_⟩ rfl rfl rfl rfl rfl rfl
  · intro r hr
    -- the new row has a new id, so it is not the row of any loaded object
    have hlookup : taskRow? r.id (repaired ++ [new]) = taskRow? r.id repaired := by
      have hne : new.id ≠ r.id := (hnewId r hr).symm
      simp [taskRow?, Table.row?, find?_append, hne]
    have hsame : flushRow (s.tasks.filter (·.issueId = issueId)) (repaired ++ [new]) r =
        flushRow (s.tasks.filter (·.issueId = issueId)) repaired r := by
      unfold flushRow
      rw [hlookup]
    rw [hsame]
    refine .of_repairs (hunique.filter _) hrepairs ?_
    intro hs o ho
    exact hs.rows o (mem_filter.mp ho).1
  · refine .tail new m rfl hnewId rfl rfl rfl ?_
    intro r hr hissue n hn
    exact hmax r (mem_filter.mpr ⟨hr, by simpa using hissue⟩) n hn

theorem frame_openRequest {validate : Task → Except HttpError Request}
    (hnew : ∀ task ∈ s.tasks, ∀ q, validate task = .ok q → NewRequest s q)
    (h : s.openRequest taskId validate = some s') : Frame env s l s' := by
  unfold openRequest at h
  split at h
  · cases h
  next task hrow =>
  split at h
  · cases h
  next request hvalid =>
  cases h
  refine .of_request (tableStep_same rfl) ?_ rfl rfl rfl rfl rfl
  intro q hq
  rcases mem_append.mp hq with hq | hq
  · exact .inl hq
  · obtain rfl : q = request := by simpa using hq
    exact .inr (hnew task (mem_of_taskRow? hrow).1 q hvalid)

theorem Rewrites.replaceRow {locks' : List IssueExecutionLock} {task task' : Task}
    (hunique : Table.KeyUnique Task.id s.tasks) (hrow : taskRow? taskId s.tasks = some task)
    (h : RowStep env s l locks' task task') :
    Rewrites env s l locks' (s.writeRow taskId fun _ => task') := by
  obtain ⟨hmem, htaskid⟩ := mem_of_taskRow? hrow
  refine .writeRow ?_
  intro r hr hid
  obtain rfl := hunique.eq_of_key_eq hr hmem (hid.trans htaskid.symm)
  exact h

theorem frame_dropRequest :
    Frame env s l { s with requests := s.requests.eraseIdx i } :=
  .of_request (tableStep_same rfl) (fun _ hq => mem_requests_eraseIdx hq) rfl rfl rfl rfl rfl

theorem frame_cancelPhaseA
    (hunique : Table.KeyUnique Task.id s.tasks) (h : s.runCancelPhaseA i now = some s') :
    Frame env s (.cancelPhaseA i now) s' := by
  unfold runCancelPhaseA at h
  split at h
  · next taskId issueId hreq =>
    split at h
    · cases h
      exact frame_dropRequest
    next task hrow =>
    split at h
    · cases h
      exact frame_dropRequest
    next task' stop hphase =>
    cases h
    obtain ⟨hid, hissue, hseq, hst⟩ := cancelPhaseA_eq_ok hphase
    refine .of_request (tableStep (.replaceRow hunique hrow
      ⟨hid, hissue, fun _ => hseq, ?_⟩)) ?_ rfl rfl rfl rfl rfl
    · rcases hst with ⟨-, hwaiting, hst⟩ | ⟨-, hrunning, hst⟩
      · rw [hst]
        exact .cancel i now rfl hwaiting
      · rw [hst, ← hrunning]
        exact .keep
    · intro q hq
      refine mem_requests_set ?_ hq
      split
      · exact .cancelStop taskId issueId
      · exact .cancelFinish taskId issueId true false
  · cases h

theorem frame_cancelContainer {reply : ContainerReply}
    (h : s.runCancelContainer i reply = some s') : Frame env s l s' := by
  unfold runCancelContainer at h
  split at h
  · next taskId issueId hreq =>
    split at h
    · cases h
      exact frame_dropRequest
    · split at h
      · cases h
        exact frame_dropRequest
      · next absent logRead _ =>
        cases h
        refine .of_request (tableStep_same rfl) ?_ rfl rfl rfl rfl rfl
        intro q hq
        exact mem_requests_set (.cancelFinish taskId issueId absent logRead) hq
  · cases h

theorem frame_cancelPhaseB
    (hunique : Table.KeyUnique Task.id s.tasks) (h : s.runCancelPhaseB i now = some s') :
    Frame env s l s' := by
  unfold runCancelPhaseB at h
  split at h
  · next taskId issueId absent logRead hreq =>
    split at h
    · cases h
      exact frame_dropRequest
    next task hrow =>
    cases h
    have hframe : Frame env s l { s with
        tasks := s.writeRow taskId fun _ => Api.cancelPhaseB now absent logRead task
        requests := s.requests.eraseIdx i } :=
      .of_request (tableStep (.replaceRow hunique hrow (.of_eq rfl rfl rfl rfl)))
        (fun _ hq => mem_requests_eraseIdx hq) rfl rfl rfl rfl rfl
    -- the owner lock goes only when the row that was read again is terminal
    by_cases hrelease : cancelReleases (Api.cancelPhaseB now absent logRead task) = true
    · simp only [hrelease, if_true]
      refine ⟨?_, hframe.requests, hframe.objects, .fewer fun _ hk => hk,
        .deleted [{ issueId, taskId }] rfl ?_, hframe.releasing, hframe.stale⟩
      · exact tableStep (.replaceRow hunique hrow (.of_eq rfl rfl rfl rfl))
      · intro p hp
        obtain rfl : p = { issueId, taskId } := by simpa using hp
        refine .inr (.inr ?_)
        intro r hr hid
        obtain ⟨hmem, htaskid⟩ := mem_of_taskRow? hrow
        obtain rfl := hunique.eq_of_key_eq hr hmem (hid.trans htaskid.symm)
        simp only [cancelReleases, Api.cancelPhaseB, Bool.and_eq_true,
          TaskStatus.terminal_eq_true_iff] at hrelease
        exact hrelease.1
    · simp only [hrelease]
      exact hframe
  · cases h

theorem frame_override (h : s.runOverride i = some s') :
    Frame env s (.commitOverride i) s' := by
  unfold runOverride at h
  split at h
  · next object newStatus hreq =>
    cases h
    refine .of_request (tableStep (.writeRow ?_)) (fun _ hq => mem_requests_eraseIdx hq)
      rfl rfl rfl rfl rfl
    intro r _ hid
    exact .flush rfl (.inr (.override i object rfl hreq hid.symm))
  · cases h

theorem frame_execute (h : s.runExecute i = some s') : Frame env s l s' := by
  unfold runExecute at h
  split at h
  · cases h
    refine .of_request (tableStep (.writeRow ?_)) (fun _ hq => mem_requests_eraseIdx hq)
      rfl rfl rfl rfl rfl
    intro r _ _
    exact .flush rfl (.inl rfl)
  · cases h

theorem frame_reschedule {slotFull : Bool}
    (hunique : Table.KeyUnique Task.id s.tasks) (h : s.runReschedule env i slotFull = some s') :
    Frame env s (.commitReschedule i slotFull) s' := by
  unfold runReschedule at h
  split at h
  · next object scheduledAt hreq =>
    split at h
    · cases h
      exact frame_dropRequest
    next tasks hok =>
    cases h
    refine .of_request (tableStep ?_) (fun _ hq => mem_requests_eraseIdx hq)
      rfl rfl rfl rfl rfl
    cases slotFull with
    | true => exact .refl
    | false => exact .reschedule hunique hreq hok
  · cases h

/-! ### The Scheduler Cycle -/

theorem objectStep_loadRows {rows : List Task} (hrows : ∀ r ∈ rows, r ∈ s.tasks)
    (ho : o ∈ s.loadRows rows) : ObjectStep s o := by
  rcases mem_append.mp ho with ho | ho
  · exact .of_object ho
  · exact .of_row (hrows o (mem_filter.mp ho).1)

theorem frame_updateStatus {tasks : List Task}
    (h : Rewrites env s l s.locks tasks)
    (hwaiting : ∀ r ∈ s.tasks, ∀ r' ∈ tasks, r'.id = r.id → r'.status ≠ r.status →
      isWaiting r.status) : Frame env s l (s.updateStatus status tasks) := by
  refine .of_session (tableStep h) (fun _ hq => .inl hq) ?_ rfl rfl rfl rfl
  intro o ho
  obtain ⟨o₀, ho₀, rfl⟩ := mem_map.mp ho
  split
  · next hmatched =>
    -- the object of a matched row: the row itself was waiting
    obtain ⟨t, ht, hchanged⟩ := (Option.any_eq_true _ _).mp hmatched
    obtain ⟨t₀, ht₀, hne⟩ := (Option.any_eq_true _ _).mp hchanged
    obtain ⟨htmem, htid⟩ := mem_of_taskRow? ht
    obtain ⟨ht₀mem, ht₀id⟩ := mem_of_taskRow? ht₀
    refine ⟨⟨o₀, .inl ho₀, rfl, rfl⟩, fun _ => ⟨t₀, .inr ht₀mem, ht₀id.symm, ?_⟩⟩
    refine hwaiting t₀ ht₀mem t htmem (htid.trans ht₀id.symm) ?_
    intro heq
    simp [heq] at hne
  · exact .of_object ho₀

theorem frame_normalize (hunique : Table.KeyUnique Task.id s.tasks) :
    Frame env s .normalize (s.updateStatus .pending (normalizeIllegalQueuedTasks s.tasks)) := by
  refine frame_updateStatus ⟨_, rfl, ?_⟩ ?_
  · intro r _
    split
    · next hillegal =>
      have hqueued : r.status = .queued := by simp_all
      exact ⟨rfl, rfl, fun _ => rfl, .normalize rfl hqueued⟩
    · exact .refl r
  · intro r hr r' hr' hid hne
    obtain ⟨r₀, hr₀, rfl⟩ := mem_map.mp hr'
    have hid₀ : r₀.id = r.id := by
      rw [← hid]
      split <;> rfl
    obtain rfl := hunique.eq_of_key_eq hr₀ hr hid₀
    split at hne
    · next hillegal => exact .inr (by simp_all)
    · exact absurd rfl hne

theorem frame_promote {ids : List Nat}
    (hunique : Table.KeyUnique Task.id s.tasks) :
    Frame env s (.promote now ids)
      (s.updateStatus .queued (promoteDueHeads (s.queueContext env) now ids s.tasks)) := by
  refine frame_updateStatus ⟨_, rfl, ?_⟩ ?_
  · intro r _
    split
    · next hdue =>
      have hpending : r.status = .pending := by simp_all [isDueHead]
      exact ⟨rfl, rfl, fun _ => rfl, .promote now ids rfl hpending⟩
    · exact .refl r
  · intro r hr r' hr' hid hne
    obtain ⟨r₀, hr₀, rfl⟩ := mem_map.mp hr'
    have hid₀ : r₀.id = r.id := by
      rw [← hid]
      split <;> rfl
    obtain rfl := hunique.eq_of_key_eq hr₀ hr hid₀
    split at hne
    · next hdue => exact .inl (by simp_all [isDueHead])
    · exact absurd rfl hne

theorem frame_getNext (h : s.runGetNext env = some s') : Frame env s l s' := by
  unfold runGetNext at h
  split at h
  · split at h
    · cases h
      exact Frame.refl.endCycle
    · next task hnext =>
      split at h
      · cases h
        exact Frame.refl.endCycle
      · cases h
        refine .of_session (tableStep_same rfl) (fun _ hq => .inl hq) ?_ rfl rfl rfl rfl
        intro o ho
        refine objectStep_loadRows ?_ ho
        intro r hr
        obtain rfl : r = task := by simpa using hr
        exact (getNextTask_eq_some hnext).1
  · cases h

/-- What the gate writes to an object: its id and turn stay, and it waits only if it waited
    before. -/
structure GateWrite (object object' : Task) : Prop where
  id : object'.id = object.id
  sequence : object'.issueSequence = object.issueSequence
  waiting : isWaiting object'.status → isWaiting object.status

theorem gateWrite_gateWrite (dumps : Json → String) (verdict : GateVerdict) (now : DateTime)
    (object : Task) : GateWrite object (gateWrite dumps verdict now object) := by
  refine ⟨gateWrite_id, gateWrite_issueSequence, ?_⟩
  intro hw
  rcases gateWrite_status dumps verdict now object with hkeep | ⟨hq, -⟩ | hfailed
  · rwa [hkeep] at hw
  · exact .inr hq
  · rw [hfailed] at hw
    rcases hw with hw | hw <;> cases hw

theorem frame_writeObject {object object' : Task} (hobject : object ∈ s.objects)
    (hwrite : GateWrite object object')
    (hwrites : statusWrites env s l = statusWrite object object') :
    Frame env s l (s.writeObject object object') := by
  refine .of_session (tableStep (.writeRow ?_)) (fun _ hq => .inl hq) ?_ rfl rfl rfl rfl
  · intro r _ hid
    refine .flush hwrite.sequence ?_
    by_cases hst : object'.status = object.status
    · exact .inl hst
    · refine .inr (.stale object ?_ hid.symm)
      rw [hwrites]
      simp [statusWrite, hst]
  · intro o ho
    obtain ⟨o₀, ho₀, rfl⟩ := mem_map.mp ho
    split
    · exact ⟨⟨object, .inl hobject, hwrite.id, hwrite.sequence⟩,
        fun hw => ⟨object, .inl hobject, hwrite.id, hwrite.waiting hw⟩⟩
    · exact .of_object ho₀

theorem frame_gate {snapshot : Option RuntimeSnapshot} {readiness : RuntimeReadiness}
    {probe : ProbeReply}
    (h : s.runGate env (applyRuntimeReadinessGate snapshot readiness probe) now = some s') :
    Frame env s (.gate snapshot readiness probe now) s' := by
  unfold runGate at h
  split at h
  · next taskId hstage =>
    split at h
    · cases h
    next object hobject =>
    have hmem := (mem_of_taskRow? hobject).1
    have hwrites : statusWrites env s (.gate snapshot readiness probe now) =
        statusWrite object (gateWrite env.dumps
          (applyRuntimeReadinessGate snapshot readiness probe) now object) := by
      simp [statusWrites, hstage, hobject]
    split at h
    · cases h
      exact Frame.refl.withStage _
    · cases h
      exact Frame.refl.endCycle
    · next hverdict =>
      cases h
      rw [hverdict] at hwrites
      exact (frame_writeObject hmem (gateWrite_gateWrite env.dumps .park now object) hwrites).withStage _
    · cases h
      exact (frame_writeObject hmem (gateWrite_gateWrite env.dumps _ now object) hwrites).endCycle
  · cases h

theorem frame_selectOthers {scope : List Nat} (h : s.runSelectOthers scope = some s') :
    Frame env s l s' := by
  unfold runSelectOthers at h
  split at h
  · cases h
    refine .of_session (tableStep_same rfl) (fun _ hq => .inl hq) ?_ rfl rfl rfl rfl
    intro o ho
    exact objectStep_loadRows (fun r hr => (mem_filter.mp hr).1) ho
  · cases h

theorem frame_parkOther (h : s.runParkOther = some s') : Frame env s .parkOther s' := by
  unfold runParkOther at h
  split at h
  · cases h
    exact Frame.refl.endCycle
  · next taskId rest hstage =>
    split at h
    · cases h
    next object hobject =>
    cases h
    refine (frame_writeObject (mem_of_taskRow? hobject).1
      (gateWrite_gateWrite env.dumps .park 0 object) ?_).withStage _
    simp [statusWrites, hstage, hobject, gateWrite]
  · cases h

theorem frame_claim {ctx : ClaimContext} (hunique : Table.KeyUnique Task.id s.tasks)
    (h : s.runClaim env ctx = some s') : Frame env s (.claim ctx) s' := by
  unfold runClaim at h
  split at h
  · next taskId hstage =>
    split at h
    · cases h
    next object hobject =>
    split at h
    · cases h
      exact Frame.refl.endCycle
    · next tasks hsettled =>
      cases h
      obtain ⟨task, write, hcommit, hwrite⟩ := claimTask_eq_settled hsettled
      refine Frame.endCycle (.of_table (tableStep ?_) rfl rfl rfl rfl rfl rfl)
      exact .commitClaim hunique hcommit (hwrite.id task) (hwrite.issueId task)
        (hwrite.sequence task) (.settle ctx rfl hcommit.queued (hwrite.status task))
    · next tasks locks hclaimed =>
      cases h
      obtain ⟨task, hcommit, -, hpred, hacq⟩ := claimTask_eq_claimed hclaimed
      obtain ⟨hmem, hid⟩ := mem_of_taskRow? hcommit.row
      have hobjectid : object.id = taskId := (mem_of_taskRow? hobject).2
      have hstarted : startTask ctx.now task ∈ tasks := by
        obtain ⟨selected, repaired, -, -, rfl⟩ := hcommit.rows
        refine mem_map.mpr ⟨task, hmem, ?_⟩
        rw [if_pos hid]
      refine ⟨tableStep ?_, fun q hq => .inl hq,
        fun o ho => absurd ho (by simp [endCycle]),
        .claimed ctx rfl hmem rfl ?_ hstarted rfl rfl, .acquired ctx rfl hmem hacq,
        fun p hp => .inl hp, fun p hp => .inl hp⟩
      · exact .commitClaim hunique hcommit rfl rfl rfl (.start ctx rfl hcommit.queued hpred hacq)
      · show taskId :: s.workers = task.id :: s.workers
        rw [hid, hobjectid]
  · cases h

/-! ### Workers and Lock Cleanup -/

theorem workerWrite_eq_some
    (h : s.workerWrite taskId enabled f = some s') :
    ∃ task, taskRow? taskId s.tasks = some task ∧ taskId ∈ s.workers ∧ enabled task = true ∧
      s' = { s with tasks := s.writeRow taskId f } := by
  unfold workerWrite at h
  split at h
  · cases h
  next task hrow =>
  split at h
  · next hcond => exact ⟨task, hrow, hcond.1, hcond.2, (Option.some.inj h).symm⟩
  · cases h

theorem frame_finishWorker
    (hunique : Table.KeyUnique Task.id s.tasks)
    (h : s.workerWrite taskId
      (fun t => (t.status = .running || t.status.terminal) && status.terminal)
      ({ · with status }) = some s') :
    Frame env s (.finishWorker taskId status) s' := by
  obtain ⟨task, hrow, hlive, henabled, rfl⟩ := workerWrite_eq_some h
  obtain ⟨hmem, hid⟩ := mem_of_taskRow? hrow
  simp only [Bool.and_eq_true, Bool.or_eq_true, decide_eq_true_eq,
    TaskStatus.terminal_eq_true_iff] at henabled
  refine .of_table (tableStep (.writeRow ?_)) rfl rfl rfl rfl rfl rfl
  intro r hr hrid
  obtain rfl := hunique.eq_of_key_eq hr hmem (hrid.trans hid.symm)
  exact ⟨rfl, rfl, fun _ => rfl, .worker (by rw [hid]) (hid ▸ hlive) henabled.1 henabled.2⟩

theorem frame_workerWrite
    (h : s.workerWrite taskId enabled f = some s')
    (hf : ∀ t, (f t).id = t.id ∧ (f t).issueId = t.issueId ∧
      (f t).issueSequence = t.issueSequence ∧ (f t).status = t.status) :
    Frame env s l s' := by
  obtain ⟨task, -, -, -, rfl⟩ := workerWrite_eq_some h
  refine .of_table (tableStep (.writeRow ?_)) rfl rfl rfl rfl rfl rfl
  intro r _ _
  obtain ⟨hid, hissue, hseq, hst⟩ := hf r
  exact .of_eq hid hissue hseq hst

theorem ownerEnded_of_row (hunique : Table.KeyUnique Task.id s.tasks)
    {pair : IssueExecutionLock} (hrow : taskRow? pair.taskId s.tasks = some task)
    (hended : task.status.active = false) : ownerEnded s pair := by
  obtain ⟨hmem, hid⟩ := mem_of_taskRow? hrow
  intro r hr hrid
  obtain rfl := hunique.eq_of_key_eq hr hmem (hrid.trans hid.symm)
  exact hended

theorem frame_detach (hunique : Table.KeyUnique Task.id s.tasks)
    (h : s.runDetach taskId = some s') : Frame env s l s' := by
  simp only [runDetach] at h
  split at h
  · cases h
  next task hrow =>
  split at h
  · next hcond =>
    have hended : task.status.active = false := by simpa using hcond.2
    have hfewer : ∀ k ∈ s.workers.filter (fun k => decide (k ≠ taskId)), k ∈ s.workers :=
      fun k hk => (mem_filter.mp hk).1
    split at h
    · cases h
      exact ⟨tableStep_same rfl, fun q hq => .inl hq, fun o ho => .of_object ho,
        .fewer hfewer, .same rfl, fun p hp => .inl hp, fun p hp => .inl hp⟩
    · split at h
      · cases h
        exact ⟨tableStep_same rfl, fun q hq => .inl hq, fun o ho => .of_object ho,
          .fewer hfewer, .same rfl, fun p hp => .inl hp, fun p hp => .inl hp⟩
      · cases h
        refine ⟨tableStep_same rfl, fun q hq => .inl hq, fun o ho => .of_object ho,
          .fewer hfewer, .same rfl, ?_, fun p hp => .inl hp⟩
        intro p hp
        rcases mem_append.mp hp with hp | hp
        · exact .inl hp
        · obtain rfl : p = { issueId := task.issueId, taskId } := by simpa using hp
          obtain ⟨hmem, hid⟩ := mem_of_taskRow? hrow
          exact .inr ⟨ownerEnded_of_row hunique hrow hended, task, hmem, hid⟩
  · cases h

theorem frame_releaseOwner (h : s.runReleaseOwner i = some s') : Frame env s l s' := by
  unfold runReleaseOwner at h
  split at h
  · cases h
  next pair hpair =>
  cases h
  refine ⟨tableStep_same rfl, fun q hq => .inl hq, fun o ho => .of_object ho,
    .fewer fun _ hk => hk, .deleted [pair] rfl ?_,
    fun p hp => .inl (mem_of_mem_eraseIdx hp), fun p hp => .inl hp⟩
  intro p hp
  obtain rfl : p = pair := by simpa using hp
  exact .inl (mem_of_getElem? hpair)

theorem frame_clearRetained (hunique : Table.KeyUnique Task.id s.tasks)
    (h : s.runClearRetained taskId = some s') : Frame env s l s' := by
  simp only [runClearRetained] at h
  split at h
  · cases h
  next task hrow =>
  split at h
  · next hterminal =>
    cases h
    have hended : task.status.active = false := by simpa using hterminal
    refine ⟨tableStep (.writeRow fun r _ _ => .of_eq rfl rfl rfl rfl),
      fun q hq => .inl hq, fun o ho => .of_object ho, .fewer fun _ hk => hk, ?_,
      fun p hp => .inl hp, fun p hp => .inl hp⟩
    split
    · exact .same rfl
    · refine .deleted [{ issueId := task.issueId, taskId }] rfl ?_
      intro p hp
      obtain rfl : p = { issueId := task.issueId, taskId } := by simpa using hp
      exact .inr (.inr (ownerEnded_of_row hunique hrow hended))
  · cases h

theorem frame_observeStale (hunique : Table.KeyUnique Task.id s.tasks) :
    Frame env s l { s with stale := stalePairs s.tasks s.locks } := by
  refine ⟨tableStep_same rfl, fun q hq => .inl hq, fun o ho => .of_object ho,
    .fewer fun _ hk => hk, .same rfl, fun p hp => .inl hp, ?_⟩
  intro p hp
  refine .inr ⟨?_, (mem_filter.mp hp).1⟩
  intro r hr hid
  exact (terminal_of_mem_stalePairs hunique hp hr hid).1

theorem frame_deleteStale :
    Frame env s l { s with locks := deletePairs s.stale s.locks, stale := [] } :=
  ⟨tableStep_same rfl, fun _ hq => .inl hq, fun _ ho => .of_object ho, .fewer fun _ hk => hk,
    .deleted s.stale rfl fun _ hp => .inr (.inl hp), fun _ hp => .inl hp,
    fun _ hp => absurd hp (by simp)⟩

/-! ### All Steps -/

/-- **Step inversion**: every step of the lifecycle stays in its frame. -/
theorem step_frame (hunique : Table.KeyUnique Task.id s.tasks) (h : step env s l = some s') :
    Frame env s l s' := by
  cases l with
  | append issueId newId now request => exact frame_append hunique h
  | openCancel taskId =>
    refine frame_openRequest ?_ h
    intro task _ q hq
    obtain ⟨-, -, hq⟩ := bind_eq_ok_iff.mp hq
    cases hq
    exact .cancel _ _
  | openOverride taskId requested =>
    refine frame_openRequest ?_ h
    intro task hmem q hq
    obtain ⟨st, hvalid, hq⟩ := bind_eq_ok_iff.mp hq
    cases hq
    exact .override hmem hvalid
  | openExecute taskId =>
    refine frame_openRequest ?_ h
    intro task hmem q hq
    obtain ⟨-, -, hq⟩ := bind_eq_ok_iff.mp hq
    cases hq
    exact .execute hmem
  | openReschedule taskId now scheduledAt =>
    refine frame_openRequest ?_ h
    intro task hmem q hq
    obtain ⟨_, hvalid, hq⟩ := bind_eq_ok_iff.mp hq
    obtain ⟨t, -, hq⟩ := bind_eq_ok_iff.mp hq
    cases hq
    exact .reschedule hmem hvalid t
  | cancelPhaseA i now => exact frame_cancelPhaseA hunique h
  | cancelContainer i reply => exact frame_cancelContainer h
  | cancelPhaseB i now => exact frame_cancelPhaseB hunique h
  | commitOverride i => exact frame_override h
  | commitExecute i => exact frame_execute h
  | commitReschedule i slotFull => exact frame_reschedule hunique h
  | openCycle =>
    simp only [step] at h
    split at h
    · cases h
      exact Frame.refl.moveTo .cycle (.inr rfl)
    · cases h
  | load taskId =>
    simp only [step] at h
    split at h
    · cases h
    next task hrow =>
    split at h
    · cases h
      refine .of_session (tableStep_same rfl) (fun _ hq => .inl hq) ?_ rfl rfl rfl rfl
      intro o ho
      refine objectStep_loadRows ?_ ho
      intro r hr
      obtain rfl : r = task := by simpa using hr
      exact (mem_of_taskRow? hrow).1
    · cases h
  | forget taskId =>
    simp only [step] at h
    split at h
    · cases h
      refine .of_session (tableStep_same rfl) (fun _ hq => .inl hq) ?_ rfl rfl rfl rfl
      intro o ho
      exact .of_object (mem_filter.mp ho).1
    · cases h
  | closeCycle =>
    simp only [step] at h
    split at h
    · cases h
      exact Frame.refl.endCycle
    · cases h
  | normalize =>
    simp only [step] at h
    split at h
    · cases h
      exact frame_normalize hunique
    · cases h
  | promote now ids =>
    simp only [step] at h
    split at h
    · cases h
      exact frame_promote hunique
    · cases h
  | getNext => exact frame_getNext h
  | gate snapshot readiness probe now => exact frame_gate h
  | selectOthers scope => exact frame_selectOthers h
  | parkOther => exact frame_parkOther h
  | claim ctx => exact frame_claim hunique h
  | publishContainer taskId containerId =>
    exact frame_workerWrite h fun _ => ⟨rfl, rfl, rfl, rfl⟩
  | finishWorker taskId status => exact frame_finishWorker hunique h
  | clearContainer taskId => exact frame_workerWrite h fun _ => ⟨rfl, rfl, rfl, rfl⟩
  | detachWorker taskId => exact frame_detach hunique h
  | releaseOwner i => exact frame_releaseOwner h
  | clearRetained taskId => exact frame_clearRetained hunique h
  | observeStale =>
    cases h
    exact frame_observeStale hunique
  | deleteStale =>
    cases h
    exact frame_deleteStale
  | reconcile issues =>
    cases h
    exact .of_table (tableStep_same rfl) rfl rfl rfl rfl rfl rfl

/-! ### Consequences -/

theorem TableStep.back (h : TableStep env s l s') {r' : Task} (hr' : r' ∈ s'.tasks) :
    (∃ r ∈ s.tasks, RowStep env s l s'.locks r r') ∨
      ∃ fresh, FreshRows s l fresh ∧ r' ∈ fresh := by
  obtain ⟨tasks, fresh, htasks, ⟨g, rfl, hg⟩, hfresh⟩ := h
  rw [htasks] at hr'
  rcases mem_append.mp hr' with hr' | hr'
  · obtain ⟨r, hr, rfl⟩ := mem_map.mp hr'
    exact .inl ⟨r, hr, hg r hr⟩
  · exact .inr ⟨fresh, hfresh, hr'⟩

theorem TableStep.forth (h : TableStep env s l s') {r : Task} (hr : r ∈ s.tasks) :
    ∃ r' ∈ s'.tasks, RowStep env s l s'.locks r r' := by
  obtain ⟨tasks, fresh, htasks, ⟨g, rfl, hg⟩, hfresh⟩ := h
  rw [htasks]
  exact ⟨g r, mem_append_left _ (mem_map_of_mem hr), hg r hr⟩

theorem TableStep.keyUnique (h : TableStep env s l s')
    (hunique : Table.KeyUnique Task.id s.tasks) : Table.KeyUnique Task.id s'.tasks := by
  obtain ⟨tasks, fresh, htasks, ⟨g, rfl, hg⟩, hfresh⟩ := h
  rw [htasks]
  have hids : (s.tasks.map g).map Task.id = s.tasks.map Task.id := by
    rw [map_map]
    exact map_congr_left fun r hr => (hg r hr).id
  have hmapped : Table.KeyUnique Task.id (s.tasks.map g) := by
    show ((s.tasks.map g).map Task.id).Nodup
    rw [hids]
    exact hunique
  cases hfresh with
  | none => simpa using hmapped
  | tail t m hid hnew =>
    refine hmapped.append ?_
    intro r' hr'
    obtain ⟨r, hr, rfl⟩ := mem_map.mp hr'
    rw [(hg r hr).id, hid]
    exact hnew r hr

end Codify.TaskLifecycle
