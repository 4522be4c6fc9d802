import Codify.LineageGenerations
import Codify.Api.TaskActions

/-! # Editing Tasks That Have Not Started

    `update_task_record` (app/api/task_update_service.py) edits a PENDING or QUEUED
    Task, next to `create_task_record` and `retry_task_record`. Both of the latter
    freeze a Worker snapshot and a projected lineage computed from the same harness key
    and endpoint; an edit can replace the endpoint (`provider_id`) or the whole snapshot
    (`worker_profile_id`) and leaves the projected columns alone.

    The module runs the three operations over one Issue and says which edits keep the
    frozen lineage equal to the one of the frozen snapshot.
-/

namespace Codify.Api.TaskUpdate

open Codify Codify.Framework Codify.IssueTaskOrder Codify.IssueSchedule Codify.IssueTaskLineage List Option

/-! ### Requests -/

/-- An AI provider, with the fingerprint of its normalized endpoint. -/
structure Provider where
  id : Nat
  endpointFingerprint : String
  deriving DecidableEq, Repr

/-- The columns of a Worker profile that an edit reads. -/
structure WorkerProfile where
  name : String
  enabled : Bool
  defaultHarnessKey : Option String
  deriving DecidableEq, Repr

/-- `UpdateTaskRequest`: an outer `none` is a field that is not set. Of the fields that no
    modelled column reads only their presence is kept. -/
structure UpdateTaskRequest where
  userPrompt : Option (Option String) := none
  priority : Option (Option Int) := none
  providerId : Option (Option Nat) := none
  workerProfileId : Option (Option Nat) := none
  harnessOptions : Bool := false
  skillIds : Option (Option (List Nat)) := none
  taskMode : Bool := false
  requireChanges : Bool := false
  runInstructionTemplate : Bool := false

/-- What the services and the database answer while an edit runs; a failed check carries
    the text of its exception. -/
structure UpdateAnswers where
  requireWriter : Except HttpError Unit := .ok ()
  validateOverrides : Except String Unit := .ok ()
  resolveProvider : Option Nat → Except String Provider
  workerProfile : Option Nat → Option WorkerProfile := fun _ => none
  /-- `ensure_harness_protocol_compatibility`. -/
  compatibility : String → Provider → Except String Unit := fun _ _ => .ok ()
  readiness : WorkerProfile → String → Except HttpError Unit := fun _ _ => .ok ()
  applyOptions : Except String Unit := .ok ()
  profileLoaded : Bool := true
  skills : Except String Unit := .ok ()
  /-- The status read again before the commit. -/
  refreshedStatus : TaskStatus := .pending
  renderPrompt : Except String Unit := .ok ()

/-- The rows an edit works on. -/
structure Edit where
  task : Task
  providerId : Option Nat
  snapshot : Option WorkerSnapshot

/-- `x or default` on an optional string. -/
def nonEmptyOr (x : Option String) (default : String) : String :=
  (x.filter (· != "")).getD default

/-- A failed check answers with its status code. -/
def refuse {α : Type} (statusCode : Nat) (x : Except String α) : Except HttpError α :=
  x.mapError fun detail => ⟨statusCode, detail⟩

/-- A check of an optional part of the request. -/
def checkWhen (condition : Bool) (check : Except HttpError Unit) : Except HttpError Unit :=
  if condition then check else .ok ()

/-! ### Steps of an Edit -/

/-- Only PENDING or QUEUED Tasks can be updated. -/
def editable (status : TaskStatus) : Bool := status == .pending || status == .queued

def checkEditable (task : Task) : Except HttpError Unit :=
  if editable task.status then .ok ()
  else .error ⟨409, "Task " ++ toString task.id ++ " cannot be edited because its status is '"
    ++ statusValue task.status ++ "'. Only PENDING or QUEUED tasks can be updated."⟩

def checkStillEditable (task : Task) (status : TaskStatus) : Except HttpError Unit :=
  if editable status then .ok ()
  else .error ⟨409, "Task " ++ toString task.id ++ " can no longer be edited: status changed to '"
    ++ statusValue status ++ "' while processing the request."⟩

variable (digest : String → String) (answers : UpdateAnswers) (request : UpdateTaskRequest)

def editPrompt : Except HttpError Unit :=
  match request.userPrompt with
  | none => .ok ()
  | some prompt =>
    if prompt.any (·.toList.any (!IssueTaskLineage.isSpace ·)) then .ok ()
    else .error ⟨422, "user_prompt must be a non-empty string"⟩

variable (e : Edit)

def editPriority : Except HttpError Edit :=
  match request.priority with
  | none => .ok e
  | some priority =>
    match priority.filter fun p => p == 0 || p == 1 || p == 2 with
    | some p => .ok { e with task := { e.task with priority := p } }
    | none => .error ⟨422, "priority must be 0 (low), 1 (normal), or 2 (high)"⟩

def requireSnapshot : Except HttpError WorkerSnapshot :=
  match e.snapshot with
  | some snapshot => .ok snapshot
  | none => .error ⟨422, "Task has no worker profile snapshot"⟩

/-- The `provider_id` branch: the endpoint of the frozen snapshot is frozen again. -/
def editProvider : Except HttpError Edit :=
  match request.providerId with
  | none => .ok e
  | some providerId => do
    let snapshot ← requireSnapshot e
    let provider ← refuse 422 (answers.resolveProvider providerId)
    refuse 422 (answers.compatibility (nonEmptyOr snapshot.harnessKey "claude") provider)
    return { e with
      providerId := some provider.id
      snapshot := some { snapshot with
        endpointFingerprint := some provider.endpointFingerprint } }

def switchTarget (profileId : Option Nat) : Except HttpError WorkerProfile :=
  match answers.workerProfile profileId with
  | none => .error ⟨404, "Worker profile not found"⟩
  | some profile =>
    if profile.enabled then .ok profile
    else .error ⟨422, "Worker profile '" ++ profile.name ++ "' is disabled"⟩

/-- The `worker_profile_id` branch: the snapshot is replaced by one of the new profile,
    with its default harness and the endpoint of the Task's provider. -/
def editWorkerProfile : Except HttpError Edit :=
  match request.workerProfileId with
  | none => .ok e
  | some profileId => do
    let _ ← requireSnapshot e
    let profile ← switchTarget answers profileId
    let harnessKey := nonEmptyOr profile.defaultHarnessKey "claude"
    answers.readiness profile harnessKey
    let provider ← refuse 422 (answers.resolveProvider e.providerId)
    refuse 422 (answers.compatibility harnessKey provider)
    refuse 422 answers.skills
    return { e with
      providerId := some provider.id
      snapshot := some { harnessKey := some harnessKey,
                         endpointFingerprint := some provider.endpointFingerprint } }

/-- The `harness_options` and `skill_ids` branches change neither the harness nor the
    endpoint of the snapshot. -/
def editOptions : Except HttpError Unit :=
  checkWhen request.harnessOptions do
    let _ ← requireSnapshot e
    refuse 422 answers.applyOptions

def editSkills : Except HttpError Unit :=
  match request.skillIds with
  | none => .ok ()
  | some skillIds => do
    let _ ← requireSnapshot e
    checkWhen (skillIds.isNone && !answers.profileLoaded)
      (.error ⟨422, "Task worker profile is no longer available"⟩)
    refuse 422 answers.skills

/-- `render_context_changed`. -/
def renderContextChanged : Bool :=
  request.userPrompt.isSome || request.runInstructionTemplate || request.taskMode
    || request.requireChanges || request.providerId.isSome || request.workerProfileId.isSome

/-- `update_task_record`. -/
def updateTaskRecord : Except HttpError Edit := do
  checkEditable e.task
  answers.requireWriter
  checkWhen request.harnessOptions (refuse 422 answers.validateOverrides)
  editPrompt request
  let e ← editPriority request e
  let e ← editProvider answers request e
  let e ← editWorkerProfile answers request e
  editOptions answers request e
  editSkills answers request e
  checkStillEditable e.task answers.refreshedStatus
  checkWhen (renderContextChanged request) (refuse 422 answers.renderPrompt)
  return e

/-! ### Creation -/

/-- The part of a `CreateTaskRequest` that decides the frozen lineage. -/
structure CreateTaskRequest where
  harnessKey : Option String := none
  sessionMode : SessionMode := .continue
  scheduledAt : Option DateTime := none
  priority : Int := 0
  deriving DecidableEq, Repr

/-- What the services answer while a Task is created. -/
structure CreateAnswers where
  provider : Except String Provider
  issueDefaultKey : Option String := none
  profileDefaultKey : Option String := none
  /-- `get_issue_latest_harness_key`. -/
  currentHarness : Option String := none
  /-- The compatibility, readiness, quota and capacity gates. -/
  gates : Except HttpError Unit := .ok ()

/-- `request.harness_key or issue_default_key or profile_default_key`. -/
def resolveHarnessKey (request : CreateTaskRequest) (answers : CreateAnswers) : String :=
  nonEmptyOr request.harnessKey
    (nonEmptyOr answers.issueDefaultKey (nonEmptyOr answers.profileDefaultKey "claude"))

/-- A `continue` Task must stay with the current harness of the Issue. -/
def checkHarness (request : CreateTaskRequest) (answers : CreateAnswers) :
    Except HttpError Unit :=
  checkWhen (request.sessionMode == .continue &&
      answers.currentHarness.any (resolveHarnessKey request answers != ·))
    (.error ⟨422, "续跑会话必须沿用原 Harness；切换 Harness 请勾选“使用新会话执行”"⟩)

/-- What `create_task_record` appends, once harness and endpoint are resolved. -/
def appendRequest (request : CreateTaskRequest) (harnessKey : String) (provider : Provider) :
    AppendRequest :=
  { scheduledAt := request.scheduledAt
    harnessKey
    endpointFingerprint := some provider.endpointFingerprint
    sessionMode := request.sessionMode
    priority := request.priority }

/-- The checks of `create_task_record` before the append. -/
def resolveCreate (request : CreateTaskRequest) (answers : CreateAnswers) :
    Except HttpError Provider := do
  let provider ← refuse 422 answers.provider
  checkHarness request answers
  answers.gates
  return provider

/-! ### The System -/

/-- One Issue: its Tasks, and what is kept by Task id. -/
structure State where
  tasks : List Task := []
  /-- `task_worker_profile_snapshots`. -/
  snapshots : Nat → Option WorkerSnapshot := fun _ => none
  /-- `tasks.provider_id`. -/
  providerIds : Nat → Option Nat := fun _ => none
  /-- `tasks.output_session_id`. -/
  outputSessions : Nat → Option String := fun _ => none
  clock : DateTime := 0
  nextId : Nat := 1

/-- One serial operation on the Issue. -/
inductive Label where
  | create (request : CreateTaskRequest) (answers : CreateAnswers)
  | retry (request : RetryRequest)
  | update (taskId : Nat) (request : UpdateTaskRequest) (answers : UpdateAnswers)
  /-- The Scheduler and the Worker change the status of a Task. -/
  | setStatus (taskId : Nat) (status : TaskStatus)
  /-- A run writes the session it produced. -/
  | setOutput (taskId : Nat) (sessionId : Option String)
  /-- Time passes and other Issues draw Task ids. -/
  | elapse (microseconds ids : Nat)

def editOf (s : State) (task : Task) : Edit :=
  { task, providerId := s.providerIds task.id, snapshot := s.snapshots task.id }

/-- The operations on one Issue, one at a time; a refused request is not a step. -/
def issueEdits (issueId : Nat) : System State Label where
  init := fun s => s.tasks = []
  next := fun s l =>
    match l with
    | .create request answers =>
      match resolveCreate request answers with
      | .error _ => none
      | .ok provider =>
        let harnessKey := resolveHarnessKey request answers
        match createTaskRecord (sessionNamespaceFor digest) s.snapshots issueId s.nextId s.clock
            (appendRequest request harnessKey provider) s.tasks with
        | .error _ => none
        | .ok tasks =>
          some { s with
            tasks
            nextId := s.nextId + 1
            snapshots := setColumn s.snapshots s.nextId
              (some { harnessKey := some harnessKey,
                      endpointFingerprint := some provider.endpointFingerprint })
            providerIds := setColumn s.providerIds s.nextId (some provider.id)
            outputSessions := setColumn s.outputSessions s.nextId none }
    | .retry request => do
      let source ← task? s.tasks request.sourceId
      if source.status = .failed ∨ source.status = .cancelled then
        match retryTaskRecord (sessionNamespaceFor digest) s.snapshots issueId s.outputSessions
            s.nextId s.clock request source s.tasks with
        | .error _ => none
        | .ok tasks =>
          some { s with
            tasks
            nextId := s.nextId + 1
            -- `clone_task_worker_snapshot`
            snapshots := setColumn s.snapshots s.nextId (s.snapshots source.id)
            providerIds := setColumn s.providerIds s.nextId (s.providerIds source.id)
            outputSessions := setColumn s.outputSessions s.nextId none }
      else none
    | .update taskId request answers => do
      let task ← task? s.tasks taskId
      match updateTaskRecord answers request (editOf s task) with
      | .error _ => none
      | .ok e =>
        some { s with
          tasks := updateTask taskId ({ · with priority := e.task.priority }) s.tasks
          snapshots := setColumn s.snapshots taskId e.snapshot
          providerIds := setColumn s.providerIds taskId e.providerId }
    | .setStatus taskId status =>
      some { s with tasks := updateTask taskId ({ · with status }) s.tasks }
    | .setOutput taskId sessionId =>
      some { s with outputSessions := setColumn s.outputSessions taskId sessionId }
    | .elapse microseconds ids =>
      some { s with clock := s.clock + microseconds, nextId := s.nextId + ids }

/-! ### What an Edit Freezes -/

/-- The provider of the Task after the `provider_id` branch. -/
def providerAfter (providerId : Option Nat) : Option Nat :=
  match request.providerId with
  | none => providerId
  | some requested => ((answers.resolveProvider requested).toOption).map (·.id)

/-- The snapshot after an edit, from the snapshot before it. -/
inductive Refrozen (answers : UpdateAnswers) (request : UpdateTaskRequest)
    (providerId : Option Nat) : Option WorkerSnapshot → Option WorkerSnapshot → Prop where
  /-- Neither the provider nor the profile is edited. -/
  | same {snapshot : Option WorkerSnapshot} :
      request.workerProfileId = none → request.providerId = none →
      Refrozen answers request providerId snapshot snapshot
  /-- Only the endpoint is frozen again. -/
  | endpoint {snapshot : WorkerSnapshot} {requested : Option Nat} {provider : Provider} :
      request.workerProfileId = none → request.providerId = some requested →
      answers.resolveProvider requested = .ok provider →
      Refrozen answers request providerId (some snapshot)
        (some { snapshot with endpointFingerprint := some provider.endpointFingerprint })
  /-- The snapshot is replaced by one of another profile. -/
  | profile {snapshot : WorkerSnapshot} {profileId : Option Nat} {profile : WorkerProfile}
      {provider : Provider} :
      request.workerProfileId = some profileId →
      answers.workerProfile profileId = some profile →
      answers.resolveProvider (providerAfter answers request providerId) = .ok provider →
      Refrozen answers request providerId (some snapshot)
        (some { harnessKey := some (nonEmptyOr profile.defaultHarnessKey "claude"),
                endpointFingerprint := some provider.endpointFingerprint })

section Spec

variable {answers : UpdateAnswers} {request : UpdateTaskRequest} {e e' : Edit}

theorem refuse_eq_ok_iff {α : Type} {statusCode : Nat} {x : Except String α} {a : α} :
    refuse statusCode x = .ok a ↔ x = .ok a :=
  mapError_eq_ok_iff

theorem requireSnapshot_eq_ok_iff {snapshot : WorkerSnapshot} :
    requireSnapshot e = .ok snapshot ↔ e.snapshot = some snapshot := by
  unfold requireSnapshot
  cases e.snapshot <;> simp

theorem editPriority_spec (h : editPriority request e = .ok e') :
    e'.snapshot = e.snapshot ∧ e'.providerId = e.providerId ∧ e'.task.id = e.task.id := by
  unfold editPriority at h
  split at h
  · cases h
    exact ⟨rfl, rfl, rfl⟩
  · split at h
    · cases h
      exact ⟨rfl, rfl, rfl⟩
    · cases h

theorem editProvider_spec (h : editProvider answers request e = .ok e') :
    e'.providerId = providerAfter answers request e.providerId ∧
      ((request.providerId = none ∧ e'.snapshot = e.snapshot) ∨
        ∃ requested snapshot provider, request.providerId = some requested ∧
          e.snapshot = some snapshot ∧ answers.resolveProvider requested = .ok provider ∧
          e'.snapshot = some { snapshot with
            endpointFingerprint := some provider.endpointFingerprint }) := by
  unfold editProvider at h
  unfold providerAfter
  split at h
  · next hnone =>
    cases h
    rw [hnone]
    exact ⟨rfl, .inl ⟨rfl, rfl⟩⟩
  · next requested hsome =>
    obtain ⟨snapshot, hsnapshot, h⟩ := bind_eq_ok_iff.mp h
    obtain ⟨provider, hprovider, h⟩ := bind_eq_ok_iff.mp h
    obtain ⟨-, -, h⟩ := bind_eq_ok_iff.mp h
    cases h
    rw [refuse_eq_ok_iff] at hprovider
    rw [hsome]
    exact ⟨by simp [hprovider, Except.toOption], .inr ⟨requested, snapshot, provider, rfl,
      requireSnapshot_eq_ok_iff.mp hsnapshot, hprovider, rfl⟩⟩

theorem editWorkerProfile_spec (h : editWorkerProfile answers request e = .ok e') :
    (request.workerProfileId = none ∧ e'.snapshot = e.snapshot) ∨
      ∃ profileId snapshot profile provider, request.workerProfileId = some profileId ∧
        e.snapshot = some snapshot ∧ answers.workerProfile profileId = some profile ∧
        answers.resolveProvider e.providerId = .ok provider ∧
        e'.snapshot =
          some { harnessKey := some (nonEmptyOr profile.defaultHarnessKey "claude"),
                 endpointFingerprint := some provider.endpointFingerprint } := by
  unfold editWorkerProfile at h
  split at h
  · next hnone =>
    cases h
    exact .inl ⟨hnone, rfl⟩
  · next profileId hsome =>
    obtain ⟨snapshot, hsnapshot, h⟩ := bind_eq_ok_iff.mp h
    obtain ⟨profile, hprofile, h⟩ := bind_eq_ok_iff.mp h
    obtain ⟨-, -, h⟩ := bind_eq_ok_iff.mp h
    obtain ⟨provider, hprovider, h⟩ := bind_eq_ok_iff.mp h
    obtain ⟨-, -, h⟩ := bind_eq_ok_iff.mp h
    obtain ⟨-, -, h⟩ := bind_eq_ok_iff.mp h
    cases h
    have hfound : answers.workerProfile profileId = some profile := by
      unfold switchTarget at hprofile
      split at hprofile
      · cases hprofile
      next found hfound =>
      split at hprofile
      · rw [hfound, Except.ok.inj hprofile]
      · cases hprofile
    exact .inr ⟨profileId, snapshot, profile, provider, hsome,
      requireSnapshot_eq_ok_iff.mp hsnapshot, hfound, refuse_eq_ok_iff.mp hprovider, rfl⟩

/-- A successful edit is of a Task that has not started, and freezes the snapshot again
    as its `provider_id` and `worker_profile_id` say. -/
theorem updateTaskRecord_spec (h : updateTaskRecord answers request e = .ok e') :
    editable e.task.status = true ∧
      Refrozen answers request e.providerId e.snapshot e'.snapshot := by
  unfold updateTaskRecord at h
  obtain ⟨_, hstatus, h⟩ := bind_eq_ok_iff.mp h
  obtain ⟨-, -, h⟩ := bind_eq_ok_iff.mp h
  obtain ⟨-, -, h⟩ := bind_eq_ok_iff.mp h
  obtain ⟨-, -, h⟩ := bind_eq_ok_iff.mp h
  obtain ⟨e₁, hpriority, h⟩ := bind_eq_ok_iff.mp h
  obtain ⟨e₂, hprovider, h⟩ := bind_eq_ok_iff.mp h
  obtain ⟨e₃, hworker, h⟩ := bind_eq_ok_iff.mp h
  obtain ⟨-, -, h⟩ := bind_eq_ok_iff.mp h
  obtain ⟨-, -, h⟩ := bind_eq_ok_iff.mp h
  obtain ⟨-, -, h⟩ := bind_eq_ok_iff.mp h
  obtain ⟨-, -, h⟩ := bind_eq_ok_iff.mp h
  cases h
  have heditable : editable e.task.status = true := by
    unfold checkEditable at hstatus
    split at hstatus
    · assumption
    · cases hstatus
  refine ⟨heditable, ?_⟩
  obtain ⟨hsnap₁, hprov₁, -⟩ := editPriority_spec hpriority
  obtain ⟨hprov₂, hsnap₂⟩ := editProvider_spec hprovider
  rw [hprov₁] at hprov₂
  rw [hsnap₁] at hsnap₂
  rcases editWorkerProfile_spec hworker with ⟨hnone, hsame⟩ |
      ⟨profileId, snapshot, profile, provider, hsome, hsnapshot, hprofile, hresolve, hnew⟩
  · rw [hsame]
    rcases hsnap₂ with ⟨hnoProvider, hsame₂⟩ |
        ⟨requested, snapshot, provider, hrequested, hsnapshot, hresolve, hnew⟩
    · rw [hsame₂]
      exact .same hnone hnoProvider
    · rw [hnew, hsnapshot]
      exact .endpoint hnone hrequested hresolve
  · rw [hnew]
    rw [hprov₂] at hresolve
    have hbefore : ∃ before, e.snapshot = some before := by
      rcases hsnap₂ with ⟨-, hsame₂⟩ | ⟨-, before, -, -, hbefore, -⟩
      · exact ⟨snapshot, hsame₂ ▸ hsnapshot⟩
      · exact ⟨before, hbefore⟩
    obtain ⟨before, hbefore⟩ := hbefore
    rw [hbefore]
    exact .profile hsome hprofile hresolve

end Spec

/-! ### Frozen Lineages -/

/-- The snapshot of a Task has harness key `key` and endpoint fingerprint `fp`, and the
    projected lineage is the one of that snapshot. -/
def FrozenAs (snapshots : Nat → Option WorkerSnapshot) (t : Task) (key : String)
    (fp : Option String) : Prop :=
  snapshots t.id = some { harnessKey := some key, endpointFingerprint := fp } ∧
    t.projectedHarnessKey = some key ∧
    t.projectedSessionNamespace = some (sessionNamespaceFor digest key fp)

/-- The frozen lineage of a Task matches its frozen snapshot. -/
def Matches (snapshots : Nat → Option WorkerSnapshot) (t : Task) : Prop :=
  ∃ key fp, FrozenAs digest snapshots t key fp

/-- The edit asks for the harness and the session namespace that are already frozen: a
    switched profile has the frozen harness as its default, and the endpoint of the
    resolved provider has the frozen namespace. -/
def SameLineage (answers : UpdateAnswers) (request : UpdateTaskRequest) (providerId : Option Nat)
    (key : String) (fp : Option String) : Prop :=
  match request.workerProfileId, request.providerId with
  | some profileId, _ =>
    ∀ profile provider, answers.workerProfile profileId = some profile →
      answers.resolveProvider (providerAfter answers request providerId) = .ok provider →
      nonEmptyOr profile.defaultHarnessKey "claude" = key ∧
        sessionNamespaceFor digest key (some provider.endpointFingerprint) =
          sessionNamespaceFor digest key fp
  | none, some requested =>
    ∀ provider, answers.resolveProvider requested = .ok provider →
      sessionNamespaceFor digest key (some provider.endpointFingerprint) =
        sessionNamespaceFor digest key fp
  | none, none => True

/-- The steps that keep the frozen lineage: every operation, and of the edits those that
    ask for no other harness or namespace. -/
def KeepsLineage (s : State) : Label → Prop
  | .update taskId request answers =>
    ∀ key fp, s.snapshots taskId =
        some { harnessKey := some key, endpointFingerprint := fp } →
      SameLineage digest answers request (s.providerIds taskId) key fp
  | _ => True

/-- What an edit makes of a matching Task: it still matches exactly if the edit asked for
    the frozen harness and namespace. -/
theorem matches_refrozen_iff {digest : String → String} {answers : UpdateAnswers}
    {request : UpdateTaskRequest} {providerId : Option Nat}
    {snapshots snapshots' : Nat → Option WorkerSnapshot} {t : Task} {key : String}
    {fp : Option String} (hfrozen : FrozenAs digest snapshots t key fp)
    (h : Refrozen answers request providerId (snapshots t.id) (snapshots' t.id)) :
    Matches digest snapshots' t ↔ SameLineage digest answers request providerId key fp := by
  obtain ⟨hsnap, hkey, hspace⟩ := hfrozen
  -- with the projected columns fixed, only the new snapshot matters
  have hiff : ∀ key' fp', snapshots' t.id =
      some { harnessKey := some key', endpointFingerprint := fp' } →
      (Matches digest snapshots' t ↔ key' = key ∧
        sessionNamespaceFor digest key fp' = sessionNamespaceFor digest key fp) := by
    intro key' fp' hnew
    constructor
    · rintro ⟨key'', fp'', hsnap'', hkey'', hspace''⟩
      rw [hnew, Option.some.injEq, WorkerSnapshot.mk.injEq, Option.some.injEq] at hsnap''
      obtain ⟨rfl, rfl⟩ := hsnap''
      obtain rfl : key = key' := some.inj (hkey.symm.trans hkey'')
      exact ⟨rfl, (some.inj (hspace.symm.trans hspace'')).symm⟩
    · rintro ⟨rfl, hsame⟩
      exact ⟨key', fp', hnew, hkey, by rw [hspace, hsame]⟩
  rw [hsnap] at h
  cases hnew : snapshots' t.id with
  | none =>
    rw [hnew] at h
    cases h
  | some snapshot =>
    rw [hnew] at h
    cases h with
    | same hprofile hprovider =>
      rw [hiff key fp hnew]
      simp [SameLineage, hprofile, hprovider]
    | @endpoint _ requested provider hprofile hprovider hresolve =>
      rw [hiff key _ hnew]
      simp [SameLineage, hprofile, hprovider, hresolve]
    | @profile _ profileId profile provider hprofile hfound hresolve =>
      rw [hiff _ _ hnew]
      simp [SameLineage, hprofile, hfound, hresolve]

/-! ### Invariants -/

/-- What every run of such steps maintains. -/
structure Inv (digest : String → String) (s : State) : Prop where
  ordered : WellOrdered s.tasks
  /-- Rows are in the past of the clock and of the id sequence. -/
  past : ∀ t ∈ s.tasks, t.createdAt ≤ s.clock ∧ t.id < s.nextId
  frozen : ∀ t ∈ s.tasks, ∃ key fp, key ≠ "" ∧ FrozenAs digest s.snapshots t key fp

theorem nonEmptyOr_ne_empty {x : Option String} {default : String} (h : default ≠ "") :
    nonEmptyOr x default ≠ "" := by
  unfold nonEmptyOr
  cases hx : x.filter (· != "") with
  | none => exact h
  | some y =>
    have := (filter_eq_some_iff.mp hx).2
    simpa using this

theorem sessionNamespaceFor_ne_empty (digest : String → String) (key : String)
    (fp : Option String) : sessionNamespaceFor digest key fp ≠ "" := by
  intro h
  have := congrArg String.length h
  simp [sessionNamespaceFor] at this

section Steps

variable {digest : String → String} {issueId : Nat} {s : State}

variable {snapshots : Nat → Option WorkerSnapshot} {fp : Option String} {key : String}
  {tasks' tasks : List Task} {source t : Task} {taskId : Nat} {s' : State}

theorem rows_of_ensure {ns : String → Option String → String}
    {tasks rows : List Task}
    {report : IntegrityReport} (hord : WellOrdered tasks)
    (h : ensureIssueOrderIntegrityLocked ns snapshots issueId true tasks = .ok (report, rows)) :
    tasks = rows := by
  rw [hord.ensureIssueOrderIntegrityLocked_eq] at h
  exact (Prod.mk.inj (Except.ok.inj h)).2

/-- Appending a Task whose columns are of the snapshot written for it keeps the
    invariant. -/
theorem Inv.append (h : Inv digest s) {new : Task} (hid : new.id = s.nextId)
    (hcreated : new.createdAt = s.clock)
    (hseq : new.issueSequence = some (s.tasks.length + 1))
    (hfull : hasFullProjection new = true) (hne : key ≠ "")
    (hkey : new.projectedHarnessKey = some key)
    (hspace : new.projectedSessionNamespace = some (sessionNamespaceFor digest key fp))
    (providerIds : Nat → Option Nat) (outputSessions : Nat → Option String) :
    Inv digest { s with
      tasks := s.tasks ++ [new], nextId := s.nextId + 1
      snapshots := setColumn s.snapshots s.nextId
        (some { harnessKey := some key, endpointFingerprint := fp })
      providerIds, outputSessions } := by
  refine ⟨h.ordered.append h.past hid hcreated hseq hfull, past_append h.past hid hcreated,
    forall_mem_append.mpr ⟨fun t ht => ?_, forall_mem_singleton.mpr ?_⟩⟩
  · obtain ⟨key', fp', hne', hsnap, hcolumns⟩ := h.frozen t ht
    have hold := (h.past t ht).2.ne
    exact ⟨key', fp', hne', by simp [setColumn, hold, hsnap], hcolumns⟩
  · exact ⟨key, fp, hne, by simp [setColumn, hid], hkey, hspace⟩

theorem Inv.create (h : Inv digest s) {request : CreateTaskRequest} {answers : CreateAnswers}
    {provider : Provider}
    (hok : createTaskRecord (sessionNamespaceFor digest) s.snapshots issueId s.nextId s.clock
      (appendRequest request (resolveHarnessKey request answers) provider) s.tasks = .ok tasks')
    (providerIds : Nat → Option Nat) (outputSessions : Nat → Option String) :
    Inv digest { s with
      tasks := tasks', nextId := s.nextId + 1
      snapshots := setColumn s.snapshots s.nextId
        (some { harnessKey := some (resolveHarnessKey request answers),
                endpointFingerprint := some provider.endpointFingerprint })
      providerIds, outputSessions } := by
  obtain ⟨report, rows, p, hensure, hp, rfl, hfull⟩ :=
    (ordered_of_wellOrdered h.ordered).create_spec hok
  obtain rfl := rows_of_ensure h.ordered hensure
  obtain ⟨hkey, hspace⟩ := projectTailLineage_lineage hp
  have hne : resolveHarnessKey request answers ≠ "" :=
    nonEmptyOr_ne_empty (nonEmptyOr_ne_empty (nonEmptyOr_ne_empty (by decide)))
  exact h.append rfl rfl rfl hfull hne (congrArg some hkey) (congrArg some hspace) providerIds
    outputSessions

theorem sourceProjection_frozen
    (snapshot : WorkerSnapshot) (hne : key ≠ "")
    (h : FrozenAs digest snapshots source key fp) :
    (sourceProjection (sessionNamespaceFor digest) source snapshot).1 = key ∧
      (sourceProjection (sessionNamespaceFor digest) source snapshot).2.1 =
        sessionNamespaceFor digest key fp := by
  have hspace := sessionNamespaceFor_ne_empty digest key fp
  simp [sourceProjection, h.2.1, h.2.2, Option.filter, hne, hspace]

/-- `retry_task_record` keeps the invariant: the snapshot is cloned, and the lineage
    projected, from one Task. -/
theorem Inv.retry (h : Inv digest s) {request : RetryRequest}
    (hsource : source ∈ s.tasks)
    (hok : retryTaskRecord (sessionNamespaceFor digest) s.snapshots issueId s.outputSessions
      s.nextId s.clock request source s.tasks = .ok tasks')
    (providerIds : Nat → Option Nat) (outputSessions : Nat → Option String) :
    Inv digest { s with
      tasks := tasks', nextId := s.nextId + 1
      snapshots := setColumn s.snapshots s.nextId (s.snapshots source.id)
      providerIds, outputSessions } := by
  obtain ⟨snapshot, report, rows, source', p, mode, -, hensure, hsource', hp, -, -, rfl, hfull⟩ :=
    (ordered_of_wellOrdered h.ordered).retry_spec hok
  obtain rfl := rows_of_ensure h.ordered hensure
  obtain rfl : source' = source := by
    rw [hsource']
    cases hfind : s.tasks.find? (·.id == source.id) with
    | none => rfl
    | some t =>
      have hid : t.id = source.id := by simpa using find?_some hfind
      exact h.ordered.eq_of_id (mem_of_find?_eq_some hfind) hsource hid
  obtain ⟨key, fp, hne, hfrozen⟩ := h.frozen source' hsource
  obtain ⟨hkey, hspace⟩ := projectTailLineage_lineage hp
  obtain ⟨hkey', hspace'⟩ := sourceProjection_frozen snapshot hne hfrozen
  rw [hfrozen.1]
  exact h.append rfl rfl rfl hfull hne (congrArg some (hkey.trans hkey'))
    (congrArg some (hspace.trans hspace')) providerIds outputSessions

/-- A write of columns that no lineage reads keeps the rows of the invariant. -/
theorem Inv.update_rows (h : Inv digest s) (taskId : Nat) (f : Task → Task)
    (hid : ∀ t, (f t).id = t.id) (hseq : ∀ t, (f t).issueSequence = t.issueSequence)
    (hcreated : ∀ t, (f t).createdAt = t.createdAt)
    (hproj : ∀ t, hasFullProjection (f t) = hasFullProjection t) :
    WellOrdered (updateTask taskId f s.tasks) ∧
      ∀ t ∈ updateTask taskId f s.tasks, t.createdAt ≤ s.clock ∧ t.id < s.nextId := by
  refine ⟨wellOrdered_update h.ordered hid hseq hcreated hproj, ?_⟩
  intro t' ht'
  obtain ⟨t, ht, rfl⟩ := mem_updateTask.mp ht'
  have := h.past t ht
  split
  · rwa [hid, hcreated]
  · exact this

theorem task?_eq_some
    (h : task? tasks taskId = some t) : t ∈ tasks ∧ t.id = taskId :=
  ⟨mem_of_find?_eq_some h, by simpa using find?_some h⟩

/-- What a successful edit does: it is of a Task that has not started, its snapshot is
    frozen again, and the Task keeps its projected columns. -/
theorem update_step {request : UpdateTaskRequest} {answers : UpdateAnswers}
    (hstep : (issueEdits digest issueId).next s (.update taskId request answers) =
      some s') :
    ∃ (t : Task) (e : Edit), task? s.tasks taskId = some t ∧ editable t.status = true ∧
      Refrozen answers request (s.providerIds taskId) (s.snapshots taskId) e.snapshot ∧
      s' = { s with
        tasks := updateTask taskId ({ · with priority := e.task.priority }) s.tasks
        snapshots := setColumn s.snapshots taskId e.snapshot
        providerIds := setColumn s.providerIds taskId e.providerId } := by
  simp only [issueEdits] at hstep
  obtain ⟨t, ht, hstep⟩ := bind_eq_some_iff.mp hstep
  split at hstep
  · cases hstep
  next e hok =>
  cases hstep
  obtain ⟨hstatus, hrefrozen⟩ := updateTaskRecord_spec hok
  simp only [editOf, (task?_eq_some ht).2] at hrefrozen
  exact ⟨t, e, ht, hstatus, hrefrozen, rfl⟩

/-- The edited Task matches its new snapshot exactly if the edit asked for the frozen
    harness and namespace. -/
theorem Inv.matches_update_iff (h : Inv digest s) {request : UpdateTaskRequest}
    {answers : UpdateAnswers} {new : Option WorkerSnapshot} (priority : Int)
    (ht : t ∈ s.tasks) (hid : t.id = taskId)
    (hrefrozen : Refrozen answers request (s.providerIds taskId) (s.snapshots taskId) new) :
    Matches digest (setColumn s.snapshots taskId new) { t with priority } ↔
      KeepsLineage digest s (.update taskId request answers) := by
  obtain ⟨key, fp, hne, hfrozen⟩ := h.frozen t ht
  have hfrozen' : FrozenAs digest s.snapshots { t with priority } key fp := hfrozen
  have hnew : setColumn s.snapshots taskId new taskId = new := by simp [setColumn]
  subst hid
  rw [matches_refrozen_iff hfrozen' (by rw [hnew]; exact hrefrozen)]
  constructor
  · intro hsame key' fp' hsnap
    rw [hfrozen.1, Option.some.injEq, WorkerSnapshot.mk.injEq, Option.some.injEq] at hsnap
    obtain ⟨rfl, rfl⟩ := hsnap
    exact hsame
  · intro hkeeps
    exact hkeeps key fp hfrozen.1

theorem Inv.update (h : Inv digest s) {request : UpdateTaskRequest}
    {answers : UpdateAnswers}
    (hkeeps : KeepsLineage digest s (.update taskId request answers))
    (hstep : (issueEdits digest issueId).next s (.update taskId request answers) = some s') :
    Inv digest s' := by
  obtain ⟨t, e, ht, -, hrefrozen, rfl⟩ := update_step hstep
  obtain ⟨hmem, hid⟩ := task?_eq_some ht
  obtain ⟨hord, hpast⟩ := h.update_rows taskId
    ({ · with priority := e.task.priority }) (fun _ => rfl) (fun _ => rfl)
    (fun _ => rfl) (fun _ => rfl)
  refine ⟨hord, hpast, ?_⟩
  intro t' ht'
  obtain ⟨u, hu, rfl⟩ := mem_updateTask.mp ht'
  obtain ⟨key, fp, hne, hfrozen⟩ := h.frozen u hu
  by_cases huid : u.id = taskId
  · rw [if_pos huid]
    obtain ⟨key', fp', hfrozen'⟩ :=
      (h.matches_update_iff e.task.priority hu huid hrefrozen).mpr hkeeps
    -- the projected harness key is untouched, so it is still the frozen one
    obtain rfl : key = key' := some.inj (hfrozen.2.1.symm.trans hfrozen'.2.1)
    exact ⟨key, fp', hne, hfrozen'⟩
  · rw [if_neg huid]
    exact ⟨key, fp, hne, by simp [setColumn, huid, hfrozen.1], hfrozen.2⟩

/-- An edit that keeps the lineage keeps the invariant. -/
theorem Inv.step (h : Inv digest s) {l : Label} (hkeeps : KeepsLineage digest s l)
    (hstep : (issueEdits digest issueId).next s l = some s') : Inv digest s' := by
  cases l with
  | create request answers =>
    simp only [issueEdits] at hstep
    split at hstep
    · cases hstep
    · split at hstep
      · cases hstep
      · next tasks' hok =>
        cases hstep
        exact h.create hok _ _
  | retry request =>
    simp only [issueEdits] at hstep
    obtain ⟨source, hsource, hstep⟩ := bind_eq_some_iff.mp hstep
    split at hstep
    · split at hstep
      · cases hstep
      · next tasks' hok =>
        cases hstep
        exact h.retry (task?_eq_some hsource).1 hok _ _
    · cases hstep
  | update taskId request answers => exact h.update hkeeps hstep
  | setStatus taskId status =>
    cases hstep
    obtain ⟨hord, hpast⟩ := h.update_rows taskId ({ · with status })
      (fun _ => rfl) (fun _ => rfl) (fun _ => rfl) (fun _ => rfl)
    refine ⟨hord, hpast, ?_⟩
    intro t' ht'
    obtain ⟨t, ht, rfl⟩ := mem_updateTask.mp ht'
    obtain ⟨key, fp, hne, hfrozen⟩ := h.frozen t ht
    refine ⟨key, fp, hne, ?_⟩
    split
    · exact hfrozen
    · exact hfrozen
  | setOutput taskId sessionId =>
    cases hstep
    exact ⟨h.ordered, h.past, h.frozen⟩
  | elapse microseconds ids =>
    cases hstep
    refine ⟨h.ordered, ?_, h.frozen⟩
    intro t ht
    have := h.past t ht
    exact ⟨Int.le_trans this.1 (Int.le_add_of_nonneg_right (Int.natCast_nonneg _)),
      by simp only; omega⟩

end Steps

/-! ### The Frozen Lineage Matches the Frozen Snapshot -/

/-- **Frozen lineage**: in every run of creations, retries, status changes and edits that
    ask for no other harness or session namespace, the projected lineage of every Task is
    the one of its snapshot. The condition is exact: after an accepted edit that does not
    meet it, the edited Task, which has not started, no longer matches. -/
theorem frozen_lineage_matches (digest : String → String) (issueId : Nat) {s : State}
    (h : (issueEdits digest issueId).Reachable (KeepsLineage digest) s) :
    (∀ t ∈ s.tasks, Matches digest s.snapshots t) ∧
    ∀ taskId request answers s',
      (issueEdits digest issueId).next s (.update taskId request answers) = some s' →
      ¬ KeepsLineage digest s (.update taskId request answers) →
      ∃ t ∈ s'.tasks, t.id = taskId ∧ editable t.status = true ∧
        ¬ Matches digest s'.snapshots t := by
  have hinv : Inv digest s := by
    refine h.invariant (P := Inv digest) ?_ (fun s l s' hs hg hstep => hs.step hg hstep)
    intro s hs
    have hs' : s.tasks = [] := hs
    refine ⟨⟨?_, ?_, ?_, ?_⟩, ?_, ?_⟩ <;> simp [hs', SequencedFrom]
  refine ⟨?_, ?_⟩
  · intro t ht
    obtain ⟨key, fp, -, hfrozen⟩ := hinv.frozen t ht
    exact ⟨key, fp, hfrozen⟩
  · intro taskId request answers s' hstep hnot
    obtain ⟨t, e, ht, hstatus, hrefrozen, rfl⟩ := update_step hstep
    obtain ⟨hmem, hid⟩ := task?_eq_some ht
    refine ⟨{ t with priority := e.task.priority }, ?_, hid, hstatus, ?_⟩
    · exact mem_updateTask.mpr ⟨t, hmem, by rw [if_pos hid]⟩
    · rw [hinv.matches_update_iff _ hmem hid hrefrozen]
      exact hnot

/-- The providers of the two runs below: provider 2 has another endpoint. -/
def twoProviders (id : Option Nat) : Except String Provider :=
  .ok (if id = some 2 then { id := 2, endpointFingerprint := "fp-2" }
    else { id := 1, endpointFingerprint := "fp-1" })

/-- The creation of one Task with provider 1. -/
def createFirst : Label :=
  .create { harnessKey := some "claude" } { provider := twoProviders (some 1) }

/-- A creation, an edit that names the provider already frozen, a cancellation and a
    retry. -/
theorem frozen_lineage_matches_same_provider :
    ∃ s, (issueEdits sampleDigest 7).Reachable (KeepsLineage sampleDigest) s ∧
      s.tasks.length = 2 ∧ ∀ t ∈ s.tasks, Matches sampleDigest s.snapshots t := by
  have hrun : ∃ s, (issueEdits sampleDigest 7).Run (KeepsLineage sampleDigest) {} s ∧
      s.tasks.length = 2 := by
    refine ⟨_, .step (.step (.step (.step (.refl _) ?_ (l := createFirst) rfl) ?_
      (l := .update 1 { providerId := some (some 1), priority := some (some 2) }
        { resolveProvider := twoProviders }) rfl) ?_ (l := .setStatus 1 .cancelled) rfl)
      ?_ (l := .retry { sourceId := 1 }) rfl, rfl⟩
    · trivial
    · intro key fp hsnap provider hresolve
      simp only [setColumn, if_true, Option.some.injEq, WorkerSnapshot.mk.injEq] at hsnap
      obtain ⟨-, rfl⟩ := hsnap
      cases hresolve
      rfl
    · trivial
    · trivial
  obtain ⟨s, hrun, hlength⟩ := hrun
  have hreach : (issueEdits sampleDigest 7).Reachable (KeepsLineage sampleDigest) s :=
    ⟨{}, rfl, hrun⟩
  exact ⟨s, hreach, hlength, (frozen_lineage_matches sampleDigest 7 hreach).1⟩

/-- A `PATCH` of `provider_id` is accepted, freezes the endpoint of the other provider and
    leaves the namespace of the first one projected. -/
theorem provider_edit_drifts :
    ∃ s, (issueEdits sampleDigest 7).Reachable System.anyStep s ∧
      ∃ t ∈ s.tasks, t.status = .pending ∧
        s.snapshots t.id =
          some { harnessKey := some "claude", endpointFingerprint := some "fp-2" } ∧
        t.projectedSessionNamespace =
          some (sessionNamespaceFor sampleDigest "claude" (some "fp-1")) ∧
        ¬ Matches sampleDigest s.snapshots t := by
  have hreach := System.reachable_of_exec (s := ({} : State)) rfl
    (show (issueEdits sampleDigest 7).exec {} [createFirst,
      .update 1 { providerId := some (some 2) } { resolveProvider := twoProviders }] = some _ from rfl)
  refine ⟨_, hreach, _, mem_cons_self, rfl, rfl, rfl, ?_⟩
  rintro ⟨key, fp, hsnap', -, hspace'⟩
  cases hsnap'
  revert hspace'
  decide

end Codify.Api.TaskUpdate
