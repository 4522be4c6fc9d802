import Codify.Api.TaskContract
import Codify.Framework.System

/-! # Requests That Write the Frozen Contract

    `create_task_record` and `retry_task_record` (app/api/task_creation_service.py),
    `update_task_record` (app/api/task_update_service.py) and the creation of a CI
    repair task (app/core/ci_failure_collector.py). A request is one step: it reads
    the Profile, the Provider, the Skills and the source tree as they are at that
    time, and commits all of its rows or none.

    Creation builds the snapshot, binds a Bundle, freezes the Bundle's facts into
    the snapshot and checks the contract. A retry clones the snapshot and binds the
    Bundle of its source. An edit that names a Worker builds a new snapshot, and a
    CI repair binds a Bundle; neither freezes the Bundle's facts.
-/

namespace Codify.Api.TaskContract

open Codify.Framework

/-! ### Requests -/

/-- A creation, with what it reads. -/
structure CreateRequest where
  taskId : Nat
  issueId : Nat
  userPrompt : String
  taskMode : String
  requireChanges : Bool
  runInstructionTemplate : Option String
  profile : ProfileView
  harnessKey : String
  providerId : Nat
  endpoint : ModelEndpoint
  /-- The validated overrides of the request. -/
  harnessOptions : JsonObject
  skills : List SkillReference
  skillSource : String
  source : Source
  bundleId : Nat

/-- A retry of a Task. -/
structure RetryRequest where
  taskId : Nat
  sourceTaskId : Nat

/-- The `worker_profile_id` part of an edit: the Profile, and the Provider and the Skills that
    are resolved again. -/
structure WorkerEdit where
  profile : ProfileView
  providerId : Nat
  endpoint : ModelEndpoint
  skills : List SkillReference
  skillSource : String

/-- An edit; an absent field is not among the request's set fields. -/
structure UpdateRequest where
  taskId : Nat
  userPrompt : Option String := none
  provider : Option (Nat × ModelEndpoint) := none
  worker : Option WorkerEdit := none
  /-- The validated overrides of the request. -/
  harnessOptions : Option JsonObject := none
  requireChanges : Option Bool := none
  taskMode : Option String := none
  runInstructionTemplate : Option String := none
  /-- The Skills, and the source of the selection. -/
  skills : Option (List SkillReference × String) := none

/-- The creation of a CI repair task. -/
structure RepairRequest where
  taskId : Nat
  issueId : Nat
  profile : ProfileView
  providerId : Nat
  endpoint : ModelEndpoint
  skills : List SkillReference
  runInstructionTemplate : String
  source : Source
  bundleId : Nat

/-! ### State -/

structure State where
  issues : List Issue
  tasks : List Task
  bundles : List Bundle

/-- One step. `progress` is the scheduler or a worker moving a Task on. -/
inductive Label where
  | create (request : CreateRequest)
  | retry (request : RetryRequest)
  | update (request : UpdateRequest)
  | repair (request : RepairRequest)
  | progress (taskId : Nat) (status : TaskStatus)

variable (env : Env) (bundles : List Bundle)

def boundBundle (task : Task) : Option Bundle :=
  task.runtimeBundleId.bind fun id => Table.row? Bundle.id id bundles

def isNew {α : Type} (key : α → Nat) (id : Nat) (rows : List α) : Bool :=
  (Table.row? key id rows).isNone

/-- `require_task_executable_contract` accepts. -/
def executable (taskId : Nat) (snapshot : Option Snapshot) (bundle : Option Bundle) : Bool :=
  (requireTaskExecutableContract env taskId snapshot bundle).isOk

/-! ### Binding -/

/-- `bind_runtime_bundle` of a new Task, from its snapshot; `none` is a `RuntimeError`. -/
def bindRuntimeBundle (profile : ProfileView) (harnessKey : String) (source : Source) (newId : Nat)
    : Option (List Bundle × Bundle) :=
  if (source.adapters.get harnessKey).asObject.isNone ∨ harnessKey = "" ∨
      isNew Bundle.id newId bundles = false then none
  else
    getOrCreateRuntimeBundleV2 env bundles source newId profile.imageIdentity profile.evidence
      profile.kitIdentity

/-- `bind_runtime_bundle` of a retry. -/
def bindSourceBundle (sourceTask : Task) : Option Bundle :=
  (boundBundle bundles sourceTask).filter (·.contractVersion = harnessContractVersionV2)

/-! ### Creation -/

/-- The snapshot of `prepare_task_runtime_snapshot`. -/
def prepareTaskRuntimeSnapshot (profile : ProfileView) (harnessKey : String)
    (endpoint : ModelEndpoint) (overrides : JsonObject) (skills : List SkillReference)
    (skillSource : String) : Snapshot :=
  attachSkills env skills skillSource (snapshotFromProfile env profile harnessKey endpoint overrides)

/-- `resolve_worker_profile_for_issue`: the Profile is the one the Issue names. -/
def isIssueWorker (issues : List Issue) (issueId : Nat) (profile : ProfileView) : Bool :=
  match Table.row? Issue.id issueId issues with
  | none => false
  | some issue => issue.workerProfileId = some profile.id

variable (bundle : Option Bundle) (s : State)

/-- `create_task_record`. -/
def createTaskRecord (r : CreateRequest) : Option State :=
  if isNew Task.id r.taskId s.tasks = false ∨ isIssueWorker s.issues r.issueId r.profile = false ∨
      ensureHarnessProtocolCompatibility r.harnessKey r.endpoint none = false then none
  else do
    let (bundles, bundle) ←
      bindRuntimeBundle env s.bundles r.profile r.harnessKey r.source r.bundleId
    let snapshot := freezeBundleFacts bundle r.harnessKey
      (prepareTaskRuntimeSnapshot env r.profile r.harnessKey r.endpoint r.harnessOptions r.skills
        r.skillSource)
    if executable env r.taskId (some snapshot) (some bundle) then
      let task : Task :=
        { id := r.taskId
          issueId := r.issueId
          status := .pending
          userPrompt := r.userPrompt
          taskMode := r.taskMode
          requireChanges := r.requireChanges
          runInstructionTemplate := r.runInstructionTemplate
          providerId := some r.providerId
          workerProfileId := some r.profile.id
          runtimeBundleId := some bundle.id
          snapshot := some snapshot }
      some { s with tasks := s.tasks ++ [task], bundles := bundles }
    else none

/-- The creation of a CI repair task in `process_ci_failure_run`. -/
def createRepairTask (r : RepairRequest) : Option State :=
  if isNew Task.id r.taskId s.tasks = false ∨ isIssueWorker s.issues r.issueId r.profile = false ∨
      ensureHarnessProtocolCompatibility r.profile.defaultHarnessKey r.endpoint none = false then
    none
  else do
    let snapshot := prepareTaskRuntimeSnapshot env r.profile r.profile.defaultHarnessKey r.endpoint
      [] r.skills "profile"
    let (bundles, bundle) ←
      bindRuntimeBundle env s.bundles r.profile r.profile.defaultHarnessKey r.source r.bundleId
    let task : Task :=
      { id := r.taskId
        issueId := r.issueId
        status := .pending
        userPrompt := "修复当前 MR 的 CI 失败"
        taskMode := "execute"
        requireChanges := true
        runInstructionTemplate := some r.runInstructionTemplate
        providerId := some r.providerId
        workerProfileId := some r.profile.id
        runtimeBundleId := some bundle.id
        snapshot := some snapshot }
    some { s with tasks := s.tasks ++ [task], bundles := bundles }

/-! ### Retry -/

/-- `clone_task_worker_snapshot`. -/
def cloneTaskWorkerSnapshot (source : Snapshot) : Snapshot :=
  { workerProfileId := source.workerProfileId
    effective := source.effective
    harnessKey := source.harnessKey
    harnessConfigSnapshot := source.harnessConfigSnapshot
    modelEndpointSnapshot := source.modelEndpointSnapshot
    credentialRef := source.credentialRef
    skillReferences := source.skillReferences
    skillSelectionSource := source.skillSelectionSource
    effectiveConfigurationDigest := source.effectiveConfigurationDigest
    harnessAdapterVersion := source.harnessAdapterVersion
    harnessAdapterDigest := source.harnessAdapterDigest
    runtimeContractVersion := source.runtimeContractVersion
    orchestrationVersion := source.orchestrationVersion
    runtimeBundleDigest := source.runtimeBundleDigest }

/-- The Task a retry creates from its source. -/
def retryOf (taskId : Nat) (original : Task) (snapshot : Snapshot) (bundle : Bundle) : Task :=
  { id := taskId
    issueId := original.issueId
    status := .pending
    userPrompt := original.userPrompt
    taskMode := original.taskMode
    requireChanges := if original.taskMode = "freeform" then false else original.requireChanges
    runInstructionTemplate := original.runInstructionTemplate
    providerId := original.providerId
    workerProfileId := snapshot.workerProfileId
    runtimeBundleId := some bundle.id
    snapshot := some (cloneTaskWorkerSnapshot snapshot) }

/-- `retry_task_record`. -/
def retryTaskRecord (r : RetryRequest) : Option State := do
  let original ← Table.row? Task.id r.sourceTaskId s.tasks
  let snapshot ← original.snapshot
  let bundle ← bindSourceBundle s.bundles original
  if (original.status = .failed ∨ original.status = .cancelled) ∧
      executable env original.id original.snapshot (boundBundle s.bundles original) ∧
      isNew Task.id r.taskId s.tasks then
    some { s with tasks := s.tasks ++ [retryOf r.taskId original snapshot bundle] }
  else none

/-! ### Edits -/

/-- The `provider_id` part. -/
def editProvider (edit : Nat × ModelEndpoint) (task : Task) : Option Task := do
  let snapshot ← task.snapshot
  let harnessKey := if snapshot.harnessKey.getD "" = "" then "claude" else snapshot.harnessKey.getD ""
  if ensureHarnessProtocolCompatibility harnessKey edit.2 bundle then
    some
      { task with
        providerId := some edit.1
        snapshot := some
          { snapshot with
            modelEndpointSnapshot := some edit.2.asSnapshot
            credentialRef := edit.2.credentialRef } }
  else none

/-- The `worker_profile_id` part: `replace_task_worker_snapshot` and the Skills. -/
def editWorker (overrides : JsonObject) (edit : WorkerEdit) (task : Task) : Option Task :=
  if task.snapshot.isSome ∧
      ensureHarnessProtocolCompatibility edit.profile.defaultHarnessKey edit.endpoint bundle then
    some
      { task with
        providerId := some edit.providerId
        workerProfileId := some edit.profile.id
        snapshot := some (attachSkills env edit.skills edit.skillSource
          (snapshotFromProfile env edit.profile edit.profile.defaultHarnessKey edit.endpoint
            overrides)) }
  else none

/-- The `harness_options` part. -/
def editHarnessOptions (overrides : JsonObject) (task : Task) : Option Task := do
  let snapshot ← task.snapshot
  let edited ← applyTaskHarnessOptions env overrides snapshot
  some { task with snapshot := some edited }

/-- The `skill_ids` part. -/
def editSkills (edit : List SkillReference × String) (task : Task) : Option Task := do
  let snapshot ← task.snapshot
  some { task with snapshot := some (attachSkills env edit.1 edit.2 snapshot) }

/-- The prompt and the mode; plan and freeform Tasks require no changes. -/
def editPrompt (r : UpdateRequest) (task : Task) : Option Task :=
  if r.userPrompt.any (blank ·) then none
  else
    let mode := r.taskMode.getD task.taskMode
    some
      { task with
        userPrompt := (r.userPrompt.map strip).getD task.userPrompt
        taskMode := mode
        requireChanges :=
          if mode = "plan" ∨ mode = "freeform" then false
          else r.requireChanges.getD task.requireChanges
        runInstructionTemplate := r.runInstructionTemplate <|> task.runInstructionTemplate }

/-- An edit that is made only where the request sets the field. -/
def editIf {α : Type} (value : Option α) (edit : α → Task → Option Task) (task : Task) :
    Option Task :=
  match value with
  | none => some task
  | some value => edit value task

/-- The edits of `update_task_record`, in order. -/
def editTask (r : UpdateRequest) (task : Task) : Option Task := do
  let task ← editPrompt r task
  let task ← editIf r.provider (editProvider bundle) task
  let task ← editIf r.worker (editWorker env bundle (r.harnessOptions.getD [])) task
  let task ← editIf r.harnessOptions (editHarnessOptions env) task
  editIf r.skills (editSkills env) task

/-- `update_task_record`. -/
def updateTaskRecord (r : UpdateRequest) : Option State := do
  let task ← Table.row? Task.id r.taskId s.tasks
  let bundle := boundBundle s.bundles task
  if (task.status = .pending ∨ task.status = .queued) ∧
      executable env task.id task.snapshot bundle then
    let edited ← editTask env bundle r task
    some { s with tasks := Table.update Task.id r.taskId (fun _ => edited) s.tasks }
  else none

/-! ### System -/

/-- One request, or a step of the scheduler or a worker. -/
def step : Label → Option State
  | .create r => createTaskRecord env s r
  | .retry r => retryTaskRecord env s r
  | .update r => updateTaskRecord env s r
  | .repair r => createRepairTask env s r
  | .progress taskId status =>
    some { s with tasks := Table.update Task.id taskId (fun task => { task with status := status }) s.tasks }

/-- The Task is bound to a Bundle of the V2 contract. -/
def IsV2 (task : Task) : Prop :=
  ∃ bundle, boundBundle s.bundles task = some bundle ∧
    bundle.contractVersion = harnessContractVersionV2

/-- The text that the digest of the Bundle of a new Task is taken of. -/
def CreateRequest.hashedText (r : CreateRequest) : List Char :=
  bundleText env r.source.filesDigest r.profile.imageIdentity r.profile.evidence
    r.profile.kitIdentity

/-- A V2 Bundle row is addressed by what its manifest holds; the hashed text is one of those under
    consideration. -/
def Addressed (texts : Set (List Char)) (bundle : Bundle) : Prop :=
  ∃ filesDigest image evidence kit, bundleText env filesDigest image evidence kit ∈ texts ∧
    bundle.digest = v2BundleDigest env filesDigest image evidence kit ∧
      bundle.manifest.get "harness_verification_evidence" = .obj evidence ∧
      JsonText.keysUnique (.obj image) = true ∧ JsonText.keysUnique (.obj evidence) = true ∧
      JsonText.keysUnique (.obj kit) = true

/-- Historical rows: their Tasks are of the older contract. -/
structure Historical (env : Env) (texts : Set (List Char)) (s : State) : Prop where
  taskIds : Table.KeyUnique Task.id s.tasks
  bundleIds : Table.KeyUnique Bundle.id s.bundles
  bundles : ∀ bundle ∈ s.bundles, bundle.contractVersion = harnessContractVersionV2 →
    Addressed env texts bundle
  bound : ∀ task ∈ s.tasks, task.runtimeBundleId = none ∨ (boundBundle s.bundles task).isSome
  tasks : ∀ task ∈ s.tasks, ¬ IsV2 s task

def writers (texts : Set (List Char)) : System State Label where
  init := Historical env texts
  next := step env

end Codify.Api.TaskContract
