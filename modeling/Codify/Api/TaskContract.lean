import Codify.Framework.JsonEquality
import Codify.Framework.JsonRoundTrip
import Codify.Framework.Table
import Codify.Models

/-! # The Frozen Contract of a Task

    A Task carries a Worker snapshot and is bound to a Runtime Bundle, and
    `require_task_executable_contract` (app/core/harness_execution_policy.py) decides
    at every writer boundary and at every claim whether the two still belong
    together.

    * **Rows**: Issue, Task with its snapshot, Runtime Bundle.
    * **Endpoints**: the protocols a Bundle declares, against the protocol an
      endpoint speaks.
    * **Snapshots**: what `snapshot_from_profile` freezes, and the digest of it.
    * **Bundles**: a Bundle is addressed by the digest of its files, identities and
      verification evidence.
-/

namespace Codify.Api.TaskContract

open Codify.Framework Codify.Framework.JsonText

/-! ### Rows -/

/-- The columns of a snapshot that `resolve_effective_configuration` and the Docker target
    fill. -/
structure Effective where
  image : String
  runtimeMode : String
  workerKitVersion : Option String := none
  workerKitPath : Option String := none
  volumeMounts : List Json := []
  environmentVariables : List Json := []
  preScript : String := ""
  postScript : String := ""
  defaultExecuteRunInstructionTemplate : String := ""
  defaultPlanRunInstructionTemplate : String := ""
  ciAutoRepairRunInstructionTemplate : String := ""
  dockerHost : Option String := none
  codegraphEnabled : Bool := false

/-- A row of `task_skill_version_references`, in the order of its position. -/
structure SkillReference where
  skillId : Option Int
  skillVersionId : Int
  deriving DecidableEq

/-- A row of `task_worker_profile_snapshots`. -/
structure Snapshot where
  workerProfileId : Option Nat
  effective : Effective
  harnessKey : Option String
  harnessConfigSnapshot : Option JsonObject
  modelEndpointSnapshot : Option JsonObject
  credentialRef : Option String
  skillReferences : List SkillReference := []
  skillSelectionSource : String := "profile"
  effectiveConfigurationDigest : Option String := none
  harnessAdapterVersion : Json := .null
  harnessAdapterDigest : Json := .null
  runtimeContractVersion : Option String := none
  orchestrationVersion : Option String := none
  runtimeBundleDigest : Option String := none

/-- A row of `worker_runtime_bundles`. -/
structure Bundle where
  id : Nat
  digest : String
  contractVersion : String
  orchestrationVersion : String
  manifest : JsonObject

/-- A row of `issues`. -/
structure Issue where
  id : Nat
  workerProfileId : Option Nat

/-- A row of `tasks`, with its snapshot. -/
structure Task where
  id : Nat
  issueId : Nat
  status : TaskStatus
  userPrompt : String
  taskMode : String
  requireChanges : Bool
  runInstructionTemplate : Option String
  providerId : Option Nat
  workerProfileId : Option Nat
  runtimeBundleId : Option Nat
  snapshot : Option Snapshot

/-- The settings, and what the code takes from the Python library. -/
structure Env where
  /-- `harness_execution_mode`. -/
  mode : String
  floats : FloatText
  /-- `sha256(text.encode()).hexdigest()`. -/
  sha256 : List Char → String
  /-- `repr` of a text or of `None`. -/
  repr : Option String → String
  /-- `compute_effective_configuration_digest`, by the fields it is called with. -/
  effectiveDigest : Effective → String → JsonObject → List SkillReference → String

/-! ### Constants -/

def harnessContractVersionV2 : String := "codify.worker.harness/v2"

def orchestrationVersion : String := "1.0.0"

def harnessKeys : List String := ["pi", "opencode", "claude", "codex"]

def modelProtocols : List String :=
  ["anthropic_messages", "openai_responses", "openai_chat_completions"]

/-- `HARNESS_PROVIDER_PROTOCOLS`. -/
def harnessProviderProtocols (harnessKey : String) : List String :=
  if harnessKey = "claude" then ["anthropic_messages"]
  else if harnessKey = "codex" then ["openai_responses"]
  else modelProtocols

/-! ### Declared Protocols -/

/-- `text.replace("-", "_")`. -/
def dashToUnderscore (text : String) : String :=
  String.ofList (text.toList.map fun c => if c = '-' then '_' else c)

/-- `dict(value or {})` of a value that is read with `.get`. -/
def dictOr (value : Json) : JsonObject := value.asObject.getD []

/-- One entry of the protocols of an adapter. -/
def declaredProtocol (protocol : Json) : Option String :=
  match protocol.asString with
  | none => none
  | some text =>
    if blank text then none
    else if dashToUnderscore text ∈ modelProtocols then some (dashToUnderscore text)
    else none

/-- `adapter.get("model_protocols")`, in the older spelling where it is missing. -/
def adapterProtocols (adapter : JsonObject) : Json :=
  if (adapter.get "model_protocols").isNull then adapter.get "provider_protocols"
  else adapter.get "model_protocols"

variable (env : Env) (taskId : Nat) (snapshot : Snapshot) (bundle : Bundle)

/-- `runtime_bundle_model_protocols`; `none` is a `HarnessRegistryError`. -/
def runtimeBundleModelProtocols (harnessKey : String) : Option (List String) :=
  if harnessKey ∉ harnessKeys then none
  else
    match (bundle.manifest.get "adapters").asObject with
    | none => none
    | some adapters =>
      match (adapters.get harnessKey).asObject with
      | none => none
      | some adapter =>
        match (adapterProtocols adapter).asList with
        | none | some [] => none
        | some protocols => do
          let declared ← protocols.mapM declaredProtocol
          if declared.all (harnessProviderProtocols harnessKey).contains then some declared else none

/-! ### Executable Contract -/

/-- `ExecutionPolicyError`. -/
structure PolicyError where
  message : String
  code : String

/-- `raise` unless the condition holds. -/
def check (condition : Prop) [Decidable condition] (error : PolicyError) :
    Except PolicyError Unit :=
  if condition then .ok () else .error error

def contractMismatch (message : String) : PolicyError :=
  { message := message, code := "execution_contract_mismatch" }

/-- `validate_harness_execution_mode`. -/
def validateHarnessExecutionMode (mode : String) : Except PolicyError Unit :=
  check (mode = "v2_only")
    { message := s!"HARNESS_EXECUTION_MODE must be one of ['v2_only']; got {mode}"
      code := "invalid_harness_execution_mode" }

/-- `require_executable_contract`. -/
def requireExecutableContract (bundle : Option Bundle) : Except PolicyError Unit :=
  let version := bundle.map (·.contractVersion)
  let shown := env.repr version
  check (version = some harnessContractVersionV2)
    { message :=
        s!"Runtime Bundle has no executable canonical contract (contract_version={shown})"
      code :=
        if version = some "codify.worker.harness/v1" then "legacy_contract_not_executable"
        else "missing_executable_contract" }

/-- The protocol of a frozen endpoint, in the older spelling where it is missing. -/
def endpointProtocol (endpoint : JsonObject) : Json :=
  if (endpoint.get "model_protocol").isNull then endpoint.get "wire_protocol"
  else endpoint.get "model_protocol"

/-- The part of `require_task_executable_contract` on the frozen endpoint. -/
def requireDeclaredEndpoint (harnessKey : String) (endpoint : JsonObject) :
    Except PolicyError Unit :=
  match (endpointProtocol endpoint).asString with
  | none => .error (contractMismatch s!"task {taskId} has an invalid model endpoint snapshot")
  | some protocol => do
    check (protocol ≠ "")
      (contractMismatch s!"task {taskId} has an invalid model endpoint snapshot")
    match runtimeBundleModelProtocols bundle harnessKey with
    | none =>
      .error (contractMismatch
        s!"task {taskId} has an invalid frozen Bundle protocol declaration")
    | some declared =>
      check (dashToUnderscore protocol ∈ declared)
        (contractMismatch
          s!"task {taskId} endpoint protocol is not declared by its frozen Bundle")

/-- The part of `require_task_executable_contract` on a snapshot and a Bundle. -/
def requireFrozenIdentity : Except PolicyError Unit := do
  let snapshotShown := env.repr snapshot.runtimeContractVersion
  let bundleShown := env.repr (some bundle.contractVersion)
  check (snapshot.runtimeContractVersion = some bundle.contractVersion)
    (contractMismatch
      s!"task {taskId} snapshot/Bundle contract mismatch (snapshot={snapshotShown}, bundle={bundleShown})")
  check (bundle.digest ≠ "" ∧ snapshot.runtimeBundleDigest = some bundle.digest)
    (contractMismatch s!"task {taskId} snapshot/Bundle digest mismatch")
  let harnessKey := snapshot.harnessKey.getD ""
  check (harnessKey ≠ "" ∧ (dictOr (bundle.manifest.get "adapters")).has harnessKey = true)
    (contractMismatch s!"task {taskId} freezes an Adapter not present in its Bundle")
  match snapshot.modelEndpointSnapshot with
  | none => .ok ()
  | some endpoint => requireDeclaredEndpoint taskId bundle harnessKey endpoint

/-- `require_task_executable_contract` without an attempt. -/
def requireTaskExecutableContract (snapshot : Option Snapshot) (bundle : Option Bundle) : Except
    PolicyError Unit := do
  validateHarnessExecutionMode env.mode
  requireExecutableContract env bundle
  match snapshot, bundle with
  | some snapshot, some bundle => requireFrozenIdentity env taskId snapshot bundle
  | _, _ =>
    .error
      { message := s!"task {taskId} has no immutable Worker snapshot"
        code := "missing_execution_snapshot" }

/-! ### Endpoints -/

/-- `ModelEndpoint`, with its fingerprint. -/
structure ModelEndpoint where
  id : Option Nat
  name : String
  baseUrl : String
  model : String
  providerKind : String
  modelProtocol : String
  compatProfile : Option String := none
  providerOptions : JsonObject := []
  credentialRef : Option String := none
  maxTurns : Option Int := none
  systemPrompt : Option String := none
  fingerprint : String

/-- A text, or `null`. -/
def optionalText : Option String → Json
  | none => .null
  | some text => .str text

/-- `ModelEndpoint.as_snapshot`. -/
def ModelEndpoint.asSnapshot (endpoint : ModelEndpoint) : JsonObject :=
  [("id", endpoint.id.elim .null fun id => .int id),
    ("name", .str endpoint.name),
    ("base_url", .str endpoint.baseUrl),
    ("model", .str endpoint.model),
    ("provider_kind", .str endpoint.providerKind),
    ("model_protocol", .str endpoint.modelProtocol),
    ("compat_profile", optionalText endpoint.compatProfile),
    ("provider_options", .obj endpoint.providerOptions),
    ("credential_ref", optionalText endpoint.credentialRef),
    ("max_turns", endpoint.maxTurns.elim .null .int),
    ("system_prompt", optionalText endpoint.systemPrompt),
    ("fingerprint", .str endpoint.fingerprint)]

/-- `ensure_harness_protocol_compatibility`: by the Bundle, or by the upper bound without one. -/
def ensureHarnessProtocolCompatibility (harnessKey : String) (endpoint : ModelEndpoint)
    (bundle : Option Bundle) : Bool :=
  let allowed := match bundle with
    | some bundle => runtimeBundleModelProtocols bundle harnessKey
    | none => some (harnessProviderProtocols harnessKey)
  harnessKeys.contains harnessKey && allowed.any (·.contains endpoint.modelProtocol)

/-! ### Snapshots -/

/-- `deep_merge_options`. -/
def deepMergeOptions (profile overrides : JsonObject) : JsonObject :=
  let namespaces := (profile.keys ++ overrides.keys).dedup
  let merged : JsonObject := namespaces.filterMap fun key =>
    match overrides.get key, profile.get key with
    | .null, .null => none
    | .null, base => some (key, base)
    | .obj override, .obj base => some (key, .obj (JsonObject.update base override))
    | override, _ => some (key, override)
  merged.foldr insertField []

/-- What `snapshot_from_profile` reads of a Profile that passes its checks: the effective
    configuration and the identities and the evidence that verification recorded. -/
structure ProfileView where
  id : Nat
  effective : Effective
  defaultHarnessKey : String
  enabledHarnesses : List String
  capabilities : JsonObject
  constraints : JsonObject
  harnessOptions : JsonObject
  imageIdentity : JsonObject
  kitIdentity : JsonObject
  evidence : JsonObject
  imageIdentity_unique : keysUnique (.obj imageIdentity) = true
  kitIdentity_unique : keysUnique (.obj kitIdentity) = true
  evidence_unique : keysUnique (.obj evidence) = true

/-- The `harness_config_snapshot` of `snapshot_from_profile`. -/
def harnessConfig (profile : ProfileView) (overrides : JsonObject) : JsonObject :=
  [("requested_runtime_contract_version", .str harnessContractVersionV2),
    ("v2_worker_image_identity", .obj profile.imageIdentity),
    ("worker_kit_identity", .obj profile.kitIdentity),
    ("v2_harness_verification_evidence", .obj profile.evidence),
    ("enabled_harnesses", .arr (profile.enabledHarnesses.map .str)),
    ("capabilities", .obj profile.capabilities),
    ("sandbox_mode", profile.capabilities.get "sandbox_mode"),
    ("constraints", .obj profile.constraints),
    ("options", .obj (deepMergeOptions profile.harnessOptions overrides))]

/-- `snapshot_effective_configuration_digest`. -/
def snapshotEffectiveConfigurationDigest : String :=
  env.effectiveDigest snapshot.effective
    (if snapshot.harnessKey.getD "" = "" then "claude" else snapshot.harnessKey.getD "")
    (snapshot.harnessConfigSnapshot.getD []) snapshot.skillReferences

/-- Store the digest of what the snapshot now holds. -/
def stampDigest : Snapshot :=
  { snapshot with
    effectiveConfigurationDigest := some (snapshotEffectiveConfigurationDigest env snapshot) }

/-- `snapshot_from_profile`. -/
def snapshotFromProfile (profile : ProfileView) (harnessKey : String) (endpoint : ModelEndpoint)
    (overrides : JsonObject) : Snapshot :=
  stampDigest env
    { workerProfileId := some profile.id
      effective := profile.effective
      harnessKey := some harnessKey
      harnessConfigSnapshot := some (harnessConfig profile overrides)
      modelEndpointSnapshot := some endpoint.asSnapshot
      credentialRef := endpoint.credentialRef.filter (· ≠ "") }

/-- `replace_task_skill_references` with the source of the selection, and the new digest. -/
def attachSkills (skills : List SkillReference) (source : String) (snapshot : Snapshot) : Snapshot
 := stampDigest env { snapshot with skillReferences := skills, skillSelectionSource := source }

/-- `apply_task_harness_options` with the new digest; `none` is a `ValueError`. -/
def applyTaskHarnessOptions (overrides : JsonObject) (snapshot : Snapshot) : Option Snapshot :=
  let config := snapshot.harnessConfigSnapshot.getD []
  match config.get "options" with
  | .null =>
    some (stampDigest env
      { snapshot with
        harnessConfigSnapshot := some (config.set "options" (.obj (deepMergeOptions [] overrides))) })
  | .obj options =>
    some (stampDigest env
      { snapshot with
        harnessConfigSnapshot :=
          some (config.set "options" (.obj (deepMergeOptions options overrides))) })
  | _ => none

/-- The evidence that verification recorded, as the snapshot holds it. -/
def frozenEvidence : Json :=
  JsonObject.get (snapshot.harnessConfigSnapshot.getD []) "v2_harness_verification_evidence"

/-! ### Bundles -/

/-- What `get_or_create_runtime_bundle_v2` takes from the controlled source tree: its files,
    their digest and the adapters with their stamped identities. -/
structure Source where
  files : List Json
  filesDigest : String
  adapters : JsonObject

def bundlePayload (filesDigest : String) (image evidence kit : JsonObject) : JsonObject :=
  [("files_digest", .str filesDigest),
    ("worker_image_identity", .obj image),
    ("harness_verification_evidence", .obj evidence),
    ("worker_kit_identity", .obj kit)]

/-- The text that `_v2_bundle_digest` hashes. -/
def bundleText (filesDigest : String) (image evidence kit : JsonObject) : List Char :=
  dumps env.floats false (sortKeys (.obj (bundlePayload filesDigest image evidence kit)))

/-- `_v2_bundle_digest`. -/
def v2BundleDigest (filesDigest : String) (image evidence kit : JsonObject) : String :=
  env.sha256 (bundleText env filesDigest image evidence kit)

/-- The manifest of `build_runtime_bundle_v2`. -/
def builtManifest (source : Source) (image evidence kit : JsonObject) : JsonObject :=
  [("schema", .str "codify.worker.runtime-bundle/v2"),
    ("contract_version", .str harnessContractVersionV2),
    ("event_schema", .str "codify.worker.event/v2"),
    ("adapters", .obj source.adapters),
    ("files", .arr source.files),
    ("bundle_digest", .str (v2BundleDigest env source.filesDigest image evidence kit)),
    ("runtime_platform", image.get "runtime_platform"),
    ("worker_image_identity", .obj image),
    ("harness_verification_evidence", .obj evidence),
    ("worker_kit_identity", .obj kit)]

/-- `get_or_create_runtime_bundle_v2`: the row with the digest, or a new one. `none` is a
    `RuntimeError`. -/
def getOrCreateRuntimeBundleV2 (bundles : List Bundle) (source : Source) (newId : Nat)
    (image evidence kit : JsonObject) : Option (List Bundle × Bundle) :=
  if (evidence.get "image_identity").pyEq (.obj image) = false then none
  else if ((evidence.get "harness_key").asString.any source.adapters.has) = false then none
  else
    let digest := v2BundleDigest env source.filesDigest image evidence kit
    match bundles.find? (·.digest = digest) with
    | some existing => some (bundles, existing)
    | none =>
      let created : Bundle :=
        { id := newId
          digest := digest
          contractVersion := harnessContractVersionV2
          orchestrationVersion := orchestrationVersion
          manifest := builtManifest env source image evidence kit }
      some (bundles ++ [created], created)

/-- The adapter facts that `create_task_record` freezes, from the Bundle. -/
def adapterIdentity (harnessKey : String) : JsonObject :=
  let adapter := dictOr ((dictOr (bundle.manifest.get "adapters")).get harnessKey)
  match (adapter.get "adapter").asObject with
  | some identity => identity
  | none => adapter

/-- The Bundle facts that `create_task_record` freezes into the snapshot. -/
def freezeBundleFacts (harnessKey : String) (snapshot : Snapshot) : Snapshot :=
  { snapshot with
    harnessAdapterVersion := (adapterIdentity bundle harnessKey).get "version"
    harnessAdapterDigest := (adapterIdentity bundle harnessKey).get "digest"
    runtimeBundleDigest := some bundle.digest
    runtimeContractVersion := some bundle.contractVersion
    orchestrationVersion := some bundle.orchestrationVersion }

end Codify.Api.TaskContract
