import Codify.Framework.Json
import Codify.Framework.PosixPath
import Codify.Api.IssueProfiles

/-! # Inputs of a Runtime Verification

    A Worker profile is a diff over the shared configuration.
    `resolve_effective_configuration` (app/core/worker_shared_configuration.py) merges
    the two, and `current_runtime_verification_digest` (app/core/worker_profiles.py)
    hashes the part of the result that a verification container depends on.

    The version of the Worker Kit is observed by the verification itself. It is
    part of the effective configuration but no part of what is hashed.
-/

namespace Codify.Api.Verification

open Codify.Framework Option PosixPath
open Codify.Api.IssueProfiles (DockerTarget)

/-! ### Rows -/

/-- An entry of `volume_mounts`; a text that is missing is empty. -/
structure Mount where
  hostPath : String := ""
  containerPath : String := ""
  mode : String := ""
  deriving DecidableEq, Repr

/-- A row of `worker_shared_environment_variables`. -/
structure SharedEnvironmentRow where
  id : Nat
  key : String
  value : String
  isSecret : Bool := false
  deriving DecidableEq, Repr

/-- A row of `worker_profile_environment_variables`. -/
structure ProfileEnvironmentRow where
  key : String
  operation : String
  value : Option String
  isSecret : Bool := false
  deriving DecidableEq, Repr

/-- The columns of `worker_shared_configurations` that a verification depends on. -/
structure SharedRow where
  revision : Nat
  runtimeMode : String
  workerKitPath : Option String
  volumeMounts : List Mount := []
  deriving DecidableEq, Repr

/-- The columns of `worker_profiles` that a verification depends on or writes. -/
structure Profile where
  id : Nat
  image : String
  workerKitSource : String
  runtimeMode : String
  workerKitVersion : Option String := none
  workerKitPath : Option String := none
  docker : DockerTarget := {}
  volumeMounts : List Mount := []
  volumeMountMasks : List String := []
  environmentVariables : List ProfileEnvironmentRow := []
  enabledHarnesses : List String := []
  defaultHarnessKey : String := ""
  harnessConstraints : JsonObject := []
  harnessRuntimes : JsonObject := []
  /-- `verified_runtime_configuration_digest`. -/
  verifiedDigest : Option String := none
  /-- `worker_kit_identity_generation`. -/
  generation : Nat := 0

/-- `WorkerSharedConfigurationContext`. -/
structure SharedContext where
  row : Option SharedRow := none
  environmentVariables : List SharedEnvironmentRow := []
  deriving DecidableEq, Repr

/-- What the deployment fixes: `docker_daemon_key` of the connection that a target resolves to,
    the check of a target, the hash and the encryption of a secret. -/
structure Env where
  daemonKey : DockerTarget → String
  validateTarget : DockerTarget → Option DockerTarget
  /-- `sha256(json.dumps(payload, sort_keys=True, separators=(",", ":")).encode("utf-8"))`, as
      a text that is never empty. -/
  digest : Json → String
  digest_ne : ∀ payload, digest payload ≠ ""
  encrypt : String → String

/-! ### Values -/

/-- `(value or "").strip() or None`. -/
def stripped (value : Option String) : Option String :=
  let text := strip (value.getD "")
  if text = "" then none else some text

variable (mount : Mount) (path : String)

/-- `os.path.isabs`. -/
def isAbsolute : Bool := startsWith path "/"

/-- `os.path.normpath`. -/
def normalized : String := String.ofList (normpath path.toList)

/-- The parts of a `PurePosixPath`, without its root. -/
def pathParts : List (List Char) := (parts path.toList).filter (· ≠ [])

/-- `path in other.parents`. -/
def isParent (path other : String) : Bool :=
  initialSlashes path.toList = initialSlashes other.toList &&
    (pathParts path).length < (pathParts other).length &&
    (pathParts path).isPrefixOf (pathParts other)

/-- `path == other`, as paths. -/
def isSamePath (path other : String) : Bool :=
  initialSlashes path.toList = initialSlashes other.toList &&
    pathParts path = pathParts other

/-! ### Worker Kit -/

def bakedImageMode : String := "baked_image"

def mountedKitMode : String := "mounted_kit"

/-- `(runtime_mode or MOUNTED_KIT_MODE).strip()`. -/
def modeOf (runtimeMode : Option String) : String :=
  strip (if runtimeMode.getD "" = "" then mountedKitMode else runtimeMode.getD "")

/-- `validate_worker_kit_config`: the mode, the version and the path. -/
def validateWorkerKitConfig (runtimeMode workerKitVersion workerKitPath : Option String) :
    Option (String × Option String × Option String) :=
  let mode := modeOf runtimeMode
  if mode = bakedImageMode then
    if stripped workerKitVersion = none ∧ stripped workerKitPath = none then some (mode, none, none)
    else none
  else if mode ≠ mountedKitMode then none
  else
    match stripped workerKitPath with
    | none => none
    | some path =>
      if ¬isAbsolute path ∨ normalized path = "/" then none
      else some (mode, stripped workerKitVersion, some (normalized path))

/-- `validate_worker_kit_write_config`: the mode and the path. -/
def validateWorkerKitWriteConfig (runtimeMode workerKitPath : Option String) :
    Option (String × Option String) :=
  if modeOf runtimeMode ≠ mountedKitMode then none
  else (validateWorkerKitConfig (some mountedKitMode) none workerKitPath).map fun kit =>
    (kit.1, kit.2.2)

/-! ### Mounts -/

/-- `_SYSTEM_MOUNT_ROOTS`, and whether the root is sealed. -/
def systemMountRoots : List (String × Bool) :=
  [("/workspace", false), ("/home/codify/.claude", false), ("/opt/codify-issue-shared", false),
    ("/opt/codify-issue-meta", true), ("/tmp/codify-runtime", true)]

/-- A destination that hides a system root, or enters a sealed one. -/
def conflictsWithSystem : Bool :=
  systemMountRoots.any fun root =>
    isSamePath path root.1 || isParent path root.1 || (root.2 && isParent root.1 path)

def parseMount : Option Mount :=
  let hostPath := strip mount.hostPath
  let containerPath := strip mount.containerPath
  let mode := lower (strip (if mount.mode = "" then "ro" else mount.mode))
  if ¬isAbsolute hostPath ∨ ¬isAbsolute containerPath then none
  else if conflictsWithSystem (normalized containerPath) then none
  else if mode ≠ "ro" ∧ mode ≠ "rw" then none
  else some ⟨normalized hostPath, normalized containerPath, mode⟩

/-- `parse_worker_profile_mounts`: every entry is valid, and no path occurs twice. -/
def parseWorkerProfileMounts (mounts : List Mount) : Option (List Mount) :=
  (mounts.mapM parseMount).bind fun parsed =>
    if (parsed.map Mount.hostPath).Nodup ∧ (parsed.map Mount.containerPath).Nodup then some parsed
    else none

/-- `validate_worker_profile_mount_masks`. -/
def validateWorkerProfileMountMasks (masks : List String) (mounts : List Mount) :
    Option (List String) :=
  let paths := masks.map strip
  let parsed := paths.map normalized
  if paths.all isAbsolute ∧ parsed.Nodup ∧
      ∀ path ∈ parsed, path ∉ mounts.map fun mount => strip mount.containerPath then
    some parsed
  else none

/-! ### Merging -/

/-- An entry of the merged environment. -/
structure EnvironmentVariable where
  key : String
  value : String
  isSecret : Bool
  deriving DecidableEq, Repr

/-- `EffectiveWorkerConfiguration`, without scripts and templates. -/
structure EffectiveWorkerConfiguration where
  image : String
  runtimeMode : String
  workerKitVersion : Option String
  workerKitPath : Option String
  volumeMounts : List Mount
  environmentVariables : List EnvironmentVariable
  deriving DecidableEq, Repr

def mountKey : String × Mount := (mount.containerPath, mount)

/-- `effective[key] = value` for every item. -/
def overlay {α : Type} (d : OrderedDict String α) (items : List (String × α)) :
    OrderedDict String α :=
  items.foldl (fun d p => d.set p.1 p.2) d

/-- `effective.pop(key, None)`. -/
def maskMount (d : OrderedDict String Mount) (mask : String) : OrderedDict String Mount :=
  if strip mask = "" then d else d.erase (strip mask)

variable (env : Env) (profile : Profile)

/-- `_merge_mounts`. -/
def mergeMounts (shared : Option SharedRow) : Option (List Mount) :=
  (parseWorkerProfileMounts ((shared.map SharedRow.volumeMounts).getD [])).bind fun sharedMounts =>
    (parseWorkerProfileMounts profile.volumeMounts).map fun mounts =>
      let baseline := profile.volumeMountMasks.foldl maskMount
        (overlay [] (sharedMounts.map mountKey))
      ((overlay baseline (mounts.map mountKey)).map (·.2)).insertionSort
        fun m m' => m.containerPath ≤ m'.containerPath

/-- A shared row, unless its key is empty. -/
def sharedEntry (row : SharedEnvironmentRow) : Option (String × EnvironmentVariable) :=
  if row.key = "" then none else some (row.key, ⟨row.key, row.value, row.isSecret⟩)

/-- `str(operation or "").strip() or "set"`. -/
def operationOf (row : ProfileEnvironmentRow) : String :=
  if strip row.operation = "" then "set" else strip row.operation

/-- A row of the profile sets its key or masks it. -/
def applyProfileRow (d : OrderedDict String EnvironmentVariable) (row : ProfileEnvironmentRow) :
    OrderedDict String EnvironmentVariable :=
  if row.key = "" then d
  else if operationOf row = "mask" then d.erase row.key
  else d.set row.key ⟨row.key, row.value.getD "", row.isSecret⟩

/-- `_merge_environment`. -/
def mergeEnvironment (shared : List SharedEnvironmentRow) : List EnvironmentVariable :=
  let baseline := overlay [] (shared.filterMap sharedEntry)
  ((profile.environmentVariables.foldl applyProfileRow baseline).map (·.2)).insertionSort
    fun v v' => v.key ≤ v'.key

/-- `worker_kit_source`, which is the profile's own by default. -/
def kitSource : String :=
  if strip profile.workerKitSource = "" then "profile" else strip profile.workerKitSource

/-- The Kit coordinates of the layer that owns them. -/
def kitCoordinates (shared : Option SharedRow) : Option (Option String × Option String) :=
  if kitSource profile = "system" then
    shared.map fun row => (some row.runtimeMode, row.workerKitPath)
  else if kitSource profile = "profile" then some (some profile.runtimeMode, profile.workerKitPath)
  else none

/-- `resolve_effective_configuration`. -/
def resolveEffectiveConfiguration (shared : SharedContext) : Option EffectiveWorkerConfiguration :=
  (kitCoordinates profile shared.row).bind fun raw =>
    (validateWorkerKitConfig raw.1 profile.workerKitVersion raw.2).bind fun kit =>
      (mergeMounts profile shared.row).map fun mounts =>
        { image := profile.image
          runtimeMode := kit.1
          workerKitVersion := kit.2.1
          workerKitPath := kit.2.2
          volumeMounts := mounts
          environmentVariables := mergeEnvironment profile shared.environmentVariables }

/-! ### Digest -/

def mountJson : Json :=
  .obj [("container_path", .str mount.containerPath), ("host_path", .str mount.hostPath),
    ("mode", .str (if mount.mode = "" then "ro" else mount.mode))]

def variableJson (item : EnvironmentVariable) : Json :=
  .obj [("key", .str item.key), ("value", .str item.value)]

/-- `value or fallback` for a text. -/
def textOr (value fallback : String) : String := if value = "" then fallback else value

/-- The payload of `runtime_verification_input_digest`, from the arguments that
    `current_runtime_verification_digest` gives it. -/
def verificationPayload (effective : EffectiveWorkerConfiguration) : Json :=
  .obj
    [("schema", .str "codify.worker-runtime-verification/v1"),
      ("docker_daemon_key", .str (env.daemonKey profile.docker)),
      ("image", .str effective.image),
      ("runtime_mode", .str (strip (textOr effective.runtimeMode bakedImageMode))),
      ("worker_kit_path", (effective.workerKitPath.map Json.str).getD .null),
      ("volume_mounts", .arr ((effective.volumeMounts.insertionSort
        fun m m' => m.containerPath ≤ m'.containerPath).map mountJson)),
      ("environment_variables", .arr (((effective.environmentVariables.filter
        (!·.isSecret)).insertionSort fun v v' => v.key ≤ v'.key).map variableJson)),
      ("harness_key", .str (textOr profile.defaultHarnessKey "claude")),
      ("enabled_harnesses", .arr (((if profile.enabledHarnesses = [] then ["claude"]
        else profile.enabledHarnesses).insertionSort (· ≤ ·)).map Json.str)),
      ("harness_constraints", .obj profile.harnessConstraints),
      ("harness_runtimes", .obj profile.harnessRuntimes),
      ("require_skill_support", .bool (effective.runtimeMode = mountedKitMode))]

/-- `current_runtime_verification_digest`. -/
def currentRuntimeVerificationDigest (effective : EffectiveWorkerConfiguration) : String :=
  env.digest (verificationPayload env profile effective)

/-! ### Observed Columns

    A verification writes the digest, the generation and the Kit version. What is
    hashed depends on none of them, once the configuration resolves. -/

/-- The profile without the columns that a verification writes. -/
def Profile.inputs : Profile :=
  { profile with workerKitVersion := none, verifiedDigest := none, generation := 0 }

/-- The payload that a verification of the profile hashes. -/
def inputPayload (shared : SharedContext) : Option Json :=
  (resolveEffectiveConfiguration profile.inputs shared).map (verificationPayload env profile.inputs)

theorem validateWorkerKitConfig_version {mode version path : Option String}
    {kit : String × Option String × Option String}
    (h : validateWorkerKitConfig mode version path = some kit) :
    validateWorkerKitConfig mode none path = some (kit.1, none, kit.2.2) := by
  have hnone : stripped none = none := by decide +kernel
  unfold validateWorkerKitConfig at h ⊢
  dsimp only at h ⊢
  by_cases hbaked : modeOf mode = bakedImageMode
  · rw [if_pos hbaked] at h ⊢
    obtain ⟨hblank, h⟩ := ite_none_right_eq_some.mp h
    cases h
    rw [if_pos ⟨hnone, hblank.2⟩]
  · rw [if_neg hbaked] at h ⊢
    obtain ⟨hmounted, h⟩ := ite_none_left_eq_some.mp h
    rw [if_neg hmounted]
    cases hpath : stripped path with
    | none => rw [hpath] at h; cases h
    | some p =>
      rw [hpath] at h
      dsimp only at h ⊢
      obtain ⟨hkept, h⟩ := ite_none_left_eq_some.mp h
      cases h
      rw [if_neg hkept, hnone]

theorem inputPayload_of_resolve {env : Env} {profile : Profile} {shared : SharedContext}
    {effective : EffectiveWorkerConfiguration}
    (h : resolveEffectiveConfiguration profile shared = some effective) :
    inputPayload env profile shared = some (verificationPayload env profile effective) := by
  unfold resolveEffectiveConfiguration at h
  obtain ⟨raw, hraw, h⟩ := bind_eq_some_iff.mp h
  obtain ⟨kit, hkit, h⟩ := bind_eq_some_iff.mp h
  obtain ⟨mounts, hmounts, rfl⟩ := map_eq_some_iff.mp h
  have hraw' : kitCoordinates profile.inputs shared.row = some raw := hraw
  have hmounts' : mergeMounts profile.inputs shared.row = some mounts := hmounts
  have hkit' : validateWorkerKitConfig raw.1 profile.inputs.workerKitVersion raw.2 =
      some (kit.1, none, kit.2.2) := validateWorkerKitConfig_version hkit
  unfold inputPayload resolveEffectiveConfiguration
  rw [hraw', bind_some, hkit', bind_some, hmounts']
  rfl

theorem inputPayload_congr {env : Env} {profile profile' : Profile} (shared : SharedContext)
    (h : profile.inputs = profile'.inputs) :
    inputPayload env profile shared = inputPayload env profile' shared := by
  unfold inputPayload
  rw [h]

end Codify.Api.Verification
