import Codify.Api.VerificationInputs

/-! # Verifications and Edits

    `verify_worker_profile_runtime` probes a Worker profile for minutes and then
    stores the digest of the inputs that it verified. Two other requests write
    these inputs and clear the digest: `update_worker_profile`
    (app/api/worker_profiles.py) and `update_shared_configuration`
    (app/api/worker_shared_configuration.py).

    * A verification takes no lock. It raises the generation of the profile
      first, and its last UPDATE stores the digest only at this generation.
    * The other two lock the shared row and then the profiles that they write.
      They raise the generation of a profile only where they clear its digest.
    * A session keeps the rows that it has loaded. A verification reloads the
      profile and the shared row, but the shared environment rows that it has
      loaded keep their values; an edit of a profile resolves the environment
      rows that it has loaded, without the ones that it adds.
-/

namespace Codify.Api.Verification

open Codify.Framework
open Codify.Api.IssueProfiles (DockerTarget DockerFields)

/-! ### Requests -/

/-- An item of `environment_variables` in a request. -/
structure EnvironmentItem where
  key : String
  value : String := ""
  operation : String := "set"
  isSecret : Bool := false
  deriving DecidableEq, Repr

/-- The fields of `WorkerProfileUpdateRequest` that a verification depends on, where they are
    set. -/
structure ProfileUpdateRequest where
  image : Option String := none
  workerKitSource : Option (Option String) := none
  runtimeMode : Option (Option String) := none
  workerKitPath : Option (Option String) := none
  enabledHarnesses : Option (Option (List String)) := none
  defaultHarnessKey : Option (Option String) := none
  harnessConstraints : Option JsonObject := none
  harnessRuntimes : Option JsonObject := none
  docker : DockerFields := {}
  volumeMounts : Option (Option (List Mount)) := none
  volumeMountMasks : Option (Option (List String)) := none
  environmentVariables : Option (List EnvironmentItem) := none

/-- The fields of `WorkerSharedConfigurationPatchRequest` that a verification depends on. -/
structure SharedPatchRequest where
  expectedRevision : Nat
  runtimeMode : Option (Option String) := none
  workerKitPath : Option (Option String) := none
  volumeMounts : Option (List Mount) := none
  environmentVariables : Option (List EnvironmentItem) := none
  deriving DecidableEq, Repr

/-! ### Editing a Profile -/

variable (env : Env) (request : ProfileUpdateRequest) (profile : Profile)

/-- `profile.image`; it must not be blank. -/
def editImage : Option Profile :=
  match request.image with
  | none => some profile
  | some image => if strip image = "" then none else some { profile with image := strip image }

/-- `kit_source`. -/
def requestedSource : String :=
  match request.workerKitSource with
  | some source => textOr (source.getD "") "system"
  | none => textOr profile.workerKitSource "profile"

/-- `profile.worker_kit_source`; it must be one of the two. -/
def editSource : Option Profile :=
  let source := requestedSource request profile
  if request.workerKitSource.isNone then some profile
  else if source = "system" ∨ source = "profile" then
    some { profile with workerKitSource := source }
  else none

/-- The coordinates of the profile's own Kit; another path forgets the observed version. -/
def editKit : Option Profile :=
  if (request.runtimeMode.isSome ∨ request.workerKitPath.isSome) ∧
      requestedSource request profile = "profile" then
    (validateWorkerKitWriteConfig (request.runtimeMode.getD (some profile.runtimeMode))
      (request.workerKitPath.getD profile.workerKitPath)).map fun kit =>
        { profile with
          runtimeMode := kit.1
          workerKitPath := kit.2
          workerKitVersion :=
            if kit = (textOr profile.runtimeMode bakedImageMode, profile.workerKitPath) then
              profile.workerKitVersion
            else none }
  else some profile

/-- The harness fields of `update_worker_profile`. -/
def editHarness : Profile :=
  let enabled := if profile.enabledHarnesses = [] then ["claude"] else profile.enabledHarnesses
  let key := textOr profile.defaultHarnessKey "claude"
  { profile with
    enabledHarnesses :=
      match request.enabledHarnesses with
      | none => profile.enabledHarnesses
      | some value => value.getD enabled
    defaultHarnessKey :=
      match request.defaultHarnessKey with
      | none => profile.defaultHarnessKey
      | some value => textOr (value.getD "") key
    harnessConstraints := request.harnessConstraints.getD profile.harnessConstraints
    harnessRuntimes := request.harnessRuntimes.getD profile.harnessRuntimes }

/-- The Docker target of `update_worker_profile`. -/
def editTarget : Option Profile :=
  if request.docker.any then
    (env.validateTarget (request.docker.merge profile.docker)).map fun docker =>
      { profile with docker }
  else some profile

/-- The mounts and masks of `update_worker_profile`; the masks are checked again when either
    field is set. -/
def editMounts : Option Profile :=
  if request.volumeMounts.isNone ∧ request.volumeMountMasks.isNone then some profile
  else
    (match request.volumeMounts.join with
      | some mounts => parseWorkerProfileMounts mounts
      | none => some profile.volumeMounts).bind fun volumeMounts =>
        (match request.volumeMountMasks.join with
          | some masks => validateWorkerProfileMountMasks masks volumeMounts
          | none => some profile.volumeMountMasks).bind fun masks =>
            (validateWorkerProfileMountMasks masks volumeMounts).map fun volumeMountMasks =>
              { profile with volumeMounts, volumeMountMasks }

/-- The value that is stored for an item: a blank secret keeps the one that is there. -/
def storedValue (existing : Option (String × Bool)) (item : EnvironmentItem) : Option String :=
  if item.isSecret ∧ item.value = "" then
    (existing.filter (·.2)).map (·.1)
  else some (if item.isSecret then env.encrypt item.value else item.value)

/-- One row of `replace_profile_environment_variables`. -/
def profileEnvironmentRow (rows : List ProfileEnvironmentRow) (item : EnvironmentItem) : Option
    ProfileEnvironmentRow :=
  let key := strip item.key
  let operation := lower (strip (textOr item.operation "set"))
  let existing := rows.find? (·.key = key)
  if operation = "mask" then
    if item.isSecret then none else some ⟨key, operation, none, false⟩
  else if operation = "set" then
    (storedValue env (existing.map fun row => (row.value.getD "", row.isSecret)) item).map
      fun value => ⟨key, operation, some value, item.isSecret⟩
  else none

/-- `replace_profile_environment_variables`: the rows that the table holds after it. -/
def replaceProfileEnvironmentVariables (rows : List ProfileEnvironmentRow)
    (items : List EnvironmentItem) : Option (List ProfileEnvironmentRow) :=
  if (items.map fun item => strip item.key).Nodup then items.mapM (profileEnvironmentRow env rows)
  else none

/-- `profile.environment_variables` after the replacement: the rows that were loaded, with
    their new columns. A row that was added is not among them, one that was deleted still is. -/
def heldRows (loaded replaced : List ProfileEnvironmentRow) : List ProfileEnvironmentRow :=
  loaded.map fun row => (replaced.find? (·.key = row.key)).getD row

/-- A profile as an edit holds it, and as its commit writes it. -/
structure EditedProfile where
  held : Profile
  written : Profile

/-- The environment rows of `update_worker_profile`. -/
def editEnvironment : Option EditedProfile :=
  match request.environmentVariables with
  | none => some ⟨profile, profile⟩
  | some items =>
    (replaceProfileEnvironmentVariables env profile.environmentVariables items).map fun rows =>
      ⟨{ profile with environmentVariables := heldRows profile.environmentVariables rows },
        { profile with environmentVariables := rows }⟩

/-- The columns that `update_worker_profile` sets. -/
def editProfile : Option EditedProfile := do
  let profile ← editImage request profile
  let profile ← editSource request profile
  let profile ← editKit request profile
  let profile ← editTarget env request (editHarness request profile)
  let profile ← editMounts request profile
  editEnvironment env request profile

variable (shared : SharedContext)

/-- The digest of the inputs of a profile, if they resolve. -/
def currentDigest : Option String :=
  (resolveEffectiveConfiguration profile shared).map
    (currentRuntimeVerificationDigest env profile)

/-- `bool(verified_runtime_configuration_digest)`. -/
def isVerified : Bool := decide (profile.verifiedDigest.getD "" ≠ "")

/-- `verification_inputs_changed`, once the edited profile resolves to `next`. -/
def verificationInputsChanged (next : String) : Bool :=
  isVerified profile &&
    match currentDigest env profile shared with
    | none => true
    | some previous =>
      decide (profile.verifiedDigest ≠ some previous) || decide (next ≠ previous)

/-- The columns that an invalidation or a failed probe clears. -/
def clearVerification : Profile :=
  { profile with
    verifiedDigest := none
    workerKitVersion := none
    generation := profile.generation + 1 }

/-- What the commit of an edit writes, unless the request is refused. -/
def committedProfile : Option Profile :=
  (editProfile env request profile).bind fun edited =>
    (currentDigest env edited.held shared).map fun next =>
      if verificationInputsChanged env profile shared next then clearVerification edited.written
      else edited.written

/-! ### Editing the Shared Configuration -/

/-- One entry of `_normalize_shared_environment`: the key, the stored value and the flag. -/
def sharedItem (rows : List SharedEnvironmentRow) (item : EnvironmentItem) : Option
    (String × String × Bool) :=
  let key := strip item.key
  let existing := rows.find? (·.key = key)
  (storedValue env (existing.map fun row => (row.value, row.isSecret)) item).map fun value =>
    (key, value, item.isSecret)

/-- `_normalize_shared_environment`. -/
def normalizeSharedEnvironment (rows : List SharedEnvironmentRow) (items : List EnvironmentItem) :
    Option (List (String × String × Bool)) :=
  if (items.map fun item => strip item.key).Nodup then items.mapM (sharedItem env rows) else none

/-- `_replace_shared_environment_variables`: a key that is there keeps its row, a new one takes
    the next id of the sequence. -/
def replaceSharedEnvironmentVariables (rows : List SharedEnvironmentRow) :
    Nat → List (String × String × Bool) → List SharedEnvironmentRow
  | _, [] => []
  | id, item :: rest =>
    match rows.find? (·.key = item.1) with
    | some row =>
      ⟨row.id, item.1, item.2.1, item.2.2⟩ :: replaceSharedEnvironmentVariables rows id rest
    | none =>
      ⟨id, item.1, item.2.1, item.2.2⟩ :: replaceSharedEnvironmentVariables rows (id + 1) rest

def sharedEntryOf (row : SharedEnvironmentRow) : String × String × Bool :=
  (row.key, row.value, row.isSecret)

/-- The shared configuration that a patch commits, unless it is refused. The prospective rows
    that it validates differ from these in their ids, which nothing reads. -/
def patchShared (request : SharedPatchRequest) (row : SharedRow) (rows : List SharedEnvironmentRow)
    (id : Nat) : Option SharedContext :=
  if request.expectedRevision ≠ row.revision then none
  else
    (validateWorkerKitWriteConfig (request.runtimeMode.getD (some row.runtimeMode))
      (request.workerKitPath.getD row.workerKitPath)).bind fun kit =>
        (parseWorkerProfileMounts (request.volumeMounts.getD row.volumeMounts)).bind fun mounts =>
          (match request.environmentVariables with
            | some items => normalizeSharedEnvironment env rows items
            | none => some (rows.map sharedEntryOf)).map fun items =>
              { row := some ⟨row.revision + 1, kit.1, kit.2, mounts⟩
                environmentVariables := replaceSharedEnvironmentVariables rows id items }

/-- Whether a patch clears the verification of a profile that it has selected. -/
def toInvalidate (current next : SharedContext) (profile : Profile) : Bool :=
  isVerified profile &&
    match currentDigest env profile current, currentDigest env profile next with
    | some currentDigest, some nextDigest =>
      decide (profile.verifiedDigest ≠ some currentDigest) || decide (currentDigest ≠ nextDigest)
    | _, _ => true

/-! ### Sessions -/

/-- A verification attempt between its first UPDATE and its last: the profile and the shared
    configuration as it has loaded them, its generation, and what the probe has observed. -/
structure Attempt where
  profile : Profile
  shared : SharedContext
  generation : Nat
  version : String := ""
  digest : String := ""

/-- A request between two of its statements. -/
inductive Session where
  /-- `verify_worker_profile_runtime`, while it loads. -/
  | loadedProfile (profile : Profile)
  | loadedShared (profile : Profile) (row : Option SharedRow)
  | loaded (profile : Profile) (shared : SharedContext)
  /-- Its generation is committed, and then the probe has succeeded. -/
  | probing (attempt : Attempt)
  | probed (attempt : Attempt)
  /-- It reloads: the attempt holds the profile, the row and the environment loaded again. -/
  | reloadedProfile (attempt : Attempt) (profile : Profile)
  | reloadedShared (attempt : Attempt) (profile : Profile) (row : Option SharedRow)
  | reloaded (attempt : Attempt)
  /-- The digests agree. -/
  | storing (attempt : Attempt)
  /-- `update_worker_profile`: the shared row is locked, and then the profile. -/
  | editing (profileId : Nat) (request : ProfileUpdateRequest) (shared : SharedContext)
  | edited (profile : Profile) (request : ProfileUpdateRequest) (shared : SharedContext)
  /-- `update_shared_configuration`: the row is locked, and then the profiles are selected. -/
  | patching (request : SharedPatchRequest) (row : SharedRow) (rows : List SharedEnvironmentRow)
  | selected (request : SharedPatchRequest) (row : SharedRow) (rows : List SharedEnvironmentRow)
      (profiles : List Profile)

/-- The tables, the sequence of the shared environment rows, the requests under way, and who
    holds the lock of a row. -/
structure State where
  profiles : List Profile
  shared : SharedContext
  sequence : Nat := 0
  sessions : Nat → Option Session := fun _ => none
  sharedLock : Option Nat := none
  profileLocks : Nat → Option Nat := fun _ => none

/-- One statement, or the commit, of one request; sessions are numbered. -/
inductive Label where
  | loadProfile (k profileId : Nat)
  | loadShared (k : Nat)
  | loadEnvironment (k : Nat)
  /-- The UPDATE of the generation, and its commit. -/
  | bump (k : Nat)
  /-- The probe succeeds, and observes a Kit version. -/
  | probe (k : Nat) (version : String)
  /-- The probe finds the runtime unavailable, or its container fails. -/
  | clear (k : Nat)
  | reloadProfile (k : Nat)
  | reloadShared (k : Nat)
  | reloadEnvironment (k : Nat)
  | compare (k : Nat)
  /-- The UPDATE of the digest, and its commit. -/
  | store (k : Nat)
  | lockShared (k profileId : Nat) (request : ProfileUpdateRequest)
  | lockProfile (k : Nat)
  | commitProfile (k : Nat)
  | lockPatch (k : Nat) (request : SharedPatchRequest)
  | selectProfiles (k : Nat)
  | commitPatch (k : Nat)
  /-- The request is refused for another reason, or it fails; its transaction is rolled back. -/
  | abort (k : Nat)

/-! ### Steps -/

abbrev profileRow? (id : Nat) (rows : List Profile) : Option Profile :=
  Table.row? Profile.id id rows

/-- The environment rows of `load_shared_configuration`; the merge orders them by key. -/
def environmentOf (row : Option SharedRow) (rows : List SharedEnvironmentRow) :
    List SharedEnvironmentRow :=
  if row.isSome then rows else []

/-- `load_shared_configuration` in one piece, under the lock of the row. -/
def loadSharedConfiguration : SharedContext :=
  ⟨shared.row, environmentOf shared.row shared.environmentVariables⟩

/-- A select of rows in a session that has loaded some of them before. -/
def refreshed (loaded rows : List SharedEnvironmentRow) : List SharedEnvironmentRow :=
  rows.map fun row => (loaded.find? (·.id = row.id)).getD row

/-- `validate_effective_configuration` allows a profile in `mounted_kit` mode only. -/
def isMounted (effective : EffectiveWorkerConfiguration) : Bool :=
  effective.runtimeMode = mountedKitMode

namespace State

variable (s : State)

variable (env : Env) (k : Nat)

def setSession (session : Session) : State :=
  { s with sessions := fun j => if j = k then some session else s.sessions j }

/-- The transaction ends: its locks are released. -/
def close : State :=
  { s with
    sessions := fun j => if j = k then none else s.sessions j
    sharedLock := if s.sharedLock = some k then none else s.sharedLock
    profileLocks := fun p => if s.profileLocks p = some k then none else s.profileLocks p }

/-- The request goes on, or it is refused. -/
def check (passed : Bool) (session : Session) : State :=
  if passed then s.setSession k session else s.close k

def lockProfile (k profileId : Nat) : State :=
  { s with profileLocks := fun p => if p = profileId then some k else s.profileLocks p }

def writeProfile (id : Nat) (f : Profile → Profile) : State :=
  { s with profiles := Table.update Profile.id id f s.profiles }

/-- `UPDATE worker_profiles ... WHERE id = :id AND worker_kit_identity_generation = :generation`
    and its commit. It waits for the lock of the row; when no row matches, the request ends. -/
def updateAt (k id generation : Nat) (f : Profile → Profile) (after : State → State) :
    Option State :=
  if s.profileLocks id ≠ none then none
  else if (profileRow? id s.profiles).any (·.generation = generation) then
    some (after (s.writeProfile id f))
  else some (s.close k)

def bump : Option State :=
  match s.sessions k with
  | some (.loaded profile shared) =>
    if (resolveEffectiveConfiguration profile shared).any isMounted then
      s.updateAt k profile.id profile.generation
        ({ · with generation := profile.generation + 1 })
        (·.setSession k (.probing ⟨profile, shared, profile.generation + 1, "", ""⟩))
    else some (s.close k)
  | _ => none

/-- The probe is over: the digest of the loaded inputs is computed, with the observed version. -/
def probe (version : String) : Option State :=
  match s.sessions k with
  | some (.probing attempt) =>
    if strip version = "" then some (s.close k)
    else
      (resolveEffectiveConfiguration attempt.profile attempt.shared).map fun effective =>
        s.setSession k (.probed { attempt with
          version := strip version
          digest := currentRuntimeVerificationDigest env attempt.profile
            { effective with workerKitVersion := some (strip version) } })
  | _ => none

/-- The rows are loaded again, and so is the digest. -/
def compare : Option State :=
  match s.sessions k with
  | some (.reloaded attempt) =>
    some (s.check k
      ((resolveEffectiveConfiguration attempt.profile attempt.shared).any fun effective =>
        isMounted effective &&
          decide (currentRuntimeVerificationDigest env attempt.profile
            { effective with workerKitVersion := some attempt.version } = attempt.digest))
      (.storing attempt))
  | _ => none

/-- `SELECT ... FOR UPDATE` of the shared row, if there is one. -/
def lockedShared : Option State :=
  if (s.sessions k).isSome then none
  else if s.shared.row.isNone then some s
  else if s.sharedLock ≠ none then none
  else some { s with sharedLock := some k }

def commitProfile : Option State :=
  match s.sessions k with
  | some (.edited profile request shared) =>
    (committedProfile env request profile shared).map fun written =>
      (s.writeProfile profile.id fun _ => written).close k
  | _ => none

/-- The rows after a patch that clears some profiles. -/
def patched (ids : List Nat) (next : SharedContext) : State :=
  { s with
    profiles := s.profiles.map fun (p : Profile) => if p.id ∈ ids then clearVerification p else p
    shared := next
    sequence := s.sequence + next.environmentVariables.length }

/-- The commit of a patch: the UPDATE waits for the lock of every profile that it clears. -/
def commitPatch : Option State :=
  match s.sessions k with
  | some (.selected request row rows profiles) =>
    (patchShared env request row rows s.sequence).bind fun next =>
      let ids := (profiles.filter (toInvalidate env ⟨some row, rows⟩ next)).map Profile.id
      if ∀ id ∈ ids, s.profileLocks id = none then some ((s.patched ids next).close k) else none
  | _ => none

end State

def step (s : State) : Label → Option State
  | .loadProfile k profileId =>
    if (s.sessions k).isSome then none
    else (profileRow? profileId s.profiles).map fun profile =>
      s.setSession k (.loadedProfile profile)
  | .loadShared k =>
    match s.sessions k with
    | some (.loadedProfile profile) => some (s.setSession k (.loadedShared profile s.shared.row))
    | _ => none
  | .loadEnvironment k =>
    match s.sessions k with
    | some (.loadedShared profile row) =>
      some (s.setSession k
        (.loaded profile ⟨row, environmentOf row s.shared.environmentVariables⟩))
    | _ => none
  | .bump k => s.bump k
  | .probe k version => s.probe env k version
  | .clear k =>
    match s.sessions k with
    | some (.probing attempt) =>
      s.updateAt k attempt.profile.id attempt.generation clearVerification (·.close k)
    | _ => none
  | .reloadProfile k =>
    match s.sessions k with
    | some (.probed attempt) =>
      match profileRow? attempt.profile.id s.profiles with
      | some profile => some (s.setSession k (.reloadedProfile attempt profile))
      | none => some (s.close k)
    | _ => none
  | .reloadShared k =>
    match s.sessions k with
    | some (.reloadedProfile attempt profile) =>
      some (s.setSession k (.reloadedShared attempt profile s.shared.row))
    | _ => none
  | .reloadEnvironment k =>
    match s.sessions k with
    | some (.reloadedShared attempt profile row) =>
      some (s.setSession k (.reloaded { attempt with
        profile
        shared := ⟨row, environmentOf row
          (refreshed attempt.shared.environmentVariables s.shared.environmentVariables)⟩ }))
    | _ => none
  | .compare k => s.compare env k
  | .store k =>
    match s.sessions k with
    | some (.storing attempt) =>
      s.updateAt k attempt.profile.id attempt.generation
        ({ · with verifiedDigest := some attempt.digest, workerKitVersion := some attempt.version })
        (·.close k)
    | _ => none
  | .lockShared k profileId request =>
    (s.lockedShared k).map fun t =>
      t.setSession k (.editing profileId request (loadSharedConfiguration s.shared))
  | .lockProfile k =>
    match s.sessions k with
    | some (.editing profileId request shared) =>
      match profileRow? profileId s.profiles with
      | none => some (s.close k)
      | some profile =>
        if s.profileLocks profileId = none then
          some ((s.lockProfile k profileId).setSession k (.edited profile request shared))
        else none
    | _ => none
  | .commitProfile k => s.commitProfile env k
  | .lockPatch k request =>
    s.shared.row.bind fun row =>
      (s.lockedShared k).map fun t =>
        t.setSession k (.patching request row s.shared.environmentVariables)
  | .selectProfiles k =>
    match s.sessions k with
    | some (.patching request row rows) =>
      some (s.setSession k (.selected request row rows s.profiles))
    | _ => none
  | .commitPatch k => s.commitPatch env k
  | .abort k => if (s.sessions k).isSome then some (s.close k) else none

/-- No profile is verified yet, and no request is under way. -/
structure AtRest (s : State) : Prop where
  ids : Table.KeyUnique Profile.id s.profiles
  unverified : ∀ profile ∈ s.profiles, profile.verifiedDigest = none
  sessions : s.sessions = fun _ => none
  sharedLock : s.sharedLock = none
  profileLocks : s.profileLocks = fun _ => none

/-- Any number of the three requests, with constant settings. -/
def requests : System State Label where
  init := AtRest
  next := step env

end Codify.Api.Verification
