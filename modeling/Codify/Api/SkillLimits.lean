import Mathlib.Algebra.GroupWithZero.Nat
import Mathlib.Algebra.Order.BigOperators.Group.List
import Mathlib.Algebra.Order.Group.Nat
import Codify.Framework.Fallible
import Codify.Framework.System
import Codify.Framework.Table

/-! # The Skill Limit of a Worker Profile

    A Task loads the packages of the enabled default skills of its Worker profile, which
    must fit one limit together. Eight requests change what they add up to, from both sides
    of the relation: `create_skill`, `update_skill`, `enable_skill`, `disable_skill` and
    `delete_skill` (app/api/skills.py), `create_worker_profile`, `update_worker_profile` and
    `duplicate_worker_profile` (app/api/worker_profiles.py).

    The module runs any number of them statement by statement. Five take the advisory lock of
    `acquire_worker_profile_skill_package_lock` until their transaction ends. The others can
    only make a total smaller.

    * **Frame**: what a request without the lock does to the tables (`Shrinks`).
    * **Invariant**: `Inv`; what a session under the lock has found out stays true
      (`Session.Facts.of_shrinks`).
    * **Result**: `task_skill_limit`.
-/

namespace Codify.Api.SkillLimits

open Codify Codify.Framework List Option Table

/-! ### Packages -/

def maxSkillsPerTask : Nat := 20

def maxSkillPackageBytes : Nat := 8 * 1024 * 1024

def maxTaskSkillPackageBytes : Nat := 32 * 1024 * 1024

/-- A file of a package, with its content as base64 text. -/
structure SkillFile where
  path : String
  contentBase64 : String
  executable : Bool
  deriving DecidableEq, Repr

/-- What `build_skill_version` hashes. -/
structure Package where
  name : String
  description : String
  skillMd : String
  files : List SkillFile
  deriving DecidableEq, Repr

/-- What a package is made of outside this module: `validate_skill_name`,
    `validate_skill_markdown` and `normalize_skill_files` refuse a request or normalize it;
    `decode_skill_file_content` gives the bytes of a file; the digest is the SHA-256 of the
    canonical JSON. -/
structure Env (Digest : Type) where
  normalize : String → String → List SkillFile → Option Package
  decodedLength : SkillFile → Nat
  digest : Package → Digest

variable {Digest : Type}

def Env.packageSizeBytes (env : Env Digest) (package : Package) : Nat :=
  package.skillMd.utf8ByteSize + (package.files.map env.decodedLength).sum

/-- `SkillVersion`: a row that is written once, with the size and the digest of its package. -/
structure SkillVersion (env : Env Digest) where
  package : Package
  packageSizeBytes : Nat
  digest : Digest
  size_eq : packageSizeBytes = env.packageSizeBytes package
  digest_eq : digest = env.digest package

/-- `build_skill_version`. -/
def buildSkillVersion (env : Env Digest) (name skillMd : String) (files : List SkillFile) :
    Option (SkillVersion env) :=
  (env.normalize name skillMd files).bind fun package =>
    if maxSkillPackageBytes < env.packageSizeBytes package then none
    else some ⟨package, env.packageSizeBytes package, env.digest package, rfl, rfl⟩

/-! ### Rows -/

/-- `Skill`, with its current version. -/
structure Skill (env : Env Digest) where
  id : Int
  name : String
  description : String
  currentVersion : SkillVersion env
  enabled : Bool

/-- `WorkerProfile`, with its rows of `worker_profile_skills`. -/
structure WorkerProfile where
  id : Int
  defaultSkills : List Int
  deriving DecidableEq, Repr

variable {env : Env Digest}

abbrev skillRow? (id : Int) (rows : List (Skill env)) : Option (Skill env) :=
  row? Skill.id id rows

abbrev profileRow? (id : Int) (rows : List WorkerProfile) : Option WorkerProfile :=
  row? WorkerProfile.id id rows

/-! ### Selections -/

/-- `SkillValidationError` of a selection. -/
inductive SkillError where
  | tooMany
  | duplicate
  | notPositive
  | notFound (id : Int)
  | disabled (name : String)
  | packagesExceed
  deriving DecidableEq, Repr

def SkillError.message : SkillError → String
  | .tooMany => s!"At most {maxSkillsPerTask} skills can be selected"
  | .duplicate => "Duplicate skill IDs are not allowed"
  | .notPositive => "Skill IDs must be positive integers"
  | .notFound id => s!"Skill {id} was not found"
  | .disabled name => s!"Skill '{name}' is disabled"
  | .packagesExceed =>
    s!"Selected skill packages exceed the {maxTaskSkillPackageBytes}-byte per-task limit"

variable (skills : List (Skill env)) (ids : List Int)

/-- `normalize_skill_ids`. -/
def normalizeSkillIds : Except SkillError (List Int) :=
  if maxSkillsPerTask < ids.length then .error .tooMany
  else if ¬ ids.Nodup then .error .duplicate
  else if ∃ id ∈ ids, id ≤ 0 then .error .notPositive
  else .ok ids

def foundSkills (rows : Int → Option (Skill env)) (ids : List Int) :
    Except SkillError (List (Skill env)) :=
  match ids.find? fun id => (rows id).isNone with
  | some id => .error (.notFound id)
  | none => .ok (ids.filterMap rows)

/-- The bytes that a skill adds to a total. -/
def Skill.bytes (skill : Skill env) : Nat :=
  if skill.enabled then skill.currentVersion.packageSizeBytes else 0

/-- `load_worker_profile_skills`, on the rows as the session sees them. -/
def loadWorkerProfileSkills (rows : Int → Option (Skill env)) (ids : List Int)
    (retainedDisabled : List Int) : Except SkillError (List (Skill env)) := do
  let ids ← normalizeSkillIds ids
  let skills ← foundSkills rows ids
  match skills.find? fun skill => !skill.enabled && skill.id ∉ retainedDisabled with
  | some skill => .error (.disabled skill.name)
  | none =>
    if maxTaskSkillPackageBytes < (skills.map Skill.bytes).sum then .error .packagesExceed
    else .ok skills

/-- `serialize_skill_snapshot`. -/
structure SkillSnapshot where
  id : Int
  name : String
  description : String
  deriving DecidableEq, Repr

def Skill.snapshot (skill : Skill env) : SkillSnapshot := ⟨skill.id, skill.name, skill.description⟩

/-- `load_enabled_skill_snapshots`. -/
def loadEnabledSkillSnapshots : Except SkillError (List SkillSnapshot) := do
  let ids ← normalizeSkillIds ids
  let selected ← foundSkills (fun id => skillRow? id skills) ids
  match selected.find? fun skill => !skill.enabled with
  | some skill => .error (.disabled skill.name)
  | none =>
    if maxTaskSkillPackageBytes <
        (selected.map fun skill => skill.currentVersion.packageSizeBytes).sum then
      .error .packagesExceed
    else .ok (selected.map Skill.snapshot)

/-- One default skill in `validate_worker_profile_skill_package_limits`. -/
def measured (skillId : Int) (replacement : SkillVersion env) (targetEnabled : Option Bool)
    (id : Int) : Nat :=
  match skillRow? id skills with
  | none => 0
  | some row =>
    let enabled := if id = skillId then targetEnabled.getD row.enabled else row.enabled
    if !enabled then 0
    else if id = skillId then replacement.packageSizeBytes
    else row.currentVersion.packageSizeBytes

/-- The check of `validate_worker_profile_skill_package_limits` on the profiles that it found. -/
def withinLimits (profiles : List WorkerProfile) (affected : List Int) (skillId : Int)
    (replacement : SkillVersion env) (targetEnabled : Option Bool) : Bool :=
  (profiles.filter (·.id ∈ affected)).all fun profile =>
    (profile.defaultSkills.map (measured skills skillId replacement targetEnabled)).sum ≤
      maxTaskSkillPackageBytes

/-! ### Requests -/

/-- `SkillUpdateRequest`, where its fields are set. -/
structure SkillUpdate where
  name : Option String := none
  skillMd : Option String := none
  files : Option (List SkillFile) := none
  enabled : Option Bool := none
  deriving DecidableEq, Repr

inductive Request where
  | createSkill (name skillMd : String) (files : List SkillFile) (enabled : Bool)
  | updateSkill (skillId : Int) (fields : SkillUpdate)
  | enableSkill (skillId : Int)
  | disableSkill (skillId : Int)
  | deleteSkill (skillId : Int)
  | createWorkerProfile (defaultSkillIds : Option (List Int))
  /-- Without the field, with `null`, or with a selection. -/
  | updateWorkerProfile (profileId : Int) (defaultSkillIds : Option (Option (List Int)))
  | duplicateWorkerProfile (profileId : Int)
  deriving DecidableEq, Repr

/-- The request begins with `acquire_worker_profile_skill_package_lock`. -/
def Request.locks : Request → Bool
  | .updateSkill .. | .enableSkill _ => true
  | .createWorkerProfile _ | .duplicateWorkerProfile _ => true
  | .updateWorkerProfile _ defaultSkillIds => defaultSkillIds.isSome
  | .createSkill .. | .disableSkill _ | .deleteSkill _ => false

/-- The row that `update_skill` writes, and the version that it builds. -/
def updatedSkill [DecidableEq Digest] (skill : Skill env) (fields : SkillUpdate) :
    Option (SkillVersion env × Skill env) :=
  let current := skill.currentVersion
  (buildSkillVersion env (fields.name.getD current.package.name)
    (fields.skillMd.getD current.package.skillMd) (fields.files.getD current.package.files)).map
    fun version => (version, { skill with
      name := version.package.name
      description := version.package.description
      currentVersion := if version.digest ≠ current.digest then version else current
      enabled := fields.enabled.getD skill.enabled })

/-- A request between two of its statements. -/
inductive Session (env : Env Digest) where
  /-- Begun, and under the advisory lock if it takes it. -/
  | entered (request : Request)
  /-- `validate_worker_profile_skill_package_limits` before and after its query for profiles. -/
  | validating (replacement : SkillVersion env) (next : Skill env)
  | measuring (replacement : SkillVersion env) (next : Skill env) (affected : List Int)
  /-- `update_skill` and `enable_skill` before the commit. -/
  | writing (next : Skill env)
  | disabling (skillId : Int)
  | removing (skillId : Int)
  /-- `load_worker_profile_skills` comes next; the session has loaded some skills already. -/
  | selecting (profileId : Option Int) (loaded : List (Skill env)) (ids retained : List Int)
  /-- The selection of a profile, or of a new one, before the commit. -/
  | assigning (profileId : Option Int) (ids : List Int)
  /-- `update_worker_profile` without a selection. -/
  | unchanged

/-- The session is under the advisory lock. -/
def Session.locks : Session env → Bool
  | .entered request => request.locks
  | .validating .. | .measuring .. | .writing _ => true
  | .selecting .. | .assigning .. => true
  | .disabling _ | .removing _ | .unchanged => false

/-- The tables, the skill ids that the sequence has given out, the requests under way and who
    holds the locks. -/
structure State (env : Env Digest) where
  skills : List (Skill env) := []
  profiles : List WorkerProfile := []
  usedIds : List Int := []
  sessions : Nat → Option (Session env) := fun _ => none
  advisory : Option Nat := none
  skillLocks : Int → Option Nat := fun _ => none
  profileLocks : Int → Option Nat := fun _ => none

/-- One statement, or the commit, of one request; sessions are numbered. -/
inductive Label where
  | begin (k : Nat) (request : Request)
  | lockSkill (k : Nat)
  | queryProfiles (k : Nat)
  | measure (k : Nat)
  | loadProfile (k : Nat)
  | selectSkills (k : Nat)
  /-- The commit; the id of a new row is given by its sequence. -/
  | commit (k : Nat) (newId : Int)
  /-- The request is refused for another reason, and its transaction is rolled back. -/
  | abort (k : Nat)
  deriving DecidableEq, Repr

/-! ### Steps -/

namespace State

variable (s : State env)

variable (k : Nat)

def setSession (session : Session env) : State env :=
  { s with sessions := fun j => if j = k then some session else s.sessions j }

/-- The transaction ends: its locks are released. -/
def close : State env :=
  { s with
    sessions := fun j => if j = k then none else s.sessions j
    advisory := if s.advisory = some k then none else s.advisory
    skillLocks := fun i => if s.skillLocks i = some k then none else s.skillLocks i
    profileLocks := fun p => if s.profileLocks p = some k then none else s.profileLocks p }

variable (skillId : Int) (profileId : Int) (ids : List Int)

def lockSkills : State env :=
  { s with skillLocks := fun i => if i ∈ ids then some k else s.skillLocks i }

def lockProfile : State env :=
  { s with profileLocks := fun p => if p = profileId then some k else s.profileLocks p }

/-- A row is not locked by another session. -/
def free : Bool := s.skillLocks skillId = none || s.skillLocks skillId = some k

/-- A request begins; it waits for the advisory lock. -/
def beginRequest (request : Request) : Option (State env) :=
  if (s.sessions k).isSome then none
  else if request.locks then
    if s.advisory = none then some ({ s with advisory := some k }.setSession k (.entered request))
    else none
  else some (s.setSession k (.entered request))

/-- What a request does with its locked skill. -/
def afterLock [DecidableEq Digest] (k : Nat) (skill : Skill env) : Request → Option (State env)
  | .updateSkill _ fields =>
    match updatedSkill skill fields with
    | none => some (s.close k)
    | some (version, next) =>
      if next.enabled ∧ (version.digest ≠ skill.currentVersion.digest ∨ ¬ skill.enabled) then
        some (s.setSession k (.validating version next))
      else some (s.setSession k (.writing next))
  | .enableSkill _ =>
    some (s.setSession k (.validating skill.currentVersion { skill with enabled := true }))
  | .disableSkill _ => some (s.setSession k (.disabling skill.id))
  | .deleteSkill _ => some (s.setSession k (.removing skill.id))
  | _ => none

/-- `_skill_or_404` with `for_update`. -/
def lockSkill [DecidableEq Digest] (k : Nat) (request : Request) (skillId : Int) : Option (State env) :=
  match skillRow? skillId s.skills with
  | none => some (s.close k)
  | some skill =>
    if s.free k skillId then (s.lockSkills k [skillId]).afterLock k skill request else none

/-- The default skills of a profile as they are loaded with it. -/
def loadedSkills (profile : WorkerProfile) : List (Skill env) :=
  profile.defaultSkills.filterMap fun id => skillRow? id s.skills

/-- `_load_profile_or_404` with `for_update`. -/
def loadProfile (session : WorkerProfile → Session env) : Option (State env) :=
  match profileRow? profileId s.profiles with
  | none => some (s.close k)
  | some profile =>
    if s.profileLocks profileId = none then
      some ((s.lockProfile k profileId).setSession k (session profile))
    else none

/-- A skill as a session sees it: an object that it has loaded before is not refreshed. -/
def seen (loaded : List (Skill env)) (id : Int) : Option (Skill env) :=
  (skillRow? id s.skills).map fun row => (skillRow? id loaded).getD row

/-- `load_worker_profile_skills`; its query waits for the locks of the rows. -/
def selectSkills (profileId : Option Int) (loaded : List (Skill env)) (ids retained : List Int) :
    Option (State env) :=
  if ids.all (s.free k) then
    match loadWorkerProfileSkills (s.seen loaded) ids retained with
    | .error _ => some (s.close k)
    | .ok skills =>
      some ((s.lockSkills k ids).setSession k (.assigning profileId (skills.map Skill.id)))
  else none

/-- The foreign key of `worker_profile_skills`. -/
def refers : Bool := ids.all fun id => (skillRow? id s.skills).isSome

/-- The INSERT of `create_skill`. -/
def addSkill (new : Skill env) : State env :=
  { s with skills := s.skills ++ [new], usedIds := new.id :: s.usedIds }

/-- The UPDATE of `update_skill` and `enable_skill`. -/
def writeSkill (next : Skill env) : State env :=
  { s with skills := update Skill.id next.id (fun row => { next with id := row.id }) s.skills }

/-- The UPDATE of `disable_skill`. -/
def disableSkill : State env :=
  { s with skills := update Skill.id skillId ({ · with enabled := false }) s.skills }

/-- The DELETE of `delete_skill`, with its cascade. -/
def removeSkill : State env :=
  { s with
    skills := s.skills.filter (·.id ≠ skillId)
    profiles := s.profiles.map fun p =>
      { p with defaultSkills := p.defaultSkills.filter (· ≠ skillId) } }

def addProfile (new : WorkerProfile) : State env := { s with profiles := s.profiles ++ [new] }

def assignSkills : State env :=
  { s with profiles :=
      update WorkerProfile.id profileId ({ · with defaultSkills := ids }) s.profiles }

/-- What a commit writes; a constraint may refuse it. -/
def written (newId : Int) : Session env → Option (State env)
  | .entered (.createSkill name skillMd files enabled) =>
    (buildSkillVersion env name skillMd files).bind fun version =>
      if newId ∈ s.usedIds then none
      else some (s.addSkill
        ⟨newId, version.package.name, version.package.description, version, enabled⟩)
  | .writing next => some (s.writeSkill next)
  | .disabling skillId => some (s.disableSkill skillId)
  | .removing skillId => some (s.removeSkill skillId)
  | .assigning none ids =>
    if s.refers ids ∧ (profileRow? newId s.profiles).isNone then some (s.addProfile ⟨newId, ids⟩)
    else none
  | .assigning (some profileId) ids =>
    if s.refers ids then some (s.assignSkills profileId ids) else none
  | .unchanged => some s
  | _ => none

end State

def step [DecidableEq Digest] (s : State env) : Label → Option (State env)
  | .begin k request => s.beginRequest k request
  | .lockSkill k =>
    match s.sessions k with
    | some (.entered (.updateSkill id fields)) => s.lockSkill k (.updateSkill id fields) id
    | some (.entered (.enableSkill id)) => s.lockSkill k (.enableSkill id) id
    | some (.entered (.disableSkill id)) => s.lockSkill k (.disableSkill id) id
    | some (.entered (.deleteSkill id)) => s.lockSkill k (.deleteSkill id) id
    | _ => none
  | .queryProfiles k =>
    match s.sessions k with
    | some (.validating replacement next) =>
      some (s.setSession k (.measuring replacement next
        ((s.profiles.filter (next.id ∈ ·.defaultSkills)).map WorkerProfile.id)))
    | _ => none
  | .measure k =>
    match s.sessions k with
    | some (.measuring replacement next affected) =>
      if withinLimits s.skills s.profiles affected next.id replacement (some true) then
        some (s.setSession k (.writing next))
      else some (s.close k)
    | _ => none
  | .loadProfile k =>
    match s.sessions k with
    | some (.entered (.createWorkerProfile ids)) =>
      some (s.setSession k (.selecting none [] (ids.getD []) []))
    | some (.entered (.updateWorkerProfile profileId (some (some ids)))) =>
      s.loadProfile k profileId fun profile =>
        .selecting (some profileId) (s.loadedSkills profile) ids
          ((s.loadedSkills profile).map Skill.id)
    | some (.entered (.updateWorkerProfile profileId _)) =>
      s.loadProfile k profileId fun _ => .unchanged
    | some (.entered (.duplicateWorkerProfile profileId)) =>
      s.loadProfile k profileId fun profile =>
        .selecting none (s.loadedSkills profile) ((s.loadedSkills profile).map Skill.id)
          ((s.loadedSkills profile).map Skill.id)
    | _ => none
  | .selectSkills k =>
    match s.sessions k with
    | some (.selecting profileId loaded ids retained) =>
      s.selectSkills k profileId loaded ids retained
    | _ => none
  | .commit k newId =>
    (s.sessions k).bind fun session => (s.written newId session).map (·.close k)
  | .abort k => if (s.sessions k).isSome then some (s.close k) else none

def skillLimits [DecidableEq Digest] (env : Env Digest) : System (State env) Label where
  init := fun s => s = {}
  next := step

/-- The packages whose digests `update_skill` compares: of the version that it has built, and
    of the current one. -/
def comparedPackages [DecidableEq Digest] (s : State env) : Label → List Package
  | .lockSkill k =>
    match s.sessions k with
    | some (.entered (.updateSkill skillId fields)) =>
      match skillRow? skillId s.skills with
      | some skill =>
        match updatedSkill skill fields with
        | some (version, _) => [version.package, skill.currentVersion.package]
        | none => []
      | none => []
    | _ => []
  | _ => []

/-- `packages` are the packages of the run. -/
def PackagesIn [DecidableEq Digest] (packages : Set Package) (s : State env) (l : Label) : Prop :=
  ∀ package ∈ comparedPackages s l, package ∈ packages

instance [DecidableEq Digest] (packages : Set Package) [DecidablePred (· ∈ packages)]
    (s : State env) (l : Label) : Decidable (PackagesIn packages s l) :=
  inferInstanceAs (Decidable (∀ package ∈ comparedPackages s l, package ∈ packages))

variable {s t u : State env} {k : Nat}

/-! ### Totals -/

/-- The bytes that a selection adds up to. -/
def bytesOf (id : Int) : Nat :=
  match skillRow? id skills with
  | none => 0
  | some row => row.bytes

def totalBytes : Nat := (ids.map (bytesOf skills)).sum

/-- A selection that `load_worker_profile_skills` accepts. -/
structure Fits (skills : List (Skill env)) (ids : List Int) : Prop where
  nodup : ids.Nodup
  count : ids.length ≤ maxSkillsPerTask
  positive : ∀ id ∈ ids, 0 < id
  total : totalBytes skills ids ≤ maxTaskSkillPackageBytes

/-- What a request without the advisory lock does to the tables: no skill of old gets enabled
    or another version, and no profile gets a skill. -/
structure Shrinks (s t : State env) : Prop where
  rows : ∀ id ∈ s.usedIds, ∀ row', skillRow? id t.skills = some row' →
    ∃ row, skillRow? id s.skills = some row ∧ row'.currentVersion = row.currentVersion ∧
      (row'.enabled = true → row.enabled = true)
  profiles : ∀ p' ∈ t.profiles, ∃ p ∈ s.profiles, p.id = p'.id ∧
    p'.defaultSkills.Sublist p.defaultSkills
  used : s.usedIds ⊆ t.usedIds

theorem Shrinks.of_tables (hskills : t.skills = s.skills) (hprofiles : t.profiles = s.profiles)
    (hused : t.usedIds = s.usedIds) : Shrinks s t where
  rows := by
    intro id _ row' hrow
    rw [hskills] at hrow
    exact ⟨row', hrow, rfl, fun h => h⟩
  profiles := by
    intro p hp
    rw [hprofiles] at hp
    exact ⟨p, hp, rfl, List.Sublist.refl _⟩
  used := by
    rw [hused]
    exact List.Subset.refl _

variable {ids ids' retained : List Int} {p : WorkerProfile} {profileId : Option Int}

theorem sum_le_of_sublist {f g : Int → Nat} (hsub : ids'.Sublist ids)
    (h : ∀ id ∈ ids', g id ≤ f id) : (ids'.map g).sum ≤ (ids.map f).sum := by
  have hpointwise : (ids'.map g).sum ≤ (ids'.map f).sum := sum_le_sum h
  exact hpointwise.trans ((hsub.map f).sum_le_sum (fun _ _ => Nat.zero_le _))

theorem Shrinks.bytesOf_le (h : Shrinks s t) {id : Int} (hid : id ∈ s.usedIds) :
    bytesOf t.skills id ≤ bytesOf s.skills id := by
  cases hrow : skillRow? id t.skills with
  | none => simp [bytesOf, hrow]
  | some row' =>
    obtain ⟨row, hrow', hversion, henabled⟩ := h.rows id hid row' hrow
    simp only [bytesOf, hrow, hrow', Skill.bytes, hversion]
    by_cases hon : row'.enabled = true
    · rw [if_pos hon, if_pos (henabled hon)]
    · rw [if_neg hon]
      exact Nat.zero_le _

theorem Shrinks.measured_le (h : Shrinks s t) {id skillId : Int} {version : SkillVersion env}
    (hid : id ∈ s.usedIds) :
    measured t.skills skillId version (some true) id ≤
      measured s.skills skillId version (some true) id := by
  cases hrow : skillRow? id t.skills with
  | none => simp [measured, hrow]
  | some row' =>
    obtain ⟨row, hrow', hversion, henabled⟩ := h.rows id hid row' hrow
    simp only [measured, hrow, hrow', getD_some]
    by_cases hsame : id = skillId
    · simp [hsame]
    · simp only [if_neg hsame, hversion]
      by_cases hon : row'.enabled = true
      · simp [hon, henabled hon]
      · simp [hon]

/-! ### What a Session Has Found Out -/

/-- No profile that has the skill outgrows the limit when the row is written. -/
def Ready (s : State env) (next : Skill env) : Prop :=
  next.enabled = true → ∀ p ∈ s.profiles, next.id ∈ p.defaultSkills →
    (p.defaultSkills.map (measured s.skills next.id next.currentVersion (some true))).sum ≤
      maxTaskSkillPackageBytes

def Session.Facts (s : State env) : Session env → Prop
  | .validating replacement next =>
    replacement.packageSizeBytes = next.currentVersion.packageSizeBytes
  | .measuring replacement next affected =>
    replacement.packageSizeBytes = next.currentVersion.packageSizeBytes ∧
      ∀ p ∈ s.profiles, next.id ∈ p.defaultSkills → p.id ∈ affected
  | .writing next => Ready s next
  | .selecting _ loaded _ _ => ∀ skill ∈ loaded, skill.id ∈ s.usedIds ∧
      ∀ row, skillRow? skill.id s.skills = some row →
        row.currentVersion = skill.currentVersion ∧ (row.enabled = true → skill.enabled = true)
  | .assigning _ ids => Fits s.skills ids ∧ ∀ id ∈ ids, id ∈ s.usedIds
  | .entered _ | .disabling _ | .removing _ | .unchanged => True

/-- The invariant of every run. -/
structure Inv (s : State env) : Prop where
  used : ∀ row ∈ s.skills, row.id ∈ s.usedIds
  fits : ∀ p ∈ s.profiles, Fits s.skills p.defaultSkills
  refers : ∀ p ∈ s.profiles, ∀ id ∈ p.defaultSkills, (skillRow? id s.skills).isSome
  locked : ∀ k session, s.sessions k = some session → session.locks = true → s.advisory = some k
  facts : ∀ k session, s.sessions k = some session → session.Facts s

theorem Inv.used_of_row (h : Inv s) {id : Int} {row : Skill env}
    (hrow : skillRow? id s.skills = some row) : id ∈ s.usedIds := by
  obtain ⟨hmem, rfl⟩ := mem_of_row? hrow
  exact h.used row hmem

theorem Inv.used_of_default (h : Inv s) (hp : p ∈ s.profiles) {id : Int}
    (hid : id ∈ p.defaultSkills) : id ∈ s.usedIds := by
  obtain ⟨row, hrow⟩ := isSome_iff_exists.mp (h.refers p hp id hid)
  exact h.used_of_row hrow

theorem Session.Facts.of_shrinks (hinv : Inv s) (h : Shrinks s t) {session : Session env}
    (hs : session.Facts s) : session.Facts t := by
  cases session with
  | validating replacement next => exact hs
  | measuring replacement next affected =>
    refine ⟨hs.1, ?_⟩
    intro p' hp' hmem
    obtain ⟨p, hp, hid, hsub⟩ := h.profiles p' hp'
    rw [← hid]
    exact hs.2 p hp (hsub.subset hmem)
  | writing next =>
    intro henabled p' hp' hmem
    obtain ⟨p, hp, _, hsub⟩ := h.profiles p' hp'
    refine (sum_le_of_sublist hsub ?_).trans (hs henabled p hp (hsub.subset hmem))
    intro id hid
    exact h.measured_le (hinv.used_of_default hp (hsub.subset hid))
  | selecting profileId loaded ids retained =>
    intro skill hskill
    obtain ⟨hused, hrow⟩ := hs skill hskill
    refine ⟨h.used hused, ?_⟩
    intro row' hrow'
    obtain ⟨row, hfound, hversion, henabled⟩ := h.rows skill.id hused row' hrow'
    obtain ⟨hsame, hon⟩ := hrow row hfound
    exact ⟨hversion.trans hsame, fun h => hon (henabled h)⟩
  | assigning profileId ids =>
    obtain ⟨hfits, hused⟩ := hs
    refine ⟨⟨hfits.nodup, hfits.count, hfits.positive, ?_⟩, fun id hid => h.used (hused id hid)⟩
    exact (sum_le_of_sublist (List.Sublist.refl ids)
      fun id hid => h.bytesOf_le (hused id hid)).trans hfits.total
  | entered request | disabling skillId | removing skillId | unchanged => exact True.intro

theorem Session.Facts.of_not_locks {session : Session env} (h : session.locks ≠ true) (s : State env) :
    session.Facts s := by
  cases session with
  | entered request | disabling skillId | removing skillId | unchanged => exact True.intro
  | validating replacement next | measuring replacement next affected | writing next
  | selecting profileId loaded ids retained | assigning profileId ids =>
    exact absurd rfl h

theorem Session.Facts.of_tables {session : Session env} (h : session.Facts s) (t : State env)
    (hskills : t.skills = s.skills) (hprofiles : t.profiles = s.profiles)
    (hused : t.usedIds = s.usedIds) : session.Facts t := by
  obtain ⟨skills, profiles, usedIds, _, _, _, _⟩ := t
  subst hskills hprofiles hused
  cases session <;> exact h

/-! ### Selections That Are Accepted -/

theorem normalizeSkillIds_eq_ok (h : normalizeSkillIds ids = .ok ids') :
    ids' = ids ∧ ids.length ≤ maxSkillsPerTask ∧ ids.Nodup ∧ ∀ id ∈ ids, 0 < id := by
  unfold normalizeSkillIds at h
  split at h
  · cases h
  next hcount =>
  split at h
  · cases h
  next hnodup =>
  split at h
  · cases h
  next hpositive =>
  cases h
  push Not at hcount hnodup hpositive
  exact ⟨rfl, hcount, hnodup, hpositive⟩

theorem normalizeSkillIds_of_fits (hcount : ids.length ≤ maxSkillsPerTask)
    (hnodup : ids.Nodup) (hpositive : ∀ id ∈ ids, 0 < id) : normalizeSkillIds ids = .ok ids := by
  have hnonpositive : ¬ ∃ id ∈ ids, id ≤ 0 := by
    rintro ⟨id, hid, hle⟩
    have := hpositive id hid
    omega
  rw [normalizeSkillIds, if_neg (by omega), if_neg (not_not.mpr hnodup), if_neg hnonpositive]

theorem foundSkills_eq_ok {rows : Int → Option (Skill env)}
    {skills : List (Skill env)} (h : foundSkills rows ids = .ok skills) :
    skills = ids.filterMap rows ∧ ∀ id ∈ ids, (rows id).isSome := by
  unfold foundSkills at h
  split at h
  · cases h
  next hall =>
  cases h
  refine ⟨rfl, ?_⟩
  intro id hid
  have := find?_eq_none.mp hall id hid
  simpa [isSome_iff_ne_none] using this

theorem sum_filterMap {rows : Int → Option (Skill env)}
    (h : ∀ id ∈ ids, (rows id).isSome) (f : Skill env → Nat) :
    ((ids.filterMap rows).map f).sum = (ids.map fun id => (rows id).elim 0 f).sum := by
  induction ids with
  | nil => rfl
  | cons id ids ih =>
    obtain ⟨row, hrow⟩ := isSome_iff_exists.mp (h id mem_cons_self)
    have hrest := ih fun id' hid' => h id' (mem_cons_of_mem _ hid')
    simp [hrow, hrest]

theorem map_id_filterMap {rows : Int → Option (Skill env)}
    (h : ∀ id ∈ ids, (rows id).isSome) (hid : ∀ id row, rows id = some row → row.id = id) :
    (ids.filterMap rows).map Skill.id = ids := by
  induction ids with
  | nil => rfl
  | cons id ids ih =>
    obtain ⟨row, hrow⟩ := isSome_iff_exists.mp (h id mem_cons_self)
    have hrest := ih fun id' hid' => h id' (mem_cons_of_mem _ hid')
    simp [hrow, hrest, hid id row hrow]

/-- An object that the session has loaded before counts for no less than its row. -/
theorem seen_bytes {loaded : List (Skill env)}
    (hfacts : (Session.selecting profileId loaded ids retained).Facts s) {id : Int} {skill : Skill env}
    (hseen : s.seen loaded id = some skill) :
    skill.id = id ∧ bytesOf s.skills id ≤ skill.bytes := by
  obtain ⟨row, hrow, rfl⟩ := map_eq_some_iff.mp hseen
  have hid := (mem_of_row? hrow).2
  cases hloaded : skillRow? id loaded with
  | none => exact ⟨hid, by simp [bytesOf, hrow]⟩
  | some skill =>
    obtain ⟨hmem, rfl⟩ := mem_of_row? hloaded
    obtain ⟨_, hkept⟩ := hfacts skill hmem
    obtain ⟨hversion, henabled⟩ := hkept row hrow
    refine ⟨rfl, ?_⟩
    simp only [bytesOf, hrow, getD_some, Skill.bytes, hversion]
    by_cases hon : row.enabled = true
    · rw [if_pos hon, if_pos (henabled hon)]
    · rw [if_neg hon]
      exact Nat.zero_le _

theorem loadWorkerProfileSkills_fits (hinv : Inv s) {loaded skills : List (Skill env)}
    (hfacts : (Session.selecting profileId loaded ids retained).Facts s)
    (h : loadWorkerProfileSkills (s.seen loaded) ids retained = .ok skills) :
    skills.map Skill.id = ids ∧ Fits s.skills ids ∧ ∀ id ∈ ids, id ∈ s.usedIds := by
  obtain ⟨ids', hids, hselected⟩ := bind_eq_ok_iff.mp h
  obtain ⟨rfl, hcount, hnodup, hpositive⟩ := normalizeSkillIds_eq_ok hids
  obtain ⟨found, hfound, hchecked⟩ := bind_eq_ok_iff.mp hselected
  obtain ⟨rfl, hall⟩ := foundSkills_eq_ok hfound
  split at hchecked
  · cases hchecked
  split at hchecked
  · cases hchecked
  next hbytes =>
  cases hchecked
  refine ⟨map_id_filterMap hall fun id row hrow => (seen_bytes hfacts hrow).1, ?_, ?_⟩
  · refine ⟨hnodup, hcount, hpositive, ?_⟩
    rw [sum_filterMap hall] at hbytes
    refine le_trans (sum_le_sum ?_) (not_lt.mp hbytes)
    intro id hid
    obtain ⟨skill, hskill⟩ := isSome_iff_exists.mp (hall id hid)
    rw [hskill]
    exact (seen_bytes hfacts hskill).2
  · intro id hid
    obtain ⟨skill, hskill⟩ := isSome_iff_exists.mp (hall id hid)
    obtain ⟨row, hrow, _⟩ := map_eq_some_iff.mp hskill
    exact hinv.used_of_row hrow

/-! ### Statements -/

/-- The tables of `t` are those of `s`. -/
structure SameTables (s t : State env) : Prop where
  skills : t.skills = s.skills
  profiles : t.profiles = s.profiles
  used : t.usedIds = s.usedIds

theorem Inv.goesOn (hinv : Inv s) (u : State env) (htables : SameTables s u)
    (hsessions : u.sessions = s.sessions)
    (hadvisory : ∀ j, j ≠ k → s.advisory = some j → u.advisory = some j) {session : Session env}
    (hlocks : session.locks = true → u.advisory = some k) (hfacts : session.Facts s) :
    Inv (u.setSession k session) := by
  have hshrinks : Shrinks s (u.setSession k session) :=
    .of_tables htables.skills htables.profiles htables.used
  refine ⟨?_, ?_, ?_, ?_, ?_⟩
  · intro row hrow
    have hrow : row ∈ u.skills := hrow
    rw [htables.skills] at hrow
    exact hshrinks.used (hinv.used row hrow)
  · intro p hp
    have hp : p ∈ u.profiles := hp
    rw [htables.profiles] at hp
    have hsame : (u.setSession k session).skills = s.skills := htables.skills
    rw [hsame]
    exact hinv.fits p hp
  · intro p hp
    have hp : p ∈ u.profiles := hp
    rw [htables.profiles] at hp
    have hsame : (u.setSession k session).skills = s.skills := htables.skills
    rw [hsame]
    exact hinv.refers p hp
  · intro j other hother hlocked
    by_cases hj : j = k
    · subst hj
      obtain rfl : session = other := by simpa [State.setSession] using hother
      exact hlocks hlocked
    · simp only [State.setSession, if_neg hj, hsessions] at hother
      exact hadvisory j hj (hinv.locked j other hother hlocked)
  · intro j other hother
    by_cases hj : j = k
    · subst hj
      obtain rfl : session = other := by simpa [State.setSession] using hother
      exact hfacts.of_shrinks hinv hshrinks
    · simp only [State.setSession, if_neg hj, hsessions] at hother
      exact (hinv.facts j other hother).of_shrinks hinv hshrinks

theorem Inv.ends (hused : ∀ row ∈ u.skills, row.id ∈ u.usedIds)
    (hfits : ∀ p ∈ u.profiles, Fits u.skills p.defaultSkills)
    (hrefers : ∀ p ∈ u.profiles, ∀ id ∈ p.defaultSkills, (skillRow? id u.skills).isSome)
    (hothers : ∀ j, j ≠ k → ∀ session, u.sessions j = some session →
      (session.locks = true → u.advisory = some j) ∧ session.Facts u) : Inv (u.close k) := by
  refine ⟨hused, hfits, hrefers, ?_, ?_⟩
  · intro j session hsession hlocked
    by_cases hj : j = k
    · simp [State.close, hj] at hsession
    · simp only [State.close, if_neg hj] at hsession
      have hheld := (hothers j hj session hsession).1 hlocked
      have hne : u.advisory ≠ some k := by
        rw [hheld]
        exact fun h => hj (some.inj h)
      simp only [State.close, if_neg hne]
      exact hheld
  · intro j session hsession
    by_cases hj : j = k
    · simp [State.close, hj] at hsession
    · simp only [State.close, if_neg hj] at hsession
      exact (hothers j hj session hsession).2.of_tables _ rfl rfl rfl

theorem Inv.rolledBack (hinv : Inv s) (k : Nat) : Inv (s.close k) :=
  .ends hinv.used hinv.fits hinv.refers fun j _ session hsession =>
    ⟨hinv.locked j session hsession, hinv.facts j session hsession⟩

theorem Inv.shrunk (hinv : Inv s) (h : Shrinks s u) (hsessions : u.sessions = s.sessions)
    (hadvisory : u.advisory = s.advisory) (hused : ∀ row ∈ u.skills, row.id ∈ u.usedIds)
    (hrefers : ∀ p ∈ u.profiles, ∀ id ∈ p.defaultSkills, (skillRow? id u.skills).isSome)
    (k : Nat) : Inv (u.close k) := by
  refine .ends hused ?_ hrefers ?_
  · intro p' hp'
    obtain ⟨p, hp, _, hsub⟩ := h.profiles p' hp'
    have hold := hinv.fits p hp
    refine ⟨hold.nodup.sublist hsub, hsub.length_le.trans hold.count,
      fun id hid => hold.positive id (hsub.subset hid), ?_⟩
    refine (sum_le_of_sublist hsub ?_).trans hold.total
    intro id hid
    exact h.bytesOf_le (hinv.used_of_default hp (hsub.subset hid))
  · intro j _ session hsession
    rw [hsessions] at hsession
    rw [hadvisory]
    exact ⟨hinv.locked j session hsession, (hinv.facts j session hsession).of_shrinks hinv h⟩

theorem Inv.grown (hinv : Inv s) (hheld : s.advisory = some k) (hsessions : u.sessions = s.sessions)
    (hused : ∀ row ∈ u.skills, row.id ∈ u.usedIds)
    (hfits : ∀ p ∈ u.profiles, Fits u.skills p.defaultSkills)
    (hrefers : ∀ p ∈ u.profiles, ∀ id ∈ p.defaultSkills, (skillRow? id u.skills).isSome) :
    Inv (u.close k) := by
  refine .ends hused hfits hrefers ?_
  intro j hj session hsession
  rw [hsessions] at hsession
  have hfree : session.locks ≠ true := by
    intro hlocked
    have := hinv.locked j session hsession hlocked
    rw [hheld] at this
    exact hj (some.inj this).symm
  exact ⟨fun hlocked => absurd hlocked hfree, .of_not_locks hfree u⟩

/-! ### Commits Without the Lock -/

theorem skillRow?_filter (id skillId : Int) (skills : List (Skill env)) :
    skillRow? id (skills.filter (·.id ≠ skillId)) =
      if id = skillId then none else skillRow? id skills := by
  unfold skillRow? row?
  rw [find?_filter]
  by_cases hid : id = skillId
  · rw [if_pos hid, find?_eq_none]
    intro row _
    simp [hid]
  · rw [if_neg hid]
    congr 1
    funext row
    by_cases hrow : row.id = id
    · simp [hrow, hid]
    · simp [hrow]

theorem skillRow?_append {id : Int} {new : Skill env} (h : new.id ≠ id) (skills : List (Skill env)) :
    skillRow? id (skills ++ [new]) = skillRow? id skills := by
  unfold skillRow? row?
  rw [find?_append, find?_singleton]
  simp [h]

theorem Inv.created (hinv : Inv s) (new : Skill env) (hnew : new.id ∉ s.usedIds) (k : Nat) :
    Inv ((s.addSkill new).close k) := by
  have hrow : ∀ id ∈ s.usedIds, skillRow? id (s.addSkill new).skills = skillRow? id s.skills := by
    intro id hid
    apply skillRow?_append
    rintro rfl
    exact hnew hid
  have hshrinks : Shrinks s (s.addSkill new) := by
    refine ⟨?_, ?_, ?_⟩
    · intro id hid row' hrow'
      rw [hrow id hid] at hrow'
      exact ⟨row', hrow', rfl, fun h => h⟩
    · intro p hp
      exact ⟨p, hp, rfl, List.Sublist.refl _⟩
    · exact subset_cons_self _ _
  refine hinv.shrunk hshrinks rfl rfl ?_ ?_ k
  · intro row hmem
    rcases mem_append.mp hmem with hmem | hmem
    · exact mem_cons_of_mem _ (hinv.used row hmem)
    · obtain rfl := mem_singleton.mp hmem
      exact mem_cons_self
  · intro p hp id hid
    rw [hrow id (hinv.used_of_default hp hid)]
    exact hinv.refers p hp id hid

theorem Inv.disabled (hinv : Inv s) (skillId : Int) (k : Nat) :
    Inv ((s.disableSkill skillId).close k) := by
  have hrow : ∀ id, skillRow? id (s.disableSkill skillId).skills =
      (skillRow? id s.skills).map fun row =>
        if row.id = skillId then { row with enabled := false } else row := by
    intro id
    have hkey : ∀ row : Skill env, ({ row with enabled := false } : Skill env).id = row.id :=
      fun _ => rfl
    exact row?_update hkey id s.skills
  have hshrinks : Shrinks s (s.disableSkill skillId) := by
    refine ⟨?_, ?_, ?_⟩
    · intro id _ row' hrow'
      rw [hrow id] at hrow'
      obtain ⟨row, hfound, rfl⟩ := map_eq_some_iff.mp hrow'
      refine ⟨row, hfound, ?_⟩
      split
      · exact ⟨rfl, fun h => absurd h Bool.false_ne_true⟩
      · exact ⟨rfl, fun h => h⟩
    · intro p hp
      exact ⟨p, hp, rfl, List.Sublist.refl _⟩
    · exact List.Subset.refl _
  refine hinv.shrunk hshrinks rfl rfl ?_ ?_ k
  · intro row' hmem
    obtain ⟨row, hrow, rfl⟩ := List.mem_map.mp hmem
    have := hinv.used row hrow
    split <;> exact this
  · intro p hp id hid
    have := hinv.refers p hp id hid
    rw [hrow id, isSome_map]
    exact this

theorem Inv.removed (hinv : Inv s) (skillId : Int) (k : Nat) :
    Inv ((s.removeSkill skillId).close k) := by
  have hshrinks : Shrinks s (s.removeSkill skillId) := by
    refine ⟨?_, ?_, ?_⟩
    · intro id _ row' hrow'
      have hrow' := (skillRow?_filter id skillId s.skills).symm.trans hrow'
      obtain ⟨_, hfound⟩ := ite_none_left_eq_some.mp hrow'
      exact ⟨row', hfound, rfl, fun h => h⟩
    · intro p' hp'
      obtain ⟨p, hp, rfl⟩ := List.mem_map.mp hp'
      exact ⟨p, hp, rfl, filter_sublist⟩
    · exact List.Subset.refl _
  refine hinv.shrunk hshrinks rfl rfl ?_ ?_ k
  · intro row hmem
    exact hinv.used row (mem_of_mem_filter hmem)
  · intro p' hp' id hid
    obtain ⟨p, hp, rfl⟩ := List.mem_map.mp hp'
    obtain ⟨hdefault, hne⟩ := mem_filter.mp hid
    show (skillRow? id (s.skills.filter (·.id ≠ skillId))).isSome
    rw [skillRow?_filter, if_neg (by simpa using hne)]
    exact hinv.refers p hp id hdefault

/-! ### Commits Under the Lock -/

theorem skillRow?_writeSkill (s : State env) (next : Skill env) (id : Int) :
    skillRow? id (s.writeSkill next).skills =
      (skillRow? id s.skills).map fun row =>
        if row.id = next.id then { next with id := row.id } else row := by
  have hkey : ∀ row : Skill env, ({ next with id := row.id } : Skill env).id = row.id := fun _ => rfl
  exact row?_update hkey id s.skills

theorem bytesOf_writeSkill_le (s : State env) {next : Skill env} (henabled : next.enabled = true)
    (id : Int) : bytesOf (s.writeSkill next).skills id ≤
      measured s.skills next.id next.currentVersion (some true) id := by
  unfold bytesOf measured
  rw [skillRow?_writeSkill]
  cases hrow : skillRow? id s.skills with
  | none => simp
  | some row =>
    obtain rfl := (mem_of_row? hrow).2
    by_cases hsame : row.id = next.id
    · simp [hsame, Skill.bytes, henabled]
    · simp only [map_some, if_neg hsame, Skill.bytes]
      by_cases hon : row.enabled = true
      · simp [hon]
      · simp [hon]

/-- A row that is written as disabled counts for nothing, and any other one for what it did. -/
theorem bytesOf_writeSkill_le_of_kept (s : State env) {next : Skill env} {id : Int}
    (h : next.enabled = true → id ≠ next.id) :
    bytesOf (s.writeSkill next).skills id ≤ bytesOf s.skills id := by
  unfold bytesOf
  rw [skillRow?_writeSkill]
  cases hrow : skillRow? id s.skills with
  | none => simp
  | some row =>
    obtain rfl := (mem_of_row? hrow).2
    by_cases hsame : row.id = next.id
    · have hoff : next.enabled ≠ true := fun henabled => h henabled hsame
      simp [hsame, Skill.bytes, hoff]
    · simp [hsame]

/-- `update_skill` and `enable_skill`: what was checked for each profile is what it gets. -/
theorem Inv.wrote (hinv : Inv s) (hheld : s.advisory = some k) {next : Skill env}
    (hready : Ready s next) : Inv ((s.writeSkill next).close k) := by
  refine hinv.grown hheld rfl ?_ ?_ ?_
  · intro row' hmem
    obtain ⟨row, hrow, rfl⟩ := List.mem_map.mp hmem
    have := hinv.used row hrow
    split <;> exact this
  · intro p hp
    have hold := hinv.fits p hp
    refine ⟨hold.nodup, hold.count, hold.positive, ?_⟩
    by_cases hcase : next.enabled = true ∧ next.id ∈ p.defaultSkills
    · refine le_trans (sum_le_sum ?_) (hready hcase.1 p hp hcase.2)
      intro id _
      exact bytesOf_writeSkill_le s hcase.1 id
    · refine le_trans (sum_le_sum ?_) hold.total
      intro id hid
      apply bytesOf_writeSkill_le_of_kept
      rintro henabled rfl
      exact hcase ⟨henabled, hid⟩
  · intro p hp id hid
    rw [skillRow?_writeSkill, isSome_map]
    exact hinv.refers p hp id hid

theorem refers_iff :
    s.refers ids = true ↔ ∀ id ∈ ids, (skillRow? id s.skills).isSome = true :=
  List.all_eq_true

theorem Inv.addedProfile (hinv : Inv s) (hheld : s.advisory = some k)
    (hfits : Fits s.skills ids) (hrefers : s.refers ids = true) (newId : Int) :
    Inv ((s.addProfile ⟨newId, ids⟩).close k) := by
  refine hinv.grown hheld rfl hinv.used ?_ ?_
  · intro p hp
    rcases mem_append.mp hp with hp | hp
    · exact hinv.fits p hp
    · obtain rfl := mem_singleton.mp hp
      exact hfits
  · intro p hp
    rcases mem_append.mp hp with hp | hp
    · exact hinv.refers p hp
    · obtain rfl := mem_singleton.mp hp
      exact refers_iff.mp hrefers

theorem Inv.assigned (hinv : Inv s) (hheld : s.advisory = some k)
    (hfits : Fits s.skills ids) (hrefers : s.refers ids = true) (profileId : Int) :
    Inv ((s.assignSkills profileId ids).close k) := by
  refine hinv.grown hheld rfl hinv.used ?_ ?_
  · intro p' hp'
    obtain ⟨p, hp, rfl⟩ := List.mem_map.mp hp'
    split
    · exact hfits
    · exact hinv.fits p hp
  · intro p' hp'
    obtain ⟨p, hp, rfl⟩ := List.mem_map.mp hp'
    split
    · exact refers_iff.mp hrefers
    · exact hinv.refers p hp

theorem Inv.written (hinv : Inv s) {session : Session env} (hk : s.sessions k = some session)
    {newId : Int} (h : s.written newId session = some u) : Inv (u.close k) := by
  have hlocked := hinv.locked k session hk
  have hfacts := hinv.facts k session hk
  cases session with
  | entered request =>
    cases request with
    | createSkill name skillMd files enabled =>
      obtain ⟨version, _, h⟩ := bind_eq_some_iff.mp h
      obtain ⟨hnew, h⟩ := ite_none_left_eq_some.mp h
      cases h
      exact hinv.created _ hnew k
    | updateSkill skillId fields | enableSkill skillId | disableSkill skillId
    | deleteSkill skillId | createWorkerProfile ids | updateWorkerProfile profileId ids
    | duplicateWorkerProfile profileId =>
      cases h
  | validating replacement next => cases h
  | measuring replacement next affected => cases h
  | selecting profileId loaded ids retained => cases h
  | writing next =>
    cases h
    exact hinv.wrote (hlocked rfl) hfacts
  | disabling skillId =>
    cases h
    exact hinv.disabled skillId k
  | removing skillId =>
    cases h
    exact hinv.removed skillId k
  | unchanged =>
    cases h
    exact hinv.rolledBack k
  | assigning profileId ids =>
    cases profileId with
    | none =>
      obtain ⟨⟨hrefers, _⟩, h⟩ := ite_none_right_eq_some.mp h
      cases h
      exact hinv.addedProfile (hlocked rfl) hfacts.1 hrefers newId
    | some profileId =>
      obtain ⟨hrefers, rfl⟩ := of_guarded h
      exact hinv.assigned (hlocked rfl) hfacts.1 hrefers profileId

/-! ### The Step -/

theorem measured_congr {version version' : SkillVersion env}
    (h : version.packageSizeBytes = version'.packageSizeBytes) (skills : List (Skill env))
    (skillId : Int) (targetEnabled : Option Bool) :
    measured skills skillId version targetEnabled = measured skills skillId version' targetEnabled := by
  funext id
  simp only [measured, h]

theorem measured_self {skill : Skill env} (hrow : skillRow? skill.id s.skills = some skill)
    (hon : skill.enabled = true) (id : Int) :
    measured s.skills skill.id skill.currentVersion (some true) id = bytesOf s.skills id := by
  unfold measured bytesOf
  by_cases hid : id = skill.id
  · subst hid
    simp [hrow, hon, Skill.bytes]
  · cases skillRow? id s.skills with
    | none => rfl
    | some row =>
      simp only [if_neg hid, Skill.bytes]
      by_cases henabled : row.enabled = true
      · simp [henabled]
      · simp [henabled]

section Step

variable [DecidableEq Digest]

variable {fields : SkillUpdate}

theorem updatedSkill_spec {skill next : Skill env}
    {version : SkillVersion env} (h : updatedSkill skill fields = some (version, next)) :
    next.id = skill.id ∧ next.currentVersion =
      if version.digest ≠ skill.currentVersion.digest then version else skill.currentVersion := by
  obtain ⟨version', _, hpair⟩ := map_eq_some_iff.mp h
  obtain ⟨rfl, rfl⟩ := Prod.mk.inj hpair
  exact ⟨rfl, rfl⟩

/-- The version that `update_skill` measures has the size of the one that it keeps: equal digests
    are digests of one package. -/
theorem updatedSkill_size {packages : Set Package} (hdigest : Set.InjOn env.digest packages)
    {skill next : Skill env} {version : SkillVersion env}
    (h : updatedSkill skill fields = some (version, next)) (hbuilt : version.package ∈ packages)
    (hcurrent : skill.currentVersion.package ∈ packages) :
    version.packageSizeBytes = next.currentVersion.packageSizeBytes := by
  rw [(updatedSkill_spec h).2]
  split
  · rfl
  next hsame =>
  have hpackages : version.package = skill.currentVersion.package := by
    apply hdigest hbuilt hcurrent
    rw [← version.digest_eq, ← skill.currentVersion.digest_eq]
    exact not_not.mp hsame
  rw [version.size_eq, skill.currentVersion.size_eq, hpackages]

theorem ready_unchecked (hinv : Inv s) {skill next : Skill env}
    {version : SkillVersion env} (hrow : skillRow? skill.id s.skills = some skill)
    (h : updatedSkill skill fields = some (version, next))
    (hskip : ¬ (next.enabled = true ∧
      (version.digest ≠ skill.currentVersion.digest ∨ ¬ skill.enabled = true))) : Ready s next := by
  intro henabled p hp _
  have hsame : version.digest = skill.currentVersion.digest := by
    by_contra hne
    exact hskip ⟨henabled, .inl hne⟩
  have hon : skill.enabled = true := by
    by_contra hoff
    exact hskip ⟨henabled, .inr hoff⟩
  obtain ⟨hid, hversion⟩ := updatedSkill_spec h
  rw [if_neg (not_not.mpr hsame)] at hversion
  rw [hid, hversion]
  have hbytes : p.defaultSkills.map (measured s.skills skill.id skill.currentVersion (some true)) =
      p.defaultSkills.map (bytesOf s.skills) :=
    map_congr_left fun id _ => measured_self hrow hon id
  rw [hbytes]
  exact (hinv.fits p hp).total

omit [DecidableEq Digest] in
theorem Inv.locksOn (hinv : Inv s) (skill : Skill env) {session : Session env}
    (hlocks : session.locks = true → s.advisory = some k) (hfacts : session.Facts s) :
    Inv ((s.lockSkills k [skill.id]).setSession k session) :=
  hinv.goesOn (s.lockSkills k [skill.id]) ⟨rfl, rfl, rfl⟩ rfl (fun _ _ hj => hj) hlocks hfacts

/-- `update_skill` locks its row, builds a version, and checks the profiles or does not need to. -/
theorem Inv.lockedUpdate {packages : Set Package} (hdigest : Set.InjOn env.digest packages)
    (hinv : Inv s) (hheld : s.advisory = some k) {skillId : Int}
    (hcompared : ∀ skill version next, skillRow? skillId s.skills = some skill →
      updatedSkill skill fields = some (version, next) →
      version.package ∈ packages ∧ skill.currentVersion.package ∈ packages)
    (h : s.lockSkill k (.updateSkill skillId fields) skillId = some t) : Inv t := by
  unfold State.lockSkill at h
  split at h
  · cases h
    exact hinv.rolledBack k
  next skill hrow =>
  obtain ⟨_, h⟩ := ite_none_right_eq_some.mp h
  obtain rfl := (mem_of_row? hrow).2
  simp only [State.afterLock] at h
  split at h
  · cases h
    exact .ends hinv.used hinv.fits hinv.refers fun j _ session hsession =>
      ⟨hinv.locked j session hsession, (hinv.facts j session hsession).of_tables _ rfl rfl rfl⟩
  next version next hupdated =>
  split at h
  · cases h
    obtain ⟨hbuilt, hcurrent⟩ := hcompared skill version next hrow hupdated
    exact hinv.locksOn skill (fun _ => hheld)
      (updatedSkill_size hdigest hupdated hbuilt hcurrent)
  next hskip =>
  cases h
  exact hinv.locksOn skill (fun _ => hheld) (ready_unchecked hinv hrow hupdated hskip)

theorem Inv.lockedSkill (hinv : Inv s) {request : Request} {skillId : Int}
    (h : s.lockSkill k request skillId = some t)
    (hother : ∀ skillId fields, request ≠ .updateSkill skillId fields)
    (hheld : request.locks = true → s.advisory = some k) : Inv t := by
  unfold State.lockSkill at h
  split at h
  · cases h
    exact hinv.rolledBack k
  next skill hrow =>
  obtain ⟨_, h⟩ := ite_none_right_eq_some.mp h
  obtain rfl := (mem_of_row? hrow).2
  cases request with
  | updateSkill skillId fields => exact absurd rfl (hother skillId fields)
  | enableSkill _ =>
    cases h
    exact hinv.locksOn skill (fun _ => hheld rfl) rfl
  | disableSkill _ | deleteSkill _ =>
    cases h
    exact hinv.locksOn skill nofun True.intro
  | createSkill name skillMd files enabled => cases h
  | createWorkerProfile ids => cases h
  | updateWorkerProfile profileId ids => cases h
  | duplicateWorkerProfile profileId => cases h

end Step

theorem loadedSkills_facts (hinv : Inv s) (profile : WorkerProfile) (profileId : Option Int)
    (ids retained : List Int) :
    (Session.selecting profileId (s.loadedSkills profile) ids retained).Facts s := by
  intro skill hskill
  obtain ⟨id, _, hrow⟩ := mem_filterMap.mp hskill
  obtain rfl := (mem_of_row? hrow).2
  refine ⟨hinv.used_of_row hrow, ?_⟩
  intro row hfound
  cases hfound.symm.trans hrow
  exact ⟨rfl, fun h => h⟩

theorem Inv.loadedProfile (hinv : Inv s) {profileId : Int} {session : WorkerProfile → Session env}
    (hlocks : ∀ profile, (session profile).locks = true → s.advisory = some k)
    (hfacts : ∀ profile, (session profile).Facts s)
    (h : s.loadProfile k profileId session = some t) : Inv t := by
  unfold State.loadProfile at h
  split at h
  · cases h
    exact hinv.rolledBack k
  next profile _ =>
  obtain ⟨_, rfl⟩ := of_guarded h
  exact hinv.goesOn (s.lockProfile k profileId) ⟨rfl, rfl, rfl⟩ rfl (fun _ _ hj => hj) (hlocks profile)
    (hfacts profile)

theorem Inv.selected (hinv : Inv s) (hheld : s.advisory = some k)
    {loaded : List (Skill env)}
    (hfacts : (Session.selecting profileId loaded ids retained).Facts s)
    (h : s.selectSkills k profileId loaded ids retained = some t) : Inv t := by
  obtain ⟨_, h⟩ := ite_none_right_eq_some.mp h
  split at h
  · cases h
    exact hinv.rolledBack k
  next skills hskills =>
  cases h
  obtain ⟨hids, hfits, hused⟩ := loadWorkerProfileSkills_fits hinv hfacts hskills
  rw [hids]
  exact hinv.goesOn (s.lockSkills k ids) ⟨rfl, rfl, rfl⟩ rfl (fun _ _ hj => hj) (fun _ => hheld)
    ⟨hfits, hused⟩

theorem Inv.queried (hinv : Inv s) (hheld : s.advisory = some k) {replacement : SkillVersion env}
    {next : Skill env} (hfacts : (Session.validating replacement next).Facts s) :
    Inv (s.setSession k (.measuring replacement next
      ((s.profiles.filter (next.id ∈ ·.defaultSkills)).map WorkerProfile.id))) := by
  refine hinv.goesOn s ⟨rfl, rfl, rfl⟩ rfl (fun _ _ hj => hj) (fun _ => hheld) ?_
  refine ⟨hfacts, ?_⟩
  intro p hp hmem
  exact List.mem_map.mpr ⟨p, mem_filter.mpr ⟨hp, by simpa using hmem⟩, rfl⟩

theorem ready_of_withinLimits {replacement : SkillVersion env} {next : Skill env}
    {affected : List Int} (hfacts : (Session.measuring replacement next affected).Facts s)
    (h : withinLimits s.skills s.profiles affected next.id replacement (some true) = true) :
    Ready s next := by
  intro _ p hp hmem
  obtain ⟨hsize, haffected⟩ := hfacts
  have hall := List.all_eq_true.mp h p (mem_filter.mpr ⟨hp, by simpa using haffected p hp hmem⟩)
  rw [measured_congr hsize] at hall
  simpa using hall

theorem Inv.begun (hinv : Inv s) {request : Request} (h : s.beginRequest k request = some t) :
    Inv t := by
  obtain ⟨_, h⟩ := ite_none_left_eq_some.mp h
  split at h
  · obtain ⟨hfree, rfl⟩ := of_guarded h
    refine hinv.goesOn { s with advisory := some k } ⟨rfl, rfl, rfl⟩ rfl ?_ (fun _ => rfl) True.intro
    intro j _ hj
    rw [hfree] at hj
    cases hj
  · next hlocks =>
    cases h
    exact hinv.goesOn s ⟨rfl, rfl, rfl⟩ rfl (fun _ _ hj => hj) (fun h => absurd h hlocks) True.intro

section Runs

variable [DecidableEq Digest]

variable {packages : Set Package}

theorem Inv.locksSkill (hdigest : Set.InjOn env.digest packages) (hinv : Inv s)
    (hin : PackagesIn packages s (.lockSkill k)) (h : step s (.lockSkill k) = some t) : Inv t := by
  simp only [SkillLimits.step] at h
  split at h
  · next id fields hk =>
    refine hinv.lockedUpdate hdigest (hinv.locked k _ hk rfl) ?_ h
    intro skill version next hrow hupdated
    simp only [PackagesIn, comparedPackages, hk, hrow, hupdated] at hin
    exact ⟨hin _ mem_cons_self, hin _ (mem_cons_of_mem _ mem_cons_self)⟩
  · next id hk => exact hinv.lockedSkill h nofun (hinv.locked k _ hk)
  · exact hinv.lockedSkill h nofun nofun
  · exact hinv.lockedSkill h nofun nofun
  · cases h

theorem Inv.loadsProfile (hinv : Inv s) (h : step s (.loadProfile k) = some t) : Inv t := by
  simp only [SkillLimits.step] at h
  split at h
  · next ids hk =>
    cases h
    exact hinv.goesOn s ⟨rfl, rfl, rfl⟩ rfl (fun _ _ hj => hj) (fun _ => hinv.locked k _ hk rfl) nofun
  · next profileId ids hk =>
    exact hinv.loadedProfile (fun _ _ => hinv.locked k _ hk rfl)
      (fun profile => loadedSkills_facts hinv profile _ _ _) h
  · have hlocks : ∀ _ : WorkerProfile,
        (Session.unchanged : Session env).locks = true → s.advisory = some k := fun _ => nofun
    exact hinv.loadedProfile hlocks (fun _ => True.intro) h
  · next profileId hk =>
    exact hinv.loadedProfile (fun _ _ => hinv.locked k _ hk rfl)
      (fun profile => loadedSkills_facts hinv profile _ _ _) h
  · cases h

theorem Inv.step (hdigest : Set.InjOn env.digest packages) (hinv : Inv s) {l : Label}
    (hin : PackagesIn packages s l) (h : step s l = some t) : Inv t := by
  cases l with
  | begin k request => exact hinv.begun h
  | lockSkill k => exact hinv.locksSkill hdigest hin h
  | loadProfile k => exact hinv.loadsProfile h
  | queryProfiles k =>
    simp only [SkillLimits.step] at h
    split at h
    · next hk =>
      cases h
      exact hinv.queried (hinv.locked k _ hk rfl) (hinv.facts k _ hk)
    · cases h
  | measure k =>
    simp only [SkillLimits.step] at h
    split at h
    · next hk =>
      split at h
      · next hwithin =>
        cases h
        exact hinv.goesOn s ⟨rfl, rfl, rfl⟩ rfl (fun _ _ hj => hj) (fun _ => hinv.locked k _ hk rfl)
          (ready_of_withinLimits (hinv.facts k _ hk) hwithin)
      · cases h
        exact hinv.rolledBack k
    · cases h
  | selectSkills k =>
    simp only [SkillLimits.step] at h
    split at h
    · next hk => exact hinv.selected (hinv.locked k _ hk rfl) (hinv.facts k _ hk) h
    · cases h
  | commit k newId =>
    obtain ⟨session, hk, h⟩ := bind_eq_some_iff.mp h
    obtain ⟨u, hu, rfl⟩ := map_eq_some_iff.mp h
    exact hinv.written hk hu
  | abort k =>
    obtain ⟨_, rfl⟩ := of_guarded h
    exact hinv.rolledBack k

theorem inv_of_reachable (hdigest : Set.InjOn env.digest packages)
    (hs : (skillLimits env).Reachable (PackagesIn packages) s) : Inv s := by
  refine hs.invariant ?_ fun s l t hinv hin hstep => hinv.step hdigest hin hstep
  rintro s rfl
  exact ⟨fun _ hrow => (not_mem_nil hrow).elim, fun _ hp => (not_mem_nil hp).elim,
    fun _ hp => (not_mem_nil hp).elim, fun _ _ hk => (nomatch hk), fun _ _ hk => (nomatch hk)⟩

end Runs

/-! ### The Limit -/

/-- The enabled default skills of a profile. -/
def enabledSkills (profile : WorkerProfile) : List (Skill env) :=
  (profile.defaultSkills.filterMap fun id => skillRow? id skills).filter (·.enabled)

theorem sum_enabled (skills : List (Skill env)) (ids : List Int) :
    (((ids.filterMap fun id => skillRow? id skills).filter (·.enabled)).map
      (·.currentVersion.packageSizeBytes)).sum = totalBytes skills ids := by
  induction ids with
  | nil => rfl
  | cons id ids ih =>
    unfold totalBytes at ih ⊢
    rw [map_cons, sum_cons, ← ih, bytesOf]
    cases hrow : skillRow? id skills with
    | none => simp [hrow]
    | some row => cases henabled : row.enabled <;> simp [hrow, henabled, Skill.bytes]

theorem mem_enabledSkills {skills : List (Skill env)} {skill : Skill env}
    (h : skill ∈ enabledSkills skills p) :
    skillRow? skill.id skills = some skill ∧ skill.enabled = true := by
  obtain ⟨hfound, henabled⟩ := mem_filter.mp h
  obtain ⟨id, _, hrow⟩ := mem_filterMap.mp hfound
  obtain rfl := (mem_of_row? hrow).2
  exact ⟨hrow, henabled⟩

theorem enabledSkills_sublist (skills : List (Skill env)) (p : WorkerProfile) :
    ((enabledSkills skills p).map Skill.id).Sublist p.defaultSkills := by
  have hfound : ((p.defaultSkills.filterMap fun id => skillRow? id skills).map Skill.id).Sublist
      p.defaultSkills := by
    induction p.defaultSkills with
    | nil => exact List.Sublist.refl _
    | cons id ids ih =>
      cases hrow : skillRow? id skills with
      | none => simpa [hrow] using ih.cons id
      | some row =>
        obtain rfl := (mem_of_row? hrow).2
        simpa [hrow] using ih
  exact (filter_sublist.map Skill.id).trans hfound

theorem foundSkills_rows {skills selected : List (Skill env)}
    (h : ∀ skill ∈ selected, skillRow? skill.id skills = some skill) :
    foundSkills (fun id => skillRow? id skills) (selected.map Skill.id) = .ok selected := by
  have hrows : (selected.map Skill.id).filterMap (fun id => skillRow? id skills) = selected := by
    induction selected with
    | nil => rfl
    | cons skill rest ih =>
      have hrest := ih fun other hother => h other (mem_cons_of_mem _ hother)
      simp only [map_cons, filterMap_cons, h skill mem_cons_self, hrest]
  have hall : (selected.map Skill.id).find? (fun id => (skillRow? id skills).isNone) = none := by
    rw [find?_eq_none]
    intro id hid
    obtain ⟨skill, hskill, rfl⟩ := List.mem_map.mp hid
    simp [h skill hskill]
  rw [foundSkills, hall, hrows]

theorem Fits.load (h : Fits s.skills p.defaultSkills) :
    loadEnabledSkillSnapshots s.skills ((enabledSkills s.skills p).map Skill.id) =
      .ok ((enabledSkills s.skills p).map Skill.snapshot) := by
  have hsub := enabledSkills_sublist s.skills p
  have hids : normalizeSkillIds ((enabledSkills s.skills p).map Skill.id) = .ok _ :=
    normalizeSkillIds_of_fits (hsub.length_le.trans h.count) (h.nodup.sublist hsub)
      fun id hid => h.positive id (hsub.subset hid)
  have hrows : ∀ skill ∈ enabledSkills s.skills p, skillRow? skill.id s.skills = some skill :=
    fun skill hskill => (mem_enabledSkills hskill).1
  have hfound := foundSkills_rows hrows
  have hon : (enabledSkills s.skills p).find? (fun skill => !skill.enabled) = none := by
    rw [find?_eq_none]
    intro skill hskill
    simp [(mem_enabledSkills hskill).2]
  have hbytes : ((enabledSkills s.skills p).map (·.currentVersion.packageSizeBytes)).sum ≤
      maxTaskSkillPackageBytes := by
    unfold enabledSkills
    rw [sum_enabled]
    exact h.total
  simp only [loadEnabledSkillSnapshots, hids, ok_bind, hfound, hon, if_neg (not_lt.mpr hbytes)]

/-- **No profile outgrows the limit**: after any requests in any order of their statements, the
    enabled default skills of each profile stay within the size and the number that a Task may
    load, and so a Task loads them. SHA-256 has to tell the packages of the run apart: where
    two digests are equal, `update_skill` keeps the current version, although it may have
    measured another one. -/
theorem task_skill_limit [DecidableEq Digest] {packages : Set Package}
    (hdigest : Set.InjOn env.digest packages)
    (hs : (skillLimits env).Reachable (PackagesIn packages) s) (hp : p ∈ s.profiles) :
    ((enabledSkills s.skills p).map (·.currentVersion.packageSizeBytes)).sum ≤
        maxTaskSkillPackageBytes ∧
      p.defaultSkills.length ≤ maxSkillsPerTask ∧
      loadEnabledSkillSnapshots s.skills ((enabledSkills s.skills p).map Skill.id) =
        .ok ((enabledSkills s.skills p).map Skill.snapshot) := by
  have hfits := (inv_of_reachable hdigest hs).fits p hp
  refine ⟨?_, hfits.count, hfits.load⟩
  unfold enabledSkills
  rw [sum_enabled]
  exact hfits.total

/-! ### Two Skills and a Profile -/

def runScript : SkillFile := ⟨"run.sh", "IyEvYmluL3NoCnJ1ZmYgY2hlY2sK", true⟩

def lintMd : String := "---\nname: lint\ndescription: Lint\n---\nRun run.sh\n"

def lintTwiceMd : String := "---\nname: lint\ndescription: Lint\n---\nRun run.sh twice\n"

def lint : Package := ⟨"lint", "Lint", lintMd, [runScript]⟩

def lintTwice : Package := ⟨"lint", "Lint", lintTwiceMd, [runScript]⟩

def testMd : String := "---\nname: test\ndescription: Test\n---\nTest it\n"

/-- The packages and the digests of the run; base64 text without padding has three bytes for
    four characters. -/
def sampleEnv : Env String where
  normalize := fun name skillMd files =>
    some ⟨name, if name = "lint" then "Lint" else "Test", skillMd, files⟩
  decodedLength := fun file => file.contentBase64.utf8ByteSize / 4 * 3
  digest := fun package =>
    if package = lint then "fc8aa6cd1381be89366178f07f257b63980bd7c12aa1fa3b2281ae7d1f29f0b1"
    else if package = lintTwice then
      "ffc7cc98fb0b9df681dc1d556805e948f9efea4e0f288a56117599abdfadbede"
    else "a2204dbb1399f49ecf1d3b812fbf1c24613ddbdd45c6d3d18b6bf9e4eed46260"

/-- Two skills are created, and a profile takes them; one that names a skill twice is refused.
    The second skill is disabled while the first is sent again as it is, then changed, and the
    second is enabled again. -/
def changedSkill : List Label :=
  [.begin 0 (.createSkill "lint" lintMd [runScript] true),
    .begin 1 (.createSkill "test" testMd [] true), .commit 0 1, .commit 1 2,
    .begin 2 (.createWorkerProfile (some [1, 2])), .loadProfile 2, .selectSkills 2, .commit 2 1,
    .begin 2 (.createWorkerProfile (some [1, 1])), .loadProfile 2, .selectSkills 2,
    .begin 3 (.updateSkill 1 { files := some [runScript] }), .begin 4 (.disableSkill 2),
    .lockSkill 3, .lockSkill 4, .commit 4 0, .commit 3 0,
    .begin 3 (.updateSkill 1 { skillMd := some lintTwiceMd }), .lockSkill 3, .queryProfiles 3,
    .measure 3, .commit 3 0,
    .begin 4 (.enableSkill 2), .lockSkill 4, .queryProfiles 4, .measure 4, .commit 4 0]

/-- The profile then has the changed skill and the other one. -/
theorem changed_skill_within_limit : ∃ (s : State sampleEnv) (p : WorkerProfile),
    p ∈ s.profiles ∧ (enabledSkills s.skills p).map (·.currentVersion.packageSizeBytes) = [75, 45] ∧
      ((enabledSkills s.skills p).map (·.currentVersion.packageSizeBytes)).sum ≤
        maxTaskSkillPackageBytes ∧
      p.defaultSkills.length ≤ maxSkillsPerTask ∧
      loadEnabledSkillSnapshots s.skills ((enabledSkills s.skills p).map Skill.id) =
        .ok ((enabledSkills s.skills p).map Skill.snapshot) := by
  have hdigest : Set.InjOn sampleEnv.digest {package | package ∈ [lint, lintTwice]} := by
    intro a ha b hb hab
    simp only [Set.mem_ofPred_eq, mem_cons, not_mem_nil, or_false] at ha hb
    rcases ha with rfl | rfl <;> rcases hb with rfl | rfl
    · rfl
    · exact absurd hab (by decide)
    · exact absurd hab (by decide)
    · rfl
  have hrun : ∃ s : State sampleEnv, (skillLimits sampleEnv).execWhile
      (PackagesIn {package | package ∈ [lint, lintTwice]}) {} changedSkill = some s ∧
      ⟨1, [1, 2]⟩ ∈ s.profiles ∧
      (enabledSkills s.skills ⟨1, [1, 2]⟩).map (·.currentVersion.packageSizeBytes) = [75, 45] :=
    ⟨_, rfl, mem_cons_self, rfl⟩
  obtain ⟨s, hexec, hp, hsizes⟩ := hrun
  exact ⟨s, _, hp, hsizes, task_skill_limit hdigest ⟨_, rfl, System.run_of_execWhile hexec⟩ hp⟩

end Codify.Api.SkillLimits
