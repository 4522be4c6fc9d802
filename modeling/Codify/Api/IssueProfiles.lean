import Codify.Api.TaskActions

/-! # Open Issues and Their Worker Profiles

    An Issue is pinned to a Worker profile, which must stay enabled, on one Docker
    daemon, as long as the Issue is open. Seven requests write the two tables:
    `create_issue`, `update_issue` and `close_issue` (app/api/issues.py),
    `update_worker_profile`, `disable_worker_profile`,
    `force_disable_worker_profile` and `delete_worker_profile`
    (app/api/worker_profiles.py).

    The module runs any number of them statement by statement. A row lock is held
    until its transaction ends. A session keeps the attributes of a row that it
    has loaded, also when it locks the row later on.
-/

namespace Codify.Api.IssueProfiles

open Codify Codify.Framework Codify.Api List Option Table

/-! ### Rows and Requests -/

inductive IssueStatus where
  | open
  | inProgress
  | inReview
  | closed
  deriving DecidableEq, Repr

/-- The columns of `issues` that the requests read or write here. -/
structure Issue where
  id : Nat
  workerProfileId : Nat
  status : IssueStatus
  deriving DecidableEq, Repr

/-- The Docker target of a profile. -/
structure DockerTarget where
  dockerHost : Option String := none
  dockerTlsCa : Option String := none
  dockerTlsCert : Option String := none
  dockerTlsKey : Option String := none
  deriving DecidableEq, Repr

/-- The columns of `worker_profiles` that the requests read or write here. -/
structure Profile where
  id : Nat
  enabled : Bool
  isDefault : Bool
  target : DockerTarget
  deriving DecidableEq, Repr

abbrev issueRow? (id : Nat) (rows : List Issue) : Option Issue := row? Issue.id id rows

abbrev profileRow? (id : Nat) (rows : List Profile) : Option Profile :=
  row? Profile.id id rows

/-- The fields of `WorkerProfileUpdateRequest` for the target, where they are set. -/
structure DockerFields where
  dockerHost : Option (Option String) := none
  dockerTlsCa : Option (Option String) := none
  dockerTlsCert : Option (Option String) := none
  dockerTlsKey : Option (Option String) := none
  deriving DecidableEq, Repr

/-- `docker_target_fields & fields`. -/
def DockerFields.any (f : DockerFields) : Bool :=
  f.dockerHost.isSome || f.dockerTlsCa.isSome || f.dockerTlsCert.isSome || f.dockerTlsKey.isSome

/-- The request's field, or the profile's. -/
def DockerFields.merge (f : DockerFields) (t : DockerTarget) : DockerTarget where
  dockerHost := f.dockerHost.getD t.dockerHost
  dockerTlsCa := f.dockerTlsCa.getD t.dockerTlsCa
  dockerTlsCert := f.dockerTlsCert.getD t.dockerTlsCert
  dockerTlsKey := f.dockerTlsKey.getD t.dockerTlsKey

/-- The fields of `WorkerProfileUpdateRequest` that bear on Issues. -/
structure ProfileUpdate where
  enabled : Option Bool := none
  docker : DockerFields := {}
  deriving DecidableEq, Repr

/-- What the deployment fixes: `docker_daemon_key` of the connection that a target resolves to,
    and `validate_worker_profile_docker_target`, which may refuse a target. -/
structure Env where
  daemonKey : DockerTarget → String
  validateTarget : DockerTarget → Option DockerTarget

/-- A request between two of its statements. -/
inductive Session where
  /-- `create_issue`: the profile is locked and enabled. -/
  | creating (profileId : Nat)
  /-- `update_issue`: the Issue is locked, its profile is not loaded yet. -/
  | updating (issue : Issue) (status : Option IssueStatus)
  /-- The profile is loaded, without a lock. -/
  | loaded (issue : Issue) (profile : Option Profile) (status : Option IssueStatus)
  /-- The profile is locked, and the loaded one is enabled. -/
  | activating (issue : Issue) (status : IssueStatus)
  /-- `close_issue`. -/
  | closing (issue : Issue)
  /-- `update_worker_profile`: loaded under its lock; the flag and the target are checked. -/
  | editing (profile : Profile) (request : ProfileUpdate)
  | editingTarget (profile : Profile) (request : ProfileUpdate)
  | edited (profile : Profile) (request : ProfileUpdate) (target : DockerTarget)
  /-- `disable_worker_profile` before and after its count. -/
  | disabling (profile : Profile)
  | disabled (profile : Profile)
  /-- `force_disable_worker_profile`: its UPDATE has rows to lock, and rows that it closes. -/
  | forcing (profile : Profile)
  | forceClosing (profile : Profile) (pending closed : List Nat)
  /-- `delete_worker_profile` before and after its count. -/
  | deleting (profile : Profile)
  | unassigned (profile : Profile)
  deriving DecidableEq, Repr

/-- The tables, the requests under way, and who holds the lock of a row. -/
structure State where
  issues : List Issue := []
  profiles : List Profile := []
  sessions : Nat → Option Session := fun _ => none
  issueLocks : Nat → Option Nat := fun _ => none
  profileLocks : Nat → Option Nat := fun _ => none

/-- One statement, or the commit, of one request; sessions are numbered. -/
inductive Label where
  | openCreate (k profileId : Nat)
  | openUpdate (k issueId : Nat) (status : Option IssueStatus)
  | loadProfile (k : Nat)
  | activate (k : Nat)
  | openClose (k issueId : Nat)
  | openUpdateProfile (k profileId : Nat) (request : ProfileUpdate)
  | checkEnabled (k : Nat)
  | checkTarget (k : Nat)
  | openDisable (k profileId : Nat)
  | countActive (k : Nat)
  | openForceDisable (k profileId : Nat)
  | selectActive (k : Nat)
  | closeRow (k issueId : Nat)
  | openDelete (k profileId : Nat)
  | countAll (k : Nat)
  /-- The commit; the id of a new Issue is given by its sequence. -/
  | commit (k newId : Nat)
  /-- The request is refused for another reason, and its transaction is rolled back. -/
  | abort (k : Nat)
  deriving DecidableEq, Repr

/-! ### Checks -/

variable (profileId : Nat)

/-- An Issue of a profile that is not closed. -/
def activeOn (issue : Issue) : Bool :=
  decide (issue.workerProfileId = profileId) && decide (issue.status ≠ .closed)

variable (issues : List Issue)

/-- `_ensure_profile_can_stop_serving_issues`; the texts of these refusals name the profile. -/
def canStopServing : Bool := issues.countP (activeOn profileId) = 0

/-- `_issue_assignment_count` is zero. -/
def unassignedProfile : Bool := issues.countP (·.workerProfileId = profileId) = 0

/-- The checks of `update_worker_profile` on the flag. -/
def mayEnable (profile : Profile) (request : ProfileUpdate) (issues : List Issue) : Bool :=
  if request.enabled = some false then !profile.isDefault && canStopServing profile.id issues
  else true

/-- The target that `update_worker_profile` stores, unless it is refused. -/
def nextTarget (env : Env) (profile : Profile) (request : ProfileUpdate) (issues : List Issue) :
    Option DockerTarget :=
  if request.docker.any then
    (env.validateTarget (request.docker.merge profile.target)).filter fun target =>
      decide (env.daemonKey target = env.daemonKey profile.target) ||
        canStopServing profile.id issues
  else some profile.target

/-! ### Steps -/

namespace State

variable (s : State)

def setSession (k : Nat) (session : Session) : State :=
  { s with sessions := fun j => if j = k then some session else s.sessions j }

/-- The transaction ends: its locks are released. -/
def close (k : Nat) : State :=
  { s with
    sessions := fun j => if j = k then none else s.sessions j
    issueLocks := fun i => if s.issueLocks i = some k then none else s.issueLocks i
    profileLocks := fun p => if s.profileLocks p = some k then none else s.profileLocks p }

/-- The request goes on, or it is refused. -/
def check (k : Nat) (passed : Bool) (session : Session) : State :=
  if passed then s.setSession k session else s.close k

def lockIssue (k issueId : Nat) : State :=
  { s with issueLocks := fun i => if i = issueId then some k else s.issueLocks i }

def lockProfile (k profileId : Nat) : State :=
  { s with profileLocks := fun p => if p = profileId then some k else s.profileLocks p }

/-- A request starts with a locked Issue; without the row it ends at once. -/
def openIssue (k issueId : Nat) (session : Issue → Session) : Option State :=
  if (s.sessions k).isSome then none
  else
    (issueRow? issueId s.issues).bind fun issue =>
      if s.issueLocks issueId = none then
        some ((s.lockIssue k issueId).setSession k (session issue))
      else none

/-- A request starts with a locked profile that it has not loaded before. -/
def openProfile (k profileId : Nat) (passed : Profile → Bool) (session : Profile → Session) :
    Option State :=
  if (s.sessions k).isSome then none
  else
    (profileRow? profileId s.profiles).bind fun profile =>
      if s.profileLocks profileId = none then
        some ((s.lockProfile k profileId).check k (passed profile) (session profile))
      else none

/-- `db.get(WorkerProfile, ..., with_for_update=True)` in `update_issue`: the row is locked, but
    the session keeps the profile that it has loaded before. -/
def activate (k : Nat) : Option State :=
  match s.sessions k with
  | some (.loaded issue profile (some status)) =>
    if status = .closed then none
    else
      match profileRow? issue.workerProfileId s.profiles with
      | none => some (s.close k)
      | some row =>
        if s.profileLocks issue.workerProfileId = none then
          some ((s.lockProfile k issue.workerProfileId).check k (profile.getD row).enabled
            (.activating issue status))
        else none
  | _ => none

/-- One row of the UPDATE of `_force_close_profile_issues`: it waits for the lock and looks at
    the row again. -/
def closeRow (k issueId : Nat) : Option State :=
  match s.sessions k with
  | some (.forceClosing profile pending closed) =>
    if issueId ∈ pending ∧ s.issueLocks issueId = none then
      let pending := pending.filter (· ≠ issueId)
      if (issueRow? issueId s.issues).any (activeOn profile.id) then
        some ((s.lockIssue k issueId).setSession k
          (.forceClosing profile pending (issueId :: closed)))
      else some (s.setSession k (.forceClosing profile pending closed))
    else none
  | _ => none

def setStatus (issue : Issue) (status : IssueStatus) : State :=
  { s with issues := update Issue.id issue.id ({ · with status }) s.issues }

def setProfile (profile : Profile) (enabled : Bool) (target : DockerTarget) : State :=
  { s with profiles :=
      update Profile.id profile.id ({ · with enabled, target }) s.profiles }

/-- What a commit writes; a constraint may refuse it. -/
def written (newId : Nat) : Session → Option State
  | .creating profileId =>
    if (issueRow? newId s.issues).isSome ∨ (profileRow? profileId s.profiles).isNone then none
    else some { s with issues := s.issues ++ [⟨newId, profileId, .open⟩] }
  | .loaded _ _ none => some s
  | .loaded issue _ (some .closed) => some (s.setStatus issue .closed)
  | .activating issue status => some (s.setStatus issue status)
  | .closing issue => some (s.setStatus issue .closed)
  | .edited profile request target =>
    some (s.setProfile profile (request.enabled.getD profile.enabled) target)
  | .disabled profile => some (s.setProfile profile false profile.target)
  | .forceClosing profile [] closed =>
    some { s.setProfile profile false profile.target with
      issues := s.issues.map fun i => if i.id ∈ closed then { i with status := .closed } else i }
  | .unassigned profile =>
    if s.issues.any (·.workerProfileId = profile.id) then none
    else some { s with profiles := s.profiles.filter (·.id ≠ profile.id) }
  | _ => none

end State

def step (env : Env) (s : State) : Label → Option State
  | .openCreate k profileId => s.openProfile k profileId Profile.enabled fun p => .creating p.id
  | .openUpdate k issueId status => s.openIssue k issueId (.updating · status)
  | .loadProfile k =>
    match s.sessions k with
    | some (.updating issue status) =>
      some (s.setSession k
        (.loaded issue (profileRow? issue.workerProfileId s.profiles) status))
    | _ => none
  | .activate k => s.activate k
  | .openClose k issueId => s.openIssue k issueId .closing
  | .openUpdateProfile k profileId request =>
    s.openProfile k profileId (fun _ => true) (.editing · request)
  | .checkEnabled k =>
    match s.sessions k with
    | some (.editing profile request) =>
      some (s.check k (mayEnable profile request s.issues) (.editingTarget profile request))
    | _ => none
  | .checkTarget k =>
    match s.sessions k with
    | some (.editingTarget profile request) =>
      match nextTarget env profile request s.issues with
      | some target => some (s.setSession k (.edited profile request target))
      | none => some (s.close k)
    | _ => none
  | .openDisable k profileId => s.openProfile k profileId (!·.isDefault) .disabling
  | .countActive k =>
    match s.sessions k with
    | some (.disabling profile) =>
      some (s.check k (canStopServing profile.id s.issues) (.disabled profile))
    | _ => none
  | .openForceDisable k profileId => s.openProfile k profileId (!·.isDefault) .forcing
  | .selectActive k =>
    match s.sessions k with
    | some (.forcing profile) =>
      some (s.setSession k
        (.forceClosing profile ((s.issues.filter (activeOn profile.id)).map Issue.id) []))
    | _ => none
  | .closeRow k issueId => s.closeRow k issueId
  | .openDelete k profileId =>
    s.openProfile k profileId (fun p => !p.isDefault && !p.enabled) .deleting
  | .countAll k =>
    match s.sessions k with
    | some (.deleting profile) =>
      some (s.check k (unassignedProfile profile.id s.issues) (.unassigned profile))
    | _ => none
  | .commit k newId =>
    (s.sessions k).bind fun session => (s.written newId session).map (·.close k)
  | .abort k => if (s.sessions k).isSome then some (s.close k) else none

/-- Each open Issue has an enabled profile. -/
def Served (s : State) : Prop :=
  ∀ i ∈ s.issues, i.status ≠ .closed → ∃ p ∈ s.profiles, p.id = i.workerProfileId ∧ p.enabled = true

/-- A database at rest, in which each open Issue has an enabled profile. -/
structure AtRest (s : State) : Prop where
  issueIds : Table.KeyUnique Issue.id s.issues
  profileIds : Table.KeyUnique Profile.id s.profiles
  sessions : s.sessions = fun _ => none
  issueLocks : s.issueLocks = fun _ => none
  profileLocks : s.profileLocks = fun _ => none
  served : Served s

/-- The requests, from any database at rest. -/
def issueProfiles (env : Env) : System State Label where
  init := AtRest
  next := step env

variable {env : Env} {s t : State} {l : Label} {k : Nat}

/-! ### What a Lock Protects -/

/-- The profile that a session has locked. -/
def Session.profile? : Session → Option Nat
  | .creating profileId => some profileId
  | .activating issue _ => some issue.workerProfileId
  | .editing profile _ | .editingTarget profile _ | .edited profile _ _ => some profile.id
  | .disabling profile | .disabled profile => some profile.id
  | .forcing profile | .forceClosing profile _ _ => some profile.id
  | .deleting profile | .unassigned profile => some profile.id
  | .updating .. | .loaded .. | .closing .. => none

def Session.issue? : Session → Option Issue
  | .updating issue _ | .loaded issue _ _ | .activating issue _ | .closing issue => some issue
  | _ => none

def Idle : Prop := ∀ i ∈ issues, i.workerProfileId = profileId → i.status = .closed

variable {profileId p newId issueId : Nat} {session : Session} {passed enabled : Bool}
  {issue i : Issue} {status : IssueStatus} {profile : Profile} {target : DockerTarget}
  {closed : List Nat}

theorem canStopServing_iff {issues : List Issue} :
    canStopServing profileId issues = true ↔ Idle profileId issues := by
  simp [canStopServing, Idle, activeOn, countP_eq_zero]

/-- What a session has found out about the profile under its lock. -/
def Session.Holds (env : Env) (s : State) : Session → Prop
  | .creating profileId => ∃ p, profileRow? profileId s.profiles = some p ∧ p.enabled = true
  | .editing profile _ | .disabling profile | .forcing profile | .deleting profile =>
    profileRow? profile.id s.profiles = some profile
  | .editingTarget profile request => profileRow? profile.id s.profiles = some profile ∧
      (request.enabled = some false → Idle profile.id s.issues)
  | .edited profile request target => profileRow? profile.id s.profiles = some profile ∧
      (request.enabled = some false → Idle profile.id s.issues) ∧
      (env.daemonKey target ≠ env.daemonKey profile.target → Idle profile.id s.issues)
  | .disabled profile => profileRow? profile.id s.profiles = some profile ∧
      Idle profile.id s.issues
  | .forceClosing profile pending closed => profileRow? profile.id s.profiles = some profile ∧
      ∀ i ∈ s.issues, activeOn profile.id i = true → i.id ∈ pending ∨ i.id ∈ closed
  | .unassigned profile => profileRow? profile.id s.profiles = some profile ∧
      Idle profile.id s.issues
  | .activating .. | .updating .. | .loaded .. | .closing .. => True

/-- What a step of one session leaves alone. -/
structure Frame (k : Nat) (s t : State) : Prop where
  profiles : ∀ p, s.profileLocks p ≠ some k → profileRow? p t.profiles = profileRow? p s.profiles
  issues : ∀ i ∈ t.issues, i.status ≠ .closed → s.profileLocks i.workerProfileId ≠ some k →
    ∃ i₀ ∈ s.issues, i₀.id = i.id ∧ i₀.workerProfileId = i.workerProfileId ∧ i₀.status ≠ .closed
  kept : ∀ i ∈ s.issues, ∃ i' ∈ t.issues, i'.id = i.id ∧ i'.workerProfileId = i.workerProfileId
  sessions : ∀ j, j ≠ k → t.sessions j = s.sessions j
  locks : ∀ p j, j ≠ k → s.profileLocks p = some j → t.profileLocks p = some j

theorem Frame.idle (h : Frame k s t) (hlock : s.profileLocks p ≠ some k)
    (hs : Idle p s.issues) : Idle p t.issues := by
  intro i hi hip
  by_contra hopen
  obtain ⟨i₀, hi₀, -, hp₀, hopen₀⟩ := h.issues i hi hopen (by rwa [hip])
  exact hopen₀ (hs i₀ hi₀ (hp₀.trans hip))

theorem Frame.holds (h : Frame k s t)
    (hlock : ∀ p ∈ session.profile?, s.profileLocks p ≠ some k)
    (hs : session.Holds env s) : session.Holds env t := by
  cases session with
  | creating profileId =>
    obtain ⟨p, hp, henabled⟩ := hs
    exact ⟨p, (h.profiles _ (hlock _ rfl)).trans hp, henabled⟩
  | editing profile request | disabling profile | forcing profile | deleting profile =>
    exact (h.profiles _ (hlock _ rfl)).trans hs
  | editingTarget profile request =>
    exact ⟨(h.profiles _ (hlock _ rfl)).trans hs.1, fun hr => h.idle (hlock _ rfl) (hs.2 hr)⟩
  | edited profile request target =>
    exact ⟨(h.profiles _ (hlock _ rfl)).trans hs.1, fun hr => h.idle (hlock _ rfl) (hs.2.1 hr),
      fun hr => h.idle (hlock _ rfl) (hs.2.2 hr)⟩
  | disabled profile | unassigned profile =>
    exact ⟨(h.profiles _ (hlock _ rfl)).trans hs.1, h.idle (hlock _ rfl) hs.2⟩
  | forceClosing profile pending closed =>
    refine ⟨(h.profiles _ (hlock _ rfl)).trans hs.1, fun i hi hactive => ?_⟩
    obtain ⟨hip, hopen⟩ : i.workerProfileId = profile.id ∧ i.status ≠ .closed := by
      simpa [activeOn] using hactive
    obtain ⟨i₀, hi₀, hid, hp₀, hopen₀⟩ := h.issues i hi hopen (by rw [hip]; exact hlock _ rfl)
    rw [← hid]
    exact hs.2 i₀ hi₀ (by simp [activeOn, hp₀, hip, hopen₀])
  | updating issue status => trivial
  | loaded issue profile status => trivial
  | activating issue status => trivial
  | closing issue => trivial

/-- The invariant of every run. -/
structure Inv (env : Env) (s : State) : Prop where
  issueIds : Table.KeyUnique Issue.id s.issues
  profileIds : Table.KeyUnique Profile.id s.profiles
  locked : ∀ k session, s.sessions k = some session →
    ∀ p ∈ session.profile?, s.profileLocks p = some k
  written : ∀ k session, s.sessions k = some session → ∀ issue ∈ session.issue?,
    ∃ row ∈ s.issues, row.id = issue.id ∧ row.workerProfileId = issue.workerProfileId
  holds : ∀ k session, s.sessions k = some session → session.Holds env s

/-- What the invariant says about one session. -/
structure Session.Ok (env : Env) (k : Nat) (s : State) (session : Session) : Prop where
  locked : ∀ p ∈ session.profile?, s.profileLocks p = some k
  written : ∀ issue ∈ session.issue?,
    ∃ row ∈ s.issues, row.id = issue.id ∧ row.workerProfileId = issue.workerProfileId
  holds : session.Holds env s

theorem Inv.ok (h : Inv env s) (hk : s.sessions k = some session) :
    session.Ok env k s :=
  ⟨h.locked k session hk, h.written k session hk, h.holds k session hk⟩

theorem Inv.of_ok (hissues : Table.KeyUnique Issue.id s.issues)
    (hprofiles : Table.KeyUnique Profile.id s.profiles)
    (hok : ∀ k session, s.sessions k = some session → session.Ok env k s) : Inv env s :=
  ⟨hissues, hprofiles, fun k session hk => (hok k session hk).locked,
    fun k session hk => (hok k session hk).written, fun k session hk => (hok k session hk).holds⟩

theorem Session.Holds.of_tables (h : session.Holds env s) (t : State)
    (hissues : t.issues = s.issues) (hprofiles : t.profiles = s.profiles) :
    session.Holds env t := by
  obtain ⟨issues, profiles, _, _, _⟩ := t
  subst hissues hprofiles
  cases session <;> exact h

theorem Session.Ok.of_tables {j : Nat} (h : session.Ok env j s) (t : State)
    (hissues : t.issues = s.issues) (hprofiles : t.profiles = s.profiles)
    (hlocks : ∀ p, s.profileLocks p = some j → t.profileLocks p = some j) :
    session.Ok env j t where
  locked p hp := hlocks p (h.locked p hp)
  written := by rw [hissues]; exact h.written
  holds := h.holds.of_tables t hissues hprofiles

/-! ### Steps That Write Nothing -/

theorem inv_setSession (hinv : Inv env s) (hok : session.Ok env k s) :
    Inv env (s.setSession k session) := by
  refine .of_ok hinv.issueIds hinv.profileIds fun j session' hj => ?_
  change (if j = k then some session else s.sessions j) = some session' at hj
  split at hj
  · next hjk =>
    subst hjk
    cases hj
    exact hok.of_tables _ rfl rfl fun _ h => h
  · exact (hinv.ok hj).of_tables _ rfl rfl fun _ h => h

theorem inv_close (hinv : Inv env s) : Inv env (s.close k) := by
  refine .of_ok hinv.issueIds hinv.profileIds fun j session hj => ?_
  change (if j = k then none else s.sessions j) = some session at hj
  split at hj
  · cases hj
  next hjk =>
  refine (hinv.ok hj).of_tables _ rfl rfl fun p hp => ?_
  show (if s.profileLocks p = some k then none else s.profileLocks p) = some j
  rw [if_neg (by rw [hp]; simpa using hjk), hp]

theorem inv_check (hinv : Inv env s)
    (hok : passed = true → session.Ok env k s) : Inv env (s.check k passed session) := by
  unfold State.check
  split
  · next hpassed => exact inv_setSession hinv (hok hpassed)
  · exact inv_close hinv

theorem inv_lockIssue (hinv : Inv env s) (issueId : Nat) : Inv env (s.lockIssue k issueId) :=
  .of_ok hinv.issueIds hinv.profileIds fun _ _ hj => (hinv.ok hj).of_tables _ rfl rfl fun _ h => h

theorem inv_lockProfile (hinv : Inv env s)
    (hfree : s.profileLocks profileId = none) : Inv env (s.lockProfile k profileId) := by
  refine .of_ok hinv.issueIds hinv.profileIds fun j session hj => ?_
  refine (hinv.ok hj).of_tables _ rfl rfl fun p hp => ?_
  show (if p = profileId then some k else s.profileLocks p) = some j
  rw [if_neg (by rintro rfl; rw [hfree] at hp; cases hp), hp]

theorem lockProfile_self (s : State) (k profileId : Nat) :
    (s.lockProfile k profileId).profileLocks profileId = some k :=
  if_pos rfl

/-! ### Commits -/

theorem Frame.close (h : Frame k s t) : Frame k s (t.close k) where
  profiles := h.profiles
  issues := h.issues
  kept := h.kept
  sessions j hj := by
    show (if j = k then none else t.sessions j) = _
    rw [if_neg hj, h.sessions j hj]
  locks p j hj hp := by
    show (if t.profileLocks p = some k then none else t.profileLocks p) = some j
    rw [h.locks p j hj hp, if_neg (by simpa using hj)]

/-- A commit keeps the invariant when it keeps the ids unique and writes under its lock. -/
theorem inv_commit (hinv : Inv env s) (hframe : Frame k s t)
    (hissues : Table.KeyUnique Issue.id t.issues)
    (hprofiles : Table.KeyUnique Profile.id t.profiles) : Inv env (t.close k) := by
  refine .of_ok hissues hprofiles fun j session hj => ?_
  have hclosed := hframe.close
  by_cases hjk : j = k
  · subst hjk
    change (if j = j then none else t.sessions j) = some session at hj
    rw [if_pos rfl] at hj
    cases hj
  rw [hclosed.sessions j hjk] at hj
  have hok := hinv.ok hj
  refine ⟨fun p hp => hclosed.locks p j hjk (hok.locked p hp), ?_, ?_⟩
  · intro issue hissue
    obtain ⟨row, hrow, hid, hp⟩ := hok.written issue hissue
    obtain ⟨row', hrow', hid', hp'⟩ := hclosed.kept row hrow
    exact ⟨row', hrow', hid'.trans hid, hp'.trans hp⟩
  · refine hclosed.holds (fun p hp hk => hjk ?_) hok.holds
    exact some.inj ((hok.locked p hp).symm.trans hk)

theorem Frame.refl (k : Nat) (s : State) : Frame k s s :=
  ⟨fun _ _ => rfl, fun i hi hopen _ => ⟨i, hi, rfl, rfl, hopen⟩, fun i hi => ⟨i, hi, rfl, rfl⟩,
    fun _ _ => rfl, fun _ _ _ h => h⟩

theorem mem_setStatus :
    i ∈ (s.setStatus issue status).issues ↔
      ∃ i₀ ∈ s.issues, (if i₀.id = issue.id then { i₀ with status } else i₀) = i :=
  List.mem_map

theorem frame_setStatus
    (h : status = .closed ∨ ∀ row ∈ s.issues, row.id = issue.id →
      s.profileLocks row.workerProfileId = some k) : Frame k s (s.setStatus issue status) where
  profiles _ _ := rfl
  issues i hi hopen hlock := by
    obtain ⟨i₀, hi₀, rfl⟩ := mem_setStatus.mp hi
    by_cases hid : i₀.id = issue.id
    · simp only [hid, if_true] at hopen hlock
      rcases h with hclosed | hlocked
      · exact absurd hclosed hopen
      · exact absurd (hlocked i₀ hi₀ hid) hlock
    · simp only [hid, if_false] at hopen ⊢
      exact ⟨i₀, hi₀, rfl, rfl, hopen⟩
  kept i hi := by
    refine ⟨_, mem_setStatus.mpr ⟨i, hi, rfl⟩, ?_, ?_⟩
    · split <;> rfl
    · split <;> rfl
  sessions _ _ := rfl
  locks _ _ _ h := h

theorem profileRow?_setProfile
    (p : Nat) : profileRow? p (s.setProfile profile enabled target).profiles =
      (profileRow? p s.profiles).map fun row =>
        if row.id = profile.id then { row with enabled, target } else row :=
  row?_update (f := ({ · with enabled, target })) (fun _ => rfl) p s.profiles

theorem frame_setProfile
    (h : s.profileLocks profile.id = some k) :
    Frame k s (s.setProfile profile enabled target) where
  profiles p hp := by
    rw [profileRow?_setProfile]
    cases hrow : profileRow? p s.profiles with
    | none => rfl
    | some row =>
      have hid : row.id = p := (mem_of_row? hrow).2
      have hne : row.id ≠ profile.id := by
        rintro heq
        rw [← hid, heq] at hp
        exact hp h
      simp [hne]
  issues i hi hopen _ := ⟨i, hi, rfl, rfl, hopen⟩
  kept i hi := ⟨i, hi, rfl, rfl⟩
  sessions _ _ := rfl
  locks _ _ _ h := h

def State.forceClosed (s : State) (profile : Profile) (closed : List Nat) : State :=
  { s.setProfile profile false profile.target with
    issues := s.issues.map fun i => if i.id ∈ closed then { i with status := .closed } else i }

theorem mem_forceClosed :
    i ∈ (s.forceClosed profile closed).issues ↔
      ∃ i₀ ∈ s.issues, (if i₀.id ∈ closed then { i₀ with status := .closed } else i₀) = i :=
  List.mem_map

/-- An Issue that is open after a force-disable was open before it, and was not selected. -/
theorem open_of_mem_forceClosed
    (hi : i ∈ (s.forceClosed profile closed).issues) (hopen : i.status ≠ .closed) :
    i ∈ s.issues ∧ i.id ∉ closed := by
  obtain ⟨i₀, hi₀, rfl⟩ := mem_forceClosed.mp hi
  by_cases hid : i₀.id ∈ closed
  · simp [hid] at hopen
  · rw [if_neg hid]
    exact ⟨hi₀, hid⟩

theorem frame_forceClosed
    (h : s.profileLocks profile.id = some k) : Frame k s (s.forceClosed profile closed) where
  profiles p hp := (frame_setProfile h).profiles p hp
  issues i hi hopen _ := ⟨i, (open_of_mem_forceClosed hi hopen).1, rfl, rfl, hopen⟩
  kept i hi := by
    refine ⟨_, mem_forceClosed.mpr ⟨i, hi, rfl⟩, ?_, ?_⟩
    · split <;> rfl
    · split <;> rfl
  sessions _ _ := rfl
  locks _ _ _ h := h

theorem profileRow?_filter_ne {id p : Nat} (hne : p ≠ id) (rows : List Profile) :
    profileRow? p (rows.filter (·.id ≠ id)) = profileRow? p rows := by
  show List.find? _ _ = List.find? _ _
  rw [find?_filter]
  congr 1
  funext r
  by_cases hr : r.id = p
  · simp [hr, hne]
  · simp [hr]

/-- **Commits**: a session that holds its lock writes within its frame. -/
theorem frame_written (hinv : Inv env s)
    (hok : session.Ok env k s) (h : s.written newId session = some t) :
    Frame k s t ∧ Table.KeyUnique Issue.id t.issues ∧ Table.KeyUnique Profile.id t.profiles := by
  have hstatus : ∀ (issue : Issue) (status : IssueStatus),
      Table.KeyUnique Issue.id (s.setStatus issue status).issues := fun _ _ =>
    hinv.issueIds.map fun r => by split <;> rfl
  have hprofile : ∀ (profile : Profile) (enabled : Bool) (target : DockerTarget),
      Table.KeyUnique Profile.id (s.setProfile profile enabled target).profiles := fun _ _ _ =>
    hinv.profileIds.map fun r => by split <;> rfl
  cases session with
  | creating profileId =>
    simp only [State.written] at h
    split at h
    · cases h
    next hnew =>
    cases h
    push Not at hnew
    refine ⟨⟨fun _ _ => rfl, ?_, ?_, fun _ _ => rfl, fun _ _ _ h => h⟩, ?_, hinv.profileIds⟩
    · intro i hi hopen hlock
      rcases mem_append.mp hi with hi | hi
      · exact ⟨i, hi, rfl, rfl, hopen⟩
      · rw [mem_singleton.mp hi] at hlock
        exact absurd (hok.locked profileId rfl) hlock
    · exact fun i hi => ⟨i, mem_append_left _ hi, rfl, rfl⟩
    · refine hinv.issueIds.append fun r hr => ?_
      exact row?_eq_none_iff.mp (by simpa using hnew.1) r hr
  | loaded issue profile status =>
    cases status with
    | none =>
      cases h
      exact ⟨.refl k s, hinv.issueIds, hinv.profileIds⟩
    | some status =>
      cases status with
      | closed =>
        cases h
        exact ⟨frame_setStatus (.inl rfl), hstatus _ _, hinv.profileIds⟩
      | _ => cases h
  | activating issue status =>
    cases h
    refine ⟨frame_setStatus (.inr fun row hrow hid => ?_), hstatus _ _, hinv.profileIds⟩
    obtain ⟨row', hrow', hid', hp'⟩ := hok.written issue rfl
    rw [hinv.issueIds.eq_of_key_eq hrow hrow' (hid.trans hid'.symm), hp']
    exact hok.locked _ rfl
  | closing issue =>
    cases h
    exact ⟨frame_setStatus (.inl rfl), hstatus _ _, hinv.profileIds⟩
  | edited profile request target | disabled profile =>
    cases h
    exact ⟨frame_setProfile (hok.locked _ rfl), hinv.issueIds, hprofile _ _ _⟩
  | forceClosing profile pending closed =>
    cases pending with
    | cons _ _ => cases h
    | nil =>
      obtain rfl : s.forceClosed profile closed = t := some.inj h
      refine ⟨frame_forceClosed (hok.locked _ rfl), ?_, hprofile _ _ _⟩
      exact hinv.issueIds.map fun r => by split <;> rfl
  | unassigned profile =>
    simp only [State.written] at h
    split at h
    · cases h
    cases h
    refine ⟨⟨fun p hp => ?_, ?_, ?_, fun _ _ => rfl, fun _ _ _ h => h⟩, hinv.issueIds,
      hinv.profileIds.filter _⟩
    · refine profileRow?_filter_ne ?_ s.profiles
      rintro rfl
      exact hp (hok.locked _ rfl)
    · exact fun i hi hopen _ => ⟨i, hi, rfl, rfl, hopen⟩
    · exact fun i hi => ⟨i, hi, rfl, rfl⟩
  | _ => cases h

/-! ### Runs -/

theorem inv_openIssue {session : Issue → Session} (hinv : Inv env s)
    (h : s.openIssue k issueId session = some t) (hprofile : ∀ i, (session i).profile? = none)
    (hissue : ∀ i, (session i).issue? = some i) (hholds : ∀ i u, (session i).Holds env u) :
    Inv env t := by
  unfold State.openIssue at h
  split at h
  · cases h
  obtain ⟨issue, hrow, h⟩ := bind_eq_some_iff.mp h
  split at h
  · cases h
    refine inv_setSession (inv_lockIssue hinv issueId) ⟨?_, ?_, hholds issue _⟩
    · simp [hprofile]
    · intro issue' hissue'
      rw [hissue] at hissue'
      cases hissue'
      exact ⟨issue, (mem_of_row? hrow).1, rfl, rfl⟩
  · cases h

theorem inv_openProfile {passed : Profile → Bool} {session : Profile → Session}
    (hinv : Inv env s) (h : s.openProfile k profileId passed session = some t)
    (hprofile : ∀ p, (session p).profile? = some p.id) (hissue : ∀ p, (session p).issue? = none)
    (hholds : ∀ p (u : State), passed p = true → profileRow? p.id u.profiles = some p →
      (session p).Holds env u) : Inv env t := by
  unfold State.openProfile at h
  split at h
  · cases h
  obtain ⟨profile, hrow, h⟩ := bind_eq_some_iff.mp h
  split at h
  swap
  · cases h
  next hfree =>
  cases h
  obtain rfl : profile.id = profileId := (mem_of_row? hrow).2
  refine inv_check (inv_lockProfile hinv hfree) fun hpassed => ⟨?_, ?_, ?_⟩
  · intro p hp
    rw [hprofile] at hp
    cases hp
    exact lockProfile_self s k _
  · simp [hissue]
  · exact hholds profile _ hpassed hrow

theorem inv_activate (hinv : Inv env s) (h : s.activate k = some t) : Inv env t := by
  unfold State.activate at h
  split at h
  swap
  · cases h
  next issue profile status hk =>
  split at h
  · cases h
  split at h
  · cases h
    exact inv_close hinv
  split at h
  swap
  · cases h
  next hfree =>
  cases h
  refine inv_check (inv_lockProfile hinv hfree) fun _ => ⟨?_, (hinv.ok hk).written, trivial⟩
  rintro p ⟨⟩
  exact lockProfile_self s k _

theorem inv_checkTarget (hinv : Inv env s) (h : step env s (.checkTarget k) = some t) :
    Inv env t := by
  simp only [step] at h
  split at h
  swap
  · cases h
  next profile request hk =>
  have hok := hinv.ok hk
  split at h
  · next target htarget =>
    cases h
    refine inv_setSession hinv ⟨hok.locked, nofun, hok.holds.1, hok.holds.2, fun hkey => ?_⟩
    unfold nextTarget at htarget
    split at htarget
    · have hfilter := (filter_eq_some_iff.mp htarget).2
      rw [Bool.or_eq_true, decide_eq_true_eq] at hfilter
      exact canStopServing_iff.mp (hfilter.resolve_left hkey)
    · cases htarget
      exact absurd rfl hkey
  · cases h
    exact inv_close hinv

theorem inv_closeRow (hinv : Inv env s) (h : s.closeRow k issueId = some t) : Inv env t := by
  unfold State.closeRow at h
  split at h
  swap
  · cases h
  next profile pending closed hk =>
  have hok := hinv.ok hk
  split at h
  swap
  · cases h
  split at h
  · cases h
    refine inv_setSession (inv_lockIssue hinv issueId) ⟨hok.locked, nofun, hok.holds.1, ?_⟩
    intro i hi hactive
    by_cases hid : i.id = issueId
    · exact .inr (by simp [hid])
    · rcases hok.holds.2 i hi hactive with hpending | hclosed
      · exact .inl (by simp [hpending, hid])
      · exact .inr (mem_cons_of_mem _ hclosed)
  · next hgone =>
    cases h
    refine inv_setSession hinv ⟨hok.locked, nofun, hok.holds.1, ?_⟩
    intro i hi hactive
    rcases hok.holds.2 i hi hactive with hpending | hclosed
    · refine .inl (mem_filter.mpr ⟨hpending, ?_⟩)
      -- the row is looked at again, so an active one would not be passed over
      rw [decide_eq_true_eq]
      rintro rfl
      have hrow : issueRow? i.id s.issues = some i :=
        hinv.issueIds.row?_eq_some_iff.mpr ⟨hi, rfl⟩
      exact hgone (by rw [hrow]; exact hactive)
    · exact .inr hclosed

/-- **Invariant**: every step keeps what the sessions hold under their locks. -/
theorem inv_step (hinv : Inv env s) (h : step env s l = some t) : Inv env t := by
  cases l with
  | openCreate k profileId =>
    exact inv_openProfile hinv h (fun _ => rfl) (fun _ => rfl)
      fun p u henabled hrow => ⟨p, hrow, henabled⟩
  | openUpdate k issueId status | openClose k issueId =>
    exact inv_openIssue hinv h (fun _ => rfl) (fun _ => rfl) fun _ _ => trivial
  | loadProfile k =>
    simp only [step] at h
    split at h
    · next issue status hk =>
      cases h
      exact inv_setSession hinv ⟨nofun, (hinv.ok hk).written, trivial⟩
    · cases h
  | activate k => exact inv_activate hinv h
  | openUpdateProfile k profileId request | openDisable k profileId | openForceDisable k profileId
  | openDelete k profileId =>
    exact inv_openProfile hinv h (fun _ => rfl) (fun _ => rfl) fun p u _ hrow => hrow
  | checkEnabled k =>
    simp only [step] at h
    split at h
    · next profile request hk =>
      cases h
      have hok := hinv.ok hk
      refine inv_check hinv fun hpassed => ⟨hok.locked, nofun, hok.holds, fun hdisable => ?_⟩
      rw [mayEnable, if_pos hdisable, Bool.and_eq_true] at hpassed
      exact canStopServing_iff.mp hpassed.2
    · cases h
  | checkTarget k => exact inv_checkTarget hinv h
  | countActive k =>
    simp only [step] at h
    split at h
    · next profile hk =>
      cases h
      have hok := hinv.ok hk
      exact inv_check hinv fun hpassed =>
        ⟨hok.locked, nofun, hok.holds, canStopServing_iff.mp hpassed⟩
    · cases h
  | selectActive k =>
    simp only [step] at h
    split at h
    · next profile hk =>
      cases h
      have hok := hinv.ok hk
      refine inv_setSession hinv ⟨hok.locked, nofun, hok.holds, fun i hi hactive => .inl ?_⟩
      exact List.mem_map_of_mem (mem_filter.mpr ⟨hi, hactive⟩)
    · cases h
  | closeRow k issueId => exact inv_closeRow hinv h
  | countAll k =>
    simp only [step] at h
    split at h
    · next profile hk =>
      cases h
      have hok := hinv.ok hk
      refine inv_check hinv fun hpassed => ⟨hok.locked, nofun, hok.holds, fun i hi hp => ?_⟩
      have hnone := countP_eq_zero.mp (of_decide_eq_true hpassed) i hi
      exact absurd (decide_eq_true hp) hnone
    · cases h
  | commit k newId =>
    obtain ⟨session, hk, h⟩ := bind_eq_some_iff.mp h
    obtain ⟨u, hwritten, rfl⟩ := map_eq_some_iff.mp h
    obtain ⟨hframe, hissues, hprofiles⟩ := frame_written hinv (hinv.ok hk) hwritten
    exact inv_commit hinv hframe hissues hprofiles
  | abort k =>
    simp only [step] at h
    split at h
    · cases h
      exact inv_close hinv
    · cases h

theorem inv_atRest (h : AtRest s) : Inv env s :=
  .of_ok h.issueIds h.profileIds fun k session hk => by
    rw [h.sessions] at hk
    cases hk

/-! ### Enabled Profiles -/

def Serves (profiles : List Profile) (p : Nat) : Prop :=
  ∃ row, profileRow? p profiles = some row ∧ row.enabled = true

/-- The locked read of `update_issue` finds a profile enabled that its session has loaded as
    enabled. -/
def Current (s : State) : Label → Prop
  | .activate k =>
    match s.sessions k with
    | some (.loaded issue (some profile) _) =>
      profile.enabled = true → (profileRow? issue.workerProfileId s.profiles).all (·.enabled) = true
    | _ => True
  | _ => True

/-- Each open Issue has an enabled profile, and so has each Issue that is about to be opened. -/
structure Serving (s : State) : Prop where
  issues : ∀ i ∈ s.issues, i.status ≠ .closed → Serves s.profiles i.workerProfileId
  activating : ∀ k issue status, s.sessions k = some (.activating issue status) →
    Serves s.profiles issue.workerProfileId

/-- A session that opens its Issue at its commit. -/
def Session.opens : Session → Bool
  | .activating .. => true
  | _ => false

/-- A step that writes nothing. -/
structure Quiet (l : Label) (s t : State) : Prop where
  issues : t.issues = s.issues
  profiles : t.profiles = s.profiles
  activating : ∀ j session, session.opens = true → t.sessions j = some session →
    s.sessions j = some session ∨ l = .activate j

theorem quiet_setSession (hne : session.opens = false) :
    Quiet l s (s.setSession k session) := by
  refine ⟨rfl, rfl, fun j session' hopens hj => ?_⟩
  change (if j = k then some session else s.sessions j) = _ at hj
  split at hj
  · cases hj
    rw [hne] at hopens
    cases hopens
  · exact .inl hj

theorem quiet_close : Quiet l s (s.close k) := by
  refine ⟨rfl, rfl, fun j session hopens hj => ?_⟩
  change (if j = k then none else s.sessions j) = _ at hj
  split at hj
  · cases hj
  · exact .inl hj

theorem quiet_check (hne : session.opens = false) :
    Quiet l s (s.check k passed session) := by
  unfold State.check
  split
  · exact quiet_setSession hne
  · exact quiet_close

theorem Quiet.of_locks {u : State} (h : Quiet l u t) (hissues : u.issues = s.issues)
    (hprofiles : u.profiles = s.profiles) (hsessions : u.sessions = s.sessions) : Quiet l s t :=
  ⟨h.issues.trans hissues, h.profiles.trans hprofiles, by rw [← hsessions]; exact h.activating⟩

theorem quiet_openIssue {session : Issue → Session}
    (h : s.openIssue k issueId session = some t) (hne : ∀ i, (session i).opens = false) :
    Quiet l s t := by
  unfold State.openIssue at h
  split at h
  · cases h
  obtain ⟨issue, -, h⟩ := bind_eq_some_iff.mp h
  split at h
  · cases h
    exact (quiet_setSession (hne issue)).of_locks rfl rfl rfl
  · cases h

theorem quiet_openProfile {passed : Profile → Bool}
    {session : Profile → Session} (h : s.openProfile k profileId passed session = some t)
    (hne : ∀ p, (session p).opens = false) : Quiet l s t := by
  unfold State.openProfile at h
  split at h
  · cases h
  obtain ⟨profile, -, h⟩ := bind_eq_some_iff.mp h
  split at h
  · cases h
    exact (quiet_check (hne profile)).of_locks rfl rfl rfl
  · cases h

/-- Only a commit writes. -/
theorem quiet_step (hl : ∀ k newId, l ≠ .commit k newId) (h : step env s l = some t) :
    Quiet l s t := by
  cases l with
  | openCreate k profileId | openUpdateProfile k profileId request | openDisable k profileId
  | openForceDisable k profileId | openDelete k profileId =>
    exact quiet_openProfile h fun _ => rfl
  | openUpdate k issueId status => exact quiet_openIssue h fun _ => rfl
  | openClose k issueId => exact quiet_openIssue h fun _ => rfl
  | loadProfile k | selectActive k =>
    simp only [step] at h
    split at h
    · cases h
      exact quiet_setSession rfl
    · cases h
  | activate k =>
    simp only [step, State.activate] at h
    split at h
    swap
    · cases h
    split at h
    · cases h
    split at h
    · cases h
      exact quiet_close
    split at h
    swap
    · cases h
    cases h
    unfold State.check
    split
    · refine ⟨rfl, rfl, fun j session hopens hj => ?_⟩
      change (if j = k then _ else s.sessions j) = _ at hj
      split at hj
      · next hjk => exact .inr (by rw [hjk])
      · exact .inl hj
    · exact quiet_close.of_locks rfl rfl rfl
  | checkEnabled k | countActive k | countAll k =>
    simp only [step] at h
    split at h
    · cases h
      exact quiet_check rfl
    · cases h
  | checkTarget k =>
    simp only [step] at h
    split at h
    · split at h
      · cases h
        exact quiet_setSession rfl
      · cases h
        exact quiet_close
    · cases h
  | closeRow k issueId =>
    simp only [step, State.closeRow] at h
    split at h
    · split at h
      · split at h
        · cases h
          exact (quiet_setSession rfl).of_locks rfl rfl rfl
        · cases h
          exact quiet_setSession rfl
      · cases h
    · cases h
  | commit k newId => exact absurd rfl (hl k newId)
  | abort k =>
    simp only [step] at h
    split at h
    · cases h
      exact quiet_close
    · cases h

theorem serves_setProfile
    (hs : Serves s.profiles p) (h : p = profile.id → enabled = true) :
    Serves (s.setProfile profile enabled target).profiles p := by
  obtain ⟨row, hrow, henabled⟩ := hs
  have hid : row.id = p := (mem_of_row? hrow).2
  refine ⟨_, by rw [profileRow?_setProfile, hrow]; rfl, ?_⟩
  dsimp only
  split
  · next heq => exact h (hid.symm.trans heq)
  · exact henabled

/-- **Commits**: what is open after a commit has an enabled profile. -/
theorem serving_written (hinv : Inv env s) (hs : Serving s)
    (hk : s.sessions k = some session) (h : s.written newId session = some t) :
    ∀ i ∈ t.issues, i.status ≠ .closed → Serves t.profiles i.workerProfileId := by
  have hok := hinv.ok hk
  have hclosed : ∀ issue : Issue, ∀ i ∈ (s.setStatus issue .closed).issues, i.status ≠ .closed →
      Serves s.profiles i.workerProfileId := by
    intro issue i hi hopen
    obtain ⟨i₀, hi₀, rfl⟩ := mem_setStatus.mp hi
    by_cases hid : i₀.id = issue.id
    · simp [hid] at hopen
    · rw [if_neg hid] at hopen ⊢
      exact hs.issues i₀ hi₀ hopen
  cases session with
  | creating profileId =>
    simp only [State.written] at h
    split at h
    · cases h
    cases h
    intro i hi hopen
    rcases mem_append.mp hi with hi | hi
    · exact hs.issues i hi hopen
    · rw [mem_singleton.mp hi]
      exact hok.holds
  | loaded issue profile status =>
    cases status with
    | none =>
      cases h
      exact hs.issues
    | some status =>
      cases status with
      | closed =>
        cases h
        exact hclosed issue
      | _ => cases h
  | activating issue status =>
    cases h
    intro i hi hopen
    obtain ⟨i₀, hi₀, rfl⟩ := mem_setStatus.mp hi
    by_cases hid : i₀.id = issue.id
    · rw [if_pos hid]
      obtain ⟨row, hrow, hrowId, hp⟩ := hok.written issue rfl
      obtain rfl := hinv.issueIds.eq_of_key_eq hi₀ hrow (hid.trans hrowId.symm)
      show Serves s.profiles i₀.workerProfileId
      rw [hp]
      exact hs.activating k issue status hk
    · rw [if_neg hid] at hopen ⊢
      exact hs.issues i₀ hi₀ hopen
  | closing issue =>
    cases h
    exact hclosed issue
  | edited profile request target =>
    cases h
    intro i hi hopen
    refine serves_setProfile (hs.issues i hi hopen) fun hp => ?_
    obtain ⟨hrow, hidle, -⟩ := hok.holds
    obtain ⟨row, hrow', henabled⟩ := hs.issues i hi hopen
    rw [hp, hrow] at hrow'
    cases hrow'
    cases hrequest : request.enabled with
    | none => exact henabled
    | some enabled =>
      cases enabled with
      | true => rfl
      | false => exact absurd (hidle hrequest i hi hp) hopen
  | disabled profile =>
    cases h
    intro i hi hopen
    exact serves_setProfile (hs.issues i hi hopen) fun hp => absurd (hok.holds.2 i hi hp) hopen
  | forceClosing profile pending closed =>
    cases pending with
    | cons _ _ => cases h
    | nil =>
      obtain rfl : s.forceClosed profile closed = t := some.inj h
      intro i hi hopen
      obtain ⟨hi₀, hout⟩ := open_of_mem_forceClosed hi hopen
      refine serves_setProfile (hs.issues i hi₀ hopen) fun hp => ?_
      -- the UPDATE has closed every open Issue of the profile
      rcases hok.holds.2 i hi₀ (by simp [activeOn, hp, hopen]) with hpending | hin
      · cases hpending
      · exact absurd hin hout
  | unassigned profile =>
    simp only [State.written] at h
    split at h
    · cases h
    next hnone =>
    cases h
    intro i hi hopen
    obtain ⟨row, hrow, henabled⟩ := hs.issues i hi hopen
    refine ⟨row, (profileRow?_filter_ne ?_ s.profiles).trans hrow, henabled⟩
    intro hp
    exact hnone (List.any_eq_true.mpr ⟨i, hi, decide_eq_true hp⟩)
  | _ => cases h

/-- **One step**: a step that meets the condition keeps open Issues on enabled profiles. -/
theorem serving_step (hinv : Inv env s) (hs : Serving s) (hcurrent : Current s l)
    (h : step env s l = some t) : Serving t := by
  by_cases hl : ∀ k newId, l ≠ .commit k newId
  · have hquiet := quiet_step hl h
    refine ⟨by rw [hquiet.issues, hquiet.profiles]; exact hs.issues, ?_⟩
    intro j issue status hj
    rw [hquiet.profiles]
    rcases hquiet.activating j _ rfl hj with hold | rfl
    · exact hs.activating j issue status hold
    simp only [step, State.activate] at h
    split at h
    swap
    · cases h
    next issue' profile status' hk =>
    simp only [Current, hk] at hcurrent
    split at h
    · cases h
    split at h
    · cases h
      change (if j = j then none else s.sessions j) = _ at hj
      rw [if_pos rfl] at hj
      cases hj
    next row hrow =>
    split at h
    swap
    · cases h
    cases h
    unfold State.check at hj
    split at hj
    · next hpassed =>
      change (if j = j then some (Session.activating issue' status') else s.sessions j) = _ at hj
      rw [if_pos rfl] at hj
      cases hj
      refine ⟨row, hrow, ?_⟩
      cases profile with
      | none => exact hpassed
      | some profile =>
        have hall := hcurrent hpassed
        rwa [hrow] at hall
    · change (if j = j then none else s.sessions j) = _ at hj
      rw [if_pos rfl] at hj
      cases hj
  · push Not at hl
    obtain ⟨k, newId, rfl⟩ := hl
    obtain ⟨session, hk, h⟩ := bind_eq_some_iff.mp h
    obtain ⟨u, hwritten, rfl⟩ := map_eq_some_iff.mp h
    have hissues := serving_written hinv hs hk hwritten
    refine ⟨hissues, fun j issue status hj => ?_⟩
    have hframe := (frame_written hinv (hinv.ok hk) hwritten).1.close
    by_cases hjk : j = k
    · subst hjk
      change (if j = j then none else u.sessions j) = _ at hj
      rw [if_pos rfl] at hj
      cases hj
    rw [hframe.sessions j hjk] at hj
    obtain ⟨row, hrow, henabled⟩ := hs.activating j issue status hj
    refine ⟨row, (hframe.profiles _ fun hlock => hjk ?_).trans hrow, henabled⟩
    exact some.inj (((hinv.ok hj).locked _ rfl).symm.trans hlock)

/-! ### The Docker Daemon -/

/-- A commit that moves a profile to another daemon finds its Issues idle. -/
theorem idle_of_daemon {p p' : Profile} (hinv : Inv env s)
    (hok : session.Ok env k s) (h : s.written newId session = some t) (hp : p ∈ s.profiles)
    (hp' : p' ∈ t.profiles) (hid : p'.id = p.id)
    (hkey : env.daemonKey p'.target ≠ env.daemonKey p.target) : Idle p.id s.issues := by
  have hsame : p' ∈ s.profiles → Idle p.id s.issues := by
    intro hold
    rw [hinv.profileIds.eq_of_key_eq hold hp hid] at hkey
    exact absurd rfl hkey
  -- a row that is written by a session has the target that it writes
  have hset : ∀ (profile : Profile) (enabled : Bool) (target : DockerTarget),
      profileRow? profile.id s.profiles = some profile →
      p' ∈ (s.setProfile profile enabled target).profiles →
      p = profile ∧ p'.target = target ∨ p' ∈ s.profiles := by
    intro profile enabled target hrow hmem
    obtain ⟨row, hold, rfl⟩ := List.mem_map.mp hmem
    by_cases hrowId : row.id = profile.id
    · rw [if_pos hrowId] at hid ⊢
      have hprofile := (mem_of_row? hrow).1
      exact .inl ⟨hinv.profileIds.eq_of_key_eq hp hprofile (hid.symm.trans hrowId), rfl⟩
    · rw [if_neg hrowId]
      exact .inr hold
  cases session with
  | creating profileId =>
    simp only [State.written] at h
    split at h
    · cases h
    cases h
    exact hsame hp'
  | loaded issue profile status =>
    cases status with
    | none =>
      cases h
      exact hsame hp'
    | some status =>
      cases status with
      | closed =>
        cases h
        exact hsame hp'
      | _ => cases h
  | activating issue status =>
    cases h
    exact hsame hp'
  | closing issue =>
    cases h
    exact hsame hp'
  | edited profile request target =>
    cases h
    rcases hset profile _ target hok.holds.1 hp' with ⟨rfl, htarget⟩ | hold
    · exact hok.holds.2.2 (by rwa [← htarget])
    · exact hsame hold
  | disabled profile =>
    cases h
    rcases hset profile _ _ hok.holds.1 hp' with ⟨rfl, htarget⟩ | hold
    · exact absurd (by rw [htarget]) hkey
    · exact hsame hold
  | forceClosing profile pending closed =>
    cases pending with
    | cons _ _ => cases h
    | nil =>
      obtain rfl : s.forceClosed profile closed = t := some.inj h
      rcases hset profile _ _ hok.holds.1 hp' with ⟨rfl, htarget⟩ | hold
      · exact absurd (by rw [htarget]) hkey
      · exact hsame hold
  | unassigned profile =>
    simp only [State.written] at h
    split at h
    · cases h
    cases h
    exact hsame (mem_of_mem_filter hp')
  | _ => cases h

/-- **Daemons**: no step of any run changes the daemon of a profile under an open Issue. -/
theorem idle_of_step {p p' : Profile} (hinv : Inv env s) (h : step env s l = some t)
    (hp : p ∈ s.profiles) (hp' : p' ∈ t.profiles) (hid : p'.id = p.id)
    (hkey : env.daemonKey p'.target ≠ env.daemonKey p.target) : Idle p.id s.issues := by
  by_cases hl : ∀ k newId, l ≠ .commit k newId
  · rw [(quiet_step hl h).profiles] at hp'
    rw [hinv.profileIds.eq_of_key_eq hp' hp hid] at hkey
    exact absurd rfl hkey
  · push Not at hl
    obtain ⟨k, newId, rfl⟩ := hl
    obtain ⟨session, hk, h⟩ := bind_eq_some_iff.mp h
    obtain ⟨u, hwritten, rfl⟩ := map_eq_some_iff.mp h
    exact idle_of_daemon hinv (hinv.ok hk) hwritten hp hp' hid hkey

/-- In every run whose locked profile reads find what their sessions have loaded, each open Issue
    has an enabled profile; and in every run at all, no step changes the daemon of a profile
    while an open Issue refers to it. -/
theorem open_issues_served (env : Env) {s : State} :
    ((issueProfiles env).Reachable Current s → Served s) ∧
    ((issueProfiles env).Reachable System.anyStep s → ∀ l t, step env s l = some t →
      ∀ p ∈ s.profiles, ∀ p' ∈ t.profiles, p'.id = p.id →
      env.daemonKey p'.target ≠ env.daemonKey p.target →
      ∀ i ∈ s.issues, i.workerProfileId = p.id → i.status = .closed) := by
  constructor
  · intro hs
    have hboth : Inv env s ∧ Serving s := by
      refine hs.invariant (P := fun s => Inv env s ∧ Serving s) ?_ ?_
      · intro s hrest
        have hinv : Inv env s := inv_atRest hrest
        refine ⟨hinv, fun i hi hopen => ?_, fun k issue status hk => ?_⟩
        · obtain ⟨p, hp, hid, henabled⟩ := hrest.served i hi hopen
          exact ⟨p, hinv.profileIds.row?_eq_some_iff.mpr ⟨hp, hid⟩, henabled⟩
        · rw [hrest.sessions] at hk
          cases hk
      · intro s l t ⟨hinv, hserving⟩ hcurrent hstep
        exact ⟨inv_step hinv hstep, serving_step hinv hserving hcurrent hstep⟩
    intro i hi hopen
    obtain ⟨row, hrow, henabled⟩ := hboth.2.issues i hi hopen
    obtain ⟨hmem, hid⟩ := mem_of_row? hrow
    exact ⟨row, hmem, hid, henabled⟩
  · intro hs l t hstep p hp p' hp' hid hkey
    have hinv : Inv env s := by
      refine hs.invariant (P := Inv env) (fun s hrest => inv_atRest hrest) ?_
      intro s l t hinv _ hstep
      exact inv_step hinv hstep
    exact idle_of_step hinv hstep hp hp' hid hkey

/-! ### Concrete Runs -/

/-- A deployment in which the host names the daemon. -/
def hostEnv : Env where
  daemonKey target := target.dockerHost.getD "local"
  validateTarget := some

/-- A closed Issue on an enabled profile, and a spare profile. -/
def closedIssue : State where
  issues := [⟨7, 1, .closed⟩]
  profiles := [⟨1, true, false, {}⟩, ⟨2, true, false, {}⟩]

theorem atRest_closedIssue : AtRest closedIssue where
  issueIds := by simp [Table.KeyUnique, closedIssue]
  profileIds := by simp [Table.KeyUnique, closedIssue]
  sessions := rfl
  issueLocks := rfl
  profileLocks := rfl
  served := by
    intro i hi hopen
    rw [mem_singleton.mp hi] at hopen
    exact absurd rfl hopen

instance (s : State) (l : Label) : Decidable (Current s l) := by
  cases l <;> unfold Current <;> first | infer_instance | (dsimp only; split <;> infer_instance)

/-- The Issue is reopened; its profile cannot be disabled then, and the spare one moves. -/
def reopened : List Label :=
  [.openUpdate 0 7 (some .open), .loadProfile 0, .activate 0, .commit 0 0,
    .openDisable 1 1, .countActive 1,
    .openUpdateProfile 2 2 { docker := { dockerHost := some (some "tcp://b") } },
    .checkEnabled 2, .checkTarget 2, .commit 2 0]

theorem open_issues_served_reopened :
    ∃ s, (issueProfiles hostEnv).Reachable Current s ∧
      s.issues = [⟨7, 1, .open⟩] ∧ s.profiles.map (·.enabled) = [true, true] ∧ Served s := by
  have hexec : ((issueProfiles hostEnv).execWhile Current closedIssue reopened).map
      (fun s => (s.issues, s.profiles.map (·.enabled))) = some ([⟨7, 1, .open⟩], [true, true]) := by
    decide +kernel
  obtain ⟨s, hreach, hrows⟩ := System.exists_reachable_of_execWhile hexec atRest_closedIssue
  exact ⟨s, hreach, congrArg Prod.fst hrows, congrArg Prod.snd hrows,
    (open_issues_served hostEnv).1 hreach⟩

/-- The profile is disabled between the load and the lock of a request that reopens its Issue. -/
theorem reopened_on_disabled_profile :
    ¬ ∀ s, (issueProfiles hostEnv).Reachable System.anyStep s → Served s := by
  intro hclaim
  have hs := System.reachable_of_exec atRest_closedIssue
    (show (issueProfiles hostEnv).exec closedIssue
      [.openUpdate 0 7 (some .open), .loadProfile 0, .openDisable 1 1, .countActive 1,
        .commit 1 0, .activate 0, .commit 0 0] = some _ from rfl)
  exact absurd (hclaim _ hs ⟨7, 1, .open⟩ mem_cons_self (by decide)) (by decide)

end Codify.Api.IssueProfiles
