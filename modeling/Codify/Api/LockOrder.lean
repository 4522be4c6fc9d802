import Mathlib.Data.Prod.Lex
import Mathlib.Data.Fin.VecNotation
import Codify.Framework.LockOrder

/-! # The Lock Order of the Requests

    Fifteen requests take exclusive row locks and advisory locks and hold them until
    they commit: those on Tasks (app/api/task_creation_service.py,
    app/api/task_update_service.py, app/core/ci_failure_collector.py), on Issues
    (app/api/issues.py), on Worker profiles (app/api/worker_profiles.py), on the shared
    configuration (app/api/worker_shared_configuration.py) and on Skills
    (app/api/skills.py).

    Ten of them take their locks in one order: Issue, Task, the lock of the skill
    packages, the shared row, profile, slot, Skill. The other five do not, and two
    requests of this kind can wait for each other.
-/

namespace Codify.Api.LockOrder

open Codify.Framework Codify.Framework.LockOrder List

/-! ### Locks -/

inductive Lock where
  /-- `SELECT ... FOR UPDATE`, or an UPDATE, of a row. -/
  | issue (id : Nat)
  | task (id : Nat)
  | shared
  | profile (id : Nat)
  | skill (id : Nat)
  /-- `acquire_worker_profile_skill_package_lock`. -/
  | skillPackage
  /-- The advisory lock of `check_slot_capacity`, by the start of the slot. -/
  | slot (hourStart : Nat)
  deriving DecidableEq, Repr

/-- A request with the rows that it finds. An UPDATE names its rows in the order in which it
    comes to them, which may be any. -/
inductive Request where
  | createTaskRecord (issue : Nat) (tasks : List Nat) (profile : Nat) (slot : Option Nat)
      (skills : List Nat)
  /-- With a worker switch. -/
  | updateTaskRecord (task profile : Nat) (skills : List Nat)
  | createIssue (profile : Nat)
  /-- The profile is locked when the status is set to another one than closed. -/
  | updateIssue (issue : Nat) (profile : Option Nat)
  | closeIssue (issue : Nat)
  /-- The phase that creates the repair Task. -/
  | processCiFailureRun (issue profile : Nat) (tasks skills : List Nat)
  /-- The Skills are locked when `default_skill_ids` is set. -/
  | updateWorkerProfile (profile : Nat) (skills : Option (List Nat))
  /-- All profiles are updated. -/
  | setDefaultWorkerProfile (profile : Nat) (profiles : List Nat)
  | disableWorkerProfile (profile : Nat)
  /-- The Issues that are not closed are updated. -/
  | forceDisableWorkerProfile (profile : Nat) (issues : List Nat)
  /-- `tasks.worker_profile_id` is set to null. -/
  | deleteWorkerProfile (profile : Nat) (tasks : List Nat)
  | duplicateWorkerProfile (profile : Nat) (skills : List Nat)
  /-- The profiles to invalidate are updated. -/
  | updateSharedConfiguration (profiles : List Nat)
  | updateSkill (skill : Nat)
  | enableSkill (skill : Nat)
  deriving DecidableEq, Repr

variable (createdAt : Nat → Nat)

/-! ### Programs -/

/-- `SELECT ... ORDER BY created_at, id FOR UPDATE` of Tasks. -/
def lockTasks (tasks : List Nat) : List Lock :=
  (tasks.dedup.insertionSort fun t t' => toLex (createdAt t, t) ≤ toLex (createdAt t', t')).map .task

/-- `SELECT ... ORDER BY id FOR UPDATE` of Skills. -/
def lockSkills (skills : List Nat) : List Lock :=
  (skills.dedup.insertionSort (· ≤ ·)).map .skill

/-- The locks of a request, in the order in which it takes them. -/
def program : Request → List Lock
  | .createTaskRecord issue tasks profile slot skills =>
    [.issue issue] ++ lockTasks createdAt tasks ++ [.shared, .profile profile] ++
      slot.toList.map .slot ++ lockSkills skills
  | .updateTaskRecord task profile skills =>
    [.task task, .shared, .profile profile] ++ lockSkills skills
  | .createIssue profile => [.profile profile]
  | .updateIssue issue profile => [.issue issue] ++ profile.toList.map .profile
  | .closeIssue issue => [.issue issue]
  | .processCiFailureRun issue profile tasks skills =>
    [.issue issue, .shared, .profile profile] ++ lockTasks createdAt tasks ++ lockSkills skills
  | .updateWorkerProfile profile none => [.shared, .profile profile]
  | .updateWorkerProfile profile (some skills) =>
    [.skillPackage, .shared, .profile profile] ++ lockSkills skills
  | .setDefaultWorkerProfile profile profiles => .profile profile :: profiles.map .profile
  | .disableWorkerProfile profile => [.profile profile]
  | .forceDisableWorkerProfile profile issues => .profile profile :: issues.map .issue
  | .deleteWorkerProfile profile tasks => .profile profile :: tasks.map .task
  | .duplicateWorkerProfile profile skills =>
    [.skillPackage, .shared, .profile profile] ++ lockSkills skills
  | .updateSharedConfiguration profiles => .shared :: profiles.map .profile
  | .updateSkill skill => [.skillPackage, .skill skill]
  | .enableSkill skill => [.skillPackage, .skill skill]

/-- The requests that do not take their locks in the order. -/
def exceptional : Request → Bool
  | .processCiFailureRun .. | .setDefaultWorkerProfile .. | .forceDisableWorkerProfile ..
  | .deleteWorkerProfile .. | .updateSharedConfiguration .. => true
  | _ => false

/-! ### Order -/

def kind : Lock → Nat
  | .issue _ => 0
  | .task _ => 1
  | .skillPackage => 2
  | .shared => 3
  | .profile _ => 4
  | .slot _ => 5
  | .skill _ => 6

/-- Locks of one kind: Tasks by the time of their creation, the others by id. -/
def position : Lock → Nat ×ₗ Nat
  | .task id => toLex (createdAt id, id)
  | .issue id | .profile id | .skill id => toLex (id, 0)
  | .slot hourStart => toLex (hourStart, 0)
  | .skillPackage | .shared => toLex (0, 0)

def rank (l : Lock) : Nat ×ₗ (Nat ×ₗ Nat) := toLex (kind l, position createdAt l)

variable {createdAt}

theorem rank_lt_of_kind {a b : Lock} (h : kind a < kind b) : rank createdAt a < rank createdAt b :=
  Prod.Lex.toLex_lt_toLex.mpr (.inl h)

theorem rank_lt_of_position {a b : Lock} (hkind : kind a = kind b)
    (h : position createdAt a < position createdAt b) : rank createdAt a < rank createdAt b :=
  Prod.Lex.toLex_lt_toLex.mpr (.inr ⟨hkind, h⟩)

/-- The locks are taken in the order, and their kinds lie between two bounds. -/
structure Within (createdAt : Nat → Nat) (low high : Nat) (locks : List Lock) : Prop where
  increasing : locks.Pairwise (rank createdAt · < rank createdAt ·)
  kinds : ∀ l ∈ locks, low ≤ kind l ∧ kind l < high

theorem Within.append {low middle high : Nat} {locks locks' : List Lock}
    (h : Within createdAt low middle locks) (h' : Within createdAt middle high locks')
    (hlow : low ≤ middle) (hhigh : middle ≤ high) :
    Within createdAt low high (locks ++ locks') where
  increasing := pairwise_append.mpr ⟨h.increasing, h'.increasing, fun a ha b hb =>
    rank_lt_of_kind (lt_of_lt_of_le (h.kinds a ha).2 (h'.kinds b hb).1)⟩
  kinds l hl := by
    rcases mem_append.mp hl with hl | hl
    · exact ⟨(h.kinds l hl).1, lt_of_lt_of_le (h.kinds l hl).2 hhigh⟩
    · exact ⟨le_trans hlow (h'.kinds l hl).1, (h'.kinds l hl).2⟩

theorem within_kinds (createdAt : Nat → Nat) (low high : Nat) (locks : List Lock)
    (h : (locks.map kind).Pairwise (· < ·)) (hkinds : ∀ n ∈ locks.map kind, low ≤ n ∧ n < high) :
    Within createdAt low high locks where
  increasing := (pairwise_map.mp h).imp rank_lt_of_kind
  kinds _ hl := hkinds _ (mem_map_of_mem hl)

theorem pairwise_sorted {κ : Type} [LinearOrder κ] (key : Nat → κ) (hkey : key.Injective)
    (ids : List Nat) :
    (ids.dedup.insertionSort fun a b => key a ≤ key b).Pairwise (key · < key ·) := by
  have htotal : Std.Total fun a b : Nat => key a ≤ key b := ⟨fun a b => le_total _ _⟩
  have htrans : IsTrans Nat fun a b => key a ≤ key b := ⟨fun _ _ _ => le_trans⟩
  have hsorted := pairwise_insertionSort (fun a b => key a ≤ key b) ids.dedup
  have hnodup : (ids.dedup.insertionSort fun a b => key a ≤ key b).Nodup :=
    (perm_insertionSort _ _).nodup_iff.mpr ids.nodup_dedup
  exact (hsorted.and hnodup).imp fun hab => lt_of_le_of_ne hab.1 fun heq => hab.2 (hkey heq)

attribute [local simp] kind

theorem within_lockTasks (tasks : List Nat) :
    Within createdAt 1 2 (lockTasks createdAt tasks) where
  increasing := by
    have hkey : Function.Injective fun t : Nat => toLex (createdAt t, t) := fun _ _ h =>
      congrArg (fun p => (ofLex p).2) h
    refine pairwise_map.mpr ((pairwise_sorted _ hkey tasks).imp ?_)
    exact fun h => rank_lt_of_position rfl h
  kinds l hl := by
    obtain ⟨t, -, rfl⟩ := mem_map.mp hl
    simp

theorem within_lockSkills (skills : List Nat) : Within createdAt 6 7 (lockSkills skills) where
  increasing := by
    refine pairwise_map.mpr ((pairwise_sorted id Function.injective_id skills).imp ?_)
    exact fun h => rank_lt_of_position rfl (Prod.Lex.toLex_lt_toLex.mpr (.inl h))
  kinds l hl := by
    obtain ⟨k, -, rfl⟩ := mem_map.mp hl
    simp

theorem within_slot (slot : Option Nat) : Within createdAt 5 6 (slot.toList.map .slot) := by
  cases slot <;> exact within_kinds _ _ _ _ (by simp) (by simp)

/-- **The order**: every other request takes its locks in it. -/
theorem increasing_program {request : Request} (h : exceptional request = false) :
    Increasing (rank createdAt) (program createdAt request) := by
  refine pairwise_map.mpr ?_
  cases request with
  | createTaskRecord issue tasks profile slot skills =>
    have hissue := within_kinds createdAt 0 1 [.issue issue] (by simp) (by simp)
    have hprofile := within_kinds createdAt 2 5 [.shared, .profile profile] (by simp) (by simp)
    have htasks := hissue.append (within_lockTasks tasks) (by omega) (by omega)
    have hslot := (htasks.append hprofile (by omega) (by omega)).append (within_slot slot) (by omega)
      (by omega)
    exact (hslot.append (within_lockSkills skills) (by omega) (by omega)).increasing
  | updateTaskRecord task profile skills =>
    have hprofile := within_kinds createdAt 0 6 [.task task, .shared, .profile profile]
      (by simp) (by simp)
    exact (hprofile.append (within_lockSkills skills) (by omega) (by omega)).increasing
  | updateIssue issue profile =>
    cases profile with
    | none => exact pairwise_singleton _ _
    | some profile =>
      exact (within_kinds _ 0 5 [.issue issue, .profile profile] (by simp) (by simp)).increasing
  | updateWorkerProfile profile skills =>
    cases skills with
    | none =>
      exact (within_kinds _ 0 6 [.shared, .profile profile] (by simp) (by simp)).increasing
    | some skills =>
      have hprofile := within_kinds createdAt 0 6
        [.skillPackage, .shared, .profile profile] (by simp) (by simp)
      exact (hprofile.append (within_lockSkills skills) (by omega) (by omega)).increasing
  | duplicateWorkerProfile profile skills =>
    have hprofile := within_kinds createdAt 0 6
      [.skillPackage, .shared, .profile profile] (by simp) (by simp)
    exact (hprofile.append (within_lockSkills skills) (by omega) (by omega)).increasing
  | updateSkill skill | enableSkill skill =>
    exact (within_kinds _ 0 7 [.skillPackage, .skill skill] (by simp) (by simp)).increasing
  | createIssue profile | closeIssue issue | disableWorkerProfile profile =>
    exact pairwise_singleton _ _
  | processCiFailureRun | setDefaultWorkerProfile | forceDisableWorkerProfile
  | deleteWorkerProfile | updateSharedConfiguration => cases h

/-! ### Deadlocks -/

def requests (createdAt : Nat → Nat) : System (List (Session Request Lock)) (Label Request) :=
  transactions (program createdAt)

/-- An exceptional request that has to wait for a lock which does not come after all those that
    it holds waits for a holder that has only later ones to take. -/
abbrev InOrderOrClear (createdAt : Nat → Nat) :
    List (Session Request Lock) → Label Request → Prop :=
  Respected (rank createdAt) exceptional

/-- **Lock order**: while the exceptional requests wait so, there is no deadlock. -/
theorem requests_not_deadlocked {s : List (Session Request Lock)}
    (h : (requests createdAt).Reachable (InOrderOrClear createdAt) s) : ¬ Deadlocked s :=
  noDeadlock (fun _ => increasing_program) h

/-! ### Concrete Runs -/

/-- A force-disable waits for an Issue that is being closed, and a new Issue for its profile. -/
def closedMeanwhile : List (Label Request) :=
  [.start 0 (.closeIssue 7), .request 0, .start 1 (.forceDisableWorkerProfile 2 [7]), .request 1,
    .request 1, .start 2 (.createIssue 2), .request 2]

theorem requests_not_deadlocked_closed :
    ∃ s, (requests id).Reachable (InOrderOrClear id) s ∧
      s.map (fun x => (x.id, x.waiting)) = [(0, false), (1, true), (2, true)] ∧
        ¬ Deadlocked s := by
  have hexec : ((requests id).execWhile (InOrderOrClear id) [] closedMeanwhile).map
      (fun s => s.map fun x => (x.id, x.waiting)) =
        some [(0, false), (1, true), (2, true)] := by decide +kernel
  obtain ⟨s, hreach, hrows⟩ := System.exists_reachable_of_execWhile hexec rfl
  exact ⟨s, hreach, hrows, requests_not_deadlocked hreach⟩

/-- The first of two requests that make a profile the default holds profile 1, and waits for 2
    in its UPDATE of all profiles. -/
def firstDefault : Session Request Lock :=
  ⟨0, .setDefaultWorkerProfile 1 [1, 2], [.profile 1, .profile 1], [.profile 2], true⟩

/-- The second one holds profile 2, and waits for 1. -/
def secondDefault : Session Request Lock :=
  ⟨1, .setDefaultWorkerProfile 2 [1, 2], [.profile 2], [.profile 1, .profile 2], true⟩

theorem two_defaults_deadlocked :
    ¬ ∀ s, (requests id).Reachable System.anyStep s → ¬ Deadlocked s := by
  intro hclaim
  have hexec : (requests id).exec [] [.start 0 firstDefault.request, .start 1 secondDefault.request,
        .request 0, .request 1, .request 0, .request 0, .request 1] =
      some [firstDefault, secondDefault] := by
    decide +kernel
  refine hclaim _ (System.reachable_of_exec rfl hexec) ⟨1, ![firstDefault, secondDefault], ?_⟩
  have hfirst : WaitsFor firstDefault secondDefault :=
    ⟨rfl, by decide, .profile 2, rfl, by decide⟩
  have hsecond : WaitsFor secondDefault firstDefault :=
    ⟨rfl, by decide, .profile 1, rfl, by decide⟩
  rw [Fin.forall_fin_two]
  exact ⟨⟨mem_cons_self, hfirst⟩, mem_cons_of_mem _ mem_cons_self, hsecond⟩

end Codify.Api.LockOrder
