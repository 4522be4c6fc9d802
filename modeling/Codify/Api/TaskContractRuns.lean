import Codify.Api.TaskContractSafety

/-! # Accepted Writes and the Frozen Contract

    After creations, retries and edits that name no Worker, every waiting Task of
    the V2 contract passes the check with its Bundle, holds the evidence of that
    Bundle, runs on the Worker of its Issue and stores the digest of what its
    snapshot holds.

    A CI repair and a Worker switch are left out: they build a snapshot without the
    facts of its Bundle (`writers_worker_switch` is a run with one). Of SHA-256 it is asked that it tells the texts of the
    run apart.
-/

namespace Codify.Api.TaskContract

open Codify.Framework Codify.Framework.JsonText List Option

/-! ### Runs -/

/-- No CI repair is created, no edit names a Worker, and the texts that are hashed are among the
    given ones. -/
def KeepsContract (env : Env) (texts : Set (List Char)) : State → Label → Prop
  | _, .create r => r.hashedText env ∈ texts
  | _, .repair _ => False
  | _, .update r => r.worker = none
  | _, _ => True

/-- The Task can be claimed: it passes the check with its Bundle, and the ties hold. -/
def Executable (env : Env) (s : State) (task : Task) : Prop :=
  ∃ snapshot bundle, task.snapshot = some snapshot ∧ boundBundle s.bundles task = some bundle ∧
    requireTaskExecutableContract env task.id (some snapshot) (some bundle) = .ok () ∧
    SameEvidence snapshot bundle ∧ OnIssueWorker s.issues task ∧
    snapshot.effectiveConfigurationDigest = some (snapshotEffectiveConfigurationDigest env snapshot)

/-- Every waiting Task of the V2 contract can be claimed. -/
def AllExecutable (env : Env) (s : State) : Prop :=
  ∀ task ∈ s.tasks, task.status = .pending ∨ task.status = .queued → IsV2 s task →
    Executable env s task

section Runs

variable {env : Env} {texts : Set (List Char)} {s t : State}

theorem inv_step (hsha : Set.InjOn env.sha256 texts) (h : Inv env texts s) {l : Label}
    (hguard : KeepsContract env texts s l) (hstep : step env s l = some t) : Inv env texts t := by
  cases l with
  | create r => exact inv_createTaskRecord hsha h hguard hstep
  | retry r => exact inv_retryTaskRecord h hstep
  | update r => exact inv_updateTaskRecord h hguard hstep
  | repair r => exact hguard.elim
  | progress taskId status =>
    cases hstep
    refine h.writeTask (fun _ hid => hid) fun task htask _ => ?_
    rcases h.tasks task htask with hnone | ⟨bundle, hbundle, hties⟩
    · exact .inl hnone
    · refine .inr ⟨bundle, hbundle, fun hv2 => ?_⟩
      obtain ⟨⟨snapshot, htied⟩, hon⟩ := hties hv2
      exact ⟨⟨snapshot, htied.snapshot_eq, htied.agrees, htied.evidence, htied.worker,
        htied.digest⟩, hon⟩

theorem inv_reachable (hsha : Set.InjOn env.sha256 texts)
    (h : (writers env texts).Reachable (KeepsContract env texts) s) : Inv env texts s :=
  System.Reachable.invariant (P := Inv env texts) (fun _ hinit => inv_init hinit)
    (fun _ _ _ hinv hguard hstep => inv_step hsha hinv hguard hstep) h

/-- Accepted creations, retries and edits that name no Worker leave every waiting Task of the
    V2 contract executable. -/
theorem writers_executable (hsha : Set.InjOn env.sha256 texts)
    (h : (writers env texts).Reachable (KeepsContract env texts) s) : AllExecutable env s := by
  intro task htask _ hv2
  obtain ⟨bundle, hbundle, hcontract⟩ := hv2
  obtain ⟨⟨snapshot, htied⟩, hon⟩ := (inv_reachable hsha h).tied htask hbundle hcontract
  exact ⟨snapshot, bundle, htied.snapshot_eq, hbundle, htied.agrees.isOk, htied.evidence, hon,
    htied.digest⟩

end Runs

/-! A Profile with one Harness, two source trees, and an Issue on it. -/

/-- With SHA-256 of the two texts that are hashed: they differ in the digest of the files. -/
def sampleEnv : Env where
  mode := "v2_only"
  floats := FloatText.fraction
  sha256 text :=
    if text[17]? = some 'd' then "30e706e50d69469751b1502044a839b481f9ddd17b8bae82245f6bde7461abfa"
    else "65514d21bcf6f4282aad63f3cfab40550aed26a7f09a664f60f8820c74d202e5"
  repr version := version.getD "None"
  effectiveDigest effective harnessKey _ _ := effective.image ++ harnessKey

def sampleProfile : ProfileView where
  id := 1
  effective := { image := "worker:2", runtimeMode := "mounted_kit" }
  defaultHarnessKey := "pi"
  enabledHarnesses := ["pi"]
  capabilities := []
  constraints := []
  harnessOptions := []
  imageIdentity := [("image_id", .str "sha256:1")]
  kitIdentity := []
  evidence := [("harness_key", .str "pi"), ("image_identity", .obj [("image_id", .str "sha256:1")])]
  imageIdentity_unique := by decide
  kitIdentity_unique := by decide
  evidence_unique := by decide

def sampleEndpoint : ModelEndpoint where
  id := some 1
  name := "default"
  baseUrl := "https://models"
  model := "m"
  providerKind := "anthropic"
  modelProtocol := "anthropic_messages"
  fingerprint := "f"

def sampleCreate : CreateRequest where
  taskId := 1
  issueId := 1
  userPrompt := "add a test"
  taskMode := "execute"
  requireChanges := true
  runInstructionTemplate := none
  profile := sampleProfile
  harnessKey := "pi"
  providerId := 1
  endpoint := sampleEndpoint
  harnessOptions := []
  skills := []
  skillSource := "profile"
  source :=
    { files := []
      filesDigest := "d"
      adapters := [("pi", .obj [("model_protocols", .arr [.str "anthropic-messages"])])] }
  bundleId := 1

def sampleState : State where
  issues := [⟨1, some 1⟩]
  tasks := []
  bundles := []

/-- A Task from the other source tree, which gets a Bundle of its own. -/
def otherCreate : CreateRequest :=
  { sampleCreate with
    taskId := 3
    source := { sampleCreate.source with filesDigest := "e" }
    bundleId := 2 }

def sampleTexts : Set (List Char) :=
  {sampleCreate.hashedText sampleEnv, otherCreate.hashedText sampleEnv}

/-- A failed Task is retried, the retry gets another Provider and other options, and another Task
    is created. -/
def sampleLabels : List Label :=
  [.create sampleCreate, .progress 1 .failed, .retry ⟨2, 1⟩, .create otherCreate,
    .update
      { taskId := 2
        provider := some (2, { sampleEndpoint with id := some 2 })
        harnessOptions := some [("pi", .obj [("thinking", .str "high")])] }]

theorem historical_sampleState : Historical sampleEnv sampleTexts sampleState where
  taskIds := nodup_nil
  bundleIds := nodup_nil
  bundles _ h := absurd h not_mem_nil
  bound _ h := absurd h not_mem_nil
  tasks _ h := absurd h not_mem_nil

/-- The contract versions of the Bundles that the Tasks are bound to. -/
def boundVersions (s : State) : List (Nat × TaskStatus × Option String) :=
  s.tasks.map fun task =>
    (task.id, task.status, (boundBundle s.bundles task).map (·.contractVersion))

theorem injOn_sampleTexts : Set.InjOn sampleEnv.sha256 sampleTexts := by
  have hhash : sampleEnv.sha256 (sampleCreate.hashedText sampleEnv) ≠
      sampleEnv.sha256 (otherCreate.hashedText sampleEnv) := by
    decide +kernel
  rintro text (rfl | rfl) text' (rfl | rfl) h
  · rfl
  · exact absurd h hhash
  · exact absurd h.symm hhash
  · rfl

theorem writers_executable_retry :
    ∃ s, (writers sampleEnv sampleTexts).exec sampleState sampleLabels = some s ∧
      boundVersions s = [(1, .failed, some harnessContractVersionV2),
        (2, .pending, some harnessContractVersionV2),
        (3, .pending, some harnessContractVersionV2)] ∧ AllExecutable sampleEnv s := by
  have hexec : ((writers sampleEnv sampleTexts).exec sampleState sampleLabels).map boundVersions =
      some [(1, .failed, some harnessContractVersionV2),
        (2, .pending, some harnessContractVersionV2),
        (3, .pending, some harnessContractVersionV2)] := by
    decide +kernel
  obtain ⟨s, hs, hversions⟩ := map_eq_some_iff.mp hexec
  refine ⟨s, hs, hversions, writers_executable injOn_sampleTexts
    ⟨sampleState, historical_sampleState, ?_⟩⟩
  refine System.guarded_run_of_exec (fun l hl s => ?_) hs
  simp only [sampleLabels, mem_cons, not_mem_nil, or_false] at hl
  rcases hl with rfl | rfl | rfl | rfl | rfl
  exacts [.inl rfl, True.intro, True.intro, .inr rfl, rfl]

/-! ### Writers That Leave a Mismatch -/

/-- The Worker of a waiting Task is switched: the Task stays on its Bundle, its snapshot loses the
    frozen facts, and it leaves the Worker of its Issue. -/
theorem writers_worker_switch :
    ¬ ∀ s, (writers sampleEnv sampleTexts).Reachable System.anyStep s →
      AllExecutable sampleEnv s := by
  intro h
  let switch : WorkerEdit :=
    { profile := { sampleProfile with id := 2 }
      providerId := 1
      endpoint := sampleEndpoint
      skills := []
      skillSource := "profile" }
  let labels : List Label :=
    [.create sampleCreate, .update { taskId := 1, worker := some switch }]
  let shown (s : State) : List (TaskStatus × Bool × Bool) := s.tasks.map fun task =>
    (task.status, (boundBundle s.bundles task).any (·.contractVersion = harnessContractVersionV2),
      executable sampleEnv task.id task.snapshot (boundBundle s.bundles task))
  have hexec : ((writers sampleEnv sampleTexts).exec sampleState labels).map shown =
      some [(.pending, true, false)] := by
    decide +kernel
  obtain ⟨s, hs, hshown⟩ := map_eq_some_iff.mp hexec
  obtain ⟨task, htasks, hvalues⟩ := map_eq_singleton_iff.mp hshown
  simp only [Prod.mk.injEq] at hvalues
  obtain ⟨hstatus, hv2, hnot⟩ := hvalues
  obtain ⟨bundle, hbundle, hversion⟩ := (Option.any_eq_true _ _).mp hv2
  have hreachable : (writers sampleEnv sampleTexts).Reachable System.anyStep s :=
    System.reachable_of_exec historical_sampleState hs
  obtain ⟨snapshot, bundle', hsnapshot, hbundle', hok, -⟩ :=
    h s hreachable task
      (htasks ▸ mem_cons_self) (.inl hstatus) ⟨bundle, hbundle, of_decide_eq_true hversion⟩
  rw [hsnapshot, hbundle', executable, hok] at hnot
  exact absurd hnot (Bool.noConfusion)

end Codify.Api.TaskContract
