import Codify.Api.TaskContractWriters

/-! # Ties of a Frozen Contract

    What `require_task_executable_contract` checks, and the ties between a Task, its
    snapshot and its Bundle that make it pass: a creation establishes them through
    the address of the Bundle, a retry copies them, and an edit that names no Worker
    keeps them.
-/

namespace Codify.Api.TaskContract

open Codify.Framework Codify.Framework.JsonText List Option Table

/-! ### The Check -/

/-- The frozen endpoint speaks a protocol that the Bundle declares. -/
def EndpointDeclared (bundle : Bundle) (harnessKey : String) : Option JsonObject → Prop
  | none => True
  | some endpoint => ∃ protocol declared, (endpointProtocol endpoint).asString = some protocol ∧
      protocol ≠ "" ∧ runtimeBundleModelProtocols bundle harnessKey = some declared ∧
      dashToUnderscore protocol ∈ declared

/-- What `require_task_executable_contract` checks. -/
structure Agrees (env : Env) (snapshot : Snapshot) (bundle : Bundle) : Prop where
  mode : env.mode = "v2_only"
  contract : bundle.contractVersion = harnessContractVersionV2
  version : snapshot.runtimeContractVersion = some bundle.contractVersion
  digest : bundle.digest ≠ "" ∧ snapshot.runtimeBundleDigest = some bundle.digest
  adapter : snapshot.harnessKey.getD "" ≠ "" ∧
    (dictOr (bundle.manifest.get "adapters")).has (snapshot.harnessKey.getD "") = true
  endpoint : EndpointDeclared bundle (snapshot.harnessKey.getD "") snapshot.modelEndpointSnapshot

section Check

variable {env : Env} {taskId : Nat} {snapshot : Snapshot} {bundle : Bundle}

variable {condition : Prop} {error : PolicyError}

theorem check_ok_iff [Decidable condition] :
    check condition error = .ok () ↔ condition := by
  unfold check
  split
  · next h => exact iff_of_true rfl h
  · next h => exact iff_of_false nofun h

theorem check_bind_ok_iff [Decidable condition]
    {rest : Unit → Except PolicyError Unit} :
    (check condition error >>= rest) = .ok () ↔ condition ∧ rest () = .ok () := by
  unfold check
  split
  · next h => exact (and_iff_right h).symm
  · next h => exact iff_of_false nofun fun hand => h hand.1

theorem requireDeclaredEndpoint_ok_iff {harnessKey : String} {endpoint : JsonObject} :
    requireDeclaredEndpoint taskId bundle harnessKey endpoint = .ok () ↔
      EndpointDeclared bundle harnessKey (some endpoint) := by
  unfold requireDeclaredEndpoint EndpointDeclared
  cases hprotocol : (endpointProtocol endpoint).asString with
  | none =>
    refine iff_of_false nofun ?_
    rintro ⟨protocol, declared, h, -⟩
    exact nomatch hprotocol.symm.trans h
  | some protocol =>
    dsimp only
    rw [check_bind_ok_iff]
    cases hdeclared : runtimeBundleModelProtocols bundle harnessKey with
    | none =>
      refine iff_of_false (fun h => nomatch h.2) ?_
      rintro ⟨protocol', declared, -, -, h, -⟩
      exact nomatch h
    | some declared =>
      dsimp only
      rw [check_ok_iff]
      constructor
      · rintro ⟨hne, hmem⟩
        exact ⟨protocol, declared, hprotocol, hne, rfl, hmem⟩
      · rintro ⟨protocol', declared', h, hne, h', hmem⟩
        cases hprotocol.symm.trans h
        cases h'
        exact ⟨hne, hmem⟩

theorem requireFrozenIdentity_ok_iff :
    requireFrozenIdentity env taskId snapshot bundle = .ok () ↔
      snapshot.runtimeContractVersion = some bundle.contractVersion ∧
        (bundle.digest ≠ "" ∧ snapshot.runtimeBundleDigest = some bundle.digest) ∧
        (snapshot.harnessKey.getD "" ≠ "" ∧
          (dictOr (bundle.manifest.get "adapters")).has (snapshot.harnessKey.getD "") = true) ∧
        EndpointDeclared bundle (snapshot.harnessKey.getD "") snapshot.modelEndpointSnapshot := by
  unfold requireFrozenIdentity
  dsimp only
  rw [check_bind_ok_iff, check_bind_ok_iff, check_bind_ok_iff]
  refine and_congr_right fun _ => and_congr_right fun _ => and_congr_right fun _ => ?_
  cases snapshot.modelEndpointSnapshot with
  | none => exact iff_of_true rfl trivial
  | some endpoint => exact requireDeclaredEndpoint_ok_iff

theorem requireTaskExecutableContract_ok_iff :
    requireTaskExecutableContract env taskId (some snapshot) (some bundle) = .ok () ↔
      Agrees env snapshot bundle := by
  unfold requireTaskExecutableContract validateHarnessExecutionMode requireExecutableContract
  dsimp only
  rw [check_bind_ok_iff, check_bind_ok_iff, requireFrozenIdentity_ok_iff]
  constructor
  · rintro ⟨hmode, hcontract, hversion, hdigest, hadapter, hendpoint⟩
    exact ⟨hmode, some.inj hcontract, hversion, hdigest, hadapter, hendpoint⟩
  · rintro ⟨hmode, hcontract, hversion, hdigest, hadapter, hendpoint⟩
    exact ⟨hmode, congrArg some hcontract, hversion, hdigest, hadapter, hendpoint⟩

theorem isOk_iff {result : Except PolicyError Unit} : result.isOk = true ↔ result = .ok () := by
  cases result with
  | error => exact iff_of_false Bool.false_ne_true nofun
  | ok value => exact iff_of_true rfl rfl

theorem executable_iff {snapshot : Option Snapshot} {bundle : Option Bundle} :
    executable env taskId snapshot bundle = true ↔
      ∃ sn b, snapshot = some sn ∧ bundle = some b ∧ Agrees env sn b := by
  unfold executable
  rw [isOk_iff]
  cases bundle with
  | none =>
    refine iff_of_false (fun h => ?_) (fun ⟨_, _, _, h, _⟩ => nomatch h)
    unfold requireTaskExecutableContract requireExecutableContract at h
    rw [validateHarnessExecutionMode, check_bind_ok_iff] at h
    dsimp only at h
    rw [check_bind_ok_iff] at h
    exact nomatch h.2.1
  | some b =>
    cases snapshot with
    | none =>
      refine iff_of_false (fun h => ?_) (fun ⟨_, _, h, _⟩ => nomatch h)
      unfold requireTaskExecutableContract requireExecutableContract at h
      rw [validateHarnessExecutionMode, check_bind_ok_iff] at h
      dsimp only at h
      rw [check_bind_ok_iff] at h
      exact nomatch h.2.2
    | some sn =>
      rw [requireTaskExecutableContract_ok_iff]
      constructor
      · exact fun h => ⟨sn, b, rfl, rfl, h⟩
      · rintro ⟨sn', b', h, h', hagrees⟩
        cases h
        cases h'
        exact hagrees

theorem Agrees.isOk (h : Agrees env snapshot bundle) :
    requireTaskExecutableContract env taskId (some snapshot) (some bundle) = .ok () :=
  requireTaskExecutableContract_ok_iff.mpr h

theorem Agrees.edit {edited : Snapshot} (h : Agrees env snapshot bundle)
    (hversion : edited.runtimeContractVersion = snapshot.runtimeContractVersion)
    (hdigest : edited.runtimeBundleDigest = snapshot.runtimeBundleDigest)
    (hkey : edited.harnessKey = snapshot.harnessKey)
    (hendpoint : EndpointDeclared bundle (snapshot.harnessKey.getD "")
      edited.modelEndpointSnapshot) : Agrees env edited bundle where
  mode := h.mode
  contract := h.contract
  version := hversion.trans h.version
  digest := ⟨h.digest.1, hdigest.trans h.digest.2⟩
  adapter := by
    rw [hkey]
    exact h.adapter
  endpoint := by
    rw [hkey]
    exact hendpoint

end Check

/-! ### Declared Endpoints -/

section Endpoints

variable {bundle : Bundle} {harnessKey : String} {endpoint : ModelEndpoint}

theorem mem_of_mapM {α β : Type} {f : α → Option β} {items : List α} {mapped : List β} {value : β}
    (h : items.mapM f = some mapped) (hvalue : value ∈ mapped) :
    ∃ item ∈ items, f item = some value := by
  induction items generalizing mapped with
  | nil =>
    obtain rfl : [] = mapped := by simpa using h
    exact absurd hvalue not_mem_nil
  | cons item rest ih =>
    rw [mapM_cons] at h
    obtain ⟨head, hhead, h⟩ := bind_eq_some_iff.mp h
    obtain ⟨tail, htail, h⟩ := bind_eq_some_iff.mp h
    obtain rfl : head :: tail = mapped := some.inj h
    rcases mem_cons.mp hvalue with rfl | hmem
    · exact ⟨item, mem_cons_self, hhead⟩
    · obtain ⟨item', hitem', hf⟩ := ih htail hmem
      exact ⟨item', mem_cons_of_mem _ hitem', hf⟩

theorem declaredProtocol_mem {protocol : Json} {declared : String}
    (h : declaredProtocol protocol = some declared) : declared ∈ modelProtocols := by
  unfold declaredProtocol at h
  split at h
  · cases h
  · split at h
    · cases h
    · split at h
      · next hmem =>
        cases h
        exact hmem
      · cases h

theorem runtimeBundleModelProtocols_known {declared : List String} {protocol : String}
    (h : runtimeBundleModelProtocols bundle harnessKey = some declared)
    (hmem : protocol ∈ declared) : protocol ∈ modelProtocols := by
  unfold runtimeBundleModelProtocols at h
  split at h
  · cases h
  · split at h
    · cases h
    · split at h
      · cases h
      · split at h
        · cases h
        · cases h
        · obtain ⟨mapped, hmapped, h⟩ := bind_eq_some_iff.mp h
          split at h
          · cases h
            obtain ⟨item, -, hitem⟩ := mem_of_mapM hmapped hmem
            exact declaredProtocol_mem hitem
          · cases h

theorem dashToUnderscore_known : ∀ protocol ∈ modelProtocols,
    dashToUnderscore protocol = protocol ∧ protocol ≠ "" := by
  decide +kernel

theorem endpointDeclared_of_compatible
    (h : ensureHarnessProtocolCompatibility harnessKey endpoint (some bundle) = true) :
    EndpointDeclared bundle harnessKey (some endpoint.asSnapshot) := by
  unfold ensureHarnessProtocolCompatibility at h
  rw [Bool.and_eq_true] at h
  obtain ⟨-, hany⟩ := h
  dsimp only at hany
  cases hdeclared : runtimeBundleModelProtocols bundle harnessKey with
  | none =>
    rw [hdeclared] at hany
    exact absurd hany Bool.false_ne_true
  | some declared =>
    rw [hdeclared] at hany
    have hmem : endpoint.modelProtocol ∈ declared := contains_iff_mem.mp hany
    obtain ⟨hdash, hne⟩ :=
      dashToUnderscore_known _ (runtimeBundleModelProtocols_known hdeclared hmem)
    exact ⟨endpoint.modelProtocol, declared, rfl, hne, hdeclared, by rw [hdash]; exact hmem⟩

end Endpoints

/-! ### Bundles -/

section Bundles

variable {env : Env} {texts : Set (List Char)} {bundles bundles' : List Bundle} {bundle : Bundle}
  {source : Source}
  {newId : Nat} {image evidence kit : JsonObject}

theorem keysUnique_bundlePayload (filesDigest : String)
    (himage : keysUnique (.obj image) = true) (hevidence : keysUnique (.obj evidence) = true)
    (hkit : keysUnique (.obj kit) = true) :
    keysUnique (.obj (bundlePayload filesDigest image evidence kit)) = true := by
  rw [keysUnique_obj_iff]
  refine ⟨by simp [bundlePayload], fun field hfield => ?_⟩
  simp only [bundlePayload, mem_cons, not_mem_nil, or_false] at hfield
  rcases hfield with rfl | rfl | rfl | rfl
  exacts [rfl, himage, hevidence, hkit]

/-- Two Bundles with one digest hold the same evidence, up to the order of its keys. -/
theorem evidence_of_digest {filesDigest filesDigest' : String}
    {image' evidence' kit' : JsonObject} (hsha : Set.InjOn env.sha256 texts)
    (htext : bundleText env filesDigest image evidence kit ∈ texts)
    (htext' : bundleText env filesDigest' image' evidence' kit' ∈ texts)
    (himage : keysUnique (.obj image) = true) (hevidence : keysUnique (.obj evidence) = true)
    (hkit : keysUnique (.obj kit) = true) (himage' : keysUnique (.obj image') = true)
    (hevidence' : keysUnique (.obj evidence') = true) (hkit' : keysUnique (.obj kit') = true)
    (h : v2BundleDigest env filesDigest image evidence kit =
      v2BundleDigest env filesDigest' image' evidence' kit') :
    sortKeys (.obj evidence) = sortKeys (.obj evidence') := by
  have hpayload := keysUnique_bundlePayload filesDigest himage hevidence hkit
  have hpayload' := keysUnique_bundlePayload filesDigest' himage' hevidence' hkit'
  -- the digest is read back to the sorted payload
  have hloads := congrArg (loads env.floats) (hsha htext htext' h)
  rw [bundleText, bundleText, loads_dumps false (keysUnique_sortKeys _ hpayload),
    loads_dumps false (keysUnique_sortKeys _ hpayload')] at hloads
  have hfields : sortFields (bundlePayload filesDigest image evidence kit) =
      sortFields (bundlePayload filesDigest' image' evidence' kit') :=
    Json.obj.inj (some.inj hloads)
  have hget := congrArg (fun fields => JsonObject.get fields "harness_verification_evidence") hfields
  rw [get_sortFields (keysUnique_obj_iff.mp hpayload).1,
    get_sortFields (keysUnique_obj_iff.mp hpayload').1] at hget
  exact hget

/-- `get_or_create_runtime_bundle_v2` adds at most one row, of the given id. -/
structure Bound (env : Env) (source : Source) (newId : Nat) (image evidence kit : JsonObject)
    (bundles bundles' : List Bundle) (bundle : Bundle) : Prop where
  mem : bundle ∈ bundles'
  digest : bundle.digest = v2BundleDigest env source.filesDigest image evidence kit
  rows : bundles' = bundles ∨ bundle.id = newId ∧ bundles' = bundles ++ [bundle] ∧
    bundle.manifest.get "harness_verification_evidence" = .obj evidence

theorem getOrCreateRuntimeBundleV2_bound
    (h : getOrCreateRuntimeBundleV2 env bundles source newId image evidence kit =
      some (bundles', bundle)) :
    Bound env source newId image evidence kit bundles bundles' bundle := by
  unfold getOrCreateRuntimeBundleV2 at h
  split at h
  · cases h
  split at h
  · cases h
  dsimp only at h
  split at h
  · next existing hexisting =>
    simp only [Option.some.injEq, Prod.mk.injEq] at h
    obtain ⟨rfl, rfl⟩ := h
    exact ⟨mem_of_find?_eq_some hexisting, by simpa using find?_some hexisting, .inl rfl⟩
  · simp only [Option.some.injEq, Prod.mk.injEq] at h
    obtain ⟨rfl, rfl⟩ := h
    exact ⟨mem_append_right _ mem_cons_self, rfl, .inr ⟨rfl, rfl, rfl⟩⟩

theorem bindRuntimeBundle_bound {profile : ProfileView} {harnessKey : String}
    (h : bindRuntimeBundle env bundles profile harnessKey source newId = some (bundles', bundle)) :
    isNew Bundle.id newId bundles = true ∧
      Bound env source newId profile.imageIdentity profile.evidence profile.kitIdentity bundles
        bundles' bundle := by
  unfold bindRuntimeBundle at h
  split at h
  · cases h
  next hnot =>
  refine ⟨?_, getOrCreateRuntimeBundleV2_bound h⟩
  cases hnew : isNew Bundle.id newId bundles with
  | true => rfl
  | false => exact absurd (.inr (.inr hnew)) hnot

variable {created : List Bundle}

theorem row?_append {id : Nat} (h : row? Bundle.id id bundles = some bundle) :
    row? Bundle.id id (bundles ++ created) = some bundle := by
  unfold row? at h ⊢
  rw [find?_append, h]
  rfl

theorem boundBundle_append {task : Task}
    (h : boundBundle bundles task = some bundle) :
    boundBundle (bundles ++ created) task = some bundle := by
  obtain ⟨id, hid, hrow⟩ := bind_eq_some_iff.mp h
  exact bind_eq_some_iff.mpr ⟨id, hid, row?_append hrow⟩

theorem isNew_iff {α : Type} {key : α → Nat} {id : Nat} {rows : List α} :
    isNew key id rows = true ↔ ∀ row ∈ rows, key row ≠ id := by
  unfold isNew
  rw [isNone_iff_eq_none, row?_eq_none_iff]

end Bundles

/-! ### Tied Tasks -/

/-- The Task runs on the Worker of its Issue. -/
def OnIssueWorker (issues : List Issue) (task : Task) : Prop :=
  ∃ issue, row? Issue.id task.issueId issues = some issue ∧
    task.workerProfileId = issue.workerProfileId

/-- The evidence of a snapshot is that of the Bundle, up to the order of keys. -/
def SameEvidence (snapshot : Snapshot) (bundle : Bundle) : Prop :=
  sortKeys (frozenEvidence snapshot) =
    sortKeys (bundle.manifest.get "harness_verification_evidence")

/-- The ties between a Task, its snapshot and its Bundle. -/
structure Tied (env : Env) (task : Task) (snapshot : Snapshot) (bundle : Bundle) : Prop where
  snapshot_eq : task.snapshot = some snapshot
  agrees : Agrees env snapshot bundle
  evidence : SameEvidence snapshot bundle
  worker : task.workerProfileId = snapshot.workerProfileId
  digest : snapshot.effectiveConfigurationDigest =
    some (snapshotEffectiveConfigurationDigest env snapshot)

/-- What an edit without a Worker leaves of a Task. -/
structure SameBinding (task edited : Task) : Prop where
  id : edited.id = task.id
  issueId : edited.issueId = task.issueId
  workerProfileId : edited.workerProfileId = task.workerProfileId
  runtimeBundleId : edited.runtimeBundleId = task.runtimeBundleId

theorem SameBinding.trans {task edited edited' : Task} (h : SameBinding task edited)
    (h' : SameBinding edited edited') : SameBinding task edited' where
  id := h'.id.trans h.id
  issueId := h'.issueId.trans h.issueId
  workerProfileId := h'.workerProfileId.trans h.workerProfileId
  runtimeBundleId := h'.runtimeBundleId.trans h.runtimeBundleId

def KeepsTies (env : Env) (bundle : Bundle) (edit : Task → Option Task) : Prop :=
  ∀ task edited snapshot, Tied env task snapshot bundle → edit task = some edited →
    SameBinding task edited ∧ ∃ snapshot', Tied env edited snapshot' bundle

section Edits

variable {env : Env} {bundle : Bundle}

theorem keepsTies_editIf {α : Type} {value : Option α} {edit : α → Task → Option Task}
    (h : ∀ value, KeepsTies env bundle (edit value)) : KeepsTies env bundle (editIf value edit) := by
  intro task edited snapshot htied hedit
  cases value with
  | none =>
    cases hedit
    exact ⟨⟨rfl, rfl, rfl, rfl⟩, snapshot, htied⟩
  | some value => exact h value task edited snapshot htied hedit

theorem keepsTies_editPrompt (r : UpdateRequest) : KeepsTies env bundle (editPrompt r) := by
  intro task edited snapshot htied hedit
  unfold editPrompt at hedit
  split at hedit
  · cases hedit
  · cases hedit
    exact ⟨⟨rfl, rfl, rfl, rfl⟩, snapshot,
      ⟨htied.snapshot_eq, htied.agrees, htied.evidence, htied.worker, htied.digest⟩⟩

/-- Another endpoint is one the Bundle declares, and no part of the stored digest. -/
theorem keepsTies_editProvider (edit : Nat × ModelEndpoint) :
    KeepsTies env bundle (editProvider (some bundle) edit) := by
  intro task edited snapshot htied hedit
  unfold editProvider at hedit
  rw [htied.snapshot_eq, bind_eq_bind, bind_some] at hedit
  dsimp only at hedit
  rw [if_neg htied.agrees.adapter.1] at hedit
  split at hedit
  · next hcompatible =>
    cases hedit
    have hdeclared := endpointDeclared_of_compatible hcompatible
    exact ⟨⟨rfl, rfl, rfl, rfl⟩, _,
      ⟨rfl, htied.agrees.edit rfl rfl rfl hdeclared, htied.evidence, htied.worker, htied.digest⟩⟩
  · cases hedit

theorem keepsTies_editHarnessOptions (overrides : JsonObject) :
    KeepsTies env bundle (editHarnessOptions env overrides) := by
  intro task edited snapshot htied hedit
  unfold editHarnessOptions at hedit
  rw [htied.snapshot_eq, bind_eq_bind, bind_some] at hedit
  obtain ⟨next, hnext, hedit⟩ := bind_eq_some_iff.mp hedit
  cases hedit
  have hevidence : ∀ options : Json,
      sortKeys (JsonObject.get ((snapshot.harnessConfigSnapshot.getD []).set "options" options)
        "v2_harness_verification_evidence") =
          sortKeys (bundle.manifest.get "harness_verification_evidence") := by
    intro options
    rw [JsonObject.get_set_ne _ (by decide) options]
    exact htied.evidence
  refine ⟨⟨rfl, rfl, rfl, rfl⟩, next, ?_⟩
  unfold applyTaskHarnessOptions at hnext
  dsimp only at hnext
  split at hnext
  · cases hnext
    exact ⟨rfl, htied.agrees.edit rfl rfl rfl htied.agrees.endpoint, hevidence _, htied.worker, rfl⟩
  · cases hnext
    exact ⟨rfl, htied.agrees.edit rfl rfl rfl htied.agrees.endpoint, hevidence _, htied.worker, rfl⟩
  · cases hnext

theorem keepsTies_editSkills (edit : List SkillReference × String) :
    KeepsTies env bundle (editSkills env edit) := by
  intro task edited snapshot htied hedit
  unfold editSkills at hedit
  rw [htied.snapshot_eq, bind_eq_bind, bind_some] at hedit
  cases hedit
  exact ⟨⟨rfl, rfl, rfl, rfl⟩, _, rfl, htied.agrees.edit rfl rfl rfl htied.agrees.endpoint,
    htied.evidence, htied.worker, rfl⟩

theorem KeepsTies.bind {edit edit' : Task → Option Task} (h : KeepsTies env bundle edit)
    (h' : KeepsTies env bundle edit') : KeepsTies env bundle fun task => edit task >>= edit' := by
  intro task edited snapshot htied hedit
  obtain ⟨next, hnext, hedit⟩ := bind_eq_some_iff.mp hedit
  obtain ⟨hsame, snapshot', htied'⟩ := h task next snapshot htied hnext
  obtain ⟨hsame', hties⟩ := h' next edited snapshot' htied' hedit
  exact ⟨hsame.trans hsame', hties⟩

theorem keepsTies_editTask {r : UpdateRequest} (h : r.worker = none) :
    KeepsTies env bundle (editTask env (some bundle) r) := by
  have hworker : KeepsTies env bundle
      (editIf r.worker (editWorker env (some bundle) (r.harnessOptions.getD []))) := by
    rw [h]
    intro task edited snapshot htied hedit
    cases hedit
    exact ⟨⟨rfl, rfl, rfl, rfl⟩, snapshot, htied⟩
  exact (keepsTies_editPrompt r).bind ((keepsTies_editIf keepsTies_editProvider).bind
    (hworker.bind ((keepsTies_editIf keepsTies_editHarnessOptions).bind
      (keepsTies_editIf keepsTies_editSkills))))

end Edits

/-! ### Invariant -/

/-- A Task without a Bundle, or with one; the ties are those of the V2 contract. -/
def TaskOk (env : Env) (issues : List Issue) (bundles : List Bundle) (task : Task) : Prop :=
  task.runtimeBundleId = none ∨ ∃ bundle, boundBundle bundles task = some bundle ∧
    (bundle.contractVersion = harnessContractVersionV2 →
      (∃ snapshot, Tied env task snapshot bundle) ∧ OnIssueWorker issues task)

/-- **Invariant** of the writers. -/
structure Inv (env : Env) (texts : Set (List Char)) (s : State) : Prop where
  taskIds : Table.KeyUnique Task.id s.tasks
  bundleIds : Table.KeyUnique Bundle.id s.bundles
  bundles : ∀ bundle ∈ s.bundles, bundle.contractVersion = harnessContractVersionV2 →
    Addressed env texts bundle
  tasks : ∀ task ∈ s.tasks, TaskOk env s.issues s.bundles task

section Invariant

variable {env : Env} {texts : Set (List Char)} {s t : State}

theorem inv_init (h : Historical env texts s) : Inv env texts s where
  taskIds := h.taskIds
  bundleIds := h.bundleIds
  bundles := h.bundles
  tasks task htask := by
    rcases h.bound task htask with hnone | hsome
    · exact .inl hnone
    · obtain ⟨bundle, hbundle⟩ := isSome_iff_exists.mp hsome
      exact .inr ⟨bundle, hbundle, fun hv2 => absurd ⟨bundle, hbundle, hv2⟩ (h.tasks task htask)⟩

variable {task : Task}

theorem TaskOk.append {issues : List Issue} {bundles created : List Bundle}
    (h : TaskOk env issues bundles task) : TaskOk env issues (bundles ++ created) task := by
  rcases h with hnone | ⟨bundle, hbundle, hties⟩
  · exact .inl hnone
  · exact .inr ⟨bundle, boundBundle_append hbundle, hties⟩

theorem Inv.tied (h : Inv env texts s) (htask : task ∈ s.tasks) {bundle : Bundle}
    (hbundle : boundBundle s.bundles task = some bundle)
    (hv2 : bundle.contractVersion = harnessContractVersionV2) :
    (∃ snapshot, Tied env task snapshot bundle) ∧ OnIssueWorker s.issues task := by
  rcases h.tasks task htask with hnone | ⟨bundle', hbundle', hties⟩
  · unfold boundBundle at hbundle
    rw [hnone] at hbundle
    cases hbundle
  · cases hbundle.symm.trans hbundle'
    exact hties hv2

theorem Inv.addTask (h : Inv env texts s) {bundles : List Bundle}
    (hnew : isNew Task.id task.id s.tasks = true) (hids : Table.KeyUnique Bundle.id bundles)
    (hbundles : ∀ bundle ∈ bundles, bundle.contractVersion = harnessContractVersionV2 →
      Addressed env texts bundle)
    (hkept : ∃ created, bundles = s.bundles ++ created)
    (htask : TaskOk env s.issues bundles task) :
    Inv env texts { s with tasks := s.tasks ++ [task], bundles := bundles } where
  taskIds := h.taskIds.append (isNew_iff.mp hnew)
  bundleIds := hids
  bundles := hbundles
  tasks task' htask' := by
    obtain ⟨created, rfl⟩ := hkept
    rcases mem_append.mp htask' with hold | hone
    · exact (h.tasks task' hold).append
    · obtain rfl := mem_singleton.mp hone
      exact htask

theorem Inv.writeTask (h : Inv env texts s) {id : Nat} {write : Task → Task}
    (hid : ∀ task, task.id = id → (write task).id = id)
    (hwrite : ∀ task ∈ s.tasks, task.id = id →
      TaskOk env s.issues s.bundles (write task)) :
    Inv env texts { s with tasks := update Task.id id write s.tasks } where
  taskIds := by
    refine h.taskIds.map fun task => ?_
    split
    · next heq => exact (hid task heq).trans heq.symm
    · rfl
  bundleIds := h.bundleIds
  bundles := h.bundles
  tasks task htask := by
    obtain ⟨old, hold, rfl⟩ := List.mem_map.mp htask
    split
    · next heq => exact hwrite old hold heq
    · exact h.tasks old hold

theorem Inv.bind (h : Inv env texts s) {profile : ProfileView} {source : Source} {newId : Nat}
    {bundles : List Bundle} {bundle : Bundle}
    (htext : bundleText env source.filesDigest profile.imageIdentity profile.evidence
      profile.kitIdentity ∈ texts) (hnew : isNew Bundle.id newId s.bundles = true)
    (hbound : Bound env source newId profile.imageIdentity profile.evidence profile.kitIdentity
      s.bundles bundles bundle) :
    Table.KeyUnique Bundle.id bundles ∧
      (∀ bundle ∈ bundles, bundle.contractVersion = harnessContractVersionV2 →
        Addressed env texts bundle) ∧
      ∃ created, bundles = s.bundles ++ created := by
  rcases hbound.rows with rfl | ⟨rfl, rfl, hevidence⟩
  · exact ⟨h.bundleIds, h.bundles, [], (append_nil _).symm⟩
  · refine ⟨h.bundleIds.append (isNew_iff.mp hnew), fun b hb hv2 => ?_, _, rfl⟩
    rcases mem_append.mp hb with hold | hone
    · exact h.bundles b hold hv2
    · obtain rfl := mem_singleton.mp hone
      exact ⟨_, _, _, _, htext, hbound.digest, hevidence, profile.imageIdentity_unique,
        profile.evidence_unique, profile.kitIdentity_unique⟩

/-! ### Steps -/

/-- A creation ties its Task: the Bundle is addressed by the evidence of the snapshot. -/
theorem inv_createTaskRecord (hsha : Set.InjOn env.sha256 texts) (h : Inv env texts s)
    {r : CreateRequest} (htext : r.hashedText env ∈ texts)
    (hstep : createTaskRecord env s r = some t) : Inv env texts t := by
  unfold createTaskRecord at hstep
  split at hstep
  · cases hstep
  next hnot =>
  obtain ⟨⟨bundles, bundle⟩, hbind, hstep⟩ := bind_eq_some_iff.mp hstep
  dsimp only at hstep
  split at hstep
  · next hexecutable =>
    cases hstep
    obtain ⟨snapshot, b, hsnapshot, hb, hagrees⟩ := executable_iff.mp hexecutable
    cases hsnapshot
    cases hb
    obtain ⟨hnew, hbound⟩ := bindRuntimeBundle_bound hbind
    obtain ⟨hids, haddressed, hkept⟩ := h.bind htext hnew hbound
    refine h.addTask (by simpa using fun h => hnot (.inl h)) hids haddressed hkept
      (.inr ⟨bundle, ?_, fun hv2 => ⟨⟨_, rfl, hagrees, ?_, rfl, rfl⟩, ?_⟩⟩)
    · exact hids.row?_eq_some_iff.mpr ⟨hbound.mem, rfl⟩
    · obtain ⟨files, image, evidence, kit, hstored, hdigest, hmanifest, himage, hevidence, hkit⟩ :=
        haddressed bundle hbound.mem hv2
      unfold SameEvidence
      rw [hmanifest]
      exact evidence_of_digest hsha htext hstored r.profile.imageIdentity_unique r.profile.evidence_unique
        r.profile.kitIdentity_unique himage hevidence hkit (hbound.digest.symm.trans hdigest)
    · have hworker : isIssueWorker s.issues r.issueId r.profile = true := by
        simpa using fun h => hnot (.inr (.inl h))
      unfold isIssueWorker at hworker
      split at hworker
      · cases hworker
      · next issue hissue =>
        exact ⟨issue, hissue, (of_decide_eq_true hworker).symm⟩
  · cases hstep

theorem inv_retryTaskRecord (h : Inv env texts s) {r : RetryRequest}
    (hstep : retryTaskRecord env s r = some t) : Inv env texts t := by
  obtain ⟨original, horiginal, hstep⟩ := bind_eq_some_iff.mp hstep
  obtain ⟨snapshot, hsnapshot, hstep⟩ := bind_eq_some_iff.mp hstep
  obtain ⟨bundle, hbundle, hstep⟩ := bind_eq_some_iff.mp hstep
  split at hstep
  · next hand =>
    cases hstep
    obtain ⟨hbound, -⟩ := filter_eq_some_iff.mp hbundle
    refine h.addTask hand.2.2 h.bundleIds h.bundles ⟨[], (append_nil _).symm⟩ (.inr
      ⟨bundle, ?_, fun hv2 => ?_⟩)
    · obtain ⟨id, hid, hrow⟩ := bind_eq_some_iff.mp hbound
      exact (congrArg (row? Bundle.id · s.bundles) (mem_of_row? hrow).2).trans hrow
    · obtain ⟨⟨snapshot', htied⟩, issue, hissue, hworker⟩ :=
        h.tied (mem_of_row? horiginal).1 hbound hv2
      cases hsnapshot.symm.trans htied.snapshot_eq
      refine ⟨⟨snapshot, rfl, htied.agrees, htied.evidence, rfl, htied.digest⟩, issue, hissue, ?_⟩
      exact htied.worker.symm.trans hworker
  · cases hstep

theorem inv_updateTaskRecord (h : Inv env texts s) {r : UpdateRequest} (hworker : r.worker = none)
    (hstep : updateTaskRecord env s r = some t) : Inv env texts t := by
  obtain ⟨task, htask, hstep⟩ := bind_eq_some_iff.mp hstep
  dsimp only at hstep
  split at hstep
  · next hand =>
    obtain ⟨edited, hedited, hstep⟩ := bind_eq_some_iff.mp hstep
    cases hstep
    obtain ⟨snapshot, bundle, hsnapshot, hbundle, hagrees⟩ := executable_iff.mp hand.2
    obtain ⟨hmem, hid⟩ := mem_of_row? htask
    obtain ⟨⟨snapshot', htied⟩, issue, hissue, hon⟩ := h.tied hmem hbundle hagrees.contract
    rw [hbundle] at hedited
    obtain ⟨hsame, hties⟩ := keepsTies_editTask hworker task edited snapshot' htied hedited
    refine h.writeTask (fun _ _ => hsame.id.trans hid) fun _ _ _ => .inr ⟨bundle, ?_, fun _ =>
      ⟨hties, issue, ?_, hsame.workerProfileId.trans hon⟩⟩
    · unfold boundBundle
      rw [hsame.runtimeBundleId]
      exact hbundle
    · rw [hsame.issueId]
      exact hissue
  · cases hstep

end Invariant

end Codify.Api.TaskContract
