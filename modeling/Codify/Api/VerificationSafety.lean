import Codify.Framework.JsonEquality
import Codify.Api.Verification

/-! # Stored Verifications

    A stored digest should be that of the inputs which are committed now. The
    requests keep it so as long as the inputs that a session resolves are the
    committed ones at three commits: where a verification stores its digest, where
    an edit of a verified profile sees no change, and where a patch passes over a
    profile because it was not verified when it was selected.

    * **Frames**: what a request may do to the rows and locks of another one.
    * **Invariant**: the digests that are stored or about to be, and the locks
      under which a session has loaded what it holds.
-/

namespace Codify.Api.Verification

open Codify.Framework List Option

variable {env : Env} {s t u : State} {j k : Nat}

/-! ### The Claimed Property and Its Condition -/

/-- Every stored digest is that of the committed inputs, where they resolve. -/
def StoredCurrent (env : Env) (s : State) : Prop :=
  ∀ profile ∈ s.profiles, ∀ digest, profile.verifiedDigest = some digest →
    ∀ effective, resolveEffectiveConfiguration profile (loadSharedConfiguration s.shared) =
      some effective → digest = currentRuntimeVerificationDigest env profile effective

/-- The inputs that a session resolves are the committed ones, wherever its commit leaves a
    digest in place on the strength of them. -/
def InputsKept (env : Env) (s : State) : Label → Prop
  | .store k =>
    match s.sessions k with
    | some (.storing attempt) =>
      ∀ profile ∈ s.profiles, profile.id = attempt.profile.id →
        profile.generation = attempt.generation →
          inputPayload env profile (loadSharedConfiguration s.shared) =
            inputPayload env attempt.profile attempt.shared
    | _ => True
  | .commitProfile k =>
    match s.sessions k with
    | some (.edited profile request shared) =>
      match editProfile env request profile with
      | some edited =>
        isVerified profile = true →
          currentDigest env edited.held shared = currentDigest env profile shared →
            inputPayload env edited.written shared = inputPayload env edited.held shared
      | none => True
    | _ => True
  | .commitPatch k =>
    match s.sessions k with
    | some (.selected request row rows profiles) =>
      match patchShared env request row rows s.sequence with
      | some next =>
        ∀ profile ∈ s.profiles, isVerified profile = true →
          (∀ p ∈ profiles, p.id = profile.id → isVerified p = false) →
            inputPayload env profile (loadSharedConfiguration next) =
              inputPayload env profile (loadSharedConfiguration s.shared)
      | none => True
    | _ => True
  | _ => True

/-! ### Invariant -/

/-- A stored digest is that of the inputs, whatever Kit version the profile has. -/
def DigestOk (env : Env) (shared : SharedContext) (profile : Profile) : Prop :=
  ∀ digest, profile.verifiedDigest = some digest → digest ≠ "" ∧
    ∀ payload, inputPayload env profile shared = some payload → digest = env.digest payload

/-- The session has locked the shared row, if there is one. -/
def HoldsShared (s : State) (k : Nat) : Prop := s.shared.row.isSome → s.sharedLock = some k

/-- What a session relies on until its commit. -/
def Session.Ok (env : Env) (s : State) (k : Nat) : Session → Prop
  | .storing attempt =>
    ∃ payload, inputPayload env attempt.profile attempt.shared = some payload ∧
      attempt.digest = env.digest payload
  | .editing _ _ shared => shared = loadSharedConfiguration s.shared ∧ HoldsShared s k
  | .edited profile _ shared =>
    (shared = loadSharedConfiguration s.shared ∧ HoldsShared s k) ∧
      s.profileLocks profile.id = some k ∧ profile ∈ s.profiles
  | .patching _ row rows => s.shared = ⟨some row, rows⟩ ∧ s.sharedLock = some k
  | .selected _ row rows profiles =>
    (s.shared = ⟨some row, rows⟩ ∧ s.sharedLock = some k) ∧
      ∀ p ∈ s.profiles, ∀ p₀ ∈ profiles, p₀.id = p.id → p₀.inputs = p.inputs
  | _ => True

/-- **Invariant** of the requests. -/
structure Inv (env : Env) (s : State) : Prop where
  ids : Table.KeyUnique Profile.id s.profiles
  stored : ∀ profile ∈ s.profiles, DigestOk env (loadSharedConfiguration s.shared) profile
  sessions : ∀ k session, s.sessions k = some session → session.Ok env s k

theorem Inv.current (h : Inv env s) : StoredCurrent env s := by
  intro profile hprofile digest hdigest effective heffective
  exact ((h.stored profile hprofile) digest hdigest).2 _ (inputPayload_of_resolve heffective)

theorem inv_init (h : AtRest s) : Inv env s where
  ids := h.ids
  stored profile hprofile digest hdigest := by
    rw [h.unverified profile hprofile] at hdigest
    cases hdigest
  sessions k session hk := by
    rw [h.sessions] at hk
    cases hk

/-! ### Frames -/

/-- What the step of one session leaves to another session `j`: its locks, the rows that it has
    locked, and the inputs of all rows while it has locked the shared row. -/
structure Frame (j : Nat) (s t : State) : Prop where
  shared : t.shared = s.shared
  sharedLock : s.sharedLock = some j → t.sharedLock = some j
  locks : ∀ p, s.profileLocks p = some j → t.profileLocks p = some j
  kept : ∀ p ∈ s.profiles, s.profileLocks p.id = some j → p ∈ t.profiles
  inputs : s.sharedLock = some j → s.shared.row.isSome →
    ∀ p' ∈ t.profiles, ∃ p ∈ s.profiles, p.inputs = p'.inputs

theorem Frame.trans (h : Frame j s t) (h' : Frame j t u) : Frame j s u where
  shared := h'.shared.trans h.shared
  sharedLock hj := h'.sharedLock (h.sharedLock hj)
  locks p hp := h'.locks p (h.locks p hp)
  kept p hp hj := h'.kept p (h.kept p hp hj) (h.locks p.id hj)
  inputs hj hsome p' hp' := by
    obtain ⟨p, hp, hinputs⟩ := h'.inputs (h.sharedLock hj) (by rw [h.shared]; exact hsome) p' hp'
    obtain ⟨p₀, hp₀, hinputs₀⟩ := h.inputs hj hsome p hp
    exact ⟨p₀, hp₀, hinputs₀.trans hinputs⟩

variable {p p' : Profile} {session : Session} {f : Profile → Profile} {shared : SharedContext}
  {request : ProfileUpdateRequest} {edited : EditedProfile}

theorem id_of_inputs (h : p.inputs = p'.inputs) : p.id = p'.id := by
  show p.inputs.id = p'.inputs.id
  rw [h]

theorem HoldsShared.frame (hf : Frame j s t) (h : HoldsShared s j) : HoldsShared t j := by
  intro hsome
  rw [hf.shared] at hsome
  exact hf.sharedLock (h hsome)

theorem Session.Ok.frame (hf : Frame j s t) (h : session.Ok env s j) :
    session.Ok env t j := by
  cases session with
  | storing attempt => exact h
  | editing id request shared => exact ⟨h.1.trans (by rw [hf.shared]), h.2.frame hf⟩
  | edited profile request shared =>
    exact ⟨⟨h.1.1.trans (by rw [hf.shared]), h.1.2.frame hf⟩, hf.locks _ h.2.1,
      hf.kept _ h.2.2 h.2.1⟩
  | patching request row rows => exact ⟨hf.shared.trans h.1, hf.sharedLock h.2⟩
  | selected request row rows profiles =>
    obtain ⟨⟨hshared, hlock⟩, hprofiles⟩ := h
    refine ⟨⟨hf.shared.trans hshared, hf.sharedLock hlock⟩, fun p' hp' p₀ hp₀ hid => ?_⟩
    obtain ⟨p, hp, hinputs⟩ := hf.inputs hlock (by rw [hshared]; rfl) p' hp'
    exact (hprofiles p hp p₀ hp₀ (hid.trans (id_of_inputs hinputs).symm)).trans hinputs
  | _ => trivial

theorem frame_setSession (session : Session) : Frame j s (s.setSession k session) :=
  ⟨rfl, id, fun _ => id, fun _ h _ => h, fun _ _ p hp => ⟨p, hp, rfl⟩⟩

theorem frame_close (hjk : j ≠ k) (s : State) : Frame j s (s.close k) where
  shared := rfl
  sharedLock h := by
    show (if s.sharedLock = some k then none else s.sharedLock) = some j
    rw [if_neg (by rw [h]; simpa using hjk), h]
  locks p h := by
    show (if s.profileLocks p = some k then none else s.profileLocks p) = some j
    rw [if_neg (by rw [h]; simpa using hjk), h]
  kept p hp _ := hp
  inputs _ _ p hp := ⟨p, hp, rfl⟩

theorem mem_writeProfile {id : Nat} :
    p ∈ (s.writeProfile id f).profiles ↔ ∃ p₀ ∈ s.profiles, (if p₀.id = id then f p₀ else p₀) = p :=
  List.mem_map

theorem frame_writeProfile {id : Nat} (hfree : s.profileLocks id ≠ some j)
    (hf : s.sharedLock = some j → s.shared.row.isSome → ∀ p, (f p).inputs = p.inputs) :
    Frame j s (s.writeProfile id f) where
  shared := rfl
  sharedLock h := h
  locks _ h := h
  kept p hp hlock := by
    refine mem_writeProfile.mpr ⟨p, hp, if_neg ?_⟩
    rintro rfl
    exact hfree hlock
  inputs hlock hsome p' hp' := by
    obtain ⟨p, hp, rfl⟩ := mem_writeProfile.mp hp'
    refine ⟨p, hp, ?_⟩
    split
    · exact (hf hlock hsome p).symm
    · rfl

/-! ### Assembling the Invariant -/

theorem Inv.of_frames (h : Inv env s) (k : Nat) (t : State)
    (hids : Table.KeyUnique Profile.id t.profiles)
    (hstored : ∀ profile ∈ t.profiles, DigestOk env (loadSharedConfiguration t.shared) profile)
    (hothers : ∀ j, j ≠ k → t.sessions j = s.sessions j)
    (hframes : ∀ j, j ≠ k → Frame j s t)
    (hself : ∀ session, t.sessions k = some session → session.Ok env t k) : Inv env t where
  ids := hids
  stored := hstored
  sessions j session hj := by
    by_cases hjk : j = k
    · subst hjk
      exact hself session hj
    · rw [hothers j hjk] at hj
      exact (h.sessions j session hj).frame (hframes j hjk)

theorem sessions_setSession_self (session : Session) :
    (s.setSession k session).sessions k = some session := if_pos rfl

theorem sessions_setSession_ne (session : Session) (hjk : j ≠ k) :
    (s.setSession k session).sessions j = s.sessions j := if_neg hjk

theorem sessions_close_self : (s.close k).sessions k = none := if_pos rfl

theorem sessions_close_ne (hjk : j ≠ k) : (s.close k).sessions j = s.sessions j := if_neg hjk

theorem Inv.setSession (h : Inv env s) (k : Nat)
    (hok : session.Ok env s k) : Inv env (s.setSession k session) :=
  h.of_frames k _ h.ids h.stored (fun _ hj => sessions_setSession_ne session hj)
    (fun _ _ => frame_setSession session) fun session' hs => by
      rw [sessions_setSession_self] at hs
      cases hs
      exact hok.frame (frame_setSession session)

theorem Inv.close (h : Inv env s) (k : Nat) : Inv env (s.close k) :=
  h.of_frames k _ h.ids h.stored (fun _ hj => sessions_close_ne hj) (fun _ hj => frame_close hj s)
    fun session hs => by
      rw [sessions_close_self] at hs
      cases hs

theorem Inv.check (h : Inv env s) (k : Nat) (passed : Bool)
    (hok : passed = true → session.Ok env s k) : Inv env (s.check k passed session) := by
  unfold State.check
  split
  · exact h.setSession k (hok ‹_›)
  · exact h.close k

/-! ### Verification -/

theorem DigestOk.of_inputs
    (h : DigestOk env shared p) (hinputs : p'.inputs = p.inputs)
    (hdigest : p'.verifiedDigest = p.verifiedDigest) : DigestOk env shared p' := by
  intro digest hd
  rw [hdigest] at hd
  rw [inputPayload_congr shared hinputs]
  exact h digest hd

theorem digestOk_of_none (h : p.verifiedDigest = none) :
    DigestOk env shared p := by
  intro digest hd
  rw [h] at hd
  cases hd

theorem Inv.writeProfile (h : Inv env s) {id : Nat}
    (hfree : s.profileLocks id = none) (hinputs : ∀ p, (f p).inputs = p.inputs)
    (hdigest : ∀ p ∈ s.profiles, p.id = id → DigestOk env (loadSharedConfiguration s.shared) (f p)) :
    Inv env (s.writeProfile id f) where
  ids := h.ids.map fun p => by
    split
    · exact id_of_inputs (hinputs p)
    · rfl
  stored p' hp' := by
    obtain ⟨p, hp, rfl⟩ := mem_writeProfile.mp hp'
    split
    · exact hdigest p hp ‹_›
    · exact h.stored p hp
  sessions j session hj :=
    (h.sessions j session hj).frame
      (frame_writeProfile (by rw [hfree]; exact fun h => nomatch h) fun _ _ => hinputs)

/-- **Conditional UPDATE**: it writes the row of its generation, or it ends the request. -/
theorem Inv.updateAt (h : Inv env s) {id generation : Nat}
    {after : State → State} (ht : s.updateAt k id generation f after = some t)
    (hinputs : ∀ p, (f p).inputs = p.inputs)
    (hdigest : ∀ p ∈ s.profiles, p.id = id → p.generation = generation →
      DigestOk env (loadSharedConfiguration s.shared) (f p))
    (hafter : ∀ u, Inv env u → Inv env (after u)) : Inv env t := by
  unfold State.updateAt at ht
  split at ht
  · cases ht
  next hfree =>
  push Not at hfree
  split at ht
  next hmatch =>
    cases ht
    refine hafter _ (h.writeProfile hfree hinputs fun p hp hid => hdigest p hp hid ?_)
    have hrow : profileRow? id s.profiles = some p := (h.ids.row?_eq_some_iff).mpr ⟨hp, hid⟩
    rw [hrow] at hmatch
    simpa using hmatch
  · cases ht
    exact h.close k

/-! ### Edits -/

/-- What the steps of an edit keep until its digests are compared. -/
structure Kept (p p' : Profile) : Prop where
  id : p'.id = p.id
  verifiedDigest : p'.verifiedDigest = p.verifiedDigest

theorem Kept.trans {p p' p'' : Profile} (h : Kept p p') (h' : Kept p' p'') : Kept p p'' :=
  ⟨h'.id.trans h.id, h'.verifiedDigest.trans h.verifiedDigest⟩

theorem kept_editImage
    (h : editImage request p = some p') : Kept p p' := by
  unfold editImage at h
  split at h
  · cases h
    exact ⟨rfl, rfl⟩
  · split at h <;> cases h
    exact ⟨rfl, rfl⟩

theorem kept_editSource
    (h : editSource request p = some p') : Kept p p' := by
  unfold editSource at h
  dsimp only at h
  split_ifs at h <;> cases h <;> exact ⟨rfl, rfl⟩

theorem kept_editKit
    (h : editKit request p = some p') : Kept p p' := by
  unfold editKit at h
  split at h
  · obtain ⟨kit, -, rfl⟩ := map_eq_some_iff.mp h
    exact ⟨rfl, rfl⟩
  · cases h
    exact ⟨rfl, rfl⟩

theorem kept_editHarness (request : ProfileUpdateRequest) (p : Profile) :
    Kept p (editHarness request p) := ⟨rfl, rfl⟩

theorem kept_editTarget
    (h : editTarget env request p = some p') : Kept p p' := by
  unfold editTarget at h
  split at h
  · obtain ⟨docker, -, rfl⟩ := map_eq_some_iff.mp h
    exact ⟨rfl, rfl⟩
  · cases h
    exact ⟨rfl, rfl⟩

theorem kept_editMounts
    (h : editMounts request p = some p') : Kept p p' := by
  unfold editMounts at h
  split at h
  · cases h
    exact ⟨rfl, rfl⟩
  · obtain ⟨mounts, -, h⟩ := bind_eq_some_iff.mp h
    obtain ⟨masks, -, h⟩ := bind_eq_some_iff.mp h
    obtain ⟨masks', -, rfl⟩ := map_eq_some_iff.mp h
    exact ⟨rfl, rfl⟩

theorem kept_editEnvironment
    (h : editEnvironment env request p = some edited) :
    Kept p edited.held ∧ Kept p edited.written := by
  unfold editEnvironment at h
  split at h
  · cases h
    exact ⟨⟨rfl, rfl⟩, ⟨rfl, rfl⟩⟩
  · obtain ⟨rows, -, rfl⟩ := map_eq_some_iff.mp h
    exact ⟨⟨rfl, rfl⟩, ⟨rfl, rfl⟩⟩

theorem kept_editProfile
    (h : editProfile env request p = some edited) :
    Kept p edited.held ∧ Kept p edited.written := by
  obtain ⟨p₁, h₁, h⟩ := bind_eq_some_iff.mp h
  obtain ⟨p₂, h₂, h⟩ := bind_eq_some_iff.mp h
  obtain ⟨p₃, h₃, h⟩ := bind_eq_some_iff.mp h
  obtain ⟨p₄, h₄, h⟩ := bind_eq_some_iff.mp h
  obtain ⟨p₅, h₅, h⟩ := bind_eq_some_iff.mp h
  have hkit : Kept p p₃ :=
    ((kept_editImage h₁).trans (kept_editSource h₂)).trans (kept_editKit h₃)
  have htarget : Kept p₃ p₄ := (kept_editHarness request p₃).trans (kept_editTarget h₄)
  have hkept : Kept p p₅ := (hkit.trans htarget).trans (kept_editMounts h₅)
  obtain ⟨hheld, hwritten⟩ := kept_editEnvironment h
  exact ⟨hkept.trans hheld, hkept.trans hwritten⟩

theorem payload_of_currentDigest {digest : String}
    (h : currentDigest env p shared = some digest) :
    ∃ payload, inputPayload env p shared = some payload ∧ digest = env.digest payload := by
  obtain ⟨effective, heffective, rfl⟩ := map_eq_some_iff.mp h
  exact ⟨_, inputPayload_of_resolve heffective, rfl⟩

/-- A digest that an edit leaves in place is that of the profile before the edit, and that of
    the profile as the edit holds it. -/
theorem digest_of_unchanged {next digest : String}
    (hne : digest ≠ "") (hdigest : p.verifiedDigest = some digest)
    (h : verificationInputsChanged env p shared next = false) :
    currentDigest env p shared = some digest ∧ next = digest := by
  have hverified : isVerified p = true := by simpa [isVerified, hdigest] using hne
  unfold verificationInputsChanged at h
  rw [hverified, Bool.true_and] at h
  split at h
  · cases h
  next previous hprevious =>
  rw [hdigest] at h
  simp only [Bool.or_eq_false_iff, decide_eq_false_iff_not, not_not, ne_eq] at h
  exact ⟨by rw [hprevious, ← h.1], h.2.trans (some.inj h.1).symm⟩

/-- **Commit of an edit**: the digest that it writes, if any, is that of what it writes. -/
theorem digestOk_committedProfile {p written : Profile}
    (hok : DigestOk env shared p)
    (hkept : ∀ edited, editProfile env request p = some edited → isVerified p = true →
      currentDigest env edited.held shared = currentDigest env p shared →
        inputPayload env edited.written shared = inputPayload env edited.held shared)
    (h : committedProfile env request p shared = some written) :
    DigestOk env shared written ∧ written.id = p.id := by
  obtain ⟨edited, hedited, h⟩ := bind_eq_some_iff.mp h
  obtain ⟨next, hnext, rfl⟩ := map_eq_some_iff.mp h
  have hwritten := (kept_editProfile hedited).2
  split
  · exact ⟨digestOk_of_none rfl, hwritten.id⟩
  next hunchanged =>
  refine ⟨fun digest hdigest => ?_, hwritten.id⟩
  rw [hwritten.verifiedDigest] at hdigest
  have hne : digest ≠ "" := (hok digest hdigest).1
  obtain ⟨hprevious, rfl⟩ := digest_of_unchanged hne hdigest (by simpa using hunchanged)
  refine ⟨hne, fun payload hpayload => ?_⟩
  rw [hkept edited hedited (by simpa [isVerified, hdigest] using hne) (hnext.trans hprevious.symm)]
    at hpayload
  obtain ⟨payload', hpayload', hsha⟩ := payload_of_currentDigest hnext
  rw [hpayload'] at hpayload
  cases hpayload
  exact hsha

theorem inv_commitProfile (h : Inv env s) (hguard : InputsKept env s (.commitProfile k))
    (ht : s.commitProfile env k = some t) : Inv env t := by
  unfold State.commitProfile at ht
  split at ht
  next profile request shared hsession =>
    simp only [InputsKept, hsession] at hguard
    obtain ⟨written, hwritten, rfl⟩ := map_eq_some_iff.mp ht
    obtain ⟨⟨rfl, hlock⟩, hrow, hmem⟩ := h.sessions k _ hsession
    obtain ⟨hdigest, hid⟩ := digestOk_committedProfile (h.stored profile hmem)
      (fun edited hedited => by rw [hedited] at hguard; exact hguard) hwritten
    refine h.of_frames k _ ?_ ?_ (fun j hj => sessions_close_ne hj) ?_ ?_
    · refine h.ids.map fun p => ?_
      split
      · exact hid.trans (Eq.symm ‹_›)
      · rfl
    · intro p' hp'
      obtain ⟨p, hp, rfl⟩ := mem_writeProfile.mp hp'
      split
      · exact hdigest
      · exact h.stored p hp
    · intro j hj
      refine Frame.trans (frame_writeProfile ?_ ?_) (frame_close hj _)
      · rw [hrow]
        simpa using hj.symm
      · intro hj' hsome
        rw [hlock hsome] at hj'
        exact absurd (some.inj hj').symm hj
    · intro session hs
      rw [sessions_close_self] at hs
      cases hs
  · cases ht

/-! ### Patches -/

theorem row_patchShared {request : SharedPatchRequest} {row : SharedRow}
    {rows : List SharedEnvironmentRow} {id : Nat} {next : SharedContext}
    (h : patchShared env request row rows id = some next) : next.row.isSome = true := by
  unfold patchShared at h
  split at h
  · cases h
  obtain ⟨kit, -, h⟩ := bind_eq_some_iff.mp h
  obtain ⟨mounts, -, h⟩ := bind_eq_some_iff.mp h
  obtain ⟨items, -, rfl⟩ := map_eq_some_iff.mp h
  rfl

theorem load_of_row (h : shared.row.isSome = true) :
    loadSharedConfiguration shared = shared := by
  unfold loadSharedConfiguration environmentOf
  rw [if_pos h]

/-- A verified profile that a patch passes over has the same digest before and after it. -/
theorem digest_of_passed {current next : SharedContext}
    (hverified : isVerified p = true) (h : toInvalidate env current next p = false) :
    ∃ digest, currentDigest env p current = some digest ∧ currentDigest env p next = some digest := by
  unfold toInvalidate at h
  rw [hverified, Bool.true_and] at h
  split at h
  next c n hc hn =>
    simp only [Bool.or_eq_false_iff, decide_eq_false_iff_not, not_not, ne_eq] at h
    exact ⟨c, hc, hn.trans (congrArg some h.2.symm)⟩
  · cases h

theorem mem_patched (ids : List Nat) (next : SharedContext) :
    p ∈ (s.patched ids next).profiles ↔
      ∃ p₀ ∈ s.profiles, (if p₀.id ∈ ids then clearVerification p₀ else p₀) = p :=
  List.mem_map

/-- **Commit of a patch**: a digest that it leaves in place is that of the new inputs. -/
theorem digestOk_patched {current next : SharedContext} {profiles : List Profile}
    (hok : DigestOk env current p)
    (hsame : ∀ p₀ ∈ profiles, p₀.id = p.id → p₀.inputs = p.inputs)
    (hmissed : isVerified p = true → (∀ p₀ ∈ profiles, p₀.id = p.id → isVerified p₀ = false) →
      inputPayload env p next = inputPayload env p current)
    (hkept : p.id ∉ (profiles.filter (toInvalidate env current next)).map Profile.id) :
    DigestOk env next p := by
  intro digest hdigest
  obtain ⟨hne, hcurrent⟩ := hok digest hdigest
  refine ⟨hne, fun payload hpayload => ?_⟩
  have hverified : isVerified p = true := by simpa [isVerified, hdigest] using hne
  by_cases hselected : ∀ p₀ ∈ profiles, p₀.id = p.id → isVerified p₀ = false
  · rw [hmissed hverified hselected] at hpayload
    exact hcurrent payload hpayload
  · -- the patch has compared the digests of the profile as it has selected it
    push Not at hselected
    obtain ⟨p₀, hp₀, hid, hverified₀⟩ := hselected
    have hpassed : toInvalidate env current next p₀ = false := by
      by_contra hinvalid
      refine hkept (List.mem_map.mpr ⟨p₀, mem_filter.mpr ⟨hp₀, ?_⟩, hid⟩)
      simpa using hinvalid
    obtain ⟨d, hd, hd'⟩ := digest_of_passed (by simpa using hverified₀) hpassed
    obtain ⟨t₁, ht₁, rfl⟩ := payload_of_currentDigest hd
    obtain ⟨t₂, ht₂, hsha⟩ := payload_of_currentDigest hd'
    rw [inputPayload_congr _ (hsame p₀ hp₀ hid)] at ht₁ ht₂
    rw [ht₂] at hpayload
    cases hpayload
    exact (hcurrent t₁ ht₁).trans hsha

theorem Session.Ok.unshared (h : session.Ok env s j)
    (hsome : s.shared.row.isSome) (hlock : s.sharedLock = some k) (hjk : j ≠ k) (t : State) :
    session.Ok env t j := by
  have hne : s.sharedLock ≠ some j := by
    rw [hlock]
    simpa using hjk.symm
  cases session with
  | storing attempt => exact h
  | editing id request shared => exact absurd (h.2 hsome) hne
  | edited profile request shared => exact absurd (h.1.2 hsome) hne
  | patching request row rows => exact absurd h.2 hne
  | selected request row rows profiles => exact absurd h.1.2 hne
  | _ => trivial

theorem inv_commitPatch (h : Inv env s) (hguard : InputsKept env s (.commitPatch k))
    (ht : s.commitPatch env k = some t) : Inv env t := by
  unfold State.commitPatch at ht
  split at ht
  next request row rows profiles hsession =>
    obtain ⟨next, hnext, ht⟩ := bind_eq_some_iff.mp ht
    dsimp only at ht
    split at ht
    next hfree =>
      cases ht
      obtain ⟨⟨hshared, hlock⟩, hsame⟩ := h.sessions k _ hsession
      have hsome : s.shared.row.isSome := by rw [hshared]; rfl
      have hload := load_of_row hsome
      have hloadNext := load_of_row (row_patchShared hnext)
      simp only [InputsKept, hsession, hnext, hload, hloadNext] at hguard
      refine ⟨h.ids.map fun p => by split <;> rfl, ?_, ?_⟩
      · intro p' hp'
        obtain ⟨p, hp, rfl⟩ := (mem_patched _ next).mp hp'
        show DigestOk env (loadSharedConfiguration next) _
        rw [hloadNext]
        split
        · exact digestOk_of_none rfl
        next hkept =>
        rw [← hshared] at hkept
        exact digestOk_patched (hload ▸ h.stored p hp) (hsame p hp) (hguard p hp) hkept
      · intro j session hj
        by_cases hjk : j = k
        · subst hjk
          rw [sessions_close_self] at hj
          cases hj
        · rw [sessions_close_ne hjk] at hj
          exact (h.sessions j session hj).unshared hsome hlock hjk _
    · cases ht
  · cases ht

/-! ### Steps -/

theorem Inv.lockedShared (h : Inv env s) {u : State} (hlock : s.lockedShared k = some u) :
    Inv env u ∧ u.profiles = s.profiles ∧ u.shared = s.shared ∧ HoldsShared u k := by
  unfold State.lockedShared at hlock
  split_ifs at hlock with hnone hrow hfree
  · cases hlock
    refine ⟨h, rfl, rfl, fun hsome => ?_⟩
    rw [isNone_iff_eq_none] at hrow
    rw [hrow] at hsome
    cases hsome
  · cases hlock
    refine ⟨h.of_frames k _ h.ids h.stored (fun _ _ => rfl) (fun j hj => ?_) ?_, rfl, rfl,
      fun _ => rfl⟩
    · refine ⟨rfl, fun hj' => ?_, fun _ => id, fun _ hp _ => hp, fun _ _ p hp => ⟨p, hp, rfl⟩⟩
      push Not at hfree
      rw [hfree] at hj'
      cases hj'
    · intro session hs
      simp only [Bool.not_eq_true, isSome_eq_false_iff, isNone_iff_eq_none] at hnone
      exact absurd (hnone.symm.trans hs) nofun

theorem Inv.lockProfile (h : Inv env s) {id : Nat}
    {profile : Profile}
    (hok : Session.Ok env s k (.editing id request shared))
    (hrow : profileRow? id s.profiles = some profile) (hfree : s.profileLocks id = none) :
    Inv env ((s.lockProfile k id).setSession k (.edited profile request shared)) := by
  obtain ⟨hmem, rfl⟩ := Table.mem_of_row? hrow
  have hframe : ∀ j, Frame j s (s.lockProfile k profile.id) := by
    refine fun j => ⟨rfl, id, fun p hp => ?_, fun _ hp _ => hp, fun _ _ p hp => ⟨p, hp, rfl⟩⟩
    show (if p = profile.id then some k else s.profileLocks p) = some j
    rw [if_neg, hp]
    rintro rfl
    rw [hfree] at hp
    cases hp
  refine h.of_frames k _ h.ids h.stored (fun j hj => sessions_setSession_ne _ hj)
    (fun j _ => (hframe j).trans (frame_setSession _)) fun session hs => ?_
  rw [sessions_setSession_self] at hs
  cases hs
  exact ⟨hok, if_pos rfl, hmem⟩

theorem inv_bump (h : Inv env s) (ht : s.bump k = some t) : Inv env t := by
  unfold State.bump at ht
  split at ht
  · split at ht
    · exact h.updateAt ht (fun _ => rfl) (fun p hp _ _ => (h.stored p hp).of_inputs rfl rfl)
        fun u hu => hu.setSession k trivial
    · cases ht
      exact h.close k
  · cases ht

theorem inv_probe {version : String} (h : Inv env s) (ht : s.probe env k version = some t) :
    Inv env t := by
  unfold State.probe at ht
  split at ht
  · split at ht
    · cases ht
      exact h.close k
    · obtain ⟨effective, -, rfl⟩ := map_eq_some_iff.mp ht
      exact h.setSession k trivial
  · cases ht

/-- The digest that is about to be stored is that of the inputs loaded again. -/
theorem inv_compare (h : Inv env s) (ht : s.compare env k = some t) : Inv env t := by
  unfold State.compare at ht
  split at ht
  next attempt hsession =>
    obtain rfl := Option.some.inj ht
    refine h.check k _ fun hpassed => ?_
    cases heffective : resolveEffectiveConfiguration attempt.profile attempt.shared with
    | none =>
      rw [heffective] at hpassed
      exact absurd hpassed Bool.false_ne_true
    | some effective =>
      rw [heffective] at hpassed
      refine ⟨_, inputPayload_of_resolve heffective, ?_⟩
      simp only [any_some, Bool.and_eq_true, decide_eq_true_eq] at hpassed
      exact hpassed.2.symm
  · cases ht

theorem inv_store (h : Inv env s) (hguard : InputsKept env s (.store k))
    (ht : step env s (.store k) = some t) : Inv env t := by
  dsimp only [step] at ht
  split at ht
  next attempt hsession =>
    simp only [InputsKept, hsession] at hguard
    obtain ⟨payload, hpayload, hdigest⟩ := h.sessions k _ hsession
    refine h.updateAt ht (fun _ => rfl) (fun p hp hid hgeneration => ?_) fun u hu => hu.close k
    rintro digest hd
    cases hd
    refine ⟨by rw [hdigest]; exact env.digest_ne payload, fun payload' hpayload' => ?_⟩
    have hp' : inputPayload env p (loadSharedConfiguration s.shared) = some payload' := hpayload'
    rw [hguard p hp hid hgeneration, hpayload] at hp'
    cases hp'
    exact hdigest
  · cases ht

/-- **Step lemma**. -/
theorem inv_step {l : Label} (h : Inv env s) (hguard : InputsKept env s l)
    (ht : step env s l = some t) : Inv env t := by
  cases l with
  | loadProfile k id =>
    dsimp only [step] at ht
    split at ht
    · cases ht
    · obtain ⟨profile, -, rfl⟩ := map_eq_some_iff.mp ht
      exact h.setSession k trivial
  | loadShared k | loadEnvironment k | reloadShared k | reloadEnvironment k =>
    dsimp only [step] at ht
    split at ht <;> cases ht
    exact h.setSession k trivial
  | bump k => exact inv_bump h ht
  | probe k version => exact inv_probe h ht
  | clear k =>
    dsimp only [step] at ht
    split at ht
    · exact h.updateAt ht (fun _ => rfl) (fun _ _ _ _ => digestOk_of_none rfl)
        fun u hu => hu.close k
    · cases ht
  | reloadProfile k =>
    dsimp only [step] at ht
    split at ht
    · split at ht <;> cases ht
      · exact h.setSession k trivial
      · exact h.close k
    · cases ht
  | compare k => exact inv_compare h ht
  | store k => exact inv_store h hguard ht
  | lockShared k id request =>
    obtain ⟨u, hu, rfl⟩ := map_eq_some_iff.mp ht
    obtain ⟨hinv, -, hshared, hholds⟩ := h.lockedShared hu
    exact hinv.setSession k ⟨by rw [hshared], hholds⟩
  | lockProfile k =>
    dsimp only [step] at ht
    split at ht
    next id request shared hsession =>
      split at ht
      · cases ht
        exact h.close k
      next profile hrow =>
      split at ht
      · cases ht
        exact h.lockProfile (h.sessions k _ hsession) hrow ‹_›
      · cases ht
    · cases ht
  | commitProfile k => exact inv_commitProfile h hguard ht
  | lockPatch k request =>
    obtain ⟨row, hrow, ht⟩ := bind_eq_some_iff.mp ht
    obtain ⟨u, hu, rfl⟩ := map_eq_some_iff.mp ht
    obtain ⟨hinv, -, hshared, hholds⟩ := h.lockedShared hu
    refine hinv.setSession k ⟨?_, hholds (by rw [hshared, hrow]; rfl)⟩
    rw [hshared, ← hrow]
  | selectProfiles k =>
    dsimp only [step] at ht
    split at ht
    next request row rows hsession =>
      cases ht
      refine h.setSession k ⟨h.sessions k _ hsession, fun p hp p₀ hp₀ hid => ?_⟩
      rw [h.ids.eq_of_key_eq hp₀ hp hid]
    · cases ht
  | commitPatch k => exact inv_commitPatch h hguard ht
  | abort k =>
    dsimp only [step] at ht
    split at ht <;> cases ht
    exact h.close k

/-- **Stored verifications**: while the inputs are kept at the commits that leave a digest in
    place, every stored digest is that of the committed inputs. -/
theorem stored_digest_current (h : (requests env).Reachable (InputsKept env) s) :
    StoredCurrent env s :=
  (h.invariant (P := Inv env) (fun _ => inv_init)
    fun _ _ _ hinv hguard ht => inv_step hinv hguard ht).current

/-! ### Concrete Runs -/

instance (s : State) (l : Label) : Decidable (InputsKept env s l) := by
  cases l <;> unfold InputsKept <;> dsimp only <;>
    first | infer_instance | (split <;> first | infer_instance | (split <;> infer_instance))

/-- The value of the only environment variable of a payload. -/
def shownValue (payload : Json) : String :=
  match JsonObject.get (payload.asObject.getD []) "environment_variables" with
  | .arr [.obj item] => (JsonObject.get item "value").asString.getD ""
  | _ => ""

/-- A deployment in which the host names the daemon, with a stand-in for the hash. -/
def hostEnv : Env where
  daemonKey target := target.dockerHost.getD "local"
  validateTarget := some
  digest payload := "sha256:" ++ shownValue payload
  digest_ne payload h := by simpa using congrArg String.toList h
  encrypt := id

/-- A profile with its own Kit, and a shared variable. -/
def unverified : State where
  profiles :=
    [{ id := 1, image := "worker", workerKitSource := "profile", runtimeMode := "mounted_kit",
       workerKitPath := some "/kit" }]
  shared := ⟨some ⟨1, "mounted_kit", some "/kit", []⟩, [⟨1, "LEVEL", "1", false⟩]⟩
  sequence := 2

theorem atRest_unverified : AtRest unverified where
  ids := by simp [Table.KeyUnique, unverified]
  unverified profile hprofile := by
    rw [mem_singleton.mp hprofile]
  sessions := rfl
  sharedLock := rfl
  profileLocks := rfl

/-- The first half of a verification: its generation is committed. -/
def verificationStarts : List Label :=
  [.loadProfile 0 1, .loadShared 0, .loadEnvironment 0, .bump 0]

/-- The second half: the probe, the reload and the UPDATE. -/
def verificationEnds : List Label :=
  [.probe 0 "1.0", .reloadProfile 0, .reloadShared 0, .reloadEnvironment 0, .compare 0, .store 0]

/-- The profile is verified, and then saved with the image that it has. -/
def savedAgain : List Label :=
  verificationStarts ++ verificationEnds ++
    [.lockShared 1 1 { image := some " worker " }, .lockProfile 1, .commitProfile 1]

theorem stored_digest_current_saved :
    ∃ s, (requests hostEnv).Reachable (InputsKept hostEnv) s ∧
      s.profiles.map isVerified = [true] ∧ StoredCurrent hostEnv s := by
  have hexec : ((requests hostEnv).execWhile (InputsKept hostEnv) unverified savedAgain).map
      (fun s => s.profiles.map isVerified) = some [true] := by decide +kernel
  obtain ⟨s, hreach, hverified⟩ := System.exists_reachable_of_execWhile hexec atRest_unverified
  exact ⟨s, hreach, hverified, stored_digest_current hreach⟩

/-- Some profile has a digest other than that of its inputs, which resolve. -/
def stale (env : Env) (s : State) : Bool :=
  s.profiles.any fun profile =>
    profile.verifiedDigest.isSome &&
      (currentDigest env profile (loadSharedConfiguration s.shared)).isSome &&
        decide (profile.verifiedDigest ≠ currentDigest env profile (loadSharedConfiguration s.shared))

theorem not_current_of_stale (h : stale env s = true) : ¬ StoredCurrent env s := by
  intro hcurrent
  obtain ⟨profile, hprofile, h⟩ := List.any_eq_true.mp h
  simp only [Bool.and_eq_true, decide_eq_true_eq] at h
  obtain ⟨⟨hstored, hsome⟩, hne⟩ := h
  obtain ⟨digest, hdigest⟩ := isSome_iff_exists.mp hstored
  obtain ⟨current, hcurrentDigest⟩ := isSome_iff_exists.mp hsome
  obtain ⟨effective, heffective, hsha⟩ := map_eq_some_iff.mp hcurrentDigest
  rw [hdigest, hcurrentDigest, ← hsha] at hne
  exact hne (congrArg some (hcurrent profile hprofile digest hdigest effective heffective))

/-- The value of a shared variable changes while the profile is verified for the first time: the
    patch does not raise its generation, and the reload keeps the old value. -/
theorem verified_with_old_variable :
    ¬ ∀ s, (requests hostEnv).Reachable System.anyStep s → StoredCurrent hostEnv s := by
  intro hclaim
  have hexec : ((requests hostEnv).exec unverified (verificationStarts ++
      [.lockPatch 1 ⟨1, none, none, none, some [{ key := "LEVEL", value := "2" }]⟩,
        .selectProfiles 1, .commitPatch 1] ++ verificationEnds)).map (stale hostEnv) =
      some true := by decide +kernel
  obtain ⟨s, hs, hstale⟩ := map_eq_some_iff.mp hexec
  exact not_current_of_stale hstale (hclaim s (System.reachable_of_exec atRest_unverified hs))

end Codify.Api.Verification
