import Codify.Worker.DeliveryAgreement

/-! # The Delivery Contract

    The end of main.sh over the collector and the publisher: collect the facts, stop
    on a hard error, publish when there is content, else record that there was
    nothing to deliver. The snapshot file is rewritten by each `record_push`.

    * **Invariant**: the file is the collected delivery with the push facts of the
      publisher, and both are legal (`inv_next`).
    * **Result**: `delivery_accepted_iff`. The backend accepts each snapshot, and what
      it projects is the commit of the file; but main.sh exits 0 with inherited
      commits that could not be collected, and the backend refuses to complete.
-/

namespace Codify.Worker.DeliveryContract

open Codify.Framework Codify.Worker.GitDelivery Codify.Worker.DeliverySnapshot List Option System
open Codify.Worker.DeliveryReader Codify.Worker.DeliveryAgreement

/-! ### The End of main.sh -/

inductive MainPhase where
  | collect
  /-- Behind the collected facts. -/
  | decide
  | publish
  | exited (status : Nat)
  deriving DecidableEq

structure MainState where
  phase : MainPhase := .collect
  /-- `GIT_DELIVERY_SNAPSHOT_FILE`. -/
  snapshot : Option JsonObject := none
  publisher : State
  /-- `REQUIRE_CHANGES`. -/
  requireChanges : Bool

inductive MainLabel where
  /-- `repo_delivery_collect`. -/
  | collect (write : FileWrite)
  /-- The collected facts have a hard error. -/
  | stop (write : FileWrite)
  /-- There is content: `repo_delivery_publish` starts. -/
  | publish
  | publisher (label : Label)
  /-- `repo_delivery_record "not_needed"`. -/
  | noChanges (write : FileWrite)

/-- `DELIVERY_COLLECT_ERROR` and its message: an error with `git_delivery.commits == null`. -/
def collectError (snapshot : JsonObject) : Option (String × String) :=
  match snapshot.get "error", snapshot.get "git_delivery" with
  | .obj error, .obj gitDelivery =>
    match JsonObject.get error "code", JsonObject.get gitDelivery "commits" with
    | .str code, .null =>
      if code = "" then none
      else
        match JsonObject.get error "message" with
        | .str message => some (code, message)
        | _ => some (code, "Delivery facts could not be collected")
    | _, _ => none
  | _, _ => none

/-- `repo_delivery_has_content`. -/
def hasContent (snapshot : JsonObject) : Bool :=
  match snapshot.get "git_delivery" with
  | .obj gitDelivery =>
    nonemptyList (JsonObject.get gitDelivery "commits") ||
      nonemptyList (JsonObject.get gitDelivery "recovered_commits")
  | _ => false

/-- `repo_delivery_snapshot_value` of a SHA. -/
def snapshotSha (key : String) (snapshot : JsonObject) : Option Sha :=
  match snapshot.get "git_delivery" with
  | .obj gitDelivery => asSha (JsonObject.get gitDelivery key)
  | _ => none

/-- The arguments of `repo_delivery_record` at a stage of the publisher. -/
def recordArguments : Stage → Option (PushStatus × Option Sha × String × String)
  | .fail remoteSha errorCode errorMessage => some (.failed, remoteSha, errorCode, errorMessage)
  | .confirm status remoteSha => some (status, remoteSha, "", "")
  | _ => none

section Main

variable (repo : Repository) (workDir : String) (start : StartFile) (receipt : Option JsonObject)

/-- `repo_delivery_record`: what is refused or not written leaves the file. -/
def record (write : FileWrite) (status : PushStatus) (remoteSha : Option Sha)
    (errorCode errorMessage : String) (snapshot : JsonObject) : JsonObject :=
  if write = .failed then snapshot
  else (cmdRecordPush repo snapshot status remoteSha errorCode errorMessage).getD snapshot

/-- What a step of the publisher does to the file. -/
def recordStep (stage : Stage) (label : Label) (snapshot : JsonObject) : JsonObject :=
  match label, recordArguments stage with
  | .record write, some (status, remoteSha, errorCode, errorMessage) =>
    record repo write status remoteSha errorCode errorMessage snapshot
  | _, _ => snapshot

/-- main.sh goes on or exits with what the publisher returned. -/
def phaseOf : Stage → MainPhase
  | .returned status => .exited (if status = 0 then 0 else 1)
  | _ => .publish

def MainState.next (s : MainState) : MainLabel → Option MainState
  | .collect write =>
    match s.phase, write with
    | .collect, .failed => some { s with phase := .exited 1 }
    | .collect, .unsealed =>
      some { s with snapshot := some (cmdCollect repo workDir start receipt), phase := .exited 1 }
    | .collect, .done =>
      some { s with snapshot := some (cmdCollect repo workDir start receipt), phase := .decide }
    | _, _ => none
  | .stop write =>
    match s.phase, s.snapshot with
    | .decide, some snapshot =>
      (collectError snapshot).map fun (errorCode, errorMessage) =>
        { s with
          snapshot := some (record repo write .failed none errorCode errorMessage snapshot)
          phase := .exited 1 }
    | _, _ => none
  | .publish =>
    match s.phase, s.snapshot with
    | .decide, some snapshot =>
      if (collectError snapshot).isNone ∧ hasContent snapshot then some { s with phase := .publish }
      else none
    | _, _ => none
  | .noChanges write =>
    match s.phase, s.snapshot with
    | .decide, some snapshot =>
      if (collectError snapshot).isNone ∧ ¬ hasContent snapshot then
        some
          { s with
            snapshot := some (record repo write .notNeeded none "" "" snapshot)
            phase := .exited (if write = .done ∧ !s.requireChanges then 0 else 1) }
      else none
    | _, _ => none
  | .publisher label =>
    match s.phase, s.snapshot with
    | .publish, some snapshot =>
      (snapshotSha "head_sha" snapshot).bind fun headSha =>
        (step headSha (snapshotSha "start_remote_sha" snapshot) s.publisher label).map fun publisher =>
          { s with
            snapshot := some (recordStep repo s.publisher.stage label snapshot)
            publisher
            phase := phaseOf publisher.stage }
    | _, _ => none

/-- The end of main.sh, from a publisher that has not started. -/
def mainRun : System MainState MainLabel where
  init s := s.phase = .collect ∧ s.snapshot = none ∧ s.publisher.stage = .start ∧
    s.publisher.push = {} ∧ s.publisher.observed = []
  next := MainState.next repo workDir start receipt

end Main

/-! ### The Publisher's Records -/

/-- What the publisher is about to record, or has recorded. -/
def Recordable (headSha : Sha) (push : PushFacts) : Stage → Prop
  | .fail _ errorCode _ => errorCode ≠ ""
  | .confirm .pushed remoteSha => remoteSha = some headSha
  | .confirm .alreadyPresent remoteSha => remoteSha.isSome = true
  | .confirm _ _ => False
  | .clear => push.status.confirmed = true
  | .returned 0 => push.status.confirmed = true
  | _ => True

section Publisher

variable {headSha : Sha} {startRemote : Option Sha} {p p' : State} {push : PushFacts}

theorem recordable_afterRecheck (lease : Option Sha) (recheckResult : Nat) (recheckTip : Option Sha)
    (h : recheckResult = 0 → recheckTip.isSome = true) :
    Recordable headSha push (afterRecheck lease recheckResult recheckTip) := by
  unfold afterRecheck
  by_cases hzero : recheckResult = 0
  · rw [if_pos hzero]
    exact h hzero
  · rw [if_neg hzero]
    cases lease with
    | none => exact (by decide : "push_failed" ≠ "")
    | some fetchedTip =>
      dsimp only
      split
      · exact (by decide : "remote_unconfirmed" ≠ "")
      · split
        · exact (by decide : "push_failed" ≠ "")
        · exact (by decide : "remote_changed" ≠ "")

theorem errorCode_classifyStart {ancestor : Sha → Sha → Ancestry} {tip : Sha} {code : String}
    (h : (classifyStart ancestor tip startRemote).errorCode = some code) : code ≠ "" := by
  unfold classifyStart at h
  cases startRemote with
  | none => cases h
  | some start =>
    dsimp only at h
    by_cases hsame : start = tip
    · rw [if_pos hsame] at h
      cases h
    · rw [if_neg hsame] at h
      cases hrelation : ancestor start tip with
      | ancestor => rw [hrelation] at h; cases h
      | unverifiable => rw [hrelation] at h; cases h; decide
      | notAncestor =>
        rw [hrelation] at h
        dsimp only at h
        split at h
        · cases h
          decide
        · cases h
          decide

theorem errorCode_classifyRemote {ancestor : Sha → Sha → Ancestry} {remoteTip : Option Sha}
    {decision : Decision} (h : classifyRemote ancestor headSha remoteTip startRemote = some decision) :
    remoteTip.isSome = true ∧
      ∀ code, decision.errorCode = some code → code ≠ "" := by
  obtain ⟨tip, rfl, rfl⟩ := map_eq_some_iff.mp h
  refine ⟨rfl, fun code hcode => ?_⟩
  by_cases hhead : tip = headSha
  · rw [if_pos hhead] at hcode
    cases hcode
  · rw [if_neg hhead] at hcode
    cases hpresent : ancestor headSha tip with
    | ancestor => rw [hpresent] at hcode; cases hcode
    | unverifiable => rw [hpresent] at hcode; cases hcode; decide
    | notAncestor =>
      rw [hpresent] at hcode
      cases hbehind : ancestor tip headSha with
      | unverifiable => rw [hbehind] at hcode; cases hcode; decide
      | notAncestor => rw [hbehind] at hcode; cases hcode; decide
      | ancestor =>
        rw [hbehind] at hcode
        exact errorCode_classifyStart hcode

theorem recordable_afterClassify {fetchedTip : Option Sha} {decision : Option Decision}
    (h : ∀ d, decision = some d →
      fetchedTip.isSome = true ∧ ∀ code, d.errorCode = some code → code ≠ "") :
    Recordable headSha push (afterClassify fetchedTip decision) := by
  cases decision with
  | none => exact (by decide : "remote_unconfirmed" ≠ "")
  | some d =>
    obtain ⟨htip, hcode⟩ := h d rfl
    simp only [afterClassify]
    cases htype : d.decision with
    | alreadyPresent => exact htip
    | push =>
      obtain ⟨tip, rfl⟩ := isSome_iff_exists.mp htip
      trivial
    | failed =>
      show d.errorCode.getD "remote_diverged" ≠ ""
      cases hsome : d.errorCode with
      | none => decide
      | some code => exact hcode code hsome

theorem recordable_remoteTip {ok : Bool} (h : p.remoteTip headSha startRemote ok = some p') :
    Recordable headSha p'.push p'.stage ∧ p'.push = p.push := by
  unfold State.remoteTip at h
  split at h
  · split at h
    · cases h
      exact ⟨(by decide : "remote_unconfirmed" ≠ ""), rfl⟩
    · split at h
      · split at h
        · cases h
          exact ⟨(by decide : "remote_deleted" ≠ ""), rfl⟩
        · cases h
          exact ⟨trivial, rfl⟩
      · cases h
        exact ⟨trivial, rfl⟩
  · next lease hstage =>
    split at h
    · cases h
      exact ⟨recordable_afterRecheck _ 2 none (by simp), rfl⟩
    · split at h
      · cases h
        exact ⟨recordable_afterRecheck _ 1 none (by simp), rfl⟩
      · split at h
        · cases h
          exact ⟨recordable_afterRecheck lease 0 (some _) fun _ => rfl, rfl⟩
        · cases h
          exact ⟨trivial, rfl⟩
  · cases h

theorem recordable_classify {ok : Bool} {ancestor : Sha → Sha → Ancestry}
    (h : p.classify headSha startRemote ok ancestor = some p') :
    Recordable headSha p'.push p'.stage ∧ p'.push = p.push := by
  have hdecision : ∀ {remoteTip : Option Sha} d,
      (if ok then classifyRemote ancestor headSha remoteTip startRemote else none) = some d →
      remoteTip.isSome = true ∧ ∀ code, d.errorCode = some code → code ≠ "" := by
    intro remoteTip d hd
    cases ok with
    | true => exact errorCode_classifyRemote hd
    | false => cases hd
  unfold State.classify at h
  split at h
  · cases h
    exact ⟨recordable_afterClassify hdecision, rfl⟩
  · next lease tip hstage =>
    split at h
    · cases h
      exact ⟨recordable_afterRecheck lease 2 none (by simp), rfl⟩
    · split at h
      · cases h
        exact ⟨recordable_afterRecheck lease 0 (some tip) fun _ => rfl, rfl⟩
      · cases h
        exact ⟨recordable_afterRecheck lease 1 (some tip) (by simp), rfl⟩
  · cases h

theorem recordable_pushPinned {marker : FileWrite} {reply : Bool}
    (h : p.pushPinned headSha marker reply = some p') :
    Recordable headSha p'.push p'.stage ∧ p'.push = p.push := by
  unfold State.pushPinned at h
  split at h
  · split at h
    · cases h
      exact ⟨trivial, rfl⟩
    · cases h
      exact ⟨trivial, rfl⟩
    · split at h
      · split at h
        · cases h
          exact ⟨rfl, rfl⟩
        · cases h
          exact ⟨trivial, rfl⟩
      · cases h
        exact ⟨trivial, rfl⟩
  · cases h

/-- **A step of the publisher**: what it is about to record is recordable, and only a record
    changes the push facts. -/
theorem recordable_step {l : Label} (hrecordable : Recordable headSha p.push p.stage)
    (h : step headSha startRemote p l = some p') (hl : ∀ write, l ≠ .record write) :
    Recordable headSha p'.push p'.stage ∧ p'.push = p.push := by
  cases l with
  | remoteMoves ref =>
    cases h
    exact ⟨hrecordable, rfl⟩
  | begin_ snapshot unchanged =>
    simp only [step, State.begin_] at h
    split at h
    · split at h
      · cases h
        exact ⟨trivial, rfl⟩
      · split at h
        · cases h
          exact ⟨(by decide : "branch_changed" ≠ ""), rfl⟩
        · cases h
          exact ⟨trivial, rfl⟩
    · cases h
  | remoteTip ok => exact recordable_remoteTip h
  | fetchBranch ok =>
    simp only [step, State.fetchBranch] at h
    split at h
    · split at h
      · cases h
        exact ⟨trivial, rfl⟩
      · cases h
        exact ⟨(by decide : "remote_unconfirmed" ≠ ""), rfl⟩
    · split at h
      · cases h
        exact ⟨trivial, rfl⟩
      · cases h
        exact ⟨recordable_afterRecheck _ 1 (some _) (by simp), rfl⟩
    · cases h
  | localTip ok =>
    simp only [step, State.localTip] at h
    split at h
    · cases h
      exact ⟨trivial, rfl⟩
    · cases h
  | classify ok ancestor => exact recordable_classify h
  | pushPinned marker reply => exact recordable_pushPinned h
  | record write => exact absurd rfl (hl write)
  | clear write =>
    simp only [step, State.clear] at h
    split at h
    · next hstage =>
      rw [hstage] at hrecordable
      split at h
      · cases h
        exact ⟨hrecordable, rfl⟩
      · split at h
        · cases h
          exact ⟨trivial, rfl⟩
        · cases h
          exact ⟨trivial, rfl⟩
        · cases h
          exact ⟨hrecordable, rfl⟩
    · cases h

theorem push_record {write : FileWrite} (h : p.record write = some p') :
    ∃ status remoteSha errorCode errorMessage,
      recordArguments p.stage = some (status, remoteSha, errorCode, errorMessage) ∧
      p'.push = (if write = .failed then p.push
        else (recordPush status remoteSha errorCode errorMessage).getD p.push) := by
  unfold State.record at h
  split at h
  · next remoteSha errorCode errorMessage hstage =>
    refine ⟨_, _, _, _, by rw [hstage]; rfl, ?_⟩
    split at h
    · next hnone =>
      cases h
      rw [hnone]
      simp
    · next push hpush =>
      split at h
      · next hfailed =>
        cases h
        rw [if_pos hfailed]
      · next hwritten =>
        cases h
        rw [if_neg hwritten, hpush]
        rfl
  · next status remoteSha hstage =>
    refine ⟨_, _, _, _, by rw [hstage]; rfl, ?_⟩
    split at h
    · next hnone =>
      cases h
      rw [hnone]
      simp
    · next push hpush =>
      split at h
      · cases h
        rfl
      · cases h
        rw [if_neg (by decide), hpush]
        rfl
      · cases h
        rw [if_neg (by decide), hpush]
        rfl
  · cases h

/-- Behind a record the publisher returns, or clears the marker of a confirmed push. -/
theorem recordable_record {write : FileWrite} (hrecordable : Recordable headSha p.push p.stage)
    (h : p.record write = some p') : Recordable headSha p'.push p'.stage := by
  unfold State.record at h
  split at h
  · split at h
    · cases h
      trivial
    · split at h
      · cases h
        trivial
      · cases h
        trivial
  · next status remoteSha hstage =>
    rw [hstage] at hrecordable
    split at h
    · cases h
      trivial
    next push hpush =>
    split at h
    · cases h
      trivial
    · cases h
      trivial
    · cases h
      show push.status.confirmed = true
      rw [recordPush_status hpush]
      cases status with
      | pushed => rfl
      | alreadyPresent => rfl
      | notNeeded | notAttempted | failed => exact hrecordable.elim
  · cases h

end Publisher

/-! ### Legal Records -/

section Records

variable {headSha : Option Sha} {hasContent : Bool} {push : PushFacts} {remoteSha : Option Sha}
  {errorCode errorMessage : String}

theorem legalPush_start (headSha : Option Sha) (hasContent : Bool) : LegalPush headSha hasContent {} :=
  { confirmed := fun h => nomatch h
    failed := fun h => nomatch h
    open_ := fun _ => rfl
    notNeeded := fun h => nomatch h
    pushed := fun h => nomatch h
    code := fun _ _ h => nomatch h }

theorem legalPush_failed (hcode : errorCode ≠ "")
    (h : recordPush .failed remoteSha errorCode errorMessage = some push) :
    LegalPush headSha hasContent push := by
  unfold recordPush at h
  rw [if_neg hcode] at h
  obtain ⟨hknown, h⟩ := ite_none_left_eq_some.mp h
  obtain ⟨-, h⟩ := ite_none_left_eq_some.mp h
  cases h
  exact
    { confirmed := fun h => nomatch h
      failed := fun _ => rfl
      open_ := fun h => h.elim (fun h => nomatch h) fun h => nomatch h
      notNeeded := fun h => nomatch h
      pushed := fun h => nomatch h
      code := fun code message heq => by
        cases heq
        exact not_not.mp hknown }

theorem legalPush_notNeeded : LegalPush headSha hasContent { status := .notNeeded } :=
  { confirmed := fun h => nomatch h
    failed := fun h => nomatch h
    open_ := fun _ => rfl
    notNeeded := fun _ => rfl
    pushed := fun h => nomatch h
    code := fun _ _ h => nomatch h }

theorem legalPush_record {head : Sha} {stage : Stage} {status : PushStatus} {old : PushFacts}
    (hrecordable : Recordable head old stage)
    (harguments : recordArguments stage = some (status, remoteSha, errorCode, errorMessage))
    (h : recordPush status remoteSha errorCode errorMessage = some push) :
    LegalPush (some head) true push := by
  unfold recordArguments at harguments
  split at harguments
  · cases harguments
    exact legalPush_failed hrecordable h
  · cases harguments
    obtain rfl : push = ⟨status, remoteSha, none⟩ := (some.inj h).symm
    cases status with
    | pushed =>
      obtain rfl : remoteSha = some head := hrecordable
      exact
        { confirmed := fun _ => ⟨rfl, rfl, rfl⟩
          failed := fun h => nomatch h
          open_ := fun _ => rfl
          notNeeded := fun h => nomatch h
          pushed := fun _ => rfl
          code := fun _ _ h => nomatch h }
    | alreadyPresent =>
      exact
        { confirmed := fun _ => ⟨rfl, rfl, hrecordable⟩
          failed := fun h => nomatch h
          open_ := fun _ => rfl
          notNeeded := fun h => nomatch h
          pushed := fun h => nomatch h
          code := fun _ _ h => nomatch h }
    | notNeeded | notAttempted | failed => exact hrecordable.elim
  · cases harguments

end Records

/-! ### The Snapshot File -/

section Snapshot

variable {repo : Repository} {workDir : String} {start : StartFile} {receipt : Option JsonObject}
  {delivery : Delivery} {error : Option DeliveryError}

/-- The collected facts with some push facts. -/
def recorded (repo : Repository) (workDir : String) (start : StartFile) (receipt : Option JsonObject)
    (push : PushFacts) : JsonObject :=
  snapshotOf repo workDir { (collectGitDelivery repo start receipt).1 with push }
    (collectGitDelivery repo start receipt).2

def collected (repo : Repository) (start : StartFile) (receipt : Option JsonObject) : Delivery :=
  (collectGitDelivery repo start receipt).1

theorem cmdCollect_eq (hbounded : Bounded repo) :
    cmdCollect repo workDir start receipt = recorded repo workDir start receipt {} := by
  have hpush := (legal_collect hbounded start receipt).2
  unfold cmdCollect recorded
  rw [← hpush]

theorem record_recorded (write : FileWrite) (status : PushStatus) (remoteSha : Option Sha)
    (errorCode errorMessage : String) (push : PushFacts) :
    record repo write status remoteSha errorCode errorMessage
        (recorded repo workDir start receipt push) =
      recorded repo workDir start receipt (if write = .failed then push
          else (recordPush status remoteSha errorCode errorMessage).getD push) := by
  unfold record recorded
  by_cases hwrite : write = .failed
  · rw [if_pos hwrite, if_pos hwrite]
  · rw [if_neg hwrite, if_neg hwrite, cmdRecordPush_snapshot]
    cases recordPush status remoteSha errorCode errorMessage <;> rfl

theorem hasContent_recorded (push : PushFacts) :
    hasContent (recorded repo workDir start receipt push) = content (collected repo start receipt) := by
  show (nonemptyList (commitsJson _) || nonemptyList (commitsJson _)) = _
  rw [nonemptyList_json, nonemptyList_json]
  rfl

theorem headSha_recorded (push : PushFacts) :
    snapshotSha "head_sha" (recorded repo workDir start receipt push) =
      (collected repo start receipt).headSha :=
  asSha_shaJson _

/-- Commits that are not collected leave an error with a code. -/
theorem error_of_uncollected (h : (collected repo start receipt).commits = none) :
    ∃ error, (collectGitDelivery repo start receipt).2 = some error ∧ error.code ≠ "" := by
  have hrange : ∀ error, attributedRange repo start = .error error → error.code ≠ "" := by
    intro error herror
    unfold attributedRange at herror
    split at herror
    · split at herror
      · cases herror
        exact (by decide : "branch_changed" ≠ "")
      · split at herror
        · cases herror
          exact (by decide : "history_unverifiable" ≠ "")
        · split at herror
          · cases herror
            exact (by decide : "history_unverifiable" ≠ "")
          · split at herror
            · cases herror
              exact (by decide : "history_unverifiable" ≠ "")
            · cases herror
              exact (by decide : "history_rewritten" ≠ "")
            · cases herror
    · cases herror
      exact (by decide : "branch_changed" ≠ "")
  unfold collected collectGitDelivery at h
  unfold collectGitDelivery
  cases hattributed : attributedRange repo start with
  | error error => exact ⟨error, rfl, hrange error hattributed⟩
  | ok range =>
    obtain ⟨startSha, headSha⟩ := range
    rw [hattributed] at h
    dsimp only at h ⊢
    cases hcommits : listCommits repo (some startSha) headSha with
    | none => exact ⟨_, rfl, (by decide : "history_unverifiable" ≠ "")⟩
    | some commits =>
      rw [hcommits] at h
      dsimp only at h
      split at h
      · cases h
      · cases h

theorem commits_of_collectError {push : PushFacts}
    (h : collectError (recorded repo workDir start receipt push) = none) :
    (collected repo start receipt).commits.isSome = true := by
  cases hcommits : (collected repo start receipt).commits with
  | some commits => rfl
  | none =>
    exfalso
    obtain ⟨error, herror, hcode⟩ := error_of_uncollected hcommits
    have hjson : JsonObject.get { (collectGitDelivery repo start receipt).1 with push }.json "commits" =
        .null := by
      show commitsJson (collected repo start receipt).commits = .null
      rw [hcommits]
      rfl
    unfold collectError recorded at h
    rw [herror, gitDelivery_snapshot] at h
    have hfield : JsonObject.get (snapshotOf repo workDir
        { (collectGitDelivery repo start receipt).1 with push } (some error)) "error" =
          .obj [("code", .str error.code), ("message", .str error.message)] := rfl
    rw [hfield] at h
    dsimp only at h
    rw [hjson] at h
    have hstr : JsonObject.get [("code", Json.str error.code), ("message", .str error.message)] "code" =
        .str error.code := rfl
    rw [hstr] at h
    dsimp only at h
    rw [if_neg hcode] at h
    cases h

theorem code_of_collectError {snapshot : JsonObject} {errorCode errorMessage : String}
    (h : collectError snapshot = some (errorCode, errorMessage)) : errorCode ≠ "" := by
  unfold collectError at h
  split at h
  · split at h
    · obtain ⟨hcode, h⟩ := ite_none_left_eq_some.mp h
      split at h
      · cases h
        exact hcode
      · cases h
        exact hcode
    · cases h
  · cases h

end Snapshot

/-! ### The Invariant -/

section Invariant

variable {repo : Repository} {workDir : String} {start : StartFile} {receipt : Option JsonObject}
  {s s' : MainState} {l : MainLabel}

def Fresh (p : State) : Prop := p.stage = .start ∧ p.push = {}

/-- A run that exits 0 has collected its commits, and delivered them or had nothing to deliver. -/
def Settled (delivery : Delivery) (push : PushFacts) : Prop :=
  delivery.commits.isSome = true ∧
    ((content delivery = true ∧ push.status.confirmed = true) ∨
      (content delivery = false ∧ push.status = .notNeeded))

/-- A publisher of collected content. -/
structure Publishing (delivery : Delivery) (p : State) : Prop where
  commits : delivery.commits.isSome = true
  content : content delivery = true
  recordable : ∀ headSha, delivery.headSha = some headSha → Recordable headSha p.push p.stage
  legal : LegalPush delivery.headSha true p.push

def Known (repo : Repository) (workDir : String) (start : StartFile) (receipt : Option JsonObject)
    (s : MainState) : Prop :=
  match s.phase with
  | .collect => s.snapshot = none ∧ Fresh s.publisher
  | .decide => s.snapshot = some (recorded repo workDir start receipt {}) ∧ Fresh s.publisher
  | .publish =>
    s.snapshot = some (recorded repo workDir start receipt s.publisher.push) ∧
      Publishing (collected repo start receipt) s.publisher
  | .exited status =>
    (status = 0 → s.snapshot.isSome = true) ∧
    ∀ snapshot, s.snapshot = some snapshot → ∃ push,
      snapshot = recorded repo workDir start receipt push ∧
      LegalPush (collected repo start receipt).headSha (content (collected repo start receipt)) push ∧
      (status = 0 → Settled (collected repo start receipt) push)

theorem known_exited {push : PushFacts} {status : Nat} {publisher : State} {requireChanges : Bool}
    (hlegal : LegalPush (collected repo start receipt).headSha
      (content (collected repo start receipt)) push)
    (hsettled : status = 0 → Settled (collected repo start receipt) push) :
    Known repo workDir start receipt
      { phase := .exited status, snapshot := some (recorded repo workDir start receipt push),
        publisher, requireChanges } := by
  refine ⟨fun _ => rfl, ?_⟩
  rintro _ ⟨⟩
  exact ⟨push, rfl, hlegal, hsettled⟩

theorem legal_recorded {headSha : Option Sha} {hasContent : Bool} {write : FileWrite}
    {old : PushFacts} {new : Option PushFacts} (hold : LegalPush headSha hasContent old)
    (hnew : ∀ push, new = some push → LegalPush headSha hasContent push) :
    LegalPush headSha hasContent (if write = .failed then old else new.getD old) := by
  by_cases hwrite : write = .failed
  · rw [if_pos hwrite]
    exact hold
  · rw [if_neg hwrite]
    cases hsome : new with
    | none => exact hold
    | some push => exact hnew push hsome

/-- The snapshot follows the publisher, step by step. -/
theorem known_publisher {label : Label} {headSha : Sha} {startRemote : Option Sha} {p' : State}
    (hhead : (collected repo start receipt).headSha = some headSha)
    (hpublishing : Publishing (collected repo start receipt) s.publisher)
    (hstep : step headSha startRemote s.publisher label = some p') :
    Known repo workDir start receipt
      { s with
        snapshot := some (recordStep repo s.publisher.stage label
          (recorded repo workDir start receipt s.publisher.push))
        publisher := p'
        phase := phaseOf p'.stage } := by
  obtain ⟨hcommits, hcontent, hrecordable, hlegal⟩ := hpublishing
  have hready := hrecordable headSha hhead
  -- the file follows the publisher
  have hfile : recordStep repo s.publisher.stage label
      (recorded repo workDir start receipt s.publisher.push) =
        recorded repo workDir start receipt p'.push ∧
      Recordable headSha p'.push p'.stage ∧
      LegalPush (collected repo start receipt).headSha true p'.push := by
    by_cases hlabel : ∃ write, label = .record write
    · obtain ⟨write, rfl⟩ := hlabel
      have hrecord : s.publisher.record write = some p' := hstep
      obtain ⟨status, remoteSha, errorCode, errorMessage, harguments, hpush⟩ := push_record hrecord
      have hnext := recordable_record hready hrecord
      rw [hpush] at hnext ⊢
      refine ⟨?_, hnext, ?_⟩
      · unfold recordStep
        rw [harguments]
        exact record_recorded _ _ _ _ _ _
      · apply legal_recorded hlegal
        intro push hsome
        rw [hhead]
        exact legalPush_record hready harguments hsome
    · have hother : ∀ write, label ≠ .record write := fun write heq => hlabel ⟨write, heq⟩
      obtain ⟨hnext, hsame⟩ := recordable_step hready hstep hother
      rw [hsame] at hnext ⊢
      refine ⟨?_, hnext, hlegal⟩
      unfold recordStep
      split
      · exact absurd rfl (hother _)
      · rfl
  obtain ⟨hrecorded, hnext, hlegal'⟩ := hfile
  rw [hrecorded]
  by_cases hreturned : ∃ status, p'.stage = .returned status
  · obtain ⟨status, hstage⟩ := hreturned
    rw [hstage] at hnext ⊢
    apply known_exited
    · rw [hcontent]
      exact hlegal'
    · intro hzero
      have hstatus : status = 0 := by
        by_contra hne
        rw [if_neg hne] at hzero
        cases hzero
      rw [hstatus] at hnext
      exact ⟨hcommits, Or.inl ⟨hcontent, hnext⟩⟩
  · have hphase : phaseOf p'.stage = .publish := by
      unfold phaseOf
      split
      · next status hstage => exact absurd ⟨status, hstage⟩ hreturned
      · rfl
    rw [hphase]
    refine ⟨rfl, hcommits, hcontent, fun headSha' hhead' => ?_, hlegal'⟩
    cases hhead.symm.trans hhead'
    exact hnext

/-- **The step**: each step of main.sh keeps what is known of the file. -/
theorem known_next (hbounded : Bounded repo) (h : Known repo workDir start receipt s)
    (hnext : s.next repo workDir start receipt l = some s') :
    Known repo workDir start receipt s' := by
  have hstart := legalPush_start (collected repo start receipt).headSha
    (content (collected repo start receipt))
  unfold Known at h
  cases l with
  | collect write =>
    unfold MainState.next at hnext
    dsimp only at hnext
    split at hnext
    · next hphase =>
      cases hnext
      rw [hphase] at h
      refine ⟨(fun hzero => by cases hzero), fun snapshot hsnapshot => ?_⟩
      rw [show s.snapshot = none from h.1] at hsnapshot
      cases hsnapshot
    · next hphase =>
      cases hnext
      rw [cmdCollect_eq hbounded]
      exact known_exited hstart fun hzero => by cases hzero
    · next hphase =>
      cases hnext
      rw [hphase] at h
      rw [cmdCollect_eq hbounded]
      exact ⟨rfl, h.2⟩
    · cases hnext
  | stop write =>
    unfold MainState.next at hnext
    dsimp only at hnext
    split at hnext
    · next snapshot hphase hsnapshot =>
      rw [hphase] at h
      obtain ⟨⟨errorCode, errorMessage⟩, herror, rfl⟩ := map_eq_some_iff.mp hnext
      cases hsnapshot.symm.trans h.1
      rw [record_recorded]
      apply known_exited
      · apply legal_recorded hstart
        exact fun push hpush => legalPush_failed (code_of_collectError herror) hpush
      · exact fun hzero => by cases hzero
    · cases hnext
  | publish =>
    unfold MainState.next at hnext
    dsimp only at hnext
    split at hnext
    · next snapshot hphase hsnapshot =>
      rw [hphase] at h
      obtain ⟨⟨herror, hcontent⟩, heq⟩ := ite_none_right_eq_some.mp hnext
      cases heq
      obtain ⟨hfile, hstage, hpush⟩ := h
      cases hsnapshot.symm.trans hfile
      rw [hasContent_recorded] at hcontent
      refine ⟨?_, commits_of_collectError (isNone_iff_eq_none.mp herror), hcontent, ?_, ?_⟩
      · show s.snapshot = some (recorded repo workDir start receipt s.publisher.push)
        rw [hpush]
        exact hsnapshot
      · intro headSha _
        show Recordable headSha s.publisher.push s.publisher.stage
        rw [hstage]
        trivial
      · show LegalPush _ true s.publisher.push
        rw [hpush]
        exact legalPush_start _ _
    · cases hnext
  | noChanges write =>
    unfold MainState.next at hnext
    dsimp only at hnext
    split at hnext
    · next snapshot hphase hsnapshot =>
      rw [hphase] at h
      obtain ⟨⟨herror, hcontent⟩, heq⟩ := ite_none_right_eq_some.mp hnext
      cases heq
      cases hsnapshot.symm.trans h.1
      rw [hasContent_recorded, Bool.not_eq_true] at hcontent
      rw [record_recorded]
      apply known_exited
      · apply legal_recorded hstart
        rintro push ⟨⟩
        exact legalPush_notNeeded
      · intro hzero
        have hdone : write = .done := by
          by_contra hne
          rw [if_neg fun hboth => hne hboth.1] at hzero
          cases hzero
        rw [if_neg (by rw [hdone]; decide)]
        exact ⟨commits_of_collectError (isNone_iff_eq_none.mp herror), Or.inr ⟨hcontent, rfl⟩⟩
    · cases hnext
  | publisher label =>
    unfold MainState.next at hnext
    dsimp only at hnext
    split at hnext
    · next snapshot hphase hsnapshot =>
      rw [hphase] at h
      obtain ⟨headSha, hhead, hmap⟩ := bind_eq_some_iff.mp hnext
      obtain ⟨p', hstep, rfl⟩ := map_eq_some_iff.mp hmap
      cases hsnapshot.symm.trans h.1
      rw [headSha_recorded] at hhead
      exact known_publisher hhead h.2 hstep
    · cases hnext

theorem known_reachable (hbounded : Bounded repo)
    (h : (mainRun repo workDir start receipt).Reachable anyStep s) :
    Known repo workDir start receipt s := by
  refine h.invariant ?_ ?_
  · rintro s ⟨hphase, hsnapshot, hstage, hpush, -⟩
    unfold Known
    rw [hphase]
    exact ⟨hsnapshot, hstage, hpush⟩
  · exact fun s l s' hknown _ hnext => known_next hbounded hknown hnext

end Invariant

/-! ### Inherited Commits -/

section Result

variable {repo : Repository} {workDir : String} {start : StartFile} {receipt : Option JsonObject}
  {s : MainState}

/-- The inherited commits can be read: whether the remote tip of the start, or the base when the
    branch was not there, is an ancestor of the start is known, and if it is, the log between them
    pairs up. -/
def Recoverable (repo : Repository) (start : StartFile) (startSha : Sha) : Prop :=
  ∀ base, start.startRemoteSha.or start.baseSha = some base → base ≠ startSha →
    repo.ancestor base startSha ≠ .unverifiable ∧
      (repo.ancestor base startSha = .ancestor → (listCommits repo (some base) startSha).isSome = true)

theorem recoveredRangeBase_eq (startSha : Sha) :
    recoveredRangeBase repo startSha start.startRemoteSha start.baseSha =
      match start.startRemoteSha.or start.baseSha with
      | none => some none
      | some base =>
        if base = startSha then some none
        else
          match repo.ancestor base startSha with
          | .ancestor => some (some base)
          | .notAncestor => some none
          | .unverifiable => none := by
  cases start.startRemoteSha with
  | some startRemoteSha => rfl
  | none => cases start.baseSha <;> rfl

/-- The commits are recovered exactly from a recoverable start. -/
theorem collectRecovered_iff (receipt : Option JsonObject) (startSha : Sha)
    (commits : List CommitEntry) :
    (∃ recovered, collectRecovered repo start receipt startSha commits = .ok recovered) ↔
      Recoverable repo start startSha := by
  unfold collectRecovered Recoverable
  rw [recoveredRangeBase_eq]
  cases hbase : start.startRemoteSha.or start.baseSha with
  | none => exact ⟨(fun _ base hsome => nomatch hsome), fun _ => ⟨_, rfl⟩⟩
  | some base =>
    dsimp only
    by_cases hsame : base = startSha
    · rw [if_pos hsame]
      refine ⟨fun _ base' hsome hne => ?_, fun _ => ⟨_, rfl⟩⟩
      cases hsome
      exact absurd hsame hne
    · rw [if_neg hsame]
      cases hrelation : repo.ancestor base startSha with
      | notAncestor =>
        refine ⟨fun _ base' hsome hne => ?_, fun _ => ⟨_, rfl⟩⟩
        cases hsome
        rw [hrelation]
        exact ⟨by decide, fun h => by cases h⟩
      | unverifiable =>
        constructor
        · rintro ⟨recovered, hok⟩
          cases hok
        · intro h
          exact absurd hrelation (h base rfl hsame).1
      | ancestor =>
        cases hlist : listCommits repo (some base) startSha with
        | none =>
          dsimp only
          rw [hlist]
          constructor
          · rintro ⟨recovered, hok⟩
            cases hok
          · intro h
            have hread := (h base rfl hsame).2 hrelation
            rw [hlist] at hread
            cases hread
        | some inherited =>
          dsimp only
          rw [hlist]
          refine ⟨fun _ base' hsome hne => ?_, fun _ => ⟨_, rfl⟩⟩
          cases hsome
          rw [hrelation, hlist]
          exact ⟨by decide, fun _ => rfl⟩

theorem collected_eq (receipt : Option JsonObject) {startSha headSha : Sha}
    {commits : List CommitEntry}
    (hrange : attributedRange repo start = .ok (startSha, headSha))
    (hcommits : listCommits repo (some startSha) headSha = some commits) :
    (collected repo start receipt).commits = some commits ∧
      ((collected repo start receipt).recoveredCommits.isSome = true ↔
        Recoverable repo start startSha) := by
  rw [← collectRecovered_iff receipt startSha commits]
  unfold collected collectGitDelivery
  rw [hrange]
  dsimp only
  rw [hcommits]
  dsimp only
  cases hrecovered : collectRecovered repo start receipt startSha commits with
  | error error => exact ⟨rfl, (fun h => nomatch h), fun ⟨_, h⟩ => nomatch h⟩
  | ok recovered => exact ⟨rfl, fun _ => ⟨recovered, rfl⟩, fun _ => rfl⟩

/-- The commits of the task are collected only for a range that git can list. -/
theorem range_of_commits (h : (collected repo start receipt).commits.isSome = true) :
    ∃ startSha headSha commits, attributedRange repo start = .ok (startSha, headSha) ∧
      listCommits repo (some startSha) headSha = some commits := by
  unfold collected collectGitDelivery at h
  cases hrange : attributedRange repo start with
  | error error =>
    rw [hrange] at h
    cases h
  | ok range =>
    obtain ⟨startSha, headSha⟩ := range
    rw [hrange] at h
    dsimp only at h
    cases hcommits : listCommits repo (some startSha) headSha with
    | none =>
      rw [hcommits] at h
      cases h
    | some commits => exact ⟨startSha, headSha, commits, rfl, hcommits⟩

/-! ### A Run That Exits 0 -/

theorem collectError_of_commits {push : PushFacts}
    (h : (collected repo start receipt).commits.isSome = true) :
    collectError (recorded repo workDir start receipt push) = none := by
  obtain ⟨commits, hcommits⟩ := isSome_iff_exists.mp h
  have hjson : JsonObject.get { (collectGitDelivery repo start receipt).1 with push }.json "commits" =
      .arr (commits.map CommitEntry.json) := by
    show commitsJson (collected repo start receipt).commits = _
    rw [hcommits]
    rfl
  unfold collectError recorded
  rw [gitDelivery_snapshot]
  split
  · next error gitDelivery _ heq =>
    cases heq
    rw [hjson]
    split
    · next hnull => cases hnull
    · rfl
  · rfl

theorem advance (hbounded : Bounded repo) {headSha : Sha} (label : Label) {p : State} (p' : State)
    (h : (mainRun repo workDir start receipt).Reachable anyStep s) (hp : s.publisher = p)
    (hphase : s.phase = .publish) (hhead : (collected repo start receipt).headSha = some headSha)
    (hstep : ∀ startRemote, step headSha startRemote p label = some p') :
    ∃ s', (mainRun repo workDir start receipt).Reachable anyStep s' ∧ s'.publisher = p' ∧
      s'.phase = phaseOf p'.stage := by
  have hknown := known_reachable hbounded h
  unfold Known at hknown
  rw [hphase] at hknown
  subst hp
  have hnext : (mainRun repo workDir start receipt).next s (.publisher label) =
      some { s with
        snapshot := some (recordStep repo s.publisher.stage label
          (recorded repo workDir start receipt s.publisher.push))
        publisher := p'
        phase := phaseOf p'.stage } := by
    show s.next repo workDir start receipt (.publisher label) = _
    unfold MainState.next
    rw [hphase, hknown.1]
    dsimp only
    rw [headSha_recorded, hhead, bind_some, hstep]
    rfl
  exact ⟨_, h.run (.step (.refl s) trivial hnext), rfl, rfl⟩

/-- The remote branch is the head already. -/
def presentRemote (headSha : Sha) : State := { remote := some headSha, tracking := none, marker := none }

/-- **Exit 0**: with collected commits main.sh can exit 0. -/
theorem exits_zero (hbounded : Bounded repo)
    (hcommits : (collected repo start receipt).commits.isSome = true) :
    ∃ s, (mainRun repo workDir start receipt).Reachable anyStep s ∧ s.phase = .exited 0 := by
  have hdecide : ∀ p : State, p.stage = .start → p.push = {} → p.observed = [] →
      (mainRun repo workDir start receipt).Reachable anyStep
        { phase := .decide, snapshot := some (recorded repo workDir start receipt {}), publisher := p,
          requireChanges := false } := by
    intro p hstage hpush hobserved
    refine ⟨{ publisher := p, requireChanges := false }, ⟨rfl, rfl, hstage, hpush, hobserved⟩,
      .step (l := .collect .done) (.refl _) trivial ?_⟩
    rw [← cmdCollect_eq hbounded]
    rfl
  have herror : collectError (recorded repo workDir start receipt {}) = none :=
    collectError_of_commits hcommits
  cases hcontent : content (collected repo start receipt) with
  | false =>
    -- nothing to deliver, and no changes are required
    let ready : MainState :=
      { phase := .decide, snapshot := some (recorded repo workDir start receipt {}),
        publisher := { remote := none, tracking := none, marker := none }, requireChanges := false }
    have hexit : (mainRun repo workDir start receipt).next ready (.noChanges .done) =
        some { ready with
          snapshot := some (record repo .done .notNeeded none "" ""
            (recorded repo workDir start receipt {}))
          phase := .exited 0 } := by
      show (if (collectError _).isNone ∧ ¬ hasContent _ then some _ else none) = _
      rw [herror, hasContent_recorded, hcontent, if_pos (by decide)]
      rfl
    exact ⟨_, (hdecide _ rfl rfl rfl).run (.step (.refl ready) trivial hexit), rfl⟩
  | true =>
    have hfacts := (legal_collect hbounded start receipt).1
    obtain ⟨headSha, hhead⟩ := isSome_iff_exists.mp (hfacts.head hcontent)
    have hpublish : (mainRun repo workDir start receipt).Reachable anyStep
        { phase := .publish, snapshot := some (recorded repo workDir start receipt {}),
          publisher := presentRemote headSha, requireChanges := false } := by
      refine (hdecide (presentRemote headSha) rfl rfl rfl).run
        (.step (l := .publish) (.refl _) trivial ?_)
      show (if (collectError _).isNone ∧ hasContent _ then some _ else none) = some _
      rw [herror, hasContent_recorded, hcontent, if_pos (by decide)]
    -- the remote contains the head before the push
    let p₁ : State := { presentRemote headSha with stage := .observe }
    let p₂ : State := { p₁.observe with stage := .fetch headSha }
    let p₃ : State := { p₂.observe with tracking := some headSha, stage := .localTip }
    let p₄ : State := { p₃ with stage := .classify (some headSha) }
    let p₅ : State := { p₄ with stage := .confirm .alreadyPresent (some headSha) }
    let p₆ : State := { p₅ with push := ⟨.alreadyPresent, some headSha, none⟩, stage := .clear }
    have hclassify : ∀ startRemote, step headSha startRemote p₄ (.classify true fun _ _ => .ancestor) =
        some p₅ := by
      intro startRemote
      have hpresent : (if (true : Bool) then
          classifyRemote (fun _ _ => .ancestor) headSha (some headSha) startRemote else none) =
            some { decision := .alreadyPresent } := by
        unfold classifyRemote
        rw [map_some, if_pos rfl, if_pos rfl]
      have hstage := congrArg (afterClassify (some headSha)) hpresent
      exact congrArg (fun stage => some { p₄ with stage := stage }) hstage
    obtain ⟨s₁, h₁, hp₁, hphase₁⟩ :=
      advance hbounded (.begin_ true true) p₁ hpublish rfl rfl hhead fun _ => rfl
    obtain ⟨s₂, h₂, hp₂, hphase₂⟩ :=
      advance hbounded (.remoteTip true) p₂ h₁ hp₁ hphase₁ hhead fun _ => rfl
    obtain ⟨s₃, h₃, hp₃, hphase₃⟩ :=
      advance hbounded (.fetchBranch true) p₃ h₂ hp₂ hphase₂ hhead fun _ => rfl
    obtain ⟨s₄, h₄, hp₄, hphase₄⟩ :=
      advance hbounded (.localTip true) p₄ h₃ hp₃ hphase₃ hhead fun _ => rfl
    obtain ⟨s₅, h₅, hp₅, hphase₅⟩ :=
      advance hbounded (.classify true fun _ _ => .ancestor) p₅ h₄ hp₄ hphase₄ hhead hclassify
    obtain ⟨s₆, h₆, hp₆, hphase₆⟩ :=
      advance hbounded (.record .done) p₆ h₅ hp₅ hphase₅ hhead fun _ => rfl
    obtain ⟨s₇, h₇, -, hphase₇⟩ :=
      advance hbounded (.clear .done) { p₆ with stage := .returned 0 } h₆ hp₆ hphase₆ hhead fun _ => rfl
    exact ⟨s₇, h₇, hphase₇⟩

/-! ### The Contract -/

/-- The backend accepts the file, projects its commit, and completes a task that exits 0. -/
def Agrees (L : Library) (taskId : Nat) (s : MainState) : Prop :=
  ∀ snapshot, s.snapshot = some snapshot → ∃ value,
    normalizeGitDelivery L taskId (JsonObject.get snapshot "git_delivery") = .ok value ∧
    JsonObject.get snapshot "commit_sha" = shaJson (projectDeliveryCommitSha value) ∧
    (s.phase = .exited 0 → completedDeliveryError value = none)

/-- **Acceptance**: the file is a legal delivery in every state. -/
theorem legal_of_reachable (hbounded : Bounded repo)
    (h : (mainRun repo workDir start receipt).Reachable anyStep s) {snapshot : JsonObject}
    (hsnapshot : s.snapshot = some snapshot) : ∃ push,
      snapshot = recorded repo workDir start receipt push ∧
      Legal start.run { collected repo start receipt with push } ∧
      (s.phase = .exited 0 → Settled (collected repo start receipt) push) := by
  have hfacts : ∀ push, LegalFacts start.run { collected repo start receipt with push } := by
    intro push
    obtain ⟨hattempt, hbranch, hcommits, hrecovered, hhead, hdiff⟩ := (legal_collect hbounded start receipt).1
    exact ⟨hattempt, hbranch, hcommits, hrecovered, hhead, hdiff⟩
  have hknown := known_reachable hbounded h
  unfold Known at hknown
  split at hknown
  · rw [hknown.1] at hsnapshot
    cases hsnapshot
  · next hphase =>
    cases hknown.1.symm.trans hsnapshot
    refine ⟨{}, rfl, ⟨hfacts _, legalPush_start _ _⟩, fun hzero => ?_⟩
    rw [hphase] at hzero
    cases hzero
  · next hphase =>
    obtain ⟨hfile, hpublishing⟩ := hknown
    cases hfile.symm.trans hsnapshot
    have hlegal := hpublishing.legal
    rw [← hpublishing.content] at hlegal
    refine ⟨_, rfl, ⟨hfacts _, hlegal⟩, fun hzero => ?_⟩
    rw [hphase] at hzero
    cases hzero
  · next status hphase =>
    obtain ⟨push, hfile, hlegal, hsettled⟩ := hknown.2 snapshot hsnapshot
    refine ⟨push, hfile, ⟨hfacts _, hlegal⟩, fun hzero => hsettled ?_⟩
    rw [hphase] at hzero
    exact MainPhase.exited.inj hzero

theorem snapshot_of_exit (hbounded : Bounded repo)
    (h : (mainRun repo workDir start receipt).Reachable anyStep s)
    (hphase : s.phase = .exited 0) : ∃ snapshot, s.snapshot = some snapshot := by
  have hknown := known_reachable hbounded h
  unfold Known at hknown
  rw [hphase] at hknown
  exact isSome_iff_exists.mp (hknown.1 rfl)

theorem completedDeliveryError_iff (L : Library) {delivery : Delivery} {push : PushFacts}
    (h : Settled delivery push) :
    completedDeliveryError (readDelivery L { delivery with push }) = none ↔
      delivery.recoveredCommits.isSome = true := by
  obtain ⟨hcommits, hdone⟩ := h
  have hcontent : (readDelivery L { delivery with push }).content = content delivery :=
    content_read L _
  have hconfirmed : (readDelivery L { delivery with push }).confirmed = push.status.confirmed := rfl
  have hnotNeeded : (readDelivery L { delivery with push }).push.any (·.status = .notNeeded) =
      decide (push.status = .notNeeded) := rfl
  have hlists : ((readDelivery L { delivery with push }).commits.isNone ||
      (readDelivery L { delivery with push }).recoveredCommits.isNone) =
        delivery.recoveredCommits.isNone := by
    obtain ⟨commits, hsome⟩ := isSome_iff_exists.mp hcommits
    rw [hsome]
    cases delivery.recoveredCommits <;> rfl
  unfold completedDeliveryError
  rw [hlists, hcontent, hconfirmed, hnotNeeded]
  cases delivery.recoveredCommits with
  | none => simp
  | some recovered =>
    rcases hdone with ⟨hcontent, hconfirmed⟩ | ⟨hcontent, hnone⟩
    · simp [hcontent, hconfirmed]
    · simp [hcontent, hnone]

/-- Without the inherited commits a run exits 0, and the backend refuses to complete the task. -/
theorem refuses_of_uncollected (L : Library) (hbounded : Bounded repo)
    (hcommits : (collected repo start receipt).commits.isSome = true)
    (hrecovered : (collected repo start receipt).recoveredCommits = none) :
    ∃ s snapshot value, (mainRun repo workDir start receipt).Reachable anyStep s ∧
      s.phase = .exited 0 ∧ s.snapshot = some snapshot ∧
      normalizeGitDelivery L start.run.taskId (JsonObject.get snapshot "git_delivery") = .ok value ∧
      completedDeliveryError value ≠ none := by
  have hexit : ∃ s, (mainRun repo workDir start receipt).Reachable anyStep s ∧
      s.phase = .exited 0 := exits_zero hbounded hcommits
  obtain ⟨s, hreachable, hphase⟩ := hexit
  obtain ⟨snapshot, hsnapshot⟩ := snapshot_of_exit hbounded hreachable hphase
  obtain ⟨push, rfl, hlegal, hsettled⟩ := legal_of_reachable hbounded hreachable hsnapshot
  refine ⟨s, _, _, hreachable, hphase, hsnapshot, normalize_json L hlegal, fun hnone => ?_⟩
  have hsome := (completedDeliveryError_iff L (hsettled hphase)).mp hnone
  rw [hrecovered] at hsome
  cases hsome

/-- **The delivery contract**: writer and reader agree in every run exactly when the commits
    inherited from the workspace can be collected, or the commits of the task cannot. -/
theorem delivery_accepted_iff (L : Library) (repo : Repository) (workDir : String) (start : StartFile)
    (receipt : Option JsonObject) (hbounded : Bounded repo) :
    (∀ s, (mainRun repo workDir start receipt).Reachable anyStep s →
        Agrees L start.run.taskId s) ↔
      ∀ startSha headSha, attributedRange repo start = .ok (startSha, headSha) →
        (listCommits repo (some startSha) headSha).isSome = true → Recoverable repo start startSha := by
  constructor
  · intro h startSha headSha hrange hlisted
    obtain ⟨commits, hcommits⟩ := isSome_iff_exists.mp hlisted
    obtain ⟨hcollected, hrecovered⟩ := collected_eq receipt hrange hcommits
    have hsome : (collected repo start receipt).commits.isSome = true := by
      rw [hcollected]
      rfl
    by_contra hnot
    have hnone : (collected repo start receipt).recoveredCommits = none := by
      by_contra hne
      exact hnot (hrecovered.mp (isSome_iff_ne_none.mpr hne))
    have hrefused : ∃ s snapshot value,
        (mainRun repo workDir start receipt).Reachable anyStep s ∧ s.phase = .exited 0 ∧
        s.snapshot = some snapshot ∧
        normalizeGitDelivery L start.run.taskId (JsonObject.get snapshot "git_delivery") = .ok value ∧
        completedDeliveryError value ≠ none := refuses_of_uncollected L hbounded hsome hnone
    obtain ⟨s, snapshot, value, hreachable, hphase, hsnapshot, hread, hrefuses⟩ := hrefused
    obtain ⟨value', hread', -, hcomplete⟩ := h s hreachable snapshot hsnapshot
    rw [hread] at hread'
    cases hread'
    exact hrefuses (hcomplete hphase)
  · intro h s hreachable snapshot hsnapshot
    obtain ⟨push, rfl, hlegal, hsettled⟩ := legal_of_reachable hbounded hreachable hsnapshot
    refine ⟨_, normalize_json L hlegal, commitSha_snapshot L repo workDir _ _, fun hzero => ?_⟩
    have hdone := hsettled hzero
    apply (completedDeliveryError_iff L hdone).mpr
    obtain ⟨startSha, headSha, commits, hrange, hcommits⟩ := range_of_commits hdone.1
    exact (collected_eq receipt hrange hcommits).2.mpr (h startSha headSha hrange (by rw [hcommits]; rfl))

end Result

/-! ### A Workspace with an Inherited Commit -/

def repeatedSha (digit : Char) (h : validFullSha (String.ofList (List.replicate 40 digit)) = true) : Sha :=
  ⟨String.ofList (List.replicate 40 digit), h⟩

/-- The remote tip, a commit of the task before that was not pushed, and a commit of this task. -/
def remoteSha : Sha := repeatedSha '1' (by decide)
def inheritedSha : Sha := repeatedSha '2' (by decide)
def ownSha : Sha := repeatedSha '3' (by decide)

def chain : List Sha := [remoteSha, inheritedSha, ownSha]

variable (subject : Field)

/-- A linear history in which the inherited commit has the given subject. -/
def workspace : Repository where
  history := chain
  head := some ownSha
  headBranch := some "codify/issue-4"
  revisionExists sha := sha ∈ chain
  ancestor a d := if a ∈ chain ∧ chain.idxOf a ≤ chain.idxOf d then .ancestor else .notAncestor
  ancestor_mem a d h := by
    by_contra hnot
    rw [if_neg fun hboth => hnot hboth.1] at h
    cases h
  log first last :=
    if first = some inheritedSha ∧ last = ownSha then some [⟨ownSha, ⟨"fix: parser", by decide⟩⟩]
    else if first = some remoteSha ∧ last = inheritedSha then some [⟨inheritedSha, subject⟩]
    else none
  log_mem first last entries h := by
    split at h
    · cases h
      decide +kernel
    · split at h
      · cases h
        intro entry hentry
        rw [mem_singleton.mp hentry]
        show inheritedSha ∈ chain
        decide
      · cases h
  log_nodup first last entries h := by
    split at h
    · cases h
      simp
    · split at h
      · cases h
        simp
      · cases h
  numstat _ _ := some [⟨some (3, 1), ⟨"parser.py", by decide⟩⟩]
  nameStatus _ _ := some [⟨'M', by decide, ⟨"parser.py", by decide⟩⟩]
  diffTree _ _ := none
  commitSubject _ := some "fix: parser"
  commitMessage _ := some "fix: parser\n"

theorem bounded_workspace : Bounded (workspace subject) where
  commits := by
    show chain.length ≤ 2000
    decide
  files _ _ entries h := by
    rcases h with h | h
    · cases h
      decide +kernel
    · cases h
  names _ _ entries h := by
    rcases h with h | h
    · cases h
      decide +kernel
    · cases h

/-- The task starts at the inherited commit, one ahead of the remote. -/
def workspaceStart : StartFile where
  run :=
    { taskId := 7, attemptNo := 1, suffix := List.replicate 12 'a', suffix_length := rfl,
      suffix_hex := fun c hc => by rw [eq_of_mem_replicate hc]; decide
      branch := "codify/issue-4", branch_text := by decide +kernel
      branch_length := by decide +kernel }
  startSha := some inheritedSha
  startRemoteSha := some remoteSha
  baseSha := none

/-- Texts without secrets and ASCII digits. -/
def plainLibrary : Library where
  repr _ := ""
  sanitize text := text
  isDecimal := Char.isDigit
  isDecimal_digit _ h := h
  isDecimal_dash := rfl

theorem range_workspace :
    attributedRange (workspace subject) workspaceStart = .ok (inheritedSha, ownSha) := rfl

theorem ancestor_workspace : (workspace subject).ancestor remoteSha inheritedSha = .ancestor := rfl

/-- An inherited commit with a subject is delivered and completed in every run. -/
theorem inherited_commit_accepted :
    ∃ subject : Field, subject.text = "feat: lexer" ∧
      ∀ s, (mainRun (workspace subject) "/workspace" workspaceStart none).Reachable anyStep s →
        Agrees plainLibrary 7 s := by
  refine ⟨⟨"feat: lexer", by decide⟩, rfl, ?_⟩
  apply (delivery_accepted_iff plainLibrary (workspace _) "/workspace" workspaceStart none
    (bounded_workspace _)).mpr
  intro startSha headSha hrange _ base hbase _
  cases hrange
  cases hbase
  have hlisted : (listCommits (workspace ⟨"feat: lexer", by decide⟩) (some remoteSha)
      inheritedSha).isSome = true := by decide +kernel
  rw [ancestor_workspace]
  exact ⟨by decide, fun _ => hlisted⟩

/-- An inherited commit without a subject: main.sh delivers and exits 0, and the backend refuses to
    complete the task. -/
theorem bare_commit_refused :
    ∃ s snapshot value,
      (mainRun (workspace ⟨"", by decide⟩) "/workspace" workspaceStart none).Reachable anyStep s ∧
      s.phase = .exited 0 ∧ s.snapshot = some snapshot ∧
      normalizeGitDelivery plainLibrary 7 (JsonObject.get snapshot "git_delivery") = .ok value ∧
      completedDeliveryError value ≠ none := by
  have hbounded := bounded_workspace ⟨"", by decide⟩
  have hown : (listCommits (workspace ⟨"", by decide⟩) (some inheritedSha) ownSha).isSome = true := by
    decide +kernel
  have hbare : (listCommits (workspace ⟨"", by decide⟩) (some remoteSha) inheritedSha).isSome =
      false := by decide +kernel
  obtain ⟨commits, hcommits⟩ := isSome_iff_exists.mp hown
  obtain ⟨hcollected, hrecovered⟩ := collected_eq none (range_workspace _) hcommits
  have hsome : (collected (workspace ⟨"", by decide⟩) workspaceStart none).commits.isSome = true := by
    rw [hcollected]
    rfl
  have hnone : (collected (workspace ⟨"", by decide⟩) workspaceStart none).recoveredCommits = none := by
    by_contra hne
    -- the log of the inherited commit has one token
    have hread := hrecovered.mp (isSome_iff_ne_none.mpr hne)
    obtain ⟨-, hlist⟩ := hread remoteSha rfl (by decide)
    rw [hlist (ancestor_workspace _)] at hbare
    cases hbare
  exact refuses_of_uncollected plainLibrary hbounded hsome hnone

end Codify.Worker.DeliveryContract
