import Codify.Framework.CommitGraph
import Codify.Framework.System

/-! # Publishing a Delivery

    The publisher of the worker entrypoint (`repo_delivery_publish` of
    git-delivery.sh) and the decision of git-delivery.py. Every command on the
    remote is a step of its own, and between two steps other parties may move,
    create or delete the branch. A label carries the answer of its command: a
    failure of the network, of a file, or of the ancestry query.

    The invariant says what the publisher knows at each stage: the tip that it
    was shown, the ancestry that it proved before it pushes, the tip that
    contained the head before it confirms. The lease turns the second into a
    fact about the branch at the push.
-/

namespace Codify.Worker.GitDelivery

open Codify.Framework List Option

/-! ### Commits and Outcomes -/

/-- `_valid_full_sha`. -/
def validFullSha (value : String) : Bool :=
  value.length == 40 && value.toList.all "0123456789abcdef".toList.contains

/-- A full commit SHA; the shell's empty string is `none` of `Option Sha`. -/
structure Sha where
  value : String
  full : validFullSha value = true
  deriving DecidableEq

/-- `PUSH_STATUSES`. -/
inductive PushStatus where
  | notNeeded
  | notAttempted
  | pushed
  | alreadyPresent
  | failed
  deriving DecidableEq

/-- The remote provably contains the head. -/
def PushStatus.confirmed : PushStatus → Bool
  | .pushed => true
  | .alreadyPresent => true
  | _ => false

/-- `ERROR_CODES`. -/
def errorCodes : List String :=
  ["branch_changed", "history_rewritten", "history_unverifiable", "remote_deleted",
    "remote_rewound", "remote_diverged", "remote_changed", "push_failed", "remote_unconfirmed"]

/-- The `push` object of the snapshot. -/
structure PushFacts where
  status : PushStatus := .notAttempted
  remoteSha : Option Sha := none
  error : Option (String × String) := none
  deriving DecidableEq

/-- `cmd_record_push`; `none` for a ValueError. -/
def recordPush (status : PushStatus) (remoteSha : Option Sha) (errorCode errorMessage : String) :
    Option PushFacts :=
  if errorCode = "" then some { status, remoteSha }
  else if errorCode ∉ errorCodes then none
  else if errorMessage = "" then none
  else some { status, remoteSha,
              error := some (errorCode, String.ofList (errorMessage.toList.take 2000)) }

/-! ### The Decision -/

/-- `_ancestor`: the exit status of `git merge-base --is-ancestor` is 0, 1 or another. -/
inductive Ancestry where
  | ancestor
  | notAncestor
  | unverifiable
  deriving DecidableEq

inductive DecisionType where
  | alreadyPresent
  | push
  | failed
  deriving DecidableEq

structure Decision where
  decision : DecisionType := .failed
  errorCode : Option String := none
  errorMessage : Option String := none
  deriving DecidableEq

variable (g : CommitGraph Sha) (ancestor : Sha → Sha → Ancestry)

/-- The end of `cmd_classify_remote`: the tip is an ancestor of the head, and must not have been
    rewound below the tip at task start. -/
def classifyStart (remoteTip : Sha) : Option Sha → Decision
  | none => { decision := .push }
  | some startRemote =>
    if startRemote = remoteTip then { decision := .push }
    else
      match ancestor startRemote remoteTip with
      | .unverifiable =>
        { errorCode := some "history_unverifiable"
          errorMessage := some ("Whether the remote preserved the task-start tip cannot be " ++
            "proven in the available history") }
      | .notAncestor =>
        { errorCode := some
            (if ancestor remoteTip startRemote = .ancestor then "remote_rewound"
             else "remote_diverged")
          errorMessage := some ("The remote task branch lost the task-start tip (rewound or " ++
            "replaced); refusing to restore it automatically") }
      | .ancestor => { decision := .push }

/-- `cmd_classify_remote`; `none` for the ValueError of an empty tip. -/
def classifyRemote (headSha : Sha) (remoteTip startRemote : Option Sha) : Option Decision :=
  remoteTip.map fun remoteTip =>
    if remoteTip = headSha then { decision := .alreadyPresent }
    else
      match ancestor headSha remoteTip with
      | .ancestor => { decision := .alreadyPresent }
      | .unverifiable =>
        { errorCode := some "history_unverifiable"
          errorMessage := some ("Whether the remote contains this task's full delivery range " ++
            "cannot be proven in the available history") }
      | .notAncestor =>
        match ancestor remoteTip headSha with
        | .unverifiable =>
          { errorCode := some "history_unverifiable"
            errorMessage :=
              some "Remote/head ancestry cannot be proven in the available history" }
        | .notAncestor =>
          { errorCode := some "remote_diverged"
            errorMessage := some ("The remote task branch and the local head have diverged; " ++
              "refusing to overwrite the remote branch") }
        | .ancestor => classifyStart ancestor remoteTip startRemote

/-! ### The Publisher -/

/-- Where `repo_delivery_publish` stands: the next command and the shell variables it needs.
    The lease is empty on the path that creates the branch. -/
inductive Stage where
  | start
  | observe
  | fetch (remoteTip : Sha)
  | localTip
  | classify (fetchedTip : Option Sha)
  | push (lease : Option Sha)
  | recheckTip (lease : Option Sha)
  | recheckFetch (lease : Option Sha) (tip : Sha)
  | recheckClassify (lease : Option Sha) (tip : Sha)
  | fail (remoteSha : Option Sha) (errorCode errorMessage : String)
  | confirm (status : PushStatus) (remoteSha : Option Sha)
  | clear
  | returned (status : Nat)
  deriving DecidableEq

/-- The recovery marker pending.json. -/
inductive Marker where
  | pending (headSha : Sha)
  | confirmed (headSha : Sha)
  deriving DecidableEq

def Marker.headSha : Marker → Sha
  | .pending headSha => headSha
  | .confirmed headSha => headSha

structure State where
  /-- The branch in the remote repository. -/
  remote : Option Sha
  /-- refs/remotes/codify-delivery of the publisher's own repository. -/
  tracking : Option Sha
  marker : Option Marker
  push : PushFacts := {}
  stage : Stage := .start
  /-- What the publisher was shown of the branch, each at the moment of the command. -/
  observed : List (Option Sha) := []
  deriving DecidableEq

/-- How far a file is written: `repo_delivery_install_snapshot` and the marker's writers fail
    before the rename or after it. -/
inductive FileWrite where
  | failed
  | unsealed
  | done
  deriving DecidableEq

inductive Label where
  /-- Another party moves, creates or deletes the branch. -/
  | remoteMoves (ref : Option Sha)
  /-- The snapshot is read and the local branch is checked. -/
  | begin_ (snapshot unchanged : Bool)
  /-- `repo_delivery_remote_tip`. -/
  | remoteTip (ok : Bool)
  /-- `repo_delivery_fetch_branch`. -/
  | fetchBranch (ok : Bool)
  /-- `repo_delivery_local_tip`. -/
  | localTip (ok : Bool)
  /-- `repo_delivery_classify`, with the answers of git. -/
  | classify (ok : Bool) (ancestor : Sha → Sha → Ancestry)
  /-- `repo_delivery_push_pinned`; without a reply the exit status is not zero. -/
  | pushPinned (marker : FileWrite) (reply : Bool)
  /-- `repo_delivery_record`. -/
  | record (write : FileWrite)
  /-- `repo_delivery_pending_confirmed_and_clear`. -/
  | clear (write : FileWrite)

def State.observe (s : State) : State := { s with observed := s.observed ++ [s.remote] }

/-! ### What Is Recorded as Failed -/

def branchChanged : Stage :=
  .fail none "branch_changed"
    ("The task branch moved or gained uncommitted changes during finalization; the pinned head " ++
      "was not published")

def remoteUnobserved : Stage :=
  .fail none "remote_unconfirmed"
    ("The remote task branch could not be observed (network or credentials); the delivery is " ++
      "not confirmed")

def remoteDeleted : Stage :=
  .fail none "remote_deleted"
    ("The remote task branch was deleted after this task started; refusing to recreate it " ++
      "automatically")

def remoteUnfetched (remoteTip : Sha) : Stage :=
  .fail (some remoteTip) "remote_unconfirmed"
    ("The remote task branch could not be fetched (network or credentials); the delivery is " ++
      "not confirmed")

/-- What follows `repo_delivery_recheck_publish`, by its exit status and
    `REPO_DELIVERY_RECHECK_TIP`. -/
def afterRecheck (lease : Option Sha) (recheckResult : Nat) (recheckTip : Option Sha) : Stage :=
  if recheckResult = 0 then .confirm .alreadyPresent recheckTip
  else
    match lease with
    | none =>
      .fail none "push_failed"
        "The remote task branch could not be created; the pinned head was not published"
    | some fetchedTip =>
      if recheckResult = 2 ∨ recheckTip = none then
        .fail none "remote_unconfirmed"
          ("The push result could not be confirmed (network or credentials); the delivery is " ++
            "not confirmed")
      else if recheckTip = some fetchedTip then
        .fail (some fetchedTip) "push_failed"
          "The remote rejected the push of the pinned head; the delivery is not confirmed"
      else
        .fail (some fetchedTip) "remote_changed"
          ("The remote task branch changed between verification and push; the pinned head was " ++
            "not published")

section Publisher

variable (headSha : Sha) (startRemote : Option Sha)

def State.begin_ (s : State) (snapshot unchanged : Bool) : Option State :=
  match s.stage with
  | .start =>
    if !snapshot then some { s with stage := .returned 1 }
    else if !unchanged then some { s with stage := branchChanged }
    else some { s with stage := .observe }
  | _ => none

def State.remoteTip (s : State) (ok : Bool) : Option State :=
  match s.stage with
  | .observe =>
    if !ok then some { s with stage := remoteUnobserved }
    else
      match s.remote with
      | none =>
        if startRemote.isSome then some { s.observe with stage := remoteDeleted }
        else some { s.observe with stage := .push none }
      | some remoteTip => some { s.observe with stage := .fetch remoteTip }
  | .recheckTip lease =>
    if !ok then some { s with stage := afterRecheck lease 2 none }
    else
      match s.remote with
      | none => some { s.observe with stage := afterRecheck lease 1 none }
      | some tip =>
        if tip = headSha then some { s.observe with stage := afterRecheck lease 0 (some tip) }
        else some { s.observe with stage := .recheckFetch lease tip }
  | _ => none

/-- A branch that is not there cannot be fetched. -/
def State.fetchBranch (s : State) (ok : Bool) : Option State :=
  match s.stage with
  | .fetch remoteTip =>
    if ok && s.remote.isSome then
      some { s.observe with tracking := s.remote, stage := .localTip }
    else some { s with stage := remoteUnfetched remoteTip }
  | .recheckFetch lease tip =>
    if ok && s.remote.isSome then
      some { s.observe with tracking := s.remote, stage := .recheckClassify lease tip }
    else some { s with stage := afterRecheck lease 1 (some tip) }
  | _ => none

def State.localTip (s : State) (ok : Bool) : Option State :=
  match s.stage with
  | .localTip => some { s with stage := .classify (if ok then s.tracking else none) }
  | _ => none

/-- What the publisher does with a decision about the fetched tip. -/
def afterClassify (fetchedTip : Option Sha) : Option Decision → Stage
  | none =>
    .fail fetchedTip "remote_unconfirmed" "Remote delivery reconciliation could not be completed"
  | some decision =>
    match decision.decision with
    | .alreadyPresent => .confirm .alreadyPresent fetchedTip
    | .push => .push fetchedTip
    | .failed =>
      .fail fetchedTip (decision.errorCode.getD "remote_diverged")
        (decision.errorMessage.getD "Remote reconciliation failed")

def State.classify (s : State) (ok : Bool) (ancestor : Sha → Sha → Ancestry) : Option State :=
  match s.stage with
  | .classify fetchedTip =>
    let decision := if ok then classifyRemote ancestor headSha fetchedTip startRemote else none
    some { s with stage := afterClassify fetchedTip decision }
  | .recheckClassify lease tip =>
    match if ok then classifyRemote ancestor headSha (some tip) startRemote else none with
    | none => some { s with stage := afterRecheck lease 2 none }
    | some decision =>
      if decision.decision = .alreadyPresent then
        some { s with stage := afterRecheck lease 0 (some tip) }
      else some { s with stage := afterRecheck lease 1 (some tip) }
  | _ => none

/-- The push moves the branch exactly when it is the lease. -/
def State.pushPinned (s : State) (marker : FileWrite) (reply : Bool) : Option State :=
  match s.stage with
  | .push lease =>
    match marker with
    | .failed => some { s with stage := .recheckTip lease }
    | .unsealed =>
      some { s with marker := some (.pending headSha), stage := .recheckTip lease }
    | .done =>
      let written := { s with marker := some (.pending headSha) }
      if s.remote = lease then
        let pushed := { written with remote := some headSha }
        if reply then some { pushed.observe with stage := .confirm .pushed (some headSha) }
        else some { pushed with stage := .recheckTip lease }
      else some { written with stage := .recheckTip lease }
  | _ => none

def State.record (s : State) (write : FileWrite) : Option State :=
  match s.stage with
  | .fail remoteSha errorCode errorMessage =>
    match recordPush .failed remoteSha errorCode errorMessage with
    | none => some { s with stage := .returned 1 }
    | some push =>
      if write = .failed then some { s with stage := .returned 1 }
      else some { s with push, stage := .returned 1 }
  | .confirm status remoteSha =>
    match recordPush status remoteSha "" "" with
    | none => some { s with stage := .returned 1 }
    | some push =>
      match write with
      | .failed => some { s with stage := .returned 1 }
      | .unsealed => some { s with push, stage := .returned 1 }
      | .done => some { s with push, stage := .clear }
  | _ => none

def State.clear (s : State) (write : FileWrite) : Option State :=
  match s.stage with
  | .clear =>
    match s.marker with
    | none => some { s with stage := .returned 0 }
    | some marker =>
      match write with
      | .failed => some { s with stage := .returned 1 }
      | .unsealed =>
        some { s with marker := some (.confirmed marker.headSha), stage := .returned 1 }
      | .done => some { s with marker := none, stage := .returned 0 }
  | _ => none

def step (s : State) : Label → Option State
  | .remoteMoves ref => some { s with remote := ref }
  | .begin_ snapshot unchanged => s.begin_ snapshot unchanged
  | .remoteTip ok => s.remoteTip headSha startRemote ok
  | .fetchBranch ok => s.fetchBranch ok
  | .localTip ok => s.localTip ok
  | .classify ok ancestor => s.classify headSha startRemote ok ancestor
  | .pushPinned marker reply => s.pushPinned headSha marker reply
  | .record write => s.record write
  | .clear write => s.clear write

/-- The publisher among other parties, from any remote branch and any marker. -/
def publish : System State Label where
  init s := s.stage = .start ∧ s.push = {} ∧ s.observed = []
  next := step headSha startRemote

end Publisher

/-- The answers of git are true or say that they cannot tell. -/
def Honest : Prop := ∀ a d,
  (ancestor a d = .ancestor → g.Ancestor a d) ∧ (ancestor a d = .notAncestor → ¬ g.Ancestor a d)

/-- The ancestry queries of a run are truthful or unverifiable. -/
def Truthful : State → Label → Prop
  | _, .classify _ ancestor => Honest g ancestor
  | _, _ => True

/-! ### The Decision Is Right -/

variable {g : CommitGraph Sha} {ancestor : Sha → Sha → Ancestry} {headSha : Sha}
  {startRemote : Option Sha} {s s' : State} {l : Label}

/-- What a decision about `tip` says of the graph; a refusal names its error. -/
def Decision.Sound (g : CommitGraph Sha) (headSha tip : Sha) (decision : Decision) : Prop :=
  match decision.decision with
  | .alreadyPresent => g.Ancestor headSha tip
  | .push => g.Ancestor tip headSha ∧ ¬ g.Ancestor headSha tip
  | .failed => ∃ code message, decision.errorCode = some code ∧
      decision.errorMessage = some message ∧ code ∈ errorCodes ∧ message ≠ ""

variable {tip : Sha} {observed : List (Option Sha)} {push : PushFacts} {ok : Bool}
  {write : FileWrite}

theorem classifyStart_sound (hff : g.Ancestor tip headSha)
    (hnew : ¬ g.Ancestor headSha tip) :
    Decision.Sound g headSha tip (classifyStart ancestor tip startRemote) := by
  unfold classifyStart
  cases startRemote with
  | none => exact ⟨hff, hnew⟩
  | some start =>
    simp only
    by_cases hsame : start = tip
    · rw [if_pos hsame]
      exact ⟨hff, hnew⟩
    · rw [if_neg hsame]
      cases ancestor start tip with
      | ancestor => exact ⟨hff, hnew⟩
      | unverifiable => exact ⟨_, _, rfl, rfl, by decide, by decide⟩
      | notAncestor =>
        refine ⟨_, _, rfl, rfl, ?_, by decide⟩
        split
        · decide
        · decide

theorem classifyRemote_sound (h : Honest g ancestor) {remoteTip : Option Sha}
    {decision : Decision}
    (hdecision : classifyRemote ancestor headSha remoteTip startRemote = some decision) :
    ∃ tip, remoteTip = some tip ∧ Decision.Sound g headSha tip decision := by
  obtain ⟨tip, rfl, rfl⟩ := map_eq_some_iff.mp hdecision
  refine ⟨tip, rfl, ?_⟩
  by_cases hhead : tip = headSha
  · rw [if_pos hhead, hhead]
    exact CommitGraph.Ancestor.refl headSha
  · rw [if_neg hhead]
    cases hpresent : ancestor headSha tip with
    | ancestor => exact (h headSha tip).1 hpresent
    | unverifiable => exact ⟨_, _, rfl, rfl, by decide, by decide⟩
    | notAncestor =>
      cases hbehind : ancestor tip headSha with
      | unverifiable => exact ⟨_, _, rfl, rfl, by decide, by decide⟩
      | notAncestor => exact ⟨_, _, rfl, rfl, by decide, by decide⟩
      | ancestor =>
        have hff := (h tip headSha).1 hbehind
        have hnew := (h headSha tip).2 hpresent
        exact classifyStart_sound hff hnew

/-! ### What the Publisher Knows -/

/-- At some instant the publisher was shown a branch that contained the head. -/
def Shown (g : CommitGraph Sha) (headSha : Sha) (observed : List (Option Sha)) : Prop :=
  ∃ ref ∈ observed, g.Contains ref headSha

def Known (g : CommitGraph Sha) (headSha : Sha) (startRemote : Option Sha)
    (observed : List (Option Sha)) (tracking : Option Sha) (push : PushFacts) : Stage → Prop
  | .localTip => tracking ∈ observed
  | .classify fetchedTip => ∀ tip, fetchedTip = some tip → some tip ∈ observed
  | .push none => startRemote = none
  | .push (some lease) => g.Ancestor lease headSha ∧ ¬ g.Ancestor headSha lease
  | .recheckFetch _ tip => some tip ∈ observed
  | .recheckClassify _ tip => some tip ∈ observed
  | .fail _ errorCode errorMessage => errorCode ∈ errorCodes ∧ errorMessage ≠ ""
  | .confirm status _ => status.confirmed = true ∧ Shown g headSha observed
  | .clear => push.status.confirmed = true
  | .returned 0 => push.status.confirmed = true
  | _ => True

/-- The invariant of every interleaving. -/
structure Inv (g : CommitGraph Sha) (headSha : Sha) (startRemote : Option Sha) (s : State) :
    Prop where
  known : Known g headSha startRemote s.observed s.tracking s.push s.stage
  shown : s.push.status.confirmed = true → Shown g headSha s.observed

theorem Shown.observe (h : Shown g headSha s.observed) : Shown g headSha s.observe.observed := by
  obtain ⟨ref, hmem, hcontains⟩ := h
  exact ⟨ref, mem_append_left _ hmem, hcontains⟩

theorem remote_mem_observe (s : State) : s.remote ∈ s.observe.observed :=
  mem_append_right _ mem_cons_self

theorem shown_of_ancestor (hmem : some tip ∈ observed)
    (h : g.Ancestor headSha tip) : Shown g headSha observed :=
  ⟨some tip, hmem, h.contains⟩

/-- A recheck confirms only what contained the head, and every other result is an error. -/
theorem inv_afterRecheck (lease : Option Sha) (recheckResult : Nat) (recheckTip : Option Sha)
    (hshown : s.push.status.confirmed = true → Shown g headSha s.observed)
    (h : recheckResult = 0 → Shown g headSha s.observed) :
    Inv g headSha startRemote { s with stage := afterRecheck lease recheckResult recheckTip } := by
  refine ⟨?_, hshown⟩
  unfold afterRecheck
  by_cases hzero : recheckResult = 0
  · rw [if_pos hzero]
    exact ⟨rfl, h hzero⟩
  · rw [if_neg hzero]
    cases lease with
    | none => exact ⟨by decide, by decide⟩
    | some fetchedTip =>
      simp only
      split
      · exact ⟨by decide, by decide⟩
      · split
        · exact ⟨by decide, by decide⟩
        · exact ⟨by decide, by decide⟩

theorem known_afterClassify {tracking : Option Sha}
    {fetchedTip : Option Sha} {decision : Option Decision}
    (hseen : ∀ tip, fetchedTip = some tip → some tip ∈ observed)
    (hsound : ∀ d, decision = some d →
      ∃ tip, fetchedTip = some tip ∧ Decision.Sound g headSha tip d) :
    Known g headSha startRemote observed tracking push (afterClassify fetchedTip decision) := by
  cases decision with
  | none => exact ⟨by decide, by decide⟩
  | some d =>
    obtain ⟨tip, rfl, hd⟩ := hsound d rfl
    unfold Decision.Sound at hd
    simp only [afterClassify]
    cases htype : d.decision with
    | alreadyPresent =>
      rw [htype] at hd
      exact ⟨rfl, shown_of_ancestor (hseen tip rfl) hd⟩
    | push =>
      rw [htype] at hd
      exact hd
    | failed =>
      rw [htype] at hd
      obtain ⟨code, message, hcode, hmessage, hknown, hne⟩ := hd
      rw [hcode, hmessage]
      exact ⟨hknown, hne⟩

/-! ### One Step -/

theorem inv_begin_ {snapshot unchanged : Bool} (hinv : Inv g headSha startRemote s)
    (h : s.begin_ snapshot unchanged = some s') : Inv g headSha startRemote s' := by
  unfold State.begin_ at h
  split at h
  · split at h
    · cases h
      exact ⟨trivial, hinv.shown⟩
    · split at h
      · cases h
        exact ⟨⟨by decide, by decide⟩, hinv.shown⟩
      · cases h
        exact ⟨trivial, hinv.shown⟩
  · cases h

theorem inv_remoteTip (hinv : Inv g headSha startRemote s)
    (h : s.remoteTip headSha startRemote ok = some s') : Inv g headSha startRemote s' := by
  have hshown : s.push.status.confirmed = true → Shown g headSha s.observe.observed :=
    fun hc => (hinv.shown hc).observe
  unfold State.remoteTip at h
  split at h
  · split at h
    · cases h
      exact ⟨⟨by decide, by decide⟩, hinv.shown⟩
    · split at h
      · -- the branch is absent: it is created only if it was absent at start
        split at h
        · cases h
          exact ⟨⟨by decide, by decide⟩, hshown⟩
        next hstart =>
        cases h
        exact ⟨by simpa [Known] using hstart, hshown⟩
      · cases h
        exact ⟨trivial, hshown⟩
  · split at h
    · cases h
      exact inv_afterRecheck _ 2 none hinv.shown (by simp)
    · have hmem := remote_mem_observe s
      split at h
      · cases h
        exact inv_afterRecheck (s := s.observe) _ 1 none hshown (by simp)
      next tip htip =>
      rw [htip] at hmem
      split at h
      · next hhead =>
        cases h
        rw [hhead] at hmem
        refine inv_afterRecheck (s := s.observe) _ 0 (some tip) hshown fun _ => ?_
        exact shown_of_ancestor hmem (CommitGraph.Ancestor.refl headSha)
      · cases h
        exact ⟨hmem, hshown⟩
  · cases h

theorem inv_fetchBranch (hinv : Inv g headSha startRemote s)
    (h : s.fetchBranch ok = some s') : Inv g headSha startRemote s' := by
  have hshown : s.push.status.confirmed = true → Shown g headSha s.observe.observed :=
    fun hc => (hinv.shown hc).observe
  have hknown := hinv.known
  unfold State.fetchBranch at h
  split at h
  · split at h
    · cases h
      exact ⟨remote_mem_observe s, hshown⟩
    · cases h
      exact ⟨⟨by decide, by decide⟩, hinv.shown⟩
  · next hstage =>
    rw [hstage] at hknown
    split at h
    · cases h
      exact ⟨mem_append_left _ hknown, hshown⟩
    · cases h
      exact inv_afterRecheck _ 1 _ hinv.shown (by simp)
  · cases h

theorem inv_localTip (hinv : Inv g headSha startRemote s)
    (h : s.localTip ok = some s') : Inv g headSha startRemote s' := by
  have hknown := hinv.known
  unfold State.localTip at h
  split at h
  · next hstage =>
    rw [hstage] at hknown
    cases h
    refine ⟨?_, hinv.shown⟩
    intro tip htip
    cases ok with
    | true => exact htip ▸ hknown
    | false => cases htip
  · cases h

theorem inv_classify (hhonest : Honest g ancestor)
    (hinv : Inv g headSha startRemote s)
    (h : s.classify headSha startRemote ok ancestor = some s') :
    Inv g headSha startRemote s' := by
  have hknown := hinv.known
  have hsound : ∀ {remoteTip : Option Sha} d,
      (if ok then classifyRemote ancestor headSha remoteTip startRemote else none) = some d →
      ∃ tip, remoteTip = some tip ∧ Decision.Sound g headSha tip d := by
    intro remoteTip d hd
    cases ok with
    | true => exact classifyRemote_sound hhonest hd
    | false => cases hd
  unfold State.classify at h
  split at h
  · next hstage =>
    rw [hstage] at hknown
    cases h
    exact ⟨known_afterClassify hknown hsound, hinv.shown⟩
  · next lease tip hstage =>
    rw [hstage] at hknown
    split at h
    · cases h
      exact inv_afterRecheck lease 2 none hinv.shown (by simp)
    next d hd =>
    obtain ⟨tip', htip, hdecision⟩ := hsound d hd
    cases htip
    split at h
    · next htype =>
      cases h
      unfold Decision.Sound at hdecision
      rw [htype] at hdecision
      exact inv_afterRecheck lease 0 (some tip) hinv.shown
        fun _ => shown_of_ancestor hknown hdecision
    · cases h
      exact inv_afterRecheck lease 1 (some tip) hinv.shown (by simp)
  · cases h

theorem inv_pushPinned {marker : FileWrite} {reply : Bool} (hinv : Inv g headSha startRemote s)
    (h : s.pushPinned headSha marker reply = some s') : Inv g headSha startRemote s' := by
  unfold State.pushPinned at h
  split at h
  · split at h
    · cases h
      exact ⟨trivial, hinv.shown⟩
    · cases h
      exact ⟨trivial, hinv.shown⟩
    · simp only at h
      split at h
      · split at h
        · cases h
          have hshown : Shown g headSha (s.observed ++ [some headSha]) :=
            shown_of_ancestor (mem_append_right _ mem_cons_self) (CommitGraph.Ancestor.refl headSha)
          exact ⟨⟨rfl, hshown⟩, fun _ => hshown⟩
        · cases h
          exact ⟨trivial, hinv.shown⟩
      · cases h
        exact ⟨trivial, hinv.shown⟩
  · cases h

theorem recordPush_status {status : PushStatus} {remoteSha : Option Sha} {code message : String}
    (h : recordPush status remoteSha code message = some push) :
    push.status = status := by
  unfold recordPush at h
  split at h
  · exact some.inj h ▸ rfl
  · split at h
    · cases h
    · split at h
      · cases h
      · exact some.inj h ▸ rfl

theorem inv_record (hinv : Inv g headSha startRemote s)
    (h : s.record write = some s') : Inv g headSha startRemote s' := by
  have hknown := hinv.known
  unfold State.record at h
  split at h
  · split at h
    · cases h
      exact ⟨trivial, hinv.shown⟩
    · next push hpush =>
      split at h
      · cases h
        exact ⟨trivial, hinv.shown⟩
      · cases h
        refine ⟨trivial, fun hc => ?_⟩
        rw [recordPush_status hpush] at hc
        cases hc
  · next status remoteSha hstage =>
    rw [hstage] at hknown
    split at h
    · cases h
      exact ⟨trivial, hinv.shown⟩
    next push hpush =>
    have hconfirmed : push.status.confirmed = true := by
      rw [recordPush_status hpush]
      exact hknown.1
    split at h
    · cases h
      exact ⟨trivial, hinv.shown⟩
    · cases h
      exact ⟨trivial, fun _ => hknown.2⟩
    · cases h
      exact ⟨hconfirmed, fun _ => hknown.2⟩
  · cases h

theorem inv_clear (hinv : Inv g headSha startRemote s)
    (h : s.clear write = some s') : Inv g headSha startRemote s' := by
  have hknown := hinv.known
  unfold State.clear at h
  split at h
  · next hstage =>
    rw [hstage] at hknown
    split at h
    · cases h
      exact ⟨hknown, hinv.shown⟩
    · split at h
      · cases h
        exact ⟨trivial, hinv.shown⟩
      · cases h
        exact ⟨trivial, hinv.shown⟩
      · cases h
        exact ⟨hknown, hinv.shown⟩
  · cases h

/-- **The step**: every command and every move of the branch keeps the invariant. -/
theorem inv_step (hinv : Inv g headSha startRemote s) (hl : Truthful g s l)
    (h : step headSha startRemote s l = some s') : Inv g headSha startRemote s' := by
  cases l with
  | remoteMoves ref =>
    cases h
    exact ⟨hinv.known, hinv.shown⟩
  | begin_ snapshot unchanged => exact inv_begin_ hinv h
  | remoteTip ok => exact inv_remoteTip hinv h
  | fetchBranch ok => exact inv_fetchBranch hinv h
  | localTip ok => exact inv_localTip hinv h
  | classify ok ancestor => exact inv_classify hl hinv h
  | pushPinned marker reply => exact inv_pushPinned hinv h
  | record write => exact inv_record hinv h
  | clear write => exact inv_clear hinv h

/-- **The run**: the invariant holds at every interleaving. -/
theorem inv_reachable (hs : (publish headSha startRemote).Reachable (Truthful g) s) :
    Inv g headSha startRemote s := by
  refine hs.invariant ?_ fun _ _ _ hinv hl h => inv_step hinv hl h
  rintro s ⟨hstage, hpush, -⟩
  constructor
  · rw [hstage]
    trivial
  · intro hc
    rw [hpush] at hc
    cases hc

/-! ### The Branch -/

/-- The push goes through: the branch is the lease. -/
def PushSucceeds (s : State) (l : Label) : Prop :=
  ∃ lease reply, s.stage = .push lease ∧ l = .pushPinned .done reply ∧ s.remote = lease

/-- Only a push that succeeds moves the remote. -/
theorem remote_of_not_pushSucceeds (h : step headSha startRemote s l = some s')
    (hl : ∀ ref, l ≠ .remoteMoves ref) (hpush : ¬ PushSucceeds s l) : s'.remote = s.remote := by
  cases l with
  | remoteMoves ref => exact absurd rfl (hl ref)
  | begin_ snapshot unchanged =>
    simp only [step, State.begin_] at h
    grind
  | remoteTip ok =>
    simp only [step, State.remoteTip] at h
    grind [State.observe]
  | fetchBranch ok =>
    simp only [step, State.fetchBranch] at h
    grind [State.observe]
  | localTip ok =>
    simp only [step, State.localTip] at h
    grind
  | classify ok ancestor =>
    simp only [step, State.classify] at h
    grind
  | pushPinned marker reply =>
    simp only [step, State.pushPinned] at h
    split at h
    · next lease hstage =>
      split at h
      · cases h
        rfl
      · cases h
        rfl
      · split at h
        · next hlease => exact absurd ⟨lease, reply, hstage, rfl, hlease⟩ hpush
        · cases h
          rfl
    · cases h
  | record write =>
    simp only [step, State.record] at h
    grind
  | clear write =>
    simp only [step, State.clear] at h
    grind

theorem remote_of_pushSucceeds (h : step headSha startRemote s l = some s')
    (hpush : PushSucceeds s l) : s'.remote = some headSha := by
  obtain ⟨lease, reply, hstage, rfl, hlease⟩ := hpush
  simp only [step, State.pushPinned, hstage] at h
  rw [if_pos hlease] at h
  split at h
  · exact some.inj h ▸ rfl
  · exact some.inj h ▸ rfl

/-- A push that goes through is a fast-forward to the head, or creates a branch that was absent
    at the start of the task too. -/
def ForwardPush (g : CommitGraph Sha) (headSha : Sha) (startRemote old new : Option Sha) : Prop :=
  new = some headSha ∧
    ((∃ tip, old = some tip ∧ g.Ancestor tip headSha ∧ ¬ g.Ancestor headSha tip) ∨
      (old = none ∧ startRemote = none))

theorem ForwardPush.keepsHistory {old new : Option Sha}
    (h : ForwardPush g headSha startRemote old new) : g.KeepsHistory old new := by
  obtain ⟨rfl, ⟨tip, rfl, hff, -⟩ | ⟨rfl, -⟩⟩ := h
  · exact CommitGraph.keepsHistory_of_ancestor hff
  · exact CommitGraph.keepsHistory_none _

theorem forwardPush_of_pushSucceeds (hinv : Inv g headSha startRemote s)
    (h : step headSha startRemote s l = some s') (hpush : PushSucceeds s l) :
    ForwardPush g headSha startRemote s.remote s'.remote := by
  have hremote := remote_of_pushSucceeds h hpush
  obtain ⟨lease, reply, hstage, -, hlease⟩ := hpush
  have hknown := hinv.known
  rw [hstage] at hknown
  refine ⟨hremote, ?_⟩
  rw [hlease]
  cases lease with
  | none => exact Or.inr ⟨rfl, hknown⟩
  | some tip => exact Or.inl ⟨tip, rfl, hknown.1, hknown.2⟩

/-- **Publishing never loses remote work**: on every commit graph and at every interleaving,
    a command of the publisher moves the branch only by a push whose lease is the branch, that
    push is a fast-forward or creates a branch that was absent at the start too, no commit is
    lost and no deleted branch is recreated; and a delivery is recorded as pushed or already
    present only after the publisher was shown a branch that contained the head. -/
theorem publish_never_loses_remote_work (g : CommitGraph Sha) (headSha : Sha)
    (startRemote : Option Sha) {s : State}
    (hs : (publish headSha startRemote).Reachable (Truthful g) s) :
    (∀ l s', Truthful g s l → step headSha startRemote s l = some s' →
      (∀ ref, l ≠ .remoteMoves ref) →
      (PushSucceeds s l → ForwardPush g headSha startRemote s.remote s'.remote) ∧
      (¬ PushSucceeds s l → s'.remote = s.remote) ∧
      g.KeepsHistory s.remote s'.remote ∧
      (startRemote ≠ none → s.remote = none → s'.remote = none)) ∧
    (s.push.status.confirmed = true → Shown g headSha s.observed) := by
  have hinv := inv_reachable hs
  refine ⟨?_, hinv.shown⟩
  intro l s' _ h hl
  have hforward : PushSucceeds s l → ForwardPush g headSha startRemote s.remote s'.remote :=
    forwardPush_of_pushSucceeds hinv h
  have hframe : ¬ PushSucceeds s l → s'.remote = s.remote := remote_of_not_pushSucceeds h hl
  refine ⟨hforward, hframe, ?_, ?_⟩
  · by_cases hpush : PushSucceeds s l
    · exact (hforward hpush).keepsHistory
    · rw [hframe hpush]
      exact fun c hc => hc
  · intro hstart habsent
    by_cases hpush : PushSucceeds s l
    · rcases (hforward hpush).2 with ⟨tip, htip, -⟩ | ⟨-, hnone⟩
      · rw [habsent] at htip
        cases htip
      · exact absurd hnone hstart
    · rw [hframe hpush, habsent]

/-! ### A Push Without a Reply -/

def sampleTip : Sha := ⟨"aaaaaaaaaaaaaaaaaaaaaaaaaaaaaaaaaaaaaaaa", by decide⟩

def sampleHead : Sha := ⟨"bbbbbbbbbbbbbbbbbbbbbbbbbbbbbbbbbbbbbbbb", by decide⟩

def sampleGraph : CommitGraph Sha := ⟨fun c => if c = sampleHead then [sampleTip] else []⟩

/-- A shallow repository: only the two relations that it can prove. -/
def sampleAncestor (a d : Sha) : Ancestry :=
  if a = sampleTip ∧ d = sampleHead then .ancestor
  else if a = sampleHead ∧ d = sampleTip then .notAncestor
  else .unverifiable

theorem sampleAncestor_honest : Honest sampleGraph sampleAncestor := by
  intro a d
  constructor
  · intro h
    have hpair : a = sampleTip ∧ d = sampleHead := by
      by_contra hne
      rw [sampleAncestor, if_neg hne] at h
      split at h
      · cases h
      · cases h
    obtain ⟨rfl, rfl⟩ := hpair
    exact CommitGraph.ancestor_of_parent (by decide)
  · intro h hanc
    have hpair : a = sampleHead ∧ d = sampleTip := by
      by_contra hne
      unfold sampleAncestor at h
      split at h
      · cases h
      · cases h
    obtain ⟨rfl, rfl⟩ := hpair
    rcases Relation.ReflTransGen.cases_tail hanc with heq | ⟨c, -, hc⟩
    · exact absurd heq (by decide)
    · exact absurd (show c ∈ ([] : List Sha) from hc) not_mem_nil

/-- The push lands but its reply is lost; the recheck finds the head. -/
def sampleSchedule : List Label :=
  [.begin_ true true, .remoteTip true, .fetchBranch true, .localTip true,
    .classify true sampleAncestor, .pushPinned .done false, .remoteTip true, .record .done,
    .clear .done]

theorem push_recovered :
    ∃ s, (publish sampleHead (some sampleTip)).Reachable (Truthful sampleGraph) s ∧
      s.stage = .returned 0 ∧ s.push.status = .alreadyPresent ∧ s.remote = some sampleHead ∧
      Shown sampleGraph sampleHead s.observed := by
  let start : State := { remote := some sampleTip, tracking := none, marker := none }
  have hguard : ∀ l ∈ sampleSchedule, ∀ s, Truthful sampleGraph s l := by
    intro l hl s
    cases l with
    | classify ok ancestor =>
      have hsame : ok = true ∧ ancestor = sampleAncestor := by simpa [sampleSchedule] using hl
      rw [hsame.2]
      exact sampleAncestor_honest
    | _ => trivial
  have hs := show (publish sampleHead (some sampleTip)).exec start sampleSchedule = some _ from rfl
  have hreach : (publish sampleHead (some sampleTip)).Reachable (Truthful sampleGraph) _ :=
    ⟨start, ⟨rfl, rfl, rfl⟩, System.guarded_run_of_exec hguard hs⟩
  refine ⟨_, hreach, rfl, rfl, rfl, ?_⟩
  apply (publish_never_loses_remote_work sampleGraph sampleHead (some sampleTip) hreach).2
  rfl

end Codify.Worker.GitDelivery
