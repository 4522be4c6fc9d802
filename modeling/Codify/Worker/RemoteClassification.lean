import Codify.Worker.GitDelivery

/-! # Classifying the Remote

    `cmd_classify_remote` (deploy/worker-entrypoint/git-delivery.py) by itself, for any
    text as the tip at task start. Git resolves a revision to a commit or to nothing,
    and answers 0 and 1 only when both revisions are commits (`Honest`).

    * **Publisher**: for full SHAs it is the decision of the publisher
      (`cmdClassifyRemote_full`).
    * **Result**: `classify_remote_sound`.
-/

namespace Codify.Worker.RemoteClassification

open Codify.Framework Option GitDelivery
open Codify.Worker.GitDelivery (Ancestry Decision DecisionType Sha validFullSha classifyRemote
  classifyStart)

/-! ### The Command -/

/-- A decision that leaves the remote alone. -/
def refuse (errorCode errorMessage : String) : Decision :=
  { errorCode := some errorCode, errorMessage := some errorMessage }

def headUnverifiable : Decision :=
  refuse "history_unverifiable"
    ("Whether the remote contains this task's full delivery range " ++
      "cannot be proven in the available history")

def remoteUnverifiable : Decision :=
  refuse "history_unverifiable" "Remote/head ancestry cannot be proven in the available history"

def remoteDiverged : Decision :=
  refuse "remote_diverged"
    ("The remote task branch and the local head have diverged; " ++
      "refusing to overwrite the remote branch")

def startUnverifiable : Decision :=
  refuse "history_unverifiable"
    ("Whether the remote preserved the task-start tip cannot be " ++
      "proven in the available history")

/-- The tip at task start is gone; `rewound` is whether the remote is one of its ancestors. -/
def startLost (rewound : Ancestry) : Decision :=
  refuse (if rewound = .ancestor then "remote_rewound" else "remote_diverged")
    ("The remote task branch lost the task-start tip (rewound or " ++
      "replaced); refusing to restore it automatically")

section Command

variable (ancestor : String → String → Ancestry)

def checkStart (remoteTip startRemote : String) : Decision :=
  match ancestor startRemote remoteTip with
  | .unverifiable => startUnverifiable
  | .notAncestor => startLost (ancestor remoteTip startRemote)
  | .ancestor => { decision := .push }

/-- `args.start_remote or None`. -/
def given (startRemote : Option String) : Option String := startRemote.filter (· ≠ "")

def classify (headSha remoteTip : String) (startRemote : Option String) : Decision :=
  if remoteTip = headSha then { decision := .alreadyPresent }
  else
    match ancestor headSha remoteTip with
    | .ancestor => { decision := .alreadyPresent }
    | .unverifiable => headUnverifiable
    | .notAncestor =>
      match ancestor remoteTip headSha with
      | .unverifiable => remoteUnverifiable
      | .notAncestor => remoteDiverged
      | .ancestor =>
        match (given startRemote).filter (· ≠ remoteTip) with
        | none => { decision := .push }
        | some startRemote => checkStart ancestor remoteTip startRemote

/-- `cmd_classify_remote`; `none` for the ValueError. -/
def cmdClassifyRemote (headSha remoteTip : String) (startRemote : Option String) :
    Option Decision :=
  if !validFullSha headSha || !validFullSha remoteTip then none
  else some (classify ancestor headSha remoteTip startRemote)

end Command

/-! ### History -/

def StrictAncestor (g : CommitGraph Sha) (a d : Sha) : Prop := g.Ancestor a d ∧ a ≠ d

/-- `git merge-base --is-ancestor` answers truthfully about the commits that its revisions name;
    a full SHA names no other commit. -/
structure Honest (g : CommitGraph Sha) (resolve : String → Option Sha)
    (ancestor : String → String → Ancestry) : Prop where
  full : ∀ sha : Sha, ∀ commit, resolve sha.value = some commit → commit = sha
  proven : ∀ a d, ancestor a d = .ancestor →
    ∃ c c', resolve a = some c ∧ resolve d = some c' ∧ g.Ancestor c c'
  refuted : ∀ a d, ancestor a d = .notAncestor →
    ∃ c c', resolve a = some c ∧ resolve d = some c' ∧ ¬ g.Ancestor c c'

/-- What a decision says about the history. -/
structure Sound (g : CommitGraph Sha) (resolve : String → Option Sha)
    (ancestor : String → String → Ancestry) (headSha remoteTip : Sha)
    (startRemote : Option String) (decision : Decision) : Prop where
  present : decision.decision = .alreadyPresent ↔
    headSha = remoteTip ∨ ancestor headSha.value remoteTip.value = .ancestor
  contained : decision.decision = .alreadyPresent → g.Ancestor headSha remoteTip
  push : decision.decision = .push →
    ancestor remoteTip.value headSha.value = .ancestor ∧ StrictAncestor g remoteTip headSha
  start : decision.decision = .push → ∀ start, given startRemote = some start →
    start = remoteTip.value ∨ ancestor start remoteTip.value = .ancestor ∧
      ∃ commit, resolve start = some commit ∧ g.Ancestor commit remoteTip
  rewound : decision.errorCode = some "remote_rewound" →
    ∃ start commit, given startRemote = some start ∧ resolve start = some commit ∧
      StrictAncestor g remoteTip commit
  verified : headSha ≠ remoteTip → ancestor headSha.value remoteTip.value = .unverifiable →
    decision.decision = .failed
  pushVerified : decision.decision = .push →
    ancestor headSha.value remoteTip.value ≠ .unverifiable ∧
      ancestor remoteTip.value headSha.value ≠ .unverifiable ∧
      ∀ start, given startRemote = some start → start ≠ remoteTip.value →
        ancestor start remoteTip.value ≠ .unverifiable

variable {g : CommitGraph Sha} {resolve : String → Option Sha}
  {ancestor : String → String → Ancestry} {headSha remoteTip : Sha} {startRemote : Option String}
  {start : String}

theorem sha_ext {a b : Sha} (h : a.value = b.value) : a = b := by
  cases a
  cases b
  cases h
  rfl

theorem value_ne_empty (sha : Sha) : sha.value ≠ "" := by
  intro hempty
  have hfull := sha.full
  rw [hempty] at hfull
  exact absurd hfull (by decide)

theorem Honest.ancestor_full (h : Honest g resolve ancestor) {a d : Sha}
    (hanc : ancestor a.value d.value = .ancestor) : g.Ancestor a d := by
  obtain ⟨c, c', hc, hc', hanc⟩ := h.proven _ _ hanc
  rw [h.full a c hc, h.full d c' hc'] at hanc
  exact hanc

theorem Honest.ancestor_of (h : Honest g resolve ancestor) {d : Sha}
    (hanc : ancestor start d.value = .ancestor) :
    ∃ commit, resolve start = some commit ∧ g.Ancestor commit d := by
  obtain ⟨c, c', hc, hc', hanc⟩ := h.proven _ _ hanc
  rw [h.full d c' hc'] at hanc
  exact ⟨c, hc, hanc⟩

theorem Honest.rewound (h : Honest g resolve ancestor)
    (hlost : ancestor start remoteTip.value = .notAncestor)
    (hbelow : ancestor remoteTip.value start = .ancestor) :
    ∃ commit, resolve start = some commit ∧ StrictAncestor g remoteTip commit := by
  obtain ⟨c, tip, hc, htip, hnot⟩ := h.refuted _ _ hlost
  obtain ⟨tip', c', htip', hc', hanc⟩ := h.proven _ _ hbelow
  have hsame : c' = c := some.inj (hc'.symm.trans hc)
  rw [h.full remoteTip tip htip] at hnot
  rw [h.full remoteTip tip' htip', hsame] at hanc
  refine ⟨c, hc, hanc, ?_⟩
  rintro rfl
  exact hnot (.refl _)

/-! ### Decisions -/

theorem sound_present (h : headSha = remoteTip ∨ ancestor headSha.value remoteTip.value = .ancestor)
    (hhonest : Honest g resolve ancestor) :
    Sound g resolve ancestor headSha remoteTip startRemote { decision := .alreadyPresent } where
  present := iff_of_true rfl h
  contained := by
    intro _
    rcases h with rfl | h
    · exact .refl _
    · exact hhonest.ancestor_full h
  push := nofun
  start := nofun
  rewound := nofun
  verified := by
    intro hne hunverifiable
    rcases h with h | h
    · exact absurd h hne
    · rw [h] at hunverifiable
      cases hunverifiable
  pushVerified := nofun

theorem sound_refuse {errorCode errorMessage : String} (hne : headSha ≠ remoteTip)
    (hnot : ancestor headSha.value remoteTip.value ≠ .ancestor)
    (hrewound : errorCode = "remote_rewound" → ∃ start commit, given startRemote = some start ∧
      resolve start = some commit ∧ StrictAncestor g remoteTip commit) :
    Sound g resolve ancestor headSha remoteTip startRemote (refuse errorCode errorMessage) where
  present := iff_of_false nofun (not_or.mpr ⟨hne, hnot⟩)
  contained := nofun
  push := nofun
  start := nofun
  rewound := fun h => hrewound (some.inj h)
  verified := fun _ _ => rfl
  pushVerified := nofun

theorem sound_push (hhonest : Honest g resolve ancestor) (hne : headSha ≠ remoteTip)
    (hhead : ancestor headSha.value remoteTip.value = .notAncestor)
    (htip : ancestor remoteTip.value headSha.value = .ancestor)
    (hstart : ∀ start, given startRemote = some start →
      start = remoteTip.value ∨ ancestor start remoteTip.value = .ancestor) :
    Sound g resolve ancestor headSha remoteTip startRemote { decision := .push } where
  present := iff_of_false nofun (not_or.mpr ⟨hne, by rw [hhead]; nofun⟩)
  contained := nofun
  push := fun _ => ⟨htip, hhonest.ancestor_full htip, fun h => hne h.symm⟩
  start := by
    intro _ start hgiven
    rcases hstart start hgiven with heq | hanc
    · exact .inl heq
    · exact .inr ⟨hanc, hhonest.ancestor_of hanc⟩
  rewound := nofun
  verified := by
    intro _ hunverifiable
    rw [hhead] at hunverifiable
    cases hunverifiable
  pushVerified := by
    intro _
    refine ⟨by rw [hhead]; nofun, by rw [htip]; nofun, ?_⟩
    intro start hgiven hother hunverifiable
    rcases hstart start hgiven with heq | hanc
    · exact hother heq
    · rw [hanc] at hunverifiable
      cases hunverifiable

theorem given_of_checked (h : (given startRemote).filter (· ≠ remoteTip.value) = some start) :
    given startRemote = some start := (filter_eq_some_iff.mp h).1

theorem eq_of_unchecked (h : (given startRemote).filter (· ≠ remoteTip.value) = none)
    (hgiven : given startRemote = some start) : start = remoteTip.value := by
  rw [hgiven, filter_eq_none_iff] at h
  simpa using h start rfl

/-- On full SHAs the decision is sound. -/
theorem sound_classify (hhonest : Honest g resolve ancestor) :
    Sound g resolve ancestor headSha remoteTip startRemote
      (classify ancestor headSha.value remoteTip.value startRemote) := by
  unfold classify
  by_cases heq : remoteTip.value = headSha.value
  · rw [if_pos heq]
    exact sound_present (.inl (sha_ext heq).symm) hhonest
  rw [if_neg heq]
  have hne : headSha ≠ remoteTip := fun h => heq (congrArg Sha.value h.symm)
  cases hhead : ancestor headSha.value remoteTip.value with
  | ancestor => exact sound_present (.inr hhead) hhonest
  | unverifiable => exact sound_refuse hne (by rw [hhead]; nofun) fun h => absurd h (by decide)
  | notAncestor =>
    have hnot : ancestor headSha.value remoteTip.value ≠ .ancestor := by rw [hhead]; nofun
    cases htip : ancestor remoteTip.value headSha.value with
    | unverifiable | notAncestor => exact sound_refuse hne hnot fun h => absurd h (by decide)
    | ancestor =>
      dsimp only
      cases hstart : (given startRemote).filter (· ≠ remoteTip.value) with
      | none => exact sound_push hhonest hne hhead htip fun _ h => .inl (eq_of_unchecked hstart h)
      | some start =>
        have hgiven := given_of_checked hstart
        dsimp only
        unfold checkStart
        cases hlost : ancestor start remoteTip.value with
        | ancestor =>
          refine sound_push hhonest hne hhead htip ?_
          intro other hother
          cases hgiven.symm.trans hother
          exact .inr hlost
        | unverifiable => exact sound_refuse hne hnot fun h => absurd h (by decide)
        | notAncestor =>
          refine sound_refuse hne hnot ?_
          intro hcode
          have hbelow : ancestor remoteTip.value start = .ancestor := by
            by_contra hother
            rw [if_neg hother] at hcode
            exact absurd hcode (by decide)
          obtain ⟨commit, hcommit, hstrict⟩ := hhonest.rewound hlost hbelow
          exact ⟨start, commit, hgiven, hcommit, hstrict⟩

/-- **The decision about the remote is sound.** -/
theorem classify_remote_sound (hhonest : Honest g resolve ancestor) (headSha remoteTip : Sha)
    (startRemote : Option String) :
    ∃ decision, cmdClassifyRemote ancestor headSha.value remoteTip.value startRemote =
        some decision ∧
      Sound g resolve ancestor headSha remoteTip startRemote decision := by
  refine ⟨_, ?_, sound_classify hhonest⟩
  unfold cmdClassifyRemote
  rw [headSha.full, remoteTip.full]
  rfl

/-! ### Texts and Commits -/

/-- The answers of a repository, for texts: a text that names no commit is unverifiable. -/
def ofRepository (resolve : String → Option Sha) (ancestor : Sha → Sha → Ancestry)
    (a d : String) : Ancestry :=
  match resolve a, resolve d with
  | some c, some c' => ancestor c c'
  | _, _ => .unverifiable

theorem ofRepository_related {answer : Ancestry} {ancestor : Sha → Sha → Ancestry} {a d : String}
    (h : ofRepository resolve ancestor a d = answer) (hanswer : answer ≠ .unverifiable) :
    ∃ c c', resolve a = some c ∧ resolve d = some c' ∧ ancestor c c' = answer := by
  unfold ofRepository at h
  split at h
  · next c c' ha hd => exact ⟨c, c', ha, hd, h⟩
  · exact absurd h.symm hanswer

theorem honest_ofRepository {ancestor : Sha → Sha → Ancestry}
    (hfull : ∀ sha : Sha, ∀ commit, resolve sha.value = some commit → commit = sha)
    (h : GitDelivery.Honest g ancestor) : Honest g resolve (ofRepository resolve ancestor) where
  full := hfull
  proven := by
    intro a d hanc
    obtain ⟨c, c', hc, hc', hanc⟩ := ofRepository_related hanc nofun
    exact ⟨c, c', hc, hc', (h c c').1 hanc⟩
  refuted := by
    intro a d hnot
    obtain ⟨c, c', hc, hc', hnot⟩ := ofRepository_related hnot nofun
    exact ⟨c, c', hc, hc', (h c c').2 hnot⟩

/-- A shallow repository: the head, the tip below it and the tip at task start. -/
def sampleStart : Sha := ⟨"cccccccccccccccccccccccccccccccccccccccc", by decide⟩

def sampleCommits : List (String × Sha) :=
  [("HEAD", sampleHead), ("HEAD~1", sampleTip), ("HEAD~2", sampleStart)]

def sampleResolve (rev : String) : Option Sha :=
  (sampleCommits.find? fun p => rev = p.1 ∨ rev = p.2.value).map (·.2)

def startGraph : CommitGraph Sha :=
  ⟨fun c => if c = sampleTip then [sampleStart] else sampleGraph.parents c⟩

def startAncestor (a d : Sha) : Ancestry :=
  if a = sampleStart ∧ d = sampleTip then .ancestor else sampleAncestor a d

theorem sampleResolve_full (sha commit : Sha) (h : sampleResolve sha.value = some commit) :
    commit = sha := by
  obtain ⟨p, hfind, rfl⟩ := map_eq_some_iff.mp h
  have hmatch : sha.value = p.1 ∨ sha.value = p.2.value := by simpa using List.find?_some hfind
  rcases hmatch with hname | hvalue
  · have hshort : ∀ p ∈ sampleCommits, validFullSha p.1 = false := by decide
    have hnot := hshort p (List.mem_of_find?_eq_some hfind)
    rw [← hname, sha.full] at hnot
    cases hnot
  · exact (sha_ext hvalue).symm

theorem startAncestor_honest : GitDelivery.Honest startGraph startAncestor := by
  intro a d
  unfold startAncestor
  split
  · next hpair =>
    obtain ⟨rfl, rfl⟩ := hpair
    exact ⟨fun _ => CommitGraph.ancestor_of_parent (by decide), nofun⟩
  · unfold sampleAncestor
    split
    · next hpair =>
      obtain ⟨rfl, rfl⟩ := hpair
      exact ⟨fun _ => CommitGraph.ancestor_of_parent (by decide), nofun⟩
    · split
      · next hpair =>
        obtain ⟨rfl, rfl⟩ := hpair
        refine ⟨nofun, fun _ hanc => ?_⟩
        -- from the tip only the start is reached, and nothing from there
        rcases Relation.ReflTransGen.cases_tail hanc with heq | ⟨c, hanc, hc⟩
        · exact absurd heq (by decide)
        · rw [List.mem_singleton.mp (show c ∈ [sampleStart] from hc)] at hanc
          rcases Relation.ReflTransGen.cases_tail hanc with heq | ⟨c, -, hc⟩
          · exact absurd heq (by decide)
          · exact absurd (show c ∈ ([] : List Sha) from hc) List.not_mem_nil
      · exact ⟨nofun, nofun⟩

/-- The tip at task start is below the tip, and the head is pushed over both. -/
theorem pushed_over_start :
    StrictAncestor startGraph sampleTip sampleHead ∧
      ∃ commit, sampleResolve "HEAD~2" = some commit ∧ startGraph.Ancestor commit sampleTip := by
  obtain ⟨decision, hdecision, hsound⟩ :=
    classify_remote_sound (honest_ofRepository sampleResolve_full startAncestor_honest)
      sampleHead sampleTip (some "HEAD~2")
  have hpush : (cmdClassifyRemote (ofRepository sampleResolve startAncestor) sampleHead.value
      sampleTip.value (some "HEAD~2")).map (·.decision) = some .push := by decide +kernel
  rw [hdecision] at hpush
  have hsent := some.inj hpush
  refine ⟨(hsound.push hsent).2, ?_⟩
  rcases hsound.start hsent "HEAD~2" rfl with heq | ⟨-, hstart⟩
  · exact absurd heq (by decide)
  · exact hstart

/-! ### The Publisher's Decision -/

theorem given_value (startRemote : Option Sha) :
    given (startRemote.map (·.value)) = startRemote.map (·.value) := by
  cases startRemote with
  | none => rfl
  | some start => simp [given, Option.filter, value_ne_empty]

theorem cmdClassifyRemote_full (headSha remoteTip : Sha) (startRemote : Option Sha) :
    cmdClassifyRemote ancestor headSha.value remoteTip.value (startRemote.map (·.value)) =
      classifyRemote (fun a d => ancestor a.value d.value) headSha (some remoteTip) startRemote := by
  have hstart : (match (given (startRemote.map (·.value))).filter (· ≠ remoteTip.value) with
      | none => { decision := .push }
      | some startRemote => checkStart ancestor remoteTip.value startRemote) =
        classifyStart (fun a d => ancestor a.value d.value) remoteTip startRemote := by
    rw [given_value]
    cases startRemote with
    | none => rfl
    | some start =>
      by_cases heq : start = remoteTip
      · simp [classifyStart, heq, Option.filter]
      · have hvalue : start.value ≠ remoteTip.value := fun h => heq (sha_ext h)
        simp only [map_some, filter_some, classifyStart, if_neg heq, hvalue, ne_eq,
          not_false_eq_true, decide_true, if_true]
        unfold checkStart
        cases ancestor start.value remoteTip.value with
        | ancestor => rfl
        | unverifiable => rfl
        | notAncestor => rfl
  unfold cmdClassifyRemote classify classifyRemote
  rw [headSha.full, remoteTip.full, hstart]
  have hsame : remoteTip.value = headSha.value ↔ remoteTip = headSha :=
    ⟨sha_ext, congrArg Sha.value⟩
  simp only [hsame, map_some, Bool.not_true, Bool.or_self, Bool.false_eq_true, if_false]
  by_cases heq : remoteTip = headSha
  · rw [if_pos heq, if_pos heq]
  · rw [if_neg heq, if_neg heq]
    cases ancestor headSha.value remoteTip.value with
    | ancestor => rfl
    | unverifiable => rfl
    | notAncestor =>
      cases ancestor remoteTip.value headSha.value with
      | ancestor => rfl
      | unverifiable => rfl
      | notAncestor => rfl

end Codify.Worker.RemoteClassification
