import Codify.Scheduler.Queue
import Codify.Scheduler.ReadinessGate

/-! # The Displayed Queue

    `compute_queue_context` (app/core/issue_task_order.py) shows the queue of one Issue:
    a position for each active Task and, for the head, why it waits. The Scheduler
    decides on the legal head in three SQL statements of its own (`isLegalHead`). The
    module says that the four agree.
-/

namespace Codify.Scheduler

open Codify Codify.Framework List Option

/-! ### Entries -/

/-- `waiting_reason`. -/
inductive WaitingReason where
  | sequenceRepairRequired
  | predecessor
  | workspaceCleanup
  | workerRuntimeUnavailable
  | scheduled
  deriving DecidableEq, Repr

/-- The `runtime_*` keys that only an unavailable runtime adds. -/
structure RuntimeFailure where
  code : Option String
  message : Option String
  checkedAt : Option DateTime
  locatorFingerprint : String
  deriving DecidableEq, Repr

/-- The queue context of one Task. -/
structure QueueEntry where
  issueSequence : Option Nat
  queuePosition : Option Nat := none
  blockedByTaskId : Option Nat := none
  waitingReason : Option WaitingReason := none
  lockOwnerTaskId : Option Nat := none
  waitingSince : Option DateTime := none
  runtimeFailure : Option RuntimeFailure := none
  deriving DecidableEq, Repr

/-- What the display reads of a stored readiness. -/
structure StoredReadiness extends RuntimeReadiness where
  checkedAt : Option DateTime := none

/-- What `compute_queue_context` establishes before its loop. -/
structure ActiveQueue where
  /-- `any_active_null`. -/
  anyActiveNull : Bool
  head : Option Task
  /-- `positions`, by Task id. -/
  positions : List (Nat × Nat)
  /-- `head_fingerprint` with `head_readiness`. -/
  headReadiness : Option (String × StoredReadiness)
  lock : Option (IssueExecutionLock × DateTime)
  workspaceCleanup : Bool

/-! ### The Queue of an Issue -/

/-- `issue_sequence ASC NULLS LAST, id ASC`. -/
def displayedBefore (a b : Task) : Bool :=
  match a.issueSequence, b.issueSequence with
  | some m, some n => m < n || (m == n && a.id ≤ b.id)
  | some _, none => true
  | none, some _ => false
  | none, none => a.id ≤ b.id

/-- `active_non_null`, sorted by `issue_sequence`. -/
def activeNonNull (tasks : List Task) : List Task :=
  (tasks.filter fun t => t.status.active && t.issueSequence.isSome).insertionSort fun a b =>
    a.issueSequence.getD 0 ≤ b.issueSequence.getD 0

section Display

variable (snapshots : Nat → Option RuntimeSnapshot)
variable (readRuntimeReadiness : String → Bool → StoredReadiness)

/-- The readiness of the frozen Kit locator of the head. -/
def headReadiness (head : Task) : Option (String × StoredReadiness) := do
  let snapshot ← snapshots head.id
  let fingerprint ← snapshot.fingerprint.filter (· ≠ "")
  return (fingerprint, readRuntimeReadiness fingerprint
    (snapshot.contractVersion = some harnessContractVersionV2))

/-- The first half of `compute_queue_context`; `lock` is the lock row of the Issue with its
    `acquired_at`. -/
def activeQueue (lock : Option (IssueExecutionLock × DateTime)) (tasks : List Task) :
    ActiveQueue :=
  let queue := activeNonNull tasks
  { anyActiveNull := tasks.any fun t => t.status.active && t.issueSequence.isNone
    head := queue.head?
    positions := (queue.map (·.id)).zipIdx 1
    headReadiness := queue.head?.bind (headReadiness snapshots readRuntimeReadiness)
    lock
    -- a terminal owner still holds the workspace
    workspaceCleanup := lock.any fun (row, _) =>
      (tasks.find? (·.id == row.taskId)).any (!·.status.active) }

def headEntry (now : DateTime) (queue : ActiveQueue) (task : Task) : QueueEntry :=
  let entry : QueueEntry :=
    { issueSequence := task.issueSequence
      queuePosition := queue.positions.lookup task.id }
  if queue.workspaceCleanup then
    { entry with
      waitingReason := some .workspaceCleanup
      lockOwnerTaskId := queue.lock.map (·.1.taskId)
      waitingSince := queue.lock.map (·.2) }
  else
    match queue.headReadiness.filter (·.2.status = .unavailable) with
    | some (fingerprint, readiness) =>
      { entry with
        waitingReason := some .workerRuntimeUnavailable
        waitingSince := readiness.checkedAt
        runtimeFailure := some
          { code := readiness.failureCode
            message := readiness.failureMessage
            checkedAt := readiness.checkedAt
            locatorFingerprint := fingerprint } }
    | none =>
      if task.scheduledAt.any (now < ·) then
        { entry with waitingReason := some .scheduled }
      else
        entry

/-- One iteration of the loop of `compute_queue_context`. -/
def queueEntry (now : DateTime) (queue : ActiveQueue) (task : Task) : QueueEntry :=
  if !task.status.active then
    { issueSequence := task.issueSequence }
  else if task.issueSequence.isNone || queue.anyActiveNull then
    { issueSequence := task.issueSequence, waitingReason := some .sequenceRepairRequired }
  else
    match queue.head.filter (·.id ≠ task.id) with
    | some head =>
      { issueSequence := task.issueSequence
        queuePosition := queue.positions.lookup task.id
        blockedByTaskId := some head.id
        waitingReason := some .predecessor }
    | none => headEntry now queue task

/-- `compute_queue_context` on the Tasks and the lock row of one Issue. -/
def computeQueueContext (now : DateTime) (lock : Option (IssueExecutionLock × DateTime))
    (issueTasks : List Task) : OrderedDict Nat QueueEntry :=
  let tasks := issueTasks.insertionSort fun a b => displayedBefore a b
  let queue := activeQueue snapshots readRuntimeReadiness lock tasks
  tasks.map fun task => (task.id, queueEntry now queue task)

end Display

/-! ### Positions -/

variable {keys : List Nat}

theorem le_of_lookup_zipIdx {n key i : Nat}
    (h : (keys.zipIdx n).lookup key = some i) : n ≤ i := by
  induction keys generalizing n with
  | nil => cases h
  | cons k rest ih =>
    rw [zipIdx_cons, lookup_cons] at h
    split at h
    · exact (some.inj h).le
    · have := ih h
      omega

theorem map_lookup_zipIdx (hkeys : keys.Nodup) (n : Nat) :
    (keys.map fun key => (keys.zipIdx n).lookup key) =
      (List.range' n keys.length).map some := by
  induction keys generalizing n with
  | nil => rfl
  | cons k rest ih =>
    obtain ⟨hk, hrest⟩ := nodup_cons.mp hkeys
    have htail : ∀ key ∈ rest, ((k :: rest).zipIdx n).lookup key =
        (rest.zipIdx (n + 1)).lookup key := by
      intro key hkey
      have hne : (key == k) = false := beq_eq_false_iff_ne.mpr fun heq => hk (heq ▸ hkey)
      rw [zipIdx_cons, lookup_cons, hne]
    rw [map_cons, map_congr_left htail, ih hrest, length_cons, range'_succ,
      map_cons, zipIdx_cons, lookup_cons_self]

theorem lookup_zipIdx_first {n key : Nat} :
    (keys.zipIdx n).lookup key = some n ↔ keys.head? = some key := by
  cases keys with
  | nil => simp
  | cons k rest =>
    rw [zipIdx_cons, head?_cons]
    by_cases heq : key = k
    · subst heq
      simp [lookup_cons_self]
    · have hne : (key == k) = false := beq_eq_false_iff_ne.mpr heq
      rw [lookup_cons, hne]
      constructor
      · intro h
        have := le_of_lookup_zipIdx h
        omega
      · intro h
        exact absurd (some.inj h).symm heq

/-! ### The Head -/

section Agreement

variable {tasks : List Task}

/-- The Tasks of an Issue as the table constrains them: ids are unique, and so are the
    sequence numbers that are present. -/
structure DistinctTurns (tasks : List Task) : Prop where
  ids : (tasks.map (·.id)).Nodup
  sequences : ∀ a ∈ tasks, ∀ b ∈ tasks, ∀ q,
    a.issueSequence = some q → b.issueSequence = some q → a = b

variable {t : Task}

theorem mem_activeNonNull :
    t ∈ activeNonNull tasks ↔
      t ∈ tasks ∧ t.status.active = true ∧ t.issueSequence.isSome = true := by
  rw [activeNonNull, mem_insertionSort, mem_filter, Bool.and_eq_true]

theorem nodup_activeNonNull (hids : (tasks.map (·.id)).Nodup) :
    ((activeNonNull tasks).map (·.id)).Nodup := by
  have hfilter : ((tasks.filter fun t => t.status.active && t.issueSequence.isSome).map
      (·.id)).Nodup := hids.sublist (filter_sublist.map _)
  exact (((perm_insertionSort _ _).map _).nodup_iff).mpr hfilter

theorem pairwise_activeNonNull (tasks : List Task) :
    (activeNonNull tasks).Pairwise fun a b => a.issueSequence.getD 0 ≤ b.issueSequence.getD 0 := by
  have htotal : Std.Total fun a b : Task => a.issueSequence.getD 0 ≤ b.issueSequence.getD 0 :=
    ⟨fun a b => le_total (a.issueSequence.getD 0) (b.issueSequence.getD 0)⟩
  have htrans : IsTrans Task fun a b => a.issueSequence.getD 0 ≤ b.issueSequence.getD 0 :=
    ⟨fun _ _ _ hab hbc => le_trans hab hbc⟩
  exact pairwise_insertionSort _ _

/-- The head of the queue is the active Task with a number and without an active
    predecessor. -/
theorem head_activeNonNull (hdistinct : DistinctTurns tasks) (ht : t ∈ tasks)
    (hactive : t.status.active = true) (hseq : t.issueSequence.isSome = true)
    (hissue : ∀ u ∈ tasks, u.issueId = t.issueId) :
    (activeNonNull tasks).head? = some t ↔ hasActivePredecessor tasks t = false := by
  have hmem : t ∈ activeNonNull tasks := mem_activeNonNull.mpr ⟨ht, hactive, hseq⟩
  obtain ⟨q, hq⟩ := isSome_iff_exists.mp hseq
  have hsorted := pairwise_activeNonNull tasks
  cases hqueue : activeNonNull tasks with
  | nil =>
    rw [hqueue] at hmem
    cases hmem
  | cons h rest =>
    rw [hqueue] at hsorted hmem
    have hh : h ∈ tasks ∧ h.status.active = true ∧ h.issueSequence.isSome = true :=
      mem_activeNonNull.mp (hqueue ▸ mem_cons_self)
    obtain ⟨p, hp⟩ := isSome_iff_exists.mp hh.2.2
    have hfirst : ∀ u ∈ activeNonNull tasks, ∀ m, u.issueSequence = some m → p ≤ m := by
      intro u hu m hm
      rw [hqueue] at hu
      rcases mem_cons.mp hu with rfl | hu
      · exact (some.inj (hp.symm.trans hm)).le
      · have hle := (pairwise_cons.mp hsorted).1 u hu
        rw [hp, hm] at hle
        exact hle
    rw [head?_cons, hasActivePredecessor, List.any_eq_false]
    constructor
    · intro heq u hu hboth
      cases heq
      simp only [Bool.and_eq_true, beq_iff_eq] at hboth
      obtain ⟨⟨-, hua⟩, hprec⟩ := hboth
      cases hm : u.issueSequence with
      | none => simp [precedes, hm] at hprec
      | some m =>
        have hle := hfirst u (mem_activeNonNull.mpr ⟨hu, hua, by simp [hm]⟩) m hm
        simp only [precedes, hm, hp, decide_eq_true_eq] at hprec
        omega
    · intro hnone
      have hnot := hnone h hh.1
      simp only [hissue h hh.1, BEq.rfl, hh.2.1, precedes, hp, hq, Bool.true_and,
        decide_eq_true_eq, not_lt] at hnot
      have hle := hfirst t (hqueue ▸ hmem) q hq
      obtain rfl : p = q := Nat.le_antisymm hle hnot
      rw [hdistinct.sequences h hh.1 t ht p hp hq]

theorem activeNonNull_perm (hnull : ∀ t ∈ tasks, t.status.active = true →
    t.issueSequence.isSome = true) :
    (activeNonNull tasks).Perm (tasks.filter (·.status.active)) := by
  have hfilter : (tasks.filter fun t => t.status.active && t.issueSequence.isSome) =
      tasks.filter (·.status.active) := by
    refine filter_congr ?_
    intro t ht
    cases hactive : t.status.active with
    | false => rfl
    | true => exact hnull t ht hactive
  rw [activeNonNull, hfilter]
  exact perm_insertionSort _ _

theorem position_one_iff (hids : (tasks.map (·.id)).Nodup) (ht : t ∈ tasks) :
    (((activeNonNull tasks).map (·.id)).zipIdx 1).lookup t.id = some 1 ↔
      (activeNonNull tasks).head? = some t := by
  rw [lookup_zipIdx_first, head?_map]
  constructor
  · intro h
    obtain ⟨u, hu, hid⟩ := map_eq_some_iff.mp h
    have hmem := (mem_activeNonNull.mp (mem_of_mem_head? hu)).1
    rw [hu, inj_on_of_nodup_map hids hmem ht hid]
  · intro h
    rw [h, map_some]

end Agreement

/-! ### The Display and the Scheduler -/

section Display

variable (snapshots : Nat → Option RuntimeSnapshot)
variable (readRuntimeReadiness : String → Bool → StoredReadiness)
variable (now : DateTime) (locks : List IssueExecutionLock) (acquiredAt : Nat → DateTime)
variable (rows : List Task)

/-- The Tasks of the Issue of a Task, as `compute_queue_context` selects them. -/
def queueTasks (t : Task) : List Task :=
  (rows.filter (·.issueId == t.issueId)).insertionSort fun a b => displayedBefore a b

def lockRow (issueId : Nat) : Option (IssueExecutionLock × DateTime) :=
  (locks.find? (·.issueId == issueId)).map fun row => (row, acquiredAt issueId)

/-- The entry of a Task in the queue context of its Issue. -/
def displayedEntry (t : Task) : Option QueueEntry :=
  (computeQueueContext snapshots readRuntimeReadiness now (lockRow locks acquiredAt t.issueId)
    (rows.filter (·.issueId == t.issueId))).lookup t.id

/-- The `queue_position` of a Task. -/
def displayedPosition (t : Task) : Option Nat :=
  (displayedEntry snapshots readRuntimeReadiness now locks acquiredAt rows t).bind
    (·.queuePosition)

/-- The Task table: ids are unique, and within an Issue the sequence numbers that are
    present. -/
structure DistinctRows (rows : List Task) : Prop where
  ids : (rows.map (·.id)).Nodup
  sequences : ∀ a ∈ rows, ∀ b ∈ rows, a.issueId = b.issueId →
    ∀ q, a.issueSequence = some q → b.issueSequence = some q → a = b

variable {snapshots readRuntimeReadiness now locks acquiredAt rows}

theorem mem_queueTasks {t u : Task} :
    u ∈ queueTasks rows t ↔ u ∈ rows ∧ u.issueId = t.issueId := by
  rw [queueTasks, mem_insertionSort, mem_filter, beq_iff_eq]

theorem DistinctRows.queueTasks (hrows : DistinctRows rows) (t : Task) :
    DistinctTurns (queueTasks rows t) := by
  refine ⟨?_, ?_⟩
  · have hfilter : ((rows.filter (·.issueId == t.issueId)).map (·.id)).Nodup :=
      hrows.ids.sublist (filter_sublist.map _)
    exact (((perm_insertionSort _ _).map _).nodup_iff).mpr hfilter
  · intro a ha b hb q hqa hqb
    obtain ⟨ha, hia⟩ := mem_queueTasks.mp ha
    obtain ⟨hb, hib⟩ := mem_queueTasks.mp hb
    exact hrows.sequences a ha b hb (hia.trans hib.symm) q hqa hqb

variable {t : Task}

theorem displayedEntry_eq (hrows : DistinctRows rows) (ht : t ∈ rows) :
    displayedEntry snapshots readRuntimeReadiness now locks acquiredAt rows t =
      some (queueEntry now (activeQueue snapshots readRuntimeReadiness
        (lockRow locks acquiredAt t.issueId) (queueTasks rows t)) t) := by
  have hkeys : OrderedDict.keys (computeQueueContext snapshots readRuntimeReadiness now
      (lockRow locks acquiredAt t.issueId) (rows.filter (·.issueId == t.issueId))) =
      (queueTasks rows t).map (·.id) := by
    simp only [OrderedDict.keys, computeQueueContext, List.map_map]
    rfl
  rw [displayedEntry, OrderedDict.lookup_eq_some_iff (hkeys ▸ (hrows.queueTasks t).ids)]
  exact List.mem_map.mpr ⟨t, mem_queueTasks.mpr ⟨ht, rfl⟩, rfl⟩

theorem any_queueTasks {p : Task → Bool} (t : Task) :
    (queueTasks rows t).any p = rows.any fun u => u.issueId == t.issueId && p u := by
  rw [Bool.eq_iff_iff, List.any_eq_true, List.any_eq_true]
  constructor
  · rintro ⟨u, hu, hp⟩
    obtain ⟨hu, hissue⟩ := mem_queueTasks.mp hu
    exact ⟨u, hu, by simp [hissue, hp]⟩
  · rintro ⟨u, hu, hp⟩
    simp only [Bool.and_eq_true, beq_iff_eq] at hp
    exact ⟨u, mem_queueTasks.mpr ⟨hu, hp.1⟩, hp.2⟩

theorem hasActiveNullSequence_queueTasks (t : Task) :
    ((queueTasks rows t).any fun u => u.status.active && u.issueSequence.isNone) =
      hasActiveNullSequence rows t := by
  simp only [any_queueTasks, hasActiveNullSequence, Bool.and_assoc]

theorem hasActivePredecessor_queueTasks (t : Task) :
    hasActivePredecessor (queueTasks rows t) t = hasActivePredecessor rows t := by
  rw [hasActivePredecessor, any_queueTasks, hasActivePredecessor]
  congr 1
  funext u
  cases u.issueId == t.issueId <;> simp

theorem headEntry_position (queue : ActiveQueue) (t : Task) :
    (headEntry now queue t).queuePosition = queue.positions.lookup t.id := by
  unfold headEntry
  by_cases hcleanup : queue.workspaceCleanup = true
  · simp only [hcleanup, if_true]
  · simp only [hcleanup, Bool.false_eq_true, if_false]
    split
    · rfl
    · split <;> rfl

theorem queueEntry_position (queue : ActiveQueue) (t : Task) :
    (queueEntry now queue t).queuePosition =
      if t.status.active && t.issueSequence.isSome && !queue.anyActiveNull then
        queue.positions.lookup t.id
      else none := by
  unfold queueEntry
  cases hactive : t.status.active with
  | false => rfl
  | true =>
    cases hseq : t.issueSequence with
    | none => rfl
    | some q =>
      cases hnull : queue.anyActiveNull with
      | true => rfl
      | false =>
        simp only [Bool.not_true, Bool.false_eq_true, isNone_some, Bool.or_false,
          isSome_some, Bool.and_self, Bool.not_false, if_true, if_false]
        split
        · rfl
        · exact headEntry_position queue t

theorem displayedPosition_eq (hrows : DistinctRows rows) (ht : t ∈ rows) :
    displayedPosition snapshots readRuntimeReadiness now locks acquiredAt rows t =
      if t.status.active && t.issueSequence.isSome && !hasActiveNullSequence rows t then
        (((activeNonNull (queueTasks rows t)).map (·.id)).zipIdx 1).lookup t.id
      else none := by
  rw [displayedPosition, displayedEntry_eq hrows ht, bind_some, queueEntry_position,
    ← hasActiveNullSequence_queueTasks]
  rfl

theorem displayedPosition_one_iff (hrows : DistinctRows rows) (ht : t ∈ rows)
    (hactive : t.status.active = true) :
    displayedPosition snapshots readRuntimeReadiness now locks acquiredAt rows t = some 1 ↔
      isLegalHead rows t = true := by
  have hmem : t ∈ queueTasks rows t := mem_queueTasks.mpr ⟨ht, rfl⟩
  have hissue : ∀ u ∈ queueTasks rows t, u.issueId = t.issueId := fun u hu =>
    (mem_queueTasks.mp hu).2
  rw [displayedPosition_eq hrows ht, isLegalHead, hactive]
  cases hseq : t.issueSequence.isSome with
  | false => simp
  | true =>
    cases hnull : hasActiveNullSequence rows t with
    | true => simp
    | false =>
      simp only [Bool.and_self, Bool.not_false, Bool.true_and, if_true]
      rw [position_one_iff (hrows.queueTasks t).ids hmem,
        head_activeNonNull (hrows.queueTasks t) hmem hactive hseq hissue,
        hasActivePredecessor_queueTasks, Bool.not_eq_true']

/-- **Positions**: where no active number is missing, the active queue of an Issue is shown
    in the order of its sequence numbers, at the positions 1, 2, ... -/
theorem displayedPositions (hrows : DistinctRows rows)
    (hnull : hasActiveNullSequence rows t = false) :
    ∃ queue : List Task,
      queue.Perm (rows.filter fun u => u.issueId == t.issueId && u.status.active) ∧
      (queue.Pairwise fun a b => ∃ p q,
        a.issueSequence = some p ∧ b.issueSequence = some q ∧ p < q) ∧
      queue.map (displayedPosition snapshots readRuntimeReadiness now locks acquiredAt rows) =
        (List.range' 1 queue.length).map some := by
  have hturns := hrows.queueTasks t
  have hsome : ∀ u ∈ queueTasks rows t, u.status.active = true →
      u.issueSequence.isSome = true := by
    intro u hu hactive
    obtain ⟨hu, hissue⟩ := mem_queueTasks.mp hu
    rw [hasActiveNullSequence, List.any_eq_false] at hnull
    have hnot := hnull u hu
    cases hseq : u.issueSequence with
    | none => simp [hissue, hactive, hseq] at hnot
    | some q => rfl
  have hnodup := nodup_activeNonNull hturns.ids
  refine ⟨activeNonNull (queueTasks rows t), ?_, ?_, ?_⟩
  · have hissue : ((queueTasks rows t).filter (·.status.active)).Perm
        ((rows.filter (·.issueId == t.issueId)).filter (·.status.active)) :=
      (perm_insertionSort _ _).filter _
    refine ((activeNonNull_perm hsome).trans hissue).trans ?_
    rw [List.filter_filter]
    refine List.Perm.of_eq (filter_congr ?_)
    intro u _
    exact Bool.and_comm _ _
  · -- two Tasks of the queue have different ids, hence different numbers
    have hpair := (pairwise_activeNonNull (queueTasks rows t)).and (pairwise_map.mp hnodup)
    refine hpair.imp_of_mem ?_
    rintro a b ha hb ⟨hle, hne⟩
    obtain ⟨ha, -, hsa⟩ := mem_activeNonNull.mp ha
    obtain ⟨hb, -, hsb⟩ := mem_activeNonNull.mp hb
    obtain ⟨p, hp⟩ := isSome_iff_exists.mp hsa
    obtain ⟨q, hq⟩ := isSome_iff_exists.mp hsb
    rw [hp, hq] at hle
    refine ⟨p, q, hp, hq, lt_of_le_of_ne hle ?_⟩
    rintro rfl
    exact hne (congrArg Task.id (hturns.sequences a ha b hb p hp hq))
  · have hshown : ∀ u ∈ activeNonNull (queueTasks rows t),
        displayedPosition snapshots readRuntimeReadiness now locks acquiredAt rows u =
          (((activeNonNull (queueTasks rows t)).map (·.id)).zipIdx 1).lookup u.id := by
      intro u hu
      obtain ⟨hu, hactive, hseq⟩ := mem_activeNonNull.mp hu
      obtain ⟨hu, hissue⟩ := mem_queueTasks.mp hu
      have hsame : queueTasks rows u = queueTasks rows t := by rw [queueTasks, queueTasks, hissue]
      have hnull' : hasActiveNullSequence rows u = false := by
        rw [← hnull, hasActiveNullSequence, hasActiveNullSequence, hissue]
      rw [displayedPosition_eq hrows hu, hactive, hseq, hnull', hsame]
      rfl
    rw [map_congr_left hshown]
    have hnumbers := map_lookup_zipIdx hnodup 1
    rw [List.map_map, length_map] at hnumbers
    exact hnumbers

/-- With an available runtime the head waits for nothing exactly when no ended Task holds the
    workspace and its time has come. -/
theorem headEntry_waits_iff (queue : ActiveQueue) (t : Task)
    (hready : ∀ fingerprint readiness, queue.headReadiness = some (fingerprint, readiness) →
      readiness.status ≠ .unavailable) :
    (headEntry now queue t).waitingReason = none ↔
      queue.workspaceCleanup = false ∧ t.scheduledAt.all (· ≤ now) = true := by
  have havailable : queue.headReadiness.filter (·.2.status = .unavailable) = none := by
    rw [filter_eq_none_iff]
    rintro ⟨fingerprint, readiness⟩ hread
    simpa using hready fingerprint readiness hread
  have hdue : t.scheduledAt.any (now < ·) = !t.scheduledAt.all (· ≤ now) := by
    cases t.scheduledAt with
    | none => rfl
    | some time => simp [← decide_not]
  unfold headEntry
  cases hcleanup : queue.workspaceCleanup with
  | true => simp
  | false =>
    rw [havailable, hdue]
    cases t.scheduledAt.all (· ≤ now) <;> simp

theorem displayedEntry_head (hrows : DistinctRows rows) (ht : t ∈ rows)
    (hactive : t.status.active = true) (hhead : isLegalHead rows t = true) :
    displayedEntry snapshots readRuntimeReadiness now locks acquiredAt rows t =
      some (headEntry now (activeQueue snapshots readRuntimeReadiness
        (lockRow locks acquiredAt t.issueId) (queueTasks rows t)) t) := by
  have hmem : t ∈ queueTasks rows t := mem_queueTasks.mpr ⟨ht, rfl⟩
  have hissue : ∀ u ∈ queueTasks rows t, u.issueId = t.issueId := fun u hu =>
    (mem_queueTasks.mp hu).2
  simp only [isLegalHead, Bool.and_eq_true, Bool.not_eq_true'] at hhead
  obtain ⟨⟨hseq, hnull⟩, hprec⟩ := hhead
  rw [← hasActivePredecessor_queueTasks] at hprec
  have hfirst := (head_activeNonNull (hrows.queueTasks t) hmem hactive hseq hissue).mpr hprec
  rw [displayedEntry_eq hrows ht]
  set queue := activeQueue snapshots readRuntimeReadiness (lockRow locks acquiredAt t.issueId)
    (queueTasks rows t)
  have hnumbered : queue.anyActiveNull = false := (hasActiveNullSequence_queueTasks t).trans hnull
  have hother : queue.head.filter (·.id ≠ t.id) = none := by
    rw [show queue.head = some t from hfirst, filter_eq_none_iff]
    intro u hu
    simp [(some.inj hu).symm]
  have hsome : t.issueSequence.isNone = false := by simpa using hseq
  unfold queueEntry
  rw [hother, hactive, hsome, hnumbered]
  rfl

/-- What the display and the three statements of the Scheduler say about one table. -/
structure QueueAgreement (snapshots : Nat → Option RuntimeSnapshot)
    (readRuntimeReadiness : String → Bool → StoredReadiness) (now : DateTime)
    (locks : List IssueExecutionLock) (acquiredAt : Nat → DateTime) (rows : List Task) :
    Prop where
  /-- Without a missing number the active queue has the positions 1, 2, ... in order. -/
  numbered : ∀ t, hasActiveNullSequence rows t = false → ∃ queue : List Task,
    queue.Perm (rows.filter fun u => u.issueId == t.issueId && u.status.active) ∧
    (queue.Pairwise fun a b => ∃ p q,
      a.issueSequence = some p ∧ b.issueSequence = some q ∧ p < q) ∧
    queue.map (displayedPosition snapshots readRuntimeReadiness now locks acquiredAt rows) =
      (List.range' 1 queue.length).map some
  /-- Otherwise, and for a Task that has ended, there is no position. -/
  unnumbered : ∀ t ∈ rows, hasActiveNullSequence rows t = true ∨ t.status.active = false →
    displayedPosition snapshots readRuntimeReadiness now locks acquiredAt rows t = none
  /-- `_promote_due_heads` promotes what is shown first, waits for nothing and is not locked. -/
  promoted : ∀ t ∈ rows, t.status = .pending →
    (isDueHead { locks, runningIssues := [], bundleAdmitted := fun _ => true } now rows t = true ↔
      displayedPosition snapshots readRuntimeReadiness now locks acquiredAt rows t = some 1 ∧
      (displayedEntry snapshots readRuntimeReadiness now locks acquiredAt rows t).map
        (·.waitingReason) = some none ∧
      ∀ lock ∈ locks, lock.issueId ≠ t.issueId)
  /-- `_get_next_task` chooses among what is shown first. -/
  candidate : ∀ ctx : QueueContext, ∀ t ∈ rows, isCandidate ctx rows t = true →
    displayedPosition snapshots readRuntimeReadiness now locks acquiredAt rows t = some 1
  /-- `_normalize_illegal_queued_tasks` demotes the QUEUED Tasks that are not shown first. -/
  normalized : normalizeIllegalQueuedTasks rows = rows.map fun t =>
    if t.status = .queued ∧
        displayedPosition snapshots readRuntimeReadiness now locks acquiredAt rows t ≠ some 1 then
      { t with status := .pending }
    else t

/-- **The displayed queue agrees with the Scheduler.** -/
theorem queue_agreement (snapshots : Nat → Option RuntimeSnapshot)
    (readRuntimeReadiness : String → Bool → StoredReadiness)
    (hready : ∀ fingerprint inventory,
      (readRuntimeReadiness fingerprint inventory).status ≠ .unavailable)
    (now : DateTime) (locks : List IssueExecutionLock) (acquiredAt : Nat → DateTime)
    {rows : List Task} (hrows : DistinctRows rows) :
    QueueAgreement snapshots readRuntimeReadiness now locks acquiredAt rows := by
  have hone : ∀ t ∈ rows, t.status.active = true →
      (displayedPosition snapshots readRuntimeReadiness now locks acquiredAt rows t = some 1 ↔
        isLegalHead rows t = true) := fun t ht hactive =>
    displayedPosition_one_iff hrows ht hactive
  refine ⟨fun t hnull => displayedPositions hrows hnull, ?_, ?_, ?_, ?_⟩
  · intro t ht hout
    rw [displayedPosition_eq hrows ht]
    rcases hout with hnull | hended
    · simp [hnull]
    · simp [hended]
  · intro t ht hpending
    have hactive : t.status.active = true := by rw [hpending]; rfl
    rw [hone t ht hactive]
    cases hhead : isLegalHead rows t with
    | false => simp [isDueHead, hhead]
    | true =>
      have hread : ∀ fingerprint readiness, (activeQueue snapshots readRuntimeReadiness
          (lockRow locks acquiredAt t.issueId) (queueTasks rows t)).headReadiness =
            some (fingerprint, readiness) → readiness.status ≠ .unavailable := by
        intro fingerprint readiness hsome
        obtain ⟨head, -, hsome⟩ := bind_eq_some_iff.mp hsome
        obtain ⟨snapshot, -, hsome⟩ := bind_eq_some_iff.mp hsome
        obtain ⟨fingerprint', -, hsome⟩ := bind_eq_some_iff.mp hsome
        cases hsome
        exact hready _ _
      rw [displayedEntry_head hrows ht hactive hhead, map_some, Option.some.injEq,
        headEntry_waits_iff _ _ hread]
      have hunlocked : locks.any (·.issueId == t.issueId) = false ↔
          ∀ lock ∈ locks, lock.issueId ≠ t.issueId := by
        simp [List.any_eq_false]
      -- without a lock row nobody holds the workspace
      have hcleanup : (∀ lock ∈ locks, lock.issueId ≠ t.issueId) →
          (activeQueue snapshots readRuntimeReadiness (lockRow locks acquiredAt t.issueId)
            (queueTasks rows t)).workspaceCleanup = false := by
        intro hnone
        have hfind : locks.find? (·.issueId == t.issueId) = none := by
          rw [find?_eq_none]
          intro lock hlock
          simpa using hnone lock hlock
        simp [activeQueue, lockRow, hfind]
      simp only [isDueHead, hpending, hhead, QueueContext.isFree, contains_nil,
        Bool.and_eq_true, Bool.not_eq_true', Bool.not_false, and_true, true_and, hunlocked,
        decide_true]
      constructor
      · rintro ⟨hdue, hnone⟩
        exact ⟨⟨hcleanup hnone, hdue⟩, hnone⟩
      · rintro ⟨⟨-, hdue⟩, hnone⟩
        exact ⟨hdue, hnone⟩
  · intro ctx t ht hcandidate
    simp only [isCandidate, Bool.and_eq_true, decide_eq_true_eq] at hcandidate
    obtain ⟨⟨hqueued, hhead⟩, -⟩ := hcandidate
    exact (hone t ht (by rw [hqueued]; rfl)).mpr hhead
  · refine map_congr_left ?_
    intro t ht
    by_cases hqueued : t.status = .queued
    · have hiff := hone t ht (by rw [hqueued]; rfl)
      cases hhead : isLegalHead rows t <;> simp [hqueued, hiff, hhead]
    · simp [hqueued]

/-- A locked Issue whose lock is held by a Task that has ended, and a free Issue with a due
    head, a scheduled turn and a QUEUED turn behind it. -/
def sampleRows : List Task :=
  [{ id := 1, issueId := 1, status := .completed, issueSequence := some 1 },
   { id := 2, issueId := 1, status := .pending, issueSequence := some 2 },
   { id := 3, issueId := 2, status := .pending, issueSequence := some 4, scheduledAt := some 5 },
   { id := 4, issueId := 2, status := .queued, issueSequence := some 7 }]

theorem queue_agreement_sample :
    QueueAgreement (fun _ => none) (fun _ _ => {}) 5 [{ issueId := 1, taskId := 1 }] (fun _ => 0)
      sampleRows := by
  refine queue_agreement _ _ (fun _ _ => by decide) 5 _ _ ⟨by decide, ?_⟩
  intro a ha b hb hissue q hqa hqb
  simp only [sampleRows, mem_cons, not_mem_nil, or_false] at ha hb
  rcases ha with rfl | rfl | rfl | rfl <;> rcases hb with rfl | rfl | rfl | rfl <;>
    first | rfl | (cases hqa; cases hqb)

end Display

end Codify.Scheduler
