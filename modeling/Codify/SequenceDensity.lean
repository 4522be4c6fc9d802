import Codify.LineageGenerations

/-! # Sequence Density

    The appends of an Issue allocate `max_sequence + 1`, and
    `ensure_issue_order_integrity_locked` verifies every non-NULL sequence against the
    rank of its Task in `(created_at, id)` order. One Issue is run here with both of
    them and with writers from before migration 068, whose rows have a NULL sequence:
    rows are inserted one after another (an insert takes a key-share lock on the Issue
    row, so it never falls between the check and the insert of an append), and the
    creation time does not decrease in the order of insertion.

    The two agree because a repair leaves the numbers `1, ..., n`: the maximum is then
    the number of rows, and rows are only added behind the others.
-/

namespace Codify.SequenceDensity

open Codify Codify.Framework Codify.IssueTaskOrder Codify.IssueTaskLineage List Option
open Codify.IssueSchedule (AppendRequest createTaskRecord newTask updateTask)

/-! ### Ranks -/

/-- The rank of a Task among the rows of its Issue in `(created_at, id)` order, from 1. -/
def rank (tasks : List Task) (task : Task) : Nat :=
  tasks.countP fun t => decide (createdBefore t task)

/-- A sequence number that is present is the position of its row, counted from `k`. -/
def RankedFrom : Nat → List Task → Prop
  | _, [] => True
  | k, task :: rest => (∀ q, task.issueSequence = some q → q = k) ∧ RankedFrom (k + 1) rest

/-- Rows in creation order whose sequence numbers, where present, are their positions. -/
structure Ranked (tasks : List Task) : Prop where
  sequences : RankedFrom 1 tasks
  created : tasks.Pairwise createdBefore
  ids : (tasks.map (·.id)).Nodup

variable {k : Nat} {before after : List Task}

theorem SequencedFrom.ranked {tasks : List Task} (h : SequencedFrom k tasks) :
    RankedFrom k tasks := by
  induction tasks generalizing k with
  | nil => trivial
  | cons task rest ih =>
    refine ⟨?_, ih h.2⟩
    intro q hq
    exact some.inj (hq.symm.trans h.1)

theorem rankedFrom_append :
    RankedFrom k (before ++ after) ↔
      RankedFrom k before ∧ RankedFrom (k + before.length) after := by
  induction before generalizing k with
  | nil => simp [RankedFrom]
  | cons task rest ih =>
    have hlength : k + 1 + rest.length = k + (rest.length + 1) := by omega
    simp only [cons_append, RankedFrom, ih, length_cons, hlength, and_assoc]

theorem RankedFrom.congr {tasks rows : List Task} {R : Task → Task → Prop}
    (hR : ∀ t r, R t r → r.issueSequence = t.issueSequence) (h : List.Forall₂ R tasks rows)
    (hranked : RankedFrom k tasks) : RankedFrom k rows := by
  induction h generalizing k with
  | nil => trivial
  | cons hrow _ ih =>
    refine ⟨?_, ih hranked.2⟩
    rw [hR _ _ hrow]
    exact hranked.1

theorem not_createdBefore {a b : Task} (h : createdBefore a b) (hne : a.id ≠ b.id) :
    ¬ createdBefore b a := by
  intro h'
  rcases h with hlt | ⟨heq, hle⟩
  · rcases h' with hlt' | ⟨heq', -⟩
    · exact lt_asymm hlt hlt'
    · exact absurd heq' hlt.ne'
  · rcases h' with hlt' | ⟨-, hle'⟩
    · exact absurd heq hlt'.ne'
    · exact hne (Nat.le_antisymm hle hle')

theorem rank_split {task : Task}
    (hcreated : (before ++ task :: after).Pairwise createdBefore)
    (hids : ((before ++ task :: after).map (·.id)).Nodup) :
    rank (before ++ task :: after) task = before.length + 1 := by
  obtain ⟨-, htail, hacross⟩ := pairwise_append.mp hcreated
  have hlater := (pairwise_cons.mp htail).1
  rw [map_append, map_cons, nodup_append] at hids
  have hfresh := (nodup_cons.mp hids.2.1).1
  have hself : createdBefore task task := .inr ⟨rfl, le_rfl⟩
  have hbefore : before.countP (fun t => decide (createdBefore t task)) = before.length := by
    refine countP_eq_length.mpr ?_
    intro a ha
    exact decide_eq_true (hacross a ha task mem_cons_self)
  have hafter : after.countP (fun t => decide (createdBefore t task)) = 0 := by
    refine countP_eq_zero.mpr ?_
    intro b hb
    have hne : task.id ≠ b.id := by
      intro hid
      exact hfresh (hid ▸ List.mem_map_of_mem hb)
    simpa using not_createdBefore (hlater b hb) hne
  rw [rank, countP_append, countP_cons, hbefore, hafter]
  simp [hself]

theorem rankedFrom_iff_rank {tasks : List Task} (hcreated : tasks.Pairwise createdBefore)
    (hids : (tasks.map (·.id)).Nodup) :
    RankedFrom 1 tasks ↔ ∀ t ∈ tasks, ∀ q, t.issueSequence = some q → q = rank tasks t := by
  constructor
  · intro h t ht q hq
    obtain ⟨before, after, rfl⟩ := append_of_mem ht
    rw [rank_split hcreated hids]
    have := (rankedFrom_append.mp h).2.1 q hq
    omega
  · intro h
    -- the rows in front of the rest are kept, so that ranks stay those of the whole list
    have hsplit : ∀ before after, tasks = before ++ after →
        RankedFrom (1 + before.length) after := by
      intro before after
      induction after generalizing before with
      | nil => intro _; trivial
      | cons t rest ih =>
        intro htasks
        refine ⟨?_, ?_⟩
        · intro q hq
          have hrank := h t (by simp [htasks]) q hq
          subst htasks
          rw [rank_split hcreated hids] at hrank
          omega
        · have := ih (before ++ [t]) (by simp [htasks])
          rw [length_append, length_singleton] at this
          exact this
    exact hsplit [] tasks rfl

/-! ### The Sequence Pass -/

/-- The first pass refuses exactly the rows that are not numbered by position; a duplicate
    never gets past the comparison with the rank. -/
theorem checkRanks_cases {seen : List Nat} (tasks : List Task) (hseen : ∀ q ∈ seen, q < k) :
    (RankedFrom k tasks ∧ checkRanks k seen tasks = .ok ()) ∨
      (¬ RankedFrom k tasks ∧ checkRanks k seen tasks = .error .sequenceMismatch) := by
  induction tasks generalizing k seen with
  | nil => exact .inl ⟨trivial, rfl⟩
  | cons task rest ih =>
    cases hseq : task.issueSequence with
    | none =>
      have hstep : checkRanks k seen (task :: rest) = checkRanks (k + 1) seen rest := by
        simp [checkRanks, hseq]
      have hhead : RankedFrom k (task :: rest) ↔ RankedFrom (k + 1) rest := by
        simp [RankedFrom, hseq]
      rw [hstep, hhead]
      exact ih fun q hq => Nat.lt_succ_of_lt (hseen q hq)
    | some q =>
      have hhead : RankedFrom k (task :: rest) ↔ q = k ∧ RankedFrom (k + 1) rest := by
        simp [RankedFrom, hseq]
      rw [hhead]
      by_cases hq : q = k
      · subst hq
        have hnot : q ∉ seen := fun hmem => absurd (hseen q hmem) (lt_irrefl q)
        have hstep : checkRanks q seen (task :: rest) =
            checkRanks (q + 1) (q :: seen) rest := by
          simp [checkRanks, hseq, hnot]
        have hseen' : ∀ p ∈ q :: seen, p < q + 1 := by
          intro p hp
          rcases mem_cons.mp hp with rfl | hp
          · omega
          · have := hseen p hp
            omega
        rw [hstep]
        simpa using ih hseen'
      · right
        exact ⟨fun h => hq h.1, by simp [checkRanks, hseq, hq]⟩

/-- The row is the same turn: its id, its creation time and a number it has. -/
structure SameTurn (t r : Task) : Prop where
  id : r.id = t.id
  created : r.createdAt = t.createdAt
  sequence : ∀ q, t.issueSequence = some q → r.issueSequence = some q

theorem SameTurn.refl (t : Task) : SameTurn t t := ⟨rfl, rfl, fun _ hq => hq⟩

theorem SameTurn.trans {a b c : Task} (hab : SameTurn a b) (hbc : SameTurn b c) :
    SameTurn a c :=
  ⟨hbc.id.trans hab.id, hbc.created.trans hab.created,
    fun q hq => hbc.sequence q (hab.sequence q hq)⟩

theorem sameTurns_trans {as bs cs : List Task} (hab : List.Forall₂ SameTurn as bs)
    (hbc : List.Forall₂ SameTurn bs cs) : List.Forall₂ SameTurn as cs := by
  induction hab generalizing cs with
  | nil => cases hbc; exact .nil
  | cons hrow _ ih =>
    cases hbc with
    | cons hrow' hrest => exact .cons (hrow.trans hrow') (ih hrest)

theorem repairNullSequences_spec {tasks : List Task} (h : RankedFrom k tasks) :
    SequencedFrom k (repairNullSequences k tasks).2 ∧
      List.Forall₂ SameTurn tasks (repairNullSequences k tasks).2 := by
  induction tasks generalizing k with
  | nil => exact ⟨trivial, .nil⟩
  | cons task rest ih =>
    obtain ⟨hrest, hrows⟩ := ih h.2
    cases hseq : task.issueSequence with
    | none =>
      simp only [repairNullSequences, hseq]
      exact ⟨⟨rfl, hrest⟩, .cons ⟨rfl, rfl, fun q hq => by cases hseq.symm.trans hq⟩ hrows⟩
    | some q =>
      simp only [repairNullSequences, hseq]
      exact ⟨⟨by rw [hseq, h.1 q hseq], hrest⟩, .cons (.refl task) hrows⟩

theorem ensureSequences_cases (repairNulls : Bool) (tasks : List Task) :
    (¬ RankedFrom 1 tasks ∧ ensureSequences repairNulls tasks = .error .sequenceMismatch) ∨
    (repairNulls = false ∧ (∃ t ∈ tasks, t.status.active = true ∧ t.issueSequence = none) ∧
      ensureSequences repairNulls tasks = .error .activeNullSequence) ∨
    (RankedFrom 1 tasks ∧ ∃ n rows, ensureSequences repairNulls tasks = .ok (n, rows) ∧
      List.Forall₂ SameTurn tasks rows ∧ RankedFrom 1 rows ∧
      (repairNulls = true → SequencedFrom 1 rows)) := by
  rcases checkRanks_cases tasks (forall_mem_nil (· < 1)) with
    ⟨hranked, hcheck⟩ | ⟨hnot, hcheck⟩
  · cases repairNulls with
    | true =>
      obtain ⟨hseq, hrows⟩ := repairNullSequences_spec hranked
      exact .inr (.inr ⟨hranked, (repairNullSequences 1 tasks).1, _,
        by simp [ensureSequences, hcheck], hrows, SequencedFrom.ranked hseq, fun _ => hseq⟩)
    | false =>
      cases hnull : tasks.any fun t => t.issueSequence.isNone && t.status.active with
      | true =>
        obtain ⟨t, ht, hboth⟩ := List.any_eq_true.mp hnull
        simp only [Bool.and_eq_true, isNone_iff_eq_none] at hboth
        exact .inr (.inl ⟨rfl, ⟨t, ht, hboth.2, hboth.1⟩,
          by simp [ensureSequences, hcheck, hnull]⟩)
      | false =>
        exact .inr (.inr ⟨hranked, 0, tasks, by simp [ensureSequences, hcheck, hnull],
          forall₂_same.mpr fun t _ => .refl t, hranked, fun h => by cases h⟩)
  · exact .inl ⟨hnot, by simp [ensureSequences, hcheck]⟩

/-! ### The Integrity Check -/

section Integrity

variable {ns : String → Option String → String} {snapshots : Nat → Option WorkerSnapshot}
variable {issueId : Nat} {tasks rows : List Task}

theorem map_rank_eq (h : List.Forall₂ SameTurn tasks rows) :
    rows.map (fun t => (t.createdAt, t.id)) = tasks.map fun t => (t.createdAt, t.id) :=
  map_created_congr (fun _ _ hrow => ⟨hrow.id, hrow.created⟩) h

theorem Ranked.rewritten (hranked : Ranked tasks) (h : List.Forall₂ SameTurn tasks rows)
    (hseq : RankedFrom 1 rows) : Ranked rows := by
  refine ⟨hseq, ?_, ?_⟩
  · rw [pairwise_createdBefore_iff, map_rank_eq h, ← pairwise_createdBefore_iff]
    exact hranked.created
  · rw [map_id_of_map_created (map_rank_eq h)]
    exact hranked.ids

theorem sameTurn_of_repaired {t r : Task} (h : Repaired ns snapshots t r) : SameTurn t r := by
  obtain ⟨hid, hseq, hcreated, -⟩ := h.columns
  exact ⟨hid, hcreated, fun q hq => hseq.trans hq⟩

/-- `_repair_lineage_projections` found an active Task whose lineage cannot be derived, or a
    `continue` that crosses the tail namespace, in the rows as the sequence pass left them. -/
def LineageBlocked (ns : String → Option String → String)
    (snapshots : Nat → Option WorkerSnapshot) (repairNulls : Bool) (tasks : List Task)
    (reason : IntegrityReason) : Prop :=
  ∃ n rows, ensureSequences repairNulls (tasks.insertionSort createdBefore) = .ok (n, rows) ∧
    repairLineageProjections ns snapshots rows = .error reason

theorem repairLoop_error {tail : Option Projection} {n : Nat} {reason : IntegrityReason}
    (h : repairLoop ns snapshots tail n tasks = .error reason) :
    reason = .activeTaskMissingSnapshot ∨ reason = .continueNamespaceChange := by
  induction tasks generalizing tail n with
  | nil => cases h
  | cons task rest ih =>
    have hrest : ∀ {tail n} {f : Nat × List Task → Nat × List Task},
        (repairLoop ns snapshots tail n rest >>= fun r => .ok (f r)) = .error reason →
          reason = .activeTaskMissingSnapshot ∨ reason = .continueNamespaceChange := by
      intro tail n f hbind
      cases hloop : repairLoop ns snapshots tail n rest with
      | error reason' =>
        rw [hloop] at hbind
        obtain rfl : reason' = reason := Except.error.inj hbind
        exact ih hloop
      | ok result =>
        rw [hloop] at hbind
        cases hbind
    unfold repairLoop at h
    split at h
    · exact hrest h
    · split at h
      · split at h
        · exact .inl (Except.error.inj h).symm
        · exact hrest h
      · split at h
        · exact .inr (Except.error.inj h).symm
        · exact hrest h

/-- The reasons for which the integrity check refuses the rows of an Issue. -/
inductive Refused (ns : String → Option String → String)
    (snapshots : Nat → Option WorkerSnapshot) (repairNulls : Bool) (tasks : List Task) :
    IntegrityReason → Prop where
  | mismatch (t : Task) (q : Nat) : t ∈ tasks → t.issueSequence = some q → q ≠ rank tasks t →
      Refused ns snapshots repairNulls tasks .sequenceMismatch
  | activeNull (t : Task) : repairNulls = false → t ∈ tasks → t.status.active = true →
      t.issueSequence = none → Refused ns snapshots repairNulls tasks .activeNullSequence
  | blocked (reason : IntegrityReason) :
      reason = .activeTaskMissingSnapshot ∨ reason = .continueNamespaceChange →
      LineageBlocked ns snapshots repairNulls tasks reason →
      Refused ns snapshots repairNulls tasks reason

theorem rank_perm {other : List Task} (h : tasks.Perm other) (t : Task) :
    rank tasks t = rank other t := h.countP_eq _

variable {repairNulls : Bool}

theorem ensure_refused (hids : (tasks.map (·.id)).Nodup) {e : OrderError}
    (h : ensureIssueOrderIntegrityLocked ns snapshots issueId repairNulls tasks = .error e) :
    ∃ reason, e = .integrity issueId reason ∧
      Refused ns snapshots repairNulls tasks reason := by
  unfold ensureIssueOrderIntegrityLocked at h
  have hperm := tasks.perm_insertionSort createdBefore
  have hmem : ∀ t, t ∈ tasks.insertionSort createdBefore ↔ t ∈ tasks := fun t => hperm.mem_iff
  by_cases hempty : (tasks.insertionSort createdBefore).isEmpty = true
  · rw [if_pos hempty] at h
    cases h
  rw [if_neg hempty] at h
  rcases ensureSequences_cases repairNulls (tasks.insertionSort createdBefore) with
    ⟨hnot, hpass⟩ | ⟨hrepair, ⟨t, ht, hactive, hnull⟩, hpass⟩ | ⟨-, n, rows, hpass, -⟩
  · rw [hpass] at h
    obtain rfl : OrderError.integrity issueId .sequenceMismatch = e := Except.error.inj h
    have hids' : ((tasks.insertionSort createdBefore).map (·.id)).Nodup :=
      (hperm.map _).nodup_iff.mpr hids
    rw [rankedFrom_iff_rank (pairwise_insertionSort createdBefore tasks) hids'] at hnot
    push Not at hnot
    obtain ⟨t, ht, q, hq, hne⟩ := hnot
    rw [rank_perm hperm] at hne
    exact ⟨_, rfl, .mismatch t q ((hmem t).mp ht) hq hne⟩
  · rw [hpass] at h
    obtain rfl : OrderError.integrity issueId .activeNullSequence = e := Except.error.inj h
    exact ⟨_, rfl, .activeNull t hrepair ((hmem t).mp ht) hactive hnull⟩
  · rw [hpass] at h
    cases hrepair : repairLineageProjections ns snapshots rows with
    | error reason =>
      simp only [mapError_ok, ok_bind, hrepair, mapError_error, error_bind] at h
      cases h
      exact ⟨reason, rfl, .blocked reason (repairLoop_error hrepair) ⟨n, rows, hpass, hrepair⟩⟩
    | ok result =>
      simp only [mapError_ok, ok_bind, hrepair] at h
      cases h

/-- What a passed integrity check made of ranked rows. -/
structure Ensured (repairNulls : Bool) (tasks rows : List Task) (report : IntegrityReport) :
    Prop where
  same : List.Forall₂ SameTurn tasks rows
  ranked : Ranked rows
  /-- A repair leaves nothing to repair. -/
  dense : repairNulls = true → WellOrdered rows
  maximum : repairNulls = true → report.maxSequence = tasks.length

theorem Ranked.ensure_spec (hranked : Ranked tasks)
    {report : IntegrityReport}
    (h : ensureIssueOrderIntegrityLocked ns snapshots issueId repairNulls tasks =
      .ok (report, rows)) : Ensured repairNulls tasks rows report := by
  have hsort : tasks.insertionSort createdBefore = tasks := hranked.created.insertionSort_eq
  unfold ensureIssueOrderIntegrityLocked at h
  rw [hsort] at h
  by_cases hempty : tasks.isEmpty = true
  · obtain rfl := List.isEmpty_iff.mp hempty
    cases h
    exact ⟨.nil, hranked, fun _ => ⟨trivial, .nil, nodup_nil, by simp⟩, fun _ => rfl⟩
  · rw [if_neg hempty] at h
    obtain ⟨⟨n, numbered⟩, hpass, h⟩ := bind_eq_ok_iff.mp h
    obtain ⟨⟨m, rows'⟩, hrepair, hret⟩ := bind_eq_ok_iff.mp h
    obtain ⟨rfl, rfl⟩ := Prod.mk.inj (Except.ok.inj hret)
    have hpass := mapError_eq_ok_iff.mp hpass
    have hrepair := mapError_eq_ok_iff.mp hrepair
    -- the sequence pass kept the turns, so the lineage pass sorts nothing
    rcases ensureSequences_cases repairNulls tasks with
      ⟨-, hpass'⟩ | ⟨-, -, hpass'⟩ | ⟨-, n', numbered', hpass', hsame, hseq, hdense⟩
    · exact nomatch hpass.symm.trans hpass'
    · exact nomatch hpass.symm.trans hpass'
    obtain ⟨rfl, rfl⟩ := Prod.mk.inj (Except.ok.inj (hpass.symm.trans hpass'))
    have hnumbered : Ranked numbered := hranked.rewritten hsame hseq
    unfold repairLineageProjections at hrepair
    rw [hnumbered.created.insertionSort_eq] at hrepair
    have hrows := repairLoop_repaired (by simp) hrepair
    have hkept : List.Forall₂ SameTurn numbered rows' :=
      hrows.imp fun _ _ hrow => sameTurn_of_repaired hrow
    have hranked' : Ranked rows' := hnumbered.rewritten hkept
      (hseq.congr (fun t r hrow => (keepsOrder_repaired t r hrow).2.1) hrows)
    have hwell : repairNulls = true → WellOrdered rows' := by
      intro hb
      refine ⟨sequencedFrom_congr keepsOrder_repaired hrows (hdense hb), hranked'.created,
        hranked'.ids, ?_⟩
      intro r hr
      obtain ⟨t, -, hrow⟩ := Table.exists_of_mem_rewritten hrows hr
      obtain ⟨p, hp, -⟩ := hrow.projection
      exact taskProjection_isSome_iff.mp (by simp [hp])
    refine ⟨sameTurns_trans hsame hkept, hranked', hwell, ?_⟩
    intro hb
    rw [(hwell hb).maxSequence_eq, ← hkept.length_eq, ← hsame.length_eq]

end Integrity

/-! ### The System -/

/-- The row of a writer that knows neither sequences nor lineages, with any other columns. -/
def legacyTask (newId : Nat) (now : DateTime) (task : Task) : Task :=
  { task with id := newId, createdAt := now, issueSequence := none }

/-- One serial operation on the Issue. -/
inductive Label where
  /-- A writer from before migration 068 inserts a row. -/
  | legacy (task : Task) (snapshot : Option WorkerSnapshot)
  /-- A committed integrity check. -/
  | repair (repairNulls : Bool)
  /-- Appends, retries and the writes that touch neither order nor sequence. -/
  | writer (l : IssueTaskLineage.Label)

/-- One Issue from its first Task on; a refused operation rolls back and is not a step. -/
def issueHistory (ns : String → Option String → String) (issueId : Nat) :
    System State Label where
  init := fun s => s.tasks = []
  next := fun s l =>
    match l with
    | .legacy task snapshot =>
      some { s with
        tasks := s.tasks ++ [legacyTask s.nextId s.clock task]
        nextId := s.nextId + 1
        snapshots := setColumn s.snapshots s.nextId snapshot }
    | .repair repairNulls =>
      match ensureIssueOrderIntegrityLocked ns s.snapshots issueId repairNulls s.tasks with
      | .error _ => none
      | .ok (_, tasks) => some { s with tasks }
    | .writer l => (issueLineage ns issueId).next s l

/-! ### Invariants -/

/-- What every history maintains. -/
structure Inv (s : State) : Prop where
  ranked : Ranked s.tasks
  /-- Rows are in the past of the clock and of the id sequence. -/
  past : ∀ t ∈ s.tasks, t.createdAt ≤ s.clock ∧ t.id < s.nextId

section Steps

variable {ns : String → Option String → String} {issueId : Nat} {s : State}

variable {new : Task} {newId : Nat} {now : DateTime} {report : IntegrityReport} {s' : State}

theorem Inv.append (h : Inv s) (hid : new.id = s.nextId)
    (hcreated : new.createdAt = s.clock)
    (hseq : ∀ q, new.issueSequence = some q → q = s.tasks.length + 1)
    (snapshots : Nat → Option WorkerSnapshot) (outputSessions : Nat → Option String) :
    Inv { s with tasks := s.tasks ++ [new], nextId := s.nextId + 1, snapshots,
                 outputSessions } := by
  refine ⟨⟨?_, created_append h.ranked.created h.past hid hcreated,
    ids_append h.ranked.ids (fun t ht => (h.past t ht).2) hid⟩, past_append h.past hid hcreated⟩
  refine rankedFrom_append.mpr ⟨h.ranked.sequences, ?_, trivial⟩
  intro q hq
  rw [hseq q hq, Nat.add_comm]

theorem Inv.rewritten (h : Inv s) {rows : List Task} (hrows : List.Forall₂ SameTurn s.tasks rows)
    (hseq : RankedFrom 1 rows) : Inv { s with tasks := rows } := by
  refine ⟨h.ranked.rewritten hrows hseq, ?_⟩
  intro r hr
  obtain ⟨t, ht, hrow⟩ := Table.exists_of_mem_rewritten hrows hr
  rw [hrow.id, hrow.created]
  exact h.past t ht

/-- A successful append wrote the repaired rows, and behind them the Task with the number
    after the maximum. -/
theorem Ranked.create_spec {tasks tasks' : List Task} (hranked : Ranked tasks)
    {snapshots : Nat → Option WorkerSnapshot}
    {request : AppendRequest}
    (hok : createTaskRecord ns snapshots issueId newId now request tasks = .ok tasks') :
    ∃ report rows p, Ensured true tasks rows report ∧
      tasks' = rows ++ [newTask issueId newId now request rows.length p] := by
  unfold createTaskRecord at hok
  obtain ⟨⟨report, rows⟩, hensure, hrest⟩ := bind_eq_ok_iff.mp hok
  obtain ⟨rows', hcheck, hrest'⟩ := bind_eq_ok_iff.mp hrest
  obtain ⟨p, -, hret⟩ := bind_eq_ok_iff.mp hrest'
  have hspec := hranked.ensure_spec hensure
  obtain rfl := checkAppendTime_rows (hspec.dense rfl) hcheck
  refine ⟨report, rows', p, hspec, ?_⟩
  rw [← Except.ok.inj hret, hspec.maximum rfl, hspec.same.length_eq]

theorem Ranked.retry_spec {tasks tasks' : List Task} (hranked : Ranked tasks)
    {snapshots : Nat → Option WorkerSnapshot} {outputSessions : Nat → Option String}
    {request : RetryRequest} {source : Task}
    (hok : retryTaskRecord ns snapshots issueId outputSessions newId now request source tasks =
      .ok tasks') :
    ∃ report rows source' mode fresh p, Ensured true tasks rows report ∧
      tasks' = rows ++ [retryTask newId now request source' mode fresh rows.length p] := by
  unfold retryTaskRecord at hok
  cases hsnapshot : snapshots source.id with
  | none =>
    rw [hsnapshot] at hok
    cases hok
  | some snapshot =>
    rw [hsnapshot] at hok
    obtain ⟨⟨report, rows⟩, hensure, hrest⟩ := bind_eq_ok_iff.mp hok
    obtain ⟨p, -, hrest'⟩ := bind_eq_ok_iff.mp hrest
    obtain ⟨rows', hcheck, hret⟩ := bind_eq_ok_iff.mp hrest'
    have hspec := hranked.ensure_spec (mapError_eq_ok_iff.mp hensure)
    obtain rfl := checkAppendTime_rows (hspec.dense rfl) (mapError_eq_ok_iff.mp hcheck)
    rw [hspec.maximum rfl, hspec.same.length_eq] at hret
    exact ⟨report, rows', _, _, _, p, hspec, (Except.ok.inj hret).symm⟩

theorem Inv.update (h : Inv s) {taskId : Nat} {f : Task → Task} (hid : ∀ t, (f t).id = t.id)
    (hseq : ∀ t, (f t).issueSequence = t.issueSequence)
    (hcreated : ∀ t, (f t).createdAt = t.createdAt) :
    Inv { s with tasks := updateTask taskId f s.tasks } := by
  have hrow : ∀ t, (if t.id = taskId then f t else t).id = t.id ∧
      (if t.id = taskId then f t else t).issueSequence = t.issueSequence ∧
      (if t.id = taskId then f t else t).createdAt = t.createdAt := by
    intro t
    split
    · exact ⟨hid t, hseq t, hcreated t⟩
    · exact ⟨rfl, rfl, rfl⟩
  have hrows : List.Forall₂ (fun t r => SameTurn t r ∧ r.issueSequence = t.issueSequence)
      s.tasks (updateTask taskId f s.tasks) := by
    unfold updateTask
    rw [forall₂_map_right_iff, forall₂_same]
    intro t _
    obtain ⟨h₁, h₂, h₃⟩ := hrow t
    exact ⟨⟨h₁, h₃, fun q hq => h₂.trans hq⟩, h₂⟩
  exact h.rewritten (hrows.imp fun _ _ hr => hr.1)
    (h.ranked.sequences.congr (fun _ _ hr => hr.2) hrows)

theorem Inv.repair (h : Inv s) {repairNulls : Bool}
    {rows : List Task}
    (hok : ensureIssueOrderIntegrityLocked ns s.snapshots issueId repairNulls s.tasks =
      .ok (report, rows)) : Inv { s with tasks := rows } := by
  have hspec := h.ranked.ensure_spec hok
  exact h.rewritten hspec.same hspec.ranked.sequences

theorem Inv.appended (h : Inv s) {rows : List Task}
    (hspec : Ensured true s.tasks rows report) (hid : new.id = s.nextId)
    (hcreated : new.createdAt = s.clock) (hseq : new.issueSequence = some (rows.length + 1))
    (snapshots : Nat → Option WorkerSnapshot) (outputSessions : Nat → Option String) :
    Inv { s with tasks := rows ++ [new], nextId := s.nextId + 1, snapshots, outputSessions } := by
  have hrows : Inv { s with tasks := rows } := h.rewritten hspec.same hspec.ranked.sequences
  refine hrows.append hid hcreated ?_ snapshots outputSessions
  intro q hq
  exact some.inj (hq.symm.trans hseq)

theorem Inv.writer (h : Inv s) {l : IssueTaskLineage.Label}
    (hstep : (issueLineage ns issueId).next s l = some s') : Inv s' := by
  cases lineageStep_of_next ns hstep with
  | create hok =>
    obtain ⟨report, rows, p, hspec, rfl⟩ := h.ranked.create_spec hok
    exact h.appended hspec rfl rfl rfl _ _
  | retry _ hok =>
    obtain ⟨report, rows, source', mode, fresh, p, hspec, rfl⟩ := h.ranked.retry_spec hok
    exact h.appended hspec rfl rfl rfl _ _
  | repair hok => exact h.repair hok
  | setStatus => exact h.update (fun _ => rfl) (fun _ => rfl) (fun _ => rfl)
  | editSnapshot | start | record => exact ⟨h.ranked, h.past⟩
  | elapse =>
    refine ⟨h.ranked, ?_⟩
    intro t ht
    have hpast := h.past t ht
    exact ⟨Int.le_trans hpast.1 (Int.le_add_of_nonneg_right (Int.natCast_nonneg _)),
      by simp only; omega⟩

theorem Inv.step (h : Inv s) {l : Label}
    (hstep : (issueHistory ns issueId).next s l = some s') : Inv s' := by
  simp only [issueHistory] at hstep
  cases l with
  | legacy task snapshot =>
    cases hstep
    refine h.append rfl rfl ?_ _ _
    intro q hq
    cases hq
  | repair repairNulls =>
    simp only at hstep
    split at hstep
    · cases hstep
    next report rows hok =>
    cases hstep
    exact h.repair hok
  | writer l => exact h.writer hstep

theorem inv_reachable (hs : (issueHistory ns issueId).Reachable System.anyStep s) : Inv s := by
  refine hs.invariant ?_ (fun _ _ _ h _ hstep => h.step hstep)
  intro s₀ hinit
  have hempty : s₀.tasks = [] := hinit
  refine ⟨?_, by simp [hempty]⟩
  rw [hempty]
  exact ⟨trivial, .nil, nodup_nil⟩

end Steps

/-! ### Density -/

theorem map_sequence_of_sequencedFrom {rows : List Task} (h : SequencedFrom k rows) :
    rows.map (·.issueSequence) = (List.range' k rows.length).map some := by
  induction rows generalizing k with
  | nil => rfl
  | cons task rest ih =>
    simp only [map_cons, length_cons, range'_succ, h.1, ih h.2]

/-- What holds of the sequence numbers of an Issue. -/
structure Density (ns : String → Option String → String) (issueId : Nat) (s : State) : Prop where
  /-- Verification and allocation agree. -/
  ranked : ∀ t ∈ s.tasks, ∀ q, t.issueSequence = some q → q = rank s.tasks t
  /-- After a repair the numbers are `1, ..., n`, and `max_sequence` is `n`. -/
  dense : ∀ report rows,
    ensureIssueOrderIntegrityLocked ns s.snapshots issueId true s.tasks = .ok (report, rows) →
      rows.map (·.issueSequence) = (List.range' 1 s.tasks.length).map some ∧
      report.maxSequence = s.tasks.length
  /-- No check changes a number, a creation time or an id. -/
  kept : ∀ repairNulls report rows,
    ensureIssueOrderIntegrityLocked ns s.snapshots issueId repairNulls s.tasks =
      .ok (report, rows) → List.Forall₂ SameTurn s.tasks rows
  /-- A second repair changes nothing. -/
  settled : ∀ report rows,
    ensureIssueOrderIntegrityLocked ns s.snapshots issueId true s.tasks = .ok (report, rows) →
      ∀ snapshots, ∃ report',
        ensureIssueOrderIntegrityLocked ns snapshots issueId true rows = .ok (report', rows) ∧
        report'.repairedSequences = 0 ∧ report'.repairedProjections = 0
  /-- A check that raises has found one of the three faults, and no mismatch. -/
  raised : ∀ repairNulls e,
    ensureIssueOrderIntegrityLocked ns s.snapshots issueId repairNulls s.tasks = .error e →
      ∃ reason, e = .integrity issueId reason ∧ reason ≠ .sequenceMismatch ∧
        Refused ns s.snapshots repairNulls s.tasks reason

/-- **Sequence density**: verification by rank and allocation by maximum agree in every
    history of appends, repairs and legacy rows. -/
theorem sequence_density (ns : String → Option String → String) (issueId : Nat) {s : State}
    (hs : (issueHistory ns issueId).Reachable System.anyStep s) : Density ns issueId s := by
  have hinv := inv_reachable hs
  have hrank := (rankedFrom_iff_rank hinv.ranked.created hinv.ranked.ids).mp hinv.ranked.sequences
  refine ⟨hrank, ?_, ?_, ?_, ?_⟩
  · intro report rows hok
    have hspec := hinv.ranked.ensure_spec hok
    rw [map_sequence_of_sequencedFrom (hspec.dense rfl).sequenced, hspec.same.length_eq]
    exact ⟨rfl, (hspec.maximum rfl).trans hspec.same.length_eq⟩
  · intro repairNulls report rows hok
    exact (hinv.ranked.ensure_spec hok).same
  · intro report rows hok snapshots
    have hwell := (hinv.ranked.ensure_spec hok).dense rfl
    exact ⟨_, hwell.ensureIssueOrderIntegrityLocked_eq ns snapshots issueId true, rfl, rfl⟩
  · intro repairNulls e herror
    obtain ⟨reason, he, hrefused⟩ := ensure_refused hinv.ranked.ids herror
    refine ⟨reason, he, ?_, hrefused⟩
    cases hrefused with
    | mismatch t q ht hq hne => exact absurd (hrank t ht q hq) hne
    | activeNull t _ _ _ _ => intro hcontra; cases hcontra
    | blocked reason hreason _ =>
      rcases hreason with rfl | rfl <;> (intro hcontra; cases hcontra)

/-- A legacy row, an append, a legacy row with the same creation time, an append. -/
def mixedHistory : List Label :=
  [.legacy { id := 0, issueId := 1, status := .failed } none,
   .writer (.create { harnessKey := "claude" }),
   .writer (.elapse 5 2),
   .legacy { id := 0, issueId := 1, status := .completed } none]

theorem sequence_density_mixed :
    ∃ s, (issueHistory sampleNamespace 1).Reachable System.anyStep s ∧
      s.tasks.map (fun t => (t.id, t.issueSequence)) = [(1, some 1), (2, some 2), (5, none)] ∧
      Density sampleNamespace 1 s := by
  have hreach := System.reachable_of_exec (show ({} : State).tasks = [] from rfl)
    (show (issueHistory sampleNamespace 1).exec {} mixedHistory = some _ from rfl)
  exact ⟨_, hreach, rfl, sequence_density sampleNamespace 1 hreach⟩

end Codify.SequenceDensity
