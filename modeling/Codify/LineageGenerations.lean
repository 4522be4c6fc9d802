import Codify.IssueTaskLineage

/-! # One Generation, One Lineage

    What the backfill, the repair and the append of app/core/issue_task_order.py do to
    the projected lineages of an Issue. `Follows p b` says that `b` may stand after a
    Task projected as `p`; a list of Tasks is coherent when every Task follows every
    earlier one. The backfill builds coherent rows, and a repair or an append keeps them
    coherent where the three assignments of generations agree (`Agreeing`).
-/

namespace Codify.IssueTaskLineage

open Codify Codify.Framework Codify.IssueTaskOrder Codify.IssueSchedule List Option Table

/-! ### Coherent Rows -/

/-- The Task is a fresh turn: by its session mode, or as it was projected. A
    `fresh_retry` stores `continue` in `session_mode`. -/
def Fresh (t : Task) : Prop :=
  t.sessionMode = .fresh ∨ t.lineageProjectionReason = some .fresh ∨
    (t.lineageProjectionReason = some .initial ∧ t.projectedLineageGeneration.any (0 < ·))

/-- `b` may stand after a Task projected as `p`: it opens a later generation, or it is no
    fresh turn and stays in the lineage of `p`. -/
def Follows (p : Projection) (b : Task) : Prop :=
  ∀ q, taskProjection b = some q →
    p.generation < q.generation ∨
      (p.generation = q.generation ∧ p.harnessKey = q.harnessKey ∧
        p.sessionNamespace = q.sessionNamespace ∧ ¬ Fresh b)

def Coherent (tasks : List Task) : Prop :=
  tasks.Pairwise fun a b => ∀ p, taskProjection a = some p → Follows p b

/-- A projection whose generation above 0 names its reset point. -/
def Complete (p : Projection) : Prop := 0 < p.generation → p.resetTaskId.isSome

variable {b a new : Task} {p q : Projection} {rows tasks : List Task} {key space : String}
  {R : Task → Task → Prop} {k nextId : Nat} {clock : DateTime} {mode : SessionMode}

theorem Follows.of_unprojected (h : taskProjection b = none) :
    Follows p b := by
  intro q hq
  rw [h] at hq
  cases hq

theorem Follows.trans {b c : Task} (hpb : Follows p b)
    (hb : taskProjection b = some q) (hqc : Follows q c) : Follows p c := by
  intro r hr
  rcases hpb q hb with hlt | ⟨hgen, hkey, hns, -⟩
  · rcases hqc r hr with hlt' | ⟨hgen', -⟩
    · left
      omega
    · left
      omega
  · rcases hqc r hr with hlt' | ⟨hgen', hkey', hns', hfresh⟩
    · left
      omega
    · right
      exact ⟨hgen.trans hgen', hkey.trans hkey', hns.trans hns', hfresh⟩

theorem Follows.congr {p p' : Projection} (h : Follows p b)
    (hgen : p'.generation = p.generation) (hkey : p'.harnessKey = p.harnessKey)
    (hns : p'.sessionNamespace = p.sessionNamespace) : Follows p' b := by
  intro q hq
  rw [hgen, hkey, hns]
  exact h q hq

theorem Coherent.cons {t : Task} (hco : Coherent rows)
    (hp : taskProjection t = some p) (hafter : ∀ b ∈ rows, Follows p b) : Coherent (t :: rows) := by
  refine pairwise_cons.mpr ⟨?_, hco⟩
  intro b hb q hq
  obtain rfl : p = q := some.inj (hp.symm.trans hq)
  exact hafter b hb

theorem Follows.cons {t : Task} (hqt : Follows q t)
    (hp : taskProjection t = some p) (hafter : ∀ b ∈ rows, Follows p b) :
    ∀ b ∈ t :: rows, Follows q b := by
  intro b hb
  rcases mem_cons.mp hb with rfl | hb
  · exact hqt
  · exact hqt.trans hp (hafter b hb)

theorem Coherent.lineage_eq (hco : Coherent tasks)
    (ha : a ∈ tasks) (hb : b ∈ tasks) (hp : taskProjection a = some p)
    (hq : taskProjection b = some q) (hgen : p.generation = q.generation) :
    p.harnessKey = q.harnessKey ∧ p.sessionNamespace = q.sessionNamespace := by
  let Same : Task → Task → Prop := fun a b =>
    ∀ p q, taskProjection a = some p → taskProjection b = some q →
      p.generation = q.generation →
      p.harnessKey = q.harnessKey ∧ p.sessionNamespace = q.sessionNamespace
  have hsymm : ∀ {a b}, Same a b → flip Same a b := by
    intro a b hab p q hp hq hgen
    obtain ⟨hkey, hspace⟩ := hab q p hq hp hgen.symm
    exact ⟨hkey.symm, hspace.symm⟩
  have hrefl : ∀ a ∈ tasks, Same a a := by
    intro a _ p q hp hq _
    obtain rfl : p = q := some.inj (hp.symm.trans hq)
    exact ⟨rfl, rfl⟩
  have hpair : tasks.Pairwise Same := by
    refine hco.imp ?_
    intro a b hab p q hp hq hgen
    rcases hab p hp q hq with hlt | ⟨-, hkey, hspace, -⟩
    · omega
    · exact ⟨hkey, hspace⟩
  exact List.Pairwise.forall_of_forall_of_flip hrefl hpair (hpair.imp hsymm) ha hb p q hp hq hgen

theorem taskProjection_isSome_iff {t : Task} :
    (taskProjection t).isSome = true ↔ hasFullProjection t = true := by
  constructor
  · intro h
    by_contra hfull
    rw [Bool.not_eq_true] at hfull
    simp [taskProjection, hfull] at h
  · intro h
    have hcolumns : t.projectedHarnessKey.isSome ∧ t.projectedSessionNamespace.isSome ∧
        t.projectedLineageGeneration.isSome ∧ t.lineageProjectionReason.isSome := by
      unfold hasFullProjection at h
      split at h
      · cases h
      next hnull =>
      simp only [Bool.or_eq_true, not_or, isNone_iff_eq_none, ← isSome_iff_ne_none] at hnull
      exact ⟨hnull.1.1.1, hnull.1.1.2, hnull.1.2, hnull.2⟩
    obtain ⟨hk, hn, hg, hr⟩ := hcolumns
    obtain ⟨key, hk⟩ := isSome_iff_exists.mp hk
    obtain ⟨space, hn⟩ := isSome_iff_exists.mp hn
    obtain ⟨generation, hg⟩ := isSome_iff_exists.mp hg
    obtain ⟨reason, hr⟩ := isSome_iff_exists.mp hr
    simp [taskProjection, h, hk, hn, hg, hr]

theorem taskProjection_eq_none_iff {t : Task} :
    taskProjection t = none ↔ hasFullProjection t = false := by
  rw [← not_isSome_iff_eq_none, taskProjection_isSome_iff, Bool.not_eq_true]

theorem taskProjection_columns {t : Task} (h : taskProjection t = some p) :
    t.projectedHarnessKey = some p.harnessKey ∧
      t.projectedSessionNamespace = some p.sessionNamespace ∧
      t.projectedLineageGeneration = some p.generation ∧
      t.projectedResetTaskId = p.resetTaskId ∧ t.lineageProjectionReason = some p.reason := by
  cases hk : t.projectedHarnessKey <;> cases hn : t.projectedSessionNamespace <;>
    cases hg : t.projectedLineageGeneration <;> cases hr : t.lineageProjectionReason <;>
    simp [taskProjection, hasFullProjection, hk, hn, hg, hr] at h
  obtain ⟨-, rfl⟩ := h
  simp

theorem taskProjection_of_full {t : Task}
    (h : hasFullProjection (setProjection t p) = true) :
    taskProjection (setProjection t p) = some p := by
  simp only [taskProjection, h, Bool.not_true, Bool.false_eq_true, if_false]
  rfl

attribute [local simp] setProjection backfilledProjection lineageOf

theorem taskProjection_setProjection {t : Task} (h : Complete p) :
    taskProjection (setProjection t p) = some p := by
  apply taskProjection_of_full
  cases hreset : p.resetTaskId with
  | none =>
    have : ¬ 0 < p.generation := fun hpos => by simpa [hreset] using h hpos
    simp [hasFullProjection, hreset, this]
  | some r => simp [hasFullProjection, hreset]

/-! ### The Assignments -/

theorem derivedLineage_isSome (ns : String → Option String → String)
    (snapshots : Nat → Option WorkerSnapshot) {t : Task} (h : t.status.active = false) :
    (derivedLineage ns snapshots t).isSome := by
  unfold derivedLineage
  cases hfrozen : (snapshots t.id).bind fun s =>
      (s.harnessKey.filter (· != "")).map (·, s.endpointFingerprint) with
  | some frozen => simp
  | none => simp [h]

/-- What the backfill assigns is complete, names the derived lineage, and follows the
    tail it was computed from. -/
theorem backfilledProjection_spec {tail : Option Projection} (t : Task) (key space : String)
    (htail : ∀ p, tail = some p → Complete p) :
    Complete (backfilledProjection tail t key space) ∧
      (backfilledProjection tail t key space).harnessKey = key ∧
      (backfilledProjection tail t key space).sessionNamespace = space ∧
      ∀ p, tail = some p →
        Follows p (setProjection t (backfilledProjection tail t key space)) := by
  have hcomplete : Complete (backfilledProjection tail t key space) := by
    unfold Complete backfilledProjection
    cases tail with
    | none =>
      intro hpos
      by_cases hmode : t.sessionMode = .fresh <;> simp_all
    | some p =>
      by_cases hmode : t.sessionMode = .fresh
      · simp [hmode]
      · by_cases hsame : key = p.harnessKey ∧ space = p.sessionNamespace
        · simpa [Complete, hmode, hsame] using htail p rfl
        · simp [hmode, hsame]
  refine ⟨hcomplete, ?_, ?_, ?_⟩
  · unfold backfilledProjection
    split <;> (try split) <;> (try split) <;> rfl
  · unfold backfilledProjection
    split <;> (try split) <;> (try split) <;> rfl
  · rintro p rfl q hq
    rw [taskProjection_setProjection hcomplete] at hq
    cases hq
    by_cases hmode : t.sessionMode = .fresh
    · left
      simp [hmode]
    · by_cases hsame : key = p.harnessKey ∧ space = p.sessionNamespace
      · right
        simp [hmode, hsame, Fresh]
      · left
        simp [hmode, hsame]

theorem followingProjection_eq {tail : Option Projection} {t : Task}
    (h : followingProjection tail t key space = some p) :
    p = backfilledProjection tail t key space := by
  unfold followingProjection at h
  unfold backfilledProjection
  cases tail with
  | none => exact (some.inj h).symm
  | some q =>
    simp only at h ⊢
    split at h
    · next hmode =>
      rw [if_pos hmode]
      exact (some.inj h).symm
    · next hmode =>
      rw [if_neg hmode]
      split at h
      · next hsame =>
        rw [if_pos hsame]
        exact (some.inj h).symm
      · next hsame =>
        rw [if_neg hsame]
        split at h
        · cases h
        · exact (some.inj h).symm

/-! ### Repairs -/

section Repairs

variable {ns : String → Option String → String} {snapshots : Nat → Option WorkerSnapshot}

variable {n m : Nat} {tasks rows : List Task}

/-- One iteration of a repair that does not block: a projected row is the new tail, any
    other is filled from its derived lineage. -/
theorem repairLoop_cons {tail : Option Projection} {task : Task}
    {rest rows : List Task}
    (h : repairLoop ns snapshots tail n (task :: rest) = .ok (m, rows)) :
    (hasFullProjection task = true ∧ ∃ rows', rows = task :: rows' ∧
      repairLoop ns snapshots (taskProjection task) n rest = .ok (m, rows')) ∨
    (hasFullProjection task = false ∧ ∃ key space p rows',
      derivedLineage ns snapshots task = some (key, space) ∧
      followingProjection tail task key space = some p ∧
      rows = setProjection task p :: rows' ∧
      repairLoop ns snapshots (some p) (n + 1) rest = .ok (m, rows')) := by
  unfold repairLoop at h
  split at h
  · next hfull =>
    obtain ⟨⟨m', rows'⟩, hrest, hret⟩ := bind_eq_ok_iff.mp h
    obtain ⟨rfl, rfl⟩ := hret
    exact .inl ⟨hfull, rows', rfl, hrest⟩
  · next hfull =>
    rw [Bool.not_eq_true] at hfull
    split at h
    · next hnone =>
      split at h
      · cases h
      next hactive =>
      -- a terminal Task always has a derived lineage
      rw [Bool.not_eq_true] at hactive
      have := derivedLineage_isSome ns snapshots hactive
      rw [hnone] at this
      cases this
    · next key space hderived =>
      split at h
      · cases h
      next p hp =>
      obtain ⟨⟨m', rows'⟩, hrest, hret⟩ := bind_eq_ok_iff.mp h
      obtain ⟨rfl, rfl⟩ := hret
      exact .inr ⟨hfull, key, space, p, rows', hderived, hp, rfl, hrest⟩

def Repaired (ns : String → Option String → String) (snapshots : Nat → Option WorkerSnapshot)
    (t r : Task) : Prop :=
  (hasFullProjection t = true ∧ r = t) ∨
    (hasFullProjection t = false ∧ ∃ p, r = setProjection t p ∧ Complete p ∧
      derivedLineage ns snapshots t = some (p.harnessKey, p.sessionNamespace))

theorem repairLoop_repaired {tail : Option Projection}
    (htail : ∀ p, tail = some p → Complete p)
    (h : repairLoop ns snapshots tail n tasks = .ok (m, rows)) :
    List.Forall₂ (Repaired ns snapshots) tasks rows := by
  induction tasks generalizing tail n rows with
  | nil =>
    obtain ⟨-, rfl⟩ := h
    exact .nil
  | cons task rest ih =>
    rcases repairLoop_cons h with
      ⟨hfull, rows', rfl, hrest⟩ | ⟨hfull, key, space, p, rows', hderived, hp, rfl, hrest⟩
    · exact .cons (.inl ⟨hfull, rfl⟩) (ih (fun p hp => taskProjection_reset hp) hrest)
    · obtain rfl := followingProjection_eq hp
      obtain ⟨hcomplete, hkey, hspace, -⟩ :=
        backfilledProjection_spec task key space htail
      refine .cons (.inr ⟨hfull, _, rfl, hcomplete, by rw [hkey, hspace, hderived]⟩) (ih ?_ hrest)
      rintro p hp
      cases hp
      exact hcomplete

variable {t r : Task}

/-- A repaired row is projected, with the lineage it had or was derived to have. -/
theorem Repaired.projection (h : Repaired ns snapshots t r) :
    ∃ p, taskProjection r = some p ∧
      lineageOf ns snapshots t = some (p.harnessKey, p.sessionNamespace) := by
  rcases h with ⟨hfull, rfl⟩ | ⟨hfull, p, rfl, hcomplete, hderived⟩
  · obtain ⟨p, hp⟩ := isSome_iff_exists.mp (taskProjection_isSome_iff.mpr hfull)
    exact ⟨p, hp, by simp [hp]⟩
  · refine ⟨p, taskProjection_setProjection hcomplete, ?_⟩
    simp [taskProjection_eq_none_iff.mpr hfull, hderived]

theorem Repaired.columns (h : Repaired ns snapshots t r) :
    r.id = t.id ∧ r.issueSequence = t.issueSequence ∧ r.createdAt = t.createdAt ∧
      r.sessionMode = t.sessionMode := by
  rcases h with ⟨-, rfl⟩ | ⟨-, p, rfl, -⟩
  · exact ⟨rfl, rfl, rfl, rfl⟩
  · exact ⟨rfl, rfl, rfl, rfl⟩

theorem Repaired.kept (h : Repaired ns snapshots t r) {p : Projection}
    (hp : taskProjection t = some p) : r = t := by
  rcases h with ⟨-, rfl⟩ | ⟨hfull, -⟩
  · rfl
  · rw [taskProjection_eq_none_iff.mpr hfull] at hp
    cases hp

/-- **Repair**: coherent rows stay coherent when every unprojected Task before a
    projected one inherits the lineage before it. -/
theorem repairLoop_coherent {tail : Option Projection}
    (hcomplete : ∀ p, tail = some p → Complete p)
    (h : repairLoop ns snapshots tail n tasks = .ok (m, rows)) (hco : Coherent tasks)
    (htail : ∀ p, tail = some p → ∀ b ∈ tasks, Follows p b)
    (hgaps : GapsInherit ns snapshots
      (tail.map fun p => (p.harnessKey, p.sessionNamespace)) tasks) :
    Coherent rows ∧ ∀ p, tail = some p → ∀ b ∈ rows, Follows p b := by
  induction tasks generalizing tail n rows with
  | nil =>
    obtain ⟨-, rfl⟩ := h
    exact ⟨List.Pairwise.nil, by simp⟩
  | cons task rest ih =>
    obtain ⟨hhead, hrestco⟩ := pairwise_cons.mp hco
    obtain ⟨hgap, hgaps⟩ := hgaps
    rcases repairLoop_cons h with
      ⟨hfull, rows', rfl, hrest⟩ | ⟨hfull, key, space, p', rows', hderived, hp, rfl, hrest⟩
    · -- a projected row: it is the tail of the rest, and the old tail is before it
      obtain ⟨q, hq⟩ := isSome_iff_exists.mp (taskProjection_isSome_iff.mpr hfull)
      rw [hq] at hrest
      have hlineage : lineageOf ns snapshots task = some (q.harnessKey, q.sessionNamespace) := by
        simp [hq]
      rw [hlineage] at hgaps
      obtain ⟨hco', hq'⟩ := ih
        (by rintro p hp; obtain rfl := some.inj hp; exact taskProjection_reset hq)
        hrest hrestco
        (by rintro p hp b hb; obtain rfl := some.inj hp; exact hhead b hb q hq) hgaps
      have hafter : ∀ b ∈ rows', Follows q b := hq' q rfl
      refine ⟨hco'.cons hq hafter, ?_⟩
      intro p hp
      exact (htail p hp task mem_cons_self).cons hq hafter
    · -- a filled row: it follows the tail, and what stands after it follows it
      obtain rfl := followingProjection_eq hp
      obtain ⟨hdone, hkey, hspace, hfollows⟩ :=
        backfilledProjection_spec task key space hcomplete
      set p' := backfilledProjection tail task key space with hp'
      have hproj : taskProjection (setProjection task p') = some p' :=
        taskProjection_setProjection hdone
      have hlineage : lineageOf ns snapshots task = some (p'.harnessKey, p'.sessionNamespace) := by
        simp [taskProjection_eq_none_iff.mpr hfull, hderived, hkey, hspace]
      rw [hlineage] at hgaps
      have hlater : ∀ b ∈ rest, Follows p' b := by
        intro b hb
        rcases hgap with hcontra | hnone | ⟨hmode, hsome, heq⟩
        · rw [hfull] at hcontra
          cases hcontra
        · exact .of_unprojected (taskProjection_eq_none_iff.mpr (hnone b hb))
        · obtain ⟨q, hq, -⟩ : ∃ q, tail = some q ∧ True := by
            cases tail with
            | none => cases hsome
            | some q => exact ⟨q, rfl, trivial⟩
          rw [hq, hlineage, hkey, hspace, map_some, Option.some.injEq, Prod.mk.injEq] at heq
          have hinherit : p'.generation = q.generation := by
            simp [hp', hq, hmode, heq.1, heq.2]
          exact (htail q hq b (mem_cons_of_mem _ hb)).congr hinherit
            (hkey.trans heq.1.symm) (hspace.trans heq.2.symm)
      obtain ⟨hco', hq'⟩ := ih (by rintro p hp; obtain rfl := some.inj hp; exact hdone)
        hrest hrestco
        (by rintro p hp b hb; obtain rfl := some.inj hp; exact hlater b hb) hgaps
      have hafter : ∀ b ∈ rows', Follows p' b := hq' p' rfl
      exact ⟨hco'.cons hproj hafter, fun p hp => (hfollows p hp).cons hproj hafter⟩

end Repairs

/-! ### The Backfill -/

section Backfill

variable {ns : String → Option String → String} {snapshots : Nat → Option WorkerSnapshot}

def Backfilled (t r : Task) : Prop :=
  r = t ∨ ∃ p, Complete p ∧ r = setProjection t p

variable {tasks : List Task}

theorem backfillLineage_backfilled {tail : Option Projection}
    (htail : ∀ p, tail = some p → Complete p) :
    List.Forall₂ Backfilled tasks (backfillLineage ns snapshots tail tasks) := by
  induction tasks generalizing tail with
  | nil => exact .nil
  | cons task rest ih =>
    unfold backfillLineage
    split
    · exact .cons (.inl rfl) (ih htail)
    next key space _ =>
    obtain ⟨hdone, -⟩ := backfilledProjection_spec task key space htail
    refine .cons (.inr ⟨_, hdone, rfl⟩) (ih ?_)
    intro p hp
    cases hp
    exact hdone

theorem backfillLineage_coherent {tail : Option Projection}
    (htail : ∀ p, tail = some p → Complete p)
    (hnull : ∀ t ∈ tasks, hasFullProjection t = false) :
    Coherent (backfillLineage ns snapshots tail tasks) ∧
      ∀ p, tail = some p → ∀ b ∈ backfillLineage ns snapshots tail tasks, Follows p b := by
  induction tasks generalizing tail with
  | nil => exact ⟨List.Pairwise.nil, by simp [backfillLineage]⟩
  | cons task rest ih =>
    have hnull' : ∀ t ∈ rest, hasFullProjection t = false :=
      fun t ht => hnull t (mem_cons_of_mem _ ht)
    unfold backfillLineage
    split
    · -- an active Task without a snapshot: the tail stays where it is
      have hskip : taskProjection task = none :=
        taskProjection_eq_none_iff.mpr (hnull task mem_cons_self)
      obtain ⟨hco, hafter⟩ := ih htail hnull'
      refine ⟨pairwise_cons.mpr ⟨?_, hco⟩, ?_⟩
      · intro b _ p hp
        rw [hskip] at hp
        cases hp
      · intro p hp b hb
        rcases mem_cons.mp hb with rfl | hb
        · exact .of_unprojected hskip
        · exact hafter p hp b hb
    · next key space _ =>
      obtain ⟨hdone, -, -, hfollows⟩ := backfilledProjection_spec task key space htail
      have hproj := taskProjection_setProjection (t := task) hdone
      obtain ⟨hco, hafter⟩ := @ih (some _)
        (by intro p hp; obtain rfl := some.inj hp; exact hdone) hnull'
      exact ⟨hco.cons hproj (hafter _ rfl), fun p hp => (hfollows p hp).cons hproj (hafter _ rfl)⟩

end Backfill

/-! ### Ordered Rows -/

/-- Rows in creation order, numbered by their rank: `WellOrdered` without the projections. -/
structure Ordered (tasks : List Task) : Prop where
  sequenced : SequencedFrom 1 tasks
  created : tasks.Pairwise createdBefore
  ids : (tasks.map (·.id)).Nodup

theorem ordered_of_wellOrdered (h : WellOrdered tasks) : Ordered tasks :=
  ⟨h.sequenced, h.created, h.ids⟩

/-- `R` keeps the id, the rank and the creation time of a row. -/
def KeepsOrder (R : Task → Task → Prop) : Prop :=
  ∀ t r, R t r → r.id = t.id ∧ r.issueSequence = t.issueSequence ∧ r.createdAt = t.createdAt

theorem sequencedFrom_congr
    (hR : KeepsOrder R) (h : List.Forall₂ R tasks rows) (hseq : SequencedFrom k tasks) :
    SequencedFrom k rows := by
  induction h generalizing k with
  | nil => trivial
  | cons hrow _ ih => exact ⟨(hR _ _ hrow).2.1.trans hseq.1, ih hseq.2⟩

theorem map_created_congr
    (hR : ∀ t r, R t r → r.id = t.id ∧ r.createdAt = t.createdAt)
    (h : List.Forall₂ R tasks rows) :
    rows.map (fun t => (t.createdAt, t.id)) = tasks.map fun t => (t.createdAt, t.id) := by
  induction h with
  | nil => rfl
  | cons hrow _ ih =>
    obtain ⟨hid, hcreated⟩ := hR _ _ hrow
    simp only [map_cons, hid, hcreated, ih]

theorem map_id_of_map_created
    (h : rows.map (fun t => (t.createdAt, t.id)) = tasks.map fun t => (t.createdAt, t.id)) :
    rows.map (·.id) = tasks.map (·.id) := by
  have := congrArg (List.map Prod.snd) h
  simpa [List.map_map, Function.comp_def] using this

theorem pairwise_createdBefore_iff :
    tasks.Pairwise createdBefore ↔
      (tasks.map fun t => (t.createdAt, t.id)).Pairwise fun a b =>
        a.1 < b.1 ∨ (a.1 = b.1 ∧ a.2 ≤ b.2) := by
  rw [pairwise_map]
  rfl

theorem Ordered.congr (hord : Ordered tasks)
    (hR : KeepsOrder R) (h : List.Forall₂ R tasks rows) : Ordered rows := by
  have hmap := map_created_congr (fun t r hrow => ⟨(hR t r hrow).1, (hR t r hrow).2.2⟩) h
  refine ⟨sequencedFrom_congr hR h hord.sequenced, ?_, ?_⟩
  · rw [pairwise_createdBefore_iff, hmap, ← pairwise_createdBefore_iff]
    exact hord.created
  · rw [map_id_of_map_created hmap]
    exact hord.ids

/-- A row created after all others, with the next number, keeps the rows ordered. -/
theorem Ordered.append (hord : Ordered tasks)
    (hpast : ∀ t ∈ tasks, t.createdAt ≤ clock ∧ t.id < nextId)
    (hid : new.id = nextId) (hcreated : new.createdAt = clock)
    (hseq : new.issueSequence = some (tasks.length + 1)) : Ordered (tasks ++ [new]) := by
  refine ⟨?_, created_append hord.created hpast hid hcreated,
    ids_append hord.ids (fun t ht => (hpast t ht).2) hid⟩
  refine sequencedFrom_append hord.sequenced ?_
  rw [hseq, Nat.add_comm]

theorem sequencedFrom_split {rest : List Task} {last : Task}
    (h : SequencedFrom k (rest ++ [last])) :
    SequencedFrom k rest ∧ last.issueSequence = some (k + rest.length) := by
  induction rest generalizing k with
  | nil => exact ⟨trivial, h.1⟩
  | cons t rest ih =>
    obtain ⟨hrest, hlast⟩ := ih h.2
    refine ⟨⟨h.1, hrest⟩, ?_⟩
    rw [hlast, length_cons]
    congr 1
    omega

theorem tailTask_eq_getLast? (h : SequencedFrom k rows) :
    tailTask rows = rows.getLast? := by
  induction rows using reverseRecOn with
  | nil => rfl
  | append_singleton rest last _ =>
    have hlast : ∀ t ∈ rest, t.issueSequence.getD 0 < last.issueSequence.getD 0 := by
      intro t ht
      obtain ⟨hrest, hlast⟩ := sequencedFrom_split h
      obtain ⟨q, hq, -, hlt⟩ := hrest.bounds ht
      rw [hq, hlast]
      exact hlt
    show (rest ++ [last]).argmax _ = _
    rw [argmax_concat, getLast?_append]
    cases hmax : rest.argmax fun t => t.issueSequence.getD 0 with
    | none => rfl
    | some t => simp [hlast t (argmax_mem hmax)]

/-! ### The Integrity Check -/

section Integrity

variable {ns : String → Option String → String} {snapshots : Nat → Option WorkerSnapshot}
variable {issueId : Nat}

theorem keepsOrder_repaired : KeepsOrder (Repaired ns snapshots) := by
  intro t r h
  obtain ⟨hid, hseq, hcreated, -⟩ := h.columns
  exact ⟨hid, hseq, hcreated⟩

/-- What a passed integrity check did to ordered rows: only projections were filled, and
    the report names the last row. -/
theorem Ordered.ensure_spec {tasks rows : List Task} (hord : Ordered tasks)
    {report : IntegrityReport}
    (h : ensureIssueOrderIntegrityLocked ns snapshots issueId true tasks = .ok (report, rows)) :
    (∃ n, repairLoop ns snapshots none 0 tasks = .ok (n, rows)) ∧
      List.Forall₂ (Repaired ns snapshots) tasks rows ∧ WellOrdered rows ∧
      report.maxSequence = rows.length ∧
      report.tailProjection = rows.getLast?.bind taskProjection := by
  have hloop : ∃ n, repairLoop ns snapshots none 0 tasks = .ok (n, rows) ∧
      report.maxSequence = maxSequence rows ∧
      report.tailProjection = (tailTask rows).bind taskProjection := by
    have hsort : tasks.insertionSort createdBefore = tasks := hord.created.insertionSort_eq
    simp only [ensureIssueOrderIntegrityLocked, hsort,
      ensureSequences_of_sequencedFrom hord.sequenced, mapError_ok, ok_bind,
      repairLineageProjections] at h
    split at h
    · next hempty =>
      obtain rfl := List.isEmpty_iff.mp hempty
      obtain ⟨rfl, rfl⟩ := h
      exact ⟨0, rfl, rfl, rfl⟩
    · obtain ⟨⟨n, rows'⟩, hrows, hret⟩ := bind_eq_ok_iff.mp h
      obtain ⟨rfl, rfl⟩ := hret
      exact ⟨n, mapError_eq_ok_iff.mp hrows, rfl, rfl⟩
  obtain ⟨n, hrepair, hmax, htail⟩ := hloop
  have hrows := repairLoop_repaired (by simp) hrepair
  have hord' := hord.congr keepsOrder_repaired hrows
  have hwell : WellOrdered rows := by
    refine ⟨hord'.sequenced, hord'.created, hord'.ids, ?_⟩
    intro r hr
    obtain ⟨t, -, hrepaired⟩ := exists_of_mem_rewritten hrows hr
    obtain ⟨p, hp, -⟩ := hrepaired.projection
    exact taskProjection_isSome_iff.mp (by simp [hp])
  refine ⟨⟨n, hrepair⟩, hrows, hwell, ?_, ?_⟩
  · rw [hmax, hwell.maxSequence_eq]
  · rw [htail, tailTask_eq_getLast? hwell.sequenced]

end Integrity

/-! ### Appends -/

/-- A tail the append restarts from: a legacy placeholder beyond generation 0, or one the
    new Task leaves without opening a generation. -/
def RestartsBelow (q : Projection) (key space : String) (mode : SessionMode) : Prop :=
  q.sessionNamespace = legacyNamespace ∧
    ¬ (q.generation = 0 ∧
      (mode = .fresh ∨ (key = q.harnessKey ∧ space = q.sessionNamespace)))

theorem projectTailLineage_lineage {tail : Option Projection} {issueId : Nat}
    (h : projectTailLineage tail issueId key space mode = .ok p) :
    p.harnessKey = key ∧ p.sessionNamespace = space := by
  unfold projectTailLineage at h
  split at h
  · cases h
    exact ⟨rfl, rfl⟩
  · split at h
    · cases h
      exact ⟨rfl, rfl⟩
    · split at h
      · cases h
        exact ⟨rfl, rfl⟩
      · cases h

/-- How the projection of a new tail Task relates to the tail: a fresh turn opens a later
    generation, any other stays in the lineage. -/
theorem projectTailLineage_spec {issueId : Nat}
    (h : projectTailLineage (some q) issueId key space mode = .ok p)
    (htail : ¬ RestartsBelow q key space mode) :
    (mode = .fresh ∧ q.generation < p.generation) ∨
      (mode = .continue ∧ q.generation = p.generation ∧ q.harnessKey = p.harnessKey ∧
        q.sessionNamespace = p.sessionNamespace ∧ p.reason ≠ .fresh ∧
        (p.reason = .initial → p.generation = 0)) := by
  unfold projectTailLineage at h
  by_cases hlegacy : q.sessionNamespace = legacyNamespace
  · -- the legacy branch: the generation restarts at 0 or 1
    have hzero : q.generation = 0 ∧
        (mode = .fresh ∨ (key = q.harnessKey ∧ space = q.sessionNamespace)) := by
      by_contra hnot
      exact htail ⟨hlegacy, hnot⟩
    have hnone : (some q).filter (·.sessionNamespace != legacyNamespace) = none := by
      simp [Option.filter, hlegacy]
    rw [hnone] at h
    cases h
    cases mode with
    | fresh =>
      left
      simp [hzero.1]
    | «continue» =>
      right
      obtain ⟨hgen, hcontra | ⟨rfl, rfl⟩⟩ := hzero
      · cases hcontra
      · simp [hgen]
  · have hsome : (some q).filter (·.sessionNamespace != legacyNamespace) = some q := by
      simp [Option.filter, hlegacy]
    rw [hsome] at h
    simp only at h
    split at h
    · next hfresh =>
      left
      cases h
      exact ⟨hfresh, Nat.lt_succ_self _⟩
    · next hfresh =>
      split at h
      · next hsame =>
        right
        cases h
        refine ⟨?_, rfl, hsame.1.symm, hsame.2.symm, by simp, by simp⟩
        cases mode with
        | fresh => exact absurd rfl hfresh
        | «continue» => rfl
      · cases h

theorem follows_appended {issueId : Nat}
    {resetTaskId : Option Nat} {t : Task}
    (h : projectTailLineage (some q) issueId key space mode = .ok p)
    (htail : ¬ RestartsBelow q key space mode)
    (hmode : mode = .continue → t.sessionMode = .continue) :
    Follows q (setProjection t { p with resetTaskId }) := by
  intro r hr
  obtain ⟨hkey, hspace, hgen, -, hreason⟩ := taskProjection_columns hr
  simp only [setProjection, Option.some.injEq] at hkey hspace hgen hreason
  rcases projectTailLineage_spec h htail with ⟨-, hlt⟩ | ⟨hcont, heq, hk, hs, hfresh, hinit⟩
  · left
    omega
  · right
    refine ⟨heq.trans hgen, hk.trans hkey, hs.trans hspace, ?_⟩
    rintro (hf | hf | ⟨hf, hpos⟩)
    · simp only [setProjection, hmode hcont] at hf
      cases hf
    · exact hfresh (by simpa using hf)
    · have hzero : p.generation = 0 := hinit (by simpa using hf)
      simp [hzero] at hpos

/-- **Append**: a Task that follows the last one keeps the rows coherent. -/
theorem Coherent.append (hco : Coherent rows)
    (hfull : ∀ t ∈ rows, hasFullProjection t = true)
    (hnew : ∀ q, rows.getLast?.bind taskProjection = some q → Follows q new) :
    Coherent (rows ++ [new]) := by
  refine pairwise_append.mpr ⟨hco, pairwise_singleton _ _, ?_⟩
  intro a ha b hb p hp
  obtain rfl : b = new := by simpa using hb
  induction rows using reverseRecOn with
  | nil => cases ha
  | append_singleton rest last _ =>
    obtain ⟨q, hq⟩ := isSome_iff_exists.mp (taskProjection_isSome_iff.mpr (hfull last (by simp)))
    have hqnew : Follows q b := hnew q (by simp [hq])
    rcases mem_append.mp ha with ha | ha
    · have hlast : Follows p last := (pairwise_append.mp hco).2.2 a ha last (by simp) p hp
      exact hlast.trans hq hqnew
    · obtain rfl : a = last := by simpa using ha
      obtain rfl : q = p := some.inj (hq.symm.trans hp)
      exact hqnew

section LegacyTails

variable {ns : String → Option String → String} {snapshots : Nat → Option WorkerSnapshot}

variable {lineage : String × String} {tasks rows : List Task} {q : Projection}

/-- A repair goes on in generation 0 where all rows are in it. -/
theorem repairLoop_zero {tail : Option Projection} {n m : Nat}
    (htail : ∀ p, tail = some p →
      p.generation = 0 ∧ (p.harnessKey, p.sessionNamespace) = lineage)
    (hzero : OnlyGenerationZero ns snapshots lineage tasks)
    (h : repairLoop ns snapshots tail n tasks = .ok (m, rows)) :
    ∀ r ∈ rows, ∀ p, taskProjection r = some p →
      p.generation = 0 ∧ (p.harnessKey, p.sessionNamespace) = lineage := by
  induction tasks generalizing tail n rows with
  | nil =>
    obtain ⟨-, rfl⟩ := h
    simp
  | cons task rest ih =>
    obtain ⟨hlineage, hmode, hgen⟩ := hzero task mem_cons_self
    have hzero' : OnlyGenerationZero ns snapshots lineage rest :=
      fun t ht => hzero t (mem_cons_of_mem _ ht)
    rcases repairLoop_cons h with
      ⟨hfull, rows', rfl, hrest⟩ | ⟨hfull, key, space, p', rows', hderived, hp, rfl, hrest⟩
    · have hhead : ∀ p, taskProjection task = some p →
          p.generation = 0 ∧ (p.harnessKey, p.sessionNamespace) = lineage := by
        intro p hp
        refine ⟨hgen p hp, ?_⟩
        simpa [hp] using hlineage
      intro r hr
      rcases mem_cons.mp hr with rfl | hr
      · exact hhead
      · exact ih hhead hzero' hrest r hr
    · obtain rfl := followingProjection_eq hp
      have hkeys : (key, space) = lineage := by
        simpa [taskProjection_eq_none_iff.mpr hfull, hderived] using hlineage
      have hhead : (backfilledProjection tail task key space).generation = 0 ∧
          ((backfilledProjection tail task key space).harnessKey,
            (backfilledProjection tail task key space).sessionNamespace) = lineage := by
        cases tail with
        | none => simp [hmode, hkeys]
        | some q =>
          obtain ⟨hq, hsame⟩ := htail q rfl
          obtain ⟨rfl, rfl⟩ := Prod.mk.inj (hkeys.trans hsame.symm)
          simp [hmode, hq, hkeys]
      have hcomplete : Complete (backfilledProjection tail task key space) := by
        intro hpos
        omega
      intro r hr
      rcases mem_cons.mp hr with rfl | hr
      · intro p hp
        rw [taskProjection_setProjection hcomplete] at hp
        cases hp
        exact hhead
      · refine ih ?_ hzero' hrest r hr
        intro p hp
        cases hp
        exact hhead

theorem legacyTail_of_repaired {n : Nat}
    (hrepair : repairLoop ns snapshots none 0 tasks = .ok (n, rows))
    (hq : rows.getLast?.bind taskProjection = some q)
    (hlegacy : q.sessionNamespace = legacyNamespace) : LegacyTail ns snapshots tasks := by
  obtain ⟨last, hlast, hq⟩ := bind_eq_some_iff.mp hq
  obtain ⟨t, ht, hrepaired⟩ :=
    getLast?_rewritten (repairLoop_repaired (by simp) hrepair) hlast
  obtain ⟨p, hp, hlineage⟩ := hrepaired.projection
  obtain rfl : q = p := some.inj (hq.symm.trans hp)
  exact ⟨t, ht, q.harnessKey, by rw [hlineage, hlegacy]⟩

theorem OnlyGenerationZero.tail {n : Nat}
    (hzero : OnlyGenerationZero ns snapshots lineage tasks)
    (hrepair : repairLoop ns snapshots none 0 tasks = .ok (n, rows))
    (hq : rows.getLast?.bind taskProjection = some q) :
    q.generation = 0 ∧ (q.harnessKey, q.sessionNamespace) = lineage := by
  obtain ⟨last, hlast, hq⟩ := bind_eq_some_iff.mp hq
  exact repairLoop_zero (by simp) hzero hrepair last (mem_of_getLast? hlast) q hq

end LegacyTails

/-! ### Lineage Rows -/

/-- A Task of the Issue is projected into the generation and the lineage of the row. -/
def Owned (tasks : List Task) (r : IssueSessionLineage) : Prop :=
  ∃ t ∈ tasks, ∃ p, taskProjection t = some p ∧ p.generation = r.lineageGeneration ∧
    p.harnessKey = r.harnessKey ∧ p.sessionNamespace = r.sessionNamespace

/-- `Owned` reads only the generation, the harness key and the namespace of a row. -/
theorem Owned.congr {r r' : IssueSessionLineage} (h : Owned tasks r)
    (hgen : r'.lineageGeneration = r.lineageGeneration) (hkey : r'.harnessKey = r.harnessKey)
    (hspace : r'.sessionNamespace = r.sessionNamespace) : Owned tasks r' := by
  unfold Owned
  rw [hgen, hkey, hspace]
  exact h

theorem ensureLineageRow_owned {rows : List IssueSessionLineage}
    {reason : LineageReason} (hrows : ∀ r ∈ rows, Owned tasks r)
    (hp : Owned tasks (newLineageRow p reason)) :
    Owned tasks (ensureLineageRow p reason rows).1 ∧
      ∀ r ∈ (ensureLineageRow p reason rows).2, Owned tasks r := by
  unfold ensureLineageRow
  split
  · next row hrow => exact ⟨hrows row (mem_of_row? hrow).1, hrows⟩
  · refine ⟨hp, ?_⟩
    intro r hr
    rcases mem_append.mp hr with hr | hr
    · exact hrows r hr
    · obtain rfl : r = newLineageRow p reason := by simpa using hr
      exact hp

theorem ensureLineageRow_generation (p : Projection) (reason : LineageReason)
    (rows : List IssueSessionLineage) :
    (ensureLineageRow p reason rows).1.lineageGeneration = p.generation := by
  unfold ensureLineageRow
  split
  · next row hrow => exact (mem_of_row? hrow).2
  · rfl

theorem setLineageRow_owned {rows : List IssueSessionLineage}
    {row : IssueSessionLineage} (hrows : ∀ r ∈ rows, Owned tasks r) (hrow : Owned tasks row) :
    ∀ r ∈ setLineageRow row rows, Owned tasks r := by
  intro r hr
  obtain ⟨r', hr', rfl⟩ := List.mem_map.mp hr
  split
  · exact hrow
  · exact hrows r' hr'

theorem backfillSessionLineages_owned {outputSessions : Nat → Option String}
    {legacySession : String → String → Option String} :
    ∀ r ∈ backfillSessionLineages outputSessions legacySession tasks, Owned tasks r := by
  intro r hr
  obtain ⟨generation, -, hrow⟩ := mem_filterMap.mp hr
  obtain ⟨t, ht, hrow⟩ := bind_eq_some_iff.mp hrow
  obtain ⟨p, hp, hrow⟩ := bind_eq_some_iff.mp hrow
  obtain rfl : backfilledRow outputSessions legacySession tasks p = r := some.inj hrow
  refine ⟨t, mem_of_mem_filter (mem_of_getLast? ht), p, hp, ?_⟩
  unfold backfilledRow
  split
  · exact ⟨rfl, rfl, rfl⟩
  · split
    · split <;> exact ⟨rfl, rfl, rfl⟩
    · exact ⟨rfl, rfl, rfl⟩

/-! ### Invariants -/

/-- What every run through agreeing steps maintains. -/
structure Inv (s : State) : Prop where
  ordered : Ordered s.tasks
  /-- Rows are in the past of the clock and of the id sequence. -/
  past : ∀ t ∈ s.tasks, t.createdAt ≤ s.clock ∧ t.id < s.nextId
  whole : ∀ t ∈ s.tasks, hasFullProjection t = true ∨ Unprojected t
  coherent : Coherent s.tasks
  owned : ∀ r ∈ s.lineages, Owned s.tasks r

theorem Owned.rewritten
    {r : IssueSessionLineage} (h : Owned tasks r) (hrows : List.Forall₂ R tasks rows)
    (hR : ∀ t t' p, R t t' → taskProjection t = some p → taskProjection t' = some p) :
    Owned rows r := by
  obtain ⟨t, ht, p, hp, hcolumns⟩ := h
  obtain ⟨t', ht', hrow⟩ := exists_rewritten_of_mem hrows ht
  exact ⟨t', ht', p, hR t t' p hrow hp, hcolumns⟩

theorem Owned.append {r : IssueSessionLineage} (h : Owned tasks r)
    (new : Task) : Owned (tasks ++ [new]) r := by
  obtain ⟨t, ht, hp⟩ := h
  exact ⟨t, mem_append_left _ ht, hp⟩

section Steps

variable {ns : String → Option String → String} {issueId : Nat} {s : State}

variable {rows tasks tasks' : List Task} {newId : Nat} {now : DateTime} {request : AppendRequest}
  {p : Projection} {source : Task}

theorem Inv.repair (h : Inv s) {report : IntegrityReport}
    (hgaps : GapsInherit ns s.snapshots none s.tasks)
    (hok : ensureIssueOrderIntegrityLocked ns s.snapshots issueId true s.tasks =
      .ok (report, rows)) : Inv { s with tasks := rows } := by
  obtain ⟨⟨n, hrepair⟩, hrows, hwell, -⟩ := h.ordered.ensure_spec hok
  refine ⟨h.ordered.congr keepsOrder_repaired hrows, ?_, ?_, ?_, ?_⟩
  · intro r hr
    obtain ⟨t, ht, hrepaired⟩ := exists_of_mem_rewritten hrows hr
    obtain ⟨hid, -, hcreated, -⟩ := hrepaired.columns
    rw [hid, hcreated]
    exact h.past t ht
  · intro r hr
    exact .inl (hwell.projected r hr)
  · exact (repairLoop_coherent (by simp) hrepair h.coherent (by simp) hgaps).1
  · intro r hr
    refine (h.owned r hr).rewritten hrows ?_
    intro t t' p hrow hp
    rw [hrow.kept hp]
    exact hp

/-- Appending the row of a new Task that follows the tail keeps the invariant. -/
theorem Inv.append (h : Inv s) {new : Task} (hid : new.id = s.nextId)
    (hcreated : new.createdAt = s.clock)
    (hseq : new.issueSequence = some (s.tasks.length + 1))
    (hfull : hasFullProjection new = true)
    (hall : ∀ t ∈ s.tasks, hasFullProjection t = true)
    (hnew : ∀ q, s.tasks.getLast?.bind taskProjection = some q → Follows q new)
    (snapshots : Nat → Option WorkerSnapshot) (outputSessions : Nat → Option String) :
    Inv { s with tasks := s.tasks ++ [new], nextId := s.nextId + 1, snapshots,
                 outputSessions } := by
  refine ⟨h.ordered.append h.past hid hcreated hseq, past_append h.past hid hcreated, ?_,
    h.coherent.append hall hnew, ?_⟩
  · exact forall_mem_append.mpr ⟨h.whole, forall_mem_singleton.mpr (.inl hfull)⟩
  · intro r hr
    exact (h.owned r hr).append new

/-- On well-ordered rows the append-time check returns the rows it was given. -/
theorem checkAppendTime_rows {snapshots : Nat → Option WorkerSnapshot}
    {scheduledAt : Option DateTime} {rows rows' : List Task} (hord : WellOrdered rows)
    (h : checkAppendTime ns snapshots issueId scheduledAt rows = .ok rows') : rows' = rows := by
  unfold checkAppendTime at h
  split at h
  · exact (Except.ok.inj h).symm
  · obtain ⟨⟨w, rows''⟩, hw, hret⟩ := bind_eq_ok_iff.mp h
    obtain rfl := validate_rows hord hw
    exact (Except.ok.inj hret).symm

/-- What a successful append wrote: the repaired rows, and behind them a Task projected
    from their tail. -/
theorem Ordered.create_spec (hord : Ordered tasks)
    {snapshots : Nat → Option WorkerSnapshot}
    (hok : createTaskRecord ns snapshots issueId newId now request tasks = .ok tasks') :
    ∃ report rows p,
      ensureIssueOrderIntegrityLocked ns snapshots issueId true tasks = .ok (report, rows) ∧
      projectTailLineage (rows.getLast?.bind taskProjection) issueId request.harnessKey
        (ns request.harnessKey request.endpointFingerprint) request.sessionMode = .ok p ∧
      tasks' = rows ++ [newTask issueId newId now request rows.length p] ∧
      hasFullProjection (newTask issueId newId now request rows.length p) = true := by
  obtain ⟨⟨report, rows⟩, hensure, hrest⟩ := bind_eq_ok_iff.mp hok
  obtain ⟨rows', hcheck, hrest'⟩ := bind_eq_ok_iff.mp hrest
  obtain ⟨p, hp, hret⟩ := bind_eq_ok_iff.mp hrest'
  obtain ⟨-, -, hwell, hmax, htail⟩ := hord.ensure_spec hensure
  obtain rfl := checkAppendTime_rows hwell hcheck
  cases hret
  rw [htail] at hp
  refine ⟨report, rows', p, hensure, hp, by rw [hmax], newTask_projected ?_ hp⟩
  intro q hq
  obtain ⟨last, -, hq⟩ := bind_eq_some_iff.mp hq
  exact taskProjection_reset hq

theorem Inv.create (h : Inv s)
    (hguard : Agreeing ns s (.create request))
    (hok : createTaskRecord ns s.snapshots issueId s.nextId s.clock request s.tasks =
      .ok tasks') (snapshots : Nat → Option WorkerSnapshot)
    (outputSessions : Nat → Option String) :
    Inv { s with tasks := tasks', nextId := s.nextId + 1, snapshots, outputSessions } := by
  obtain ⟨hgaps, hlegacy⟩ := hguard
  obtain ⟨report, rows, p, hensure, hp, rfl, hfull⟩ := h.ordered.create_spec hok
  obtain ⟨⟨n, hrepair⟩, -, hwell, -⟩ := h.ordered.ensure_spec hensure
  refine (h.repair hgaps hensure).append rfl rfl rfl hfull hwell.projected ?_ snapshots
    outputSessions
  intro q hq
  rw [hq] at hp
  refine follows_appended hp ?_ (fun hmode => hmode)
  rintro ⟨hns, hnot⟩
  obtain ⟨lineage, hzero, hstay⟩ := hlegacy (legacyTail_of_repaired hrepair hq hns)
  obtain ⟨hgen, rfl⟩ := hzero.tail hrepair hq
  exact hnot ⟨hgen, hstay.imp_right Prod.mk.inj⟩

/-- What a retry projects for its source: a fresh generation, or the lineage of the
    tail. -/
theorem retryProjection_spec {retryIsFresh : Bool} {tail : Option Projection}
    {source : String × String × Option Nat × Option Nat}
    (h : retryProjection issueId retryIsFresh tail source = .ok p) :
    ∃ mode, projectTailLineage tail issueId source.1 source.2.1 mode = .ok p ∧
      (mode = .fresh ↔ retryIsFresh = true) ∧
      (mode = .continue → ∃ q, tail = some q ∧ source.1 = q.harnessKey ∧
        source.2.1 = q.sessionNamespace) := by
  obtain ⟨key, space, generation, resetTaskId⟩ := source
  unfold retryProjection at h
  simp only at h
  split at h
  · next hfresh => exact ⟨.fresh, mapError_eq_ok_iff.mp h, by simp [hfresh], by simp⟩
  next hfresh =>
  split at h
  · cases h
  next q =>
  split at h
  · next hsame =>
    refine ⟨.continue, mapError_eq_ok_iff.mp h, by simp [hfresh], ?_⟩
    intro _
    exact ⟨q, rfl, hsame.1, hsame.2.1⟩
  · cases h

/-- `retry_is_fresh`. -/
def retryIsFresh (request : RetryRequest) (source : Task) (outputSessionId : Option String) :
    Bool :=
  decide (retrySessionMode source outputSessionId = .fresh) || request.freshRetry

/-- A retry that stores `fresh` is a fresh one. -/
theorem retrySessionMode_of_not_fresh {request : RetryRequest} {outputSessionId : Option String}
    (h : retryIsFresh request source outputSessionId ≠ true) :
    retrySessionMode source outputSessionId = .continue := by
  cases hmode : retrySessionMode source outputSessionId with
  | fresh => simp [retryIsFresh, hmode] at h
  | «continue» => rfl

/-- What a successful retry wrote: the repaired rows, and behind them a Task in the lineage
    of the source. -/
theorem Ordered.retry_spec (hord : Ordered tasks)
    {snapshots : Nat → Option WorkerSnapshot} {outputSessions : Nat → Option String}
    {request : RetryRequest}
    (hok : retryTaskRecord ns snapshots issueId outputSessions newId now request source tasks =
      .ok tasks') :
    ∃ snapshot report rows source' p mode, snapshots source.id = some snapshot ∧
      ensureIssueOrderIntegrityLocked ns snapshots issueId true tasks = .ok (report, rows) ∧
      source' = (rows.find? (·.id == source.id)).getD source ∧
      projectTailLineage (rows.getLast?.bind taskProjection) issueId
        (sourceProjection ns source' snapshot).1 (sourceProjection ns source' snapshot).2.1
        mode = .ok p ∧
      (mode = .fresh ↔ retryIsFresh request source (outputSessions source.id) = true) ∧
      (mode = .continue → ∃ q, rows.getLast?.bind taskProjection = some q ∧
        (sourceProjection ns source' snapshot).1 = q.harnessKey ∧
        (sourceProjection ns source' snapshot).2.1 = q.sessionNamespace) ∧
      tasks' = rows ++ [retryTask newId now request source'
        (retrySessionMode source (outputSessions source.id))
        (retryIsFresh request source (outputSessions source.id)) rows.length p] ∧
      hasFullProjection (retryTask newId now request source'
        (retrySessionMode source (outputSessions source.id))
        (retryIsFresh request source (outputSessions source.id)) rows.length p) = true := by
  unfold retryTaskRecord at hok
  split at hok
  · cases hok
  next snapshot hsnapshot =>
  obtain ⟨⟨report, rows⟩, hensure, hrest⟩ := bind_eq_ok_iff.mp hok
  obtain ⟨p, hproj, hrest'⟩ := bind_eq_ok_iff.mp hrest
  obtain ⟨rows', hcheck, hret⟩ := bind_eq_ok_iff.mp hrest'
  have hensure := mapError_eq_ok_iff.mp hensure
  obtain ⟨-, -, hwell, hmax, htail⟩ := hord.ensure_spec hensure
  obtain rfl := checkAppendTime_rows hwell (mapError_eq_ok_iff.mp hcheck)
  cases hret
  obtain ⟨mode, hp, hfresh, hstay⟩ := retryProjection_spec hproj
  rw [htail] at hp hstay
  refine ⟨snapshot, report, rows', _, p, mode, hsnapshot, hensure, rfl, hp, hfresh, hstay,
    by rw [hmax]; rfl, ?_⟩
  -- a fresh retry is its own reset point
  have hreset : ∀ q, rows'.getLast?.bind taskProjection = some q →
      0 < q.generation → q.resetTaskId.isSome := by
    intro q hq
    obtain ⟨last, -, hq⟩ := bind_eq_some_iff.mp hq
    exact taskProjection_reset hq
  rw [← taskProjection_isSome_iff]
  unfold retryTask
  rw [taskProjection_setProjection]
  · rfl
  · intro hpos
    have hfresh' : mode = .fresh →
        retryIsFresh request source (outputSessions source.id) = true := hfresh.mp
    rcases projectTailLineage_reset hreset hp hpos with hmode | hsome
    · cases p.resetTaskId <;> simp [hfresh' hmode]
    · cases hnone : p.resetTaskId <;> simp_all

theorem Inv.retry (h : Inv s) {request : RetryRequest}
    (hguard : Agreeing ns s (.retry request))
    (hok : retryTaskRecord ns s.snapshots issueId s.outputSessions s.nextId s.clock request
      source s.tasks = .ok tasks') (snapshots : Nat → Option WorkerSnapshot)
    (outputSessions : Nat → Option String) :
    Inv { s with tasks := tasks', nextId := s.nextId + 1, snapshots, outputSessions } := by
  obtain ⟨hgaps, hlegacy⟩ := hguard
  obtain ⟨snapshot, report, rows, source', p, mode, -, hensure, -, hp, hfresh, hstay, rfl,
    hfull⟩ := h.ordered.retry_spec hok
  obtain ⟨⟨n, hrepair⟩, -, hwell, -⟩ := h.ordered.ensure_spec hensure
  refine (h.repair hgaps hensure).append rfl rfl rfl hfull hwell.projected ?_ snapshots
    outputSessions
  intro q hq
  rw [hq] at hp hstay
  refine follows_appended hp ?_ ?_
  · rintro ⟨hns, hnot⟩
    obtain ⟨lineage, hzero⟩ := hlegacy (legacyTail_of_repaired hrepair hq hns)
    obtain ⟨hgen, -⟩ := hzero.tail hrepair hq
    refine hnot ⟨hgen, ?_⟩
    cases mode with
    | fresh => exact .inl rfl
    | «continue» =>
      obtain ⟨q', hq', hkey, hspace⟩ := hstay rfl
      cases hq'
      exact .inr ⟨hkey, hspace⟩
  · rintro rfl
    exact retrySessionMode_of_not_fresh fun hf => by simpa using hfresh.mpr hf

/-- An update that keeps the order and the projections keeps the invariant. -/
theorem Inv.update (h : Inv s) {taskId : Nat} {f : Task → Task} (hid : ∀ t, (f t).id = t.id)
    (hseq : ∀ t, (f t).issueSequence = t.issueSequence)
    (hcreated : ∀ t, (f t).createdAt = t.createdAt)
    (hproj : ∀ t, taskProjection (f t) = taskProjection t)
    (hnull : ∀ t, Unprojected (f t) ↔ Unprojected t)
    (hfresh : ∀ t, Fresh (f t) ↔ Fresh t) :
    Inv { s with tasks := updateTask taskId f s.tasks } := by
  have hfull : ∀ t, hasFullProjection (f t) = hasFullProjection t := by
    intro t
    rw [Bool.eq_iff_iff, ← taskProjection_isSome_iff, ← taskProjection_isSome_iff, hproj]
  let R : Task → Task → Prop := fun t r => r = t ∨ r = f t
  have hrows : List.Forall₂ R s.tasks (updateTask taskId f s.tasks) := by
    unfold updateTask
    rw [forall₂_map_right_iff, forall₂_same]
    intro t _
    split
    · exact .inr rfl
    · exact .inl rfl
  have hkeep : KeepsOrder R := by
    rintro t r (rfl | rfl)
    · exact ⟨rfl, rfl, rfl⟩
    · exact ⟨hid t, hseq t, hcreated t⟩
  have hsame : ∀ t, taskProjection (if t.id = taskId then f t else t) = taskProjection t ∧
      (Fresh (if t.id = taskId then f t else t) ↔ Fresh t) := by
    intro t
    split
    · exact ⟨hproj t, hfresh t⟩
    · exact ⟨rfl, Iff.rfl⟩
  refine ⟨h.ordered.congr hkeep hrows, ?_, ?_, ?_, ?_⟩
  · intro r hr
    obtain ⟨t, ht, hrow⟩ := exists_of_mem_rewritten hrows hr
    obtain ⟨hid', -, hcreated'⟩ := hkeep t r hrow
    rw [hid', hcreated']
    exact h.past t ht
  · intro r hr
    obtain ⟨t, ht, rfl | rfl⟩ := exists_of_mem_rewritten hrows hr
    · exact h.whole r ht
    · rw [hfull, hnull]
      exact h.whole t ht
  · refine pairwise_map.mpr (h.coherent.imp ?_)
    intro a b hab p hp q hq
    rw [(hsame a).1] at hp
    rw [(hsame b).1] at hq
    rw [(hsame b).2]
    exact hab p hp q hq
  · intro r hr
    refine (h.owned r hr).rewritten hrows ?_
    rintro t t' p (rfl | rfl) hp
    · exact hp
    · rw [hproj, hp]

theorem Inv.lineages (h : Inv s) {lineages : List IssueSessionLineage}
    (hrows : ∀ r ∈ lineages, Owned s.tasks r) (outputSessions : Nat → Option String) :
    Inv { s with lineages, outputSessions } :=
  ⟨h.ordered, h.past, h.whole, h.coherent, hrows⟩

theorem Inv.newLineageRow_owned (h : Inv s) {t : Task} (ht : t ∈ s.tasks)
    (hkey : t.projectedHarnessKey = some p.harnessKey)
    (hspace : t.projectedSessionNamespace = some p.sessionNamespace)
    (hgen : t.projectedLineageGeneration = some p.generation) (reason : LineageReason) :
    Owned s.tasks (newLineageRow p reason) := by
  rcases h.whole t ht with hfull | hnull
  · obtain ⟨q, hq⟩ := isSome_iff_exists.mp (taskProjection_isSome_iff.mpr hfull)
    obtain ⟨hkey', hspace', hgen', -⟩ := taskProjection_columns hq
    exact ⟨t, ht, q, hq, some.inj (hgen'.symm.trans hgen),
      some.inj (hkey'.symm.trans hkey), some.inj (hspace'.symm.trans hspace)⟩
  · rw [hnull.1] at hkey
    cases hkey

theorem Inv.resolve_owned (h : Inv s) {t : Task} (ht : t ∈ s.tasks) {key space : String}
    {generation : Nat} {resetTaskId : Option Nat}
    (hp : projectionForTask t = some (key, space, generation, resetTaskId))
    (mode : SessionMode) :
    ∀ r ∈ (resolveProjectedResumeSession key space generation resetTaskId mode s.lineages).2,
      Owned s.tasks r := by
  have hcolumns : t.projectedHarnessKey = some key ∧
      t.projectedSessionNamespace = some space ∧
      t.projectedLineageGeneration = some generation := by
    unfold projectionForTask at hp
    split at hp
    · next hkey hspace hgen =>
      obtain ⟨rfl, rfl, rfl, -⟩ := hp
      exact ⟨hkey, hspace, hgen⟩
    · cases hp
  obtain ⟨hkey, hspace, hgen⟩ := hcolumns
  unfold resolveProjectedResumeSession
  cases mode with
  | fresh =>
    have hnew := h.newLineageRow_owned ht
      (p := { harnessKey := key, sessionNamespace := space, generation, resetTaskId,
              reason := .fresh }) hkey hspace hgen .fresh
    obtain ⟨hrow, hrows⟩ := ensureLineageRow_owned h.owned hnew
    exact setLineageRow_owned hrows (hrow.congr rfl rfl rfl)
  | «continue» =>
    simp only
    split
    · split <;> exact h.owned
    · exact h.owned

theorem Inv.recorded_row (h : Inv s) {t : Task} (ht : t ∈ s.tasks)
    (hkey : t.projectedHarnessKey = some p.harnessKey)
    (hspace : t.projectedSessionNamespace = some p.sessionNamespace)
    (hgen : t.projectedLineageGeneration = some p.generation) (reason : LineageReason) :
    (ensureLineageRow p reason s.lineages).1.harnessKey = p.harnessKey ∧
      (ensureLineageRow p reason s.lineages).1.sessionNamespace = p.sessionNamespace := by
  have hnew := h.newLineageRow_owned ht hkey hspace hgen reason
  obtain ⟨⟨u, hu, q, hq, hqgen, hqkey, hqspace⟩, -⟩ := ensureLineageRow_owned h.owned hnew
  obtain ⟨v, hv, r, hr, hrgen, hrkey, hrspace⟩ := hnew
  rw [ensureLineageRow_generation] at hqgen
  obtain ⟨hk, hs⟩ := h.coherent.lineage_eq hu hv hq hr (hqgen.trans hrgen.symm)
  exact ⟨hqkey.symm.trans (hk.trans hrkey), hqspace.symm.trans (hs.trans hrspace)⟩

/-- `record_projected_output_session` never meets a row of another lineage, and keeps
    the lineage rows owned. -/
theorem Inv.record_owned (h : Inv s) {t : Task} (ht : t ∈ s.tasks)
    (sessionId : Option String) :
    recordProjectedOutputSession t sessionId s.lineages ≠ .error .lineageMismatch ∧
      ∀ rows, recordProjectedOutputSession t sessionId s.lineages = .ok rows →
        ∀ r ∈ rows, Owned s.tasks r := by
  unfold recordProjectedOutputSession
  split
  · next key space hkey hspace =>
    split
    · exact ⟨by simp, by simp⟩
    next generation hgen =>
    simp only
    set p : Projection := { harnessKey := key, sessionNamespace := space, generation,
                            resetTaskId := t.projectedResetTaskId,
                            reason := t.lineageProjectionReason.getD .inherited } with hp
    have hnew := h.newLineageRow_owned (p := p) ht hkey hspace hgen
      (t.lineageProjectionReason.getD .inherited)
    obtain ⟨hrowkey, hrowspace⟩ := h.recorded_row (p := p) ht hkey hspace hgen
      (t.lineageProjectionReason.getD .inherited)
    have hmatch : ¬ ((ensureLineageRow p (t.lineageProjectionReason.getD .inherited)
          s.lineages).1.harnessKey ≠ key ∨
        (ensureLineageRow p (t.lineageProjectionReason.getD .inherited)
          s.lineages).1.sessionNamespace ≠ space) := by
      rw [hrowkey, hrowspace]
      simp [hp]
    rw [if_neg hmatch]
    split
    · exact ⟨by simp, by simp⟩
    · refine ⟨by simp, ?_⟩
      intro rows hrows
      cases hrows
      obtain ⟨hrow, hrows⟩ := ensureLineageRow_owned h.owned hnew
      exact setLineageRow_owned hrows (hrow.congr rfl rfl rfl)
  · exact ⟨by simp, by simp⟩

theorem Inv.step (h : Inv s) {l : Label} {s' : State} (hguard : Agreeing ns s l)
    (hstep : (issueLineage ns issueId).next s l = some s') : Inv s' := by
  cases lineageStep_of_next ns hstep with
  | create hok => exact h.create hguard hok _ _
  | retry _ hok => exact h.retry hguard hok _ _
  | repair hok => exact h.repair hguard hok
  | setStatus =>
    exact h.update (fun _ => rfl) (fun _ => rfl) (fun _ => rfl) (fun _ => rfl)
      (fun _ => Iff.rfl) (fun _ => Iff.rfl)
  | editSnapshot => exact ⟨h.ordered, h.past, h.whole, h.coherent, h.owned⟩
  | start htask hproj => exact h.lineages (h.resolve_owned htask hproj _) _
  | record htask hlineages =>
    refine h.lineages ?_ _
    -- a refused bookkeeping leaves the lineages
    rcases hlineages with rfl | hrecorded
    · exact h.owned
    · exact (h.record_owned htask _).2 _ hrecorded
  | elapse =>
    refine ⟨h.ordered, ?_, h.whole, h.coherent, h.owned⟩
    intro t ht
    have hpast := h.past t ht
    exact ⟨Int.le_trans hpast.1 (Int.le_add_of_nonneg_right (Int.natCast_nonneg _)),
      by simp only; omega⟩

end Steps

/-! ### Migrated Issues -/

theorem numberFrom_sequenced (k : Nat) (tasks : List Task) :
    SequencedFrom k (numberFrom k tasks) := by
  induction tasks generalizing k with
  | nil => trivial
  | cons t rest ih => exact ⟨rfl, ih (k + 1)⟩

theorem numberFrom_rewritten (k : Nat) (tasks : List Task) :
    List.Forall₂ (fun t r => ∃ q, r = { t with issueSequence := some q }) tasks
      (numberFrom k tasks) := by
  induction tasks generalizing k with
  | nil => exact .nil
  | cons t rest ih => exact .cons ⟨k, rfl⟩ (ih (k + 1))

instance : Std.Total createdBefore where
  total a b := by
    rcases lt_trichotomy a.createdAt b.createdAt with hlt | heq | hgt
    · exact .inl (.inl hlt)
    · rcases Nat.le_total a.id b.id with hle | hle
      · exact .inl (.inr ⟨heq, hle⟩)
      · exact .inr (.inr ⟨heq.symm, hle⟩)
    · exact .inr (.inl hgt)

instance : IsTrans Task createdBefore where
  trans a b c hab hbc := by
    rcases hab with hab | ⟨hab, hid⟩ <;> rcases hbc with hbc | ⟨hbc, hid'⟩
    · exact .inl (hab.trans hbc)
    · exact .inl (hbc ▸ hab)
    · exact .inl (hab ▸ hbc)
    · exact .inr ⟨hab.trans hbc, hid.trans hid'⟩

theorem Unprojected.not_full {t : Task} (h : Unprojected t) : hasFullProjection t = false := by
  simp [hasFullProjection, h.1]

/-- What migration 068 leaves: an ordered Issue, each row projected whole or not at all. -/
theorem upgrade068_spec (ns : String → Option String → String)
    (snapshots : Nat → Option WorkerSnapshot) {history : List Task}
    (hnull : ∀ t ∈ history, Unprojected t) (hids : (history.map (·.id)).Nodup) :
    Ordered (upgrade068 ns snapshots history) ∧ Coherent (upgrade068 ns snapshots history) ∧
      (∀ r ∈ upgrade068 ns snapshots history, hasFullProjection r = true ∨ Unprojected r) ∧
      ∀ r ∈ upgrade068 ns snapshots history, ∃ t ∈ history, r.id = t.id ∧
        r.createdAt = t.createdAt := by
  set sorted := history.insertionSort createdBefore with hsorted
  have hperm : sorted.Perm history := perm_insertionSort createdBefore history
  have hnumbered := numberFrom_rewritten 1 sorted
  have hnull' : ∀ t ∈ numberFrom 1 sorted, Unprojected t := by
    intro r hr
    obtain ⟨t, ht, q, rfl⟩ := exists_of_mem_rewritten hnumbered hr
    exact hnull t (hperm.mem_iff.mp ht)
  have hord : Ordered (numberFrom 1 sorted) := by
    have hmap := map_created_congr (by rintro t r ⟨q, rfl⟩; exact ⟨rfl, rfl⟩) hnumbered
    refine ⟨numberFrom_sequenced 1 sorted, ?_, ?_⟩
    · rw [pairwise_createdBefore_iff, hmap, ← pairwise_createdBefore_iff]
      exact pairwise_insertionSort createdBefore history
    · rw [map_id_of_map_created hmap]
      exact (hperm.map _).nodup_iff.mpr hids
  have hrows : List.Forall₂ Backfilled (numberFrom 1 sorted) (upgrade068 ns snapshots history) :=
    backfillLineage_backfilled (by simp)
  have hkeep : KeepsOrder Backfilled := by
    rintro t r (rfl | ⟨p, -, rfl⟩)
    · exact ⟨rfl, rfl, rfl⟩
    · exact ⟨rfl, rfl, rfl⟩
  refine ⟨hord.congr hkeep hrows,
    (backfillLineage_coherent (by simp) fun t ht => (hnull' t ht).not_full).1, ?_, ?_⟩
  · intro r hr
    obtain ⟨t, ht, rfl | ⟨p, hdone, rfl⟩⟩ := exists_of_mem_rewritten hrows hr
    · exact .inr (hnull' r ht)
    · left
      rw [← taskProjection_isSome_iff, taskProjection_setProjection hdone]
      rfl
  · intro r hr
    obtain ⟨t, ht, hrow⟩ := exists_of_mem_rewritten hrows hr
    obtain ⟨hid, -, hcreated⟩ := hkeep t r hrow
    obtain ⟨u, hu, q, rfl⟩ := exists_of_mem_rewritten hnumbered ht
    exact ⟨u, hperm.mem_iff.mp hu, hid, hcreated⟩

/-- Every run of agreeing steps from a migrated Issue maintains the invariant. -/
theorem inv_reachable_of_agreeing {ns : String → Option String → String} {issueId : Nat}
    {s : State} (h : (issueLineage ns issueId).Reachable (Agreeing ns) s) : Inv s := by
  refine h.invariant (P := Inv) ?_ (fun s l s' hs hg hstep => hs.step hg hstep)
  rintro s ⟨history, snapshots₀, legacySession, hnull, hids, htasks, hlineages, hpast⟩
  obtain ⟨hord, hco, hwhole, horigin⟩ := upgrade068_spec ns snapshots₀ hnull hids
  rw [← htasks] at hord hco hwhole horigin
  refine ⟨hord, ?_, hwhole, hco, ?_⟩
  · intro r hr
    obtain ⟨t, ht, hid, hcreated⟩ := horigin r hr
    rw [hid, hcreated]
    exact hpast t ht
  · rw [hlineages]
    exact backfillSessionLineages_owned

/-! ### A Generation Denotes One Lineage -/

theorem rel_of_sequence_lt
    (hseq : SequencedFrom k tasks) (hpair : tasks.Pairwise R) (ha : a ∈ tasks)
    (hb : b ∈ tasks) {i j : Nat} (hi : a.issueSequence = some i) (hj : b.issueSequence = some j)
    (hij : i < j) : R a b := by
  induction tasks generalizing k with
  | nil => cases ha
  | cons t rest ih =>
    obtain ⟨hhead, hrest⟩ := pairwise_cons.mp hpair
    rcases mem_cons.mp ha with rfl | ha' <;> rcases mem_cons.mp hb with rfl | hb'
    · rw [hi, Option.some.injEq] at hj
      omega
    · exact hhead b hb'
    · -- the head has the least number
      obtain ⟨q, hq, hle, -⟩ := hseq.2.bounds ha'
      obtain rfl : q = i := some.inj (hq.symm.trans hi)
      obtain rfl : k = j := some.inj (hseq.1.symm.trans hj)
      omega
    · exact ih hseq.2 hrest ha' hb'

/-- What a generation should mean, for the rows of one Issue. -/
structure OneLineage (s : State) : Prop where
  /-- Tasks of one generation have one harness key and one namespace. -/
  same : ∀ a ∈ s.tasks, ∀ b ∈ s.tasks, ∀ g, a.projectedLineageGeneration = some g →
    b.projectedLineageGeneration = some g →
    a.projectedHarnessKey = b.projectedHarnessKey ∧
      a.projectedSessionNamespace = b.projectedSessionNamespace
  /-- Generations do not decrease along the turns and increase at a fresh one. -/
  increasing : ∀ a ∈ s.tasks, ∀ b ∈ s.tasks, ∀ i, a.issueSequence = some i →
    ∀ j, b.issueSequence = some j → i < j →
    ∀ g, a.projectedLineageGeneration = some g →
    ∀ g', b.projectedLineageGeneration = some g' → g ≤ g' ∧ (Fresh b → g < g')
  /-- Recording an output session never meets a row of another lineage. -/
  recorded : ∀ t ∈ s.tasks, ∀ sessionId,
    recordProjectedOutputSession t sessionId s.lineages ≠ .error .lineageMismatch

theorem Inv.projection_of_generation {s : State} (h : Inv s) {t : Task} (ht : t ∈ s.tasks)
    {g : Nat} (hg : t.projectedLineageGeneration = some g) :
    ∃ p, taskProjection t = some p ∧ p.generation = g := by
  rcases h.whole t ht with hfull | hnull
  · obtain ⟨p, hp⟩ := isSome_iff_exists.mp (taskProjection_isSome_iff.mpr hfull)
    obtain ⟨-, -, hgen, -⟩ := taskProjection_columns hp
    exact ⟨p, hp, some.inj (hgen.symm.trans hg)⟩
  · rw [hnull.2.2.1] at hg
    cases hg

/-- **One generation, one lineage**: in every state that an Issue reaches after migration
    068 by steps at which the assignments of generations agree, Tasks of one generation
    share harness key and namespace, generations do not decrease with `issue_sequence` and
    increase at every fresh turn, and recording an output session never raises the
    lineage-mismatch error. -/
theorem generation_denotes_lineage (ns : String → Option String → String) (issueId : Nat)
    {s : State} (h : (issueLineage ns issueId).Reachable (Agreeing ns) s) : OneLineage s := by
  have hinv := inv_reachable_of_agreeing h
  refine ⟨?_, ?_, ?_⟩
  · intro a ha b hb g hga hgb
    obtain ⟨p, hp, hpg⟩ := hinv.projection_of_generation ha hga
    obtain ⟨q, hq, hqg⟩ := hinv.projection_of_generation hb hgb
    obtain ⟨hpk, hps, -⟩ := taskProjection_columns hp
    obtain ⟨hqk, hqs, -⟩ := taskProjection_columns hq
    obtain ⟨hkey, hspace⟩ := hinv.coherent.lineage_eq ha hb hp hq (hpg.trans hqg.symm)
    rw [hpk, hqk, hps, hqs, hkey, hspace]
    exact ⟨rfl, rfl⟩
  · intro a ha b hb i hi j hj hij g hga g' hgb
    obtain ⟨p, hp, rfl⟩ := hinv.projection_of_generation ha hga
    obtain ⟨q, hq, rfl⟩ := hinv.projection_of_generation hb hgb
    have hfollows : Follows p b :=
      rel_of_sequence_lt hinv.ordered.sequenced hinv.coherent ha hb hi hj hij p hp
    rcases hfollows q hq with hlt | ⟨heq, -, -, hfresh⟩
    · exact ⟨hlt.le, fun _ => hlt⟩
    · exact ⟨heq.le, fun hf => absurd hf hfresh⟩
  · intro t ht sessionId
    exact (hinv.record_owned ht sessionId).1

def sampleNamespace : String → Option String → String := sessionNamespaceFor sampleDigest

/-- An Issue right after migration 068: a completed Task without a snapshot, and an active
    one that the backfill had to leave NULL. -/
def migratedIssue : State :=
  let history : List Task :=
    [{ id := 1, issueId := 7, status := .completed },
     { id := 2, issueId := 7, status := .queued, createdAt := 1 }]
  let tasks := upgrade068 sampleNamespace (fun _ => none) history
  { tasks
    lineages := backfillSessionLineages (fun _ => none) (fun _ _ => none) tasks
    clock := 2
    nextId := 3 }

theorem migratedIssue_migrated : Migrated sampleNamespace migratedIssue :=
  ⟨[{ id := 1, issueId := 7, status := .completed },
    { id := 2, issueId := 7, status := .queued, createdAt := 1 }],
    fun _ => none, fun _ _ => none, by decide, by decide, rfl, rfl, by decide⟩

/-- A run through the condition: the second Task is cancelled and repaired into the legacy
    lineage, a fresh turn opens generation 1, a further turn continues it. -/
theorem generation_denotes_lineage_fresh_turn :
    ∃ s, (issueLineage sampleNamespace 7).Reachable (Agreeing sampleNamespace) s ∧
      s.tasks.map (·.projectedLineageGeneration) = [some 0, some 0, some 1, some 1] ∧
      OneLineage s := by
  have hrun : ∃ s, (issueLineage sampleNamespace 7).Run (Agreeing sampleNamespace) migratedIssue s ∧
      s.tasks.map (·.projectedLineageGeneration) = [some 0, some 0, some 1, some 1] := by
    refine ⟨_, .step (.step (.step (.step (.refl _) ?_ (l := .setStatus 2 .cancelled) rfl)
      ?_ (l := .repair) rfl) ?_ (l := .create { harnessKey := "claude", sessionMode := .fresh })
      rfl) ?_ (l := .create { harnessKey := "claude" }) rfl, ?_⟩
    · trivial
    · show GapsInherit sampleNamespace _ none _
      decide
    · exact ⟨by decide, fun _ => ⟨(legacyNamespace, legacyNamespace), by decide, .inl rfl⟩⟩
    · exact ⟨by decide, fun hlegacy => absurd hlegacy (by decide)⟩
    · rfl
  obtain ⟨s, hrun, hgens⟩ := hrun
  have hreach : (issueLineage sampleNamespace 7).Reachable (Agreeing sampleNamespace) s :=
    ⟨migratedIssue, migratedIssue_migrated, hrun⟩
  exact ⟨s, hreach, hgens, generation_denotes_lineage _ _ hreach⟩

/-- A `continue` turn after a legacy tail restarts at generation 0, next to the legacy Task
    of that generation, and the session it produces is refused by the legacy row. -/
theorem legacy_tail_restarts_generation :
    ∃ s, (issueLineage sampleNamespace 7).Reachable System.anyStep s ∧
      s.tasks.map (fun t => (t.issueSequence, t.projectedLineageGeneration,
          t.projectedHarnessKey)) =
        [(some 1, some 0, some "legacy"), (some 2, some 0, some "legacy"),
          (some 3, some 0, some "claude")] ∧
      (∃ t ∈ s.tasks, recordProjectedOutputSession t (some "session") s.lineages =
        .error .lineageMismatch) ∧
      ¬ OneLineage s := by
  have hreach := System.reachable_of_exec migratedIssue_migrated
    (show (issueLineage sampleNamespace 7).exec migratedIssue
      [.setStatus 2 .cancelled, .create { harnessKey := "claude" }] = some _ from rfl)
  refine ⟨_, hreach, rfl, by decide, ?_⟩
  intro hone
  exact hone.recorded _ (mem_cons_of_mem _ (mem_cons_of_mem _ mem_cons_self)) (some "session") rfl

end Codify.IssueTaskLineage
