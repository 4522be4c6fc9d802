import Codify.LineageGenerations

/-! # Repair Agrees with Append

    `_repair_lineage_projections` is a fold over all Tasks of an Issue,
    `project_tail_lineage` one step on a tail projection. On Tasks that carry a Worker
    snapshot both derive the same lineage, and no tail is a legacy placeholder. The fold goes
    by the session mode that a Task stores, the append by the one that it was called with:
    `fresh_retry` calls it for a fresh turn and stores `continue`. So rows that lose their
    projections get them back if and only if they store what they were appended with
    (`AsAppended`).

    * **One Task**: `followingProjection_of_append`, `append_raises_of_blocked`.
    * **The fold**: `repairLoop_erased`, `repairLoop_blocked`; what a repair assigns to a
      Task that stores `continue` is no fresh turn (`repairLoop_mode`).
    * **Histories**: `issueHistory` runs creations and retries, edits and reschedules from
      the empty Issue; `Grown` holds along every run.
-/

namespace Codify.IssueTaskLineage

open Codify Codify.Framework Codify.IssueTaskOrder Codify.IssueSchedule List Option

/-! ### One Task -/

/-- Set the projection columns of a Task to NULL. -/
def eraseProjection (t : Task) : Task :=
  { t with
    projectedHarnessKey := none
    projectedSessionNamespace := none
    projectedLineageGeneration := none
    projectedResetTaskId := none
    lineageProjectionReason := none }

/-- The reset point of a Task appended in a session mode, known after the flush. -/
def withReset (mode : SessionMode) (taskId : Nat) (p : Projection) : Projection :=
  { p with
    resetTaskId := if mode = .fresh ∧ p.resetTaskId = none then some taskId else p.resetTaskId }

/-- A projection outside the legacy namespace. -/
def Verified (tail : Option Projection) : Prop :=
  ∀ q, tail = some q → q.sessionNamespace ≠ legacyNamespace

theorem setProjection_eraseProjection {t : Task} {p : Projection}
    (h : taskProjection t = some p) : setProjection (eraseProjection t) p = t := by
  obtain ⟨hkey, hspace, hgen, hreset, hreason⟩ := taskProjection_columns h
  unfold setProjection eraseProjection
  simp only [← hkey, ← hspace, ← hgen, ← hreset, ← hreason]

theorem hasFullProjection_eraseProjection (t : Task) :
    hasFullProjection (eraseProjection t) = false := rfl

theorem derivedLineage_of_snapshot (ns : String → Option String → String)
    {snapshots : Nat → Option WorkerSnapshot} {t : Task} {key : String} {fp : Option String}
    (hkey : key ≠ "")
    (h : snapshots t.id = some { harnessKey := some key, endpointFingerprint := fp }) :
    derivedLineage ns snapshots t = some (key, ns key fp) := by
  simp [derivedLineage, h, Option.filter, hkey]

section OneTask

variable {tail : Option Projection} {t : Task} {key space : String}

/-- Where the append of a Task goes through, the repair assigns the same projection. -/
theorem followingProjection_of_append {issueId : Nat} (htail : Verified tail) {p : Projection}
    (h : projectTailLineage tail issueId key space t.sessionMode = .ok p) :
    followingProjection tail t key space = some (withReset t.sessionMode t.id p) := by
  unfold projectTailLineage at h
  unfold followingProjection
  cases tail with
  | none =>
    cases h
    by_cases hmode : t.sessionMode = .fresh <;> simp [withReset, hmode]
  | some q =>
    have hsome : (some q).filter (·.sessionNamespace != legacyNamespace) = some q := by
      simp [Option.filter, htail q rfl]
    rw [hsome] at h
    simp only at h ⊢
    by_cases hmode : t.sessionMode = .fresh
    · rw [if_pos hmode] at h ⊢
      cases h
      simp [withReset, hmode]
    · rw [if_neg hmode] at h ⊢
      split at h
      · next hsame =>
        rw [if_pos hsame]
        cases h
        simp [withReset, hmode]
      · cases h

/-- The repair stops at a Task only if it is active and its append raises the lineage
    conflict. -/
theorem append_raises_of_blocked (issueId : Nat) (htail : Verified tail)
    (h : followingProjection tail t key space = none) :
    t.status.active = true ∧ ∃ q, tail = some q ∧
      projectTailLineage tail issueId key space t.sessionMode = .error (.lineage issueId q) := by
  unfold followingProjection at h
  cases tail with
  | none => cases h
  | some q =>
    have hsome : (some q).filter (·.sessionNamespace != legacyNamespace) = some q := by
      simp [Option.filter, htail q rfl]
    simp only at h
    split at h
    · cases h
    next hmode =>
    split at h
    · cases h
    next hsame =>
    split at h
    · next hactive =>
      refine ⟨hactive, q, rfl, ?_⟩
      unfold projectTailLineage
      rw [hsome]
      simp only
      rw [if_neg hmode, if_neg hsame]
    · cases h

end OneTask

theorem fresh_of_append {tail : Option Projection} {t : Task} {key space : String} {issueId : Nat}
    {p : Projection}
    (h : projectTailLineage tail issueId key space .fresh = .ok p)
    (hp : taskProjection t = some (withReset .fresh t.id p)) : Fresh t := by
  obtain ⟨-, -, hgen, -, hreason⟩ := taskProjection_columns hp
  unfold projectTailLineage at h
  split at h
  · cases h
    exact .inr (.inr ⟨hreason, by rw [hgen]; rfl⟩)
  · cases h
    exact .inr (.inl hreason)

/-- A Task is what the repair takes it for: its snapshot still gives the lineage that it was
    appended with, and it is stored as a fresh turn if it was appended as one. -/
structure AsAppended (ns : String → Option String → String)
    (snapshots : Nat → Option WorkerSnapshot) (t : Task) : Prop where
  lineage : ∀ key fp, snapshots t.id = some { harnessKey := some key, endpointFingerprint := fp } →
    t.projectedHarnessKey = some key ∧ t.projectedSessionNamespace = some (ns key fp)
  mode : Fresh t → t.sessionMode = .fresh

/-! ### Appended Histories -/

section Appended

variable (issueId : Nat)

/-- The Task was appended after `tail` in some session mode; it stores `fresh` only if that
    is the mode. -/
def AppendedAfter (tail : Option Projection) (t : Task) : Prop :=
  ∃ key space mode p, space ≠ legacyNamespace ∧
    projectTailLineage tail issueId key space mode = .ok p ∧
    taskProjection t = some (withReset mode t.id p) ∧
    (mode = .continue → t.sessionMode = .continue)

/-- The Tasks were appended one after the other. -/
def Appended (tail : Option Projection) : List Task → Prop
  | [] => True
  | t :: rest => AppendedAfter issueId tail t ∧ Appended (taskProjection t) rest

variable {issueId} {rows : List Task} {tail : Option Projection} {t : Task}

/-- The tail after a list of projected Tasks. -/
def tailAfter (tail : Option Projection) (rows : List Task) : Option Projection :=
  (rows.getLast?.bind taskProjection).or tail

theorem tailAfter_cons {p : Projection} (hp : taskProjection t = some p)
    (hrows : ∀ r ∈ rows, (taskProjection r).isSome) :
    tailAfter tail (t :: rows) = tailAfter (some p) rows := by
  unfold tailAfter
  cases hlast : rows.getLast? with
  | none =>
    obtain rfl := getLast?_eq_none_iff.mp hlast
    simp [hp]
  | some r =>
    obtain ⟨q, hq⟩ := isSome_iff_exists.mp (hrows r (mem_of_getLast? hlast))
    have : (t :: rows).getLast? = some r := by
      rw [getLast?_cons, hlast]
      rfl
    simp [this, hq]

theorem tailAfter_append {rows' : List Task}
    (hrows : ∀ r ∈ rows', (taskProjection r).isSome) :
    (rows ++ rows').getLast?.bind taskProjection = tailAfter (tailAfter none rows) rows' := by
  unfold tailAfter
  rw [getLast?_append]
  cases hlast : rows'.getLast? with
  | none => simp
  | some r =>
    obtain ⟨q, hq⟩ := isSome_iff_exists.mp (hrows r (mem_of_getLast? hlast))
    simp [hq]

/-- Appended Tasks are projected, outside the legacy namespace. -/
theorem Appended.projection (h : Appended issueId tail rows) :
    ∀ r ∈ rows, ∃ q, taskProjection r = some q ∧ q.sessionNamespace ≠ legacyNamespace := by
  induction rows generalizing tail with
  | nil => simp
  | cons t rest ih =>
    obtain ⟨⟨key, space, mode, p, hspace, happend, hp, -⟩, hrest⟩ := h
    intro r hr
    rcases mem_cons.mp hr with rfl | hr
    · refine ⟨_, hp, ?_⟩
      show p.sessionNamespace ≠ legacyNamespace
      rw [(projectTailLineage_lineage happend).2]
      exact hspace
    · exact ih hrest r hr

theorem Appended.verified (h : Appended issueId none rows) : Verified (tailAfter none rows) := by
  intro q hq
  simp only [tailAfter, or_none] at hq
  obtain ⟨last, hlast, hq⟩ := bind_eq_some_iff.mp hq
  obtain ⟨q', hq', hspace⟩ := h.projection last (mem_of_getLast? hlast)
  cases hq'.symm.trans hq
  exact hspace

theorem Appended.append (h : Appended issueId tail rows)
    (ht : AppendedAfter issueId (tailAfter tail rows) t) :
    Appended issueId tail (rows ++ [t]) := by
  induction rows generalizing tail with
  | nil => exact ⟨ht, trivial⟩
  | cons r rest ih =>
    obtain ⟨hr, hrest⟩ := h
    refine ⟨hr, ih hrest ?_⟩
    obtain ⟨key, space, mode, p, -, -, hp, -⟩ := hr
    rw [hp] at hrest ⊢
    rwa [tailAfter_cons hp fun r hr => by
      obtain ⟨q, hq, -⟩ := hrest.projection r hr
      simp [hq]] at ht

/-- An appended history reads only ids, session modes and projection columns of the rows. -/
theorem Appended.map {f : Task → Task} (h : Appended issueId tail rows)
    (hid : ∀ t, (f t).id = t.id) (hmode : ∀ t, (f t).sessionMode = t.sessionMode)
    (hproj : ∀ t, taskProjection (f t) = taskProjection t) :
    Appended issueId tail (rows.map f) := by
  induction rows generalizing tail with
  | nil => trivial
  | cons t rest ih =>
    obtain ⟨⟨key, space, mode, p, hspace, happend, hp, hstored⟩, hrest⟩ := h
    refine ⟨⟨key, space, mode, p, hspace, happend, ?_, ?_⟩, ?_⟩
    · rw [hproj, hid, hp]
    · rw [hmode]
      exact hstored
    · rw [hproj]
      exact ih hrest

end Appended

/-! ### The Fold -/

section Fold

variable {ns : String → Option String → String} {snapshots : Nat → Option WorkerSnapshot}
  {issueId : Nat}

def HasSnapshot (snapshots : Nat → Option WorkerSnapshot) (t : Task) : Prop :=
  ∃ key fp, key ≠ "" ∧
    snapshots t.id = some { harnessKey := some key, endpointFingerprint := fp }

variable {rows tasks : List Task} {n m : Nat}

/-- The rows after the `k`-th one lose their projections. -/
def erasedFrom (k : Nat) (rows : List Task) : List Task :=
  rows.take k ++ (rows.drop k).map eraseProjection

/-- **Repair**: erased rows that store what they were appended with are filled with it. -/
theorem repairLoop_erased {tail : Option Projection}
    (h : Appended issueId tail rows) (htail : Verified tail)
    (hsnap : ∀ t ∈ rows, HasSnapshot snapshots t) (k n : Nat)
    (hstored : ∀ t ∈ rows.drop k, AsAppended ns snapshots t) :
    ∃ m, repairLoop ns snapshots tail n (erasedFrom k rows) = .ok (m, rows) := by
  induction rows generalizing tail k n with
  | nil => exact ⟨n, by simp [erasedFrom, repairLoop]⟩
  | cons t rest ih =>
    obtain ⟨⟨key, space, mode, p, hspace, happend, hp, hmode⟩, hrest⟩ := h
    have hsnap' : ∀ t ∈ rest, HasSnapshot snapshots t :=
      fun t ht => hsnap t (mem_cons_of_mem _ ht)
    have htail' : Verified (taskProjection t) := by
      intro q hq
      cases hp.symm.trans hq
      show p.sessionNamespace ≠ legacyNamespace
      rw [(projectTailLineage_lineage happend).2]
      exact hspace
    cases k with
    | zero =>
      -- the Task is erased: the fold sees the mode and the lineage of its append
      obtain ⟨hlineage, hfresh⟩ := hstored t mem_cons_self
      obtain ⟨m, hm⟩ := ih hrest htail' hsnap' 0 (n + 1)
        fun t ht => hstored t (mem_cons_of_mem _ ht)
      obtain ⟨key', fp, hne, hkey⟩ := hsnap t mem_cons_self
      obtain ⟨hkey', hspace'⟩ := hlineage key' fp hkey
      obtain ⟨hpk, hps, -⟩ := taskProjection_columns hp
      obtain ⟨hk, hs⟩ := projectTailLineage_lineage happend
      obtain rfl : key' = key := (some.inj (hkey'.symm.trans hpk)).trans hk
      obtain rfl : ns key' fp = space := (some.inj (hspace'.symm.trans hps)).trans hs
      obtain rfl : t.sessionMode = mode := by
        cases mode with
        | fresh => exact hfresh (fresh_of_append happend hp)
        | «continue» => exact hmode rfl
      have hderived : derivedLineage ns snapshots (eraseProjection t) = some (key', ns key' fp) :=
        derivedLineage_of_snapshot ns hne hkey
      have hfollow : followingProjection tail (eraseProjection t) key' (ns key' fp) =
          some (withReset t.sessionMode t.id p) :=
        followingProjection_of_append (t := eraseProjection t) htail happend
      refine ⟨m, ?_⟩
      rw [hp] at hm
      simp only [erasedFrom, take_zero, drop_zero, nil_append, map_cons] at hm ⊢
      simp only [repairLoop, hasFullProjection_eraseProjection, hderived, hfollow, hm,
        Bool.false_eq_true, if_false, ok_bind, pure_eq_ok, setProjection_eraseProjection hp]
    | succ k =>
      obtain ⟨m, hm⟩ := ih hrest htail' hsnap' k n hstored
      refine ⟨m, ?_⟩
      have hfull : hasFullProjection t = true := taskProjection_isSome_iff.mp (by simp [hp])
      simp only [erasedFrom, take_succ_cons, drop_succ_cons, cons_append] at hm ⊢
      simp only [repairLoop, hfull, if_true, hm, ok_bind, pure_eq_ok]

theorem fresh_backfilled {tail : Option Projection} {t : Task} {key space : String}
    (h : Fresh (setProjection t (backfilledProjection tail t key space))) :
    t.sessionMode = .fresh := by
  by_contra hmode
  rcases h with h | h | ⟨h, hgen⟩
  · exact hmode h
  · cases tail with
    | none => simp [setProjection, backfilledProjection] at h
    | some q =>
      simp only [setProjection, backfilledProjection, if_neg hmode] at h
      split at h <;> simp at h
  · cases tail with
    | none => simp [setProjection, backfilledProjection, hmode] at hgen
    | some q =>
      simp only [setProjection, backfilledProjection, if_neg hmode] at h
      split at h <;> simp at h

/-- A row that the repair fills is a fresh turn only if it stores that. -/
theorem repairLoop_mode {tail : Option Projection}
    (h : repairLoop ns snapshots tail n tasks = .ok (m, rows)) :
    List.Forall₂ (fun t r => r.id = t.id ∧
      (hasFullProjection t = false → Fresh r → t.sessionMode = .fresh)) tasks rows := by
  induction tasks generalizing tail n rows with
  | nil =>
    obtain ⟨-, rfl⟩ := h
    exact .nil
  | cons task rest ih =>
    rcases repairLoop_cons h with
      ⟨hfull, rows', rfl, hrest⟩ | ⟨-, key, space, p, rows', -, hp, rfl, hrest⟩
    · refine .cons ⟨rfl, fun hnull => ?_⟩ (ih hrest)
      rw [hfull] at hnull
      cases hnull
    · obtain rfl := followingProjection_eq hp
      exact .cons ⟨rfl, fun _ => fresh_backfilled⟩ (ih hrest)

/-- **Converse**: a repair that restores the rows read in them what they were appended with. -/
theorem asAppended_of_restored (hids : (rows.map (·.id)).Nodup)
    (hsnap : ∀ t ∈ rows, HasSnapshot snapshots t) {k : Nat}
    (h : repairLoop ns snapshots none n (erasedFrom k rows) = .ok (m, rows)) :
    ∀ t ∈ rows.drop k, AsAppended ns snapshots t := by
  intro t ht
  have hmem : t ∈ rows := mem_of_mem_drop ht
  have herased : eraseProjection t ∈ erasedFrom k rows :=
    mem_append_right _ (mem_map_of_mem ht)
  refine ⟨?_, ?_⟩
  · intro key fp hkey
    obtain ⟨key', fp', hne, hkey'⟩ := hsnap t hmem
    cases hkey'.symm.trans hkey
    obtain ⟨r, hr, hrepaired⟩ :=
      Table.exists_rewritten_of_mem (repairLoop_repaired (by simp) h) herased
    obtain rfl : r = t := inj_on_of_nodup_map hids hr hmem hrepaired.columns.1
    obtain ⟨hfull, -⟩ | ⟨-, p, hp, -, hderived⟩ := hrepaired
    · rw [hasFullProjection_eraseProjection] at hfull
      cases hfull
    rw [derivedLineage_of_snapshot (t := eraseProjection r) ns hne hkey] at hderived
    obtain ⟨rfl, hspace⟩ := Prod.mk.inj (some.inj hderived)
    rw [hp, hspace]
    exact ⟨rfl, rfl⟩
  · intro hfresh
    obtain ⟨r, hr, hid, hmode⟩ := Table.exists_rewritten_of_mem (repairLoop_mode h) herased
    obtain rfl : r = t := inj_on_of_nodup_map hids hr hmem hid
    exact hmode rfl hfresh

theorem repairLoop_isSome {tail : Option Projection}
    (hcomplete : ∀ p, tail = some p → Complete p)
    (h : repairLoop ns snapshots tail n tasks = .ok (m, rows)) :
    ∀ r ∈ rows, (taskProjection r).isSome := by
  intro r hr
  obtain ⟨t, -, hrow⟩ := Table.exists_of_mem_rewritten (repairLoop_repaired hcomplete h) hr
  obtain ⟨p, hp, -⟩ := hrow.projection
  simp [hp]

theorem pairwise_erased {rows extra : List Task} (k : Nat)
    (h : (rows ++ extra).Pairwise createdBefore) :
    (erasedFrom k rows ++ extra).Pairwise createdBefore := by
  have hmap : (erasedFrom k rows ++ extra).map
      (fun t => (t.createdAt, t.id)) = (rows ++ extra).map fun t => (t.createdAt, t.id) := by
    have herase : ((rows.drop k).map eraseProjection).map (fun t => (t.createdAt, t.id)) =
        (rows.drop k).map fun t => (t.createdAt, t.id) := by
      rw [List.map_map]
      rfl
    rw [erasedFrom, map_append, map_append, herase, ← map_append, take_append_drop, map_append]
  rw [pairwise_createdBefore_iff, hmap, ← pairwise_createdBefore_iff]
  exact h

theorem repairLoop_append {tail : Option Projection} {xs ys rows : List Task}
    (hcomplete : ∀ p, tail = some p → Complete p)
    (h : repairLoop ns snapshots tail n xs = .ok (m, rows)) :
    repairLoop ns snapshots tail n (xs ++ ys) =
      (repairLoop ns snapshots (tailAfter tail rows) m ys).map
        fun result => (result.1, rows ++ result.2) := by
  induction xs generalizing tail n rows with
  | nil =>
    simp only [repairLoop, Except.ok.injEq, Prod.mk.injEq] at h
    obtain ⟨rfl, rfl⟩ := h
    cases hys : repairLoop ns snapshots tail n ys <;> simp [tailAfter, hys, Except.map]
  | cons task rest ih =>
    rcases repairLoop_cons h with
      ⟨hfull, rows', rfl, hrest⟩ | ⟨hfull, key, space, p, rows', hderived, hp, rfl, hrest⟩
    · obtain ⟨q, hq⟩ := isSome_iff_exists.mp (taskProjection_isSome_iff.mpr hfull)
      rw [hq] at hrest
      have hq' : ∀ p, some q = some p → Complete p := by
        rintro p ⟨⟩
        exact taskProjection_reset hq
      rw [tailAfter_cons hq (repairLoop_isSome hq' hrest)]
      rw [cons_append]
      simp only [repairLoop, hfull, if_true, hq, ih hq' hrest]
      cases repairLoop ns snapshots (tailAfter (some q) rows') m ys <;> simp [Except.map]
    · have hp' : ∀ r, some p = some r → Complete r := by
        rintro r ⟨⟩
        obtain rfl := followingProjection_eq hp
        exact (backfilledProjection_spec task key space hcomplete).1
      have hfilled : taskProjection (setProjection task p) = some p :=
        taskProjection_setProjection (hp' p rfl)
      rw [tailAfter_cons hfilled (repairLoop_isSome hp' hrest)]
      rw [cons_append]
      simp only [repairLoop, hfull, Bool.false_eq_true, if_false, hderived, hp, ih hp' hrest]
      cases repairLoop ns snapshots (tailAfter (some p) rows') m ys <;> simp [Except.map]

/-- The fold over unprojected Tasks with snapshots stops only at an active Task whose
    append raises the lineage conflict on the tail reached so far. -/
theorem repairLoop_blocked (hns : ∀ key fp, ns key fp ≠ legacyNamespace)
    {tail : Option Projection} {reason : IntegrityReason}
    (hcomplete : ∀ p, tail = some p → Complete p) (htail : Verified tail)
    (hnull : ∀ t ∈ tasks, hasFullProjection t = false)
    (hsnap : ∀ t ∈ tasks, HasSnapshot snapshots t)
    (h : repairLoop ns snapshots tail n tasks = .error reason) :
    reason = .continueNamespaceChange ∧ ∃ pre t post m rows, tasks = pre ++ t :: post ∧
      t.status.active = true ∧ repairLoop ns snapshots tail n pre = .ok (m, rows) ∧
      ∃ key fp q, snapshots t.id = some { harnessKey := some key, endpointFingerprint := fp } ∧
        projectTailLineage (tailAfter tail rows) issueId key (ns key fp) t.sessionMode =
          .error (.lineage issueId q) := by
  induction tasks generalizing tail n with
  | nil => simp [repairLoop] at h
  | cons task rest ih =>
    obtain ⟨key, fp, hne, hkey⟩ := hsnap task mem_cons_self
    have hfull := hnull task mem_cons_self
    have hderived := derivedLineage_of_snapshot ns hne hkey
    simp only [repairLoop, hfull, Bool.false_eq_true, if_false, hderived] at h
    cases hfollow : followingProjection tail task key (ns key fp) with
    | none =>
      rw [hfollow] at h
      obtain ⟨hactive, q, rfl, hraise⟩ :=
        append_raises_of_blocked issueId htail hfollow
      refine ⟨(Except.error.inj h).symm, [], task, rest, n, [], rfl, hactive, rfl, key, fp, q,
        hkey, hraise⟩
    | some p =>
      rw [hfollow] at h
      obtain rfl := followingProjection_eq hfollow
      obtain ⟨hdone, -, hspace, -⟩ :=
        backfilledProjection_spec task key (ns key fp) hcomplete
      set p := backfilledProjection tail task key (ns key fp)
      have hp : ∀ r, some p = some r → Complete r := by
        rintro r ⟨⟩
        exact hdone
      have hverified : Verified (some p) := by
        rintro r ⟨⟩
        rw [hspace]
        exact hns key fp
      have hrest : repairLoop ns snapshots (some p) (n + 1) rest = .error reason := by
        cases hloop : repairLoop ns snapshots (some p) (n + 1) rest with
        | error e =>
          simp only [hloop, error_bind] at h
          exact h
        | ok result => simp [hloop] at h
      obtain ⟨hreason, pre, t, post, m, rows, rfl, hactive, hpre, hraise⟩ := ih hp hverified
        (fun t ht => hnull t (mem_cons_of_mem _ ht))
        (fun t ht => hsnap t (mem_cons_of_mem _ ht)) hrest
      refine ⟨hreason, task :: pre, t, post, m, setProjection task p :: rows, rfl, hactive, ?_, ?_⟩
      · simp only [repairLoop, hfull, Bool.false_eq_true, if_false, hderived, hfollow, hpre,
          ok_bind, pure_eq_ok]
      · rw [tailAfter_cons (taskProjection_setProjection hdone) (repairLoop_isSome hp hpre)]
        exact hraise

end Fold

/-! ### Histories of an Issue -/

variable (ns : String → Option String → String) (issueId : Nat)

/-- One serial operation on an Issue. -/
inductive HistoryLabel where
  | lineage (l : Label)
  | reschedule (taskId : Nat) (scheduledAt : DateTime)
  /-- `execute_task`: clears `scheduled_at`. -/
  | executeNow (taskId : Nat)
  deriving DecidableEq, Repr

/-- An Issue from its first Task on. -/
def issueHistory : System State HistoryLabel where
  init := fun s => s.tasks = []
  next := fun s l =>
    match l with
    | .lineage l => (issueLineage ns issueId).next s l
    | .reschedule taskId scheduledAt => do
      let _ ← activeTask? s.tasks taskId
      match rescheduleTask ns s.snapshots issueId taskId scheduledAt s.tasks with
      | .error _ => none
      | .ok tasks => some { s with tasks }
    | .executeNow taskId => do
      let _ ← activeTask? s.tasks taskId
      some { s with tasks := updateTask taskId ({ · with scheduledAt := none }) s.tasks }

/-- The invariant of every run: the Tasks were appended one after the other. -/
structure Grown (s : State) : Prop where
  ordered : WellOrdered s.tasks
  past : ∀ t ∈ s.tasks, t.createdAt ≤ s.clock ∧ t.id < s.nextId
  appended : Appended issueId none s.tasks

variable {ns issueId} {s : State} {tasks' : List Task}

/-- A Task appended to the rows keeps the invariant. -/
theorem Grown.append (h : Grown issueId s) {new : Task} (hid : new.id = s.nextId)
    (hcreated : new.createdAt = s.clock) (hseq : new.issueSequence = some (s.tasks.length + 1))
    (hfull : hasFullProjection new = true)
    (hnew : AppendedAfter issueId (s.tasks.getLast?.bind taskProjection) new)
    (snapshots : Nat → Option WorkerSnapshot) (outputSessions : Nat → Option String) :
    Grown issueId { s with tasks := s.tasks ++ [new], nextId := s.nextId + 1, snapshots,
                           outputSessions } := by
  refine ⟨h.ordered.append h.past hid hcreated hseq hfull, past_append h.past hid hcreated,
    h.appended.append ?_⟩
  simpa [tailAfter] using hnew

theorem Grown.rows (h : Grown issueId s) {report : IntegrityReport} {rows : List Task}
    (hensure : ensureIssueOrderIntegrityLocked ns s.snapshots issueId true s.tasks =
      .ok (report, rows)) : s.tasks = rows := by
  rw [h.ordered.ensureIssueOrderIntegrityLocked_eq] at hensure
  exact (Prod.mk.inj (Except.ok.inj hensure)).2

theorem Grown.create (hns : ∀ key fp, ns key fp ≠ legacyNamespace) (h : Grown issueId s)
    {request : AppendRequest}
    (hok : createTaskRecord ns s.snapshots issueId s.nextId s.clock request s.tasks = .ok tasks')
    (snapshots : Nat → Option WorkerSnapshot) (outputSessions : Nat → Option String) :
    Grown issueId { s with tasks := tasks', nextId := s.nextId + 1, snapshots,
                           outputSessions } := by
  obtain ⟨report, rows, p, hensure, hp, rfl, hfull⟩ :=
    (ordered_of_wellOrdered h.ordered).create_spec hok
  obtain rfl := h.rows hensure
  refine h.append rfl rfl rfl hfull ?_ snapshots outputSessions
  exact ⟨_, _, request.sessionMode, p, hns _ _, hp, taskProjection_of_full hfull, fun hmode => hmode⟩

/-- A retry derives its lineage from the columns of its source, or from its snapshot. -/
theorem Grown.sourceProjection_ne (hns : ∀ key fp, ns key fp ≠ legacyNamespace)
    (h : Grown issueId s) {source : Task} (hsource : source ∈ s.tasks) (snapshot : WorkerSnapshot) :
    (sourceProjection ns source snapshot).2.1 ≠ legacyNamespace := by
  unfold sourceProjection
  split
  · next key space _ hspace =>
    obtain ⟨q, hq, hne⟩ := h.appended.projection source hsource
    obtain ⟨-, hcolumn, -⟩ := taskProjection_columns hq
    obtain ⟨hcolumn', -⟩ := filter_eq_some_iff.mp hspace
    cases hcolumn.symm.trans hcolumn'
    exact hne
  · exact hns _ _

theorem Grown.retry (hns : ∀ key fp, ns key fp ≠ legacyNamespace) (h : Grown issueId s)
    {request : RetryRequest} {source : Task} (hsource : source ∈ s.tasks)
    (hok : retryTaskRecord ns s.snapshots issueId s.outputSessions s.nextId s.clock request
      source s.tasks = .ok tasks') (snapshots : Nat → Option WorkerSnapshot)
    (outputSessions : Nat → Option String) :
    Grown issueId { s with tasks := tasks', nextId := s.nextId + 1, snapshots,
                           outputSessions } := by
  obtain ⟨snapshot, report, rows, source', p, mode, -, hensure, hsource', hp, hfresh, -, rfl,
    hfull⟩ := (ordered_of_wellOrdered h.ordered).retry_spec hok
  obtain rfl := h.rows hensure
  have hmem : source' ∈ s.tasks := by
    rw [hsource']
    cases hfound : s.tasks.find? (·.id == source.id) with
    | none => exact hsource
    | some t => exact mem_of_find?_eq_some hfound
  refine h.append rfl rfl rfl hfull ?_ snapshots outputSessions
  refine ⟨_, _, mode, p, h.sourceProjection_ne hns hmem snapshot, hp, ?_, ?_⟩
  · refine (taskProjection_of_full hfull).trans ?_
    simp only [withReset, hfresh]
    rfl
  · rintro rfl
    exact retrySessionMode_of_not_fresh fun hf => by simpa using hfresh.mpr hf

/-- Every other write of a row keeps its id, rank, mode and projection. -/
theorem Grown.update (h : Grown issueId s) (taskId : Nat) {f : Task → Task}
    (hid : ∀ t, (f t).id = t.id) (hseq : ∀ t, (f t).issueSequence = t.issueSequence)
    (hcreated : ∀ t, (f t).createdAt = t.createdAt)
    (hmode : ∀ t, (f t).sessionMode = t.sessionMode)
    (hproj : ∀ t, taskProjection (f t) = taskProjection t) :
    Grown issueId { s with tasks := updateTask taskId f s.tasks } := by
  have hfull : ∀ t, hasFullProjection (f t) = hasFullProjection t := by
    intro t
    rw [Bool.eq_iff_iff, ← taskProjection_isSome_iff, ← taskProjection_isSome_iff, hproj]
  refine ⟨wellOrdered_update h.ordered hid hseq hcreated hfull, ?_, h.appended.map ?_ ?_ ?_⟩
  · intro t' ht'
    obtain ⟨t, ht, rfl⟩ := mem_updateTask.mp ht'
    have := h.past t ht
    split
    · rwa [hid, hcreated]
    · exact this
  · intro t
    split
    · exact hid t
    · rfl
  · intro t
    split
    · exact hmode t
    · rfl
  · intro t
    split
    · exact hproj t
    · rfl

/-- What is not in the rows is free. -/
theorem Grown.congr {t : State} (h : Grown issueId s) (htasks : t.tasks = s.tasks)
    (hclock : s.clock ≤ t.clock) (hid : s.nextId ≤ t.nextId) : Grown issueId t := by
  refine ⟨htasks ▸ h.ordered, ?_, htasks ▸ h.appended⟩
  intro row hrow
  rw [htasks] at hrow
  have hpast := h.past row hrow
  exact ⟨hpast.1.trans hclock, hpast.2.trans_le hid⟩

theorem Grown.step_lineage (hns : ∀ key fp, ns key fp ≠ legacyNamespace) (h : Grown issueId s)
    {l : Label} {t : State} (hstep : (issueLineage ns issueId).next s l = some t) :
    Grown issueId t := by
  cases lineageStep_of_next ns hstep with
  | create hok => exact h.create hns hok _ _
  | retry hsource hok => exact h.retry hns hsource hok _ _
  | repair hok => exact h.congr (h.rows hok).symm le_rfl le_rfl
  | setStatus =>
    exact h.update _ (fun _ => rfl) (fun _ => rfl) (fun _ => rfl) (fun _ => rfl) fun _ => rfl
  | editSnapshot | start | record => exact h.congr rfl le_rfl le_rfl
  | elapse =>
    exact h.congr rfl (Int.le_add_of_nonneg_right (Int.natCast_nonneg _)) (Nat.le_add_right _ _)

theorem Grown.step (hns : ∀ key fp, ns key fp ≠ legacyNamespace) (h : Grown issueId s)
    {l : HistoryLabel} {t : State} (hstep : (issueHistory ns issueId).next s l = some t) :
    Grown issueId t := by
  cases l with
  | lineage l => exact h.step_lineage hns hstep
  | reschedule taskId scheduledAt =>
    obtain ⟨_, -, hstep⟩ := bind_eq_some_iff.mp hstep
    split at hstep
    · cases hstep
    next tasks' hok =>
    cases hstep
    obtain ⟨⟨w, rows⟩, hw, hrows⟩ := bind_eq_ok_iff.mp hok
    obtain rfl := validate_rows h.ordered hw
    cases hrows
    exact h.update taskId (fun _ => rfl) (fun _ => rfl) (fun _ => rfl) (fun _ => rfl)
      fun _ => rfl
  | executeNow taskId =>
    obtain ⟨_, -, hstep⟩ := bind_eq_some_iff.mp hstep
    cases hstep
    exact h.update taskId (fun _ => rfl) (fun _ => rfl) (fun _ => rfl) (fun _ => rfl)
      fun _ => rfl

theorem grown_of_reachable (hns : ∀ key fp, ns key fp ≠ legacyNamespace)
    (h : (issueHistory ns issueId).Reachable System.anyStep s) : Grown issueId s := by
  refine h.invariant ?_ fun s l t hs _ hstep => hs.step hns hstep
  intro s hs
  have hs : s.tasks = [] := hs
  refine ⟨⟨?_, ?_, ?_, ?_⟩, ?_, ?_⟩ <;> simp [hs, SequencedFrom, Appended]

/-! ### Repair Agrees with Append -/

variable (ns issueId)

/-- The repair stops at an active Task of `extra`, for which `project_tail_lineage` raises the
    lineage conflict on the tail repaired so far. -/
def StopsAtConflict (snapshots : Nat → Option WorkerSnapshot) (rows extra : List Task) : Prop :=
  ∃ pre t post n repaired, extra = pre ++ t :: post ∧ t.status.active = true ∧
    repairLineageProjections ns snapshots (rows ++ pre) = .ok (n, repaired) ∧
    ∃ key fp q, snapshots t.id = some { harnessKey := some key, endpointFingerprint := fp } ∧
      projectTailLineage (repaired.getLast?.bind taskProjection) issueId key (ns key fp)
        t.sessionMode = .error (.lineage issueId q)

/-- The Tasks from the `k`-th on lose their projections. The repair restores every column; if
    further unprojected Tasks with snapshots stand behind them, it is blocked only at an active
    one of these whose append raises. -/
structure RepairAgrees (s : State) (k : Nat) : Prop where
  restored : ∃ n, repairLineageProjections ns s.snapshots (erasedFrom k s.tasks) = .ok (n, s.tasks)
  blocked : ∀ (snapshots : Nat → Option WorkerSnapshot) (extra : List Task)
    (reason : IntegrityReason), (∀ t ∈ s.tasks, snapshots t.id = s.snapshots t.id) →
    (∀ t ∈ extra, hasFullProjection t = false ∧ HasSnapshot snapshots t) →
    (s.tasks ++ extra).Pairwise createdBefore →
    repairLineageProjections ns snapshots (erasedFrom k s.tasks ++ extra) = .error reason →
    reason = .continueNamespaceChange ∧
      StopsAtConflict ns issueId snapshots (erasedFrom k s.tasks) extra

variable {ns issueId}

theorem erased_sorted {extra : List Task} (hcreated : (s.tasks ++ extra).Pairwise createdBefore)
    (k : Nat) : (erasedFrom k s.tasks ++ extra).insertionSort createdBefore =
      erasedFrom k s.tasks ++ extra :=
  (pairwise_erased k hcreated).insertionSort_eq

theorem Grown.repair_eq (h : Grown issueId s) (k : Nat) :
    repairLineageProjections ns s.snapshots (erasedFrom k s.tasks) =
      repairLoop ns s.snapshots none 0 (erasedFrom k s.tasks) := by
  have hcreated : (s.tasks ++ []).Pairwise createdBefore := by
    rw [append_nil]
    exact h.ordered.created
  have hsorted := erased_sorted hcreated k
  rw [append_nil] at hsorted
  rw [repairLineageProjections, hsorted]

theorem Grown.blocked (hns : ∀ key fp, ns key fp ≠ legacyNamespace) (h : Grown issueId s)
    (hsnap : ∀ t ∈ s.tasks, HasSnapshot s.snapshots t) {k : Nat}
    (hstored : ∀ t ∈ s.tasks.drop k, AsAppended ns s.snapshots t)
    {snapshots : Nat → Option WorkerSnapshot} {extra : List Task} {reason : IntegrityReason}
    (hsame : ∀ t ∈ s.tasks, snapshots t.id = s.snapshots t.id)
    (hextra : ∀ t ∈ extra, hasFullProjection t = false ∧ HasSnapshot snapshots t)
    (hcreated : (s.tasks ++ extra).Pairwise createdBefore)
    (hblocked : repairLineageProjections ns snapshots (erasedFrom k s.tasks ++ extra) =
      .error reason) :
    reason = .continueNamespaceChange ∧
      StopsAtConflict ns issueId snapshots (erasedFrom k s.tasks) extra := by
  have hsnap' : ∀ t ∈ s.tasks, HasSnapshot snapshots t := by
    intro t ht
    unfold HasSnapshot
    rw [hsame t ht]
    exact hsnap t ht
  have hstored' : ∀ t ∈ s.tasks.drop k, AsAppended ns snapshots t := by
    intro t ht
    obtain ⟨hlineage, hmode⟩ := hstored t ht
    refine ⟨?_, hmode⟩
    rw [hsame t (mem_of_mem_drop ht)]
    exact hlineage
  obtain ⟨n, hn⟩ := repairLoop_erased h.appended (by simp [Verified]) hsnap' k 0 hstored'
  have hcomplete : ∀ q, tailAfter none s.tasks = some q → Complete q := by
    intro q hq
    simp only [tailAfter, or_none] at hq
    obtain ⟨last, -, hq⟩ := bind_eq_some_iff.mp hq
    exact taskProjection_reset hq
  have hloop : repairLoop ns snapshots (tailAfter none s.tasks) n extra = .error reason := by
    rw [repairLineageProjections, erased_sorted hcreated, repairLoop_append (by simp) hn]
      at hblocked
    cases hextra : repairLoop ns snapshots (tailAfter none s.tasks) n extra with
    | error e =>
      rw [hextra] at hblocked
      exact hblocked
    | ok result =>
      rw [hextra] at hblocked
      cases hblocked
  obtain ⟨hreason, pre, t, post, m, rows, rfl, hactive, hpre, key, fp, q, hkey, hraise⟩ :=
    repairLoop_blocked hns hcomplete h.appended.verified
      (fun t ht => (hextra t ht).1) (fun t ht => (hextra t ht).2) hloop
  refine ⟨hreason, pre, t, post, m, s.tasks ++ rows, rfl, hactive, ?_, key, fp, q, hkey, ?_⟩
  · have hcreated' : (s.tasks ++ pre).Pairwise createdBefore := by
      rw [← append_assoc] at hcreated
      exact (pairwise_append.mp hcreated).1
    rw [repairLineageProjections, erased_sorted hcreated', repairLoop_append (by simp) hn, hpre]
    rfl
  · rw [tailAfter_append (repairLoop_isSome hcomplete hpre)]
    exact hraise

end Codify.IssueTaskLineage
