import Codify.CiRepair.Collector

/-! # The Gates of a CI Repair

    The gates of a run are read before its Task is inserted. They still hold at
    the commit when every Task that bears on them then existed already when the
    run was loaded (`Undisturbed`).

    * **Tasks**: `Evolves`, what any step does to the Tasks.
    * **Runs under way**: `Processing.Ok`, what a run has found out so far.
    * **Gates**: `ci_repair_gates_hold`.
-/

namespace Codify.CiRepair

open Codify Codify.Framework List Option

variable {env : Env} {s t : State} {l : Label} {k issueId : Nat} {p : Processing}
  {tasks tasks' : List Task}

/-! ### The Life of the Tasks -/

/-- The row of a Task after a step: its identity stays, it does not become active again, and
    once it has ended it stays as it is. -/
structure SameTask (r r' : Task) : Prop where
  id : r'.id = r.id
  issueId : r'.issueId = r.issueId
  taskMode : r'.taskMode = r.taskMode
  triggerSource : r'.triggerSource = r.triggerSource
  ciFailureRunId : r'.ciFailureRunId = r.ciFailureRunId
  createdAt : r'.createdAt = r.createdAt
  active : r'.status.active = true → r.status.active = true
  ended : r.status.active = false → r' = r

theorem SameTask.refl (r : Task) : SameTask r r :=
  ⟨rfl, rfl, rfl, rfl, rfl, rfl, fun h => h, fun _ => rfl⟩

/-- The rows of a step: each row lives on, and the new ones have new ids. -/
structure Evolves (tasks tasks' new : List Task) : Prop where
  rows : ∃ f : Task → Task, tasks' = tasks.map f ++ new ∧ ∀ r ∈ tasks, SameTask r (f r)
  fresh : ∀ n ∈ new, ∀ r ∈ tasks, r.id ≠ n.id

theorem Evolves.refl (tasks : List Task) : Evolves tasks tasks [] :=
  ⟨⟨id, by simp, fun r _ => .refl r⟩, by simp⟩

variable {new : List Task} {r' r task : Task} {session : Session} {stage : Stage}

theorem Evolves.mem (h : Evolves tasks tasks' new) (hr : r' ∈ tasks') :
    (∃ r ∈ tasks, SameTask r r') ∨ r' ∈ new := by
  obtain ⟨⟨f, rfl, hf⟩, -⟩ := h
  rcases mem_append.mp hr with hr | hr
  · obtain ⟨r, hold, rfl⟩ := List.mem_map.mp hr
    exact .inl ⟨r, hold, hf r hold⟩
  · exact .inr hr

theorem Evolves.exists_same (h : Evolves tasks tasks' new)
    (hr : r ∈ tasks) : ∃ r' ∈ tasks', SameTask r r' := by
  obtain ⟨⟨f, rfl, hf⟩, -⟩ := h
  exact ⟨f r, mem_append_left _ (List.mem_map_of_mem hr), hf r hr⟩

theorem Evolves.old (h : Evolves tasks tasks' new) (hr : r' ∈ tasks')
    (hid : ∃ r ∈ tasks, r.id = r'.id) : ∃ r ∈ tasks, SameTask r r' := by
  rcases h.mem hr with hold | hnew
  · exact hold
  · obtain ⟨r, hmem, hrid⟩ := hid
    exact absurd hrid (h.fresh r' hnew r hmem)

theorem Evolves.reset_le (h : Evolves tasks tasks' new) (issueId : Nat) :
    ∀ a ∈ resetAt issueId tasks, ∃ b ∈ resetAt issueId tasks', a ≤ b := by
  intro a ha
  obtain ⟨hmem, -⟩ := max?_eq_some_iff.mp ha
  obtain ⟨r, hr, hcompleted⟩ := mem_filterMap.mp hmem
  obtain ⟨hr, hdelivery⟩ := mem_filter.mp hr
  obtain ⟨r', hr', hsame⟩ := h.exists_same hr
  have hstatus : r.status = .completed := by
    simp only [manualDelivery, Bool.and_eq_true, decide_eq_true_eq] at hdelivery
    exact hdelivery.2
  obtain rfl : r' = r := hsame.ended (by rw [hstatus]; rfl)
  have hmem' : a ∈ (tasks'.filter (manualDelivery issueId)).filterMap Task.completedAt :=
    mem_filterMap.mpr ⟨r', mem_filter.mpr ⟨hr', hdelivery⟩, hcompleted⟩
  cases hmax : resetAt issueId tasks' with
  | none =>
    rw [resetAt, max?_eq_none_iff] at hmax
    rw [hmax] at hmem'
    cases hmem'
  | some b => exact ⟨b, rfl, (max?_eq_some_iff.mp hmax).2 a hmem'⟩

theorem Evolves.attempt (h : Evolves tasks tasks' new)
    (hsame : SameTask r r') (hattempt : attempt issueId (resetAt issueId tasks') r' = true) :
    attempt issueId (resetAt issueId tasks) r = true := by
  simp only [CiRepair.attempt, Bool.and_eq_true, decide_eq_true_eq, hsame.issueId,
    hsame.triggerSource, hsame.createdAt] at hattempt ⊢
  refine ⟨hattempt.1, ?_⟩
  cases hreset : resetAt issueId tasks with
  | none => rfl
  | some a =>
    obtain ⟨b, hb, hab⟩ := h.reset_le issueId a hreset
    have hlater := hattempt.2
    rw [hb] at hlater
    have hlt : b < r.createdAt := by simpa using hlater
    simpa using lt_of_le_of_lt hab hlt

/-- Counted rows of a step are counted among the old rows, but for the new ones. -/
theorem Evolves.countP_le (h : Evolves tasks tasks' new) {q p : Task → Bool}
    (hq : ∀ r r', SameTask r r' → p r' = true → q r = true) :
    tasks'.countP p ≤ tasks.countP q + new.countP p := by
  obtain ⟨⟨f, rfl, hf⟩, -⟩ := h
  rw [countP_append, countP_map]
  refine Nat.add_le_add_right (countP_mono_left fun r hr hqr => ?_) _
  exact hq r (f r) (hf r hr) hqr

/-! ### Runs Under Way -/

/-- A Task that bears on the gates of a run. -/
def relevant (tasks : List Task) (p : Processing) (r : Task) : Bool :=
  decide (r.ciFailureRunId = some p.run.id) || activeTask p.issueId r ||
    attempt p.issueId (resetAt p.issueId tasks) r

/-- At the commit of a repair, every Task that bears on its gates existed when its run was loaded;
    and no processing raises once it has inserted its Task. -/
def Undisturbed (s : State) : Label → Prop
  | .commit k _ =>
    match s.sessions k with
    | some (.processing p) => ∀ r ∈ s.tasks, relevant s.tasks p r = true → r.id ∈ p.known
    | _ => True
  | .fail k =>
    match s.sessions k with
    | some (.processing p) => p.task? = none
    | _ => True
  | _ => True

/-- The stages after the count of the attempts, and after the check for an active Task. -/
def Stage.pastCount : Stage → Bool
  | .loaded | .flushed | .matched => false
  | _ => true

def Stage.pastActive : Stage → Bool
  | .loaded | .flushed | .matched | .counted => false
  | _ => true

/-- A known Task of an Issue that counts as an attempt. -/
def knownAttempt (tasks : List Task) (p : Processing) (r : Task) : Bool :=
  decide (r.id ∈ p.known) && attempt p.issueId (resetAt p.issueId tasks) r

/-- What a run under way has found out, said of the Tasks that existed when it was loaded. -/
structure Processing.Ok (env : Env) (tasks : List Task) (runs : List Run) (p : Processing) :
    Prop where
  run : ∃ row ∈ runs, row.id = p.run.id
  unlinked : p.run.repairTaskId = none
  known : ∀ id ∈ p.known, ∃ r ∈ tasks, r.id = id
  fresh : ∀ r ∈ tasks, r.id ∈ p.known → r.ciFailureRunId ≠ some p.run.id
  counted : p.stage.pastCount = true →
    tasks.countP (knownAttempt tasks p) < env.ciAutoRepairMaxAttempts
  cleared : p.stage.pastActive = true →
    ∀ r ∈ tasks, r.id ∈ p.known → activeTask p.issueId r = false
  inserted : ∀ task, p.stage = .inserted task → task.issueId = p.issueId ∧
    task.triggerSource = .ciAutoRepair ∧ task.ciFailureRunId = some p.run.id ∧
    task.status = .pending

/-- Runs are not deleted, and their repair is not forgotten. -/
def RunsKept (runs runs' : List Run) : Prop :=
  ∀ row ∈ runs, ∃ row' ∈ runs', row'.id = row.id ∧
    (row.repairTaskId.isSome = true → row'.repairTaskId.isSome = true)

theorem RunsKept.refl (runs : List Run) : RunsKept runs runs :=
  fun row hrow => ⟨row, hrow, rfl, id⟩

theorem Processing.Ok.evolves {runs runs' : List Run}
    (hok : p.Ok env tasks runs) (h : Evolves tasks tasks' new) (hruns : RunsKept runs runs') :
    p.Ok env tasks' runs' where
  run := by
    obtain ⟨row, hrow, hid⟩ := hok.run
    obtain ⟨row', hrow', hid', -⟩ := hruns row hrow
    exact ⟨row', hrow', hid'.trans hid⟩
  unlinked := hok.unlinked
  known id hid := by
    obtain ⟨r, hr, hrid⟩ := hok.known id hid
    obtain ⟨r', hr', hsame⟩ := h.exists_same hr
    exact ⟨r', hr', hsame.id.trans hrid⟩
  fresh r' hr' hknown := by
    obtain ⟨r, hr, hsame⟩ := h.old hr' (hok.known _ hknown)
    rw [hsame.ciFailureRunId]
    exact hok.fresh r hr (by rwa [← hsame.id])
  counted hpast := by
    have hnone : new.countP (knownAttempt tasks' p) = 0 := by
      refine countP_eq_zero.mpr fun n hn hq => ?_
      simp only [knownAttempt, Bool.and_eq_true, decide_eq_true_eq] at hq
      obtain ⟨r, hr, hrid⟩ := hok.known n.id hq.1
      exact h.fresh n hn r hr hrid
    have hle : tasks'.countP (knownAttempt tasks' p) ≤
        tasks.countP (knownAttempt tasks p) + new.countP (knownAttempt tasks' p) := by
      refine h.countP_le fun r r' hsame hq => ?_
      simp only [knownAttempt, Bool.and_eq_true, decide_eq_true_eq] at hq ⊢
      exact ⟨by rw [← hsame.id]; exact hq.1, h.attempt hsame hq.2⟩
    have hlt := hok.counted hpast
    omega
  cleared hpast r' hr' hknown := by
    obtain ⟨r, hr, hsame⟩ := h.old hr' (hok.known _ hknown)
    have hidle := hok.cleared hpast r hr (by rwa [← hsame.id])
    by_contra hactive
    rw [Bool.not_eq_false] at hactive
    simp only [activeTask, Bool.and_eq_true, decide_eq_true_eq, hsame.issueId,
      hsame.taskMode] at hactive
    have htrue : activeTask p.issueId r = true := by
      simp only [activeTask, Bool.and_eq_true, decide_eq_true_eq]
      exact ⟨hactive.1, hsame.active hactive.2⟩
    rw [hidle] at htrue
    cases htrue
  inserted := hok.inserted

/-- The invariant of every undisturbed run. -/
structure Inv (env : Env) (s : State) : Prop where
  taskIds : Table.KeyUnique Task.id s.tasks
  runIds : Table.KeyUnique Run.id s.runs
  /-- A Task that names a run is noted in it. -/
  linked : ∀ r ∈ s.tasks, ∀ id ∈ r.ciFailureRunId,
    ∃ row ∈ s.runs, row.id = id ∧ row.repairTaskId.isSome = true
  single : ∀ id, s.tasks.countP (fun r => decide (r.ciFailureRunId = some id)) ≤ 1
  bounded : ∀ issueId, countAttempts issueId s.tasks ≤ env.ciAutoRepairMaxAttempts
  processing : ∀ k p, s.sessions k = some (.processing p) → p.Ok env s.tasks s.runs

/-- A step that adds no repair keeps the invariant, given that of its own session. -/
theorem Inv.evolves (hinv : Inv env s) (h : Evolves s.tasks t.tasks new)
    (hruns : RunsKept s.runs t.runs) (hids : Table.KeyUnique Run.id t.runs)
    (htasks : Table.KeyUnique Task.id t.tasks)
    (hnew : ∀ n ∈ new, n.triggerSource = .manual ∧ n.ciFailureRunId = none)
    (hsessions : ∀ j p, t.sessions j = some (.processing p) →
      s.sessions j = some (.processing p) ∨ p.Ok env t.tasks t.runs) : Inv env t where
  taskIds := htasks
  runIds := hids
  linked r' hr' id hid := by
    rcases h.mem hr' with ⟨r, hr, hsame⟩ | hr'
    · rw [hsame.ciFailureRunId] at hid
      obtain ⟨row, hrow, hrowId, hsome⟩ := hinv.linked r hr id hid
      obtain ⟨row', hrow', hrowId', hkept⟩ := hruns row hrow
      exact ⟨row', hrow', hrowId'.trans hrowId, hkept hsome⟩
    · rw [(hnew r' hr').2] at hid
      cases hid
  single id := by
    have hle := h.countP_le (q := fun r => decide (r.ciFailureRunId = some id))
      (p := fun r => decide (r.ciFailureRunId = some id)) fun r r' hsame hq => by
        rwa [← hsame.ciFailureRunId]
    have hnone : new.countP (fun r => decide (r.ciFailureRunId = some id)) = 0 :=
      countP_eq_zero.mpr fun n hn => by simp [(hnew n hn).2]
    have hone := hinv.single id
    omega
  bounded issueId := by
    have hle := h.countP_le (q := attempt issueId (resetAt issueId s.tasks))
      (p := attempt issueId (resetAt issueId t.tasks)) fun r r' hsame hq => h.attempt hsame hq
    have hnone : new.countP (attempt issueId (resetAt issueId t.tasks)) = 0 :=
      countP_eq_zero.mpr fun n hn => by simp [CiRepair.attempt, (hnew n hn).1]
    have hbound := hinv.bounded issueId
    unfold countAttempts at hbound ⊢
    omega
  processing j p hj := by
    rcases hsessions j p hj with hold | hok
    · exact (hinv.processing j p hold).evolves h hruns
    · exact hok

/-! ### Steps -/

/-- At the creation of a repair, no other Task of the Issue that changes code is active. -/
def Alone (s t : State) : Prop :=
  ∀ task ∈ t.tasks, task.triggerSource = .ciAutoRepair → (∀ r ∈ s.tasks, r.id ≠ task.id) →
    ∀ other ∈ t.tasks, other.id ≠ task.id → activeTask task.issueId other = false

/-- What a step keeps, and what it does to the gates. -/
structure Good (env : Env) (s t : State) : Prop where
  inv : Inv env t
  alone : Alone s t

theorem good_evolves (new : List Task) (hinv : Inv env s) (h : Evolves s.tasks t.tasks new)
    (hruns : RunsKept s.runs t.runs) (hids : Table.KeyUnique Run.id t.runs)
    (htasks : Table.KeyUnique Task.id t.tasks)
    (hnew : ∀ n ∈ new, n.triggerSource = .manual ∧ n.ciFailureRunId = none)
    (hsessions : ∀ j p, t.sessions j = some (.processing p) →
      s.sessions j = some (.processing p) ∨ p.Ok env t.tasks t.runs) : Good env s t := by
  refine ⟨hinv.evolves h hruns hids htasks hnew hsessions, ?_⟩
  intro task htask hrepair hfresh
  rcases h.mem htask with ⟨r, hr, hsame⟩ | hmem
  · exact absurd hsame.id.symm (hfresh r hr)
  · rw [(hnew task hmem).1] at hrepair
    cases hrepair

theorem good_quiet (hinv : Inv env s) (htasks : t.tasks = s.tasks) (hruns : t.runs = s.runs)
    (hsessions : ∀ j p, t.sessions j = some (.processing p) →
      s.sessions j = some (.processing p) ∨ p.Ok env s.tasks s.runs) : Good env s t := by
  refine good_evolves [] hinv ?_ ?_ ?_ ?_ (by simp) ?_
  · rw [htasks]
    exact .refl _
  · rw [hruns]
    exact .refl _
  · rw [hruns]
    exact hinv.runIds
  · rw [htasks]
    exact hinv.taskIds
  · rw [htasks, hruns]
    exact hsessions

theorem good_setSession (hinv : Inv env s)
    (hok : ∀ p, session = .processing p → p.Ok env s.tasks s.runs) :
    Good env s (s.setSession k session) := by
  refine good_quiet hinv rfl rfl fun j p hj => ?_
  change (if j = k then some session else s.sessions j) = _ at hj
  split at hj
  · exact .inr (hok p (some.inj hj))
  · exact .inl hj

/-- A session that is no processing needs nothing. -/
def Session.idle : Session → Bool
  | .processing _ => false
  | _ => true

theorem good_setOther (hinv : Inv env s) (h : session.idle = true) :
    Good env s (s.setSession k session) := by
  refine good_setSession hinv fun p hp => ?_
  rw [hp] at h
  cases h

theorem good_close (hinv : Inv env s) : Good env s (s.close k) := by
  refine good_quiet hinv rfl rfl fun j p hj => ?_
  change (if j = k then none else s.sessions j) = _ at hj
  split at hj
  · cases hj
  · exact .inl hj

theorem Good.of_tables {u : State} (h : Good env s t) (htasks : u.tasks = t.tasks)
    (hruns : u.runs = t.runs) (hsessions : u.sessions = t.sessions) : Good env s u where
  inv :=
    { taskIds := by rw [htasks]; exact h.inv.taskIds
      runIds := by rw [hruns]; exact h.inv.runIds
      linked := by rw [htasks, hruns]; exact h.inv.linked
      single := by rw [htasks]; exact h.inv.single
      bounded := by rw [htasks]; exact h.inv.bounded
      processing := by rw [htasks, hruns, hsessions]; exact h.inv.processing }
  alone := by
    unfold Alone
    rw [htasks]
    exact h.alone

theorem Good.close (h : Good env s t) : Good env s (t.close k) := by
  have hclose := good_close (k := k) h.inv
  exact ⟨hclose.inv, h.alone⟩

theorem Good.setSession (h : Good env s t)
    (hok : ∀ p, session = .processing p → p.Ok env t.tasks t.runs) :
    Good env s (t.setSession k session) := by
  have hset := good_setSession (k := k) h.inv hok
  exact ⟨hset.inv, h.alone⟩

theorem Good.setOther (h : Good env s t) (hidle : session.idle = true) :
    Good env s (t.setSession k session) := by
  refine h.setSession fun p hp => ?_
  rw [hp] at hidle
  cases hidle

theorem processing?_eq_some (h : s.processing? k stage = some p) :
    s.sessions k = some (.processing p) ∧ p.stage = stage := by
  unfold State.processing? at h
  split at h
  · next q hk =>
    split at h
    · next hstage =>
      cases h
      exact ⟨hk, hstage⟩
    · cases h
  · cases h

theorem keyUnique_endRun (status : RunStatus) (repairTaskId : Option Nat) (hinv : Inv env s) :
    Table.KeyUnique Run.id (s.endRun p status repairTaskId).runs :=
  hinv.runIds.map fun r => by split <;> rfl

theorem runsKept_endRun {status : RunStatus} {repairTaskId : Option Nat}
    (h : p.run.repairTaskId = none) : RunsKept s.runs (s.endRun p status repairTaskId).runs := by
  intro row hrow
  refine ⟨_, List.mem_map_of_mem hrow, ?_, fun hsome => ?_⟩
  · split <;> rfl
  · split
    · show (flushColumn p.run.repairTaskId repairTaskId row.repairTaskId).isSome = true
      rw [h]
      unfold flushColumn
      split
      · exact hsome
      · next hne => exact isSome_iff_ne_none.mpr hne
    · exact hsome

theorem good_endRun (hinv : Inv env s) (h : p.run.repairTaskId = none) (status : RunStatus) :
    Good env s (s.endRun p status p.run.repairTaskId) := by
  refine good_evolves [] hinv (.refl _) (runsKept_endRun h)
    (keyUnique_endRun _ _ hinv) hinv.taskIds (by simp) fun j q hj => .inl hj

theorem good_ignoreRun (hinv : Inv env s) (h : p.run.repairTaskId = none) :
    Good env s (s.ignoreRun k p) := by
  have hclose := (good_endRun hinv h .ignored).close (k := k)
  unfold State.ignoreRun
  exact hclose.setOther rfl

theorem good_gate {passed : Bool} (hinv : Inv env s)
    (h : p.run.repairTaskId = none)
    (hok : passed = true → Processing.Ok env s.tasks s.runs { p with stage }) :
    Good env s (s.gate k p passed stage) := by
  unfold State.gate
  split
  · next hpassed =>
    refine good_setSession hinv fun q hq => ?_
    cases hq
    exact hok hpassed
  · exact good_ignoreRun hinv h

theorem addTask_eq_some (h : s.addTask task = some t) :
    (∀ r ∈ s.tasks, r.id ≠ task.id) ∧ t = { s with tasks := s.tasks ++ [task] } := by
  unfold State.addTask at h
  split at h
  · cases h
  next hnone =>
  refine ⟨fun r hr => ?_, (some.inj h).symm⟩
  exact Table.row?_eq_none_iff.mp (by simpa using hnone) r hr

theorem evolves_append (h : ∀ r ∈ tasks, r.id ≠ task.id) :
    Evolves tasks (tasks ++ [task]) [task] :=
  ⟨⟨id, by simp, fun r _ => .refl r⟩, by simpa using h⟩

theorem resetAt_append (h : task.status ≠ .completed) (issueId : Nat) :
    resetAt issueId (tasks ++ [task]) = resetAt issueId tasks := by
  unfold resetAt
  rw [filter_append, filter_cons_of_neg (by simp [manualDelivery, h])]
  simp

/-- **Creation**: the commit of a repair whose gates were not disturbed. -/
theorem good_repair (hinv : Inv env s) (hk : s.sessions k = some (.processing p))
    (hstage : p.stage = .inserted task)
    (hquiet : ∀ r ∈ s.tasks, relevant s.tasks p r = true → r.id ∈ p.known)
    (hfresh : ∀ r ∈ s.tasks, r.id ≠ task.id)
    (ht : t = State.endRun { s with tasks := s.tasks ++ [task] } p .taskCreated (some task.id)) :
    Good env s (t.close k) := by
  have hok := hinv.processing k p hk
  obtain ⟨hissue, htrigger, hrun, hpending⟩ := hok.inserted task hstage
  have hevolves := evolves_append hfresh
  have hkept : RunsKept s.runs t.runs := by
    rw [ht]
    exact runsKept_endRun hok.unlinked
  have htasks : t.tasks = s.tasks ++ [task] := by rw [ht]; rfl
  have hsessions : t.sessions = s.sessions := by rw [ht]; rfl
  have hreset : ∀ i, resetAt i t.tasks = resetAt i s.tasks := by
    intro i
    rw [htasks]
    exact resetAt_append (by rw [hpending]; decide) i
  have hinv' : Inv env t := by
    refine ⟨?_, ?_, ?_, ?_, ?_, ?_⟩
    · rw [htasks]
      exact hinv.taskIds.append hfresh
    · rw [ht]
      exact hinv.runIds.map fun r => by split <;> rfl
    · intro r hr id hid
      rw [htasks] at hr
      rcases mem_append.mp hr with hr | hr
      · obtain ⟨row, hrow, hrowId, hsome⟩ := hinv.linked r hr id hid
        obtain ⟨row', hrow', hrowId', hsome'⟩ := hkept row hrow
        exact ⟨row', hrow', hrowId'.trans hrowId, hsome' hsome⟩
      · -- the new Task is noted in its run
        rw [mem_singleton.mp hr, hrun] at hid
        cases hid
        obtain ⟨row, hrow, hrowId⟩ := hok.run
        rw [ht]
        refine ⟨_, List.mem_map_of_mem hrow, ?_, ?_⟩
        · rw [if_pos hrowId]
          exact hrowId
        · rw [if_pos hrowId]
          show (flushColumn p.run.repairTaskId (some task.id) row.repairTaskId).isSome = true
          rw [hok.unlinked, flushColumn_touched (by simp)]
          rfl
    · intro id
      rw [htasks, countP_append]
      by_cases hid : id = p.run.id
      · have hnone : s.tasks.countP (fun r => decide (r.ciFailureRunId = some id)) = 0 := by
          refine countP_eq_zero.mpr fun r hr hnamed => ?_
          rw [decide_eq_true_eq, hid] at hnamed
          exact hok.fresh r hr (hquiet r hr (by simp [relevant, hnamed])) hnamed
        have hone : List.countP (fun r => decide (r.ciFailureRunId = some id)) [task] ≤ 1 :=
          countP_le_length
        omega
      · have hother : List.countP (fun r => decide (r.ciFailureRunId = some id)) [task] = 0 := by
          simp [hrun, Ne.symm hid]
        have hone := hinv.single id
        omega
    · intro i
      unfold countAttempts
      rw [hreset, htasks, countP_append]
      by_cases hi : i = p.issueId
      · subst hi
        have hlt := hok.counted (by rw [hstage]; rfl)
        have hle : s.tasks.countP (attempt p.issueId (resetAt p.issueId s.tasks)) ≤
            s.tasks.countP (knownAttempt s.tasks p) := by
          refine countP_mono_left fun r hr hattempt => ?_
          simp only [knownAttempt, Bool.and_eq_true, decide_eq_true_eq]
          exact ⟨hquiet r hr (by simp [relevant, hattempt]), hattempt⟩
        have hone : List.countP (attempt p.issueId (resetAt p.issueId s.tasks)) [task] ≤ 1 :=
          countP_le_length
        omega
      · have hother : List.countP (attempt i (resetAt i s.tasks)) [task] = 0 := by
          simp [attempt, hissue, Ne.symm hi]
        have hbound := hinv.bounded i
        unfold countAttempts at hbound
        omega
    · intro j q hj
      rw [hsessions] at hj
      rw [htasks]
      exact (hinv.processing j q hj).evolves hevolves hkept
  refine Good.close ⟨hinv', ?_⟩
  intro task' htask' hrepair hnew other hother hne
  rw [htasks] at htask' hother
  rcases mem_append.mp htask' with hold | hmem
  · exact absurd rfl (hnew task' hold)
  obtain rfl := mem_singleton.mp hmem
  rcases mem_append.mp hother with hother | hother
  · rw [hissue]
    by_contra hactive
    rw [Bool.not_eq_false] at hactive
    -- an active Task bears on the gates, so it was there, and then the check had found it
    have hknown := hquiet other hother (by simp [relevant, hactive])
    rw [hok.cleared (by rw [hstage]; rfl) other hother hknown] at hactive
    cases hactive
  · exact absurd (by rw [mem_singleton.mp hother]) hne

theorem ok_load {run : Run} {id : Nat} {rest : List Nat} (hinv : Inv env s)
    (hrow : runRow? id s.runs = some run) (hnone : ¬ run.repairTaskId.isSome = true) :
    Processing.Ok env s.tasks s.runs
      { run, known := s.tasks.map Task.id, stage := .loaded, lockedAt := 0, issueId := 0,
        jobs := [], rest } where
  run := ⟨run, (Table.mem_of_row? hrow).1, rfl⟩
  unlinked := by simpa using hnone
  known i hi := List.mem_map.mp hi
  fresh r hr _ hnamed := by
    obtain ⟨row, hrow', hid, hsome⟩ := hinv.linked r hr run.id hnamed
    rw [hinv.runIds.eq_of_key_eq hrow' (Table.mem_of_row? hrow).1 hid] at hsome
    exact hnone hsome
  counted h := nomatch h
  cleared h := nomatch h
  inserted task h := nomatch h

theorem good_updateTask {taskId : Nat} {f : Task → Option Task} (hinv : Inv env s)
    (hf : ∀ r r', f r = some r' → SameTask r r') (h : s.updateTask taskId f = some t) :
    Good env s t := by
  obtain ⟨task, hrow, h⟩ := bind_eq_some_iff.mp h
  obtain ⟨task', htask', rfl⟩ := map_eq_some_iff.mp h
  obtain ⟨hmem, hid⟩ := Table.mem_of_row? hrow
  have hsame := hf task task' htask'
  have hrows : ∀ r ∈ s.tasks, SameTask r (if r.id = taskId then task' else r) := by
    intro r hr
    split
    · next hrid =>
      obtain rfl := hinv.taskIds.eq_of_key_eq hr hmem (hrid.trans hid.symm)
      exact hsame
    · exact .refl r
  refine good_evolves [] hinv ⟨⟨_, by simp [Table.update], hrows⟩, by simp⟩ (.refl _)
    hinv.runIds ?_ (by simp) fun j p hj => .inl hj
  refine hinv.taskIds.map fun r => ?_
  split
  · next hrid => rw [hsame.id, hid, hrid]
  · rfl

theorem sameTask_advance (r r' : Task) (h : advance r = some r') : SameTask r r' := by
  unfold advance at h
  split at h
  · next hstatus =>
    cases h
    exact ⟨rfl, rfl, rfl, rfl, rfl, rfl, fun _ => by rw [hstatus]; rfl,
      fun hended => by rw [hstatus] at hended; cases hended⟩
  · next hstatus =>
    cases h
    exact ⟨rfl, rfl, rfl, rfl, rfl, rfl, fun _ => by rw [hstatus]; rfl,
      fun hended => by rw [hstatus] at hended; cases hended⟩
  · cases h

theorem sameTask_finish {status : TaskStatus} {now : Time} {commitSha : Option String}
    (r r' : Task) (h : finish status now commitSha r = some r') : SameTask r r' := by
  unfold finish at h
  split at h
  · next hboth =>
    cases h
    rw [Bool.and_eq_true] at hboth
    exact ⟨rfl, rfl, rfl, rfl, rfl, rfl, fun _ => hboth.1,
      fun hended => by rw [hboth.1] at hended; cases hended⟩
  · cases h

theorem good_runs {f : Run → Run} (hinv : Inv env s) (hid : ∀ r, (f r).id = r.id)
    (hrepair : ∀ r, (f r).repairTaskId = r.repairTaskId) :
    Good env s { s with runs := s.runs.map f } := by
  refine good_evolves [] hinv (.refl _) (fun row hrow => ?_) (hinv.runIds.map hid)
    hinv.taskIds (by simp) fun j p hj => .inl hj
  exact ⟨f row, List.mem_map_of_mem hrow, hid row, by rw [hrepair]; exact fun h => h⟩

theorem good_addManual (hinv : Inv env s) (htrigger : task.triggerSource = .manual)
    (hrun : task.ciFailureRunId = none) (h : s.addTask task = some t) : Good env s t := by
  obtain ⟨hfresh, rfl⟩ := addTask_eq_some h
  refine good_evolves [task] hinv (evolves_append hfresh) (.refl _) hinv.runIds
    (hinv.taskIds.append hfresh) (by simp [htrigger, hrun]) fun j p hj => .inl hj

theorem Inv.processing? (hinv : Inv env s) (hp : s.processing? k stage = some p) :
    p.Ok env s.tasks s.runs ∧ p.stage = stage := by
  obtain ⟨hk, hstage⟩ := processing?_eq_some hp
  exact ⟨hinv.processing k p hk, hstage⟩

theorem good_openWebhook {projectId pipelineId : Nat} (hinv : Inv env s)
    (h : step env s (.openWebhook k projectId pipelineId) = some t) : Good env s t := by
  simp only [step] at h
  split at h
  · cases h
  split at h
  · cases h
    exact good_setOther hinv rfl
  split at h
  · cases h
    exact good_setOther hinv rfl
  · cases h
    exact good_quiet hinv rfl rfl fun j p hj => .inl hj

theorem good_load (hinv : Inv env s) (h : step env s (.load k) = some t) : Good env s t := by
  simp only [step, State.load] at h
  split at h
  swap
  · cases h
  split at h
  · cases h
    exact good_close hinv
  next run hrow =>
  split at h
  · cases h
    exact good_setOther hinv rfl
  next hnone =>
  cases h
  refine good_setSession hinv fun p hp => ?_
  cases hp
  exact ok_load hinv hrow hnone

theorem good_flush {now : Time} (hinv : Inv env s) (h : step env s (.flush k now) = some t) :
    Good env s t := by
  obtain ⟨p, hp, h⟩ := bind_eq_some_iff.mp h
  obtain ⟨hok, -⟩ := hinv.processing? hp
  split at h
  swap
  · cases h
  cases h
  have hset : Good env s
      (s.setSession k (.processing { p with stage := .flushed, lockedAt := now })) := by
    refine good_setSession hinv fun q hq => ?_
    cases hq
    exact ⟨hok.run, hok.unlinked, hok.known, hok.fresh, fun h => (nomatch h),
        fun h => (nomatch h), fun _ h => (nomatch h)⟩
  exact hset.of_tables rfl rfl rfl

theorem good_matchIssue {issueId : Option Nat} (hinv : Inv env s)
    (h : step env s (.matchIssue k issueId) = some t) : Good env s t := by
  obtain ⟨p, hp, rfl⟩ := map_eq_some_iff.mp h
  obtain ⟨hok, -⟩ := hinv.processing? hp
  split
  · exact good_ignoreRun hinv hok.unlinked
  · exact good_gate hinv hok.unlinked fun _ =>
      ⟨hok.run, hok.unlinked, hok.known, hok.fresh, fun h => (nomatch h),
        fun h => (nomatch h), fun _ h => (nomatch h)⟩

/-- The attempts are counted among the Tasks that are there, so among the known ones. -/
theorem good_countAttempts (hinv : Inv env s) (h : step env s (.countAttempts k) = some t) :
    Good env s t := by
  obtain ⟨p, hp, rfl⟩ := map_eq_some_iff.mp h
  obtain ⟨hok, -⟩ := hinv.processing? hp
  refine good_gate hinv hok.unlinked fun hpassed =>
    ⟨hok.run, hok.unlinked, hok.known, hok.fresh, fun _ => ?_,
      fun h => (nomatch h), fun _ h => (nomatch h)⟩
  refine lt_of_le_of_lt (countP_mono_left fun r _ hr => ?_) (of_decide_eq_true hpassed)
  simp only [knownAttempt, Bool.and_eq_true] at hr
  exact hr.2

theorem good_checkActive (hinv : Inv env s) (h : step env s (.checkActive k) = some t) :
    Good env s t := by
  obtain ⟨p, hp, rfl⟩ := map_eq_some_iff.mp h
  obtain ⟨hok, hstage⟩ := hinv.processing? hp
  refine good_gate hinv hok.unlinked fun hpassed => ⟨hok.run, hok.unlinked, hok.known, hok.fresh,
    fun _ => hok.counted (by rw [hstage]; rfl), fun _ r hr _ => ?_,
    fun _ h => (nomatch h)⟩
  rw [Bool.not_eq_true', List.any_eq_false] at hpassed
  simpa using hpassed r hr

/-- Behind the check for an active Task a run goes on with what it has found out. -/
theorem good_goesOn {jobs : List Nat} (hinv : Inv env s) (hok : p.Ok env s.tasks s.runs)
    (hpast : p.stage.pastActive = true) (hcount : p.stage.pastCount = true)
    (hstage : ∀ task, stage = .inserted task → task.issueId = p.issueId ∧
      task.triggerSource = .ciAutoRepair ∧ task.ciFailureRunId = some p.run.id ∧
      task.status = .pending) :
    Good env s (s.setSession k (.processing { p with stage, jobs })) := by
  refine good_setSession hinv fun q hq => ?_
  cases hq
  exact ⟨hok.run, hok.unlinked, hok.known, hok.fresh, fun _ => hok.counted hcount,
    fun _ => hok.cleared hpast, hstage⟩

theorem good_collect {jobs : List Nat} (hinv : Inv env s)
    (h : step env s (.collect k jobs) = some t) : Good env s t := by
  obtain ⟨p, hp, rfl⟩ := map_eq_some_iff.mp h
  obtain ⟨hok, hstage⟩ := hinv.processing? hp
  split
  · exact good_close hinv
  · have hset : Good env s (s.setSession k (.processing { p with stage := .collected, jobs })) :=
      good_goesOn hinv hok (hstage ▸ rfl) (hstage ▸ rfl) (fun _ h => nomatch h)
    exact hset

theorem good_lockIssue (hinv : Inv env s) (h : step env s (.lockIssue k) = some t) :
    Good env s t := by
  obtain ⟨p, hp, h⟩ := bind_eq_some_iff.mp h
  obtain ⟨hok, hstage⟩ := hinv.processing? hp
  split at h
  swap
  · cases h
  cases h
  have hset : Good env s (s.setSession k (.processing { p with stage := .ordered })) :=
    good_goesOn hinv hok (by rw [hstage]; rfl) (by rw [hstage]; rfl) (fun _ h => nomatch h)
  exact hset.of_tables rfl rfl rfl

theorem good_insertRepair {taskId : Nat} {now : Time} (hinv : Inv env s)
    (h : step env s (.insertRepair k taskId now) = some t) : Good env s t := by
  obtain ⟨p, hp, rfl⟩ := map_eq_some_iff.mp h
  obtain ⟨hok, hstage⟩ := hinv.processing? hp
  refine good_goesOn hinv hok (by rw [hstage]; rfl) (by rw [hstage]; rfl) ?_
  intro task htask
  cases htask
  exact ⟨rfl, rfl, rfl, rfl⟩

theorem stage_of_task? (h : p.task? = some task) : p.stage = .inserted task := by
  unfold Processing.task? at h
  split at h
  · next hstage =>
    cases h
    exact hstage
  · cases h

/-- A commit writes what its session has prepared; only that of a repair bears on the gates. -/
theorem good_commit {newId : Nat} (hinv : Inv env s) (hquiet : Undisturbed s (.commit k newId))
    (h : step env s (.commit k newId) = some t) : Good env s t := by
  obtain ⟨session, hk, h⟩ := bind_eq_some_iff.mp h
  obtain ⟨u, hwritten, rfl⟩ := map_eq_some_iff.mp h
  cases session with
  | claiming ids now =>
    simp only [State.written] at hwritten
    split at hwritten
    swap
    · cases hwritten
    cases hwritten
    have hruns := good_runs (f := fun row =>
      if row.id ∈ ids then { row with lockedAt := some now } else row) hinv
      (fun r => by split <;> rfl) (fun r => by split <;> rfl)
    exact (hruns.close (k := k)).setOther rfl
  | reopening run =>
    simp only [State.written] at hwritten
    split at hwritten
    swap
    · cases hwritten
    cases hwritten
    have hruns := good_runs (f := fun row => if row.id = run.id then reopenRow run row else row)
      hinv (fun r => by split <;> rfl) (fun r => by split <;> rfl)
    exact hruns.close (k := k)
  | receiving projectId pipelineId =>
    simp only [State.written] at hwritten
    split at hwritten
    · cases hwritten
    next hnew =>
    cases hwritten
    refine Good.close (good_evolves [] hinv (.refl _) (fun row hrow => ?_)
      (hinv.runIds.append fun r hr hid => hnew ?_) hinv.taskIds (by simp) fun j p hj => .inl hj)
    · exact ⟨row, mem_append_left _ hrow, rfl, id⟩
    · exact List.any_eq_true.mpr ⟨r, hr, by simpa using Or.inl hid⟩
  | created issueId taskId mode now =>
    exact (good_addManual hinv rfl rfl hwritten).close (k := k)
  | processing p =>
    obtain ⟨task, htask, hwritten⟩ := bind_eq_some_iff.mp hwritten
    obtain ⟨v, hadd, rfl⟩ := map_eq_some_iff.mp hwritten
    obtain ⟨hfresh, rfl⟩ := addTask_eq_some hadd
    simp only [Undisturbed, hk] at hquiet
    exact (good_repair hinv hk (stage_of_task? htask) hquiet hfresh rfl).setOther rfl
  | _ => cases hwritten

theorem good_fail (hinv : Inv env s) (hquiet : Undisturbed s (.fail k))
    (h : step env s (.fail k) = some t) : Good env s t := by
  simp only [step, State.fail] at h
  split at h
  swap
  · cases h
  next p hk =>
  simp only [Undisturbed, hk] at hquiet
  split at h
  · cases h
    exact good_close hinv
  · cases h
    exact (good_endRun hinv (hinv.processing k p hk).unlinked .failed).close (k := k)
  next htask _ =>
  rw [hquiet] at htask
  cases htask

/-- **One step**: an undisturbed step keeps the invariant, and creates a repair only when no other
    Task of the Issue is active. -/
theorem good_step (hinv : Inv env s) (hquiet : Undisturbed s l) (h : step env s l = some t) :
    Good env s t := by
  cases l with
  | openWebhook k projectId pipelineId => exact good_openWebhook hinv h
  | load k => exact good_load hinv h
  | flush k now => exact good_flush hinv h
  | matchIssue k issueId => exact good_matchIssue hinv h
  | countAttempts k => exact good_countAttempts hinv h
  | checkActive k => exact good_checkActive hinv h
  | collect k jobs => exact good_collect hinv h
  | lockIssue k => exact good_lockIssue hinv h
  | insertRepair k taskId now => exact good_insertRepair hinv h
  | commit k newId => exact good_commit hinv hquiet h
  | fail k => exact good_fail hinv hquiet h
  | advanceTask taskId => exact good_updateTask hinv sameTask_advance h
  | finishTask taskId status now commitSha => exact good_updateTask hinv sameTask_finish h
  | openClaim k now ids | insertManual k taskId mode now =>
    simp only [step] at h
    split at h
    · cases h
      exact good_setOther hinv rfl
    · cases h
  | openCreate k issueId =>
    simp only [step] at h
    split at h
    · cases h
      exact (good_setOther hinv rfl).of_tables rfl rfl rfl
    · cases h
  | ignore k =>
    simp only [step] at h
    split at h
    · next p hk =>
      split at h
      · cases h
        exact good_ignoreRun hinv (hinv.processing k p hk).unlinked
      · cases h
    · cases h
  | abort k =>
    simp only [step] at h
    split at h
    · cases h
      exact good_close hinv
    · cases h

/-! ### Runs -/

/-- A database at rest, in which the gates hold. -/
structure AtRest (env : Env) (s : State) : Prop where
  taskIds : Table.KeyUnique Task.id s.tasks
  runIds : Table.KeyUnique Run.id s.runs
  linked : ∀ r ∈ s.tasks, ∀ id ∈ r.ciFailureRunId,
    ∃ row ∈ s.runs, row.id = id ∧ row.repairTaskId.isSome = true
  single : ∀ id, s.tasks.countP (fun r => decide (r.ciFailureRunId = some id)) ≤ 1
  bounded : ∀ issueId, countAttempts issueId s.tasks ≤ env.ciAutoRepairMaxAttempts
  sessions : s.sessions = fun _ => none
  runLocks : s.runLocks = fun _ => none
  issueLocks : s.issueLocks = fun _ => none

/-- Webhooks, collectors, users and workers, from any database at rest. -/
def ciRepair (env : Env) : System State Label where
  init := AtRest env
  next := step env

theorem inv_atRest (h : AtRest env s) : Inv env s :=
  ⟨h.taskIds, h.runIds, h.linked, h.single, h.bounded, fun k p hk => by
    rw [h.sessions] at hk
    cases hk⟩

theorem inv_reachable (h : (ciRepair env).Reachable Undisturbed s) : Inv env s :=
  h.invariant (fun _ hrest => inv_atRest hrest)
    fun _ _ _ hinv hquiet hstep => (good_step hinv hquiet hstep).inv

/-- In every undisturbed run, each CI failure run has one Task at most, an Issue has at most the
    maximum of repairs since its last completed manual delivery, and a repair is created only
    while no other execute or freeform Task of its Issue is active. -/
theorem ci_repair_gates_hold (env : Env) {s : State}
    (hs : (ciRepair env).Reachable Undisturbed s) :
    (∀ runId, (s.tasks.filter (·.ciFailureRunId = some runId)).length ≤ 1) ∧
    (∀ issueId, countAttempts issueId s.tasks ≤ env.ciAutoRepairMaxAttempts) ∧
    (∀ l t, Undisturbed s l → step env s l = some t → Alone s t) := by
  have hinv := inv_reachable hs
  refine ⟨fun runId => ?_, hinv.bounded, fun l t hquiet hstep => (good_step hinv hquiet hstep).alone⟩
  have hone := hinv.single runId
  rwa [countP_eq_length_filter] at hone

/-! ### Concrete Runs -/

def repairable : State where
  issues := [⟨7, false, true⟩]

theorem atRest_repairable (env : Env) : AtRest env repairable where
  taskIds := by simp [Table.KeyUnique, repairable]
  runIds := by simp [Table.KeyUnique, repairable]
  linked := by simp [repairable]
  single := by simp [repairable]
  bounded := by simp [repairable, countAttempts]
  sessions := rfl
  runLocks := rfl
  issueLocks := rfl

instance (s : State) (l : Label) : Decidable (Undisturbed s l) := by
  cases l <;> unfold Undisturbed <;> dsimp only <;>
    first | infer_instance | (split <;> infer_instance)

/-- A pipeline fails, and its run is claimed. -/
def claimRun (k pipelineId runId : Nat) (now : Time) : List Label :=
  [.openWebhook k 1 pipelineId, .commit k runId, .openClaim k now [runId], .commit k 0]

/-- The gates of a run, and its creation phase. -/
def passGates (k : Nat) (now : Time) : List Label :=
  [.load k, .flush k now, .matchIssue k (some 7), .countAttempts k, .checkActive k]

def createRepair (k taskId : Nat) (jobs : List Nat) (now : Time) : List Label :=
  [.collect k jobs, .lockIssue k, .insertRepair k taskId now, .commit k 0]

/-- A run is repaired, its Task ends, and a manual delivery resets the count. -/
def repairedOnce : List Label :=
  claimRun 0 5 1 10 ++ passGates 0 11 ++ createRepair 0 1 [50] 12 ++
    ([.advanceTask 1, .advanceTask 1, .finishTask 1 .failed 20 none,
      .openCreate 1 7, .insertManual 1 2 .execute 21, .commit 1 0,
      .finishTask 2 .completed 30 none] : List Label)

theorem ci_repair_gates_repairedOnce :
    ∃ s, (ciRepair { ciAutoRepairMaxAttempts := 1 }).Reachable Undisturbed s ∧
      s.tasks.map (fun t => (t.id, t.ciFailureRunId, t.status)) =
        [(1, some 1, .failed), (2, none, .completed)] ∧
      (s.tasks.filter (·.ciFailureRunId = some 1)).length ≤ 1 ∧
      countAttempts 7 s.tasks ≤ 1 := by
  have hexec : ((ciRepair { ciAutoRepairMaxAttempts := 1 }).execWhile Undisturbed repairable
      repairedOnce).map (fun s => s.tasks.map fun t => (t.id, t.ciFailureRunId, t.status)) =
      some [(1, some 1, .failed), (2, none, .completed)] := by
    decide +kernel
  obtain ⟨s, hreach, htasks⟩ := System.exists_reachable_of_execWhile hexec (atRest_repairable _)
  obtain ⟨hsingle, hbounded, -⟩ := ci_repair_gates_hold _ hreach
  exact ⟨s, hreach, htasks, hsingle 1, hbounded 7⟩

/-- Two collectors hold one run; a user starts a Task after the check; two runs count together. -/
theorem ci_repair_gates_disturbed :
    (¬ ∀ s, (ciRepair { ciAutoRepairMaxAttempts := 2 }).Reachable System.anyStep s →
      ∀ runId, (s.tasks.filter (·.ciFailureRunId = some runId)).length ≤ 1) ∧
    (¬ ∀ s, (ciRepair { ciAutoRepairMaxAttempts := 2 }).Reachable System.anyStep s →
      ∀ l t, step { ciAutoRepairMaxAttempts := 2 } s l = some t → Alone s t) ∧
    (¬ ∀ s, (ciRepair { ciAutoRepairMaxAttempts := 1 }).Reachable System.anyStep s →
      ∀ issueId, countAttempts issueId s.tasks ≤ 1) := by
  refine ⟨fun hclaim => ?_, fun hclaim => ?_, fun hclaim => ?_⟩
  · have hs := System.reachable_of_exec (atRest_repairable _)
      (show (ciRepair { ciAutoRepairMaxAttempts := 2 }).exec repairable
        (claimRun 0 5 1 10 ++ [.openClaim 1 300000011 [1], .commit 1 0, .load 1] ++
          passGates 0 12 ++ createRepair 0 1 [50] 13 ++ [.finishTask 1 .failed 20 none] ++
          (passGates 1 21).tail ++ createRepair 1 2 [51] 22) = some _ from rfl)
    exact absurd (hclaim _ hs 1) (by decide)
  · have hs := System.reachable_of_exec (atRest_repairable _)
      (show (ciRepair { ciAutoRepairMaxAttempts := 2 }).exec repairable (claimRun 0 5 1 10 ++
        passGates 0 12 ++ [.openCreate 1 7, .insertManual 1 1 .execute 13, .commit 1 0] ++
          (createRepair 0 2 [50] 14).dropLast) = some _ from rfl)
    have halone := hclaim _ hs (.commit 0 0) _ rfl
    have hidle := halone ⟨2, 7, .execute, .ciAutoRepair, some 1, .pending, 14, none, none⟩
      (mem_cons_of_mem _ mem_cons_self) rfl (by decide) _ mem_cons_self (by decide)
    cases hidle
  · have hs := System.reachable_of_exec (atRest_repairable _)
      (show (ciRepair { ciAutoRepairMaxAttempts := 1 }).exec repairable
        (claimRun 0 5 1 10 ++ claimRun 1 6 2 10 ++ passGates 0 12 ++ passGates 1 12 ++
          createRepair 0 1 [50] 13 ++ createRepair 1 2 [51] 14) = some _ from rfl)
    exact absurd (hclaim _ hs 7) (by decide)

end Codify.CiRepair
