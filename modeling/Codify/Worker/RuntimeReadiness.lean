import Codify.Framework.Json
import Codify.Framework.System

/-! # Runtime Readiness Checks

    One row of `worker_runtime_readiness` and the checks that write it
    (app/core/worker_runtime_readiness.py). A check begins by raising the row's
    generation and ends in one of two ways: with a conclusion, written by a
    compare-and-set on that generation, or with a transient error, which deletes
    a row that holds no conclusion.

    * **Fencing**: within the life of one row a generation names one check, so
      only the check that began last can write (`Inv.latest`).
    * **Row lifetimes**: a deleted row takes its counter with it, so a check may
      meet its generation on a later row. Where none does (`SameRow`), a superseded
      check never writes (`superseded_check_never_writes`).

    The columns that only `begin_runtime_check` writes are left out.
-/

namespace Codify.Worker.RuntimeReadiness

open Codify.Framework List Option

/-! ### Rows -/

/-- `READINESS_STATUSES`. -/
inductive Readiness where
  | unknown
  | ready
  | unavailable
  deriving DecidableEq, Repr

/-- `RuntimeCheckResult`. -/
structure RuntimeCheckResult where
  status : Readiness
  failureCode : Option String := none
  failureMessage : Option String := none
  harnessInventory : Option JsonObject := none
  kitIdentity : Option JsonObject := none

/-- `WorkerRuntimeReadiness`. -/
structure Row where
  checkGeneration : Nat := 0
  status : Readiness := .unknown
  checkedAt : Option Nat := none
  failureCode : Option String := none
  failureMessage : Option String := none
  harnessInventory : Option JsonObject := none
  kitIdentity : Option JsonObject := none
  workerKitVersion : Json := .null

variable (row : Option Row)

/-- `begin_runtime_check`: the row with its next generation. -/
def beginRuntimeCheck : Row :=
  let row := row.getD {}
  { row with checkGeneration := row.checkGeneration + 1 }

/-- The kit version that goes with a result. -/
def kitVersionOf (result : RuntimeCheckResult) : Json :=
  (result.kitIdentity.map fun identity => identity.get "kit_version").getD .null

/-- `finish_runtime_check`: the row afterwards, and whether the update hit it. -/
def finishRuntimeCheck (generation : Nat) (result : RuntimeCheckResult) (now : Nat) :
    Option Row × Bool :=
  match row with
  | none => (none, false)
  | some r =>
    if r.checkGeneration = generation then
      (some { r with
        status := result.status, checkedAt := some now, failureCode := result.failureCode
        failureMessage := result.failureMessage, harnessInventory := result.harnessInventory
        kitIdentity := result.kitIdentity, workerKitVersion := kitVersionOf result }, true)
    else (row, false)

/-- `_discard_incomplete_runtime_check`. -/
def discardIncompleteRuntimeCheck (generation : Nat) : Option Row :=
  row.filter fun r =>
    !(r.checkGeneration == generation && r.status == .unknown && r.checkedAt.isNone)

/-- The conclusion that a row holds, with the time of its check. -/
def Row.conclusion (r : Row) : Option (RuntimeCheckResult × Nat) :=
  r.checkedAt.map fun checkedAt =>
    (⟨r.status, r.failureCode, r.failureMessage, r.harnessInventory, r.kitIdentity⟩, checkedAt)

/-! ### State -/

/-- How a check has ended. -/
inductive Outcome where
  /-- `RuntimeProbeTransientError`. -/
  | transient
  /-- A conclusion, and whether it was committed. -/
  | finished (result : RuntimeCheckResult) (checkedAt : Nat) (committed : Bool)

/-- One `run_deterministic_kit_probe`. -/
structure Check where
  generation : Nat
  /-- Which row it began on. -/
  row : Nat
  outcome : Option Outcome := none

def Check.committed (c : Check) : Option (RuntimeCheckResult × Nat) :=
  match c.outcome with
  | some (.finished result checkedAt true) => some (result, checkedAt)
  | _ => none

structure State where
  row : Option Row := none
  /-- The rows created so far. -/
  rows : Nat := 0
  /-- The checks, in the order in which they began. -/
  checks : List Check := []

open State

def State.conclusion (s : State) : Option (RuntimeCheckResult × Nat) := s.row.bind Row.conclusion

variable (s : State)

/-- What the check that began last among those that committed has committed. -/
def State.lastCommitted : Option (RuntimeCheckResult × Nat) :=
  (s.checks.filterMap Check.committed).getLast?

/-! ### Steps -/

inductive Label where
  | begin
  | finish (i : Nat) (result : RuntimeCheckResult) (now : Nat)
  | discard (i : Nat)

variable (i : Nat)

/-- The check in place `i`, while its probe runs. -/
def State.running : Option Check := s.checks[i]?.filter fun c => c.outcome.isNone

def State.end (c : Check) (outcome : Outcome) (row : Option Row) : State :=
  { s with row, checks := s.checks.set i { c with outcome := some outcome } }

def State.begin : State :=
  let row := beginRuntimeCheck s.row
  let rows := if s.row.isSome then s.rows else s.rows + 1
  { row := some row, rows, checks := s.checks ++ [{ generation := row.checkGeneration, row := rows }] }

def next : Label → Option State
  | .begin => some s.begin
  | .finish i result now =>
    (s.running i).map fun c =>
      let (row, committed) := finishRuntimeCheck s.row c.generation result now
      s.end i c (.finished result now committed) row
  | .discard i =>
    (s.running i).map fun c =>
      s.end i c .transient (discardIncompleteRuntimeCheck s.row c.generation)

def system : System State Label where
  init s := s = {}
  next := next

/-- The row holds the generation of the check in place `i`, so `finish_runtime_check` returns
    `True` for it. -/
def State.writes : Prop := ∃ c ∈ s.running i, ∃ r ∈ s.row, r.checkGeneration = c.generation

/-- Another check began after the one in place `i`. -/
def State.superseded : Prop := i + 1 < s.checks.length

/-- A check that finishes on a generation of the row that is there began on that row. -/
def SameRow : Label → Prop
  | .finish i _ _ => ∀ c ∈ s.running i, ∀ r ∈ s.row, r.checkGeneration = c.generation → c.row = s.rows
  | _ => True

/-! ### Generations Within One Row -/

/-- The row and the generation of each check. -/
def State.idents : List (Nat × Nat) := s.checks.map fun c => (c.row, c.generation)

structure Inv (s : State) : Prop where
  rows : ∀ p ∈ s.idents, p.1 ≤ s.rows
  ordered : s.idents.Pairwise fun p q => p.1 < q.1 ∨ (p.1 = q.1 ∧ p.2 < q.2)
  current : ∀ r ∈ s.row, s.idents.getLast? = some (s.rows, r.checkGeneration)

variable {s s' : State} {i : Nat} {c : Check} {l : Label}

theorem running_eq_some (h : s.running i = some c) : s.checks[i]? = some c ∧ c.outcome = none := by
  obtain ⟨hget, hnone⟩ := filter_eq_some_iff.mp h
  exact ⟨hget, isNone_iff_eq_none.mp hnone⟩

theorem idents_end (h : s.running i = some c) (outcome : Outcome) (row : Option Row) :
    (s.end i c outcome row).idents = s.idents := by
  obtain ⟨hget, -⟩ := running_eq_some h
  obtain ⟨hi, hc⟩ := List.getElem?_eq_some_iff.mp hget
  simp only [idents, State.end, map_set]
  apply ext_getElem?
  intro j
  rw [getElem?_set]
  split
  · next hj =>
    subst hj
    simp [hi, hc]
  · rfl

variable {generation now : Nat} {result : RuntimeCheckResult} {row : Option Row}

theorem finishRuntimeCheck_generation {row row' : Option Row}
    {committed : Bool}
    (h : finishRuntimeCheck row generation result now = (row', committed)) :
    row'.map Row.checkGeneration = row.map Row.checkGeneration := by
  unfold finishRuntimeCheck at h
  split at h
  · obtain ⟨rfl, -⟩ := Prod.mk.inj h
    rfl
  · split at h
    · obtain ⟨rfl, -⟩ := Prod.mk.inj h
      rfl
    · obtain ⟨rfl, -⟩ := Prod.mk.inj h
      rfl

theorem Inv.generation_le (h : Inv s) {r : Row} (hr : s.row = some r) {p : Nat × Nat}
    (hp : p ∈ s.idents) (hrow : p.1 = s.rows) : p.2 ≤ r.checkGeneration := by
  have hlast := h.current r hr
  obtain ⟨before, hbefore⟩ := getLast?_eq_some_iff.mp hlast
  have hordered := h.ordered
  rw [hbefore] at hp hordered
  rcases mem_append.mp hp with hearly | hhere
  · have hpair := (pairwise_append.mp hordered).2.2 p hearly _ mem_cons_self
    omega
  · obtain rfl := mem_singleton.mp hhere
    exact Nat.le_refl _

theorem Inv.latest (h : Inv s) {r : Row} (hr : s.row = some r) (hget : s.checks[i]? = some c)
    (hrow : c.row = s.rows) (hgeneration : r.checkGeneration = c.generation) :
    s.checks.length = i + 1 := by
  obtain ⟨hi, hc⟩ := List.getElem?_eq_some_iff.mp hget
  by_contra hne
  have hlast : i < s.checks.length - 1 := by omega
  have hlength : s.idents.length = s.checks.length := by simp [idents]
  have hpair := pairwise_iff_getElem.mp h.ordered i (s.checks.length - 1) (by omega) (by omega) hlast
  have hend := h.current r hr
  rw [getLast?_eq_getElem?, hlength] at hend
  obtain ⟨_, hend⟩ := List.getElem?_eq_some_iff.mp hend
  have hbound : i < s.idents.length := by omega
  have hhere : s.idents[i] = (c.row, c.generation) := by simp [idents, hc]
  rw [hend, hhere] at hpair
  omega

attribute [local simp] State.begin beginRuntimeCheck filterMap_append

/-- A check that begins has the latest generation. -/
theorem Inv.begin (h : Inv s) : Inv s.begin := by
  cases hrow : s.row with
  | none =>
    have hidents : s.begin.idents = s.idents ++ [(s.rows + 1, 1)] := by
      simp [idents, hrow]
    have hrows : s.begin.rows = s.rows + 1 := by simp [hrow]
    constructor
    · rw [hidents, hrows]
      intro p hp
      rcases mem_append.mp hp with hearly | hnew
      · exact Nat.le_succ_of_le (h.rows p hearly)
      · obtain rfl := mem_singleton.mp hnew
        exact Nat.le_refl _
    · rw [hidents, pairwise_append]
      refine ⟨h.ordered, pairwise_singleton _ _, ?_⟩
      intro p hp q hq
      obtain rfl := mem_singleton.mp hq
      exact .inl (Nat.lt_succ_of_le (h.rows p hp))
    · intro r hr
      obtain rfl : beginRuntimeCheck none = r := by simpa [hrow] using hr
      rw [hidents, hrows]
      simp
  | some r₀ =>
    have hidents : s.begin.idents = s.idents ++ [(s.rows, r₀.checkGeneration + 1)] := by
      simp [idents, hrow]
    have hrows : s.begin.rows = s.rows := by simp [hrow]
    constructor
    · rw [hidents, hrows]
      intro p hp
      rcases mem_append.mp hp with hearly | hnew
      · exact h.rows p hearly
      · obtain rfl := mem_singleton.mp hnew
        exact Nat.le_refl _
    · rw [hidents, pairwise_append]
      refine ⟨h.ordered, pairwise_singleton _ _, ?_⟩
      intro p hp q hq
      obtain rfl := mem_singleton.mp hq
      rcases Nat.lt_or_eq_of_le (h.rows p hp) with hbefore | hsame
      · exact .inl hbefore
      · exact .inr ⟨hsame, Nat.lt_succ_of_le (h.generation_le hrow hp hsame)⟩
    · intro r hr
      obtain rfl : beginRuntimeCheck (some r₀) = r := by simpa [hrow] using hr
      rw [hidents, hrows]
      simp

/-- A check that ends keeps the generations; the row keeps its own or is gone. -/
theorem Inv.end (h : Inv s) (hrunning : s.running i = some c) (outcome : Outcome)
    (hrow : ∀ r ∈ row, ∃ r₀, s.row = some r₀ ∧ r.checkGeneration = r₀.checkGeneration) :
    Inv (s.end i c outcome row) := by
  have hidents := idents_end hrunning outcome row
  constructor
  · rw [hidents]
    exact h.rows
  · rw [hidents]
    exact h.ordered
  · intro r hr
    obtain ⟨r₀, hr₀, hgeneration⟩ := hrow r hr
    rw [hidents, hgeneration]
    exact h.current r₀ hr₀

theorem next_cases (h : next s l = some s') :
    (l = .begin ∧ s' = s.begin) ∨
    (∃ i result now c, l = .finish i result now ∧ s.running i = some c ∧
      s' = s.end i c
        (.finished result now (finishRuntimeCheck s.row c.generation result now).2)
        (finishRuntimeCheck s.row c.generation result now).1) ∨
    (∃ i c, l = .discard i ∧ s.running i = some c ∧
      s' = s.end i c .transient (discardIncompleteRuntimeCheck s.row c.generation)) := by
  cases l with
  | begin => exact .inl ⟨rfl, (some.inj h).symm⟩
  | finish i result now =>
    obtain ⟨c, hc, hs⟩ := map_eq_some_iff.mp h
    exact .inr (.inl ⟨i, result, now, c, rfl, hc, hs.symm⟩)
  | discard i =>
    obtain ⟨c, hc, hs⟩ := map_eq_some_iff.mp h
    exact .inr (.inr ⟨i, c, rfl, hc, hs.symm⟩)

theorem Inv.step (h : Inv s) (hnext : next s l = some s') : Inv s' := by
  rcases next_cases hnext with ⟨-, rfl⟩ | ⟨i, result, now, c, -, hc, rfl⟩ | ⟨i, c, -, hc, rfl⟩
  · exact h.begin
  · refine h.end hc _ fun r hr => ?_
    have hgeneration : (finishRuntimeCheck s.row c.generation result now).1.map Row.checkGeneration =
        s.row.map Row.checkGeneration := finishRuntimeCheck_generation rfl
    rw [hr, map_some] at hgeneration
    obtain ⟨r₀, hr₀, heq⟩ := map_eq_some_iff.mp hgeneration.symm
    exact ⟨r₀, hr₀, heq.symm⟩
  · refine h.end hc _ fun r hr => ?_
    exact ⟨r, (filter_eq_some_iff.mp hr).1, rfl⟩

theorem inv_init : Inv {} where
  rows p hp := absurd hp not_mem_nil
  ordered := List.Pairwise.nil
  current r hr := by cases hr

theorem inv_reachable {guard : State → Label → Prop} (h : system.Reachable guard s) : Inv s :=
  h.invariant (fun _ hs => hs ▸ inv_init) fun _ _ _ hinv _ hnext => hinv.step hnext

/-! ### Stored Conclusions -/

theorem committed_end (hc : s.running i = some c) (outcome : Outcome) (row : Option Row)
    (hnone : ({ c with outcome := some outcome } : Check).committed = none) :
    (s.end i c outcome row).lastCommitted = s.lastCommitted := by
  obtain ⟨hget, hrunning⟩ := running_eq_some hc
  obtain ⟨hi, hat⟩ := List.getElem?_eq_some_iff.mp hget
  have hbefore : c.committed = none := by simp [Check.committed, hrunning]
  have hsplit : s.checks = s.checks.take i ++ c :: s.checks.drop (i + 1) := by
    rw [← hat, getElem_cons_drop, take_append_drop]
  have hset : (s.end i c outcome row).checks =
      s.checks.take i ++ { c with outcome := some outcome } :: s.checks.drop (i + 1) := by
    rw [State.end, set_eq_take_append_cons_drop, if_pos hi]
  rw [lastCommitted, lastCommitted, hset]
  conv_rhs => rw [hsplit]
  simp [hnone, hbefore]

theorem committed_end_last (c : Check) (hlast : s.checks.length = i + 1)
    (result : RuntimeCheckResult) (now : Nat) (row : Option Row) :
    (s.end i c (.finished result now true) row).lastCommitted = some (result, now) := by
  have hi : i < s.checks.length := by omega
  have hset : (s.end i c (.finished result now true) row).checks =
      s.checks.take i ++ [{ c with outcome := some (.finished result now true) }] := by
    rw [State.end, set_eq_take_append_cons_drop, if_pos hi, drop_eq_nil_of_le (by omega)]
  rw [lastCommitted, hset]
  simp [Check.committed]

theorem conclusion_discard (row : Option Row) (generation : Nat) :
    (discardIncompleteRuntimeCheck row generation).bind Row.conclusion = row.bind Row.conclusion := by
  cases row with
  | none => rfl
  | some r =>
    unfold discardIncompleteRuntimeCheck
    rw [filter_some]
    split
    · rfl
    next hdeleted =>
    have hchecked : r.checkedAt = none := by
      simp only [Bool.not_eq_true', Bool.and_eq_true, Bool.not_eq_false, isNone_iff_eq_none]
        at hdeleted
      exact hdeleted.2
    simp [Row.conclusion, hchecked]

theorem conclusion_finish (row : Option Row) (generation now : Nat) (result : RuntimeCheckResult) :
    (finishRuntimeCheck row generation result now).1.bind Row.conclusion =
      if (finishRuntimeCheck row generation result now).2 then some (result, now)
      else row.bind Row.conclusion := by
  unfold finishRuntimeCheck
  split
  · rfl
  · split
    · rfl
    · rfl

theorem finish_committed_iff :
    (finishRuntimeCheck row generation result now).2 = true ↔
      ∃ r ∈ row, r.checkGeneration = generation := by
  unfold finishRuntimeCheck
  split
  · simp
  · split
    · next hgeneration => simp [hgeneration]
    · next hgeneration => simp [hgeneration]

/-- **The stored conclusion** along a guarded run. -/
theorem conclusion_step (hinv : Inv s) (h : s.conclusion = s.lastCommitted) (hguard : SameRow s l)
    (hnext : next s l = some s') : s'.conclusion = s'.lastCommitted := by
  rcases next_cases hnext with ⟨-, rfl⟩ | ⟨i, result, now, c, rfl, hc, rfl⟩ | ⟨i, c, rfl, hc, rfl⟩
  · have hcommitted : s.begin.lastCommitted = s.lastCommitted := by
      simp [lastCommitted, Check.committed]
    rw [hcommitted, ← h]
    cases hrow : s.row <;> simp [conclusion, hrow, Row.conclusion]
  · rw [conclusion, State.end, conclusion_finish]
    split
    · next hcommitted =>
      obtain ⟨r, hr, hgeneration⟩ := finish_committed_iff.mp hcommitted
      obtain ⟨hget, -⟩ := running_eq_some hc
      have hlast := hinv.latest hr hget (hguard c hc r hr hgeneration) hgeneration
      rw [hcommitted]
      exact (committed_end_last c hlast result now _).symm
    · next hcommitted =>
      rw [Bool.not_eq_true] at hcommitted
      rw [hcommitted]
      exact h.trans (committed_end hc _ _ rfl).symm
  · rw [conclusion, State.end, conclusion_discard]
    exact h.trans (committed_end hc _ _ rfl).symm

/-- **A superseded check never writes**: along every run in which a check that finishes on a
    generation of the row began on that row, only the check that began last is written, the stored
    conclusion is that of the last check to begin among those that committed, and a transient error
    leaves it as it is. -/
theorem superseded_check_never_writes (h : system.Reachable SameRow s) :
    s.conclusion = s.lastCommitted ∧
    ∀ l s', SameRow s l → system.next s l = some s' →
      (∀ i result now, l = .finish i result now → s.writes i → ¬ s.superseded i) ∧
      (∀ i, l = .discard i → s'.conclusion = s.conclusion) := by
  have hinv := inv_reachable h
  constructor
  · have hboth : Inv s ∧ s.conclusion = s.lastCommitted := by
      refine h.invariant (P := fun s => Inv s ∧ s.conclusion = s.lastCommitted) ?_ ?_
      · rintro s rfl
        exact ⟨inv_init, rfl⟩
      · rintro s l s' ⟨hinv, hstored⟩ hguard hnext
        exact ⟨hinv.step hnext, conclusion_step hinv hstored hguard hnext⟩
    exact hboth.2
  · intro l s' hguard hnext
    constructor
    · rintro i result now rfl ⟨c, hc, r, hr, hgeneration⟩ hsuperseded
      obtain ⟨hget, -⟩ := running_eq_some hc
      have hlast := hinv.latest hr hget (hguard c hc r hr hgeneration) hgeneration
      unfold superseded at hsuperseded
      omega
    · rintro i rfl
      obtain ⟨c, hc, hs⟩ := map_eq_some_iff.mp hnext
      subst hs
      exact conclusion_discard s.row c.generation

/-! ### Two Schedules -/

def ready : RuntimeCheckResult := { status := .ready }

instance (s : State) (l : Label) : Decidable (SameRow s l) := by
  cases l <;> unfold SameRow <;> infer_instance

/-- Two overlapping checks: the second ends with a transient error, the first is too late for the
    row that is there. -/
def overlapping : List Label := [.begin, .begin, .finish 0 ready 7, .discard 1]

theorem superseded_check_never_writes_overlapping :
    ∃ s, system.execWhile SameRow {} overlapping = some s ∧ s.conclusion = s.lastCommitted := by
  obtain ⟨s, hs⟩ : ∃ s, system.execWhile SameRow {} overlapping = some s := ⟨_, rfl⟩
  exact ⟨s, hs, (superseded_check_never_writes ⟨{}, rfl, System.run_of_execWhile hs⟩).1⟩

/-- The first check outlives its row: the second deletes the row, and the third begins on a new
    one. -/
def outlived : List Label := [.begin, .begin, .discard 1, .begin]

/-- The third check has the generation of the first, which is written although it is superseded. -/
theorem superseded_check_writes_to_later_row :
    ∃ s, system.exec {} outlived = some s ∧ system.Reachable System.anyStep s ∧
      s.writes 0 ∧ s.superseded 0 := by
  have hexec : system.exec {} outlived = some
      { row := some { checkGeneration := 1 }, rows := 2,
        checks := [⟨1, 1, none⟩, ⟨2, 1, some .transient⟩, ⟨1, 2, none⟩] } := rfl
  refine ⟨_, hexec, System.reachable_of_exec rfl hexec, ?_, ?_⟩
  · exact ⟨_, rfl, _, rfl, rfl⟩
  · show 0 + 1 < 3
    decide

end Codify.Worker.RuntimeReadiness
