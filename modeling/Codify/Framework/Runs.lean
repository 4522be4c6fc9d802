import Mathlib.Data.List.Pairwise
import Mathlib.Order.Bounds.Basic

/-! # Runs of a Fallible Step

    A program that reads its input piece by piece is a fold of a step that may
    fail. The moments of a run pair each piece with the state it is read in; an
    invariant is kept by a whole run when each step keeps it, a register that some
    steps overwrite holds what the last of them wrote, and an accumulator is the
    fold over the moments. Where a counter numbers the moments, a flag and a slot
    are told from the numbers of the moments that set and clear them.
-/

namespace Codify.Framework

open List

universe u v

variable {σ α : Type u} {β : Type v} {step : σ → α → Option σ} {s t : σ} {l : List α}

/-- The pieces that are read, each with the state before it. -/
def moments (step : σ → α → Option σ) : σ → List α → List (σ × α)
  | _, [] => []
  | s, a :: rest =>
    (s, a) :: match step s a with
      | some t => moments step t rest
      | none => []

theorem foldlM_cons {a : α} : (a :: l).foldlM step s = some t ↔
    ∃ u, step s a = some u ∧ l.foldlM step u = some t := by
  rw [List.foldlM_cons]
  exact Option.bind_eq_some_iff

/-- **Run rule**: what each step keeps a run keeps. -/
theorem foldlM_keeps {P : σ → Prop} (hstep : ∀ s a t, P s → step s a = some t → P t)
    (h : l.foldlM step s = some t) (hs : P s) : P t := by
  induction l generalizing s with
  | nil =>
    cases h
    exact hs
  | cons a rest ih =>
    obtain ⟨u, hu, hrest⟩ := foldlM_cons.mp h
    exact ih hrest (hstep s a u hs hu)

theorem moments_keep {P : σ → Prop} (hstep : ∀ s a t, P s → step s a = some t → P t)
    (hs : P s) : ∀ m ∈ moments step s l, P m.1 := by
  induction l generalizing s with
  | nil => simp [moments]
  | cons a rest ih =>
    intro m hm
    rcases mem_cons.mp hm with rfl | hm
    · exact hs
    · split at hm
      · next u hu => exact ih (hstep s a u hs hu) m hm
      · cases hm

theorem foldlM_isSome_iff :
    (l.foldlM step s).isSome ↔ ∀ m ∈ moments step s l, (step m.1 m.2).isSome := by
  induction l generalizing s with
  | nil => simp [moments]
  | cons a rest ih =>
    cases hu : step s a with
    | none => simp [moments, hu]
    | some u => simp [moments, hu, ih]

/-- **Registers**: a register that a step overwrites or keeps holds what was written last, or its
    first content. -/
theorem register_run {P : σ → Prop} {f : σ → Option β} {write : σ × α → Option β}
    (hkeep : ∀ s a t, P s → step s a = some t → P t)
    (hwrite : ∀ s a t, P s → step s a = some t → f t = (write (s, a)).or (f s))
    (hs : P s) (h : l.foldlM step s = some t) :
    f t = (((moments step s l).filterMap write).getLast?).or (f s) := by
  induction l generalizing s with
  | nil =>
    cases h
    rfl
  | cons a rest ih =>
    obtain ⟨u, hu, hrest⟩ := foldlM_cons.mp h
    rw [ih (hkeep s a u hs hu) hrest, hwrite s a u hs hu, ← Option.or_assoc]
    congr 1
    cases hw : write (s, a) with
    | none => simp [moments, hu, hw]
    | some b =>
      simp only [moments, hu, filterMap_cons, hw]
      cases ((moments step u rest).filterMap write) with
      | nil => rfl
      | cons c more => simp [getLast?_cons]

/-- **Accumulators**: what each step adds to is the fold over the moments. -/
theorem accumulator_run {P : σ → Prop} {f : σ → β} {add : β → σ × α → β}
    (hkeep : ∀ s a t, P s → step s a = some t → P t)
    (hadd : ∀ s a t, P s → step s a = some t → f t = add (f s) (s, a)) (hs : P s)
    (h : l.foldlM step s = some t) : f t = (moments step s l).foldl add (f s) := by
  induction l generalizing s with
  | nil =>
    cases h
    rfl
  | cons a rest ih =>
    obtain ⟨u, hu, hrest⟩ := foldlM_cons.mp h
    rw [ih (hkeep s a u hs hu) hrest, hadd s a u hs hu]
    simp [moments, hu]

section Counted

/-! ### Numbered Moments -/

variable {P : σ → Prop} {count : σ → Nat} {flag : σ → Bool} {sets clears : σ × α → Bool}

theorem count_le_moment (hkeep : ∀ s a t, P s → step s a = some t → P t)
    (hcount : ∀ s a t, P s → step s a = some t → count t = count s + 1) (hs : P s) :
    ∀ m ∈ moments step s l, count s ≤ count m.1 := by
  induction l generalizing s with
  | nil => simp [moments]
  | cons a rest ih =>
    intro m hm
    rcases mem_cons.mp hm with rfl | hm
    · exact le_rfl
    · split at hm
      · next u hu =>
        have hnext := ih (hkeep s a u hs hu) m hm
        rw [hcount s a u hs hu] at hnext
        omega
      · cases hm

/-- A counter that goes up by one with each step numbers the moments in order. -/
theorem pairwise_moments (hkeep : ∀ s a t, P s → step s a = some t → P t)
    (hcount : ∀ s a t, P s → step s a = some t → count t = count s + 1) (hs : P s) :
    (moments step s l).Pairwise (fun m m' => count m.1 < count m'.1) := by
  induction l generalizing s with
  | nil => exact .nil
  | cons a rest ih =>
    refine .cons ?_ ?_
    · intro m hm
      split at hm
      · next u hu =>
        have hnext := count_le_moment hkeep hcount (hkeep s a u hs hu) m hm
        rw [hcount s a u hs hu] at hnext
        show count s < count m.1
        omega
      · cases hm
    · split
      · next u hu => exact ih (hkeep s a u hs hu)
      · exact .nil

/-- A flag that is never cleared is set before a moment when it was set at the start, or by an
    earlier moment. -/
theorem flag_moment (flag : σ → Bool) (hkeep : ∀ s a t, P s → step s a = some t → P t)
    (hcount : ∀ s a t, P s → step s a = some t → count t = count s + 1)
    (hflag : ∀ s a t, P s → step s a = some t → flag t = (flag s || sets (s, a))) (hs : P s) :
    ∀ m ∈ moments step s l, (flag m.1 ↔
      flag s ∨ ∃ m' ∈ moments step s l, sets m' ∧ count m'.1 < count m.1) := by
  induction l generalizing s with
  | nil => simp [moments]
  | cons a rest ih =>
    intro m hm
    have hlater := count_le_moment (l := a :: rest) hkeep hcount hs
    rcases mem_cons.mp hm with rfl | hm
    · refine ⟨.inl, ?_⟩
      rintro (h | ⟨m', hm', -, hlt⟩)
      · exact h
      · exact absurd hlt (not_lt_of_ge (hlater m' hm'))
    · split at hm
      · next u hu =>
        have hu' := hkeep s a u hs hu
        have hnext := count_le_moment hkeep hcount hu' m hm
        rw [hcount s a u hs hu] at hnext
        rw [ih hu' m hm, hflag s a u hs hu, moments, hu, Bool.or_eq_true]
        constructor
        · rintro ((h | h) | ⟨m', hm', h⟩)
          · exact .inl h
          · exact .inr ⟨_, mem_cons_self, h, hnext⟩
          · exact .inr ⟨m', mem_cons_of_mem _ hm', h⟩
        · rintro (h | ⟨m', hm', h⟩)
          · exact .inl (.inl h)
          · rcases mem_cons.mp hm' with rfl | hm'
            · exact .inl (.inr h.1)
            · exact .inr ⟨m', hm', h⟩
      · cases hm

/-- **Slots**: a slot that some moments fill and others clear is full at the end when a moment has
    filled it and none has cleared it later. -/
theorem slot_run (flag : σ → Bool) (clears : σ × α → Bool)
    (hkeep : ∀ s a t, P s → step s a = some t → P t)
    (hcount : ∀ s a t, P s → step s a = some t → count t = count s + 1)
    (hflag : ∀ s a t, P s → step s a = some t →
      flag t = (!clears (s, a) && (flag s || sets (s, a)))) (hs : P s)
    (h : l.foldlM step s = some t) :
    flag t ↔ (flag s ∧ ∀ m ∈ moments step s l, clears m = false) ∨
      ∃ m ∈ moments step s l, sets m ∧
        ∀ m' ∈ moments step s l, clears m' → count m'.1 < count m.1 := by
  induction l generalizing s with
  | nil =>
    cases h
    simp [moments]
  | cons a rest ih =>
    obtain ⟨u, hu, hrest⟩ := foldlM_cons.mp h
    have hu' := hkeep s a u hs hu
    have hlater : ∀ m ∈ moments step u rest, count s < count m.1 := by
      intro m hm
      have hnext := count_le_moment hkeep hcount hu' m hm
      rw [hcount s a u hs hu] at hnext
      omega
    rw [ih hu' hrest, hflag s a u hs hu, moments, hu]
    simp only [Bool.and_eq_true, Bool.not_eq_true', Bool.or_eq_true, mem_cons, forall_eq_or_imp,
      exists_eq_or_imp]
    constructor
    · rintro (⟨⟨hclears, hs' | hsets⟩, hnone⟩ | ⟨m, hm, hsets, hlast⟩)
      · exact .inl ⟨hs', hclears, hnone⟩
      · refine .inr (.inl ⟨hsets, ?_, ?_⟩)
        · intro hyes
          rw [hclears] at hyes
          cases hyes
        · intro m' hm' hyes
          rw [hnone m' hm'] at hyes
          cases hyes
      · exact .inr (.inr ⟨m, hm, hsets, fun _ => hlater m hm, hlast⟩)
    · rintro (⟨hs', hclears, hnone⟩ | ⟨hsets, hclears, hlast⟩ | ⟨m, hm, hsets, -, hlast⟩)
      · exact .inl ⟨⟨hclears, .inl hs'⟩, hnone⟩
      · have hno : ∀ m' ∈ moments step u rest, clears m' = false := by
          intro m' hm'
          by_contra hyes
          have hlt := hlast m' hm' (by simpa using hyes)
          exact absurd (hlater m' hm') (not_lt_of_gt hlt)
        refine .inl ⟨⟨?_, .inr hsets⟩, hno⟩
        by_contra hyes
        exact lt_irrefl _ (hclears (by simpa using hyes))
      · exact .inr ⟨m, hm, hsets, hlast⟩

end Counted

theorem isGreatest_getLast? {l : List Nat} (hsorted : l.Pairwise (· < ·)) {n : Nat}
    (h : l.getLast? = some n) : IsGreatest {m | m ∈ l} n := by
  obtain ⟨before, rfl⟩ := getLast?_eq_some_iff.mp h
  refine ⟨by simp, ?_⟩
  intro m hm
  rcases mem_append.mp hm with hm | hm
  · exact ((pairwise_append.mp hsorted).2.2 m hm n (by simp)).le
  · exact (mem_singleton.mp hm).le

end Codify.Framework
