import Mathlib.Data.List.Basic
import Mathlib.Order.Bounds.Basic

/-! # Labelled Transition Systems

    A system is an initial predicate and a partial step function on labels.
    All nondeterminism (the scheduler's choice of who moves, the answer of an
    external service, the time at which something fails) is carried by the
    label, so every system can be run on a concrete schedule.

    * **Runs**: `Run guard s t` is a finite run from `s` to `t` each of whose
      steps meets `guard`; `anyStep` is the guard that allows everything.
    * **Invariant rules**: what holds initially and is kept by one step holds
      in every reachable state; a reflexive transitive relation kept by one
      step relates the two ends of every run.
    * **Schedules**: `exec` runs a list of labels, for concrete executions.
-/

namespace Codify.Framework

open List Option

universe u v

/-- A labelled transition system with a deterministic, partial step function. -/
structure System (State : Type u) (Label : Type v) where
  /-- The initial states. -/
  init : State → Prop
  /-- One step: `none` when the label is not enabled. -/
  next : State → Label → Option State

/-- A step behind a guard. -/
theorem of_guarded {α : Type u} {p : Prop} [Decidable p] {a b : α}
    (h : (if p then some a else none) = some b) : p ∧ a = b :=
  (ite_none_right_eq_some.mp h).imp_right some.inj

namespace System

variable {State : Type u} {Label : Type v} (sys : System State Label)

def anyStep : State → Label → Prop := fun _ _ => True

/-! ### Runs -/

/-- Finite runs all of whose steps meet `guard`. -/
inductive Run (guard : State → Label → Prop) : State → State → Prop where
  | refl (s : State) : Run guard s s
  | step {s t u : State} {l : Label} :
      Run guard s t → guard t l → sys.next t l = some u → Run guard s u

/-- A state is reachable when a run from an initial state ends in it. -/
def Reachable (guard : State → Label → Prop) (s : State) : Prop :=
  ∃ s₀, sys.init s₀ ∧ sys.Run guard s₀ s

variable {sys} {guard : State → Label → Prop}

theorem Run.trans {s t u : State} (hst : sys.Run guard s t) (htu : sys.Run guard t u) :
    sys.Run guard s u := by
  induction htu with
  | refl => exact hst
  | step _ hg hn ih => exact .step ih hg hn

theorem Run.cons {s t u : State} {l : Label} (hg : guard s l) (hn : sys.next s l = some t)
    (htu : sys.Run guard t u) : sys.Run guard s u :=
  Run.trans (.step (.refl s) hg hn) htu

theorem Reachable.run {s t : State} (hs : sys.Reachable guard s)
    (hrun : sys.Run guard s t) : sys.Reachable guard t := by
  obtain ⟨s₀, hinit, h₀⟩ := hs
  exact ⟨s₀, hinit, h₀.trans hrun⟩

/-! ### Invariant Rules -/

/-- **Invariant along a run**: kept by one step, kept by every run. -/
theorem Run.preserves {P : State → Prop}
    (hstep : ∀ s l s', P s → guard s l → sys.next s l = some s' → P s')
    {s t : State} (hrun : sys.Run guard s t) (hs : P s) : P t := by
  induction hrun with
  | refl => exact hs
  | step _ hg hn ih => exact hstep _ _ _ ih hg hn

/-- **Invariant**: holds initially and is kept by one step, so it holds in every
    reachable state. -/
theorem Reachable.invariant {P : State → Prop} (hinit : ∀ s, sys.init s → P s)
    (hstep : ∀ s l s', P s → guard s l → sys.next s l = some s' → P s')
    {s : State} (hs : sys.Reachable guard s) : P s := by
  obtain ⟨s₀, h₀, hrun⟩ := hs
  exact hrun.preserves hstep (hinit s₀ h₀)

/-- **Persistence**: a reflexive transitive relation between the two ends of a step,
    given an invariant, relates the two ends of a run. -/
theorem Run.relates {P : State → Prop} {R : State → State → Prop}
    (hP : ∀ s l s', P s → guard s l → sys.next s l = some s' → P s')
    (hrefl : ∀ s, R s s) (htrans : ∀ s t u, R s t → R t u → R s u)
    (hstep : ∀ s l s', P s → guard s l → sys.next s l = some s' → R s s')
    {s t : State} (hrun : sys.Run guard s t) (hs : P s) : R s t := by
  induction hrun with
  | refl => exact hrefl _
  | step hr hg hn ih => exact htrans _ _ _ ih (hstep _ _ _ (hr.preserves hP hs) hg hn)

/-! ### Schedules -/

variable (sys)

/-- Run a list of labels; `none` as soon as one of them is not enabled. -/
def exec (s : State) : List Label → Option State
  | [] => some s
  | l :: ls => (sys.next s l).bind fun s' => exec s' ls

variable {sys}

/-- A schedule that runs to its end is a run; labels that always meet the guard make it a run
    under that guard. -/
theorem guarded_run_of_exec {s t : State} {ls : List Label} (hg : ∀ l ∈ ls, ∀ s, guard s l)
    (h : sys.exec s ls = some t) : sys.Run guard s t := by
  induction ls generalizing s with
  | nil =>
    obtain rfl : s = t := by simpa [exec] using h
    exact .refl s
  | cons l ls ih =>
    obtain ⟨s', hn, hrest⟩ := bind_eq_some_iff.mp h
    refine Run.cons (hg l mem_cons_self s) hn (ih ?_ hrest)
    intro l' hl'
    exact hg l' (mem_cons_of_mem _ hl')

/-- Run a list of labels as long as each step meets the guard. -/
def execWhile (sys : System State Label) (guard : State → Label → Prop)
    [∀ s l, Decidable (guard s l)] (s : State) : List Label → Option State
  | [] => some s
  | l :: ls =>
    if guard s l then (sys.next s l).bind fun s' => execWhile sys guard s' ls else none

theorem run_of_execWhile [∀ s l, Decidable (guard s l)] {s t : State} {ls : List Label}
    (h : sys.execWhile guard s ls = some t) : sys.Run guard s t := by
  induction ls generalizing s with
  | nil =>
    obtain rfl : s = t := by simpa [execWhile] using h
    exact .refl s
  | cons l ls ih =>
    unfold execWhile at h
    split at h
    · next hg =>
      obtain ⟨s', hn, hrest⟩ := bind_eq_some_iff.mp h
      exact Run.cons hg hn (ih hrest)
    · cases h

/-- A guarded schedule is run for what its last state shows. -/
theorem exists_reachable_of_execWhile [∀ s l, Decidable (guard s l)] {β : Type*} {f : State → β}
    {s : State} {ls : List Label} {b : β} (h : (sys.execWhile guard s ls).map f = some b)
    (hinit : sys.init s) : ∃ t, sys.Reachable guard t ∧ f t = b := by
  obtain ⟨t, ht, hshown⟩ := map_eq_some_iff.mp h
  exact ⟨t, ⟨s, hinit, run_of_execWhile ht⟩, hshown⟩

theorem run_of_exec {s t : State} {ls : List Label} (h : sys.exec s ls = some t) :
    sys.Run anyStep s t :=
  guarded_run_of_exec (fun _ _ _ => trivial) h

theorem reachable_of_exec {s t : State} {ls : List Label} (hinit : sys.init s)
    (h : sys.exec s ls = some t) : sys.Reachable anyStep t :=
  ⟨s, hinit, run_of_exec h⟩

end System

end Codify.Framework
