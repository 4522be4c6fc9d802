import Mathlib.Data.Set.Insert
import Mathlib.Data.List.Basic

/-! # Opening and Closing Events

    In a log, some events open a bracket under a key and some close one. A log is
    balanced when every opening event is followed by exactly one closing event
    with its key. A program that writes the log keeps the set of the keys that
    are open; `Holds` ties the set to the log, with one rule for each kind of
    event.

    * **Rules**: `Holds.other`, `Holds.opening`, `Holds.closing`,
      `Holds.closingAll`.
    * **Result**: a log that holds no key is balanced (`Holds.balanced`).
-/

namespace Codify.Framework

open List

universe u v

/-- Which events open and which close, and under which key. -/
structure Brackets (ε : Type u) (κ : Type v) where
  opens : ε → Option κ
  closes : ε → Option κ

namespace Brackets

variable {ε : Type u} {κ : Type v} (b : Brackets ε κ)

def Opened (log : List ε) (k : κ) : Prop := ∃ e ∈ log, b.opens e = some k

instance [DecidableEq κ] (log : List ε) (k : κ) : Decidable (b.Opened log k) :=
  inferInstanceAs (Decidable (∃ e ∈ log, b.opens e = some k))

section Opened

variable {b} {log : List ε} {e : ε} {k : κ}

theorem split_append_singleton {before after : List ε} {e' : ε}
    (h : log ++ [e] = before ++ e' :: after) :
    (before = log ∧ e' = e ∧ after = []) ∨
      ∃ rest, after = rest ++ [e] ∧ log = before ++ e' :: rest := by
  rcases eq_nil_or_concat after with rfl | ⟨rest, last, rfl⟩
  · left
    obtain ⟨hbefore, hlast⟩ := append_inj' h rfl
    exact ⟨hbefore.symm, (singleton_inj.mp hlast).symm, rfl⟩
  · right
    have h' : log ++ [e] = (before ++ e' :: rest) ++ [last] := by
      rw [h]
      simp
    obtain ⟨hlog, hlast⟩ := append_inj' h' rfl
    obtain rfl := singleton_inj.mp hlast
    exact ⟨rest, by simp, hlog⟩

theorem Opened.append (h : b.Opened log k) (more : List ε) : b.Opened (log ++ more) k := by
  obtain ⟨e, he, ho⟩ := h
  exact ⟨e, mem_append_left _ he, ho⟩

theorem opened_append_singleton :
    b.Opened (log ++ [e]) k ↔ b.Opened log k ∨ b.opens e = some k := by
  constructor
  · rintro ⟨e', he', ho⟩
    rcases mem_append.mp he' with h | h
    · exact .inl ⟨e', h, ho⟩
    · obtain rfl := mem_singleton.mp h
      exact .inr ho
  · rintro (h | h)
    · exact h.append _
    · exact ⟨e, by simp, h⟩

theorem opened_append_others {more : List ε} (hmore : ∀ e ∈ more, b.opens e = none) :
    b.Opened (log ++ more) k ↔ b.Opened log k := by
  constructor
  · rintro ⟨e, he, hopens⟩
    rcases mem_append.mp he with he | he
    · exact ⟨e, he, hopens⟩
    · rw [hmore e he] at hopens
      cases hopens
  · exact fun h => h.append more

end Opened

/-! ### Closing What Was Opened -/

section ClosesOpened

/-- Every closing event comes after one that opens its key. -/
def ClosesOpened (log : List ε) : Prop :=
  ∀ before e after k, log = before ++ e :: after → b.closes e = some k → b.Opened before k

variable {b} {log : List ε} {e : ε}

theorem closesOpened_nil : b.ClosesOpened [] := by
  intro before e after k hsplit
  simp at hsplit

theorem ClosesOpened.append (h : b.ClosesOpened log)
    (he : ∀ k, b.closes e = some k → b.Opened log k) : b.ClosesOpened (log ++ [e]) := by
  intro before e' after k hsplit hcloses
  rcases split_append_singleton hsplit with ⟨rfl, rfl, -⟩ | ⟨rest, -, hlog⟩
  · exact he k hcloses
  · exact h before e' rest k hlog hcloses

theorem ClosesOpened.append_all (h : b.ClosesOpened log) {more : List ε}
    (hmore : ∀ e ∈ more, ∀ k, b.closes e = some k → b.Opened log k) :
    b.ClosesOpened (log ++ more) := by
  induction more generalizing log with
  | nil => simpa using h
  | cons e rest ih =>
    have hfirst : b.ClosesOpened (log ++ [e]) := h.append (hmore e mem_cons_self)
    have hrest := ih hfirst fun e' he' k hk =>
      (hmore e' (mem_cons_of_mem _ he') k hk).append [e]
    simpa using hrest

theorem ClosesOpened.others (h : b.ClosesOpened log) {more : List ε}
    (hmore : ∀ e ∈ more, b.closes e = none) : b.ClosesOpened (log ++ more) := by
  apply h.append_all
  intro e he k hk
  rw [hmore e he] at hk
  cases hk

end ClosesOpened

/-! ### Balance -/

variable [DecidableEq κ]

def closings (k : κ) (log : List ε) : Nat := log.countP fun e => decide (b.closes e = some k)

/-- Every opening event is followed by exactly one closing event with its key. -/
def Balanced (log : List ε) : Prop :=
  ∀ before e after k, log = before ++ e :: after → b.opens e = some k → b.closings k after = 1

/-- The keys in `held` are open at the end of the log, all others that were opened are closed
    once. -/
structure Holds (log : List ε) (held : Set κ) : Prop where
  opened : ∀ k ∈ held, b.Opened log k
  waiting : ∀ before e after k, log = before ++ e :: after → b.opens e = some k → k ∈ held →
    b.closings k after = 0
  done : ∀ before e after k, log = before ++ e :: after → b.opens e = some k → k ∉ held →
    b.closings k after = 1

variable {b} {log : List ε} {held : Set κ} {e : ε} {k : κ}

theorem closings_append (l₁ l₂ : List ε) :
    b.closings k (l₁ ++ l₂) = b.closings k l₁ + b.closings k l₂ := by
  simp [closings]

theorem closings_singleton :
    b.closings k [e] = if b.closes e = some k then 1 else 0 := by
  by_cases h : b.closes e = some k <;> simp [closings, h]

theorem holds_nil : b.Holds [] ∅ where
  opened := by simp
  waiting := by simp
  done := by simp

theorem Holds.other (h : b.Holds log held) (hopens : b.opens e = none)
    (hcloses : ∀ k, b.closes e = some k → ¬ b.Opened log k) : b.Holds (log ++ [e]) held where
  opened := fun k hk => (h.opened k hk).append _
  waiting := by
    intro before e' after k hsplit ho hk
    rcases split_append_singleton hsplit with ⟨-, rfl, -⟩ | ⟨rest, rfl, hlog⟩
    · rw [hopens] at ho
      cases ho
    · have hopened : b.Opened log k := ⟨e', by simp [hlog], ho⟩
      have hne : b.closes e ≠ some k := fun hc => hcloses k hc hopened
      rw [closings_append, closings_singleton, if_neg hne, h.waiting before e' rest k hlog ho hk]
  done := by
    intro before e' after k hsplit ho hk
    rcases split_append_singleton hsplit with ⟨-, rfl, -⟩ | ⟨rest, rfl, hlog⟩
    · rw [hopens] at ho
      cases ho
    · have hopened : b.Opened log k := ⟨e', by simp [hlog], ho⟩
      have hne : b.closes e ≠ some k := fun hc => hcloses k hc hopened
      rw [closings_append, closings_singleton, if_neg hne, h.done before e' rest k hlog ho hk]

/-- An opened key is held, as it is already if it was opened before. -/
theorem Holds.opening (h : b.Holds log held) (hopens : b.opens e = some k)
    (hcloses : b.closes e = none) (hold : b.Opened log k → k ∈ held) :
    b.Holds (log ++ [e]) (insert k held) where
  opened := by
    intro k' hk'
    rcases Set.mem_insert_iff.mp hk' with rfl | hk'
    · exact ⟨e, by simp, hopens⟩
    · exact (h.opened k' hk').append _
  waiting := by
    intro before e' after k' hsplit ho hk'
    rcases split_append_singleton hsplit with ⟨-, -, rfl⟩ | ⟨rest, rfl, hlog⟩
    · rfl
    · have hmem : k' ∈ held := by
        rcases Set.mem_insert_iff.mp hk' with rfl | hk'
        · exact hold ⟨e', by simp [hlog], ho⟩
        · exact hk'
      rw [closings_append, closings_singleton, hcloses, h.waiting before e' rest k' hlog ho hmem]
      simp
  done := by
    intro before e' after k' hsplit ho hk'
    rcases split_append_singleton hsplit with ⟨-, rfl, -⟩ | ⟨rest, rfl, hlog⟩
    · rw [hopens] at ho
      cases ho
      exact absurd (Set.mem_insert k held) hk'
    · rw [closings_append, closings_singleton, hcloses,
        h.done before e' rest k' hlog ho fun hmem => hk' (Set.mem_insert_of_mem k hmem)]
      simp

theorem Holds.closing (h : b.Holds log held) (hopens : b.opens e = none)
    (hcloses : b.closes e = some k) (hk : k ∈ held) : b.Holds (log ++ [e]) (held \ {k}) where
  opened := fun k' hk' => (h.opened k' hk'.1).append _
  waiting := by
    intro before e' after k' hsplit ho hk'
    rcases split_append_singleton hsplit with ⟨-, rfl, -⟩ | ⟨rest, rfl, hlog⟩
    · rw [hopens] at ho
      cases ho
    · have hne : some k ≠ some k' := fun heq => hk'.2 (Option.some.inj heq).symm
      rw [closings_append, closings_singleton, hcloses, if_neg hne,
        h.waiting before e' rest k' hlog ho hk'.1]
  done := by
    intro before e' after k' hsplit ho hk'
    rcases split_append_singleton hsplit with ⟨-, rfl, -⟩ | ⟨rest, rfl, hlog⟩
    · rw [hopens] at ho
      cases ho
    · rw [closings_append, closings_singleton, hcloses]
      by_cases hkk : k' = k
      · subst hkk
        rw [if_pos rfl, h.waiting before e' rest k' hlog ho hk]
      · have hne : some k ≠ some k' := fun heq => hkk (Option.some.inj heq).symm
        rw [if_neg hne, h.done before e' rest k' hlog ho fun hmem => hk' ⟨hmem, hkk⟩]

theorem Holds.closingAll (h : b.Holds log held) {more : List ε} {keys : List κ}
    (hopens : ∀ e ∈ more, b.opens e = none) (hcloses : more.map b.closes = keys.map some)
    (hnodup : keys.Nodup) (hkeys : ∀ k ∈ keys, k ∈ held) :
    b.Holds (log ++ more) {k | k ∈ held ∧ k ∉ keys} := by
  induction more generalizing log held keys with
  | nil =>
    obtain rfl : keys = [] := map_eq_nil_iff.mp hcloses.symm
    simpa using h
  | cons e rest ih =>
    cases keys with
    | nil => cases hcloses
    | cons k more =>
      simp only [map_cons, List.cons.injEq] at hcloses
      obtain ⟨hnew, hmore⟩ := nodup_cons.mp hnodup
      have hfirst := h.closing (hopens e mem_cons_self) hcloses.1 (hkeys k mem_cons_self)
      have hheld : ∀ k' ∈ more, k' ∈ held \ {k} := by
        intro k' hk'
        refine ⟨hkeys k' (mem_cons_of_mem _ hk'), ?_⟩
        rintro rfl
        exact hnew hk'
      have hrest := ih hfirst (fun e' he' => hopens e' (mem_cons_of_mem _ he')) hcloses.2 hmore
        hheld
      have hsame : {k' | k' ∈ held \ {k} ∧ k' ∉ more} = {k' | k' ∈ held ∧ k' ∉ k :: more} := by
        ext k'
        simp only [Set.mem_ofPred_eq, Set.mem_sdiff, Set.mem_singleton_iff, mem_cons, not_or]
        exact and_assoc
      rw [hsame] at hrest
      simpa using hrest

theorem Holds.others (h : b.Holds log held) {more : List ε}
    (hmore : ∀ e ∈ more, b.opens e = none ∧ b.closes e = none) : b.Holds (log ++ more) held := by
  induction more generalizing log with
  | nil => simpa using h
  | cons e rest ih =>
    obtain ⟨hopens, hcloses⟩ := hmore e mem_cons_self
    have hfirst : b.Holds (log ++ [e]) held :=
      h.other hopens fun k hk => by rw [hcloses] at hk; cases hk
    have hrest := ih hfirst fun e' he' => hmore e' (mem_cons_of_mem _ he')
    simpa using hrest

theorem Holds.balanced (h : b.Holds log ∅) : b.Balanced log := by
  intro before e after k hsplit ho
  exact h.done before e after k hsplit ho (Set.notMem_empty k)

end Brackets

end Codify.Framework
