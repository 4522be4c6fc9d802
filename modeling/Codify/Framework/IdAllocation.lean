import Mathlib.Data.List.Induction
import Mathlib.Data.List.Nodup

/-! # Two Sources of Ids

    Ids come from a local counter or are given by the caller, in one name space.
    A local id is the counter plus one; a given id lifts the counter to itself.

    A local id is always new. A given id is new unless the counter has walked
    onto it before, which is a property of the order of the requests alone:
    `ids_nodup_iff`.
-/

namespace Codify.Framework

open List

/-- Where the id of a request comes from. -/
inductive IdSource where
  /-- The local counter. -/
  | fresh
  /-- The caller, who asks for the id `n`. -/
  | given (n : Nat)
  deriving DecidableEq, Repr

namespace IdSource

variable (c : Nat)

/-- The id of a request at counter `c`. -/
def id : IdSource → Nat
  | .fresh => c + 1
  | .given n => n

def advance : IdSource → Nat
  | .fresh => c + 1
  | .given n => max c n

variable (requests : List IdSource)

def counter : Nat := requests.foldl advance c

def ids (c : Nat) : List IdSource → List Nat
  | [] => []
  | r :: rest => r.id c :: ids (r.advance c) rest

def givens : List Nat :=
  requests.filterMap fun
    | .fresh => none
    | .given n => some n

def freshCount : Nat := requests.count .fresh

/-- Where the counter stands at the least after these requests: at `c` when there are none, at
    the last id when that one was given. -/
def base : Option Nat :=
  match requests.getLast? with
  | none => some c
  | some .fresh => none
  | some (.given n) => some n

/-- Among these requests, the local ones after some point walk the counter up to `n` while every
    given id is below `n`. -/
def WalksTo (n : Nat) : Prop :=
  ∃ a b rest m, requests = a ++ b ++ rest ∧ (∀ k ∈ givens (a ++ b), k < n) ∧
    base c a = some m ∧ n ≤ m + freshCount b

/-- A given id comes after the counter has walked onto it. -/
def Overtaken : Prop :=
  ∃ before after n, requests = before ++ .given n :: after ∧ WalksTo c before n

/-! ### Equations -/

variable {c n : Nat} {a b requests : List IdSource}

theorem counter_append : counter c (a ++ b) = counter (counter c a) b := foldl_append

theorem counter_snoc (r : IdSource) : counter c (a ++ [r]) = r.advance (counter c a) := by
  rw [counter_append]
  rfl

theorem ids_append : ids c (a ++ b) = ids c a ++ ids (counter c a) b := by
  induction a generalizing c with
  | nil => rfl
  | cons r a ih =>
    show r.id c :: ids (r.advance c) (a ++ b) = _
    rw [ih]
    rfl

theorem ids_snoc (r : IdSource) : ids c (a ++ [r]) = ids c a ++ [r.id (counter c a)] := by
  rw [ids_append]
  rfl

theorem givens_append : givens (a ++ b) = givens a ++ givens b := filterMap_append

theorem mem_givens_iff : n ∈ givens requests ↔ .given n ∈ requests := by
  unfold givens
  rw [mem_filterMap]
  constructor
  · rintro ⟨r, hr, hn⟩
    cases r with
    | fresh => cases hn
    | given k =>
      cases hn
      exact hr
  · intro h
    exact ⟨_, h, rfl⟩

/-! ### The Counter -/

theorem le_advance (r : IdSource) : c ≤ r.advance c := by
  cases r with
  | fresh => exact Nat.le_succ c
  | given n => exact Nat.le_max_left c n

theorem id_le_advance (r : IdSource) : r.id c ≤ r.advance c := by
  cases r with
  | fresh => exact Nat.le_refl _
  | given n => exact Nat.le_max_right c n

theorem le_counter : c ≤ counter c requests := by
  induction requests generalizing c with
  | nil => exact Nat.le_refl c
  | cons r rest ih => exact Nat.le_trans (le_advance r) ih

theorem le_counter_of_mem (h : n ∈ ids c requests) : n ≤ counter c requests := by
  induction requests generalizing c with
  | nil => exact absurd h not_mem_nil
  | cons r rest ih =>
    rcases mem_cons.mp h with rfl | h
    · exact Nat.le_trans (id_le_advance r) le_counter
    · exact ih h

theorem add_freshCount_le_counter : c + freshCount requests ≤ counter c requests := by
  induction requests generalizing c with
  | nil => exact Nat.le_refl c
  | cons r rest ih =>
    have hrest := ih (c := r.advance c)
    show c + (r :: rest).count .fresh ≤ counter (r.advance c) rest
    unfold freshCount at hrest
    cases r with
    | fresh =>
      rw [count_cons_self]
      simp only [advance] at hrest ⊢
      omega
    | given n =>
      rw [count_cons_of_ne (by simp)]
      have := le_advance (c := c) (.given n)
      omega

theorem base_le_counter {m : Nat} (h : base c a = some m) : m ≤ counter c a := by
  rcases eq_nil_or_concat a with rfl | ⟨a, r, rfl⟩
  · exact Nat.le_of_eq (Option.some.inj h).symm
  · rw [concat_eq_append] at h ⊢
    rw [counter_snoc]
    unfold base at h
    rw [getLast?_concat] at h
    cases r with
    | fresh => cases h
    | given k =>
      cases h
      exact Nat.le_max_right _ _

/-- The counter is always reached by local steps from the start or from a given id. -/
theorem exists_walk (c : Nat) (requests : List IdSource) :
    ∃ a b m, requests = a ++ b ∧ base c a = some m ∧ counter c requests = m + freshCount b := by
  induction requests using reverseRecOn with
  | nil => exact ⟨[], [], c, rfl, rfl, rfl⟩
  | append_singleton rest r ih =>
    obtain ⟨a, b, m, hrest, hbase, hcounter⟩ := ih
    rw [counter_snoc]
    cases r with
    | fresh =>
      refine ⟨a, b ++ [.fresh], m, by rw [hrest, append_assoc], hbase, ?_⟩
      simp only [advance, freshCount, count_append, count_singleton_self] at hcounter ⊢
      omega
    | given n =>
      by_cases hn : counter c rest ≤ n
      · -- the given id takes over
        refine ⟨rest ++ [.given n], [], n, by simp, by simp [base], ?_⟩
        exact Nat.max_eq_right hn
      · refine ⟨a, b ++ [.given n], m, by rw [hrest, append_assoc], hbase, ?_⟩
        have hcount : freshCount (b ++ [.given n]) = freshCount b := by
          simp [freshCount, count_append]
        rw [hcount]
        simp only [advance]
        omega

/-- While every given id is below `n`, the counter comes up to `n` only over `n` itself. -/
theorem mem_ids_of_le_counter (hc : c < n) (hgivens : ∀ k ∈ givens requests, k < n)
    (hle : n ≤ counter c requests) : n ∈ ids c requests := by
  induction requests using reverseRecOn with
  | nil =>
    have hle' : n ≤ c := hle
    omega
  | append_singleton rest r ih =>
    rw [ids_snoc, mem_append]
    have hrest : ∀ k ∈ givens rest, k < n := by
      intro k hk
      apply hgivens
      rw [givens_append]
      exact mem_append_left _ hk
    by_cases hbefore : n ≤ counter c rest
    · exact .inl (ih hrest hbefore)
    · right
      rw [counter_snoc] at hle
      cases r with
      | fresh =>
        simp only [advance] at hle
        have heq : n = counter c rest + 1 := by omega
        exact mem_singleton.mpr heq
      | given k =>
        have hk : k < n := hgivens k (mem_givens_iff.mpr (by simp))
        simp only [advance] at hle
        omega

/-! ### When Ids Are New -/

theorem fresh_or_given_of_mem (h : n ∈ ids c requests) :
    n ∈ givens requests ∨
      ∃ a b, requests = a ++ .fresh :: b ∧ n = counter c a + 1 := by
  induction requests using reverseRecOn with
  | nil => exact absurd h not_mem_nil
  | append_singleton rest r ih =>
    rw [ids_snoc, mem_append] at h
    rcases h with h | h
    · rcases ih h with hgiven | ⟨a, b, rfl, hn⟩
      · exact .inl (givens_append ▸ mem_append_left _ hgiven)
      · exact .inr ⟨a, b ++ [r], by simp, hn⟩
    · cases r with
      | fresh => exact .inr ⟨rest, [], rfl, mem_singleton.mp h⟩
      | given k =>
        left
        rw [mem_singleton.mp h]
        exact mem_givens_iff.mpr (by simp [id])

/-- A given id that nobody gave before is taken exactly when the counter has walked to it. -/
theorem mem_ids_iff_walksTo (hc : c < n) (hnew : n ∉ givens requests) :
    n ∈ ids c requests ↔ WalksTo c requests n := by
  constructor
  · intro h
    obtain ⟨a, b, rfl, hn⟩ := (fresh_or_given_of_mem h).resolve_left hnew
    obtain ⟨a₁, a₂, m, hsplit, hbase, hcounter⟩ := exists_walk c (a ++ [.fresh])
    refine ⟨a₁, a₂, b, m, by rw [← hsplit]; simp, ?_, hbase, ?_⟩
    · intro k hk
      rw [← hsplit, givens_append, mem_append] at hk
      rcases hk with hk | hk
      · have hmem : k ∈ ids c a := by
          obtain ⟨x, y, rfl⟩ := append_of_mem (mem_givens_iff.mp hk)
          rw [ids_append]
          exact mem_append_right _ mem_cons_self
        have := le_counter_of_mem hmem
        omega
      · exact absurd hk not_mem_nil
    · rw [← hcounter, counter_snoc, hn]
      exact Nat.le_refl _
  · rintro ⟨a, b, rest, m, rfl, hgivens, hbase, hle⟩
    have hreach : n ≤ counter c (a ++ b) := by
      rw [counter_append]
      have h₁ := base_le_counter hbase
      have h₂ : counter c a + freshCount b ≤ counter (counter c a) b :=
        add_freshCount_le_counter
      omega
    rw [ids_append]
    exact mem_append_left _ (mem_ids_of_le_counter hc hgivens hreach)

/-- **Ids are pairwise distinct** exactly when no given id comes after the counter has walked
    onto it. -/
theorem ids_nodup_iff (hdistinct : (givens requests).Nodup)
    (habove : ∀ n ∈ givens requests, c < n) :
    (ids c requests).Nodup ↔ ¬ Overtaken c requests := by
  induction requests using reverseRecOn with
  | nil =>
    refine iff_of_true nodup_nil ?_
    rintro ⟨before, after, n, h, -⟩
    cases before <;> cases h
  | append_singleton rest r ih =>
    rw [givens_append] at hdistinct habove
    have hrest := ih (nodup_append.mp hdistinct).1 fun n hn => habove n (mem_append_left _ hn)
    rw [ids_snoc, nodup_append]
    -- a request overtaken in the longer list is the last one or was overtaken before
    have hover : Overtaken c (rest ++ [r]) ↔
        Overtaken c rest ∨ ∃ n, r = .given n ∧ WalksTo c rest n := by
      constructor
      · rintro ⟨before, after, n, hsplit, hwalk⟩
        rcases eq_nil_or_concat after with rfl | ⟨after, r', rfl⟩
        · obtain ⟨rfl, hr⟩ := append_inj' hsplit rfl
          exact .inr ⟨n, (List.cons.inj hr).1, hwalk⟩
        · rw [concat_eq_append, ← cons_append, ← append_assoc] at hsplit
          obtain ⟨rfl, -⟩ := append_inj' hsplit rfl
          exact .inl ⟨before, after, n, rfl, hwalk⟩
      · rintro (⟨before, after, n, rfl, hwalk⟩ | ⟨n, rfl, hwalk⟩)
        · exact ⟨before, after ++ [r], n, by simp, hwalk⟩
        · exact ⟨rest, [], n, rfl, hwalk⟩
    have hlast : (∀ x ∈ ids c rest, ∀ y ∈ [r.id (counter c rest)], x ≠ y) ↔
        ¬ ∃ n, r = .given n ∧ WalksTo c rest n := by
      cases r with
      | fresh =>
        refine iff_of_true ?_ (by rintro ⟨n, h, -⟩; cases h)
        intro x hx y hy
        have hle := le_counter_of_mem hx
        rw [mem_singleton.mp hy]
        show x ≠ counter c rest + 1
        omega
      | given n =>
        have hmem : n ∈ givens [.given n] := mem_givens_iff.mpr mem_cons_self
        have hnew : n ∉ givens rest := by
          intro hn
          exact (nodup_append.mp hdistinct).2.2 n hn n hmem rfl
        have hc := habove n (mem_append_right _ hmem)
        have hiff := mem_ids_iff_walksTo hc hnew
        constructor
        · rintro h ⟨k, hk, hwalk⟩
          obtain rfl := IdSource.given.inj hk
          exact h n (hiff.mpr hwalk) n mem_cons_self rfl
        · intro h x hx y hy hxy
          obtain rfl : y = n := mem_singleton.mp hy
          subst hxy
          exact h ⟨x, rfl, hiff.mp hx⟩
    rw [hlast, hover, hrest, not_or]
    constructor
    · rintro ⟨h₁, -, h₂⟩
      exact ⟨h₁, h₂⟩
    · rintro ⟨h₁, h₂⟩
      exact ⟨h₁, nodup_singleton _, h₂⟩

end IdSource

end Codify.Framework
