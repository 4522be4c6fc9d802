import Codify.Framework.OrderedDict
import Mathlib.Algebra.Order.Ring.Int
import Mathlib.Algebra.Order.BigOperators.Group.Finset

/-! # Tallies

    A ledger keeps, for each owner and each key, the greatest count that has been
    credited. `counted_credits` reads it back from the list of all credits, and
    `sum_ledger` adds up one key over all owners. A ledger that enters every owner
    is described by what it keeps of the credits (`Keeps`).
-/

namespace Codify.Framework

open List Option OrderedDict

universe u v

namespace Tally

variable {ι : Type u} {κ : Type v} [DecidableEq ι] [DecidableEq κ]

def raise (counts : OrderedDict κ Int) (p : κ × Int) : OrderedDict κ Int :=
  counts.set p.1 (max ((counts.lookup p.1).getD 0) p.2)

theorem lookup_foldl_raise {values : OrderedDict κ Int} (h : values.keys.Nodup)
    (counts : OrderedDict κ Int) (k : κ) :
    (values.foldl raise counts).lookup k =
      match values.lookup k with
      | some n => some (max ((counts.lookup k).getD 0) n)
      | none => counts.lookup k := by
  induction values generalizing counts with
  | nil => rfl
  | cons p rest ih =>
    obtain ⟨key, n⟩ := p
    simp only [OrderedDict.keys, map_cons, nodup_cons] at h
    rw [foldl_cons, ih h.2, raise]
    by_cases hk : k = key
    · subst hk
      have hnone : rest.lookup k = none := by
        rw [List.lookup_eq_none_iff]
        intro p hp
        simp only [bne_iff_ne, ne_eq]
        rintro rfl
        exact h.1 (List.mem_map_of_mem hp)
      simp [hnone]
    · simp [lookup_cons, beq_false_of_ne hk, hk]

variable (ledger : OrderedDict ι (OrderedDict κ Int)) (credits : List (ι × OrderedDict κ Int))
  (p : ι × OrderedDict κ Int)

/-- Counts are credited to an owner; no counts leave no trace. -/
def credit : OrderedDict ι (OrderedDict κ Int) :=
  if p.2.isEmpty then ledger
  else ledger.set p.1 (p.2.foldl raise ((ledger.lookup p.1).getD []))

variable (i : ι)

/-- What the ledger says of an owner under a key. -/
def counted (k : κ) : Option Int := (ledger.lookup i).bind (·.lookup k)

theorem counted_credit {p : ι × OrderedDict κ Int} (h : p.2.keys.Nodup)
    (ledger : OrderedDict ι (OrderedDict κ Int)) (i : ι) (k : κ) :
    counted (credit ledger p) i k =
      match if p.1 = i then p.2.lookup k else none with
      | some n => some (max ((counted ledger i k).getD 0) n)
      | none => counted ledger i k := by
  obtain ⟨j, values⟩ := p
  unfold credit
  dsimp only
  split
  · next hempty =>
    rw [List.isEmpty_iff.mp hempty]
    split
    · next hsome => split at hsome <;> cases hsome
    · rfl
  · unfold counted
    rw [lookup_set]
    by_cases hij : j = i
    · subst hij
      have hold : ((ledger.lookup j).getD []).lookup k = (ledger.lookup j).bind (·.lookup k) := by
        cases ledger.lookup j <;> rfl
      rw [if_pos rfl, if_pos rfl, bind_some, lookup_foldl_raise h, hold]
    · rw [if_neg (Ne.symm hij), if_neg hij]

/-- The values that are credited to an owner under a key. -/
def values (k : κ) : List Int := credits.filterMap fun p => if p.1 = i then p.2.lookup k else none

def highest (k : κ) : Int := (values credits i k).foldr max 0

theorem highest_nonneg (k : κ) : 0 ≤ highest credits i k := by
  unfold highest
  induction values credits i k with
  | nil => exact le_rfl
  | cons n rest ih => exact le_max_of_le_right ih

theorem le_highest {credits : List (ι × OrderedDict κ Int)} {i : ι} {k : κ} {n : Int}
    (h : n ∈ values credits i k) : n ≤ highest credits i k := by
  unfold highest
  generalize values credits i k = counts at h
  induction counts with
  | nil => cases h
  | cons m rest ih =>
    rcases mem_cons.mp h with rfl | hmem
    · exact le_max_left _ _
    · exact le_max_of_le_right (ih hmem)

theorem highest_eq_zero {credits : List (ι × OrderedDict κ Int)} {i : ι} {k : κ}
    (h : ∀ n ∈ values credits i k, n = 0) : highest credits i k = 0 := by
  unfold highest
  generalize values credits i k = counts at h
  induction counts with
  | nil => rfl
  | cons m rest ih =>
    obtain ⟨rfl, hrest⟩ := forall_mem_cons.mp h
    rw [foldr_cons, ih hrest, max_self]

theorem highest_mono {credits more : List (ι × OrderedDict κ Int)} (h : credits.Sublist more)
    (i : ι) (k : κ) : highest credits i k ≤ highest more i k := by
  have hvalues : (values credits i k).Sublist (values more i k) := h.filterMap _
  unfold highest
  generalize values credits i k = few at hvalues
  generalize values more i k = many at hvalues
  induction hvalues with
  | slnil => exact le_rfl
  | cons n _ ih => exact le_max_of_le_right ih
  | cons_cons n _ ih => exact max_le_max_left n ih

/-- **Credits**: the ledger keeps the greatest count. -/
theorem counted_foldl {credits : List (ι × OrderedDict κ Int)}
    (h : ∀ p ∈ credits, p.2.keys.Nodup) {ledger : OrderedDict ι (OrderedDict κ Int)} {i : ι}
    {k : κ} (hledger : 0 ≤ (counted ledger i k).getD 0) :
    counted (credits.foldl credit ledger) i k =
      if values credits i k = [] then counted ledger i k
      else some (max ((counted ledger i k).getD 0) (highest credits i k)) := by
  induction credits generalizing ledger with
  | nil => rfl
  | cons p rest ih =>
    obtain ⟨hp, hrest⟩ := forall_mem_cons.mp h
    have hfirst := counted_credit hp ledger i k
    rw [foldl_cons]
    cases hvalue : (if p.1 = i then p.2.lookup k else none) with
    | none =>
      have hsame : values (p :: rest) i k = values rest i k := by simp [values, hvalue]
      rw [hvalue] at hfirst
      rw [ih hrest (by rw [hfirst]; exact hledger), hfirst, highest, highest, hsame]
    | some n =>
      have hcons : values (p :: rest) i k = n :: values rest i k := by simp [values, hvalue]
      rw [hvalue] at hfirst
      have hpositive : 0 ≤ (counted (credit ledger p) i k).getD 0 := by
        rw [hfirst]
        exact le_max_of_le_left hledger
      rw [ih hrest hpositive, hfirst, highest, highest, hcons, if_neg (cons_ne_nil _ _),
        foldr_cons, getD_some]
      split
      · next hnil =>
        rw [hnil, foldr_nil, max_comm n 0, ← max_assoc, max_eq_left hledger]
      · rw [max_assoc]

theorem counted_credits {credits : List (ι × OrderedDict κ Int)}
    (h : ∀ p ∈ credits, p.2.keys.Nodup) (i : ι) (k : κ) :
    counted (credits.foldl credit []) i k =
      if values credits i k = [] then none else some (highest credits i k) := by
  rw [counted_foldl h le_rfl]
  split
  · rfl
  · rw [show (counted ([] : OrderedDict ι (OrderedDict κ Int)) i k).getD 0 = 0 from rfl,
      max_eq_right (highest_nonneg credits i k)]

theorem getD_counted_credits {credits : List (ι × OrderedDict κ Int)}
    (h : ∀ p ∈ credits, p.2.keys.Nodup) (i : ι) (k : κ) :
    (counted (credits.foldl credit []) i k).getD 0 = highest credits i k := by
  rw [counted_credits h]
  split
  · next hnil => simp [highest, hnil]
  · rfl

theorem keys_credits :
    (credits.foldl credit []).keys.Nodup ∧
      ∀ i ∈ (credits.foldl credit []).keys, ∃ p ∈ credits, p.1 = i := by
  have hgeneral : ∀ (credits : List (ι × OrderedDict κ Int))
      (ledger : OrderedDict ι (OrderedDict κ Int)), ledger.keys.Nodup →
      (credits.foldl credit ledger).keys.Nodup ∧ ∀ i ∈ (credits.foldl credit ledger).keys,
        i ∈ ledger.keys ∨ ∃ p ∈ credits, p.1 = i := by
    intro credits
    induction credits with
    | nil =>
      intro ledger hledger
      exact ⟨hledger, fun i hi => .inl hi⟩
    | cons p rest ih =>
      intro ledger hledger
      have hcredit : (credit ledger p).keys.Nodup ∧ ∀ i ∈ (credit ledger p).keys,
          i ∈ ledger.keys ∨ p.1 = i := by
        unfold credit
        split
        · exact ⟨hledger, fun i hi => .inl hi⟩
        · refine ⟨nodup_keys_set hledger _ _, fun i hi => ?_⟩
          rw [keys_set] at hi
          split at hi
          · exact .inl hi
          · rcases mem_append.mp hi with hold | hnew
            · exact .inl hold
            · exact .inr (mem_singleton.mp hnew).symm
      obtain ⟨hnodup, hkeys⟩ := ih _ hcredit.1
      refine ⟨hnodup, fun i hi => ?_⟩
      rcases hkeys i hi with hfirst | ⟨q, hq, rfl⟩
      · rcases hcredit.2 i hfirst with hold | rfl
        · exact .inl hold
        · exact .inr ⟨p, mem_cons_self, rfl⟩
      · exact .inr ⟨q, mem_cons_of_mem _ hq, rfl⟩
  obtain ⟨hnodup, hkeys⟩ := hgeneral credits [] nodup_nil
  refine ⟨hnodup, fun i hi => ?_⟩
  rcases hkeys i hi with hold | hcredit
  · cases hold
  · exact hcredit

theorem keys_counts : ∀ p ∈ credits.foldl credit [], p.2.keys.Nodup := by
  have hraise : ∀ (values counts : OrderedDict κ Int), counts.keys.Nodup →
      (values.foldl raise counts).keys.Nodup := by
    intro values
    induction values with
    | nil => exact fun _ h => h
    | cons p rest ih => exact fun counts h => ih _ (nodup_keys_set h _ _)
  have hgeneral : ∀ (credits : List (ι × OrderedDict κ Int))
      (ledger : OrderedDict ι (OrderedDict κ Int)),
      (∀ i counts, ledger.lookup i = some counts → counts.keys.Nodup) →
      ∀ i counts, (credits.foldl credit ledger).lookup i = some counts → counts.keys.Nodup := by
    intro credits
    induction credits with
    | nil => exact fun _ h => h
    | cons p rest ih =>
      intro ledger hledger
      refine ih _ ?_
      intro i counts hcounts
      unfold credit at hcounts
      split at hcounts
      · exact hledger i counts hcounts
      · rw [lookup_set] at hcounts
        split at hcounts
        · cases hcounts
          refine hraise _ _ ?_
          cases hold : ledger.lookup p.1 with
          | none => exact nodup_nil
          | some old => exact hledger _ _ hold
        · exact hledger i counts hcounts
  intro p hp
  refine hgeneral credits [] (by simp) p.1 p.2 ?_
  exact (OrderedDict.lookup_eq_some_iff (keys_credits credits).1).mpr hp

/-- **Sum**: one key over a ledger is the sum over any set that holds its owners. -/
theorem sum_ledger {ledger : OrderedDict ι (OrderedDict κ Int)} (h : ledger.keys.Nodup) (k : κ)
    {owners : Finset ι} (howners : ∀ i ∈ ledger.keys, i ∈ owners) :
    (ledger.map fun p => (p.2.lookup k).getD 0).sum =
      owners.sum fun i => (counted ledger i k).getD 0 := by
  have hvalue : ∀ p ∈ ledger, (p.2.lookup k).getD 0 = (counted ledger p.1 k).getD 0 := by
    intro p hp
    rw [counted, (OrderedDict.lookup_eq_some_iff h).mpr hp, bind_some]
  have hkeys : (ledger.map fun p => (p.2.lookup k).getD 0).sum =
      (ledger.keys.map fun i => (counted ledger i k).getD 0).sum := by
    rw [map_congr_left hvalue, OrderedDict.keys, List.map_map]
    rfl
  have hsubset : ledger.keys.toFinset ⊆ owners := fun i hi => howners i (List.mem_toFinset.mp hi)
  rw [hkeys, ← sum_toFinset _ h]
  refine Finset.sum_subset hsubset ?_
  intro i _ hi
  have hnone : ledger.lookup i = none := by
    rw [List.lookup_eq_none_iff]
    intro p hp
    simp only [bne_iff_ne, ne_eq]
    rintro rfl
    exact hi (List.mem_toFinset.mpr (List.mem_map_of_mem hp))
  simp [counted, hnone]

/-! ### Ledgers That Enter Every Owner -/

/-- Counts are credited to an owner, who is entered also without any. -/
def enter : OrderedDict ι (OrderedDict κ Int) :=
  ledger.set p.1 (p.2.foldl raise ((ledger.lookup p.1).getD []))

/-- A ledger keeps, of a list of credits, the greatest count of each owner under each key. -/
structure Keeps (ledger : OrderedDict ι (OrderedDict κ Int))
    (credits : List (ι × OrderedDict κ Int)) : Prop where
  owners : ledger.keys.Nodup
  credited : ∀ i ∈ ledger.keys, i ∈ credits.map (·.1)
  counts : ∀ p ∈ ledger, p.2.keys.Nodup
  counted : ∀ i k, counted ledger i k =
    if values credits i k = [] then none else some (highest credits i k)

theorem keeps_nil : Keeps ([] : OrderedDict ι (OrderedDict κ Int)) [] where
  owners := nodup_nil
  credited := by simp [OrderedDict.keys]
  counts := by simp
  counted := fun _ _ => rfl

theorem values_append_singleton (k : κ) :
    values (credits ++ [p]) i k =
      values credits i k ++ (if p.1 = i then p.2.lookup k else none).toList := by
  unfold values
  rw [filterMap_append]
  cases hvalue : (if p.1 = i then p.2.lookup k else none) with
  | none => simp [hvalue]
  | some n => simp [hvalue]

theorem highest_append_singleton (credits : List (ι × OrderedDict κ Int))
    (p : ι × OrderedDict κ Int) (i : ι) (k : κ) :
    highest (credits ++ [p]) i k =
      match if p.1 = i then p.2.lookup k else none with
      | some n => max (highest credits i k) n
      | none => highest credits i k := by
  unfold highest
  rw [values_append_singleton]
  cases (if p.1 = i then p.2.lookup k else none) with
  | none => simp
  | some n =>
    have hlast : ∀ l : List Int, (l ++ [n]).foldr max 0 = max (l.foldr max 0) n := by
      intro l
      induction l with
      | nil => exact max_comm n 0
      | cons m rest ih => rw [cons_append, foldr_cons, foldr_cons, ih, max_assoc]
    exact hlast _

theorem nodup_keys_foldl_raise (values : OrderedDict κ Int) {counts : OrderedDict κ Int}
    (h : counts.keys.Nodup) : (values.foldl raise counts).keys.Nodup := by
  induction values generalizing counts with
  | nil => exact h
  | cons p rest ih => exact ih (nodup_keys_set h _ _)

/-- Entering a report keeps each count at its largest value. -/
theorem Keeps.enter {ledger : OrderedDict ι (OrderedDict κ Int)}
    {credits : List (ι × OrderedDict κ Int)} (h : Keeps ledger credits)
    {p : ι × OrderedDict κ Int} (hp : p.2.keys.Nodup) :
    Keeps (enter ledger p) (credits ++ [p]) := by
  constructor
  · exact nodup_keys_set h.owners _ _
  · intro i hi
    rw [map_append, mem_append]
    rw [Tally.enter, keys_set] at hi
    split at hi
    · exact .inl (h.credited i hi)
    · rcases mem_append.mp hi with hold | hnew
      · exact .inl (h.credited i hold)
      · exact .inr (by simpa using hnew)
  · intro q hq
    obtain ⟨j, counts⟩ := q
    have hlookup := (OrderedDict.lookup_eq_some_iff (nodup_keys_set h.owners p.1 _)).mpr hq
    rw [lookup_set] at hlookup
    split at hlookup
    · cases hlookup
      apply nodup_keys_foldl_raise
      cases hold : ledger.lookup p.1 with
      | none => exact nodup_nil
      | some old => exact h.counts _ (mem_of_lookup hold)
    · exact h.counts _ (mem_of_lookup hlookup)
  · intro i k
    have hcounted := h.counted i k
    rw [values_append_singleton, highest_append_singleton]
    unfold Tally.counted Tally.enter at *
    rw [lookup_set]
    by_cases hi : i = p.1
    · subst hi
      have hold : ((ledger.lookup p.1).getD []).lookup k = (ledger.lookup p.1).bind (·.lookup k) := by
        cases ledger.lookup p.1 <;> rfl
      rw [if_pos rfl, if_pos rfl, bind_some, lookup_foldl_raise hp, hold, hcounted]
      cases p.2.lookup k with
      | none => simp
      | some n =>
        simp only [toList_some, append_eq_nil_iff, cons_ne_nil, and_false, if_false, some_inj]
        split
        · next hnil => simp [highest, hnil]
        · rfl
    · rw [if_neg hi, if_neg (Ne.symm hi), hcounted]
      simp

theorem Keeps.sum {ledger : OrderedDict ι (OrderedDict κ Int)}
    {credits : List (ι × OrderedDict κ Int)} (h : Keeps ledger credits) (k : κ) :
    (ledger.map fun p => (p.2.lookup k).getD 0).sum =
      (credits.map (·.1)).toFinset.sum fun i => highest credits i k := by
  rw [sum_ledger h.owners k fun i hi => List.mem_toFinset.mpr (h.credited i hi)]
  refine Finset.sum_congr rfl fun i _ => ?_
  rw [h.counted]
  split
  · next hnil => simp [highest, hnil]
  · rfl

theorem Keeps.lookup_eq_none_iff {ledger : OrderedDict ι (OrderedDict κ Int)}
    {credits : List (ι × OrderedDict κ Int)} (h : Keeps ledger credits) (k : κ) :
    (∀ p ∈ ledger, p.2.lookup k = none) ↔ ∀ p ∈ credits, p.2.lookup k = none := by
  constructor
  · intro hall p hp
    by_contra hsome
    obtain ⟨n, hn⟩ := ne_none_iff_exists'.mp hsome
    have hmem : n ∈ values credits p.1 k :=
      mem_filterMap.mpr ⟨p, hp, (if_pos rfl).trans hn⟩
    have hcounted := h.counted p.1 k
    rw [if_neg (ne_nil_of_mem hmem)] at hcounted
    obtain ⟨counts, hcounts, hlookup⟩ := bind_eq_some_iff.mp hcounted
    rw [hall _ (mem_of_lookup hcounts)] at hlookup
    cases hlookup
  · intro hall p hp
    have hnil : values credits p.1 k = [] := by
      refine filterMap_eq_nil_iff.mpr fun q hq => ?_
      split
      · exact hall q hq
      · rfl
    have hcounted := h.counted p.1 k
    rw [if_pos hnil, Tally.counted, (OrderedDict.lookup_eq_some_iff h.owners).mpr hp] at hcounted
    exact hcounted

end Tally

end Codify.Framework
