import Mathlib.Data.List.Induction
import Mathlib.Order.Lattice

/-! # Sorted Maps

    A map over ordered keys, held as the list of its entries in the order of the keys. Each map
    is one list, so that two maps with the same entries are equal.
-/

namespace Codify.Framework

open List

abbrev SortedMap (κ α : Type*) := List (κ × α)

namespace SortedMap

variable {κ α : Type*} [LinearOrder κ]

/-- `m[key] = value`. -/
def set : SortedMap κ α → κ → α → SortedMap κ α
  | [], key, value => [(key, value)]
  | (key', value') :: rest, key, value =>
    if key < key' then (key, value) :: (key', value') :: rest
    else if key = key' then (key, value) :: rest
    else (key', value') :: set rest key value

/-- The entries are written one after the other. -/
def setAll (m : SortedMap κ α) (entries : List (κ × α)) : SortedMap κ α :=
  entries.foldl (fun m p => set m p.1 p.2) m

/-- The map of entries, of which the last one of a key counts. -/
def ofList (entries : List (κ × α)) : SortedMap κ α := setAll [] entries

def Sorted (m : SortedMap κ α) : Prop := m.Pairwise fun p q => p.1 < q.1

variable {m : SortedMap κ α} {key key' : κ} {value : α} {p : κ × α}

theorem mem_set (h : p ∈ m.set key value) : p = (key, value) ∨ p ∈ m := by
  induction m with
  | nil => exact .inl (mem_singleton.mp h)
  | cons q rest ih =>
    unfold set at h
    split at h
    · exact mem_cons.mp h
    · split at h
      · exact (mem_cons.mp h).imp_right (mem_cons_of_mem q)
      · rcases mem_cons.mp h with rfl | h
        · exact .inr mem_cons_self
        · exact (ih h).imp_right (mem_cons_of_mem q)

theorem Sorted.set (h : Sorted m) (key : κ) (value : α) : Sorted (m.set key value) := by
  induction m with
  | nil => exact pairwise_singleton _ _
  | cons q rest ih =>
    obtain ⟨hfirst, hrest⟩ := pairwise_cons.mp h
    unfold SortedMap.set
    split
    · next hlt =>
      refine pairwise_cons.mpr ⟨fun p hp => ?_, h⟩
      rcases mem_cons.mp hp with rfl | hp
      · exact hlt
      · exact hlt.trans (hfirst p hp)
    · next hge =>
      split
      · next heq =>
        subst heq
        exact pairwise_cons.mpr ⟨hfirst, hrest⟩
      · next hne =>
        refine pairwise_cons.mpr ⟨fun p hp => ?_, ih hrest⟩
        rcases mem_set hp with rfl | hp
        · exact lt_of_le_of_ne (not_lt.mp hge) fun heq => hne heq.symm
        · exact hfirst p hp

theorem Sorted.setAll (h : Sorted m) (entries : List (κ × α)) : Sorted (m.setAll entries) := by
  induction entries generalizing m with
  | nil => exact h
  | cons p entries ih => exact ih (h.set p.1 p.2)

theorem sorted_ofList (entries : List (κ × α)) : Sorted (ofList entries) :=
  Sorted.setAll List.Pairwise.nil entries

theorem mem_setAll {entries : List (κ × α)} (h : p ∈ m.setAll entries) : p ∈ m ∨ p ∈ entries := by
  induction entries generalizing m with
  | nil => exact .inl h
  | cons q entries ih =>
    rcases ih h with h | h
    · rcases mem_set h with rfl | h
      · exact .inr mem_cons_self
      · exact .inl h
    · exact .inr (mem_cons_of_mem q h)

theorem mem_ofList {entries : List (κ × α)} (h : p ∈ ofList entries) : p ∈ entries :=
  (mem_setAll h).resolve_left not_mem_nil

theorem set_of_last (h : ∀ p ∈ m, p.1 < key) : m.set key value = m ++ [(key, value)] := by
  induction m with
  | nil => rfl
  | cons q rest ih =>
    have hlt := h q mem_cons_self
    unfold set
    rw [if_neg (not_lt.mpr hlt.le), if_neg hlt.ne', ih fun p hp => h p (mem_cons_of_mem q hp)]
    rfl

theorem ofList_eq_self (h : Sorted m) : ofList m = m := by
  induction m using reverseRecOn with
  | nil => rfl
  | append_singleton m p ih =>
    obtain ⟨hm, _, hlast⟩ := pairwise_append.mp h
    have hset : ofList (m ++ [p]) = (ofList m).set p.1 p.2 := foldl_append
    rw [hset, ih hm, set_of_last fun q hq => hlast q hq p mem_cons_self]

end SortedMap

end Codify.Framework
