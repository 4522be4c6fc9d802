import Mathlib.Data.List.Basic

/-! # Dictionaries in Insertion Order

    A dict is the list of its items in insertion order, looked up with
    `List.lookup`. Setting an existing key keeps its place.
-/

namespace Codify.Framework

open List

universe u v

abbrev OrderedDict (κ : Type u) (α : Type v) := List (κ × α)

namespace OrderedDict

variable {κ : Type u} {α : Type v} [DecidableEq κ]

/-- `d[key] = value`: in place when the key exists, else at the end. -/
def set : OrderedDict κ α → κ → α → OrderedDict κ α
  | [], key, value => [(key, value)]
  | (k, v) :: rest, key, value =>
    if k = key then (k, value) :: rest else (k, v) :: set rest key value

variable (d : OrderedDict κ α)

/-- `d.pop(key, None)`. -/
def erase (key : κ) : OrderedDict κ α := d.filter fun p => p.1 ≠ key

/-- `list(d)`. -/
def keys : List κ := d.map (·.1)

attribute [local simp] lookup_cons set

theorem lookup_set (key key' : κ) (value : α) :
    (d.set key value).lookup key' = if key' = key then some value else d.lookup key' := by
  induction d with
  | nil =>
    by_cases h : key' = key
    · simp [h]
    · simp [h, beq_false_of_ne h]
  | cons p rest ih =>
    obtain ⟨k, v⟩ := p
    by_cases hk : k = key
    · subst hk
      by_cases h : key' = k
      · simp [h]
      · simp [h, beq_false_of_ne h]
    · by_cases h : key' = k
      · subst h
        simp [hk]
      · simp [hk, beq_false_of_ne h, ih]

@[simp] theorem lookup_set_self (d : OrderedDict κ α) (key : κ) (value : α) :
    (d.set key value).lookup key = some value := by
  simp [lookup_set]

@[simp] theorem lookup_set_ne {key key' : κ} (h : key' ≠ key) (value : α) :
    (d.set key value).lookup key' = d.lookup key' := by
  simp [lookup_set, h]

theorem keys_set (key : κ) (value : α) :
    (d.set key value).keys = if key ∈ d.keys then d.keys else d.keys ++ [key] := by
  induction d with
  | nil => simp [keys]
  | cons p rest ih =>
    obtain ⟨k, v⟩ := p
    simp only [keys] at ih
    by_cases hk : k = key
    · simp [keys, hk]
    · by_cases hmem : key ∈ rest.map (·.1)
      · simp [keys, hk, ih, Ne.symm hk, hmem]
      · simp [keys, hk, ih, Ne.symm hk, hmem]

theorem nodup_keys_set {d : OrderedDict κ α} (h : d.keys.Nodup) (key : κ) (value : α) :
    (d.set key value).keys.Nodup := by
  rw [keys_set]
  split
  · exact h
  next hnew =>
  rw [nodup_append]
  refine ⟨h, by simp, ?_⟩
  rintro a ha b hb rfl
  obtain rfl := mem_singleton.mp hb
  exact hnew ha

section Lookup

variable {κ : Type u} {α : Type v} [BEq κ] [LawfulBEq κ]

theorem mem_of_lookup {d : OrderedDict κ α} {key : κ} {value : α}
    (h : d.lookup key = some value) : (key, value) ∈ d := by
  obtain ⟨l₁, l₂, hd, -⟩ := List.lookup_eq_some_iff.mp h
  rw [hd]
  simp

theorem lookup_eq_some_iff {d : OrderedDict κ α} (h : d.keys.Nodup) {key : κ} {value : α} :
    d.lookup key = some value ↔ (key, value) ∈ d := by
  induction d with
  | nil => simp
  | cons p rest ih =>
    obtain ⟨k, v⟩ := p
    simp only [keys, map_cons, nodup_cons] at h
    by_cases hk : key = k
    · subst hk
      have hnot : ∀ w, (key, w) ∉ rest := fun w hw => h.1 (mem_map.mpr ⟨_, hw, rfl⟩)
      simp [hnot, eq_comm]
    · simp [beq_false_of_ne hk, ih h.2, hk]

theorem lookup_perm {d d' : OrderedDict κ α} (h : d.keys.Nodup) (hperm : d.Perm d') (key : κ) :
    d.lookup key = d'.lookup key := by
  have h' : d'.keys.Nodup := (hperm.map _).nodup_iff.mp h
  apply Option.ext
  intro value
  rw [lookup_eq_some_iff h, lookup_eq_some_iff h', hperm.mem_iff]

end Lookup

end OrderedDict

end Codify.Framework
