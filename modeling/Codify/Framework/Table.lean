import Mathlib.Data.List.Nodup

/-! # Tables and Sessions

    * **Tables**: a table is the list of its committed rows, in insertion order,
      with a key column. Rows are found and updated by their key; rows are never
      deleted by the functions of this module.
    * **Sessions**: a session keeps the rows it has loaded as objects. A flush
      writes back a column only where the object differs from what was loaded,
      so a column that the session did not touch keeps its committed value, and
      one that it did touch overwrites whatever was committed in the meantime.
-/

namespace Codify.Framework

open List

universe u v

namespace Table

variable {α : Type u} {κ : Type v} (key : α → κ)

def KeyUnique (rows : List α) : Prop := (rows.map key).Nodup

section Lookup

variable [DecidableEq κ]

def row? (k : κ) (rows : List α) : Option α := rows.find? fun r => decide (key r = k)

def update (k : κ) (f : α → α) (rows : List α) : List α :=
  rows.map fun r => if key r = k then f r else r

end Lookup

variable {key} {k : κ} {f : α → α} {rows : List α}

theorem KeyUnique.eq_of_key_eq (h : KeyUnique key rows) {r r' : α} (hr : r ∈ rows)
    (hr' : r' ∈ rows) (hkey : key r = key r') : r = r' :=
  inj_on_of_nodup_map h hr hr' hkey

section Lookup

variable [DecidableEq κ]

theorem mem_of_row? {r : α} (h : row? key k rows = some r) : r ∈ rows ∧ key r = k := by
  refine ⟨mem_of_find?_eq_some h, ?_⟩
  simpa using find?_some h

theorem row?_eq_none_iff : row? key k rows = none ↔ ∀ r ∈ rows, key r ≠ k := by
  simp [row?, find?_eq_none]

theorem row?_update (hf : ∀ r, key (f r) = key r) (k' : κ) (rows : List α) :
    row? key k' (update key k f rows) =
      (row? key k' rows).map fun r => if key r = k then f r else r := by
  have hkey : ∀ r, key (if key r = k then f r else r) = key r := by
    intro r
    split
    · exact hf r
    · rfl
  unfold row? update
  rw [find?_map]
  congr 2
  funext r
  simp [hkey r]

theorem KeyUnique.row?_eq_some_iff (h : KeyUnique key rows) {r : α} :
    row? key k rows = some r ↔ r ∈ rows ∧ key r = k := by
  constructor
  · exact mem_of_row?
  · rintro ⟨hr, hk⟩
    cases hfind : row? key k rows with
    | none => exact absurd hk (row?_eq_none_iff.mp hfind r hr)
    | some r' =>
      obtain ⟨hr', hk'⟩ := mem_of_row? hfind
      rw [h.eq_of_key_eq hr' hr (hk'.trans hk.symm)]

end Lookup

theorem KeyUnique.map (h : KeyUnique key rows) (hf : ∀ r, key (f r) = key r) :
    KeyUnique key (rows.map f) := by
  have hkeys : (rows.map f).map key = rows.map key := by
    rw [map_map]
    exact map_congr_left fun r _ => hf r
  show ((rows.map f).map key).Nodup
  rw [hkeys]
  exact h

theorem KeyUnique.filter (h : KeyUnique key rows) (p : α → Bool) :
    KeyUnique key (rows.filter p) :=
  List.Nodup.sublist (List.Sublist.map _ filter_sublist) h

theorem KeyUnique.append (h : KeyUnique key rows) {r : α} (hnew : ∀ r' ∈ rows, key r' ≠ key r) :
    KeyUnique key (rows ++ [r]) := by
  show ((rows ++ [r]).map key).Nodup
  rw [map_append, nodup_append]
  refine ⟨h, by simp, ?_⟩
  intro k hk k' hk' heq
  obtain ⟨r', hr', rfl⟩ := mem_map.mp hk
  obtain rfl : k' = key r := by simpa using hk'
  exact hnew r' hr' heq

/-! ### Counted Rows -/

section Count

variable [DecidableEq κ] {p q : α → Bool}

theorem KeyUnique.countP_key_le_one (h : KeyUnique key rows) (k : κ) :
    rows.countP (fun r => decide (key r = k)) ≤ 1 := by
  have hcount : rows.countP (fun r => decide (key r = k)) = (rows.map key).count k := by
    rw [List.count, countP_map]
    refine countP_congr fun r _ => ?_
    simp
  rw [hcount]
  exact nodup_iff_count_le_one.mp h k

/-- A rewrite that brings rows under `p` only from `q`, or at one key, counts at most one more
    than `q` off that key. -/
theorem KeyUnique.countP_map_le (h : KeyUnique key rows) (k : κ)
    (hp : ∀ r ∈ rows, p (f r) = true → q r = true ∨ key r = k) :
    (rows.map f).countP p ≤ rows.countP (fun r => q r && !decide (key r = k)) + 1 := by
  rw [countP_map]
  have hsplit : rows.countP (p ∘ f) ≤ rows.countP (fun r => q r && !decide (key r = k)) +
        rows.countP (fun r => decide (key r = k)) := by
    clear h
    induction rows with
    | nil => simp
    | cons r rest ih =>
      have hrest := ih fun r' hr' => hp r' (mem_cons_of_mem _ hr')
      have hr := hp r mem_cons_self
      simp only [countP_cons, Function.comp_apply]
      by_cases hpr : p (f r) = true
      · rcases hr hpr with hq | hk
        · by_cases hk : key r = k <;> simp [hpr, hq, hk] <;> omega
        · simp [hpr, hk]
          omega
      · simp only [hpr]
        simp
        omega
  have hone := h.countP_key_le_one k
  omega

end Count

/-! ### Rewritten Rows -/

section Rewritten

variable {R : α → α → Prop} {rows' : List α}

theorem exists_of_mem_rewritten (h : List.Forall₂ R rows rows') {r' : α} (hr : r' ∈ rows') :
    ∃ r ∈ rows, R r r' := by
  induction h with
  | nil => cases hr
  | cons hrow _ ih =>
    rcases mem_cons.mp hr with rfl | hr
    · exact ⟨_, mem_cons_self, hrow⟩
    · obtain ⟨r, hr, hR⟩ := ih hr
      exact ⟨r, mem_cons_of_mem _ hr, hR⟩

theorem exists_rewritten_of_mem (h : List.Forall₂ R rows rows') {r : α} (hr : r ∈ rows) :
    ∃ r' ∈ rows', R r r' :=
  exists_of_mem_rewritten h.flip hr

theorem getLast?_rewritten (h : List.Forall₂ R rows rows') {r' : α}
    (hr : rows'.getLast? = some r') : ∃ r, rows.getLast? = some r ∧ R r r' := by
  induction h with
  | nil => cases hr
  | @cons r r'' rest rest' hrow hrest ih =>
    cases hrest with
    | nil =>
      obtain rfl : r'' = r' := by simpa using hr
      exact ⟨r, rfl, hrow⟩
    | cons _ _ =>
      rw [getLast?_cons_cons] at hr ⊢
      exact ih hr

end Rewritten

end Table

/-! ### Sessions -/

/-- One column after a flush: written only where the object was changed. -/
def flushColumn {β : Type u} [DecidableEq β] (loaded current committed : β) : β :=
  if current = loaded then committed else current

section Flush

variable {β : Type u} [DecidableEq β]

@[simp] theorem flushColumn_untouched (loaded committed : β) :
    flushColumn loaded loaded committed = committed := by
  simp [flushColumn]

/-- On a row that nobody changed since it was loaded, a flush writes the object. -/
@[simp] theorem flushColumn_fresh (loaded current : β) :
    flushColumn loaded current loaded = current := by
  unfold flushColumn
  split
  · next heq => exact heq.symm
  · rfl

theorem flushColumn_touched {loaded current : β} (h : current ≠ loaded) (committed : β) :
    flushColumn loaded current committed = current := by
  simp [flushColumn, h]

end Flush

end Codify.Framework
