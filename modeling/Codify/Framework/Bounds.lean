import Mathlib.Order.Bounds.Basic

/-! # Running Bounds

    A scan that keeps the greatest (or least) element seen so far, starting
    from "nothing seen". `GreatestOf S m` says that `m` is the greatest element
    of `S`, with `none` for the empty set; `raiseTo` is one step of the scan.
    The dual pair is `LeastOf` and `lowerTo`.
-/

namespace Codify.Framework

variable {α : Type*} [LinearOrder α]

/-- `m` is the greatest element of `S`, or `none` when `S` is empty. -/
def GreatestOf (S : Set α) : Option α → Prop
  | none => S = ∅
  | some m => IsGreatest S m

/-- `m` is the least element of `S`, or `none` when `S` is empty. -/
def LeastOf (S : Set α) : Option α → Prop
  | none => S = ∅
  | some m => IsLeast S m

/-- Replace the running maximum when it is unset or exceeded. -/
def raiseTo (x : α) : Option α → Option α
  | none => some x
  | some m => if m < x then some x else some m

/-- Replace the running minimum when it is unset or undercut. -/
def lowerTo (x : α) : Option α → Option α
  | none => some x
  | some m => if x < m then some x else some m

theorem GreatestOf.raiseTo {S : Set α} {m : Option α} (h : GreatestOf S m) (x : α) :
    GreatestOf (insert x S) (raiseTo x m) := by
  cases m with
  | none =>
    obtain rfl : S = ∅ := h
    simp [Framework.raiseTo, GreatestOf, IsGreatest, upperBounds]
  | some m =>
    obtain ⟨hmem, hub⟩ := h
    simp only [Framework.raiseTo]
    split
    · rename_i hlt
      refine ⟨Set.mem_insert x S, ?_⟩
      rintro y (rfl | hy)
      · exact le_rfl
      · exact (hub hy).trans hlt.le
    · rename_i hnlt
      refine ⟨Set.mem_insert_of_mem x hmem, ?_⟩
      rintro y (rfl | hy)
      · exact not_lt.mp hnlt
      · exact hub hy

theorem LeastOf.lowerTo {S : Set α} {m : Option α} (h : LeastOf S m) (x : α) :
    LeastOf (insert x S) (lowerTo x m) :=
  @GreatestOf.raiseTo αᵒᵈ _ S m h x

theorem GreatestOf.forall_le_iff {S : Set α} {m : Option α} (h : GreatestOf S m) (t : α) :
    (∀ y, m = some y → y ≤ t) ↔ ∀ x ∈ S, x ≤ t := by
  cases m with
  | none =>
    obtain rfl : S = ∅ := h
    simp
  | some m =>
    constructor
    · intro hle x hx
      exact (h.2 hx).trans (hle m rfl)
    · rintro hall y hy
      cases hy
      exact hall m h.1

theorem LeastOf.forall_le_iff {S : Set α} {m : Option α} (h : LeastOf S m) (t : α) :
    (∀ y, m = some y → t ≤ y) ↔ ∀ x ∈ S, t ≤ x := by
  cases m with
  | none =>
    obtain rfl : S = ∅ := h
    simp
  | some m =>
    constructor
    · intro hle x hx
      exact (hle m rfl).trans (h.2 hx)
    · rintro hall y hy
      cases hy
      exact hall m h.1

end Codify.Framework
