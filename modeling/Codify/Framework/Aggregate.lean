import Mathlib.Algebra.BigOperators.Group.List.Basic
import Mathlib.Algebra.Order.Field.Rat

/-! # Aggregates

    The aggregate functions of SQL over a list of rows: NULL is `none`, and an
    aggregate skips it. A query reads its rows as a bag (`OfBag`), and it may read
    less than a row holds (`Reads`).
-/

namespace Codify.Framework.Aggregate

open List

universe u v w

variable {α : Type u} {β : Type v} {κ : Type w}

/-! ### Functions -/

/-- `count(expr)`. -/
def count (f : α → Option β) (rows : List α) : Nat := (rows.filterMap f).length

/-- `coalesce(sum(case((p, 1), else_=0)), 0)`. -/
def countIf (p : α → Bool) (rows : List α) : Nat := rows.countP p

/-- `sum(expr)`; NULL without a value. -/
def sum [AddCommMonoid β] (f : α → Option β) (rows : List α) : Option β :=
  match rows.filterMap f with
  | [] => none
  | v :: vs => some (v :: vs).sum

/-- `avg(expr)`. -/
def avg (f : α → Option ℚ) (rows : List α) : Option ℚ := (sum f rows).map (· / count f rows)

/-- `GROUP BY key`: the aggregate of a group, if the group has a row. -/
def group [DecidableEq κ] (key : α → κ) (agg : List α → β) (rows : List α) (k : κ) : Option β :=
  match rows.filter (fun r => key r = k) with
  | [] => none
  | r :: rest => some (agg (r :: rest))

/-! ### Bags -/

def OfBag (agg : List α → β) : Prop := ∀ ⦃rows rows'⦄, List.Perm rows rows' → agg rows = agg rows'

def Reads (view : α → α) (agg : List α → β) : Prop := ∀ rows, agg (rows.map view) = agg rows

variable {f : α → Option β} {p : α → Bool} {view : α → α}

theorem ofBag_count (f : α → Option β) : OfBag (count f) :=
  fun _ _ h => (h.filterMap f).length_eq

theorem ofBag_countIf (p : α → Bool) : OfBag (countIf p) := fun _ _ h => h.countP_eq p

theorem ofBag_sum [AddCommMonoid β] (f : α → Option β) : OfBag (sum f) := by
  intro rows rows' h
  have hvalues := h.filterMap f
  unfold sum
  cases hrows : rows.filterMap f with
  | nil =>
    rw [hrows] at hvalues
    rw [nil_perm.mp hvalues]
  | cons v vs =>
    rw [hrows] at hvalues
    cases hrows' : rows'.filterMap f with
    | nil =>
      rw [hrows'] at hvalues
      cases perm_nil.mp hvalues
    | cons v' vs' =>
      rw [hrows'] at hvalues
      exact congrArg some hvalues.sum_eq

theorem ofBag_avg (f : α → Option ℚ) : OfBag (avg f) := by
  intro rows rows' h
  unfold avg
  rw [ofBag_sum f h, ofBag_count f h]

theorem ofBag_group [DecidableEq κ] {key : α → κ} {agg : List α → β} (hagg : OfBag agg) (k : κ) :
    OfBag fun rows => group key agg rows k := by
  intro rows rows' h
  have hgroup := h.filter fun r => decide (key r = k)
  show group key agg rows k = group key agg rows' k
  unfold group
  cases hrows : rows.filter fun r => decide (key r = k) with
  | nil =>
    rw [hrows] at hgroup
    rw [nil_perm.mp hgroup]
  | cons r rest =>
    rw [hrows] at hgroup
    cases hrows' : rows'.filter fun r => decide (key r = k) with
    | nil =>
      rw [hrows'] at hgroup
      cases perm_nil.mp hgroup
    | cons r' rest' =>
      rw [hrows'] at hgroup
      exact congrArg some (hagg hgroup)

theorem ofBag_filter {agg : List α → β} (hagg : OfBag agg) (p : α → Bool) :
    OfBag fun rows => agg (rows.filter p) := fun _ _ h => hagg (h.filter p)

/-! ### Views -/

theorem filterMap_view (hf : ∀ r, f (view r) = f r) (rows : List α) :
    (rows.map view).filterMap f = rows.filterMap f := by
  rw [filterMap_map]
  exact congrArg (rows.filterMap ·) (funext hf)

theorem reads_count (view : α → α) (hf : ∀ r, f (view r) = f r) : Reads view (count f) := by
  intro rows
  unfold count
  rw [filterMap_view hf]

theorem reads_sum (view : α → α) [AddCommMonoid β] (hf : ∀ r, f (view r) = f r) :
    Reads view (sum f) := by
  intro rows
  unfold sum
  rw [filterMap_view hf]

theorem reads_avg (view : α → α) {f : α → Option ℚ} (hf : ∀ r, f (view r) = f r) :
    Reads view (avg f) := by
  intro rows
  unfold avg
  rw [reads_sum view hf, reads_count view hf]

theorem reads_countIf (view : α → α) (hp : ∀ r, p (view r) = p r) :
    Reads view (countIf p) := by
  intro rows
  unfold countIf
  rw [countP_map]
  exact congrArg (rows.countP ·) (funext hp)

theorem filter_view (hp : ∀ r, p (view r) = p r) (rows : List α) :
    (rows.map view).filter p = (rows.filter p).map view := by
  rw [filter_map]
  exact congrArg (fun q => (rows.filter q).map view) (funext hp)

theorem reads_group (view : α → α) [DecidableEq κ] {key : α → κ} {agg : List α → β}
    (hkey : ∀ r, key (view r) = key r) (hagg : Reads view agg) (k : κ) :
    Reads view fun rows => group key agg rows k := by
  intro rows
  show group key agg (rows.map view) k = group key agg rows k
  unfold group
  rw [filter_view (fun r => by rw [hkey r])]
  cases rows.filter fun r => decide (key r = k) with
  | nil => rfl
  | cons r rest => exact congrArg some (hagg (r :: rest))

theorem reads_filter (view : α → α) {agg : List α → β} (hp : ∀ r, p (view r) = p r)
    (hagg : Reads view agg) :
    Reads view fun rows => agg (rows.filter p) := by
  intro rows
  show agg ((rows.map view).filter p) = agg (rows.filter p)
  rw [filter_view hp]
  exact hagg _

theorem eq_of_views {agg : List α → β} (hbag : OfBag agg) (hreads : Reads view agg)
    {rows rows' : List α} (h : (rows.map view).Perm (rows'.map view)) : agg rows = agg rows' := by
  rw [← hreads rows, ← hreads rows']
  exact hbag h

end Codify.Framework.Aggregate
