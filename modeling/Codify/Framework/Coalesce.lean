import Mathlib.Data.List.Basic

/-! # Joining Neighbours

    A list in which each maximal run of elements that belong together is one element.
-/

namespace Codify.Framework

open List

/-- Which neighbours are joined, and what becomes of them. What two elements become is joined with
    its neighbours as they were. -/
structure Joining (α : Type) where
  joins : α → α → Bool
  join : α → α → α
  join_left : ∀ a b c, joins a b = true → joins (join a b) c = joins b c
  join_right : ∀ a b c, joins b c = true → joins a (join b c) = joins a b
  join_assoc : ∀ a b c, join (join a b) c = join a (join b c)

namespace Joining

variable {α : Type} (J : Joining α)

/-- The next element, with what came before it in reverse. -/
def push : List α → α → List α
  | [], a => [a]
  | last :: before, a => if J.joins last a then J.join last a :: before else a :: last :: before

/-- Each maximal run as one element. -/
def coalesce (xs : List α) : List α := (xs.foldl J.push []).reverse

theorem push_push (before : List α) {a b : α} (h : J.joins a b = true) :
    J.push (J.push before a) b = J.push before (J.join a b) := by
  cases before with
  | nil => simp [push, h]
  | cons last before =>
    by_cases hlast : J.joins last a = true
    · have hleft := J.join_left last a b hlast
      have hright := J.join_right last a b h
      simp [push, hlast, hleft, hright, h, J.join_assoc]
    · have hright := J.join_right last a b h
      simp [push, hlast, hright, h]

/-- What follows does not tell lists with the same runs apart. -/
theorem coalesce_append {xs ys : List α} (h : J.coalesce xs = J.coalesce ys) (zs : List α) :
    J.coalesce (xs ++ zs) = J.coalesce (ys ++ zs) := by
  unfold coalesce at h ⊢
  rw [foldl_append, foldl_append, reverse_injective h]

/-- Two elements of a run are like the one that they become. -/
theorem coalesce_join (xs : List α) {a b : α} (h : J.joins a b = true) :
    J.coalesce (xs ++ [a] ++ [b]) = J.coalesce (xs ++ [J.join a b]) := by
  unfold coalesce
  simp only [foldl_append, foldl_cons, foldl_nil, J.push_push _ h]

end Joining

end Codify.Framework
