import Mathlib.Logic.Relation

/-! # Commit Graphs

    Commits name their parents and never change. A ref is a commit or absent; it
    contains the ancestors of its commit. A move of a ref keeps the history when
    the ref contains afterwards all that it contained before.

    The graph is any parent function: that a real one has no cycle is not used.
-/

namespace Codify.Framework

universe u

/-- Commits and their parents. -/
structure CommitGraph (C : Type u) where
  parents : C → List C

namespace CommitGraph

variable {C : Type u} (g : CommitGraph C)

/-- `a` is `d` or reachable from it. -/
def Ancestor (a d : C) : Prop := Relation.ReflTransGen (fun x y => x ∈ g.parents y) a d

def Contains (ref : Option C) (c : C) : Prop := ∃ tip, ref = some tip ∧ g.Ancestor c tip

/-- Nothing that was reachable from the ref is lost. -/
def KeepsHistory (old new : Option C) : Prop := ∀ c, g.Contains old c → g.Contains new c

variable {g}

theorem Ancestor.refl (c : C) : g.Ancestor c c := Relation.ReflTransGen.refl

theorem Ancestor.trans {a b c : C} (hab : g.Ancestor a b) (hbc : g.Ancestor b c) :
    g.Ancestor a c :=
  Relation.ReflTransGen.trans hab hbc

theorem ancestor_of_parent {a d : C} (h : a ∈ g.parents d) : g.Ancestor a d :=
  Relation.ReflTransGen.single h

theorem Ancestor.contains {a d : C} (h : g.Ancestor a d) : g.Contains (some d) a :=
  ⟨d, rfl, h⟩

theorem not_contains_none (c : C) : ¬ g.Contains none c := by
  intro h
  obtain ⟨tip, htip, -⟩ := h
  cases htip

theorem keepsHistory_of_ancestor {old new : C} (h : g.Ancestor old new) :
    g.KeepsHistory (some old) (some new) := by
  intro c hc
  obtain ⟨tip, htip, hanc⟩ := hc
  cases htip
  exact (hanc.trans h).contains

theorem keepsHistory_none (new : Option C) : g.KeepsHistory none new := by
  intro c hc
  exact absurd hc (not_contains_none c)

end CommitGraph

end Codify.Framework
