/-
# Acyclic relations that grow by edges

A relation is acyclic when no node reaches itself along one step or more.  A
program that keeps a graph acyclic adds edges out of one node at a time, after
checking that none of the new targets reaches that node;
`acyclic_addEdges_iff` says that this check is exact.  A node no edge points
at is not reachable from any other node, so edges out of a new node need no
check (`not_reach_of_no_edge_to`).  On a finite set an acyclic relation
has a member without successors in the set (`Acyclic.exists_sink`).
-/

import Mathlib

namespace Acyclicity

open Relation

variable {α : Type*}

/-- No node reaches itself. -/
def Acyclic (r : α → α → Prop) : Prop := ∀ a, ¬TransGen r a a

/-- The edges of `r`, and edges out of `x` to every node of `D`. -/
def AddEdges (r : α → α → Prop) (x : α) (D : Set α) (a b : α) : Prop := r a b ∨ (a = x ∧ b ∈ D)

variable {r r' : α → α → Prop} {x : α} {D : Set α}

theorem Acyclic.mono (h : Acyclic r') (hsub : ∀ a b, r a b → r' a b) : Acyclic r :=
  fun a ha => h a (TransGen.mono hsub a a ha)

theorem acyclic_of_rank (rank : α → ℕ) (h : ∀ a b, r a b → rank b < rank a) : Acyclic r := by
  have hpath : ∀ {a b}, TransGen r a b → rank b < rank a := by
    intro a b hab
    induction hab with
    | single hab => exact h _ _ hab
    | tail _ hbc ih => exact (h _ _ hbc).trans ih
  intro a ha
  have hlt := hpath ha
  omega

/-- **Edges out of `x` do not help to reach `x`.** -/
theorem reach_of_addEdges {a : α} (h : ReflTransGen (AddEdges r x D) a x) : ReflTransGen r a x := by
  induction h using ReflTransGen.head_induction_on with
  | refl => exact .refl
  | head hstep _ ih =>
    rcases hstep with hr | ⟨rfl, _⟩
    · exact .head hr ih
    · exact .refl

theorem reach_of_not_reach {a b : α} (hx : ¬ReflTransGen r a x)
    (h : ReflTransGen (AddEdges r x D) a b) : ReflTransGen r a b := by
  induction h with
  | refl => exact .refl
  | tail _ hstep ih =>
    rcases hstep with hr | ⟨rfl, _⟩
    · exact ih.tail hr
    · exact absurd ih hx

theorem path_addEdges {a b : α} (h : TransGen (AddEdges r x D) a b) :
    TransGen r a b ∨
      ReflTransGen (AddEdges r x D) a x ∧ ∃ y ∈ D, ReflTransGen (AddEdges r x D) y b := by
  induction h with
  | single hab =>
    rcases hab with hr | ⟨rfl, hD⟩
    · exact Or.inl (.single hr)
    · exact Or.inr ⟨.refl, _, hD, .refl⟩
  | tail hab hbc ih =>
    rcases ih with hpath | ⟨hax, y, hy, hyb⟩
    · rcases hbc with hr | ⟨rfl, hD⟩
      · exact Or.inl (hpath.tail hr)
      · exact Or.inr ⟨hab.to_reflTransGen, _, hD, .refl⟩
    · exact Or.inr ⟨hax, y, hy, hyb.tail hbc⟩

/-- **Adding edges out of `x` keeps a relation acyclic exactly when no new
target reaches `x`.** -/
theorem acyclic_addEdges_iff :
    Acyclic (AddEdges r x D) ↔ Acyclic r ∧ ∀ y ∈ D, ¬ReflTransGen r y x := by
  constructor
  · intro h
    refine ⟨h.mono fun a b hab => Or.inl hab, fun y hy hyx => h x ?_⟩
    have hback : ReflTransGen (AddEdges r x D) y x :=
      ReflTransGen.mono (fun a b hab => Or.inl hab) y x hyx
    exact .head' (Or.inr ⟨rfl, hy⟩) hback
  · rintro ⟨hr, hD⟩ a ha
    rcases path_addEdges ha with hpath | ⟨hax, y, hy, hya⟩
    · exact hr a hpath
    · exact hD y hy (reach_of_addEdges (hya.trans hax))

theorem not_reach_of_no_edge_to {n a : α} (hn : ∀ b, ¬r b n) (hne : a ≠ n) : ¬ReflTransGen r a n := by
  intro h
  rcases h.cases_tail with rfl | ⟨b, _, hbn⟩
  · exact hne rfl
  · exact hn b hbn

/-- **A finite set has a member without successors in the set**, when the
relation is acyclic. -/
theorem Acyclic.exists_sink (h : Acyclic r) (S : Finset α) (hS : S.Nonempty) :
    ∃ a ∈ S, ∀ b ∈ S, ¬r a b := by
  have hstrict : IsStrictOrder α (flip (TransGen r)) :=
    { irrefl := fun a ha => h a ha
      trans := fun a b c hab hbc => hbc.trans hab }
  have hwf : (S : Set α).WellFoundedOn (flip (TransGen r)) := S.finite_toSet.wellFoundedOn
  obtain ⟨a, _, hmin⟩ := hwf.has_min Set.univ ⟨⟨_, hS.choose_spec⟩, trivial⟩
  exact ⟨a, a.2, fun b hb hab => hmin ⟨b, hb⟩ trivial (.single hab)⟩

end Acyclicity
