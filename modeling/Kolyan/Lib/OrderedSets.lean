/-
# Inclusion of ordered sets

An extensional tree set is what it contains.  Inclusion is a test along its
elements, and two sets that include each other are one.
-/

import Mathlib

namespace OrderedSets

open Std

universe u

variable {α : Type u} {cmp : α → α → Ordering} [TransCmp cmp] [LawfulEqCmp cmp] {s t r : ExtTreeSet α cmp}

omit [LawfulEqCmp cmp] in
/-- Every element of the one set is in the other. -/
def isSubset (s t : ExtTreeSet α cmp) : Bool := s.toList.all fun a => t.contains a

theorem isSubset_iff : isSubset s t = true ↔ ∀ a ∈ s, a ∈ t := by
  rw [isSubset, List.all_eq_true]
  exact forall_congr' fun a => imp_congr ExtTreeSet.mem_toList ExtTreeSet.contains_iff_mem

theorem isSubset_refl : isSubset s s = true := isSubset_iff.2 fun _ h => h

theorem isSubset_trans (h : isSubset s t = true) (h' : isSubset t r = true) : isSubset s r = true :=
  isSubset_iff.2 fun a ha => isSubset_iff.1 h' a (isSubset_iff.1 h a ha)

theorem isSubset_antisymm (h : isSubset s t = true) (h' : isSubset t s = true) : s = t :=
  ExtTreeSet.ext_mem fun a => ⟨isSubset_iff.1 h a, isSubset_iff.1 h' a⟩

theorem isSubset_inter : isSubset r (s ∩ t) = true ↔ isSubset r s = true ∧ isSubset r t = true := by
  simp only [isSubset_iff, ExtTreeSet.mem_inter_iff]
  exact ⟨fun h => ⟨fun a ha => (h a ha).1, fun a ha => (h a ha).2⟩, fun h a ha => ⟨h.1 a ha, h.2 a ha⟩⟩

end OrderedSets
