/-
# Machines fed piece by piece

A machine that takes its input one element at a time: a step gives outputs and
the next state, or an error that ends the machine.  Feeding a list and then
another is feeding both at once (`feed_append`), so how an input is cut into
pieces makes no difference (`feedPieces_eq`).
-/

import Mathlib

namespace Feeding

variable {σ β α ε : Type*} (step : σ → β → Except ε (σ × List α))

/-- Feed a list: the outputs, and the state after it or the error that ended it. -/
def feed : σ → List β → List α × Except ε σ
  | s, [] => ([], .ok s)
  | s, b :: bs =>
      match step s b with
      | .error e => ([], .error e)
      | .ok (s', as) => ((feed s' bs).map (as ++ ·) id)

/-- Feed one list after another; an error ends the machine. -/
def feedPieces : σ → List (List β) → List α × Except ε σ
  | s, [] => ([], .ok s)
  | s, piece :: pieces =>
      match feed step s piece with
      | (as, .error e) => (as, .error e)
      | (as, .ok s') => (feedPieces s' pieces).map (as ++ ·) id

variable {step} {s s' : σ} {as bs : List α} {e : ε} {xs ys : List β}

theorem feed_append_error (h : feed step s xs = (as, .error e)) :
    feed step s (xs ++ ys) = (as, .error e) := by
  induction xs generalizing s as with
  | nil => simp [feed] at h
  | cons x xs ih =>
    rw [List.cons_append, feed]
    rw [feed] at h
    cases hx : step s x with
    | error e' => simpa [hx] using h
    | ok r =>
      simp only [hx, Prod.map, Prod.mk.injEq] at h ⊢
      obtain ⟨rfl, hrest⟩ := h
      rw [ih (Prod.ext rfl hrest)]
      exact ⟨rfl, rfl⟩

/-- **Feeding a list goes on where feeding its first part stopped.** -/
theorem feed_append (h : feed step s xs = (as, .ok s')) :
    feed step s (xs ++ ys) = (feed step s' ys).map (as ++ ·) id := by
  induction xs generalizing s as with
  | nil =>
    obtain ⟨rfl, rfl⟩ : [] = as ∧ s = s' := by simpa [feed] using h
    rfl
  | cons x xs ih =>
    rw [List.cons_append, feed]
    rw [feed] at h
    cases hx : step s x with
    | error e' => simp [hx] at h
    | ok r =>
      simp only [hx, Prod.map, Prod.mk.injEq] at h ⊢
      obtain ⟨rfl, hrest⟩ := h
      rw [ih (Prod.ext rfl hrest)]
      simp [Prod.map]

theorem feedPieces_eq (pieces : List (List β)) :
    feedPieces step s pieces = feed step s pieces.flatten := by
  induction pieces generalizing s with
  | nil => rfl
  | cons piece pieces ih =>
    rw [feedPieces, List.flatten_cons]
    match hpiece : feed step s piece with
    | (as, .error e) => exact (feed_append_error hpiece).symm
    | (as, .ok s') => rw [feed_append hpiece, ← ih]

end Feeding
