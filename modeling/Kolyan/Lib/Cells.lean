/-
# Machines made of cells

A family of cells, one for each key, in which a call is answered by the cell of its key
and changes no other: `cells`.  What a history answers to the calls with one key is what
that cell alone answers to them (`cells_answers`), so calls with other keys make no
difference (`cells_answers_filter`).
-/

import Kolyan.Lib.Histories

namespace Machine

variable {O : Type} {A : O → Type} {K C : Type} [DecidableEq K]

/-- One cell for each key. -/
def cells (key : O → K) (M : Machine O A C) : Machine O A (K → C) where
  step s o := ((M.step (s (key o)) o).1, Function.update s (key o) (M.step (s (key o)) o).2)

variable {key : O → K} {M : Machine O A C} {s : K → C} {os : List O}

theorem cells_step_key (o : O) : ((cells key M).step s o).2 (key o) = (M.step (s (key o)) o).2 :=
  Function.update_self ..

theorem cells_step_other {o : O} {k : K} (h : key o ≠ k) : ((cells key M).step s o).2 k = s k :=
  Function.update_of_ne h.symm ..

theorem cells_after (k : K) :
    (cells key M).after s os k = M.after (s k) (os.filter fun o => key o = k) := by
  induction os generalizing s with
  | nil => rfl
  | cons o os ih =>
    rw [after_cons, ih]
    by_cases h : key o = k
    · subst h
      rw [List.filter_cons_of_pos (by simp), after_cons, cells_step_key]
    · rw [List.filter_cons_of_neg (by simpa using h), cells_step_other h]

theorem cells_answers (k : K) :
    ((cells key M).answers s os).filter (fun a => key a.1 = k) =
      M.answers (s k) (os.filter fun o => key o = k) := by
  induction os generalizing s with
  | nil => rfl
  | cons o os ih =>
    rw [answers]
    by_cases h : key o = k
    · subst h
      rw [List.filter_cons_of_pos (by simp), List.filter_cons_of_pos (by simp), answers, ih, cells_step_key]
      rfl
    · rw [List.filter_cons_of_neg (by simpa using h), List.filter_cons_of_neg (by simpa using h), ih,
        cells_step_other h]

theorem cells_answers_alone {k : K} (h : ∀ o ∈ os, key o = k) :
    (cells key M).answers s os = M.answers (s k) os := by
  induction os generalizing s with
  | nil => rfl
  | cons o os ih =>
    obtain rfl : key o = k := h o List.mem_cons_self
    rw [answers, answers, ih fun o' ho' => h o' (List.mem_cons_of_mem o ho'), cells_step_key]
    rfl

theorem cells_answers_filter (k : K) :
    ((cells key M).answers s os).filter (fun a => key a.1 = k) =
      (cells key M).answers s (os.filter fun o => key o = k) := by
  rw [cells_answers, cells_answers_alone fun o ho => by simpa using (List.mem_filter.1 ho).2]

end Machine
