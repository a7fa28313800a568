/-
# Fail-closed checks in `Except`

A validator is a sequence of checks, each of which either lets the rest run or
ends it with an error.  `reject` is the check of a condition, `expect` the
check that a lookup found something.  The `_eq_ok` lemmas read a validator that
succeeded back as the list of facts it established, so that no later proof
unfolds one: `simp only [bind_eq_ok, reject_eq_ok, expect_eq_ok]`.
-/

import Mathlib

namespace Checks

universe u v

variable {ε : Type u} {α β : Type v}

/-- Fail with `e` when `c` holds. -/
def reject (c : Prop) [Decidable c] (e : ε) : Except ε Unit := if c then .error e else .ok ()

/-- The value that is there, or the error `e`. -/
def expect (o : Option α) (e : ε) : Except ε α :=
  match o with
  | some a => .ok a
  | none => .error e

/-- Run one check over a list, in order; the first failure is the answer. -/
def forEach (f : α → Except ε Unit) : List α → Except ε Unit
  | [] => .ok ()
  | a :: as => do f a; forEach f as

/-- Change the error of a computation. -/
def mapError {ε' : Type*} (f : ε → ε') : Except ε α → Except ε' α
  | .ok a => .ok a
  | .error e => .error (f e)

theorem bind_eq_ok {x : Except ε α} {f : α → Except ε β} {b : β} :
    (x >>= f) = .ok b ↔ ∃ a, x = .ok a ∧ f a = .ok b := by
  cases x with
  | error e => simp [bind, Except.bind]
  | ok a => simp [bind, Except.bind]

@[simp] theorem ok_bind (a : α) (f : α → Except ε β) : (Except.ok a >>= f) = f a := rfl

@[simp] theorem error_bind (e : ε) (f : α → Except ε β) : (Except.error e >>= f) = .error e := rfl

theorem pure_eq_ok {a b : α} : (pure a : Except ε α) = .ok b ↔ a = b := by
  simp [pure, Except.pure]

@[simp] theorem reject_eq_ok {c : Prop} [Decidable c] {e : ε} {u : Unit} :
    reject c e = .ok u ↔ ¬c := by
  unfold reject; split_ifs <;> simp_all

theorem reject_of_not {c : Prop} [Decidable c] {e : ε} (h : ¬c) : reject c e = .ok () := if_neg h

theorem reject_of {c : Prop} [Decidable c] {e : ε} (h : c) : reject c e = .error e := if_pos h

@[simp] theorem expect_eq_ok {o : Option α} {e : ε} {a : α} : expect o e = .ok a ↔ o = some a := by
  cases o <;> simp [expect]

@[simp] theorem expect_some (a : α) (e : ε) : expect (some a) e = .ok a := rfl

@[simp] theorem mapError_eq_ok {ε' : Type*} {f : ε → ε'} {x : Except ε α} {a : α} :
    mapError f x = .ok a ↔ x = .ok a := by
  cases x <;> simp [mapError]

section Errors

variable {e e' : ε}

theorem bind_ne_error {x : Except ε α} {f : α → Except ε β} (hx : x ≠ .error e) (hf : ∀ a, f a ≠ .error e) :
    (x >>= f) ≠ .error e := by
  cases x with
  | error e' => exact fun h => hx (congrArg _ (Except.error.inj h))
  | ok a => exact hf a

theorem reject_ne_error {c : Prop} [Decidable c] (h : e ≠ e') : reject c e ≠ .error e' := by
  unfold reject
  split_ifs <;> simp [h]

theorem expect_ne_error {o : Option α} (h : e ≠ e') : expect o e ≠ .error e' := by
  cases o <;> simp [expect, h]

theorem mapError_ne_error {ε' : Type*} {f : ε' → ε} {x : Except ε' α} (h : ∀ a, f a ≠ e) : mapError f x ≠ .error e := by
  cases x <;> simp [mapError, h]

end Errors

@[simp] theorem toOption_eq_some {x : Except ε α} {a : α} : x.toOption = some a ↔ x = .ok a := by
  cases x <;> simp [Except.toOption]

@[simp] theorem forEach_eq_ok {f : α → Except ε Unit} {as : List α} {u : Unit} :
    forEach f as = .ok u ↔ ∀ a ∈ as, f a = .ok () := by
  induction as with
  | nil => simp [forEach]
  | cons a as ih =>
    simp only [forEach, bind_eq_ok, ih, List.forall_mem_cons]
    exact ⟨fun ⟨_, h, h'⟩ => ⟨h, h'⟩, fun ⟨h, h'⟩ => ⟨(), h, h'⟩⟩

/-- A Boolean that computes to `true`; instances find it by unfolding. -/
class Certain (b : Bool) : Prop where
  eq : b = true

instance certain_true : Certain true := ⟨rfl⟩

end Checks
