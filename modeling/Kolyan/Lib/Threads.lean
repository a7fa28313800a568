/-
# Threads that share a world

A program of a concurrent system is a tree of questions: each asks its
environment for one atomic operation (`ask`) and continues with the answer.
Between two questions of one program any number of operations of the others
may run, so a program is proved in a `Setting`: what its operations do (`act`),
what it relies on of the others (`rely`), and which operation it may ask for in
which world (`allow`).  `Holds E p Q s` says that from the world `s` the program
`p` asks only for what it is allowed and, if it ends, ends with an answer and a
world in `Q`, and `joinAll` runs programs side by side.  A loop that a program cannot bound itself takes
fuel and ends in `halt`, which has no next step: a finite run of the looping
program is a run of the bounded one for large enough fuel.
-/

import Mathlib

namespace Threads

/-- A program over the operations `O` with the answers `A`. -/
inductive Prog (O : Type) (A : O → Type) (α : Type) where
  | done (a : α)
  | ask (o : O) (next : A o → Prog O A α)
  | halt

/-- What a program's operations may answer and leave behind, what it relies on
between them, and which of them it may ask for. -/
structure Setting (O : Type) (A : O → Type) (S : Type) where
  act : S → (o : O) → A o → S → Prop
  rely : S → S → Prop
  allow : S → O → Prop

variable {O : Type} {A : O → Type} {S α β ε : Type}

namespace Prog

/-- Run one program and then the one its answer selects. -/
protected def bind : Prog O A α → (α → Prog O A β) → Prog O A β
  | done a, f => f a
  | ask o next, f => ask o fun r => (next r).bind f
  | halt, _ => halt

instance : Monad (Prog O A) where
  pure := done
  bind := Prog.bind

/-- One operation as a program. -/
def call (o : O) : Prog O A (A o) := ask o done

/-- The next operation of a program, with what follows its answer. -/
def next? : Prog O A α → Option ((o : O) × (A o → Prog O A α))
  | ask o next => some ⟨o, next⟩
  | _ => none

/-- The program has not ended. -/
def Asks (p : Prog O A α) : Prop := ∀ a, p ≠ done a

/-- Run a program alone; a halted one gives nothing. -/
def run (act : S → (o : O) → A o × S) : Prog O A α → S → Option (α × S)
  | done a, s => some (a, s)
  | ask o next, s => (next (act s o).1).run act (act s o).2
  | halt, _ => none

/-- **Asking for what is allowed, and ending in a good world.** -/
def Holds (E : Setting O A S) : Prog O A α → (α → S → Prop) → S → Prop
  | done a, Q, s => Q a s
  | ask o next, Q, s => ∀ s', E.rely s s' →
      E.allow s' o ∧ ∀ a s'', E.act s' o a s'' → Holds E (next a) Q s''
  | halt, _, _ => True

variable {E : Setting O A S} {Q Q' : α → S → Prop} {s : S}

theorem pure_eq (a : α) : (pure a : Prog O A α) = done a := rfl

theorem bind_eq (p : Prog O A α) (f : α → Prog O A β) : (p >>= f) = p.bind f := rfl

theorem run_bind {act : S → (o : O) → A o × S} {p : Prog O A α} {f : α → Prog O A β} {s : S} :
    (p.bind f).run act s = (p.run act s).bind fun r => (f r.1).run act r.2 := by
  induction p generalizing s with
  | done a => rfl
  | halt => rfl
  | ask o next ih => exact ih (act s o).1

theorem bind_done (p : Prog O A α) : p.bind done = p := by
  induction p with
  | done a => rfl
  | ask o next ih => exact congrArg (ask o) (funext ih)
  | halt => rfl

theorem bind_bind {γ : Type} (p : Prog O A α) (f : α → Prog O A β) (g : β → Prog O A γ) :
    (p.bind f).bind g = p.bind fun a => (f a).bind g := by
  induction p with
  | done a => rfl
  | ask o next ih => exact congrArg (ask o) (funext ih)
  | halt => rfl

instance : LawfulMonad (Prog O A) :=
  LawfulMonad.mk' (Prog O A) bind_done (fun _ _ => rfl) bind_bind

theorem holds_bind {R : β → S → Prop} {p : Prog O A α} {f : α → Prog O A β}
    (h : Holds E p (fun a s => Holds E (f a) R s) s) :
    Holds E (p.bind f) R s := by
  induction p generalizing s with
  | done a => exact h
  | ask o next ih => exact fun s' hs => (h s' hs).imp_right fun h a s'' ha => ih a (h a s'' ha)
  | halt => trivial

theorem Holds.mono {p : Prog O A α} (h : Holds E p Q s) (hQ : ∀ a s, Q a s → Q' a s) :
    Holds E p Q' s := by
  induction p generalizing s with
  | done a => exact hQ a s h
  | ask o next ih => exact fun s' hs => (h s' hs).imp_right fun h a s'' ha => ih a (h a s'' ha)
  | halt => trivial

theorem holds_of_forall (hallow : ∀ s o, E.allow s o) {p : Prog O A α} (hQ : ∀ a s, Q a s) :
    Holds E p Q s := by
  induction p generalizing s with
  | done a => exact hQ a s
  | ask o next ih => exact fun s' _ => ⟨hallow s' o, fun a _ _ => ih a⟩
  | halt => trivial

theorem Holds.and {p : Prog O A α} (h : Holds E p Q s) (h' : Holds E p Q' s) :
    Holds E p (fun a s => Q a s ∧ Q' a s) s := by
  induction p generalizing s with
  | done a => exact ⟨h, h'⟩
  | ask o next ih =>
    exact fun s' hs => ⟨(h s' hs).1, fun a s'' ha => ih a ((h s' hs).2 a s'' ha) ((h' s' hs).2 a s'' ha)⟩
  | halt => trivial

/-- **Interference.**  A step of the others leaves a program that has not ended
on its way. -/
theorem Holds.interfere (htrans : ∀ a b c, E.rely a b → E.rely b c → E.rely a c) {p : Prog O A α}
    (hp : p.Asks) {s' : S} (h : Holds E p Q s) (hs : E.rely s s') : Holds E p Q s' := by
  cases p with
  | done a => exact absurd rfl (hp a)
  | ask o next => exact fun t ht => h t (htrans _ _ _ hs ht)
  | halt => trivial

/-- **An own step.**  The operation a program asks for is allowed and leaves the
rest of it on its way. -/
theorem Holds.step (hrefl : E.rely s s) {o : O} {next : A o → Prog O A α}
    (h : Holds E (ask o next) Q s) :
    E.allow s o ∧ ∀ a s', E.act s o a s' → Holds E (next a) Q s' :=
  h s hrefl

theorem holds_call {o : O} {Q : A o → S → Prop}
    (h : ∀ s', E.rely s s' → E.allow s' o ∧ ∀ a s'', E.act s' o a s'' → Q a s'') :
    Holds E (call o) Q s := h

/-- The answers of programs that have all ended. -/
def values? : List (Prog O A α) → Option (List α)
  | [] => some []
  | done a :: ps => (values? ps).map (a :: ·)
  | _ :: _ => none

/-- One operation of the `i`-th of several programs. -/
def advance (ps : List (Prog O A α)) (i : ℕ) : Prog O A (List (Prog O A α)) :=
  match ps[i]? with
  | some (ask o next) => ask o fun r => done (ps.set i (next r))
  | _ => done ps

/-- Run programs side by side and collect their answers: `pick` chooses whose
operation comes next. -/
def joinAll (pick : Prog O A ℕ) : ℕ → List (Prog O A α) → Prog O A (List α)
  | 0, ps => (values? ps).elim halt done
  | fuel + 1, ps => (values? ps).elim
      (pick.bind fun i => (advance ps i).bind (joinAll pick fuel)) done

end Prog

/-- Programs that may fail with `ε`. -/
abbrev Fallible (O : Type) (A : O → Type) (ε : Type) := ExceptT ε (Prog O A)

namespace Fallible

/-- A computation that asks nothing. -/
def lift (x : Except ε α) : Fallible O A ε α := ExceptT.mk (.done x)

/-- An operation whose answer may be an error. -/
def ofProg (p : Prog O A (Except ε α)) : Fallible O A ε α := ExceptT.mk p

/-- Change the error of a program. -/
def mapError {ε' : Type} (f : ε → ε') (p : Fallible O A ε α) : Fallible O A ε' α :=
  ExceptT.mk (p.run.bind fun r => .done (match r with
    | .ok a => .ok a
    | .error e => .error (f e)))

/-- The outcome of a program as a value, errors included. -/
def attempt {ε' : Type} (p : Fallible O A ε α) : Fallible O A ε' (Except ε α) :=
  ExceptT.mk (p.run.bind fun r => .done (.ok r))

variable {E : Setting O A S} {s : S}

/-- **Sequencing with errors.**  An error of the first part is an error of the
whole. -/
theorem holds_bind {R : Except ε β → S → Prop} {p : Fallible O A ε α} {f : α → Fallible O A ε β}
    (h : Prog.Holds E p.run (fun r s => match r with
      | .ok a => Prog.Holds E (f a).run R s
      | .error e => R (.error e) s) s) :
    Prog.Holds E (p >>= f).run R s := by
  refine Prog.holds_bind (h.mono fun r t hr => ?_)
  cases r with
  | ok a => exact hr
  | error e => exact hr

theorem holds_lift {R : Except ε α → S → Prop} {x : Except ε α} (h : R x s) :
    Prog.Holds E (lift x : Fallible O A ε α).run R s := h

theorem holds_mapError {ε' : Type} {f : ε → ε'} {R : Except ε' α → S → Prop}
    {p : Fallible O A ε α}
    (h : Prog.Holds E p.run (fun r s => match r with
      | .ok a => R (.ok a) s
      | .error e => R (.error (f e)) s) s) :
    Prog.Holds E (mapError f p).run R s := by
  refine Prog.holds_bind (h.mono fun r t hr => ?_)
  cases r with
  | ok a => exact hr
  | error e => exact hr

theorem holds_attempt {ε' : Type} {R : Except ε' (Except ε α) → S → Prop} {p : Fallible O A ε α}
    (h : Prog.Holds E p.run (fun r s => R (.ok r) s) s) :
    Prog.Holds E (attempt p : Fallible O A ε' (Except ε α)).run R s :=
  Prog.holds_bind h

theorem holds_pure {R : Except ε α → S → Prop} {a : α} (h : R (.ok a) s) :
    Prog.Holds E (pure a : Fallible O A ε α).run R s := h

end Fallible

end Threads
