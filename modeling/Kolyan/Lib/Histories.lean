/-
# Histories of calls

A component with an interface is a machine: in a state it answers a call and
goes on in a new state.  A history is the list of calls that it was given.  Two
machines with one interface agree on a history when they give the same answers;
`Simulates.answers` is the rule for it, a relation between their states that
every call keeps.  The calls of a history may be required to meet a condition in
the state that they are made in (`Meets`), so that the rules also apply to
machines that agree on some histories only.
-/

import Mathlib

/-- A component that answers calls. -/
structure Machine (O : Type) (A : O → Type) (S : Type) where
  step : S → (o : O) → A o × S

namespace Machine

variable {O : Type} {A : O → Type} {S T : Type} (M : Machine O A S)

/-- The state after a history. -/
def after (s : S) : List O → S
  | [] => s
  | o :: os => after (M.step s o).2 os

/-- The calls of a history, each with its answer. -/
def answers (s : S) : List O → List ((o : O) × A o)
  | [] => []
  | o :: os => ⟨o, (M.step s o).1⟩ :: answers (M.step s o).2 os

/-- Every call of a history meets a condition where it is made. -/
def Meets (ok : S → O → Prop) (s : S) : List O → Prop
  | [] => True
  | o :: os => ok s o ∧ Meets ok (M.step s o).2 os

variable {M} {s : S} {os os' : List O}

@[simp] theorem after_nil : M.after s [] = s := rfl

@[simp] theorem after_cons {o : O} : M.after s (o :: os) = M.after (M.step s o).2 os := rfl

theorem after_append : M.after s (os ++ os') = M.after (M.after s os) os' := by
  induction os generalizing s with
  | nil => rfl
  | cons o os ih => exact ih

theorem answers_append : M.answers s (os ++ os') = M.answers s os ++ M.answers (M.after s os) os' := by
  induction os generalizing s with
  | nil => rfl
  | cons o os ih => exact congrArg (⟨o, (M.step s o).1⟩ :: ·) ih

theorem map_answers : (M.answers s os).map (·.1) = os := by
  induction os generalizing s with
  | nil => rfl
  | cons o os ih => exact congrArg (o :: ·) ih

theorem exists_of_answers_append {past later : List ((o : O) × A o)} (h : M.answers s os = past ++ later) :
    ∃ before rest, os = before ++ rest ∧ past = M.answers s before := by
  induction past generalizing s os with
  | nil => exact ⟨[], os, rfl, rfl⟩
  | cons x past ih =>
    cases os with
    | nil => exact nomatch h
    | cons o os =>
      obtain ⟨hfirst, hrest⟩ := List.cons.inj h
      obtain ⟨before, rest, rfl, rfl⟩ := ih hrest
      exact ⟨o :: before, rest, rfl, congrArg (· :: _) hfirst.symm⟩

theorem exists_of_answers_eq {past later : List ((o : O) × A o)} {o : O} {a : A o}
    (h : M.answers s os = past ++ ⟨o, a⟩ :: later) :
    ∃ before rest, os = before ++ o :: rest ∧ past = M.answers s before ∧ a = (M.step (M.after s before) o).1 := by
  induction os generalizing s past with
  | nil => exact absurd h.symm (List.append_ne_nil_of_right_ne_nil past (List.cons_ne_nil _ _))
  | cons o' os ih =>
    cases past with
    | nil =>
      obtain ⟨hfirst, -⟩ := List.cons.inj h
      obtain rfl : o' = o := congrArg Sigma.fst hfirst
      exact ⟨[], os, rfl, rfl, (eq_of_heq (Sigma.mk.inj hfirst).2).symm⟩
    | cons x past =>
      obtain ⟨hfirst, hrest⟩ := List.cons.inj h
      obtain ⟨before, rest, rfl, rfl, ha⟩ := ih hrest
      exact ⟨o' :: before, rest, rfl, congrArg (· :: _) hfirst.symm, ha⟩

theorem meets_of_mem {ok : O → Prop} (h : ∀ o ∈ os, ok o) : M.Meets (fun _ => ok) s os := by
  induction os generalizing s with
  | nil => trivial
  | cons o os ih => exact ⟨h o List.mem_cons_self, ih fun o' ho' => h o' (List.mem_cons_of_mem o ho')⟩

theorem historyInvariant {ok : S → O → Prop} {inv : List O → S → Prop}
    (hstep : ∀ os s o, inv os s → ok s o → inv (os ++ [o]) (M.step s o).2) {past : List O} (hs : inv past s)
    (hos : M.Meets ok s os) : inv (past ++ os) (M.after s os) := by
  induction os generalizing s past with
  | nil =>
    rw [List.append_nil]
    exact hs
  | cons o os ih =>
    have hnext := ih (hstep past s o hs hos.1) hos.2
    rw [List.append_assoc] at hnext
    exact hnext

/-- Every call of a history meets a condition that may speak of the calls before. -/
def Along (P : List O → O → Prop) (os : List O) : Prop :=
  ∀ before o later, os = before ++ o :: later → P before o

variable {P : List O → O → Prop}

theorem along_nil : Along P [] := fun before o later h =>
  absurd h.symm (List.append_ne_nil_of_right_ne_nil before (List.cons_ne_nil o later))

theorem Along.init (h : Along P (os ++ os')) : Along P os := fun before o later hos =>
  h before o (later ++ os') (by rw [hos, List.append_assoc, List.cons_append])

theorem along_snoc {o : O} : Along P (os ++ [o]) ↔ Along P os ∧ P os o := by
  constructor
  · intro h
    exact ⟨h.init, h os o [] rfl⟩
  · rintro ⟨h, ho⟩ before o' later hos
    cases later using List.reverseRecOn with
    | nil =>
      obtain ⟨rfl, hlast⟩ := List.append_inj' hos rfl
      exact (List.cons.inj hlast).1 ▸ ho
    | append_singleton later last =>
      rw [← List.cons_append, ← List.append_assoc] at hos
      exact h before o' later (List.append_inj' hos rfl).1

theorem along_of_first (h : ∀ before o later, os = before ++ o :: later → Along P before → P before o) : Along P os := by
  induction os using List.reverseRecOn with
  | nil => exact along_nil
  | append_singleton os o ih =>
    have hos : Along P os := by
      refine ih fun before o' later hos => h before o' (later ++ [o]) ?_
      rw [hos, List.append_assoc, List.cons_append]
    exact along_snoc.2 ⟨hos, h os o [] rfl hos⟩

theorem alongInvariant {I : List O → S → Prop}
    (hstep : ∀ past o, I past (M.after s past) → P past o → I (past ++ [o]) (M.step (M.after s past) o).2)
    (hs : I [] s) (hos : Along P os) : I os (M.after s os) := by
  induction os using List.reverseRecOn with
  | nil => exact hs
  | append_singleton os o ih =>
    obtain ⟨hbefore, ho⟩ := along_snoc.1 hos
    rw [after_append]
    exact hstep os o (ih hbefore) ho

/-- **A simulation** of one machine by another, on the calls that meet a
condition. -/
structure Simulates (M : Machine O A S) (N : Machine O A T) (ok : S → O → Prop) (related : S → T → Prop) : Prop where
  answer : ∀ {s t o}, related s t → ok s o → (M.step s o).1 = (N.step t o).1
  next : ∀ {s t o}, related s t → ok s o → related (M.step s o).2 (N.step t o).2

variable {N : Machine O A T} {ok : S → O → Prop} {related : S → T → Prop} {t : T}

theorem Simulates.after (h : Simulates M N ok related) (hrelated : related s t) (hos : M.Meets ok s os) :
    related (M.after s os) (N.after t os) := by
  induction os generalizing s t with
  | nil => exact hrelated
  | cons o os ih => exact ih (h.next hrelated hos.1) hos.2

theorem Simulates.answers (h : Simulates M N ok related) (hrelated : related s t) (hos : M.Meets ok s os) :
    M.answers s os = N.answers t os := by
  induction os generalizing s t with
  | nil => rfl
  | cons o os ih =>
    rw [Machine.answers, Machine.answers, h.answer hrelated hos.1, ih (h.next hrelated hos.1) hos.2]

end Machine
