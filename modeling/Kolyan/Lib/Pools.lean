/-
# Pools of programs

A pool is a world and the calls that were made in it, each with what is left of
its program.  It goes on when a call is made, when a program takes its next
operation, and when somebody else changes the world.  `Reach.invariant` is the
rule for all its runs: a condition of the world and one of every call, where each
step keeps the first and harms none of the others.  `Prog.Ends` is the condition
that a program keeps from a given world on, whatever the others do in between:
it never halts without an answer, and its answer is a good one.
-/

import Kolyan.Lib.Alone

namespace Threads

universe u

variable {O : Type} {A : O → Type} {S α β ε : Type}

section Total

/-- **Ending in a good world**, with every operation on the way allowed. -/
def Prog.Ends (E : Setting O A S) : Prog O A α → (α → S → Prop) → S → Prop
  | done a, Q, s => Q a s
  | ask o next, Q, s => ∀ s', E.rely s s' → E.allow s' o ∧ ∀ a s'', E.act s' o a s'' → Ends E (next a) Q s''
  | halt, _, _ => False

namespace Prog

variable {E : Setting O A S} {Q Q' : α → S → Prop} {s s' : S}

theorem ends_bind {R : β → S → Prop} {p : Prog O A α} {f : α → Prog O A β}
    (h : Ends E p (fun a s => Ends E (f a) R s) s) : Ends E (p.bind f) R s := by
  induction p generalizing s with
  | done a => exact h
  | ask o next ih => exact fun s' hs => (h s' hs).imp_right fun h a s'' ha => ih a (h a s'' ha)
  | halt => exact h

theorem Ends.mono {p : Prog O A α} (h : Ends E p Q s) (hQ : ∀ a s, Q a s → Q' a s) : Ends E p Q' s := by
  induction p generalizing s with
  | done a => exact hQ a s h
  | ask o next ih => exact fun s' hs => (h s' hs).imp_right fun h a s'' ha => ih a (h a s'' ha)
  | halt => exact h

theorem Ends.interfere (htrans : ∀ a b c, E.rely a b → E.rely b c → E.rely a c)
    (hstable : ∀ a s s', Q a s → E.rely s s' → Q a s') {p : Prog O A α} (h : Ends E p Q s) (hs : E.rely s s') :
    Ends E p Q s' := by
  cases p with
  | done a => exact hstable a s s' h hs
  | ask o next => exact fun t ht => h t (htrans _ _ _ hs ht)
  | halt => exact h

/-- **Interference**, with a goal that survives it, of a program that may not end. -/
theorem Holds.survives (htrans : ∀ a b c, E.rely a b → E.rely b c → E.rely a c)
    (hstable : ∀ a s s', Q a s → E.rely s s' → Q a s') {p : Prog O A α} (h : Holds E p Q s) (hs : E.rely s s') :
    Holds E p Q s' := by
  cases p with
  | done a => exact hstable a s s' h hs
  | ask o next => exact fun t ht => h t (htrans _ _ _ hs ht)
  | halt => trivial

theorem Ends.runs {act : S → (o : O) → A o × S} {good : S → Prop} (hrefl : ∀ s, good s → E.rely s s)
    (hact : ∀ s o, good s → E.allow s o → E.act s o (act s o).1 (act s o).2 ∧ good (act s o).2) {p : Prog O A α}
    (h : Ends E p Q s) (hs : good s) : ∃ a s', p.run act s = some (a, s') ∧ Q a s' ∧ good s' := by
  induction p generalizing s with
  | done a => exact ⟨a, s, rfl, h, hs⟩
  | halt => exact h.elim
  | ask o next ih =>
    obtain ⟨hallow, hnext⟩ := h s (hrefl s hs)
    obtain ⟨hanswer, hgood⟩ := hact s o hs hallow
    exact ih _ (hnext _ _ hanswer) hgood

end Prog

namespace Fallible

variable {E : Setting O A S} {s : S}

theorem ends_bind {R : Except ε β → S → Prop} {p : Fallible O A ε α} {f : α → Fallible O A ε β}
    (h : Prog.Ends E p.run (fun r s => match r with
      | .ok a => Prog.Ends E (f a).run R s
      | .error e => R (.error e) s) s) :
    Prog.Ends E (p >>= f).run R s := by
  refine Prog.ends_bind (h.mono fun r t hr => ?_)
  cases r with
  | ok a => exact hr
  | error e => exact hr

theorem ends_lift {R : Except ε α → S → Prop} {x : Except ε α} (h : R x s) :
    Prog.Ends E (lift x : Fallible O A ε α).run R s := h

theorem ends_bind_lift {x : Except ε α} {f : α → Fallible O A ε β} {R : Except ε β → S → Prop} {a : α} (hx : x = .ok a)
    (h : Prog.Ends E (f a).run R s) : Prog.Ends E (lift x >>= f).run R s := by
  subst hx
  exact ends_bind h

theorem ends_bind_error {x : Except ε α} {f : α → Fallible O A ε β} {R : Except ε β → S → Prop} {e : ε} (hx : x = .error e)
    (h : R (.error e) s) : Prog.Ends E (lift x >>= f).run R s := by
  subst hx
  exact ends_bind h

theorem ends_mapError {ε' : Type} {f : ε → ε'} {R : Except ε' α → S → Prop} {p : Fallible O A ε α}
    (h : Prog.Ends E p.run (fun r s => match r with
      | .ok a => R (.ok a) s
      | .error e => R (.error (f e)) s) s) :
    Prog.Ends E (mapError f p).run R s := by
  refine Prog.ends_bind (h.mono fun r t hr => ?_)
  cases r with
  | ok a => exact hr
  | error e => exact hr

theorem ends_attempt {ε' : Type} {R : Except ε' (Except ε α) → S → Prop} {p : Fallible O A ε α}
    (h : Prog.Ends E p.run (fun r s => R (.ok r) s) s) :
    Prog.Ends E (attempt p : Fallible O A ε' (Except ε α)).run R s :=
  Prog.ends_bind h

end Fallible

end Total

/-- A world and the calls that were made in it. -/
structure Pool (O : Type) (A : O → Type) (S : Type) (C α : Type) where
  world : S
  calls : List (C × Prog O A α)

/-- How a pool goes on: what a call runs and where it may be made, what its
operations do, and what somebody else does. -/
structure Pool.Rules (O : Type) (A : O → Type) (S : Type) (C α : Type) where
  program : C → Prog O A α
  starts : S → C → Prop
  act : ℕ → S → (o : O) → A o → S → Prop
  other : S → S → Prop

namespace Pool

variable {C : Type} (rules : Rules O A S C α)

/-- One step of a pool. -/
inductive Step : Pool O A S C α → Pool O A S C α → Prop
  | call {pool : Pool O A S C α} {c : C} (h : rules.starts pool.world c) :
    Step pool { pool with calls := pool.calls ++ [(c, rules.program c)] }
  | advance {pool : Pool O A S C α} {i : ℕ} {c : C} {o : O} {next : A o → Prog O A α} {a : A o} {world : S}
    (hi : pool.calls[i]? = some (c, .ask o next)) (h : rules.act i pool.world o a world) :
    Step pool ⟨world, pool.calls.set i (c, next a)⟩
  | other {pool : Pool O A S C α} {world : S} (h : rules.other pool.world world) :
    Step pool { pool with world }

/-- The pools that a run reaches from a world without calls. -/
inductive Reach (start : S → Prop) : Pool O A S C α → Prop
  | initial {s : S} (h : start s) : Reach start ⟨s, []⟩
  | step {pool next : Pool O A S C α} (hpool : Reach start pool) (h : Step rules pool next) : Reach start next

/-- A condition of the world, which may count the calls, and one of every call, with
its place. -/
structure Holds (good : ℕ → S → Prop) (inv : ℕ → C → Prog O A α → S → Prop) (pool : Pool O A S C α) : Prop where
  world : good pool.calls.length pool.world
  calls : ∀ i c p, pool.calls[i]? = some (c, p) → inv i c p pool.world

/-- **Conditions that every step keeps.**  An own operation of a call keeps its
condition and harms no other; a change of somebody else harms none. -/
structure Keeps (good : ℕ → S → Prop) (inv : ℕ → C → Prog O A α → S → Prop) : Prop where
  starts : ∀ n c s, good n s → rules.starts s c → good (n + 1) s ∧ inv n c (rules.program c) s
  own : ∀ n i c o next a s s', good n s → i < n → inv i c (.ask o next) s → rules.act i s o a s' →
    good n s' ∧ inv i c (next a) s'
  harmless : ∀ n i j c d o next p a s s', i ≠ j → good n s → inv i c (.ask o next) s → rules.act i s o a s' →
    inv j d p s → inv j d p s'
  other : ∀ n s s', good n s → rules.other s s' → good n s' ∧ ∀ i c p, inv i c p s → inv i c p s'

variable {rules} {start : S → Prop} {good : ℕ → S → Prop} {inv : ℕ → C → Prog O A α → S → Prop} {pool next : Pool O A S C α}

theorem Holds.step (hkeeps : Keeps rules good inv) (h : Holds good inv pool) (hstep : Step rules pool next) :
    Holds good inv next := by
  cases hstep with
  | @call c hc =>
    obtain ⟨hworld, hcall⟩ := hkeeps.starts _ c _ h.world hc
    refine ⟨by rwa [List.length_append, List.length_singleton], fun i d p hi => ?_⟩
    rcases lt_trichotomy i pool.calls.length with hlt | rfl | hgt
    · exact h.calls i d p ((List.getElem?_append_left hlt).symm.trans hi)
    · obtain ⟨rfl, rfl⟩ := Prod.mk.inj (Option.some.inj (List.getElem?_concat_length.symm.trans hi))
      exact hcall
    · have hnone : (pool.calls ++ [(c, rules.program c)])[i]? = none := by
        rw [List.getElem?_eq_none_iff, List.length_append, List.length_singleton]
        omega
      exact absurd (hnone.symm.trans hi) (by simp)
  | @advance i c o continuation a world hi ha =>
    have hlt := (List.getElem?_eq_some_iff.1 hi).1
    have hown := h.calls i c _ hi
    obtain ⟨hworld, hrest⟩ := hkeeps.own _ i c o continuation a _ _ h.world hlt hown ha
    refine ⟨by rwa [List.length_set], fun j d p hj => ?_⟩
    by_cases hij : i = j
    · subst hij
      rw [List.getElem?_set_self hlt] at hj
      obtain ⟨rfl, rfl⟩ := Prod.mk.inj (Option.some.inj hj)
      exact hrest
    · rw [List.getElem?_set_ne hij] at hj
      exact hkeeps.harmless _ i j c d o continuation p a _ _ hij h.world hown ha (h.calls j d p hj)
  | other hother =>
    obtain ⟨hworld, hcalls⟩ := hkeeps.other _ _ _ h.world hother
    exact ⟨hworld, fun i c p hi => hcalls i c p (h.calls i c p hi)⟩

/-- The next operation of one call. -/
def Advances (rules : Rules O A S C α) (i : ℕ) (pool next : Pool O A S C α) : Prop :=
  ∃ c o continuation a world, pool.calls[i]? = some (c, .ask o continuation) ∧ rules.act i pool.world o a world ∧
    next = ⟨world, pool.calls.set i (c, continuation a)⟩

/-- A run between two pools. -/
def Run (rules : Rules O A S C α) : Pool O A S C α → Pool O A S C α → Prop := Relation.ReflTransGen (Step rules)

theorem Holds.run (hkeeps : Keeps rules good inv) (h : Holds good inv pool) (hrun : Run rules pool next) :
    Holds good inv next := by
  induction hrun with
  | refl => exact h
  | tail _ hstep ih => exact ih.step hkeeps hstep

theorem Reach.run (h : Reach rules start pool) (hrun : Run rules pool next) : Reach rules start next := by
  induction hrun with
  | refl => exact h
  | tail _ hstep ih => exact ih.step hstep

theorem Reach.invariant (hkeeps : Keeps rules good inv) (hstart : ∀ s, start s → good 0 s)
    (h : Reach rules start pool) : Holds good inv pool := by
  induction h with
  | initial hs => exact ⟨hstart _ hs, fun i c p hi => by simp at hi⟩
  | step _ hstep ih => exact ih.step hkeeps hstep

section Alone

variable {act : S → (o : O) → A o × S}

theorem Run.advance_alone (hact : ∀ i s o, rules.act i s o (act s o).1 (act s o).2) {i : ℕ} {c : C} {p : Prog O A α}
    (hi : pool.calls[i]? = some (c, p)) {a : α} {s : S} (hrun : p.run act pool.world = some (a, s)) :
    Run rules pool ⟨s, pool.calls.set i (c, .done a)⟩ := by
  induction p generalizing pool with
  | halt => exact nomatch hrun
  | done b =>
    obtain ⟨rfl, rfl⟩ := Prod.mk.inj (Option.some.inj hrun)
    obtain ⟨hlt, he⟩ := List.getElem?_eq_some_iff.1 hi
    rw [← he, List.set_getElem_self hlt]
    exact .refl
  | ask o next ih =>
    have hnext : Step rules pool _ := .advance hi (hact i pool.world o)
    have hlt := (List.getElem?_eq_some_iff.1 hi).1
    have hset : Run rules ⟨(act pool.world o).2, pool.calls.set i (c, next (act pool.world o).1)⟩ _ :=
      ih _ (List.getElem?_set_self hlt) hrun
    rw [List.set_set] at hset
    exact .head hnext hset

theorem Run.call_alone (hact : ∀ i s o, rules.act i s o (act s o).1 (act s o).2) {c : C} (hc : rules.starts pool.world c)
    {a : α} {s : S} (hrun : (rules.program c).run act pool.world = some (a, s)) :
    Run rules pool ⟨s, pool.calls ++ [(c, .done a)]⟩ := by
  have hcall : Step rules pool { pool with calls := pool.calls ++ [(c, rules.program c)] } := .call hc
  have hcalled : Run rules ⟨pool.world, pool.calls ++ [(c, rules.program c)]⟩ _ :=
    Run.advance_alone hact List.getElem?_concat_length hrun
  rw [List.set_append_right _ _ le_rfl, Nat.sub_self] at hcalled
  exact .head hcall hcalled

theorem Reach.call_alone (hact : ∀ i s o, rules.act i s o (act s o).1 (act s o).2) (h : Reach rules start pool)
    {c : C} (hc : rules.starts pool.world c) {a : α} {s : S}
    (hrun : (rules.program c).run act pool.world = some (a, s)) :
    Reach rules start ⟨s, pool.calls ++ [(c, .done a)]⟩ := h.run (Run.call_alone hact hc hrun)

variable {ready : S → (o : O) → Option (A o × S)}

end Alone

section Schedules

variable (act : ℕ → S → (o : O) → A o × S)

/-- One operation of a call, where the operations have one outcome. -/
def advance (pool : Pool O A S C α) (i : ℕ) : Option (Pool O A S C α) :=
  match pool.calls[i]? with
  | some (c, .ask o next) =>
    some ⟨(act i pool.world o).2, pool.calls.set i (c, next (act i pool.world o).1)⟩
  | _ => none

def schedule (pool : Pool O A S C α) : List ℕ → Option (Pool O A S C α)
  | [] => some pool
  | i :: rest => (pool.advance act i).bind fun next => Pool.schedule next rest

variable {act}

theorem Run.schedule (hact : ∀ i s o, rules.act i s o (act i s o).1 (act i s o).2) {order : List ℕ}
    (hrun : pool.schedule act order = some next) : Run rules pool next := by
  induction order generalizing pool with
  | nil => exact Option.some.inj hrun ▸ .refl
  | cons i rest ih =>
    obtain ⟨middle, hmiddle, hrun⟩ := Option.bind_eq_some_iff.1 hrun
    refine .head ?_ (ih hrun)
    unfold Pool.advance at hmiddle
    split at hmiddle
    · rename_i c o following hi
      obtain rfl := Option.some.inj hmiddle
      exact .advance hi (hact i pool.world o)
    · exact nomatch hmiddle

theorem Reach.schedule (hact : ∀ i s o, rules.act i s o (act i s o).1 (act i s o).2) (h : Reach rules start pool)
    {order : List ℕ} (hrun : pool.schedule act order = some next) : Reach rules start next := h.run (Run.schedule hact hrun)

end Schedules

end Pool

end Threads
