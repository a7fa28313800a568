/-
# What a program may end with

A program asks, and is answered whatever its environment likes.  `Returns` names
the values that it ends with for some answers: one case a step, so that a
sequence ends where its second part does after an end of its first
(`returns_bind`), and programs side by side end with an end of each
(`returns_joinAll`).  `Gives` is the rule form for a program that may fail: a
property of every value that it has, whatever it is answered, failures and
halts aside.
-/

import Kolyan.Lib.Threads

namespace Threads

variable {O : Type} {A : O → Type} {α β ε : Type}

namespace Prog

/-- Some answers end the program with the value. -/
inductive Returns : Prog O A α → α → Prop
  | done (a : α) : Returns (.done a) a
  | ask {o : O} {next : A o → Prog O A α} {a : α} (r : A o) (h : Returns (next r) a) : Returns (.ask o next) a

theorem returns_done {a b : α} (h : (done a : Prog O A α).Returns b) : a = b := by
  cases h with
  | done => rfl

theorem returns_ask {o : O} {next : A o → Prog O A α} {a : α} (h : (ask o next).Returns a) :
    ∃ r, (next r).Returns a := by
  cases h with
  | ask r h => exact ⟨r, h⟩

theorem not_returns_halt {a : α} : ¬(halt : Prog O A α).Returns a := nofun

theorem returns_of_run {S : Type} {act : S → (o : O) → A o × S} {p : Prog O A α} {s s' : S} {a : α}
    (h : p.run act s = some (a, s')) : p.Returns a := by
  induction p generalizing s with
  | done b =>
    obtain rfl := congrArg Prod.fst (Option.some.inj h)
    exact .done b
  | halt => exact nomatch h
  | ask o next ih => exact .ask (act s o).1 (ih _ h)

theorem returns_bind {p : Prog O A α} {f : α → Prog O A β} {b : β} (h : (p.bind f).Returns b) :
    ∃ a, p.Returns a ∧ (f a).Returns b := by
  induction p with
  | done a => exact ⟨a, .done a, h⟩
  | halt => exact absurd h not_returns_halt
  | ask o next ih =>
    obtain ⟨r, hr⟩ := returns_ask h
    obtain ⟨a, ha, hb⟩ := ih r hr
    exact ⟨a, .ask r ha, hb⟩

/-- **What a program leaves to do** once some of its operations are answered, each in
any way. -/
def Leaves : Prog O A α → Prog O A α → Prop :=
  Relation.ReflTransGen fun p q => ∃ o next, p = ask o next ∧ ∃ r, q = next r

theorem Leaves.returns {p q : Prog O A α} {a : α} (h : p.Leaves q) (hq : q.Returns a) : p.Returns a := by
  induction h with
  | refl => exact hq
  | tail _ hstep ih =>
    obtain ⟨o, next, rfl, r, rfl⟩ := hstep
    exact ih (.ask r hq)

theorem bind_congr_returns {p : Prog O A α} {f g : α → Prog O A β} (h : ∀ a, p.Returns a → f a = g a) :
    p.bind f = p.bind g := by
  induction p with
  | done a => exact h a (.done a)
  | halt => rfl
  | ask o next ih => exact congrArg (ask o) (funext fun r => ih r fun a ha => h a (.ask r ha))

theorem returns_of_values {ps : List (Prog O A α)} {as : List α} (h : values? ps = some as) :
    as.length = ps.length ∧ ∀ (i : ℕ) a, as[i]? = some a → ∃ p, ps[i]? = some p ∧ p.Returns a := by
  induction ps generalizing as with
  | nil =>
    obtain rfl := Option.some.inj h
    exact ⟨rfl, fun i a ha => nomatch ha⟩
  | cons p ps ih =>
    cases p with
    | ask o next => exact nomatch h
    | halt => exact nomatch h
    | done b =>
      obtain ⟨bs, hbs, rfl⟩ := Option.map_eq_some_iff.1 h
      obtain ⟨hlength, hends⟩ := ih hbs
      refine ⟨congrArg (· + 1) hlength, fun i a ha => ?_⟩
      cases i with
      | zero =>
        obtain rfl := Option.some.inj ha
        exact ⟨_, rfl, .done b⟩
      | succ i => exact hends i a ha

theorem returns_advance {ps ps' : List (Prog O A α)} {i : ℕ} (h : (advance ps i).Returns ps') :
    ps'.length = ps.length ∧
      ∀ (j : ℕ) p' a, ps'[j]? = some p' → p'.Returns a → ∃ p, ps[j]? = some p ∧ p.Returns a := by
  unfold advance at h
  split at h
  · rename_i o next hp
    obtain ⟨r, hr⟩ := returns_ask h
    obtain rfl := returns_done hr
    refine ⟨List.length_set, fun j p' a hp' ha => ?_⟩
    by_cases hij : i = j
    · subst hij
      obtain ⟨hlt, -⟩ := List.getElem?_eq_some_iff.1 hp
      rw [List.getElem?_set_self hlt] at hp'
      obtain rfl := Option.some.inj hp'
      exact ⟨_, hp, .ask r ha⟩
    · rw [List.getElem?_set_ne hij] at hp'
      exact ⟨p', hp', ha⟩
  · obtain rfl := returns_done h
    exact ⟨rfl, fun j p' a hp' ha => ⟨p', hp', ha⟩⟩

theorem returns_joinAll {pick : Prog O A ℕ} {fuel : ℕ} {ps : List (Prog O A α)} {as : List α}
    (h : (joinAll pick fuel ps).Returns as) :
    as.length = ps.length ∧ ∀ (i : ℕ) a, as[i]? = some a → ∃ p, ps[i]? = some p ∧ p.Returns a := by
  induction fuel generalizing ps with
  | zero =>
    unfold joinAll at h
    cases hv : values? ps with
    | none => rw [hv] at h; exact absurd h not_returns_halt
    | some bs =>
      rw [hv] at h
      obtain rfl := returns_done h
      exact returns_of_values hv
  | succ fuel ih =>
    unfold joinAll at h
    cases hv : values? ps with
    | some bs =>
      rw [hv] at h
      obtain rfl := returns_done h
      exact returns_of_values hv
    | none =>
      rw [hv] at h
      obtain ⟨i, -, hi⟩ := returns_bind h
      obtain ⟨ps', hps', hrest⟩ := returns_bind hi
      obtain ⟨hlength, hback⟩ := returns_advance hps'
      obtain ⟨hlength', hends⟩ := ih hrest
      refine ⟨hlength'.trans hlength, fun j a ha => ?_⟩
      obtain ⟨p', hp', hend⟩ := hends j a ha
      exact hback j p' a hp' hend

end Prog

namespace Fallible

/-- **What a program gives**, whatever it is answered: where it ends with a value,
the value is in `Q`. -/
def Gives (p : Fallible O A ε α) (Q : α → Prop) : Prop := ∀ a, p.run.Returns (.ok a) → Q a

variable {Q R : α → Prop}

theorem Gives.mono {p : Fallible O A ε α} (h : Gives p Q) (hQ : ∀ a, Q a → R a) : Gives p R :=
  fun a ha => hQ a (h a ha)

theorem Gives.and {p : Fallible O A ε α} (h : Gives p Q) (h' : Gives p R) : Gives p fun a => Q a ∧ R a :=
  fun a ha => ⟨h a ha, h' a ha⟩

theorem gives_of_forall {p : Fallible O A ε α} (h : ∀ a, Q a) : Gives p Q := fun a _ => h a

theorem gives_pure {a : α} (h : Q a) : Gives (pure a : Fallible O A ε α) Q := by
  intro b hb
  obtain rfl := Except.ok.inj (Prog.returns_done hb)
  exact h

theorem gives_throw {e : ε} : Gives (throw e : Fallible O A ε α) Q :=
  fun _ h => nomatch Prog.returns_done h

theorem gives_lift {x : Except ε α} (h : ∀ a, x = .ok a → Q a) : Gives (lift x : Fallible O A ε α) Q :=
  fun a ha => h a (Prog.returns_done ha)

theorem gives_halt : Gives (ofProg .halt : Fallible O A ε α) Q := fun _ h => absurd h Prog.not_returns_halt

theorem gives_bind {p : Fallible O A ε α} {f : α → Fallible O A ε β} {Q : β → Prop}
    (h : Gives p fun a => Gives (f a) Q) : Gives (p >>= f) Q := by
  intro b hb
  obtain ⟨r, hr, hf⟩ := Prog.returns_bind hb
  cases r with
  | ok a => exact h a hr b hf
  | error e => exact nomatch Prog.returns_done hf

theorem gives_then {p : Fallible O A ε α} {f : α → Fallible O A ε β} {Q : β → Prop}
    (h : ∀ a, Gives (f a) Q) : Gives (p >>= f) Q := gives_bind (gives_of_forall h)

theorem gives_attempt {ε' : Type} {p : Fallible O A ε α} {Q : Except ε α → Prop}
    (hok : Gives p fun a => Q (.ok a)) (herror : ∀ e, Q (.error e)) :
    Gives (attempt p : Fallible O A ε' (Except ε α)) Q := by
  intro r hr
  obtain ⟨r', hr', hf⟩ := Prog.returns_bind hr
  obtain rfl := Except.ok.inj (Prog.returns_done hf)
  cases r' with
  | ok a => exact hok a hr'
  | error e => exact herror e

theorem bind_congr_gives {p : Fallible O A ε α} {f g : α → Fallible O A ε β} (h : Gives p fun a => f a = g a) :
    p >>= f = p >>= g := by
  refine Prog.bind_congr_returns fun r hr => ?_
  cases r with
  | ok a => exact h a hr
  | error e => rfl

end Fallible

end Threads
