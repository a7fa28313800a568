/-
# Programs that run alone

`Prog.run` runs a program when nothing else touches the world.  The lemmas
`runs_…` take such a run apart: a run of two parts is a run of the first and then
of the second, unless the first fails.  What a program promises among others
(`Prog.Holds`) it also keeps alone (`Holds.runs`), where the worlds of a run stay
good.
-/

import Kolyan.Lib.Threads

namespace Threads

variable {O : Type} {A : O → Type} {S α β ε : Type} {act : S → (o : O) → A o × S} {s s' : S}

/-- **A promise is kept alone**, by operations that answer as the setting allows
and keep the world good. -/
theorem Prog.Holds.runs {E : Setting O A S} {good : S → Prop} (hrefl : ∀ s, good s → E.rely s s)
    (hact : ∀ s o, good s → E.allow s o → E.act s o (act s o).1 (act s o).2 ∧ good (act s o).2) {p : Prog O A α}
    {Q : α → S → Prop} (h : Holds E p Q s) (hs : good s) {a : α} (hrun : p.run act s = some (a, s')) :
    Q a s' ∧ good s' := by
  induction p generalizing s with
  | done b =>
    obtain ⟨rfl, rfl⟩ := Prod.mk.inj (Option.some.inj hrun)
    exact ⟨h, hs⟩
  | halt => exact nomatch hrun
  | ask o next ih =>
    obtain ⟨hallow, hnext⟩ := h s (hrefl s hs)
    obtain ⟨hanswer, hgood⟩ := hact s o hs hallow
    exact ih _ (hnext _ _ hanswer) hgood hrun

namespace Fallible

theorem run_bind {p : Fallible O A ε α} {f : α → Fallible O A ε β} :
    (p >>= f).run.run act s = (p.run.run act s).bind fun r =>
      match r.1 with
      | .ok a => (f a).run.run act r.2
      | .error e => some (.error e, r.2) := by
  refine (Prog.run_bind (p := p.run)).trans (congrArg _ (funext fun r => ?_))
  obtain ⟨_ | a, s'⟩ := r <;> rfl

theorem run_then {p : Fallible O A ε α} {f : α → Fallible O A ε β} {a : α}
    (h : p.run.run act s = some (.ok a, s')) : (p >>= f).run.run act s = (f a).run.run act s' := by
  rw [run_bind, h]
  rfl

theorem run_lift {x : Except ε α} {a : α} (h : x = .ok a) :
    (lift x : Fallible O A ε α).run.run act s = some (.ok a, s) :=
  congrArg (fun r => some (r, s)) h

theorem runs_bind {p : Fallible O A ε α} {f : α → Fallible O A ε β} {r : Except ε β}
    (h : (p >>= f).run.run act s = some (r, s')) :
    (∃ e, p.run.run act s = some (.error e, s') ∧ r = .error e) ∨
      ∃ a t, p.run.run act s = some (.ok a, t) ∧ (f a).run.run act t = some (r, s') := by
  rw [run_bind] at h
  obtain ⟨⟨first, t⟩, hfirst, hrest⟩ := Option.bind_eq_some_iff.1 h
  cases first with
  | error e =>
    obtain ⟨rfl, rfl⟩ := Prod.mk.inj (Option.some.inj hrest)
    exact .inl ⟨e, hfirst, rfl⟩
  | ok a => exact .inr ⟨a, t, hfirst, hrest⟩

theorem runs_pure {a : α} {r : Except ε α} (h : (pure a : Fallible O A ε α).run.run act s = some (r, s')) :
    r = .ok a ∧ s' = s := by
  obtain ⟨rfl, rfl⟩ := Prod.mk.inj (Option.some.inj h)
  exact ⟨rfl, rfl⟩

theorem runs_throw {e : ε} {r : Except ε α} (h : (throw e : Fallible O A ε α).run.run act s = some (r, s')) :
    r = .error e ∧ s' = s := by
  obtain ⟨rfl, rfl⟩ := Prod.mk.inj (Option.some.inj h)
  exact ⟨rfl, rfl⟩

theorem runs_lift {x r : Except ε α} (h : (lift x : Fallible O A ε α).run.run act s = some (r, s')) :
    r = x ∧ s' = s := by
  obtain ⟨rfl, rfl⟩ := Prod.mk.inj (Option.some.inj h)
  exact ⟨rfl, rfl⟩

theorem runs_call {o : O} {next : A o → Except ε α} {r : Except ε α}
    (h : (ofProg (.ask o fun a => .done (next a)) : Fallible O A ε α).run.run act s = some (r, s')) :
    r = next (act s o).1 ∧ s' = (act s o).2 := by
  obtain ⟨rfl, rfl⟩ := Prod.mk.inj (Option.some.inj h)
  exact ⟨rfl, rfl⟩

theorem runs_mapError {ε' : Type} {g : ε → ε'} {p : Fallible O A ε α} {r : Except ε' α}
    (h : (mapError g p).run.run act s = some (r, s')) :
    ∃ r', p.run.run act s = some (r', s') ∧ r = match r' with
      | .ok a => .ok a
      | .error e => .error (g e) := by
  have hrun : (p.run.run act s).bind (fun x => some ((match x.1 with
      | .ok a => .ok a
      | .error e => .error (g e) : Except ε' α), x.2)) = some (r, s') := (Prog.run_bind (p := p.run)).symm.trans h
  obtain ⟨⟨first, t⟩, hfirst, hrest⟩ := Option.bind_eq_some_iff.1 hrun
  obtain ⟨rfl, rfl⟩ := Prod.mk.inj (Option.some.inj hrest)
  exact ⟨first, hfirst, rfl⟩

theorem run_mapError {ε' : Type} {g : ε → ε'} {p : Fallible O A ε α} {a : α}
    (h : p.run.run act s = some (.ok a, s')) : (mapError g p).run.run act s = some (.ok a, s') := by
  refine (Prog.run_bind (p := p.run)).trans ?_
  rw [h]
  rfl

theorem run_attempt {ε' : Type} {p : Fallible O A ε α} {r : Except ε α} (h : p.run.run act s = some (r, s')) :
    (attempt p : Fallible O A ε' (Except ε α)).run.run act s = some (.ok r, s') := by
  refine (Prog.run_bind (p := p.run)).trans ?_
  rw [h]
  rfl

theorem runs_attempt {ε' : Type} {p : Fallible O A ε α} {r : Except ε' (Except ε α)}
    (h : (attempt p : Fallible O A ε' (Except ε α)).run.run act s = some (r, s')) :
    ∃ r', p.run.run act s = some (r', s') ∧ r = .ok r' := by
  have hrun : (p.run.run act s).bind (fun x => some ((.ok x.1 : Except ε' (Except ε α)), x.2)) = some (r, s') :=
    (Prog.run_bind (p := p.run)).symm.trans h
  obtain ⟨⟨first, t⟩, hfirst, hrest⟩ := Option.bind_eq_some_iff.1 hrun
  obtain ⟨rfl, rfl⟩ := Prod.mk.inj (Option.some.inj hrest)
  exact ⟨first, hfirst, rfl⟩

end Fallible

end Threads
