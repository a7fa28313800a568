/-
# Programs that serve programs

A component that runs on ports is a program over the calls of its ports, and
what stands behind the ports is a server: it answers each call by a program over
other operations and keeps a state of its own between the calls.  `serve` puts
the two together.  `holds_serve` is its rule: what a program does against a
setting of its calls, it does in the world of its server, if the server does in
that world what the setting says of each call.  `Within` names the operations a
program may ask for at all, whatever it is answered, `Only` finds that out along
the text of a program, and `Once` lets it ask for one operation beyond them.
`Yields` is `Holds` for a program whose failures are all alike.
-/

import Kolyan.Lib.Threads

namespace Threads

variable {O O' : Type} {A : O → Type} {A' : O' → Type} {S T Z α β ε : Type}

namespace Prog

/-- Answer every operation of a program by a program of the server. -/
def serve (server : (o : O) → T → Prog O' A' (A o × T)) : Prog O A α → T → Prog O' A' (α × T)
  | done a, t => done (a, t)
  | ask o next, t => (server o t).bind fun r => serve server (next r.1) r.2
  | halt, _ => halt

/-- **Serving.**  The server keeps `related` between its state, its world and
the state of the setting of the calls. -/
theorem holds_serve {E : Setting O' A' S} {G : Setting O A Z}
    {server : (o : O) → T → Prog O' A' (A o × T)} (related : T → S → Z → Prop)
    (hserver : ∀ o t s z, related t s z → G.allow z o →
      Holds E (server o t) (fun r s' => ∃ z', G.act z o r.1 z' ∧ related r.2 s' z') s)
    (hidle : ∀ z, G.rely z z) {p : Prog O A α} {Q : α → Z → Prop} {t : T} {s : S} {z : Z}
    (h : Holds G p Q z) (hrelated : related t s z) :
    Holds E (serve server p t) (fun r s' => ∃ z', Q r.1 z' ∧ related r.2 s' z') s := by
  induction p generalizing t s z with
  | done a => exact ⟨z, h, hrelated⟩
  | halt => trivial
  | ask o next ih =>
    obtain ⟨hallow, hnext⟩ := h z (hidle z)
    refine holds_bind ((hserver o t s z hrelated hallow).mono fun r s' hr => ?_)
    obtain ⟨z', hact, hrelated'⟩ := hr
    exact ih r.1 (hnext r.1 z' hact) hrelated'

/-- **The operations of a program**, whatever it is answered. -/
def Within (ok : O → Prop) : Prog O A α → Prop
  | done _ => True
  | ask o next => ok o ∧ ∀ a, Within ok (next a)
  | halt => True

variable {ok ok' : O → Prop}

theorem Within.mono {p : Prog O A α} (h : p.Within ok) (hok : ∀ o, ok o → ok' o) : p.Within ok' := by
  induction p with
  | done a => trivial
  | halt => trivial
  | ask o next ih => exact ⟨hok o h.1, fun a => ih a (h.2 a)⟩

theorem within_bind {p : Prog O A α} {f : α → Prog O A β} (hp : p.Within ok)
    (hf : ∀ a, (f a).Within ok) : (p.bind f).Within ok := by
  induction p with
  | done a => exact hf a
  | halt => trivial
  | ask o next ih => exact ⟨hp.1, fun a => ih a (hp.2 a)⟩

theorem within_joinAll {pick : Prog O A ℕ} (hpick : pick.Within ok) (fuel : ℕ)
    {ps : List (Prog O A α)} (h : ∀ p ∈ ps, p.Within ok) : (joinAll pick fuel ps).Within ok := by
  induction fuel generalizing ps with
  | zero =>
    unfold joinAll
    cases values? ps with
    | none => trivial
    | some as => trivial
  | succ fuel ih =>
    unfold joinAll
    cases values? ps with
    | some as => trivial
    | none =>
      refine within_bind hpick fun i => ?_
      unfold advance
      split
      · rename_i o next hp
        have hask := h _ (List.mem_of_getElem? hp)
        refine ⟨hask.1, fun a => ih fun q hq => ?_⟩
        rcases List.mem_or_eq_of_mem_set hq with hq | rfl
        · exact h q hq
        · exact hask.2 a
      · exact ih h

theorem within_serve {ok : O' → Prop} {server : (o : O) → T → Prog O' A' (A o × T)}
    (h : ∀ o t, (server o t).Within ok) (p : Prog O A α) (t : T) : (serve server p t).Within ok := by
  induction p generalizing t with
  | done a => trivial
  | halt => trivial
  | ask o next ih => exact within_bind (h o t) fun r => ih r.1 r.2

/-- **Operations that keep an invariant.**  A program that asks only for them
is on its way wherever the invariant holds, and ends where it holds. -/
theorem Within.holds {E : Setting O A S} {keeps : S → Prop} {p : Prog O A α} (h : p.Within ok)
    (hrely : ∀ s s', keeps s → E.rely s s' → keeps s') (hallow : ∀ s o, keeps s → ok o → E.allow s o)
    (hact : ∀ s o a s', keeps s → ok o → E.act s o a s' → keeps s') {s : S} (hs : keeps s) :
    Holds E p (fun _ s' => keeps s') s := by
  induction p generalizing s with
  | done a => exact hs
  | halt => trivial
  | ask o next ih =>
    intro s' hrely'
    have hs' := hrely s s' hs hrely'
    exact ⟨hallow s' o hs' h.1, fun a s'' ha => ih a (h.2 a) (hact s' o a s'' hs' h.1 ha)⟩

/-- **A narrower setting**, which still allows all that a program asks for. -/
theorem Holds.allowing {E : Setting O A S} {allow : S → O → Prop} {p : Prog O A α} {Q : α → S → Prop} {s : S}
    (h : Holds E p Q s) (hp : p.Within ok) (hallow : ∀ s o, ok o → allow s o) : Holds { E with allow } p Q s := by
  induction p generalizing s with
  | done a => exact h
  | halt => trivial
  | ask o next ih =>
    intro s' hs
    exact ⟨hallow s' o hp.1, fun a s'' ha => ih a ((h s' hs).2 a s'' ha) (hp.2 a)⟩

/-- **A setting that allows only what the program asks for at all.** -/
theorem Holds.within {E : Setting O A S} {p : Prog O A α} {Q : α → S → Prop} {s : S} (h : Holds E p Q s)
    (hp : p.Within ok) : Holds { E with allow := fun s o => E.allow s o ∧ ok o } p Q s := by
  induction p generalizing s with
  | done a => exact h
  | halt => trivial
  | ask o next ih =>
    intro s' hs
    obtain ⟨hallow, hnext⟩ := h s' hs
    exact ⟨⟨hallow, hp.1⟩, fun a s'' ha => ih a (hnext a s'' ha) (hp.2 a)⟩

/-- A program that asks at most once for an operation that is not `ok`. -/
def Once (ok : O → Prop) : Prog O A α → Prop
  | done _ => True
  | ask o next => (ok o ∧ ∀ a, Once ok (next a)) ∨ ∀ a, Within ok (next a)
  | halt => True

theorem Within.once {p : Prog O A α} (h : p.Within ok) : p.Once ok := by
  induction p with
  | done a => trivial
  | halt => trivial
  | ask o next ih => exact .inl ⟨h.1, fun a => ih a (h.2 a)⟩

theorem once_ask {o : O} {next : A o → Prog O A α} (h : ∀ a, (next a).Within ok) : (ask o next).Once ok :=
  .inr h

theorem once_bind {p : Prog O A α} {f : α → Prog O A β} (hp : p.Within ok) (hf : ∀ a, (f a).Once ok) :
    (p.bind f).Once ok := by
  induction p with
  | done a => exact hf a
  | halt => trivial
  | ask o next ih => exact .inl ⟨hp.1, fun a => ih a (hp.2 a)⟩

theorem Once.rest {o : O} {next : A o → Prog O A α} (h : (ask o next).Once ok) (a : A o) :
    (ok o → (next a).Once ok) ∧ (¬ok o → (next a).Within ok) := by
  rcases h with ⟨hok, hnext⟩ | hnext
  · exact ⟨fun _ => hnext a, fun hnot => absurd hok hnot⟩
  · exact ⟨fun _ => (hnext a).once, fun _ => hnext a⟩

end Prog

namespace Fallible

variable {ok : O → Prop}

/-- The operations of a program that may fail. -/
abbrev Within (ok : O → Prop) (p : Fallible O A ε α) : Prop := p.run.Within ok

theorem within_pure (a : α) : Within ok (pure a : Fallible O A ε α) := trivial

theorem within_throw (e : ε) : Within ok (throw e : Fallible O A ε α) := trivial

theorem within_lift (x : Except ε α) : Within ok (lift x : Fallible O A ε α) := trivial

theorem within_bind {p : Fallible O A ε α} {f : α → Fallible O A ε β} (hp : Within ok p)
    (hf : ∀ a, Within ok (f a)) : Within ok (p >>= f) :=
  Prog.within_bind hp fun r => match r with
    | .ok a => hf a
    | .error _ => trivial

theorem within_bind_lift {x : Except ε α} {f : α → Fallible O A ε β} (h : ∀ a, x = .ok a → Within ok (f a)) :
    Within ok (lift x >>= f) := by
  cases x with
  | ok a => exact h a rfl
  | error e => exact within_throw e

theorem within_mapError {ε' : Type} {f : ε → ε'} {p : Fallible O A ε α} (h : Within ok p) :
    Within ok (mapError f p) := Prog.within_bind h fun _ => trivial

theorem within_attempt {ε' : Type} {p : Fallible O A ε α} (h : Within ok p) :
    Within ok (attempt p : Fallible O A ε' (Except ε α)) := Prog.within_bind h fun _ => trivial

/-- A program that asks only for operations that are `ok`.  The instances follow
the text of a program, so that the ones for its parts give the one for it. -/
class Only (ok : O → Prop) (p : Fallible O A ε α) : Prop where
  within : Within ok p

instance only_pure (a : α) : Only ok (pure a : Fallible O A ε α) := ⟨within_pure a⟩

instance only_throw (e : ε) : Only ok (throw e : Fallible O A ε α) := ⟨within_throw e⟩

instance only_lift (x : Except ε α) : Only ok (lift x : Fallible O A ε α) := ⟨within_lift x⟩

instance only_bind {p : Fallible O A ε α} {f : α → Fallible O A ε β} [h : Only ok p]
    [g : ∀ a, Only ok (f a)] : Only ok (p >>= f) :=
  ⟨within_bind h.within fun a => (g a).within⟩

instance only_mapError {ε' : Type} {f : ε → ε'} {p : Fallible O A ε α} [h : Only ok p] :
    Only ok (mapError f p) := ⟨within_mapError h.within⟩

instance only_attempt {ε' : Type} {p : Fallible O A ε α} [h : Only ok p] :
    Only ok (attempt p : Fallible O A ε' (Except ε α)) := ⟨within_attempt h.within⟩

instance only_ite {c : Prop} [Decidable c] {p q : Fallible O A ε α} [hp : Only ok p]
    [hq : Only ok q] : Only ok (if c then p else q) := by
  split
  · exact hp
  · exact hq

theorem once_bind {p : Fallible O A ε α} {f : α → Fallible O A ε β} [h : Only ok p]
    (hf : ∀ a, (f a).run.Once ok) : (p >>= f).run.Once ok :=
  Prog.once_bind h.within fun r => match r with
    | .ok a => hf a
    | .error _ => trivial

theorem Only.once {p : Fallible O A ε α} (h : Only ok p) : p.run.Once ok := h.within.once

section Yielding

variable {E : Setting O A S} {Q R : α → S → Prop} {s : S}

/-- **What a program yields**: it asks only for what it is allowed, and where it
ends with a value, value and world are in `Q`. -/
def Yields (E : Setting O A S) (p : Fallible O A ε α) (Q : α → S → Prop) (s : S) : Prop :=
  Prog.Holds E p.run (fun r s => ∀ a, r = .ok a → Q a s) s

theorem Yields.mono {p : Fallible O A ε α} (h : Yields E p Q s) (hQ : ∀ a s, Q a s → R a s) : Yields E p R s :=
  Prog.Holds.mono h fun _ s hr a ha => hQ a s (hr a ha)

theorem yields_pure {a : α} (h : Q a s) : Yields E (pure a : Fallible O A ε α) Q s := by
  rintro b hb
  obtain rfl := Except.ok.inj hb
  exact h

theorem yields_throw {e : ε} : Yields E (throw e : Fallible O A ε α) Q s := fun _ h => nomatch h

theorem yields_lift {x : Except ε α} (h : ∀ a, x = .ok a → Q a s) : Yields E (lift x : Fallible O A ε α) Q s := h

theorem yields_bind {p : Fallible O A ε α} {f : α → Fallible O A ε β} {Q : β → S → Prop}
    (h : Yields E p (fun a s => Yields E (f a) Q s) s) : Yields E (p >>= f) Q s := by
  refine holds_bind (Prog.Holds.mono h fun r s hr => ?_)
  cases r with
  | ok a => exact hr a rfl
  | error e => exact fun _ h => nomatch h

theorem yields_mapError {ε' : Type} {f : ε → ε'} {p : Fallible O A ε α} (h : Yields E p Q s) :
    Yields E (mapError f p) Q s := by
  refine holds_mapError (Prog.Holds.mono h fun r s hr => ?_)
  cases r with
  | ok a => exact fun b hb => hr b (congrArg Except.ok (Except.ok.inj hb))
  | error e => exact fun _ h => nomatch h

theorem yields_attempt {ε' : Type} {p : Fallible O A ε α} {R : Except ε α → S → Prop}
    (h : Prog.Holds E p.run R s) : Yields E (attempt p : Fallible O A ε' (Except ε α)) R s := by
  refine holds_attempt (h.mono fun r s hr => ?_)
  rintro r' hr'
  obtain rfl := Except.ok.inj hr'
  exact hr

theorem Yields.and {p : Fallible O A ε α} (h : Yields E p Q s) (h' : Yields E p R s) :
    Yields E p (fun a s => Q a s ∧ R a s) s :=
  (Prog.Holds.and h h').mono fun _ _ hr a ha => ⟨hr.1 a ha, hr.2 a ha⟩

end Yielding

end Fallible

end Threads
