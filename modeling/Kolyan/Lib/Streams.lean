/-
# Polled streams

A stream that its consumer polls: a poll answers at once that nothing is there
yet, an item, or the end, and leaves a state.  A poll that stops the program (an
`expect` on an absent part) answers nothing.  `items` is what the first `n` polls
yield, to a consumer that goes on polling after the end as well, and `consume`
folds a stream up to its end with a step that may fail.

What a stream may yield is said by an automaton over its items (`Obeys`): a
relation between the states and the phases, kept by each poll, makes every list
of items a word of the automaton (`Obeys.items`), and no poll stops the program
(`Obeys.answers_after`).
-/

import Mathlib

namespace Streams

/-- `Poll`. -/
inductive Poll (α : Type*) where
  | pending
  | ready (a : α)

/-- A stream over the states `σ` with the items `α`. -/
abbrev Polls (σ α : Type*) := σ → Option (Poll (Option α) × σ)

variable {σ α β ε γ φ : Type*}

/-- The items of the first `n` polls. -/
def items (p : Polls σ α) : ℕ → σ → List α
  | 0, _ => []
  | n + 1, s =>
      match p s with
      | none => []
      | some (.ready (some a), s') => a :: items p n s'
      | some (_, s') => items p n s'

/-- The state after `n` polls. -/
def after (p : Polls σ α) : ℕ → σ → Option σ
  | 0, s => some s
  | n + 1, s => (p s).bind fun r => after p n r.2

/-- Fold a stream up to its end, in at most `n` polls. -/
def consume (p : Polls σ α) (step : β → α → Except ε β) (finish : β → Except ε γ) :
    ℕ → β → σ → Option (Except ε γ)
  | 0, _, _ => none
  | n + 1, b, s =>
      match p s with
      | none => none
      | some (.pending, s') => consume p step finish n b s'
      | some (.ready none, _) => some (finish b)
      | some (.ready (some a), s') =>
          match step b a with
          | .error e => some (.error e)
          | .ok b' => consume p step finish n b' s'

variable {p : Polls σ α} {s s' : σ}

section Unfolding

variable {step : β → α → Except ε β} {finish : β → Except ε γ} {b b' : β} {n : ℕ} {a : α}

theorem items_end (h : p s = some (.ready none, s')) : items p (n + 1) s = items p n s' := by
  rw [items, h]

theorem items_item (h : p s = some (.ready (some a), s')) : items p (n + 1) s = a :: items p n s' := by
  rw [items, h]

theorem consume_pending (h : p s = some (.pending, s')) :
    consume p step finish (n + 1) b s = consume p step finish n b s' := by
  rw [consume, h]

theorem consume_end (h : p s = some (.ready none, s')) :
    consume p step finish (n + 1) b s = some (finish b) := by
  rw [consume, h]

theorem consume_item (h : p s = some (.ready (some a), s')) (hb : step b a = .ok b') :
    consume p step finish (n + 1) b s = consume p step finish n b' s' := by
  rw [consume, h]
  simp only [hb]

theorem consume_fails {e : ε} (h : p s = some (.ready (some a), s')) (hb : step b a = .error e) :
    consume p step finish (n + 1) b s = some (.error e) := by
  rw [consume, h]
  simp only [hb]

end Unfolding

/-- A poll of a state in phase `x` answers, and an item is one that the automaton
takes there. -/
def Obeys (p : Polls σ α) (take : φ → α → Option φ) (R : σ → φ → Prop) : Prop :=
  ∀ {s x}, R s x → (∃ s', p s = some (.pending, s') ∧ R s' x) ∨
    (∃ s', p s = some (.ready none, s') ∧ R s' x) ∨
    ∃ a s' y, p s = some (.ready (some a), s') ∧ take x a = some y ∧ R s' y

namespace Obeys

variable {take : φ → α → Option φ} {R : σ → φ → Prop} {x : φ}

/-- **The items of a stream that obeys an automaton are a word of it**, however
often the stream is polled. -/
theorem items (h : Obeys p take R) (n : ℕ) (hR : R s x) :
    ∃ y, (Streams.items p n s).foldlM take x = some y := by
  induction n generalizing s x with
  | zero => exact ⟨x, rfl⟩
  | succ n ih =>
    rcases h hR with ⟨s', hp, hR'⟩ | ⟨s', hp, hR'⟩ | ⟨a, s', y, hp, hy, hR'⟩
    · rw [Streams.items, hp]
      exact ih hR'
    · rw [Streams.items, hp]
      exact ih hR'
    · rw [Streams.items, hp]
      obtain ⟨z, hz⟩ := ih hR'
      exact ⟨z, by simp [List.foldlM_cons, hy, hz]⟩

theorem answers_after (h : Obeys p take R) (n : ℕ) (hR : R s x) : (after p n s).isSome := by
  induction n generalizing s x with
  | zero => rfl
  | succ n ih =>
    rcases h hR with ⟨s', hp, hR'⟩ | ⟨s', hp, hR'⟩ | ⟨a, s', y, hp, _, hR'⟩
    all_goals
      rw [after, hp, Option.bind_some]
      exact ih hR'

end Obeys

theorem word_split {take : φ → α → Option φ} {x z : φ} {before rest : List α} {a : α}
    (h : (before ++ a :: rest).foldlM take x = some z) :
    ∃ y y', before.foldlM take x = some y ∧ take y a = some y' ∧ rest.foldlM take y' = some z := by
  rw [List.foldlM_append] at h
  obtain ⟨y, hy, h⟩ := Option.bind_eq_some_iff.1 h
  rw [List.foldlM_cons] at h
  obtain ⟨y', hy', h⟩ := Option.bind_eq_some_iff.1 h
  exact ⟨y, y', hy, hy', h⟩

end Streams
