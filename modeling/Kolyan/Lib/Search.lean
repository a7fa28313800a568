/-
# Depth-first search with a visited set

The search a program writes as a recursive function over a mutable visited
set: stop at the target, skip a visited node, else mark the node and search its
successors in order.  The recursion is on a bound of its depth.  A search that
answers `false` has closed its visited set under successors and missed the
target, so the target is not reachable (`not_reachable_of_search`); a search that
answers `true` has followed a path (`reachable_of_search`).
-/

import Mathlib

namespace Search

variable {α : Type}

/-- Visit a list of nodes with `visit` until one visit finds the target. -/
def visitAny (visit : α → List α → Bool × List α) : List α → List α → Bool × List α
  | [], seen => (false, seen)
  | a :: as, seen =>
      match visit a seen with
      | (true, seen') => (true, seen')
      | (false, seen') => visitAny visit as seen'

/-- Depth-first search for `target`, at most `fuel` levels deep. -/
def search [DecidableEq α] (succ : α → List α) (target : α) : ℕ → α → List α → Bool × List α
  | 0, _, seen => (false, seen)
  | fuel + 1, a, seen =>
      if a = target then (true, seen)
      else if a ∈ seen then (false, seen)
      else visitAny (search succ target fuel) (succ a) (a :: seen)

variable {succ : α → List α} {target : α}

/-- `b` is a successor of `a`. -/
def Edge (succ : α → List α) (a b : α) : Prop := b ∈ succ a

theorem visitAny_true {visit : α → List α → Bool × List α} {as seen seen' : List α}
    (h : visitAny visit as seen = (true, seen')) :
    ∃ a ∈ as, ∃ s s', visit a s = (true, s') := by
  induction as generalizing seen with
  | nil => simp [visitAny] at h
  | cons a as ih =>
    rw [visitAny] at h
    split at h
    · exact ⟨a, List.mem_cons_self, seen, _, by assumption⟩
    · obtain ⟨b, hb, hv⟩ := ih h
      exact ⟨b, List.mem_cons_of_mem _ hb, hv⟩

theorem reachable_of_search [DecidableEq α] {fuel : ℕ} {a : α} {seen seen' : List α}
    (h : search succ target fuel a seen = (true, seen')) :
    Relation.ReflTransGen (Edge succ) a target := by
  induction fuel generalizing a seen seen' with
  | zero => simp [search] at h
  | succ fuel ih =>
    rw [search] at h
    split_ifs at h with ha hs
    · exact ha ▸ .refl
    · simp at h
    · obtain ⟨b, hb, s, s', hv⟩ := visitAny_true h
      exact .head hb (ih hv)

/-- What a failed visit leaves behind: a larger visited set, without the
target among the new nodes, holding every successor of a new node. -/
structure Closed (succ : α → List α) (target : α) (seen seen' : List α) : Prop where
  subset : seen ⊆ seen'
  target : target ∉ seen → target ∉ seen'
  edges : ∀ x ∈ seen', x ∉ seen → ∀ y ∈ succ x, y ∈ seen'

theorem Closed.refl (seen : List α) : Closed succ target seen seen :=
  ⟨List.Subset.refl _, id, fun _ hx hn => absurd hx hn⟩

theorem Closed.trans {s₁ s₂ s₃ : List α} (h : Closed succ target s₁ s₂)
    (h' : Closed succ target s₂ s₃) : Closed succ target s₁ s₃ where
  subset := List.Subset.trans h.subset h'.subset
  target ht := h'.target (h.target ht)
  edges x hx hn y hy := by
    by_cases hx₂ : x ∈ s₂
    · exact h'.subset (h.edges x hx₂ hn y hy)
    · exact h'.edges x hx hx₂ y hy

theorem visitAny_false {visit : α → List α → Bool × List α} {as seen seen' : List α}
    {P : List α → Prop} (hP : P seen)
    (hvisit : ∀ a ∈ as, ∀ s s', P s → visit a s = (false, s') →
      Closed succ target s s' ∧ a ∈ s' ∧ P s')
    (h : visitAny visit as seen = (false, seen')) :
    Closed succ target seen seen' ∧ (∀ a ∈ as, a ∈ seen') ∧ P seen' := by
  induction as generalizing seen with
  | nil =>
    obtain rfl : seen = seen' := by simpa [visitAny] using h
    exact ⟨.refl _, by simp, hP⟩
  | cons a as ih =>
    rw [visitAny] at h
    split at h
    · simp at h
    · rename_i s hs
      obtain ⟨hc, ha, hPs⟩ := hvisit a List.mem_cons_self seen s hP hs
      obtain ⟨hc', has, hP'⟩ := ih hPs (fun b hb => hvisit b (List.mem_cons_of_mem _ hb)) h
      exact ⟨hc.trans hc', List.forall_mem_cons.2 ⟨hc'.subset ha, has⟩, hP'⟩

section Decidable

variable [DecidableEq α]

/-- **A search that fails with enough fuel has closed its visited set.**  The
nodes with successors are among `nodes`; the fuel exceeds those not visited. -/
theorem closed_of_search {nodes : Finset α} (hnodes : ∀ a, succ a ≠ [] → a ∈ nodes)
    {fuel : ℕ} {a : α} {seen seen' : List α} (hfuel : (nodes \ seen.toFinset).card + 1 < fuel)
    (h : search succ target fuel a seen = (false, seen')) :
    Closed succ target seen seen' ∧ a ∈ seen' := by
  induction fuel generalizing a seen seen' with
  | zero => omega
  | succ fuel ih =>
    rw [search] at h
    split_ifs at h with ha hs
    · simp at h
    · obtain rfl : seen = seen' := by simpa using h
      exact ⟨.refl _, hs⟩
    · by_cases hempty : succ a = []
      · obtain rfl : a :: seen = seen' := by simpa [hempty, visitAny] using h
        refine ⟨⟨List.subset_cons_self _ _, fun ht => ?_, fun x hx hn y hy => ?_⟩,
          List.mem_cons_self⟩
        · simpa [Ne.symm ha] using ht
        · rcases List.mem_cons.1 hx with rfl | hx
          · simp [hempty] at hy
          · exact absurd hx hn
      · -- marking `a` uses up one of the nodes the fuel has to cover
        have hmark : ∀ s : List α, a :: seen ⊆ s →
            (nodes \ s.toFinset).card < (nodes \ seen.toFinset).card := by
          intro s hsub
          apply Finset.card_lt_card
          refine Finset.ssubset_iff_of_subset (fun x hx => ?_) |>.2 ⟨a, ?_, ?_⟩
          · simp only [Finset.mem_sdiff, List.mem_toFinset] at hx ⊢
            exact ⟨hx.1, fun hxs => hx.2 (hsub (List.mem_cons_of_mem _ hxs))⟩
          · simp [hnodes a hempty, hs]
          · simp [hsub List.mem_cons_self]
        have hvisit : Closed succ target (a :: seen) seen' ∧ (∀ b ∈ succ a, b ∈ seen') ∧
            a :: seen ⊆ seen' := visitAny_false (P := (a :: seen ⊆ ·))
          (List.Subset.refl _) (fun b _ s s' hsub hb => by
            have hlt := hmark s hsub
            obtain ⟨hc, hb'⟩ := ih (by omega) hb
            exact ⟨hc, hb', List.Subset.trans hsub hc.subset⟩) h
        obtain ⟨hc, hall, hsub⟩ := hvisit
        refine ⟨⟨fun x hx => hsub (List.mem_cons_of_mem _ hx), fun ht => hc.target ?_,
          fun x hx hn y hy => ?_⟩, hsub List.mem_cons_self⟩
        · simpa [Ne.symm ha] using ht
        · by_cases hxa : x = a
          · exact hall y (hxa ▸ hy)
          · exact hc.edges x hx (by simp [hxa, hn]) y hy

/-- **A search that fails from an empty visited set proves unreachability.** -/
theorem not_reachable_of_search {nodes : Finset α} (hnodes : ∀ a, succ a ≠ [] → a ∈ nodes)
    {fuel : ℕ} {a : α} {seen' : List α} (hfuel : nodes.card + 1 < fuel)
    (h : search succ target fuel a [] = (false, seen')) :
    ¬Relation.ReflTransGen (Edge succ) a target := by
  obtain ⟨hc, ha⟩ := closed_of_search hnodes (by simpa using hfuel) h
  have hstay : ∀ b, Relation.ReflTransGen (Edge succ) a b → b ∈ seen' := by
    intro b hb
    induction hb with
    | refl => exact ha
    | tail _ hstep ih => exact hc.edges _ ih (by simp) _ hstep
  exact fun hr => hc.target (by simp) (hstay _ hr)

theorem search_iff {nodes : Finset α} (hnodes : ∀ a, succ a ≠ [] → a ∈ nodes) {fuel : ℕ}
    (hfuel : nodes.card + 1 < fuel) (a : α) :
    (search succ target fuel a []).1 = true ↔ Relation.ReflTransGen (Edge succ) a target := by
  rcases h : search succ target fuel a [] with ⟨found, seen'⟩
  cases found with
  | true => simpa using reachable_of_search h
  | false => simpa using not_reachable_of_search hnodes hfuel h

end Decidable

end Search
