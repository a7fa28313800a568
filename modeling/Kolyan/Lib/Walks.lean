/-
# Depth-first walks with a stack and colours

A graph is walked from its roots with an explicit stack: entering a node that is
white checks the node, makes it gray and stacks its successors above its exit;
leaving it makes it black; entering a gray node is a cycle, and entering a black
one does nothing.  A walk also counts the nodes it entered against a cap, and adds
up their weights against a budget.

`Coloured` is what every walk keeps: the stack is layered by the gray nodes, each
a successor of the one below, and a successor of a gray node is black, still on
its layer, or the gray node above.  A walk that empties its stack has thereby
entered exactly the nodes that the roots reach (`admissible_of_walk`), and a walk
of a graph that is fit for it never sticks (`exists_step`).  Each step lowers
`measure`, so such a walk ends.
-/

import Mathlib

namespace Walks

open Relation

variable {α : Type*}

/-- What is left to do at a node. -/
inductive Task (α : Type*) where
  | enter (a : α)
  | exit (a : α)

/-- A walk under way. -/
structure Walk (α : Type*) where
  black : List α
  gray : List α
  weight : ℕ
  stack : List (Task α)

/-- A graph and the bounds of its walks: the check of a node, its weight, how many
nodes may be entered and how much they may weigh. -/
structure Graph (α : Type*) where
  succ : α → List α
  fit : α → Prop
  weight : α → ℕ
  cap : ℕ
  budget : ℕ

variable (G : Graph α) (roots : List α)

/-- The second node is a successor of the first. -/
def Graph.Edge (a b : α) : Prop := b ∈ G.succ a

/-- A root reaches the node. -/
def Graph.Reached (a : α) : Prop := ∃ r ∈ roots, ReflTransGen G.Edge r a

/-- **What a walk decides**: the nodes that the roots reach are few and light
enough, each is fit, and none is on a cycle. -/
def Graph.Admissible : Prop :=
  ∃ R : Finset α, (∀ a, a ∈ R ↔ G.Reached roots a) ∧ R.card ≤ G.cap ∧
    (∀ a ∈ R, G.fit a ∧ ¬TransGen G.Edge a a) ∧ ∑ a ∈ R, G.weight a ≤ G.budget

/-- Before the first step. -/
def start : Walk α := ⟨[], [], 0, roots.map .enter⟩

section Steps

variable [DecidableEq α]

/-- One step of a walk. -/
inductive Graph.Step : Walk α → Walk α → Prop
  | leave {a black gray weight stack} :
      Step ⟨black, gray, weight, .exit a :: stack⟩ ⟨a :: black, gray.erase a, weight, stack⟩
  | skip {a black gray weight stack} (hgray : a ∉ gray) (hblack : a ∈ black) :
      Step ⟨black, gray, weight, .enter a :: stack⟩ ⟨black, gray, weight, stack⟩
  | visit {a black gray weight stack} (hgray : a ∉ gray) (hblack : a ∉ black) (hfit : G.fit a)
      (hcap : black.length + gray.length < G.cap) (hbudget : weight + G.weight a ≤ G.budget) :
      Step ⟨black, gray, weight, .enter a :: stack⟩
        ⟨black, a :: gray, weight + G.weight a, (G.succ a).map .enter ++ .exit a :: stack⟩

end Steps

/-- The stack of a walk in layers, the top one first: `up` is the gray node that the
layer above belongs to. -/
inductive Layered (black : List α) : Option α → List α → List (Task α) → Prop
  | roots {up todo} (child : ∀ c, up = some c → c ∈ roots) (sub : todo ⊆ roots)
      (done : ∀ c ∈ roots, c ∈ black ∨ c ∈ todo ∨ up = some c) :
      Layered black up [] (todo.map .enter)
  | layer {up a gray todo stack} (child : ∀ c, up = some c → c ∈ G.succ a) (sub : todo ⊆ G.succ a)
      (done : ∀ c ∈ G.succ a, c ∈ black ∨ c ∈ todo ∨ up = some c)
      (below : Layered black (some a) gray stack) :
      Layered black up (a :: gray) (todo.map .enter ++ .exit a :: stack)

/-- What every walk keeps. -/
structure Coloured (w : Walk α) : Prop where
  layered : Layered G roots w.black none w.gray w.stack
  nodup : (w.black ++ w.gray).Nodup
  reached : ∀ a, a ∈ w.black ∨ a ∈ w.gray ∨ .enter a ∈ w.stack → G.Reached roots a
  closed : ∀ a ∈ w.black, ∀ b ∈ G.succ a, b ∈ w.black
  acyclic : ∀ a ∈ w.black, ¬TransGen G.Edge a a
  fit : ∀ a, a ∈ w.black ∨ a ∈ w.gray → G.fit a
  cap : w.black.length + w.gray.length ≤ G.cap
  weight : w.weight = ((w.black ++ w.gray).map G.weight).sum
  budget : w.weight ≤ G.budget

variable {G} {roots} {black gray : List α} {stack : List (Task α)} {up : Option α} {a b c : α}
  {w w' : Walk α}

section Layers

theorem Layered.darken (h : Layered G roots black (some a) gray stack) :
    Layered G roots (a :: black) none gray stack := by
  generalize hup : some a = up at h
  have hmono : ∀ {up gray stack}, Layered G roots black up gray stack →
      Layered G roots (a :: black) up gray stack := by
    intro up gray stack h
    induction h with
    | roots child sub done =>
      exact .roots child sub fun c hc => (done c hc).imp_left (List.mem_cons_of_mem _)
    | layer child sub done _ ih =>
      exact .layer child sub (fun c hc => (done c hc).imp_left (List.mem_cons_of_mem _)) ih
  cases h with
  | roots child sub done =>
    subst hup
    refine .roots nofun sub fun c hc => ?_
    rcases done c hc with h | h | h
    · exact Or.inl (List.mem_cons_of_mem _ h)
    · exact Or.inr (Or.inl h)
    · exact Or.inl (Option.some.inj h ▸ List.mem_cons_self)
  | layer child sub done below =>
    subst hup
    refine .layer nofun sub (fun c hc => ?_) (hmono below)
    rcases done c hc with h | h | h
    · exact Or.inl (List.mem_cons_of_mem _ h)
    · exact Or.inr (Or.inl h)
    · exact Or.inl (Option.some.inj h ▸ List.mem_cons_self)

theorem Layered.of_exit (h : Layered G roots black none gray (.exit a :: stack)) :
    ∃ gray', gray = a :: gray' ∧ Layered G roots black (some a) gray' stack ∧
      ∀ c ∈ G.succ a, c ∈ black := by
  generalize hst : Task.exit a :: stack = st at h
  generalize hup : (none : Option α) = up at h
  cases h with
  | @roots _ todo child sub done => cases todo <;> simp at hst
  | @layer _ g gray' todo stack' child sub done below =>
    cases todo with
    | cons _ _ => simp at hst
    | nil =>
      obtain ⟨rfl, rfl⟩ : a = g ∧ stack = stack' := by simpa using hst
      refine ⟨gray', rfl, below, fun c hc => ?_⟩
      rcases done c hc with h | h | h
      · exact h
      · simp at h
      · simp [← hup] at h

theorem Layered.of_enter (h : Layered G roots black none gray (.enter a :: stack)) :
    (a ∈ black → Layered G roots black none gray stack) ∧ Layered G roots black (some a) gray stack := by
  generalize hst : Task.enter a :: stack = st at h
  generalize hup : (none : Option α) = up at h
  cases h with
  | @roots _ todo child sub done =>
    cases todo with
    | nil => simp at hst
    | cons b todo =>
      obtain ⟨rfl, rfl⟩ : a = b ∧ stack = todo.map .enter := by simpa using hst
      have hsub : todo ⊆ roots := List.Subset.trans (List.subset_cons_self _ _) sub
      subst hup
      refine ⟨fun hblack => .roots nofun hsub fun c hc => ?_, .roots ?_ hsub fun c hc => ?_⟩
      · rcases done c hc with h | h | h
        · exact Or.inl h
        · rcases List.mem_cons.1 h with rfl | h
          · exact Or.inl hblack
          · exact Or.inr (Or.inl h)
        · simp at h
      · rintro c ⟨rfl⟩
        exact sub List.mem_cons_self
      · rcases done c hc with h | h | h
        · exact Or.inl h
        · rcases List.mem_cons.1 h with rfl | h
          · exact Or.inr (Or.inr rfl)
          · exact Or.inr (Or.inl h)
        · simp at h
  | @layer _ g gray' todo stack' child sub done below =>
    cases todo with
    | nil => simp at hst
    | cons b todo =>
      obtain ⟨rfl, rfl⟩ : a = b ∧ stack = todo.map .enter ++ .exit g :: stack' := by simpa using hst
      have hsub : todo ⊆ G.succ g := List.Subset.trans (List.subset_cons_self _ _) sub
      subst hup
      refine ⟨fun hblack => .layer nofun hsub (fun c hc => ?_) below,
        .layer ?_ hsub (fun c hc => ?_) below⟩
      · rcases done c hc with h | h | h
        · exact Or.inl h
        · rcases List.mem_cons.1 h with rfl | h
          · exact Or.inl hblack
          · exact Or.inr (Or.inl h)
        · simp at h
      · rintro c ⟨rfl⟩
        exact sub List.mem_cons_self
      · rcases done c hc with h | h | h
        · exact Or.inl h
        · rcases List.mem_cons.1 h with rfl | h
          · exact Or.inr (Or.inr rfl)
          · exact Or.inr (Or.inl h)
        · simp at h

theorem Layered.path (h : Layered G roots black up gray stack) (hup : up = some c) :
    ∀ a ∈ gray, TransGen G.Edge a c := by
  induction h generalizing c with
  | roots => simp
  | @layer _ g _ _ _ child _ _ _ ih =>
    have hedge : G.Edge g c := child c hup
    intro a ha
    rcases List.mem_cons.1 ha with rfl | ha
    · exact .single hedge
    · exact (ih rfl a ha).tail hedge

theorem Layered.of_nil (h : Layered G roots black none gray []) :
    gray = [] ∧ ∀ r ∈ roots, r ∈ black := by
  generalize hst : ([] : List (Task α)) = st at h
  generalize hup : (none : Option α) = up at h
  cases h with
  | @roots _ todo child sub done =>
    obtain rfl : todo = [] := by simpa using hst.symm
    refine ⟨rfl, fun r hr => ?_⟩
    rcases done r hr with h | h | h
    · exact h
    · simp at h
    · simp [← hup] at h
  | layer => simp at hst

end Layers

section Runs

theorem Coloured.start : Coloured G roots (start roots) where
  layered := .roots nofun (List.Subset.refl _) fun _ hc => Or.inr (Or.inl hc)
  nodup := List.nodup_nil
  reached a ha := by
    obtain ⟨r, hr, rfl⟩ : ∃ r ∈ roots, r = a := by simpa [Walks.start] using ha
    exact ⟨r, hr, .refl⟩
  closed := nofun
  acyclic := nofun
  fit := by simp [Walks.start]
  cap := Nat.zero_le _
  weight := rfl
  budget := Nat.zero_le _

variable [DecidableEq α]

theorem Coloured.step (h : Coloured G roots w) (hstep : G.Step w w') : Coloured G roots w' := by
  cases hstep with
  | @leave a black gray weight stack =>
    obtain ⟨gray', rfl, hlayered, hdone⟩ := h.layered.of_exit
    rw [List.erase_cons_head]
    have hnodup : (a :: (black ++ gray')).Nodup := by
      have := h.nodup
      exact (List.perm_middle.nodup_iff).1 this
    refine ⟨hlayered.darken, hnodup, fun b hb => h.reached b ?_, fun b hb c hc => ?_, fun b hb => ?_,
      fun b hb => h.fit b ?_, ?_, ?_, h.budget⟩
    · simp only [List.mem_cons] at hb ⊢
      grind
    · rcases List.mem_cons.1 hb with rfl | hb
      · exact List.mem_cons_of_mem _ (hdone c hc)
      · exact List.mem_cons_of_mem _ (h.closed b hb c hc)
    · rcases List.mem_cons.1 hb with rfl | hb
      · -- a cycle would lead from its successors, which are black, back to it
        intro hcycle
        have hblack : ∀ c, TransGen G.Edge b c → c ∈ black := by
          intro c hc
          induction hc with
          | single hc => exact hdone _ hc
          | tail _ hc ih => exact h.closed _ ih _ hc
        exact (List.nodup_cons.1 hnodup).1 (List.mem_append_left _ (hblack b hcycle))
      · exact h.acyclic b hb
    · simp only [List.mem_cons] at hb ⊢
      grind
    · have := h.cap
      simp only [List.length_cons] at this ⊢
      omega
    · exact h.weight.trans (List.perm_middle.map G.weight).sum_eq
  | @skip a black gray weight stack hgray hblack =>
    exact ⟨h.layered.of_enter.1 hblack, h.nodup,
      fun b hb => h.reached b (hb.imp_right (Or.imp_right (List.mem_cons_of_mem _))), h.closed,
      h.acyclic, h.fit, h.cap, h.weight, h.budget⟩
  | @visit a black gray weight stack hgray hblack hfit hcap hbudget =>
    have hreached : G.Reached roots a := h.reached a (Or.inr (Or.inr List.mem_cons_self))
    refine ⟨.layer nofun (List.Subset.refl _) (fun c hc => Or.inr (Or.inl hc)) h.layered.of_enter.2, ?_,
      fun b hb => ?_, h.closed, h.acyclic, fun b hb => ?_, ?_, ?_, hbudget⟩
    · refine (List.perm_middle.nodup_iff).2 (List.nodup_cons.2 ⟨?_, h.nodup⟩)
      exact fun hmem => (List.mem_append.1 hmem).elim hblack hgray
    · obtain ⟨r, hr, hra⟩ := hreached
      rcases hb with hb | hb | hb
      · exact h.reached b (Or.inl hb)
      · rcases List.mem_cons.1 hb with rfl | hb
        · exact ⟨r, hr, hra⟩
        · exact h.reached b (Or.inr (Or.inl hb))
      · rcases List.mem_append.1 hb with hb | hb
        · obtain ⟨c, hc, hcb⟩ := List.mem_map.1 hb
          obtain rfl : c = b := Task.enter.inj hcb
          exact ⟨r, hr, hra.tail hc⟩
        · have hb : Task.enter b ∈ stack := by simpa using hb
          exact h.reached b (Or.inr (Or.inr (List.mem_cons_of_mem _ hb)))
    · rcases hb with hb | hb
      · exact h.fit b (Or.inl hb)
      · rcases List.mem_cons.1 hb with rfl | hb
        · exact hfit
        · exact h.fit b (Or.inr hb)
    · simp only [List.length_cons]
      omega
    · have hsum := (List.perm_middle : (black ++ a :: gray).Perm (a :: (black ++ gray))).map G.weight
      have hw : weight = ((black ++ gray).map G.weight).sum := h.weight
      rw [hsum.sum_eq, List.map_cons, List.sum_cons, ← hw, Nat.add_comm]

theorem Coloured.walk (hwalk : ReflTransGen G.Step (Walks.start roots) w) : Coloured G roots w := by
  induction hwalk with
  | refl => exact .start
  | tail _ hstep ih => exact ih.step hstep

omit [DecidableEq α] in
theorem Coloured.reached_iff (h : Coloured G roots w) (hnil : w.stack = []) :
    w.gray = [] ∧ ∀ a, a ∈ w.black ↔ G.Reached roots a := by
  have hlayered := h.layered
  rw [hnil] at hlayered
  obtain ⟨hgray, hroots⟩ := hlayered.of_nil
  refine ⟨hgray, fun a => ⟨fun ha => h.reached a (Or.inl ha), ?_⟩⟩
  rintro ⟨r, hr, hra⟩
  induction hra with
  | refl => exact hroots r hr
  | tail _ hedge ih => exact h.closed _ ih _ hedge

theorem admissible_of_walk (hwalk : ReflTransGen G.Step (Walks.start roots) w) (hnil : w.stack = []) :
    G.Admissible roots := by
  have h := Coloured.walk hwalk
  obtain ⟨hgray, hiff⟩ := h.reached_iff hnil
  have hnodup : w.black.Nodup := by
    have := h.nodup
    rwa [hgray, List.append_nil] at this
  refine ⟨w.black.toFinset, fun a => by rw [List.mem_toFinset, hiff], ?_, fun a ha => ?_, ?_⟩
  · have := h.cap
    rw [List.toFinset_card_of_nodup hnodup]
    omega
  · have ha := List.mem_toFinset.1 ha
    exact ⟨h.fit a (Or.inl ha), h.acyclic a ha⟩
  · rw [List.sum_toFinset _ hnodup]
    have hweight := h.weight
    rw [hgray, List.append_nil] at hweight
    exact hweight ▸ h.budget

/-- **A walk of an admissible graph goes on** until its stack is empty. -/
theorem exists_step (hG : G.Admissible roots) (hwalk : ReflTransGen G.Step (Walks.start roots) w)
    (hnil : w.stack ≠ []) : ∃ w', G.Step w w' := by
  have h := Coloured.walk hwalk
  obtain ⟨black, gray, weight, stack⟩ := w
  obtain ⟨R, hR, hcap, hall, hbudget⟩ := hG
  match stack, hnil with
  | .exit a :: stack, _ => exact ⟨_, .leave⟩
  | .enter a :: stack, _ =>
    have haR : a ∈ R := (hR a).2 (h.reached a (Or.inr (Or.inr List.mem_cons_self)))
    have hgray : a ∉ gray := fun hgray =>
      (hall a haR).2 (h.layered.of_enter.2.path rfl a hgray)
    by_cases hblack : a ∈ black
    · exact ⟨_, .skip hgray hblack⟩
    · -- the nodes entered so far and this one are distinct nodes of `R`
      have hnodup : (a :: (black ++ gray)).Nodup :=
        List.nodup_cons.2 ⟨fun hmem => (List.mem_append.1 hmem).elim hblack hgray, h.nodup⟩
      have hsub : (a :: (black ++ gray)).toFinset ⊆ R := by
        intro b hb
        rcases List.mem_cons.1 (List.mem_toFinset.1 hb) with rfl | hb
        · exact haR
        · exact (hR b).2 (h.reached b ((List.mem_append.1 hb).imp_right Or.inl))
      have hcard := Finset.card_le_card hsub
      rw [List.toFinset_card_of_nodup hnodup, List.length_cons, List.length_append] at hcard
      have hsum := Finset.sum_le_sum_of_subset (f := G.weight) hsub
      have hweight : weight = ((black ++ gray).map G.weight).sum := h.weight
      rw [List.sum_toFinset _ hnodup, List.map_cons, List.sum_cons, ← hweight] at hsum
      exact ⟨_, .visit hgray hblack (hall a haR).1 (by omega) (by omega)⟩

/-- How much is left of a walk whose nodes have at most `d` successors. -/
def measure (G : Graph α) (d : ℕ) (w : Walk α) : ℕ :=
  (d + 1) * (G.cap - (w.black.length + w.gray.length)) + w.stack.length

theorem measure_step {d : ℕ} (hd : ∀ a, G.fit a → (G.succ a).length ≤ d) (h : Coloured G roots w)
    (hstep : G.Step w w') : measure G d w' < measure G d w := by
  cases hstep with
  | @leave a black gray weight stack =>
    obtain ⟨gray', rfl, -, -⟩ := h.layered.of_exit
    simp only [measure, List.erase_cons_head, List.length_cons]
    rw [show black.length + 1 + gray'.length = black.length + (gray'.length + 1) by omega]
    omega
  | skip => simp [measure]
  | @visit a black gray weight stack hgray hblack hfit hcap hbudget =>
    have hlen := hd a hfit
    simp only [measure, List.length_cons, List.length_append, List.length_map]
    rw [show black.length + (gray.length + 1) = black.length + gray.length + 1 by omega]
    obtain ⟨k, hk⟩ := Nat.exists_eq_add_one_of_ne_zero
      (show G.cap - (black.length + gray.length) ≠ 0 by omega)
    rw [hk, show G.cap - (black.length + gray.length + 1) = k by omega, Nat.mul_succ]
    omega

end Runs

end Walks
