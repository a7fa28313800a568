/-
# The call forest

Parents are admitted before their children, and every chain of parents ends at
the one root: `Ancestry` is such a chain, with the number of invocations on it and
the number of its call edges.  A continuation is a link of the chain but not a
call, and the loop of `admit` counts as `Ancestry` does (`ancestorDepth_eq`), so
the check of the recursion budget at each admission bounds every chain there will
ever be.
-/

import Kolyan.Tasks.Accounting

namespace Kolyan
namespace Tasks

open Checks Facts OrderedMaps Relation Acyclicity

/-- The chain of parents from `i` up to a root `r`: `n` invocations, of which `d`
are called by the next one. -/
inductive Ancestry (t : Topology) : String → String → ℕ → ℕ → Prop
  | root {i definition} (h : t i = some definition) (hparent : definition.parentInvocationId = none) :
      Ancestry t i i 1 0
  | child {i p r definition n d} (h : t i = some definition)
      (hparent : definition.parentInvocationId = some p) (above : Ancestry t p r n d) :
      Ancestry t i r (n + 1) (d + if definition.role = .continuation then 0 else 1)

/-- The predecessor of a continuation has completed, and is a dependency. -/
def Continues (state : TaskSnapshot) (definition : InvocationDefinition) : Prop :=
  ∃ (p : String) (owner : InvocationSnapshot), definition.parentInvocationId = some p ∧
    state.invocations[p]? = some owner ∧ owner.state = .completed ∧ p ∈ definition.dependencies

/-- What holds of the invocations of a snapshot. -/
structure Forest (state : TaskSnapshot) : Prop where
  root : ∀ (i : String) (inv : InvocationSnapshot), state.invocations[i]? = some inv →
    (inv.definition.role = .root ↔ inv.definition.parentInvocationId = none)
  unique : ∀ (i j : String) (inv inv' : InvocationSnapshot), state.invocations[i]? = some inv →
    state.invocations[j]? = some inv' → inv.definition.role = .root → inv'.definition.role = .root → i = j
  ancestry : ∀ (i : String) (inv : InvocationSnapshot), state.invocations[i]? = some inv →
    ∃ r n d, Ancestry state.topology i r n d ∧ n ≤ state.invocations.size ∧
      d ≤ state.definition.limits.maxDepth
  continuation : ∀ (i : String) (inv : InvocationSnapshot), state.invocations[i]? = some inv →
    inv.definition.role = .continuation → Continues state inv.definition
  invocations : state.invocations.size ≤ state.definition.limits.maxInvocations
  attempts : state.attempts.size ≤ state.definition.limits.maxAttempts

section Chains

variable {t t' : Topology} {invocations : BTreeMap InvocationSnapshot} {i r : String} {n d : ℕ}

theorem Ancestry.path (h : Ancestry t i r n d) :
    ReflTransGen (HasParent t) i r ∧ ∃ definition, t r = some definition ∧
      definition.parentInvocationId = none := by
  induction h with
  | root h hparent => exact ⟨.refl, _, h, hparent⟩
  | child h hparent _ ih => exact ⟨.head ⟨_, h, hparent⟩ ih.1, ih.2⟩

theorem Ancestry.mono (h : Ancestry t i r n d)
    (hkeeps : ∀ i definition, t i = some definition → ∃ definition', t' i = some definition' ∧
      definition'.role = definition.role ∧
      definition'.parentInvocationId = definition.parentInvocationId) : Ancestry t' i r n d := by
  induction h with
  | root h hparent =>
    obtain ⟨_, h', _, hsame⟩ := hkeeps _ _ h
    exact .root h' (hsame.trans hparent)
  | child h hparent _ ih =>
    obtain ⟨_, h', hrole, hsame⟩ := hkeeps _ _ h
    rw [← hrole]
    exact .child h' (hsame.trans hparent) ih

theorem topologyOf_eq_some {invocation : InvocationDefinition} :
    topologyOf invocations i = some invocation ↔
      ∃ inv, invocations[i]? = some inv ∧ inv.definition = invocation := Option.map_eq_some_iff

/-- **The ancestor loop counts the call edges of the chain**, and stops within as
many rounds as the chain has invocations. -/
theorem ancestorDepth_eq (h : Ancestry (topologyOf invocations) i r n d) {fuel : ℕ}
    (hfuel : n ≤ fuel) (depth : ℕ) :
    ancestorDepth invocations fuel invocations[i]? depth = some (depth + d) := by
  induction h generalizing fuel depth with
  | root h hparent =>
    obtain ⟨inv, hinv, rfl⟩ := topologyOf_eq_some.1 h
    obtain ⟨fuel, rfl⟩ := Nat.exists_eq_add_of_le hfuel
    rw [hinv, Nat.add_comm 1 fuel, ancestorDepth]
    simp [hparent, ancestorDepth]
  | @child i p r definition n d h hparent _ ih =>
    obtain ⟨inv, hinv, rfl⟩ := topologyOf_eq_some.1 h
    obtain ⟨fuel, rfl⟩ := Nat.exists_eq_add_of_le hfuel
    have hfuel' : n ≤ n + fuel := by omega
    rw [hinv, show n + 1 + fuel = n + fuel + 1 by omega, ancestorDepth]
    simp only [hparent, Option.isSome_some, true_and, Option.bind_some]
    rw [ih hfuel', Option.some.injEq]
    by_cases hrole : inv.definition.role = .continuation
    · simp [hrole]
    · simp only [hrole, ne_eq, not_false_eq_true, if_true, if_false]
      omega

end Chains

section Steps

variable {record : FactRecord} {state moved : TaskSnapshot} {event : TaskEvent}

theorem Effect.invocations_size (h : Effect record state event moved) :
    state.invocations.size ≤ moved.invocations.size ∧
      (state.invocations.size ≤ state.definition.limits.maxInvocations →
        moved.invocations.size ≤ state.definition.limits.maxInvocations) := by
  have hmove : ∀ {k : String} {old new : InvocationSnapshot}, state.invocations[k]? = some old →
      (state.invocations.insert k new).size = state.invocations.size := fun hold =>
    size_insert_of_mem (mem_of_getElem? hold)
  have hsame : moved.invocations.size = state.invocations.size →
      state.invocations.size ≤ moved.invocations.size ∧
      (state.invocations.size ≤ state.definition.limits.maxInvocations →
        moved.invocations.size ≤ state.definition.limits.maxInvocations) := by
    intro hsize
    omega
  cases h with
  | budgeted _ startable => exact hsame (hmove startable.lookup)
  | started _ startable => exact hsame (hmove startable.lookup)
  | @admitted definition admissible =>
    have hsize := size_insert_of_notMem (v := InvocationSnapshot.admitted definition)
      admissible.fresh.invocation
    have hroom := admissible.room
    show _ ≤ (state.invocations.insert _ _).size ∧ (_ → (state.invocations.insert _ _).size ≤ _)
    omega
  | depended lookup _ => exact hsame (hmove lookup)
  | observed o => exact hsame (hmove o.owner)
  | resumed r => exact hsame (hmove r.owner)
  | recovered _ _ owner => exact hsame (hmove owner)
  | authorized a => exact hsame (hmove a.owner)
  | consumed c => exact hsame (hmove c.lookup)
  | consumedTerminal c => exact hsame (hmove c.lookup)
  | cancelled => exact hsame Std.ExtTreeMap.size_map
  | _ => exact hsame rfl

theorem Effect.attempts_size (h : Effect record state event moved)
    (hle : state.attempts.size ≤ state.definition.limits.maxAttempts) :
    moved.attempts.size ≤ state.definition.limits.maxAttempts := by
  have hmove : ∀ {k : String} {old new : AttemptSnapshot}, state.attempts[k]? = some old →
      (state.attempts.insert k new).size ≤ state.definition.limits.maxAttempts := by
    intro k old new hold
    rwa [size_insert_of_mem (mem_of_getElem? hold)]
  have hstart : ∀ {inv binding}, Startable state inv binding →
      (state.started inv binding).attempts.size ≤ state.definition.limits.maxAttempts := by
    intro inv binding hs
    show (state.attempts.insert _ _).size ≤ _
    have hroom := hs.room
    rw [size_insert_of_notMem hs.attempt.attempt]
    omega
  cases h with
  | budgeted _ startable => exact hstart startable
  | started _ startable => exact hstart startable
  | observed o => exact hmove o.lookup
  | resumed r => exact hmove r.lookup
  | recovered lookup _ _ => exact hmove lookup
  | authorized a => exact hmove a.lookup
  | cancelled =>
    show (state.attempts.map _).size ≤ _
    rwa [Std.ExtTreeMap.size_map]
  | _ => exact hle

/-- What an admission found: a first root, or a parent that lets it be called. -/
theorem Admissible.place {definition : InvocationDefinition} (h : Admissible state definition) :
    (definition.role = .root ∧ definition.parentInvocationId = none ∧
      ∀ (i : String) (inv : InvocationSnapshot), state.invocations[i]? = some inv →
        inv.definition.role ≠ .root) ∨
    ∃ p owner depth, definition.role ≠ .root ∧ definition.parentInvocationId = some p ∧
      state.invocations[p]? = some owner ∧
      (definition.role = .continuation → owner.state = .completed ∧ p ∈ definition.dependencies) ∧
      ancestorDepth state.invocations (state.invocations.size + 1) state.invocations[p]?
        (if definition.role ≠ .continuation then 1 else 0) = some depth ∧
      depth ≤ state.definition.limits.maxDepth := by
  have hcheck := h.role
  unfold checkRole at hcheck
  split_ifs at hcheck with hroot
  · left
    simp only [checkRoot, bind_eq_ok, reject_eq_ok, not_or] at hcheck
    obtain ⟨_, _, hparent, hno, _⟩ := hcheck
    refine ⟨hroot, by simpa using hparent, fun i inv hinv hrole => hno ?_⟩
    simp only [List.any_eq_true, decide_eq_true_eq]
    exact ⟨inv, mem_values.2 ⟨i, hinv⟩, hrole⟩
  · right
    simp only [checkChild, bind_eq_ok, expect_eq_ok, reject_eq_ok] at hcheck
    obtain ⟨p, hp, owner, howner, _, hopen, _, _, depth, hdepth, hle⟩ := hcheck
    refine ⟨p, owner, depth, hroot, hp, howner, fun hcontinuation => ?_, howner ▸ hdepth, by omega⟩
    simpa [checkOwner, hcontinuation] using hopen

theorem Continues.step {definition definition' : InvocationDefinition} (hc : Continues state definition)
    (h : Effect record state event moved) (ho : state.Owned) (hs : state.InStep)
    (hparent : definition'.parentInvocationId = definition.parentInvocationId)
    (hdependencies : definition.dependencies <+: definition'.dependencies) :
    Continues moved definition' := by
  obtain ⟨p, owner, hp, howner, hcompleted, hmem⟩ := hc
  obtain ⟨owner', howner', hkeeps⟩ := h.keeps ho hs howner
  have hend : owner.state.isTerminal = true := by rw [hcompleted]; rfl
  obtain ⟨hstate, _⟩ := hkeeps.settled hend fun hfailed => by simp [hcompleted] at hfailed
  exact ⟨p, owner', hparent.trans hp, howner', hstate.trans hcompleted, hdependencies.subset hmem⟩

theorem Forest.step (hf : Forest state) (h : Effect record state event moved) (ho : state.Owned)
    (hs : state.InStep) : Forest moved := by
  have hkept : ∀ i definition, state.topology i = some definition → ∃ definition',
      moved.topology i = some definition' ∧ definition'.role = definition.role ∧
      definition'.parentInvocationId = definition.parentInvocationId := by
    intro i definition hi
    obtain ⟨inv, hinv, rfl⟩ := topologyOf_eq_some.1 hi
    obtain ⟨inv', hinv', hkeeps⟩ := h.keeps ho hs hinv
    exact ⟨inv'.definition, topologyOf_eq_some.2 ⟨inv', hinv', rfl⟩, hkeeps.role, hkeeps.parent⟩
  obtain ⟨hgrows, hlimit⟩ := h.invocations_size
  -- an invocation of the next snapshot is an old one, or the one just admitted
  have horigin : ∀ {i : String} {inv' : InvocationSnapshot}, moved.invocations[i]? = some inv' →
      (∃ inv, state.invocations[i]? = some inv ∧ Keeps event i inv inv') ∨
      (event = .invocationAdmitted inv'.definition ∧ Admissible state inv'.definition ∧
        i = inv'.definition.invocationId ∧
        moved.invocations.size = state.invocations.size + 1) := by
    intro i inv' hinv'
    rcases h.invocation_origin hinv' with ⟨definition, rfl, hadmissible, rfl, rfl⟩ | ⟨inv, hinv, _⟩
    · refine Or.inr ⟨rfl, hadmissible, rfl, ?_⟩
      cases h with
      | admitted a => exact size_insert_of_notMem a.fresh.invocation
    · obtain ⟨next, hnext, hkeeps⟩ := h.keeps ho hs hinv
      obtain rfl : next = inv' := Option.some.inj (hnext.symm.trans hinv')
      exact Or.inl ⟨inv, hinv, hkeeps⟩
  refine ⟨fun i inv' hinv' => ?_, fun i j inv₁ inv₂ h₁ h₂ hrole₁ hrole₂ => ?_, fun i inv' hinv' => ?_,
    fun i inv' hinv' hrole => ?_, ?_, ?_⟩
  · rcases horigin hinv' with ⟨inv, hinv, hkeeps⟩ | ⟨_, hadmissible, _, _⟩
    · rw [hkeeps.role, hkeeps.parent]
      exact hf.root i inv hinv
    · rcases hadmissible.place with ⟨hroot, hparent, _⟩ | ⟨p, _, _, hroot, hparent, _⟩
      · simp [hroot, hparent]
      · simp [hroot, hparent]
  · have hfirst : ∀ {k : String} {inv : InvocationSnapshot} {definition : InvocationDefinition},
        Admissible state definition → definition.role = .root → state.invocations[k]? = some inv →
        inv.definition.role ≠ .root := by
      intro k inv definition hadmissible hroot hinv
      rcases hadmissible.place with ⟨_, _, hno⟩ | ⟨_, _, _, hnot, _⟩
      · exact hno k inv hinv
      · exact absurd hroot hnot
    rcases horigin h₁ with ⟨old₁, hold₁, hkeeps₁⟩ | ⟨hevent₁, hadmissible₁, hi, _⟩ <;>
      rcases horigin h₂ with ⟨old₂, hold₂, hkeeps₂⟩ | ⟨hevent₂, hadmissible₂, hj, _⟩
    · exact hf.unique i j old₁ old₂ hold₁ hold₂ (hkeeps₁.role ▸ hrole₁) (hkeeps₂.role ▸ hrole₂)
    · exact absurd (hkeeps₁.role ▸ hrole₁) (hfirst hadmissible₂ hrole₂ hold₁)
    · exact absurd (hkeeps₂.role ▸ hrole₂) (hfirst hadmissible₁ hrole₁ hold₂)
    · -- one event admits one definition
      have hsame := TaskEvent.invocationAdmitted.inj (hevent₁.symm.trans hevent₂)
      rw [hi, hj, hsame]
  · rw [h.definition]
    rcases horigin hinv' with ⟨inv, hinv, hkeeps⟩ | ⟨_, hadmissible, rfl, hsize⟩
    · obtain ⟨r, n, d, hchain, hn, hd⟩ := hf.ancestry i inv hinv
      exact ⟨r, n, d, hchain.mono hkept, hn.trans hgrows, hd⟩
    · have htopology := topologyOf_eq_some.2 ⟨inv', hinv', rfl⟩
      rcases hadmissible.place with ⟨_, hparent, _⟩ | ⟨p, owner, depth, _, hp, howner, _, hdepth, hle⟩
      · exact ⟨_, 1, 0, .root htopology hparent, by omega, Nat.zero_le _⟩
      · obtain ⟨r, n, d, hchain, hn, _⟩ := hf.ancestry p owner howner
        rw [ancestorDepth_eq hchain (by omega), Option.some.injEq] at hdepth
        refine ⟨r, n + 1, _, .child htopology hp (hchain.mono hkept), by omega, ?_⟩
        by_cases hrole : inv'.definition.role = .continuation <;> simp [hrole] at hdepth ⊢ <;> omega
  · rcases horigin hinv' with ⟨inv, hinv, hkeeps⟩ | ⟨_, hadmissible, _, _⟩
    · exact (hf.continuation i inv hinv (hkeeps.role ▸ hrole)).step h ho hs hkeeps.parent
        hkeeps.dependencies
    · rcases hadmissible.place with ⟨hroot, _⟩ | ⟨p, owner, _, _, hp, howner, hcontinues, _⟩
      · simp [hroot] at hrole
      · obtain ⟨hcompleted, hmem⟩ := hcontinues hrole
        have hold : Continues state inv'.definition := ⟨p, owner, hp, howner, hcompleted, hmem⟩
        exact hold.step h ho hs rfl (List.prefix_refl _)
  · rw [h.definition]
    exact hlimit hf.invocations
  · rw [h.definition]
    exact h.attempts_size hf.attempts

end Steps

section Runs

variable {sha256 : Value → String} {history : List (TaskSnapshot × TaskEvent)} {state : TaskSnapshot}

theorem TaskRun.forest (run : TaskRun sha256 history state) : Forest state := by
  have hall := run.invariant (I := fun state => (state.Owned ∧ state.InStep) ∧ Forest state)
    (fun definition position _ => ?_) (fun state event record moved h _ heffect => ?_) fun _ _ h => ?_
  · exact hall.2
  · refine ⟨⟨owned_empty, inStep_empty⟩, ?_⟩
    constructor <;> simp [TaskSnapshot.registered]
  · obtain ⟨⟨ho, hs⟩, hf⟩ := h
    have hnext := hf.step heffect ho hs
    exact ⟨heffect.inStep ho hs, hnext.root, hnext.unique, hnext.ancestry, hnext.continuation,
      hnext.invocations, hnext.attempts⟩
  · obtain ⟨hin, hf⟩ := h
    exact ⟨hin, hf.root, hf.unique, hf.ancestry, hf.continuation, hf.invocations, hf.attempts⟩

theorem Later.keeps {later : TaskSnapshot} (h : Later sha256 state later)
    (run : TaskRun sha256 history state) {i : String} {inv : InvocationSnapshot}
    (hinv : state.invocations[i]? = some inv) : ∃ inv', later.invocations[i]? = some inv' ∧
      inv'.definition.role = inv.definition.role ∧
      inv'.definition.parentInvocationId = inv.definition.parentInvocationId := by
  induction h with
  | refl => exact ⟨inv, hinv, rfl, rfl⟩
  | tail hlater step ih =>
    obtain ⟨old, hold, hrole, hparent⟩ := ih
    obtain ⟨more, hrun⟩ := run.later hlater
    cases step with
    | event h =>
      obtain ⟨_, moved, heffect, rfl⟩ := apply_effect h
      obtain ⟨ho, hs⟩ := hrun.inStep
      obtain ⟨inv', hinv', hkeeps⟩ := heffect.keeps ho hs hold
      exact ⟨inv', hinv', hkeeps.role.trans hrole, hkeeps.parent.trans hparent⟩
    | skipped position => exact ⟨old, hold, hrole, hparent⟩

/-- **Call topology stays a bounded forest.**  In every snapshot of a run the
parent links are acyclic and lead from every invocation to the one root, the
ancestor walk of `admit` ends, and its count of call edges is at most the depth
limit; invocations and attempts are within their limits; and the parent of a
continuation is one of its dependencies, has completed, and stays so. -/
theorem TaskRun.call_forest (run : TaskRun sha256 history state) :
    (∀ (i : String) (inv : InvocationSnapshot), state.invocations[i]? = some inv →
      (inv.definition.role = .root ↔ inv.definition.parentInvocationId = none)) ∧
    (∀ (i j : String) (inv inv' : InvocationSnapshot), state.invocations[i]? = some inv →
      state.invocations[j]? = some inv' → inv.definition.role = .root → inv'.definition.role = .root →
      i = j) ∧
    Acyclic (HasParent state.topology) ∧
    (∀ (i : String) (inv : InvocationSnapshot), state.invocations[i]? = some inv →
      ∃ r root n d, state.invocations[r]? = some root ∧ root.definition.role = .root ∧
        ReflTransGen (HasParent state.topology) i r ∧ Ancestry state.topology i r n d ∧
        d ≤ state.definition.limits.maxDepth ∧
        ∀ depth, ancestorDepth state.invocations (state.invocations.size + 1) (some inv) depth =
          some (depth + d)) ∧
    state.invocations.size ≤ state.definition.limits.maxInvocations ∧
    state.attempts.size ≤ state.definition.limits.maxAttempts ∧
    ∀ (i : String) (inv : InvocationSnapshot), state.invocations[i]? = some inv →
      inv.definition.role = .continuation → ∀ later, Later sha256 state later →
        ∃ inv' p owner, later.invocations[i]? = some inv' ∧ inv.definition.parentInvocationId = some p ∧
          p ∈ inv'.definition.dependencies ∧ later.invocations[p]? = some owner ∧
          owner.state = .completed := by
  have hf := run.forest
  refine ⟨hf.root, hf.unique, run.sound.ancestry, fun i inv hinv => ?_, hf.invocations, hf.attempts,
    fun i inv hinv hrole later hlater => ?_⟩
  · obtain ⟨r, n, d, hchain, hn, hd⟩ := hf.ancestry i inv hinv
    obtain ⟨hpath, _, hr, hparent⟩ := hchain.path
    obtain ⟨root, hroot, rfl⟩ := topologyOf_eq_some.1 hr
    refine ⟨r, root, n, d, hroot, (hf.root r root hroot).2 hparent, hpath, hchain, hd, fun depth => ?_⟩
    rw [← hinv]
    exact ancestorDepth_eq hchain (by omega) depth
  · obtain ⟨more, hrun⟩ := run.later hlater
    obtain ⟨inv', hinv', hsame, hparent⟩ := hlater.keeps run hinv
    obtain ⟨p, owner, hp, howner, hcompleted, hmem⟩ :=
      hrun.forest.continuation i inv' hinv' (hsame.trans hrole)
    exact ⟨inv', p, owner, hinv', hparent.symm.trans hp, hmem, howner, hcompleted⟩

def sampleContinuation : InvocationDefinition :=
  { sampleChild with invocationId := "next", role := .continuation }

/-- The continuation of a completed root lies on the path to it, at no depth. -/
theorem TaskRun.call_forest_continuation : ∃ history state r d, TaskRun (fun _ => "") history state ∧
    "next" ∈ state.invocations ∧ ReflTransGen (HasParent state.topology) "next" r ∧ d ≤ 3 ∧
    ∀ inv, state.invocations["next"]? = some inv → ancestorDepth state.invocations
      (state.invocations.size + 1) (some inv) 0 = some d := by
  have h : (sampleEvents [.invocationAdmitted sampleRoot, .attemptStarted sampleBinding,
      .attemptObserved (sampleObservation sampleBinding 1 (.completed [])),
      .invocationAdmitted sampleContinuation]).toOption.any (fun run =>
        (run.2.invocations["next"]?).isSome && decide (run.2.definition.limits.maxDepth = 3)) = true := by
    decide
  simp only [Option.any_eq_true, toOption_eq_some, Bool.and_eq_true, decide_eq_true_eq,
    Option.isSome_iff_exists] at h
  obtain ⟨⟨history, state⟩, hrun, ⟨inv, hinv⟩, hlimit⟩ := h
  have run := sampleEvents_run hrun
  obtain ⟨r, _, _, d, _, _, hpath, _, hd, hdepth⟩ :=
    (TaskRun.call_forest run).2.2.2.1 "next" inv hinv
  refine ⟨history, state, r, d, run, mem_of_getElem? hinv, hpath, hlimit ▸ hd, fun inv' hinv' => ?_⟩
  obtain rfl : inv = inv' := Option.some.inj (hinv.symm.trans hinv')
  rw [hdepth, Nat.zero_add]

end Runs

end Tasks
end Kolyan
