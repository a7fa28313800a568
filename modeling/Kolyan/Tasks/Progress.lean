/-
# What an event keeps

Every event changes a few entries of the two tables and keeps the rest.  What it
keeps of an entry it does change is stated here once: an attempt that stopped
stays as it stopped (`KeepsAttempt`), an invocation keeps its place in the call
tree, its attempts and what it consumed, and one that ended keeps its result
until an event starts it again (`Keeps`).  Only a failed invocation can be
started again.
-/

import Kolyan.Tasks.InStep

namespace Kolyan
namespace Tasks

open Checks Facts OrderedMaps

/-- The attempt an event starts. -/
def TaskEvent.starts : TaskEvent → Option AttemptBinding
  | attemptStarted binding | budgetedAttemptStarted binding _ => some binding
  | _ => none

/-- What an event keeps of an attempt. -/
structure KeepsAttempt (attempt attempt' : AttemptSnapshot) : Prop where
  binding : attempt'.binding = attempt.binding
  stopped : ¬attempt.state.IsLive →
    attempt'.state = attempt.state ∧ attempt'.observation = attempt.observation

/-- What an event keeps of an invocation. -/
structure Keeps (event : TaskEvent) (i : String) (inv inv' : InvocationSnapshot) : Prop where
  role : inv'.definition.role = inv.definition.role
  parent : inv'.definition.parentInvocationId = inv.definition.parentInvocationId
  dependencies : inv.definition.dependencies <+: inv'.definition.dependencies
  attempts : inv.attempts <+: inv'.attempts
  consumed : ∀ (c : String) (result : ConsumedResult), inv.consumedResults[c]? = some result →
    inv'.consumedResults[c]? = some result
  consumedTerminal : ∀ (c : String) (result : ConsumedTerminalResult),
    inv.terminalConsumedResults[c]? = some result → inv'.terminalConsumedResults[c]? = some result
  settled : inv.state.isTerminal = true →
    (inv.state = .failed → ∀ binding, event.starts = some binding → binding.invocationId ≠ i) →
    inv'.state = inv.state ∧ inv'.definition = inv.definition ∧ inv'.attempts = inv.attempts ∧
      inv'.terminalFact = inv.terminalFact ∧ inv'.completionFact = inv.completionFact

theorem KeepsAttempt.refl (attempt : AttemptSnapshot) : KeepsAttempt attempt attempt :=
  ⟨rfl, fun _ => ⟨rfl, rfl⟩⟩

theorem Keeps.refl (event : TaskEvent) (i : String) (inv : InvocationSnapshot) : Keeps event i inv inv :=
  ⟨rfl, rfl, List.prefix_refl _, List.prefix_refl _, fun _ _ h => h, fun _ _ h => h,
    fun _ _ => ⟨rfl, rfl, rfl, rfl, rfl⟩⟩

theorem InvocationState.IsLive.not_terminal {s : InvocationState} (h : s.IsLive) :
    s.isTerminal = false := by
  rcases h with rfl | rfl | rfl <;> rfl

theorem nextState_cases {state : TaskSnapshot} {attempt : AttemptSnapshot}
    {observation : AttemptObservation} {next : InvocationState}
    (h : nextState state attempt observation = .ok next) :
    (∃ evidence, observation.outcome = .completed evidence ∧ next = .completed) ∨
    (∃ waiting, observation.outcome = .suspended waiting ∧ next = .suspended) ∨
    (∃ why safe, observation.outcome = .failed why safe ∧ next = .failed) ∨
    (∃ why, observation.outcome = .cancelled why ∧ next = .cancelled) ∨
    ∃ why, observation.outcome = .recoveryRequired why ∧ next = .recoveryRequired := by
  unfold nextState at h
  split at h <;> rename_i houtcome <;> simp only [bind_eq_ok, pure_eq_ok] at h
  · obtain ⟨_, _, _, _, _, _, _, _, rfl⟩ := h
    exact Or.inl ⟨_, houtcome, rfl⟩
  · obtain ⟨_, _, rfl⟩ := h
    exact Or.inr (Or.inl ⟨_, houtcome, rfl⟩)
  · obtain ⟨_, _, rfl⟩ := h
    exact Or.inr (Or.inr (Or.inl ⟨_, _, houtcome, rfl⟩))
  · obtain ⟨_, _, rfl⟩ := h
    exact Or.inr (Or.inr (Or.inr (Or.inl ⟨_, houtcome, rfl⟩)))
  · obtain ⟨_, _, rfl⟩ := h
    exact Or.inr (Or.inr (Or.inr (Or.inr ⟨_, houtcome, rfl⟩)))

section Effects

variable {record : FactRecord} {state moved : TaskSnapshot} {event : TaskEvent}

theorem Effect.definition (h : Effect record state event moved) :
    moved.definition = state.definition := by
  cases h <;> rfl

theorem moved_attempts {id id' : String} {attempt : AttemptSnapshot} {inv : InvocationSnapshot} :
    (state.moved id attempt inv).attempts[id']? =
      if id = id' then some attempt else state.attempts[id']? := getElem?_insert

theorem started_attempts {id : String} {inv : InvocationSnapshot} {binding : AttemptBinding} :
    (state.started inv binding).attempts[id]? =
      if binding.attemptId = id then some (.started binding) else state.attempts[id]? := getElem?_insert

theorem moved_keepsAttempt {id id' : String} {attempt attempt' old : AttemptSnapshot}
    (hattempt : state.attempts[id]? = some attempt) (hkeeps : KeepsAttempt attempt attempt')
    (hold : state.attempts[id']? = some old) :
    ∃ next, (state.attempts.insert id attempt')[id']? = some next ∧ KeepsAttempt old next := by
  rw [getElem?_insert]
  split_ifs with heq
  · obtain rfl : attempt = old := Option.some.inj (hattempt.symm.trans (heq ▸ hold))
    exact ⟨attempt', rfl, hkeeps⟩
  · exact ⟨old, hold, .refl old⟩

theorem Effect.keepsAttempt (h : Effect record state event moved) {id : String}
    {attempt : AttemptSnapshot} (hattempt : state.attempts[id]? = some attempt) :
    ∃ attempt', moved.attempts[id]? = some attempt' ∧ KeepsAttempt attempt attempt' := by
  have hstart : ∀ {inv binding}, Startable state inv binding →
      ∃ attempt', (state.started inv binding).attempts[id]? = some attempt' ∧
        KeepsAttempt attempt attempt' := fun hs =>
    ⟨attempt, getElem?_insert_of_notMem hs.attempt.attempt hattempt, .refl attempt⟩
  cases h with
  | budgeted _ startable => exact hstart startable
  | started _ startable => exact hstart startable
  | observed o => exact moved_keepsAttempt o.lookup ⟨rfl, fun hlive => absurd o.live hlive⟩ hattempt
  | resumed r =>
    refine moved_keepsAttempt r.lookup ⟨rfl, fun hlive => absurd ?_ hlive⟩ hattempt
    exact Or.inr (Or.inl r.suspended)
  | recovered lookup live _ =>
    exact moved_keepsAttempt lookup ⟨rfl, fun hlive => absurd live hlive⟩ hattempt
  | @authorized id source why old inv a =>
    refine moved_keepsAttempt a.lookup ⟨rfl, fun hlive => ⟨?_, rfl⟩⟩ hattempt
    -- an attempt that stopped and is not live has failed already
    have hstopped := a.stopped
    cases hs : old.state with
    | failed => rfl
    | recoveryRequired => exact absurd (Or.inr (Or.inr hs)) hlive
    | _ => simp [hs, InvocationState.isStopped] at hstopped
  | cancelled =>
    refine ⟨_, by rw [Std.ExtTreeMap.getElem?_map, hattempt]; rfl, ?_⟩
    split_ifs
    · exact ⟨rfl, fun _ => ⟨rfl, rfl⟩⟩
    · exact .refl attempt
  | _ => exact ⟨attempt, hattempt, .refl attempt⟩

theorem keeps_of_progress {i : String} {inv inv' : InvocationSnapshot}
    (hdefinition : inv'.definition = inv.definition) (hlist : inv'.attempts = inv.attempts)
    (hconsumed : inv'.consumedResults = inv.consumedResults)
    (hterminal : inv'.terminalConsumedResults = inv.terminalConsumedResults)
    (hsettled : inv.state.isTerminal = true → inv'.state = inv.state ∧
      inv'.terminalFact = inv.terminalFact ∧ inv'.completionFact = inv.completionFact) :
    Keeps event i inv inv' := by
  refine ⟨by rw [hdefinition], by rw [hdefinition], by rw [hdefinition], by rw [hlist],
    fun c result h => by rwa [hconsumed], fun c result h => by rwa [hterminal], fun hend _ => ?_⟩
  obtain ⟨hstate, hfact, hcompletion⟩ := hsettled hend
  exact ⟨hstate, hdefinition, hlist, hfact, hcompletion⟩

theorem keeps_insert {k i : String} {old new inv : InvocationSnapshot}
    (hold : state.invocations[k]? = some old) (hkeeps : Keeps event k old new)
    (hinv : state.invocations[i]? = some inv) :
    ∃ inv', (state.invocations.insert k new)[i]? = some inv' ∧ Keeps event i inv inv' := by
  rw [getElem?_insert]
  split_ifs with heq
  · subst heq
    obtain rfl : old = inv := Option.some.inj (hold.symm.trans hinv)
    exact ⟨new, rfl, hkeeps⟩
  · exact ⟨inv, hinv, .refl event i inv⟩

theorem keeps_entries {V : Type} {m : BTreeMap V} {k : String} {v : V} (hk : m.contains k = false) :
    ∀ (c : String) (w : V), m[c]? = some w → (m.insert k v)[c]? = some w := fun c w h =>
  getElem?_insert_of_notMem (fun hmem => by
    rw [← Std.ExtTreeMap.contains_iff_mem, hk] at hmem
    exact absurd hmem (by simp)) h

theorem started_keeps {binding : AttemptBinding} {inv old : InvocationSnapshot} {i : String}
    (hstarts : event.starts = some binding) (hs : Startable state inv binding)
    (hold : state.invocations[i]? = some old) :
    ∃ next, (state.started inv binding).invocations[i]? = some next ∧ Keeps event i old next := by
  refine keeps_insert hs.lookup ⟨rfl, rfl, List.prefix_refl _, List.prefix_append _ _, fun _ _ h => h,
    fun _ _ h => h, fun hend hno => ?_⟩ hold
  rcases hs.evidence with hadmitted | ⟨hfailed, _⟩
  · rw [hadmitted] at hend
    simp [InvocationState.isTerminal] at hend
  · exact absurd rfl (hno hfailed binding hstarts)

/-- **Every event keeps invocations**, in a snapshot whose tables are in step. -/
theorem Effect.keeps (h : Effect record state event moved) (ho : state.Owned) (hs : state.InStep)
    {i : String} {inv : InvocationSnapshot} (hinv : state.invocations[i]? = some inv) :
    ∃ inv', moved.invocations[i]? = some inv' ∧ Keeps event i inv inv' := by
  have hmove : ∀ {id attempt attempt' old new}, state.attempts[id]? = some attempt →
      state.invocations[attempt.binding.invocationId]? = some old → attempt.state.IsLive →
      attempt'.binding = attempt.binding → new.definition = old.definition →
      new.attempts = old.attempts → new.consumedResults = old.consumedResults →
      new.terminalConsumedResults = old.terminalConsumedResults →
      ∃ inv', (state.moved id attempt' new).invocations[i]? = some inv' ∧ Keeps event i inv inv' := by
    intro id attempt attempt' old new hattempt hold hlive hbinding hdefinition hlist hconsumed hterminal
    -- a live attempt is the last one, so its invocation did not end
    have hstate := (last_of_live ho hs hattempt hold hlive).2
    refine keeps_insert (hbinding ▸ hold) (keeps_of_progress hdefinition hlist hconsumed hterminal ?_) hinv
    intro hend
    rw [← hstate, hlive.not_terminal] at hend
    exact absurd hend (by simp)
  cases h with
  | budgeted _ startable => exact started_keeps rfl startable hinv
  | started _ startable => exact started_keeps rfl startable hinv
  | admitted admissible =>
    exact ⟨inv, getElem?_insert_of_notMem admissible.fresh.invocation hinv, .refl _ i inv⟩
  | @depended invocation dependency old lookup running =>
    refine keeps_insert lookup ⟨rfl, rfl, List.prefix_append _ _, List.prefix_refl _, fun _ _ h => h,
      fun _ _ h => h, fun hend => ?_⟩ hinv
    rcases running with h | h | h <;> simp [h, InvocationState.isTerminal] at hend
  | observed o => exact hmove o.lookup o.owner o.live rfl rfl rfl rfl rfl
  | resumed r => exact hmove r.lookup r.owner (Or.inr (Or.inl r.suspended)) rfl rfl rfl rfl rfl
  | recovered lookup live owner => exact hmove lookup owner live rfl rfl rfl rfl rfl
  | @authorized id source why attempt old a =>
    refine keeps_insert a.owner (keeps_of_progress rfl rfl rfl rfl fun hend => ⟨?_, rfl, rfl⟩) hinv
    have hmem := List.mem_of_getLast? a.last
    have hstate := (hs.states _ old a.owner id hmem attempt a.lookup).1
    rw [InvocationSnapshot.stateOf, if_pos a.last] at hstate
    have hstopped := a.stopped
    rw [hstate] at hstopped
    cases hold : old.state with
    | failed => rfl
    | _ => simp [hold, InvocationState.isStopped, InvocationState.isTerminal] at hstopped hend
  | consumed c =>
    refine keeps_insert c.lookup ⟨rfl, rfl, List.prefix_refl _, List.prefix_refl _, ?_, fun _ _ h => h,
      fun _ _ => ⟨rfl, rfl, rfl, rfl, rfl⟩⟩ hinv
    exact keeps_entries (Bool.or_eq_false_iff.1 c.fresh).1
  | consumedTerminal c =>
    refine keeps_insert c.lookup ⟨rfl, rfl, List.prefix_refl _, List.prefix_refl _, fun _ _ h => h, ?_,
      fun _ _ => ⟨rfl, rfl, rfl, rfl, rfl⟩⟩ hinv
    exact keeps_entries (Bool.or_eq_false_iff.1 c.fresh).2
  | cancelled =>
    refine ⟨_, by rw [Std.ExtTreeMap.getElem?_map, hinv]; rfl, ?_⟩
    show Keeps _ i inv (if cancelSelects state inv then inv.cancelled else inv)
    split_ifs
    · refine keeps_of_progress rfl rfl rfl rfl fun hend => ⟨?_, rfl, rfl⟩
      have hadmitted : inv.state ≠ .admitted := by
        rintro heq
        simp [heq, InvocationState.isTerminal] at hend
      simp [InvocationSnapshot.cancelled, hadmitted]
    · exact .refl _ i inv
  | _ => exact ⟨inv, hinv, .refl _ i inv⟩

end Effects

end Tasks
end Kolyan
