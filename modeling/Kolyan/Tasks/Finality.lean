/-
# A task that ended

`Completed`, `Failed` and `Cancelled` are final, but a terminal task goes on
taking events: the observations and recovery marks of attempts that still ran,
and, after a root-only cancellation, the resumptions of its other invocations.
What such an event leaves as it was is `Frozen`; `Effect.runs` says which
attempt can be running after it that was not running before.
-/

import Kolyan.Tasks.Feedback

namespace Kolyan
namespace Tasks

open Checks Facts OrderedMaps Relation

/-- One step of replay: an accepted event, or a record that replay skips. -/
inductive TaskStep (sha256 : Value → String) (state : TaskSnapshot) : TaskSnapshot → Prop
  | event {next event record} (h : apply sha256 (some state) event record = .ok next) :
      TaskStep sha256 state next
  | skipped (position : ℕ) : TaskStep sha256 state { state with position := position }

/-- The snapshots replay reaches from a snapshot. -/
def Later (sha256 : Value → String) : TaskSnapshot → TaskSnapshot → Prop :=
  ReflTransGen (TaskStep sha256)

/-- What no event changes of an invocation of a task that ended. -/
def InvocationSnapshot.shape (inv : InvocationSnapshot) :
    InvocationDefinition × List String × BTreeMap ConsumedResult × BTreeMap ConsumedTerminalResult :=
  (inv.definition, inv.attempts, inv.consumedResults, inv.terminalConsumedResults)

/-- What no event changes of a task that ended: its state, and which
invocations, dependencies, attempts, consumptions and assessments it has. -/
structure Frozen (before later : TaskSnapshot) : Prop where
  state : later.state = before.state
  definition : later.definition = before.definition
  success : later.successEvidence = before.successEvidence
  goals : later.goalAssessments = before.goalAssessments
  invocations : ∀ i : String, (later.invocations[i]?).map (·.shape) = (before.invocations[i]?).map (·.shape)
  attempts : ∀ id : String, (later.attempts[id]?).map (·.binding) = (before.attempts[id]?).map (·.binding)

theorem Frozen.refl (state : TaskSnapshot) : Frozen state state :=
  ⟨rfl, rfl, rfl, rfl, fun _ => rfl, fun _ => rfl⟩

theorem Frozen.trans {a b c : TaskSnapshot} (h : Frozen a b) (h' : Frozen b c) : Frozen a c :=
  ⟨h'.state.trans h.state, h'.definition.trans h.definition, h'.success.trans h.success,
    h'.goals.trans h.goals, fun i => (h'.invocations i).trans (h.invocations i),
    fun id => (h'.attempts id).trans (h.attempts id)⟩

/-- A resumption that a root-only cancellation leaves open: the attempt was
suspended and is not of the root. -/
def DetachedResume (state : TaskSnapshot) (event : TaskEvent) (id : String) : Prop :=
  ∃ (binding : AttemptBinding) (checkpointId : String) (attempt : AttemptSnapshot)
    (inv : InvocationSnapshot), event = .attemptResumed binding checkpointId ∧ binding.attemptId = id ∧
    state.state = .cancelled ∧ state.definition.cancellationPolicy = .rootOnly ∧
    state.attempts[id]? = some attempt ∧ attempt.state = .suspended ∧
    state.invocations[attempt.binding.invocationId]? = some inv ∧ inv.definition.role ≠ .root

section Refresh

variable {state : TaskSnapshot}

theorem refresh_state_of_terminal (h : state.state.isTerminal = true) :
    (refresh state).state = state.state := if_pos h

theorem refresh_state_of_open (h : state.state.isTerminal = false) :
    (refresh state).state.isTerminal = false := by
  have hopen : ¬(refreshGoals (refreshWaiting state)).state.isTerminal = true := by
    show ¬state.state.isTerminal = true
    simp [h]
  show (nextTaskState (refreshGoals (refreshWaiting state))).isTerminal = false
  unfold nextTaskState
  rw [if_neg hopen]
  split_ifs <;> rfl

theorem refresh_state_eq {s : TaskState} (hs : s.isTerminal = true) :
    (refresh state).state = s ↔ state.state = s := by
  cases hend : state.state.isTerminal with
  | true => rw [refresh_state_of_terminal hend]
  | false =>
    have hopen := refresh_state_of_open hend
    constructor
    · intro heq
      rw [heq, hs] at hopen
      exact absurd hopen (by simp)
    · rintro rfl
      rw [hs] at hend
      exact absurd hend (by simp)

theorem refresh_isTerminal : (refresh state).state.isTerminal = state.state.isTerminal := by
  cases hend : state.state.isTerminal with
  | true => rw [refresh_state_of_terminal hend, hend]
  | false => rw [refresh_state_of_open hend]

end Refresh

section Steps

variable {record : FactRecord} {state moved : TaskSnapshot} {event : TaskEvent}

theorem moved_frozen {id : String} {attempt attempt' : AttemptSnapshot} {inv inv' : InvocationSnapshot}
    (hattempt : state.attempts[id]? = some attempt)
    (hinv : state.invocations[attempt.binding.invocationId]? = some inv)
    (hbinding : attempt'.binding = attempt.binding) (hshape : inv'.shape = inv.shape) :
    (∀ i : String, ((state.moved id attempt' inv').invocations[i]?).map (·.shape) =
        (state.invocations[i]?).map (·.shape)) ∧
      ∀ i : String, ((state.moved id attempt' inv').attempts[i]?).map (·.binding) =
        (state.attempts[i]?).map (·.binding) :=
  ⟨fun _ => map_getElem?_insert (hbinding ▸ hinv) hshape,
    fun _ => map_getElem?_insert hattempt hbinding⟩

theorem Effect.frozen (h : Effect record state event moved) (hend : state.state.isTerminal = true)
    (hopen : detachedResume state event = true ∨ stoppedObservation event = true) :
    Frozen state (refresh { moved with position := record.position }) := by
  have hfrozen : moved.state = state.state → moved.successEvidence = state.successEvidence →
      moved.goalAssessments = state.goalAssessments →
      ((∀ i : String, (moved.invocations[i]?).map (·.shape) = (state.invocations[i]?).map (·.shape)) ∧
        ∀ i : String, (moved.attempts[i]?).map (·.binding) = (state.attempts[i]?).map (·.binding)) →
      Frozen state (refresh { moved with position := record.position }) := by
    intro hstate hsuccess hgoals hmembers
    have hterminal : ({ moved with position := record.position } : TaskSnapshot).state.isTerminal = true := by
      rw [← hend, ← hstate]
    exact ⟨(refresh_state_of_terminal hterminal).trans hstate, h.definition, hsuccess, hgoals,
      hmembers.1, hmembers.2⟩
  cases h with
  | @observed observation attempt inv next usage total o =>
    refine hfrozen ?_ rfl rfl (moved_frozen o.lookup o.owner rfl rfl)
    show (if overspent state.definition usage total && !state.state.isTerminal then _ else _) = _
    simp [hend]
  | resumed r => exact hfrozen rfl rfl rfl (moved_frozen r.lookup r.owner rfl rfl)
  | recovered lookup _ owner => exact hfrozen rfl rfl rfl (moved_frozen lookup owner rfl rfl)
  | _ => simp [detachedResume, stoppedObservation] at hopen

theorem Effect.runs (h : Effect record state event moved)
    (hopen : detachedResume state event = true ∨ stoppedObservation event = true) {id : String}
    {attempt' : AttemptSnapshot} (hattempt' : moved.attempts[id]? = some attempt')
    (hrunning : attempt'.state = .running) :
    (∃ attempt, state.attempts[id]? = some attempt ∧ attempt.state = .running) ∨
      DetachedResume state event id := by
  cases h with
  | @observed observation attempt inv next usage total o =>
    replace hattempt' : (state.attempts.insert _ _)[id]? = some attempt' := hattempt'
    rw [getElem?_insert] at hattempt'
    split_ifs at hattempt' with heq
    · -- no outcome leaves an attempt running
      obtain rfl := Option.some.inj hattempt'
      obtain rfl : next = .running := hrunning
      rcases nextState_cases o.outcome with ⟨_, _, hs⟩ | ⟨_, _, hs⟩ | ⟨_, _, _, hs⟩ | ⟨_, _, hs⟩ | ⟨_, _, hs⟩ <;>
        cases hs
    · exact Or.inl ⟨attempt', hattempt', hrunning⟩
  | @resumed binding checkpointId attempt inv r =>
    rw [moved_attempts] at hattempt'
    split_ifs at hattempt' with heq
    · right
      have hdetached : detachedResume state (.attemptResumed binding checkpointId) = true := by
        simpa [stoppedObservation] using hopen
      simp only [detachedResume, Bool.and_eq_true, decide_eq_true_eq, Option.any_eq_true] at hdetached
      obtain ⟨⟨hcancelled, hpolicy⟩, inv', hinv', hrole⟩ := hdetached
      rw [← r.bound] at hinv'
      exact ⟨binding, checkpointId, attempt, inv', rfl, heq, hcancelled, hpolicy, heq ▸ r.lookup,
        r.suspended, hinv', hrole⟩
    · exact Or.inl ⟨attempt', hattempt', hrunning⟩
  | @recovered k why attempt inv lookup live owner =>
    rw [moved_attempts] at hattempt'
    split_ifs at hattempt' with heq
    · obtain rfl := Option.some.inj hattempt'
      cases hrunning
    · exact Or.inl ⟨attempt', hattempt', hrunning⟩
  | _ => simp [detachedResume, stoppedObservation] at hopen

end Steps

section Runs

variable {sha256 : Value → String} {history : List (TaskSnapshot × TaskEvent)} {state next : TaskSnapshot}

theorem TaskRun.later (run : TaskRun sha256 history state) (h : Later sha256 state next) :
    ∃ more, TaskRun sha256 (history ++ more) next := by
  induction h with
  | refl => exact ⟨[], by rwa [List.append_nil]⟩
  | tail _ step ih =>
    obtain ⟨more, hrun⟩ := ih
    cases step with
    | @event _ event _ h =>
      have hnext := TaskRun.event hrun h
      rw [List.append_assoc] at hnext
      exact ⟨_, hnext⟩
    | skipped position => exact ⟨more, .skipped hrun position⟩

theorem Later.frozen (h : Later sha256 state next) (hend : state.state.isTerminal = true) :
    Frozen state next := by
  induction h with
  | refl => exact .refl state
  | @tail last next _ step ih =>
    have hstill : last.state.isTerminal = true := by rw [ih.state, hend]
    cases step with
    | event h =>
      obtain ⟨hopen, moved, heffect, rfl⟩ := apply_effect h
      exact ih.trans (heffect.frozen hstill (hopen hstill))
    | skipped position => exact ih.trans ⟨rfl, rfl, rfl, rfl, fun _ => rfl, fun _ => rfl⟩

end Runs

end Tasks
end Kolyan
