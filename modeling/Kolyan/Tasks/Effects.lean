/-
# What each event does

One constructor for each event a registered task can accept: the guards that
held, and the next snapshot as one update of the tables.  `transition_effect`
reads the transition functions back once; every invariant of a run is then a
case analysis over `Effect` and never unfolds the reducer again.

Starting is one update for both kinds of start (`TaskSnapshot.started`), and an
observation, a resumption, a recovery and a retry authorization are one update
too: an attempt and its invocation move together (`TaskSnapshot.moved`).
-/

import Kolyan.Lib.OrderedMaps
import Kolyan.Tasks.WaitsFor

namespace Kolyan
namespace Tasks

open Checks Facts OrderedMaps

/-- An identity that neither the task nor any invocation, attempt or execution has. -/
structure Available (state : TaskSnapshot) (id : String) : Prop where
  task : id ≠ state.definition.taskId
  invocation : id ∉ state.invocations
  attempt : id ∉ state.attempts
  execution : ∀ (k : String) (other : AttemptSnapshot), state.attempts[k]? = some other →
    other.binding.execution.executionId ≠ id

/-- The evidence that lets an invocation start: it has none yet, or its last
attempt failed and may be retried. -/
def RetryEvidence (state : TaskSnapshot) (inv : InvocationSnapshot) : Prop :=
  inv.state = .admitted ∨
    inv.state = .failed ∧ ∃ id attempt, inv.attempts.getLast? = some id ∧
      state.attempts[id]? = some attempt ∧ (attempt.retryAuthorized ∨ attempt.failedSafely)

/-- What an accepted start found. -/
structure Startable (state : TaskSnapshot) (inv : InvocationSnapshot) (binding : AttemptBinding) :
    Prop where
  attempt : Available state binding.attemptId
  execution : Available state binding.execution.executionId
  distinct : binding.attemptId ≠ binding.execution.executionId
  lookup : state.invocations[binding.invocationId]? = some inv
  sameAgent : inv.definition.agent = binding.agent
  constraints : inv.definition.constraintsDigest = binding.constraintsDigest
  source : inv.definition.inputSource = binding.inputSource
  room : state.attempts.size < state.definition.limits.maxAttempts
  tokens : tokensExhausted state = false
  evidence : RetryEvidence state inv
  dependencies : ∀ id ∈ inv.definition.dependencies, hasConsumed inv id = true

/-- The snapshot after a start. -/
def TaskSnapshot.started (state : TaskSnapshot) (inv : InvocationSnapshot)
    (binding : AttemptBinding) : TaskSnapshot :=
  { state with
    invocations := state.invocations.insert binding.invocationId
      { inv with
        state := .running, terminalFact := none, attempts := inv.attempts ++ [binding.attemptId] }
    attempts := state.attempts.insert binding.attemptId (.started binding) }

/-- The snapshot after an attempt and its invocation moved. -/
def TaskSnapshot.moved (state : TaskSnapshot) (id : String) (attempt : AttemptSnapshot)
    (inv : InvocationSnapshot) : TaskSnapshot :=
  { state with
    attempts := state.attempts.insert id attempt
    invocations := state.invocations.insert attempt.binding.invocationId inv }

/-- What an accepted reservation found. -/
structure Reservable (state : TaskSnapshot) (budget : TaskExecutionBudgetState)
    (binding : AttemptBinding) (maxSteps : ℕ) : Prop where
  configured : state.executionBudget = some budget
  positive : 0 < maxSteps
  ceiling : maxSteps ≤ state.definition.limits.maxStepsPerTurn
  remaining : ∃ remaining, budget.remainingSteps = .ok remaining ∧ maxSteps ≤ remaining
  fresh : binding.attemptId ∉ budget.reservations

/-- The budget after a reservation. -/
def TaskExecutionBudgetState.reserved (budget : TaskExecutionBudgetState) (binding : AttemptBinding)
    (maxSteps : ℕ) : TaskExecutionBudgetState :=
  { budget with reservations := budget.reservations.insert binding.attemptId ⟨binding, maxSteps⟩ }

/-- What an accepted admission found. -/
structure Admissible (state : TaskSnapshot) (definition : InvocationDefinition) : Prop where
  fresh : Available state definition.invocationId
  room : state.invocations.size < state.definition.limits.maxInvocations
  role : checkRole state definition = .ok ()
  dependencies : checkDependencies state.invocations [] definition.dependencies = .ok ()

/-- A live attempt: it may still be observed. -/
def InvocationState.IsLive (state : InvocationState) : Prop :=
  state = .running ∨ state = .suspended ∨ state = .recoveryRequired

/-- What an accepted observation found. -/
structure Observable (state : TaskSnapshot) (observation : AttemptObservation)
    (attempt : AttemptSnapshot) (inv : InvocationSnapshot) (next : InvocationState)
    (usage : TaskUsage) (total : ℕ) : Prop where
  lookup : state.attempts[observation.attemptId]? = some attempt
  owner : state.invocations[attempt.binding.invocationId]? = some inv
  live : attempt.state.IsLive
  bound : observation.source.execution = attempt.binding.execution
  advances : ∀ previous, attempt.observation = some previous →
    previous.source.cursor < observation.source.cursor
  outcome : nextState state attempt observation = .ok next
  spent : addUsage state.usage observation.usage = .ok usage
  sum : usage.total = some total

/-- An attempt after an observation. -/
def AttemptSnapshot.observed (attempt : AttemptSnapshot) (observation : AttemptObservation)
    (next : InvocationState) : AttemptSnapshot :=
  { attempt with
    state := next, waiting := observation.outcome.waiting, observation := some observation }

/-- An invocation after an observation of its last attempt. -/
def InvocationSnapshot.observed (inv : InvocationSnapshot) (fact : FactRef) (next : InvocationState) :
    InvocationSnapshot :=
  { inv with
    state := next
    terminalFact := if next.isTerminal then some fact else inv.terminalFact
    completionFact := if next = .completed then some fact else inv.completionFact }

/-- The tokens of a task are overspent, or not all reported. -/
def overspent (definition : TaskDefinition) (usage : TaskUsage) (total : ℕ) : Bool :=
  definition.limits.maxTokens.any fun limit => total > limit || usage.unreportedSteps > 0

/-- What an accepted resumption found. -/
structure Resumable (state : TaskSnapshot) (binding : AttemptBinding) (attempt : AttemptSnapshot)
    (inv : InvocationSnapshot) : Prop where
  tokens : tokensExhausted state = false
  lookup : state.attempts[binding.attemptId]? = some attempt
  bound : attempt.binding = binding
  suspended : attempt.state = .suspended
  uncancelled : attempt.cancellationRequested = false
  owner : state.invocations[attempt.binding.invocationId]? = some inv

/-- What an accepted retry authorization found. -/
structure Authorizable (state : TaskSnapshot) (id : String) (source : ExecutionEvidence)
    (attempt : AttemptSnapshot) (inv : InvocationSnapshot) : Prop where
  lookup : state.attempts[id]? = some attempt
  owner : state.invocations[attempt.binding.invocationId]? = some inv
  bound : source.execution = attempt.binding.execution
  stopped : attempt.state.isStopped = true
  last : inv.attempts.getLast? = some id
  advances : attempt.cursor < source.cursor

/-- What an accepted consumption of a completed result found. -/
structure Consumable (state : TaskSnapshot) (invocation : String) (result : ConsumedResult)
    (inv child : InvocationSnapshot) : Prop where
  lookup : state.invocations[invocation]? = some inv
  source : state.invocations[result.childInvocationId]? = some child
  fresh : hasConsumed inv result.childInvocationId = false
  evidence : childEvidence state child = .ok result.evidence
  fact : child.completionFact = some result.completionFact

/-- What an accepted consumption of a terminal result found. -/
structure TerminalConsumable (state : TaskSnapshot) (invocation : String)
    (result : ConsumedTerminalResult) (inv child : InvocationSnapshot) (attempt : AttemptSnapshot)
    (observation : AttemptObservation) : Prop where
  lookup : state.invocations[invocation]? = some inv
  source : state.invocations[result.child.invocationId]? = some child
  stopped : state.attempts[result.child.attemptId]? = some attempt
  bound : attempt.binding = result.child
  observed : attempt.observation = some observation
  disposition : observation.outcome.disposition = some result.disposition
  last : child.attempts.getLast? = some result.child.attemptId
  fact : child.terminalFact = some result.terminalFact
  fresh : hasConsumed inv result.child.invocationId = false

/-- What an accepted goal assessment found. -/
structure Assessable (state : TaskSnapshot) (assessment : GoalAssessment) (criterion : GoalCriterion)
    (attempt : AttemptSnapshot) : Prop where
  goal : findGoal state.definition.criteria assessment.criterionId = some criterion
  lookup : state.attempts[assessment.attempt.attemptId]? = some attempt
  bound : attempt.binding = assessment.attempt
  invocation : criterion.invocationId = assessment.attempt.invocationId
  source : assessment.source.execution = attempt.binding.execution
  fresh : ∀ saved ∈ state.goalAssessments,
    saved.assessment.criterionId ≠ assessment.criterionId

/-- What an accepted completion found. -/
structure Completable (state : TaskSnapshot) (evidence : List CompletionEvidence) : Prop where
  invocations : ∀ (id : String) (inv : InvocationSnapshot), state.invocations[id]? = some inv →
    inv.state = .completed
  distinct : (evidence.map (·.criterionId)).Nodup
  length : evidence.length = state.definition.criteria.length
  criteria : ∀ criterion ∈ state.definition.criteria, ∃ item ∈ evidence, item.criterionId = criterion.id
  available : ∀ item ∈ evidence, item ∈ availableEvidence state

/-- The attempts of the invocations a cancellation selects. -/
def cancelRequested (state : TaskSnapshot) : List String :=
  (state.invocations.values.filter (cancelSelects state)).flatMap (·.attempts)

/-- **What each event does**: its guards, and the snapshot before `refresh`. -/
inductive Effect (record : FactRecord) (state : TaskSnapshot) : TaskEvent → TaskSnapshot → Prop
  | configured {policy} (valid : policy.validate = .ok ())
      (absent : state.executionBudget = none) (unstarted : state.attempts.isEmpty = true) :
      Effect record state (.executionBudgetConfigured policy)
        { state with executionBudget := some ⟨policy, reference record, ∅⟩ }
  | budgeted {binding maxSteps budget inv} (reservable : Reservable state budget binding maxSteps)
      (startable : Startable state inv binding) :
      Effect record state (.budgetedAttemptStarted binding maxSteps)
        { state.started inv binding with executionBudget := some (budget.reserved binding maxSteps) }
  | assessed {assessment criterion attempt assessmentDigest}
      (assessable : Assessable state assessment criterion attempt) :
      Effect record state (.goalAssessed assessment)
        { state with
          goalAssessments :=
            state.goalAssessments ++ [⟨assessment, reference record, assessmentDigest⟩] }
  | admitted {definition} (admissible : Admissible state definition) :
      Effect record state (.invocationAdmitted definition)
        { state with
          invocations := state.invocations.insert definition.invocationId (.admitted definition) }
  | depended {invocation dependency inv} (lookup : state.invocations[invocation]? = some inv)
      (running : inv.state = .admitted ∨ inv.state = .running ∨ inv.state = .suspended) :
      Effect record state (.dependencyAdmitted invocation dependency)
        { state with
          invocations := state.invocations.insert invocation
            { inv with definition := inv.definition.withDependency dependency } }
  | started {binding inv} (unbudgeted : state.executionBudget = none)
      (startable : Startable state inv binding) :
      Effect record state (.attemptStarted binding) (state.started inv binding)
  | observed {observation attempt inv next usage total}
      (observable : Observable state observation attempt inv next usage total) :
      Effect record state (.attemptObserved observation)
        { state.moved observation.attemptId (attempt.observed observation next)
            (inv.observed (reference record) next) with
          usage := usage
          state := if overspent state.definition usage total && !state.state.isTerminal
            then .failed else state.state }
  | resumed {binding checkpointId attempt inv} (resumable : Resumable state binding attempt inv) :
      Effect record state (.attemptResumed binding checkpointId)
        (state.moved binding.attemptId { attempt with state := .running, waiting := none }
          { inv with state := .running })
  | recovered {id why attempt inv} (lookup : state.attempts[id]? = some attempt)
      (live : attempt.state.IsLive)
      (owner : state.invocations[attempt.binding.invocationId]? = some inv) :
      Effect record state (.recoveryNeeded id why)
        (state.moved id { attempt with state := .recoveryRequired, waiting := some (.recovery why) }
          { inv with state := .recoveryRequired })
  | authorized {id source why attempt inv} (authorizable : Authorizable state id source attempt inv) :
      Effect record state (.retryAuthorized id source why)
        (state.moved id { attempt with retryAuthorized := true, state := .failed, waiting := none }
          { inv with state := .failed })
  | consumed {invocation result inv child} (consumable : Consumable state invocation result inv child) :
      Effect record state (.resultConsumed invocation result)
        { state with
          invocations := state.invocations.insert invocation
            { inv with
              consumedResults := inv.consumedResults.insert result.childInvocationId result } }
  | consumedTerminal {invocation result inv child attempt observation}
      (consumable : TerminalConsumable state invocation result inv child attempt observation) :
      Effect record state (.terminalResultConsumed invocation result)
        { state with
          invocations := state.invocations.insert invocation
            { inv with
              terminalConsumedResults :=
                inv.terminalConsumedResults.insert result.child.invocationId result } }
  | completed {evidence} (completable : Completable state evidence) :
      Effect record state (.completed evidence)
        { state with successEvidence := evidence, state := .completed }
  | cancelled {why} :
      Effect record state (.cancelled why)
        { state with
          invocations := state.invocations.map fun _ inv =>
            if cancelSelects state inv then inv.cancelled else inv
          attempts := state.attempts.map fun id attempt =>
            if id ∈ cancelRequested state then { attempt with cancellationRequested := true }
            else attempt
          state := .cancelled }
  | failed {why} : Effect record state (.failed why) { state with state := .failed }

/-! ### Each transition has its effect -/

section Inversion

variable {state next : TaskSnapshot} {record : FactRecord}

theorem availableId_eq_ok {id : String} (h : availableId state id = .ok ()) : Available state id := by
  simp only [availableId, bind_eq_ok, reject_eq_ok, not_or] at h
  obtain ⟨_, _, htask, hinvocation, hattempt, hexecution⟩ := h
  refine ⟨htask, hinvocation, hattempt, fun k other hk heq => hexecution ?_⟩
  simp only [List.any_eq_true, decide_eq_true_eq]
  exact ⟨other, mem_values.2 ⟨k, hk⟩, heq⟩

theorem checkStartable_eq_ok {inv : InvocationSnapshot} (h : checkStartable state inv = .ok ()) :
    RetryEvidence state inv := by
  unfold checkStartable at h
  cases hs : inv.state with
  | admitted => exact Or.inl hs
  | failed =>
    simp only [hs, reject_eq_ok, not_not] at h
    cases hlast : inv.attempts.getLast? with
    | none => simp [hlast] at h
    | some id =>
      cases hattempt : state.attempts[id]? with
      | none => simp [hlast, hattempt] at h
      | some attempt =>
        refine Or.inr ⟨hs, id, attempt, hlast, hattempt, ?_⟩
        simpa [hlast, hattempt] using h
  | _ => simp [hs] at h

theorem start_eq_ok {binding : AttemptBinding} (h : start state binding = .ok next) :
    ∃ inv, Startable state inv binding ∧ next = state.started inv binding := by
  simp only [start, bind_eq_ok, expect_eq_ok, reject_eq_ok, pure_eq_ok, not_or, not_not] at h
  obtain ⟨_, hattempt, _, hexecution, _, hdistinct, _, _, _, _, inv, hinv, _, ⟨hagent, hconstraints,
    hsource⟩, _, ⟨hroom, htokens⟩, _, hevidence, _, hdependencies, rfl⟩ := h
  refine ⟨inv, ⟨availableId_eq_ok hattempt, availableId_eq_ok hexecution, hdistinct, hinv, hagent,
    hconstraints, hsource, by omega, by simpa using htokens, checkStartable_eq_ok hevidence, ?_⟩, rfl⟩
  simpa using hdependencies

theorem reserve_eq_ok {binding : AttemptBinding} {maxSteps : ℕ}
    (h : reserve state binding maxSteps record = .ok next) :
    ∃ budget, Reservable state budget binding maxSteps ∧
      next = { state with executionBudget := some (budget.reserved binding maxSteps) } := by
  simp only [reserve, bind_eq_ok, expect_eq_ok, reject_eq_ok, pure_eq_ok, not_or] at h
  obtain ⟨budget, hbudget, _, ⟨hpositive, hceiling⟩, remaining, hremaining, _, ⟨hle, hfresh, _⟩, rfl⟩ := h
  refine ⟨budget, ⟨hbudget, by omega, by omega, ⟨remaining, hremaining, by omega⟩, ?_⟩, rfl⟩
  simpa using hfresh

theorem configure_eq_ok {policy : TaskExecutionBudgetPolicy}
    (h : configure state policy record = .ok next) :
    policy.validate = .ok () ∧ state.executionBudget = none ∧ state.attempts.isEmpty = true ∧
      next = { state with executionBudget := some ⟨policy, reference record, ∅⟩ } := by
  simp only [configure, bind_eq_ok, reject_eq_ok, pure_eq_ok, not_or, not_not] at h
  obtain ⟨_, hvalid, _, ⟨hnone, hempty⟩, rfl⟩ := h
  exact ⟨hvalid, by simpa using hnone, hempty, rfl⟩

theorem admitInvocation_eq_ok {definition : InvocationDefinition}
    (h : admitInvocation state definition = .ok next) :
    Admissible state definition ∧ next = { state with
      invocations := state.invocations.insert definition.invocationId (.admitted definition) } := by
  simp only [admitInvocation, bind_eq_ok, reject_eq_ok, pure_eq_ok] at h
  obtain ⟨_, hfresh, _, _, _, _, _, _, _, hroom, _, hrole, _, hdependencies, rfl⟩ := h
  exact ⟨⟨availableId_eq_ok hfresh, by omega, hrole, hdependencies⟩, rfl⟩

theorem addDependency_eq_ok {invocation dependency : String}
    (h : addDependency state invocation dependency = .ok next) :
    ∃ inv, state.invocations[invocation]? = some inv ∧
      (inv.state = .admitted ∨ inv.state = .running ∨ inv.state = .suspended) ∧
      next = { state with
        invocations := state.invocations.insert invocation
          { inv with definition := inv.definition.withDependency dependency } } := by
  simp only [addDependency, bind_eq_ok, expect_eq_ok, reject_eq_ok, pure_eq_ok, not_or, not_not] at h
  obtain ⟨inv, hinv, _, ⟨hstate, _⟩, rfl⟩ := h
  exact ⟨inv, hinv, by tauto, rfl⟩

theorem observe_eq_ok {observation : AttemptObservation} (h : observe state observation record = .ok next) :
    ∃ attempt inv step usage total, Observable state observation attempt inv step usage total ∧
      next = { state.moved observation.attemptId (attempt.observed observation step)
          (inv.observed (reference record) step) with
        usage := usage
        state := if overspent state.definition usage total && !state.state.isTerminal
          then .failed else state.state } := by
  simp only [observe, validateSource, bind_eq_ok, expect_eq_ok, reject_eq_ok, pure_eq_ok, not_or,
    not_not] at h
  obtain ⟨attempt, hattempt, _, hlive, _, _, _, ⟨_, _, _, hsource⟩, _, _, _, _, _, hcursor, step, hstep,
    usage, husage, total, htotal, inv, hinv, rfl⟩ := h
  refine ⟨attempt, inv, step, usage, total, ⟨hattempt, hinv, ?_, hsource, ?_, hstep, husage, htotal⟩, rfl⟩
  · unfold InvocationState.IsLive
    tauto
  · intro previous hprevious
    simpa [hprevious] using hcursor

theorem resume_eq_ok {binding : AttemptBinding} {checkpointId : String}
    (h : resume state binding checkpointId = .ok next) :
    ∃ attempt inv, Resumable state binding attempt inv ∧
      next = state.moved binding.attemptId { attempt with state := .running, waiting := none }
        { inv with state := .running } := by
  simp only [resume, bind_eq_ok, expect_eq_ok, reject_eq_ok, pure_eq_ok, not_or, not_not] at h
  obtain ⟨_, _, _, htokens, attempt, hattempt, _, ⟨hbound, hsuspended, _, huncancelled⟩, inv, hinv, rfl⟩ := h
  refine ⟨attempt, inv, ⟨by simpa using htokens, hattempt, hbound, hsuspended, by simpa using huncancelled,
    hbound ▸ hinv⟩, ?_⟩
  simp only [TaskSnapshot.moved, hbound]

theorem recover_eq_ok {id why : String} (h : recover state id why = .ok next) :
    ∃ attempt inv, state.attempts[id]? = some attempt ∧ attempt.state.IsLive ∧
      state.invocations[attempt.binding.invocationId]? = some inv ∧
      next = state.moved id { attempt with state := .recoveryRequired, waiting := some (.recovery why) }
        { inv with state := .recoveryRequired } := by
  simp only [recover, bind_eq_ok, expect_eq_ok, reject_eq_ok, pure_eq_ok, not_not] at h
  obtain ⟨_, _, attempt, hattempt, _, hlive, inv, hinv, rfl⟩ := h
  exact ⟨attempt, inv, hattempt, hlive, hinv, rfl⟩

theorem authorizeRetry_eq_ok {id why : String} {source : ExecutionEvidence}
    (h : authorizeRetry state id source why = .ok next) :
    ∃ attempt inv, Authorizable state id source attempt inv ∧
      next = state.moved id { attempt with retryAuthorized := true, state := .failed, waiting := none }
        { inv with state := .failed } := by
  simp only [authorizeRetry, validateSource, bind_eq_ok, expect_eq_ok, reject_eq_ok, pure_eq_ok, not_or,
    not_not] at h
  obtain ⟨_, _, attempt, hattempt, _, ⟨_, _, _, hsource⟩, inv, hinv, _, ⟨hstopped, _, _, _, hlast, _,
    hcursor⟩, rfl⟩ := h
  exact ⟨attempt, inv, ⟨hattempt, hinv, hsource, hstopped, hlast, by omega⟩, rfl⟩

theorem consume_eq_ok {invocation : String} {result : ConsumedResult}
    (h : consume state invocation result record = .ok next) :
    ∃ inv child, Consumable state invocation result inv child ∧
      next = { state with
        invocations := state.invocations.insert invocation
          { inv with
            consumedResults := inv.consumedResults.insert result.childInvocationId result } } := by
  simp only [consume, bind_eq_ok, expect_eq_ok, reject_eq_ok, pure_eq_ok, not_or, not_not] at h
  obtain ⟨inv, hinv, _, ⟨_, _, hfresh⟩, child, hchild, evidence, hevidence, _, ⟨hfact, heq, _⟩, rfl⟩ := h
  exact ⟨inv, child, ⟨hinv, hchild, by simpa using hfresh, heq ▸ hevidence, hfact⟩, rfl⟩

theorem consumeTerminal_eq_ok {invocation : String} {result : ConsumedTerminalResult}
    (h : consumeTerminal state invocation result record = .ok next) :
    ∃ inv child attempt observation,
      TerminalConsumable state invocation result inv child attempt observation ∧
      next = { state with
        invocations := state.invocations.insert invocation
          { inv with
            terminalConsumedResults :=
              inv.terminalConsumedResults.insert result.child.invocationId result } } := by
  simp only [consumeTerminal, bind_eq_ok, expect_eq_ok, reject_eq_ok, pure_eq_ok, not_or, not_not] at h
  obtain ⟨inv, hinv, _, ⟨_, _, _, _, _, hfresh, _⟩, child, hchild, attempt, hattempt, observation, hobs,
    disposition, hdisposition, _, ⟨hbound, hlast, hfact, _, heq, _⟩, rfl⟩ := h
  exact ⟨inv, child, attempt, observation, ⟨hinv, hchild, hattempt, hbound, hobs, heq ▸ hdisposition,
    hlast, hfact, by simpa using hfresh⟩, rfl⟩

theorem applyAssessment_eq_ok {sha256 : Value → String} {assessment : GoalAssessment}
    (h : applyAssessment sha256 state assessment record = .ok next) :
    ∃ criterion attempt assessmentDigest, Assessable state assessment criterion attempt ∧
      next = { state with
        goalAssessments :=
          state.goalAssessments ++ [⟨assessment, reference record, assessmentDigest⟩] } := by
  simp only [applyAssessment, assessmentOwner, bind_eq_ok, expect_eq_ok, reject_eq_ok, pure_eq_ok, not_or,
    not_not] at h
  obtain ⟨_, ⟨criterion, hgoal, _, _, invocation, _, attempt, hattempt, observation, _, _, ⟨_, _, _, _,
    hinvocation, _, hbound, _, _, _, _, _, _, _, hsource, _⟩, _⟩, _, hfresh, digest, _, rfl⟩ := h
  refine ⟨criterion, attempt, digest, ⟨hgoal, hattempt, hbound, hinvocation, hsource, ?_⟩, rfl⟩
  simpa using hfresh

theorem complete_eq_ok {evidence : List CompletionEvidence} (h : complete state evidence = .ok next) :
    Completable state evidence ∧ next = { state with successEvidence := evidence, state := .completed } := by
  simp only [complete, bind_eq_ok, expect_eq_ok, reject_eq_ok, pure_eq_ok, not_or, not_not] at h
  obtain ⟨_, _, _, ⟨_, hcompleted⟩, _, ⟨hlength, hcriteria, hids, havailable⟩, rfl⟩ := h
  refine ⟨⟨fun id inv hinv => ?_, ?_, ?_, ?_, ?_⟩, rfl⟩
  · simp only [List.any_eq_true, decide_eq_true_eq, not_exists, not_and, not_not] at hcompleted
    exact hcompleted inv (mem_values.2 ⟨id, hinv⟩)
  · have hperm := (List.dedup_sublist (evidence.map (·.criterionId))).eq_of_length
      (by rw [hlength, List.length_map])
    rw [← hperm]
    exact List.nodup_dedup _
  · omega
  · intro criterion hcriterion
    simp only [List.any_eq_true, decide_eq_true_eq, not_exists, not_and, not_not] at hids
    obtain ⟨item, hitem, heq⟩ := List.mem_map.1 (List.mem_dedup.1 (hids criterion hcriterion))
    exact ⟨item, hitem, heq⟩
  · simpa using havailable

theorem cancel_eq_ok {why : String} (h : cancel state why = .ok next) :
    next = { state with
      invocations := state.invocations.map fun _ inv =>
        if cancelSelects state inv then inv.cancelled else inv
      attempts := state.attempts.map fun id attempt =>
        if id ∈ cancelRequested state then { attempt with cancellationRequested := true } else attempt
      state := .cancelled } := by
  simp only [cancel, bind_eq_ok, pure_eq_ok] at h
  obtain ⟨_, _, _, _, rfl⟩ := h
  rfl

variable {sha256 : Value → String}

theorem transition_effect {event : TaskEvent} (h : transition sha256 state record event = .ok next) :
    Effect record state event next := by
  cases event with
  | executionBudgetConfigured policy =>
    obtain ⟨hvalid, hnone, hempty, rfl⟩ := configure_eq_ok h
    exact .configured hvalid hnone hempty
  | budgetedAttemptStarted binding maxSteps =>
    simp only [transition, bind_eq_ok] at h
    obtain ⟨reserved, hreserve, hstart⟩ := h
    obtain ⟨budget, hreservable, rfl⟩ := reserve_eq_ok hreserve
    obtain ⟨inv, hs, rfl⟩ := start_eq_ok hstart
    -- a start does not read the budget
    exact .budgeted hreservable ⟨⟨hs.attempt.1, hs.attempt.2, hs.attempt.3, hs.attempt.4⟩,
      ⟨hs.execution.1, hs.execution.2, hs.execution.3, hs.execution.4⟩, hs.distinct, hs.lookup,
      hs.sameAgent, hs.constraints, hs.source, hs.room, hs.tokens, hs.evidence, hs.dependencies⟩
  | goalAssessed assessment =>
    obtain ⟨criterion, attempt, digest, hassess, rfl⟩ := applyAssessment_eq_ok h
    exact .assessed hassess
  | registered definition => simp [transition] at h
  | invocationAdmitted definition =>
    obtain ⟨hadmissible, rfl⟩ := admitInvocation_eq_ok h
    exact .admitted hadmissible
  | dependencyAdmitted invocation dependency =>
    obtain ⟨inv, hinv, hstate, rfl⟩ := addDependency_eq_ok h
    exact .depended hinv hstate
  | attemptStarted binding =>
    simp only [transition, bind_eq_ok, reject_eq_ok] at h
    obtain ⟨_, hnone, hstart⟩ := h
    obtain ⟨inv, hstartable, rfl⟩ := start_eq_ok hstart
    exact .started (by simpa using hnone) hstartable
  | attemptObserved observation =>
    obtain ⟨attempt, inv, step, usage, total, hobservable, rfl⟩ := observe_eq_ok h
    exact .observed hobservable
  | attemptResumed binding checkpointId =>
    obtain ⟨attempt, inv, hresumable, rfl⟩ := resume_eq_ok h
    exact .resumed hresumable
  | recoveryNeeded id why =>
    obtain ⟨attempt, inv, hattempt, hlive, hinv, rfl⟩ := recover_eq_ok h
    exact .recovered hattempt hlive hinv
  | retryAuthorized id source why =>
    obtain ⟨attempt, inv, hauthorizable, rfl⟩ := authorizeRetry_eq_ok h
    exact .authorized hauthorizable
  | resultConsumed invocation result =>
    obtain ⟨inv, child, hconsumable, rfl⟩ := consume_eq_ok h
    exact .consumed hconsumable
  | terminalResultConsumed invocation result =>
    obtain ⟨inv, child, attempt, observation, hconsumable, rfl⟩ := consumeTerminal_eq_ok h
    exact .consumedTerminal hconsumable
  | completed evidence =>
    obtain ⟨hcompletable, rfl⟩ := complete_eq_ok h
    exact .completed hcompletable
  | cancelled why =>
    rw [cancel_eq_ok h]
    exact .cancelled
  | failed why =>
    simp only [transition, bind_eq_ok, pure_eq_ok] at h
    obtain ⟨_, _, rfl⟩ := h
    exact .failed

/-- **What an accepted event did.**  A terminal task takes only stopped
observations, recovery marks and detached resumptions. -/
theorem apply_effect {event : TaskEvent} (h : apply sha256 (some state) event record = .ok next) :
    (state.state.isTerminal = true →
        detachedResume state event = true ∨ stoppedObservation event = true) ∧
      ∃ moved, Effect record state event moved ∧
        next = refresh { moved with position := record.position } := by
  cases event with
  | registered definition => simp [apply] at h
  | _ =>
    simp only [apply, bind_eq_ok, reject_eq_ok, pure_eq_ok] at h
    obtain ⟨_, hopen, moved, hmoved, rfl⟩ := h
    refine ⟨fun hterminal => ?_, moved, transition_effect hmoved, rfl⟩
    by_contra hno
    rw [not_or] at hno
    exact hopen ⟨hterminal, hno⟩

/-- **Invariants of runs.**  A property of a registered snapshot that every
effect keeps, whatever `refresh` then computes, holds throughout every run. -/
theorem TaskRun.invariant {I : TaskSnapshot → Prop}
    (hregistered : ∀ definition position, validateDefinition sha256 definition = .ok () →
      I (.registered definition position))
    (heffect : ∀ state event record moved, I state →
      (state.state.isTerminal = true →
        detachedResume state event = true ∨ stoppedObservation event = true) →
      Effect record state event moved → I (refresh { moved with position := record.position }))
    (hskipped : ∀ state position, I state → I { state with position := position })
    {history : List (TaskSnapshot × TaskEvent)} (run : TaskRun sha256 history state) : I state := by
  induction run with
  | registered h =>
    simp only [apply, bind_eq_ok, pure_eq_ok] at h
    obtain ⟨_, hvalid, rfl⟩ := h
    exact hregistered _ _ hvalid
  | event run h ih =>
    obtain ⟨hopen, moved, hmoved, rfl⟩ := apply_effect h
    exact heffect _ _ _ _ ih hopen hmoved
  | skipped run position ih => exact hskipped _ _ ih

/-- The steps and the last snapshot of a list of events, each with its record. -/
def runFrom (sha256 : Value → String) (state : TaskSnapshot) :
    List (TaskEvent × FactRecord) → Except TaskError (List (TaskSnapshot × TaskEvent) × TaskSnapshot)
  | [] => .ok ([], state)
  | (event, record) :: rest => do
      let next ← apply sha256 (some state) event record
      let (steps, last) ← runFrom sha256 next rest
      pure ((state, event) :: steps, last)

theorem TaskRun.append {history steps : List (TaskSnapshot × TaskEvent)} {last : TaskSnapshot}
    (run : TaskRun sha256 history state) {events : List (TaskEvent × FactRecord)}
    (h : runFrom sha256 state events = .ok (steps, last)) : TaskRun sha256 (history ++ steps) last := by
  induction events generalizing state history steps with
  | nil =>
    obtain ⟨rfl, rfl⟩ := Prod.mk.inj (Except.ok.inj h)
    rwa [List.append_nil]
  | cons entry events ih =>
    simp only [runFrom, bind_eq_ok, pure_eq_ok, Prod.exists] at h
    obtain ⟨next, hnext, rest, last', hrest, heq⟩ := h
    obtain ⟨rfl, rfl⟩ := Prod.mk.inj heq
    have hrun := ih (.event run hnext) hrest
    rwa [List.append_assoc] at hrun

end Inversion

end Tasks
end Kolyan
