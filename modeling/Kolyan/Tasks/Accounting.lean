/-
# Tokens and steps

Two accounts are kept of a task.  Tokens are counted after the fact: each
accepted observation adds its usage, also on a task that has ended, and a task
that spent more than its limit, or does not know what it spent, fails and lets
nothing run again (`Exact`).  Steps are charged before: a budgeted start reserves
them, nothing gives them back, and what is reserved stays within the configured
policy (`Charged`).
-/

import Kolyan.Tasks.Success

namespace Kolyan
namespace Tasks

open Checks Facts OrderedMaps

/-- The usage an event reports. -/
def TaskEvent.usage : TaskEvent → Option TaskUsage
  | attemptObserved observation => some observation.usage
  | _ => none

/-- The usage increments of a run, in order. -/
def spent (history : List (TaskSnapshot × TaskEvent)) : List TaskUsage :=
  history.filterMap fun step => step.2.usage

/-- The sum of usages, field by field. -/
def usageSum (usages : List TaskUsage) : TaskUsage :=
  ⟨(usages.map (·.inputTokens)).sum, (usages.map (·.outputTokens)).sum, (usages.map (·.unreportedSteps)).sum⟩

/-- The event lets an attempt run: a start or a resumption. -/
def TaskEvent.spends : TaskEvent → Bool
  | attemptStarted _ | budgetedAttemptStarted _ _ | attemptResumed _ _ => true
  | _ => false

/-- The token limit is overspent, or what was used is not known. -/
def Overspent (definition : TaskDefinition) (usage : TaskUsage) : Prop :=
  ∃ limit, definition.limits.maxTokens = some limit ∧
    (limit < usage.inputTokens + usage.outputTokens ∨ 0 < usage.unreportedSteps)

/-- What holds of the token account after a run. -/
structure Exact (history : List (TaskSnapshot × TaskEvent)) (state : TaskSnapshot) : Prop where
  sum : state.usage = usageSum (spent history)
  tokens : state.usage.inputTokens + state.usage.outputTokens ≤ u64Max
  steps : state.usage.unreportedSteps ≤ u64Max
  gate : Overspent state.definition state.usage → state.state.isTerminal = true

section Tokens

variable {record : FactRecord} {state moved : TaskSnapshot} {event : TaskEvent}

theorem checkedAdd_eq_some {a b c : ℕ} : checkedAdd a b = some c ↔ a + b = c ∧ a + b ≤ u64Max := by
  unfold checkedAdd
  split_ifs with h <;> simp [h]

theorem addUsage_eq_ok {usage more next : TaskUsage} (h : addUsage usage more = .ok next) :
    next = ⟨usage.inputTokens + more.inputTokens, usage.outputTokens + more.outputTokens,
      usage.unreportedSteps + more.unreportedSteps⟩ ∧ next.unreportedSteps ≤ u64Max := by
  simp only [addUsage, bind_eq_ok, expect_eq_ok, checkedAdd_eq_some, pure_eq_ok] at h
  obtain ⟨_, ⟨rfl, _⟩, _, ⟨rfl, _⟩, _, ⟨rfl, hsteps⟩, rfl⟩ := h
  exact ⟨rfl, hsteps⟩

theorem usageSum_append (usages : List TaskUsage) (more : TaskUsage) :
    usageSum (usages ++ [more]) =
      ⟨(usageSum usages).inputTokens + more.inputTokens, (usageSum usages).outputTokens + more.outputTokens,
        (usageSum usages).unreportedSteps + more.unreportedSteps⟩ := by
  simp [usageSum]

theorem overspent_iff {definition : TaskDefinition} {usage : TaskUsage} {total : ℕ}
    (h : usage.inputTokens + usage.outputTokens = total) :
    overspent definition usage total = true ↔ Overspent definition usage := by
  simp only [overspent, Overspent, Option.any_eq_true, Bool.or_eq_true, decide_eq_true_eq]
  constructor
  · rintro ⟨limit, hlimit, hover⟩
    exact ⟨limit, hlimit, by omega⟩
  · rintro ⟨limit, hlimit, hover⟩
    exact ⟨limit, hlimit, by omega⟩

theorem Overspent.exhausted (h : Overspent state.definition state.usage) : tokensExhausted state = true := by
  obtain ⟨limit, hlimit, hover⟩ := h
  simp only [tokensExhausted, hlimit, Option.any_some, Bool.or_eq_true, decide_eq_true_eq]
  rcases hover with htotal | hsteps
  · right
    simp only [TaskUsage.total, checkedAdd]
    split_ifs
    · simp only [Option.all_some, decide_eq_true_eq]
      omega
    · rfl
  · exact Or.inl hsteps

theorem Effect.usage_eq (h : Effect record state event moved) (hno : event.usage = none) :
    moved.usage = state.usage := by
  cases h with
  | observed => simp [TaskEvent.usage] at hno
  | _ => rfl

theorem Effect.ended (h : Effect record state event moved) (hend : state.state.isTerminal = true) :
    moved.state.isTerminal = true := by
  cases h with
  | @observed observation attempt inv next usage total o =>
    show (if overspent state.definition usage total && !state.state.isTerminal
      then TaskState.failed else state.state).isTerminal = true
    split_ifs
    · rfl
    · exact hend
  | completed => rfl
  | cancelled => rfl
  | failed => rfl
  | _ => exact hend

theorem Effect.spends (h : Effect record state event moved)
    (hover : Overspent state.definition state.usage) : event.spends = false := by
  have hno : tokensExhausted state ≠ false := by simp [hover.exhausted]
  cases h with
  | budgeted _ startable => exact absurd startable.tokens hno
  | started _ startable => exact absurd startable.tokens hno
  | resumed resumable => exact absurd resumable.tokens hno
  | _ => rfl

theorem Exact.step {history : List (TaskSnapshot × TaskEvent)} (he : Exact history state)
    (h : Effect record state event moved) : Exact (history ++ [(state, event)]) moved := by
  cases husage : event.usage with
  | none =>
    have hspent : spent (history ++ [(state, event)]) = spent history := by
      simp [spent, List.filterMap_append, husage]
    have hsame := h.usage_eq husage
    refine ⟨by rw [hsame, hspent, he.sum], hsame ▸ he.tokens, hsame ▸ he.steps, fun hover => h.ended ?_⟩
    rw [hsame, h.definition] at hover
    exact he.gate hover
  | some more =>
    have hspent : spent (history ++ [(state, event)]) = spent history ++ [more] := by
      simp [spent, List.filterMap_append, husage]
    cases h with
    | @observed observation attempt inv next usage total o =>
      obtain rfl : observation.usage = more := Option.some.inj husage
      obtain ⟨hadd, hsteps⟩ := addUsage_eq_ok o.spent
      obtain ⟨htotal, hbound⟩ := checkedAdd_eq_some.1 o.sum
      refine ⟨?_, hbound, hsteps, fun hover => ?_⟩
      · rw [hspent, usageSum_append, ← he.sum]
        exact hadd
      · replace hover : Overspent state.definition usage := hover
        show (if overspent state.definition usage total && !state.state.isTerminal
          then TaskState.failed else state.state).isTerminal = true
        rw [(overspent_iff htotal).2 hover]
        cases hend : state.state.isTerminal with
        | true => simp [hend]
        | false => rfl
    | _ => simp [TaskEvent.usage] at husage

end Tokens

section TokenRuns

variable {sha256 : Value → String} {history : List (TaskSnapshot × TaskEvent)} {state : TaskSnapshot}

theorem TaskRun.exact (run : TaskRun sha256 history state) : Exact history state := by
  induction run with
  | registered h =>
    simp only [apply, bind_eq_ok, pure_eq_ok] at h
    obtain ⟨_, _, rfl⟩ := h
    refine ⟨rfl, Nat.zero_le _, Nat.zero_le _, ?_⟩
    rintro ⟨_, _, hover⟩
    simp [TaskSnapshot.registered] at hover
  | event run h ih =>
    obtain ⟨_, moved, heffect, rfl⟩ := apply_effect h
    have hnext := ih.step heffect
    exact ⟨hnext.sum, hnext.tokens, hnext.steps, fun hover => refresh_isTerminal.trans (hnext.gate hover)⟩
  | skipped run position ih => exact ⟨ih.sum, ih.tokens, ih.steps, ih.gate⟩

theorem spent_append (history more : List (TaskSnapshot × TaskEvent)) :
    spent (history ++ more) = spent history ++ spent more := List.filterMap_append

theorem Overspent.later (run : TaskRun sha256 history state) {later : TaskSnapshot}
    (h : Later sha256 state later) (hover : Overspent state.definition state.usage) :
    Overspent later.definition later.usage := by
  obtain ⟨more, hrun⟩ := run.later h
  have hdefinition := (h.frozen (run.exact.gate hover)).definition
  obtain ⟨limit, hlimit, hover⟩ := hover
  refine ⟨limit, hdefinition ▸ hlimit, ?_⟩
  rw [run.exact.sum] at hover
  rw [hrun.exact.sum, spent_append]
  simp only [usageSum, List.map_append, List.sum_append] at hover ⊢
  omega

/-- **Token accounting is exact and gating.**  The usage of a snapshot is the sum
of the increments the run observed, and none of its sums wraps around.  Once the
total exceeds the limit, or some steps are unreported, the task is terminal, and
neither a start nor a resumption is accepted there or at any later snapshot. -/
theorem TaskRun.usage_exact (run : TaskRun sha256 history state) :
    state.usage = usageSum (spent history) ∧
    state.usage.inputTokens + state.usage.outputTokens ≤ u64Max ∧
    state.usage.unreportedSteps ≤ u64Max ∧
    ∀ limit, state.definition.limits.maxTokens = some limit →
      limit < state.usage.inputTokens + state.usage.outputTokens ∨ 0 < state.usage.unreportedSteps →
      ∀ later, Later sha256 state later → later.state.isTerminal = true ∧
        ∀ event record next, apply sha256 (some later) event record = .ok next → event.spends = false := by
  have he := run.exact
  refine ⟨he.sum, he.tokens, he.steps, fun limit hlimit hover later hlater => ?_⟩
  have hover : Overspent state.definition state.usage := ⟨limit, hlimit, hover⟩
  have hend := he.gate hover
  refine ⟨by rw [(hlater.frozen hend).state, hend], fun event record next h => ?_⟩
  obtain ⟨_, moved, heffect, _⟩ := apply_effect h
  exact heffect.spends (hover.later run hlater)

def cappedTask : TaskDefinition :=
  { sampleTask with limits := { sampleTask.limits with maxTokens := some 2 } }

/-- The root of the capped task spends three tokens and suspends. -/
def overspending : List (TaskEvent × FactRecord) :=
  [(.invocationAdmitted sampleRoot, sampleRecord 2), (.attemptStarted sampleBinding, sampleRecord 3),
    (.attemptObserved (sampleObservation sampleBinding 1 (.suspended ⟨"checkpoint", ["approval"], []⟩)),
      sampleRecord 4)]

/-- An overspent task stays terminal, and its suspended root is not resumed. -/
theorem TaskRun.usage_exact_capped : ∃ history state, TaskRun (fun _ => "") history state ∧
    state.usage = ⟨2, 1, 0⟩ ∧ state.state = .failed ∧
      ∀ event record next, apply (fun _ => "") (some state) event record = .ok next →
        event.spends = false := by
  have hregistered : apply (fun _ => "") none (.registered cappedTask) (sampleRecord 1) =
      .ok (.registered cappedTask 1) := by
    have hvalid : validateDefinition (fun _ => "") cappedTask = .ok () := by decide
    simp [apply, hvalid, sampleRecord, pure, Except.pure]
  have h : (runFrom (fun _ => "") (.registered cappedTask 1) overspending).toOption.any (fun run =>
      decide (run.2.usage = ⟨2, 1, 0⟩) && decide (run.2.state = .failed) &&
        decide (run.2.definition.limits.maxTokens = some 2)) = true := by
    decide
  simp only [Option.any_eq_true, toOption_eq_some, Bool.and_eq_true, decide_eq_true_eq] at h
  obtain ⟨⟨history, state⟩, hrun, ⟨husage, hfailed⟩, hlimit⟩ := h
  have run := (TaskRun.registered hregistered).append hrun
  have hover : 2 < state.usage.inputTokens + state.usage.outputTokens ∨ 0 < state.usage.unreportedSteps := by
    rw [husage]
    decide
  exact ⟨history, state, run, husage, hfailed,
    ((TaskRun.usage_exact run).2.2.2 2 hlimit hover state .refl).2⟩

end TokenRuns

/-- The steps a budget has reserved. -/
def TaskExecutionBudgetState.reservedTotal (budget : TaskExecutionBudgetState) : ℕ :=
  (budget.reservations.values.map (·.maxSteps)).sum

/-- What holds of the step account of a snapshot. -/
structure Charged (state : TaskSnapshot) (budget : TaskExecutionBudgetState) : Prop where
  valid : budget.policy.validate = .ok ()
  keys : ∀ id, id ∈ budget.reservations ↔ id ∈ state.attempts
  slots : ∀ (id : String) (slot : TaskStepReservation), budget.reservations[id]? = some slot →
    (∃ attempt, state.attempts[id]? = some attempt ∧ attempt.binding = slot.binding) ∧
    1 ≤ slot.maxSteps ∧ slot.maxSteps ≤ state.definition.limits.maxStepsPerTurn
  total : budget.reservedTotal ≤ budget.policy.maxReservedSteps

/-- The configuration of a budget, with the fact it came from. -/
def TaskSnapshot.budgetPolicy (state : TaskSnapshot) : Option (TaskExecutionBudgetPolicy × FactRef) :=
  state.executionBudget.map fun budget => (budget.policy, budget.policyReference)

section Steps

variable {record : FactRecord} {state moved : TaskSnapshot} {event : TaskEvent}
  {budget : TaskExecutionBudgetState}

theorem reservedSteps_eq_ok {sum total : ℕ} {slots : List TaskStepReservation} (hsum : sum ≤ u64Max) :
    reservedSteps sum slots = .ok total ↔
      sum + (slots.map (·.maxSteps)).sum = total ∧ total ≤ u64Max := by
  induction slots generalizing sum with
  | nil =>
    simp only [reservedSteps, Except.ok.injEq, List.map_nil, List.sum_nil, Nat.add_zero]
    constructor
    · rintro rfl
      exact ⟨rfl, hsum⟩
    · exact fun h => h.1
  | cons slot slots ih =>
    simp only [reservedSteps, bind_eq_ok, expect_eq_ok, checkedAdd_eq_some, List.map_cons, List.sum_cons]
    constructor
    · rintro ⟨_, ⟨rfl, hle⟩, hrest⟩
      obtain ⟨htotal, hbound⟩ := (ih hle).1 hrest
      exact ⟨by omega, hbound⟩
    · rintro ⟨htotal, hbound⟩
      have hle : sum + slot.maxSteps ≤ u64Max := by omega
      exact ⟨_, ⟨rfl, hle⟩, (ih hle).2 ⟨by omega, hbound⟩⟩

/-- **What is left of a budget** is the policy less the sum of all reservations. -/
theorem remainingSteps_eq_ok {remaining : ℕ} : budget.remainingSteps = .ok remaining ↔
    budget.policy.validate = .ok () ∧ budget.reservedTotal ≤ u64Max ∧
      budget.reservedTotal ≤ budget.policy.maxReservedSteps ∧
      remaining = budget.policy.maxReservedSteps - budget.reservedTotal := by
  have hzero : 0 ≤ u64Max := Nat.zero_le _
  simp only [TaskExecutionBudgetState.remainingSteps, TaskExecutionBudgetState.reservedTotal, bind_eq_ok,
    reject_eq_ok, pure_eq_ok, reservedSteps_eq_ok hzero, Nat.zero_add]
  constructor
  · rintro ⟨_, hvalid, _, ⟨rfl, hfits⟩, _, hle, rfl⟩
    exact ⟨hvalid, hfits, by omega, rfl⟩
  · rintro ⟨hvalid, hfits, hle, rfl⟩
    exact ⟨(), hvalid, _, ⟨rfl, hfits⟩, (), by omega, rfl⟩

theorem Effect.mem_attempts_iff (h : Effect record state event moved) (hno : event.starts = none)
    {id : String} : id ∈ moved.attempts ↔ id ∈ state.attempts := by
  refine ⟨fun hmem => ?_, fun hmem => by_contra fun hnot => h.mem_attempts hnot hmem⟩
  obtain ⟨attempt', hattempt'⟩ := mem_iff_exists.1 hmem
  rcases h.attempt_origin hattempt' with ⟨attempt, hattempt, _⟩ | ⟨_, _, hstarts, _⟩
  · exact mem_of_getElem? hattempt
  · rw [hno] at hstarts
    exact absurd hstarts (by simp)

theorem Charged.kept (hc : Charged state budget) (h : Effect record state event moved)
    (hno : event.starts = none) : Charged moved budget := by
  refine ⟨hc.valid, fun id => (hc.keys id).trans (h.mem_attempts_iff hno).symm, fun id slot hslot => ?_,
    hc.total⟩
  obtain ⟨⟨attempt, hattempt, hbinding⟩, hbounds⟩ := hc.slots id slot hslot
  obtain ⟨attempt', hattempt', hkeeps⟩ := h.keepsAttempt hattempt
  exact ⟨⟨attempt', hattempt', hkeeps.binding.trans hbinding⟩, h.definition ▸ hbounds⟩

theorem reserved_total {binding : AttemptBinding} {maxSteps : ℕ}
    (hfresh : binding.attemptId ∉ budget.reservations) :
    (budget.reserved binding maxSteps).reservedTotal = maxSteps + budget.reservedTotal := by
  have hsum := sum_values_insert (v := ⟨binding, maxSteps⟩) TaskStepReservation.maxSteps hfresh
  exact hsum

theorem Charged.reserved (hc : Charged state budget) {binding : AttemptBinding} {maxSteps : ℕ}
    (hr : Reservable state budget binding maxSteps) {inv : InvocationSnapshot} :
    Charged { state.started inv binding with executionBudget := some (budget.reserved binding maxSteps) }
      (budget.reserved binding maxSteps) := by
  obtain ⟨remaining, hremaining, hle⟩ := hr.remaining
  obtain ⟨_, _, htotal, rfl⟩ := remainingSteps_eq_ok.1 hremaining
  refine ⟨hc.valid, fun id => ?_, fun id slot hslot => ?_, ?_⟩
  · show id ∈ budget.reservations.insert _ _ ↔ id ∈ state.attempts.insert _ _
    rw [mem_insert, mem_insert, hc.keys]
  · replace hslot : (budget.reservations.insert binding.attemptId ⟨binding, maxSteps⟩)[id]? = some slot :=
      hslot
    rw [getElem?_insert] at hslot
    show (∃ attempt, (state.attempts.insert binding.attemptId (.started binding))[id]? = some attempt ∧
      attempt.binding = slot.binding) ∧ _
    rw [getElem?_insert]
    split_ifs at hslot ⊢ with heq
    · obtain rfl := Option.some.inj hslot
      exact ⟨⟨_, rfl, rfl⟩, hr.positive, hr.ceiling⟩
    · exact hc.slots id slot hslot
  · rw [reserved_total hr.fresh]
    show maxSteps + budget.reservedTotal ≤ budget.policy.maxReservedSteps
    omega

theorem Effect.charged (h : Effect record state event moved)
    (hc : ∀ budget, state.executionBudget = some budget → Charged state budget) :
    ∀ budget, moved.executionBudget = some budget → Charged moved budget := by
  intro budget' hbudget'
  have heffect := h
  cases h with
  | @configured policy valid absent unstarted =>
    obtain rfl := Option.some.inj hbudget'
    have hempty : state.attempts = ∅ := Std.ExtTreeMap.isEmpty_iff.1 unstarted
    exact ⟨valid, fun id => by simp [hempty], fun id slot hslot => by simp at hslot, Nat.zero_le _⟩
  | @budgeted binding maxSteps budget inv reservable startable =>
    obtain rfl := Option.some.inj hbudget'
    exact (hc budget reservable.configured).reserved reservable
  | @started binding inv unbudgeted startable =>
    have hnone : state.executionBudget = some budget' := hbudget'
    rw [unbudgeted] at hnone
    exact absurd hnone (by simp)
  | _ => exact (hc budget' hbudget').kept heffect rfl

/-- **A configured policy stays, and none appears once work has started.** -/
theorem Effect.budgetPolicy (h : Effect record state event moved)
    (hfixed : state.executionBudget.isSome = true ∨ state.attempts.isEmpty = false) :
    moved.budgetPolicy = state.budgetPolicy := by
  cases h with
  | configured _ absent unstarted =>
    rcases hfixed with h | h
    · simp [absent] at h
    · simp [unstarted] at h
  | budgeted reservable _ => simp [TaskSnapshot.budgetPolicy, reservable.configured, TaskExecutionBudgetState.reserved]
  | _ => rfl

theorem Effect.budgetFixed (h : Effect record state event moved)
    (hfixed : state.executionBudget.isSome = true ∨ state.attempts.isEmpty = false) :
    moved.executionBudget.isSome = true ∨ moved.attempts.isEmpty = false := by
  rcases hfixed with hsome | hstarted
  · left
    have hpolicy := congrArg Option.isSome (h.budgetPolicy (Or.inl hsome))
    simpa only [TaskSnapshot.budgetPolicy, Option.isSome_map, hsome] using hpolicy
  · right
    rw [isEmpty_eq_false_iff_exists] at hstarted ⊢
    obtain ⟨id, hid⟩ := hstarted
    exact ⟨id, by_contra fun hnot => h.mem_attempts hnot hid⟩

end Steps

section StepRuns

variable {sha256 : Value → String} {history : List (TaskSnapshot × TaskEvent)} {state : TaskSnapshot}

theorem TaskRun.charged (run : TaskRun sha256 history state) {budget : TaskExecutionBudgetState}
    (hbudget : state.executionBudget = some budget) : Charged state budget := by
  have hall := run.invariant
    (I := fun state => ∀ budget, state.executionBudget = some budget → Charged state budget)
    (fun definition position _ => ?_) (fun state event record moved h _ heffect => ?_) fun _ _ h => ?_
  · exact hall budget hbudget
  · simp [TaskSnapshot.registered]
  · intro budget hbudget
    have hnext := heffect.charged h budget hbudget
    exact ⟨hnext.valid, hnext.keys, hnext.slots, hnext.total⟩
  · intro budget hbudget
    have hkept := h budget hbudget
    exact ⟨hkept.valid, hkept.keys, hkept.slots, hkept.total⟩

theorem Later.budgetPolicy {later : TaskSnapshot} (h : Later sha256 state later)
    (hfixed : state.executionBudget.isSome = true ∨ state.attempts.isEmpty = false) :
    (later.executionBudget.isSome = true ∨ later.attempts.isEmpty = false) ∧
      later.budgetPolicy = state.budgetPolicy := by
  induction h with
  | refl => exact ⟨hfixed, rfl⟩
  | tail _ step ih =>
    cases step with
    | event h =>
      obtain ⟨_, moved, heffect, rfl⟩ := apply_effect h
      exact ⟨heffect.budgetFixed ih.1, (heffect.budgetPolicy ih.1).trans ih.2⟩
    | skipped position => exact ih

/-- **Step reservations never exceed the configured budget.**  In every snapshot
of a run with a budget the reservations are those of the attempts, each within
the ceiling of a turn, and their sum is at most the policy's, so that for a
policy whose steps fit in 64 bits the remaining steps are always known.  The
policy and its reference are those of every later snapshot; a task that started
work without a policy never gets one. -/
theorem TaskRun.reservations_bounded (run : TaskRun sha256 history state) :
    (∀ budget, state.executionBudget = some budget →
      (∀ id, id ∈ budget.reservations ↔ id ∈ state.attempts) ∧
      (∀ (id : String) (slot : TaskStepReservation), budget.reservations[id]? = some slot →
        (∃ attempt, state.attempts[id]? = some attempt ∧ attempt.binding = slot.binding) ∧
        1 ≤ slot.maxSteps ∧ slot.maxSteps ≤ state.definition.limits.maxStepsPerTurn) ∧
      budget.reservedTotal ≤ budget.policy.maxReservedSteps ∧
      (budget.policy.maxReservedSteps ≤ u64Max →
        budget.remainingSteps = .ok (budget.policy.maxReservedSteps - budget.reservedTotal)) ∧
      ∀ later, Later sha256 state later → ∃ budget', later.executionBudget = some budget' ∧
        budget'.policy = budget.policy ∧ budget'.policyReference = budget.policyReference) ∧
    (state.executionBudget = none → (∃ id, id ∈ state.attempts) →
      ∀ later, Later sha256 state later → later.executionBudget = none) := by
  refine ⟨fun budget hbudget => ?_, fun hnone hstarted later hlater => ?_⟩
  · have hc := run.charged hbudget
    refine ⟨hc.keys, hc.slots, hc.total, fun hfits => ?_, fun later hlater => ?_⟩
    · exact remainingSteps_eq_ok.2 ⟨hc.valid, hc.total.trans hfits, hc.total, rfl⟩
    · have hpolicy := (hlater.budgetPolicy (Or.inl (by rw [hbudget]; rfl))).2
      rw [TaskSnapshot.budgetPolicy, TaskSnapshot.budgetPolicy, hbudget, Option.map_some,
        Option.map_eq_some_iff] at hpolicy
      obtain ⟨budget', hbudget', heq⟩ := hpolicy
      obtain ⟨hsame, href⟩ := Prod.mk.inj heq
      exact ⟨budget', hbudget', hsame, href⟩
  · have hpolicy := (hlater.budgetPolicy (Or.inr
      (isEmpty_eq_false_iff_exists.2 hstarted))).2
    rw [TaskSnapshot.budgetPolicy, TaskSnapshot.budgetPolicy, hnone, Option.map_none,
      Option.map_eq_none_iff] at hpolicy
    exact hpolicy

def samplePolicy : TaskExecutionBudgetPolicy := ⟨"budget", "r1", 6, 1000⟩

def budgetedStart : List (TaskEvent × FactRecord) :=
  [(.executionBudgetConfigured samplePolicy, sampleFact 2 "budget" []),
    (.invocationAdmitted sampleRoot, sampleFact 3 "root" []),
    (.budgetedAttemptStarted sampleBinding 4, sampleFact 4 "start" [⟨"task", 2, "budget"⟩])]

/-- Two of the six steps remain after the sample start. -/
theorem TaskRun.reservations_bounded_start : ∃ history state budget,
    TaskRun (fun _ => "") history state ∧ state.executionBudget = some budget ∧
      budget.reservedTotal = 4 ∧ budget.remainingSteps = .ok 2 := by
  have h : (runFrom (fun _ => "") (.registered sampleTask 1) budgetedStart).toOption.any (fun run =>
      run.2.executionBudget.any fun budget => decide (budget.reservedTotal = 4) &&
        decide (budget.policy = samplePolicy)) = true := by
    decide
  simp only [Option.any_eq_true, toOption_eq_some, Bool.and_eq_true, decide_eq_true_eq] at h
  obtain ⟨⟨history, state⟩, hrun, budget, hbudget, htotal, hpolicy⟩ := h
  have run := runFrom_run hrun
  obtain ⟨_, _, _, hremaining, _⟩ := (TaskRun.reservations_bounded run).1 budget hbudget
  rw [hpolicy, htotal] at hremaining
  exact ⟨history, state, budget, run, hbudget, htotal, hremaining (by decide)⟩

end StepRuns

end Tasks
end Kolyan
