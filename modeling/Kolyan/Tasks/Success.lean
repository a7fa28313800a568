/-
# Success is proven

A task completes with one item of evidence for each of its criteria.  An item
was reported by an attempt, or stands for a goal that was assessed as satisfied;
both were checked when they were recorded and neither is changed afterwards
(`Recorded`), so that `complete` only has to compare values.  After completion no
event is accepted at all, hence `Success` holds as long as the task is there.
-/

import Kolyan.Tasks.Finality

namespace Kolyan
namespace Tasks

open Checks Facts OrderedMaps

/-- The evidence is of the kind its criterion demands: the digest of a result,
the digest of the artifact, or a recorded goal assessment that was satisfied. -/
def Demands (goals : List GoalAssessmentRecord) : CompletionCriterion → CompletionEvidence → Prop
  | .executionCompleted _ _, .executionResult _ _ resultDigest => isHexDigest resultDigest = true
  | .artifactDigest _ _ expected, .verifiedArtifact _ _ sha256 _ => sha256 = expected
  | .goal goal, .goalSatisfied _ source assessment assessmentDigest =>
      ∃ saved ∈ goals, saved.assessment.verdict = .satisfied ∧
        saved.assessment.criterionId = goal.id ∧ saved.assessment.source = source ∧
        saved.reference = assessment ∧ saved.assessmentDigest = assessmentDigest
  | _, _ => False

/-- The evidence proves a criterion: it names it, is of its kind, and its source
is an execution of an attempt of the criterion's own invocation. -/
structure Proves (state : TaskSnapshot) (criterion : CompletionCriterion) (item : CompletionEvidence) :
    Prop where
  name : item.criterionId = criterion.id
  kind : Demands state.goalAssessments criterion item
  source : ∃ (id : String) (attempt : AttemptSnapshot), state.attempts[id]? = some attempt ∧
    attempt.binding.invocationId = criterion.invocationId ∧
    item.source.execution = attempt.binding.execution

/-- What a completed task shows. -/
structure Success (state : TaskSnapshot) : Prop where
  invocations : ∀ (i : String) (inv : InvocationSnapshot), state.invocations[i]? = some inv →
    inv.state = .completed
  distinct : (state.definition.criteria.map (·.id)).Nodup
  ids : (state.successEvidence.map (·.criterionId)).Perm (state.definition.criteria.map (·.id))
  proves : ∀ item ∈ state.successEvidence, ∀ criterion ∈ state.definition.criteria,
    item.criterionId = criterion.id → Proves state criterion item

theorem Success.congr {a b : TaskSnapshot} (hs : Success a) (hdefinition : b.definition = a.definition)
    (hinvocations : b.invocations = a.invocations) (hattempts : b.attempts = a.attempts)
    (hgoals : b.goalAssessments = a.goalAssessments)
    (hevidence : b.successEvidence = a.successEvidence) : Success b := by
  constructor
  · rw [hinvocations]
    exact hs.invocations
  · rw [hdefinition]
    exact hs.distinct
  · rw [hevidence, hdefinition]
    exact hs.ids
  · intro item hitem criterion hcriterion hid
    rw [hevidence] at hitem
    rw [hdefinition] at hcriterion
    obtain ⟨hname, hkind, hsource⟩ := hs.proves item hitem criterion hcriterion hid
    exact ⟨hname, hgoals ▸ hkind, hattempts ▸ hsource⟩

/-- An item an attempt may report: physical evidence for a criterion of the
invocation it ran for, from its own execution. -/
def Reportable (criteria : List CompletionCriterion) (binding : AttemptBinding)
    (item : CompletionEvidence) : Prop :=
  ∃ criterion ∈ criteria, criterion.id = item.criterionId ∧
    criterion.invocationId = binding.invocationId ∧ item.source.execution = binding.execution ∧
    ∀ goals, Demands goals criterion item

/-- What is recorded for the criteria of a task. -/
structure Recorded (state : TaskSnapshot) : Prop where
  distinct : (state.definition.criteria.map (·.id)).Nodup
  reported : ∀ (id : String) (attempt : AttemptSnapshot) (evidence : List CompletionEvidence),
    state.attempts[id]? = some attempt → attempt.completedEvidence = some evidence →
    ∀ item ∈ evidence, Reportable state.definition.criteria attempt.binding item
  assessed : ∀ saved ∈ state.goalAssessments, ∃ (goal : GoalCriterion) (id : String)
    (attempt : AttemptSnapshot), CompletionCriterion.goal goal ∈ state.definition.criteria ∧
    goal.id = saved.assessment.criterionId ∧ state.attempts[id]? = some attempt ∧
    attempt.binding.invocationId = goal.invocationId ∧
    saved.assessment.source.execution = attempt.binding.execution

section Checks

variable {sha256 : Value → String}

theorem validateCriteria_nodup {seen : List String} {criteria : List CompletionCriterion}
    (h : validateCriteria sha256 seen criteria = .ok ()) :
    (criteria.map (·.id)).Nodup ∧ ∀ criterion ∈ criteria, criterion.id ∉ seen := by
  induction criteria generalizing seen with
  | nil => simp
  | cons criterion criteria ih =>
    simp only [validateCriteria, validateCriterion, bind_eq_ok, reject_eq_ok] at h
    obtain ⟨_, ⟨_, _, _, _, _, _, _, hfresh, _⟩, hrest⟩ := h
    obtain ⟨hnodup, hseen⟩ := ih hrest
    rw [List.map_cons, List.nodup_cons, List.forall_mem_cons]
    refine ⟨⟨fun hmem => ?_, hnodup⟩, hfresh, fun other hother hmem => ?_⟩
    · obtain ⟨other, hother, heq⟩ := List.mem_map.1 hmem
      exact hseen other hother (heq ▸ List.mem_cons_self)
    · exact hseen other hother (List.mem_cons_of_mem _ hmem)

theorem validateDefinition_nodup {definition : TaskDefinition}
    (h : validateDefinition sha256 definition = .ok ()) : (definition.criteria.map (·.id)).Nodup := by
  simp only [validateDefinition, bind_eq_ok] at h
  obtain ⟨_, _, _, _, _, _, _, _, _, _, _, hcriteria, _⟩ := h
  exact (validateCriteria_nodup hcriteria).1

theorem criterion_unique {criteria : List CompletionCriterion} (h : (criteria.map (·.id)).Nodup)
    {a b : CompletionCriterion} (ha : a ∈ criteria) (hb : b ∈ criteria) (heq : a.id = b.id) : a = b :=
  List.inj_on_of_nodup_map h ha hb heq

theorem findGoal_eq_some {criteria : List CompletionCriterion} {id : String} {goal : GoalCriterion}
    (h : findGoal criteria id = some goal) : .goal goal ∈ criteria ∧ goal.id = id := by
  obtain ⟨criterion, hmem, hgoal⟩ := List.exists_of_findSome?_eq_some h
  cases criterion with
  | goal g =>
    dsimp only at hgoal
    split_ifs at hgoal with heq
    obtain rfl := Option.some.inj hgoal
    exact ⟨hmem, heq⟩
  | _ => simp at hgoal

variable {state : TaskSnapshot} {binding : AttemptBinding}

theorem validateEvidenceItem_eq_ok {seen : List String} {item : CompletionEvidence}
    (h : validateEvidenceItem state binding seen item = .ok ()) :
    Reportable state.definition.criteria binding item := by
  simp only [validateEvidenceItem, validateSource, bind_eq_ok, reject_eq_ok, expect_eq_ok, not_or,
    not_not] at h
  obtain ⟨_, hphysical, _, ⟨_, _, _, hsource⟩, _, _, criterion, hfind, _, hinvocation, hkind⟩ := h
  have hid := List.find?_some hfind
  rw [decide_eq_true_eq] at hid
  refine ⟨criterion, List.mem_of_find?_eq_some hfind, hid, hinvocation, hsource, fun goals => ?_⟩
  cases criterion with
  | goal goal => cases item <;> simp at hkind
  | executionCompleted id invocationId =>
    cases item with
    | executionResult id source resultDigest =>
      simp only [digest, reject_eq_ok, not_not] at hkind
      exact hkind
    | _ => simp at hkind
  | artifactDigest id invocationId expected =>
    cases item with
    | verifiedArtifact id source sha256 byteLen =>
      dsimp only at hkind
      split_ifs at hkind with heq
      exact heq
    | _ => simp at hkind

theorem validateEvidence_eq_ok {evidence : List CompletionEvidence}
    (h : validateEvidence state evidence binding = .ok ()) :
    ∀ item ∈ evidence, Reportable state.definition.criteria binding item := by
  have hitems : ∀ seen, validateEvidenceItems state binding seen evidence = .ok () →
      ∀ item ∈ evidence, Reportable state.definition.criteria binding item := by
    clear h
    induction evidence with
    | nil => simp
    | cons item evidence ih =>
      intro seen h
      simp only [validateEvidenceItems, bind_eq_ok] at h
      obtain ⟨_, hitem, hrest⟩ := h
      exact List.forall_mem_cons.2 ⟨validateEvidenceItem_eq_ok hitem, ih _ hrest⟩
  simp only [validateEvidence, bind_eq_ok] at h
  obtain ⟨_, _, h⟩ := h
  exact hitems [] h

end Checks

section Steps

variable {record : FactRecord} {state moved : TaskSnapshot} {event : TaskEvent}

/-- **Reported evidence was validated**: an attempt carried it before the event,
or the event is the completion that reports it. -/
theorem Effect.reported (h : Effect record state event moved) {id : String} {attempt' : AttemptSnapshot}
    (hattempt' : moved.attempts[id]? = some attempt') {evidence : List CompletionEvidence}
    (hevidence : attempt'.completedEvidence = some evidence) :
    ∃ attempt, state.attempts[id]? = some attempt ∧ attempt'.binding = attempt.binding ∧
      (attempt.completedEvidence = some evidence ∨
        validateEvidence state evidence attempt.binding = .ok ()) := by
  have hobservation := h.observation hattempt'
  cases hobserves : event.observes id with
  | none =>
    rw [hobserves, Option.none_or] at hobservation
    rcases h.attempt_origin hattempt' with ⟨attempt, hattempt, hkeeps⟩ | ⟨_, _, _, _, _, rfl⟩
    · rw [hattempt, Option.bind_some] at hobservation
      refine ⟨attempt, hattempt, hkeeps.binding, Or.inl ?_⟩
      rw [AttemptSnapshot.completedEvidence, ← hobservation]
      exact hevidence
    · simp [AttemptSnapshot.completedEvidence, AttemptSnapshot.started] at hevidence
  | some o =>
    cases h with
    | @observed observation attempt inv next usage total ok =>
      rw [TaskEvent.observes_attemptObserved] at hobserves
      split_ifs at hobserves with heq
      replace hattempt' : (state.attempts.insert _ _)[id]? = some attempt' := hattempt'
      rw [heq, getElem?_insert_self] at hattempt'
      obtain rfl := Option.some.inj hattempt'
      refine ⟨attempt, heq ▸ ok.lookup, rfl, Or.inr ?_⟩
      have hnext := ok.outcome
      cases hout : observation.outcome with
      | completed reported =>
        have hsame : some reported = some evidence := by
          rw [← hevidence]
          simp [AttemptSnapshot.completedEvidence, AttemptSnapshot.observed, hout]
        simp only [nextState, hout, bind_eq_ok] at hnext
        obtain ⟨_, hvalid, _⟩ := hnext
        exact Option.some.inj hsame ▸ hvalid
      | _ => simp [AttemptSnapshot.completedEvidence, AttemptSnapshot.observed, hout] at hevidence
    | _ => simp [TaskEvent.observes] at hobserves

theorem Recorded.step (hr : Recorded state) (h : Effect record state event moved) : Recorded moved := by
  have hold : ∀ saved ∈ state.goalAssessments, ∃ (goal : GoalCriterion) (id : String)
      (attempt : AttemptSnapshot), CompletionCriterion.goal goal ∈ moved.definition.criteria ∧
      goal.id = saved.assessment.criterionId ∧ moved.attempts[id]? = some attempt ∧
      attempt.binding.invocationId = goal.invocationId ∧
      saved.assessment.source.execution = attempt.binding.execution := by
    intro saved hsaved
    obtain ⟨goal, id, attempt, hgoal, hid, hattempt, hinvocation, hsource⟩ := hr.assessed saved hsaved
    obtain ⟨attempt', hattempt', hkeeps⟩ := h.keepsAttempt hattempt
    exact ⟨goal, id, attempt', h.definition ▸ hgoal, hid, hattempt', hkeeps.binding ▸ hinvocation,
      hkeeps.binding ▸ hsource⟩
  refine ⟨h.definition ▸ hr.distinct, fun id attempt' evidence hattempt' hevidence item hitem => ?_, ?_⟩
  · obtain ⟨attempt, hattempt, hbinding, hcase⟩ := h.reported hattempt' hevidence
    rw [h.definition, hbinding]
    rcases hcase with hbefore | hvalid
    · exact hr.reported id attempt evidence hattempt hbefore item hitem
    · exact validateEvidence_eq_ok hvalid item hitem
  · cases h with
    | @assessed assessment criterion attempt assessmentDigest a =>
      intro saved hsaved
      rcases List.mem_append.1 hsaved with hsaved | hsaved
      · exact hold saved hsaved
      · obtain rfl := List.mem_singleton.1 hsaved
        obtain ⟨hgoal, hid⟩ := findGoal_eq_some a.goal
        exact ⟨criterion, _, attempt, hgoal, hid, a.lookup, by rw [a.bound, a.invocation], a.source⟩
    | _ => exact hold

theorem Completable.success {evidence : List CompletionEvidence} (h : Completable state evidence)
    (hr : Recorded state) :
    Success { state with successEvidence := evidence, state := .completed } := by
  refine ⟨h.invocations, hr.distinct, ?_, fun item hitem criterion hcriterion hid => ?_⟩
  · have hsubset : state.definition.criteria.map (·.id) ⊆ evidence.map (·.criterionId) := by
      intro id hid
      obtain ⟨criterion, hcriterion, rfl⟩ := List.mem_map.1 hid
      obtain ⟨item, hitem, heq⟩ := h.criteria criterion hcriterion
      exact List.mem_map.2 ⟨item, hitem, heq⟩
    have hsub := List.subperm_of_subset hr.distinct hsubset
    refine (hsub.perm_of_length_le ?_).symm
    rw [List.length_map, List.length_map, h.length]
  · have hmem := h.available item hitem
    simp only [availableEvidence, List.mem_append, List.mem_flatMap, List.mem_map, List.mem_filter,
      decide_eq_true_eq] at hmem
    rcases hmem with ⟨attempt, hattempt, hitem'⟩ | ⟨saved, ⟨hsaved, hverdict⟩, rfl⟩
    · obtain ⟨id, hattempt⟩ := mem_values.1 hattempt
      cases hevidence : attempt.completedEvidence with
      | none => simp [hevidence] at hitem'
      | some reported =>
        rw [hevidence, Option.getD_some] at hitem'
        obtain ⟨other, hother, hname, hinvocation, hsource, hkind⟩ :=
          hr.reported id attempt reported hattempt hevidence item hitem'
        obtain rfl := criterion_unique hr.distinct hother hcriterion (hname.trans hid)
        exact ⟨hid, hkind _, id, attempt, hattempt, hinvocation.symm, hsource⟩
    · obtain ⟨goal, id, attempt, hgoal, hname, hattempt, hinvocation, hsource⟩ := hr.assessed saved hsaved
      obtain rfl := criterion_unique hr.distinct hgoal hcriterion (hname.trans hid)
      exact ⟨hid, ⟨saved, hsaved, hverdict, hname.symm, rfl, rfl, rfl⟩, id, attempt, hattempt, hinvocation,
        hsource⟩

/-- **Nothing is accepted after completion**: every attempt has stopped, and
only a cancelled task lets an attempt resume. -/
theorem Success.refuses (hs : Success state) (hcompleted : state.state = .completed) (ho : state.Owned)
    (hin : state.InStep) (h : Effect record state event moved) :
    ¬(detachedResume state event = true ∨ stoppedObservation event = true) := by
  have hstopped : ∀ {id : String} {attempt : AttemptSnapshot} {inv : InvocationSnapshot},
      state.attempts[id]? = some attempt →
      state.invocations[attempt.binding.invocationId]? = some inv → ¬attempt.state.IsLive := by
    intro id attempt inv hattempt hinv hlive
    have hend := hlive.not_terminal
    rw [(last_of_live ho hin hattempt hinv hlive).2, hs.invocations _ inv hinv] at hend
    simp [InvocationState.isTerminal] at hend
  cases h with
  | observed o => exact fun _ => hstopped o.lookup o.owner o.live
  | recovered lookup live owner => exact fun _ => hstopped lookup owner live
  | _ => simp [detachedResume, stoppedObservation, hcompleted]

theorem Effect.success (h : Effect record state event moved) (hr : Recorded state)
    (hbefore : state.state ≠ .completed) (hcompleted : moved.state = .completed) : Success moved := by
  cases h with
  | completed completable => exact completable.success hr
  | @observed observation attempt inv next usage total o =>
    replace hcompleted : (if overspent state.definition usage total && !state.state.isTerminal
      then TaskState.failed else state.state) = .completed := hcompleted
    split_ifs at hcompleted
    exact absurd hcompleted hbefore
  | cancelled => simp at hcompleted
  | failed => simp at hcompleted
  | _ => exact absurd hcompleted hbefore

end Steps

section Runs

variable {sha256 : Value → String} {history : List (TaskSnapshot × TaskEvent)} {state : TaskSnapshot}

theorem TaskRun.success (run : TaskRun sha256 history state) :
    Recorded state ∧ (state.state = .completed → Success state) := by
  have hall := run.invariant
    (I := fun state => (state.Owned ∧ state.InStep) ∧ Recorded state ∧
      (state.state = .completed → Success state))
    (fun definition position hvalid => ?_) (fun state event record moved h hopen heffect => ?_)
    fun _ _ h => ?_
  · exact hall.2
  · refine ⟨⟨owned_empty, inStep_empty⟩, ⟨validateDefinition_nodup hvalid, ?_, ?_⟩, by
      simp [TaskSnapshot.registered]⟩ <;> simp [TaskSnapshot.registered]
  · obtain ⟨⟨ho, hin⟩, hr, hs⟩ := h
    have hrecorded := hr.step heffect
    refine ⟨heffect.inStep ho hin, ⟨hrecorded.distinct, hrecorded.reported, hrecorded.assessed⟩,
      fun hcompleted => ?_⟩
    have hmoved : moved.state = .completed := (refresh_state_eq rfl).1 hcompleted
    by_cases hbefore : state.state = .completed
    · -- a completed task accepts nothing
      have hno := (hs hbefore).refuses hbefore ho hin heffect
      exact absurd (hopen (by rw [hbefore]; rfl)) hno
    · exact (heffect.success hr hbefore hmoved).congr rfl rfl rfl rfl rfl
  · obtain ⟨hin, hr, hs⟩ := h
    exact ⟨hin, ⟨hr.distinct, hr.reported, hr.assessed⟩, fun hcompleted =>
      (hs hcompleted).congr rfl rfl rfl rfl rfl⟩

/-- **Termination is final and success is proven.**  Whatever follows in a run
that ended, the task keeps its state, its invocations with their dependencies,
attempts and consumptions, and its goal assessments; an event after which an
attempt runs that did not run before is a resumption that a root-only
cancellation left open.  A completed task shows its success. -/
theorem TaskRun.termination_final (run : TaskRun sha256 history state) :
    (state.state.isTerminal = true → ∀ later, Later sha256 state later → Frozen state later ∧
      ∀ event record next, apply sha256 (some later) event record = .ok next →
        ∀ (id : String) (attempt' : AttemptSnapshot), next.attempts[id]? = some attempt' →
          attempt'.state = .running →
          (∃ attempt, later.attempts[id]? = some attempt ∧ attempt.state = .running) ∨
            DetachedResume later event id) ∧
    (state.state = .completed → Success state) := by
  refine ⟨fun hend later hlater => ?_, run.success.2⟩
  have hfrozen := hlater.frozen hend
  refine ⟨hfrozen, fun event record next h id attempt' hattempt' hrunning => ?_⟩
  obtain ⟨hopen, moved, heffect, rfl⟩ := apply_effect h
  have hstill : later.state.isTerminal = true := by rw [hfrozen.state, hend]
  exact heffect.runs (hopen hstill) hattempt' hrunning

def sampleResult : CompletionEvidence :=
  .executionResult "done" ⟨sampleBinding.execution, "stopped", 1⟩ sampleTask.constraintsDigest

/-- A completed sample task shows the evidence of its criterion. -/
theorem TaskRun.termination_final_completed : ∃ history state,
    TaskRun (fun _ => "") history state ∧ state.state = .completed ∧
      state.successEvidence = [sampleResult] ∧ Success state := by
  have h : (sampleEvents [.invocationAdmitted sampleRoot, .attemptStarted sampleBinding,
      .attemptObserved (sampleObservation sampleBinding 1 (.completed [sampleResult])),
      .completed [sampleResult]]).toOption.any (fun run =>
        decide (run.2.state = .completed) && decide (run.2.successEvidence = [sampleResult])) = true := by
    decide
  simp only [Option.any_eq_true, toOption_eq_some, Bool.and_eq_true, decide_eq_true_eq] at h
  obtain ⟨⟨history, state⟩, hrun, hcompleted, hevidence⟩ := h
  have run := sampleEvents_run hrun
  exact ⟨history, state, run, hcompleted, hevidence, (TaskRun.termination_final run).2 hcompleted⟩

end Runs

end Tasks
end Kolyan
