/-
# Goal ownership and the goal checks around a transition

`crates/kolyan-server/src/tasks/goals/transitions.rs`.  A goal is assessed once,
by the completed attempt of the root it is anchored at.  The verifier behind
the trait `TaskGoalVerifier` belongs to the host; here it is a record of
functions of the snapshot before the event and of the event.
-/

import Kolyan.Tasks.Validation

namespace Kolyan
namespace Tasks

open Checks Facts

/-- `TaskGoalVerifier`: the three checks that commands and replay call. -/
structure TaskGoalVerifier where
  validateCriterion : GoalCriterion → Except TaskError Unit
  verifyAssessment : TaskSnapshot → GoalAssessment → Except TaskError Unit
  verifyCompletion : TaskSnapshot → List CompletionEvidence → Except TaskError Unit

/-- `matches!(outcome, AttemptOutcome::Completed { .. })`. -/
def AttemptOutcome.isCompleted : AttemptOutcome → Bool
  | completed _ => true
  | _ => false

/-- The goal criterion with an id. -/
def findGoal (criteria : List CompletionCriterion) (criterionId : String) : Option GoalCriterion :=
  criteria.findSome? fun criterion =>
    match criterion with
    | .goal goal => if goal.id = criterionId then some goal else none
    | _ => none

section Digests

variable (sha256 : Value → String)

/-- `assessment_owner`: the criterion an assessment answers and the fact that
completed its root. -/
def assessmentOwner (snapshot : TaskSnapshot) (assessment : GoalAssessment) :
    Except TaskError (GoalCriterion × FactRef) := do
  let criterion ← expect (findGoal snapshot.definition.criteria assessment.criterionId)
    (.invalid "unknown goal criterion")
  criterion.validate sha256
  let invocation ← expect snapshot.invocations[criterion.invocationId]?
    (.invalid "missing goal root")
  let attempt ← expect snapshot.attempts[assessment.attempt.attemptId]?
    (.invalid "unknown goal attempt")
  let observation ← expect attempt.observation (.invalid "missing stopped goal observation")
  reject (invocation.definition.role ≠ .root ∨
      invocation.definition.parentInvocationId ≠ none ∨
      invocation.definition.agent ≠ snapshot.definition.agent ∨
      invocation.definition.constraintsDigest ≠ snapshot.definition.constraintsDigest ∨
      criterion.invocationId ≠ assessment.attempt.invocationId ∨
      invocation.attempts.getLast? ≠ some assessment.attempt.attemptId ∨
      attempt.binding ≠ assessment.attempt ∨
      attempt.binding.agent ≠ invocation.definition.agent ∨
      attempt.binding.constraintsDigest ≠ invocation.definition.constraintsDigest ∨
      attempt.binding.inputSource ≠ invocation.definition.inputSource ∨
      invocation.state ≠ .completed ∨
      attempt.state ≠ .completed ∨
      ¬observation.outcome.isCompleted ∨
      assessment.source ≠ observation.source ∨
      assessment.source.execution ≠ attempt.binding.execution ∨
      assessment.predicateDigest ≠ criterion.predicateDigest ∨
      assessment.checker ≠ criterion.checker)
    (.invalid "goal root/attempt/definition/stopped source differs")
  let stopped ← expect invocation.completionFact (.invalid "missing goal observation fact")
  reject (stopped.streamId ≠ snapshot.definition.taskId ∨ stopped.position = 0 ∨
      stopped.position > snapshot.position)
    (.invalid "goal observation coordinate is outside prefix")
  pure (criterion, stopped)

/-- `apply_assessment`. -/
def applyAssessment (snapshot : TaskSnapshot) (assessment : GoalAssessment) (record : FactRecord) :
    Except TaskError TaskSnapshot := do
  let _ ← assessmentOwner sha256 snapshot assessment
  reject (snapshot.goalAssessments.any fun saved =>
      saved.assessment.criterionId = assessment.criterionId)
    (.invalid "goal already assessed; new work requires an admitted correction edge")
  let assessmentDigest ← assessment.digest sha256
  pure { snapshot with
    goalAssessments := snapshot.goalAssessments ++ [⟨assessment, reference record, assessmentDigest⟩] }

/-- What one criterion waits for. -/
def goalWaiting (state : TaskSnapshot) : CompletionCriterion → Option WaitingReason
  | .goal goal =>
      if (state.invocations[goal.invocationId]?).any (·.state = .completed) then
        match state.goalAssessments.reverse.find? (·.assessment.criterionId = goal.id) with
        | none => some (.goalAssessment goal.id goal.invocationId)
        | some record =>
            if record.assessment.verdict ≠ .satisfied then
              some (.goalUnmet goal.id record.assessment.verdict record.assessment.reason)
            else none
      else none
  | _ => none

/-- `refresh_goals`. -/
def refreshGoals (state : TaskSnapshot) : TaskSnapshot :=
  { state with waiting := state.waiting ++ state.definition.criteria.filterMap (goalWaiting state) }

/-- `goal_causes`. -/
def goalCauses (snapshot : Option TaskSnapshot) : TaskEvent → Except TaskError (List FactRef)
  | .goalAssessed assessment => do
      let snapshot ← expect snapshot (.invalid "goal has no prefix")
      let owner ← assessmentOwner sha256 snapshot assessment
      pure [owner.2]
  | .completed evidence =>
      .ok (evidence.filterMap fun
        | .goalSatisfied _ _ assessment _ => some assessment
        | _ => none)
  | _ => .ok []

/-- The goals of a registration, each validated by the repository and the host. -/
def verifyRegistration (verifier : Option TaskGoalVerifier) :
    CompletionCriterion → Except TaskError Unit
  | .goal goal => do
      goal.validate sha256
      let verifier ← expect verifier (.invalid "goal verifier unavailable")
      verifier.validateCriterion goal
  | _ => .ok ()

/-- `verify_event`. -/
def verifyEvent (verifier : Option TaskGoalVerifier) (snapshot : Option TaskSnapshot)
    (event : TaskEvent) (record : FactRecord) : Except TaskError Unit :=
  match event, snapshot with
  | .registered definition, _ => forEach (verifyRegistration sha256 verifier) definition.criteria
  | _, none => .ok ()
  | event, some before =>
      if ¬before.definition.criteria.any (·.isGoal) then .ok ()
      else do
        let verifier ← expect verifier (.invalid "goal verifier unavailable on replay")
        let causes ← goalCauses sha256 (some before) event
        forEach (fun cause => reject (cause ∉ record.draft.causes)
          (.invalid "goal fact lacks exact source cause")) causes
        match event with
        | .goalAssessed assessment => verifier.verifyAssessment before assessment
        | .completed evidence => verifier.verifyCompletion before evidence
        | _ => .ok ()

end Digests

end Tasks
end Kolyan
