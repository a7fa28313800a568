/-
# The JSON of task events

What `serde_json::to_value` and `to_vec` write for the types derived in
`crates/kolyan-server/src/tasks`: structs in declaration order, externally
tagged enums, `None` as `null`.  Only the encoder is a definition here: the
digests, the size bounds and the payloads of the journal are computed from it.
The decoder is `serde`'s, a parameter of the coordinator.

`TaskEvent.toValue_injective` says that the payload of an event determines it,
so that a decoder that gives every event back exists.
-/

import Kolyan.Tasks.Types

namespace Kolyan

/-- `Option<T>`: `null` or the value. -/
def Value.option {α : Type} (f : α → Value) : Option α → Value
  | some a => f a
  | none => .null

/-- `Vec<T>`. -/
def Value.list {α : Type} (f : α → Value) (as : List α) : Value := .array (as.map f)

/-- `Vec<String>`. -/
def Value.strings (ss : List String) : Value := Value.list .string ss

namespace Facts

/-- `FactRef`. -/
def FactRef.toValue (r : FactRef) : Value :=
  .object [("stream_id", .string r.streamId), ("position", .nat r.position),
    ("fact_id", .string r.factId)]

/-- `FactSubject`. -/
def FactSubject.toValue (s : FactSubject) : Value :=
  .object [("kind", .string s.kind), ("id", .string s.id)]

/-- `FactDraft`. -/
def FactDraft.toValue (d : FactDraft) : Value :=
  .object [("fact_id", .string d.factId), ("subject", d.subject.toValue), ("kind", .string d.kind),
    ("schema_version", .nat d.schemaVersion), ("critical", .bool d.critical),
    ("causes", .list FactRef.toValue d.causes), ("payload", d.payload)]

/-- `FactRecord`. -/
def FactRecord.toValue (r : FactRecord) : Value :=
  .object [("stream_id", .string r.streamId), ("position", .nat r.position),
    ("draft", r.draft.toValue)]

end Facts

/-- `ExecutionRef`. -/
def ExecutionRef.toValue (e : ExecutionRef) : Value :=
  .object [("session_id", .string e.sessionId), ("turn_id", .string e.turnId),
    ("execution_id", .string e.executionId)]

namespace Tasks

open Facts

/-- `AgentIdentity`. -/
def AgentIdentity.toValue (a : AgentIdentity) : Value :=
  .object [("definition_id", .string a.definitionId), ("revision", .string a.revision),
    ("instance_id", .string a.instanceId)]

/-- `TaskLimits`. -/
def TaskLimits.toValue (l : TaskLimits) : Value :=
  .object [("max_depth", .nat l.maxDepth), ("max_invocations", .nat l.maxInvocations),
    ("max_attempts", .nat l.maxAttempts), ("max_tokens", .option .nat l.maxTokens),
    ("max_steps_per_turn", .nat l.maxStepsPerTurn)]

/-- `GoalCheckerKey`. -/
def GoalCheckerKey.toValue (k : GoalCheckerKey) : Value :=
  .object [("kind", .string k.kind), ("revision", .string k.revision)]

/-- `GoalCriterion`. -/
def GoalCriterion.toValue (g : GoalCriterion) : Value :=
  .object [("id", .string g.id), ("invocation_id", .string g.invocationId),
    ("checker", g.checker.toValue), ("predicate", g.predicate),
    ("predicate_digest", .string g.predicateDigest)]

/-- `GoalVerdict`. -/
def GoalVerdict.toValue : GoalVerdict → Value
  | satisfied => .string "Satisfied"
  | unsatisfied => .string "Unsatisfied"
  | indeterminate => .string "Indeterminate"
  | checkerFailed => .string "CheckerFailed"

/-- `CompletionCriterion`. -/
def CompletionCriterion.toValue : CompletionCriterion → Value
  | goal g => .object [("Goal", g.toValue)]
  | executionCompleted id invocationId =>
      .object [("ExecutionCompleted",
        .object [("id", .string id), ("invocation_id", .string invocationId)])]
  | artifactDigest id invocationId sha256 =>
      .object [("ArtifactDigest",
        .object [("id", .string id), ("invocation_id", .string invocationId),
          ("sha256", .string sha256)])]

/-- `CancellationPolicy`. -/
def CancellationPolicy.toValue : CancellationPolicy → Value
  | allInvocations => .string "AllInvocations"
  | rootOnly => .string "RootOnly"

/-- `TaskDefinition`. -/
def TaskDefinition.toValue (d : TaskDefinition) : Value :=
  .object [("task_id", .string d.taskId), ("objective", .string d.objective),
    ("criteria", .list CompletionCriterion.toValue d.criteria), ("agent", d.agent.toValue),
    ("constraints_digest", .string d.constraintsDigest), ("limits", d.limits.toValue),
    ("cancellation_policy", d.cancellationPolicy.toValue)]

/-- `InvocationRole`. -/
def InvocationRole.toValue : InvocationRole → Value
  | root => .string "Root"
  | selfCall => .string "SelfCall"
  | delegation => .string "Delegation"
  | continuation => .string "Continuation"

/-- `InvocationInputKind`. -/
def InvocationInputKind.toValue : InvocationInputKind → Value
  | standalone => .string "Standalone"
  | derived => .string "Derived"

/-- `InvocationInputSource`. -/
def InvocationInputSource.toValue : InvocationInputSource → Value
  | standalone f => .object [("Standalone", .object [("fact", f.toValue)])]
  | derived f => .object [("Derived", .object [("fact", f.toValue)])]

/-- `InvocationDefinition`. -/
def InvocationDefinition.toValue (d : InvocationDefinition) : Value :=
  .object [("invocation_id", .string d.invocationId), ("agent", d.agent.toValue),
    ("constraints_digest", .string d.constraintsDigest), ("role", d.role.toValue),
    ("parent_invocation_id", .option .string d.parentInvocationId),
    ("dependencies", .strings d.dependencies), ("input_source", d.inputSource.toValue)]

/-- `AttemptBinding`. -/
def AttemptBinding.toValue (b : AttemptBinding) : Value :=
  .object [("attempt_id", .string b.attemptId), ("invocation_id", .string b.invocationId),
    ("execution", b.execution.toValue), ("agent", b.agent.toValue),
    ("constraints_digest", .string b.constraintsDigest), ("input_source", b.inputSource.toValue)]

/-- `TaskUsage`. -/
def TaskUsage.toValue (u : TaskUsage) : Value :=
  .object [("input_tokens", .nat u.inputTokens), ("output_tokens", .nat u.outputTokens),
    ("unreported_steps", .nat u.unreportedSteps)]

/-- `ExecutionEvidence`. -/
def ExecutionEvidence.toValue (e : ExecutionEvidence) : Value :=
  .object [("execution", e.execution.toValue), ("event_id", .string e.eventId),
    ("cursor", .nat e.cursor)]

/-- `CompletionEvidence`. -/
def CompletionEvidence.toValue : CompletionEvidence → Value
  | goalSatisfied criterionId source assessment assessmentDigest =>
      .object [("GoalSatisfied",
        .object [("criterion_id", .string criterionId), ("source", source.toValue),
          ("assessment", assessment.toValue), ("assessment_digest", .string assessmentDigest)])]
  | executionResult criterionId source resultDigest =>
      .object [("ExecutionResult",
        .object [("criterion_id", .string criterionId), ("source", source.toValue),
          ("result_digest", .string resultDigest)])]
  | verifiedArtifact criterionId source sha256 byteLen =>
      .object [("VerifiedArtifact",
        .object [("criterion_id", .string criterionId), ("source", source.toValue),
          ("sha256", .string sha256), ("byte_len", .nat byteLen)])]

/-- `TaskSuspension`. -/
def TaskSuspension.toValue (s : TaskSuspension) : Value :=
  .object [("checkpoint_id", .string s.checkpointId), ("approval_ids", .strings s.approvalIds),
    ("external_wait_ids", .strings s.externalWaitIds)]

/-- `AttemptOutcome`. -/
def AttemptOutcome.toValue : AttemptOutcome → Value
  | suspended waiting => .object [("Suspended", .object [("waiting", waiting.toValue)])]
  | completed evidence =>
      .object [("Completed", .object [("evidence", .list CompletionEvidence.toValue evidence)])]
  | failed reason safeToRetry =>
      .object [("Failed",
        .object [("reason", .string reason), ("safe_to_retry", .bool safeToRetry)])]
  | cancelled reason => .object [("Cancelled", .object [("reason", .string reason)])]
  | recoveryRequired reason =>
      .object [("RecoveryRequired", .object [("reason", .string reason)])]

/-- `AttemptObservation`. -/
def AttemptObservation.toValue (o : AttemptObservation) : Value :=
  .object [("attempt_id", .string o.attemptId), ("execution", o.execution.toValue),
    ("source", o.source.toValue), ("usage", o.usage.toValue), ("outcome", o.outcome.toValue)]

/-- `ConsumedResult`. -/
def ConsumedResult.toValue (r : ConsumedResult) : Value :=
  .object [("child_invocation_id", .string r.childInvocationId),
    ("completion_fact", r.completionFact.toValue),
    ("evidence", .list CompletionEvidence.toValue r.evidence)]

/-- `TerminalResultDisposition`, tagged by `status`. -/
def TerminalResultDisposition.toValue : TerminalResultDisposition → Value
  | completed evidence =>
      .object [("status", .string "completed"),
        ("evidence", .list CompletionEvidence.toValue evidence)]
  | failed reason => .object [("status", .string "failed"), ("reason", .string reason)]
  | cancelled reason => .object [("status", .string "cancelled"), ("reason", .string reason)]

/-- `ConsumedTerminalResult`. -/
def ConsumedTerminalResult.toValue (r : ConsumedTerminalResult) : Value :=
  .object [("parent", r.parent.toValue), ("child", r.child.toValue),
    ("terminal_fact", r.terminalFact.toValue), ("source", r.source.toValue),
    ("disposition", r.disposition.toValue)]

/-- `GoalAssessment`. -/
def GoalAssessment.toValue (a : GoalAssessment) : Value :=
  .object [("criterion_id", .string a.criterionId), ("predicate_digest", .string a.predicateDigest),
    ("checker", a.checker.toValue), ("attempt", a.attempt.toValue), ("source", a.source.toValue),
    ("verdict", a.verdict.toValue), ("reason", .string a.reason), ("proof", a.proof)]

/-- `TaskExecutionBudgetPolicy`. -/
def TaskExecutionBudgetPolicy.toValue (p : TaskExecutionBudgetPolicy) : Value :=
  .object [("id", .string p.id), ("revision", .string p.revision),
    ("max_reserved_steps", .nat p.maxReservedSteps), ("deadline_at_ms", .nat p.deadlineAtMs)]

/-- `TaskEvent`: the payload of a task fact. -/
def TaskEvent.toValue : TaskEvent → Value
  | executionBudgetConfigured policy => .object [("ExecutionBudgetConfigured", policy.toValue)]
  | budgetedAttemptStarted binding maxSteps =>
      .object [("BudgetedAttemptStarted",
        .object [("binding", binding.toValue), ("max_steps", .nat maxSteps)])]
  | goalAssessed assessment => .object [("GoalAssessed", assessment.toValue)]
  | registered definition => .object [("Registered", definition.toValue)]
  | invocationAdmitted definition => .object [("InvocationAdmitted", definition.toValue)]
  | dependencyAdmitted invocationId dependencyId =>
      .object [("DependencyAdmitted",
        .object [("invocation_id", .string invocationId), ("dependency_id", .string dependencyId)])]
  | attemptStarted binding => .object [("AttemptStarted", binding.toValue)]
  | attemptObserved observation => .object [("AttemptObserved", observation.toValue)]
  | attemptResumed binding checkpointId =>
      .object [("AttemptResumed",
        .object [("binding", binding.toValue), ("checkpoint_id", .string checkpointId)])]
  | recoveryNeeded attemptId reason =>
      .object [("RecoveryNeeded",
        .object [("attempt_id", .string attemptId), ("reason", .string reason)])]
  | retryAuthorized attemptId source reason =>
      .object [("RetryAuthorized",
        .object [("attempt_id", .string attemptId), ("source", source.toValue),
          ("reason", .string reason)])]
  | resultConsumed invocationId result =>
      .object [("ResultConsumed",
        .object [("invocation_id", .string invocationId), ("result", result.toValue)])]
  | terminalResultConsumed invocationId result =>
      .object [("TerminalResultConsumed",
        .object [("invocation_id", .string invocationId), ("result", result.toValue)])]
  | completed evidence =>
      .object [("Completed", .object [("evidence", .list CompletionEvidence.toValue evidence)])]
  | cancelled reason => .object [("Cancelled", .object [("reason", .string reason)])]
  | failed reason => .object [("Failed", .object [("reason", .string reason)])]

end Tasks

/-! ### The payload determines the event -/

theorem Value.nat_inj {m n : ℕ} : Value.nat m = Value.nat n ↔ m = n := by
  simp only [Value.nat, Value.number.injEq]
  exact ⟨fun h => Nat.repr_inj.1 h, fun h => h ▸ rfl⟩

theorem Value.list_inj {α : Type} {f : α → Value} (hf : ∀ a b, f a = f b ↔ a = b) {xs ys : List α} :
    Value.list f xs = Value.list f ys ↔ xs = ys := by
  simp only [Value.list, Value.array.injEq]
  exact List.map_inj_right fun a b h => (hf a b).1 h

theorem Value.strings_inj {xs ys : List String} : Value.strings xs = Value.strings ys ↔ xs = ys :=
  Value.list_inj fun a b => by simp

theorem Value.option_inj {α : Type} {f : α → Value} (hf : ∀ a b, f a = f b ↔ a = b)
    (hnull : ∀ a, f a ≠ .null) {x y : Option α} : Value.option f x = Value.option f y ↔ x = y := by
  cases x with
  | none => cases y with
    | none => simp
    | some b => simpa [Value.option] using (hnull b).symm
  | some a => cases y with
    | none => simpa [Value.option] using hnull a
    | some b => simp [Value.option, hf]

namespace Tasks

open Facts

theorem FactRef.toValue_inj {a b : FactRef} : a.toValue = b.toValue ↔ a = b := by
  cases a; cases b; simp [FactRef.toValue, Value.nat_inj]

theorem ExecutionRef.toValue_inj {a b : ExecutionRef} : a.toValue = b.toValue ↔ a = b := by
  cases a; cases b; simp [ExecutionRef.toValue]

theorem AgentIdentity.toValue_inj {a b : AgentIdentity} : a.toValue = b.toValue ↔ a = b := by
  cases a; cases b; simp [AgentIdentity.toValue]

theorem TaskLimits.toValue_inj {a b : TaskLimits} : a.toValue = b.toValue ↔ a = b := by
  have hnat : ∀ m n, Value.nat m = Value.nat n ↔ m = n := fun m n => Value.nat_inj
  cases a; cases b
  simp [TaskLimits.toValue, hnat, Value.option_inj hnat (fun m => by simp [Value.nat])]

theorem GoalCriterion.toValue_inj {a b : GoalCriterion} : a.toValue = b.toValue ↔ a = b := by
  obtain ⟨_, _, ⟨_, _⟩, _, _⟩ := a
  obtain ⟨_, _, ⟨_, _⟩, _, _⟩ := b
  simp [GoalCriterion.toValue, GoalCheckerKey.toValue]

theorem CompletionCriterion.toValue_inj {a b : CompletionCriterion} :
    a.toValue = b.toValue ↔ a = b := by
  cases a <;> cases b <;> simp [CompletionCriterion.toValue, GoalCriterion.toValue_inj]

theorem TaskDefinition.toValue_inj {a b : TaskDefinition} : a.toValue = b.toValue ↔ a = b := by
  have hpolicy : ∀ p q : CancellationPolicy, p.toValue = q.toValue ↔ p = q := by
    intro p q; cases p <;> cases q <;> simp [CancellationPolicy.toValue]
  cases a; cases b
  simp [TaskDefinition.toValue, AgentIdentity.toValue_inj, TaskLimits.toValue_inj, hpolicy,
    Value.list_inj fun _ _ => CompletionCriterion.toValue_inj]

theorem InvocationInputSource.toValue_inj {a b : InvocationInputSource} :
    a.toValue = b.toValue ↔ a = b := by
  cases a <;> cases b <;> simp [InvocationInputSource.toValue, FactRef.toValue_inj]

theorem InvocationDefinition.toValue_inj {a b : InvocationDefinition} :
    a.toValue = b.toValue ↔ a = b := by
  have hrole : ∀ p q : InvocationRole, p.toValue = q.toValue ↔ p = q := by
    intro p q; cases p <;> cases q <;> simp [InvocationRole.toValue]
  cases a; cases b
  simp [InvocationDefinition.toValue, AgentIdentity.toValue_inj, hrole, Value.strings_inj,
    InvocationInputSource.toValue_inj, Value.option_inj (f := Value.string) (fun _ _ => by simp)]

theorem AttemptBinding.toValue_inj {a b : AttemptBinding} : a.toValue = b.toValue ↔ a = b := by
  cases a; cases b
  simp [AttemptBinding.toValue, ExecutionRef.toValue_inj, AgentIdentity.toValue_inj,
    InvocationInputSource.toValue_inj]

theorem ExecutionEvidence.toValue_inj {a b : ExecutionEvidence} :
    a.toValue = b.toValue ↔ a = b := by
  cases a; cases b; simp [ExecutionEvidence.toValue, ExecutionRef.toValue_inj, Value.nat_inj]

theorem CompletionEvidence.toValue_inj {a b : CompletionEvidence} :
    a.toValue = b.toValue ↔ a = b := by
  cases a <;> cases b <;>
    simp [CompletionEvidence.toValue, ExecutionEvidence.toValue_inj, FactRef.toValue_inj,
      Value.nat_inj]

theorem TaskSuspension.toValue_inj {a b : TaskSuspension} : a.toValue = b.toValue ↔ a = b := by
  cases a; cases b; simp [TaskSuspension.toValue, Value.strings_inj]

theorem AttemptOutcome.toValue_inj {a b : AttemptOutcome} : a.toValue = b.toValue ↔ a = b := by
  cases a <;> cases b <;>
    simp [AttemptOutcome.toValue, TaskSuspension.toValue_inj,
      Value.list_inj fun _ _ => CompletionEvidence.toValue_inj]

theorem AttemptObservation.toValue_inj {a b : AttemptObservation} :
    a.toValue = b.toValue ↔ a = b := by
  obtain ⟨_, _, _, ⟨_, _, _⟩, _⟩ := a
  obtain ⟨_, _, _, ⟨_, _, _⟩, _⟩ := b
  simp [AttemptObservation.toValue, TaskUsage.toValue, ExecutionRef.toValue_inj,
    ExecutionEvidence.toValue_inj, AttemptOutcome.toValue_inj, Value.nat_inj]

theorem ConsumedResult.toValue_inj {a b : ConsumedResult} : a.toValue = b.toValue ↔ a = b := by
  cases a; cases b
  simp [ConsumedResult.toValue, FactRef.toValue_inj,
    Value.list_inj fun _ _ => CompletionEvidence.toValue_inj]

theorem ConsumedTerminalResult.toValue_inj {a b : ConsumedTerminalResult} :
    a.toValue = b.toValue ↔ a = b := by
  have hdisposition : ∀ p q : TerminalResultDisposition, p.toValue = q.toValue ↔ p = q := by
    intro p q
    cases p <;> cases q <;>
      simp [TerminalResultDisposition.toValue, Value.list_inj fun _ _ =>
        CompletionEvidence.toValue_inj]
  cases a; cases b
  simp [ConsumedTerminalResult.toValue, AttemptBinding.toValue_inj, FactRef.toValue_inj,
    ExecutionEvidence.toValue_inj, hdisposition]

theorem GoalAssessment.toValue_inj {a b : GoalAssessment} : a.toValue = b.toValue ↔ a = b := by
  have hverdict : ∀ p q : GoalVerdict, p.toValue = q.toValue ↔ p = q := by
    intro p q; cases p <;> cases q <;> simp [GoalVerdict.toValue]
  obtain ⟨_, _, ⟨_, _⟩, _, _, _, _, _⟩ := a
  obtain ⟨_, _, ⟨_, _⟩, _, _, _, _, _⟩ := b
  simp [GoalAssessment.toValue, GoalCheckerKey.toValue, AttemptBinding.toValue_inj,
    ExecutionEvidence.toValue_inj, hverdict]

theorem TaskExecutionBudgetPolicy.toValue_inj {a b : TaskExecutionBudgetPolicy} :
    a.toValue = b.toValue ↔ a = b := by
  cases a; cases b; simp [TaskExecutionBudgetPolicy.toValue, Value.nat_inj]

/-- **The payload of a task fact determines the event**, so a decoder that
gives every encoded event back exists. -/
theorem TaskEvent.toValue_injective : Function.Injective TaskEvent.toValue := by
  intro a b h
  cases a <;> cases b <;>
    simp_all [TaskEvent.toValue, TaskExecutionBudgetPolicy.toValue_inj, AttemptBinding.toValue_inj,
      GoalAssessment.toValue_inj, TaskDefinition.toValue_inj, InvocationDefinition.toValue_inj,
      AttemptObservation.toValue_inj, ExecutionEvidence.toValue_inj, ConsumedResult.toValue_inj,
      ConsumedTerminalResult.toValue_inj, Value.nat_inj,
      Value.list_inj fun _ _ => CompletionEvidence.toValue_inj]

end Tasks
end Kolyan
