/-
# Topology transitions

`crates/kolyan-server/src/tasks/reducer/topology.rs`: admission of an
invocation, result dependencies, and the consumption of results.  A transition
takes the snapshot and returns the next one; where the source unwraps a lookup
that an invariant of the snapshot protects, the model answers `panicked`.
-/

import Kolyan.Tasks.Goals
import Kolyan.Lib.Search

namespace Kolyan
namespace Tasks

open Checks Facts

/-- The role and input source an invocation may combine. -/
def sourceMatchesRole : InvocationRole → InvocationInputSource → Bool
  | .root, .standalone _ => true
  | .selfCall, .derived _ | .delegation, .derived _ | .continuation, .derived _ => true
  | _, _ => false

/-- `Completed | Cancelled | Failed`. -/
def InvocationState.isTerminal : InvocationState → Bool
  | completed | cancelled | failed => true
  | _ => false

/-- The role check of `admit` for a root. -/
def checkRoot (state : TaskSnapshot) (definition : InvocationDefinition) : Except TaskError Unit := do
  reject (state.definition.criteria.any fun criterion =>
      match criterion with
      | .goal goal => goal.invocationId ≠ definition.invocationId
      | _ => false)
    (.invalid "Goal anchor must be the unique actual root invocation")
  reject (definition.parentInvocationId.isSome ∨
      (state.invocations.values.any fun inv => inv.definition.role = .root) ∨
      definition.agent ≠ state.definition.agent ∨
      definition.constraintsDigest ≠ state.definition.constraintsDigest)
    (.invalid "root identity/constraints mismatch or duplicate root")

/-- The ancestor loop of `admit`: one more for every call edge above
`invocation`, itself included.  The fuel bounds the length of the chain. -/
def ancestorDepth (invocations : BTreeMap InvocationSnapshot) :
    ℕ → Option InvocationSnapshot → ℕ → Option ℕ
  | _, none, depth => some depth
  | 0, some _, _ => none
  | fuel + 1, some invocation, depth =>
      let depth :=
        if invocation.definition.parentInvocationId.isSome ∧ invocation.definition.role ≠ .continuation
        then depth + 1 else depth
      ancestorDepth invocations fuel
        (invocation.definition.parentInvocationId.bind fun id => invocations[id]?) depth

/-- What the state of the parent allows. -/
def checkOwner (definition : InvocationDefinition) (parent : String) (owner : InvocationSnapshot) :
    Except TaskError Unit :=
  if definition.role = .continuation then
    reject (owner.state ≠ .completed ∨ parent ∉ definition.dependencies)
      (.transition
        "continuation requires a completed predecessor and explicit result dependency")
  else
    reject owner.state.isTerminal (.transition "parent is terminal")

/-- The role check of `admit` for every other role. -/
def checkChild (state : TaskSnapshot) (definition : InvocationDefinition) :
    Except TaskError Unit := do
  let parent ← expect definition.parentInvocationId (.invalid "non-root requires explicit parent")
  let owner ← expect state.invocations[parent]? (.invalid "unknown parent")
  checkOwner definition parent owner
  reject (definition.role = .selfCall ∧
      definition.agent.definitionId ≠ owner.definition.agent.definitionId)
    (.invalid "self-call must use the same agent definition")
  let depth ← expect (ancestorDepth state.invocations (state.invocations.size + 1) (some owner)
    (if definition.role ≠ .continuation then 1 else 0)) .panicked
  reject (depth > state.definition.limits.maxDepth) (.transition "recursion budget exhausted")

/-- The dependencies of an admission: admitted already, each named once. -/
def checkDependencies (invocations : BTreeMap InvocationSnapshot) (seen : List String) :
    List String → Except TaskError Unit
  | [] => .ok ()
  | id :: rest => do
      reject (id ∉ invocations ∨ id ∈ seen) (.invalid "missing or duplicate dependency")
      checkDependencies invocations (id :: seen) rest

/-- A newly admitted invocation. -/
def InvocationSnapshot.admitted (definition : InvocationDefinition) : InvocationSnapshot where
  definition := definition
  state := .admitted
  attempts := []
  consumedResults := ∅
  terminalConsumedResults := ∅
  terminalFact := none
  completionFact := none
  cancellationRequested := false

/-- The role checks of `admit`. -/
def checkRole (state : TaskSnapshot) (definition : InvocationDefinition) : Except TaskError Unit :=
  if definition.role = .root then checkRoot state definition else checkChild state definition

/-- `admit`. -/
def admitInvocation (state : TaskSnapshot) (definition : InvocationDefinition) :
    Except TaskError TaskSnapshot := do
  availableId state definition.invocationId
  agent definition.agent
  digest definition.constraintsDigest
  reject (¬sourceMatchesRole definition.role definition.inputSource)
    (.invalid "invocation role and required input source differ")
  reject (state.invocations.size ≥ state.definition.limits.maxInvocations)
    (.transition "shared invocation budget exhausted")
  checkRole state definition
  checkDependencies state.invocations [] definition.dependencies
  pure { state with
    invocations := state.invocations.insert definition.invocationId (.admitted definition) }

/-- The dependencies of an invocation, none of an unknown one. -/
def dependenciesOf (invocations : BTreeMap InvocationSnapshot) (id : String) : List String :=
  (invocations[id]?).elim [] (·.definition.dependencies)

/-- `reaches`, from an empty visited set.  A search visits each invocation
once, and a dependency that is not an invocation has no successors. -/
def reaches (invocations : BTreeMap InvocationSnapshot) (start target : String) : Bool :=
  (Search.search (dependenciesOf invocations) target (invocations.size + 2) start []).1

/-- `add_dependency`. -/
def addDependency (state : TaskSnapshot) (invocation dependency : String) :
    Except TaskError TaskSnapshot := do
  let owner ← expect state.invocations[invocation]? (.invalid "unknown invocation")
  reject (¬(owner.state = .admitted ∨ owner.state = .running ∨ owner.state = .suspended) ∨
      dependency ∉ state.invocations ∨
      dependency ∈ owner.definition.dependencies ∨
      reaches state.invocations dependency invocation)
    (.transition "invalid dependency or cyclic result topology")
  let definition :=
    { owner.definition with dependencies := owner.definition.dependencies ++ [dependency] }
  pure { state with
    invocations := state.invocations.insert invocation { owner with definition := definition } }

/-- An invocation whose result its parent has to consume. -/
def isChildOf (invocation : String) (inv : InvocationSnapshot) : Bool :=
  inv.definition.parentInvocationId = some invocation && inv.definition.role ≠ .continuation

/-- `required_results`: dependencies and children, in key order. -/
def requiredResults (invocations : BTreeMap InvocationSnapshot) (invocation : String) :
    Std.ExtTreeSet String :=
  (Std.ExtTreeSet.ofList (dependenciesOf invocations invocation)).insertMany
    ((invocations.toList.filter fun entry => isChildOf invocation entry.2).map (·.1))

/-- `has_consumed`. -/
def hasConsumed (inv : InvocationSnapshot) (child : String) : Bool :=
  inv.consumedResults.contains child || inv.terminalConsumedResults.contains child

/-- The evidence of a completed observation. -/
def AttemptSnapshot.completedEvidence (attempt : AttemptSnapshot) :
    Option (List CompletionEvidence) :=
  attempt.observation.bind fun observation =>
    match observation.outcome with
    | .completed evidence => some evidence
    | _ => none

/-- The evidence of the last attempt of a child, which must have completed. -/
def childEvidence (state : TaskSnapshot) (child : InvocationSnapshot) :
    Except TaskError (List CompletionEvidence) :=
  match child.attempts.getLast? with
  | none => .error (.transition "child has no completed attempt")
  | some id => do
      let attempt ← expect state.attempts[id]? .panicked
      expect attempt.completedEvidence (.transition "child has no completed attempt")

/-- `consume`. -/
def consume (state : TaskSnapshot) (invocation : String) (result : ConsumedResult)
    (record : FactRecord) : Except TaskError TaskSnapshot := do
  let inv ← expect state.invocations[invocation]? (.invalid "unknown result consumer")
  reject (inv.state.isTerminal ∨
      result.childInvocationId ∉ requiredResults state.invocations invocation ∨
      hasConsumed inv result.childInvocationId)
    (.transition "not an admitted result edge or result already consumed")
  let child ← expect state.invocations[result.childInvocationId]? (.invalid "unknown child")
  let evidence ← childEvidence state child
  reject (child.completionFact ≠ some result.completionFact ∨
      result.evidence ≠ evidence ∨ result.completionFact ∉ record.draft.causes)
    (.invalid "result must reference exact child completion and evidence")
  pure { state with
    invocations := state.invocations.insert invocation
      { inv with consumedResults := inv.consumedResults.insert result.childInvocationId result } }

/-- The disposition an outcome lets a parent consume. -/
def AttemptOutcome.disposition : AttemptOutcome → Option TerminalResultDisposition
  | completed evidence => some (.completed evidence)
  | failed reason _ => some (.failed reason)
  | cancelled reason => some (.cancelled reason)
  | _ => none

/-- `consume_terminal`. -/
def consumeTerminal (state : TaskSnapshot) (invocation : String) (result : ConsumedTerminalResult)
    (record : FactRecord) : Except TaskError TaskSnapshot := do
  let owner ← expect state.invocations[invocation]? (.invalid "unknown consumer")
  let childId := result.child.invocationId
  reject (owner.cancellationRequested ∨
      result.parent.invocationId ≠ invocation ∨
      owner.attempts.getLast? ≠ some result.parent.attemptId ∨
      ((state.attempts[result.parent.attemptId]?).all fun attempt =>
        attempt.binding ≠ result.parent || attempt.cancellationRequested) ∨
      owner.state.isTerminal ∨
      hasConsumed owner childId ∨
      childId ∉ requiredResults state.invocations invocation)
    (.transition "terminal result edge is unavailable")
  let child ← expect state.invocations[childId]? (.invalid "unknown child")
  let attempt ← expect state.attempts[result.child.attemptId]? (.invalid "unknown child attempt")
  let observation ← expect attempt.observation (.invalid "missing terminal observation")
  let disposition ← expect observation.outcome.disposition (.transition "child is not terminal")
  reject (attempt.binding ≠ result.child ∨
      child.attempts.getLast? ≠ some result.child.attemptId ∨
      child.terminalFact ≠ some result.terminalFact ∨
      observation.source ≠ result.source ∨
      disposition ≠ result.disposition ∨
      result.terminalFact ∉ record.draft.causes)
    (.invalid "terminal disposition differs from exact child proof")
  pure { state with
    invocations := state.invocations.insert invocation
      { owner with terminalConsumedResults := owner.terminalConsumedResults.insert childId result } }

end Tasks
end Kolyan
