/-
# Selecting the history of a request

`crates/kolyan-agent/src/context/projection.rs` and `context/selection.rs`, and
`validate_selection` of `crates/kolyan-server/src/preparation.rs`.  A plan keeps ranges
of whole messages.  `selectionCandidates` proposes plans: it closes the messages into
groups over the pairs of calls and results and drops the oldest groups that are
neither the objective nor the current input.  `projectContext` admits a plan, and the
server admits the request that comes out of it.
-/

import Kolyan.Requests.Context

namespace Kolyan
namespace Requests

open Checks Ranges

section Pairs

variable {σ : Type}

/-- One block in `visit_original_pairs`. -/
def visitBlock (visit : σ → ℕ → ℕ → Except ContextError σ) (index : ℕ)
    (state : Std.ExtTreeMap String ℕ × σ) : ContentBlock → Except ContextError (Std.ExtTreeMap String ℕ × σ)
  | .toolCall call => .ok (state.1.insert call.id index, state.2)
  | .toolResult result => do
    let callIndex ← expect state.1[result.callId]? (.invalid "source tool result has no call")
    let visited ← visit state.2 callIndex index
    return (state.1.erase result.callId, visited)
  | .text _ | .image _ | .document _ _ | .reasoning _ _ => .ok state

/-- The blocks of a message. -/
def visitBlocks (visit : σ → ℕ → ℕ → Except ContextError σ) (index : ℕ)
    (state : Std.ExtTreeMap String ℕ × σ) : List ContentBlock → Except ContextError (Std.ExtTreeMap String ℕ × σ)
  | [] => .ok state
  | block :: blocks => do
    let state ← visitBlock visit index state block
    visitBlocks visit index state blocks

/-- The messages from an index on. -/
def visitMessages (visit : σ → ℕ → ℕ → Except ContextError σ) (index : ℕ)
    (state : Std.ExtTreeMap String ℕ × σ) : List Message → Except ContextError (Std.ExtTreeMap String ℕ × σ)
  | [] => .ok state
  | message :: messages => do
    let state ← visitBlocks visit index state message.content
    visitMessages visit (index + 1) state messages

/-- `visit_original_pairs`: the closure's state goes through. -/
def visitOriginalPairs (source : ModelRequest) (visit : σ → ℕ → ℕ → Except ContextError σ) (start : σ) :
    Except ContextError σ := do
  let state ← visitMessages visit 0 (∅, start) source.messages
  return state.2

end Pairs

section Projection

/-- `ContextProjectionPlan`. -/
structure ContextProjectionPlan where
  policyId : String
  policyRevision : String
  expectedSourceDigest : String
  retainedMessages : List RetainedMessageRange
  deriving DecidableEq

/-- `ContextProjectionPlan`, encoded. -/
def ContextProjectionPlan.toValue (p : ContextProjectionPlan) : Value :=
  .object [("policy_id", .string p.policyId), ("policy_revision", .string p.policyRevision),
    ("expected_source_digest", .string p.expectedSourceDigest),
    ("retained_messages", .list rangeValue p.retainedMessages)]

/-- `ProjectionProvenance`. -/
structure ProjectionProvenance where
  sourceDigest : String
  selectedDigest : String
  policyDigest : String
  policyId : String
  policyRevision : String
  sourceSerializedBytes : ℕ
  selectedSerializedBytes : ℕ
  retainedMessages : List RetainedMessageRange
  omittedMessages : List RetainedMessageRange

/-- `ProjectedContext`. -/
structure ProjectedContext where
  prepared : PreparedContext
  provenance : ProjectionProvenance

/-- `source_bytes`. -/
def sourceBytes (source : ModelRequest) (bounds : ContextPolicy) : Except ContextError Value := do
  bounds.check
  let bytes ← serialize source bounds.maxSerializedBytes
  checkMessages source bounds
  return bytes

/-- `context_source_digest`. -/
def contextSourceDigest (digests : Digests) (source : ModelRequest) (bounds : ContextPolicy) :
    Except ContextError String := do
  let bytes ← sourceBytes source bounds
  return digests.bytesDigest bytes

/-- A block that is no result of a tool. -/
def ContentBlock.isInput : ContentBlock → Bool
  | .toolResult _ => false
  | _ => true

/-- A message with input of the user. -/
def isAnchor (message : Message) : Bool := message.role = .user && message.content.any ContentBlock.isInput

/-- The indices of the messages with input of the user. -/
def anchors (source : ModelRequest) : List ℕ :=
  source.messages.zipIdx.filterMap fun entry => if isAnchor entry.1 then some entry.2 else none

/-- `retained[range].fill(true)`. -/
def fill (retained : List Bool) (range : RetainedMessageRange) : List Bool :=
  retained.mapIdx fun i kept => kept || decide (range.Contains i)

/-- The variables of the loop of `project_context`. -/
structure Projecting where
  messages : List Message
  retained : List Bool
  omitted : List RetainedMessageRange
  stop : ℕ

/-- The loop of `project_context` over the ranges of the plan. -/
def projectRanges (source : ModelRequest) (state : Projecting) :
    List RetainedMessageRange → Except ContextError Projecting
  | [] => .ok state
  | range :: ranges => do
    reject (range.start < state.stop ∨ range.stop ≤ range.start ∨ state.retained.length < range.stop)
      (.invalid "projection ranges are unordered, overlapping or invalid")
    projectRanges source
      { messages := state.messages ++ range.slice source.messages
        retained := fill state.retained range
        omitted := if state.stop < range.start then state.omitted ++ [⟨state.stop, range.start⟩] else state.omitted
        stop := range.stop }
      ranges

/-- `preserve_original_pairs`. -/
def preserveOriginalPairs (source : ModelRequest) (retained : List Bool) : Except ContextError Unit :=
  visitOriginalPairs source (fun _ call result =>
    reject (retained[call]? ≠ retained[result]?) (.invalid "projection split an original tool pair")) ()

/-- `project_context`. -/
def projectContext (digests : Digests) (source : ModelRequest) (descriptor : ModelDescriptor)
    (sourceBounds : ContextPolicy) (plan : ContextProjectionPlan) (targetPolicy : ContextPolicy)
    (counter : ContextTokenCounter) : Except ContextError ProjectedContext := do
  contextIdentity plan.policyId
  contextIdentity plan.policyRevision
  let bytes ← sourceBytes source sourceBounds
  let sourceDigest := digests.bytesDigest bytes
  reject (plan.expectedSourceDigest ≠ sourceDigest) (.invalid "projection source digest mismatch")
  reject (plan.retainedMessages = []) (.invalid "projection has no retained message ranges")
  let state ← projectRanges source ⟨[], List.replicate source.messages.length false, [], 0⟩ plan.retainedMessages
  let omitted := if state.stop < state.retained.length then state.omitted ++ [⟨state.stop, state.retained.length⟩]
    else state.omitted
  let first ← expect (anchors source).head? (.invalid "projection has no user objective anchor")
  let current := (anchors source).getLast?.getD first
  reject (state.retained[first]? ≠ some true ∨ (state.retained.drop current).any (!·) = true)
    (.invalid "projection removed objective or current input tail")
  preserveOriginalPairs source state.retained
  let selected := { source with messages := state.messages }
  let prepared ← prepareContext digests selected descriptor targetPolicy counter
  reject (prepared.change ≠ .unchanged ∨ prepared.request ≠ selected)
    (.invalid "projection requires an explicit unchanged output limit")
  return {
    prepared
    provenance :=
      { sourceDigest
        selectedDigest := prepared.provenance.preparedDigest
        policyDigest := digests.digest (.array [.string "kolyan.context.projection.v1", sourceBounds.toValue,
          plan.toValue, targetPolicy.toValue])
        policyId := plan.policyId
        policyRevision := plan.policyRevision
        sourceSerializedBytes := bytes.encodedLen
        selectedSerializedBytes := prepared.provenance.preparedSerializedBytes
        retainedMessages := plan.retainedMessages
        omittedMessages := omitted } }

end Projection

section Selection

/-- `SelectionPolicy`. -/
structure SelectionPolicy where
  id : String
  revision : String
  sourceBounds : ContextPolicy
  maxReducedCandidates : UInt8

/-- `ends` of `selection_candidates`: how far the messages that belong to each one reach. -/
def messageEnds (source : ModelRequest) : Except ContextError (List ℕ) :=
  visitOriginalPairs source (fun ends call result => .ok (ends.modify call fun stop => max stop (result + 1)))
    ((List.range source.messages.length).map (· + 1))

/-- The inner loop over the ends from a cursor on: the group grows with each of its messages. -/
def closeGroup (stop cursor : ℕ) : List ℕ → ℕ
  | [] => stop
  | reach :: ends => if cursor < stop then closeGroup (max stop reach) (cursor + 1) ends else stop

/-- The outer loop; a group has a message, so that there are at most as many groups as messages. -/
def closeGroups (ends : List ℕ) : ℕ → ℕ → List RetainedMessageRange
  | 0, _ => []
  | fuel + 1, start =>
    match ends.drop start with
    | [] => []
    | reach :: rest =>
      let stop := closeGroup reach (start + 1) rest
      ⟨start, stop⟩ :: closeGroups ends fuel stop

/-- `groups` of `selection_candidates`. -/
def messageGroups (ends : List ℕ) : List RetainedMessageRange := closeGroups ends ends.length 0

/-- A group that a plan may drop: it is over before the current input and not the objective. -/
def isOptional (first current : ℕ) (group : RetainedMessageRange) : Bool :=
  !(group.start ≤ first && first < group.stop) && group.stop ≤ current

/-- The indices of the groups that a plan may drop. -/
def optionalGroups (first current : ℕ) (groups : List RetainedMessageRange) : List ℕ :=
  groups.zipIdx.filterMap fun entry => if isOptional first current entry.1 then some entry.2 else none

/-- `div_ceil`. -/
def divCeil (a b : ℕ) : ℕ := (a + b - 1) / b

/-- The variables of the loop over the candidates. -/
structure Reducing where
  retained : List Bool
  removed : ℕ

/-- What one candidate drops more than the one before. -/
def Reducing.next (optional : List ℕ) (count candidate : ℕ) (state : Reducing) : Reducing :=
  if 0 < candidate then
    let upTo := divCeil (candidate * optional.length) count
    { retained := ((optional.take upTo).drop state.removed).foldl (fun retained index => retained.set index false)
        state.retained
      removed := upTo }
  else state

/-- The ranges that a candidate keeps. -/
def retainedRanges (groups : List RetainedMessageRange) (retained : List Bool) : List RetainedMessageRange :=
  merge ((groups.zip retained).filterMap fun entry => if entry.2 then some entry.1 else none)

/-- The loop over the candidates. -/
def candidateRanges (groups : List RetainedMessageRange) (optional : List ℕ) (count : ℕ) (state : Reducing) :
    List ℕ → List (List RetainedMessageRange)
  | [] => []
  | candidate :: rest =>
    let state := state.next optional count candidate
    retainedRanges groups state.retained :: candidateRanges groups optional count state rest

/-- `selection_candidates`. -/
def selectionCandidates (digests : Digests) (source : ModelRequest) (policy : SelectionPolicy) :
    Except ContextError (List ContextProjectionPlan) := do
  contextIdentity policy.id
  contextIdentity policy.revision
  reject (8 < policy.maxReducedCandidates) (.invalid "selection allows at most eight reduced candidates")
  let digest ← contextSourceDigest digests source policy.sourceBounds
  let first ← expect (anchors source).head? (.invalid "selection has no user objective anchor")
  let current := (anchors source).getLast?.getD first
  let ends ← messageEnds source
  let groups := messageGroups ends
  let optional := optionalGroups first current groups
  let count := min optional.length policy.maxReducedCandidates.toNat
  let ranges := candidateRanges groups optional count ⟨List.replicate groups.length true, 0⟩ (List.range (count + 1))
  return ranges.map fun retainedMessages =>
    { policyId := policy.id, policyRevision := policy.revision, expectedSourceDigest := digest, retainedMessages }

end Selection

section Server

/-- `PreparationFailure`, as far as `validate_selection` answers with one. -/
inductive PreparationFailure where
  | fieldsChanged | messagesNotSubsequence | currentInputChanged | boundsExceeded

/-- `bounded_request`. -/
def boundedRequest (request : ModelRequest) : Except PreparationFailure Unit := do
  reject (4096 < request.messages.length) .boundsExceeded
  reject (16384 < (request.messages.map (·.content.length)).sum) .boundsExceeded
  reject (16 * 1024 * 1024 < request.toValue.encodedLen) .boundsExceeded

/-- `history.any(|original| original == message)`: what is left of the history after the message. -/
def seekMessage (message : Message) : List Message → Option (List Message)
  | [] => none
  | original :: history => if original = message then some history else seekMessage message history

/-- The loop of `validate_selection` over the selected history. -/
def checkSubsequence (history : List Message) : List Message → Except PreparationFailure Unit
  | [] => .ok ()
  | message :: messages => do
    let history ← expect (seekMessage message history) .messagesNotSubsequence
    checkSubsequence history messages

/-- `validate_selection`. -/
def validateSelection (source selected : ModelRequest) (currentMessageCount : ℕ) :
    Except PreparationFailure Unit := do
  boundedRequest source
  boundedRequest selected
  reject ({ source with messages := [] } ≠ { selected with messages := [] }) .fieldsChanged
  reject (source.messages.length < currentMessageCount) .currentInputChanged
  let historyLen := source.messages.length - currentMessageCount
  reject (selected.messages.length < currentMessageCount) .currentInputChanged
  let selectedHistoryLen := selected.messages.length - currentMessageCount
  reject (selected.messages.drop selectedHistoryLen ≠ source.messages.drop historyLen) .currentInputChanged
  checkSubsequence (source.messages.take historyLen) (selected.messages.take selectedHistoryLen)

end Server

end Requests
end Kolyan
