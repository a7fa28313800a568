/-
# Durable tools

`DurableTools` (`kolyan-runtime/src/driver/tools.rs`) with `effect_hooks.rs`: the
tools of a durable Turn.  An effect leaves facts under its id: prepared,
authorized, started, then a receipt or an external wait.  An invocation that
finds a receipt or a wait answers from it; one that finds only the start does not
run the tool again: it recovers a wait that the host can prove, or the effect is
uncertain.  A tool that is dropped after its start leaves the start without a
receipt.
-/

import Kolyan.Driver.Recorder

namespace Kolyan
namespace Driver

open Checks Threads Ledger Policy Turn

/-- `DurableTools`, without the tools that it calls. -/
structure DurableTools where
  key : ExecutionRef
  snapshotDigest : Option String
  effectHooks : Bool

/-- Programs of the tools. -/
abbrev ToolProg := HostProg ToolError

section Errors

variable {α : Type}

/-- `failed` of a driver call. -/
def orFailed (p : DriverProg α) : ToolProg α := Fallible.mapError (fun error => .failed error.toString) p

/-- `failed` of a ledger call. -/
def ledgerOrFailed (p : LedgerProg HostOp.Answer α) : ToolProg α :=
  Fallible.mapError (fun error => .failed (ledgerText error)) p

/-- `DurableTools::uncertain`: the error, once it is published. -/
def DurableTools.uncertain (tools : DurableTools) (bound : PreparedEvidence) (message : String) :
    ToolProg α := do
  let payload := .object [("effect_id", .string bound.request.effectId),
    ("input_digest", .string bound.request.inputDigest), ("scope", bound.scope.toValue),
    ("evidence", .string message)]
  match ← Fallible.attempt (appendOnce tools.key ("effect/" ++ bound.request.effectId ++ "/uncertain")
    .effectUncertain payload) with
  | .ok _ => throw (.uncertain message)
  | .error error => throw (.uncertain
      (message ++ "; uncertainty publication failed: " ++ RuntimeError.toString error))

/-- A check whose failure makes the effect uncertain. -/
def DurableTools.orUncertain (tools : DurableTools) (bound : PreparedEvidence) (text : ToolError → String)
    (p : ToolProg α) : ToolProg α := do
  match ← Fallible.attempt p with
  | .ok a => return a
  | .error error => tools.uncertain bound (text error)

/-- `is_cancelled` of the invocation's control. -/
def checkCancelled : ToolProg Unit := do
  let sight ← host (.turn .look)
  Fallible.lift (reject (Sight.cancelled sight = true) .cancelled)

end Errors

section Hooks

variable {α : Type}

/-- `EffectHookContext::check_live`. -/
def checkLive (window : ℕ) : HostProg EffectHookError Unit := do
  let sight ← host (.turn .look)
  Fallible.lift (reject (Sight.cancelled sight = true) .cancelled)
  Fallible.lift (reject (window ≤ Sight.now sight) .timedOut)

/-- `EffectHookContext::wait`. -/
def waitLive (window : ℕ) (future : HostProg EffectHookError α) : HostProg EffectHookError α := do
  checkLive window
  future

/-- A hook that the host answers. -/
def hook {e : HostOp} (h : e.Answer = Except EffectHookError α) : HostProg EffectHookError α := do
  let answer ← host e
  Fallible.lift (cast h answer)

/-- `entry_error`. -/
def entryError : EffectHookError → ToolError
  | .cancelled => .cancelled
  | .timedOut => .timedOut
  | error => .invalidBatch ("before_effect host failure: " ++ error.toString)

/-- `observation_error`. -/
def observationError (phase : String) (event : LedgerEvent) (error : EffectHookError) : ToolError :=
  .invalidBatch (phase ++ " host failure after committed receipt " ++ event.eventId ++ " cursor " ++
    toString event.cursor ++ ": " ++ error.toString)

/-- A denial that the hook has worded. -/
def hookDecision : EffectHookDecision → Except ToolError Unit
  | .continue => .ok ()
  | .denied reason =>
      if trimEmpty reason ∨ reason.utf8ByteSize > 1024 then
        .error (entryError (.host "invalid hook denial reason"))
      else .error (.policyDenied reason)

/-- The preparation that the tools answer with after a hook. -/
def prepareAgain (call : ToolCall) : HostProg EffectHookError PreparedCall := do
  let answer ← host (.turn (.prepare call))
  match (answer : Raced (Except ToolError PreparedCall)) with
  | .cancelled => throw .cancelled
  | .timedOut => throw .timedOut
  | .answered (.ok prepared) => return prepared
  | .answered (.error error) =>
      throw (.host ("post-hook current preparation failed: " ++ error.toString))

end Hooks

section Receipts

variable (codec : EvidenceCodec) (tools : DurableTools) (bound : PreparedEvidence)

/-- The body of `CommittedEffectReceipt::from_ack`. -/
def acknowledge (event : LedgerEvent) : ToolProg Unit := do
  Fallible.lift (checkEvent event bound.scope.execution (bound.root ++ "/receipt") .effectReceipt)
  let actual ← Fallible.mapError (fun error => ToolError.invalidBatch (ledgerText error))
    (eventById event.eventId)
  Fallible.lift (reject (event.cursor = 0 ∨ actual ≠ some event)
    (.invalidBatch "committed receipt acknowledgement differs from Ledger"))
  let _ ← Fallible.lift (bound.validateReceipt codec event.payload)

/-- `CommittedEffectReceipt::from_ack`. -/
def fromAck (event : LedgerEvent) : HostProg EffectHookError Unit :=
  Fallible.mapError (fun error => .host ("committed receipt is not proven: " ++ ToolError.toString error))
    (acknowledge codec bound event)

/-- A hook that observes a committed receipt, if there are hooks. -/
def DurableTools.observe (phase : String) (window : ℕ) (event : LedgerEvent)
    (observation : HostProg EffectHookError Unit) : ToolProg Unit :=
  if tools.effectHooks = false then return ()
  else Fallible.mapError (observationError phase event) do
    checkLive window
    fromAck codec bound event
    waitLive window observation

/-- The fact of the effect under `suffix`. -/
def PreparedEvidence.saved (suffix : String) : ToolProg (Option LedgerEvent) :=
  ledgerOrFailed (eventById (bound.root ++ "/" ++ suffix))

/-- A fact that `check_entered` asks for. -/
def DurableTools.entered (id missing mismatch : String) (kind : LedgerEventKind) (payload : Value) :
    ToolProg Unit := do
  let found ← ledgerOrFailed (eventById id)
  let event ← Fallible.lift (expect found (.failed missing))
  Fallible.lift (checkEvent event tools.key id kind)
  Fallible.lift (reject (event.payload ≠ payload) (.failed mismatch))

/-- `check_entered`. -/
def DurableTools.checkEntered : ToolProg Unit := do
  tools.entered bound.authorization.authorizationId "wait has no durable authorization"
    "wait authorization mismatch" .effectAuthorized bound.authorizedPayload
  tools.entered (bound.root ++ "/started") "wait has no durable start" "wait start binding mismatch"
    .effectStarted bound.startedPayload

/-- The identity of a saved fact, its failure worded by `what`. -/
def DurableTools.checkSaved (event : LedgerEvent) (suffix what : String) (kind : LedgerEventKind) :
    ToolProg Unit :=
  tools.orUncertain bound (fun error => what ++ " is not proven: " ++ error.toString)
    (Fallible.lift (checkEvent event tools.key (bound.root ++ "/" ++ suffix) kind))

/-- An invocation that finds a receipt. -/
def DurableTools.answerReceipt (window : ℕ) (event : LedgerEvent) : ToolProg ToolOutcome := do
  tools.checkSaved bound event "receipt" "saved receipt identity" .effectReceipt
  tools.orUncertain bound ToolError.toString (tools.checkEntered bound)
  let result ← tools.orUncertain bound
    (fun error => "saved receipt integrity failed: " ++ error.toString)
    (Fallible.lift (bound.validateReceipt codec event.payload))
  tools.observe codec bound "verify_observation" window event
    (hook (e := .verifyObservation bound.issued event) rfl)
  let output ← Fallible.lift result
  return .completed output

/-- An invocation that finds a published wait. -/
def DurableTools.answerWait (event : LedgerEvent) : ToolProg ToolOutcome := do
  tools.checkSaved bound event "waiting" "saved wait identity" .effectAwaitingExternal
  tools.orUncertain bound ToolError.toString (tools.checkEntered bound)
  let wait ← tools.orUncertain bound
    (fun error => "saved wait integrity failed: " ++ error.toString)
    (Fallible.lift (bound.validateWait codec event.payload))
  let verified ← host (.verifyWait bound.issued wait)
  Fallible.lift (mapError (fun error => .uncertain
    ("saved external admission is not proven: " ++ ToolError.toString error)) verified)
  return .awaitingExternal wait

/-- The fact of a published wait. -/
def DurableTools.waitFact (payload : Value) : LedgerEvent :=
  identified tools.key (bound.root ++ "/waiting") .effectAwaitingExternal payload

/-- A host's answer whose failure makes the effect uncertain. -/
def DurableTools.proven {α : Type} (text : ToolError → String) (answer : Except ToolError α) : ToolProg α :=
  tools.orUncertain bound text (Fallible.lift answer)

/-- The publication of a wait that the host recovered. -/
def DurableTools.republish (wait : ExternalWait) : ToolProg ToolOutcome := do
  tools.proven bound ToolError.toString (bound.validateContext codec wait)
  let verified ← host (.verifyWait bound.issued wait)
  tools.proven bound ToolError.toString verified
  let payload ← Fallible.lift (bound.waitPayload codec wait)
  match ← Fallible.attempt (appendUnlessCancelled (tools.waitFact bound payload)) with
  | .ok _ => return .awaitingExternal wait
  | .error (.cancelled _) => throw .cancelled
  | .error error => tools.uncertain bound (ledgerText error)

/-- An invocation that finds only the start of its effect. -/
def DurableTools.recover (event : LedgerEvent) : ToolProg ToolOutcome := do
  tools.checkSaved bound event "started" "entered effect identity" .effectStarted
  tools.orUncertain bound
    (fun error => "entered effect authority is not proven: " ++ error.toString)
    (tools.checkEntered bound)
  let answer ← host (.recoverWait bound.issued)
  let recovered ← tools.proven bound
    (fun error => "external admission recovery failed: " ++ error.toString) answer
  match recovered with
  | some wait => tools.republish codec bound wait
  | none => tools.uncertain bound "uncertain tool effect: reconciliation required"

end Receipts

section Entering

variable (codec : EvidenceCodec) (tools : DurableTools) (bound : PreparedEvidence)

/-- The hook before an effect, and the preparation and the grant after it. -/
def DurableTools.gate (invocation : ToolInvocation) : ToolProg Unit :=
  if tools.effectHooks = false then return ()
  else do
    let live := Fallible.mapError entryError (checkLive invocation.window)
    live
    let decision ← Fallible.mapError entryError
      (waitLive invocation.window (hook (e := .beforeEffect bound.issued) rfl))
    Fallible.lift (hookDecision decision)
    live
    let current ← Fallible.mapError entryError
      (waitLive invocation.window (prepareAgain invocation.prepared.call))
    live
    Fallible.lift (reject (current ≠ invocation.prepared) (entryError
      (.host "post-hook current preparation differs from issued preparation")))
    Fallible.lift (mapError (fun error => entryError
        (.host ("post-hook authority differs: " ++ PreparedError.toString error)))
      (invocation.grant.validate codec.sha256 invocation.prepared invocation.policyRevision
        invocation.scope))

/-- The fact that the effect has started. -/
def DurableTools.startFact : LedgerEvent :=
  identified tools.key (bound.root ++ "/started") .effectStarted bound.startedPayload

/-- What a refused start is to the Turn. -/
def startError : LedgerError → ToolError
  | .cancelled _ => .cancelled
  | error => .uncertain ("effect entry outcome is not proven: " ++ ledgerText error)

/-- The authorization and the start of an effect. -/
def DurableTools.start : ToolProg Unit := do
  let _ ← orFailed (appendOnce tools.key ("effect/" ++ bound.request.effectId ++ "/authorized")
    .effectAuthorized bound.authorizedPayload)
  checkCancelled
  let _ ← Fallible.mapError startError (appendUnlessCancelled (tools.startFact bound))

/-- The wait that an executed tool answered with. -/
def DurableTools.publishWait (wait : ExternalWait) : ToolProg ToolOutcome := do
  let payload ← tools.proven bound ToolError.toString (bound.waitPayload codec wait)
  let verified ← host (.verifyWait bound.issued wait)
  tools.proven bound (fun error => "external admission is not proven: " ++ error.toString) verified
  match ← Fallible.attempt (appendUnlessCancelled (tools.waitFact bound payload)) with
  | .ok _ => return .awaitingExternal wait
  | .error error => tools.uncertain bound ("external wait publication failed: " ++ ledgerText error)

/-- A fact of the effect whose failure to commit makes the effect uncertain. -/
def DurableTools.publish (suffix what : String) (kind : LedgerEventKind) (payload : Value) :
    ToolProg LedgerEvent := do
  match ← Fallible.attempt
    (appendOnce tools.key ("effect/" ++ bound.request.effectId ++ "/" ++ suffix) kind payload) with
  | .ok event => return event
  | .error error => tools.uncertain bound (what ++ " failed: " ++ RuntimeError.toString error)

/-- The receipt of an executed tool. -/
def DurableTools.publishReceipt (window : ℕ) (result : Except ToolError ToolResult) :
    ToolProg ToolOutcome := do
  let payload ← tools.proven bound ToolError.toString (bound.receiptPayload codec result)
  let receipt ← tools.publish bound "receipt" "effect receipt publication" .effectReceipt payload
  let _ ← tools.publish bound (if result.toBool then "completed" else "failed")
    "effect completion projection" (if result.toBool then .effectCompleted else .effectFailed) payload
  tools.observe codec bound "after_receipt" window receipt
    (hook (e := .afterReceipt bound.issued receipt) rfl)
  let output ← Fallible.lift result
  return .completed output

/-- What came of the tool. -/
def DurableTools.conclude (window : ℕ) : Except ToolError ToolOutcome → ToolProg ToolOutcome
  | .ok (.completed result) => tools.publishReceipt codec bound window (.ok result)
  | .ok (.awaitingExternal wait) => tools.publishWait codec bound wait
  | .error (.uncertain message) => tools.uncertain bound (ToolError.uncertain message).toString
  | .error error => tools.publishReceipt codec bound window (.error error)

/-- An effect that has not started. -/
def DurableTools.enter (invocation : ToolInvocation) : ToolProg ToolOutcome := do
  tools.gate codec bound invocation
  tools.start bound
  let outcome ← host (.invoke invocation)
  tools.conclude codec bound invocation.window outcome

/-- `DurableTools::execute_invocation`. -/
def DurableTools.executeInvocation (invocation : ToolInvocation) : ToolProg ToolOutcome := do
  Fallible.lift (reject (invocation.scope.agentSnapshotDigest ≠ tools.snapshotDigest)
    (.failed "tool snapshot differs from Runtime admission"))
  let bound ← Fallible.lift (PreparedEvidence.new codec invocation.prepared invocation.grant
    invocation.scope invocation.policyRevision tools.key)
  checkCancelled
  let _ ← orFailed (appendOnce tools.key ("effect/" ++ bound.request.effectId ++ "/prepared")
    .effectPrepared bound.preparedPayload)
  match ← bound.saved "receipt" with
  | some event => tools.answerReceipt codec bound invocation.window event
  | none =>
      match ← bound.saved "waiting" with
      | some event => tools.answerWait codec bound event
      | none =>
          match ← bound.saved "started" with
          | some event => tools.recover codec bound event
          | none => tools.enter codec bound invocation

end Entering

end Driver
end Kolyan
