/-
# Dispatch of hooks, and its proof

`hooks/runtime.rs`: a dispatch runs the scripts that a binding selects for an event,
one after the other, with a fact before and a fact after each; `verify_dispatch`
reads these facts back.  A call may stop between any two of its operations, as one
does whose future is dropped, whose window has expired or whose host has crashed:
what its worker does after that is in the model what it does before it stops.
-/

import Kolyan.Hooks.Catalog

namespace Kolyan
namespace Hooks

open Checks Facts Artifacts Threads

section Facts

/-- The stream of a run. -/
def runStream (run : String) : String := "agent.hooks.run." ++ run

variable (codec : HookCodec)

/-- The identity of a run. -/
def runOf (binding : VerifiedHookBinding) (operationId : String) : Except HookError String :=
  hash codec (.array [.string "kolyan.hooks.run.v1", binding.reference.toValue, .string operationId])

/-- The hooks that a binding selects for an event. -/
def selectedHooks (binding : VerifiedHookBinding) (event : HookEvent) : List RegisteredHook :=
  binding.saved.hooks.filter fun hook => hook.manifest.matchesEvent event.phase event.toolName

/-- The identity of the run of the hook at a place. -/
def runId (run : String) (place : ℕ) : String := run ++ "." ++ toString place

/-- The fact before a script runs. -/
def startedDraft (binding : VerifiedHookBinding) (hook : RegisteredHook) (runId nativeDigest : String)
    (input : ArtifactRef) : FactDraft where
  factId := "agent.hook.started." ++ runId
  subject := ⟨"agent.hook.run", runId⟩
  kind := "agent.hook.started"
  schemaVersion := 1
  critical := true
  causes := [binding.reference, hook.reference]
  payload := .object [("binding", binding.reference.toValue.canonical), ("input", (artifactValue input).canonical),
    ("native_digest", .string nativeDigest), ("registration", hook.reference.toValue.canonical)]

/-- The fact after a script ran. -/
def completedDraft (started : FactRef) (output : ArtifactRef) (reply : Option HookReply) (hostFailure : Option String) :
    FactDraft where
  factId := started.factId ++ ".completed"
  subject := ⟨"agent.hook.run", started.factId⟩
  kind := "agent.hook.completed"
  schemaVersion := 1
  critical := true
  causes := [started]
  payload := .object [("host_failure", .option .string hostFailure), ("output", (artifactValue output).canonical),
    ("reply", .option (fun reply => reply.toValue.canonical) reply)]

/-- A field of a payload, `null` if it is not there. -/
def field (payload : Value) (key : String) : Value :=
  match payload with
  | .object fields => (fields.lookup key).getD .null
  | _ => .null

end Facts

section Dispatch

variable {codec : HookCodec} (catalog : HookCatalog codec) (policy : HookAccessPolicy) (nativeDigest : String)
  (binding : VerifiedHookBinding) (event : HookEvent)

/-- What a dispatch answers of a run that has facts. -/
def refuseExisting (existing : List FactRecord) : Except HookError Unit :=
  match existing.getLast? with
  | none => .ok ()
  | some last => .error (if last.draft.kind = "agent.hook.started" then .interrupted else .conflict)

/-- The only fact that an append answers. -/
def onlyFact (rows : List FactRecord) : Except HookError FactRef :=
  expect (rows.head?.map reference) (.native "host worker failed")

/-- What the first worker does for a hook: check, install and record the intent. -/
def prepareHook (run : String) (hook : RegisteredHook) (place : ℕ) : HookProg FactRef := do
  catalog.validateCurrent binding policy nativeDigest
  let input ← Fallible.lift (encode codec event.toValue)
  Fallible.lift (reject (input.length > hook.manifest.maxInputBytes) .capacity)
  let body ← HookCatalog.body hook
  let remaining ← Fallible.ofProg ((Prog.call HookOp.remaining).bind fun r => .done (expect r HookError.expired))
  Fallible.ofProg (.call (HookOp.prepare hook body input (min remaining hook.manifest.timeoutMs) (runId run place)))
  let artifact ← putArtifact input
  let rows ← appendTo (runStream run) (2 * place) [startedDraft binding hook (runId run place) nativeDigest artifact]
  Fallible.lift (onlyFact rows)

/-- What a dispatch makes of the outcome of a script. -/
def replyOf (codec : HookCodec) (event : HookEvent) : NativeOutcome → Except HookError HookReply
  | .exited (some code) stdout _ =>
    if code = 0 then HookReply.parse codec stdout event.phase
    else .error (.native ("script exit Some(" ++ toString code ++ ")"))
  | .exited none _ _ => .error (.native "script exit None")
  | .failed kind message =>
    if kind = "cancelled" then .error .cancelled else if kind = "timeout" then .error .expired
    else .error (.native message)

/-- What the second worker does for a hook: save the outcome and record it. -/
def commitHook (codec : HookCodec) (run : String) (place : ℕ) (started : FactRef) (outcome : NativeOutcome)
    (reply : Except HookError HookReply) : HookProg FactRef := do
  let artifact ← putArtifact (codec.bytes outcome.toValue)
  let rows ← appendTo (runStream run) (2 * place + 1) [completedDraft started artifact reply.toOption
    (match reply with | .ok _ => none | .error error => some error.toString)]
  Fallible.lift (onlyFact rows)

/-- A cancelled dispatch goes no further. -/
def checkCancelled : HookProg Unit :=
  Fallible.ofProg ((Prog.call HookOp.cancelled).bind fun cancelled => .done (reject (cancelled = true) HookError.cancelled))

/-- One round of the loop of `run`. -/
def runHook (run : String) (hook : RegisteredHook) (place : ℕ) : HookProg (HookReply × FactRef) := do
  checkCancelled
  let started ← prepareHook catalog policy nativeDigest binding event run hook place
  checkCancelled
  let outcome ← Fallible.ofProg ((Prog.call (HookOp.execute (runStream run) hook)).bind fun outcome => .done (.ok outcome))
  let reply := replyOf codec event outcome
  let completed ← commitHook codec run place started outcome reply
  let reply ← Fallible.lift reply
  return (reply, completed)

/-- The loop of `run`, which stops at the first hook that denies. -/
def runHooks (run : String) : ℕ → List FactRef → List RegisteredHook → HookProg HookDispatchResult
  | _, completed, [] => return .continued completed
  | place, completed, hook :: hooks => do
    let (reply, fact) ← runHook catalog policy nativeDigest binding event run hook place
    if reply.decision = .deny then return .denied reply.reason (completed ++ [fact])
    else runHooks run (place + 1) (completed ++ [fact]) hooks

/-- `dispatch`, and `run` below it. -/
def dispatch (operationId : String) : HookProg HookDispatchResult := do
  Fallible.lift (id operationId)
  Fallible.lift event.validate
  Fallible.lift (reject (event.scope ≠ binding.saved.scope) (.integrity "event differs from binding"))
  checkCancelled
  let run ← Fallible.lift (runOf codec binding operationId)
  catalog.validateCurrent binding policy nativeDigest
  let existing ← readStream (runStream run) 0 18
  Fallible.lift (refuseExisting existing)
  runHooks catalog policy nativeDigest binding event run 0 [] (selectedHooks binding event)

end Dispatch

section Verification

variable {codec : HookCodec} (catalog : HookCatalog codec) (binding : VerifiedHookBinding) (event : HookEvent)

/-- What a verification asks of the outcome that a script left, and its reply. -/
def outcomeReply (codec : HookCodec) (event : HookEvent) (hook : RegisteredHook) (bytes : Bytes) :
    Except HookError HookReply := do
  let (exitCode, stdout, stderr) ← unreadable (codec.success bytes)
  reject (exitCode ≠ some 0 ∨ stdout.length + stderr.length > hook.manifest.maxOutputBytes)
    (.integrity "historical hook output failed or exceeded limits")
  HookReply.parse codec stdout event.phase

/-- One round of the loop of `verify_dispatch`, over both facts of a hook. -/
def verifyHook (codec : HookCodec) (binding : VerifiedHookBinding) (event : HookEvent) (run : String)
    (expectedInput : Bytes) (rows : List FactRecord) (hook : RegisteredHook) (place : ℕ) :
    HookProg (HookReply × FactRef) := do
  let _ ← HookCatalog.body hook
  let started ← Fallible.lift (expect rows[2 * place]? .interrupted)
  let ended ← Fallible.lift (expect rows[2 * place + 1]? .interrupted)
  let input ← Fallible.lift (unreadable (codec.artifact (field started.draft.payload "input")))
  Fallible.lift (reject (input.retention ≠ .required) (.integrity "historical hook input differs"))
  let saved ← getArtifact input hook.manifest.maxInputBytes
  Fallible.lift (reject (saved ≠ expectedInput ∨ expectedInput.length > hook.manifest.maxInputBytes)
    (.integrity "historical hook input differs"))
  Fallible.lift (reject (started.streamId ≠ runStream run ∨ started.position ≠ 2 * place + 1 ∨
      started.draft ≠ startedDraft binding hook (runId run place) binding.saved.nativeDigest input)
    (.integrity "historical hook intent differs"))
  let output ← Fallible.lift (unreadable (codec.artifact (field ended.draft.payload "output")))
  Fallible.lift (reject (output.retention ≠ .required) (.integrity "unretained hook output"))
  let bytes ← getArtifact output (1024 * 1024)
  let reply ← Fallible.lift (outcomeReply codec event hook bytes)
  Fallible.lift (reject (ended.streamId ≠ runStream run ∨ ended.position ≠ 2 * place + 2 ∨
      ended.draft ≠ completedDraft (reference started) output (some reply) none)
    (.integrity "historical hook completion differs"))
  return (reply, reference ended)

/-- The loop of `verify_dispatch`. -/
def verifyHooks (codec : HookCodec) (binding : VerifiedHookBinding) (event : HookEvent) (run : String)
    (expectedInput : Bytes) (rows : List FactRecord) :
    ℕ → List FactRef → List RegisteredHook → HookProg HookDispatchResult
  | place, completed, [] => do
    Fallible.lift (reject (rows.length ≠ 2 * place) (.integrity "extra hook observations"))
    return .continued completed
  | place, completed, hook :: hooks => do
    let (reply, fact) ← verifyHook codec binding event run expectedInput rows hook place
    if reply.decision = .deny then
      Fallible.lift (reject (rows.length ≠ 2 * (place + 1)) (.integrity "extra facts after hook denial"))
      return .denied reply.reason (completed ++ [fact])
    else verifyHooks codec binding event run expectedInput rows (place + 1) (completed ++ [fact]) hooks

/-- `verify_dispatch`. -/
def verifyDispatch (operationId : String) : HookProg HookDispatchResult := do
  Fallible.lift (id operationId)
  Fallible.lift event.validate
  Fallible.lift (reject (event.scope ≠ binding.saved.scope) (.integrity "historical hook binding differs"))
  let restored ← catalog.restoreBinding binding.reference binding.saved.scope
  Fallible.lift (reject (restored ≠ binding) (.integrity "historical hook binding differs"))
  let run ← Fallible.lift (runOf codec binding operationId)
  let rows ← readStream (runStream run) 0 18
  let expectedInput ← Fallible.lift (encode codec event.toValue)
  verifyHooks codec binding event run expectedInput rows 0 [] (selectedHooks binding event)

end Verification

/-! ### Runs of any number of calls -/

/-- What the hooks share: the journal and the pinned objects of the artifact store; and,
for the record, which call put the first fact in a stream and which scripts were executed
for which run. -/
structure HookWorld (J : Type) where
  journal : J
  files : Std.ExtTreeMap String Bytes
  firsts : String → Option ℕ
  executed : List (String × HookKey)

/-- A call, on a catalog. -/
inductive HookCall (codec : HookCodec) where
  | dispatch (catalog : HookCatalog codec) (policy : HookAccessPolicy) (nativeDigest : String)
      (binding : VerifiedHookBinding) (event : HookEvent) (operationId : String)
  | verify (catalog : HookCatalog codec) (binding : VerifiedHookBinding) (event : HookEvent) (operationId : String)
  | register (catalog : HookCatalog codec) (manifest : HookManifest) (bytes : Bytes)
  | revoke (catalog : HookCatalog codec) (key : HookKey) (registration : FactRef) (operationId reason : String)

/-- What a call answers. -/
inductive HookAnswer where
  | dispatched (answer : Except HookError HookDispatchResult)
  | verified (answer : Except HookError HookDispatchResult)
  | registered (answer : Except HookError RegisteredHook)
  | revoked (answer : Except HookError FactRef)

/-- What a call runs. -/
def HookCall.program {codec : HookCodec} : HookCall codec → Prog HookOp HookOp.Answer HookAnswer
  | dispatch catalog policy nativeDigest binding event operationId =>
    (Hooks.dispatch catalog policy nativeDigest binding event operationId).run.bind fun r => .done (.dispatched r)
  | verify catalog binding event operationId =>
    (verifyDispatch catalog binding event operationId).run.bind fun r => .done (.verified r)
  | register catalog manifest bytes => (catalog.register manifest bytes).run.bind fun r => .done (.registered r)
  | revoke catalog key registration operationId reason =>
    (catalog.revoke key registration operationId reason).run.bind fun r => .done (.revoked r)

section Runs

variable {J : Type} {journal : FactJournal J} (contract : journal.Contract) (sha256 : Bytes → String)
  (store : ArtifactStore)

/-- The pinned object that a reference names. -/
def findArtifact (files : Std.ExtTreeMap String Bytes) (reference : ArtifactRef) (maxBytes : ℕ) :
    Except ArtifactError Bytes := do
  let path ← store.path reference
  reject (reference.byteLength > maxBytes) (.invalid "read bound exceeded")
  let bytes ← expect files[path]? (.io .notFound)
  reject (bytes.length ≠ reference.byteLength ∨ sha256 bytes ≠ reference.digest) .integrity
  return bytes

/-- What a `put` that does not fail on the way answers and leaves: a name is never
overwritten, and bytes that are there already are compared. -/
def pinArtifact (files : Std.ExtTreeMap String Bytes) (bytes : Bytes) :
    Except ArtifactError ArtifactRef × Std.ExtTreeMap String Bytes :=
  let reference : ArtifactRef := ⟨sha256 bytes, bytes.length, .required⟩
  match store.path reference with
  | .error error => (.error error, files)
  | .ok path =>
    match files[path]? with
    | none => (.ok reference, files.insert path bytes)
    | some existing => (if existing = bytes then .ok reference else .error .integrity, files)

/-- The world after an append of a call: who put the first fact in a stream is kept. -/
def HookWorld.appended (world : HookWorld J) (i : ℕ) (stream : String) (j : J) : HookWorld J :=
  { world with
    journal := j
    firsts := if contract.rows world.journal stream = [] ∧ contract.rows j stream ≠ [] then
      Function.update world.firsts stream (some i) else world.firsts }

/-- What an operation of a call may answer and leave behind.  An append and a `put` may fail,
a script may end in any way, but prints no more than its sandbox lets it. -/
def HookActs (i : ℕ) (world : HookWorld J) : (o : HookOp) → o.Answer → HookWorld J → Prop
  | .read stream after limit, a, world' => a = journal.read world.journal stream after limit ∧ world' = world
  | .append stream expected batch, a, world' =>
    (∃ j, journal.append world.journal stream expected batch = (a, j) ∧ world' = world.appended contract i stream j) ∨
      ((∃ message, a = .error (.storage message)) ∧ world' = world)
  | .put bytes, a, world' =>
    (a = (pinArtifact sha256 store world.files bytes).1 ∨ ∃ error, a = .error error) ∧
      world' = { world with files := (pinArtifact sha256 store world.files bytes).2 } ∨
      (∃ error, a = .error error) ∧ world' = world
  | .get reference maxBytes, a, world' => a = findArtifact sha256 store world.files reference maxBytes ∧ world' = world
  | .cancelled, _, world' | .remaining, _, world' | .prepare .., _, world' => world' = world
  | .execute stream hook, a, world' =>
    (∀ exitCode stdout stderr, a = .exited exitCode stdout stderr →
        stdout.length + stderr.length ≤ hook.manifest.maxOutputBytes) ∧
      world' = { world with executed := world.executed ++ [(stream, hook.manifest.key)] }

/-- A stream that only the hooks write. -/
def OfHooks (codec : HookCodec) (stream : String) : Prop :=
  (∃ catalog : HookCatalog codec, stream = catalog.stream) ∨ ∃ run, stream = runStream run

/-- A stream whose writers only ever append to its beginning: of a binding, or of the
ownership of an invocation. -/
def OfOneFact (stream : String) : Prop :=
  (∃ digest, stream = "agent.hooks.binding." ++ digest) ∨ ∃ digest, stream = "agent.binding." ++ digest

/-- What others do: they append elsewhere, and publish objects. -/
inductive HookOther (codec : HookCodec) (world : HookWorld J) : HookWorld J → Prop
  | append {stream : String} {expected : ℕ} {batch : List FactDraft} {a : Except FactError (List FactRecord)} {j : J}
      (hstream : ¬OfHooks codec stream) (hone : OfOneFact stream → expected = 0)
      (h : journal.append world.journal stream expected batch = (a, j)) : HookOther codec world { world with journal := j }
  | publish {digest : String} {bytes : Bytes} (h : world.files[digest]? = none) :
      HookOther codec world { world with files := world.files.insert digest bytes }

/-- Calls of the hooks, with those that may be made as a parameter. -/
def hookRules (codec : HookCodec) (starts : HookCall codec → Prop) :
    Pool.Rules HookOp HookOp.Answer (HookWorld J) (HookCall codec) HookAnswer where
  program := HookCall.program
  starts _ := starts
  act := HookActs contract codec.sha256 store
  other := @HookOther J journal codec

/-- A world in which no hook has run yet, and every catalog replays. -/
structure HooksIdle (codec : HookCodec) (world : HookWorld J) : Prop where
  valid : contract.Valid world.journal
  catalogs : ∀ catalog : HookCatalog codec, ∃ state, catalog.replayRows (contract.rows world.journal catalog.stream) = .ok state
  runs : ∀ run, contract.rows world.journal (runStream run) = []
  firsts : ∀ stream, world.firsts stream = none
  executed : world.executed = []

end Runs

end Hooks
end Kolyan
