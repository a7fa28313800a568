/-
# A replacement through a sandboxed worker

`IsolatedFileTools` lets a worker process run `execute_exact` on a prepared call.  What
happens outside of it is a `Course`: what the system tells when the call is prepared again
and its request is made, the disk under the worker, how far the worker gets (`Stop`), and
what the sandbox sees of its end.  The host maps this to the outcome of the call through
four layers: `process::execute`, `execute_bounded`, `receipt::decode` and the Turn port.

A blocking task of the host ends.  The texts of errors that serde or the system report are
left out, and a capture thread keeps every byte up to the limit.
-/

import Kolyan.Tools.FileEnvelopes

namespace Kolyan
namespace Tools

open Paths (Name)
open Checks Policy Turn Threads

section Request

/-- `FileOperation`, encoded. -/
def FileOperation.toValue : FileOperation → Value
  | .read path => .object [("name", .string "file.read"), ("arguments", .object [("path", .string path)])]
  | .write path content => .object [("name", .string "file.write"),
      ("arguments", .object [("path", .string path), ("content", .string content)])]
  | .edit path oldText newText expectedSha256 => .object [("name", .string "file.edit"),
      ("arguments", .object ([("path", .string path), ("old_text", .string oldText), ("new_text", .string newText)] ++
        expectedSha256.toList.map fun expected => ("expected_sha256", .string expected)))]

/-- `ExactFileStaging`, encoded. -/
def ExactFileStaging.toValue (stage : ExactFileStaging) : Value :=
  .object [("parent", stage.parent.toValue), ("leaf", .string (.ofList stage.leaf))]

/-- `ExactFileWorkerRequest`, encoded. -/
def ExactFileWorkerRequest.toValue (request : ExactFileWorkerRequest) : Value :=
  .object [("operation", request.operation.toValue), ("binding", request.binding.toValue),
    ("staging", .option ExactFileStaging.toValue request.staging)]

/-- `ExactFileStaging::prepare`. -/
def ExactFileStaging.prepare (s : Listing) (binding : ExactFileBinding) (physicalStage : List Name) :
    Except FileOperationError ExactFileStaging := do
  physical physicalStage
  let leaf ← expect physicalStage.getLast? (.invalidArguments "stage has no parent")
  let parent ← ExactDirectoryBinding.capture s.toSnapshot physicalStage.dropLast
  let stage : ExactFileStaging := { parent, leaf }
  binding.reopen s.toSnapshot
  stage.reopen binding s
  return stage

end Request

section Sandbox

/-- `SandboxError`. -/
inductive SandboxError where
  | unsupported | backendMissing
  | invalid (message : String)
  | io | timeout | cancelled | outputLimit | worker

/-- How the loop of `process::execute` is left.  An overflow that it sees counts as one that
is seen after it, as the exit of the process would. -/
inductive LoopEnd where
  | exited | cancelled | timedOut | waitFailed

/-- What `process::execute` has when it has waited for everything: how its loop was left,
whether its threads were joined, the group was cleaned up and the process reaped with this
status, whether the output was too long, whether stdin broke in another way than by a
closed pipe, and what was captured. -/
structure Observed where
  loopEnd : LoopEnd
  joined : Bool
  cleaned : Bool
  reaped : Bool
  status : Option Int32
  overflow : Bool
  inputFailed : Bool
  captured : Bool
  stdout : List UInt8
  stderr : List UInt8

/-- `outcome`, in `process::execute`. -/
def LoopEnd.outcome : LoopEnd → Except SandboxError Unit
  | exited => .ok ()
  | cancelled => .error .cancelled
  | timedOut => .error .timeout
  | waitFailed => .error .io

/-- The end of `process::execute`. -/
def Observed.collect (o : Observed) : Except SandboxError Shell.SandboxOutput := do
  reject (o.joined = false) .worker
  reject (o.cleaned = false) .io
  reject (o.reaped = false) .io
  o.loopEnd.outcome
  reject (o.overflow = true) .outputLimit
  reject (o.inputFailed = true) .io
  reject (o.captured = false) .io
  return ⟨o.status, o.stdout, o.stderr⟩

end Sandbox

section Worker

/-- How far a worker gets: its main fails before it executes anything, it is stopped after so
many operations on the disk, or it returns, with its line printed or not. -/
inductive Stop where
  | refused
  | killed (operations : ℕ)
  | returned (printed : Bool)

/-- What a worker leaves: the disk, its exit status, none for a signal, and its stdout. -/
structure WorkerEnd where
  disk : Disk
  status : Option Int32
  stdout : List UInt8

variable (sha256 : String → String) (request : ExactFileWorkerRequest) (limits : FileOperationLimits) (d : Disk)

/-- `main` of the worker.  A run that gives nothing is a panic. -/
def workerEnd : Stop → WorkerEnd
  | .refused => ⟨d, some 1, []⟩
  | .killed operations => ⟨(executeExact sha256 request limits).run.cut Disk.act operations d, none, []⟩
  | .returned printed =>
      match (executeExact sha256 request limits).runs d with
      | some (.ok result, d') =>
          if printed then ⟨d', some 0, asBytes (receiptLine result)⟩ else ⟨d', some 1, []⟩
      | some (.error _, d') => ⟨d', some 1, []⟩
      | none => ⟨d, some 101, []⟩

end Worker

section Host

/-- `IsolatedFileTools`, with its staging root and what its codecs read. -/
structure IsolatedFileHost where
  tools : IsolatedFileTools
  stagingRoot : List Name
  stagingBinding : ExactDirectoryBinding
  codec : FileCodec
  sha256 : Value → String
  lossy : List UInt8 → String

/-- What happens around one execution. -/
structure Course where
  cancelledBefore : Bool
  cancelledDuring : Bool
  snapshot : Snapshot
  before : Listing
  stageDirectory : Except IsolatedFileError Name
  after : Listing
  spawned : Except SandboxError Unit
  disk : Disk
  stop : Stop
  loopEnd : LoopEnd
  joined : Bool
  cleaned : Bool
  reaped : Bool
  inputFailed : Bool
  captured : Bool
  stderr : List UInt8

/-- `IsolatedFileError`, with the error of a sandbox. -/
inductive BoundedError where
  | file (error : IsolatedFileError)
  | sandbox (error : SandboxError)

/-- `IsolatedFileError::to_string`, as far as its texts are not those of the system. -/
def BoundedError.toString : BoundedError → String
  | .file (.invalid message) => "invalid isolated file execution: " ++ message
  | .file (.uncertain message) => "uncertain isolated file outcome: " ++ message
  | .file (.prepared error) => error.toString
  | .file (.operation _) | .file .sandbox | .file .io => ""
  | .sandbox .unsupported => "macOS Seatbelt is unsupported on this platform"
  | .sandbox .backendMissing => "fixed /usr/bin/sandbox-exec backend is missing"
  | .sandbox (.invalid message) => "invalid sandbox admission: " ++ message
  | .sandbox .io => "sandbox process I/O failed"
  | .sandbox .timeout => "sandbox invocation timed out"
  | .sandbox .cancelled => "sandbox invocation cancelled"
  | .sandbox .outputLimit => "sandbox combined output exceeded its limit"
  | .sandbox .worker => "sandbox worker failed"

/-- `tool_error`. -/
def toolError : BoundedError → ToolError
  | .file (.uncertain message) => .uncertain message
  | .sandbox .cancelled => .cancelled
  | .sandbox .timeout => .timedOut
  | .file (.prepared error) => .policyDenied error.toString
  | other => .failed other.toString

variable (host : IsolatedFileHost) (invocation : ToolInvocation) (c : Course)

/-- `worker_request`. -/
def IsolatedFileHost.workerRequest (operation : FileOperation) (binding : ExactFileBinding) :
    Except IsolatedFileError ExactFileWorkerRequest := do
  mapError .operation (binding.reopen c.before.toSnapshot)
  mapError .operation (host.stagingBinding.reopen c.before.toSnapshot)
  if operation.isRead then
    mapError .operation (host.stagingBinding.reopen c.after.toSnapshot)
    return { operation, binding, staging := none }
  else
    let directory ← c.stageDirectory
    let stage ← mapError .operation
      (ExactFileStaging.prepare c.after binding (host.stagingRoot ++ [directory, "replacement".toList]))
    mapError .operation (host.stagingBinding.reopen c.after.toSnapshot)
    mapError .operation (stage.parent.reopen c.after.toSnapshot)
    return { operation, binding, staging := some stage }

/-- `execute_bounded`, up to the process: its request, and the limit of its output. -/
def IsolatedFileHost.admission (resultOutputLimit : Option ℕ) :
    Except BoundedError (ExactFileWorkerRequest × ℕ) := do
  let current ← mapError .file (host.tools.prepare host.sha256 c.snapshot invocation.prepared.call)
  reject (current.digest ≠ invocation.prepared.digest) (.file (.prepared .bindingMismatch))
  mapError (fun error => .file (.prepared error))
    (invocation.grant.validate host.sha256 invocation.prepared invocation.policyRevision invocation.scope)
  let operation ← mapError .file (host.tools.operation invocation.prepared.call)
  let granted ← expect invocation.grant.constraints.maxOutputBytes (.file (.invalid "output limit overflow"))
  let limit := Files.outputLimit resultOutputLimit granted
  mapError .file (Files.fitsFraming operation host.tools.config.fileLimits limit)
  let binding ← expect (ExactFileBinding.ofValue invocation.prepared.executionBinding)
    (.file (.invalid "execution binding"))
  let request ← mapError .file (host.workerRequest c operation binding)
  reject (request.toValue.encodedLen > 64 * 1024 * 1024)
    (.file (.invalid "worker envelope exceeds trusted input ceiling"))
  mapError .sandbox c.spawned
  return (request, limit)

/-- What the worker of a request leaves. -/
def IsolatedFileHost.left (request : ExactFileWorkerRequest) : WorkerEnd :=
  workerEnd host.codec.contentSha256 request host.tools.config.fileLimits c.disk c.stop

/-- What the sandbox has of a worker.  One that has printed its line has written nothing
else. -/
def Course.observed (limit : ℕ) (left : WorkerEnd) : Observed :=
  let stderr := if left.status = some 0 then [] else c.stderr
  { loopEnd := c.loopEnd, joined := c.joined, cleaned := c.cleaned, reaped := c.reaped, status := left.status,
    overflow := limit < left.stdout.length + stderr.length, inputFailed := c.inputFailed, captured := c.captured,
    stdout := left.stdout, stderr }

/-- `receipt::decode`, of bytes. -/
def IsolatedFileHost.decodeBytes (operation : FileOperation) (stdout : List UInt8) :
    Except IsolatedFileError FileOperationResult :=
  match fromUtf8 stdout with
  | .ok text => decode host.codec operation text host.tools.config.fileLimits
  | .error _ => .error (operation.invalid "worker result decoding: ")

/-- `execute_bounded`, from the process on. -/
def IsolatedFileHost.receive (request : ExactFileWorkerRequest) (limit : ℕ) : Except BoundedError FileOperationResult := do
  let output ← mapError .sandbox (c.observed limit (host.left c request)).collect
  reject (output.exitCode ≠ some 0) (.file (.invalid ("worker failed: " ++ host.lossy output.stderr)))
  mapError .file (host.decodeBytes request.operation output.stdout)

/-- `execute_bounded`. -/
def IsolatedFileHost.executeBounded (resultOutputLimit : Option ℕ) : Except BoundedError FileOperationResult := do
  let (request, limit) ← host.admission invocation c resultOutputLimit
  host.receive c request limit

/-- The ceiling of a result, in `execute`. -/
def ceiling : Except ToolError ℕ :=
  expect invocation.grant.constraints.maxOutputBytes (.failed "missing or overflowing complete result ceiling")

/-- `execute`, of the Turn port. -/
def IsolatedFileHost.execute : Except ToolError ToolResult := do
  let limit ← ceiling invocation
  let callId := invocation.prepared.call.id
  let rawCap ← Files.rawCap callId limit
  let output ← mapError toolError (host.executeBounded invocation c (some rawCap))
  Files.finish callId limit output

/-- `execute_invocation`. -/
def IsolatedFileHost.executeInvocation : Except ToolError ToolOutcome :=
  if c.cancelledBefore then .error .cancelled
  else if c.cancelledDuring then
    match host.execute invocation c with
    | .ok _ | .error .cancelled => .error .cancelled
    | .error error => .error error
  else (host.execute invocation c).map .completed

/-- The request whose worker is started, if one is, with the limit of its output. -/
def IsolatedFileHost.started : Option (ExactFileWorkerRequest × ℕ) :=
  if c.cancelledBefore then none
  else do
    let limit ← (ceiling invocation).toOption
    let rawCap ← (Files.rawCap invocation.prepared.call.id limit).toOption
    (host.admission invocation c (some rawCap)).toOption

/-- The disk that an execution leaves. -/
def IsolatedFileHost.finalDisk : Disk :=
  match host.started invocation c with
  | some (request, _) => (host.left c request).disk
  | none => c.disk

end Host

end Tools
end Kolyan
