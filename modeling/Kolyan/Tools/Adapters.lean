/-
# The adapters of file and shell calls

`kolyan-tools`: what turns a model's call into a prepared one, over a snapshot of
the file system.

`IsolatedFileTools::prepare` decodes an operation, resolves its label to the
physical path of what it will read or replace, binds that path with the identities
of its directories, and claims it.  `IsolatedShellTool::prepare` claims the whole
workspace.  `prepare_restricted`, shared by the two in-process tools, joins the
label to its root as it stands and claims the result.

A physical path is the list of its names (`Lib/Paths`); `physicalText` writes it
out.  What serde decodes, the revision of an adapter, which is read from its
executable, and the hash are parameters.  The texts of errors that the operating
system or the sandbox reports are left out.
-/

import Kolyan.Lib.Paths
import Kolyan.Turn.Types

namespace Kolyan
namespace Tools

open Paths Checks Policy Turn

section Paths

/-- `ExactFileIdentity`. -/
structure ExactFileIdentity where
  dev : ℕ
  ino : ℕ
  deriving DecidableEq

/-- The file system when a call is prepared: its tree, the identity of each physical
path, and how many links the system follows. -/
structure Snapshot where
  tree : Node
  identity : List Name → ExactFileIdentity
  links : ℕ

/-- An absolute path of these names. -/
def physicalText (path : List Name) : String := String.ofList ('/' :: text path)

/-- `std::path::Component`, without the prefix that no Unix path has. -/
inductive Component where
  | rootDir | curDir | parentDir
  | normal (name : Name)
  deriving DecidableEq

/-- `Path::components`. -/
def components (path : List Char) : List Component :=
  let rest := (pieces path).filterMap fun name =>
    if name = [] ∨ name = ['.'] then none
    else if name = ['.', '.'] then some .parentDir
    else some (.normal name)
  if path.head? = some '/' then .rootDir :: rest
  else if (pieces path).head? = some ['.'] then .curDir :: rest
  else rest

/-- The names of the normal components. -/
def normals (path : List Char) : List Name :=
  (components path).filterMap fun
    | .normal name => some name
    | _ => none

/-- `Path::file_name`. -/
def fileName (path : List Char) : Option Name :=
  match (components path).getLast? with
  | some (.normal name) => some name
  | _ => none

/-- A component that may lead out of a workspace. -/
def Component.escapes : Component → Bool
  | .parentDir | .rootDir => true
  | _ => false

/-- `Path::canonicalize`. -/
def Snapshot.canonicalize (s : Snapshot) (path : List Name) : Option (List Name) :=
  walk s.tree false false s.links [] path

/-- `Path::is_dir`, of a physical path. -/
def Snapshot.isDir (s : Snapshot) (path : List Name) : Bool :=
  match s.tree.at path with
  | some (.dir _) => true
  | _ => false

/-- `symlink_metadata(&target).is_ok_and(|m| m.file_type().is_symlink())`. -/
def Snapshot.isSymlink (s : Snapshot) (target : List Name) : Bool :=
  match target.getLast?, s.canonicalize target.dropLast with
  | some leaf, some parent =>
      match s.tree.at (parent ++ [leaf]) with
      | some (.symlink _) => true
      | _ => false
  | _, _ => false

end Paths

section Exact

/-- `FileOperationError`. -/
inductive FileOperationError where
  | invalidArguments (message : String)
  | io
  | readLimitExceeded | writeLimitExceeded | invalidUtf8 | missingMatch | ambiguousMatch | staleContent
  deriving DecidableEq

/-- `FileOperation`. -/
inductive FileOperation where
  | read (path : String)
  | write (path content : String)
  | edit (path oldText newText : String) (expectedSha256 : Option String)
  deriving DecidableEq

/-- `FileOperation::path`. -/
def FileOperation.path : FileOperation → String
  | read path | write path _ | edit path .. => path

/-- `FileOperation::name`. -/
def FileOperation.name : FileOperation → String
  | read _ => "file.read"
  | write .. => "file.write"
  | edit .. => "file.edit"

/-- `matches!(operation, FileOperation::Read(_))`. -/
def FileOperation.isRead : FileOperation → Bool
  | read _ => true
  | _ => false

/-- `FileOperationLimits`. -/
structure FileOperationLimits where
  maxReadBytes : ℕ
  maxWriteBytes : ℕ

/-- `validate_operation`. -/
def validateOperation (operation : FileOperation) (limits : FileOperationLimits) : Except FileOperationError Unit := do
  reject (limits.maxReadBytes = 0 ∨ limits.maxWriteBytes = 0 ∨ limits.maxReadBytes > 64 * 1024 * 1024 ∨
      limits.maxWriteBytes > 64 * 1024 * 1024)
    (.invalidArguments "invalid host file limits")
  let label := operation.path.toList
  reject (label = [] ∨ Char.ofNat 0 ∈ label ∨ label.head? = some '/' ∨ fileName label = none ∨
      (components label).any Component.escapes)
    (.invalidArguments "display path must be workspace-relative")
  match operation with
  | .read _ => .ok ()
  | .write _ content => reject (content.utf8ByteSize > limits.maxWriteBytes) .writeLimitExceeded
  | .edit _ oldText newText expectedSha256 => do
      reject (oldText.isEmpty) (.invalidArguments "old_text must not be empty")
      reject (oldText.utf8ByteSize > limits.maxReadBytes) .readLimitExceeded
      reject (newText.utf8ByteSize > limits.maxWriteBytes) .writeLimitExceeded
      reject (expectedSha256.any (!isHexDigest ·))
        (.invalidArguments "expected_sha256 must contain 64 hexadecimal characters")

/-- `ExactDirectoryBinding`. -/
structure ExactDirectoryBinding where
  physicalPath : List Name
  identityChain : List ExactFileIdentity
  deriving DecidableEq

/-- `ExactFileBinding`. -/
structure ExactFileBinding where
  workspace : ExactDirectoryBinding
  parent : ExactDirectoryBinding
  leaf : Name
  targetIdentity : Option ExactFileIdentity
  protectedRoots : List (List Name)
  deriving DecidableEq

/-- `physical`: of a list of names, that they are normal and that there are not too many. -/
def physical (path : List Name) : Except FileOperationError Unit := do
  reject (path.length + 1 > 128) (.invalidArguments "physical path must be absolute and bounded")
  reject (¬∀ name ∈ path, Proper name) (.invalidArguments "physical path must not contain dot or parent components")
  reject (∃ name ∈ path, Char.ofNat 0 ∈ name) (.invalidArguments "physical path must be normalized and contain no NUL")

/-- `leaf`. -/
def leaf (name : Name) : Except FileOperationError Unit :=
  reject (¬Proper name ∨ Char.ofNat 0 ∈ name) (.invalidArguments "leaf must be one normal filename")

/-- `control`. -/
def control (path : List Name) : Bool := path.any fun name => name = ".git".toList ∨ name = ".kolyan".toList

/-- `traverse`: every directory on the way is there, and none of them is a link. -/
def traverse (s : Snapshot) (path : List Name) : Except FileOperationError (List ExactFileIdentity) := do
  physical path
  reject (¬path.inits.all s.isDir) .io
  return path.inits.map s.identity

/-- `ExactDirectoryBinding::capture`. -/
def ExactDirectoryBinding.capture (s : Snapshot) (path : List Name) : Except FileOperationError ExactDirectoryBinding := do
  let identityChain ← traverse s path
  return { physicalPath := path, identityChain }

/-- `leaf_identity`. -/
def leafIdentity (s : Snapshot) (directory : List Name) (name : Name) :
    Except FileOperationError (Option ExactFileIdentity) :=
  match s.tree.at (directory ++ [name]) with
  | some .file => .ok (some (s.identity (directory ++ [name])))
  | some _ => .error (.invalidArguments "leaf must be a regular file, not a symlink or special file")
  | none => .ok none

/-- `self.parent.physical_path.join(&self.leaf)`. -/
def ExactFileBinding.target (binding : ExactFileBinding) : List Name := binding.parent.physicalPath ++ [binding.leaf]

/-- `ExactFileBinding::validate`. -/
def ExactFileBinding.validate (binding : ExactFileBinding) : Except FileOperationError Unit := do
  physical binding.workspace.physicalPath
  physical binding.parent.physicalPath
  Tools.leaf binding.leaf
  reject (binding.workspace.physicalPath = [] ∨
      ¬binding.workspace.physicalPath <+: binding.parent.physicalPath ∨ binding.workspace.identityChain = [] ∨
      ¬binding.workspace.identityChain <+: binding.parent.identityChain)
    (.invalidArguments "target parent must retain the admitted workspace identity")
  reject (control binding.target ∨ control binding.workspace.physicalPath)
    (.invalidArguments "control resources are protected")
  forEach (fun root => do
    physical root
    reject (root <+: binding.target ∨ root <+: binding.workspace.physicalPath)
      (.invalidArguments "target overlaps protected resources")) binding.protectedRoots

/-- `ExactFileBinding::prepare`. -/
def ExactFileBinding.prepare (s : Snapshot) (workspace physicalTarget : List Name)
    (protectedRoots : List (List Name)) : Except FileOperationError ExactFileBinding := do
  physical workspace
  physical physicalTarget
  let leaf ← expect physicalTarget.getLast? (.invalidArguments "target has no parent")
  let root ← ExactDirectoryBinding.capture s workspace
  let parent ← ExactDirectoryBinding.capture s physicalTarget.dropLast
  let targetIdentity ← leafIdentity s physicalTarget.dropLast leaf
  let binding : ExactFileBinding := { workspace := root, parent, leaf, targetIdentity, protectedRoots }
  binding.validate
  reject (binding.parent.identityChain[binding.workspace.identityChain.length - 1]? ≠ some (s.identity workspace))
    (.invalidArguments "workspace changed during preparation")
  return binding

/-- `ExactFileIdentity`. -/
def ExactFileIdentity.toValue (i : ExactFileIdentity) : Value := .object [("dev", .nat i.dev), ("ino", .nat i.ino)]

/-- `ExactDirectoryBinding`. -/
def ExactDirectoryBinding.toValue (b : ExactDirectoryBinding) : Value :=
  .object [("physical_path", .string (physicalText b.physicalPath)),
    ("identity_chain", .list ExactFileIdentity.toValue b.identityChain)]

/-- `ExactFileBinding`. -/
def ExactFileBinding.toValue (b : ExactFileBinding) : Value :=
  .object [("workspace", b.workspace.toValue), ("parent", b.parent.toValue), ("leaf", .string (String.ofList b.leaf)),
    ("target_identity", .option ExactFileIdentity.toValue b.targetIdentity),
    ("protected_roots", .list (fun root => .string (physicalText root)) b.protectedRoots)]

end Exact

section IsolatedFile

/-- `IsolatedFileConfig`, as far as preparation reads it. -/
structure IsolatedFileConfig where
  workspace : List Name
  protectedRoots : List (List Name)
  fileLimits : FileOperationLimits
  maxOutputBytes : ℕ
  timeoutMs : ℕ

/-- `IsolatedFileError`. -/
inductive IsolatedFileError where
  | invalid (message : String)
  | uncertain (message : String)
  | prepared (error : PreparedError)
  | operation (error : FileOperationError)
  | sandbox | io
  deriving DecidableEq

/-- `IsolatedFileTools`, with what serde and its worker give it. -/
structure IsolatedFileTools where
  config : IsolatedFileConfig
  decode : ToolCall → Except String FileOperation
  adapterRevision : Except IsolatedFileError String

variable (sha256 : Value → String) (s : Snapshot) (tools : IsolatedFileTools)

/-- `IsolatedFileTools::operation`. -/
def IsolatedFileTools.operation (call : ToolCall) : Except IsolatedFileError FileOperation := do
  let operation ← mapError .invalid (tools.decode call)
  mapError .operation (validateOperation operation tools.config.fileLimits)
  return operation

/-- The resource of a target, in `prepare`: where it leads, or the entry that would
be created there. -/
def resolveTarget (target : List Name) : Except IsolatedFileError (List Name) :=
  match s.canonicalize target with
  | some resource => .ok resource
  | none => do
      let name ← expect target.getLast? (.invalid "target has no parent")
      let parent ← expect (s.canonicalize target.dropLast) .io
      return parent ++ [name]

/-- `capabilities`, in `prepare`. -/
def FileOperation.capabilities : FileOperation → List Capability
  | read _ => [.filesystemRead]
  | write .. => [.filesystemWrite]
  | edit .. => [.filesystemRead, .filesystemWrite]

/-- `effects`, in `prepare`. -/
def FileOperation.effects : FileOperation → List Effect
  | read _ => [.read]
  | write .. => [.create, .update]
  | edit .. => [.read, .update]

/-- The physical resource of an operation, in `prepare`. -/
def IsolatedFileTools.resource (operation : FileOperation) : Except IsolatedFileError (List Name) := do
  let target := tools.config.workspace ++ normals operation.path.toList
  reject (¬operation.isRead ∧ s.isSymlink target) (.invalid "replacement target must not be a symlink")
  let resource ← resolveTarget s target
  reject (¬tools.config.workspace <+: resource) (.invalid "resolved resource escapes workspace")
  return resource

/-- `IsolatedFileTools::prepare`. -/
def IsolatedFileTools.prepare (call : ToolCall) : Except IsolatedFileError PreparedCall := do
  let operation ← tools.operation call
  let resource ← tools.resource s operation
  let binding ← mapError .operation
    (ExactFileBinding.prepare s tools.config.workspace resource tools.config.protectedRoots)
  let revision ← tools.adapterRevision
  let prepared ← mapError .prepared (PreparedCall.new sha256 call revision
    { toolName := operation.name
      capabilities := operation.capabilities
      effects := operation.effects
      resource := { path := some (physicalText resource) }
      idempotency := if operation.isRead then .idempotent else .nonIdempotent }
    { processSandbox := true
      maxOutputBytes := tools.config.maxOutputBytes
      timeoutMs := tools.config.timeoutMs })
  mapError .prepared (prepared.withExecutionBinding sha256 binding.toValue)

end IsolatedFile

section IsolatedShell

/-- `IsolatedShellConfig`. -/
structure IsolatedShellConfig where
  workspace : List Name
  protectedRoots : List (List Name)
  maxCommandBytes : ℕ
  maxOutputBytes : ℕ
  timeoutMs : ℕ

/-- `ShellArguments`. -/
structure ShellArguments where
  command : String
  path : Option String

/-- `IsolatedShellError`. -/
inductive IsolatedShellError where
  | invalid (message : String)
  | prepared (error : PreparedError)
  | sandbox | io

/-- `IsolatedShellTool`, with what serde and the shell's executable give it. -/
structure IsolatedShellTool where
  config : IsolatedShellConfig
  decode : Value → Except String ShellArguments
  revision : List Name → Except IsolatedShellError String

variable (sha256 : Value → String) (s : Snapshot) (tool : IsolatedShellTool)

/-- `IsolatedShellTool::arguments`. -/
def IsolatedShellTool.arguments (call : ToolCall) : Except IsolatedShellError (ShellArguments × List Name) := do
  reject (call.name ≠ "shell") (.invalid "unsupported tool name")
  let arguments ← mapError .invalid (tool.decode call.arguments)
  reject (trimEmpty arguments.command ∨ arguments.command.utf8ByteSize > tool.config.maxCommandBytes ∨
      Char.ofNat 0 ∈ arguments.command.toList)
    (.invalid "command must be nonempty, NUL-free and bounded")
  let relative := arguments.path.getD "."
  reject (relative.isEmpty ∨ relative.utf8ByteSize > 4096 ∨ Char.ofNat 0 ∈ relative.toList)
    (.invalid "invalid working directory")
  reject (relative.toList.head? = some '/' ∨ (components relative.toList).any Component.escapes)
    (.invalid "working directory must be workspace-relative")
  let cwd ← expect (s.canonicalize (tool.config.workspace ++ pieces relative.toList)) .io
  reject (¬tool.config.workspace <+: cwd ∨ ¬s.isDir cwd)
    (.invalid "working directory escapes workspace or is not a directory")
  reject (tool.config.protectedRoots.any (·.isPrefixOf cwd) ∨ control (cwd.drop tool.config.workspace.length))
    (.invalid "working directory is protected")
  return (arguments, cwd)

/-- `IsolatedShellTool::prepare_with_context`. -/
def IsolatedShellTool.prepareWithContext (call : ToolCall) :
    Except IsolatedShellError (PreparedCall × ShellArguments × List Name) := do
  let (arguments, cwd) ← tool.arguments s call
  let revision ← tool.revision cwd
  let prepared ← mapError .prepared (PreparedCall.new sha256 call revision
    { toolName := "shell"
      capabilities := [.filesystemRead, .filesystemWrite, .processExecute]
      effects := [.read, .create, .update, .delete, .execute]
      resource := { path := some (physicalText tool.config.workspace) }
      idempotency := .nonIdempotent }
    { processSandbox := true
      maxOutputBytes := tool.config.maxOutputBytes
      timeoutMs := tool.config.timeoutMs })
  return (prepared, arguments, cwd)

/-- `IsolatedShellTool::prepare`. -/
def IsolatedShellTool.prepare (call : ToolCall) : Except IsolatedShellError PreparedCall := do
  let (prepared, _, _) ← tool.prepareWithContext sha256 s call
  return prepared

end IsolatedShell

section Restricted

/-- `Workspace`: the root as the host wrote it, and the physical path of the directory
that was opened there. -/
structure Workspace where
  path : List Char
  directory : Except String (List Name)

/-- `Workspace::relative`. -/
def Workspace.relative (path : List Char) : Except String (List Char) := do
  reject (path.head? = some '/' ∨ (components path).any Component.escapes) "path must stay below the configured tool root"
  return path

/-- `Path::join`, of a relative path. -/
def join (base relative : List Char) : List Char :=
  if base = [] ∨ base.getLast? = some '/' then base ++ relative else base ++ '/' :: relative

/-- `object.get(key).and_then(Value::as_str)`. -/
def textField (fields : List (String × Value)) (key : String) : Option String :=
  match fields.lookup key with
  | some (.string text) => some text
  | _ => none

/-- `arguments.as_object()`. -/
def asObject : Value → Option (List (String × Value))
  | .object fields => some fields
  | _ => none

/-- `RestrictedShellTool::tool_manifest`. -/
def shellManifest : ToolManifest where
  toolName := "shell.query"
  capabilities := [.processInspect]
  effects := [.read]
  pathScopes := []
  idempotency := .idempotent
  approval := .never

/-- The manifest of `file.read`. -/
def readManifest : ToolManifest where
  toolName := "file.read"
  capabilities := [.filesystemRead]
  effects := [.read]
  pathScopes := []
  idempotency := .idempotent
  approval := .never

/-- The manifest of `file.write`. -/
def writeManifest : ToolManifest where
  toolName := "file.write"
  capabilities := [.filesystemWrite]
  effects := [.create, .update]
  pathScopes := []
  idempotency := .nonIdempotent
  approval := .never

/-- `RestrictedFileTool::tool_manifests`. -/
def fileManifests : List ToolManifest := [readManifest, writeManifest]

variable (sha256 : Value → String) (root : Workspace)

/-- `prepare_restricted`. -/
def prepareRestricted (call : ToolCall) (manifest : ToolManifest) : Except ToolError PreparedCall := do
  reject (call.name ≠ manifest.toolName) (.unavailable call.name)
  let object ← expect (asObject call.arguments) (.failed "tool arguments must be an object")
  let path := (textField object "path").getD "."
  let relative ← mapError .failed (Workspace.relative path.toList)
  let _ ← mapError .failed root.directory
  mapError (fun error => .failed error.toString) (PreparedCall.new sha256 call
    ("restricted-v2/" ++ String.ofList root.path)
    { toolName := manifest.toolName
      capabilities := manifest.capabilities
      effects := manifest.effects
      resource := { path := some (String.ofList (join root.path relative)) }
      idempotency := manifest.idempotency }
    { processSandbox := false, maxOutputBytes := 1024 * 1024, timeoutMs := 30000 })

/-- `RestrictedShellTool::prepare`. -/
def RestrictedShellTool.prepare (call : ToolCall) : Except ToolError PreparedCall :=
  prepareRestricted sha256 root call shellManifest

/-- `RestrictedFileTool::prepare`. -/
def RestrictedFileTool.prepare (call : ToolCall) : Except ToolError PreparedCall := do
  let manifest ← expect (fileManifests.find? fun manifest => manifest.toolName = call.name) (.unavailable call.name)
  prepareRestricted sha256 root call manifest

end Restricted

end Tools
end Kolyan
