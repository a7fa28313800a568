/-
# The two executors of file operations

`FileOperations` works below a directory that it has pinned and replaces a file through a
temporary name next to it.  `execute_exact` runs in the worker, on the physical file of a
binding, and replaces it through a stage outside the workspace.  Both are programs over a
disk (`Tools/Disk`); a directory counts by its physical path.

A look at the directories answers for every step of one traversal.  The texts of system
errors are left out.
-/

import Kolyan.Tools.Disk
import Kolyan.Tools.Matching
import Kolyan.Tools.Receipts
import Kolyan.Tools.Sharing

namespace Kolyan
namespace Tools

open Paths (Name Node walk)
open Checks Threads
open Threads.Fallible (lift attempt)

section Common

/-- `str::eq_ignore_ascii_case`. -/
def eqIgnoreAsciiCase (a b : String) : Bool := a.toList.map Char.toLower = b.toList.map Char.toLower

/-- Whether a regular file is at a path. -/
def Snapshot.isFile (s : Snapshot) (path : List Name) : Bool :=
  match s.tree.at path with
  | some .file => true
  | _ => false

/-- `String::from_utf8`. -/
def decodeUtf8 (bytes : List UInt8) : Except FileOperationError String := mapError (fun _ => .invalidUtf8) (fromUtf8 bytes)

variable (sha256 : String → String)

/-- The result of an operation that left this content. -/
def resultOf (operation : FileOperation) (content : String) : FileOperationResult where
  path := operation.path
  bytes := content.utf8ByteSize
  sha256 := sha256 content
  content := if operation.isRead then some content else none

end Common

section Pinned

/-- `FileOperations`, of a process. -/
structure FileOperations where
  workspace : Workspace
  limits : FileOperationLimits
  processId : ℕ

/-- `relative_file`. -/
def relativeFile (relative : String) : Except FileOperationError (List Char) := do
  let path ← mapError .invalidArguments (Workspace.relative relative.toList)
  reject (relative.isEmpty ∨ Char.ofNat 0 ∈ path ∨ fileName path = none)
    (.invalidArguments "path must name a workspace-relative file")
  return path

variable (sha256 : String → String) (operations : FileOperations)

/-- `FileOperations::check_write`. -/
def FileOperations.checkWrite (content : String) : Except FileOperationError Unit :=
  reject (content.utf8ByteSize > operations.limits.maxWriteBytes) .writeLimitExceeded

/-- `FileOperations::validate`. -/
def FileOperations.validate (operation : FileOperation) : Except FileOperationError Unit := do
  let _ ← relativeFile operation.path
  match operation with
  | .write _ content => operations.checkWrite content
  | .edit _ oldText newText expectedSha256 => do
      reject (oldText.isEmpty) (.invalidArguments "old_text must not be empty")
      reject (oldText.utf8ByteSize > operations.limits.maxReadBytes) .readLimitExceeded
      operations.checkWrite newText
      reject (expectedSha256.any (!isHexDigest ·))
        (.invalidArguments "expected_sha256 must contain 64 hexadecimal characters")
  | .read _ => .ok ()

/-- Where `directory.open(path)` leads, physically. -/
def openedFile (s : Snapshot) (directory : List Name) (path : List Char) : Except FileOperationError (List Name) := do
  let node ← expect (s.tree.at directory) .io
  let relative ← expect (beneath s node false path) .io
  return directory ++ relative

/-- Where `directory.open_dir(path.parent())` leads, physically. -/
def openedParent (s : Snapshot) (directory : List Name) (path : List Char) : Except FileOperationError (List Name) := do
  let node ← expect (s.tree.at directory) .io
  let relative ← expect (walk node true false s.links [] (normals path).dropLast) .io
  reject (!s.isDir (directory ++ relative)) .io
  return directory ++ relative

/-- `FileOperations::read`. -/
def FileOperations.read (directory : List Name) (path : List Char) : DiskProgram String := do
  let s ← look
  let target ← lift (openedFile s.toSnapshot directory path)
  lift (reject (!s.isFile target) (.invalidArguments "path must name a regular file"))
  let bytes ← readToEnd target (min (operations.limits.maxReadBytes + 1) (2 ^ 64 - 1))
  lift (reject (bytes.length > operations.limits.maxReadBytes) .readLimitExceeded)
  lift (decodeUtf8 bytes)

/-- The name of a temporary file. -/
def FileOperations.temporary (parent : List Name) (sequence : ℕ) : List Name :=
  parent ++ [(".kolyan-write-" ++ toString operations.processId ++ "-" ++ toString sequence).toList]

/-- The closure of `atomic_replace`. -/
def commitTemporary (temporary target : List Name) (content : String) : DiskProgram Unit := do
  writeAll temporary (asBytes content)
  syncAll temporary
  rename temporary target

/-- The loop of `atomic_replace`, with so many names left to try. -/
def FileOperations.allocate (parent : List Name) (name : Name) (content : String) : ℕ → DiskProgram Unit
  | 0 => lift (.error (.invalidArguments "cannot allocate atomic replacement file"))
  | tries + 1 => do
      let sequence ← fetchAdd
      let temporary := operations.temporary parent sequence
      match ← createNew temporary with
      | .taken => FileOperations.allocate parent name content tries
      | .failed => lift (.error .io)
      | .created =>
          let result ← attempt (commitTemporary temporary (parent ++ [name]) content)
          match result with
          | .ok () => return ()
          | .error error =>
              removeFile temporary
              lift (.error error)

/-- `atomic_replace`. -/
def FileOperations.atomicReplace (directory : List Name) (path : List Char) (content : String) : DiskProgram Unit := do
  let s ← look
  let parent ← lift (openedParent s.toSnapshot directory path)
  let name ← lift (expect (fileName path) (.invalidArguments "missing file name"))
  let s ← look
  lift (reject ((s.tree.at (parent ++ [name])).isSome ∧ s.isFile (parent ++ [name]) = false)
    (.invalidArguments "replacement target must be a regular file, not a symlink"))
  operations.allocate parent name content 32

/-- The edit of `FileOperations::execute`, up to its replacement. -/
def FileOperations.edited (oldText newText : String) (expectedSha256 : Option String) (original : String) :
    DiskProgram String := do
  lift (reject (expectedSha256.any fun expected => !eqIgnoreAsciiCase (sha256 original) expected) .staleContent)
  let indices := matchIndices original oldText
  let index ← lift (expect indices.head? .missingMatch)
  lift (reject (indices.tail ≠ []) .ambiguousMatch)
  let replaced ← orPanic (replaceRange original index (index + oldText.utf8ByteSize) newText)
  lift (operations.checkWrite replaced)
  return replaced

/-- `FileOperations::execute`. -/
def FileOperations.execute (operation : FileOperation) : DiskProgram FileOperationResult := do
  lift (operations.validate operation)
  let path ← lift (relativeFile operation.path)
  let directory ← lift (mapError (fun _ => .io) operations.workspace.directory)
  match operation with
  | .read _ =>
      let content ← operations.read directory path
      return resultOf sha256 operation content
  | .write _ content =>
      operations.atomicReplace directory path content
      return resultOf sha256 operation content
  | .edit _ oldText newText expectedSha256 =>
      let original ← operations.read directory path
      let replaced ← operations.edited sha256 oldText newText expectedSha256 original
      operations.atomicReplace directory path replaced
      return resultOf sha256 operation replaced

end Pinned

section Exact

/-- `ExactFileStaging`. -/
structure ExactFileStaging where
  parent : ExactDirectoryBinding
  leaf : Name

/-- `ExactFileWorkerRequest`. -/
structure ExactFileWorkerRequest where
  operation : FileOperation
  binding : ExactFileBinding
  staging : Option ExactFileStaging

/-- `ExactDirectoryBinding::open`. -/
def ExactDirectoryBinding.reopen (b : ExactDirectoryBinding) (s : Snapshot) : Except FileOperationError Unit := do
  let observed ← traverse s b.physicalPath
  reject (observed ≠ b.identityChain) (.invalidArguments "directory identity changed")

/-- `ExactFileBinding::open`. -/
def ExactFileBinding.reopen (binding : ExactFileBinding) (s : Snapshot) : Except FileOperationError Unit := do
  binding.validate
  binding.workspace.reopen s
  binding.parent.reopen s
  let identity ← leafIdentity s binding.parent.physicalPath binding.leaf
  reject (identity ≠ binding.targetIdentity) (.invalidArguments "target identity changed")

/-- The path of the stage. -/
def ExactFileStaging.path (stage : ExactFileStaging) : List Name := stage.parent.physicalPath ++ [stage.leaf]

/-- `ExactFileStaging::open`. -/
def ExactFileStaging.reopen (stage : ExactFileStaging) (binding : ExactFileBinding) (s : Listing) :
    Except FileOperationError Unit := do
  Tools.leaf stage.leaf
  reject (binding.workspace.physicalPath <+: stage.parent.physicalPath ∨ control stage.path ∨
      ∃ root ∈ binding.protectedRoots, root <+: stage.path ∧
        (stage.parent.physicalPath = [] ∨ stage.parent.physicalPath.dropLast ≠ root))
    (.invalidArguments "stage must be outside workspace and protected resources")
  stage.parent.reopen s.toSnapshot
  reject ((s.identity stage.parent.physicalPath).dev ≠ (s.identity binding.parent.physicalPath).dev)
    (.invalidArguments "stage and target must share a filesystem")
  reject (s.mode stage.parent.physicalPath &&& 0o077 ≠ 0) (.invalidArguments "stage parent must be host-private")
  let identity ← leafIdentity s.toSnapshot stage.parent.physicalPath stage.leaf
  reject identity.isSome (.invalidArguments "stage leaf must be absent")

/-- What `read_content` asks of the file that it has opened. -/
def openedTarget (s : Snapshot) (binding : ExactFileBinding) : Except FileOperationError Unit :=
  match s.tree.at binding.target with
  | some .file => reject (some (s.identity binding.target) ≠ binding.targetIdentity)
      (.invalidArguments "opened target does not match prepared regular file identity")
  | some (.dir _) =>
      .error (.invalidArguments "opened target does not match prepared regular file identity")
  | _ => .error .io

variable (sha256 : String → String) (request : ExactFileWorkerRequest) (limits : FileOperationLimits)

/-- `read_content`. -/
def readContent : DiskProgram String := do
  let s ← look
  lift (openedTarget s.toSnapshot request.binding)
  let bytes ← readToEnd request.binding.target (limits.maxReadBytes + 1)
  lift (reject (bytes.length > limits.maxReadBytes) .readLimitExceeded)
  lift (decodeUtf8 bytes)

/-- The edit of `execute_exact`. -/
def exactEdited (oldText newText : String) (expectedSha256 : Option String) (original : String) :
    DiskProgram String := do
  lift (reject (expectedSha256.any fun expected => !eqIgnoreAsciiCase (sha256 original) expected) .staleContent)
  let indices := matchIndices original oldText
  let index ← lift (expect indices.head? .missingMatch)
  lift (reject (indices.tail ≠ []) .ambiguousMatch)
  let content ← orPanic (replaceRange original index (index + oldText.utf8ByteSize) newText)
  lift (reject (content.utf8ByteSize > limits.maxWriteBytes) .writeLimitExceeded)
  return content

/-- `content`, in `execute_exact`. -/
def exactContent : DiskProgram String :=
  match request.operation with
  | .read _ => readContent request limits
  | .write _ content => return content
  | .edit _ oldText newText expectedSha256 => do
      let original ← readContent request limits
      exactEdited sha256 limits oldText newText expectedSha256 original

/-- The closure of `execute_exact`. -/
def commitStage (stage : ExactFileStaging) (content : String) : DiskProgram Unit := do
  writeAll stage.path (asBytes content)
  syncAll stage.path
  let s ← look
  let identity ← lift (leafIdentity s.toSnapshot request.binding.parent.physicalPath request.binding.leaf)
  lift (reject (identity ≠ request.binding.targetIdentity) (.invalidArguments "target changed before commit"))
  rename stage.path request.binding.target

/-- The replacement of `execute_exact`, through a stage. -/
def replaceThrough (stage : ExactFileStaging) (content : String) : DiskProgram Unit := do
  match ← createNew stage.path with
  | .taken | .failed => lift (.error .io)
  | .created =>
      let result ← attempt (commitStage request stage content)
      match result with
      | .ok () => return ()
      | .error error =>
          removeFile stage.path
          lift (.error error)

/-- The stage of a request, opened. -/
def openStage : DiskProgram Unit :=
  match request.staging with
  | none => return ()
  | some stage => do
      let s ← look
      lift (stage.reopen request.binding s)

/-- `execute_exact`. -/
def executeExact : DiskProgram FileOperationResult := do
  lift (validateOperation request.operation limits)
  lift (reject (request.operation.isRead ≠ request.staging.isNone)
    (.invalidArguments "reads prohibit staging; replacements require staging"))
  let s ← look
  lift (request.binding.reopen s.toSnapshot)
  openStage request
  let content ← exactContent sha256 request limits
  match request.staging with
  | none => return resultOf sha256 request.operation content
  | some stage =>
      replaceThrough request stage content
      return resultOf sha256 request.operation content

end Exact

end Tools
end Kolyan
