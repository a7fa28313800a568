/-
# The artifact store

`crates/kolyan-trace/src/artifacts.rs` and `artifacts/range.rs`.  The stores over
one root share a directory, which is a map from names to bytes, and its lock file.
A call is a program over the operations on files that the source asks for one after
the other, and it may crash between any two of them; every operation may fail, with
or without its effect.  A name is published atomically and never overwritten, and no
file is written in place, so that an open file is its content.
-/

import Kolyan.Value
import Kolyan.Lib.Checks
import Kolyan.Lib.Pools
import Kolyan.Lib.Serving
import Kolyan.Lib.OrderedMaps

namespace Kolyan
namespace Artifacts

open Checks Threads

/-- `Vec<u8>`. -/
abbrev Bytes := List UInt8

/-- `std::io::Error`, as far as its kind is looked at. -/
inductive IoError where
  | notFound
  | alreadyExists
  | other (message : String)
  deriving DecidableEq

/-- `Retention`. -/
inductive Retention where
  | required | optional
  deriving DecidableEq

/-- `ArtifactRef`. -/
structure ArtifactRef where
  digest : String
  byteLength : ℕ
  retention : Retention
  deriving DecidableEq

/-- `ArtifactError`. -/
inductive ArtifactError where
  | invalid (message : String)
  | integrity
  | required
  | io (error : IoError)
  deriving DecidableEq

/-- `ArtifactRangeLimits`. -/
structure ArtifactRangeLimits where
  maxVerifiedBytes : ℕ
  maxReturnedBytes : ℕ

/-- `ArtifactRange`. -/
structure ArtifactRange where
  offset : ℕ
  totalBytes : ℕ
  verifiedBytes : ℕ
  bytes : Bytes
  eof : Bool
  deriving DecidableEq

/-- `u64::MAX`. -/
def maxU64 : ℕ := 2 ^ 64 - 1

/-- `ArtifactStore`, less its root. -/
structure ArtifactStore where
  maxBytes : ℕ
  bounded : maxBytes ≠ 0 ∧ maxBytes < maxU64

/-- `ArtifactStore::new`. -/
def ArtifactStore.new (maxBytes : ℕ) : Except ArtifactError ArtifactStore :=
  if h : maxBytes ≠ 0 ∧ maxBytes < maxU64 then .ok ⟨maxBytes, h⟩ else .error (.invalid "invalid maximum size")

/-! ### The directory -/

/-- A root: its files, the call that has locked it and the calls that have crashed. -/
structure Root where
  entries : Std.ExtTreeMap String Bytes
  lock : Option ℕ
  crashed : List ℕ

/-- The operations on files. -/
inductive FileOp where
  | lock
  | unlock
  /-- A synced temporary file with these bytes. -/
  | stage (bytes : Bytes)
  /-- `persist_noclobber` of a temporary file with these bytes. -/
  | persist (name : String) (bytes : Bytes)
  | stat (name : String)
  | openFile (name : String)
  | metadata
  | readToEnd
  | unlink (name : String)
  | syncRoot
  deriving DecidableEq

/-- What they answer: an open file is its content. -/
@[reducible] def FileOp.Answer : FileOp → Type
  | unlock => Unit
  | openFile _ => Except IoError Bytes
  | lock | stage _ | persist _ _ | stat _ | metadata | readToEnd | unlink _ | syncRoot => Except IoError Unit

/-- What is found under a name. -/
def Root.find (root : Root) (name : String) : Except IoError Bytes := expect root.entries[name]? .notFound

/-- An operation of a call that does not fail. -/
def performFile (i : ℕ) (root : Root) : (o : FileOp) → o.Answer × Root
  | .lock => (.ok (), { root with lock := some i })
  | .unlock => ((), { root with lock := none })
  | .persist name bytes =>
    if root.entries[name]? = none then (.ok (), { root with entries := root.entries.insert name bytes })
    else (.error .alreadyExists, root)
  | .stat name => ((root.find name).map fun _ => (), root)
  | .openFile name => (root.find name, root)
  | .unlink name => ((root.find name).map fun _ => (), { root with entries := root.entries.erase name })
  | .stage _ | .metadata | .readToEnd | .syncRoot => (.ok (), root)

/-- The answer of an operation that fails. -/
def FileOp.failure (message : String) : (o : FileOp) → Option o.Answer
  | unlock => none
  | openFile _ => some (.error (.other message))
  | lock | stage _ | persist _ _ | stat _ | metadata | readToEnd | unlink _ | syncRoot => some (.error (.other message))

/-- What an operation of a call may answer and leave behind: a call that has not
crashed gets the lock once it is free, and a failed operation has had its effect or
not, a failed lock has not. -/
def FileActs (i : ℕ) (root : Root) (o : FileOp) (a : o.Answer) (root' : Root) : Prop :=
  i ∉ root.crashed ∧ ((o = .lock → root.lock = none) ∧ performFile i root o = (a, root') ∨
    (∃ message, o.failure message = some a) ∧ (root' = root ∨ o ≠ .lock ∧ root' = (performFile i root o).2))

/-- A call crashes, which frees the lock if it had it. -/
def Root.crash (root : Root) (i : ℕ) : Root where
  entries := root.entries
  lock := if root.lock = some i then none else root.lock
  crashed := i :: root.crashed

/-! ### The programs -/

/-- Programs of a store. -/
abbrev StoreProg := Fallible FileOp FileOp.Answer ArtifactError

/-- An operation whose error is an error of the store. -/
def fileIo {α : Type} (p : Prog FileOp FileOp.Answer (Except IoError α)) : StoreProg α :=
  Fallible.mapError .io (Fallible.ofProg p)

/-- `check_regular`: the entries of the directory are regular files. -/
def checkRegular (name : String) : StoreProg Unit := fileIo (.call (FileOp.stat name))

/-- `sync_root`. -/
def syncRoot : StoreProg Unit := fileIo (.call FileOp.syncRoot)

/-- What `publish` and `read` do alike: read a regular file of a given length. -/
def readFile (name : String) (length : ℕ) : StoreProg Bytes := do
  checkRegular name
  let content ← fileIo (.call (FileOp.openFile name))
  fileIo (.call FileOp.metadata)
  Fallible.lift (reject (content.length ≠ length) .integrity)
  fileIo (.call FileOp.readToEnd)
  return content.take (length + 1)

/-- `publish`. -/
def publish (name : String) (bytes : Bytes) : StoreProg Unit := do
  fileIo (.call (FileOp.stage bytes))
  let persisted ← Fallible.attempt (Fallible.ofProg (.call (FileOp.persist name bytes)))
  match persisted with
  | .ok () => syncRoot
  | .error .alreadyExists => do
    let existing ← readFile name bytes.length
    Fallible.lift (reject (existing ≠ bytes) .integrity)
    syncRoot
  | .error error => throw (.io error)

/-- `lock`, and the file that holds it dropped after the call. -/
def locked {α : Type} (p : StoreProg α) : StoreProg α := do
  fileIo (.call FileOp.lock)
  let r ← Fallible.attempt p
  Fallible.ofProg ((Prog.call FileOp.unlock).bind fun _ => .done r)

/-- A lowercase hexadecimal digit. -/
def isLowerHexDigit (c : Char) : Bool := ('0' ≤ c && c ≤ '9') || ('a' ≤ c && c ≤ 'f')

/-- 64 lowercase hexadecimal digits. -/
def isDigest (digest : String) : Bool := digest.utf8ByteSize = 64 && digest.toList.all isLowerHexDigit

/-- The name of a pin. -/
def pinName (digest : String) : String := digest ++ ".required"

/-- `b"required"`. -/
def pinBytes : Bytes := "required".toList.map fun c => c.val.toUInt8

section Store

variable (sha256 : Bytes → String) (store : ArtifactStore)

/-- `path`. -/
def ArtifactStore.path (reference : ArtifactRef) : Except ArtifactError String := do
  reject (isDigest reference.digest = false ∨ reference.byteLength > store.maxBytes) (.invalid "digest or size invalid")
  return reference.digest

/-- `ArtifactStore::read`. -/
def ArtifactStore.read (reference : ArtifactRef) (maxBytes : ℕ) : StoreProg Bytes := do
  let path ← Fallible.lift (store.path reference)
  Fallible.lift (reject (reference.byteLength > maxBytes) (.invalid "read bound exceeded"))
  let bytes ← readFile path reference.byteLength
  Fallible.lift (reject (bytes.length ≠ reference.byteLength ∨ sha256 bytes ≠ reference.digest) .integrity)
  return bytes

/-- What `put` does once the pin is there, if there has to be one. -/
def ArtifactStore.putObject (reference : ArtifactRef) (path : String) (bytes : Bytes) : StoreProg ArtifactRef := do
  publish path bytes
  let _ ← store.read sha256 reference store.maxBytes
  return reference

/-- What `put` does while it has the lock. -/
def ArtifactStore.putLocked (bytes : Bytes) (retention : Retention) : StoreProg ArtifactRef := do
  let reference : ArtifactRef := { digest := sha256 bytes, byteLength := bytes.length, retention }
  let path ← Fallible.lift (store.path reference)
  if retention = .required then publish (pinName reference.digest) pinBytes else pure ()
  store.putObject sha256 reference path bytes

/-- `ArtifactStore::put`. -/
def ArtifactStore.put (bytes : Bytes) (retention : Retention) : StoreProg ArtifactRef :=
  locked (store.putLocked sha256 bytes retention)

/-- What `remove` does while it has the lock. -/
def ArtifactStore.removeLocked (reference : ArtifactRef) : StoreProg Unit := do
  let path ← Fallible.lift (store.path reference)
  Fallible.lift (reject (reference.retention = .required) .required)
  let pin ← Fallible.attempt (Fallible.ofProg (.call (FileOp.stat (pinName reference.digest))))
  match pin with
  | .ok () => throw .required
  | .error .notFound => do
    let _ ← store.read sha256 reference store.maxBytes
    fileIo (.call (FileOp.unlink path))
    syncRoot
  | .error error => throw (.io error)

/-- `ArtifactStore::remove`. -/
def ArtifactStore.remove (reference : ArtifactRef) : StoreProg Unit := locked (store.removeLocked sha256 reference)

/-- `ArtifactStore::read_range`; a `usize` has 64 bits. -/
def ArtifactStore.readRange (reference : ArtifactRef) (offset length : ℕ) (limits : ArtifactRangeLimits) :
    StoreProg ArtifactRange := do
  Fallible.lift (reject (length = 0 ∨ limits.maxVerifiedBytes = 0 ∨ limits.maxVerifiedBytes = maxU64 ∨
      limits.maxReturnedBytes = 0 ∨ limits.maxReturnedBytes = maxU64)
    (.invalid "invalid range or verification bound"))
  Fallible.lift (reject (offset + length > maxU64) (.invalid "range addition overflow"))
  Fallible.lift (reject (length > limits.maxReturnedBytes) (.invalid "returned byte bound exceeded"))
  Fallible.lift (reject (offset > reference.byteLength) (.invalid "range starts beyond EOF"))
  let bytes ← store.read sha256 reference limits.maxVerifiedBytes
  let stop := min (offset + length) reference.byteLength
  return {
    offset
    totalBytes := reference.byteLength
    verifiedBytes := reference.byteLength
    bytes := (bytes.take stop).drop offset
    eof := stop = reference.byteLength }

end Store

/-! ### Calls -/

/-- The calls of any stores over the root. -/
inductive StoreCall where
  | put (store : ArtifactStore) (bytes : Bytes) (retention : Retention)
  | read (store : ArtifactStore) (reference : ArtifactRef) (maxBytes : ℕ)
  | readRange (store : ArtifactStore) (reference : ArtifactRef) (offset length : ℕ) (limits : ArtifactRangeLimits)
  | remove (store : ArtifactStore) (reference : ArtifactRef)

/-- What they answer. -/
inductive StoreAnswer where
  | stored (r : Except ArtifactError ArtifactRef)
  | content (r : Except ArtifactError Bytes)
  | range (r : Except ArtifactError ArtifactRange)
  | removed (r : Except ArtifactError Unit)
  deriving DecidableEq

/-- The program of a call. -/
def StoreCall.program (sha256 : Bytes → String) : StoreCall → Prog FileOp FileOp.Answer StoreAnswer
  | put store bytes retention => (store.put sha256 bytes retention).run.bind fun r => .done (.stored r)
  | read store reference maxBytes => (store.read sha256 reference maxBytes).run.bind fun r => .done (.content r)
  | readRange store reference offset length limits =>
    (store.readRange sha256 reference offset length limits).run.bind fun r => .done (.range r)
  | remove store reference => (store.remove sha256 reference).run.bind fun r => .done (.removed r)

/-- The roots without calls: any files, and nobody has the lock. -/
def Idle (root : Root) : Prop := root.lock = none ∧ root.crashed = []

end Artifacts
end Kolyan
