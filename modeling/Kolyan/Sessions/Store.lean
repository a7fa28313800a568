/-
# Stored Sessions

`FileSessionStore` (`kolyan-storage/src/session.rs`, `initialization.rs`): one file
a Session, read and replaced as a whole under a lock that every handle takes, so
that the calls of all handles happen one after the other.  A file is written
under another name and renamed, so a call that fails leaves the file as it was,
unless it fails after the rename: then the record is stored although the call
answers an error.  A process that dies in a call is one of the two.
-/

import Kolyan.Driver.Ports
import Kolyan.Lib.Histories
import Kolyan.Tasks.Input

namespace Kolyan
namespace Sessions

open Checks
open Driver (SessionTurn SessionTurnStatus)
open Tasks (isLowerHexDigit)

/-- The failures that the file system and the codec give. -/
inductive Fault where
  | io (message : String)
  | serialization (message : String)
  deriving DecidableEq

/-- `StorageError`. -/
inductive StorageError where
  | failed (fault : Fault)
  | notFound (id : String)
  | conflict (message : String)
  | invalidId
  deriving DecidableEq

/-- `SessionInitialization`. -/
structure SessionInitialization where
  bindingDigest : String
  messages : List Message
  deriving DecidableEq

/-- `SessionContextPolicy`. -/
inductive SessionContextPolicy where
  | conversationOnly | fullTrajectory
  deriving DecidableEq

/-- `SessionTurnInput`. -/
structure SessionTurnInput where
  baseVersion : ℕ
  historyLen : ℕ
  messages : List Message
  contextPolicy : SessionContextPolicy
  deriving DecidableEq

/-- `SessionRecord`.  A version counts the writes of one file, each of which is
for a Turn that the file lists, so it stays far below the end of its type. -/
structure SessionRecord where
  sessionId : String
  initialization : Option SessionInitialization
  version : ℕ
  turns : List SessionTurn
  messages : List Message
  contextMessages : List Message
  inputs : Std.ExtTreeMap String SessionTurnInput
  commits : Std.ExtTreeMap String (List Message)
  contextCommits : Std.ExtTreeMap String (List Message)
  deriving DecidableEq

/-- What the disk does in one call.  A lock that is poisoned is one that cannot be
taken; what a write answers before the rename leaves the file as it was. -/
inductive Disk where
  | works
  | unlocked (error : StorageError)
  | unreadable (fault : Fault)
  | unwritten (fault : Fault)
  | unsynced (message : String)

/-- What a call makes of the file that it read: the record as it is, or a new one. -/
inductive Outcome where
  | kept (record : SessionRecord)
  | written (record : SessionRecord)

/-- The Turn still runs or waits. -/
def isOpen : SessionTurnStatus → Bool
  | .running | .suspended => true
  | .completed | .cancelled | .failed => false

section Calls

/-- `MAX_INITIALIZATION_BYTES`. -/
def maxInitializationBytes : ℕ := 16 * 1024 * 1024

/-- `SessionInitialization::validate`; `encodedLen` is the length of its JSON. -/
def SessionInitialization.validate (encodedLen : SessionInitialization → ℕ) (initialization : SessionInitialization) :
    Except StorageError Unit := do
  reject (initialization.bindingDigest.utf8ByteSize ≠ 64 ∨
      initialization.bindingDigest.toList.all isLowerHexDigit = false)
    (.conflict "invalid context binding digest")
  reject (encodedLen initialization > maxInitializationBytes) (.conflict "initial context exceeds 16 MiB")

/-- `FileSessionStore::path`: the ids that name a file. -/
def path (sessionId : String) : Except StorageError Unit :=
  reject (sessionId = "" ∨ sessionId = "." ∨ sessionId = ".." ∨ '/' ∈ sessionId.toList ∨ '\\' ∈ sessionId.toList)
    .invalidId

/-- `FileSessionStore::read`. -/
def read (disk : Disk) (sessionId : String) (file : Option SessionRecord) : Except StorageError SessionRecord :=
  match disk with
  | .unreadable fault => .error (.failed fault)
  | _ => expect file (.notFound sessionId)

/-- `FileSessionStore::write`: the answer, and the file afterwards. -/
def write (disk : Disk) (file : Option SessionRecord) (record : SessionRecord) :
    Except StorageError SessionRecord × Option SessionRecord :=
  match disk with
  | .unwritten fault => (.error (.failed fault), file)
  | .unsynced message => (.error (.failed (.io message)), some record)
  | _ => (.ok record, some record)

/-- A Turn that cannot start beside those of the record. -/
def SessionRecord.clashes (record : SessionRecord) (turn : SessionTurn) : Bool :=
  record.turns.any fun item => item.turnId = turn.turnId || item.executionId = turn.executionId || isOpen item.status

/-- The history that a Turn under a policy starts from. -/
def SessionRecord.history (record : SessionRecord) : SessionContextPolicy → List Message
  | .conversationOnly => record.messages
  | .fullTrajectory => record.contextMessages

/-- The record with a Turn more. -/
def SessionRecord.push (record : SessionRecord) (turn : SessionTurn) : SessionRecord :=
  { record with turns := record.turns ++ [turn], version := record.version + 1 }

/-- The record with the input of a Turn. -/
def SessionRecord.withInput (record : SessionRecord) (turnId : String) (messages : List Message)
    (policy : SessionContextPolicy) : SessionRecord :=
  { record with
    inputs := record.inputs.insert turnId
      { baseVersion := record.version, historyLen := (record.history policy).length, messages, contextPolicy := policy } }

/-- `FileSessionStore::begin`. -/
def beginTurn (disk : Disk) (sessionId : String) (file : Option SessionRecord) (turn : SessionTurn)
    (input : Option (ℕ × List Message × SessionContextPolicy)) : Except StorageError Outcome := do
  path sessionId
  let record ← read disk sessionId file
  reject (record.clashes turn) (.conflict "session has an active or duplicate Turn")
  match input with
  | none => return .written (record.push turn)
  | some (version, messages, policy) => do
    reject (record.version ≠ version) (.conflict "session context version changed")
    return .written ((record.withInput turn.turnId messages policy).push turn)

/-- The record of a new Session. -/
def SessionRecord.fresh (sessionId : String) (initialization : Option SessionInitialization) : SessionRecord where
  sessionId := sessionId
  initialization := initialization
  version := 0
  turns := []
  messages := initialization.elim [] (·.messages)
  contextMessages := initialization.elim [] (·.messages)
  inputs := ∅
  commits := ∅
  contextCommits := ∅

/-- `FileSessionStore::create`.  `Path::exists` answers `false` of a file that
cannot be looked at. -/
def create (disk : Disk) (sessionId : String) (file : Option SessionRecord) : Except StorageError Outcome := do
  path sessionId
  let there : Bool := match disk with
    | .unreadable _ => false
    | _ => file.isSome
  reject there (.conflict sessionId)
  return .written (SessionRecord.fresh sessionId none)

/-- `FileSessionStore::load`. -/
def load (disk : Disk) (sessionId : String) (file : Option SessionRecord) : Except StorageError Outcome := do
  path sessionId
  let record ← read disk sessionId file
  return .kept record

/-- The status of the first Turn with an id. -/
def setStatus (turnId : String) (status : SessionTurnStatus) : List SessionTurn → List SessionTurn
  | [] => []
  | turn :: turns =>
    if turn.turnId = turnId then { turn with status } :: turns else turn :: setStatus turnId status turns

/-- The record with the end of a Turn committed. -/
def SessionRecord.commit (record : SessionRecord) (turnId : String) (status : SessionTurnStatus)
    (messages context : List Message) : SessionRecord :=
  { record with
    turns := setStatus turnId status record.turns
    commits := record.commits.insert turnId messages
    contextCommits := record.contextCommits.insert turnId context
    contextMessages := record.contextMessages ++ context
    messages := record.messages ++ messages
    version := record.version + 1 }

/-- `FileSessionStore::update_turn_with_context`. -/
def updateTurnWithContext (disk : Disk) (sessionId : String) (file : Option SessionRecord) (turnId : String)
    (status : SessionTurnStatus) (messages context : List Message) : Except StorageError Outcome := do
  path sessionId
  let record ← read disk sessionId file
  let turn ← expect (record.turns.find? (·.turnId = turnId)) (.notFound turnId)
  if turn.status = status ∧ record.commits[turnId]? = some messages ∧ record.contextCommits[turnId]? = some context then
    return .kept record
  else do
    reject (isOpen turn.status = false) (.conflict "terminal Turn commit cannot change")
    return .written (record.commit turnId status messages context)

/-- The record with a Turn and its messages. -/
def SessionRecord.append (record : SessionRecord) (turn : SessionTurn) (messages : List Message) : SessionRecord :=
  { record.push turn with
    contextMessages := record.contextMessages ++ messages
    messages := record.messages ++ messages }

/-- `FileSessionStore::append_turn`. -/
def appendTurn (disk : Disk) (sessionId : String) (file : Option SessionRecord) (turn : SessionTurn)
    (messages : List Message) : Except StorageError Outcome := do
  path sessionId
  let record ← read disk sessionId file
  reject (record.clashes turn) (.conflict turn.turnId)
  return .written (record.append turn messages)

/-- `FileSessionStore::initialize_context`. -/
def initializeContext (disk : Disk) (sessionId : String) (file : Option SessionRecord)
    (initialization : SessionInitialization) : Except StorageError Outcome := do
  path sessionId
  match read disk sessionId file with
  | .ok record => do
    reject (record.sessionId ≠ sessionId ∨ record.initialization ≠ some initialization)
      (.conflict "context initialization differs from saved binding")
    return .kept record
  | .error (.notFound _) => return .written (SessionRecord.fresh sessionId (some initialization))
  | .error error => .error error

end Calls

/-- The calls of a `SessionStore`. -/
inductive SessionCall where
  | initializeContext (initialization : SessionInitialization)
  | create
  | load
  | beginTurn (turn : SessionTurn)
  | beginTurnWithProjection (turn : SessionTurn) (expectedVersion : ℕ) (messages : List Message)
      (policy : SessionContextPolicy)
  | updateTurnWithContext (turnId : String) (status : SessionTurnStatus) (messages context : List Message)
  | appendTurn (turn : SessionTurn) (messages : List Message)

/-- `begin_turn_with_input`. -/
def SessionCall.beginTurnWithInput (turn : SessionTurn) (expectedVersion : ℕ) (messages : List Message) : SessionCall :=
  .beginTurnWithProjection turn expectedVersion messages .fullTrajectory

/-- `update_turn`. -/
def SessionCall.updateTurn (turnId : String) (status : SessionTurnStatus) (messages : List Message) : SessionCall :=
  .updateTurnWithContext turnId status messages messages

/-- A call for one Session, and what the disk does in it. -/
structure Request where
  sessionId : String
  call : SessionCall
  disk : Disk

/-- The files of a store. -/
abbrev SessionFiles := String → Option SessionRecord

section Store

variable (encodedLen : SessionInitialization → ℕ)

/-- The lock, which an initialization takes after its own checks. -/
def Disk.lock : Disk → Except StorageError Unit
  | .unlocked error => .error error
  | _ => .ok ()

/-- What a call makes of its file. -/
def SessionCall.outcome (disk : Disk) (sessionId : String) (file : Option SessionRecord) :
    SessionCall → Except StorageError Outcome
  | .initializeContext initialization => do
      initialization.validate encodedLen
      disk.lock
      Sessions.initializeContext disk sessionId file initialization
  | .create => do disk.lock; Sessions.create disk sessionId file
  | .load => do disk.lock; Sessions.load disk sessionId file
  | .beginTurn turn => do disk.lock; Sessions.beginTurn disk sessionId file turn none
  | .beginTurnWithProjection turn expectedVersion messages policy => do
      disk.lock
      Sessions.beginTurn disk sessionId file turn (some (expectedVersion, messages, policy))
  | .updateTurnWithContext turnId status messages context => do
      disk.lock
      Sessions.updateTurnWithContext disk sessionId file turnId status messages context
  | .appendTurn turn messages => do disk.lock; Sessions.appendTurn disk sessionId file turn messages

/-- The answer to a request, and its file afterwards. -/
def Request.serve (request : Request) (file : Option SessionRecord) :
    Except StorageError SessionRecord × Option SessionRecord :=
  match request.call.outcome encodedLen request.disk request.sessionId file with
  | .error error => (.error error, file)
  | .ok (.kept record) => (.ok record, file)
  | .ok (.written record) => write request.disk file record

/-- A store as a machine. -/
def sessionStore : Machine Request (fun _ => Except StorageError SessionRecord) SessionFiles where
  step files request :=
    let served := request.serve encodedLen (files request.sessionId)
    (served.1, Function.update files request.sessionId served.2)

end Store

end Sessions
end Kolyan
