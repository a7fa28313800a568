/-
# The coordination fact journal

`crates/kolyan-ledger/src/facts.rs`: the records, the batch validation, the
append plan and `MemoryFactJournal`.  Positions and lengths are `u64` in the
source and natural numbers here; `validate_batch` refuses every batch that
would end above `i64::MAX`, so no sum of the journal wraps.
-/

import Kolyan.Value
import Kolyan.Lib.Checks

namespace Kolyan
namespace Facts

open Checks

/-- `MAX_FACT_PAYLOAD_BYTES`. -/
def maxFactPayloadBytes : ℕ := 128 * 1024

/-- `MAX_FACT_BATCH`. -/
def maxFactBatch : ℕ := 64

/-- `MAX_FACT_CAUSES`. -/
def maxFactCauses : ℕ := 32

/-- `MAX_FACT_ID_BYTES`. -/
def maxFactIdBytes : ℕ := 256

/-- `i64::MAX as u64`. -/
def i64Max : ℕ := 2 ^ 63 - 1

/-- `FactSubject`. -/
structure FactSubject where
  kind : String
  id : String
  deriving DecidableEq

/-- `FactRef`: the coordinates of a committed fact. -/
structure FactRef where
  streamId : String
  position : ℕ
  factId : String
  deriving DecidableEq

/-- `FactDraft`: a fact before the journal gives it a position. -/
structure FactDraft where
  factId : String
  subject : FactSubject
  kind : String
  schemaVersion : ℕ
  critical : Bool
  causes : List FactRef
  payload : Value
  deriving DecidableEq

/-- `FactRecord`: a committed fact. -/
structure FactRecord where
  streamId : String
  position : ℕ
  draft : FactDraft
  deriving DecidableEq

/-- `FactError`. -/
inductive FactError where
  | invalid (message : String)
  | conflict (factId : String)
  | stalePosition (expected actual : ℕ)
  | missingCause (factId : String)
  | storage (message : String)
  deriving DecidableEq

/-- `identity`: nonempty after trimming, at most 256 bytes. -/
def identity (value : String) : Except FactError Unit :=
  reject (trimEmpty value ∨ value.utf8ByteSize > maxFactIdBytes)
    (.invalid "identity must be nonempty and at most 256 bytes")

/-- A byte of a namespace segment. -/
def isSegmentChar (c : Char) : Bool := isAsciiAlphanumeric c || c = '_' || c = '-'

/-- `kind`: an identity of nonempty dotted namespace segments. -/
def kind (value : String) : Except FactError Unit := do
  identity value
  reject (¬value.toList.contains '.' ∨
      (value.toList.splitOn '.').any fun part => part.isEmpty || !part.all isSegmentChar)
    (.invalid "kind must contain nonempty dotted namespace segments")

/-- `validate_read`. -/
def validateRead (stream : String) (limit : ℕ) : Except FactError Unit := do
  identity stream
  reject (¬(1 ≤ limit ∧ limit ≤ 1024)) (.invalid "read limit must be 1..=1024")

/-- The coordinates of one cause, as `validate_batch` bounds them. -/
def validateCause (cause : FactRef) : Except FactError Unit := do
  identity cause.streamId
  identity cause.factId
  reject (cause.position = 0 ∨ cause.position > i64Max) (.invalid "cause position is out of bounds")

/-- One draft of `validate_batch`, after the fact ids in `seen`. -/
def validateDraft (seen : List String) (draft : FactDraft) : Except FactError Unit := do
  identity draft.factId
  identity draft.subject.id
  kind draft.subject.kind
  kind draft.kind
  reject (draft.schemaVersion = 0 ∨ draft.causes.length > maxFactCauses ∨
      draft.payload.encodedLen > maxFactPayloadBytes)
    (.invalid "version, causes or payload exceeds bounds")
  reject (draft.factId ∈ seen) (.conflict draft.factId)
  forEach validateCause draft.causes

/-- The drafts of a batch in order, each after the fact ids before it. -/
def validateDrafts (seen : List String) : List FactDraft → Except FactError Unit
  | [] => .ok ()
  | draft :: rest => do
      validateDraft seen draft
      validateDrafts (draft.factId :: seen) rest

/-- `validate_batch`. -/
def validateBatch (stream : String) (expected : ℕ) (batch : List FactDraft) :
    Except FactError Unit := do
  identity stream
  reject (batch = [] ∨ batch.length > maxFactBatch ∨ expected + batch.length > i64Max)
    (.invalid "batch size or position exceeds bounds")
  validateDrafts [] batch

/-- The records a batch becomes after position `expected`. -/
def plannedRecords (stream : String) : ℕ → List FactDraft → List FactRecord
  | _, [] => []
  | expected, draft :: rest =>
      ⟨stream, expected + 1, draft⟩ :: plannedRecords stream (expected + 1) rest

/-- `retry`: an identical batch gets the original records back. -/
def retry (original : List FactRecord) (batch : List FactDraft) :
    Except FactError (List FactRecord) :=
  if original.map (·.draft) = batch then .ok original
  else .error (.conflict "partial or changed batch retry")

/-- The record a cause names: an earlier one of the batch, else a committed one. -/
def resolveCause (lookup : String → Option FactRecord) (earlier : List FactRecord)
    (cause : FactRef) : Option FactRecord :=
  (earlier.find? fun r => r.draft.factId = cause.factId).or (lookup cause.factId)

/-- A cause resolves when the record it names has exactly its coordinates. -/
def causeResolves (lookup : String → Option FactRecord) (earlier : List FactRecord)
    (cause : FactRef) : Bool :=
  (resolveCause lookup earlier cause).any fun r =>
    r.streamId = cause.streamId && r.position = cause.position && r.draft.factId = cause.factId

/-- The causes of every record in order, each after the records before it. -/
def checkCauses (lookup : String → Option FactRecord) (earlier : List FactRecord) :
    List FactRecord → Except FactError Unit
  | [] => .ok ()
  | record :: rest => do
      forEach (fun cause => reject (¬causeResolves lookup earlier cause)
        (.missingCause cause.factId)) record.draft.causes
      checkCauses lookup (earlier ++ [record]) rest

/-- `plan_append`. -/
def planAppend (stream : String) (expected head : ℕ) (batch : List FactDraft)
    (lookup : String → Option FactRecord) : Except FactError (List FactRecord) := do
  let records := plannedRecords stream expected batch
  reject (records.any fun r => (lookup r.draft.factId).isSome)
    (.conflict "partial or changed batch retry")
  reject (expected ≠ head) (.stalePosition expected head)
  checkCauses lookup [] records
  pure records

/-- `MemoryState`: the streams, the fact identities over all of them, and the
batch committed after each position of a stream. -/
structure MemoryState where
  streams : Std.ExtTreeMap String (List FactRecord)
  identities : Std.ExtTreeMap String FactRecord
  batches : Std.ExtTreeMap String (Std.ExtTreeMap ℕ (List FactRecord))

namespace MemoryState

/-- `MemoryState::default()`. -/
def empty : MemoryState := ⟨∅, ∅, ∅⟩

/-- The committed records of a stream. -/
def rows (state : MemoryState) (stream : String) : List FactRecord := state.streams.getD stream []

/-- The batch committed after a position of a stream. -/
def batchAt (state : MemoryState) (stream : String) (expected : ℕ) : Option (List FactRecord) :=
  (state.batches.getD stream ∅)[expected]?

/-- The position of the last record of a stream, `0` when it is empty. -/
def head (state : MemoryState) (stream : String) : ℕ :=
  match (state.rows stream).getLast? with
  | some r => r.position
  | none => 0

/-- Put a planned batch in the three tables. -/
def commit (state : MemoryState) (stream : String) (expected : ℕ) (records : List FactRecord) :
    MemoryState where
  streams := state.streams.insert stream (state.rows stream ++ records)
  identities := records.foldl (fun ids r => ids.insert r.draft.factId r) state.identities
  batches := state.batches.insert stream ((state.batches.getD stream ∅).insert expected records)

/-- `MemoryFactJournal::read`. -/
def read (state : MemoryState) (stream : String) (after limit : ℕ) :
    Except FactError (List FactRecord) := do
  validateRead stream limit
  pure (((state.rows stream).filter fun r => r.position > after).take limit)

/-- What `MemoryFactJournal::append` answers and, when it accepts a new batch,
the records it commits. -/
def plan (state : MemoryState) (stream : String) (expected : ℕ) (batch : List FactDraft) :
    Except FactError (List FactRecord × Bool) := do
  validateBatch stream expected batch
  match state.batchAt stream expected with
  | some original => do
      let records ← retry original batch
      pure (records, false)
  | none => do
      let records ← planAppend stream expected (state.head stream) batch fun id => state.identities[id]?
      pure (records, true)

/-- `MemoryFactJournal::append`: one critical section under the state lock. -/
def append (state : MemoryState) (stream : String) (expected : ℕ) (batch : List FactDraft) :
    Except FactError (List FactRecord) × MemoryState :=
  match state.plan stream expected batch with
  | .ok (records, true) => (.ok records, state.commit stream expected records)
  | .ok (records, false) => (.ok records, state)
  | .error e => (.error e, state)

end MemoryState

end Facts
end Kolyan
