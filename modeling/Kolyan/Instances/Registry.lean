/-
# The registry of instances

`crates/kolyan-server/src/instance_registry.rs`: one stream of permanent
reservations for a host namespace.  Each call reads the whole stream page by page
(`load`), and `reserve` appends at the head that it read and tries again when it
lost a race.  Between two operations of a call the journal is free for others, so
a call is a program over reads and appends.  Positions stay at or below the
capacity of a registry and are natural numbers here; `serde` and `sha2` are the
fields of `RegistryCodec`, and the maps of a snapshot, of which only lookups and
sizes are used, are lists.
-/

import Kolyan.Facts.Contract
import Kolyan.Lib.Pools

namespace Kolyan
namespace Instances

open Checks Threads Facts

/-- `MAX_RESERVATIONS`. -/
def maxReservations : ℕ := 65536

/-- `MAX_CAS_ATTEMPTS`. -/
def maxCasAttempts : ℕ := 32

/-- `PAGE_SIZE`. -/
def pageSize : ℕ := 256

/-- `KIND`. -/
def reservedKind : String := "agent.instance_reserved"

/-- `InstanceOwner`. -/
structure InstanceOwner where
  logicalSessionId : String
  taskId : String
  invocationId : String
  deriving DecidableEq

/-- `InstanceReservation`. -/
structure InstanceReservation where
  instanceId : String
  fact : FactRef
  deriving DecidableEq

/-- `InstanceRegistryError`. -/
inductive InstanceRegistryError where
  | journal (error : FactError)
  | invalid (message : String)
  | unknownSchema (version : ℕ)
  | corrupt (message : String)
  | conflictingOwner (instanceId : String)
  | capacity
  | contention
  deriving DecidableEq

/-- `FactError::to_string`. -/
def factText : FactError → String
  | .invalid message => "invalid coordination fact: " ++ message
  | .conflict factId => "coordination fact conflict: " ++ factId
  | .stalePosition expected actual =>
      "stale stream position: expected " ++ toString expected ++ ", actual " ++ toString actual
  | .missingCause factId => "causal reference does not resolve exactly: " ++ factId
  | .storage message => "coordination storage failed: " ++ message

/-- `InstanceRegistryError::to_string`. -/
def InstanceRegistryError.toString : InstanceRegistryError → String
  | journal error => "instance registry journal: " ++ factText error
  | invalid message => "invalid instance registry admission: " ++ message
  | unknownSchema version => "unknown instance reservation schema: " ++ ToString.toString version
  | corrupt message => "corrupt instance reservation: " ++ message
  | conflictingOwner instanceId => "instance is bound to conflicting owners: " ++ instanceId
  | capacity => "instance registry capacity exhausted"
  | contention => "instance registry CAS contention exceeded its retry bound"

/-- `Reserved`. -/
structure Reserved where
  hostNamespace : String
  owner : InstanceOwner
  instanceId : String

/-- `InstanceOwner`, in the order of its fields. -/
def InstanceOwner.toValue (owner : InstanceOwner) : Value :=
  .object [("logical_session_id", .string owner.logicalSessionId), ("task_id", .string owner.taskId),
    ("invocation_id", .string owner.invocationId)]

/-- `serde_json::to_value` of a reservation: a value with sorted maps. -/
def Reserved.toValue (reserved : Reserved) : Value :=
  Value.canonical (.object [("host_namespace", .string reserved.hostNamespace), ("owner", reserved.owner.toValue),
    ("instance_id", .string reserved.instanceId)])

/-- What the registry takes from outside the repository: the hexadecimal digest of
a text, that of a document's compact encoding, and `serde`'s decoder. -/
structure RegistryCodec where
  sha256Text : String → String
  sha256 : Value → String
  decodeReserved : Value → Except String Reserved

/-- `InstanceRegistry`, less its journal. -/
structure InstanceRegistry where
  hostNamespace : String
  namespaceDigest : String
  stream : String
  capacity : ℕ
  deriving DecidableEq

/-- `Snapshot`. -/
structure Snapshot where
  head : ℕ
  owners : List (InstanceOwner × InstanceReservation)

/-- The variables of the loop of `load`. -/
structure Loading extends Snapshot where
  instances : List (String × InstanceOwner)

/-- `identity`. -/
def identity (value : String) : Except InstanceRegistryError Unit :=
  reject (trimEmpty value ∨ value.utf8ByteSize > 256 ∨ value.toList.any isControl)
    (.invalid "identity must be nonempty, at most 256 bytes and control-free")

/-- `validate_owner`. -/
def validateOwner (owner : InstanceOwner) : Except InstanceRegistryError Unit :=
  forEach identity [owner.logicalSessionId, owner.taskId, owner.invocationId]

/-- An operation of a journal. -/
inductive JournalOp where
  | read (stream : String) (after limit : ℕ)
  | append (stream : String) (expected : ℕ) (batch : List FactDraft)

/-- What it answers. -/
@[reducible] def JournalOp.Answer : JournalOp → Type
  | read _ _ _ | append _ _ _ => Except FactError (List FactRecord)

/-- One operation on a journal. -/
def performFact {J : Type} (P : FactJournal J) (j : J) : (o : JournalOp) → o.Answer × J
  | .read stream after limit => (P.read j stream after limit, j)
  | .append stream expected batch => P.append j stream expected batch

/-- Programs of the registry. -/
abbrev RegistryProg := Fallible JournalOp JournalOp.Answer InstanceRegistryError

/-- A read of the journal. -/
def readFacts (stream : String) (after limit : ℕ) : RegistryProg (List FactRecord) :=
  Fallible.mapError .journal (Fallible.ofProg (.call (JournalOp.read stream after limit)))

/-- An append to the journal, with its error as a value. -/
def appendFacts (stream : String) (expected : ℕ) (batch : List FactDraft) :
    RegistryProg (Except FactError (List FactRecord)) :=
  Fallible.attempt (Fallible.ofProg (.call (JournalOp.append stream expected batch)))

section Registry

variable (codec : RegistryCodec)

/-- `InstanceRegistry::new`. -/
def InstanceRegistry.new (hostNamespace : String) (capacity : ℕ) : Except InstanceRegistryError InstanceRegistry := do
  identity hostNamespace
  reject (¬(1 ≤ capacity ∧ capacity ≤ maxReservations)) (.invalid "capacity must be 1..=65536")
  return {
    hostNamespace
    namespaceDigest := codec.sha256Text hostNamespace
    stream := "agent-instances:" ++ codec.sha256Text hostNamespace
    capacity }

variable (registry : InstanceRegistry)

/-- `InstanceRegistry::instance_id`. -/
def InstanceRegistry.instanceId (position : ℕ) : String :=
  "agent-instance:" ++ registry.namespaceDigest ++ ":" ++ toString position

/-- `InstanceRegistry::fact_id`. -/
def InstanceRegistry.factId (owner : InstanceOwner) : String :=
  "instance-reservation:" ++ registry.namespaceDigest ++ ":" ++ codec.sha256 owner.toValue

/-- The fact of a reservation at a position. -/
def InstanceRegistry.draft (owner : InstanceOwner) (position : ℕ) : FactDraft where
  factId := registry.factId codec owner
  subject := ⟨"agent.instance", registry.instanceId position⟩
  kind := reservedKind
  schemaVersion := 1
  critical := true
  causes := []
  payload := Reserved.toValue ⟨registry.hostNamespace, owner, registry.instanceId position⟩

/-- One record in the loop of `load`. -/
def InstanceRegistry.absorb (loading : Loading) (record : FactRecord) : Except InstanceRegistryError Loading := do
  reject (loading.owners.length ≥ registry.capacity) .capacity
  reject (record.streamId ≠ registry.stream ∨ record.position ≠ loading.head + 1)
    (.corrupt "foreign stream or noncontiguous position")
  reject (record.draft.schemaVersion ≠ 1) (.unknownSchema record.draft.schemaVersion)
  reject (record.draft.kind ≠ reservedKind ∨ record.draft.critical = false ∨ record.draft.causes ≠ [])
    (.corrupt "invalid reservation envelope")
  let reserved ← mapError .corrupt (codec.decodeReserved record.draft.payload)
  mapError (fun error => .corrupt error.toString) (validateOwner reserved.owner)
  reject ((loading.instances.lookup reserved.instanceId).any (· ≠ reserved.owner))
    (.conflictingOwner reserved.instanceId)
  reject (reserved.hostNamespace ≠ registry.hostNamespace ∨
      reserved.instanceId ≠ registry.instanceId record.position ∨ record.draft.subject.kind ≠ "agent.instance" ∨
      record.draft.subject.id ≠ reserved.instanceId ∨ record.draft.factId ≠ registry.factId codec reserved.owner)
    (.corrupt "reservation binding mismatch")
  reject ((loading.owners.lookup reserved.owner).isSome) (.corrupt "duplicate owner reservation")
  return {
    head := record.position
    owners := (reserved.owner, ⟨reserved.instanceId, ⟨record.streamId, record.position, record.draft.factId⟩⟩) ::
      loading.owners
    instances := (reserved.instanceId, reserved.owner) :: loading.instances }

/-- The records of one page. -/
def InstanceRegistry.absorbPage (loading : Loading) : List FactRecord → Except InstanceRegistryError Loading
  | [] => .ok loading
  | record :: page => do
      let next ← registry.absorb codec loading record
      InstanceRegistry.absorbPage next page

/-- `min(PAGE_SIZE, capacity + 1 - owners.len())`. -/
def InstanceRegistry.pageLimit (snapshot : Snapshot) : ℕ :=
  min pageSize (registry.capacity + 1 - snapshot.owners.length)

/-- The loop of `load`; a loop that has not ended within `rounds` halts. -/
def InstanceRegistry.loadPages : ℕ → Loading → RegistryProg Snapshot
  | 0, _ => Fallible.ofProg .halt
  | rounds + 1, loading => do
      let limit := registry.pageLimit loading.toSnapshot
      let records ← readFacts registry.stream loading.head limit
      Fallible.lift (reject (records.length > limit) (.corrupt "oversized journal page"))
      if records = [] then return loading.toSnapshot
      else do
        let next ← Fallible.lift (registry.absorbPage codec loading records)
        InstanceRegistry.loadPages rounds next

/-- `InstanceRegistry::load`: a round for every reservation and one for the end. -/
def InstanceRegistry.load : RegistryProg Snapshot :=
  registry.loadPages codec (registry.capacity + 1) { head := 0, owners := [], instances := [] }

/-- The errors after which a reservation looks whether it lost a race. -/
def isContention : FactError → Bool
  | .stalePosition _ _ | .conflict _ => true
  | .invalid _ | .missingCause _ | .storage _ => false

/-- The loop of `reserve`. -/
def InstanceRegistry.reserveWithin (owner : InstanceOwner) : ℕ → RegistryProg InstanceReservation
  | 0 => throw .contention
  | attempts + 1 => do
      let snapshot ← registry.load codec
      match snapshot.owners.lookup owner with
      | some original => return original
      | none => do
        Fallible.lift (reject (snapshot.owners.length ≥ registry.capacity) .capacity)
        let appended ← appendFacts registry.stream snapshot.head
          [registry.draft codec owner (snapshot.head + 1)]
        match appended with
        | .ok _ => do
          let saved ← registry.load codec
          Fallible.lift (expect (saved.owners.lookup owner) (.corrupt "append did not persist reservation"))
        | .error error =>
          if isContention error then do
            let current ← registry.load codec
            if current.head ≤ snapshot.head then throw (.journal error)
            else InstanceRegistry.reserveWithin owner attempts
          else throw (.journal error)

/-- `InstanceRegistry::reserve`. -/
def InstanceRegistry.reserve (owner : InstanceOwner) : RegistryProg InstanceReservation := do
  Fallible.lift (validateOwner owner)
  registry.reserveWithin codec owner maxCasAttempts

end Registry

end Instances
end Kolyan
