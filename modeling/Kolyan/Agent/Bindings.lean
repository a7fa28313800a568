/-
# The ownership of an invocation

`kolyan-agent/src/binding.rs`, `AgentInvocationBindingStore`: the one fact of a
namespace of its own says which definition, permissions and private Session an
invocation has.  A load reads at most two records, so that it sees whether there is
exactly one, and checks the envelope and the content of that one.
-/

import Kolyan.Agent.Invoke
import Kolyan.Facts.Journal

namespace Kolyan
namespace Agent

open Checks Facts

/-- `MAX_BINDING_PAYLOAD_BYTES`. -/
def maxBindingPayloadBytes : ℕ := 128 * 1024

/-- `BindingError`, as far as a binding is loaded from rows that were read. -/
inductive LoadError where
  | binding (error : BindingError)
  | foreignOwner
  | corrupt (message : String)
  | oversized (bytes limit : ℕ)

/-- `BindingError::to_string`. -/
def LoadError.toString : LoadError → String
  | binding error => error.toString
  | foreignOwner => "logical Session does not own this invocation binding"
  | corrupt message => "corrupt or unsupported invocation binding fact: " ++ message
  | oversized bytes limit =>
    "binding payload is " ++ ToString.toString bytes ++ " bytes; maximum is " ++ ToString.toString limit

section Namespaces

variable (sha256 : Value → String) (task invocation : String)

/-- `stream_id`. -/
def ownershipStream : String :=
  "agent.binding." ++
    sha256 (.array [.string "kolyan.agent.binding.stream.v1", .string task, .string invocation])

/-- `fact_id`. -/
def ownershipFact : String :=
  "agent.binding.fact." ++
    sha256 (.array [.string "kolyan.agent.binding.fact.v1", .string task, .string invocation])

/-- `coordinate`. -/
def ownershipReference : FactRef where
  streamId := ownershipStream sha256 task invocation
  position := 1
  factId := ownershipFact sha256 task invocation

end Namespaces

section Loading

variable {sha256 : Value → String} (read : Value → Except String (AgentInvocationBinding sha256))
  (task invocation owner : String)

/-- `decode`. -/
def decodeOwnership (record : FactRecord) : Except LoadError (AgentInvocationBinding sha256) := do
  reject (record.streamId ≠ ownershipStream sha256 task invocation ∨ record.position ≠ 1 ∨
      record.draft.factId ≠ ownershipFact sha256 task invocation ∨ record.draft.subject.kind ≠ "agent.invocation" ∨
      record.draft.subject.id ≠ invocation ∨ record.draft.kind ≠ "agent.context.bound" ∨
      record.draft.schemaVersion ≠ 1 ∨ record.draft.critical = false ∨ record.draft.causes ≠ [])
    (.corrupt "record coordinate, subject, version or kind mismatch")
  reject (record.draft.payload.encodedLen > maxBindingPayloadBytes)
    (.oversized record.draft.payload.encodedLen maxBindingPayloadBytes)
  let binding ← mapError .corrupt (read record.draft.payload)
  mapError (fun error => .corrupt error.toString) binding.validate
  reject (binding.taskId ≠ task ∨ binding.invocationId ≠ invocation)
    (.corrupt "payload identity differs from exact requested scope")
  reject (binding.logicalSessionId ≠ owner) .foreignOwner
  return binding

/-- `load`, once the rows are read. -/
def loadOwnership : List FactRecord → Except LoadError (Option (AgentInvocationBinding sha256))
  | [] => .ok none
  | [record] => do
    let binding ← decodeOwnership read task invocation owner record
    return some binding
  | _ => .error (.corrupt "unexpected extra facts in binding namespace")

end Loading

end Agent
end Kolyan
