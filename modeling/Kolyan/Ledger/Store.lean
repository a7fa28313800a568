/-
# The execution ledger

`kolyan-ledger`: one append-only list of facts, each with an event id, an
idempotency key and the cursor the store gave it.  `LedgerStore` is the trait;
its operations change an adapter's state and may fail.  `LedgerStore.Contract`
states what every adapter promises about the list of committed facts, and
`inMemoryContract` proves it of `InMemoryLedger`.
-/

import Kolyan.Value
import Kolyan.Lib.Checks

namespace Kolyan
namespace Ledger

open Checks

/-- `LedgerEventKind`. -/
inductive LedgerEventKind where
  | turnStarted
  | stepStarted
  | modelRequested
  | modelOpeningAdmitted
  | modelStreamEvent
  | stepCompleted
  | toolCallRequested
  | approvalRequested
  | approvalResolved
  | toolExecutionStarted
  | toolExecutionCompleted
  | toolExecutionFailed
  | turnFailed
  | turnCancelled
  | turnTimedOut
  | turnCompleted
  | executionStarted
  | executionBound
  | executionInputAdmitted
  | executionRetryAuthorized
  | executionBoundaryAdmitted
  | executionSuspended
  | executionCancelled
  | effectPrepared
  | effectAuthorized
  | effectAwaitingDecision
  | effectAwaitingExternal
  | toolAwaitingExternal
  | turnCheckpointMerged
  | turnCheckpointPrepared
  | effectStarted
  | effectCompleted
  | effectFailed
  | effectUncertain
  | effectDenied
  | effectReceipt
  | effectReconciled
  | sessionCommitPrepared
  | sessionCommitted
  deriving DecidableEq

/-- `LedgerEvent`. -/
structure LedgerEvent where
  eventId : String
  turnId : String
  executionId : String
  cursor : ℕ
  kind : LedgerEventKind
  idempotencyKey : String
  payload : Value
  deriving DecidableEq

/-- `LedgerError`. -/
inductive LedgerError where
  | invalidQuery (message : String)
  | conflict (key : String)
  | cancelled (executionId : String)
  | storage (message : String)
  deriving DecidableEq

/-- `LedgerQuery`. -/
structure LedgerQuery where
  executionId : Option String
  eventId : Option String
  after : ℕ
  through : Option ℕ
  limit : ℕ

namespace LedgerQuery

/-- `LedgerQuery::validate`. -/
def validate (q : LedgerQuery) : Except LedgerError Unit := do
  reject (¬(1 ≤ q.limit ∧ q.limit ≤ 1024)) (.invalidQuery "limit must be 1..=1024")
  reject (q.executionId.any (·.isEmpty) ∨ q.eventId.any (·.isEmpty))
    (.invalidQuery "identities must be nonempty")
  reject (q.through.any (· < q.after)) (.invalidQuery "through must be >= after")

/-- `LedgerQuery::matches`. -/
def selects (q : LedgerQuery) (event : LedgerEvent) : Bool :=
  event.cursor > q.after && q.through.all (event.cursor ≤ ·) &&
    q.executionId.all (· = event.executionId) && q.eventId.all (· = event.eventId)

end LedgerQuery

/-- The trait `LedgerStore` over an adapter's state.  An adapter that has no
transactional admission answers `appendUnlessCancelled` with an error. -/
structure LedgerStore (σ : Type) where
  query : σ → LedgerQuery → Except LedgerError (List LedgerEvent) × σ
  append : σ → LedgerEvent → Except LedgerError LedgerEvent × σ
  appendUnlessCancelled : σ → LedgerEvent → Except LedgerError LedgerEvent × σ

/-- The execution has a committed cancellation. -/
def hasCancelled (events : List LedgerEvent) (executionId : String) : Bool :=
  events.any fun item => item.executionId = executionId && item.kind = .executionCancelled

/-- An event id or an idempotency key of `event` is taken. -/
def collides (events : List LedgerEvent) (event : LedgerEvent) : Bool :=
  events.any fun item => item.eventId = event.eventId || item.idempotencyKey = event.idempotencyKey

/-- What an append may do to the committed facts: nothing, or add the event at
a new cursor.  A store that fails after its commit reports a storage error. -/
inductive Appended (old : List LedgerEvent) (event : LedgerEvent) :
    List LedgerEvent → Except LedgerError LedgerEvent → Prop where
  | refused (error : LedgerError) : Appended old event old (.error error)
  | committed (cursor : ℕ) (hfresh : collides old event = false) :
      Appended old event (old ++ [{ event with cursor }]) (.ok { event with cursor })
  | ambiguous (cursor : ℕ) (message : String) (hfresh : collides old event = false) :
      Appended old event (old ++ [{ event with cursor }]) (.error (.storage message))

/-- **The contract of a ledger store**, over the list of its committed facts: a
query is exact or fails, an append adds at most the event it was given, and an
admission does not add one to a cancelled execution. -/
structure LedgerStore.Contract {σ : Type} (P : LedgerStore σ) where
  Valid : σ → Prop
  events : σ → List LedgerEvent
  ascending : ∀ {s}, Valid s → (events s).Pairwise (·.cursor < ·.cursor)
  positive : ∀ {s}, Valid s → ∀ event ∈ events s, 0 < event.cursor
  unique : ∀ {s}, Valid s → ((events s).map (·.eventId)).Nodup
  query_frame : ∀ {s}, Valid s → ∀ q, Valid (P.query s q).2 ∧ events (P.query s q).2 = events s
  query_ok : ∀ {s}, Valid s → ∀ {q page}, (P.query s q).1 = .ok page →
    page = ((events s).filter q.selects).take q.limit
  append_spec : ∀ {s}, Valid s → ∀ event, Valid (P.append s event).2 ∧
    Appended (events s) event (events (P.append s event).2) (P.append s event).1
  admission_spec : ∀ {s}, Valid s → ∀ event, Valid (P.appendUnlessCancelled s event).2 ∧
    Appended (events s) event (events (P.appendUnlessCancelled s event).2)
      (P.appendUnlessCancelled s event).1 ∧
    (hasCancelled (events s) event.executionId = true →
      events (P.appendUnlessCancelled s event).2 = events s)

/-- `LedgerState` of `InMemoryLedger`. -/
structure LedgerState where
  nextCursor : ℕ
  events : List LedgerEvent

/-- `InMemoryLedger::append_checked`. -/
def appendChecked (state : LedgerState) (event : LedgerEvent) (checkCancel : Bool) :
    Except LedgerError LedgerEvent × LedgerState :=
  if checkCancel && hasCancelled state.events event.executionId then
    (.error (.cancelled event.executionId), state)
  else if collides state.events event then (.error (.conflict event.eventId), state)
  else
    let nextCursor := state.nextCursor + 1
    let event := { event with cursor := nextCursor }
    (.ok event, { nextCursor, events := state.events ++ [event] })

/-- `InMemoryLedger`. -/
def inMemoryLedger : LedgerStore LedgerState where
  query state q := (do q.validate; return (state.events.filter q.selects).take q.limit, state)
  append state event := appendChecked state event false
  appendUnlessCancelled state event := appendChecked state event true

/-- `InMemoryLedger::default`. -/
def LedgerState.empty : LedgerState := { nextCursor := 0, events := [] }

/-- What keeps a memory ledger in order: cursors grow and stay below the next
one, and no event id repeats. -/
structure LedgerState.Ordered (state : LedgerState) : Prop where
  ascending : state.events.Pairwise (·.cursor < ·.cursor)
  positive : ∀ event ∈ state.events, 0 < event.cursor
  bounded : ∀ event ∈ state.events, event.cursor ≤ state.nextCursor
  unique : (state.events.map (·.eventId)).Nodup

theorem LedgerState.ordered_empty : LedgerState.empty.Ordered where
  ascending := List.Pairwise.nil
  positive := fun _ h => absurd h List.not_mem_nil
  bounded := fun _ h => absurd h List.not_mem_nil
  unique := List.nodup_nil

theorem collides_eq_false {events : List LedgerEvent} {event : LedgerEvent} :
    collides events event = false ↔ ∀ item ∈ events,
      item.eventId ≠ event.eventId ∧ item.idempotencyKey ≠ event.idempotencyKey := by
  simp [collides]

/-- **An append keeps a memory ledger in order**, and does what the contract
lets it do. -/
theorem appendChecked_spec {state : LedgerState} (h : state.Ordered) (event : LedgerEvent)
    (checkCancel : Bool) :
    (appendChecked state event checkCancel).2.Ordered ∧
      Appended state.events event (appendChecked state event checkCancel).2.events
        (appendChecked state event checkCancel).1 := by
  unfold appendChecked
  split_ifs with hcancel hclash
  · exact ⟨h, .refused _⟩
  · exact ⟨h, .refused _⟩
  · rw [Bool.not_eq_true] at hclash
    refine ⟨⟨?_, ?_, ?_, ?_⟩, .committed _ hclash⟩
    · refine List.pairwise_append.2 ⟨h.ascending, List.pairwise_singleton .., fun a ha b hb => ?_⟩
      obtain rfl := List.mem_singleton.1 hb
      exact Nat.lt_succ_of_le (h.bounded a ha)
    · intro e he
      rcases List.mem_append.1 he with he | he
      · exact h.positive e he
      · obtain rfl := List.mem_singleton.1 he
        exact Nat.succ_pos _
    · intro e he
      rcases List.mem_append.1 he with he | he
      · exact Nat.le_succ_of_le (h.bounded e he)
      · obtain rfl := List.mem_singleton.1 he
        exact le_rfl
    · rw [List.map_append, List.nodup_append]
      refine ⟨h.unique, List.nodup_singleton _, fun a ha b hb => ?_⟩
      obtain ⟨item, hitem, rfl⟩ := List.mem_map.1 ha
      obtain rfl := List.mem_singleton.1 hb
      exact (collides_eq_false.1 hclash item hitem).1

theorem query_eq_ok {s : LedgerState} {q : LedgerQuery} {page : List LedgerEvent}
    (h : (inMemoryLedger.query s q).1 = .ok page) : page = (s.events.filter q.selects).take q.limit := by
  simp only [inMemoryLedger, bind_eq_ok, pure_eq_ok] at h
  obtain ⟨_, _, rfl⟩ := h
  rfl

def inMemoryContract : inMemoryLedger.Contract where
  Valid := LedgerState.Ordered
  events := LedgerState.events
  ascending h := h.ascending
  positive h := h.positive
  unique h := h.unique
  query_frame h _ := ⟨h, rfl⟩
  query_ok _ _ _ hpage := query_eq_ok hpage
  append_spec h event := appendChecked_spec h event false
  admission_spec h event := by
    obtain ⟨hvalid, happended⟩ := appendChecked_spec h event true
    refine ⟨hvalid, happended, fun hcancel => ?_⟩
    simp only [inMemoryLedger, appendChecked, hcancel, Bool.and_self, if_true]

namespace Appended

variable {old new : List LedgerEvent} {event : LedgerEvent} {r : Except LedgerError LedgerEvent}

theorem grows (h : Appended old event new r) : old <+: new := by
  cases h with
  | refused => exact List.prefix_rfl
  | committed | ambiguous => exact List.prefix_append _ _

theorem mem (h : Appended old event new r) {e : LedgerEvent} (he : e ∈ new) :
    e ∈ old ∨ e = { event with cursor := e.cursor } := by
  cases h with
  | refused => exact .inl he
  | committed | ambiguous =>
    rcases List.mem_append.1 he with he | he
    · exact .inl he
    · rw [List.mem_singleton.1 he]
      exact .inr rfl

theorem conflict {key : String} (h : Appended old event new (.error (.conflict key))) :
    new = old := by
  cases h; rfl

theorem ok {saved : LedgerEvent} (h : Appended old event new (.ok saved)) :
    collides old event = false ∧ saved = { event with cursor := saved.cursor } ∧
      new = old ++ [saved] := by
  cases h with
  | committed cursor hfresh => exact ⟨hfresh, rfl, rfl⟩

end Appended

end Ledger
end Kolyan
