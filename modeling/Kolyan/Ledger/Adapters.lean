/-
# The adapters of the ledger

`crates/kolyan-ledger/src/lib.rs` and `query.rs`: `InMemoryLedger`, `FileLedger`
and `SqliteLedger`, each with the whole trait `LedgerStore`.  A line of the file
and a JSON column of the table are here the values that their text encodes, and
the table is the list of its rows in the order of their primary key.  The three
agree on a history of event calls exactly when it keeps within SQLite's integers
(`adapters_agree_iff`): a bound of `events_after` is handed to SQLite as it is,
whereas `query_sql` clamps the bounds of a query.
-/

import Kolyan.Ledger.Port
import Kolyan.Lib.Alone
import Kolyan.Lib.Histories
import Kolyan.Facts.Journal

namespace Kolyan
namespace Ledger

open Checks Threads
open Facts (i64Max)

/-- The trait `LedgerStore` with its unbounded read and its claims. -/
structure LedgerAdapter (σ : Type) extends LedgerStore σ where
  eventsAfter : σ → ℕ → Except LedgerError (List LedgerEvent)
  claim : σ → String → Except LedgerError Bool × σ

section InMemory

/-- `LedgerState` with its set of claims. -/
structure MemoryLedger extends LedgerState where
  claims : List String

/-- `InMemoryLedger::default`. -/
def MemoryLedger.empty : MemoryLedger := ⟨LedgerState.empty, []⟩

/-- `InMemoryLedger::append_checked`, beside the claims. -/
def MemoryLedger.appendChecked (ledger : MemoryLedger) (event : LedgerEvent) (checkCancel : Bool) :
    Except LedgerError LedgerEvent × MemoryLedger :=
  ((Ledger.appendChecked ledger.toLedgerState event checkCancel).1,
    ⟨(Ledger.appendChecked ledger.toLedgerState event checkCancel).2, ledger.claims⟩)

/-- `InMemoryLedger`. -/
def memoryAdapter : LedgerAdapter MemoryLedger where
  query ledger q := ((inMemoryLedger.query ledger.toLedgerState q).1, ledger)
  append ledger event := ledger.appendChecked event false
  appendUnlessCancelled ledger event := ledger.appendChecked event true
  eventsAfter ledger cursor := .ok (ledger.events.filter fun event => event.cursor > cursor)
  claim ledger key :=
    if key ∈ ledger.claims then (.ok false, ledger) else (.ok true, { ledger with claims := key :: ledger.claims })

end InMemory

section File

/-- The lines of the file and of the file of claims beside it. -/
structure FileState where
  lines : List LedgerEvent
  claims : List String

/-- New files. -/
def FileState.empty : FileState := ⟨[], []⟩

/-- `FileLedger::append_checked`: the cursor is one more than that of the last line. -/
def FileState.appendChecked (file : FileState) (event : LedgerEvent) (checkCancel : Bool) :
    Except LedgerError LedgerEvent × FileState :=
  if checkCancel && hasCancelled file.lines event.executionId then (.error (.cancelled event.executionId), file)
  else if collides file.lines event then (.error (.conflict event.eventId), file)
  else
    let event := { event with cursor := (file.lines.getLast?.map (·.cursor)).getD 0 + 1 }
    (.ok event, { file with lines := file.lines ++ [event] })

/-- The loop of `file_query`, which breaks at the limit. -/
def scanLines (q : LedgerQuery) : List LedgerEvent → List LedgerEvent → List LedgerEvent
  | [], events => events
  | line :: lines, events =>
    if q.selects line then
      if (events ++ [line]).length = q.limit then events ++ [line] else scanLines q lines (events ++ [line])
    else scanLines q lines events

/-- `FileLedger`. -/
def fileAdapter : LedgerAdapter FileState where
  query file q := (do q.validate; return scanLines q file.lines [], file)
  append file event := file.appendChecked event false
  appendUnlessCancelled file event := file.appendChecked event true
  eventsAfter file cursor := .ok (file.lines.filter fun event => event.cursor > cursor)
  claim file key :=
    if file.claims.any (· = key) || file.lines.any (·.idempotencyKey = key) then (.ok false, file)
    else (.ok true, { file with claims := file.claims ++ [key] })

end File

section Sqlite

/-- The tables `events`, with the counter of its `AUTOINCREMENT` key, and `claims`. -/
structure SqliteState where
  rows : List LedgerEvent
  sequence : ℕ
  claims : List String

/-- New tables. -/
def SqliteState.empty : SqliteState := ⟨[], 0, []⟩

/-- `INSERT INTO events`: the key is a signed integer and the counter has to have
a next one; then the two `UNIQUE` columns are checked. -/
def SqliteState.insert (tables : SqliteState) (event : LedgerEvent) : Except LedgerError (LedgerEvent × SqliteState) := do
  reject (tables.sequence ≥ i64Max) (.storage "database or disk is full")
  reject (collides tables.rows event = true) (.conflict event.eventId)
  let row := { event with cursor := tables.sequence + 1 }
  return (row, { tables with rows := tables.rows ++ [row], sequence := tables.sequence + 1 })

/-- `SqliteLedger::append_checked`: an error drops the transaction. -/
def SqliteState.appendChecked (tables : SqliteState) (event : LedgerEvent) (checkCancel : Bool) :
    Except LedgerError LedgerEvent × SqliteState :=
  if checkCancel && hasCancelled tables.rows event.executionId then (.error (.cancelled event.executionId), tables)
  else
    match tables.insert event with
    | .error e => (.error e, tables)
    | .ok (row, committed) => (.ok row, committed)

/-- The predicate of `query_sql`. -/
def querySql (q : LedgerQuery) (row : LedgerEvent) : Bool :=
  row.cursor > min q.after i64Max && q.through.all (row.cursor ≤ min · i64Max) &&
    q.executionId.all (· = row.executionId) && q.eventId.all (· = row.eventId)

/-- `SqliteLedger`.  A `u64` that is no signed integer cannot be bound. -/
def sqliteAdapter : LedgerAdapter SqliteState where
  query tables q := (do q.validate; return (tables.rows.filter (querySql q)).take q.limit, tables)
  append tables event := tables.appendChecked event false
  appendUnlessCancelled tables event := tables.appendChecked event true
  eventsAfter tables cursor := do
    reject (cursor > i64Max) (.storage "out of range integral type conversion attempted")
    return tables.rows.filter fun row => row.cursor > cursor
  claim tables key :=
    if key ∈ tables.claims then (.ok false, tables) else (.ok true, { tables with claims := tables.claims ++ [key] })

end Sqlite

section Calls

variable {σ : Type}

/-- One operation of a caller that has the store to itself. -/
def LedgerStore.act (P : LedgerStore σ) (s : σ) : (o : Op Empty) → Op.Answer (fun e => nomatch e) o × σ
  | .ledger (.query q) => P.query s q
  | .ledger (.append event) => P.append s event
  | .ledger (.appendUnlessCancelled event) => P.appendUnlessCancelled s event
  | .host e => nomatch e

/-- `LedgerStore::execution_events_after` of a caller that has the store to itself. -/
def LedgerStore.executionEventsAfter (P : LedgerStore σ) (pages : ℕ) (s : σ) (executionId : String) (after : ℕ) :
    Option (Except LedgerError (List LedgerEvent) × σ) :=
  (Ledger.executionEventsAfter pages executionId after).run.run P.act s

/-- The calls of the trait that speak of events.  A paged read has a bound on its
pages, which it fails to answer within (`none`) or not. -/
inductive EventCall where
  | append (event : LedgerEvent)
  | appendUnlessCancelled (event : LedgerEvent)
  | query (q : LedgerQuery)
  | eventsAfter (cursor : ℕ)
  | executionEventsAfter (pages : ℕ) (executionId : String) (after : ℕ)

/-- What a call answers. -/
def EventCall.Answer : EventCall → Type
  | append _ | appendUnlessCancelled _ => Except LedgerError LedgerEvent
  | query _ | eventsAfter _ => Except LedgerError (List LedgerEvent)
  | executionEventsAfter .. => Option (Except LedgerError (List LedgerEvent))

/-- An adapter as a machine for event calls. -/
def LedgerAdapter.events (adapter : LedgerAdapter σ) : Machine EventCall EventCall.Answer σ where
  step s
    | .append event => adapter.append s event
    | .appendUnlessCancelled event => adapter.appendUnlessCancelled s event
    | .query q => adapter.query s q
    | .eventsAfter cursor => (adapter.eventsAfter s cursor, s)
    | .executionEventsAfter pages executionId after =>
      match adapter.toLedgerStore.executionEventsAfter pages s executionId after with
      | some (events, s') => (some events, s')
      | none => (none, s)

end Calls

section Paging

variable {σ : Type} {P : LedgerStore σ} {s : σ} {events : List LedgerEvent}

/-- The store's queries answer for `events` and change nothing. -/
def LedgerStore.Reads (P : LedgerStore σ) (s : σ) (events : List LedgerEvent) : Prop :=
  ∀ q, P.query s q = (do q.validate; return (events.filter q.selects).take q.limit, s)

theorem LedgerStore.Reads.checkedQuery (h : P.Reads s events) (hasc : events.Pairwise (·.cursor < ·.cursor))
    (q : LedgerQuery) :
    (Ledger.checkedQuery q).run.run P.act s =
      some (do q.validate; return (events.filter q.selects).take q.limit, s) := by
  have hquery : (Ledger.query q).run.run P.act s =
      some (do q.validate; return (events.filter q.selects).take q.limit, s) := congrArg some (h q)
  have hshort : ¬((events.filter q.selects).take q.limit).length > q.limit := by
    rw [List.length_take]
    omega
  have hscope := checkPage_exact hasc q.limit q.after (q := q) (.inl le_rfl)
  rw [Ledger.checkedQuery, Fallible.run_bind]
  cases hvalid : q.validate with
  | error e => rfl
  | ok u =>
    rw [hvalid] at hquery
    show (Ledger.query q >>= _).run.run P.act s = _
    rw [Fallible.run_bind, hquery]
    show (Fallible.lift (reject _ _) >>= _).run.run P.act s = _
    rw [reject_of_not hshort, hscope]
    rfl

/-- The events of one execution after a cursor. -/
def eventsOf (events : List LedgerEvent) (executionId : String) (after : ℕ) : List LedgerEvent :=
  events.filter fun event => event.executionId = executionId && event.cursor > after

theorem filter_executionPage (executionId : String) (after : ℕ) :
    events.filter (executionPage executionId after).selects = eventsOf events executionId after := by
  refine List.filter_congr fun event _ => Bool.eq_iff_iff.2 ?_
  simp only [LedgerQuery.selects, executionPage, Option.all_none, Option.all_some, Bool.and_eq_true,
    decide_eq_true_eq, and_true]
  exact ⟨fun h => ⟨h.2.symm, of_decide_eq_true h.1⟩, fun h => ⟨decide_eq_true h.2, h.1.symm⟩⟩

theorem filter_after_take {all : List LedgerEvent} (hasc : all.Pairwise (·.cursor < ·.cursor)) {after : ℕ}
    (hafter : ∀ event ∈ all, after < event.cursor) (n : ℕ) :
    all.filter (fun event => event.cursor > ((all.take n).getLast?.map (·.cursor)).getD after) = all.drop n := by
  cases hlast : (all.take n).getLast? with
  | some last => exact filter_gt_last_take hasc hlast
  | none =>
    have hrest : all.drop n = all := by
      have hsplit := List.take_append_drop n all
      rwa [List.getLast?_eq_none_iff.1 hlast, List.nil_append] at hsplit
    rw [hrest]
    exact List.filter_eq_self.2 fun event he => decide_eq_true (hafter event he)

theorem eventsOf_next (hasc : events.Pairwise (·.cursor < ·.cursor)) (executionId : String) (after n : ℕ) :
    eventsOf events executionId
        ((((eventsOf events executionId after).take n).getLast?.map (·.cursor)).getD after) =
      (eventsOf events executionId after).drop n := by
  have hafter : ∀ event ∈ eventsOf events executionId after, after < event.cursor := by
    intro event he
    have hselected := (List.mem_filter.1 he).2
    simp only [Bool.and_eq_true, decide_eq_true_eq] at hselected
    exact hselected.2
  have hnext : after ≤ (((eventsOf events executionId after).take n).getLast?.map (·.cursor)).getD after := by
    cases hlast : ((eventsOf events executionId after).take n).getLast? with
    | none => exact le_rfl
    | some last => exact (hafter last (List.mem_of_mem_take (List.mem_of_getLast? hlast))).le
  have hsorted : (eventsOf events executionId after).Pairwise (·.cursor < ·.cursor) := hasc.filter _
  rw [← filter_after_take hsorted hafter n]
  generalize (((eventsOf events executionId after).take n).getLast?.map (·.cursor)).getD after = next at hnext
  rw [eventsOf, eventsOf, List.filter_filter]
  refine List.filter_congr fun event _ => ?_
  by_cases hcur : next < event.cursor
  · have := hnext.trans_lt hcur
    simp [hcur, this]
  · simp [hcur]

/-- What a paged read answers: the events, if the pages suffice. -/
def eventPagesOf (events : List LedgerEvent) (pages : ℕ) (executionId : String) (after : ℕ) :
    Option (Except LedgerError (List LedgerEvent)) :=
  if executionId = "" then if 0 < pages then some (.error (.invalidQuery "identities must be nonempty")) else none
  else if (eventsOf events executionId after).length / 512 < pages then some (.ok (eventsOf events executionId after))
  else none

/-- **The paged read of an execution answers all of its events**, in as many pages
of 512 as they need. -/
theorem LedgerStore.Reads.eventPages (h : P.Reads s events) (hasc : events.Pairwise (·.cursor < ·.cursor))
    {executionId : String} (hid : executionId ≠ "") (pages after : ℕ) (seen : List LedgerEvent) :
    (Ledger.eventPages executionId pages after seen).run.run P.act s =
      if (eventsOf events executionId after).length / 512 < pages then
        some (.ok (seen ++ eventsOf events executionId after), s)
      else none := by
  induction pages generalizing after seen with
  | zero => rw [if_neg (by omega)]; rfl
  | succ pages ih =>
    have hpage : (Ledger.checkedQuery (executionPage executionId after)).run.run P.act s =
        some (do (executionPage executionId after).validate;
                 return ((events.filter (executionPage executionId after).selects).take 512), s) :=
      h.checkedQuery hasc (executionPage executionId after)
    have hvalid : (executionPage executionId after).validate = .ok () := by
      have hempty : executionId.isEmpty = false := by
        rw [← Bool.not_eq_true, String.isEmpty_iff]
        exact hid
      simp [LedgerQuery.validate, executionPage, reject, hempty]
    rw [hvalid, filter_executionPage] at hpage
    rw [Ledger.eventPages, Fallible.run_bind, hpage]
    show (if ((eventsOf events executionId after).take 512).length < 512 then _ else _ :
      LedgerProg (fun e : Empty => nomatch e) (List LedgerEvent)).run.run P.act s = _
    have hrest := eventsOf_next hasc executionId after 512
    split_ifs with hlast henough henough
    · rw [List.length_take] at hlast
      rw [List.take_of_length_le (by omega)]
      rfl
    · rw [List.length_take] at hlast
      omega
    · rw [ih, hrest, List.length_drop, if_pos (by rw [List.length_take] at hlast; omega), List.append_assoc,
        List.take_append_drop]
    · rw [ih, hrest, List.length_drop, if_neg (by rw [List.length_take] at hlast; omega)]

theorem LedgerStore.Reads.executionEventsAfter (h : P.Reads s events) (hasc : events.Pairwise (·.cursor < ·.cursor))
    (pages : ℕ) (executionId : String) (after : ℕ) :
    P.executionEventsAfter pages s executionId after = (eventPagesOf events pages executionId after).map (·, s) := by
  rw [LedgerStore.executionEventsAfter, Ledger.executionEventsAfter, eventPagesOf]
  by_cases hid : executionId = ""
  · cases pages with
    | zero =>
      rw [if_pos hid, if_neg (lt_irrefl 0)]
      rfl
    | succ pages =>
      have hpage := h.checkedQuery hasc (executionPage executionId after)
      have hvalid : (executionPage executionId after).validate = .error (.invalidQuery "identities must be nonempty") := by
        rw [hid]
        rfl
      rw [hvalid] at hpage
      rw [if_pos hid, Ledger.eventPages, Fallible.run_bind, hpage]
      rfl
  · rw [if_neg hid, h.eventPages hasc hid, List.nil_append]
    split_ifs <;> rfl

end Paging

section Log

/-- What `append_checked` does to the list of committed events. -/
def logAppend (events : List LedgerEvent) (event : LedgerEvent) (checkCancel : Bool) :
    Except LedgerError LedgerEvent × List LedgerEvent :=
  if checkCancel && hasCancelled events event.executionId then (.error (.cancelled event.executionId), events)
  else if collides events event then (.error (.conflict event.eventId), events)
  else
    let event := { event with cursor := events.length + 1 }
    (.ok event, events ++ [event])

/-- A log in order: the cursors count, and no identity and no key repeats. -/
structure Numbered (events : List LedgerEvent) : Prop where
  cursors : events.map (·.cursor) = List.range' 1 events.length
  ids : (events.map (·.eventId)).Nodup
  keys : (events.map (·.idempotencyKey)).Nodup

variable {events : List LedgerEvent}

theorem Numbered.ascending (h : Numbered events) : events.Pairwise (·.cursor < ·.cursor) := by
  have hrange : (List.range' 1 events.length).Pairwise (· < ·) := List.pairwise_lt_range'
  rw [← h.cursors, List.pairwise_map] at hrange
  exact hrange

theorem Numbered.bounded (h : Numbered events) {event : LedgerEvent} (he : event ∈ events) :
    1 ≤ event.cursor ∧ event.cursor ≤ events.length := by
  have hmem : event.cursor ∈ List.range' 1 events.length := h.cursors ▸ List.mem_map_of_mem he
  rw [List.mem_range'_1] at hmem
  omega

theorem Numbered.last_cursor (h : Numbered events) : (events.getLast?.map (·.cursor)).getD 0 = events.length := by
  rw [← List.getLast?_map, h.cursors, List.getLast?_range']
  split_ifs with hempty
  · rw [hempty]
    rfl
  · rw [Option.getD_some]
    omega

theorem Numbered.append (h : Numbered events) (event : LedgerEvent) (checkCancel : Bool) :
    Numbered (logAppend events event checkCancel).2 := by
  unfold logAppend
  split_ifs with hcancel hclash
  · exact h
  · exact h
  · rw [Bool.not_eq_true, collides_eq_false] at hclash
    refine ⟨?_, ?_, ?_⟩
    · rw [List.map_append, h.cursors, List.length_append, List.length_singleton, List.range'_concat, Nat.one_mul]
      exact congrArg (fun n => List.range' 1 events.length ++ [n]) (Nat.add_comm ..)
    · rw [List.map_append, List.nodup_append]
      refine ⟨h.ids, List.nodup_singleton _, fun id hid other hother => ?_⟩
      obtain ⟨item, hitem, rfl⟩ := List.mem_map.1 hid
      obtain rfl := List.mem_singleton.1 hother
      exact (hclash item hitem).1
    · rw [List.map_append, List.nodup_append]
      refine ⟨h.keys, List.nodup_singleton _, fun key hkey other hother => ?_⟩
      obtain ⟨item, hitem, rfl⟩ := List.mem_map.1 hkey
      obtain rfl := List.mem_singleton.1 hother
      exact (hclash item hitem).2

end Log

end Ledger
end Kolyan
