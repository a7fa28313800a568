/-
# The fact journal on SQLite

`crates/kolyan-ledger/src/facts/sqlite.rs`: `SqliteFactJournal` keeps its records
in one table with two keys and its batches in another, in one transaction an
append.  A JSON column is here the value that its text encodes.  `Shows` ties the
two tables to the three maps of `MemoryState`; an append keeps it and gives the
same answer (`sqlite_simulates`), so the SQLite journal keeps the contract of
`FactJournal` too.
-/

import Kolyan.Facts.Integrity
import Kolyan.Lib.Histories

namespace Kolyan
namespace Facts

open Checks

/-- A row of `fact_batches`. -/
structure BatchRow where
  streamId : String
  expectedPosition : ℕ
  records : List FactRecord

/-- The tables `fact_records` and `fact_batches`, in the order of insertion. -/
structure SqliteTables where
  records : List FactRecord
  batches : List BatchRow

namespace SqliteTables

/-- New tables. -/
def empty : SqliteTables := ⟨[], []⟩

/-- The records of a stream. -/
def rows (tables : SqliteTables) (stream : String) : List FactRecord :=
  tables.records.filter fun r => r.streamId = stream

/-- `SELECT record_json FROM fact_records WHERE fact_id=?1`. -/
def lookup (tables : SqliteTables) (factId : String) : Option FactRecord :=
  tables.records.find? fun r => r.draft.factId = factId

/-- `SELECT records_json FROM fact_batches WHERE stream_id=?1 AND expected_position=?2`. -/
def original (tables : SqliteTables) (stream : String) (expected : ℕ) : Option (List FactRecord) :=
  (tables.batches.find? fun b => b.streamId = stream && b.expectedPosition = expected).map (·.records)

/-- `SELECT COALESCE(MAX(position),0) FROM fact_records WHERE stream_id=?1`. -/
def head (tables : SqliteTables) (stream : String) : ℕ :=
  ((tables.rows stream).map (·.position)).foldl max 0

/-- A row that the keys or the check of `fact_records` refuse. -/
def refuses (rows : List FactRecord) (r : FactRecord) : Bool :=
  r.position = 0 || rows.any fun row =>
    (row.streamId = r.streamId && row.position = r.position) || row.draft.factId = r.draft.factId

/-- The inserts into `fact_records`. -/
def insertRecords (rows : List FactRecord) : List FactRecord → Except FactError (List FactRecord)
  | [] => .ok rows
  | r :: records => do
      reject (refuses rows r = true) (.storage "constraint failed: fact_records")
      insertRecords (rows ++ [r]) records

/-- The inserts of a transaction. -/
def insert (tables : SqliteTables) (stream : String) (expected : ℕ) (records : List FactRecord) :
    Except FactError SqliteTables := do
  let rows ← insertRecords tables.records records
  reject ((tables.original stream expected).isSome = true) (.storage "constraint failed: fact_batches")
  return { records := rows, batches := tables.batches ++ [⟨stream, expected, records⟩] }

/-- What `SqliteFactJournal::append` answers, and the tables that it commits if
it gets that far. -/
def plan (tables : SqliteTables) (stream : String) (expected : ℕ) (batch : List FactDraft) :
    Except FactError (List FactRecord × SqliteTables) := do
  validateBatch stream expected batch
  match tables.original stream expected with
  | some original => do
      let records ← retry original batch
      return (records, tables)
  | none => do
      let records ← planAppend stream expected (tables.head stream) batch tables.lookup
      let committed ← tables.insert stream expected records
      return (records, committed)

/-- `SqliteFactJournal::append`: an error drops the transaction. -/
def append (tables : SqliteTables) (stream : String) (expected : ℕ) (batch : List FactDraft) :
    Except FactError (List FactRecord) × SqliteTables :=
  match tables.plan stream expected batch with
  | .ok (records, committed) => (.ok records, committed)
  | .error e => (.error e, tables)

/-- `SqliteFactJournal::read`. -/
def read (tables : SqliteTables) (stream : String) (after limit : ℕ) : Except FactError (List FactRecord) := do
  validateRead stream limit
  if after ≥ i64Max then return []
  else return (((tables.rows stream).filter fun r => r.position > after).mergeSort
    fun a b => a.position ≤ b.position).take limit

end SqliteTables

/-- `SqliteFactJournal` as an implementation of the trait. -/
def sqliteJournal : FactJournal SqliteTables where
  read := SqliteTables.read
  append := SqliteTables.append

section Showing

/-- The tables hold what the maps of a memory journal hold. -/
structure SqliteTables.Shows (tables : SqliteTables) (state : MemoryState) : Prop where
  valid : state.Valid
  rows : ∀ s, tables.rows s = state.rows s
  lookup : ∀ id, tables.lookup id = state.identities[id]?
  original : ∀ s e, tables.original s e = state.batchAt s e

variable {tables : SqliteTables} {state : MemoryState}

theorem foldl_max_plannedRecords {s : String} {e : ℕ} (batch : List FactDraft) :
    ((plannedRecords s e batch).map (·.position)).foldl max e = e + batch.length := by
  induction batch generalizing e with
  | nil => rfl
  | cons d batch ih =>
    rw [plannedRecords, List.map_cons, List.foldl_cons, Nat.max_eq_right (Nat.le_succ e), ih, List.length_cons]
    omega

theorem SqliteTables.Shows.head (h : tables.Shows state) (s : String) : tables.head s = state.head s := by
  have hmax := foldl_max_plannedRecords (s := s) (e := 0) ((state.rows s).map (·.draft))
  rw [← h.valid.rows_planned s, List.length_map, Nat.zero_add] at hmax
  rw [SqliteTables.head, h.rows s, MemoryState.head_eq_length h.valid, hmax]

theorem SqliteTables.insertRecords_planned {rows : List FactRecord} {s : String} {e : ℕ} {batch : List FactDraft}
    (hids : (batch.map (·.factId)).Nodup) (hfresh : ∀ d ∈ batch, ∀ r ∈ rows, r.draft.factId ≠ d.factId)
    (hlow : ∀ r ∈ rows, r.streamId = s → r.position ≤ e) :
    SqliteTables.insertRecords rows (plannedRecords s e batch) = .ok (rows ++ plannedRecords s e batch) := by
  induction batch generalizing rows e with
  | nil => rw [plannedRecords, SqliteTables.insertRecords, List.append_nil]
  | cons d batch ih =>
    obtain ⟨hd, hids⟩ := List.nodup_cons.1 hids
    have hfree : ¬SqliteTables.refuses rows ⟨s, e + 1, d⟩ = true := by
      simp only [SqliteTables.refuses, Bool.or_eq_true, decide_eq_true_eq, List.any_eq_true, Bool.and_eq_true,
        not_or, not_exists, not_and]
      refine ⟨by omega, fun r hr => ⟨fun hs hpos => ?_, hfresh d (List.mem_cons_self ..) r hr⟩⟩
      have := hlow r hr hs
      omega
    rw [plannedRecords, SqliteTables.insertRecords, reject_of_not hfree, ok_bind, ih hids, List.append_assoc]
    · rfl
    · intro d' hd' r hr
      rcases List.mem_append.1 hr with hr | hr
      · exact hfresh d' (List.mem_cons_of_mem _ hd') r hr
      · obtain rfl := List.mem_singleton.1 hr
        exact fun hid => hd (List.mem_map.2 ⟨d', hd', hid.symm⟩)
    · intro r hr hs
      rcases List.mem_append.1 hr with hr | hr
      · exact Nat.le_succ_of_le (hlow r hr hs)
      · obtain rfl := List.mem_singleton.1 hr
        exact le_rfl

/-- The tables after a batch was committed at the head of its stream. -/
theorem SqliteTables.Shows.commit (h : tables.Shows state) {s : String} {batch : List FactDraft}
    (hbound : (state.rows s).length + batch.length ≤ i64Max) (hids : (batch.map (·.factId)).Nodup)
    (hfresh : ∀ d ∈ batch, state.identities[d.factId]? = none) (hnone : state.batchAt s (state.rows s).length = none) :
    ∃ committed, tables.insert s (state.rows s).length (plannedRecords s (state.rows s).length batch) = .ok committed ∧
      committed.Shows (state.commit s (state.rows s).length (plannedRecords s (state.rows s).length batch)) := by
  set e := (state.rows s).length with he
  have hlow : ∀ r ∈ tables.records, r.streamId = s → r.position ≤ e := by
    intro r hr hs
    have hmem : r ∈ tables.rows s := List.mem_filter.2 ⟨hr, decide_eq_true hs⟩
    rw [h.rows s, h.valid.rows_planned s] at hmem
    have := (mem_plannedRecords hmem).2.2.1
    rw [List.length_map] at this
    omega
  have hfree : ∀ d ∈ batch, ∀ r ∈ tables.records, r.draft.factId ≠ d.factId := by
    intro d hd r hr hid
    have hnone := hfresh d hd
    rw [← h.lookup, SqliteTables.lookup, List.find?_eq_none] at hnone
    exact hnone r hr (decide_eq_true hid)
  have hrows := insertRecords_planned hids hfree hlow
  have horiginal : ¬(tables.original s e).isSome = true := by
    rw [h.original, hnone]
    exact Bool.noConfusion
  refine ⟨⟨tables.records ++ plannedRecords s e batch, tables.batches ++ [⟨s, e, plannedRecords s e batch⟩]⟩, ?_,
    MemoryState.valid_commit h.valid hbound hids hfresh, fun t => ?_, fun id => ?_, fun t f => ?_⟩
  · rw [SqliteTables.insert, hrows, ok_bind, reject_of_not horiginal, ok_bind]
    rfl
  · rw [MemoryState.rows_commit, ← h.rows s, ← h.rows t]
    simp only [SqliteTables.rows, List.filter_append]
    split_ifs with hst
    · subst hst
      rw [List.filter_eq_self.2 fun r hr => decide_eq_true (mem_plannedRecords hr).1]
    · have hother : (plannedRecords s e batch).filter (fun r => decide (r.streamId = t)) = [] := by
        refine List.filter_eq_nil_iff.2 fun r hr => ?_
        rw [(mem_plannedRecords hr).1, decide_eq_true_eq]
        exact hst
      rw [hother, List.append_nil]
  · refine Option.ext fun r => ?_
    have hnodup : ((plannedRecords s e batch).map (·.draft.factId)).Nodup := by
      have hmap := congrArg (List.map FactDraft.factId) (map_draft_plannedRecords (s := s) (e := e) batch)
      rw [List.map_map] at hmap
      exact hmap ▸ hids
    rw [MemoryState.identities_commit, MemoryState.identities_foldl _ _ hnodup, ← h.lookup]
    simp only [SqliteTables.lookup, List.find?_append, Option.or_eq_some_iff]
    constructor
    · rintro (hold | ⟨hold, hnew⟩)
      · refine .inr ⟨fun q hq hqid => ?_, hold⟩
        refine hfree q.draft (mem_plannedRecords hq).2.2.2 r (List.mem_of_find?_eq_some hold) ?_
        rw [hqid]
        exact of_decide_eq_true (List.find?_some (p := fun r : FactRecord => decide (r.draft.factId = id)) hold)
      · refine .inl ⟨List.mem_of_find?_eq_some hnew, ?_⟩
        exact of_decide_eq_true (List.find?_some (p := fun r : FactRecord => decide (r.draft.factId = id)) hnew)
    · rintro (⟨hr, hid⟩ | ⟨-, hold⟩)
      · refine .inr ⟨List.find?_eq_none.2 fun q hq hqid => ?_, ?_⟩
        · refine hfree r.draft (mem_plannedRecords hr).2.2.2 q hq ?_
          rw [hid]
          exact of_decide_eq_true hqid
        · cases hfind : (plannedRecords s e batch).find? (fun r => decide (r.draft.factId = id)) with
          | none => exact absurd (decide_eq_true hid) (List.find?_eq_none.1 hfind r hr)
          | some q =>
            have hqid := of_decide_eq_true
              (List.find?_some (p := fun r : FactRecord => decide (r.draft.factId = id)) hfind)
            exact congrArg some (List.inj_on_of_nodup_map hnodup (List.mem_of_find?_eq_some hfind) hr (hqid.trans hid.symm))
      · exact .inl hold
  · rw [MemoryState.batchAt_commit, ← h.original t f]
    simp only [SqliteTables.original, List.find?_append]
    split_ifs with hst
    · obtain ⟨rfl, rfl⟩ := hst
      have hfind : tables.batches.find? (fun b => decide (b.streamId = s) && decide (b.expectedPosition = e)) = none := by
        have := h.original s e
        rw [hnone] at this
        exact Option.map_eq_none_iff.1 this
      rw [hfind]
      simp
    · have hmiss : (decide (s = t) && decide (e = f)) = false := by
        simpa using hst
      simp [hmiss]

theorem SqliteTables.Shows.plan_ok (h : tables.Shows state) {s : String} {e : ℕ} {batch : List FactDraft}
    {records : List FactRecord} {fresh : Bool} (hplan : state.plan s e batch = .ok (records, fresh)) :
    ∃ committed, tables.plan s e batch = .ok (records, committed) ∧
      committed.Shows (if fresh then state.commit s e records else state) ∧ (fresh = false → committed = tables) := by
  have hspec := MemoryState.plan_eq_ok h.valid hplan
  simp only [MemoryState.plan, bind_eq_ok] at hplan
  obtain ⟨_, hbatch, hplan⟩ := hplan
  simp only [SqliteTables.plan, hbatch, ok_bind, h.original]
  cases hat : state.batchAt s e with
  | some original =>
    rw [hat] at hplan
    simp only [bind_eq_ok] at hplan
    obtain ⟨again, hretry, hplan⟩ := hplan
    obtain ⟨rfl, rfl⟩ := Prod.mk.inj (pure_eq_ok.1 hplan)
    simp only [hretry, ok_bind]
    exact ⟨tables, rfl, h, fun _ => rfl⟩
  | none =>
    rw [hat] at hplan
    simp only [bind_eq_ok] at hplan
    obtain ⟨planned, hlookup, hplan⟩ := hplan
    obtain ⟨rfl, rfl⟩ := Prod.mk.inj (pure_eq_ok.1 hplan)
    obtain ⟨rfl, rfl, hbound, hids, hfresh, -⟩ := hspec
    obtain ⟨committed, hinsert, hshows⟩ := h.commit hbound hids hfresh hat
    rw [← h.head, ← funext h.lookup] at hlookup
    simp only [hlookup, ok_bind, hinsert]
    exact ⟨committed, rfl, hshows, nofun⟩

theorem SqliteTables.Shows.plan_error (h : tables.Shows state) {s : String} {e : ℕ} {batch : List FactDraft}
    {error : FactError} (hplan : state.plan s e batch = .error error) : tables.plan s e batch = .error error := by
  unfold MemoryState.plan at hplan
  unfold SqliteTables.plan
  rw [h.original, h.head, funext h.lookup]
  cases hbatch : validateBatch s e batch with
  | error refused =>
    rw [hbatch] at hplan
    exact congrArg Except.error (Except.error.inj hplan)
  | ok u =>
    rw [hbatch] at hplan
    cases hat : state.batchAt s e with
    | some original =>
      rw [hat] at hplan
      cases hretry : retry original batch with
      | ok records =>
        simp only [ok_bind, hretry] at hplan
        exact nomatch hplan
      | error refused =>
        simp only [ok_bind, hretry, error_bind] at hplan ⊢
        exact congrArg Except.error (Except.error.inj hplan)
    | none =>
      rw [hat] at hplan
      cases hfresh : planAppend s e (state.head s) batch (fun id => state.identities[id]?) with
      | ok records =>
        simp only [ok_bind, hfresh] at hplan
        exact nomatch hplan
      | error refused =>
        simp only [ok_bind, hfresh, error_bind] at hplan ⊢
        exact congrArg Except.error (Except.error.inj hplan)

theorem SqliteTables.Shows.append (h : tables.Shows state) (s : String) (e : ℕ) (batch : List FactDraft) :
    (tables.append s e batch).1 = (state.append s e batch).1 ∧
      (tables.append s e batch).2.Shows (state.append s e batch).2 := by
  unfold SqliteTables.append MemoryState.append
  cases hplan : state.plan s e batch with
  | error error =>
    rw [h.plan_error hplan]
    exact ⟨rfl, h⟩
  | ok planned =>
    obtain ⟨records, fresh⟩ := planned
    obtain ⟨committed, hcommitted, hshows, -⟩ := h.plan_ok hplan
    rw [hcommitted]
    cases fresh with
    | true => exact ⟨rfl, hshows⟩
    | false => exact ⟨rfl, hshows⟩

theorem SqliteTables.Shows.read (h : tables.Shows state) (s : String) (after limit : ℕ) :
    tables.read s after limit = state.read s after limit := by
  have hplanned := filter_position_plannedRecords (s := s) (e := 0) ((state.rows s).map (·.draft)) after
    (Nat.zero_le _)
  rw [← h.valid.rows_planned s, Nat.sub_zero] at hplanned
  have hsorted : ((state.rows s).drop after).Pairwise fun a b => decide (a.position ≤ b.position) = true := by
    refine List.Pairwise.sublist (List.drop_sublist _ _) ?_
    rw [h.valid.rows_planned s]
    have hlt := List.pairwise_lt_range' (s := 1) (n := ((state.rows s).map (·.draft)).length)
    rw [← positions_plannedRecords (s := s) (e := 0), List.pairwise_map] at hlt
    exact hlt.imp fun hab => decide_eq_true (Nat.le_of_lt hab)
  simp only [SqliteTables.read, MemoryState.read, h.rows s, hplanned]
  split_ifs with hafter
  · have hnone : (state.rows s).drop after = [] :=
      List.drop_eq_nil_of_le ((h.valid.rows_bounded s).trans hafter)
    rw [hnone, List.take_nil]
  · rw [List.mergeSort_of_pairwise hsorted]

end Showing

/-- The appends of a journal as a machine. -/
def FactJournal.appends {J : Type} (P : FactJournal J) :
    Machine AppendCall (fun _ => Except FactError (List FactRecord)) J where
  step j call := P.append j call.stream call.expected call.batch

/-- **The SQLite journal keeps the contract.** -/
def sqliteContract : sqliteJournal.Contract where
  Valid tables := ∃ state, tables.Shows state
  rows := SqliteTables.rows
  rows_planned := by
    rintro tables ⟨state, h⟩ s
    rw [h.rows s]
    exact h.valid.rows_planned s
  rows_bounded := by
    rintro tables ⟨state, h⟩ s
    rw [h.rows s]
    exact h.valid.rows_bounded s
  fact_unique := by
    rintro tables ⟨state, h⟩ s s' r r' hr hr' hid
    rw [h.rows] at hr hr'
    exact memoryContract.fact_unique h.valid hr hr' hid
  read_ok := by
    rintro tables ⟨state, h⟩ s limit hread after
    rw [h.rows s, show sqliteJournal.read tables s after limit = _ from h.read s after limit]
    exact memoryContract.read_ok h.valid hread after
  read_invalid := by
    rintro tables ⟨state, h⟩ s limit e hread after page
    rw [show sqliteJournal.read tables s after limit = _ from h.read s after limit]
    exact memoryContract.read_invalid h.valid hread after page
  append_ok := by
    rintro tables ⟨state, h⟩ s e batch records tables' happend
    replace happend : tables.append s e batch = (.ok records, tables') := happend
    unfold SqliteTables.append at happend
    cases hplan : state.plan s e batch with
    | error error =>
      rw [h.plan_error hplan] at happend
      exact nomatch (Prod.mk.inj happend).1
    | ok planned =>
      obtain ⟨planned, fresh⟩ := planned
      obtain ⟨committed, hcommitted, hshows, hsame⟩ := h.plan_ok hplan
      rw [hcommitted] at happend
      obtain ⟨hrecords, rfl⟩ := Prod.mk.inj happend
      obtain rfl := Except.ok.inj hrecords
      obtain ⟨hplanned, hspec⟩ := MemoryState.plan_eq_ok h.valid hplan
      refine ⟨⟨_, hshows⟩, hplanned, ?_⟩
      cases fresh with
      | false =>
        refine .inr ⟨hsame rfl, ?_⟩
        rw [h.rows s]
        exact hspec
      | true =>
        obtain ⟨hhead, -, -, hfresh, -⟩ := hspec
        refine .inl ⟨by rw [h.rows s]; exact hhead, fun d hd t r hr hid => ?_, funext fun t => ?_⟩
        · rw [h.rows t] at hr
          have hsome := (h.valid.identities d.factId r).2 ⟨hid, t, hr⟩
          rw [hfresh d hd] at hsome
          exact nomatch hsome
        · rw [Function.update_apply, h.rows s, h.rows t, hshows.rows t]
          simp only [if_true, MemoryState.rows_commit, eq_comm (a := s)]
  append_error := by
    rintro tables - s e batch error tables' happend
    replace happend : tables.append s e batch = (.error error, tables') := happend
    unfold SqliteTables.append at happend
    split at happend
    · exact nomatch (Prod.mk.inj happend).1
    · exact (Prod.mk.inj happend).2.symm

end Facts
end Kolyan
