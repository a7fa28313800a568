/-
# Integrity of the memory journal over whole histories

`MemoryFactJournal` through any sequence of `append` calls, accepted or refused,
from an empty journal.  Beside the state a history keeps the log: the batches
in the order they were committed.  The log is what "earlier" means for a cause
(`history_integrity`): every cause of a record resolves to a record before it in
the log, so the causal graph over all streams is acyclic.
-/

import Kolyan.Facts.Contract
import Kolyan.Lib.Acyclic

namespace Kolyan
namespace Facts

open Checks Acyclicity

/-- One call of `append`. -/
structure AppendCall where
  stream : String
  expected : ℕ
  batch : List FactDraft

/-- A journal and the batches it committed, in order. -/
structure JournalHistory where
  state : MemoryState
  log : List (List FactRecord)

namespace JournalHistory

/-- The history of a fresh journal. -/
def empty : JournalHistory := ⟨.empty, []⟩

/-- The history after one more call. -/
def call (history : JournalHistory) (c : AppendCall) : JournalHistory where
  state := (history.state.append c.stream c.expected c.batch).2
  log := history.log ++
    match history.state.plan c.stream c.expected c.batch with
    | .ok (records, true) => [records]
    | _ => []

/-- The history of a sequence of calls. -/
def of (calls : List AppendCall) : JournalHistory := calls.foldl call empty

/-- The committed records of all streams, in the order of their commits. -/
def records (history : JournalHistory) : List FactRecord := history.log.flatten

end JournalHistory

/-- A record is the one a cause names. -/
def FactRecord.IsAt (record : FactRecord) (cause : FactRef) : Prop :=
  record.streamId = cause.streamId ∧ record.position = cause.position ∧
    record.draft.factId = cause.factId

/-- Every cause of every record names a record before it. -/
def CausesEarlier (records : List FactRecord) : Prop :=
  ∀ earlier record later, records = earlier ++ record :: later →
    ∀ cause ∈ record.draft.causes, ∃ q ∈ earlier, q.IsAt cause

/-- **What the causal check established**: every cause is at an earlier record of
the batch or at a record the journal knew. -/
theorem checkCauses_eq_ok {lookup : String → Option FactRecord} {earlier records : List FactRecord}
    (h : checkCauses lookup earlier records = .ok ()) {front : List FactRecord} {record : FactRecord}
    {later : List FactRecord} (hsplit : records = front ++ record :: later) :
    ∀ cause ∈ record.draft.causes,
      ∃ q, (q ∈ earlier ++ front ∨ lookup cause.factId = some q) ∧ q.IsAt cause := by
  induction front generalizing earlier records with
  | nil =>
    subst hsplit
    simp only [List.nil_append, checkCauses, bind_eq_ok, forEach_eq_ok, reject_eq_ok, not_not] at h
    obtain ⟨_, hcauses, _⟩ := h
    intro cause hc
    have hres := hcauses cause hc
    simp only [causeResolves, Option.any_eq_true, Bool.and_eq_true, decide_eq_true_eq] at hres
    obtain ⟨q, hq, ⟨hstream, hposition⟩, hid⟩ := hres
    refine ⟨q, ?_, hstream, hposition, hid⟩
    rw [resolveCause, Option.or_eq_some_iff] at hq
    rcases hq with hq | ⟨_, hq⟩
    · left
      rw [List.append_nil]
      exact List.mem_of_find?_eq_some hq
    · exact Or.inr hq
  | cons p front ih =>
    subst hsplit
    simp only [List.cons_append, checkCauses, bind_eq_ok] at h
    obtain ⟨_, _, hrest⟩ := h
    have := ih hrest rfl
    simpa only [List.append_assoc, List.singleton_append] using this

theorem CausesEarlier.append {records more : List FactRecord} (hold : CausesEarlier records)
    (hnew : ∀ front record later, more = front ++ record :: later →
      ∀ cause ∈ record.draft.causes, ∃ q ∈ records ++ front, q.IsAt cause) :
    CausesEarlier (records ++ more) := by
  intro earlier record later hsplit cause hc
  rcases List.append_eq_append_iff.1 hsplit with ⟨front, hearlier, hmore⟩ | ⟨front, hrecords, hrest⟩
  · obtain ⟨q, hq, hat⟩ := hnew front record later hmore cause hc
    exact ⟨q, hearlier ▸ hq, hat⟩
  · cases front with
    | nil =>
      obtain ⟨q, hq, hat⟩ := hnew [] record later (by simpa using hrest.symm) cause hc
      refine ⟨q, ?_, hat⟩
      rw [List.append_nil] at hrecords hq
      exact hrecords ▸ hq
    | cons p front =>
      obtain ⟨rfl, _⟩ := List.cons.inj hrest
      exact hold earlier record front hrecords cause hc

/-- The invariant of a history: the tables agree with each other and with the log. -/
structure JournalHistory.Valid (history : JournalHistory) : Prop where
  tables : history.state.Valid
  streams : ∀ s, history.state.rows s = history.records.filter fun r => r.streamId = s
  ids : (history.records.map (·.draft.factId)).Nodup
  causes : CausesEarlier history.records

namespace JournalHistory

theorem valid_empty : empty.Valid where
  tables := MemoryState.valid_empty
  streams s := by simp [empty, records, MemoryState.rows, MemoryState.empty]
  ids := by simp [empty, records]
  causes := by intro earlier record later h; simp [empty, records] at h

variable {history : JournalHistory}

theorem Valid.mem_records (hv : history.Valid) {r : FactRecord} :
    r ∈ history.records ↔ ∃ s, r ∈ history.state.rows s := by
  simp [hv.streams]

theorem Valid.identities_iff (hv : history.Valid) {id : String} {r : FactRecord} :
    history.state.identities[id]? = some r ↔ r.draft.factId = id ∧ r ∈ history.records := by
  rw [hv.tables.identities, hv.mem_records]

theorem Valid.commit (hv : history.Valid) {s : String} {e : ℕ} {batch : List FactDraft}
    {added : List FactRecord} (h : history.state.plan s e batch = .ok (added, true)) :
    Valid ⟨history.state.commit s e added, history.log ++ [added]⟩ := by
  obtain ⟨rfl, rfl, hbound, hnd, hfresh, hcheck⟩ := MemoryState.plan_eq_ok hv.tables h
  set e := (history.state.rows s).length
  have hrecords : records ⟨history.state.commit s e (plannedRecords s e batch),
      history.log ++ [plannedRecords s e batch]⟩ = history.records ++ plannedRecords s e batch := by
    simp [records]
  refine ⟨MemoryState.valid_commit hv.tables hbound hnd hfresh, fun t => ?_, ?_, ?_⟩
  · rw [hrecords, MemoryState.rows_commit, List.filter_append]
    have hall : ∀ r ∈ plannedRecords s e batch, r.streamId = s := fun r hr => (mem_plannedRecords hr).1
    split_ifs with hst
    · subst hst
      have hkeep : (plannedRecords s e batch).filter (fun r => r.streamId = s) =
          plannedRecords s e batch := List.filter_eq_self.2 fun r hr => by simp [hall r hr]
      rw [hkeep, hv.streams]
    · have hdrop : (plannedRecords s e batch).filter (fun r => r.streamId = t) = [] :=
        List.filter_eq_nil_iff.2 fun r hr => by simpa [hall r hr] using hst
      rw [hdrop, List.append_nil, hv.streams]
  · have hmap : (plannedRecords s e batch).map (·.draft.factId) = batch.map (·.factId) := by
      have hdrafts := congrArg (List.map FactDraft.factId)
        (map_draft_plannedRecords (s := s) (e := e) batch)
      rwa [List.map_map] at hdrafts
    rw [hrecords, List.map_append, hmap, List.nodup_append]
    refine ⟨hv.ids, hnd, fun id hid id' hid' heq => ?_⟩
    subst heq
    obtain ⟨d, hd, rfl⟩ := List.mem_map.1 hid'
    obtain ⟨r, hr, hrd⟩ := List.mem_map.1 hid
    have hknown := hv.identities_iff.2 ⟨hrd, hr⟩
    rw [hfresh d hd] at hknown
    exact absurd hknown (by simp)
  · rw [hrecords]
    refine hv.causes.append fun front record later hsplit cause hc => ?_
    obtain ⟨q, hq, hat⟩ := checkCauses_eq_ok hcheck hsplit cause hc
    refine ⟨q, ?_, hat⟩
    rcases hq with hq | hq
    · exact List.mem_append_right _ hq
    · exact List.mem_append_left _ (hv.identities_iff.1 hq).2

theorem Valid.call (hv : history.Valid) (c : AppendCall) : (history.call c).Valid := by
  cases hplan : history.state.plan c.stream c.expected c.batch with
  | error e => simpa [JournalHistory.call, MemoryState.append, hplan] using hv
  | ok answer =>
    obtain ⟨added, fresh⟩ := answer
    cases fresh with
    | false => simpa [JournalHistory.call, MemoryState.append, hplan] using hv
    | true => simpa [JournalHistory.call, MemoryState.append, hplan] using hv.commit hplan

theorem valid_of (calls : List AppendCall) : (of calls).Valid := by
  have hrun : ∀ history : JournalHistory, history.Valid → (calls.foldl call history).Valid := by
    induction calls with
    | nil => exact fun _ hv => hv
    | cons c calls ih => exact fun _ hv => ih _ (hv.call c)
  exact hrun empty valid_empty

/-- A record cites a committed record as its cause. -/
def Cites (history : JournalHistory) (r q : FactRecord) : Prop :=
  r ∈ history.records ∧ q ∈ history.records ∧ ∃ cause ∈ r.draft.causes, q.IsAt cause

/-- **Causes go back in the log**, so no record is its own cause, however far. -/
theorem Valid.acyclic (hv : history.Valid) : Acyclic history.Cites := by
  refine acyclic_of_rank (fun r => history.records.idxOf r) fun r q ⟨hr, hq, cause, hc, hat⟩ => ?_
  obtain ⟨earlier, later, hsplit⟩ := List.append_of_mem hr
  obtain ⟨p, hp, hpat⟩ := hv.causes earlier r later hsplit cause hc
  have hmem : p ∈ history.records := hsplit ▸ List.mem_append_left _ hp
  have hid : p.draft.factId = q.draft.factId := hpat.2.2.trans hat.2.2.symm
  obtain rfl : p = q := List.inj_on_of_nodup_map hv.ids hmem hq hid
  have hnd : history.records.Nodup := .of_map _ hv.ids
  have hnot : r ∉ earlier := fun hre => by
    rw [hsplit, List.nodup_append] at hnd
    exact hnd.2.2 r hre r (List.mem_cons_self ..) rfl
  show history.records.idxOf p < history.records.idxOf r
  rw [hsplit, List.idxOf_append_of_mem hp, List.idxOf_append_of_notMem hnot, List.idxOf_cons_self]
  have := List.idxOf_lt_length_of_mem hp
  omega

end JournalHistory

/-- **Fact journal integrity.**  After any sequence of `append` calls each stream
holds positions `1..n` in order; a fact id occurs once over all streams; every
cause of every record is at exactly its coordinates in a record committed in an
earlier batch or earlier in the same batch, which the identity table resolves it
to; the causal graph over all streams is acyclic; and one more call that is
refused leaves streams, identities and batches as they were. -/
theorem history_integrity (calls : List AppendCall) :
    (∀ s, ((JournalHistory.of calls).state.rows s).map (·.position) =
        List.range' 1 ((JournalHistory.of calls).state.rows s).length ∧
      ∀ r ∈ (JournalHistory.of calls).state.rows s, r.streamId = s) ∧
    (∀ s t (i j : ℕ) (r q : FactRecord), ((JournalHistory.of calls).state.rows s)[i]? = some r →
      ((JournalHistory.of calls).state.rows t)[j]? = some q →
      r.draft.factId = q.draft.factId → s = t ∧ i = j) ∧
    (∀ s, (JournalHistory.of calls).state.rows s =
      (JournalHistory.of calls).log.flatten.filter fun r => r.streamId = s) ∧
    (∀ earlier record later,
      (JournalHistory.of calls).log.flatten = earlier ++ record :: later →
      ∀ cause ∈ record.draft.causes, ∃ q ∈ earlier, q.IsAt cause ∧
        (JournalHistory.of calls).state.identities[cause.factId]? = some q) ∧
    Acyclic (JournalHistory.of calls).Cites ∧
    ∀ (c : AppendCall) e,
      ((JournalHistory.of calls).state.append c.stream c.expected c.batch).1 = .error e →
      ((JournalHistory.of calls).state.append c.stream c.expected c.batch).2 =
        (JournalHistory.of calls).state := by
  have hv := JournalHistory.valid_of calls
  have hstream : ∀ {s r}, r ∈ (JournalHistory.of calls).state.rows s → r.streamId = s := by
    intro s r hr
    rw [hv.streams] at hr
    simpa using (List.mem_filter.1 hr).2
  refine ⟨fun s => ⟨?_, fun r hr => hstream hr⟩, ?_, hv.streams, ?_, hv.acyclic, ?_⟩
  · rw [hv.tables.rows_planned s, positions_plannedRecords, length_plannedRecords]
  · intro s t i j r q hr hq hid
    have hrs := List.mem_of_getElem? hr
    have hqt := List.mem_of_getElem? hq
    obtain rfl : r = q :=
      List.inj_on_of_nodup_map hv.ids (hv.mem_records.2 ⟨s, hrs⟩) (hv.mem_records.2 ⟨t, hqt⟩) hid
    obtain rfl : s = t := (hstream hrs).symm.trans (hstream hqt)
    have hnd : ((JournalHistory.of calls).state.rows s).Nodup := by
      rw [hv.streams]
      exact (List.Nodup.of_map _ hv.ids).filter _
    obtain ⟨hi, hri⟩ := List.getElem?_eq_some_iff.1 hr
    obtain ⟨hj, hrj⟩ := List.getElem?_eq_some_iff.1 hq
    exact ⟨rfl, (hnd.getElem_inj_iff).1 (hri.trans hrj.symm)⟩
  · intro earlier record later hsplit cause hc
    obtain ⟨q, hq, hat⟩ := hv.causes earlier record later hsplit cause hc
    refine ⟨q, hq, hat, hv.identities_iff.2 ⟨hat.2.2, ?_⟩⟩
    rw [JournalHistory.records, hsplit]
    exact List.mem_append_left _ hq
  · intro c e h
    exact memoryContract.append_error hv.tables
      (Prod.ext h rfl : (JournalHistory.of calls).state.append _ _ _ = (.error e, _))

end Facts
end Kolyan
