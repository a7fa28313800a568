/-
# The contract of a fact journal, and that the memory journal keeps it

The trait `FactJournal` promises its callers two operations over append-only
streams: an ascending read that an adapter may cap at fewer records than were
asked for, and an atomic compare-and-append that answers an identical batch at
its original position with the original records.  `FactJournal.Contract` states
that promise about an abstract view of the journal, the committed rows of every
stream.  The coordinator's theorems use only the contract; `memoryContract`
proves it of `MemoryFactJournal`, whose invariant ties the three tables of
`MemoryState` together.
-/

import Kolyan.Facts.Journal

namespace Kolyan
namespace Facts

open Checks

/-- The trait `FactJournal`. -/
structure FactJournal (J : Type) where
  read : J → String → ℕ → ℕ → Except FactError (List FactRecord)
  append : J → String → ℕ → List FactDraft → Except FactError (List FactRecord) × J

/-- What a read after `after` may return: a prefix of the later rows, within
the limit, and empty only when there is nothing later. -/
structure IsPage (rows : List FactRecord) (after limit : ℕ) (page : List FactRecord) : Prop where
  isPrefix : page <+: rows.drop after
  length_le : page.length ≤ limit
  ne_nil : rows.drop after ≠ [] → page ≠ []

/-- The contract of `FactJournal` over the committed rows of every stream: an
append commits its batch at the head of the stream, or answers a batch that was
committed there before, or fails; only the first changes the journal. -/
structure FactJournal.Contract {J : Type} (P : FactJournal J) where
  Valid : J → Prop
  rows : J → String → List FactRecord
  rows_planned : ∀ {j}, Valid j → ∀ s, rows j s = plannedRecords s 0 ((rows j s).map (·.draft))
  rows_bounded : ∀ {j}, Valid j → ∀ s, (rows j s).length ≤ i64Max
  fact_unique : ∀ {j}, Valid j → ∀ {s s' r r'}, r ∈ rows j s → r' ∈ rows j s' →
    r.draft.factId = r'.draft.factId → r = r'
  read_ok : ∀ {j}, Valid j → ∀ {s limit}, validateRead s limit = .ok () → ∀ after,
    ∃ page, P.read j s after limit = .ok page ∧ IsPage (rows j s) after limit page
  read_invalid : ∀ {j}, Valid j → ∀ {s limit e}, validateRead s limit = .error e → ∀ after page,
    P.read j s after limit ≠ .ok page
  append_ok : ∀ {j}, Valid j → ∀ {s e batch records j'},
    P.append j s e batch = (.ok records, j') →
      Valid j' ∧ records = plannedRecords s e batch ∧
        ((e = (rows j s).length ∧ (∀ d ∈ batch, ∀ t, ∀ r ∈ rows j t, r.draft.factId ≠ d.factId) ∧
            rows j' = Function.update (rows j) s (rows j s ++ records)) ∨
          (j' = j ∧ records <+: (rows j s).drop e))
  append_error : ∀ {j}, Valid j → ∀ {s e batch err j'},
    P.append j s e batch = (.error err, j') → j' = j

section Planned

variable {s : String} {e : ℕ}

@[simp] theorem length_plannedRecords (batch : List FactDraft) :
    (plannedRecords s e batch).length = batch.length := by
  induction batch generalizing e with
  | nil => rfl
  | cons d batch ih => simp [plannedRecords, ih]

@[simp] theorem map_draft_plannedRecords (batch : List FactDraft) :
    (plannedRecords s e batch).map (·.draft) = batch := by
  induction batch generalizing e with
  | nil => rfl
  | cons d batch ih => simp [plannedRecords, ih]

theorem plannedRecords_append (b c : List FactDraft) :
    plannedRecords s e (b ++ c) = plannedRecords s e b ++ plannedRecords s (e + b.length) c := by
  induction b generalizing e with
  | nil => rfl
  | cons d b ih =>
    rw [List.cons_append, plannedRecords, ih, plannedRecords, List.cons_append, List.length_cons,
      Nat.add_right_comm, Nat.add_assoc]

theorem positions_plannedRecords (batch : List FactDraft) :
    (plannedRecords s e batch).map (·.position) = List.range' (e + 1) batch.length := by
  induction batch generalizing e with
  | nil => rfl
  | cons d batch ih =>
    rw [plannedRecords, List.map_cons, ih, List.length_cons, List.range'_succ]

theorem mem_plannedRecords {batch : List FactDraft} {r : FactRecord}
    (h : r ∈ plannedRecords s e batch) :
    r.streamId = s ∧ e < r.position ∧ r.position ≤ e + batch.length ∧ r.draft ∈ batch := by
  induction batch generalizing e with
  | nil => simp [plannedRecords] at h
  | cons d batch ih =>
    rcases List.mem_cons.1 h with rfl | h
    · simp
    · obtain ⟨h₁, h₂, h₃, h₄⟩ := ih h
      refine ⟨h₁, by omega, ?_, List.mem_cons_of_mem _ h₄⟩
      simp only [List.length_cons]; omega

theorem exists_mem_plannedRecords {batch : List FactDraft} {d : FactDraft} (h : d ∈ batch) :
    ∃ r ∈ plannedRecords s e batch, r.draft = d := by
  rw [← map_draft_plannedRecords (s := s) (e := e) batch] at h
  exact List.mem_map.1 h

theorem drop_plannedRecords (batch : List FactDraft) (n : ℕ) :
    (plannedRecords s e batch).drop n = plannedRecords s (e + n) (batch.drop n) := by
  induction n generalizing e batch with
  | zero => simp
  | succ n ih =>
    cases batch with
    | nil => simp [plannedRecords]
    | cons d batch =>
      rw [plannedRecords, List.drop_succ_cons, List.drop_succ_cons, ih]
      congr 1; omega

/-- **A numbered list is read by dropping.**  The rows after position `n` are
those with a larger position. -/
theorem filter_position_plannedRecords (batch : List FactDraft) (n : ℕ) (h : e ≤ n) :
    (plannedRecords s e batch).filter (fun r => decide (r.position > n)) =
      (plannedRecords s e batch).drop (n - e) := by
  induction batch generalizing e with
  | nil => simp [plannedRecords]
  | cons d batch ih =>
    rw [plannedRecords, List.filter_cons]
    rcases Nat.eq_or_lt_of_le h with rfl | hlt
    · have hall : ∀ r ∈ plannedRecords s (e + 1) batch, decide (r.position > e) = true := by
        intro r hr
        have := (mem_plannedRecords hr).2.1
        simp only [decide_eq_true_eq]; omega
      simp [List.filter_eq_self.2 hall]
    · have hn : ¬(e + 1 > n) := by omega
      simp only [decide_eq_true_eq, hn, if_false]
      rw [ih (by omega), show n - e = n - (e + 1) + 1 by omega, List.drop_succ_cons]

theorem getLast?_plannedRecords (batch : List FactDraft) :
    ∀ r, (plannedRecords s e batch).getLast? = some r → r.position = e + batch.length := by
  induction batch generalizing e with
  | nil => simp [plannedRecords]
  | cons d batch ih =>
    intro r hr
    rw [plannedRecords] at hr
    cases hb : batch with
    | nil => simp [hb, plannedRecords] at hr; simp [← hr]
    | cons d' batch' =>
      rw [List.getLast?_cons] at hr
      have hlast : ∃ q, (plannedRecords s (e + 1) batch).getLast? = some q := by
        rw [hb, plannedRecords]; simp [List.getLast?_cons]
      obtain ⟨q, hq⟩ := hlast
      rw [hq] at hr
      obtain rfl : q = r := by simpa using hr
      rw [ih q hq, ← hb, List.length_cons]; omega

end Planned

theorem validateDrafts_nodup {seen : List String} {batch : List FactDraft}
    (h : validateDrafts seen batch = .ok ()) :
    (batch.map (·.factId)).Nodup ∧ ∀ d ∈ batch, d.factId ∉ seen := by
  induction batch generalizing seen with
  | nil => simp
  | cons d batch ih =>
    simp only [validateDrafts, validateDraft, bind_eq_ok, reject_eq_ok] at h
    obtain ⟨_, ⟨_, _, _, _, _, _, _, _, _, _, _, hd, _⟩, hrest⟩ := h
    obtain ⟨hn, hs⟩ := ih hrest
    refine ⟨List.nodup_cons.2 ⟨fun hm => ?_, hn⟩, List.forall_mem_cons.2 ⟨hd, fun c hc hm => ?_⟩⟩
    · obtain ⟨c, hc, he⟩ := List.mem_map.1 hm
      exact hs c hc (by simp [he])
    · exact hs c hc (List.mem_cons_of_mem _ hm)

namespace MemoryState

/-- The three tables agree: rows are numbered from one, the identity table
knows exactly the committed records, and a batch is where it was committed. -/
structure Valid (state : MemoryState) : Prop where
  rows_planned : ∀ s, state.rows s = plannedRecords s 0 ((state.rows s).map (·.draft))
  rows_bounded : ∀ s, (state.rows s).length ≤ i64Max
  identities : ∀ id r, state.identities[id]? = some r ↔
    r.draft.factId = id ∧ ∃ s, r ∈ state.rows s
  batches : ∀ s e records, state.batchAt s e = some records → records <+: (state.rows s).drop e

theorem valid_empty : Valid empty where
  rows_planned s := by simp [rows, empty, plannedRecords]
  rows_bounded s := by simp [rows, empty]
  identities id r := by simp [rows, empty]
  batches s e records h := by simp [batchAt, empty] at h

theorem head_eq_length {state : MemoryState} (hv : state.Valid) (s : String) :
    state.head s = (state.rows s).length := by
  unfold head
  have h := getLast?_plannedRecords (s := s) (e := 0) ((state.rows s).map (·.draft))
  rw [← hv.rows_planned s, List.length_map, Nat.zero_add] at h
  cases hl : (state.rows s).getLast? with
  | none => simp [List.getLast?_eq_none_iff.1 hl]
  | some r => exact h r hl

theorem rows_commit (state : MemoryState) (s t : String) (e : ℕ) (records : List FactRecord) :
    (state.commit s e records).rows t = if s = t then state.rows s ++ records else state.rows t := by
  simp only [rows, commit, Std.ExtTreeMap.getD_insert, Std.LawfulEqCmp.compare_eq_iff_eq]

theorem batchAt_commit (state : MemoryState) (s t : String) (e f : ℕ) (records : List FactRecord) :
    (state.commit s e records).batchAt t f =
      if s = t ∧ e = f then some records else state.batchAt t f := by
  simp only [batchAt, commit, Std.ExtTreeMap.getD_insert, Std.LawfulEqCmp.compare_eq_iff_eq]
  by_cases hs : s = t
  · subst hs
    simp [Std.ExtTreeMap.getElem?_insert]
  · simp [hs]

theorem identities_commit (state : MemoryState) (s : String) (e : ℕ) (records : List FactRecord) :
    (state.commit s e records).identities =
      records.foldl (fun ids r => ids.insert r.draft.factId r) state.identities := rfl

theorem identities_foldl (records : List FactRecord) (ids : Std.ExtTreeMap String FactRecord)
    (hn : (records.map (·.draft.factId)).Nodup) (id : String) (r : FactRecord) :
    (records.foldl (fun ids r => ids.insert r.draft.factId r) ids)[id]? = some r ↔
      (r ∈ records ∧ r.draft.factId = id) ∨
        ((∀ q ∈ records, q.draft.factId ≠ id) ∧ ids[id]? = some r) := by
  induction records generalizing ids with
  | nil => simp
  | cons q records ih =>
    obtain ⟨hq, hn⟩ := List.nodup_cons.1 hn
    rw [List.foldl_cons, ih _ hn]
    simp only [Std.ExtTreeMap.getElem?_insert, Std.LawfulEqCmp.compare_eq_iff_eq,
      List.forall_mem_cons, List.mem_cons (a := r)]
    by_cases hid : q.draft.factId = id
    · have hno : ∀ p ∈ records, p.draft.factId ≠ id := fun p hp he =>
        hq (List.mem_map.2 ⟨p, hp, he.trans hid.symm⟩)
      simp only [hid, if_true, Option.some.injEq]
      constructor
      · rintro (⟨hr, he⟩ | ⟨_, rfl⟩)
        · exact absurd he (hno r hr)
        · exact Or.inl ⟨Or.inl rfl, hid⟩
      · rintro (⟨rfl | hr, he⟩ | ⟨⟨h, _⟩, _⟩)
        · exact Or.inr ⟨hno, rfl⟩
        · exact absurd he (hno r hr)
        · exact absurd rfl h
    · simp only [hid, if_false]
      constructor
      · rintro (⟨hr, he⟩ | ⟨h, h'⟩)
        · exact Or.inl ⟨Or.inr hr, he⟩
        · exact Or.inr ⟨⟨hid, h⟩, h'⟩
      · rintro (⟨rfl | hr, he⟩ | ⟨⟨_, h⟩, h'⟩)
        · exact absurd he hid
        · exact Or.inl ⟨hr, he⟩
        · exact Or.inr ⟨h, h'⟩

theorem valid_commit {state : MemoryState} (hv : state.Valid) {s : String} {batch : List FactDraft}
    (hbound : (state.rows s).length + batch.length ≤ i64Max) (hn : (batch.map (·.factId)).Nodup)
    (hfresh : ∀ d ∈ batch, state.identities[d.factId]? = none) :
    (state.commit s (state.rows s).length
      (plannedRecords s (state.rows s).length batch)).Valid := by
  set e := (state.rows s).length with he
  set records := plannedRecords s e batch with hrec
  have hmap : records.map (·.draft.factId) = batch.map (·.factId) := by
    have h := congrArg (List.map FactDraft.factId) (map_draft_plannedRecords (s := s) (e := e) batch)
    rwa [List.map_map] at h
  refine ⟨fun t => ?_, fun t => ?_, fun id r => ?_, fun t f rs h => ?_⟩
  · rw [rows_commit]
    split_ifs with ht
    · subst ht
      rw [List.map_append, plannedRecords_append, ← hv.rows_planned s, List.length_map, hrec,
        map_draft_plannedRecords, Nat.zero_add]
    · exact hv.rows_planned t
  · rw [rows_commit]
    split_ifs
    · rw [List.length_append, hrec, length_plannedRecords]; exact hbound
    · exact hv.rows_bounded t
  · have hids := identities_foldl records state.identities (hmap ▸ hn) id r
    rw [identities_commit, hids, hv.identities]
    simp only [rows_commit]
    constructor
    · rintro (⟨hr, hid⟩ | ⟨_, hid, t, ht⟩)
      · exact ⟨hid, s, by rw [if_pos rfl]; exact List.mem_append_right _ hr⟩
      · refine ⟨hid, t, ?_⟩
        split_ifs with hst
        · exact List.mem_append_left _ (hst ▸ ht)
        · exact ht
    · rintro ⟨hid, t, ht⟩
      have hold : r ∉ records → ∃ t, r ∈ state.rows t := by
        intro hr
        split_ifs at ht with hst
        · exact ⟨s, (List.mem_append.1 ht).resolve_right hr⟩
        · exact ⟨t, ht⟩
      by_cases hr : r ∈ records
      · exact Or.inl ⟨hr, hid⟩
      · refine Or.inr ⟨fun q hq hqid => ?_, hid, hold hr⟩
        -- a committed record with the id of a new draft contradicts its freshness
        have hnone := hfresh q.draft (mem_plannedRecords hq).2.2.2
        have hsome := (hv.identities q.draft.factId r).2 ⟨by rw [hid, hqid], hold hr⟩
        rw [hnone] at hsome
        exact absurd hsome (by simp)
  · rw [batchAt_commit] at h
    rw [rows_commit]
    split_ifs at h with hst
    · obtain ⟨rfl, rfl⟩ := hst
      obtain rfl := Option.some.inj h
      rw [if_pos rfl, List.drop_append_of_le_length (le_refl _), List.drop_length, List.nil_append]
    · have hp := hv.batches t f rs h
      split_ifs with ht
      · subst ht
        refine hp.trans ?_
        rw [List.drop_append]
        exact List.prefix_append _ _
      · exact hp

/-- **What an accepted append did**: a fresh batch was committed at the head, or
the original records of an identical batch were returned. -/
theorem plan_eq_ok {state : MemoryState} (hv : state.Valid) {s : String} {e : ℕ}
    {batch : List FactDraft} {records : List FactRecord} {fresh : Bool}
    (h : state.plan s e batch = .ok (records, fresh)) :
    records = plannedRecords s e batch ∧
      if fresh then e = (state.rows s).length ∧ e + batch.length ≤ i64Max ∧
        (batch.map (·.factId)).Nodup ∧ (∀ d ∈ batch, state.identities[d.factId]? = none) ∧
        checkCauses (fun id => state.identities[id]?) [] records = .ok ()
      else records <+: (state.rows s).drop e := by
  simp only [plan, validateBatch, bind_eq_ok, reject_eq_ok] at h
  obtain ⟨_, ⟨_, _, _, hsize, hdrafts⟩, h⟩ := h
  have hnd := (validateDrafts_nodup hdrafts).1
  cases hb : state.batchAt s e with
  | some original =>
    rw [hb] at h
    simp only [retry] at h
    split_ifs at h with hmap
    · obtain ⟨rfl, rfl⟩ := Prod.mk.inj (pure_eq_ok.1 h)
      have hp := hv.batches s e original hb
      refine ⟨?_, hp⟩
      obtain ⟨post, hpost⟩ := hp
      have hrows := drop_plannedRecords (s := s) (e := 0) ((state.rows s).map (·.draft)) e
      rw [← hv.rows_planned s, ← hpost, Nat.zero_add, ← List.map_drop, ← hpost, List.map_append,
        plannedRecords_append] at hrows
      have hlen := (List.append_inj hrows (by simp)).1
      rw [hlen, hmap]
    · simp at h
  | none =>
    rw [hb] at h
    simp only [planAppend, bind_eq_ok, reject_eq_ok, pure_eq_ok] at h
    obtain ⟨_, ⟨_, hids, _, hhead, _, hcauses, rfl⟩, heq⟩ := h
    obtain ⟨rfl, rfl⟩ := Prod.mk.inj heq
    refine ⟨rfl, ?_⟩
    rw [not_not, head_eq_length hv] at hhead
    refine ⟨hhead, by omega, hnd, fun d hd => ?_, hcauses⟩
    obtain ⟨r, hr, rfl⟩ := exists_mem_plannedRecords (s := s) (e := e) hd
    simp only [List.any_eq_true, not_exists, not_and, Bool.not_eq_true, Option.isSome_eq_false_iff,
      Option.isNone_iff_eq_none] at hids
    exact hids r hr

end MemoryState

theorem validateRead_limit {stream : String} {limit : ℕ} (h : validateRead stream limit = .ok ()) : limit ≠ 0 := by
  simp only [validateRead, bind_eq_ok, reject_eq_ok] at h
  obtain ⟨_, _, hlimit⟩ := h
  omega

/-- `MemoryFactJournal` as an implementation of the trait. -/
def memoryJournal : FactJournal MemoryState where
  read := MemoryState.read
  append := MemoryState.append

/-- **The memory journal keeps the contract.** -/
def memoryContract : memoryJournal.Contract where
  Valid := MemoryState.Valid
  rows := MemoryState.rows
  rows_planned hv := hv.rows_planned
  rows_bounded hv := hv.rows_bounded
  fact_unique := by
    intro j hv s s' r r' hr hr' hid
    have h := (hv.identities r.draft.factId r).2 ⟨rfl, s, hr⟩
    have h' := (hv.identities r.draft.factId r').2 ⟨hid.symm, s', hr'⟩
    exact Option.some.inj (h.symm.trans h')
  read_ok := by
    intro j hv s limit hread after
    refine ⟨((j.rows s).drop after).take limit, ?_, List.take_prefix _ _, List.length_take_le _ _,
      fun hne hnil => ?_⟩
    · have hfilter := filter_position_plannedRecords (s := s) (e := 0)
        ((j.rows s).map (·.draft)) after (Nat.zero_le _)
      rw [← hv.rows_planned s, Nat.sub_zero] at hfilter
      simp only [memoryJournal, MemoryState.read, hread, ok_bind, hfilter]
      rfl
    · rcases List.take_eq_nil_iff.1 hnil with h | h
      · exact validateRead_limit hread h
      · exact hne h
  read_invalid := by
    intro j _ s limit e hread after page h
    simp only [memoryJournal, MemoryState.read, hread, error_bind] at h
    exact absurd h (by simp)
  append_ok := by
    intro j hv s e batch records j' h
    simp only [memoryJournal, MemoryState.append] at h
    cases hplan : j.plan s e batch with
    | error err => simp [hplan] at h
    | ok res =>
      obtain ⟨recs, fresh⟩ := res
      obtain ⟨rfl, hfresh⟩ := MemoryState.plan_eq_ok hv hplan
      cases fresh with
      | true =>
        rw [hplan] at h
        obtain ⟨rfl, hbound, hnd, hnone, _⟩ := hfresh
        obtain ⟨h₁, rfl⟩ := Prod.mk.inj h
        obtain rfl := Except.ok.inj h₁
        refine ⟨MemoryState.valid_commit hv hbound hnd hnone, rfl, Or.inl ⟨rfl, fun d hd t r hr hid => ?_, ?_⟩⟩
        · have := (hv.identities d.factId r).2 ⟨hid, t, hr⟩
          rw [hnone d hd] at this
          exact absurd this (by simp)
        · funext t
          rw [MemoryState.rows_commit, Function.update_apply]
          simp only [eq_comm (a := s)]
      | false =>
        rw [hplan] at h
        obtain ⟨h₁, rfl⟩ := Prod.mk.inj h
        obtain rfl := Except.ok.inj h₁
        exact ⟨hv, rfl, Or.inr ⟨rfl, hfresh⟩⟩
  append_error := by
    intro j hv s e batch err j' h
    simp only [memoryJournal, MemoryState.append] at h
    split at h
    · simp at h
    · simp at h
    · exact (Prod.mk.inj h).2.symm

end Facts
end Kolyan
