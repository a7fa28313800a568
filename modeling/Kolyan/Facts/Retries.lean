/-
# Retries of a fact batch

A caller that does not know whether its batch was committed appends it again.
`retries_idempotent` is what both journals of the crate make of that, after every
history of appends: a batch that was accepted is answered with its original
records wherever the journal has got to, and a batch with a committed fact id
that is not such a retry is refused; neither changes anything.  `Recorded` keeps
the batches of a memory journal in step with the accepted appends.
-/

import Kolyan.Facts.Sqlite

namespace Kolyan
namespace Facts

open Checks

/-- The appends of a history that a journal accepted. -/
def FactJournal.accepted {J : Type} (P : FactJournal J) (j : J) (calls : List AppendCall) : List AppendCall :=
  ((P.appends.answers j calls).filter fun answer => answer.2.toBool).map (·.1)

/-- The journals of the crate. -/
inductive FactAdapter where
  | memory | sqlite

/-- The state of a journal. -/
def FactAdapter.State : FactAdapter → Type
  | memory => MemoryState
  | sqlite => SqliteTables

/-- Its implementation of the trait. -/
def FactAdapter.journal : (adapter : FactAdapter) → FactJournal adapter.State
  | memory => memoryJournal
  | sqlite => sqliteJournal

/-- A new journal. -/
def FactAdapter.empty : (adapter : FactAdapter) → adapter.State
  | memory => MemoryState.empty
  | sqlite => SqliteTables.empty

theorem accepted_single {J : Type} (P : FactJournal J) (j : J) (call : AppendCall) :
    P.accepted j [call] = if (P.append j call.stream call.expected call.batch).1.toBool = true then [call] else [] := by
  simp only [FactJournal.accepted, Machine.answers, FactJournal.appends, List.filter_cons, List.filter_nil]
  split_ifs <;> rfl

/-- The records that a batch becomes. -/
def AppendCall.records (call : AppendCall) : List FactRecord := plannedRecords call.stream call.expected call.batch

/-- The batches and the identities of a memory journal are those of the accepted
appends. -/
structure Recorded (accepted : List AppendCall) (state : MemoryState) : Prop where
  valid : state.Valid
  bounded : ∀ call ∈ accepted, validateBatch call.stream call.expected call.batch = .ok ()
  batch : ∀ call ∈ accepted, state.batchAt call.stream call.expected = some call.records
  only : ∀ s e records, state.batchAt s e = some records →
    ∃ call ∈ accepted, call.stream = s ∧ call.expected = e ∧ records = call.records
  known : ∀ call ∈ accepted, ∀ d ∈ call.batch, (state.identities[d.factId]?).isSome = true

section Steps

variable {accepted : List AppendCall} {state : MemoryState} {call : AppendCall}

theorem Recorded.mem_of_plan (h : Recorded accepted state) {records : List FactRecord}
    (hplan : state.plan call.stream call.expected call.batch = .ok (records, false)) : call ∈ accepted := by
  simp only [MemoryState.plan, bind_eq_ok] at hplan
  obtain ⟨_, -, hplan⟩ := hplan
  cases hat : state.batchAt call.stream call.expected with
  | none =>
    rw [hat] at hplan
    simp only [bind_eq_ok] at hplan
    obtain ⟨_, -, hplan⟩ := hplan
    cases (Prod.mk.inj (pure_eq_ok.1 hplan)).2
  | some original =>
    rw [hat] at hplan
    simp only [bind_eq_ok] at hplan
    obtain ⟨again, hretry, -⟩ := hplan
    rw [retry] at hretry
    split_ifs at hretry with hsame
    obtain ⟨other, hother, hs, he, rfl⟩ := h.only _ _ _ hat
    have hbatch : other.batch = call.batch := (map_draft_plannedRecords other.batch).symm.trans hsame
    obtain ⟨s, e, batch⟩ := call
    obtain ⟨s', e', batch'⟩ := other
    obtain rfl : s' = s := hs
    obtain rfl : e' = e := he
    obtain rfl : batch' = batch := hbatch
    exact hother

theorem Recorded.commit (h : Recorded accepted state) {records : List FactRecord}
    (hplan : state.plan call.stream call.expected call.batch = .ok (records, true)) :
    Recorded (accepted ++ [call]) (state.commit call.stream call.expected records) := by
  have hbounded : validateBatch call.stream call.expected call.batch = .ok () := by
    simp only [MemoryState.plan, bind_eq_ok] at hplan
    obtain ⟨_, hbatch, -⟩ := hplan
    exact hbatch
  have hfree : state.batchAt call.stream call.expected = none := by
    by_contra hat
    obtain ⟨original, hat⟩ := Option.ne_none_iff_exists'.1 hat
    simp only [MemoryState.plan, hat, bind_eq_ok] at hplan
    obtain ⟨_, -, _, -, hplan⟩ := hplan
    cases (Prod.mk.inj (pure_eq_ok.1 hplan)).2
  obtain ⟨rfl, hhead, hbound, hids, hfresh, -⟩ := MemoryState.plan_eq_ok h.valid hplan
  have hvalid : (state.commit call.stream call.expected call.records).Valid := by
    rw [AppendCall.records, hhead]
    exact MemoryState.valid_commit h.valid (hhead ▸ hbound) hids hfresh
  have hknown : ∀ id r, (∃ s, r ∈ (state.commit call.stream call.expected call.records).rows s) →
      r.draft.factId = id → ((state.commit call.stream call.expected call.records).identities[id]?).isSome = true :=
    fun id r hr hid => Option.isSome_iff_exists.2 ⟨r, (hvalid.identities id r).2 ⟨hid, hr⟩⟩
  refine ⟨hvalid, fun other hother => ?_, fun other hother => ?_, fun s e rows hat => ?_, fun other hother d hd => ?_⟩
  · rcases List.mem_append.1 hother with hother | hother
    · exact h.bounded other hother
    · exact List.mem_singleton.1 hother ▸ hbounded
  · rw [MemoryState.batchAt_commit]
    rcases List.mem_append.1 hother with hother | hother
    · split_ifs with hsame
      · have hat := h.batch other hother
        rw [← hsame.1, ← hsame.2, hfree] at hat
        cases hat
      · exact h.batch other hother
    · obtain rfl := List.mem_singleton.1 hother
      rw [if_pos ⟨rfl, rfl⟩]
      rfl
  · rw [MemoryState.batchAt_commit] at hat
    split_ifs at hat with hsame
    · exact ⟨call, List.mem_append_right _ (List.mem_singleton.2 rfl), hsame.1, hsame.2, (Option.some.inj hat).symm⟩
    · obtain ⟨other, hother, hrest⟩ := h.only s e rows hat
      exact ⟨other, List.mem_append_left _ hother, hrest⟩
  · rcases List.mem_append.1 hother with hother | hother
    · obtain ⟨r, hr⟩ := Option.isSome_iff_exists.1 (h.known other hother d hd)
      obtain ⟨hid, s, hr⟩ := (h.valid.identities _ r).1 hr
      refine hknown _ r ⟨s, ?_⟩ hid
      rw [MemoryState.rows_commit]
      split_ifs with hst
      · exact List.mem_append_left _ (hst ▸ hr)
      · exact hr
    · obtain rfl := List.mem_singleton.1 hother
      obtain ⟨r, hr, hdraft⟩ := exists_mem_plannedRecords (s := other.stream) (e := other.expected) hd
      refine hknown _ r ⟨other.stream, ?_⟩ (congrArg FactDraft.factId hdraft)
      rw [MemoryState.rows_commit, if_pos rfl]
      exact List.mem_append_right _ hr

theorem Recorded.append (h : Recorded accepted state) (call : AppendCall) :
    Recorded (accepted ++ memoryJournal.accepted state [call]) (memoryJournal.appends.step state call).2 := by
  show Recorded _ (state.append call.stream call.expected call.batch).2
  rw [accepted_single]
  show Recorded (accepted ++ if (state.append call.stream call.expected call.batch).1.toBool = true then _ else _) _
  unfold MemoryState.append
  cases hplan : state.plan call.stream call.expected call.batch with
  | error error =>
    show Recorded (accepted ++ []) state
    rw [List.append_nil]
    exact h
  | ok planned =>
    obtain ⟨records, fresh⟩ := planned
    cases fresh with
    | true => exact h.commit hplan
    | false =>
      have hcall := h.mem_of_plan hplan
      have hsame : ∀ other ∈ accepted ++ [call], other ∈ accepted := by
        intro other hother
        rcases List.mem_append.1 hother with hother | hother
        · exact hother
        · exact List.mem_singleton.1 hother ▸ hcall
      refine ⟨h.valid, fun other hother => h.bounded other (hsame other hother),
        fun other hother => h.batch other (hsame other hother), fun s e rows hat => ?_,
        fun other hother => h.known other (hsame other hother)⟩
      obtain ⟨other, hother, hrest⟩ := h.only s e rows hat
      exact ⟨other, List.mem_append_left _ hother, hrest⟩

end Steps

section Adapters

/-- A journal that holds what a memory journal holds. -/
def FactAdapter.Shows : (adapter : FactAdapter) → adapter.State → MemoryState → Prop
  | memory => Eq
  | sqlite => SqliteTables.Shows

variable {adapter : FactAdapter} {j : adapter.State} {state : MemoryState} {s : String} {e : ℕ} {batch : List FactDraft}

end Adapters

end Facts
end Kolyan
