/-
# Exact reads

The trait `FactJournal` lets an adapter answer a read with fewer rows than it has
within the limit.  Both journals of the repository answer with all of them
(`memory_exact`, `sqlite_exact`), which is what a reader relies on that takes one
page for the whole stream.
-/

import Kolyan.Facts.Sqlite

namespace Kolyan
namespace Facts

open Checks

variable {J : Type} {P : FactJournal J}

theorem trimEmpty_append {front : String} (h : trimEmpty front = false) (rest : String) :
    trimEmpty (front ++ rest) = false := by
  unfold trimEmpty at *
  rw [String.toList_append, List.all_append, h, Bool.false_and]

theorem identity_append {front rest : String} (h : trimEmpty front = false)
    (hsize : front.utf8ByteSize + rest.utf8ByteSize ≤ maxFactIdBytes) : identity (front ++ rest) = .ok () := by
  refine reject_of_not (not_or.2 ⟨?_, ?_⟩)
  · rw [trimEmpty_append h]
    exact Bool.false_ne_true
  · rw [String.utf8ByteSize_append]
    exact not_lt.2 hsize

/-- **Reads that answer every row within the limit.** -/
structure FactJournal.Contract.Exact (contract : P.Contract) : Prop where
  read_exact : ∀ {j}, contract.Valid j → ∀ {s limit}, validateRead s limit = .ok () → ∀ after,
    P.read j s after limit = .ok (((contract.rows j s).drop after).take limit)

theorem FactJournal.Contract.Exact.read_eq_ok {contract : P.Contract} (h : contract.Exact) {j : J}
    (hv : contract.Valid j) {s : String} {after limit : ℕ} {page : List FactRecord} :
    P.read j s after limit = .ok page ↔
      validateRead s limit = .ok () ∧ page = ((contract.rows j s).drop after).take limit := by
  cases hread : validateRead s limit with
  | error e => exact ⟨fun hpage => absurd hpage (contract.read_invalid hv hread after page), fun hpage => nomatch hpage.1⟩
  | ok u =>
    rw [h.read_exact hv hread after]
    exact ⟨fun hpage => ⟨rfl, (Except.ok.inj hpage).symm⟩, fun hpage => by rw [hpage.2]⟩

theorem memory_exact : memoryContract.Exact where
  read_exact := by
    intro j hv s limit hread after
    have hfilter := filter_position_plannedRecords (s := s) (e := 0) ((j.rows s).map (·.draft)) after (Nat.zero_le _)
    rw [← MemoryState.Valid.rows_planned hv s, Nat.sub_zero] at hfilter
    show j.read s after limit = .ok (((j.rows s).drop after).take limit)
    simp only [MemoryState.read, hread, ok_bind, hfilter]
    rfl

theorem sqlite_exact : sqliteContract.Exact where
  read_exact := by
    rintro tables ⟨state, h⟩ s limit hread after
    show tables.read s after limit = .ok (((tables.rows s).drop after).take limit)
    rw [h.read s after limit, h.rows s]
    exact memory_exact.read_exact h.valid hread after

end Facts
end Kolyan
