/-
# Ledger calls alone

A caller that has the ledger to itself, in a world whose host it does not touch:
a store without failures of its own answers every valid read for the facts that
are there and leaves them as they are, a paged read within as many pages as the
execution has facts.
-/

import Kolyan.Ledger.Port
import Kolyan.Lib.Alone

namespace Kolyan
namespace Ledger

open Checks Threads

/-- A store that commits no append that it answers with an error. -/
def LedgerStore.Contract.Honest {σ : Type} {P : LedgerStore σ} (C : P.Contract) : Prop :=
  ∀ s event e, C.Valid s → (P.append s event).1 = .error e → C.events (P.append s event).2 = C.events s

/-- A store without failures of its own: it answers every valid query, and commits
every event whose identity and key are free. -/
structure LedgerStore.Contract.Reliable {σ : Type} {P : LedgerStore σ} (C : P.Contract) : Prop where
  honest : C.Honest
  reads : ∀ s q, C.Valid s → q.validate = .ok () → ∃ page, (P.query s q).1 = .ok page
  commits : ∀ s event, C.Valid s → collides (C.events s) event = false → ∃ saved, (P.append s event).1 = .ok saved

section Alone

variable {σ H E : Type} {A : E → Type} {P : LedgerStore σ} {C : P.Contract}
variable {hostStep : ℕ → H → (e : E) → A e × H} {thread : ℕ} {w : World σ H}

/-- A world with the facts and the host of another. -/
structure World.Same (C : P.Contract) (w w' : World σ H) : Prop where
  sound : w'.Sound C
  events : w'.events C = w.events C
  host : w'.host = w.host

theorem World.Same.refl (hw : w.Sound C) : World.Same C w w := ⟨hw, rfl, rfl⟩

theorem World.Same.trans {w' w'' : World σ H} (h : World.Same C w w') (h' : World.Same C w' w'') :
    World.Same C w w'' :=
  ⟨h'.sound, h'.events.trans h.events, h'.host.trans h.host⟩

theorem checkedQuery_alone (reliable : C.Reliable) (hw : w.Sound C) {q : LedgerQuery} (hvalid : q.validate = .ok ()) :
    ∃ w', (checkedQuery q : LedgerProg A _).run.run (perform P hostStep thread) w =
      some (.ok (((w.events C).filter q.selects).take q.limit), w') ∧ World.Same C w w' := by
  obtain ⟨page, hpage⟩ := reliable.reads w.store q hw.valid hvalid
  obtain rfl := C.query_ok hw.valid hpage
  have hframe := C.query_frame hw.valid q
  have hquery : (query q : LedgerProg A _).run.run (perform P hostStep thread) w =
      some (.ok ((C.events w.store).filter q.selects |>.take q.limit), { w with store := (P.query w.store q).2 }) :=
    congrArg some (Prod.ext hpage rfl)
  refine ⟨_, ?_, (hw.perform hostStep thread (.ledger (.query q))).1, hframe.2, rfl⟩
  have hlimit : ¬((C.events w.store).filter q.selects |>.take q.limit).length > q.limit := by
    rw [List.length_take]
    omega
  have hpage : checkPage q q.after ((C.events w.store).filter q.selects |>.take q.limit) = .ok () :=
    checkPage_exact (C.ascending hw.valid) _ _ (.inl le_rfl)
  rw [checkedQuery, Fallible.run_then (Fallible.run_lift hvalid), Fallible.run_then hquery,
    Fallible.run_then (Fallible.run_lift (reject_of_not hlimit)), Fallible.run_then (Fallible.run_lift hpage)]
  rfl

theorem executionPage_validate {executionId : String} (hid : executionId ≠ "") (after : ℕ) :
    (executionPage executionId after).validate = .ok () := by
  have hempty : executionId.isEmpty = false := by
    rw [← Bool.not_eq_true, String.isEmpty_iff]
    exact hid
  simp [LedgerQuery.validate, executionPage, reject, hempty]

theorem eventPages_alone (reliable : C.Reliable) {executionId : String} (hid : executionId ≠ "") {start : ℕ}
    (fuel : ℕ) : ∀ {after : ℕ} {acc : List LedgerEvent} {w : World σ H}, w.Sound C →
      Paged (fun event => decide (event.executionId = executionId)) start after acc (w.events C) →
      (since (fun event => decide (event.executionId = executionId)) start (w.events C)).length < fuel + acc.length →
      ∃ w', (eventPages executionId fuel after acc : LedgerProg A _).run.run (perform P hostStep thread) w =
        some (.ok (since (fun event => decide (event.executionId = executionId)) start (w.events C)), w') ∧
          World.Same C w w' := by
  induction fuel with
  | zero =>
    intro after acc w hw hpaged hlt
    have hlen := congrArg List.length hpaged.split
    rw [List.length_append] at hlen
    omega
  | succ fuel ih =>
    intro after acc w hw hpaged hlt
    obtain ⟨w', hquery, hsame⟩ : ∃ w', (checkedQuery (executionPage executionId after) : LedgerProg A _).run.run
        (perform P hostStep thread) w = some (.ok (((w.events C).filter (executionPage executionId after).selects).take
          (executionPage executionId after).limit), w') ∧ World.Same C w w' :=
      checkedQuery_alone reliable hw (executionPage_validate hid after)
    rw [selects_since, show (executionPage executionId after).limit = 512 from rfl] at hquery
    rw [eventPages, Fallible.run_then hquery]
    dsimp only
    split_ifs with hshort
    · rw [hpaged.last hshort]
      exact ⟨w', rfl, hsame⟩
    · obtain ⟨last, hlast⟩ : ∃ last, ((since (fun event => decide (event.executionId = executionId))
          after (w.events C)).take 512).getLast? = some last := by
        refine Option.ne_none_iff_exists'.1 fun hnone => hshort ?_
        rw [List.getLast?_eq_none_iff.1 hnone]
        decide
      rw [hlast, Option.map_some, Option.getD_some, ← hsame.events]
      rw [← hsame.events] at hlast hpaged hlt hshort
      obtain ⟨w'', hrest, hsame'⟩ := ih hsame.sound (hpaged.page (C.ascending hsame.sound.valid) hlast) (by
        rw [List.length_append]
        omega)
      exact ⟨w'', hrest, hsame.trans hsame'⟩

theorem executionEventsAfter_alone (reliable : C.Reliable) (hw : w.Sound C) {executionId : String}
    (hid : executionId ≠ "") {fuel : ℕ} (hfuel : (w.events C).length < fuel) :
    ∃ w', (executionEventsAfter fuel executionId 0 : LedgerProg A _).run.run (perform P hostStep thread) w =
      some (.ok ((w.events C).filter fun event => event.executionId = executionId), w') ∧ World.Same C w w' := by
  rw [← since_zero hw]
  refine eventPages_alone reliable hid fuel hw Paged.start ?_
  exact (List.length_filter_le _ _).trans_lt hfuel

end Alone

end Ledger
end Kolyan
