/-
# Commands that are issued again

What a command that succeeded leaves in its stream (`command_ok`), and what the
same command answers later (`command_again`): the snapshot of then, and no second
fact.  What replay reaches from a snapshot is `Later`, so an attempt keeps its
binding, and once it has stopped also its observation.
-/

import Kolyan.Tasks.Concurrency
import Kolyan.Tasks.Finality

namespace Kolyan
namespace Tasks

open Checks Facts OrderedMaps

section Attempts

variable {sha256 : Value → String} {state next : TaskSnapshot}

theorem KeepsAttempt.trans {a b c : AttemptSnapshot} (h : KeepsAttempt a b) (h' : KeepsAttempt b c) :
    KeepsAttempt a c where
  binding := h'.binding.trans h.binding
  stopped := fun hlive => by
    obtain ⟨hstate, hobservation⟩ := h.stopped hlive
    obtain ⟨hstate', hobservation'⟩ := h'.stopped (hstate ▸ hlive)
    exact ⟨hstate'.trans hstate, hobservation'.trans hobservation⟩

theorem Later.keepsAttempt (h : Later sha256 state next) {id : String} {attempt : AttemptSnapshot}
    (hattempt : state.attempts[id]? = some attempt) :
    ∃ attempt', next.attempts[id]? = some attempt' ∧ KeepsAttempt attempt attempt' := by
  induction h with
  | refl => exact ⟨attempt, hattempt, KeepsAttempt.refl attempt⟩
  | tail _ hstep ih =>
    obtain ⟨attempt', hattempt', hkeeps⟩ := ih
    cases hstep with
    | event h =>
      obtain ⟨_, moved, heffect, rfl⟩ := apply_effect h
      obtain ⟨attempt'', hattempt'', hkeeps'⟩ := heffect.keepsAttempt hattempt'
      exact ⟨attempt'', hattempt'', hkeeps.trans hkeeps'⟩
    | skipped position => exact ⟨attempt', hattempt', hkeeps⟩

end Attempts

section Replaying

variable {J : Type} {journal : FactJournal J} {host : TaskHost} {j : J} {taskId : String}

theorem replayRecord_later {state : TaskSnapshot} {previous : Option FactRef} {record : FactRecord}
    {next : ReplayState} (h : replayRecord journal host j taskId ⟨some state, previous⟩ record = .ok next) :
    ∃ later, next.snapshot = some later ∧ Later host.sha256 state later := by
  simp only [replayRecord, bind_eq_ok, pure_eq_ok] at h
  obtain ⟨snapshot, hsnapshot, rfl⟩ := h
  rw [replaySnapshot] at hsnapshot
  split_ifs at hsnapshot
  · simp only [bind_eq_ok, pure_eq_ok] at hsnapshot
    obtain ⟨moved, hmoved, rfl⟩ := hsnapshot
    simp only [replayTransition, bind_eq_ok, pure_eq_ok] at hmoved
    obtain ⟨_, _, event, _, _, _, _, _, _, _, _, happly, _, _, rfl⟩ := hmoved
    exact ⟨_, rfl, (Relation.ReflTransGen.single (.event happly)).tail (.skipped record.position)⟩
  · simp only [bind_eq_ok, pure_eq_ok] at hsnapshot
    obtain ⟨_, _, rfl⟩ := hsnapshot
    exact ⟨_, rfl, .single (.skipped record.position)⟩

theorem replayFrom_later {records : List FactRecord} {state : TaskSnapshot} {previous : Option FactRef}
    {next : ReplayState} (h : replayFrom journal host j taskId ⟨some state, previous⟩ records = .ok next) :
    ∃ later, next.snapshot = some later ∧ Later host.sha256 state later := by
  induction records generalizing state previous with
  | nil =>
    obtain rfl := Except.ok.inj h
    exact ⟨state, rfl, .refl⟩
  | cons record records ih =>
    obtain ⟨⟨snapshot, reference⟩, hmiddle, h⟩ := bind_eq_ok.1 h
    obtain ⟨middle, hsnapshot, hlater⟩ := replayRecord_later hmiddle
    obtain rfl : snapshot = some middle := hsnapshot
    obtain ⟨later, hnext, hlater'⟩ := ih h
    exact ⟨later, hnext, hlater.trans hlater'⟩

theorem replay_later {contract : journal.Contract} {j' : J} (hs : Settled contract j) (hs' : Settled contract j')
    (hgrows : Grows contract j j') {state next : TaskSnapshot}
    (h : replay journal host j taskId (contract.rows j taskId) = .ok (some state))
    (h' : replay journal host j' taskId (contract.rows j' taskId) = .ok (some next)) :
    Later host.sha256 state next := by
  obtain ⟨more, hmore⟩ := hgrows taskId
  have hold := replay_grows hs hs' hgrows h
  obtain ⟨middle, hmiddle, hstate⟩ := bind_eq_ok.1 hold
  obtain ⟨final, hfinal, hnext⟩ := bind_eq_ok.1 h'
  rw [← hmore, replayFrom_append, hmiddle, ok_bind] at hfinal
  obtain ⟨snapshot, reference⟩ := middle
  obtain rfl : snapshot = some state := pure_eq_ok.1 hstate
  obtain ⟨later, hlater, hreaches⟩ := replayFrom_later hfinal
  obtain rfl : later = next := Option.some.inj (hlater.symm.trans (pure_eq_ok.1 hnext))
  exact hreaches

theorem snapshot_eq_ok {contract : journal.Contract} (hv : contract.Valid j) {fuel : ℕ} {state : TaskSnapshot}
    (h : snapshot journal host j fuel taskId = some (.ok state)) :
    identity taskId = .ok () ∧ replay journal host j taskId (contract.rows j taskId) = .ok (some state) := by
  obtain ⟨read, hread, h⟩ := Option.map_eq_some_iff.1 h
  have htask : identity taskId = .ok () := by
    cases htask : identity taskId with
    | error e =>
      simp only [records, htask, Option.some.injEq] at hread
      simp [← hread, Bind.bind, Except.bind] at h
    | ok u => rfl
  obtain rfl := (records_rows hv htask fuel).1 read hread
  simp only [ok_bind, bind_eq_ok, expect_eq_ok] at h
  obtain ⟨_, hreplay, rfl⟩ := h
  exact ⟨htask, hreplay⟩

end Replaying

section Commands

variable {J : Type} {journal : FactJournal J} {contract : journal.Contract} {host : TaskHost} {j j' : J}
variable {taskId factId : String} {event : TaskEvent}

theorem command_identities {fuel : ℕ} {next : TaskSnapshot}
    (h : command journal host j fuel taskId factId event = some (.ok next, j')) :
    identity factId = .ok () ∧ identity taskId = .ok () := by
  rw [command] at h
  cases hfact : identity factId with
  | error e => simp [hfact] at h
  | ok u =>
    cases htask : identity taskId with
    | error e => simp [hfact, records, htask] at h
    | ok u => exact ⟨rfl, rfl⟩

/-- **What a command that succeeded leaves**: a record that carries it, in a
stream that replays to its answer. -/
theorem command_ok (hdecode : ∀ event : TaskEvent, host.decodeEvent event.toValue = .ok event)
    (hsubmits : Submits taskId event) (hs : Settled contract j) {fuel : ℕ} {next : TaskSnapshot}
    (h : command journal host j fuel taskId factId event = some (.ok next, j')) :
    (∃ r ∈ contract.rows j' taskId, Carries ⟨taskId, factId, event⟩ r) ∧
      replay journal host j' taskId (contract.rows j' taskId) = .ok (some next) ∧
      (j' = j ∨ ∃ state record, replay journal host j taskId (contract.rows j taskId) = .ok state ∧
        apply host.sha256 state event record = .ok next) := by
  obtain ⟨hfact, htask⟩ := command_identities h
  rw [command] at h
  simp only [hfact] at h
  cases hread : records journal j fuel taskId with
  | none => simp [hread] at h
  | some read =>
    obtain rfl := (records_rows hs.valid htask fuel).1 read hread
    simp only [hread, Option.some.injEq] at h
    cases hplan : planCommand journal host j taskId factId event (contract.rows j taskId) with
    | error e => simp [hplan, executePlan] at h
    | ok plan =>
      rw [hplan] at h
      cases plan with
      | done snapshot =>
        obtain ⟨hsnapshot, rfl⟩ := Prod.mk.inj h
        obtain rfl := Except.ok.inj hsnapshot
        have hcarries : ∃ r ∈ contract.rows j taskId, Carries ⟨taskId, factId, event⟩ r := carries_of_done hplan
        refine ⟨hcarries, ?_, .inl rfl⟩
        simp only [planCommand, bind_eq_ok] at hplan
        obtain ⟨state, hreplay, _, _, hplan⟩ := hplan
        split at hplan
        · simp only [bind_eq_ok, expect_eq_ok, pure_eq_ok, Plan.done.injEq] at hplan
          obtain ⟨_, _, _, rfl, rfl⟩ := hplan
          exact hreplay
        · simp only [planAppendFact, bind_eq_ok, pure_eq_ok] at hplan
          obtain ⟨_, _, _, _, _, _, _, _, _, _, hplan⟩ := hplan
          cases hplan
      | append expected candidate next' =>
        have hplanned := planned_of_plan hplan
        rcases executeAppend_cases hs.valid hplanned h with ⟨hnext, _, hv', hrows, _⟩ | ⟨_, _, hpart⟩ | ⟨⟨e, he⟩, _⟩
        · obtain rfl := Except.ok.inj hnext
          have hcarries : Carries ⟨taskId, factId, event⟩ candidate := Planned.carries hplanned
          refine ⟨⟨candidate, ?_, hcarries⟩, hplanned.replays hdecode hsubmits hs hv' hrows, .inr ?_⟩
          · rw [hrows, Function.update_self]
            exact List.mem_append_right _ (List.mem_singleton_self _)
          · simp only [planCommand, bind_eq_ok] at hplan
            obtain ⟨state, hreplay, _, _, hplan⟩ := hplan
            split at hplan
            · simp only [bind_eq_ok, expect_eq_ok, pure_eq_ok] at hplan
              obtain ⟨_, _, _, _, hplan⟩ := hplan
              cases hplan
            · simp only [planAppendFact, bind_eq_ok, pure_eq_ok] at hplan
              obtain ⟨_, _, _, _, _, _, moved, happly, _, _, hplan⟩ := hplan
              obtain ⟨-, -, rfl⟩ := Plan.append.inj hplan
              exact ⟨state, _, hreplay, happly⟩
        · rw [hplanned.expected_eq, lastPosition_rows hs.valid, List.drop_length] at hpart
          exact absurd (List.prefix_nil.1 hpart) (by simp)
        · cases he

/-- **A retry that the stream carries** has failed its attempt for good. -/
theorem carried_failed (hdecode : ∀ event : TaskEvent, host.decodeEvent event.toValue = .ok event)
    {attemptId why : String} {source : ExecutionEvidence} {r : FactRecord} {rows : List FactRecord}
    (hr : r ∈ rows) (hcarries : Carries ⟨taskId, factId, .retryAuthorized attemptId source why⟩ r)
    {snapshot : TaskSnapshot} (hreplay : replay journal host j taskId rows = .ok (some snapshot)) :
    ∃ attempt, snapshot.attempts[attemptId]? = some attempt ∧ attempt.state = .failed := by
  obtain ⟨front, back, rfl⟩ := List.mem_iff_append.1 hr
  obtain ⟨final, hfinal, hsnapshot⟩ := bind_eq_ok.1 hreplay
  rw [replayFrom_append] at hfinal
  obtain ⟨before, -, hrest⟩ := bind_eq_ok.1 hfinal
  rw [replayFrom] at hrest
  obtain ⟨middle, hrecord, hback⟩ := bind_eq_ok.1 hrest
  have htransition : isTransition r.draft = true := by
    rw [isTransition, hcarries.kind, hcarries.schemaVersion]
    rfl
  simp only [replayRecord, replaySnapshot, htransition, if_true, bind_eq_ok, pure_eq_ok] at hrecord
  obtain ⟨_, ⟨moved, hmoved, rfl⟩, rfl⟩ := hrecord
  simp only [replayTransition, bind_eq_ok, pure_eq_ok, mapError_eq_ok, hcarries.payload, hdecode,
    Except.ok.injEq] at hmoved
  obtain ⟨_, _, event, rfl, _, _, _, _, _, _, applied, happly, _, _, rfl⟩ := hmoved
  obtain ⟨attempt, hattempt, hstate⟩ : ∃ attempt, applied.attempts[attemptId]? = some attempt ∧
      attempt.state = .failed := by
    cases hbefore : before.snapshot with
    | none => simp [hbefore, apply] at happly
    | some state =>
      obtain ⟨-, moved, heffect, rfl⟩ := apply_effect (hbefore ▸ happly)
      cases heffect with
      | authorized authorizable => exact ⟨_, getElem?_insert_self, rfl⟩
  obtain ⟨later, hlater, hreaches⟩ := replayFrom_later hback
  obtain rfl : later = snapshot := Option.some.inj (hlater.symm.trans (pure_eq_ok.1 hsnapshot))
  obtain ⟨attempt', hattempt', hkeeps⟩ := hreaches.keepsAttempt
    (show (applied.moveTo r.position).attempts[attemptId]? = some attempt from hattempt)
  have hstopped : ¬attempt.state.IsLive := by simp [InvocationState.IsLive, hstate]
  exact ⟨attempt', hattempt', (hkeeps.stopped hstopped).1.trans hstate⟩

end Commands

end Tasks
end Kolyan
