/-
# What a growing journal keeps

Replay reads more than its own stream: the input source of every admission and
start, and the causal closure of that source.  Those streams belong to others and
grow between a command and a later replay.  A settled journal (`Settled`) keeps
every published source alone in its stream; between two settled journals of
which the second extends the first (`Grows`), every check that succeeded
succeeds again with the same answer (`replayFrom_grows`, `planCommand_grows`).
-/

import Kolyan.Tasks.Coordinator

namespace Kolyan
namespace Facts

open Checks

section Pages

variable {s : String} {n limit : ℕ} {rows rows' page page' : List FactRecord}

theorem IsPage.eq_take_one (h : IsPage rows n 1 page) : page = (rows.drop n).take 1 := by
  rcases hd : rows.drop n with _ | ⟨r, rest⟩
  · have hp := h.isPrefix
    rw [hd] at hp
    rw [List.prefix_nil.1 hp, List.take_nil]
  · have hne := h.ne_nil (by simp [hd])
    have hp := h.isPrefix
    obtain ⟨r', page', rfl⟩ := List.exists_cons_of_ne_nil hne
    have hlen := h.length_le
    obtain rfl : page' = [] := List.length_eq_zero_iff.1 (by simp only [List.length_cons] at hlen; omega)
    rw [hd, List.cons_prefix_cons] at hp
    simp [hp.1]

theorem IsPage.grows_one (hrows : rows <+: rows') {r : FactRecord} (h : IsPage rows n 1 [r])
    (h' : IsPage rows' n 1 page') : page' = [r] := by
  obtain ⟨more, rfl⟩ := hrows
  have hr := h.eq_take_one
  rw [h'.eq_take_one, List.drop_append]
  rcases hd : rows.drop n with _ | ⟨q, rest⟩
  · simp [hd] at hr
  · rw [hd] at hr
    simpa using hr.symm

theorem IsPage.eq_singleton {r : FactRecord} (h : IsPage [r] 0 limit page) : page = [r] := by
  have hne := h.ne_nil (by simp)
  have hp := h.isPrefix
  rw [List.drop_zero, List.prefix_cons_iff] at hp
  rcases hp with rfl | ⟨t, rfl, ht⟩
  · exact absurd rfl hne
  · rw [List.prefix_nil.1 ht]

end Pages

/-- **A read that succeeds returns a page**, and only a valid read does. -/
theorem FactJournal.Contract.read_isPage {J : Type} {journal : FactJournal J}
    (contract : journal.Contract) {j : J} (hv : contract.Valid j) {stream : String}
    {after limit : ℕ} {page : List FactRecord} (h : journal.read j stream after limit = .ok page) :
    validateRead stream limit = .ok () ∧ IsPage (contract.rows j stream) after limit page := by
  cases hr : validateRead stream limit with
  | error e => exact absurd h (contract.read_invalid hv hr after page)
  | ok u =>
    obtain ⟨page', hpage, hp⟩ := contract.read_ok hv hr after
    obtain rfl : page' = page := Except.ok.inj (hpage.symm.trans h)
    exact ⟨rfl, hp⟩

end Facts

namespace Tasks

open Checks Facts

/-- A published input source. -/
def IsSource (record : FactRecord) : Prop :=
  record.draft.critical = true ∧ record.draft.kind = inputSourceKind

section Growth

variable {J : Type} {journal : FactJournal J} (contract : journal.Contract) {host : TaskHost}
  {j j' : J}

/-- A journal whose published sources are alone in their streams. -/
structure Settled (j : J) : Prop where
  valid : contract.Valid j
  alone : ∀ {s r}, (contract.rows j s).head? = some r → IsSource r → contract.rows j s = [r]

/-- Every stream of `j'` extends the stream of `j`. -/
def Grows (j j' : J) : Prop := ∀ s, contract.rows j s <+: contract.rows j' s

variable {contract}

theorem Grows.refl (j : J) : Grows contract j j := fun _ => List.prefix_rfl

theorem Grows.trans {j'' : J} (h : Grows contract j j') (h' : Grows contract j' j'') :
    Grows contract j j'' := fun s => (h s).trans (h' s)

theorem Settled.alone_grows (hs : Settled contract j) (hs' : Settled contract j')
    (hg : Grows contract j j') {s : String} {r : FactRecord}
    (hr : (contract.rows j s).head? = some r) (hsource : IsSource r) :
    contract.rows j' s = [r] := by
  refine hs'.alone ?_ hsource
  obtain ⟨more, hmore⟩ := hg s
  rw [← hmore, hs.alone hr hsource]
  rfl

variable (hs : Settled contract j) (hs' : Settled contract j') (hg : Grows contract j j')

include hs hs' hg

theorem readCause_grows {reference : FactRef} {record : FactRecord}
    (h : readCause journal j reference = .ok record) :
    readCause journal j' reference = .ok record := by
  simp only [readCause, readFacts, bind_eq_ok, mapError_eq_ok] at h ⊢
  obtain ⟨rows, hread, hrows⟩ := h
  obtain ⟨hvalid, hpage⟩ := contract.read_isPage hs.valid hread
  obtain ⟨rows', hread', hpage'⟩ := contract.read_ok hs'.valid hvalid (reference.position - 1)
  refine ⟨rows', hread', ?_⟩
  obtain rfl : rows = [record] := by
    rcases rows with _ | ⟨r, _ | _⟩ <;> simp_all
  rw [hpage.grows_one (hg _) hpage']

theorem enterCause_grows {stream : String} {scan scan' : CausalScan} {reference : FactRef}
    (h : enterCause journal j stream scan reference = .ok scan') :
    enterCause journal j' stream scan reference = .ok scan' := by
  simp only [enterCause, bind_eq_ok] at h ⊢
  obtain ⟨u, h₁, u₂, h₂, u₃, h₃, u₄, h₄, h⟩ := h
  refine ⟨u, h₁, u₂, h₂, u₃, h₃, u₄, h₄, ?_⟩
  split_ifs at h ⊢ with hblack
  · exact h
  · simp only [expandCause, bind_eq_ok] at h ⊢
    obtain ⟨u, h₁, record, h₂, h⟩ := h
    exact ⟨u, h₁, record, readCause_grows hs hs' hg h₂, h⟩

theorem scanCauses_grows {stream : String} {fuel : ℕ} {scan : CausalScan}
    (h : scanCauses journal j stream fuel scan = .ok ()) :
    scanCauses journal j' stream fuel scan = .ok () := by
  induction fuel generalizing scan with
  | zero => simp [scanCauses] at h
  | succ fuel ih =>
    rw [scanCauses] at h ⊢
    split at h
    · rfl
    · exact ih h
    · obtain ⟨next, hnext, h⟩ := bind_eq_ok.1 h
      exact bind_eq_ok.2 ⟨next, enterCause_grows hs hs' hg hnext, ih h⟩

theorem validateCauses_grows {causes : List FactRef} {stream : String}
    (h : validateCauses journal j causes stream = .ok ()) :
    validateCauses journal j' causes stream = .ok () := by
  simp only [validateCauses, bind_eq_ok] at h ⊢
  obtain ⟨u, h₁, u₂, h₂, h⟩ := h
  exact ⟨u, h₁, u₂, h₂, scanCauses_grows hs hs' hg h⟩

theorem readSource_grows {stream : String} {expected : InvocationInputScope} {record : FactRecord}
    (h : readSource journal j stream = .ok record)
    (hrecord : checkSourceRecord stream expected record = .ok ()) :
    readSource journal j' stream = .ok record := by
  simp only [readSource, readFacts, bind_eq_ok, mapError_eq_ok] at h ⊢
  obtain ⟨rows, hread, hrows⟩ := h
  obtain ⟨hvalid, hpage⟩ := contract.read_isPage hs.valid hread
  obtain ⟨rows', hread', hpage'⟩ := contract.read_ok hs'.valid hvalid 0
  refine ⟨rows', hread', ?_⟩
  obtain rfl : rows = [record] := by
    rcases rows with _ | ⟨r, _ | _⟩ <;> simp_all
  have hsource : IsSource record := by
    simp only [checkSourceRecord, reject_eq_ok, not_or, not_not] at hrecord
    exact ⟨hrecord.2.2.2.2.2.1, hrecord.2.2.2.1⟩
  have hhead : (contract.rows j stream).head? = some record := by
    obtain ⟨rest, hrest⟩ := hpage.isPrefix
    rw [List.drop_zero] at hrest
    rw [← hrest]
    rfl
  rw [hs.alone_grows hs' hg hhead hsource] at hpage'
  rw [hpage'.eq_singleton]

theorem loadVerified_grows {source : InvocationInputSource} {expected : InvocationInputScope}
    {limit : ℕ} {verified : VerifiedInvocationInputSource}
    (h : loadVerifiedInvocationInputSource journal j host source expected limit = .ok verified) :
    loadVerifiedInvocationInputSource journal j' host source expected limit = .ok verified := by
  simp only [loadVerifiedInvocationInputSource, bind_eq_ok] at h ⊢
  obtain ⟨u, h₁, u₂, h₂, u₃, h₃, record, hread, u₅, h₅, u₆, h₆, envelope, h₇, u₈, h₈, u₉, h₉, h⟩ := h
  exact ⟨u, h₁, u₂, h₂, u₃, h₃, record, readSource_grows hs hs' hg hread h₆, u₅, h₅, u₆, h₆,
    envelope, h₇, u₈, h₈, u₉, validateCauses_grows hs hs' hg h₉, h⟩

theorem verifyInputEvent_grows {taskId : String} {event : TaskEvent} {record : FactRecord}
    {snapshot : TaskSnapshot}
    (h : verifyInputEvent journal j host taskId event record snapshot = .ok ()) :
    verifyInputEvent journal j' host taskId event record snapshot = .ok () := by
  rw [verifyInputEvent] at h ⊢
  split at h
  · rfl
  · simp only [bind_eq_ok] at h ⊢
    obtain ⟨scope, h₁, u₂, h₂, verified, hload, h⟩ := h
    exact ⟨scope, h₁, u₂, h₂, verified, loadVerified_grows hs hs' hg hload, h⟩

theorem replayRecord_grows {taskId : String} {state next : ReplayState} {record : FactRecord}
    (h : replayRecord journal host j taskId state record = .ok next) :
    replayRecord journal host j' taskId state record = .ok next := by
  simp only [replayRecord, bind_eq_ok] at h ⊢
  obtain ⟨snapshot, hsnapshot, h⟩ := h
  refine ⟨snapshot, ?_, h⟩
  rw [replaySnapshot] at hsnapshot ⊢
  split_ifs at hsnapshot ⊢ with htransition
  · simp only [replayTransition, bind_eq_ok] at hsnapshot ⊢
    obtain ⟨result, ⟨u₁, h₁, event, h₂, u₃, h₃, u₄, h₄, u₅, h₅, moved, h₆, u₇, h₇, hmoved⟩,
      hresult⟩ := hsnapshot
    exact ⟨result, ⟨u₁, h₁, event, h₂, u₃, h₃, u₄, h₄, u₅, h₅, moved, h₆, u₇,
      verifyInputEvent_grows hs hs' hg h₇, hmoved⟩, hresult⟩
  · exact hsnapshot

/-- **Replay of the same records gives the same state in every later journal.** -/
theorem replayFrom_grows {taskId : String} {state next : ReplayState} {records : List FactRecord}
    (h : replayFrom journal host j taskId state records = .ok next) :
    replayFrom journal host j' taskId state records = .ok next := by
  induction records generalizing state with
  | nil => exact h
  | cons record rest ih =>
    obtain ⟨middle, hmiddle, h⟩ := bind_eq_ok.1 h
    exact bind_eq_ok.2 ⟨middle, replayRecord_grows hs hs' hg hmiddle, ih h⟩

theorem replay_grows {taskId : String} {records : List FactRecord} {snapshot : Option TaskSnapshot}
    (h : replay journal host j taskId records = .ok snapshot) :
    replay journal host j' taskId records = .ok snapshot := by
  obtain ⟨state, hstate, h⟩ := bind_eq_ok.1 h
  exact bind_eq_ok.2 ⟨state, replayFrom_grows hs hs' hg hstate, h⟩

/-- **A plan made on some records is made again in every later journal.** -/
theorem planCommand_grows {taskId factId : String} {event : TaskEvent} {records : List FactRecord}
    {plan : Plan} (h : planCommand journal host j taskId factId event records = .ok plan) :
    planCommand journal host j' taskId factId event records = .ok plan := by
  simp only [planCommand, bind_eq_ok] at h ⊢
  obtain ⟨snapshot, hreplay, u, hpayload, h⟩ := h
  refine ⟨snapshot, replay_grows hs hs' hg hreplay, u, hpayload, ?_⟩
  split at h
  · exact h
  · simp only [planAppendFact, bind_eq_ok] at h ⊢
    obtain ⟨causes, h₁, position, h₂, u₃, h₃, next, h₄, u₅, h₅, h⟩ := h
    exact ⟨causes, h₁, position, h₂, u₃, h₃, next, h₄, u₅, verifyInputEvent_grows hs hs' hg h₅, h⟩

end Growth

end Tasks
end Kolyan
