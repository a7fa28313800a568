/-
# The loop over a pending batch ends

`TurnExecutor::handle_pending` (`kolyan-core/src/turn/engine.rs`) goes round
until the calls of a batch are settled or the Turn waits.  Every round prepares
the calls that wait to run afresh, asks the policy, may ask for approvals again
and lays out the stages anew, and none of this makes a call Ready that was not
(`Refreshed`) or takes a confirmed approval from a call that stays Ready.  So a
round that goes on leaves fewer Ready calls, or as many and one more of them
confirmed (`Progresses`): it has dispatched a call, found every call of a stage
list settled, or waited for an approval.  What the argument needs of the
checkpoint is in `Orderly`; validation establishes it, and the only round that
goes on without another validation confirms an approval, which keeps it.
-/

import Kolyan.Lib.Outcomes
import Kolyan.Turn.Engine
import Kolyan.Turn.Valid

namespace Kolyan
namespace Turn

open Checks Policy Threads Fallible

section Calls

variable {items : List CheckpointCall} {id : String} {f : CheckpointCall → CheckpointCall}

theorem mem_updateCall {item : CheckpointCall} (h : item ∈ updateCall id f items) :
    item ∈ items ∨ ∃ old ∈ items, old.call.id = id ∧ item = f old := by
  induction items with
  | nil => exact nomatch h
  | cons head items ih =>
    rw [updateCall] at h
    split at h
    · rename_i hid
      rcases List.mem_cons.1 h with rfl | h
      · exact .inr ⟨head, List.mem_cons_self .., hid, rfl⟩
      · exact .inl (List.mem_cons_of_mem _ h)
    · rcases List.mem_cons.1 h with rfl | h
      · exact .inl (List.mem_cons_self ..)
      · rcases ih h with h | ⟨old, hold, hid, rfl⟩
        · exact .inl (List.mem_cons_of_mem _ h)
        · exact .inr ⟨old, List.mem_cons_of_mem _ hold, hid, rfl⟩

theorem mem_updateCall_of_ne {item : CheckpointCall} (h : item ∈ items) (hne : item.call.id ≠ id) :
    item ∈ updateCall id f items := by
  induction items with
  | nil => exact nomatch h
  | cons head items ih =>
    rw [updateCall]
    split
    · rename_i hid
      rcases List.mem_cons.1 h with rfl | h
      · exact absurd hid hne
      · exact List.mem_cons_of_mem _ h
    · rcases List.mem_cons.1 h with rfl | h
      · exact List.mem_cons_self ..
      · exact List.mem_cons_of_mem _ (ih h)

theorem mem_updateCall_self (hunique : (items.map (·.call.id)).Nodup) {item : CheckpointCall} (h : item ∈ items) :
    f item ∈ updateCall item.call.id f items := by
  induction items with
  | nil => exact nomatch h
  | cons head items ih =>
    obtain ⟨hhead, hunique⟩ := List.nodup_cons.1 hunique
    rw [updateCall]
    split
    · rename_i hid
      rcases List.mem_cons.1 h with rfl | h
      · exact List.mem_cons_self ..
      · exact absurd (List.mem_map.2 ⟨item, h, hid.symm⟩) hhead
    · rename_i hid
      rcases List.mem_cons.1 h with rfl | h
      · exact absurd rfl hid
      · exact List.mem_cons_of_mem _ (ih hunique h)

theorem forall₂_updateCall {R : CheckpointCall → CheckpointCall → Prop} (hrefl : ∀ item, R item item)
    (hf : ∀ item ∈ items, item.call.id = id → R item (f item)) :
    List.Forall₂ R items (updateCall id f items) := by
  induction items with
  | nil => exact .nil
  | cons head items ih =>
    rw [updateCall]
    split
    · rename_i hid
      exact .cons (hf head (List.mem_cons_self ..) hid) (List.forall₂_same.2 fun item _ => hrefl item)
    · exact .cons (hrefl head) (ih fun item hitem => hf item (List.mem_cons_of_mem _ hitem))

theorem updateCall_id (hunique : (items.map (·.call.id)).Nodup) {item : CheckpointCall}
    (h : item ∈ updateCall id f items) (hid : item.call.id = id) : ∃ old ∈ items, item = f old := by
  induction items with
  | nil => exact nomatch h
  | cons head items ih =>
    obtain ⟨hhead, hunique⟩ := List.nodup_cons.1 hunique
    rw [updateCall] at h
    split at h
    · rename_i hheadId
      rcases List.mem_cons.1 h with rfl | h
      · exact ⟨head, List.mem_cons_self .., rfl⟩
      · exact absurd (List.mem_map.2 ⟨item, h, hid.trans hheadId.symm⟩) hhead
    · rename_i hheadId
      rcases List.mem_cons.1 h with rfl | h
      · exact absurd hid hheadId
      · obtain ⟨old, hold, hitem⟩ := ih hunique h
        exact ⟨old, List.mem_cons_of_mem _ hold, hitem⟩

theorem find_of_mem (hunique : (items.map (·.call.id)).Nodup) {item : CheckpointCall} (h : item ∈ items) :
    items.find? (·.call.id = item.call.id) = some item := by
  induction items with
  | nil => exact nomatch h
  | cons head items ih =>
    obtain ⟨hhead, hunique⟩ := List.nodup_cons.1 hunique
    rcases List.mem_cons.1 h with rfl | h
    · exact List.find?_cons_of_pos (decide_eq_true rfl)
    · have hne : head.call.id ≠ item.call.id := fun hid => hhead (List.mem_map.2 ⟨item, h, hid.symm⟩)
      rw [List.find?_cons_of_neg (by simpa using hne)]
      exact ih hunique h

theorem CheckpointCall.isReady_of_isCompleted (item : CheckpointCall) (h : item.isCompleted = true) :
    item.isReady = false := by
  obtain ⟨call, prepared, charged, state⟩ := item
  cases state with
  | ready => exact nomatch h
  | completed result issued => rfl
  | awaitingExternal wait issued => rfl

theorem CheckpointCall.isReady_of_not (item : CheckpointCall) (hcompleted : item.isCompleted = false)
    (hawaiting : item.isAwaiting = false) : item.isReady = true := by
  obtain ⟨call, prepared, charged, state⟩ := item
  cases state with
  | ready => rfl
  | completed result issued => exact nomatch hcompleted
  | awaitingExternal wait issued => exact nomatch hawaiting

end Calls

section Measure

/-- An approval of the call is confirmed. -/
def TurnCheckpoint.confirmed (checkpoint : TurnCheckpoint) (id : String) : Bool :=
  checkpoint.approvals.any fun approval => approval.prepared.call.id = id && approval.evidenceId.isSome

/-- How many calls wait to run. -/
def TurnCheckpoint.readyCount (checkpoint : TurnCheckpoint) : ℕ := checkpoint.calls.countP (·.isReady)

/-- How many of them have a confirmed approval. -/
def TurnCheckpoint.confirmedCount (checkpoint : TurnCheckpoint) : ℕ :=
  checkpoint.calls.countP fun item => item.isReady && checkpoint.confirmed item.call.id

/-- **Progress**: fewer Ready calls, or as many and more of them confirmed. -/
def TurnCheckpoint.Progresses (old new : TurnCheckpoint) : Prop :=
  new.readyCount < old.readyCount ∨
    new.readyCount = old.readyCount ∧ old.confirmedCount < new.confirmedCount

/-- The same as a number, which progress decreases. -/
def TurnCheckpoint.rank (checkpoint : TurnCheckpoint) : ℕ :=
  checkpoint.readyCount * (checkpoint.readyCount + 1) + (checkpoint.readyCount - checkpoint.confirmedCount)

theorem TurnCheckpoint.confirmedCount_le (checkpoint : TurnCheckpoint) :
    checkpoint.confirmedCount ≤ checkpoint.readyCount :=
  List.countP_mono_left fun _ _ h => (Bool.and_eq_true_iff.1 h).1

theorem TurnCheckpoint.Progresses.rank {old new : TurnCheckpoint} (h : old.Progresses new) :
    new.rank < old.rank := by
  have hnew := new.confirmedCount_le
  have hold := old.confirmedCount_le
  simp only [TurnCheckpoint.rank]
  rcases h with h | ⟨h, hconfirmed⟩
  · have hmul : (new.readyCount + 1) * (new.readyCount + 1) ≤ old.readyCount * (old.readyCount + 1) :=
      Nat.mul_le_mul h (by omega)
    have hexpand : (new.readyCount + 1) * (new.readyCount + 1) =
        new.readyCount * (new.readyCount + 1) + (new.readyCount + 1) := Nat.succ_mul _ _
    omega
  · rw [h]
    omega

theorem TurnCheckpoint.rank_le (checkpoint : TurnCheckpoint) :
    checkpoint.rank ≤ checkpoint.calls.length * (checkpoint.calls.length + 2) := by
  have hready : checkpoint.readyCount ≤ checkpoint.calls.length := List.countP_le_length
  have hmul : checkpoint.readyCount * (checkpoint.readyCount + 1) ≤
      checkpoint.calls.length * (checkpoint.calls.length + 1) := Nat.mul_le_mul hready (by omega)
  have hexpand : checkpoint.calls.length * (checkpoint.calls.length + 2) =
      checkpoint.calls.length * (checkpoint.calls.length + 1) + checkpoint.calls.length := Nat.mul_succ _ _
  simp only [TurnCheckpoint.rank]
  omega

end Measure

section Refreshing

/-- A call after a refresh: the same call, and Ready only if it was. -/
def CheckpointCall.Follows (before after : CheckpointCall) : Prop :=
  after.call = before.call ∧ (after.isReady = true → before.isReady = true)

theorem CheckpointCall.Follows.refl (item : CheckpointCall) : item.Follows item := ⟨rfl, id⟩

theorem CheckpointCall.Follows.trans {a b c : CheckpointCall} (h : a.Follows b) (h' : b.Follows c) :
    a.Follows c := ⟨h'.1.trans h.1, fun hready => h.2 (h'.2 hready)⟩

theorem follows_trans {xs ys zs : List CheckpointCall} (h : List.Forall₂ CheckpointCall.Follows xs ys)
    (h' : List.Forall₂ CheckpointCall.Follows ys zs) : List.Forall₂ CheckpointCall.Follows xs zs := by
  induction h generalizing zs with
  | nil =>
    cases h' with
    | nil => exact .nil
  | cons hhead _ ih =>
    cases h' with
    | cons hhead' htail' => exact .cons (hhead.trans hhead') (ih htail')

theorem follows_back {xs ys : List CheckpointCall} (h : List.Forall₂ CheckpointCall.Follows xs ys)
    {after : CheckpointCall} (hafter : after ∈ ys) : ∃ before ∈ xs, before.Follows after := by
  induction h with
  | nil => exact nomatch hafter
  | @cons before after xs ys hhead _ ih =>
    rcases List.mem_cons.1 hafter with rfl | hafter
    · exact ⟨before, List.mem_cons_self .., hhead⟩
    · obtain ⟨other, hother, hfollows⟩ := ih hafter
      exact ⟨other, List.mem_cons_of_mem _ hother, hfollows⟩

/-- Fewer calls are Ready, or the same ones, with no less of what each kept. -/
theorem follows_counts {xs ys : List CheckpointCall} {p q : String → Bool}
    (h : List.Forall₂ CheckpointCall.Follows xs ys)
    (hpq : ∀ item ∈ ys, item.isReady = true → p item.call.id = true → q item.call.id = true) :
    ys.countP (·.isReady) < xs.countP (·.isReady) ∨
      ys.countP (·.isReady) = xs.countP (·.isReady) ∧
        xs.countP (fun item => item.isReady && p item.call.id) ≤
          ys.countP fun item => item.isReady && q item.call.id := by
  induction h with
  | nil => exact .inr ⟨rfl, le_rfl⟩
  | @cons before after xs ys hhead _ ih =>
    have hrest := ih fun item hitem => hpq item (List.mem_cons_of_mem _ hitem)
    have hafter := hpq after (List.mem_cons_self ..)
    obtain ⟨hcall, hback⟩ := hhead
    simp only [List.countP_cons]
    rw [hcall] at hafter ⊢
    cases hr : after.isReady <;> cases hr' : before.isReady
    · simpa [hr, hr'] using hrest
    · simp only [Bool.false_and, Bool.true_and, Bool.false_eq_true, if_false, if_true]
      omega
    · exact absurd (hback hr) (by rw [hr']; exact Bool.false_ne_true)
    · have hle : (if p before.call.id = true then 1 else 0) ≤ if q before.call.id = true then 1 else 0 := by
        split
        · rw [if_pos (hafter hr ‹_›)]
        · exact Nat.zero_le _
      simp only [Bool.true_and, if_true]
      omega

/-- **What a refresh does to a batch**: it keeps the calls in their order and
makes none of them Ready, and a call that stays Ready keeps its confirmation. -/
structure TurnCheckpoint.Refreshed (old new : TurnCheckpoint) : Prop where
  calls : List.Forall₂ CheckpointCall.Follows old.calls new.calls
  confirmed : ∀ item ∈ new.calls, item.isReady = true → old.confirmed item.call.id = true →
    new.confirmed item.call.id = true

variable {old middle new : TurnCheckpoint}

theorem TurnCheckpoint.Refreshed.of_eq (hcalls : new.calls = old.calls) (happrovals : new.approvals = old.approvals) :
    old.Refreshed new where
  calls := by
    rw [hcalls]
    exact List.forall₂_same.2 fun item _ => .refl item
  confirmed := fun item _ _ h => by rwa [TurnCheckpoint.confirmed, happrovals]

theorem TurnCheckpoint.Refreshed.trans (h : old.Refreshed middle) (h' : middle.Refreshed new) :
    old.Refreshed new where
  calls := follows_trans h.calls h'.calls
  confirmed := by
    intro item hitem hready hconfirmed
    obtain ⟨before, hbefore, hcall, hback⟩ := follows_back h'.calls hitem
    refine h'.confirmed item hitem hready ?_
    rw [hcall] at hconfirmed ⊢
    exact h.confirmed before hbefore (hback hready) hconfirmed

/-- **A refresh loses nothing**: fewer calls are Ready, or the same ones with no
confirmation less. -/
theorem TurnCheckpoint.Refreshed.counts (h : old.Refreshed new) :
    new.readyCount < old.readyCount ∨
      new.readyCount = old.readyCount ∧ old.confirmedCount ≤ new.confirmedCount :=
  follows_counts h.calls h.confirmed

theorem TurnCheckpoint.Refreshed.progresses (h : old.Refreshed middle) (h' : middle.Progresses new) :
    old.Progresses new := by
  have hcounts := h.counts
  unfold TurnCheckpoint.Progresses at h' ⊢
  omega

end Refreshing

section Order

variable {codec : Codec} {checkpoint : TurnCheckpoint}

/-- **What the loop keeps** of the checkpoint: one entry a call and one approval a
call, each preparation with the call it is of, and a confirmed approval of the
preparation that the call has. -/
structure TurnCheckpoint.Orderly (checkpoint : TurnCheckpoint) : Prop where
  unique : (checkpoint.calls.map (·.call.id)).Nodup
  own : ∀ item ∈ checkpoint.calls, ∀ prepared, item.prepared = some prepared → prepared.call.id = item.call.id
  single : (checkpoint.approvals.map (·.prepared.call.id)).Nodup
  bound : ∀ approval ∈ checkpoint.approvals, approval.evidenceId.isSome = true →
    ∀ item ∈ checkpoint.calls, item.call.id = approval.prepared.call.id → item.prepared = some approval.prepared

theorem checkApprovals_pairwise {seen approvals : List CheckpointApproval}
    (h : checkpoint.checkApprovals codec seen approvals = .ok ()) :
    approvals.Pairwise (fun a b => a.approvalId ≠ b.approvalId ∧ a.prepared.call.id ≠ b.prepared.call.id) ∧
      ∀ approval ∈ approvals, ∀ other ∈ seen,
        other.approvalId ≠ approval.approvalId ∧ other.prepared.call.id ≠ approval.prepared.call.id := by
  induction approvals generalizing seen with
  | nil => exact ⟨.nil, fun _ hmem => nomatch hmem⟩
  | cons approval approvals ih =>
    simp only [TurnCheckpoint.checkApprovals, TurnCheckpoint.checkApproval, bind_eq_ok, reject_eq_ok,
      not_or] at h
    obtain ⟨_, ⟨_, -, _, ⟨hids, hcalls, -⟩, -⟩, hrest⟩ := h
    obtain ⟨hpairwise, hseen⟩ := ih hrest
    refine ⟨List.pairwise_cons.2 ⟨fun other hother => ?_, hpairwise⟩, List.forall_mem_cons.2 ⟨fun other hother => ?_, ?_⟩⟩
    · exact hseen other hother approval (List.mem_cons_self ..)
    · exact ⟨fun hid => hids (List.any_eq_true.2 ⟨other, hother, decide_eq_true hid⟩),
        fun hid => hcalls (List.any_eq_true.2 ⟨other, hother, decide_eq_true hid⟩)⟩
    · exact fun other hother old hold => hseen other hother old (List.mem_cons_of_mem _ hold)

theorem validate_checks {scope : ToolExecutionScope} (h : checkpoint.validate codec scope = .ok ()) :
    checkpoint.checkStages = .ok () ∧ checkpoint.checkApprovals codec [] checkpoint.approvals = .ok () := by
  simp only [TurnCheckpoint.validate, bind_eq_ok] at h
  obtain ⟨_, -, _, -, _, -, _, -, _, -, _, -, _, -, _, -, _, -, _, -, _, hstages, _, -, _, -, _, -, _, -,
    happrovals⟩ := h
  exact ⟨hstages, happrovals⟩

theorem orderly_of_validate {scope : ToolExecutionScope} (h : checkpoint.validate codec scope = .ok ()) :
    checkpoint.Orderly := by
  obtain ⟨-, hvalid⟩ := validate_eq_ok h
  refine ⟨hvalid.unique, fun item hitem prepared hprepared => ?_,
    List.pairwise_map.2 ((checkApprovals_pairwise (validate_checks h).2).1.imp And.right),
    fun approval happroval _ item hitem hid => ?_⟩
  · rw [((hvalid.items item hitem).prepared prepared hprepared).2]
  · obtain ⟨-, found, hfound, hprepared⟩ := hvalid.approvals approval happroval
    rw [← hid, find_of_mem hvalid.unique hitem] at hfound
    rwa [Option.some.inj hfound]

theorem savedApproval_of_mem (hsingle : (checkpoint.approvals.map (·.prepared.call.id)).Nodup)
    {approval : CheckpointApproval} (happroval : approval ∈ checkpoint.approvals) :
    checkpoint.savedApproval approval.prepared.call.id = some approval := by
  unfold TurnCheckpoint.savedApproval
  generalize checkpoint.approvals = approvals at hsingle happroval
  induction approvals with
  | nil => exact nomatch happroval
  | cons head approvals ih =>
    obtain ⟨hhead, hsingle⟩ := List.nodup_cons.1 hsingle
    rcases List.mem_cons.1 happroval with rfl | happroval
    · exact List.find?_cons_of_pos (decide_eq_true rfl)
    · have hne : head.prepared.call.id ≠ approval.prepared.call.id :=
        fun hid => hhead (List.mem_map.2 ⟨approval, happroval, hid.symm⟩)
      rw [List.find?_cons_of_neg (by simpa using hne)]
      exact ih hsingle happroval

theorem confirmed_dropApprovals {id other : String} (h : other ≠ id) :
    (checkpoint.dropApprovals id).confirmed other = checkpoint.confirmed other := by
  rw [Bool.eq_iff_iff]
  simp only [TurnCheckpoint.confirmed, TurnCheckpoint.dropApprovals, List.any_eq_true, List.mem_filter,
    Bool.and_eq_true, decide_eq_true_eq]
  constructor
  · rintro ⟨approval, ⟨hmem, -⟩, hid, hevidence⟩
    exact ⟨approval, hmem, hid, hevidence⟩
  · rintro ⟨approval, hmem, hid, hevidence⟩
    exact ⟨approval, ⟨hmem, fun heq => h (hid.symm.trans heq)⟩, hid, hevidence⟩

theorem map_updateCall {β : Type} {g : CheckpointCall → β} {id : String} {f : CheckpointCall → CheckpointCall}
    {items : List CheckpointCall} (hf : ∀ item, g (f item) = g item) :
    (updateCall id f items).map g = items.map g := by
  induction items with
  | nil => rfl
  | cons head items ih =>
    rw [updateCall]
    split
    · rw [List.map_cons, List.map_cons, hf]
    · rw [List.map_cons, List.map_cons, ih]

theorem TurnCheckpoint.Orderly.drop (h : checkpoint.Orderly) {id : String}
    (hconfirmed : checkpoint.confirmed id = false) :
    checkpoint.Refreshed (checkpoint.dropApprovals id) ∧ (checkpoint.dropApprovals id).Orderly := by
  refine ⟨⟨List.forall₂_same.2 fun item _ => .refl item, fun item hitem _ hold => ?_⟩, h.unique, h.own,
    h.single.sublist (List.filter_sublist.map _), fun approval happroval => ?_⟩
  · by_cases hid : item.call.id = id
    · rw [hid, hconfirmed] at hold
      exact absurd hold Bool.false_ne_true
    · rwa [confirmed_dropApprovals hid]
  · exact h.bound approval (List.mem_of_mem_filter happroval)

/-- **A call that has failed or was denied**, its approvals dropped. -/
theorem TurnCheckpoint.Orderly.close (h : checkpoint.Orderly) (id : String) {f : CheckpointCall → CheckpointCall}
    (hcall : ∀ item, (f item).call = item.call) (hready : ∀ item, (f item).isReady = false)
    (hprepared : ∀ item, (f item).prepared = none ∨ (f item).prepared = item.prepared) :
    checkpoint.Refreshed ((checkpoint.update id f).dropApprovals id) ∧
      ((checkpoint.update id f).dropApprovals id).Orderly := by
  refine ⟨⟨?_, fun item hitem hitemReady hold => ?_⟩, ?_, fun item hitem prepared hitemPrepared => ?_,
    h.single.sublist (List.filter_sublist.map _), fun approval happroval hevidence item hitem hid => ?_⟩
  · refine forall₂_updateCall .refl fun item _ _ => ⟨hcall item, fun hitemReady => ?_⟩
    rw [hready item] at hitemReady
    exact absurd hitemReady Bool.false_ne_true
  · by_cases hid : item.call.id = id
    · obtain ⟨before, -, rfl⟩ := updateCall_id h.unique hitem hid
      rw [hready] at hitemReady
      exact absurd hitemReady Bool.false_ne_true
    · rw [confirmed_dropApprovals hid]
      exact hold
  · rw [show ((checkpoint.update id f).dropApprovals id).calls = updateCall id f checkpoint.calls from rfl,
      map_updateCall fun item => congrArg ToolCall.id (hcall item)]
    exact h.unique
  · rcases mem_updateCall hitem with hitem | ⟨before, hbefore, -, rfl⟩
    · exact h.own item hitem prepared hitemPrepared
    · rw [hcall]
      rcases hprepared before with hnone | hsame
      · rw [hnone] at hitemPrepared
        exact nomatch hitemPrepared
      · exact h.own before hbefore prepared (hsame ▸ hitemPrepared)
  · obtain ⟨happroval, hother⟩ := List.mem_filter.1 happroval
    rcases mem_updateCall hitem with hitem | ⟨before, -, hbefore, rfl⟩
    · exact h.bound approval happroval hevidence item hitem hid
    · rw [hcall, hbefore] at hid
      exact absurd hid.symm (of_decide_eq_true hother)

/-- **A call prepared afresh**, where no approval is confirmed for another
preparation of it. -/
theorem TurnCheckpoint.Orderly.prepare (h : checkpoint.Orderly) {call : ToolCall} {current : PreparedCall}
    (hcurrent : current.call = call) (hother : checkpoint.approvedOtherwise call current = false) :
    let prepared := checkpoint.update call.id fun item => { item with prepared := some current }
    checkpoint.Refreshed prepared ∧ prepared.Orderly := by
  refine ⟨⟨forall₂_updateCall .refl fun item _ _ => ⟨rfl, id⟩, fun item _ _ hold => hold⟩, ?_,
    fun item hitem prepared hprepared => ?_, h.single, fun approval happroval hevidence item hitem hid => ?_⟩
  · have hids : (updateCall call.id (fun item => { item with prepared := some current }) checkpoint.calls).map
        (·.call.id) = checkpoint.calls.map (·.call.id) := map_updateCall fun item => rfl
    exact hids.symm ▸ h.unique
  · rcases mem_updateCall hitem with hitem | ⟨before, -, hid, rfl⟩
    · exact h.own item hitem prepared hprepared
    · obtain rfl := Option.some.inj hprepared
      rw [hcurrent]
      exact hid.symm
  · rcases mem_updateCall hitem with hitem | ⟨before, hbefore, hbeforeId, rfl⟩
    · exact h.bound approval happroval hevidence item hitem hid
    · replace hid : approval.prepared.call.id = call.id := hid.symm.trans hbeforeId
      have hnot := List.any_eq_false.1 hother approval happroval
      rw [decide_eq_true hid, hevidence, Bool.true_and, Bool.true_and, decide_eq_true_eq, not_not] at hnot
      exact congrArg some hnot.symm

end Order

section Programs

variable {ε α : Type} {Q : α → Prop}

theorem gives_expected {o : Option α} (h : ∀ a, o = some a → Q a) : Gives (expected o : PortProg ε α) Q := by
  cases o with
  | none => exact gives_halt
  | some a => exact gives_pure (h a rfl)

theorem gives_reject {c : Prop} [Decidable c] {error : ε} {Q : Unit → Prop} (h : ¬c → Q ()) :
    Gives (Fallible.lift (reject c error) : PortProg ε Unit) Q :=
  gives_lift fun _ ha => h (reject_eq_ok.1 ha)

end Programs

section Refresh

variable {codec : Codec} {state : RunState} {checkpoint : TurnCheckpoint}

theorem gives_prepareReady (call : ToolCall) :
    Gives (state.prepareReady codec call) fun prepared => prepared.call = call := by
  unfold RunState.prepareReady
  refine gives_then fun _ => gives_then fun _ => gives_then fun _ => gives_then fun prepared => gives_then fun _ => ?_
  exact gives_bind (gives_reject fun hcall => gives_pure (not_not.1 hcall))

theorem gives_refreshCall (h : checkpoint.Orderly) (call : ToolCall) :
    Gives (state.refreshCall codec checkpoint call) fun new => checkpoint.Refreshed new ∧ new.Orderly := by
  unfold RunState.refreshCall
  refine gives_bind (gives_attempt (Q := fun r => Gives _ _) ?_ ?_)
  · refine (gives_prepareReady call).mono fun current hcurrent => ?_
    exact gives_bind (gives_reject fun hother =>
      gives_pure (h.prepare hcurrent (Bool.not_eq_true _ ▸ hother)))
  · intro error
    refine gives_then fun result => gives_pure (h.close call.id (fun item => rfl) (fun item => rfl) fun item => ?_)
    exact .inl rfl

theorem gives_refreshCalls (h : checkpoint.Orderly) (calls : List ToolCall) :
    Gives (state.refreshCalls codec checkpoint calls) fun new => checkpoint.Refreshed new ∧ new.Orderly := by
  induction calls generalizing checkpoint with
  | nil => exact gives_pure ⟨.of_eq rfl rfl, h⟩
  | cons call calls ih =>
    refine gives_bind ((gives_refreshCall h call).mono fun middle hmiddle => ?_)
    exact (ih hmiddle.2).mono fun new hnew => ⟨hmiddle.1.trans hnew.1, hnew.2⟩

/-- A confirmed approval that the decision does not make stale is of the
preparation and the revision of now. -/
theorem TurnCheckpoint.Orderly.current (h : checkpoint.Orderly) {item : CheckpointCall} {prepared : PreparedCall}
    {decision : PolicyDecision} (hitem : item ∈ checkpoint.calls) (hprepared : item.prepared = some prepared)
    (hstale : ¬((checkpoint.savedApproval item.call.id).any (·.stale decision)) = true)
    (hconfirmed : checkpoint.confirmed item.call.id = true) :
    decision.kind = .requireApproval ∧
      (checkpoint.savedApproval item.call.id).any (·.current prepared decision) = true := by
  obtain ⟨approval, happroval, hmatch⟩ := List.any_eq_true.1 hconfirmed
  obtain ⟨hid, hevidence⟩ := Bool.and_eq_true_iff.1 hmatch
  replace hid : approval.prepared.call.id = item.call.id := of_decide_eq_true hid
  have hsaved := savedApproval_of_mem h.single happroval
  rw [hid] at hsaved
  rw [hsaved, Option.any_some, CheckpointApproval.stale, hevidence, Bool.true_and, Bool.or_eq_true, not_or,
    decide_eq_true_eq, decide_eq_true_eq, not_not, not_not] at hstale
  have hbound := h.bound approval happroval hevidence item hitem hid.symm
  rw [hprepared] at hbound
  refine ⟨hstale.2, ?_⟩
  rw [hsaved, Option.any_some, CheckpointApproval.current, Bool.and_eq_true, decide_eq_true_eq,
    decide_eq_true_eq]
  exact ⟨(Option.some.inj hbound).symm, hstale.1⟩

theorem TurnCheckpoint.Orderly.ask (h : checkpoint.Orderly) {id : String} {approval : CheckpointApproval}
    (hid : approval.prepared.call.id = id) (hevidence : approval.evidenceId = none)
    (hconfirmed : checkpoint.confirmed id = false) :
    let asked := { checkpoint with approvals := (checkpoint.dropApprovals id).approvals ++ [approval] }
    checkpoint.Refreshed asked ∧ asked.Orderly := by
  obtain ⟨hdropped, horderly⟩ := h.drop hconfirmed
  refine ⟨⟨hdropped.calls, fun item hitem hready hold => ?_⟩, h.unique, h.own, ?_, fun other hother hconfirms => ?_⟩
  · have hkept := hdropped.confirmed item hitem hready hold
    rw [TurnCheckpoint.confirmed, List.any_append]
    exact Bool.or_eq_true_iff.2 (.inl hkept)
  · rw [List.map_append]
    refine List.nodup_append.2 ⟨horderly.single, List.nodup_singleton _, fun x hx y hy => ?_⟩
    obtain rfl := List.mem_singleton.1 hy
    obtain ⟨other, hother, rfl⟩ := List.mem_map.1 hx
    exact fun heq => of_decide_eq_true (List.mem_filter.1 hother).2 (heq.trans hid)
  · rcases List.mem_append.1 hother with hother | hother
    · exact horderly.bound other hother hconfirms
    · obtain rfl := List.mem_singleton.1 hother
      rw [hevidence] at hconfirms
      exact nomatch hconfirms

theorem gives_applyDecision (h : checkpoint.Orderly) (planned : BatchCallDecision) :
    Gives (state.applyDecision codec checkpoint planned) fun new => checkpoint.Refreshed new ∧ new.Orderly := by
  unfold RunState.applyDecision
  refine gives_bind (gives_expected fun item hitem => gives_bind (gives_expected fun prepared hprepared =>
    gives_bind (gives_reject fun hstale => ?_)))
  have hmem := List.mem_of_find?_eq_some hitem
  have hown := h.own item hmem prepared hprepared
  have hcurrent := h.current hmem hprepared hstale
  split
  · unfold RunState.denyCall
    refine gives_then fun _ => gives_then fun _ => ?_
    split
    · exact gives_throw
    · refine gives_then fun _ => gives_pure (h.close item.call.id (fun item => rfl) (fun item => rfl) fun item => ?_)
      exact .inr rfl
  · unfold RunState.requireApproval
    split
    · exact gives_pure ⟨.of_eq rfl rfl, h⟩
    · rename_i hreplaced
      refine gives_then fun _ => gives_then fun _ => gives_pure (h.ask hown rfl (Bool.eq_false_iff.2 fun hconfirmed => ?_))
      exact hreplaced (hcurrent hconfirmed).2
  all_goals
    rename_i hkind
    refine gives_pure (h.drop (Bool.eq_false_iff.2 fun hconfirmed => ?_))
    have hrequired := (hcurrent hconfirmed).1
    rw [hkind] at hrequired
    cases hrequired

theorem gives_applyDecisions (h : checkpoint.Orderly) (decisions : List BatchCallDecision) :
    Gives (state.applyDecisions codec checkpoint decisions) fun new => checkpoint.Refreshed new ∧ new.Orderly := by
  induction decisions generalizing checkpoint with
  | nil => exact gives_pure ⟨.of_eq rfl rfl, h⟩
  | cons planned decisions ih =>
    refine gives_bind ((gives_applyDecision h planned).mono fun middle hmiddle => ?_)
    exact (ih hmiddle.2).mono fun new hnew => ⟨hmiddle.1.trans hnew.1, hnew.2⟩

@[simp] theorem calls_restage (mode : ToolDispatchMode) (plan : BatchExecutionPlan) :
    (checkpoint.restage mode plan).calls = checkpoint.calls := by
  unfold TurnCheckpoint.restage
  dsimp only
  split <;> rfl

@[simp] theorem approvals_restage (mode : ToolDispatchMode) (plan : BatchExecutionPlan) :
    (checkpoint.restage mode plan).approvals = checkpoint.approvals := by
  unfold TurnCheckpoint.restage
  dsimp only
  split <;> rfl

/-- **A refresh**: the batch is refreshed, and the checkpoint of it valid. -/
theorem gives_refreshReady {executor : TurnExecutor} (hpending : state.pending = some checkpoint)
    (h : checkpoint.Orderly) :
    Gives (executor.refreshReady codec state) fun r => ∃ new, r.1 = { state with pending := some new } ∧
      checkpoint.Refreshed new ∧ new.validate codec new.scope = .ok () := by
  unfold TurnExecutor.refreshReady
  refine gives_bind (gives_expected fun before hbefore => ?_)
  obtain rfl := Option.some.inj (hpending.symm.trans hbefore)
  refine gives_bind ((gives_refreshCalls h _).mono fun prepared hprepared => ?_)
  refine gives_then fun _ => gives_then fun policy => gives_then fun preparations => gives_then fun plan => ?_
  have hrecounted : prepared.recount.Orderly := ⟨hprepared.2.unique, hprepared.2.own, hprepared.2.single, hprepared.2.bound⟩
  refine gives_bind ((gives_applyDecisions hrecounted plan.decisions).mono fun decided hdecided => ?_)
  refine gives_bind (gives_lift fun _ hvalid => gives_then fun _ => gives_then fun _ => gives_then fun _ => ?_)
  refine gives_pure ⟨_, rfl, ?_, mapError_eq_ok.1 hvalid⟩
  have hstaged : decided.Refreshed (decided.restage state.dispatch.mode plan).recount :=
    .of_eq (calls_restage ..) (approvals_restage ..)
  have hrecount : prepared.Refreshed prepared.recount := .of_eq rfl rfl
  exact ((hprepared.1.trans hrecount).trans hdecided.1).trans hstaged

end Refresh

section Dispatching

variable {codec : Codec} {fuel : ℕ} {state : RunState} {checkpoint : TurnCheckpoint}

/-- The call with the id waits to run. -/
def TurnCheckpoint.waitsToRun (checkpoint : TurnCheckpoint) (id : String) : Bool :=
  (checkpoint.calls.find? (·.call.id = id)).any (·.isReady)

theorem countP_updateCall_le {id : String} {f : CheckpointCall → CheckpointCall}
    (hf : ∀ item, (f item).isReady = false) (items : List CheckpointCall) :
    (updateCall id f items).countP (·.isReady) ≤ items.countP (·.isReady) := by
  induction items with
  | nil => exact le_rfl
  | cons head items ih =>
    rw [updateCall]
    split
    · rw [List.countP_cons, List.countP_cons, hf]
      exact Nat.add_le_add_left (Nat.zero_le _) _
    · rw [List.countP_cons, List.countP_cons]
      exact Nat.add_le_add_right ih _

theorem countP_updateCall_lt {id : String} {f : CheckpointCall → CheckpointCall}
    (hf : ∀ item, (f item).isReady = false) {items : List CheckpointCall}
    (hready : (items.find? (·.call.id = id)).any (·.isReady) = true) :
    (updateCall id f items).countP (·.isReady) < items.countP (·.isReady) := by
  induction items with
  | nil => exact nomatch hready
  | cons head items ih =>
    rw [updateCall]
    split
    · rename_i hid
      rw [List.find?_cons_of_pos (by simpa using hid), Option.any_some] at hready
      rw [List.countP_cons, List.countP_cons, hf, hready]
      exact Nat.lt_succ_self _
    · rename_i hid
      rw [List.find?_cons_of_neg (by simpa using hid)] at hready
      rw [List.countP_cons, List.countP_cons]
      exact Nat.add_lt_add_right (ih hready) _

theorem readyCount_settle {id : String} {settled : CheckpointCallState} (h : settled ≠ .ready) :
    (checkpoint.settle id settled).readyCount ≤ checkpoint.readyCount ∧
      (checkpoint.waitsToRun id = true → (checkpoint.settle id settled).readyCount < checkpoint.readyCount) := by
  have hf : ∀ item : CheckpointCall, ({ item with charged := true, state := settled } : CheckpointCall).isReady = false := by
    intro item
    cases settled with
    | ready => exact absurd rfl h
    | completed result issued => rfl
    | awaitingExternal wait issued => rfl
  exact ⟨countP_updateCall_le hf checkpoint.calls, countP_updateCall_lt hf⟩

theorem gives_uncertain (call : ToolCall) (message : String) {Q : CheckpointCallState → Prop} :
    Gives (state.uncertain call message) Q := by
  unfold RunState.uncertain
  refine gives_then fun recorded => ?_
  cases recorded with
  | ok u => exact gives_throw
  | error e => exact gives_throw

theorem gives_observedState (observation : DispatchObservation) :
    Gives (state.observedState observation) (· ≠ .ready) := by
  unfold RunState.observedState
  split
  · exact gives_then fun _ => gives_then fun _ => gives_pure fun h => by cases h
  · split
    · exact gives_uncertain _ _
    · exact gives_then fun _ => gives_pure fun h => by cases h
  · exact gives_uncertain _ _
  · unfold RunState.failedState
    refine gives_then fun _ => ?_
    split
    · exact gives_throw
    · split
      · exact gives_throw
      · exact gives_then fun _ => gives_then fun _ => gives_pure fun h => by cases h

theorem gives_applyObservation (observation : DispatchObservation) :
    Gives (state.applyObservation checkpoint observation) fun new => new.readyCount ≤ checkpoint.readyCount ∧
      (checkpoint.waitsToRun observation.call.id = true → new.readyCount < checkpoint.readyCount) := by
  unfold RunState.applyObservation
  refine gives_bind ((gives_observedState observation).mono fun settled hsettled => ?_)
  exact gives_then fun _ => gives_pure (readyCount_settle hsettled)

theorem gives_dispatchCall (call : ToolCall) (issued : IssuedToolAuthority) :
    Gives (state.dispatchCall fuel call issued) fun observation => observation.call = call ∧ observation.issued = issued := by
  unfold RunState.dispatchCall
  refine gives_then fun _ => gives_then fun _ => gives_then fun pending => ?_
  dsimp only
  split
  · exact gives_then fun _ => gives_then fun _ => gives_then fun _ => gives_then fun _ => gives_then fun _ =>
      gives_pure ⟨rfl, rfl⟩
  · exact gives_then fun _ => gives_then fun _ => gives_then fun _ => gives_then fun _ => gives_then fun _ =>
      gives_then fun _ => gives_pure ⟨rfl, rfl⟩

theorem gives_dispatchSerial (invocations : List (ToolCall × IssuedToolAuthority)) :
    Gives (state.dispatchSerial fuel checkpoint invocations) fun new => new.readyCount ≤ checkpoint.readyCount ∧
      ∀ head ∈ invocations.head?, checkpoint.waitsToRun head.1.id = true →
        new.readyCount < checkpoint.readyCount := by
  induction invocations generalizing checkpoint with
  | nil => exact gives_pure ⟨le_rfl, fun _ hhead => by cases hhead⟩
  | cons head invocations ih =>
    obtain ⟨call, issued⟩ := head
    unfold RunState.dispatchSerial
    refine gives_bind ((gives_dispatchCall call issued).mono fun observation hobserved => ?_)
    refine gives_bind ((gives_applyObservation observation).mono fun applied happlied => gives_then fun _ => ?_)
    rw [hobserved.1] at happlied
    split
    · refine gives_pure ⟨happlied.1, fun head hhead hwaits => ?_⟩
      obtain rfl := Option.some.inj hhead
      exact happlied.2 hwaits
    · refine ih.mono fun new hnew => ⟨hnew.1.trans happlied.1, fun head hhead hwaits => ?_⟩
      obtain rfl := Option.some.inj hhead
      exact hnew.1.trans_lt (happlied.2 hwaits)

theorem gives_drain_fatal (error : TurnError) (observations : List (Except TurnError DispatchObservation))
    {Q : TurnCheckpoint → Prop} : Gives (state.drain checkpoint (some error) observations) Q := by
  induction observations generalizing checkpoint error with
  | nil => exact gives_throw
  | cons observation observations ih =>
    cases observation with
    | error e => exact ih _
    | ok observation =>
      refine gives_then fun applied => ?_
      cases applied with
      | ok applied => exact ih error
      | error e => exact ih _

theorem gives_drain (observations : List (Except TurnError DispatchObservation)) :
    Gives (state.drain checkpoint none observations) fun new => new.readyCount ≤ checkpoint.readyCount ∧
      ∀ first ∈ observations.head?, ∃ head, first = .ok head ∧
        (checkpoint.waitsToRun head.call.id = true → new.readyCount < checkpoint.readyCount) := by
  induction observations generalizing checkpoint with
  | nil => exact gives_pure ⟨le_rfl, fun _ hhead => nomatch hhead⟩
  | cons observation observations ih =>
    cases observation with
    | error e => exact gives_drain_fatal _ _
    | ok observation =>
      unfold RunState.drain
      refine gives_bind (gives_attempt ?_ fun e => gives_drain_fatal _ _)
      refine (gives_applyObservation observation).mono fun applied happlied => ?_
      refine ih.mono fun new hnew => ⟨hnew.1.trans happlied.1, fun first hfirst => ⟨observation, ?_⟩⟩
      obtain rfl := Option.some.inj hfirst
      exact ⟨rfl, fun hwaits => hnew.1.trans_lt (happlied.2 hwaits)⟩

/-- What the calls of a parallel stage are observed as, one after the other. -/
theorem gives_observations (invocations : List (ToolCall × IssuedToolAuthority)) :
    Gives (Fallible.ofProg ((Prog.joinAll polled fuel
      (invocations.map fun invocation => (state.dispatchCall fuel invocation.1 invocation.2).run)).bind
        fun observations => .done (.ok observations)) : TurnProg _) fun observations =>
      observations.length = invocations.length ∧ ∀ (i : ℕ) observation, observations[i]? = some (.ok observation) →
        ∃ invocation, invocations[i]? = some invocation ∧
          observation.call = invocation.1 ∧ observation.issued = invocation.2 := by
  intro observations hends
  obtain ⟨as, has, hdone⟩ := Prog.returns_bind hends
  obtain rfl := Except.ok.inj (Prog.returns_done hdone)
  obtain ⟨hlength, hback⟩ := Prog.returns_joinAll has
  rw [List.length_map] at hlength
  refine ⟨hlength, fun i observation hi => ?_⟩
  obtain ⟨p, hp, hreturns⟩ := hback i _ hi
  rw [List.getElem?_map, Option.map_eq_some_iff] at hp
  obtain ⟨invocation, hinvocation, rfl⟩ := hp
  exact ⟨invocation, hinvocation, gives_dispatchCall invocation.1 invocation.2 observation hreturns⟩

theorem gives_dispatchParallel (invocations : List (ToolCall × IssuedToolAuthority)) :
    Gives (state.dispatchParallel fuel checkpoint invocations) fun new => new.readyCount ≤ checkpoint.readyCount ∧
      ∀ head ∈ invocations.head?, checkpoint.waitsToRun head.1.id = true →
        new.readyCount < checkpoint.readyCount := by
  unfold RunState.dispatchParallel
  refine gives_bind ((gives_observations invocations).mono fun observations ⟨hlength, hback⟩ => ?_)
  refine gives_bind ((gives_drain observations).mono fun new hnew => gives_then fun _ => gives_pure ⟨hnew.1, ?_⟩)
  intro head hhead hwaits
  cases observations with
  | nil =>
    obtain rfl := List.eq_nil_of_length_eq_zero hlength.symm
    exact nomatch hhead
  | cons first observations =>
    obtain ⟨observation, rfl, hless⟩ := hnew.2 first rfl
    obtain ⟨invocation, hinvocation, hcall, -⟩ := hback 0 observation rfl
    rw [← List.head?_eq_getElem?] at hinvocation
    obtain rfl := Option.some.inj (hhead.symm.trans hinvocation)
    rw [hcall] at hless
    exact hless hwaits

theorem gives_invocations {Q : ToolCall × IssuedToolAuthority → Prop} {plan : BatchExecutionPlan} {stage : List String}
    (hone : ∀ id ∈ stage, Gives (checkpoint.invocation codec plan id) fun invocation => ∀ found ∈ invocation, Q found) :
    Gives (checkpoint.invocations codec plan stage) fun invocations => ∀ invocation ∈ invocations, Q invocation := by
  induction stage with
  | nil => exact gives_pure fun _ hmem => nomatch hmem
  | cons id stage ih =>
    obtain ⟨hid, hstage⟩ := List.forall_mem_cons.1 hone
    unfold TurnCheckpoint.invocations
    refine gives_bind (hid.mono fun invocation hinvocation => ?_)
    refine gives_bind ((ih hstage).mono fun rest hrest => gives_pure fun found hfound => ?_)
    rcases List.mem_append.1 hfound with hfound | hfound
    · exact hinvocation found (Option.mem_toList.1 hfound)
    · exact hrest found hfound

theorem gives_invocation_waits (plan : BatchExecutionPlan) (id : String) :
    Gives (checkpoint.invocation codec plan id) fun invocation =>
      ∀ found ∈ invocation, checkpoint.waitsToRun found.1.id = true := by
  unfold TurnCheckpoint.invocation
  refine gives_bind (gives_expected fun item hitem => ?_)
  split
  · exact gives_pure fun _ hmem => nomatch hmem
  · rename_i hready
    refine gives_then fun planned => ?_
    split
    · exact gives_pure fun _ hmem => nomatch hmem
    · refine gives_then fun issued => gives_pure fun found hfound => ?_
      obtain rfl := Option.some.inj hfound
      have hid : item.call.id = id := by simpa using List.find?_some hitem
      rw [TurnCheckpoint.waitsToRun, hid, hitem, Option.any_some]
      exact Bool.not_eq_false _ ▸ hready

end Dispatching

section Confirming

variable {codec : Codec} {scope : ToolExecutionScope} {checkpoint : TurnCheckpoint}
variable {id : String} {f : CheckpointApproval → CheckpointApproval} {approvals : List CheckpointApproval}

theorem mem_updateApproval {approval : CheckpointApproval} (h : approval ∈ updateApproval id f approvals) :
    approval ∈ approvals ∨ ∃ old ∈ approvals, approval = f old := by
  induction approvals with
  | nil => exact nomatch h
  | cons head approvals ih =>
    rw [updateApproval] at h
    split at h
    · rcases List.mem_cons.1 h with rfl | h
      · exact .inr ⟨head, List.mem_cons_self .., rfl⟩
      · exact .inl (List.mem_cons_of_mem _ h)
    · rcases List.mem_cons.1 h with rfl | h
      · exact .inl (List.mem_cons_self ..)
      · rcases ih h with h | ⟨old, hold, rfl⟩
        · exact .inl (List.mem_cons_of_mem _ h)
        · exact .inr ⟨old, List.mem_cons_of_mem _ hold, rfl⟩

theorem mem_updateApproval_of_ne {approval : CheckpointApproval} (h : approval ∈ approvals)
    (hne : approval.approvalId ≠ id) : approval ∈ updateApproval id f approvals := by
  induction approvals with
  | nil => exact nomatch h
  | cons head approvals ih =>
    rw [updateApproval]
    split
    · rename_i hid
      rcases List.mem_cons.1 h with rfl | h
      · exact absurd hid hne
      · exact List.mem_cons_of_mem _ h
    · rcases List.mem_cons.1 h with rfl | h
      · exact List.mem_cons_self ..
      · exact List.mem_cons_of_mem _ (ih h)

theorem mem_updateApproval_self (hunique : (approvals.map (·.approvalId)).Nodup) {approval : CheckpointApproval}
    (h : approval ∈ approvals) : f approval ∈ updateApproval approval.approvalId f approvals := by
  induction approvals with
  | nil => exact nomatch h
  | cons head approvals ih =>
    obtain ⟨hhead, hunique⟩ := List.nodup_cons.1 hunique
    rw [updateApproval]
    split
    · rename_i hid
      rcases List.mem_cons.1 h with rfl | h
      · exact List.mem_cons_self ..
      · exact absurd (List.mem_map.2 ⟨approval, h, hid.symm⟩) hhead
    · rename_i hid
      rcases List.mem_cons.1 h with rfl | h
      · exact absurd rfl hid
      · exact List.mem_cons_of_mem _ (ih hunique h)

theorem map_updateApproval {β : Type} {g : CheckpointApproval → β} (hf : ∀ approval, g (f approval) = g approval) :
    (updateApproval id f approvals).map g = approvals.map g := by
  induction approvals with
  | nil => rfl
  | cons head approvals ih =>
    rw [updateApproval]
    split
    · rw [List.map_cons, List.map_cons, hf]
    · rw [List.map_cons, List.map_cons, ih]

theorem countP_lt_of_imp {α : Type} {p q : α → Bool} {xs : List α} (himp : ∀ x ∈ xs, p x = true → q x = true)
    {x : α} (hx : x ∈ xs) (hp : p x = false) (hq : q x = true) : xs.countP p < xs.countP q := by
  induction xs with
  | nil => exact nomatch hx
  | cons y ys ih =>
    have hrest : ys.countP p ≤ ys.countP q :=
      List.countP_mono_left fun z hz => himp z (List.mem_cons_of_mem _ hz)
    rw [List.countP_cons, List.countP_cons]
    rcases List.mem_cons.1 hx with rfl | hx
    · rw [hp, hq, if_neg Bool.false_ne_true, if_pos rfl]
      omega
    · have hless := ih (fun z hz => himp z (List.mem_cons_of_mem _ hz)) hx
      have hhead := himp y (List.mem_cons_self ..)
      split
      · rw [if_pos (hhead ‹_›)]
        omega
      · omega

/-- **A confirmation** of an open approval: one more Ready call is confirmed. -/
theorem progresses_confirm (h : checkpoint.validate codec scope = .ok ()) {approval : CheckpointApproval}
    (hopen : approval ∈ checkpoint.openApprovals) (evidenceId : String) :
    checkpoint.Progresses (checkpoint.confirm approval.approvalId evidenceId) ∧
      (checkpoint.confirm approval.approvalId evidenceId).Orderly := by
  obtain ⟨happroval, hwaits⟩ := List.mem_filter.1 hopen
  obtain ⟨hevidence, hready⟩ := Bool.and_eq_true_iff.1 hwaits
  obtain ⟨item, hitem, hmatch⟩ := List.any_eq_true.1 hready
  obtain ⟨hid, hitemReady⟩ := Bool.and_eq_true_iff.1 hmatch
  replace hid : item.call.id = approval.prepared.call.id := of_decide_eq_true hid
  have horderly := orderly_of_validate h
  have hpairwise := (checkApprovals_pairwise (validate_checks h).2).1
  have hunique : (checkpoint.approvals.map (·.approvalId)).Nodup := List.pairwise_map.2 (hpairwise.imp And.left)
  have hself := mem_updateApproval_self (f := fun approval => { approval with evidenceId := some evidenceId })
    hunique happroval
  -- The only approval of the call is the open one.
  have hbefore : checkpoint.confirmed item.call.id = false := by
    refine List.any_eq_false.2 fun other hother hconfirms => ?_
    obtain ⟨hotherId, hconfirms⟩ := Bool.and_eq_true_iff.1 hconfirms
    have hsaved := savedApproval_of_mem horderly.single hother
    rw [of_decide_eq_true hotherId, hid, savedApproval_of_mem horderly.single happroval] at hsaved
    rw [← Option.some.inj hsaved, Option.isSome_iff_ne_none, Option.isNone_iff_eq_none.1 hevidence] at hconfirms
    exact hconfirms rfl
  refine ⟨.inr ⟨rfl, ?_⟩, horderly.unique, horderly.own, ?_, fun other hother hconfirms item hitem hotherId => ?_⟩
  · refine countP_lt_of_imp (x := item) (fun other hother hconfirmed => ?_) hitem ?_ ?_
    · obtain ⟨hotherReady, hconfirmed⟩ := Bool.and_eq_true_iff.1 hconfirmed
      refine Bool.and_eq_true_iff.2 ⟨hotherReady, ?_⟩
      obtain ⟨old, hold, hconfirms⟩ := List.any_eq_true.1 hconfirmed
      refine List.any_eq_true.2 ⟨old, mem_updateApproval_of_ne hold fun heq => ?_, hconfirms⟩
      obtain rfl := List.inj_on_of_nodup_map hunique hold happroval heq
      rw [Option.isNone_iff_eq_none.1 hevidence, Option.isSome_none, Bool.and_false] at hconfirms
      exact nomatch hconfirms
    · rw [hbefore, Bool.and_false]
    · refine Bool.and_eq_true_iff.2 ⟨hitemReady, List.any_eq_true.2 ⟨_, hself, ?_⟩⟩
      exact Bool.and_eq_true_iff.2 ⟨decide_eq_true hid.symm, rfl⟩
  · have hcalls : (checkpoint.confirm approval.approvalId evidenceId).approvals.map (·.prepared.call.id) =
        checkpoint.approvals.map (·.prepared.call.id) := map_updateApproval fun _ => rfl
    exact hcalls.symm ▸ horderly.single
  · obtain ⟨-, hvalid⟩ := validate_eq_ok h
    have hkept : ∃ old ∈ checkpoint.approvals, other.prepared = old.prepared := by
      rcases mem_updateApproval hother with hother | ⟨old, hold, rfl⟩
      · exact ⟨other, hother, rfl⟩
      · exact ⟨old, hold, rfl⟩
    obtain ⟨old, hold, hprepared⟩ := hkept
    obtain ⟨-, found, hfound, hbound⟩ := hvalid.approvals old hold
    rw [← hprepared, ← hotherId, find_of_mem hvalid.unique hitem] at hfound
    rw [Option.some.inj hfound, hbound, hprepared]

/-- **A cursor past the end**: the stages of a valid checkpoint hold every call, so
none of them is Ready. -/
theorem readyCount_past (h : checkpoint.validate codec scope = .ok ())
    (hpast : checkpoint.stages[checkpoint.stageIndex]? = none) : checkpoint.readyCount = 0 := by
  obtain ⟨-, hvalid⟩ := validate_eq_ok h
  have hstages := (validate_checks h).1
  simp only [TurnCheckpoint.checkStages, bind_eq_ok, reject_eq_ok, not_or, not_not] at hstages
  obtain ⟨_, ⟨-, -, -, hcovers⟩, hprogress⟩ := hstages
  refine List.countP_eq_zero.2 fun item hitem hready => ?_
  have hmem := List.all_eq_true.1 hcovers item.call.id (List.mem_map_of_mem hitem)
  obtain ⟨stage, hstage, hin⟩ := List.mem_flatten.1 (List.contains_iff_mem.1 hmem)
  obtain ⟨i, hi⟩ := List.mem_iff_getElem?.1 hstage
  have hlt := (List.getElem?_eq_some_iff.1 hi).1
  have hle := List.getElem?_eq_none_iff.1 hpast
  have hat : stage.all (checkpoint.atStage i) = true := by
    by_contra hnot
    refine hprogress (List.any_eq_true.2 ⟨(stage, i), List.mk_mem_zipIdx_iff_getElem?.2 hi, ?_⟩)
    exact Bool.not_eq_true' _ ▸ Bool.not_eq_true _ ▸ hnot
  have hitemAt := List.all_eq_true.1 hat item.call.id hin
  rw [TurnCheckpoint.atStage, find_of_mem hvalid.unique hitem, Option.any_some, Bool.and_eq_true,
    Bool.or_eq_true, decide_eq_true_eq] at hitemAt
  rcases hitemAt.1 with hlate | hcompleted
  · omega
  · rw [item.isReady_of_isCompleted hcompleted] at hready
    cases hready

end Confirming

section Iterations

variable {codec : Codec} {executor : TurnExecutor} {fuel : ℕ} {suspend : Bool}
variable {state : RunState} {checkpoint : TurnCheckpoint}

/-- **A stage**: where the batch goes on, fewer calls are Ready, or none was. -/
theorem gives_dispatchCurrentStage {scope : ToolExecutionScope} (hpending : state.pending = some checkpoint)
    (h : checkpoint.validate codec scope = .ok ()) (plan : BatchExecutionPlan) :
    Gives (state.dispatchCurrentStage codec fuel plan) fun r => r.2 = true →
      ∃ new, r.1.pending = some new ∧ new.Orderly ∧
        (new.readyCount < checkpoint.readyCount ∨ new.readyCount = 0) := by
  unfold RunState.dispatchCurrentStage
  refine gives_bind (gives_expected fun before hbefore => ?_)
  obtain rfl := Option.some.inj (hpending.symm.trans hbefore)
  split
  · rename_i hpast
    exact gives_pure fun _ => ⟨_, hpending, orderly_of_validate h, .inr (readyCount_past h hpast)⟩
  · rename_i stage hstage
    refine gives_bind ((gives_invocations fun id _ => gives_invocation_waits plan id).mono fun invocations hinvocations => ?_)
    split
    · exact gives_pure fun hprogressed => by cases hprogressed
    · rename_i hsome
      obtain ⟨head, rest, rfl⟩ := List.exists_cons_of_ne_nil (mt List.isEmpty_iff.2 hsome)
      have hwaits := hinvocations head (List.mem_cons_self ..)
      have hrest : ∀ new : TurnCheckpoint, new.readyCount < checkpoint.readyCount →
          Gives (do
            let checkpoint := new.recount
            Fallible.lift (mapError checkpointError (checkpoint.validate codec checkpoint.scope))
            return ({ state with pending := some checkpoint }, true) : TurnProg (RunState × Bool)) fun r =>
            r.2 = true → ∃ new, r.1.pending = some new ∧ new.Orderly ∧
              (new.readyCount < checkpoint.readyCount ∨ new.readyCount = 0) := by
        intro new hnew
        refine gives_bind (gives_lift fun _ hvalid => gives_pure ?_)
        exact fun _ => ⟨_, rfl, orderly_of_validate (mapError_eq_ok.1 hvalid), .inl hnew⟩
      dsimp only
      split
      · exact gives_bind ((gives_dispatchSerial _).mono fun new hnew => hrest new (hnew.2 head rfl hwaits))
      · exact gives_bind ((gives_dispatchParallel _).mono fun new hnew => hrest new (hnew.2 head rfl hwaits))

theorem gives_pendingStep (hpending : state.pending = some checkpoint) (h : checkpoint.Orderly) :
    Gives (executor.pendingStep codec fuel suspend state) fun step => ∀ next, step = .again next →
      ∃ new, next.pending = some new ∧ new.Orderly ∧ checkpoint.Progresses new := by
  unfold TurnExecutor.pendingStep
  refine gives_then fun _ => gives_bind (gives_expected fun before hbefore => ?_)
  obtain rfl := Option.some.inj (hpending.symm.trans hbefore)
  split
  · exact gives_then fun _ => gives_pure fun _ hagain => nomatch hagain
  split
  · exact gives_then fun _ => gives_pure fun _ hagain => nomatch hagain
  rename_i hawaiting hcompleted
  -- Some call is neither waiting nor completed.
  have hready : 0 < checkpoint.readyCount := by
    obtain ⟨item, hitem, hnot⟩ := List.all_eq_false.1 (Bool.not_eq_true _ ▸ hcompleted)
    refine List.countP_pos_iff.2 ⟨item, hitem, item.isReady_of_not (Bool.not_eq_true _ ▸ hnot) ?_⟩
    exact Bool.not_eq_true _ ▸ List.any_eq_false.1 (Bool.not_eq_true _ ▸ hawaiting) item hitem
  unfold TurnExecutor.runPending
  refine gives_bind ((gives_refreshReady hpending h).mono fun r hr => ?_)
  obtain ⟨refreshed, hstate, hrefreshed, hvalid⟩ := hr
  obtain ⟨middle, plan⟩ := r
  obtain rfl : middle = { state with pending := some refreshed } := hstate
  refine gives_bind (gives_expected fun found hfound => ?_)
  obtain rfl := Option.some.inj hfound
  refine gives_bind (gives_lift fun summary hsummary => ?_)
  split
  · -- The wait for an approval, in the process.
    rename_i approval rest happrovals
    have hopen : approval ∈ summary.approvals := happrovals ▸ List.mem_cons_self ..
    simp only [TurnCheckpoint.suspensionSummary, mapError_eq_ok, bind_eq_ok, pure_eq_ok] at hsummary
    obtain ⟨_, -, rfl⟩ := hsummary
    obtain ⟨opened, hopened, rfl⟩ := List.mem_map.1 hopen
    obtain ⟨hprogress, horderly⟩ := progresses_confirm hvalid hopened opened.approvalId
    unfold RunState.awaitApproval
    refine gives_bind (gives_then fun _ => gives_then fun _ => gives_then fun _ => gives_then fun _ =>
      gives_then fun _ => gives_pure (gives_pure fun next hnext => ?_))
    obtain rfl := PendingStep.again.inj hnext
    exact ⟨_, rfl, horderly, hrefreshed.progresses hprogress⟩
  · -- The next stage.
    unfold TurnExecutor.runStage
    refine gives_bind ((gives_dispatchCurrentStage rfl hvalid plan).mono fun r hr => ?_)
    obtain ⟨after, progressed⟩ := r
    dsimp only at hr ⊢
    split
    · rename_i hprogressed
      refine gives_pure fun next hnext => ?_
      obtain rfl := PendingStep.again.inj hnext
      obtain ⟨new, hnew, horderly, hfewer⟩ := hr hprogressed
      have hless := hrefreshed.counts
      exact ⟨new, hnew, horderly, .inl (by omega)⟩
    · exact gives_then fun _ => gives_pure fun _ hagain => nomatch hagain

variable (codec executor fuel suspend)

/-- An iteration that goes on: some answers lead from one state to the next. -/
def TurnExecutor.Iterates (state next : RunState) : Prop :=
  (executor.pendingStep codec fuel suspend state).run.Returns (.ok (.again next))

/-- So many iterations that go on. -/
inductive TurnExecutor.Iterated : ℕ → RunState → RunState → Prop
  | start (state : RunState) : Iterated 0 state state
  | next {n : ℕ} {state middle next : RunState} (h : Iterated n state middle)
      (hstep : executor.Iterates codec fuel suspend middle next) : Iterated (n + 1) state next

variable {codec executor fuel suspend}

theorem TurnExecutor.Iterated.rank {n : ℕ} {next : RunState}
    (h : executor.Iterated codec fuel suspend n state next) (hpending : state.pending = some checkpoint)
    (horderly : checkpoint.Orderly) :
    ∃ new, next.pending = some new ∧ new.Orderly ∧ new.rank + n ≤ checkpoint.rank := by
  induction h with
  | start state => exact ⟨checkpoint, hpending, horderly, le_rfl⟩
  | next _ hstep ih =>
    obtain ⟨middle, hmiddle, hmiddleOrderly, hrank⟩ := ih hpending
    obtain ⟨new, hnew, hnewOrderly, hprogress⟩ := gives_pendingStep hmiddle hmiddleOrderly _ hstep _ rfl
    have hless := hprogress.rank
    exact ⟨new, hnew, hnewOrderly, by omega⟩

theorem handlePending_eq {a b : ℕ} (hpending : state.pending = some checkpoint) (horderly : checkpoint.Orderly)
    (ha : checkpoint.rank < a) (hb : checkpoint.rank < b) :
    executor.handlePending codec fuel suspend a state = executor.handlePending codec fuel suspend b state := by
  induction a generalizing b state checkpoint with
  | zero => omega
  | succ a ih =>
    obtain ⟨b, rfl⟩ : ∃ b', b = b' + 1 := ⟨b - 1, by omega⟩
    unfold TurnExecutor.handlePending
    refine bind_congr_gives ((gives_pendingStep hpending horderly).mono fun step hstep => ?_)
    cases step with
    | again next =>
      obtain ⟨new, hnew, hnewOrderly, hprogress⟩ := hstep next rfl
      have hless := hprogress.rank
      exact ih hnew hnewOrderly (by omega) (by omega)
    | finished state => rfl
    | waiting suspension => rfl

/-- **The loop over a pending batch ends.**  From a checkpoint that passed
validation, whatever the ports answer: an iteration that goes on leaves fewer
Ready calls, or as many with one more confirmed; so the iterations are bounded
by the size of the batch, and the loop with that many is the loop with any
greater number. -/
theorem pending_terminates {scope : ToolExecutionScope} (hpending : state.pending = some checkpoint)
    (hvalid : checkpoint.validate codec scope = .ok ()) :
    (∀ n middle next, executor.Iterated codec fuel suspend n state middle →
      executor.Iterates codec fuel suspend middle next →
      ∃ old new, middle.pending = some old ∧ next.pending = some new ∧ old.Progresses new) ∧
    (∀ n next, executor.Iterated codec fuel suspend n state next →
      n ≤ checkpoint.calls.length * (checkpoint.calls.length + 2)) ∧
    ∀ iterations, checkpoint.calls.length * (checkpoint.calls.length + 2) < iterations →
      executor.handlePending codec fuel suspend iterations state =
        executor.handlePending codec fuel suspend
          (checkpoint.calls.length * (checkpoint.calls.length + 2) + 1) state := by
  have horderly := orderly_of_validate hvalid
  have hbound := checkpoint.rank_le
  refine ⟨fun n middle next hiterated hstep => ?_, fun n next hiterated => ?_, fun iterations hlarge => ?_⟩
  · obtain ⟨old, hold, holdOrderly, -⟩ := hiterated.rank hpending horderly
    obtain ⟨new, hnew, -, hprogress⟩ := gives_pendingStep hold holdOrderly _ hstep _ rfl
    exact ⟨old, new, hold, hnew, hprogress⟩
  · obtain ⟨new, -, -, hrank⟩ := hiterated.rank hpending horderly
    omega
  · exact handlePending_eq hpending horderly (by omega) (by omega)

end Iterations

section Batch

def oneDigest : Codec where
  sha256 := fun _ => "0"
  checkpointLen := fun _ => 0

def batchCall : PreparedCall where
  call := { id := "c", name := "write", arguments := .object [] }
  toolRevision := "1"
  claim := {
    toolName := "write"
    capabilities := [.filesystemWrite]
    effects := [.create]
    resource := { path := none }
    idempotency := .unknown }
  requirements := { processSandbox := false, maxOutputBytes := 1, timeoutMs := 1 }
  executionBinding := .null
  digest := "0"

def readyBatch : TurnCheckpoint where
  schemaVersion := 1
  checkpointId := "k"
  scope := {
    execution := { sessionId := "s", turnId := "t", executionId := "e" }
    stepId := "t-step-0"
    agentSnapshotDigest := none }
  modelRequest := { requestId := "r", messages := [] }
  inputMessageCount := 0
  steps := [{ stepId := "t-step-0", response := { content := [.toolCall batchCall.call] }, outcome := .toolCalls }]
  nextStepIndex := 1
  calls := [{ call := batchCall.call, prepared := some batchCall, charged := false, state := .ready }]
  stages := [["c"]]
  stageIndex := 0
  approvals := []
  budget := {
    maxSteps := 1
    maxToolCalls := none
    deadlineAtMs := none
    toolTimeoutMs := none
    priorToolCallsUsed := 0
    toolCallsUsed := 0 }
  dispatch := { mode := .serial, onError := .continueBatch }

theorem readyBatch_valid : readyBatch.validate oneDigest readyBatch.scope = .ok () := by decide +kernel

def batchExecutor : TurnExecutor where
  toolDispatch := readyBatch.dispatch
  toolTimeout := none
  policyEngine := none
  executionKey := none
  agentSnapshotDigest := none
  absoluteDeadlineAtMs := none

def batchState : RunState := readyBatch.runState readyBatch.scope { duration := none, instant := none, unixMs := none }

/-- The loop over this batch has no use for more than four iterations. -/
theorem pending_terminates_readyBatch :
    batchExecutor.handlePending oneDigest 5 false 100 batchState =
      batchExecutor.handlePending oneDigest 5 false 4 batchState :=
  (pending_terminates rfl readyBatch_valid).2.2 100 (by decide)

end Batch

end Turn
end Kolyan
