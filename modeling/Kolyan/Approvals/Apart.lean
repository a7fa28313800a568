/-
# Approvals do not interfere

Calls on one approval are answered as if no other approval were in the directory, a load
finds what was saved last and not claimed or deleted since, and a claim succeeds once
(`Independent`).

All of it is so in a run that claims or deletes no `a` while it also has a call on
`a.claimed` (`Apart`): then the directory is a family of slots, one for each approval
(`store_simulates`), and each slot answers alone.  Without that, the claim of `a` puts
its request where the request of `a.claimed` waits (`not_approvals_independent`).
-/

import Kolyan.Approvals.Files

namespace Kolyan
namespace Approvals

open Checks Turn Machine
open Sessions (StorageError)

variable {C : Type} {codec : Codec C} {files : Files C} {ops before later : List Op} {a : String}

/-- No call takes the claimed file of an id while another is on the id that waits there. -/
def Apart (ops : List Op) : Prop :=
  ∀ o ∈ ops, o.Consumes → ∀ o' ∈ ops, o'.id ≠ o.id ++ ".claimed"

instance (ops : List Op) : Decidable (Apart ops) :=
  inferInstanceAs (Decidable (∀ o ∈ ops, o.Consumes → ∀ o' ∈ ops, o'.id ≠ o.id ++ ".claimed"))

/-- What is outstanding of an approval after a call: the request saved last, until it is
claimed or deleted. -/
def Op.leaves (a : String) (found : Option ApprovalRequest) : Op → Option ApprovalRequest
  | .save request => if request.approvalId = a then some request else found
  | .load _ => found
  | .claim approvalId | .delete approvalId => if approvalId = a then none else found

/-- What is outstanding of an approval after some calls. -/
def outstanding (a : String) (ops : List Op) : Option ApprovalRequest := ops.foldl (Op.leaves a) none

/-- **Approvals do not interfere** in a run of calls on a directory. -/
structure Independent (codec : Codec C) (files : Files C) (ops : List Op) : Prop where
  isolated : ∀ a, ((store codec).answers files ops).filter (fun answer => answer.1.id = a) =
    (store codec).answers files (ops.filter fun o => o.id = a)
  loaded : ∀ (before later : List Op) (a : String), ops = before ++ .load a :: later → ValidId a →
    files (pendingName a) = none →
      ((store codec).step ((store codec).after files before) (.load a)).1 =
        expect (outstanding a before) (.notFound a)
  claimedOnce : ∀ (before between later : List Op) (a : String),
    ops = before ++ .claim a :: (between ++ .claim a :: later) →
      (∀ request, .save request ∈ between → request.approvalId ≠ a) →
        ∀ r, ((store codec).step ((store codec).after files before) (.claim a)).1 = .ok r →
          ∀ r', ((store codec).step ((store codec).after files (before ++ .claim a :: between))
            (.claim a)).1 ≠ .ok r'

/-- The slots that a directory is, as far as these calls see it. -/
def Related (ops : List Op) (files : Files C) (family : String → Slot C) : Prop :=
  ∀ o ∈ ops, files (pendingName o.id) = (family o.id).pending ∧
    (o.Consumes → files (claimedName o.id) = (family o.id).claimed)

theorem Apart.of_subset {ops' : List Op} (h : Apart ops) (hsub : ∀ o ∈ ops', o ∈ ops) : Apart ops' :=
  fun o ho hconsumes o' ho' => h o (hsub o ho) hconsumes o' (hsub o' ho')

theorem slots_step_congr (codec : Codec C) {o : Op} (slot : Slot C) {slot' : Slot C}
    (hpending : slot.pending = slot'.pending)
    (hclaimed : o.Consumes → slot.claimed = slot'.claimed) :
    ((slots codec).step slot o).1 = ((slots codec).step slot' o).1 ∧
      ((slots codec).step slot o).2.pending = ((slots codec).step slot' o).2.pending := by
  by_cases hconsumes : o.Consumes
  · obtain rfl : slot = slot' := Slot.ext hpending (hclaimed hconsumes)
    exact ⟨rfl, rfl⟩
  · cases o with
    | save request => by_cases hvalid : ValidId request.approvalId <;> simp [slots, hvalid, hpending]
    | load approvalId => by_cases hvalid : ValidId approvalId <;> simp [slots, hvalid, hpending]
    | claim approvalId => exact absurd trivial hconsumes
    | delete approvalId => exact absurd trivial hconsumes

/-- **A call keeps the slots of the others**, when the run is apart. -/
theorem Related.step {family : String → Slot C} {o : Op} (hapart : Apart ops) (ho : o ∈ ops)
    (h : Related ops files family) :
    ((store codec).step files o).1 = ((cells Op.id (slots codec)).step family o).1 ∧
      Related ops ((store codec).step files o).2 ((cells Op.id (slots codec)).step family o).2 := by
  obtain ⟨hpending, hclaimed⟩ := h o ho
  obtain ⟨hanswer, hslot⟩ := step_slot codec files o
  obtain ⟨hcongr, hnext⟩ := slots_step_congr codec (slotOf files o.id) hpending hclaimed
  refine ⟨hanswer.trans hcongr, fun o' ho' => ?_⟩
  by_cases hid : o.id = o'.id
  · rw [← hid, cells_step_key, ← hnext, ← hslot]
    refine ⟨rfl, fun hconsumes => ?_⟩
    -- a call of the run takes the claimed file, so the whole slot is seen
    have hwhole : slotOf files o.id = family o.id :=
      Slot.ext hpending (by rw [hid]; exact (h o' ho').2 hconsumes)
    rw [← hwhole, ← hslot]
    rfl
  · rw [cells_step_other hid]
    obtain ⟨hpending', hclaimed'⟩ := h o' ho'
    refine ⟨?_, fun hconsumes => ?_⟩
    · rw [step_other pendingName_ne_tempName (fun heq => hid (pendingName_inj.1 heq).symm)
        (fun hc heq => hapart o ho hc o' ho' (pendingName_eq_claimedName.1 heq))]
      exact hpending'
    · rw [step_other claimedName_ne_tempName
        (fun heq => hapart o' ho' hconsumes o ho (pendingName_eq_claimedName.1 heq.symm))
        (fun _ heq => hid (claimedName_inj.1 heq).symm)]
      exact hclaimed' hconsumes

theorem store_simulates (codec : Codec C) (hapart : Apart ops) :
    Simulates (store codec) (cells Op.id (slots codec)) (fun _ o => o ∈ ops) (Related ops) where
  answer h ho := (h.step hapart ho).1
  next h ho := (h.step hapart ho).2

theorem answers_eq (codec : Codec C) (files : Files C) (hapart : Apart ops) :
    (store codec).answers files ops = (cells Op.id (slots codec)).answers (slotOf files) ops :=
  (store_simulates codec hapart).answers (fun _ _ => ⟨rfl, fun _ => rfl⟩) (meets_of_mem fun _ ho => ho)

theorem answer_eq (codec : Codec C) (files : Files C) {o : Op} (hapart : Apart (before ++ o :: later)) :
    ((store codec).step ((store codec).after files before) o).1 =
      ((slots codec).step
        ((slots codec).after (slotOf files o.id) (before.filter fun o' => o'.id = o.id)) o).1 := by
  have hsim := store_simulates codec hapart
  have hmeets : (store codec).Meets (fun _ o' => o' ∈ before ++ o :: later) files before :=
    meets_of_mem fun o' ho' => List.mem_append_left _ ho'
  have hstart : Related (before ++ o :: later) files (slotOf files) := fun _ _ => ⟨rfl, fun _ => rfl⟩
  have hrelated := hsim.after hstart hmeets
  have hanswer := hsim.answer hrelated (List.mem_append_right before List.mem_cons_self)
  rw [hanswer, ← cells_after]
  rfl

theorem leaves_other {found : Option ApprovalRequest} {o : Op} (h : o.id ≠ a) :
    o.leaves a found = found := by
  cases o with
  | load approvalId => rfl
  | _ => exact if_neg h

theorem slots_step_pending (codec : Codec C) {slot : Slot C} {found : Option ApprovalRequest} {o : Op}
    (hvalid : ValidId o.id) (hfound : slot.pending = found.map codec.encode) :
    ((slots codec).step slot o).2.pending = (o.leaves o.id found).map codec.encode := by
  cases o with
  | save request =>
    have hvalid : ValidId request.approvalId := hvalid
    simp [slots, hvalid, Op.leaves, Op.id]
  | load approvalId =>
    have hvalid : ValidId approvalId := hvalid
    simpa [slots, hvalid, Op.leaves] using hfound
  | claim approvalId =>
    have hvalid : ValidId approvalId := hvalid
    cases hpending : slot.pending <;> simp [slots, hvalid, hpending, Op.leaves, Op.id]
  | delete approvalId =>
    have hvalid : ValidId approvalId := hvalid
    simp [slots, hvalid, Op.leaves, Op.id]

theorem pending_after (codec : Codec C) (hvalid : ValidId a) (ops : List Op) {slot : Slot C}
    {found : Option ApprovalRequest} (hfound : slot.pending = found.map codec.encode) :
    ((slots codec).after slot (ops.filter fun o => o.id = a)).pending =
      (ops.foldl (Op.leaves a) found).map codec.encode := by
  induction ops generalizing slot found with
  | nil => exact hfound
  | cons o ops ih =>
    by_cases hid : o.id = a
    · subst hid
      rw [List.filter_cons_of_pos (by simp), after_cons, List.foldl_cons]
      exact ih (slots_step_pending codec hvalid hfound)
    · rw [List.filter_cons_of_neg (by simpa using hid), List.foldl_cons, leaves_other hid]
      exact ih hfound

theorem foldl_leaves_none (h : ∀ request, .save request ∈ ops → request.approvalId ≠ a) :
    ops.foldl (Op.leaves a) none = none := by
  induction ops with
  | nil => rfl
  | cons o ops ih =>
    have hnone : o.leaves a none = none := by
      cases o with
      | save request => exact if_neg (h request List.mem_cons_self)
      | load approvalId => rfl
      | claim approvalId => exact ite_self none
      | delete approvalId => exact ite_self none
    rw [List.foldl_cons, hnone]
    exact ih fun request hmem => h request (List.mem_cons_of_mem o hmem)

theorem load_slot {slot : Slot C} {found : Option ApprovalRequest} (hvalid : ValidId a)
    (hpending : slot.pending = found.map codec.encode) :
    ((slots codec).step slot (.load a)).1 = expect found (.notFound a) := by
  cases found with
  | none => simp [slots, hvalid, hpending, expect, Except.bind]
  | some request =>
    simp [slots, hvalid, hpending, expect, Except.bind, read, codec.decode_encode, mapError]

theorem valid_of_claim {slot : Slot C} {r : ApprovalRequest}
    (h : ((slots codec).step slot (.claim a)).1 = .ok r) : ValidId a := by
  by_contra hvalid
  simp [slots, hvalid] at h

theorem claim_ne_ok {slot : Slot C} (hpending : slot.pending = none) (r : ApprovalRequest) :
    ((slots codec).step slot (.claim a)).1 ≠ .ok r := by
  by_cases hvalid : ValidId a <;> simp [slots, hvalid, hpending]

theorem pending_claim_eq (slot : Slot C) (hvalid : ValidId a) :
    ((slots codec).step slot (.claim a)).2.pending = (none : Option ApprovalRequest).map codec.encode := by
  cases hpending : slot.pending <;> simp [slots, hvalid, hpending]

/-- **Approvals do not interfere in an apart run**, on any directory. -/
theorem independent_of_apart (codec : Codec C) (files : Files C) (h : Apart ops) :
    Independent codec files ops where
  isolated a := by
    have hfiltered : Apart (ops.filter fun o => o.id = a) :=
      h.of_subset fun o ho => (List.mem_filter.1 ho).1
    rw [answers_eq codec files h, cells_answers_filter, answers_eq codec files hfiltered]
  loaded before later a hops hvalid hfresh := by
    subst hops
    have hslot : (slotOf files a).pending = (none : Option ApprovalRequest).map codec.encode := hfresh
    rw [answer_eq codec files h]
    exact load_slot hvalid (pending_after codec hvalid before hslot)
  claimedOnce before between later a hops hsaves r hr r' := by
    subst hops
    have hr : ((slots codec).step ((slots codec).after (slotOf files a) _) (.claim a)).1 = .ok r :=
      (answer_eq codec files h).symm.trans hr
    have hvalid := valid_of_claim hr
    have hagain : Apart ((before ++ .claim a :: between) ++ .claim a :: later) := by
      rw [List.append_assoc]
      exact h
    rw [answer_eq codec files hagain]
    refine claim_ne_ok ?_ r'
    have hid : (before ++ .claim a :: between).filter (fun o => o.id = a) =
        before.filter (fun o => o.id = a) ++ .claim a :: between.filter fun o => o.id = a := by
      simp [Op.id]
    have hnone := fun slot : Slot C => pending_after codec hvalid between (pending_claim_eq slot hvalid)
    show ((slots codec).after (slotOf files a)
      ((before ++ .claim a :: between).filter fun o => o.id = a)).pending = none
    rw [hid, after_append, after_cons]
    exact (hnone _).trans (congrArg _ (foldl_leaves_none hsaves))

def requestOf (approvalId : String) : ApprovalRequest :=
  ⟨approvalId, "turn-1", "call-" ++ approvalId, "write_file", "requires approval", none⟩

def twoApprovals (a b : String) : List Op :=
  [.save (requestOf a), .save (requestOf b), .claim a, .load b]

/-- **Approvals interfere** when one is called as the claimed file of another: the claim of
`a` puts its request where the request of `a.claimed` waits. -/
theorem not_approvals_independent :
    ¬Independent jsonCodec Directory.empty (twoApprovals "a" "a.claimed") := by
  intro h
  have hload := h.loaded [.save (requestOf "a"), .save (requestOf "a.claimed"), .claim "a"] [] "a.claimed" rfl
    (by decide +kernel) rfl
  revert hload
  decide +kernel

theorem independent_of_apart_two :
    Apart (twoApprovals "approval-1" "approval-2") ∧
      Independent jsonCodec Directory.empty (twoApprovals "approval-1" "approval-2") :=
  ⟨by decide +kernel, independent_of_apart jsonCodec Directory.empty (by decide +kernel)⟩

end Approvals
end Kolyan
