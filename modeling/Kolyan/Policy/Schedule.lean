/-
# The stages are a schedule

`kolyan-policy`: `execution_stages` puts every call of a batch that may run into one
stage, later than every earlier call that it conflicts with and no later than that
demands (`stages_scheduled`).

The induction is over the calls in their order; a call is pushed into a stage that is
there or into the next one, so that no stage stays empty (`stageIndex_le`).
-/

import Kolyan.Policy.Stages

namespace Kolyan
namespace Policy

open Checks

/-- **A schedule of the calls that may run.** -/
structure Scheduled (approved : List String) (decisions : List BatchCallDecision) (stages : List (List String)) : Prop where
  nonempty : ∀ stage ∈ stages, stage ≠ []
  once : stages.flatten.Perm ((decisions.filter (·.executable approved)).map BatchCallDecision.callId)
  order : ∀ (i j : ℕ) left right, i < j → decisions[i]? = some left → decisions[j]? = some right →
    left.executable approved = true → right.executable approved = true → claimsConflict left.claim right.claim = true →
    ∀ s t, At stages left.callId s → At stages right.callId t → s < t
  apart : ∀ left ∈ decisions, ∀ right ∈ decisions, left.callId ≠ right.callId →
    claimsConflict left.claim right.claim = true → ∀ i, At stages left.callId i → ¬At stages right.callId i
  ordered : ∀ stage ∈ stages, stage.Sublist (decisions.map BatchCallDecision.callId)
  earliest : ∀ (j : ℕ) current, decisions[j]? = some current → ∀ s, At stages current.callId (s + 1) →
    ∃ i < j, ∃ previous, decisions[i]? = some previous ∧ previous.executable approved = true ∧
      claimsConflict previous.claim current.claim = true ∧ At stages previous.callId s

variable {approved : List String} {earlier decisions : List BatchCallDecision} {stages : List (List String)}
  {current previous : BatchCallDecision} {id : String} {index : ℕ}

/-! ### A push -/

theorem pushStage_of_lt (h : index < stages.length) : pushStage stages index id = stages.modify index (· ++ [id]) := by
  rw [pushStage, Nat.sub_eq_zero_of_le h, List.replicate_zero, List.append_nil]

theorem pushStage_length : pushStage stages stages.length id = stages ++ [[id]] := by
  have hone : stages.length + 1 - stages.length = 1 := Nat.add_sub_cancel_left ..
  have hlast : ∀ stages : List (List String), (stages ++ [[]]).modify stages.length (· ++ [id]) = stages ++ [[id]] := by
    intro stages
    induction stages with
    | nil => rfl
    | cons stage stages ih => rw [List.cons_append, List.length_cons, List.modify_succ_cons, ih, List.cons_append]
  rw [pushStage, hone, List.replicate_one, hlast]

theorem flatten_modify (h : index < stages.length) :
    (stages.modify index (· ++ [id])).flatten.Perm (stages.flatten ++ [id]) := by
  induction stages generalizing index with
  | nil => exact absurd h (Nat.not_lt_zero _)
  | cons stage stages ih =>
    cases index with
    | zero =>
      simp only [List.modify_zero_cons, List.flatten_cons, List.append_assoc]
      exact List.perm_append_comm.append_left stage
    | succ index =>
      simp only [List.modify_succ_cons, List.flatten_cons, List.append_assoc]
      exact (ih (Nat.lt_of_succ_lt_succ h)).append_left stage

theorem flatten_pushStage (h : index ≤ stages.length) :
    (pushStage stages index id).flatten.Perm (stages.flatten ++ [id]) := by
  rcases h.lt_or_eq with hlt | rfl
  · rw [pushStage_of_lt hlt]
    exact flatten_modify hlt
  · rw [pushStage_length, List.flatten_append, List.flatten_singleton]

theorem mem_pushStage_cases (h : index ≤ stages.length) {stage : List String} (hstage : stage ∈ pushStage stages index id) :
    stage ∈ stages ∨ stage = [id] ∨ ∃ old ∈ stages, stage = old ++ [id] := by
  rcases h.lt_or_eq with hlt | rfl
  · rw [pushStage_of_lt hlt] at hstage
    obtain ⟨i, hi⟩ := List.getElem?_of_mem hstage
    rcases eq_or_ne index i with rfl | hne
    · rw [List.getElem?_modify_eq, Option.map_eq_map, Option.map_eq_some_iff] at hi
      obtain ⟨old, hold, rfl⟩ := hi
      exact .inr (.inr ⟨old, List.mem_of_getElem? hold, rfl⟩)
    · rw [List.getElem?_modify_ne _ _ hne] at hi
      exact .inl (List.mem_of_getElem? hi)
  · rw [pushStage_length, List.mem_append, List.mem_singleton] at hstage
    exact hstage.imp_right .inl

/-! ### The stage of a call -/

theorem stageAfter_cases : stageAfter approved stages current index previous = index ∨
    previous.executable approved = true ∧ claimsConflict previous.claim current.claim = true ∧
      ∃ k, stages.findIdx? (·.contains previous.callId) = some k ∧ stageAfter approved stages current index previous = k + 1 := by
  unfold stageAfter
  split_ifs with hconflict
  · rw [Bool.and_eq_true] at hconflict
    cases hfound : stages.findIdx? (·.contains previous.callId) with
    | none => exact .inl rfl
    | some k =>
      rcases le_total (k + 1) index with hle | hle
      · exact .inl (Nat.max_eq_left hle)
      · exact .inr ⟨hconflict.1, hconflict.2, k, rfl, Nat.max_eq_right hle⟩
  · exact .inl rfl

/-- **The stage of a call** is the first, or the next after that of an earlier call in conflict. -/
theorem stageIndex_cases : stageIndex approved stages earlier current = 0 ∨
    ∃ previous ∈ earlier, previous.executable approved = true ∧ claimsConflict previous.claim current.claim = true ∧
      ∃ k, stages.findIdx? (·.contains previous.callId) = some k ∧ stageIndex approved stages earlier current = k + 1 := by
  induction earlier using List.reverseRecOn with
  | nil => exact .inl rfl
  | append_singleton earlier item ih =>
    have hlast : stageIndex approved stages (earlier ++ [item]) current =
        stageAfter approved stages current (stageIndex approved stages earlier current) item := by
      rw [stageIndex, List.foldl_append]
      rfl
    rw [hlast]
    rcases stageAfter_cases with hsame | ⟨hexec, hconflict, k, hfound, hnext⟩
    · rw [hsame]
      rcases ih with hzero | ⟨previous, hmem, hrest⟩
      · exact .inl hzero
      · exact .inr ⟨previous, List.mem_append_left _ hmem, hrest⟩
    · exact .inr ⟨item, List.mem_append_right _ (List.mem_singleton_self _), hexec, hconflict, k, hfound, hnext⟩

theorem stageIndex_le : stageIndex approved stages earlier current ≤ stages.length := by
  rcases stageIndex_cases with hzero | ⟨previous, -, -, -, k, hfound, hnext⟩
  · rw [hzero]
    exact Nat.zero_le _
  · rw [hnext]
    exact (List.findIdx?_eq_some_iff_getElem.1 hfound).1

/-! ### All calls -/

theorem getElem?_snoc {i : ℕ} {item : BatchCallDecision} (h : (earlier ++ [current])[i]? = some item) :
    earlier[i]? = some item ∨ i = earlier.length ∧ item = current := by
  rcases lt_or_ge i earlier.length with hlt | hge
  · rw [List.getElem?_append_left hlt] at h
    exact .inl h
  · rw [List.getElem?_append_right hge] at h
    obtain ⟨hlt, rfl⟩ := List.getElem?_eq_some_iff.1 h
    rw [List.length_singleton] at hlt
    exact .inr ⟨by omega, by simp⟩

/-- **One more call**, with an id of its own, is put where a schedule wants it. -/
theorem Scheduled.next (h : Scheduled approved earlier stages) (hapart : Apart approved earlier stages)
    (hids : ((earlier ++ [current]).map BatchCallDecision.callId).Nodup) :
    Scheduled approved (earlier ++ [current])
      (if current.executable approved then
        pushStage stages (stageIndex approved stages earlier current) current.callId
      else stages) := by
  have hnext := hapart.next hids
  have hfresh : ∀ item ∈ earlier, item.callId ≠ current.callId := by
    intro item hitem heq
    rw [List.map_append, List.nodup_append] at hids
    exact hids.2.2 _ (List.mem_map_of_mem hitem) _ (List.mem_singleton_self _) heq
  have hnot : ∀ i, ¬At stages current.callId i := by
    intro i hat
    obtain ⟨item, hitem, -, hid⟩ := hapart.known _ i hat
    exact hfresh item hitem hid
  by_cases hexec : current.executable approved = true
  · rw [if_pos hexec] at hnext ⊢
    have hle : stageIndex approved stages earlier current ≤ stages.length := stageIndex_le
    -- the push moves no earlier call
    have hold : ∀ {item s}, item ∈ earlier →
        At (pushStage stages (stageIndex approved stages earlier current) current.callId) item.callId s →
          At stages item.callId s := by
      intro item s hitem hat
      exact (at_pushStage.1 hat).resolve_right fun hnew => hfresh item hitem hnew.2
    refine ⟨fun stage hstage => ?_, ?_, fun i j left right hij hi hj hleft hright hconflict s t hs ht => ?_, hnext.apart,
      fun stage hstage => ?_, fun j item hj s hs => ?_⟩
    · rcases mem_pushStage_cases hle hstage with hstage | rfl | ⟨old, -, rfl⟩
      · exact h.nonempty stage hstage
      · exact List.cons_ne_nil _ _
      · exact List.append_ne_nil_of_right_ne_nil _ (List.cons_ne_nil _ _)
    · refine (flatten_pushStage hle).trans ?_
      rw [List.filter_append, List.map_append, List.filter_cons_of_pos hexec]
      exact h.once.append_right _
    · rcases getElem?_snoc hi with hi | ⟨rfl, rfl⟩
      · have hmem := List.mem_of_getElem? hi
        rcases getElem?_snoc hj with hj | ⟨rfl, rfl⟩
        · exact h.order i j left right hij hi hj hleft hright hconflict s t (hold hmem hs) (hold (List.mem_of_getElem? hj) ht)
        · obtain ⟨rfl, -⟩ := (at_pushStage.1 ht).resolve_left (hnot t)
          exact lt_stageIndex hmem hleft hconflict (findIdx_at (fun k hk => hapart.once _ k s hk (hold hmem hs)) (hold hmem hs))
      · have hlt := (List.getElem?_eq_some_iff.1 hj).1
        rw [List.length_append, List.length_singleton] at hlt
        omega
    · rw [List.map_append, List.map_singleton]
      rcases mem_pushStage_cases hle hstage with hstage | rfl | ⟨old, hmem, rfl⟩
      · exact (h.ordered stage hstage).trans (List.sublist_append_left _ _)
      · exact List.sublist_append_right _ _
      · exact (h.ordered old hmem).append (List.Sublist.refl _)
    · rcases getElem?_snoc hj with hj | ⟨rfl, rfl⟩
      · obtain ⟨i, hij, previous, hi, hrun, hconflict, hat⟩ := h.earliest j item hj s (hold (List.mem_of_getElem? hj) hs)
        exact ⟨i, hij, previous, (List.getElem?_append_left (List.getElem?_eq_some_iff.1 hi).1).trans hi, hrun, hconflict,
          at_pushStage.2 (.inl hat)⟩
      · obtain ⟨hindex, -⟩ := (at_pushStage.1 hs).resolve_left (hnot (s + 1))
        rcases stageIndex_cases with hzero | ⟨previous, hmem, hrun, hconflict, k, hfound, hk⟩
        · exact absurd (hindex.trans hzero) (Nat.succ_ne_zero s)
        · obtain ⟨i, hi⟩ := List.getElem?_of_mem hmem
          obtain ⟨hlt, hcontains, -⟩ := List.findIdx?_eq_some_iff_getElem.1 hfound
          obtain rfl : s = k := Nat.succ_injective (hindex.trans hk)
          exact ⟨i, (List.getElem?_eq_some_iff.1 hi).1, previous,
            (List.getElem?_append_left (List.getElem?_eq_some_iff.1 hi).1).trans hi, hrun, hconflict,
            at_pushStage.2 (.inl ⟨_, List.getElem?_eq_getElem hlt, by simpa using hcontains⟩)⟩
  · rw [if_neg hexec] at hnext ⊢
    refine ⟨h.nonempty, ?_, fun i j left right hij hi hj hleft hright hconflict s t hs ht => ?_, hnext.apart,
      fun stage hstage => ?_, fun j item hj s hs => ?_⟩
    · rw [List.filter_append, List.filter_cons_of_neg hexec, List.filter_nil, List.append_nil]
      exact h.once
    · rcases getElem?_snoc hi with hi | ⟨-, rfl⟩
      · rcases getElem?_snoc hj with hj | ⟨-, rfl⟩
        · exact h.order i j left right hij hi hj hleft hright hconflict s t hs ht
        · exact absurd ht (hnot t)
      · exact absurd hs (hnot s)
    · rw [List.map_append]
      exact (h.ordered stage hstage).trans (List.sublist_append_left _ _)
    · rcases getElem?_snoc hj with hj | ⟨-, rfl⟩
      · obtain ⟨i, hij, previous, hi, hrest⟩ := h.earliest j item hj s hs
        exact ⟨i, hij, previous, (List.getElem?_append_left (List.getElem?_eq_some_iff.1 hi).1).trans hi, hrest⟩
      · exact absurd hs (hnot _)

theorem scheduled_stagesFrom {rest : List BatchCallDecision} (h : Scheduled approved earlier stages)
    (hapart : Apart approved earlier stages) (hids : ((earlier ++ rest).map BatchCallDecision.callId).Nodup) :
    Scheduled approved (earlier ++ rest) (stagesFrom approved earlier stages rest) := by
  induction rest generalizing earlier stages with
  | nil => rwa [List.append_nil]
  | cons current rest ih =>
    have hsplit : earlier ++ current :: rest = (earlier ++ [current]) ++ rest := by simp
    rw [hsplit] at hids ⊢
    have hone : ((earlier ++ [current]).map BatchCallDecision.callId).Nodup := by
      rw [List.map_append] at hids
      exact (List.nodup_append.1 hids).1
    exact ih (h.next hapart hone) (hapart.next hone) hids

/-- **Batch staging is a correct schedule**, which keeps the order of the calls: no stage is
empty, every call that may run is in one stage, once, and no other is; a call stands later
than every earlier one in conflict, no two calls of a stage conflict, within a stage the
calls keep their order, and each stands in the first stage or next after an earlier call in
conflict. -/
theorem stages_scheduled (hids : (decisions.map BatchCallDecision.callId).Nodup) (approved : List String) :
    Scheduled approved decisions (executionStages decisions approved) := by
  have hnone : ∀ {id i}, ¬At [] id i := fun ⟨_, hstage, _⟩ => nomatch hstage
  have hapart : Apart approved [] [] :=
    ⟨List.nodup_nil, fun _ _ hat => absurd hat hnone, fun _ _ _ hat => absurd hat hnone, fun _ hmem => absurd hmem List.not_mem_nil⟩
  have hstart : Scheduled approved [] [] :=
    ⟨fun _ hmem => absurd hmem List.not_mem_nil, .refl _, fun _ _ _ _ _ hi => (nomatch hi),
      fun _ hmem => absurd hmem List.not_mem_nil, fun _ hmem => absurd hmem List.not_mem_nil, fun _ _ hj => (nomatch hj)⟩
  exact scheduled_stagesFrom hstart hapart hids

/-- A call that reads or updates a file and may run, or may run once it is approved. -/
def fileDecision (callId path : String) (effect : Effect) (kind : PolicyDecisionKind) : BatchCallDecision where
  callId
  claim :=
    { toolName := "files"
      capabilities := []
      effects := [effect]
      resource := { path := some path }
      idempotency := .unknown }
  decision := { kind, reason := "", policyVersion := "v1", constraints := ⟨none, none⟩ }

/-- Two updates of one file, with a read of another one and a call that waits between them. -/
def fileDecisions : List BatchCallDecision :=
  [fileDecision "first" "a" .update .allow, fileDecision "other" "b" .read .allow,
    fileDecision "waiting" "a" .update .requireApproval, fileDecision "second" "a" .update .allow]

theorem stages_scheduled_files : executionStages fileDecisions [] = [["first", "other"], ["second"]] ∧
    Scheduled [] fileDecisions (executionStages fileDecisions []) :=
  ⟨by decide +kernel, stages_scheduled (by decide) []⟩

end Policy
end Kolyan
