/-
# Stages that keep conflicts apart

`kolyan-policy`: `execution_stages` puts the calls of a batch into stages, and
the calls of one stage run in parallel.  When the ids of a batch are different,
as `resolve_prepared_batch` demands, every call that may run is in one stage
only, and two calls whose claims conflict are never in the same
(`stages_apart`); a plan of prepared calls keeps them apart whatever is approved
later (`plan_apart`).

The induction is over the calls in their order, and what it carries is `Apart`.
`At stages id i` says where an id stands, and `at_pushStage` what one push does to
it.
-/

import Kolyan.Policy.Engine

namespace Kolyan
namespace Policy

open Checks

/-- An id is in the stage of this index. -/
def At (stages : List (List String)) (id : String) (i : ℕ) : Prop := ∃ stage, stages[i]? = some stage ∧ id ∈ stage

/-- The calls `earlier` in their stages: the ids are different, those in a stage
belong to calls that may run, none is in two stages, and two calls in conflict are
never in one together. -/
structure Apart (approved : List String) (earlier : List BatchCallDecision) (stages : List (List String)) : Prop where
  ids : (earlier.map BatchCallDecision.callId).Nodup
  known : ∀ id i, At stages id i → ∃ item ∈ earlier, item.executable approved = true ∧ item.callId = id
  once : ∀ id i j, At stages id i → At stages id j → i = j
  apart : ∀ left ∈ earlier, ∀ right ∈ earlier, left.callId ≠ right.callId →
    claimsConflict left.claim right.claim = true → ∀ i, At stages left.callId i → ¬At stages right.callId i

variable {approved : List String} {earlier decisions : List BatchCallDecision} {stages : List (List String)}
  {current previous left right : BatchCallDecision} {id : String} {index i : ℕ}

theorem claimsConflict_comm (left right : InvocationClaim) : claimsConflict left right = claimsConflict right left := by
  rw [claimsConflict, claimsConflict, Bool.or_comm]
  congr 1
  cases left.resource.path with
  | none => cases right.resource.path <;> rfl
  | some l =>
    cases right.resource.path with
    | none => rfl
    | some r =>
      simp only [eq_comm (a := l), Bool.or_assoc, Bool.or_comm (startsWith l (r ++ "/"))]

theorem at_pushStage {other : String} :
    At (pushStage stages index id) other i ↔ At stages other i ∨ i = index ∧ other = id := by
  have hfilled : ∀ stage : List String,
      (stages ++ List.replicate (index + 1 - stages.length) [])[i]? = some stage ∧ other ∈ stage ↔
        stages[i]? = some stage ∧ other ∈ stage := by
    intro stage
    rcases lt_or_ge i stages.length with hlt | hge
    · rw [List.getElem?_append_left hlt]
    · rw [List.getElem?_append_right hge, List.getElem?_replicate, List.getElem?_eq_none hge]
      constructor
      · rintro ⟨hstage, hother⟩
        split_ifs at hstage
        rw [← Option.some.inj hstage] at hother
        exact absurd hother List.not_mem_nil
      · exact fun h => nomatch h.1
  rcases eq_or_ne i index with rfl | hne
  · have hlt : i < (stages ++ List.replicate (i + 1 - stages.length) ([] : List String)).length := by
      rw [List.length_append, List.length_replicate]
      omega
    simp only [At, pushStage, List.getElem?_modify_eq, List.getElem?_eq_getElem hlt, Option.map_eq_map, Option.map_some,
      Option.some.injEq, exists_eq_left', List.mem_append, List.mem_singleton, true_and]
    refine or_congr ?_ Iff.rfl
    simp only [← hfilled, List.getElem?_eq_getElem hlt, Option.some.injEq, exists_eq_left']
  · simp only [At, pushStage, List.getElem?_modify_ne _ _ hne.symm, hfilled, hne, false_and, or_false]

theorem findIdx_at (honce : ∀ j, At stages id j → j = i) (hat : At stages id i) :
    stages.findIdx? (·.contains id) = some i := by
  obtain ⟨stage, hstage, hid⟩ := hat
  cases hfound : stages.findIdx? (·.contains id) with
  | none =>
    rw [List.findIdx?_eq_none_iff] at hfound
    have hnot := hfound stage (List.mem_of_getElem? hstage)
    exact absurd hid (by simpa using hnot)
  | some j =>
    obtain ⟨hlt, hcontains, -⟩ := List.findIdx?_eq_some_iff_getElem.1 hfound
    rw [honce j ⟨stages[j], List.getElem?_eq_getElem hlt, by simpa using hcontains⟩]

theorem le_stageAfter : index ≤ stageAfter approved stages current index previous := by
  unfold stageAfter
  split_ifs with hconflict
  · cases stages.findIdx? (·.contains previous.callId) with
    | none => exact le_rfl
    | some stage => exact Nat.le_max_left ..
  · exact le_rfl

theorem le_foldl_stageAfter :
    index ≤ earlier.foldl (stageAfter approved stages current) index := by
  induction earlier generalizing index with
  | nil => exact le_rfl
  | cons item earlier ih => exact le_stageAfter.trans ih

theorem lt_stageIndex (hprevious : previous ∈ earlier) (hexec : previous.executable approved = true)
    (hconflict : claimsConflict previous.claim current.claim = true)
    (hfound : stages.findIdx? (·.contains previous.callId) = some i) :
    i < stageIndex approved stages earlier current := by
  obtain ⟨before, after, rfl⟩ := List.append_of_mem hprevious
  rw [stageIndex, List.foldl_append, List.foldl_cons]
  refine lt_of_lt_of_le ?_ le_foldl_stageAfter
  rw [stageAfter, hexec, hconflict, Bool.and_self, if_pos rfl, hfound]
  exact Nat.lt_of_lt_of_le (Nat.lt_succ_self i) (Nat.le_max_right ..)

theorem Apart.executable (h : Apart approved earlier stages) (hprevious : previous ∈ earlier)
    (hat : At stages previous.callId i) : previous.executable approved = true := by
  obtain ⟨item, hitem, hexec, hid⟩ := h.known _ i hat
  exact List.inj_on_of_nodup_map h.ids hitem hprevious hid ▸ hexec

theorem Apart.next (h : Apart approved earlier stages)
    (hids : ((earlier ++ [current]).map BatchCallDecision.callId).Nodup) :
    Apart approved (earlier ++ [current])
      (if current.executable approved then
        pushStage stages (stageIndex approved stages earlier current) current.callId
      else stages) := by
  have hfresh : ∀ item ∈ earlier, item.callId ≠ current.callId := by
    intro item hitem heq
    rw [List.map_append, List.nodup_append] at hids
    exact hids.2.2 _ (List.mem_map_of_mem hitem) _ (List.mem_singleton_self _) heq
  have hnot : ∀ i, ¬At stages current.callId i := by
    intro i hat
    obtain ⟨item, hitem, -, hid⟩ := h.known _ i hat
    exact hfresh item hitem hid
  have hgrown : ∀ {id}, (∃ item ∈ earlier, item.executable approved = true ∧ item.callId = id) →
      ∃ item ∈ earlier ++ [current], item.executable approved = true ∧ item.callId = id := by
    rintro id ⟨item, hitem, hitem'⟩
    exact ⟨item, List.mem_append_left _ hitem, hitem'⟩
  by_cases hexec : current.executable approved = true
  · rw [if_pos hexec]
    have hlater : ∀ item ∈ earlier, claimsConflict item.claim current.claim = true → ∀ i,
        At stages item.callId i → i ≠ stageIndex approved stages earlier current := by
      intro item hitem hconflict i hat
      exact (lt_stageIndex hitem (h.executable hitem hat) hconflict
        (findIdx_at (fun j hj => h.once _ j i hj hat) hat)).ne
    refine ⟨hids, fun id i hat => ?_, fun id i j hi hj => ?_, fun left hleft right hright hne hconflict i hl hr => ?_⟩
    · rcases at_pushStage.1 hat with hat | ⟨-, rfl⟩
      · exact hgrown (h.known id i hat)
      · exact ⟨current, List.mem_append_right _ (List.mem_singleton_self _), hexec, rfl⟩
    · rcases at_pushStage.1 hi with hi | ⟨rfl, rfl⟩
      · rcases at_pushStage.1 hj with hj | ⟨-, rfl⟩
        · exact h.once id i j hi hj
        · exact absurd hi (hnot i)
      · rcases at_pushStage.1 hj with hj | ⟨rfl, -⟩
        · exact absurd hj (hnot j)
        · rfl
    · rw [List.mem_append, List.mem_singleton] at hleft hright
      rcases hleft with hleft | rfl <;> rcases hright with hright | rfl
      · -- Both are earlier calls, and the push put neither of them anywhere.
        have hl' := (at_pushStage.1 hl).resolve_right fun hnew => hfresh left hleft hnew.2
        have hr' := (at_pushStage.1 hr).resolve_right fun hnew => hfresh right hright hnew.2
        exact h.apart left hleft right hright hne hconflict i hl' hr'
      · have hl' := (at_pushStage.1 hl).resolve_right fun hnew => hne hnew.2
        have hr' := (at_pushStage.1 hr).resolve_left (hnot i)
        exact hlater left hleft hconflict i hl' hr'.1
      · have hl' := (at_pushStage.1 hl).resolve_left (hnot i)
        have hr' := (at_pushStage.1 hr).resolve_right fun hnew => hne hnew.2.symm
        exact hlater right hright (claimsConflict_comm .. ▸ hconflict) i hr' hl'.1
      · exact hne rfl
  · rw [if_neg hexec]
    refine ⟨hids, fun id i hat => hgrown (h.known id i hat), h.once, fun left hleft right hright hne hconflict i hl hr => ?_⟩
    rw [List.mem_append, List.mem_singleton] at hleft hright
    rcases hleft with hleft | rfl
    · rcases hright with hright | rfl
      · exact h.apart left hleft right hright hne hconflict i hl hr
      · exact hnot i hr
    · exact hnot i hl

theorem apart_stagesFrom {rest : List BatchCallDecision} (h : Apart approved earlier stages)
    (hids : ((earlier ++ rest).map BatchCallDecision.callId).Nodup) :
    Apart approved (earlier ++ rest) (stagesFrom approved earlier stages rest) := by
  induction rest generalizing earlier stages with
  | nil => rwa [List.append_nil]
  | cons current rest ih =>
    have hsplit : earlier ++ current :: rest = (earlier ++ [current]) ++ rest := by simp
    rw [hsplit] at hids ⊢
    refine ih (h.next ?_) hids
    rw [List.map_append] at hids
    exact (List.nodup_append.1 hids).1

theorem stages_apart (hids : (decisions.map BatchCallDecision.callId).Nodup) (hleft : left ∈ decisions)
    (hright : right ∈ decisions) (hne : left.callId ≠ right.callId)
    (hconflict : claimsConflict left.claim right.claim = true) {stage : List String}
    (hstage : stage ∈ executionStages decisions approved) : ¬(left.callId ∈ stage ∧ right.callId ∈ stage) := by
  rintro ⟨hl, hr⟩
  have hstart : Apart approved [] [] := by
    refine ⟨List.nodup_nil, ?_, ?_, fun _ hmem => absurd hmem List.not_mem_nil⟩
    · rintro id i ⟨stage, hstage, -⟩
      exact nomatch hstage
    · rintro id i j ⟨stage, hstage, -⟩
      exact nomatch hstage
  obtain ⟨i, hi⟩ := List.getElem?_of_mem hstage
  exact (apart_stagesFrom hstart hids).apart left hleft right hright hne hconflict i ⟨stage, hi, hl⟩ ⟨stage, hi, hr⟩

section Plans

variable {sha256 : Value → String} {engine : PolicyEngine} {context : PolicyContext} {calls : List PreparedCall}

theorem resolveCalls_nodup {identities : List String}
    (h : engine.resolveCalls sha256 context identities calls = .ok decisions) :
    (decisions.map BatchCallDecision.callId).Nodup ∧ ∀ id ∈ decisions.map BatchCallDecision.callId, id ∉ identities := by
  induction calls generalizing identities decisions with
  | nil =>
    obtain rfl := Except.ok.inj h
    exact ⟨List.nodup_nil, fun _ hid => absurd hid List.not_mem_nil⟩
  | cons call calls ih =>
    simp only [PolicyEngine.resolveCalls, bind_eq_ok, reject_eq_ok, pure_eq_ok] at h
    obtain ⟨_, -, _, hnew, rest, hrest, rfl⟩ := h
    obtain ⟨hnodup, hfree⟩ := ih hrest
    refine ⟨List.nodup_cons.2 ⟨fun hmem => hfree _ hmem (List.mem_cons_self ..), hnodup⟩, ?_⟩
    rw [List.map_cons, List.forall_mem_cons]
    exact ⟨show call.call.id ∉ identities by simpa using hnew, fun id hid hold => hfree id hid (List.mem_cons_of_mem _ hold)⟩

/-- **A plan never lets two prepared calls in conflict run in parallel**, whatever
of it is approved. -/
theorem plan_apart {plan : BatchExecutionPlan} {left right : PreparedCall}
    (hplan : engine.resolvePreparedBatch sha256 context calls = .ok plan) (hleft : left ∈ calls) (hright : right ∈ calls)
    (hne : left ≠ right) (hconflict : claimsConflict left.claim right.claim = true) (approved : List String)
    {stage : List String} (hstage : stage ∈ plan.stagesWithApprovals approved) :
    ¬(left.call.id ∈ stage ∧ right.call.id ∈ stage) := by
  have hdecisions := (resolvePreparedBatch_eq_ok hplan).1
  simp only [PolicyEngine.resolvePreparedBatch, bind_eq_ok, pure_eq_ok] at hplan
  obtain ⟨decisions, hresolve, rfl⟩ := hplan
  obtain ⟨hnodup, -⟩ := resolveCalls_nodup hresolve
  dsimp only at hdecisions
  have hids : (calls.map fun call => call.call.id).Nodup := by
    rw [hdecisions, List.map_map] at hnodup
    exact hnodup
  have hl : engine.planned sha256 context left ∈ decisions := hdecisions ▸ List.mem_map_of_mem hleft
  have hr : engine.planned sha256 context right ∈ decisions := hdecisions ▸ List.mem_map_of_mem hright
  exact stages_apart hnodup hl hr (fun heq => hne (List.inj_on_of_nodup_map hids hleft hright heq)) hconflict hstage

end Plans

end Policy
end Kolyan
