/-
# Selection, projection and admission agree

The plans of `selectionCandidates` keep all groups, then drop more and more of the
optional ones (`candidateRanges_eq`).  What a plan keeps is cut out of the history by
ranges in order, so `projectContext` takes it (`projectRanges_eq`), its messages pass
the check group by group, and its bytes are no more than those of the source.  A
request that `projectContext` answers with keeps the current input at its end and is
otherwise a sublist of the history, which is what the server looks for
(`validateSelection_of_project`).
-/

import Kolyan.Requests.Groups

namespace Kolyan
namespace Requests

open Checks Ranges

section Ranges

variable {source : ModelRequest} {ranges : List RetainedMessageRange} {state state' : Projecting}

theorem getElem?_fill (retained : List Bool) (range : RetainedMessageRange) (i : ℕ) :
    (fill retained range)[i]? = retained[i]?.map (· || decide (range.Contains i)) := by
  simp [fill, List.getElem?_mapIdx]

theorem length_fill (retained : List Bool) (range : RetainedMessageRange) :
    (fill retained range).length = retained.length := by simp [fill]

theorem projectRanges_eq {n : ℕ} (hlength : state.retained.length = n) (h : Ordered state.stop n ranges) :
    ∃ state', projectRanges source state ranges = .ok state' ∧
      state'.messages = state.messages ++ slices ranges source.messages ∧
      ∀ i : ℕ, state'.retained[i]? = state.retained[i]?.map (· || decide (Kept ranges i)) := by
  induction ranges generalizing state with
  | nil => exact ⟨state, rfl, by simp, fun i => by simp⟩
  | cons range ranges ih =>
    obtain ⟨hstart, hlt, hrest⟩ := h
    have hstop := hrest.le
    rw [projectRanges, reject_of_not (by omega), ok_bind]
    obtain ⟨state', hstate', hmessages, hretained⟩ := @ih ⟨_, fill state.retained range, _, range.stop⟩
      ((length_fill _ range).trans hlength) hrest
    refine ⟨state', hstate', ?_, fun i => ?_⟩
    · rw [hmessages, slices_cons, List.append_assoc]
    · rw [hretained, getElem?_fill, Option.map_map]
      congr 1
      funext kept
      simp [Bool.or_assoc]

theorem ordered_of_projectRanges {n : ℕ} (hlength : state.retained.length = n) (hstop : state.stop ≤ n)
    (h : projectRanges source state ranges = .ok state') : Ordered state.stop n ranges := by
  induction ranges generalizing state with
  | nil => exact hstop
  | cons range ranges ih =>
    simp only [projectRanges, bind_eq_ok, reject_eq_ok, not_or, not_lt, not_le] at h
    obtain ⟨_, ⟨hstart, hlt, hle⟩, hrest⟩ := h
    exact ⟨hstart, hlt, ih ((length_fill _ range).trans hlength) (hlength ▸ hle) hrest⟩

end Ranges

section Anchors

variable {source : ModelRequest} {first current : ℕ}

theorem getElem?_of_mem_anchors {i : ℕ} (h : i ∈ anchors source) :
    ∃ message, source.messages[i]? = some message ∧ isAnchor message = true := by
  obtain ⟨⟨message, j⟩, hentry, hanchor⟩ := List.mem_filterMap.1 h
  split_ifs at hanchor with hinput
  obtain rfl := Option.some.inj hanchor
  exact ⟨message, List.mem_zipIdx_iff_getElem?.1 hentry, hinput⟩

theorem anchor_lt {i : ℕ} (h : i ∈ anchors source) : i < source.messages.length := by
  obtain ⟨message, hmessage, -⟩ := getElem?_of_mem_anchors h
  exact (List.getElem?_eq_some_iff.1 hmessage).1

end Anchors

section Bytes

/-- A request with other messages. -/
abbrev ModelRequest.withMessages (source : ModelRequest) (messages : List Message) : ModelRequest :=
  { source with messages }

variable {source : ModelRequest} {messages : List Message}

theorem encodedItems_le_of_sublist {xs ys : List Value} (h : xs.Sublist ys) :
    Value.encodedItems xs ≤ Value.encodedItems ys := by
  induction h with
  | slnil => exact le_refl _
  | cons y _ ih => exact ih.trans (Nat.le_add_left _ _)
  | cons_cons y _ ih => exact Nat.add_le_add_left ih _

theorem encodedLen_le_of_sublist (h : messages.Sublist source.messages) :
    (source.withMessages messages).toValue.encodedLen ≤ source.toValue.encodedLen := by
  have hitems := encodedItems_le_of_sublist (h.map messageValue)
  have hlength := h.length_le
  simp only [ModelRequest.toValue, Value.encodedLen, Value.encodedFields, Value.list, Value.commas, List.length_map,
    List.length_cons, List.length_nil]
  omega

theorem blockCount_le_of_sublist (h : messages.Sublist source.messages) :
    blockCount messages ≤ blockCount source.messages :=
  (h.map _).sum_le_sum fun _ _ => Nat.zero_le _

end Bytes

section Prepare

variable {digests : Digests} {source : ModelRequest} {descriptor : ModelDescriptor} {bounds target : ContextPolicy}
  {counter : ContextTokenCounter} {limit : UInt32} {messages : List Message}

/-- The bounds of the target are at least those of the source. -/
structure Roomier (target bounds : ContextPolicy) : Prop where
  bytes : bounds.maxSerializedBytes ≤ target.maxSerializedBytes
  messages : bounds.maxMessages ≤ target.maxMessages
  blocks : bounds.maxContentBlocks ≤ target.maxContentBlocks

/-- The count of tokens fits the limit, or is not asked to. -/
def Fits (policy : ContextPolicy) (limit : UInt32) : Except String TokenMeasurement → Prop
  | .error _ => False
  | .ok (.trusted inputTokens) => inputTokens.toNat + policy.outputReserveTokens.toNat ≤ limit.toNat
  | .ok (.unknown _ _) => policy.mode = .inspect

theorem admitTokens_of_fits {measurement : Except String TokenMeasurement} (h : Fits target limit measurement)
    (provenance : ContextProvenance) : ∃ status, admitTokens target limit provenance measurement = .ok status := by
  cases measurement with
  | error reason => exact h.elim
  | ok measured =>
    cases measured with
    | trusted inputTokens =>
      have hfits : inputTokens.toNat + target.outputReserveTokens.toNat ≤ limit.toNat := h
      have hlimit := limit.toNat_lt_size
      have hsize : UInt32.size ≤ UInt64.size := by decide
      refine ⟨.verified inputTokens, ?_⟩
      rw [admitTokens, reject_of_not (by omega), ok_bind]
      rfl
    | unknown reason estimated =>
      have hmode : target.mode = .inspect := h
      refine ⟨.unverified reason estimated, ?_⟩
      rw [admitTokens, reject_of_not (by simp [hmode]), ok_bind]
      rfl

theorem contextLimit_messages : contextLimit (source.withMessages messages) descriptor target counter =
    contextLimit source descriptor target counter := rfl

/-- **A selection of a history is prepared** as it is, when its messages pass the
check of a target that has the room. -/
theorem prepareContext_of_fits (digests : Digests) (hlimit : contextLimit source descriptor target counter = .ok limit)
    (hexplicit : source.maxOutputTokens.isSome = true)
    (hbytes : source.toValue.encodedLen ≤ target.maxSerializedBytes) (hsub : messages.Sublist source.messages)
    (hchecked : checkMessages (source.withMessages messages) target = .ok ())
    (hfits : Fits target limit
      (counter.count (source.withMessages messages) (source.withMessages messages).toValue)) :
    ∃ prepared, prepareContext digests (source.withMessages messages) descriptor target counter = .ok prepared ∧
      prepared.change = .unchanged ∧ prepared.request = source.withMessages messages := by
  obtain ⟨tokens, htokens⟩ := Option.isSome_iff_exists.1 hexplicit
  have hserialize : serialize (source.withMessages messages) target.maxSerializedBytes =
      .ok (source.withMessages messages).toValue := by
    rw [serialize, reject_of_not (not_lt.2 ((encodedLen_le_of_sublist hsub).trans hbytes)), ok_bind]
    rfl
  choose status hstatus using admitTokens_of_fits hfits
  unfold prepareContext
  simp only [contextLimit_messages, hlimit, ok_bind, hserialize, hchecked, htokens, hstatus]
  exact ⟨_, rfl, rfl, rfl⟩

end Prepare

section Candidates

variable {groups : List RetainedMessageRange} {optional : List ℕ} {count : ℕ}

/-- How many of the optional groups a candidate drops. -/
def upTo (optional : List ℕ) (count candidate : ℕ) : ℕ := divCeil (candidate * optional.length) count

/-- The state of the loop after a candidate. -/
def reducedAt (groups : List RetainedMessageRange) (optional : List ℕ) (count candidate : ℕ) : Reducing where
  retained := (optional.take (upTo optional count candidate)).foldl (fun retained index => retained.set index false)
    (List.replicate groups.length true)
  removed := upTo optional count candidate

theorem upTo_zero : upTo optional count 0 = 0 := by
  unfold upTo divCeil
  rw [Nat.zero_mul, Nat.zero_add]
  rcases Nat.eq_zero_or_pos count with rfl | hpos
  · rfl
  · exact Nat.div_eq_of_lt (by omega)

/-- **Each candidate drops more**, as long as there is a group for each. -/
theorem upTo_lt (hcount : count ≤ optional.length) (hpos : 0 < count) (candidate : ℕ) :
    upTo optional count candidate < upTo optional count (candidate + 1) := by
  unfold upTo divCeil
  rw [Nat.lt_iff_add_one_le, Nat.le_div_iff_mul_le hpos]
  have hfloor := Nat.div_mul_le_self (candidate * optional.length + count - 1) count
  rw [Nat.add_mul, Nat.add_mul, Nat.one_mul, Nat.one_mul]
  omega

theorem upTo_le (hpos : 0 < count) {candidate : ℕ} (hle : candidate ≤ count) :
    upTo optional count candidate ≤ optional.length := by
  unfold upTo divCeil
  have hmul := Nat.mul_le_mul_right optional.length hle
  refine Nat.lt_succ_iff.1 ((Nat.div_lt_iff_lt_mul hpos).2 ?_)
  rw [Nat.succ_mul, Nat.mul_comm optional.length count]
  omega

theorem upTo_last (hpos : 0 < count) : upTo optional count count = optional.length := by
  unfold upTo divCeil
  rw [Nat.add_sub_assoc hpos, Nat.mul_add_div hpos, Nat.div_eq_of_lt (by omega), Nat.add_zero]

theorem next_reducedAt (hcount : count ≤ optional.length) (hpos : 0 < count) (candidate : ℕ) :
    (reducedAt groups optional count candidate).next optional count (candidate + 1) =
      reducedAt groups optional count (candidate + 1) := by
  have hlt := upTo_lt hcount hpos candidate
  have hsplit : optional.take (upTo optional count (candidate + 1)) =
      optional.take (upTo optional count candidate) ++
        (optional.take (upTo optional count (candidate + 1))).drop (upTo optional count candidate) := by
    conv_lhs => rw [← List.take_append_drop (upTo optional count candidate) (optional.take (upTo optional count (candidate + 1)))]
    rw [List.take_take, Nat.min_eq_left hlt.le]
  rw [Reducing.next, if_pos (Nat.succ_pos candidate), reducedAt, reducedAt, hsplit, List.foldl_append]
  rfl

/-- **The plans drop the first of the optional groups**, more with each candidate. -/
theorem candidateRanges_eq (hcount : count ≤ optional.length) :
    candidateRanges groups optional count ⟨List.replicate groups.length true, 0⟩ (List.range (count + 1)) =
      (List.range (count + 1)).map fun candidate =>
        retainedRanges groups (reducedAt groups optional count candidate).retained := by
  have hstart : reducedAt groups optional count 0 = ⟨List.replicate groups.length true, 0⟩ := by
    rw [reducedAt, upTo_zero]
    rfl
  have hrest : ∀ todo candidate, candidate + todo ≤ count →
      candidateRanges groups optional count (reducedAt groups optional count candidate)
          (List.range' (candidate + 1) todo) =
        (List.range' (candidate + 1) todo).map fun candidate =>
          retainedRanges groups (reducedAt groups optional count candidate).retained := by
    intro todo
    induction todo with
    | zero => exact fun _ _ => rfl
    | succ todo ih =>
      intro candidate hle
      rw [List.range'_succ, candidateRanges, next_reducedAt hcount (by omega), ih (candidate + 1) (by omega)]
      rfl
  rw [List.range_eq_range', List.range'_succ, candidateRanges, ← hstart]
  have hfirst : (reducedAt groups optional count 0).next optional count 0 = reducedAt groups optional count 0 :=
    if_neg (Nat.lt_irrefl 0)
  rw [hfirst, hrest count 0 (by omega)]
  rfl

theorem getElem?_retained {candidate j : ℕ} (hj : j < groups.length) :
    (reducedAt groups optional count candidate).retained[j]? =
      some (decide (j ∉ optional.take (upTo optional count candidate))) := by
  have hfold : ∀ (dropped : List ℕ) (retained : List Bool), j < retained.length →
      (dropped.foldl (fun retained index => retained.set index false) retained)[j]? =
        some (decide (j ∉ dropped) && retained.getD j false) := by
    intro dropped
    induction dropped with
    | nil => exact fun retained hlt => by simp [hlt]
    | cons index dropped ih =>
      intro retained hlt
      rw [List.foldl_cons, ih _ (by rwa [List.length_set])]
      by_cases hindex : index = j
      · simp [hindex, hlt]
      · simp [hindex, Ne.symm hindex]
  rw [reducedAt, hfold _ _ (by rwa [List.length_replicate])]
  simp [hj]

theorem length_retained {candidate : ℕ} : (reducedAt groups optional count candidate).retained.length = groups.length := by
  have hfold : ∀ (dropped : List ℕ) (retained : List Bool),
      (dropped.foldl (fun retained index => retained.set index false) retained).length = retained.length := by
    intro dropped
    induction dropped with
    | nil => exact fun _ => rfl
    | cons index dropped ih => exact fun retained => (ih _).trans List.length_set
  rw [reducedAt, hfold, List.length_replicate]

/-- The groups that a candidate keeps. -/
def keptGroups (groups : List RetainedMessageRange) (optional : List ℕ) (count candidate : ℕ) :
    List RetainedMessageRange :=
  (groups.zip (reducedAt groups optional count candidate).retained).filterMap fun entry =>
    if entry.2 then some entry.1 else none

theorem keptGroups_sublist (candidate : ℕ) : (keptGroups groups optional count candidate).Sublist groups := by
  have hfilter : keptGroups groups optional count candidate =
      ((groups.zip (reducedAt groups optional count candidate).retained).filter (·.2)).map (·.1) := by
    rw [keptGroups, ← List.filterMap_eq_map, ← List.filterMap_eq_filter, List.filterMap_filterMap]
    congr 1
    funext ⟨group, kept⟩
    cases kept <;> rfl
  rw [hfilter]
  have hzip := (List.filter_sublist (p := fun entry : RetainedMessageRange × Bool => entry.2)
    (l := groups.zip (reducedAt groups optional count candidate).retained)).map Prod.fst
  rwa [List.map_fst_zip length_retained.ge] at hzip

theorem mem_keptGroups {candidate : ℕ} {group : RetainedMessageRange} :
    group ∈ keptGroups groups optional count candidate ↔
      ∃ j : ℕ, groups[j]? = some group ∧ j ∉ optional.take (upTo optional count candidate) := by
  rw [keptGroups, List.mem_filterMap]
  constructor
  · rintro ⟨⟨found, kept⟩, hmem, hfound⟩
    obtain ⟨j, hj⟩ := List.mem_iff_getElem?.1 hmem
    obtain ⟨hgroup, hkept⟩ := List.getElem?_zip_eq_some.1 hj
    rw [getElem?_retained (List.getElem?_eq_some_iff.1 hgroup).1] at hkept
    split_ifs at hfound with hkeeps
    obtain rfl := Option.some.inj hfound
    refine ⟨j, hgroup, of_decide_eq_true ((Option.some.inj hkept).trans hkeeps)⟩
  · rintro ⟨j, hgroup, hkept⟩
    have hretained := @getElem?_retained groups optional count candidate j (List.getElem?_eq_some_iff.1 hgroup).1
    refine ⟨(group, true), List.mem_iff_getElem?.2 ⟨j, List.getElem?_zip_eq_some.2 ⟨hgroup, ?_⟩⟩, rfl⟩
    rw [hretained, decide_eq_true hkept]

theorem mem_optionalGroups {first current j : ℕ} :
    j ∈ optionalGroups first current groups ↔
      ∃ group : RetainedMessageRange, groups[j]? = some group ∧ isOptional first current group = true := by
  rw [optionalGroups, List.mem_filterMap]
  constructor
  · rintro ⟨⟨group, k⟩, hmem, hfound⟩
    split_ifs at hfound with hoptional
    obtain rfl := Option.some.inj hfound
    exact ⟨group, List.mem_zipIdx_iff_getElem?.1 hmem, hoptional⟩
  · rintro ⟨group, hgroup, hoptional⟩
    exact ⟨(group, j), List.mem_zipIdx_iff_getElem?.2 hgroup, if_pos hoptional⟩

theorem nodup_optionalGroups (first current : ℕ) : (optionalGroups first current groups).Nodup := by
  have hfilter : optionalGroups first current groups =
      (groups.zipIdx.filter fun entry => isOptional first current entry.1).map (·.2) := by
    rw [optionalGroups, ← List.filterMap_eq_map, ← List.filterMap_eq_filter, List.filterMap_filterMap]
    congr 1
    funext ⟨group, j⟩
    cases h : isOptional first current group <;> simp [h, Option.guard]
  have hsub := (List.filter_sublist (p := fun entry : RetainedMessageRange × ℕ => isOptional first current entry.1)
    (l := groups.zipIdx)).map Prod.snd
  rw [hfilter]
  refine hsub.nodup ?_
  rw [List.zipIdx_map_snd]
  exact List.nodup_range'

theorem mem_keptGroups_of_not_optional {first current candidate : ℕ} {group : RetainedMessageRange}
    (hmem : group ∈ groups) (hprotected : isOptional first current group = false) :
    group ∈ keptGroups groups (optionalGroups first current groups) count candidate := by
  obtain ⟨j, hj⟩ := List.mem_iff_getElem?.1 hmem
  refine mem_keptGroups.2 ⟨j, hj, fun hdropped => ?_⟩
  obtain ⟨found, hfound, hoptional⟩ := mem_optionalGroups.1 (List.mem_of_mem_take hdropped)
  obtain rfl := Option.some.inj (hj.symm.trans hfound)
  rw [hprotected] at hoptional
  exact nomatch hoptional

end Candidates

section Plans

variable {n first current count candidate most : ℕ} {groups : List RetainedMessageRange}

theorem kept_keptGroups {optional : List ℕ} {i : ℕ} :
    Kept (keptGroups groups optional count candidate) i ↔
      ∃ (j : ℕ) (group : RetainedMessageRange), groups[j]? = some group ∧ group.Contains i ∧
        j ∉ optional.take (upTo optional count candidate) := by
  simp only [Kept, mem_keptGroups]
  constructor
  · rintro ⟨group, ⟨j, hj, hkept⟩, hi⟩
    exact ⟨j, group, hj, hi, hkept⟩
  · rintro ⟨j, group, hj, hi, hkept⟩
    exact ⟨group, ⟨j, hj, hkept⟩, hi⟩

theorem kept_protected (htiles : Tiles 0 n groups) {i : ℕ} (hi : i < n) (hprotected : i = first ∨ current ≤ i) :
    Kept (keptGroups groups (optionalGroups first current groups) count candidate) i := by
  obtain ⟨group, hmem, hcontains⟩ := htiles.kept.2 ⟨Nat.zero_le i, hi⟩
  refine ⟨group, mem_keptGroups_of_not_optional hmem ?_, hcontains⟩
  obtain ⟨hstart, hstop⟩ : group.start ≤ i ∧ i < group.stop := hcontains
  rcases hprotected with rfl | hlate
  · simp [isOptional, hstart, hstop]
  · have hover : ¬group.stop ≤ current := by omega
    simp [isOptional, hover]

theorem kept_next_ssubset (htiles : Tiles 0 n groups) {optional : List ℕ} (hnodup : optional.Nodup)
    (hindices : ∀ j ∈ optional, j < groups.length) (hcount : count ≤ optional.length) (hlt : candidate < count) :
    {i | Kept (keptGroups groups optional count (candidate + 1)) i} ⊂
      {i | Kept (keptGroups groups optional count candidate) i} := by
  have hpos : 0 < count := by omega
  have hmore := upTo_lt hcount hpos candidate
  have hle : upTo optional count (candidate + 1) ≤ optional.length := upTo_le hpos hlt
  refine ⟨fun i hi => ?_, fun hall => ?_⟩
  · obtain ⟨j, group, hj, hcontains, hkept⟩ := kept_keptGroups.1 hi
    exact kept_keptGroups.2 ⟨j, group, hj, hcontains, fun hdropped => hkept ((List.take_subset_take_left _ hmore.le) hdropped)⟩
  · -- the first group that only the next candidate drops
    obtain ⟨j, hj⟩ : ∃ j, optional[upTo optional count candidate]? = some j :=
      ⟨_, List.getElem?_eq_getElem (hmore.trans_le hle)⟩
    have hjlt := hindices j (List.mem_of_getElem? hj)
    have hdropped : j ∈ optional.take (upTo optional count (candidate + 1)) :=
      List.mem_iff_getElem?.2 ⟨_, (List.getElem?_take_of_lt hmore).trans hj⟩
    have hkept : j ∉ optional.take (upTo optional count candidate) := fun hmem =>
      List.disjoint_take_drop hnodup (le_refl _) hmem
        (List.mem_iff_getElem?.2 ⟨0, by rw [List.getElem?_drop, Nat.add_zero, hj]⟩)
    have hgroup : groups[j]? = some groups[j] := List.getElem?_eq_getElem hjlt
    have hfirst : groups[j].Contains groups[j].start := ⟨le_refl _, htiles.ordered.lt (List.getElem_mem hjlt)⟩
    obtain ⟨j', group, hj', hcontains, hstays⟩ :=
      kept_keptGroups.1 (hall (kept_keptGroups.2 ⟨j, groups[j], hgroup, hfirst, hkept⟩))
    obtain rfl := htiles.ordered.index_eq hgroup hj' hfirst hcontains
    exact hstays hdropped

/-- **The last candidate keeps nothing that is optional**, and all the rest. -/
theorem kept_last (htiles : Tiles 0 n groups)
    (hcount : count = min (optionalGroups first current groups).length most) (hmost : 0 < most) {i : ℕ} :
    Kept (keptGroups groups (optionalGroups first current groups) count count) i ↔
      i < n ∧ ∀ group ∈ groups, group.Contains i → isOptional first current group = false := by
  have hall : (optionalGroups first current groups).take (upTo (optionalGroups first current groups) count count) =
      optionalGroups first current groups := by
    rcases Nat.eq_zero_or_pos count with hzero | hpos
    · rw [List.length_eq_zero_iff.1 (show (optionalGroups first current groups).length = 0 by omega), List.take_nil]
    · rw [upTo_last hpos, List.take_length]
  rw [kept_keptGroups, hall]
  constructor
  · rintro ⟨j, group, hj, hcontains, hkept⟩
    refine ⟨(htiles.kept.1 ⟨group, List.mem_of_getElem? hj, hcontains⟩).2, fun group' hmem hcontains' => ?_⟩
    obtain ⟨j', hj'⟩ := List.mem_iff_getElem?.1 hmem
    obtain rfl := htiles.ordered.index_eq hj hj' hcontains hcontains'
    exact Bool.eq_false_iff.2 fun hoptional => hkept (mem_optionalGroups.2 ⟨group', hj', hoptional⟩)
  · rintro ⟨hi, hprotected⟩
    obtain ⟨group, hmem, hcontains⟩ := htiles.kept.2 ⟨Nat.zero_le i, hi⟩
    obtain ⟨j, hj⟩ := List.mem_iff_getElem?.1 hmem
    refine ⟨j, group, hj, hcontains, fun hdropped => ?_⟩
    obtain ⟨found, hfound, hoptional⟩ := mem_optionalGroups.1 hdropped
    obtain rfl := Option.some.inj (hj.symm.trans hfound)
    rw [hprotected group hmem hcontains] at hoptional
    exact nomatch hoptional

theorem kept_first (htiles : Tiles 0 n groups) {optional : List ℕ} {i : ℕ} :
    Kept (keptGroups groups optional count 0) i ↔ i < n := by
  rw [kept_keptGroups, upTo_zero, List.take_zero]
  constructor
  · rintro ⟨j, group, hj, hcontains, -⟩
    exact (htiles.kept.1 ⟨group, List.mem_of_getElem? hj, hcontains⟩).2
  · intro hi
    obtain ⟨group, hmem, hcontains⟩ := htiles.kept.2 ⟨Nat.zero_le i, hi⟩
    obtain ⟨j, hj⟩ := List.mem_iff_getElem?.1 hmem
    exact ⟨j, group, hj, hcontains, List.not_mem_nil⟩

end Plans

section Admission

variable {digests : Digests} {source : ModelRequest} {descriptor : ModelDescriptor} {bounds target : ContextPolicy}
  {counter : ContextTokenCounter} {limit : UInt32} {plan : ContextProjectionPlan} {state : Projecting}
  {pairs : List (ℕ × ℕ)} {ends : List ℕ} {first current count candidate : ℕ}

/-- The start of the loop over the ranges. -/
def projectStart (source : ModelRequest) : Projecting := ⟨[], List.replicate source.messages.length false, [], 0⟩

theorem projected_state (h : projectRanges source (projectStart source) plan.retainedMessages = .ok state) :
    Ordered 0 source.messages.length plan.retainedMessages ∧
      state.messages = slices plan.retainedMessages source.messages ∧
      ∀ i : ℕ, state.retained[i]? =
        if i < source.messages.length then some (decide (Kept plan.retainedMessages i)) else none := by
  have hordered := ordered_of_projectRanges (List.length_replicate ..) (Nat.zero_le _) h
  obtain ⟨state', hstate', hmessages, hretained⟩ :=
    @projectRanges_eq source plan.retainedMessages (projectStart source) _ (List.length_replicate ..) hordered
  obtain rfl := Except.ok.inj (hstate'.symm.trans h)
  refine ⟨hordered, hmessages, fun i => ?_⟩
  rw [hretained, projectStart, List.getElem?_replicate]
  split_ifs <;> simp

theorem all_retained_iff {retained : List Bool} : ¬(retained.drop current).any (!·) = true ↔
    ∀ (i : ℕ) (kept : Bool), current ≤ i → retained[i]? = some kept → kept = true := by
  simp only [Bool.not_eq_true, List.any_eq_false, Bool.not_eq_eq_eq_not, Bool.not_true, Bool.not_eq_false]
  constructor
  · intro hall i kept hi hkept
    obtain ⟨k, rfl⟩ := Nat.exists_eq_add_of_le hi
    exact hall kept (List.mem_iff_getElem?.2 ⟨k, by rw [List.getElem?_drop, hkept]⟩)
  · intro hall kept hmem
    obtain ⟨k, hk⟩ := List.mem_iff_getElem?.1 hmem
    rw [List.getElem?_drop] at hk
    exact hall _ kept (Nat.le_add_right _ _) hk

theorem content_ne_nil {message : Message} (h : isAnchor message = true) : message.content ≠ [] := by
  rintro hnil
  simp [isAnchor, hnil] at h

theorem breakpointExists_of_content {messages : List Message} {message : Message} (hmem : message ∈ messages)
    (hcontent : message.content ≠ []) {breakpoint : CacheBreakpoint} (h : breakpointExists source breakpoint = true) :
    breakpointExists (source.withMessages messages) breakpoint = true := by
  cases breakpoint with
  | system => exact h
  | tools => exact h
  | messages => exact List.any_eq_true.2 ⟨message, hmem, decide_eq_true hcontent⟩

/-- The messages that a candidate keeps pass the check of a target with the room. -/
theorem checkMessages_of_kept (hchecked : checkMessages source bounds = .ok ())
    (hpaired : Paired bounds.maxContentBlocks source.messages pairs ends) (hroomier : Roomier target bounds)
    {kept : List RetainedMessageRange} (hsub : kept.Sublist (messageGroups ends))
    (hfirst : first ∈ anchors source) (hkept : Kept kept first) :
    checkMessages (source.withMessages (slices kept source.messages)) target = .ok () := by
  have hpart : (slices kept source.messages).Sublist source.messages :=
    ((messageGroups_spec hpaired.reaches).1.ordered.sublist hsub).slices_sublist_self
  obtain ⟨hcount, hblocks⟩ := bounded_of_checkMessages hchecked
  have hroom : 0 + blockCount (slices kept source.messages) ≤ target.maxContentBlocks := by
    rw [Nat.zero_add]
    exact (blockCount_le_of_sublist hpart).trans (hblocks.trans hroomier.blocks)
  have hrun := checkAll_slices hpaired (fun group hmem => hsub.subset hmem) hroom
  simp only [checkMessages, bind_eq_ok, reject_eq_ok] at hchecked ⊢
  obtain ⟨_, -, _, -, _, -, hbreakpoints⟩ := hchecked
  refine ⟨(), not_lt.2 (hpart.length_le.trans (hcount.trans hroomier.messages)), _, hrun, (), by simp, fun hmissing => hbreakpoints ?_⟩
  obtain ⟨message, hmessage, hanchor⟩ := getElem?_of_mem_anchors hfirst
  obtain ⟨hlt, rfl⟩ := List.getElem?_eq_some_iff.1 hmessage
  have hexists : ∀ breakpoint, breakpointExists source breakpoint = true →
      breakpointExists (source.withMessages (slices kept source.messages)) breakpoint = true :=
    fun _ => breakpointExists_of_content (mem_slices_of_kept hkept hlt) (content_ne_nil hanchor)
  cases hcache : source.promptCache with
  | none => simp [hcache] at hmissing
  | some cache =>
    simp only [hcache, Option.any_some, List.any_eq_true, Bool.not_eq_true'] at hmissing ⊢
    obtain ⟨breakpoint, hmem, hmissing⟩ := hmissing
    exact ⟨breakpoint, hmem, Bool.eq_false_iff.2 fun h => Bool.eq_false_iff.1 hmissing (hexists breakpoint h)⟩

theorem sourceBytes_eq_ok {bytes : Value} (h : sourceBytes source bounds = .ok bytes) :
    bounds.check = .ok () ∧ bytes = source.toValue ∧ source.toValue.encodedLen ≤ bounds.maxSerializedBytes ∧
      checkMessages source bounds = .ok () := by
  simp only [sourceBytes, serialize, bind_eq_ok, reject_eq_ok, not_lt, pure_eq_ok] at h
  obtain ⟨_, hpolicy, _, ⟨_, hbytes, rfl⟩, _, hchecked, rfl⟩ := h
  exact ⟨hpolicy, rfl, hbytes, hchecked⟩

theorem kept_pair (hpaired : Paired bounds.maxContentBlocks source.messages pairs ends)
    {kept : List RetainedMessageRange} (hsub : kept.Sublist (messageGroups ends)) {call result : ℕ}
    (hpair : (call, result) ∈ pairs) : Kept kept call ↔ Kept kept result := by
  obtain ⟨htiles, hclosed⟩ := messageGroups_spec hpaired.reaches
  obtain ⟨hle, hlt⟩ := hpaired.ordered call result hpair
  obtain ⟨stop, hstop, hover⟩ := hpaired.covers call result hpair
  have hboth : ∀ group ∈ messageGroups ends, group.Contains call → group.Contains result := by
    intro group hmem hcontains
    have hreach := hclosed group hmem call stop hcontains hstop
    exact ⟨hcontains.1.trans hle, hover.trans_le hreach⟩
  constructor
  · rintro ⟨group, hmem, hcontains⟩
    exact ⟨group, hmem, hboth group (hsub.subset hmem) hcontains⟩
  · rintro ⟨group, hmem, hcontains⟩
    obtain ⟨home, hhome, hcall⟩ := htiles.kept.2 ⟨Nat.zero_le call, hle.trans_lt hlt⟩
    obtain ⟨j, hj⟩ := List.mem_iff_getElem?.1 hhome
    obtain ⟨j', hj'⟩ := List.mem_iff_getElem?.1 (hsub.subset hmem)
    obtain rfl := htiles.ordered.index_eq hj hj' (hboth home hhome hcall) hcontains
    obtain rfl := Option.some.inj (hj.symm.trans hj')
    exact ⟨home, hmem, hcall⟩

/-- **A plan that keeps whole groups**, among them the objective and the current
input, is admitted by a target with the room for it. -/
theorem projectContext_of_groups {bytes : Value} (hbytes : sourceBytes source bounds = .ok bytes)
    (hid : contextIdentity plan.policyId = .ok ()) (hrevision : contextIdentity plan.policyRevision = .ok ())
    (hdigest : plan.expectedSourceDigest = digests.bytesDigest bytes)
    (hpaired : Paired bounds.maxContentBlocks source.messages pairs ends)
    {kept : List RetainedMessageRange} (hsub : kept.Sublist (messageGroups ends))
    (hplan : plan.retainedMessages = merge kept) (hfirst : (anchors source).head? = some first)
    (hkept : ∀ i < source.messages.length, i = first ∨ (anchors source).getLast?.getD first ≤ i → Kept kept i)
    (hroomier : Roomier target bounds) (hlimit : contextLimit source descriptor target counter = .ok limit)
    (hexplicit : source.maxOutputTokens.isSome = true)
    (hfits : Fits target limit (counter.count (source.withMessages (slices plan.retainedMessages source.messages))
      (source.withMessages (slices plan.retainedMessages source.messages)).toValue)) :
    ∃ projected, projectContext digests source descriptor bounds plan target counter = .ok projected := by
  obtain ⟨-, rfl, hlen, hchecked⟩ := sourceBytes_eq_ok hbytes
  have htiles := (messageGroups_spec hpaired.reaches).1
  have hordered := htiles.ordered.sublist hsub
  obtain ⟨hmerged, hsame, hpart⟩ := merge_spec (l := source.messages) hordered
  rw [← hplan] at hmerged hsame hpart
  have hfirstMem : first ∈ anchors source := List.mem_of_head? hfirst
  have hfirstKept := hkept first (anchor_lt hfirstMem) (.inl rfl)
  have hnonempty : plan.retainedMessages ≠ [] := by
    obtain ⟨group, hmem, -⟩ := hfirstKept
    exact hplan ▸ merge_ne_nil (List.ne_nil_of_mem hmem) hordered
  obtain ⟨state, hstate, -⟩ := @projectRanges_eq source plan.retainedMessages (projectStart source) _
    (List.length_replicate ..) hmerged
  obtain ⟨-, hmessages, hretained⟩ := projected_state hstate
  have hflag : ∀ i < source.messages.length, state.retained[i]? = some (decide (Kept kept i)) := by
    intro i hi
    rw [hretained, if_pos hi]
    simp only [hsame]
  have hprotected : ¬(state.retained[first]? ≠ some true ∨
      (state.retained.drop ((anchors source).getLast?.getD first)).any (!·) = true) := by
    rw [not_or, not_not, all_retained_iff]
    refine ⟨by rw [hflag first (anchor_lt hfirstMem), decide_eq_true hfirstKept], fun i flag hi hget => ?_⟩
    by_cases hlt : i < source.messages.length
    · rw [hflag i hlt, decide_eq_true (hkept i hlt (.inr hi))] at hget
      exact (Option.some.inj hget).symm
    · rw [hretained, if_neg hlt] at hget
      exact nomatch hget
  have hpairs : preserveOriginalPairs source state.retained = .ok () := by
    refine visitOriginalPairs_of_forall hpaired fun call result hpair => reject_of_not (not_not.2 ?_)
    obtain ⟨hle, hlt⟩ := hpaired.ordered call result hpair
    rw [hflag call (hle.trans_lt hlt), hflag result hlt]
    exact congrArg some (decide_eq_decide.2 (kept_pair hpaired hsub hpair))
  have hselected := checkMessages_of_kept hchecked hpaired hroomier hsub hfirstMem hfirstKept
  rw [hpart] at hfits
  obtain ⟨prepared, hprepared, hchange, hrequest⟩ := prepareContext_of_fits digests hlimit hexplicit
    (hlen.trans hroomier.bytes) hordered.slices_sublist_self hselected hfits
  rw [← hpart, ← hmessages] at hprepared hrequest
  simp only [projectContext, bind_eq_ok, reject_eq_ok, expect_eq_ok, pure_eq_ok]
  exact ⟨_, (), hid, (), hrevision, _, hbytes, (), not_not.2 hdigest, (), hnonempty, state, hstate, first, hfirst, (),
    hprotected, (), hpairs, prepared, hprepared, (), not_or.2 ⟨not_not.2 hchange, not_not.2 hrequest⟩, rfl⟩

end Admission

section Server

variable {digests : Digests} {source : ModelRequest} {descriptor : ModelDescriptor} {bounds target : ContextPolicy}
  {counter : ContextTokenCounter} {plan : ContextProjectionPlan} {projected : ProjectedContext} {messages history : List Message}

theorem checkSubsequence_of_sublist (h : messages.Sublist history) : checkSubsequence history messages = .ok () := by
  induction messages generalizing history with
  | nil => rfl
  | cons message messages ih =>
    suffices hseek : ∃ rest, seekMessage message history = some rest ∧ messages.Sublist rest by
      obtain ⟨rest, hrest, hsub⟩ := hseek
      rw [checkSubsequence, hrest, expect_some, ok_bind]
      exact ih hsub
    clear ih
    induction history with
    | nil => exact nomatch h
    | cons original history ih =>
      rw [seekMessage]
      split_ifs with hsame
      · subst hsame
        exact ⟨history, rfl, List.cons_sublist_cons.1 h⟩
      · cases h with
        | cons _ h => exact ih h
        | cons_cons _ h => exact absurd rfl hsame

theorem boundedRequest_of_sublist {policy : ContextPolicy} (hpolicy : policy.check = .ok ())
    (hbytes : source.toValue.encodedLen ≤ policy.maxSerializedBytes) (hchecked : checkMessages source policy = .ok ())
    (hsub : messages.Sublist source.messages) : boundedRequest (source.withMessages messages) = .ok () := by
  obtain ⟨hcount, hblocks⟩ := bounded_of_checkMessages hchecked
  simp only [ContextPolicy.check, bind_eq_ok, reject_eq_ok, not_or, not_lt] at hpolicy
  obtain ⟨_, -, _, -, -, hmaxBytes, -, hmaxMessages, -, hmaxBlocks, -⟩ := hpolicy
  have hfewer := hsub.length_le
  have hblocks' : (messages.map (·.content.length)).sum ≤ _ := (blockCount_le_of_sublist hsub).trans hblocks
  have hbytes' := (encodedLen_le_of_sublist hsub).trans hbytes
  have hmessages : (source.withMessages messages).messages = messages := rfl
  rw [boundedRequest, hmessages, reject_of_not (by omega), ok_bind, reject_of_not (by omega), ok_bind, reject_of_not (by omega)]

theorem projectContext_eq_ok (h : projectContext digests source descriptor bounds plan target counter = .ok projected) :
    ∃ state first, sourceBytes source bounds = .ok source.toValue ∧
      projectRanges source (projectStart source) plan.retainedMessages = .ok state ∧
      (anchors source).head? = some first ∧
      ¬(state.retained.drop ((anchors source).getLast?.getD first)).any (!·) = true ∧
      projected.prepared.request = source.withMessages (slices plan.retainedMessages source.messages) := by
  simp only [projectContext, bind_eq_ok, reject_eq_ok, expect_eq_ok, pure_eq_ok, not_or, not_not] at h
  obtain ⟨_, -, _, -, bytes, hbytes, _, -, _, -, state, hstate, first, hfirst, _, ⟨-, htail⟩, _, -, prepared, -, _,
    ⟨-, hrequest⟩, rfl⟩ := h
  obtain ⟨-, rfl, -⟩ := sourceBytes_eq_ok hbytes
  obtain ⟨-, hmessages, -⟩ := projected_state hstate
  exact ⟨state, first, hbytes, hstate, hfirst, htail, by rw [hrequest, hmessages]⟩

/-- **A request that the projection answers with is admitted by the server**, for
every count of current messages that starts at the current input or after it. -/
theorem validateSelection_of_project
    (h : projectContext digests source descriptor bounds plan target counter = .ok projected) {current count : ℕ}
    (hcurrent : (anchors source).getLast? = some current) (hcount : count ≤ source.messages.length - current) :
    validateSelection source projected.prepared.request count = .ok () := by
  obtain ⟨state, first, hbytes, hstate, -, htail, hrequest⟩ := projectContext_eq_ok h
  obtain ⟨hpolicy, -, hlen, hchecked⟩ := sourceBytes_eq_ok hbytes
  obtain ⟨hordered, -, hretained⟩ := projected_state hstate
  rw [hcurrent, Option.getD_some, all_retained_iff] at htail
  have hkept : ∀ i, source.messages.length - count ≤ i → i < source.messages.length → Kept plan.retainedMessages i := by
    intro i hi hlt
    have hflag := hretained i
    rw [if_pos hlt] at hflag
    have hlast := anchor_lt (List.mem_of_getLast? hcurrent)
    exact of_decide_eq_true (htail i _ (by omega) hflag)
  obtain ⟨front, hfront, hsub⟩ := hordered.slices_eq_append (Nat.zero_le _) (Nat.sub_le _ _) hkept
  rw [slice_zero] at hsub
  have hpart : (slices plan.retainedMessages source.messages).Sublist source.messages := hordered.slices_sublist_self
  have hlength : (slices plan.retainedMessages source.messages).length = front.length + count := by
    rw [hfront, List.length_append, List.length_drop]
    omega
  have hbounded := boundedRequest_of_sublist hpolicy hlen hchecked (List.Sublist.refl source.messages)
  have hbounded' := boundedRequest_of_sublist hpolicy hlen hchecked hpart
  rw [hrequest]
  simp only [validateSelection, bind_eq_ok, reject_eq_ok]
  refine ⟨(), hbounded, (), hbounded', (), not_not.2 rfl, (), by omega, (), by omega, (), not_not.2 ?_, ?_⟩
  · rw [hlength, Nat.add_sub_cancel, hfront, List.drop_left]
  · rw [hlength, Nat.add_sub_cancel, hfront, List.take_left]
    exact checkSubsequence_of_sublist hsub

end Server

section Agreement

variable {digests : Digests} {source : ModelRequest} {policy : SelectionPolicy} {plans : List ContextProjectionPlan}

/-- The positions of the source that a plan keeps. -/
def ContextProjectionPlan.kept (plan : ContextProjectionPlan) : Set ℕ := {i | Kept plan.retainedMessages i}

/-- What is left of a request under a plan. -/
def ContextProjectionPlan.select (plan : ContextProjectionPlan) (source : ModelRequest) : ModelRequest :=
  source.withMessages (slices plan.retainedMessages source.messages)

/-- **A plan is accepted** by every target with at least the bounds of the source, an
explicit limit for the output and a count that fits. -/
def Accepts (digests : Digests) (source : ModelRequest) (bounds : ContextPolicy) (plan : ContextProjectionPlan) : Prop :=
  ∀ descriptor target counter limit, Roomier target bounds → source.maxOutputTokens.isSome = true →
    contextLimit source descriptor target counter = .ok limit →
    Fits target limit (counter.count (plan.select source) (plan.select source).toValue) →
    ∃ projected, projectContext digests source descriptor bounds plan target counter = .ok projected

/-- **Plans that reduce a history**: all of it first, less with each, and last only
what no plan may drop. -/
structure Reductions (source : ModelRequest) (policy : SelectionPolicy) (plans : List ContextProjectionPlan) :
    Prop where
  full : ∃ plan, plans.head? = some plan ∧ plan.kept = {i | i < source.messages.length}
  less : List.IsChain (fun plan next => next.kept ⊂ plan.kept) plans
  least : 0 < policy.maxReducedCandidates → ∃ ends first plan, messageEnds source = .ok ends ∧
    (anchors source).head? = some first ∧ plans.getLast? = some plan ∧
    plan.kept = {i | i < source.messages.length ∧ ∀ group ∈ messageGroups ends, group.Contains i →
      isOptional first ((anchors source).getLast?.getD first) group = false}

/-- The groups that the plans may drop. -/
def optionalOf (source : ModelRequest) (ends : List ℕ) (first : ℕ) : List ℕ :=
  optionalGroups first ((anchors source).getLast?.getD first) (messageGroups ends)

/-- The plan of one candidate. -/
def candidatePlan (digests : Digests) (source : ModelRequest) (policy : SelectionPolicy) (ends : List ℕ)
    (first count candidate : ℕ) : ContextProjectionPlan where
  policyId := policy.id
  policyRevision := policy.revision
  expectedSourceDigest := digests.bytesDigest source.toValue
  retainedMessages := merge (keptGroups (messageGroups ends) (optionalOf source ends first) count candidate)

/-- What `selectionCandidates` answers with. -/
structure Candidates (digests : Digests) (source : ModelRequest) (policy : SelectionPolicy)
    (plans : List ContextProjectionPlan) (pairs : List (ℕ × ℕ)) (ends : List ℕ) (first count : ℕ) : Prop where
  id : contextIdentity policy.id = .ok ()
  revision : contextIdentity policy.revision = .ok ()
  bytes : sourceBytes source policy.sourceBounds = .ok source.toValue
  objective : (anchors source).head? = some first
  paired : Paired policy.sourceBounds.maxContentBlocks source.messages pairs ends
  reach : messageEnds source = .ok ends
  most : count = min (optionalOf source ends first).length policy.maxReducedCandidates.toNat
  plans : plans = (List.range (count + 1)).map (candidatePlan digests source policy ends first count)

theorem candidates_of_selection (h : selectionCandidates digests source policy = .ok plans) :
    ∃ pairs ends first count, Candidates digests source policy plans pairs ends first count := by
  simp only [selectionCandidates, contextSourceDigest, bind_eq_ok, reject_eq_ok, expect_eq_ok, pure_eq_ok] at h
  obtain ⟨_, hid, _, hrevision, _, -, digest, ⟨bytes, hbytes, rfl⟩, first, hfirst, ends, hends, rfl⟩ := h
  obtain ⟨-, rfl, -, hchecked⟩ := sourceBytes_eq_ok hbytes
  obtain ⟨pairs, ends', hpaired, hends'⟩ := paired_of_checkMessages hchecked
  obtain rfl := Except.ok.inj (hends.symm.trans hends')
  refine ⟨pairs, ends, first, _, hid, hrevision, hbytes, hfirst, hpaired, hends, rfl, ?_⟩
  rw [candidateRanges_eq (Nat.min_le_left _ _), List.map_map]
  rfl

variable {pairs : List (ℕ × ℕ)} {ends : List ℕ} {first count candidate : ℕ}

theorem Candidates.tiles (h : Candidates digests source policy plans pairs ends first count) :
    Tiles 0 source.messages.length (messageGroups ends) := (messageGroups_spec h.paired.reaches).1

theorem Candidates.kept_plan (h : Candidates digests source policy plans pairs ends first count) (candidate : ℕ) :
    (candidatePlan digests source policy ends first count candidate).kept =
      {i | Kept (keptGroups (messageGroups ends) (optionalOf source ends first) count candidate) i} := by
  have hsub : (keptGroups (messageGroups ends) (optionalOf source ends first) count candidate).Sublist
      (messageGroups ends) := keptGroups_sublist candidate
  have hordered := h.tiles.ordered.sublist hsub
  exact Set.ext fun i => (merge_spec (l := source.messages) hordered).2.1 i

theorem Candidates.accepts (h : Candidates digests source policy plans pairs ends first count) (candidate : ℕ) :
    Accepts digests source policy.sourceBounds (candidatePlan digests source policy ends first count candidate) := by
  intro descriptor target counter limit hroomier hexplicit hlimit hfits
  exact projectContext_of_groups h.bytes h.id h.revision rfl h.paired (keptGroups_sublist candidate) rfl h.objective
    (fun i hi hprotected => kept_protected h.tiles hi hprotected) hroomier hlimit hexplicit hfits

theorem Candidates.reductions (h : Candidates digests source policy plans pairs ends first count) :
    Reductions source policy plans := by
  have hindices : ∀ j ∈ optionalOf source ends first, j < (messageGroups ends).length := fun j hj => by
    obtain ⟨group, hgroup, -⟩ := mem_optionalGroups.1 hj
    exact (List.getElem?_eq_some_iff.1 hgroup).1
  have hcount : count ≤ (optionalOf source ends first).length := h.most ▸ Nat.min_le_left _ _
  rw [h.plans]
  constructor
  case full =>
    refine ⟨candidatePlan digests source policy ends first count 0, ?_, ?_⟩
    · rw [List.head?_map, List.head?_range]
      rfl
    · rw [h.kept_plan]
      exact Set.ext fun i => kept_first h.tiles
  case less =>
    refine List.isChain_iff_getElem.2 fun i hi => ?_
    rw [List.length_map, List.length_range] at hi
    rw [List.getElem_map, List.getElem_map, List.getElem_range, List.getElem_range, h.kept_plan, h.kept_plan]
    exact kept_next_ssubset h.tiles (nodup_optionalGroups _ _) hindices hcount (by omega)
  case least =>
    intro hmost
    refine ⟨ends, first, candidatePlan digests source policy ends first count count, h.reach, h.objective, ?_, ?_⟩
    · rw [List.getLast?_map, List.getLast?_range]
      rfl
    · rw [h.kept_plan]
      exact Set.ext fun i => kept_last h.tiles h.most hmost

/-- **Selection, projection and admission agree.** -/
theorem selection_agrees (digests : Digests) (source : ModelRequest) (policy : SelectionPolicy) :
    (∀ plans, selectionCandidates digests source policy = .ok plans →
      (∀ plan ∈ plans, Accepts digests source policy.sourceBounds plan) ∧ Reductions source policy plans) ∧
    ∀ bounds plan descriptor target counter projected,
      projectContext digests source descriptor bounds plan target counter = .ok projected →
      ∀ current count : ℕ, (anchors source).getLast? = some current → count ≤ source.messages.length - current →
        validateSelection source projected.prepared.request count = .ok () := by
  refine ⟨fun plans h => ?_, fun _ _ _ _ _ _ hprojected _ _ hcurrent hcount =>
    validateSelection_of_project hprojected hcurrent hcount⟩
  obtain ⟨pairs, ends, first, count, hcandidates⟩ := candidates_of_selection h
  refine ⟨fun plan hmem => ?_, hcandidates.reductions⟩
  rw [hcandidates.plans] at hmem
  obtain ⟨candidate, -, rfl⟩ := List.mem_map.1 hmem
  exact hcandidates.accepts candidate

def sampleHistory : ModelRequest where
  requestId := "r"
  messages := [⟨.user, [.text "goal"]⟩, ⟨.assistant, [.toolCall ⟨"c", "read", .null⟩]⟩,
    ⟨.user, [.toolResult ⟨"c", "done", false⟩]⟩, ⟨.assistant, [.text "so"]⟩, ⟨.user, [.text "next"]⟩]
  model := ⟨"p", "a"⟩
  system := []
  tools := []
  toolChoice := .auto
  outputFormat := none
  promptCache := none
  reasoning := none
  maxOutputTokens := some 10
  extensions := .null

def samplePolicy : ContextPolicy := ⟨"c", "1", .strict, 4096, 16, 16, none, 10⟩

def sampleSelection : SelectionPolicy := ⟨"s", "1", samplePolicy, 2⟩

def sampleReduced : ContextProjectionPlan := ⟨"s", "1", "source", [⟨0, 1⟩, ⟨3, 5⟩]⟩

def samplePlans : List ContextProjectionPlan :=
  [⟨"s", "1", "source", [⟨0, 5⟩]⟩, sampleReduced, ⟨"s", "1", "source", [⟨0, 1⟩, ⟨4, 5⟩]⟩]

def sampleCounter : ContextTokenCounter := ⟨"n", "1", fun _ _ => .ok (.trusted 100)⟩

theorem selection_agrees_sample :
    selectionCandidates ⟨fun _ => "source", fun _ => "digest"⟩ sampleHistory sampleSelection = .ok samplePlans ∧
      (∃ projected, projectContext ⟨fun _ => "source", fun _ => "digest"⟩ sampleHistory ⟨⟨"p", "a"⟩, some 1000, none, []⟩
        samplePolicy sampleReduced samplePolicy sampleCounter = .ok projected ∧
        validateSelection sampleHistory projected.prepared.request 1 = .ok ()) := by
  have hselection : selectionCandidates ⟨fun _ => "source", fun _ => "digest"⟩ sampleHistory sampleSelection =
      .ok samplePlans := by decide +kernel
  have hagrees := selection_agrees ⟨fun _ => "source", fun _ => "digest"⟩ sampleHistory sampleSelection
  have hfits : Fits samplePolicy 1000
      (sampleCounter.count (sampleReduced.select sampleHistory) (sampleReduced.select sampleHistory).toValue) := by
    show (100 : UInt64).toNat + (10 : UInt32).toNat ≤ (1000 : UInt32).toNat
    decide
  obtain ⟨projected, hprojected⟩ := (hagrees.1 samplePlans hselection).1 sampleReduced (by decide)
    ⟨⟨"p", "a"⟩, some 1000, none, []⟩ samplePolicy sampleCounter 1000 ⟨le_refl _, le_refl _, le_refl _⟩ rfl
    (by decide +kernel) hfits
  exact ⟨hselection, projected, hprojected, hagrees.2 _ _ _ _ _ _ hprojected 4 1 (by decide) (by decide)⟩

end Agreement

end Requests
end Kolyan
