/-
# The pairs of a history and its groups

The visitor of the pairs and the check of the messages follow the same calls that
wait for results.  In a history that passes the check every call finds its result
(`checkAll_pairs`), so at a cut, a point that no pair reaches over, no call waits
(`pending_of_cut`).  The groups of the selection lie between such cuts: they tile the
history, and each can be checked by itself (`checkAll_slices`).
-/

import Kolyan.Requests.Selection
import Kolyan.Lib.OrderedMaps

namespace Kolyan
namespace Requests

open Checks Ranges OrderedMaps

section Pairs

/-- The calls that wait, each with the message it is in. -/
abbrev Waiting := Std.ExtTreeMap String ℕ

/-- The pairs that end in the blocks of a message, and the calls that wait after it. -/
def blockPairs (index : ℕ) (waiting : Waiting) : List ContentBlock → Option (Waiting × List (ℕ × ℕ))
  | [] => some (waiting, [])
  | .toolCall call :: blocks => blockPairs index (waiting.insert call.id index) blocks
  | .toolResult result :: blocks =>
    waiting[result.callId]?.bind fun callIndex =>
      (blockPairs index (waiting.erase result.callId) blocks).map fun rest => (rest.1, (callIndex, index) :: rest.2)
  | .text _ :: blocks | .image _ :: blocks | .document _ _ :: blocks | .reasoning _ _ :: blocks =>
    blockPairs index waiting blocks

/-- The pairs that end in the messages from an index on. -/
def messagePairs (index : ℕ) (waiting : Waiting) : List Message → Option (Waiting × List (ℕ × ℕ))
  | [] => some (waiting, [])
  | message :: messages =>
    (blockPairs index waiting message.content).bind fun here =>
      (messagePairs (index + 1) here.1 messages).map fun rest => (rest.1, here.2 ++ rest.2)

/-- The visitor over a list of pairs. -/
def visitPairs {σ : Type} (visit : σ → ℕ → ℕ → Except ContextError σ) (state : σ) :
    List (ℕ × ℕ) → Except ContextError σ
  | [] => .ok state
  | (call, result) :: pairs => do
    let state ← visit state call result
    visitPairs visit state pairs

variable {σ : Type} {visit : σ → ℕ → ℕ → Except ContextError σ}

theorem visitPairs_append {state : σ} {pairs pairs' : List (ℕ × ℕ)} :
    visitPairs visit state (pairs ++ pairs') =
      (visitPairs visit state pairs >>= fun state => visitPairs visit state pairs') := by
  induction pairs generalizing state with
  | nil => rfl
  | cons pair pairs ih =>
    obtain ⟨call, result⟩ := pair
    simp only [List.cons_append, visitPairs, ih]
    cases visit state call result <;> rfl

theorem visitBlocks_eq {index : ℕ} {blocks : List ContentBlock} {waiting waiting' : Waiting} {state : σ}
    {pairs : List (ℕ × ℕ)} (h : blockPairs index waiting blocks = some (waiting', pairs)) :
    visitBlocks visit index (waiting, state) blocks =
      (visitPairs visit state pairs >>= fun state => .ok (waiting', state)) := by
  induction blocks generalizing waiting state pairs with
  | nil =>
    obtain ⟨rfl, rfl⟩ := Prod.mk.inj (Option.some.inj h)
    rfl
  | cons block blocks ih =>
    cases block with
    | toolResult result =>
      obtain ⟨call, hcall, hrest⟩ := Option.bind_eq_some_iff.1 h
      obtain ⟨⟨waiting'', rest⟩, hblocks, heq⟩ := Option.map_eq_some_iff.1 hrest
      obtain ⟨rfl, rfl⟩ := Prod.mk.inj heq
      simp only [visitBlocks, visitBlock, visitPairs, hcall, expect_some, ok_bind]
      cases visit state call index with
      | error error => rfl
      | ok next => exact ih hblocks
    | toolCall call => exact ih h
    | text text => exact ih h
    | image source => exact ih h
    | document source title => exact ih h
    | reasoning text state => exact ih h

theorem visitMessages_eq {index : ℕ} {messages : List Message} {waiting waiting' : Waiting} {state : σ}
    {pairs : List (ℕ × ℕ)} (h : messagePairs index waiting messages = some (waiting', pairs)) :
    visitMessages visit index (waiting, state) messages =
      (visitPairs visit state pairs >>= fun state => .ok (waiting', state)) := by
  induction messages generalizing index waiting state pairs with
  | nil =>
    obtain ⟨rfl, rfl⟩ := Prod.mk.inj (Option.some.inj h)
    rfl
  | cons message messages ih =>
    obtain ⟨⟨here, found⟩, hblocks, hrest⟩ := Option.bind_eq_some_iff.1 h
    obtain ⟨⟨after, rest⟩, hmessages, heq⟩ := Option.map_eq_some_iff.1 hrest
    obtain ⟨rfl, rfl⟩ := Prod.mk.inj heq
    rw [visitMessages, visitBlocks_eq hblocks, visitPairs_append]
    cases visitPairs visit state found with
    | error error => rfl
    | ok next => exact ih hmessages

theorem visitOriginalPairs_eq {source : ModelRequest} {waiting : Waiting} {pairs : List (ℕ × ℕ)} {start : σ}
    (h : messagePairs 0 ∅ source.messages = some (waiting, pairs)) :
    visitOriginalPairs source visit start = visitPairs visit start pairs := by
  rw [visitOriginalPairs, visitMessages_eq h]
  cases visitPairs visit start pairs <;> rfl

theorem messagePairs_append {index : ℕ} {messages messages' : List Message} {waiting : Waiting} :
    messagePairs index waiting (messages ++ messages') =
      (messagePairs index waiting messages).bind fun here =>
        (messagePairs (index + messages.length) here.1 messages').map fun rest => (rest.1, here.2 ++ rest.2) := by
  induction messages generalizing index waiting with
  | nil => simp [messagePairs]
  | cons message messages ih =>
    simp only [List.cons_append, messagePairs, ih, List.length_cons, Nat.add_right_comm index _ 1, ← Nat.add_assoc]
    cases blockPairs index waiting message.content with
    | none => rfl
    | some here =>
      simp only [Option.bind_some]
      cases messagePairs (index + 1) here.1 messages with
      | none => rfl
      | some next => simp [Option.map_map, Function.comp_def, List.append_assoc]

end Pairs

section Waiting

/-- The check and the visitor know the same calls that wait. -/
def Agree (pending : Pending) (waiting : Waiting) : Prop := ∀ id : String, id ∈ pending ↔ id ∈ waiting

/-- The calls that wait lie before a message. -/
def Before (waiting : Waiting) (hi : ℕ) : Prop := ∀ (id : String) (call : ℕ), waiting[id]? = some call → call < hi

/-- What became of the calls that waited: each waits still or has its pair, and
every pair ends between `lo` and `hi`. -/
structure Settled (lo hi : ℕ) (pending' : Pending) (waiting waiting' : Waiting) (pairs : List (ℕ × ℕ)) : Prop where
  agree : Agree pending' waiting'
  before : Before waiting' hi
  within : ∀ call result, (call, result) ∈ pairs → call ≤ result ∧ lo ≤ result ∧ result < hi
  found : ∀ (id : String) (call : ℕ), waiting[id]? = some call →
    waiting'[id]? = some call ∨ ∃ result, (call, result) ∈ pairs

variable {lo mid hi index : ℕ} {pending pending' pending'' : Pending} {waiting waiting' waiting'' : Waiting}
  {pairs pairs' : List (ℕ × ℕ)}

theorem settled_refl (hagree : Agree pending waiting) (hbefore : Before waiting hi) :
    Settled lo hi pending waiting waiting [] :=
  ⟨hagree, hbefore, (fun _ _ h => nomatch h), fun _ _ h => .inl h⟩

theorem Settled.trans (h : Settled lo mid pending' waiting waiting' pairs)
    (h' : Settled lo hi pending'' waiting' waiting'' pairs') (hmid : mid ≤ hi) :
    Settled lo hi pending'' waiting waiting'' (pairs ++ pairs') where
  agree := h'.agree
  before := h'.before
  within call result hmem := by
    rcases List.mem_append.1 hmem with hmem | hmem
    · obtain ⟨hcall, hlo, hhi⟩ := h.within call result hmem
      exact ⟨hcall, hlo, hhi.trans_le hmid⟩
    · exact h'.within call result hmem
  found id call hcall := by
    rcases h.found id call hcall with hwaits | ⟨result, hmem⟩
    · refine (h'.found id call hwaits).imp_right fun ⟨result, hmem⟩ => ⟨result, List.mem_append_right _ hmem⟩
    · exact .inr ⟨result, List.mem_append_left _ hmem⟩

theorem Settled.mono (h : Settled lo hi pending' waiting waiting' pairs) {lo' : ℕ} (hlo : lo' ≤ lo) :
    Settled lo' hi pending' waiting waiting' pairs :=
  ⟨h.agree, h.before, fun call result hmem =>
    let ⟨hcall, hlow, hhigh⟩ := h.within call result hmem
    ⟨hcall, hlo.trans hlow, hhigh⟩, h.found⟩

theorem settled_insert (hagree : Agree pending waiting) (hbefore : Before waiting (index + 1)) {id : String}
    (hnew : id ∉ pending) :
    Settled index (index + 1) (pending.insert id) waiting (waiting.insert id index) [] where
  agree id' := by
    rw [Std.ExtTreeSet.mem_insert, Std.LawfulEqCmp.compare_eq_iff_eq, mem_insert, hagree]
  before id' call hcall := by
    rw [getElem?_insert] at hcall
    split_ifs at hcall with hid
    · obtain rfl := Option.some.inj hcall
      exact Nat.lt_succ_self _
    · exact hbefore id' call hcall
  within _ _ h := nomatch h
  found id' call hcall := .inl (getElem?_insert_of_notMem (fun hmem => hnew ((hagree id).2 hmem)) hcall)

theorem settled_erase (hagree : Agree pending waiting) (hbefore : Before waiting (index + 1)) {id : String} {call : ℕ}
    (hcall : waiting[id]? = some call) :
    Settled index (index + 1) (pending.erase id) waiting (waiting.erase id) [(call, index)] where
  agree id' := by
    rw [Std.ExtTreeSet.mem_erase, Std.ExtTreeMap.mem_erase, hagree]
  before id' other hother := by
    by_cases hid : id = id'
    · subst hid
      simp at hother
    · rw [getElem?_erase_of_ne hid] at hother
      exact hbefore id' other hother
  within call' result hmem := by
    obtain ⟨rfl, rfl⟩ := Prod.mk.inj (List.mem_singleton.1 hmem)
    exact ⟨Nat.lt_succ_iff.1 (hbefore id call' hcall), le_refl _, Nat.lt_succ_self _⟩
  found id' other hother := by
    by_cases hid : id = id'
    · subst hid
      obtain rfl := Option.some.inj (hcall.symm.trans hother)
      exact .inr ⟨index, List.mem_singleton_self _⟩
    · exact .inl ((getElem?_erase_of_ne hid).trans hother)

theorem checkBlocks_pairs {role : MessageRole} {blocks : List ContentBlock} (hagree : Agree pending waiting)
    (hbefore : Before waiting (index + 1)) (h : checkBlocks role pending blocks = .ok pending') :
    ∃ waiting' pairs, blockPairs index waiting blocks = some (waiting', pairs) ∧
      Settled index (index + 1) pending' waiting waiting' pairs := by
  induction blocks generalizing pending waiting with
  | nil =>
    obtain rfl := Except.ok.inj h
    exact ⟨waiting, [], rfl, settled_refl hagree hbefore⟩
  | cons block blocks ih =>
    obtain ⟨next, hblock, hrest⟩ := bind_eq_ok.1 h
    cases block with
    | toolCall call =>
      simp only [checkBlock, bind_eq_ok, reject_eq_ok, not_or, pure_eq_ok] at hblock
      obtain ⟨_, ⟨-, -, -, hnew⟩, rfl⟩ := hblock
      have hstep := settled_insert hagree hbefore hnew
      obtain ⟨waiting', pairs, hpairs, hsettled⟩ := ih hstep.agree hstep.before hrest
      exact ⟨waiting', pairs, hpairs, hstep.trans hsettled (le_refl _)⟩
    | toolResult result =>
      simp only [checkBlock, bind_eq_ok, reject_eq_ok, not_or, not_not, pure_eq_ok] at hblock
      obtain ⟨_, ⟨-, hmem⟩, rfl⟩ := hblock
      obtain ⟨call, hcall⟩ := mem_iff_exists.1 ((hagree _).1 hmem)
      have hstep := settled_erase hagree hbefore hcall
      obtain ⟨waiting', pairs, hpairs, hsettled⟩ := ih hstep.agree hstep.before hrest
      refine ⟨waiting', (call, index) :: pairs, ?_, hstep.trans hsettled (le_refl _)⟩
      rw [blockPairs, hcall, Option.bind_some, hpairs, Option.map_some]
    | text text =>
      simp only [checkBlock, bind_eq_ok, pure_eq_ok] at hblock
      obtain ⟨_, -, rfl⟩ := hblock
      exact ih hagree hbefore hrest
    | image source =>
      simp only [checkBlock, bind_eq_ok, pure_eq_ok] at hblock
      obtain ⟨_, -, rfl⟩ := hblock
      exact ih hagree hbefore hrest
    | document source title =>
      simp only [checkBlock, bind_eq_ok, pure_eq_ok] at hblock
      obtain ⟨_, -, rfl⟩ := hblock
      exact ih hagree hbefore hrest
    | reasoning text state =>
      simp only [checkBlock, bind_eq_ok, pure_eq_ok] at hblock
      obtain ⟨_, -, rfl⟩ := hblock
      exact ih hagree hbefore hrest

theorem checkAll_pairs {maxBlocks total total' : ℕ} {messages : List Message} (hagree : Agree pending waiting)
    (hbefore : Before waiting index) (h : checkAll maxBlocks (total, pending) messages = .ok (total', pending')) :
    ∃ waiting' pairs, messagePairs index waiting messages = some (waiting', pairs) ∧
      Settled index (index + messages.length) pending' waiting waiting' pairs := by
  induction messages generalizing index total pending waiting with
  | nil =>
    obtain ⟨rfl, rfl⟩ := Prod.mk.inj (Except.ok.inj h)
    exact ⟨waiting, [], rfl, settled_refl hagree hbefore⟩
  | cons message messages ih =>
    obtain ⟨⟨after, next⟩, hmessage, hrest⟩ := bind_eq_ok.1 h
    simp only [checkMessage, bind_eq_ok, reject_eq_ok, pure_eq_ok, Prod.mk.injEq] at hmessage
    obtain ⟨_, -, _, -, _, hblocks, rfl, rfl⟩ := hmessage
    have hbefore' : Before waiting (index + 1) := fun id call hcall => (hbefore id call hcall).trans (Nat.lt_succ_self _)
    obtain ⟨here, found, hpairs, hstep⟩ := checkBlocks_pairs hagree hbefore' hblocks
    obtain ⟨waiting', pairs, hpairs', hsettled⟩ := ih hstep.agree hstep.before hrest
    refine ⟨waiting', found ++ pairs, ?_, ?_⟩
    · rw [messagePairs, hpairs, Option.bind_some, hpairs', Option.map_some]
    · rw [List.length_cons, Nat.add_comm messages.length 1, ← Nat.add_assoc]
      exact hstep.trans (hsettled.mono (Nat.le_succ _)) (Nat.le_add_right _ _)

end Waiting

section Ends

/-- How far each message reaches: beyond itself, and not beyond the history. -/
structure Reaches (n : ℕ) (ends : List ℕ) : Prop where
  length : ends.length = n
  bounds : ∀ i stop : ℕ, ends[i]? = some stop → i < stop ∧ stop ≤ n

/-- Every call reaches beyond its result. -/
def Covers (ends : List ℕ) (pairs : List (ℕ × ℕ)) : Prop :=
  ∀ call result, (call, result) ∈ pairs → ∃ stop : ℕ, ends[call]? = some stop ∧ result < stop

variable {n : ℕ} {ends : List ℕ}

theorem reaches_start (n : ℕ) : Reaches n ((List.range n).map (· + 1)) where
  length := by simp
  bounds i stop h := by
    obtain ⟨hlt, hstop⟩ := List.getElem?_eq_some_iff.1 h
    simp only [List.length_map, List.length_range, List.getElem_map, List.getElem_range] at hlt hstop
    omega

theorem reaches_modify (h : Reaches n ends) {call result : ℕ} (hcall : call ≤ result) (hresult : result < n) :
    Reaches n (ends.modify call fun stop => max stop (result + 1)) ∧
      (∃ stop : ℕ, (ends.modify call fun stop => max stop (result + 1))[call]? = some stop ∧ result < stop) ∧
      ∀ i stop : ℕ, ends[i]? = some stop →
        ∃ stop' : ℕ, (ends.modify call fun stop => max stop (result + 1))[i]? = some stop' ∧ stop ≤ stop' := by
  have hget : ∀ i, (ends.modify call fun stop => max stop (result + 1))[i]? =
      (ends[i]?).map fun stop => if call = i then max stop (result + 1) else stop := fun i => by
    rw [List.getElem?_modify]
    rfl
  refine ⟨⟨(List.length_modify ..).trans h.length, fun i stop hstop => ?_⟩, ?_, fun i stop hstop => ?_⟩
  · rw [hget] at hstop
    obtain ⟨old, hold, rfl⟩ := Option.map_eq_some_iff.1 hstop
    have := h.bounds i old hold
    split_ifs <;> omega
  · have hlt : call < ends.length := by rw [h.length]; omega
    refine ⟨max ends[call] (result + 1), ?_, by omega⟩
    rw [hget, List.getElem?_eq_getElem hlt, Option.map_some, if_pos rfl]
  · rw [hget, hstop, Option.map_some]
    refine ⟨_, rfl, ?_⟩
    split_ifs <;> omega

theorem visitPairs_ends {pairs : List (ℕ × ℕ)} (h : Reaches n ends)
    (hpairs : ∀ call result, (call, result) ∈ pairs → call ≤ result ∧ result < n) :
    ∃ ends' : List ℕ,
      visitPairs (fun ends call result => .ok (ends.modify call fun stop => max stop (result + 1))) ends pairs =
        .ok ends' ∧ Reaches n ends' ∧ Covers ends' pairs ∧
      ∀ i stop : ℕ, ends[i]? = some stop → ∃ stop' : ℕ, ends'[i]? = some stop' ∧ stop ≤ stop' := by
  induction pairs generalizing ends with
  | nil => exact ⟨ends, rfl, h, (fun _ _ hmem => nomatch hmem), fun i stop hstop => ⟨stop, hstop, le_refl stop⟩⟩
  | cons pair pairs ih =>
    obtain ⟨call, result⟩ := pair
    obtain ⟨hcall, hresult⟩ := hpairs call result List.mem_cons_self
    obtain ⟨hreaches, ⟨stop, hstop, hlt⟩, hgrow⟩ := reaches_modify h hcall hresult
    obtain ⟨ends', hends, hreaches', hcovers, hgrow'⟩ :=
      ih hreaches fun call result hmem => hpairs call result (List.mem_cons_of_mem _ hmem)
    refine ⟨ends', hends, hreaches', fun call' result' hmem => ?_, fun i old hold => ?_⟩
    · rcases List.mem_cons.1 hmem with heq | hmem
      · obtain ⟨rfl, rfl⟩ := Prod.mk.inj heq
        obtain ⟨stop', hstop', hle⟩ := hgrow' call' stop hstop
        exact ⟨stop', hstop', hlt.trans_le hle⟩
      · exact hcovers call' result' hmem
    · obtain ⟨next, hnext, hle⟩ := hgrow i old hold
      obtain ⟨last, hlast, hle'⟩ := hgrow' i next hnext
      exact ⟨last, hlast, hle.trans hle'⟩

end Ends

section Closing

/-- No message before the point reaches over it. -/
def Cut (ends : List ℕ) (point : ℕ) : Prop := ∀ i stop : ℕ, i < point → ends[i]? = some stop → stop ≤ point

/-- The messages of the group reach no further than the group. -/
def Closed (ends : List ℕ) (group : RetainedMessageRange) : Prop :=
  ∀ i stop : ℕ, group.Contains i → ends[i]? = some stop → stop ≤ group.stop

variable {n : ℕ} {ends : List ℕ}

theorem closeGroup_spec (h : Reaches n ends) {rest : List ℕ} {stop cursor : ℕ} (hrest : rest = ends.drop cursor)
    (hstop : stop ≤ n) :
    stop ≤ closeGroup stop cursor rest ∧ closeGroup stop cursor rest ≤ n ∧
      ∀ i reach : ℕ, cursor ≤ i → i < closeGroup stop cursor rest → ends[i]? = some reach →
        reach ≤ closeGroup stop cursor rest := by
  induction rest generalizing stop cursor with
  | nil =>
    have hend : ends.length ≤ cursor := List.drop_eq_nil_iff.1 hrest.symm
    rw [h.length] at hend
    refine ⟨le_refl _, hstop, fun i reach hi hlt _ => ?_⟩
    have hlt' : i < stop := hlt
    omega
  | cons reach rest ih =>
    have hcursor : ends[cursor]? = some reach := by
      rw [← List.head?_drop, ← hrest, List.head?_cons]
    have hnext : rest = ends.drop (cursor + 1) := by
      rw [← List.tail_drop, ← hrest, List.tail_cons]
    rw [closeGroup]
    split_ifs with hlt
    · have hmax : max stop reach ≤ n := max_le hstop (h.bounds cursor reach hcursor).2
      obtain ⟨hle, hn, hclosed⟩ := ih hnext hmax
      refine ⟨(le_max_left _ _).trans hle, hn, fun i e hi hlt' he => ?_⟩
      rcases Nat.eq_or_lt_of_le hi with rfl | hi
      · obtain rfl := Option.some.inj (hcursor.symm.trans he)
        exact (le_max_right _ _).trans hle
      · exact hclosed i e hi hlt' he
    · refine ⟨le_refl _, hstop, fun i e hi hlt' _ => ?_⟩
      omega

theorem closeGroups_spec (h : Reaches n ends) {fuel start : ℕ} (hstart : start ≤ n) (hfuel : n - start ≤ fuel) :
    Tiles start n (closeGroups ends fuel start) ∧ ∀ group ∈ closeGroups ends fuel start, Closed ends group := by
  induction fuel generalizing start with
  | zero =>
    have hend : start = n := by omega
    exact ⟨hend, fun _ hmem => nomatch hmem⟩
  | succ fuel ih =>
    rw [closeGroups]
    split
    · rename_i hnil
      have hend : start = n := by
        have := List.drop_eq_nil_iff.1 hnil
        rw [h.length] at this
        omega
      exact ⟨hend, fun _ hmem => nomatch hmem⟩
    · rename_i reach rest hdrop
      have hreach : ends[start]? = some reach := by
        rw [← List.head?_drop, hdrop, List.head?_cons]
      have hnext : rest = ends.drop (start + 1) := by
        rw [← List.tail_drop, hdrop, List.tail_cons]
      obtain ⟨hlt, hle⟩ := h.bounds start reach hreach
      obtain ⟨hstop, hn, hclosed⟩ := closeGroup_spec h hnext hle
      obtain ⟨htiles, hgroups⟩ := ih hn (by omega)
      refine ⟨⟨rfl, hlt.trans_le hstop, htiles⟩, fun group hmem => ?_⟩
      rcases List.mem_cons.1 hmem with rfl | hmem
      · intro i e hi he
        rcases Nat.eq_or_lt_of_le hi.1 with heq | hafter
        · obtain rfl : start = i := heq
          obtain rfl := Option.some.inj (hreach.symm.trans he)
          exact hstop
        · exact hclosed i e hafter hi.2 he
      · exact hgroups group hmem

theorem messageGroups_spec (h : Reaches n ends) :
    Tiles 0 n (messageGroups ends) ∧ ∀ group ∈ messageGroups ends, Closed ends group := by
  refine closeGroups_spec h (Nat.zero_le n) ?_
  rw [h.length, Nat.sub_zero]

theorem Cut.next {group : RetainedMessageRange} (h : Cut ends group.start) (hle : group.start ≤ group.stop)
    (hclosed : Closed ends group) : Cut ends group.stop := by
  intro i stop hi hstop
  by_cases hbefore : i < group.start
  · exact (h i stop hbefore hstop).trans hle
  · exact hclosed i stop ⟨not_lt.1 hbefore, hi⟩ hstop

end Closing

section Groups

/-- A history with its pairs and how far its messages reach. -/
structure Paired (maxBlocks : ℕ) (messages : List Message) (pairs : List (ℕ × ℕ)) (ends : List ℕ) : Prop where
  checked : ∃ total, checkAll maxBlocks (0, ∅) messages = .ok (total, ∅)
  paired : ∃ waiting, messagePairs 0 ∅ messages = some (waiting, pairs)
  ordered : ∀ call result, (call, result) ∈ pairs → call ≤ result ∧ result < messages.length
  reaches : Reaches messages.length ends
  covers : Covers ends pairs

variable {maxBlocks maxBlocks' total total' : ℕ} {messages : List Message} {pairs : List (ℕ × ℕ)} {ends : List ℕ}
  {pending pending' : Pending}

theorem checkAll_append {messages' : List Message} {state : ℕ × Pending} :
    checkAll maxBlocks state (messages ++ messages') =
      (checkAll maxBlocks state messages >>= fun state => checkAll maxBlocks state messages') := by
  induction messages generalizing state with
  | nil => rfl
  | cons message messages ih =>
    simp only [List.cons_append, checkAll, ih]
    cases checkMessage maxBlocks state message <;> rfl

/-- The blocks of messages. -/
def blockCount (messages : List Message) : ℕ := (messages.map (·.content.length)).sum

/-- **A part that passes the check passes it after fewer blocks as well.** -/
theorem checkAll_shift (h : checkAll maxBlocks (total, pending) messages = .ok (total', pending')) :
    total' = total + blockCount messages ∧
      ∀ other, other + blockCount messages ≤ maxBlocks' →
        checkAll maxBlocks' (other, pending) messages = .ok (other + blockCount messages, pending') := by
  induction messages generalizing total pending with
  | nil =>
    obtain ⟨rfl, rfl⟩ := Prod.mk.inj (Except.ok.inj h)
    exact ⟨rfl, fun other _ => rfl⟩
  | cons message messages ih =>
    obtain ⟨⟨after, next⟩, hmessage, hrest⟩ := bind_eq_ok.1 h
    simp only [checkMessage, bind_eq_ok, reject_eq_ok, pure_eq_ok, Prod.mk.injEq] at hmessage
    obtain ⟨_, -, _, hrole, here, hblocks, rfl, rfl⟩ := hmessage
    obtain ⟨htotal, hshift⟩ := ih hrest
    have hcount : blockCount (message :: messages) = message.content.length + blockCount messages := by
      simp [blockCount]
    refine ⟨by omega, fun other hother => ?_⟩
    have hmessage' : checkMessage maxBlocks' (other, pending) message = .ok (other + message.content.length, here) := by
      simp only [checkMessage, bind_eq_ok, reject_eq_ok, pure_eq_ok]
      exact ⟨(), by omega, (), hrole, here, hblocks, rfl⟩
    rw [checkAll, hmessage', ok_bind, hshift _ (by omega), hcount, Nat.add_assoc]

theorem checkAll_total (h : checkAll maxBlocks (total, pending) messages = .ok (total', pending')) :
    total' = total + blockCount messages :=
  (@checkAll_shift maxBlocks maxBlocks total total' messages pending pending' h).1

theorem checkAll_le (h : checkAll maxBlocks (total, pending) messages = .ok (total', pending'))
    (hle : total ≤ maxBlocks) : total' ≤ maxBlocks := by
  induction messages generalizing total pending with
  | nil =>
    obtain ⟨rfl, rfl⟩ := Prod.mk.inj (Except.ok.inj h)
    exact hle
  | cons message messages ih =>
    obtain ⟨⟨after, next⟩, hmessage, hrest⟩ := bind_eq_ok.1 h
    simp only [checkMessage, bind_eq_ok, reject_eq_ok, not_lt, pure_eq_ok, Prod.mk.injEq] at hmessage
    obtain ⟨_, hbound, _, -, _, -, rfl, rfl⟩ := hmessage
    exact ih hrest hbound

theorem agree_empty : Agree ∅ ∅ := fun _ => by simp

theorem before_empty (hi : ℕ) : Before ∅ hi := fun id call hcall => by simp at hcall

/-- **No call waits at a cut**: its result would lie beyond the cut, and the call
would reach over it. -/
theorem pending_of_cut (h : Paired maxBlocks messages pairs ends) {point : ℕ} (hpoint : point ≤ messages.length)
    (hcut : Cut ends point) : ∃ total, checkAll maxBlocks (0, ∅) (messages.take point) = .ok (total, ∅) := by
  obtain ⟨total, hchecked⟩ := h.checked
  rw [← List.take_append_drop point messages, checkAll_append] at hchecked
  obtain ⟨⟨before, pending⟩, htake, hdrop⟩ := bind_eq_ok.1 hchecked
  obtain ⟨waiting, pairs₁, hpairs₁, hfirst⟩ := checkAll_pairs agree_empty (before_empty 0) htake
  rw [List.length_take_of_le hpoint, Nat.zero_add] at hfirst
  obtain ⟨waiting', pairs₂, hpairs₂, hsecond⟩ := checkAll_pairs hfirst.agree hfirst.before hdrop
  obtain ⟨last, hpaired⟩ := h.paired
  have hpairs : pairs = pairs₁ ++ pairs₂ := by
    rw [← List.take_append_drop point messages, messagePairs_append, hpairs₁, Option.bind_some,
      List.length_take_of_le hpoint, Nat.zero_add, hpairs₂, Option.map_some] at hpaired
    exact (Prod.mk.inj (Option.some.inj hpaired)).2.symm
  suffices hempty : pending = ∅ by exact ⟨before, hempty ▸ htake⟩
  refine Std.ExtTreeSet.eq_empty_iff_forall_not_mem.2 fun id hmem => ?_
  obtain ⟨call, hcall⟩ := mem_iff_exists.1 ((hfirst.agree id).1 hmem)
  rcases hsecond.found id call hcall with hwaits | ⟨result, hpair⟩
  · have hnever := (hsecond.agree id).2 (mem_of_getElem? hwaits)
    simp at hnever
  · obtain ⟨-, hlate, -⟩ := hsecond.within call result hpair
    obtain ⟨stop, hstop, hover⟩ := h.covers call result (hpairs ▸ List.mem_append_right _ hpair)
    have hle := hcut call stop (hfirst.before id call hcall) hstop
    omega

theorem checkAll_tiles (h : Paired maxBlocks messages pairs ends) {groups : List RetainedMessageRange} {lo : ℕ}
    (htiles : Tiles lo messages.length groups) (hclosed : ∀ group ∈ groups, Closed ends group) (hcut : Cut ends lo) :
    ∀ group ∈ groups, ∃ total total', checkAll maxBlocks (total, ∅) (group.slice messages) = .ok (total', ∅) := by
  induction groups generalizing lo with
  | nil => exact fun _ hmem => nomatch hmem
  | cons first groups ih =>
    obtain ⟨rfl, hlt, hrest⟩ := htiles
    have hnext := hcut.next hlt.le (hclosed first List.mem_cons_self)
    intro group hmem
    rcases List.mem_cons.1 hmem with rfl | hmem
    · have hstop := hrest.ordered.le
      obtain ⟨before, hbefore⟩ := pending_of_cut h (hlt.le.trans hstop) hcut
      obtain ⟨after, hafter⟩ := pending_of_cut h hstop hnext
      have hsplit : messages.take group.stop = messages.take group.start ++ group.slice messages := by
        obtain ⟨k, hk⟩ := Nat.exists_eq_add_of_le hlt.le
        rw [Range.slice, hk, Nat.add_sub_cancel_left, List.take_add]
      rw [hsplit, checkAll_append, hbefore, ok_bind] at hafter
      exact ⟨before, after, hafter⟩
    · exact ih hrest (fun group hmem => hclosed group (List.mem_cons_of_mem _ hmem)) hnext group hmem

theorem checkAll_slices (h : Paired maxBlocks messages pairs ends) {groups : List RetainedMessageRange}
    (hgroups : ∀ group ∈ groups, group ∈ messageGroups ends)
    (hbound : total + blockCount (slices groups messages) ≤ maxBlocks') :
    checkAll maxBlocks' (total, ∅) (slices groups messages) =
      .ok (total + blockCount (slices groups messages), ∅) := by
  obtain ⟨htiles, hclosed⟩ := messageGroups_spec h.reaches
  induction groups generalizing total with
  | nil => rfl
  | cons group groups ih =>
    obtain ⟨before, after, hgroup⟩ :=
      checkAll_tiles h htiles hclosed (fun i _ hi => absurd hi (Nat.not_lt_zero i)) group (hgroups group List.mem_cons_self)
    have hcount : blockCount (slices (group :: groups) messages) =
        blockCount (group.slice messages) + blockCount (slices groups messages) := by
      simp [blockCount]
    rw [hcount] at hbound
    rw [slices_cons, checkAll_append, (checkAll_shift hgroup).2 total (by omega), ok_bind,
      ih (fun group hmem => hgroups group (List.mem_cons_of_mem _ hmem)) (by omega), ← slices_cons, hcount, Nat.add_assoc]

theorem bounded_of_checkMessages {source : ModelRequest} {policy : ContextPolicy}
    (h : checkMessages source policy = .ok ()) :
    source.messages.length ≤ policy.maxMessages ∧ blockCount source.messages ≤ policy.maxContentBlocks := by
  simp only [checkMessages, bind_eq_ok, reject_eq_ok, not_lt] at h
  obtain ⟨_, hcount, ⟨total, pending⟩, hchecked, -⟩ := h
  have hle := checkAll_le hchecked (Nat.zero_le _)
  rw [checkAll_total hchecked, Nat.zero_add] at hle
  exact ⟨hcount, hle⟩

theorem paired_of_checkMessages {source : ModelRequest} {policy : ContextPolicy}
    (h : checkMessages source policy = .ok ()) :
    ∃ pairs ends, Paired policy.maxContentBlocks source.messages pairs ends ∧ messageEnds source = .ok ends := by
  simp only [checkMessages, bind_eq_ok, reject_eq_ok, Bool.not_eq_false] at h
  obtain ⟨_, -, ⟨total, pending⟩, hchecked, _, hempty, -⟩ := h
  obtain rfl : pending = ∅ := Std.ExtTreeSet.isEmpty_iff.1 hempty
  obtain ⟨waiting, pairs, hpairs, hsettled⟩ :=
    checkAll_pairs agree_empty (before_empty 0) hchecked
  have hordered : ∀ call result, (call, result) ∈ pairs → call ≤ result ∧ result < source.messages.length :=
    fun call result hmem => by
      obtain ⟨hcall, -, hresult⟩ := hsettled.within call result hmem
      exact ⟨hcall, by rwa [Nat.zero_add] at hresult⟩
  obtain ⟨ends, hends, hreaches, hcovers, -⟩ := visitPairs_ends (reaches_start source.messages.length) hordered
  exact ⟨pairs, ends, ⟨⟨total, hchecked⟩, ⟨waiting, hpairs⟩, hordered, hreaches, hcovers⟩,
    (visitOriginalPairs_eq hpairs).trans hends⟩

theorem visitOriginalPairs_of_forall {source : ModelRequest} (h : Paired maxBlocks source.messages pairs ends)
    {visit : Unit → ℕ → ℕ → Except ContextError Unit}
    (hvisit : ∀ call result, (call, result) ∈ pairs → visit () call result = .ok ()) :
    visitOriginalPairs source visit () = .ok () := by
  obtain ⟨waiting, hpairs⟩ := h.paired
  rw [visitOriginalPairs_eq hpairs]
  clear hpairs h
  induction pairs with
  | nil => rfl
  | cons pair pairs ih =>
    obtain ⟨call, result⟩ := pair
    rw [visitPairs, hvisit call result List.mem_cons_self, ok_bind]
    exact ih fun call result hmem => hvisit call result (List.mem_cons_of_mem _ hmem)

end Groups

end Requests
end Kolyan
