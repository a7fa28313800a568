/-
# Attempt and invocation states stay in step

The reducer keeps attempts and invocations in two tables and looks each up by
its own key: `start` and `resume` by the binding they are given, `observe`,
`recover` and `authorize_retry` by the binding of the attempt.  Two invariants
tie the tables together.  `Owned` is about identities only: which invocation
lists an attempt, and that no identity is used twice.  `InStep` is about states:
an invocation has the state of its last attempt, and every attempt before it
failed.  Both hold throughout every run, and with them no `unwrap` of the
reducer can fail.
-/

import Kolyan.Tasks.Effects

namespace Kolyan
namespace Tasks

open Checks Facts OrderedMaps

/-- The tables of a snapshot. -/
abbrev Invocations := BTreeMap InvocationSnapshot

/-- The attempts of a snapshot. -/
abbrev Attempts := BTreeMap AttemptSnapshot

/-- An attempt is bound to an invocation, with the definition it was admitted with. -/
structure BoundTo (inv : InvocationSnapshot) (i id : String) (attempt : AttemptSnapshot) : Prop where
  attemptId : attempt.binding.attemptId = id
  invocationId : attempt.binding.invocationId = i
  agent : attempt.binding.agent = inv.definition.agent
  constraints : attempt.binding.constraintsDigest = inv.definition.constraintsDigest
  source : attempt.binding.inputSource = inv.definition.inputSource

/-- Every attempt is listed once, by the invocation its binding names, and every
identity of the task has one use. -/
structure Owned (taskId : String) (invocations : Invocations) (attempts : Attempts) : Prop where
  named : ∀ (i : String) (inv : InvocationSnapshot), invocations[i]? = some inv →
    inv.definition.invocationId = i
  listed : ∀ (i : String) (inv : InvocationSnapshot), invocations[i]? = some inv →
    ∀ id ∈ inv.attempts, ∃ attempt, attempts[id]? = some attempt ∧ BoundTo inv i id attempt
  owner : ∀ (id : String) (attempt : AttemptSnapshot), attempts[id]? = some attempt →
    ∃ inv, invocations[attempt.binding.invocationId]? = some inv ∧ id ∈ inv.attempts
  nodup : ∀ (i : String) (inv : InvocationSnapshot), invocations[i]? = some inv → inv.attempts.Nodup
  task : taskId ∉ invocations ∧ taskId ∉ attempts
  disjoint : ∀ id ∈ invocations, id ∉ attempts
  execution : ∀ (id : String) (attempt : AttemptSnapshot), attempts[id]? = some attempt →
    attempt.binding.execution.executionId ≠ taskId ∧
      attempt.binding.execution.executionId ∉ invocations ∧
      attempt.binding.execution.executionId ∉ attempts
  executions : ∀ (id id' : String) (attempt attempt' : AttemptSnapshot), attempts[id]? = some attempt →
    attempts[id']? = some attempt' →
    attempt.binding.execution.executionId = attempt'.binding.execution.executionId → id = id'

/-- The state an invocation stands for in one of its attempts: its own in the
last one, failure in the others. -/
def InvocationSnapshot.stateOf (inv : InvocationSnapshot) (id : String) : InvocationState :=
  if inv.attempts.getLast? = some id then inv.state else .failed

/-- Each listed attempt has the state its invocation stands for, and an
invocation without attempts waits or was cancelled. -/
structure InStep (invocations : Invocations) (attempts : Attempts) : Prop where
  states : ∀ (i : String) (inv : InvocationSnapshot), invocations[i]? = some inv →
    ∀ id ∈ inv.attempts, ∀ (attempt : AttemptSnapshot), attempts[id]? = some attempt →
      attempt.state = inv.stateOf id ∧ attempt.state ≠ .admitted
  unstarted : ∀ (i : String) (inv : InvocationSnapshot), invocations[i]? = some inv →
    inv.attempts = [] → inv.state = .admitted ∨ inv.state = .cancelled

section Tables

variable {taskId : String} {invocations invocations' : Invocations} {attempts attempts' : Attempts}

theorem owned_empty : Owned taskId ∅ ∅ := by
  constructor <;> simp

theorem inStep_empty : InStep ∅ ∅ := by
  constructor <;> simp

theorem notMem_dropLast {ids : List String} (hnd : ids.Nodup) {id : String}
    (hlast : ids.getLast? = some id) : id ∉ ids.dropLast := by
  intro hid
  rw [← List.dropLast_append_getLast? id hlast, List.nodup_append] at hnd
  exact hnd.2.2 id hid id (List.mem_singleton_self _) rfl

namespace Owned

theorem bound (ho : Owned taskId invocations attempts) {i id : String} {inv : InvocationSnapshot}
    {attempt : AttemptSnapshot} (hinv : invocations[i]? = some inv) (hid : id ∈ inv.attempts)
    (hattempt : attempts[id]? = some attempt) : BoundTo inv i id attempt := by
  obtain ⟨attempt', hattempt', hbound⟩ := ho.listed i inv hinv id hid
  obtain rfl : attempt' = attempt := Option.some.inj (hattempt'.symm.trans hattempt)
  exact hbound

theorem mem_attempts (ho : Owned taskId invocations attempts) {id : String} {inv : InvocationSnapshot}
    {attempt : AttemptSnapshot} (hattempt : attempts[id]? = some attempt)
    (hinv : invocations[attempt.binding.invocationId]? = some inv) : id ∈ inv.attempts := by
  obtain ⟨inv', hinv', hid⟩ := ho.owner id attempt hattempt
  obtain rfl : inv' = inv := Option.some.inj (hinv'.symm.trans hinv)
  exact hid

/-- **Progress keeps ownership**: the same invocations with the same identities
and attempt lists, and the same attempts with the same bindings. -/
theorem congr (ho : Owned taskId invocations attempts)
    (hkeys : ∀ i, i ∈ invocations' ↔ i ∈ invocations)
    (hinvs : ∀ (i : String) (inv' : InvocationSnapshot), invocations'[i]? = some inv' →
      ∃ inv, invocations[i]? = some inv ∧ inv'.attempts = inv.attempts ∧
        inv'.definition.invocationId = inv.definition.invocationId ∧
        inv'.definition.agent = inv.definition.agent ∧
        inv'.definition.constraintsDigest = inv.definition.constraintsDigest ∧
        inv'.definition.inputSource = inv.definition.inputSource)
    (hids : ∀ id, id ∈ attempts' ↔ id ∈ attempts)
    (hattempts : ∀ (id : String) (attempt' : AttemptSnapshot), attempts'[id]? = some attempt' →
      ∃ attempt, attempts[id]? = some attempt ∧ attempt'.binding = attempt.binding) :
    Owned taskId invocations' attempts' := by
  refine ⟨fun i inv' hinv' => ?_, fun i inv' hinv' id hid => ?_, fun id attempt' hattempt' => ?_,
    fun i inv' hinv' => ?_, ?_, fun id hid => ?_, fun id attempt' hattempt' => ?_,
    fun id id' attempt attempt' hattempt hattempt' heq => ?_⟩
  · obtain ⟨inv, hinv, _, hname, _⟩ := hinvs i inv' hinv'
    exact hname.trans (ho.named i inv hinv)
  · obtain ⟨inv, hinv, hlist, _, hagent, hconstraints, hsource⟩ := hinvs i inv' hinv'
    obtain ⟨attempt, hattempt, hbound⟩ := ho.listed i inv hinv id (hlist ▸ hid)
    obtain ⟨attempt', hattempt'⟩ := mem_iff_exists.1 ((hids id).2 (mem_of_getElem? hattempt))
    obtain ⟨old, hold, hbinding⟩ := hattempts id attempt' hattempt'
    obtain rfl : old = attempt := Option.some.inj (hold.symm.trans hattempt)
    refine ⟨attempt', hattempt', ?_⟩
    constructor
    · rw [hbinding, hbound.attemptId]
    · rw [hbinding, hbound.invocationId]
    · rw [hbinding, hbound.agent, hagent]
    · rw [hbinding, hbound.constraints, hconstraints]
    · rw [hbinding, hbound.source, hsource]
  · obtain ⟨attempt, hattempt, hbinding⟩ := hattempts id attempt' hattempt'
    obtain ⟨inv, hinv, hid⟩ := ho.owner id attempt hattempt
    obtain ⟨inv', hinv'⟩ := mem_iff_exists.1 ((hkeys _).2 (mem_of_getElem? hinv))
    obtain ⟨old, hold, hlist, _⟩ := hinvs _ inv' hinv'
    obtain rfl : old = inv := Option.some.inj (hold.symm.trans hinv)
    exact ⟨inv', hbinding ▸ hinv', hlist ▸ hid⟩
  · obtain ⟨inv, hinv, hlist, _⟩ := hinvs i inv' hinv'
    exact hlist ▸ ho.nodup i inv hinv
  · rw [hkeys, hids]
    exact ho.task
  · rw [hids]
    exact ho.disjoint id ((hkeys id).1 hid)
  · obtain ⟨attempt, hattempt, hbinding⟩ := hattempts id attempt' hattempt'
    rw [hbinding, hkeys, hids]
    exact ho.execution id attempt hattempt
  · obtain ⟨old, hold, hbinding⟩ := hattempts id attempt hattempt
    obtain ⟨old', hold', hbinding'⟩ := hattempts id' attempt' hattempt'
    rw [hbinding, hbinding'] at heq
    exact ho.executions id id' old old' hold hold' heq

/-- A change of one invocation that keeps its identities and attempts. -/
theorem update (ho : Owned taskId invocations attempts) {i : String} {inv inv' : InvocationSnapshot}
    (hinv : invocations[i]? = some inv) (hlist : inv'.attempts = inv.attempts)
    (hname : inv'.definition.invocationId = inv.definition.invocationId)
    (hagent : inv'.definition.agent = inv.definition.agent)
    (hconstraints : inv'.definition.constraintsDigest = inv.definition.constraintsDigest)
    (hsource : inv'.definition.inputSource = inv.definition.inputSource) :
    Owned taskId (invocations.insert i inv') attempts := by
  refine ho.congr (fun j => ?_) ?_ (fun _ => Iff.rfl) fun id attempt hattempt => ⟨attempt, hattempt, rfl⟩
  · rw [mem_insert]
    constructor
    · rintro (rfl | hj)
      · exact mem_of_getElem? hinv
      · exact hj
    · exact Or.inr
  · exact forall_insert.2 ⟨⟨inv, hinv, hlist, hname, hagent, hconstraints, hsource⟩,
      fun j old _ hold => ⟨old, hold, rfl, rfl, rfl, rfl, rfl⟩⟩

theorem updateAttempt (ho : Owned taskId invocations attempts) {id : String}
    {attempt attempt' : AttemptSnapshot} (hattempt : attempts[id]? = some attempt)
    (hbinding : attempt'.binding = attempt.binding) :
    Owned taskId invocations (attempts.insert id attempt') := by
  refine ho.congr (fun _ => Iff.rfl) (fun i inv hinv => ⟨inv, hinv, rfl, rfl, rfl, rfl, rfl⟩)
    (fun id' => ?_) ?_
  · rw [mem_insert]
    constructor
    · rintro (rfl | h)
      · exact mem_of_getElem? hattempt
      · exact h
    · exact Or.inr
  · exact forall_insert.2 ⟨⟨attempt, hattempt, hbinding⟩, fun _ old _ hold => ⟨old, hold, rfl⟩⟩

theorem admitted (ho : Owned taskId invocations attempts) {definition : InvocationDefinition}
    (htask : definition.invocationId ≠ taskId) (hfresh : definition.invocationId ∉ invocations)
    (hattempt : definition.invocationId ∉ attempts)
    (hexecution : ∀ (id : String) (attempt : AttemptSnapshot), attempts[id]? = some attempt →
      attempt.binding.execution.executionId ≠ definition.invocationId) :
    Owned taskId (invocations.insert definition.invocationId (.admitted definition)) attempts := by
  refine ⟨?_, ?_, fun id attempt h => ?_, ?_, ⟨?_, ho.task.2⟩, fun id hid => ?_, fun id attempt h => ?_,
    ho.executions⟩
  · exact forall_insert.2 ⟨rfl, fun i inv _ => ho.named i inv⟩
  · exact forall_insert.2 ⟨by simp [InvocationSnapshot.admitted], fun i inv _ => ho.listed i inv⟩
  · obtain ⟨inv, hinv, hid⟩ := ho.owner id attempt h
    exact ⟨inv, getElem?_insert_of_notMem hfresh hinv, hid⟩
  · exact forall_insert.2 ⟨List.nodup_nil, fun i inv _ => ho.nodup i inv⟩
  · rw [mem_insert, not_or]
    exact ⟨htask, ho.task.1⟩
  · rcases mem_insert.1 hid with rfl | hid
    · exact hattempt
    · exact ho.disjoint id hid
  · obtain ⟨h₁, h₂, h₃⟩ := ho.execution id attempt h
    refine ⟨h₁, ?_, h₃⟩
    rw [mem_insert, not_or]
    exact ⟨(hexecution id attempt h).symm, h₂⟩

end Owned

namespace InStep

theorem update (hs : InStep invocations attempts) {i : String} {inv inv' : InvocationSnapshot}
    (hinv : invocations[i]? = some inv) (hlist : inv'.attempts = inv.attempts)
    (hstate : inv'.state = inv.state) : InStep (invocations.insert i inv') attempts := by
  constructor
  · refine forall_insert.2 ⟨fun id hid attempt hattempt => ?_, fun j old _ => hs.states j old⟩
    rw [InvocationSnapshot.stateOf, hlist, hstate]
    exact hs.states i inv hinv id (hlist ▸ hid) attempt hattempt
  · refine forall_insert.2 ⟨fun hnil => ?_, fun j old _ => hs.unstarted j old⟩
    rw [hstate]
    exact hs.unstarted i inv hinv (hlist ▸ hnil)

/-- **A live attempt is the last one of its invocation**, which has its state. -/
theorem last_of_live (hs : InStep invocations attempts) {i id : String} {inv : InvocationSnapshot}
    {attempt : AttemptSnapshot} (hinv : invocations[i]? = some inv) (hid : id ∈ inv.attempts)
    (hattempt : attempts[id]? = some attempt) (hfailed : attempt.state ≠ .failed) :
    inv.attempts.getLast? = some id ∧ attempt.state = inv.state := by
  have hstate := (hs.states i inv hinv id hid attempt hattempt).1
  unfold InvocationSnapshot.stateOf at hstate
  split_ifs at hstate with hlast
  · exact ⟨hlast, hstate⟩
  · exact absurd hstate hfailed

theorem admitted (hs : InStep invocations attempts) (definition : InvocationDefinition) :
    InStep (invocations.insert definition.invocationId (.admitted definition)) attempts := by
  constructor
  · exact forall_insert.2 ⟨by simp [InvocationSnapshot.admitted], fun i inv _ => hs.states i inv⟩
  · exact forall_insert.2 ⟨fun _ => Or.inl rfl, fun i inv _ => hs.unstarted i inv⟩

end InStep

end Tables

section Snapshots

variable {state : TaskSnapshot}

/-- The identities of a snapshot. -/
abbrev TaskSnapshot.Owned (state : TaskSnapshot) : Prop :=
  Tasks.Owned state.definition.taskId state.invocations state.attempts

/-- The states of a snapshot. -/
abbrev TaskSnapshot.InStep (state : TaskSnapshot) : Prop :=
  Tasks.InStep state.invocations state.attempts

theorem started_owned {binding : AttemptBinding} {inv : InvocationSnapshot} (ho : state.Owned)
    (h : Startable state inv binding) : (state.started inv binding).Owned := by
  have hnew : binding.attemptId ∉ inv.attempts := fun hid => by
    obtain ⟨attempt, hattempt, _⟩ := ho.listed _ inv h.lookup _ hid
    exact h.attempt.attempt (mem_of_getElem? hattempt)
  have hexecution := h.execution
  refine ⟨?_, ?_, ?_, ?_, ⟨?_, ?_⟩, fun id hid => ?_, ?_, ?_⟩
  · exact forall_insert.2 ⟨ho.named _ inv h.lookup, fun i other _ => ho.named i other⟩
  · refine forall_insert.2 ⟨fun id hid => ?_, fun i other hne hother id hid => ?_⟩
    · rcases List.mem_append.1 hid with hid | hid
      · obtain ⟨attempt, hattempt, hbound⟩ := ho.listed _ inv h.lookup id hid
        exact ⟨attempt, getElem?_insert_of_notMem h.attempt.attempt hattempt, hbound.1, hbound.2,
          hbound.3, hbound.4, hbound.5⟩
      · obtain rfl := List.mem_singleton.1 hid
        exact ⟨.started binding, getElem?_insert_self, rfl, rfl, h.sameAgent.symm,
          h.constraints.symm, h.source.symm⟩
    · obtain ⟨attempt, hattempt, hbound⟩ := ho.listed i other hother id hid
      exact ⟨attempt, getElem?_insert_of_notMem h.attempt.attempt hattempt, hbound⟩
  · refine forall_insert.2 ⟨⟨_, getElem?_insert_self, ?_⟩, fun id attempt _ hattempt => ?_⟩
    · exact List.mem_append_right _ (List.mem_singleton_self _)
    · obtain ⟨other, hother, hid⟩ := ho.owner id attempt hattempt
      by_cases heq : binding.invocationId = attempt.binding.invocationId
      · refine ⟨_, by rw [← heq]; exact getElem?_insert_self, List.mem_append_left _ ?_⟩
        obtain rfl : inv = other := Option.some.inj (h.lookup.symm.trans (heq ▸ hother))
        exact hid
      · refine ⟨other, ?_, hid⟩
        show (state.invocations.insert _ _)[attempt.binding.invocationId]? = some other
        rwa [getElem?_insert_of_ne heq]
  · refine forall_insert.2 ⟨?_, fun i other _ => ho.nodup i other⟩
    rw [List.nodup_append]
    refine ⟨ho.nodup _ inv h.lookup, List.nodup_singleton _, fun id hid id' hid' heq => hnew ?_⟩
    rw [← List.mem_singleton.1 hid', ← heq]
    exact hid
  · show state.definition.taskId ∉ state.invocations.insert _ _
    rw [mem_insert, not_or]
    exact ⟨fun heq => ho.task.1 (heq ▸ mem_of_getElem? h.lookup), ho.task.1⟩
  · show state.definition.taskId ∉ state.attempts.insert _ _
    rw [mem_insert, not_or]
    exact ⟨h.attempt.task, ho.task.2⟩
  · have hold : id ∈ state.invocations := by
      rcases mem_insert.1 hid with rfl | hid
      · exact mem_of_getElem? h.lookup
      · exact hid
    show id ∉ state.attempts.insert _ _
    rw [mem_insert, not_or]
    exact ⟨fun heq => h.attempt.invocation (heq ▸ hold), ho.disjoint id hold⟩
  · have hkeys : ∀ e, e ∈ (state.started inv binding).invocations ↔ e ∈ state.invocations := by
      intro e
      show e ∈ state.invocations.insert _ _ ↔ _
      rw [mem_insert]
      constructor
      · rintro (rfl | he)
        · exact mem_of_getElem? h.lookup
        · exact he
      · exact Or.inr
    refine forall_insert.2 ⟨⟨hexecution.task, ?_, ?_⟩, fun id attempt _ hattempt => ?_⟩
    · rw [hkeys]
      exact hexecution.invocation
    · show binding.execution.executionId ∉ state.attempts.insert _ _
      rw [mem_insert, not_or]
      exact ⟨h.distinct, hexecution.attempt⟩
    · obtain ⟨h₁, h₂, h₃⟩ := ho.execution id attempt hattempt
      rw [hkeys]
      refine ⟨h₁, h₂, ?_⟩
      show _ ∉ state.attempts.insert _ _
      rw [mem_insert, not_or]
      exact ⟨(h.attempt.execution id attempt hattempt).symm, h₃⟩
  · intro id id' attempt attempt' hattempt hattempt' heq
    replace hattempt : (state.attempts.insert _ _)[id]? = some attempt := hattempt
    replace hattempt' : (state.attempts.insert _ _)[id']? = some attempt' := hattempt'
    rw [getElem?_insert] at hattempt hattempt'
    split_ifs at hattempt hattempt' with hid hid' hid'
    · exact hid.symm.trans hid'
    · obtain rfl := Option.some.inj hattempt
      exact absurd heq.symm (hexecution.execution id' attempt' hattempt')
    · obtain rfl := Option.some.inj hattempt'
      exact absurd heq (hexecution.execution id attempt hattempt)
    · exact ho.executions id id' attempt attempt' hattempt hattempt' heq

theorem InStep.failed_of_startable (hs : state.InStep) {binding : AttemptBinding}
    {inv : InvocationSnapshot} (h : Startable state inv binding) :
    ∀ id ∈ inv.attempts, ∀ (attempt : AttemptSnapshot), state.attempts[id]? = some attempt →
      attempt.state = .failed := by
  intro id hid attempt hattempt
  obtain ⟨hstate, hstarted⟩ := hs.states _ inv h.lookup id hid attempt hattempt
  unfold InvocationSnapshot.stateOf at hstate
  split_ifs at hstate
  · rcases h.evidence with hadmitted | ⟨hfailed, _⟩
    · exact absurd (hstate.trans hadmitted) hstarted
    · exact hstate.trans hfailed
  · exact hstate

/-- **A start keeps states in step**: the invocation had no attempt, or its last
one failed. -/
theorem started_inStep {binding : AttemptBinding} {inv : InvocationSnapshot} (ho : state.Owned)
    (hs : state.InStep) (h : Startable state inv binding) : (state.started inv binding).InStep := by
  have hfailed := hs.failed_of_startable h
  constructor
  · refine forall_insert.2 ⟨fun id hid attempt hattempt => ?_,
      fun i other hne hother id hid attempt hattempt => ?_⟩
    · replace hattempt : (state.attempts.insert _ _)[id]? = some attempt := hattempt
      rw [InvocationSnapshot.stateOf, List.getLast?_concat]
      rw [getElem?_insert] at hattempt
      split_ifs at hattempt with heq
      · obtain rfl := Option.some.inj hattempt
        rw [heq, if_pos rfl]
        exact ⟨rfl, by simp [AttemptSnapshot.started]⟩
      · have hold : id ∈ inv.attempts := by
          rcases List.mem_append.1 hid with hid | hid
          · exact hid
          · exact absurd (List.mem_singleton.1 hid).symm heq
        have hstate := hfailed id hold attempt hattempt
        rw [if_neg fun hlast => heq (Option.some.inj hlast), hstate]
        exact ⟨rfl, by simp⟩
    · replace hattempt : (state.attempts.insert _ _)[id]? = some attempt := hattempt
      obtain ⟨old, hold, _⟩ := ho.listed i other hother id hid
      have hkept := getElem?_insert_of_notMem (v := AttemptSnapshot.started binding) h.attempt.attempt hold
      rw [hkept] at hattempt
      exact hs.states i other hother id hid attempt (hold.trans hattempt)
  · exact forall_insert.2 ⟨fun hnil => absurd hnil (by simp), fun i other _ => hs.unstarted i other⟩

section Moves

variable {id : String} {attempt attempt' : AttemptSnapshot} {inv inv' : InvocationSnapshot}

theorem moved_owned (ho : state.Owned) (hattempt : state.attempts[id]? = some attempt)
    (hinv : state.invocations[attempt.binding.invocationId]? = some inv)
    (hbinding : attempt'.binding = attempt.binding) (hdefinition : inv'.definition = inv.definition)
    (hlist : inv'.attempts = inv.attempts) : (state.moved id attempt' inv').Owned := by
  have hnext := (ho.updateAttempt hattempt hbinding).update hinv hlist
    (by rw [hdefinition]) (by rw [hdefinition]) (by rw [hdefinition]) (by rw [hdefinition])
  rwa [← hbinding] at hnext

/-- **A move of the last attempt to one state keeps states in step.** -/
theorem moved_inStep (ho : state.Owned) (hs : state.InStep)
    (hattempt : state.attempts[id]? = some attempt)
    (hinv : state.invocations[attempt.binding.invocationId]? = some inv)
    (hbinding : attempt'.binding = attempt.binding) (hlist : inv'.attempts = inv.attempts)
    (hlast : inv.attempts.getLast? = some id) (hstate : attempt'.state = inv'.state)
    (hstarted : attempt'.state ≠ .admitted) : (state.moved id attempt' inv').InStep := by
  constructor
  · refine forall_insert.2 ⟨fun id' hid' other hother => ?_,
      fun i old hne hold id' hid' other hother => ?_⟩
    · replace hother : (state.attempts.insert id attempt')[id']? = some other := hother
      rw [InvocationSnapshot.stateOf, hlist, hlast]
      rw [getElem?_insert] at hother
      split_ifs at hother with heq
      · obtain rfl := Option.some.inj hother
        rw [heq, if_pos rfl]
        exact ⟨hstate, hstarted⟩
      · have hkept := hs.states _ inv hinv id' (hlist ▸ hid') other hother
        rw [InvocationSnapshot.stateOf, hlast, if_neg fun h => heq (Option.some.inj h)] at hkept
        rw [if_neg fun h => heq (Option.some.inj h)]
        exact hkept
    · replace hother : (state.attempts.insert id attempt')[id']? = some other := hother
      have hne' : id ≠ id' := fun heq => by
        subst heq
        exact hne ((ho.bound hold hid' hattempt).invocationId.symm.trans (by rw [hbinding]))
      rw [getElem?_insert_of_ne hne'] at hother
      exact hs.states i old hold id' hid' other hother
  · refine forall_insert.2 ⟨fun hnil => ?_, fun i old _ => hs.unstarted i old⟩
    rw [hlist] at hnil
    rw [hnil] at hlast
    simp at hlast

end Moves

end Snapshots

/-! ### Every run -/

theorem InvocationState.IsLive.ne_failed {s : InvocationState} (h : s.IsLive) : s ≠ .failed := by
  rintro rfl
  simp [InvocationState.IsLive] at h

theorem nextState_ne_admitted {state : TaskSnapshot} {attempt : AttemptSnapshot}
    {observation : AttemptObservation} {next : InvocationState}
    (h : nextState state attempt observation = .ok next) : next ≠ .admitted := by
  unfold nextState at h
  split at h <;> simp only [bind_eq_ok, pure_eq_ok] at h
  · obtain ⟨_, _, _, _, _, _, _, _, rfl⟩ := h
    simp
  all_goals
    obtain ⟨_, _, rfl⟩ := h
    simp

theorem last_of_live {state : TaskSnapshot} (ho : state.Owned) (hs : state.InStep) {id : String}
    {attempt : AttemptSnapshot} {inv : InvocationSnapshot} (hattempt : state.attempts[id]? = some attempt)
    (hinv : state.invocations[attempt.binding.invocationId]? = some inv) (hlive : attempt.state.IsLive) :
    inv.attempts.getLast? = some id ∧ attempt.state = inv.state :=
  hs.last_of_live hinv (ho.mem_attempts hattempt hinv) hattempt hlive.ne_failed

theorem cancelled_inStep {state : TaskSnapshot} (ho : state.Owned) (hs : state.InStep) :
    Owned state.definition.taskId
        (state.invocations.map fun _ inv => if cancelSelects state inv then inv.cancelled else inv)
        (state.attempts.map fun id attempt =>
          if id ∈ cancelRequested state then { attempt with cancellationRequested := true }
          else attempt) ∧
      InStep
        (state.invocations.map fun _ inv => if cancelSelects state inv then inv.cancelled else inv)
        (state.attempts.map fun id attempt =>
          if id ∈ cancelRequested state then { attempt with cancellationRequested := true }
          else attempt) := by
  have hinvs : ∀ (i : String) (inv' : InvocationSnapshot),
      (state.invocations.map fun _ inv =>
        if cancelSelects state inv then inv.cancelled else inv)[i]? = some inv' →
      ∃ inv, state.invocations[i]? = some inv ∧ inv'.attempts = inv.attempts ∧
        inv'.definition = inv.definition ∧
        (inv'.state = inv.state ∨ inv.state = .admitted ∧ inv'.state = .cancelled) := by
    intro i inv' hinv'
    rw [Std.ExtTreeMap.getElem?_map, Option.map_eq_some_iff] at hinv'
    obtain ⟨inv, hinv, rfl⟩ := hinv'
    refine ⟨inv, hinv, ?_⟩
    split_ifs
    · refine ⟨rfl, rfl, ?_⟩
      by_cases hadmitted : inv.state = .admitted
      · exact Or.inr ⟨hadmitted, by simp [InvocationSnapshot.cancelled, hadmitted]⟩
      · exact Or.inl (by simp [InvocationSnapshot.cancelled, hadmitted])
    · exact ⟨rfl, rfl, Or.inl rfl⟩
  have hattempts : ∀ (id : String) (attempt' : AttemptSnapshot),
      (state.attempts.map fun id attempt =>
        if id ∈ cancelRequested state then { attempt with cancellationRequested := true }
        else attempt)[id]? = some attempt' →
      ∃ attempt, state.attempts[id]? = some attempt ∧ attempt'.binding = attempt.binding ∧
        attempt'.state = attempt.state := by
    intro id attempt' hattempt'
    rw [Std.ExtTreeMap.getElem?_map, Option.map_eq_some_iff] at hattempt'
    obtain ⟨attempt, hattempt, rfl⟩ := hattempt'
    refine ⟨attempt, hattempt, ?_⟩
    split_ifs <;> exact ⟨rfl, rfl⟩
  refine ⟨ho.congr (fun i => Std.ExtTreeMap.mem_map) (fun i inv' hinv' => ?_)
    (fun id => Std.ExtTreeMap.mem_map) fun id attempt' hattempt' => ?_, ?_, ?_⟩
  · obtain ⟨inv, hinv, hlist, hdefinition, _⟩ := hinvs i inv' hinv'
    exact ⟨inv, hinv, hlist, by rw [hdefinition], by rw [hdefinition], by rw [hdefinition],
      by rw [hdefinition]⟩
  · obtain ⟨attempt, hattempt, hbinding, _⟩ := hattempts id attempt' hattempt'
    exact ⟨attempt, hattempt, hbinding⟩
  · intro i inv' hinv' id hid attempt' hattempt'
    obtain ⟨inv, hinv, hlist, _, hstate⟩ := hinvs i inv' hinv'
    obtain ⟨attempt, hattempt, _, hsame⟩ := hattempts id attempt' hattempt'
    obtain ⟨hkept, hstarted⟩ := hs.states i inv hinv id (hlist ▸ hid) attempt hattempt
    rw [hsame]
    refine ⟨?_, hstarted⟩
    rw [hkept, InvocationSnapshot.stateOf, InvocationSnapshot.stateOf, hlist]
    split_ifs with hlast
    · rcases hstate with heq | ⟨hadmitted, _⟩
      · exact heq.symm
      · rw [InvocationSnapshot.stateOf, if_pos hlast] at hkept
        exact absurd (hkept.trans hadmitted) hstarted
    · rfl
  · intro i inv' hinv' hnil
    obtain ⟨inv, hinv, hlist, _, hstate⟩ := hinvs i inv' hinv'
    rcases hstate with heq | ⟨_, hcancelled⟩
    · rw [heq]
      exact hs.unstarted i inv hinv (hlist ▸ hnil)
    · exact Or.inr hcancelled

theorem Effect.inStep {record : FactRecord} {state moved : TaskSnapshot} {event : TaskEvent}
    (h : Effect record state event moved) (ho : state.Owned) (hs : state.InStep) :
    moved.Owned ∧ moved.InStep := by
  cases h with
  | configured => exact ⟨ho, hs⟩
  | budgeted _ startable => exact ⟨started_owned ho startable, started_inStep ho hs startable⟩
  | assessed => exact ⟨ho, hs⟩
  | admitted admissible =>
    have hfresh := admissible.fresh
    exact ⟨ho.admitted hfresh.task hfresh.invocation hfresh.attempt hfresh.execution, hs.admitted _⟩
  | depended lookup _ =>
    exact ⟨ho.update lookup rfl rfl rfl rfl rfl, hs.update lookup rfl rfl⟩
  | started _ startable => exact ⟨started_owned ho startable, started_inStep ho hs startable⟩
  | observed o =>
    obtain ⟨hlast, _⟩ := last_of_live ho hs o.lookup o.owner o.live
    exact ⟨moved_owned ho o.lookup o.owner rfl rfl rfl,
      moved_inStep ho hs o.lookup o.owner rfl rfl hlast rfl (nextState_ne_admitted o.outcome)⟩
  | resumed r =>
    obtain ⟨hlast, _⟩ := last_of_live ho hs r.lookup r.owner (Or.inr (Or.inl r.suspended))
    exact ⟨moved_owned ho r.lookup r.owner rfl rfl rfl,
      moved_inStep ho hs r.lookup r.owner rfl rfl hlast rfl (by simp)⟩
  | recovered lookup live owner =>
    obtain ⟨hlast, _⟩ := last_of_live ho hs lookup owner live
    exact ⟨moved_owned ho lookup owner rfl rfl rfl,
      moved_inStep ho hs lookup owner rfl rfl hlast rfl (by simp)⟩
  | authorized a =>
    exact ⟨moved_owned ho a.lookup a.owner rfl rfl rfl,
      moved_inStep ho hs a.lookup a.owner rfl rfl a.last rfl (by simp)⟩
  | consumed consumable =>
    exact ⟨ho.update consumable.lookup rfl rfl rfl rfl rfl, hs.update consumable.lookup rfl rfl⟩
  | consumedTerminal consumable =>
    exact ⟨ho.update consumable.lookup rfl rfl rfl rfl rfl, hs.update consumable.lookup rfl rfl⟩
  | completed => exact ⟨ho, hs⟩
  | cancelled => exact cancelled_inStep ho hs
  | failed => exact ⟨ho, hs⟩

section Runs

variable {sha256 : Value → String} {history : List (TaskSnapshot × TaskEvent)} {state : TaskSnapshot}

theorem TaskRun.inStep (run : TaskRun sha256 history state) : state.Owned ∧ state.InStep :=
  run.invariant (I := fun state => state.Owned ∧ state.InStep)
    (fun _ _ _ => ⟨owned_empty, inStep_empty⟩)
    (fun _ _ _ _ h _ heffect => heffect.inStep h.1 h.2) fun _ _ h => h

/-- The execution identities of a snapshot. -/
def TaskSnapshot.executionIds (state : TaskSnapshot) : List String :=
  state.attempts.values.map (·.binding.execution.executionId)

theorem Owned.executionIds_nodup (ho : state.Owned) : state.executionIds.Nodup := by
  unfold TaskSnapshot.executionIds
  rw [values_eq_map_toList, List.map_map]
  have hlist : state.attempts.toList.Pairwise fun a b => a.1 ≠ b.1 :=
    Std.ExtTreeMap.distinct_keys_toList.imp fun h heq => by
      rw [heq] at h
      exact h (Std.ReflCmp.compare_self)
  refine List.pairwise_map.2 (hlist.imp_of_mem fun {a b} ha hb hne heq => hne ?_)
  exact ho.executions a.1 b.1 a.2 b.2 (Std.ExtTreeMap.mem_toList_iff_getElem?_eq_some.1 ha)
    (Std.ExtTreeMap.mem_toList_iff_getElem?_eq_some.1 hb) heq

theorem mem_executionIds {e : String} :
    e ∈ state.executionIds ↔ ∃ (id : String) (attempt : AttemptSnapshot),
      state.attempts[id]? = some attempt ∧ attempt.binding.execution.executionId = e := by
  simp only [TaskSnapshot.executionIds, List.mem_map, mem_values]
  constructor
  · rintro ⟨attempt, ⟨id, h⟩, rfl⟩
    exact ⟨id, attempt, h, rfl⟩
  · rintro ⟨id, attempt, h, rfl⟩
    exact ⟨attempt, ⟨id, h⟩, rfl⟩

theorem Owned.identities_nodup (ho : state.Owned) :
    (state.definition.taskId ::
      (state.invocations.keys ++ state.attempts.keys ++ state.executionIds)).Nodup := by
  have hkeys : ∀ {V : Type} (m : BTreeMap V), m.keys.Nodup := fun m =>
    (Std.ExtTreeMap.distinct_keys (t := m)).imp fun {a b} h heq => by
      rw [heq] at h
      exact h (Std.ReflCmp.compare_self)
  have hexecution : ∀ e ∈ state.executionIds,
      e ≠ state.definition.taskId ∧ e ∉ state.invocations ∧ e ∉ state.attempts := by
    intro e he
    obtain ⟨id, attempt, h, rfl⟩ := mem_executionIds.1 he
    exact ho.execution id attempt h
  rw [List.nodup_cons, List.nodup_append, List.nodup_append]
  refine ⟨?_, ⟨hkeys _, hkeys _, fun a ha b hb heq => ?_⟩, ho.executionIds_nodup, fun a ha b hb heq => ?_⟩
  · simp only [List.mem_append, Std.ExtTreeMap.mem_keys, not_or]
    exact ⟨ho.task, fun he => (hexecution _ he).1 rfl⟩
  · rw [Std.ExtTreeMap.mem_keys] at ha hb
    exact ho.disjoint a ha (heq ▸ hb)
  · obtain ⟨_, h₁, h₂⟩ := hexecution b hb
    simp only [List.mem_append, Std.ExtTreeMap.mem_keys] at ha
    rcases ha with ha | ha
    · exact h₁ (heq ▸ ha)
    · exact h₂ (heq ▸ ha)

/-- **Attempt and invocation states stay in step.**  In every snapshot of a run
an attempt is listed by exactly one invocation, the one its binding names and
with that invocation's agent, constraints and input source; an invocation
without attempts is admitted or cancelled; one with attempts has the state of
its last attempt, and the attempts before it failed, so at most one attempt of
an invocation is live; and no identity of the task has two uses. -/
theorem TaskRun.states_in_step (run : TaskRun sha256 history state) :
    (∀ (id : String) (attempt : AttemptSnapshot), state.attempts[id]? = some attempt →
      attempt.binding.attemptId = id ∧
      ∃ inv, state.invocations[attempt.binding.invocationId]? = some inv ∧
        inv.attempts.count id = 1 ∧
        (∀ (j : String) (other : InvocationSnapshot), state.invocations[j]? = some other →
          id ∈ other.attempts → j = attempt.binding.invocationId) ∧
        attempt.binding.agent = inv.definition.agent ∧
        attempt.binding.constraintsDigest = inv.definition.constraintsDigest ∧
        attempt.binding.inputSource = inv.definition.inputSource) ∧
    (∀ (i : String) (inv : InvocationSnapshot), state.invocations[i]? = some inv →
      inv.definition.invocationId = i ∧
      (∀ id ∈ inv.attempts, id ∈ state.attempts) ∧
      (inv.attempts = [] → inv.state = .admitted ∨ inv.state = .cancelled) ∧
      (∀ (id : String) (attempt : AttemptSnapshot), inv.attempts.getLast? = some id →
        state.attempts[id]? = some attempt → attempt.state = inv.state) ∧
      (∀ id ∈ inv.attempts.dropLast, ∀ (attempt : AttemptSnapshot),
        state.attempts[id]? = some attempt → attempt.state = .failed)) ∧
    (∀ (id id' : String) (attempt attempt' : AttemptSnapshot), state.attempts[id]? = some attempt →
      state.attempts[id']? = some attempt' → attempt.state.IsLive → attempt'.state.IsLive →
      attempt.binding.invocationId = attempt'.binding.invocationId → id = id') ∧
    (state.definition.taskId ::
      (state.invocations.keys ++ state.attempts.keys ++ state.executionIds)).Nodup := by
  obtain ⟨ho, hs⟩ := run.inStep
  refine ⟨fun id attempt hattempt => ?_, fun i inv hinv => ?_,
    fun id id' attempt attempt' hattempt hattempt' hlive hlive' heq => ?_, ho.identities_nodup⟩
  · obtain ⟨inv, hinv, hid⟩ := ho.owner id attempt hattempt
    have hbound := ho.bound hinv hid hattempt
    refine ⟨hbound.attemptId, inv, hinv, ?_, fun j other hother hmem => ?_, hbound.agent,
      hbound.constraints, hbound.source⟩
    · exact List.count_eq_one_of_mem (ho.nodup _ inv hinv) hid
    · exact (ho.bound hother hmem hattempt).invocationId.symm
  · refine ⟨ho.named i inv hinv, fun id hid => ?_, hs.unstarted i inv hinv,
      fun id attempt hlast hattempt => ?_, fun id hid attempt hattempt => ?_⟩
    · obtain ⟨attempt, hattempt, _⟩ := ho.listed i inv hinv id hid
      exact mem_of_getElem? hattempt
    · have hstate := (hs.states i inv hinv id (List.mem_of_getLast? hlast) attempt hattempt).1
      rwa [InvocationSnapshot.stateOf, if_pos hlast] at hstate
    · have hstate := (hs.states i inv hinv id (List.mem_of_mem_dropLast hid) attempt hattempt).1
      rwa [InvocationSnapshot.stateOf, if_neg] at hstate
      exact fun hlast => notMem_dropLast (ho.nodup i inv hinv) hlast hid
  · obtain ⟨inv, hinv, _⟩ := ho.owner id attempt hattempt
    obtain ⟨hlast, _⟩ := last_of_live ho hs hattempt hinv hlive
    obtain ⟨hlast', _⟩ := last_of_live ho hs hattempt' (heq ▸ hinv) hlive'
    exact Option.some.inj (hlast.symm.trans hlast')

def sampleBinding : AttemptBinding where
  attemptId := "first"
  invocationId := "root"
  execution := ⟨"session", "turn", "execution"⟩
  agent := sampleTask.agent
  constraintsDigest := sampleTask.constraintsDigest
  inputSource := sampleRoot.inputSource

def sampleEvents (events : List TaskEvent) : Except TaskError (List (TaskSnapshot × TaskEvent) × TaskSnapshot) :=
  runFrom (fun _ => "") (.registered sampleTask 1)
    (events.zipIdx.map fun (event, i) => (event, sampleRecord (i + 2)))

theorem sampleEvents_run {events : List TaskEvent} {history : List (TaskSnapshot × TaskEvent)}
    {state : TaskSnapshot} (h : sampleEvents events = .ok (history, state)) :
    TaskRun (fun _ => "") history state := by
  have hregistered : apply (fun _ => "") none (.registered sampleTask) (sampleRecord 1) =
      .ok (.registered sampleTask 1) := by
    have hvalid : validateDefinition (fun _ => "") sampleTask = .ok () := by decide
    simp [apply, hvalid, sampleRecord, pure, Except.pure]
  exact (TaskRun.registered hregistered).append h

/-- A started attempt of the sample task is listed by its root. -/
theorem TaskRun.states_in_step_started : ∃ history state attempt,
    TaskRun (fun _ => "") history state ∧ state.attempts["first"]? = some attempt ∧
      attempt.state = .running ∧ attempt.binding.attemptId = "first" := by
  have h : (sampleEvents [.invocationAdmitted sampleRoot, .attemptStarted sampleBinding]).toOption.any
      (fun run => (run.2.attempts["first"]?).any (·.state = .running)) = true := by
    decide
  simp only [Option.any_eq_true, toOption_eq_some, decide_eq_true_eq] at h
  obtain ⟨⟨history, state⟩, hrun, attempt, hattempt, hstate⟩ := h
  have run := sampleEvents_run hrun
  exact ⟨history, state, attempt, run, hattempt, hstate,
    ((TaskRun.states_in_step run).1 "first" attempt hattempt).1⟩

end Runs

end Tasks
end Kolyan
