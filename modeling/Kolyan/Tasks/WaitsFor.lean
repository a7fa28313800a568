/-
# Which invocation waits for which

Three relations on the invocations of a snapshot: an invocation depends on the
results it names, it calls the children it admitted, and it waits for both.
All three are functions of the admitted definitions (`TaskSnapshot.topology`),
which only admission and `add_dependency` change (`apply_topology`); every other
transition touches the progress of invocations, not their definitions.

Dependencies and ancestry are distinct DAGs: each is acyclic in every snapshot
that replay can reach.  Their union is not kept acyclic by the checks of the
reducer, since `reaches` follows dependencies only and `admit` lets a child
depend on its caller.  `TaskRun.waits_acyclic_iff` says exactly when it stays so.
-/

import Kolyan.Lib.Acyclic
import Kolyan.Tasks.Reducer

namespace Kolyan
namespace Tasks

open Checks Facts Relation Acyclicity

/-- The admitted definitions by identity. -/
abbrev Topology := String → Option InvocationDefinition

/-- The definitions of a table of invocations. -/
def topologyOf (invocations : BTreeMap InvocationSnapshot) : Topology :=
  fun id => (invocations[id]?).map (·.definition)

/-- The definitions of a snapshot. -/
def TaskSnapshot.topology (state : TaskSnapshot) : Topology := topologyOf state.invocations

/-- `a` names `b` as a dependency. -/
def DependsOn (t : Topology) (a b : String) : Prop := ∃ d, t a = some d ∧ b ∈ d.dependencies

/-- `b` was called by `a` for a result. -/
def Calls (t : Topology) (a b : String) : Prop :=
  ∃ d, t b = some d ∧ d.parentInvocationId = some a ∧ d.role ≠ .continuation

/-- `b` is the parent of `a`. -/
def HasParent (t : Topology) (a b : String) : Prop := ∃ d, t a = some d ∧ d.parentInvocationId = some b

/-- `a` has to consume the result of `b`. -/
def WaitsFor (t : Topology) (a b : String) : Prop := DependsOn t a b ∨ Calls t a b

/-- **The waits-for relation is `required_results`.** -/
theorem mem_requiredResults {invocations : BTreeMap InvocationSnapshot} {a b : String} :
    b ∈ requiredResults invocations a ↔ WaitsFor (topologyOf invocations) a b := by
  have hdeps : b ∈ dependenciesOf invocations a ↔ DependsOn (topologyOf invocations) a b := by
    unfold dependenciesOf DependsOn topologyOf
    cases invocations[a]? with
    | none => simp
    | some inv => simp
  have hcalls : b ∈ (invocations.toList.filter fun entry => isChildOf a entry.2).map (·.1) ↔
      Calls (topologyOf invocations) a b := by
    simp only [List.mem_map, List.mem_filter, Prod.exists,
      Std.ExtTreeMap.mem_toList_iff_getElem?_eq_some, Calls, topologyOf, isChildOf,
      Option.map_eq_some_iff, Bool.and_eq_true, decide_eq_true_eq]
    constructor
    · rintro ⟨id, inv, ⟨hb, hparent, hrole⟩, rfl⟩
      exact ⟨inv.definition, ⟨inv, hb, rfl⟩, hparent, hrole⟩
    · rintro ⟨_, ⟨inv, hb, rfl⟩, hparent, hrole⟩
      exact ⟨b, inv, ⟨hb, hparent, hrole⟩, rfl⟩
  rw [requiredResults, Std.ExtTreeSet.mem_insertMany_list, Std.ExtTreeSet.mem_ofList,
    List.contains_iff_mem, List.contains_iff_mem, hdeps, hcalls]
  rfl

/-! ### The frame: what a transition does to the topology -/

section Frame

variable {invocations : BTreeMap InvocationSnapshot} {state next : TaskSnapshot}
  {record : FactRecord}

theorem topologyOf_insert (k : String) (inv : InvocationSnapshot) :
    topologyOf (invocations.insert k inv) =
      Function.update (topologyOf invocations) k (some inv.definition) := by
  funext id
  simp only [topologyOf, Std.ExtTreeMap.getElem?_insert, Std.LawfulEqCmp.compare_eq_iff_eq,
    Function.update_apply]
  by_cases h : k = id
  · simp [h]
  · simp [h, Ne.symm h]

theorem topologyOf_insert_same {k : String} {inv inv' : InvocationSnapshot}
    (h : invocations[k]? = some inv) (hdef : inv'.definition = inv.definition) :
    topologyOf (invocations.insert k inv') = topologyOf invocations := by
  rw [topologyOf_insert, hdef]
  apply Function.update_eq_self_iff.2
  simp [topologyOf, h]

theorem topologyOf_map (f : String → InvocationSnapshot → InvocationSnapshot)
    (h : ∀ id inv, (f id inv).definition = inv.definition) :
    topologyOf (invocations.map f) = topologyOf invocations := by
  funext id
  simp only [topologyOf, Std.ExtTreeMap.getElem?_map, Option.map_map]
  congr 1
  funext inv
  exact h id inv

theorem start_topology {binding : AttemptBinding} (h : start state binding = .ok next) :
    next.topology = state.topology := by
  simp only [start, bind_eq_ok, expect_eq_ok, pure_eq_ok] at h
  obtain ⟨_, _, _, _, _, _, _, _, _, _, inv, hinv, _, _, _, _, _, _, _, _, rfl⟩ := h
  exact topologyOf_insert_same hinv rfl

theorem reserve_invocations {binding : AttemptBinding} {maxSteps : ℕ}
    (h : reserve state binding maxSteps record = .ok next) :
    next.invocations = state.invocations := by
  simp only [reserve, bind_eq_ok, pure_eq_ok] at h
  obtain ⟨_, _, _, _, _, _, _, _, rfl⟩ := h
  rfl

theorem observe_topology {observation : AttemptObservation}
    (h : observe state observation record = .ok next) : next.topology = state.topology := by
  simp only [observe, bind_eq_ok, expect_eq_ok, pure_eq_ok] at h
  obtain ⟨_, _, _, _, _, _, _, _, _, _, _, _, _, _, _, _, _, _, _, _, inv, hinv, rfl⟩ := h
  exact topologyOf_insert_same hinv rfl

theorem resume_topology {binding : AttemptBinding} {checkpointId : String}
    (h : resume state binding checkpointId = .ok next) : next.topology = state.topology := by
  simp only [resume, bind_eq_ok, expect_eq_ok, pure_eq_ok] at h
  obtain ⟨_, _, _, _, _, _, _, _, inv, hinv, rfl⟩ := h
  exact topologyOf_insert_same hinv rfl

theorem recover_topology {attemptId why : String} (h : recover state attemptId why = .ok next) :
    next.topology = state.topology := by
  simp only [recover, bind_eq_ok, expect_eq_ok, pure_eq_ok] at h
  obtain ⟨_, _, _, _, _, _, inv, hinv, rfl⟩ := h
  exact topologyOf_insert_same hinv rfl

theorem authorizeRetry_topology {attemptId why : String} {source : ExecutionEvidence}
    (h : authorizeRetry state attemptId source why = .ok next) : next.topology = state.topology := by
  simp only [authorizeRetry, bind_eq_ok, expect_eq_ok, pure_eq_ok] at h
  obtain ⟨_, _, _, _, _, _, inv, hinv, _, _, rfl⟩ := h
  exact topologyOf_insert_same hinv rfl

theorem consume_topology {invocation : String} {result : ConsumedResult}
    (h : consume state invocation result record = .ok next) : next.topology = state.topology := by
  simp only [consume, bind_eq_ok, expect_eq_ok, pure_eq_ok] at h
  obtain ⟨inv, hinv, _, _, _, _, _, _, _, _, rfl⟩ := h
  exact topologyOf_insert_same hinv rfl

theorem consumeTerminal_topology {invocation : String} {result : ConsumedTerminalResult}
    (h : consumeTerminal state invocation result record = .ok next) :
    next.topology = state.topology := by
  simp only [consumeTerminal, bind_eq_ok, expect_eq_ok, pure_eq_ok] at h
  obtain ⟨inv, hinv, _, _, _, _, _, _, _, _, _, _, _, _, rfl⟩ := h
  exact topologyOf_insert_same hinv rfl

theorem cancel_topology {why : String} (h : cancel state why = .ok next) :
    next.topology = state.topology := by
  simp only [cancel, bind_eq_ok, pure_eq_ok] at h
  obtain ⟨_, _, _, _, rfl⟩ := h
  refine topologyOf_map _ fun id inv => ?_
  split_ifs <;> rfl

theorem topology_eq_none {id : String} : state.topology id = none ↔ id ∉ state.invocations := by
  rw [TaskSnapshot.topology, topologyOf, Option.map_eq_none_iff,
    Std.ExtTreeMap.mem_iff_isSome_getElem?, Bool.not_eq_true, Option.isSome_eq_false_iff,
    Option.isNone_iff_eq_none]

theorem checkDependencies_mem {seen deps : List String}
    (h : checkDependencies invocations seen deps = .ok ()) : ∀ b ∈ deps, b ∈ invocations := by
  induction deps generalizing seen with
  | nil => simp
  | cons c deps ih =>
    simp only [checkDependencies, bind_eq_ok, reject_eq_ok, not_or, not_not] at h
    obtain ⟨_, ⟨hc, _⟩, hrest⟩ := h
    exact List.forall_mem_cons.2 ⟨hc, ih hrest⟩

theorem checkRole_parent {d : InvocationDefinition} (h : checkRole state d = .ok ()) {p : String}
    (hp : d.parentInvocationId = some p) : state.topology p ≠ none := by
  by_cases hroot : d.role = .root
  · simp only [checkRole, hroot, if_true, checkRoot, bind_eq_ok, reject_eq_ok, not_or] at h
    obtain ⟨_, _, hparent, _⟩ := h
    exact absurd (by simp [hp]) hparent
  · simp only [checkRole, hroot, if_false, checkChild, bind_eq_ok, expect_eq_ok] at h
    obtain ⟨p', hp', owner, howner, _⟩ := h
    obtain rfl : p = p' := Option.some.inj (hp.symm.trans hp')
    simp [TaskSnapshot.topology, topologyOf, howner]

/-- **What an accepted admission found**: a new identity, an admitted parent for
every role but the root, and admitted dependencies. -/
theorem admitInvocation_topology {d : InvocationDefinition}
    (h : admitInvocation state d = .ok next) :
    state.topology d.invocationId = none ∧
      (∀ p, d.parentInvocationId = some p → state.topology p ≠ none) ∧
      (∀ b ∈ d.dependencies, state.topology b ≠ none) ∧
      next.topology = Function.update state.topology d.invocationId (some d) := by
  simp only [admitInvocation, bind_eq_ok, pure_eq_ok] at h
  obtain ⟨_, havail, _, _, _, _, _, _, _, _, _, hrole, _, hdeps, rfl⟩ := h
  simp only [availableId, bind_eq_ok, reject_eq_ok, not_or] at havail
  obtain ⟨_, _, _, hfresh, _⟩ := havail
  refine ⟨topology_eq_none.2 hfresh, fun p hp => checkRole_parent hrole hp, fun b hb hnone => ?_,
    topologyOf_insert _ _⟩
  exact topology_eq_none.1 hnone (checkDependencies_mem hdeps b hb)

/-- A definition with one more dependency. -/
def InvocationDefinition.withDependency (d : InvocationDefinition) (b : String) :
    InvocationDefinition := { d with dependencies := d.dependencies ++ [b] }

theorem reaches_iff {a b : String} :
    reaches state.invocations a b = true ↔ ReflTransGen (DependsOn state.topology) a b := by
  have hedge : Search.Edge (dependenciesOf state.invocations) = DependsOn state.topology := by
    funext x y
    simp only [Search.Edge, dependenciesOf, DependsOn, TaskSnapshot.topology, topologyOf]
    cases state.invocations[x]? with
    | none => simp
    | some inv => simp
  have hnodes : ∀ x, dependenciesOf state.invocations x ≠ [] → x ∈ state.invocations.keys.toFinset := by
    intro x hx
    rw [List.mem_toFinset, Std.ExtTreeMap.mem_keys, Std.ExtTreeMap.mem_iff_isSome_getElem?]
    unfold dependenciesOf at hx
    cases hinv : state.invocations[x]? with
    | none => simp [hinv] at hx
    | some inv => rfl
  have hcard : state.invocations.keys.toFinset.card + 1 < state.invocations.size + 2 := by
    have hle := List.toFinset_card_le state.invocations.keys
    rw [Std.ExtTreeMap.length_keys] at hle
    omega
  rw [reaches, Search.search_iff hnodes hcard, hedge]

/-- **What an accepted dependency found**: two admitted invocations, the second
not reaching the first along dependencies. -/
theorem addDependency_topology {a b : String} (h : addDependency state a b = .ok next) :
    ∃ d, state.topology a = some d ∧ state.topology b ≠ none ∧
      ¬ReflTransGen (DependsOn state.topology) b a ∧
      next.topology = Function.update state.topology a (some (d.withDependency b)) := by
  simp only [addDependency, bind_eq_ok, expect_eq_ok, reject_eq_ok, pure_eq_ok, not_or,
    not_not] at h
  obtain ⟨inv, hinv, _, ⟨_, hb, _, hreach⟩, rfl⟩ := h
  refine ⟨inv.definition, by simp [TaskSnapshot.topology, topologyOf, hinv],
    fun hnone => topology_eq_none.1 hnone hb, fun hpath => hreach (reaches_iff.2 hpath), ?_⟩
  exact topologyOf_insert _ _

/-- The definitions after an event. -/
def TopologyStep (t t' : Topology) : TaskEvent → Prop
  | .invocationAdmitted d =>
      t d.invocationId = none ∧ (∀ p, d.parentInvocationId = some p → t p ≠ none) ∧
        (∀ b ∈ d.dependencies, t b ≠ none) ∧ t' = Function.update t d.invocationId (some d)
  | .dependencyAdmitted a b =>
      ∃ d, t a = some d ∧ t b ≠ none ∧ ¬ReflTransGen (DependsOn t) b a ∧
        t' = Function.update t a (some (d.withDependency b))
  | _ => t' = t

variable {sha256 : Value → String}

theorem apply_topology {event : TaskEvent} (h : apply sha256 (some state) event record = .ok next) :
    TopologyStep state.topology next.topology event := by
  have hstep : ∃ moved, transition sha256 state record event = .ok moved ∧
      next.topology = moved.topology := by
    cases event with
    | registered definition => simp [apply] at h
    | _ =>
      simp only [apply, bind_eq_ok, pure_eq_ok] at h
      obtain ⟨_, _, moved, hmoved, rfl⟩ := h
      exact ⟨moved, hmoved, rfl⟩
  obtain ⟨moved, hmoved, hnext⟩ := hstep
  rw [hnext]
  cases event with
  | invocationAdmitted d => exact admitInvocation_topology hmoved
  | dependencyAdmitted a b => exact addDependency_topology hmoved
  | registered d => simp [transition] at hmoved
  | executionBudgetConfigured policy =>
    simp only [transition, configure, bind_eq_ok, pure_eq_ok] at hmoved
    obtain ⟨_, _, _, _, rfl⟩ := hmoved
    rfl
  | budgetedAttemptStarted binding maxSteps =>
    simp only [transition, bind_eq_ok] at hmoved
    obtain ⟨reserved, hreserved, hstart⟩ := hmoved
    have hinv := congrArg topologyOf (reserve_invocations hreserved)
    exact (start_topology hstart).trans hinv
  | goalAssessed assessment =>
    simp only [transition, applyAssessment, bind_eq_ok, pure_eq_ok] at hmoved
    obtain ⟨_, _, _, _, _, _, rfl⟩ := hmoved
    rfl
  | attemptStarted binding =>
    simp only [transition, bind_eq_ok] at hmoved
    obtain ⟨_, _, hstart⟩ := hmoved
    exact start_topology hstart
  | attemptObserved observation => exact observe_topology hmoved
  | attemptResumed binding checkpointId => exact resume_topology hmoved
  | recoveryNeeded attemptId why => exact recover_topology hmoved
  | retryAuthorized attemptId source why => exact authorizeRetry_topology hmoved
  | resultConsumed invocationId result => exact consume_topology hmoved
  | terminalResultConsumed invocationId result => exact consumeTerminal_topology hmoved
  | completed evidence =>
    simp only [transition, complete, bind_eq_ok, pure_eq_ok] at hmoved
    obtain ⟨_, _, _, _, _, _, rfl⟩ := hmoved
    rfl
  | cancelled why => exact cancel_topology hmoved
  | failed why =>
    simp only [transition, bind_eq_ok, pure_eq_ok] at hmoved
    obtain ⟨_, _, rfl⟩ := hmoved
    rfl

end Frame

/-! ### Each graph on its own, and both together -/

/-- Dependencies and parents are admitted invocations. -/
structure Closed (t : Topology) : Prop where
  dependencies : ∀ {a d}, t a = some d → ∀ b ∈ d.dependencies, t b ≠ none
  parent : ∀ {a d p}, t a = some d → d.parentInvocationId = some p → t p ≠ none

/-- What an event must not close: an admission a path from a dependency to the
parent, a dependency a path back to the invocation. -/
def Safe (t : Topology) : TaskEvent → Prop
  | .invocationAdmitted d =>
      ∀ p, d.parentInvocationId = some p → d.role ≠ .continuation →
        ∀ b ∈ d.dependencies, ¬ReflTransGen (WaitsFor t) b p
  | .dependencyAdmitted a b => ¬ReflTransGen (WaitsFor t) b a
  | _ => True

section Edges

variable {t t' : Topology} {event : TaskEvent} {d : InvocationDefinition}

theorem Closed.not_waitsFor (hc : Closed t) {n : String} (hn : t n = none) (a : String) :
    ¬WaitsFor t a n := by
  rintro (⟨d, hd, hb⟩ | ⟨d, hd, _⟩)
  · exact hc.dependencies hd n hb hn
  · exact absurd (hn.symm.trans hd) (by simp)

theorem Closed.waitsFor_not (hc : Closed t) {n : String} (hn : t n = none) (a : String) :
    ¬WaitsFor t n a := by
  rintro (⟨d, hd, _⟩ | ⟨d, hd, hparent, _⟩)
  · exact absurd (hn.symm.trans hd) (by simp)
  · exact hc.parent hd hparent hn

theorem dependsOn_admission (hn : t d.invocationId = none) :
    DependsOn (Function.update t d.invocationId (some d)) =
      AddEdges (DependsOn t) d.invocationId {b | b ∈ d.dependencies} := by
  funext a b
  apply propext
  by_cases ha : a = d.invocationId
  · subst ha; simp [DependsOn, AddEdges, hn]
  · simp [DependsOn, AddEdges, ha]

theorem hasParent_admission (hn : t d.invocationId = none) :
    HasParent (Function.update t d.invocationId (some d)) =
      AddEdges (HasParent t) d.invocationId {p | d.parentInvocationId = some p} := by
  funext a b
  apply propext
  by_cases ha : a = d.invocationId
  · subst ha; simp [HasParent, AddEdges, hn]
  · simp [HasParent, AddEdges, ha]

theorem calls_admission (hn : t d.invocationId = none) (a b : String) :
    Calls (Function.update t d.invocationId (some d)) a b ↔ Calls t a b ∨
      (b = d.invocationId ∧ d.parentInvocationId = some a ∧ d.role ≠ .continuation) := by
  by_cases hb : b = d.invocationId
  · subst hb; simp [Calls, hn]
  · simp [Calls, hb]

theorem waitsFor_admission (hn : t d.invocationId = none) (a b : String) :
    WaitsFor (Function.update t d.invocationId (some d)) a b ↔
      AddEdges (WaitsFor t) d.invocationId {b | b ∈ d.dependencies} a b ∨
        (b = d.invocationId ∧ d.parentInvocationId = some a ∧ d.role ≠ .continuation) := by
  rw [WaitsFor, dependsOn_admission hn, calls_admission hn]
  simp only [AddEdges, WaitsFor]
  tauto

theorem dependsOn_update {a b : String} (ha : t a = some d) :
    DependsOn (Function.update t a (some (d.withDependency b))) = AddEdges (DependsOn t) a {b} := by
  funext x y
  apply propext
  by_cases hx : x = a
  · subst hx; simp [DependsOn, AddEdges, ha, InvocationDefinition.withDependency]
  · simp [DependsOn, AddEdges, hx]

theorem hasParent_update {a b : String} (ha : t a = some d) :
    HasParent (Function.update t a (some (d.withDependency b))) = HasParent t := by
  funext x y
  apply propext
  by_cases hx : x = a
  · subst hx; simp [HasParent, ha, InvocationDefinition.withDependency]
  · simp [HasParent, hx]

theorem waitsFor_update {a b : String} (ha : t a = some d) :
    WaitsFor (Function.update t a (some (d.withDependency b))) = AddEdges (WaitsFor t) a {b} := by
  funext x y
  have hcalls : Calls (Function.update t a (some (d.withDependency b))) x y ↔ Calls t x y := by
    by_cases hy : y = a
    · subst hy; simp [Calls, ha, InvocationDefinition.withDependency]
    · simp [Calls, hy]
  rw [WaitsFor, dependsOn_update ha, hcalls]
  simp only [AddEdges, WaitsFor]
  apply propext
  tauto

theorem Closed.step (hc : Closed t) (h : TopologyStep t t' event) : Closed t' := by
  cases event with
  | invocationAdmitted d =>
    obtain ⟨hn, hparent, hdeps, rfl⟩ := h
    have hkeep : ∀ {x}, t x ≠ none → Function.update t d.invocationId (some d) x ≠ none := by
      intro x hx
      rw [Function.update_apply]
      split_ifs
      · simp
      · exact hx
    refine ⟨fun {a d'} ha b hb => hkeep ?_, fun {a d' p} ha hp => hkeep ?_⟩ <;>
      rw [Function.update_apply] at ha <;> split_ifs at ha with hna
    · exact hdeps b (by rwa [Option.some.inj ha])
    · exact hc.dependencies ha b hb
    · exact hparent p (by rwa [Option.some.inj ha])
    · exact hc.parent ha hp
  | dependencyAdmitted x y =>
    obtain ⟨d, hx, hy, _, rfl⟩ := h
    have hkeep : ∀ {z}, t z ≠ none → Function.update t x (some (d.withDependency y)) z ≠ none := by
      intro z hz
      rw [Function.update_apply]
      split_ifs
      · simp
      · exact hz
    refine ⟨fun {a d'} ha b hb => hkeep ?_, fun {a d' p} ha hp => hkeep ?_⟩ <;>
      rw [Function.update_apply] at ha <;> split_ifs at ha with hxa
    · obtain rfl := Option.some.inj ha
      rcases List.mem_append.1 hb with hb | hb
      · exact hc.dependencies hx b hb
      · rw [List.mem_singleton.1 hb]; exact hy
    · exact hc.dependencies ha b hb
    · obtain rfl := Option.some.inj ha
      exact hc.parent hx hp
    · exact hc.parent ha hp
  | _ => exact (show t' = t from h) ▸ hc

/-- **Dependencies stay acyclic**: `admit` adds a new node, and `add_dependency`
checks with `reaches`. -/
theorem dependsOn_step (hc : Closed t) (ha : Acyclic (DependsOn t)) (h : TopologyStep t t' event) :
    Acyclic (DependsOn t') := by
  cases event with
  | invocationAdmitted d =>
    obtain ⟨hn, _, hdeps, rfl⟩ := h
    rw [dependsOn_admission hn, acyclic_addEdges_iff]
    refine ⟨ha, fun b hb => not_reach_of_no_edge_to (fun c hc' => ?_) fun hbn => ?_⟩
    · exact hc.not_waitsFor hn c (Or.inl hc')
    · exact hdeps b hb (hbn ▸ hn)
  | dependencyAdmitted x y =>
    obtain ⟨d, hx, _, hreach, rfl⟩ := h
    rw [dependsOn_update hx, acyclic_addEdges_iff]
    exact ⟨ha, fun b hb => Set.mem_singleton_iff.1 hb ▸ hreach⟩
  | _ => exact (show t' = t from h) ▸ ha

/-- **Ancestry stays acyclic**: a parent is admitted before its child. -/
theorem hasParent_step (hc : Closed t) (ha : Acyclic (HasParent t)) (h : TopologyStep t t' event) :
    Acyclic (HasParent t') := by
  cases event with
  | invocationAdmitted d =>
    obtain ⟨hn, hparent, _, rfl⟩ := h
    rw [hasParent_admission hn, acyclic_addEdges_iff]
    refine ⟨ha, fun p hp => not_reach_of_no_edge_to (fun c hc' => ?_) fun hpn => ?_⟩
    · obtain ⟨d', hd', hp'⟩ := hc'
      exact hc.parent hd' hp' hn
    · exact hparent p hp (hpn ▸ hn)
  | dependencyAdmitted x y =>
    obtain ⟨d, hx, _, _, rfl⟩ := h
    rw [hasParent_update hx]
    exact ha
  | _ => exact (show t' = t from h) ▸ ha

theorem acyclic_new_dependencies (hc : Closed t) (hn : t d.invocationId = none)
    (hdeps : ∀ b ∈ d.dependencies, t b ≠ none) :
    Acyclic (AddEdges (WaitsFor t) d.invocationId {b | b ∈ d.dependencies}) ↔
      Acyclic (WaitsFor t) := by
  rw [acyclic_addEdges_iff]
  refine ⟨fun h => h.1, fun h => ⟨h, fun b hb => ?_⟩⟩
  exact not_reach_of_no_edge_to (hc.not_waitsFor hn) fun hbn => hdeps b hb (hbn ▸ hn)

theorem reach_from_admitted (hc : Closed t) (hn : t d.invocationId = none)
    (hdeps : ∀ b ∈ d.dependencies, t b ≠ none) {p : String} (hp : t p ≠ none) :
    ReflTransGen (AddEdges (WaitsFor t) d.invocationId {b | b ∈ d.dependencies})
        d.invocationId p ↔
      ∃ b ∈ d.dependencies, ReflTransGen (WaitsFor t) b p := by
  constructor
  · intro h
    rcases h.cases_head with rfl | ⟨b, hstep, hrest⟩
    · exact absurd hn hp
    · rcases hstep with hold | ⟨_, hb⟩
      · exact absurd hold (hc.waitsFor_not hn b)
      · refine ⟨b, hb, reach_of_not_reach ?_ hrest⟩
        exact not_reach_of_no_edge_to (hc.not_waitsFor hn) fun hbn => hdeps b hb (hbn ▸ hn)
  · rintro ⟨b, hb, hpath⟩
    exact .head (Or.inr ⟨rfl, hb⟩) (ReflTransGen.mono (fun x y hxy => Or.inl hxy) b p hpath)

/-- **One event keeps the waits-for relation acyclic exactly when it is safe.** -/
theorem waitsFor_step (hc : Closed t) (h : TopologyStep t t' event) :
    Acyclic (WaitsFor t') ↔ Acyclic (WaitsFor t) ∧ Safe t event := by
  cases event with
  | invocationAdmitted d =>
    obtain ⟨hn, hparent, hdeps, rfl⟩ := h
    by_cases hcall : ∃ p, d.parentInvocationId = some p ∧ d.role ≠ .continuation
    · obtain ⟨p, hp, hrole⟩ := hcall
      have hedges : WaitsFor (Function.update t d.invocationId (some d)) =
          AddEdges (AddEdges (WaitsFor t) d.invocationId {b | b ∈ d.dependencies}) p
            {d.invocationId} := by
        funext a b
        apply propext
        rw [waitsFor_admission hn, hp, Option.some.injEq, AddEdges.eq_1 _ p, Set.mem_singleton_iff]
        constructor
        · rintro (hab | ⟨rfl, rfl, _⟩)
          · exact Or.inl hab
          · exact Or.inr ⟨rfl, rfl⟩
        · rintro (hab | ⟨rfl, rfl⟩)
          · exact Or.inl hab
          · exact Or.inr ⟨rfl, rfl, hrole⟩
      rw [hedges, acyclic_addEdges_iff, acyclic_new_dependencies hc hn hdeps]
      refine and_congr_right fun _ => ⟨fun hno p' hp' _ b hb hpath => ?_, fun hsafe y hy => ?_⟩
      · obtain rfl : p = p' := Option.some.inj (hp.symm.trans hp')
        exact hno _ rfl ((reach_from_admitted hc hn hdeps (hparent p hp)).2 ⟨b, hb, hpath⟩)
      · rw [Set.mem_singleton_iff.1 hy, reach_from_admitted hc hn hdeps (hparent p hp)]
        rintro ⟨b, hb, hpath⟩
        exact hsafe p hp hrole b hb hpath
    · have hedges : WaitsFor (Function.update t d.invocationId (some d)) =
          AddEdges (WaitsFor t) d.invocationId {b | b ∈ d.dependencies} := by
        funext a b
        apply propext
        rw [waitsFor_admission hn]
        exact ⟨fun hab => hab.resolve_right fun ⟨_, hp, hrole⟩ => hcall ⟨a, hp, hrole⟩, Or.inl⟩
      rw [hedges, acyclic_new_dependencies hc hn hdeps]
      exact ⟨fun h => ⟨h, fun p hp hrole => absurd ⟨p, hp, hrole⟩ hcall⟩, fun h => h.1⟩
  | dependencyAdmitted x y =>
    obtain ⟨d, hx, _, _, rfl⟩ := h
    rw [waitsFor_update hx, acyclic_addEdges_iff]
    simp [Safe]
  | _ =>
    obtain rfl : t' = t := h
    exact (and_iff_left trivial).symm

end Edges

/-! ### Whole runs -/

section Runs

variable {sha256 : Value → String}

/-- The snapshots replay reaches, with the events that led there, each beside
the snapshot it was applied to.  A record replay skips only moves the position. -/
inductive TaskRun (sha256 : Value → String) : List (TaskSnapshot × TaskEvent) → TaskSnapshot → Prop
  | registered {definition record state}
      (h : apply sha256 none (.registered definition) record = .ok state) :
      TaskRun sha256 [] state
  | event {history state next event record} (run : TaskRun sha256 history state)
      (h : apply sha256 (some state) event record = .ok next) :
      TaskRun sha256 (history ++ [(state, event)]) next
  | skipped {history state} (run : TaskRun sha256 history state) (position : ℕ) :
      TaskRun sha256 history { state with position := position }

/-- The invariant of a run. -/
structure Sound (history : List (TaskSnapshot × TaskEvent)) (t : Topology) : Prop where
  closed : Closed t
  dependencies : Acyclic (DependsOn t)
  ancestry : Acyclic (HasParent t)
  waits : Acyclic (WaitsFor t) ↔ ∀ step ∈ history, Safe step.1.topology step.2

theorem apply_registered_topology {definition : TaskDefinition} {record : FactRecord}
    {state : TaskSnapshot} (h : apply sha256 none (.registered definition) record = .ok state) :
    state.topology = fun _ => none := by
  simp only [apply, bind_eq_ok, pure_eq_ok] at h
  obtain ⟨_, _, rfl⟩ := h
  funext id
  simp [TaskSnapshot.topology, topologyOf, TaskSnapshot.registered]

theorem acyclic_of_empty {r : String → String → Prop} (h : ∀ a b, ¬r a b) : Acyclic r := by
  intro a ha
  obtain ⟨b, hb, _⟩ := TransGen.head'_iff.1 ha
  exact h a b hb

theorem TaskRun.sound {history : List (TaskSnapshot × TaskEvent)} {state : TaskSnapshot}
    (run : TaskRun sha256 history state) : Sound history state.topology := by
  induction run with
  | registered h =>
    rw [apply_registered_topology h]
    have hwaits : Acyclic (WaitsFor fun _ => none) := acyclic_of_empty (by simp [WaitsFor, DependsOn, Calls])
    exact ⟨⟨by simp, by simp⟩, acyclic_of_empty (by simp [DependsOn]),
      acyclic_of_empty (by simp [HasParent]), by simp [hwaits]⟩
  | event run h ih =>
    have hstep := apply_topology h
    refine ⟨ih.closed.step hstep, dependsOn_step ih.closed ih.dependencies hstep,
      hasParent_step ih.closed ih.ancestry hstep, ?_⟩
    rw [waitsFor_step ih.closed hstep, ih.waits, List.forall_mem_append, List.forall_mem_singleton]
  | skipped run position ih => exact ih

/-- **Two distinct DAGs, and when their union is one.**  In every snapshot of a
run dependencies alone and ancestry alone are acyclic.  The results invocations
wait for are acyclic exactly when every event of the run was safe where it was
applied; then no set of invocations only waits for its own members. -/
theorem TaskRun.waits_acyclic_iff {history : List (TaskSnapshot × TaskEvent)}
    {state : TaskSnapshot} (run : TaskRun sha256 history state) :
    Acyclic (DependsOn state.topology) ∧ Acyclic (HasParent state.topology) ∧
      (Acyclic (fun a b => b ∈ requiredResults state.invocations a) ↔
        ∀ step ∈ history, Safe step.1.topology step.2) ∧
      ((∀ step ∈ history, Safe step.1.topology step.2) → ∀ S : Finset String, S.Nonempty →
        ∃ a ∈ S, ∀ b ∈ S, b ∉ requiredResults state.invocations a) := by
  have hsound := run.sound
  have hwaits : (fun a b => b ∈ requiredResults state.invocations a) = WaitsFor state.topology := by
    funext a b
    exact propext mem_requiredResults
  refine ⟨hsound.dependencies, hsound.ancestry, hwaits ▸ hsound.waits, fun hsafe S hS => ?_⟩
  obtain ⟨a, ha, hsink⟩ := (hsound.waits.2 hsafe).exists_sink S hS
  exact ⟨a, ha, fun b hb hab => hsink b hb (mem_requiredResults.1 hab)⟩

def sampleRoot : InvocationDefinition where
  invocationId := "root"
  agent := sampleTask.agent
  constraintsDigest := sampleTask.constraintsDigest
  role := .root
  parentInvocationId := none
  dependencies := []
  inputSource := .standalone ⟨"source", 1, "source"⟩

def sampleChild : InvocationDefinition where
  invocationId := "child"
  agent := sampleTask.agent
  constraintsDigest := sampleTask.constraintsDigest
  role := .selfCall
  parentInvocationId := some "root"
  dependencies := ["root"]
  inputSource := .derived ⟨"source", 1, "source"⟩

def sampleRecord (position : ℕ) : FactRecord :=
  ⟨"task", position, ⟨"f", ⟨"task.task", "task"⟩, "task.registered", 1, true, [], .null⟩⟩

/-- The sample snapshots: registered, with the root, with the child. -/
theorem sample_steps : ∃ s₁ s₂ s₃,
    apply (fun _ => "") none (.registered sampleTask) (sampleRecord 1) = .ok s₁ ∧
      apply (fun _ => "") (some s₁) (.invocationAdmitted sampleRoot) (sampleRecord 2) = .ok s₂ ∧
      apply (fun _ => "") (some s₂) (.invocationAdmitted sampleChild) (sampleRecord 3) = .ok s₃ ∧
      "child" ∈ requiredResults s₃.invocations "root" ∧
      "root" ∈ requiredResults s₃.invocations "child" := by
  have h : (apply (fun _ => "") none (.registered sampleTask) (sampleRecord 1)).toOption.any
      (fun s₁ => (apply (fun _ => "") (some s₁) (.invocationAdmitted sampleRoot)
        (sampleRecord 2)).toOption.any
      fun s₂ => (apply (fun _ => "") (some s₂) (.invocationAdmitted sampleChild)
        (sampleRecord 3)).toOption.any
      fun s₃ => (requiredResults s₃.invocations "root").contains "child" &&
        (requiredResults s₃.invocations "child").contains "root") = true := by
    decide
  simp only [Option.any_eq_true, toOption_eq_some, Bool.and_eq_true,
    Std.ExtTreeSet.contains_iff_mem] at h
  obtain ⟨s₁, h₁, s₂, h₂, s₃, h₃, hchild, hroot⟩ := h
  exact ⟨s₁, s₂, s₃, h₁, h₂, h₃, hchild, hroot⟩

/-- **Not every snapshot of a run has acyclic waiting**: the root and a self-call
that names it as a dependency wait for each other. -/
theorem TaskRun.not_always_acyclic :
    ¬∀ history state, TaskRun (fun _ => "") history state →
      Acyclic (fun a b => b ∈ requiredResults state.invocations a) := by
  intro hall
  obtain ⟨s₁, s₂, s₃, h₁, h₂, h₃, hchild, hroot⟩ := sample_steps
  have hrun := TaskRun.event (TaskRun.event (TaskRun.registered h₁) h₂) h₃
  exact hall _ s₃ hrun "root" (.head hchild (.single hroot))

/-- The root alone waits for nothing. -/
theorem TaskRun.waits_acyclic_root :
    ∃ history state, TaskRun (fun _ => "") history state ∧ "root" ∈ state.invocations ∧
      Acyclic (fun a b => b ∈ requiredResults state.invocations a) := by
  obtain ⟨s₁, s₂, s₃, h₁, h₂, h₃, hchild, hroot⟩ := sample_steps
  have hrun := TaskRun.event (TaskRun.registered h₁) h₂
  refine ⟨_, s₂, hrun, ?_, (TaskRun.waits_acyclic_iff hrun).2.2.1.2 ?_⟩
  · have hstep := apply_topology h₂
    obtain ⟨_, _, _, htopology⟩ := hstep
    refine not_not.1 (mt topology_eq_none.2 ?_)
    simp [htopology, sampleRoot]
  · simp [Safe, sampleRoot]

end Runs

end Tasks
end Kolyan
