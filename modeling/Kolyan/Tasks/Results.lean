/-
# What parents consume

A parent consumes the results of its children and dependencies before it
completes.  Consumption looks at the child once, at the time of the event.  For
a completed child that is enough: nothing changes it afterwards, and
`results_consumed` follows for every run.  A failed child may be started again
after a parent consumed its failure; `consumed_results_faithful_iff` says that
this is the only way in which a consumed result stops being the child's.
-/

import Kolyan.Tasks.Retry

namespace Kolyan
namespace Tasks

open Checks Facts OrderedMaps

/-- An attempt that carries a final observation stopped in the state it reports. -/
def OutcomesKept (attempts : Attempts) : Prop :=
  ∀ (id : String) (attempt : AttemptSnapshot) (o : AttemptObservation), attempts[id]? = some attempt →
    attempt.observation = some o →
    (∀ evidence, o.outcome = .completed evidence → attempt.state = .completed) ∧
    (∀ why safe, o.outcome = .failed why safe → attempt.state = .failed) ∧
    ∀ why, o.outcome = .cancelled why → attempt.state = .cancelled

/-- The entries of a snapshot that name a completed child. -/
structure CompletedResults (state : TaskSnapshot) : Prop where
  consumed : ∀ (p : String) (inv : InvocationSnapshot) (c : String) (result : ConsumedResult),
    state.invocations[p]? = some inv → inv.consumedResults[c]? = some result →
    result.childInvocationId = c ∧ ∃ (child : InvocationSnapshot) (id : String) (attempt : AttemptSnapshot),
      state.invocations[c]? = some child ∧ child.completionFact = some result.completionFact ∧
      child.attempts.getLast? = some id ∧ state.attempts[id]? = some attempt ∧
      attempt.state = .completed ∧ attempt.completedEvidence = some result.evidence
  exclusive : ∀ (p : String) (inv : InvocationSnapshot) (c : String), state.invocations[p]? = some inv →
    ¬(c ∈ inv.consumedResults ∧ c ∈ inv.terminalConsumedResults)
  required : ∀ (p : String) (inv : InvocationSnapshot), state.invocations[p]? = some inv →
    inv.state = .completed → ∀ c, WaitsFor state.topology p c → hasConsumed inv c = true

section Steps

variable {record : FactRecord} {state moved : TaskSnapshot} {event : TaskEvent}

theorem Effect.attempt_origin (h : Effect record state event moved) {id : String}
    {attempt' : AttemptSnapshot} (hattempt' : moved.attempts[id]? = some attempt') :
    (∃ attempt, state.attempts[id]? = some attempt ∧ KeepsAttempt attempt attempt') ∨
      ∃ inv binding, event.starts = some binding ∧ Startable state inv binding ∧
        binding.attemptId = id ∧ attempt' = .started binding := by
  by_cases hid : id ∈ state.attempts
  · obtain ⟨attempt, hattempt⟩ := mem_iff_exists.1 hid
    obtain ⟨next, hnext, hkeeps⟩ := h.keepsAttempt hattempt
    obtain rfl : next = attempt' := Option.some.inj (hnext.symm.trans hattempt')
    exact Or.inl ⟨attempt, hattempt, hkeeps⟩
  · have hstart : ∀ {inv binding}, event.starts = some binding → Startable state inv binding →
        (state.started inv binding).attempts[id]? = some attempt' →
        ∃ inv binding, event.starts = some binding ∧ Startable state inv binding ∧
          binding.attemptId = id ∧ attempt' = .started binding := by
      intro inv binding hstarts hs hlookup
      rw [started_attempts] at hlookup
      split_ifs at hlookup with heq
      · exact ⟨inv, binding, hstarts, hs, heq, (Option.some.inj hlookup).symm⟩
      · exact absurd (mem_of_getElem? hlookup) hid
    have hmove : ∀ {k attempt next}, (state.attempts.insert k next)[id]? = some attempt' →
        state.attempts[k]? = some attempt → False := by
      intro k attempt next hlookup hattempt
      rw [getElem?_insert] at hlookup
      split_ifs at hlookup with heq
      · exact hid (heq ▸ mem_of_getElem? hattempt)
      · exact hid (mem_of_getElem? hlookup)
    cases h with
    | budgeted _ startable => exact Or.inr (hstart rfl startable hattempt')
    | started _ startable => exact Or.inr (hstart rfl startable hattempt')
    | observed o => exact (hmove hattempt' o.lookup).elim
    | resumed r => exact (hmove hattempt' r.lookup).elim
    | recovered lookup _ _ => exact (hmove hattempt' lookup).elim
    | authorized a => exact (hmove hattempt' a.lookup).elim
    | cancelled => exact absurd (Std.ExtTreeMap.mem_map.1 (mem_of_getElem? hattempt')) hid
    | _ => exact absurd (mem_of_getElem? hattempt') hid

/-- What an invocation consumed comes from before the event, or from it. -/
structure Consumed (event : TaskEvent) (p : String) (inv inv' : InvocationSnapshot) : Prop where
  completed : ∀ (c : String) (result : ConsumedResult), inv'.consumedResults[c]? = some result →
    inv.consumedResults[c]? = some result ∨
      event = .resultConsumed p result ∧ result.childInvocationId = c
  terminal : ∀ (c : String) (result : ConsumedTerminalResult),
    inv'.terminalConsumedResults[c]? = some result →
    inv.terminalConsumedResults[c]? = some result ∨
      event = .terminalResultConsumed p result ∧ result.child.invocationId = c

theorem consumed_of_eq {p : String} {inv inv' : InvocationSnapshot}
    (hcompleted : inv'.consumedResults = inv.consumedResults)
    (hterminal : inv'.terminalConsumedResults = inv.terminalConsumedResults) :
    Consumed event p inv inv' :=
  ⟨fun _ _ h => Or.inl (hcompleted ▸ h), fun _ _ h => Or.inl (hterminal ▸ h)⟩

theorem consumed_insert {k p : String} {old new inv' : InvocationSnapshot}
    (hinv' : (state.invocations.insert k new)[p]? = some inv')
    (hold : state.invocations[k]? = some old) (hconsumed : Consumed event k old new) :
    ∃ inv, state.invocations[p]? = some inv ∧ Consumed event p inv inv' := by
  rw [getElem?_insert] at hinv'
  split_ifs at hinv' with heq
  · subst heq
    obtain rfl := Option.some.inj hinv'
    exact ⟨old, hold, hconsumed⟩
  · exact ⟨inv', hinv', consumed_of_eq rfl rfl⟩

/-- **Where an invocation comes from.**  It was admitted by the event, or it was
there before. -/
theorem Effect.invocation_origin (h : Effect record state event moved) {p : String}
    {inv' : InvocationSnapshot} (hinv' : moved.invocations[p]? = some inv') :
    (∃ definition, event = .invocationAdmitted definition ∧ Admissible state definition ∧
      p = definition.invocationId ∧ inv' = .admitted definition) ∨
    ∃ inv, state.invocations[p]? = some inv ∧ Consumed event p inv inv' := by
  cases h with
  | budgeted _ startable => exact Or.inr (consumed_insert hinv' startable.lookup (consumed_of_eq rfl rfl))
  | started _ startable => exact Or.inr (consumed_insert hinv' startable.lookup (consumed_of_eq rfl rfl))
  | @admitted definition admissible =>
    replace hinv' : (state.invocations.insert _ _)[p]? = some inv' := hinv'
    rw [getElem?_insert] at hinv'
    split_ifs at hinv' with heq
    · exact Or.inl ⟨definition, rfl, admissible, heq.symm, (Option.some.inj hinv').symm⟩
    · exact Or.inr ⟨inv', hinv', consumed_of_eq rfl rfl⟩
  | depended lookup _ => exact Or.inr (consumed_insert hinv' lookup (consumed_of_eq rfl rfl))
  | observed o => exact Or.inr (consumed_insert hinv' o.owner (consumed_of_eq rfl rfl))
  | resumed r => exact Or.inr (consumed_insert hinv' r.owner (consumed_of_eq rfl rfl))
  | recovered _ _ owner => exact Or.inr (consumed_insert hinv' owner (consumed_of_eq rfl rfl))
  | authorized a => exact Or.inr (consumed_insert hinv' a.owner (consumed_of_eq rfl rfl))
  | @consumed k result inv child c =>
    refine Or.inr (consumed_insert hinv' c.lookup ⟨fun id r hr => ?_, fun _ _ hr => Or.inl hr⟩)
    rw [getElem?_insert] at hr
    split_ifs at hr with heq
    · obtain rfl := Option.some.inj hr
      exact Or.inr ⟨rfl, heq⟩
    · exact Or.inl hr
  | @consumedTerminal k result inv child attempt observation c =>
    refine Or.inr (consumed_insert hinv' c.lookup ⟨fun _ _ hr => Or.inl hr, fun id r hr => ?_⟩)
    rw [getElem?_insert] at hr
    split_ifs at hr with heq
    · obtain rfl := Option.some.inj hr
      exact Or.inr ⟨rfl, heq⟩
    · exact Or.inl hr
  | cancelled =>
    rw [Std.ExtTreeMap.getElem?_map, Option.map_eq_some_iff] at hinv'
    obtain ⟨inv, hinv, rfl⟩ := hinv'
    refine Or.inr ⟨inv, hinv, ?_⟩
    split_ifs <;> exact consumed_of_eq rfl rfl
  | _ => exact Or.inr ⟨inv', hinv', consumed_of_eq rfl rfl⟩

theorem Effect.observed_state (h : Effect record state event moved) {id : String}
    {o : AttemptObservation} (hobserves : event.observes id = some o) {attempt' : AttemptSnapshot}
    (hattempt' : moved.attempts[id]? = some attempt') :
    ∃ attempt, nextState state attempt o = .ok attempt'.state := by
  cases h with
  | observed ok =>
    rw [TaskEvent.observes_attemptObserved] at hobserves
    split_ifs at hobserves with heq
    obtain rfl := Option.some.inj hobserves
    replace hattempt' : (state.attempts.insert _ _)[id]? = some attempt' := hattempt'
    rw [heq, getElem?_insert_self] at hattempt'
    obtain rfl := Option.some.inj hattempt'
    exact ⟨_, ok.outcome⟩
  | _ => simp [TaskEvent.observes] at hobserves

/-- **An attempt that stopped stays as its last observation reports.** -/
theorem OutcomesKept.step (hk : OutcomesKept state.attempts) (h : Effect record state event moved) :
    OutcomesKept moved.attempts := by
  intro id attempt' o hattempt' ho
  have hobservation := h.observation hattempt'
  rw [ho] at hobservation
  cases hobserves : event.observes id with
  | some o' =>
    rw [hobserves, Option.some_or] at hobservation
    obtain rfl := Option.some.inj hobservation
    obtain ⟨attempt, hnext⟩ := h.observed_state hobserves hattempt'
    rcases nextState_cases hnext with ⟨_, hout, hs⟩ | ⟨_, hout, hs⟩ | ⟨_, _, hout, hs⟩ | ⟨_, hout, hs⟩ |
      ⟨_, hout, hs⟩ <;> rw [hout, hs] <;> simp
  | none =>
    rw [hobserves, Option.none_or] at hobservation
    rcases h.attempt_origin hattempt' with ⟨attempt, hattempt, hkeeps⟩ | ⟨_, _, _, _, _, rfl⟩
    · rw [hattempt, Option.bind_some] at hobservation
      obtain ⟨h₁, h₂, h₃⟩ := hk id attempt o hattempt hobservation.symm
      have hkept : ∀ {s : InvocationState}, attempt.state = s → s.isTerminal = true → attempt'.state = s := by
        rintro _ rfl hend
        refine (hkeeps.stopped fun hlive => ?_).1
        rw [hlive.not_terminal] at hend
        exact absurd hend (by simp)
      exact ⟨fun evidence hout => hkept (h₁ evidence hout) rfl,
        fun why safe hout => hkept (h₂ why safe hout) rfl, fun why hout => hkept (h₃ why hout) rfl⟩
    · simp [AttemptSnapshot.started] at ho

theorem Admissible.parent_open {definition : InvocationDefinition} (h : Admissible state definition)
    {p : String} (hp : definition.parentInvocationId = some p) (hrole : definition.role ≠ .continuation) :
    ∃ owner, state.invocations[p]? = some owner ∧ owner.state.isTerminal = false := by
  have hcheck := h.role
  unfold checkRole at hcheck
  split_ifs at hcheck with hroot
  · simp only [checkRoot, bind_eq_ok, reject_eq_ok, not_or] at hcheck
    obtain ⟨_, _, hnone, _⟩ := hcheck
    exact absurd (by simp [hp]) hnone
  · simp only [checkChild, bind_eq_ok, expect_eq_ok] at hcheck
    obtain ⟨p', hp', owner, howner, _, hopen, _⟩ := hcheck
    obtain rfl : p = p' := Option.some.inj (hp.symm.trans hp')
    refine ⟨owner, howner, ?_⟩
    simpa [checkOwner, hrole] using hopen

/-- **No new results are required of an invocation that ended**: its
dependencies and its children are those it had. -/
theorem Effect.waitsFor_back (h : Effect record state event moved) (ho : state.Owned) (hs : state.InStep)
    {p c : String} {inv inv' : InvocationSnapshot} (hinv : state.invocations[p]? = some inv)
    (hinv' : moved.invocations[p]? = some inv') (hdefinition : inv'.definition = inv.definition)
    (hclosed : inv.state.isTerminal = true ∨ ∀ definition, event ≠ .invocationAdmitted definition)
    (hwaits : WaitsFor moved.topology p c) : WaitsFor state.topology p c := by
  rcases hwaits with ⟨d, hd, hmem⟩ | ⟨d, hd, hparent, hrole⟩
  · left
    simp only [TaskSnapshot.topology, topologyOf, hinv', Option.map_some, Option.some.injEq] at hd
    refine ⟨inv.definition, by simp [TaskSnapshot.topology, topologyOf, hinv], ?_⟩
    rwa [← hdefinition, hd]
  · right
    simp only [TaskSnapshot.topology, topologyOf, Option.map_eq_some_iff] at hd
    obtain ⟨child', hchild', rfl⟩ := hd
    rcases h.invocation_origin hchild' with ⟨definition, rfl, hadmissible, rfl, rfl⟩ | ⟨child, hchild, _⟩
    · rcases hclosed with hend | hno
      · -- a child is not admitted to a parent that ended
        obtain ⟨owner, howner, hopen⟩ := hadmissible.parent_open hparent hrole
        obtain rfl : owner = inv := Option.some.inj (howner.symm.trans hinv)
        rw [hend] at hopen
        exact absurd hopen (by simp)
      · exact absurd rfl (hno definition)
    · obtain ⟨next, hnext, hkeeps⟩ := h.keeps ho hs hchild
      obtain rfl : next = child' := Option.some.inj (hnext.symm.trans hchild')
      exact ⟨child.definition, by simp [TaskSnapshot.topology, topologyOf, hchild],
        hkeeps.parent.symm.trans hparent, fun heq => hrole (hkeeps.role.trans heq)⟩

theorem nextState_completed {attempt : AttemptSnapshot} {observation : AttemptObservation}
    (h : nextState state attempt observation = .ok .completed) {inv : InvocationSnapshot}
    (hinv : state.invocations[attempt.binding.invocationId]? = some inv) :
    ∀ c ∈ requiredResults state.invocations attempt.binding.invocationId, hasConsumed inv c = true := by
  unfold nextState at h
  split at h <;> simp only [bind_eq_ok, expect_eq_ok, reject_eq_ok, pure_eq_ok] at h
  · obtain ⟨_, _, _, _, inv', hinv', _, hall, _⟩ := h
    obtain rfl : inv' = inv := Option.some.inj (hinv'.symm.trans hinv)
    intro c hc
    by_contra hno
    refine hall (List.any_eq_true.2 ⟨c, Std.ExtTreeSet.mem_toList.2 hc, ?_⟩)
    simpa using hno
  all_goals
    obtain ⟨_, _, hstate⟩ := h
    simp at hstate

/-- **An invocation completes with every required result consumed.** -/
theorem Effect.completes (h : Effect record state event moved) {p : String}
    {inv inv' : InvocationSnapshot} (hinv : state.invocations[p]? = some inv)
    (hinv' : moved.invocations[p]? = some inv') (hcompleted : inv'.state = .completed)
    (hbefore : inv.state ≠ .completed) :
    inv'.definition = inv.definition ∧ (∀ definition, event ≠ .invocationAdmitted definition) ∧
      ∀ c ∈ requiredResults state.invocations p, hasConsumed inv c = true := by
  have hmove : ∀ {k new old}, (state.invocations.insert k new)[p]? = some inv' →
      state.invocations[k]? = some old → (new.state = .completed → old.state = .completed) → False := by
    intro k new old hlookup hold hstate
    rw [getElem?_insert] at hlookup
    split_ifs at hlookup with heq
    · subst heq
      obtain rfl := Option.some.inj hlookup
      obtain rfl : old = inv := Option.some.inj (hold.symm.trans hinv)
      exact hbefore (hstate hcompleted)
    · obtain rfl : inv = inv' := Option.some.inj (hinv.symm.trans hlookup)
      exact hbefore hcompleted
  have hsame : state.invocations[p]? = some inv' → False := by
    intro hlookup
    obtain rfl : inv = inv' := Option.some.inj (hinv.symm.trans hlookup)
    exact hbefore hcompleted
  cases h with
  | configured => exact (hsame hinv').elim
  | budgeted _ startable => exact (hmove hinv' startable.lookup (by simp)).elim
  | assessed => exact (hsame hinv').elim
  | @admitted definition admissible =>
    have hkept := getElem?_insert_of_notMem
      (v := InvocationSnapshot.admitted definition) admissible.fresh.invocation hinv
    exact (hsame (hinv.trans (hkept.symm.trans hinv'))).elim
  | depended lookup _ => exact (hmove hinv' lookup id).elim
  | started _ startable => exact (hmove hinv' startable.lookup (by simp)).elim
  | @observed observation attempt old next usage total o =>
    replace hinv' : (state.invocations.insert attempt.binding.invocationId _)[p]? = some inv' := hinv'
    rw [getElem?_insert] at hinv'
    split_ifs at hinv' with heq
    · subst heq
      obtain rfl := Option.some.inj hinv'
      obtain rfl : old = inv := Option.some.inj (o.owner.symm.trans hinv)
      obtain rfl : next = .completed := hcompleted
      exact ⟨rfl, fun definition => by simp, nextState_completed o.outcome o.owner⟩
    · exact (hsame hinv').elim
  | resumed r => exact (hmove hinv' r.owner (by simp)).elim
  | recovered _ _ owner => exact (hmove hinv' owner (by simp)).elim
  | authorized a => exact (hmove hinv' a.owner (by simp)).elim
  | consumed c => exact (hmove hinv' c.lookup id).elim
  | consumedTerminal c => exact (hmove hinv' c.lookup id).elim
  | completed => exact (hsame hinv').elim
  | cancelled =>
    rw [Std.ExtTreeMap.getElem?_map, hinv, Option.map_some, Option.some.injEq] at hinv'
    subst hinv'
    refine absurd ?_ hbefore
    split_ifs at hcompleted
    · unfold InvocationSnapshot.cancelled at hcompleted
      dsimp only at hcompleted
      split_ifs at hcompleted
      exact hcompleted
    · exact hcompleted
  | failed => exact (hsame hinv').elim

/-- The completed child a consumed result names. -/
def CompletedChild (state : TaskSnapshot) (c : String) (result : ConsumedResult) : Prop :=
  ∃ (child : InvocationSnapshot) (id : String) (attempt : AttemptSnapshot),
    state.invocations[c]? = some child ∧ child.completionFact = some result.completionFact ∧
    child.attempts.getLast? = some id ∧ state.attempts[id]? = some attempt ∧
    attempt.state = .completed ∧ attempt.completedEvidence = some result.evidence

theorem CompletedChild.step {c : String} {result : ConsumedResult} (hc : CompletedChild state c result)
    (h : Effect record state event moved) (ho : state.Owned) (hs : state.InStep) :
    CompletedChild moved c result := by
  obtain ⟨child, id, attempt, hchild, hfact, hlast, hattempt, hcompleted, hevidence⟩ := hc
  obtain ⟨child', hchild', hkeeps⟩ := h.keeps ho hs hchild
  obtain ⟨attempt', hattempt', hkept⟩ := h.keepsAttempt hattempt
  have hstate : child.state = .completed := by
    have hsame := (hs.states c child hchild id (List.mem_of_getLast? hlast) attempt hattempt).1
    rw [InvocationSnapshot.stateOf, if_pos hlast] at hsame
    exact hsame.symm.trans hcompleted
  have hlive : ¬attempt.state.IsLive := by
    intro hlive
    have := hlive.not_terminal
    simp [hcompleted, InvocationState.isTerminal] at this
  obtain ⟨_, _, hlist, _, hcompletion⟩ := hkeeps.settled (by rw [hstate]; rfl) fun hfailed => by
    simp [hstate] at hfailed
  obtain ⟨hstate', hobservation⟩ := hkept.stopped hlive
  refine ⟨child', id, attempt', hchild', hcompletion.trans hfact, by rw [hlist, hlast], hattempt',
    hstate'.trans hcompleted, ?_⟩
  unfold AttemptSnapshot.completedEvidence at hevidence ⊢
  rw [hobservation]
  exact hevidence

theorem Consumable.completedChild {p : String} {result : ConsumedResult} {inv child : InvocationSnapshot}
    (h : Consumable state p result inv child) (hk : OutcomesKept state.attempts) :
    CompletedChild state result.childInvocationId result := by
  have hevidence := h.evidence
  unfold childEvidence at hevidence
  cases hlast : child.attempts.getLast? with
  | none => simp [hlast] at hevidence
  | some id =>
    simp only [hlast, bind_eq_ok, expect_eq_ok] at hevidence
    obtain ⟨attempt, hattempt, hevidence⟩ := hevidence
    refine ⟨child, id, attempt, h.source, h.fact, hlast, hattempt, ?_, hevidence⟩
    unfold AttemptSnapshot.completedEvidence at hevidence
    rw [Option.bind_eq_some_iff] at hevidence
    obtain ⟨o, ho, hout⟩ := hevidence
    cases houtcome : o.outcome with
    | completed evidence => exact (hk id attempt o hattempt ho).1 evidence houtcome
    | _ => simp [houtcome] at hout

theorem CompletedResults.step (hr : CompletedResults state) (h : Effect record state event moved)
    (ho : state.Owned) (hs : state.InStep) (hk : OutcomesKept state.attempts) :
    CompletedResults moved := by
  refine ⟨fun p inv' c result hinv' hresult => ?_, fun p inv' c hinv' hboth => ?_,
    fun p inv' hinv' hcompleted c hwaits => ?_⟩
  · have hchild : result.childInvocationId = c ∧ CompletedChild state c result := by
      rcases h.invocation_origin hinv' with ⟨_, _, _, _, rfl⟩ | ⟨inv, hinv, hconsumed⟩
      · simp [InvocationSnapshot.admitted] at hresult
      · rcases hconsumed.completed c result hresult with hold | ⟨rfl, rfl⟩
        · exact hr.consumed p inv c result hinv hold
        · cases h with
          | consumed consumable => exact ⟨rfl, consumable.completedChild hk⟩
    exact ⟨hchild.1, hchild.2.step h ho hs⟩
  · rcases h.invocation_origin hinv' with ⟨_, _, _, _, rfl⟩ | ⟨inv, hinv, hconsumed⟩
    · simp [InvocationSnapshot.admitted] at hboth
    · obtain ⟨result, hresult⟩ := mem_iff_exists.1 hboth.1
      obtain ⟨entry, hentry⟩ := mem_iff_exists.1 hboth.2
      have hfresh : ∀ {m : BTreeMap ConsumedResult} {m' : BTreeMap ConsumedTerminalResult},
          (m.contains c || m'.contains c) = false → c ∉ m ∧ c ∉ m' := by
        intro m m' hno
        obtain ⟨h₁, h₂⟩ := Bool.or_eq_false_iff.1 hno
        rw [← Std.ExtTreeMap.contains_iff_mem, ← Std.ExtTreeMap.contains_iff_mem, h₁, h₂]
        simp
      rcases hconsumed.completed c result hresult with hold | ⟨hevent, hchild⟩ <;>
        rcases hconsumed.terminal c entry hentry with hold' | ⟨heq, hid⟩
      · exact hr.exclusive p inv c hinv ⟨mem_of_getElem? hold, mem_of_getElem? hold'⟩
      · subst heq hid
        cases h with
        | consumedTerminal consumable =>
          obtain rfl := Option.some.inj (consumable.lookup.symm.trans hinv)
          exact (hfresh consumable.fresh).1 (mem_of_getElem? hold)
      · subst hevent hchild
        cases h with
        | consumed consumable =>
          obtain rfl := Option.some.inj (consumable.lookup.symm.trans hinv)
          exact (hfresh consumable.fresh).2 (mem_of_getElem? hold')
      · simp [hevent] at heq
  · rcases h.invocation_origin hinv' with ⟨_, _, _, _, rfl⟩ | ⟨inv, hinv, _⟩
    · simp [InvocationSnapshot.admitted] at hcompleted
    · obtain ⟨next, hnext, hkeeps⟩ := h.keeps ho hs hinv
      obtain rfl : next = inv' := Option.some.inj (hnext.symm.trans hinv')
      have hmono : hasConsumed inv c = true → hasConsumed next c = true := by
        unfold hasConsumed
        simp only [Bool.or_eq_true, Std.ExtTreeMap.contains_iff_mem, mem_iff_exists]
        rintro (⟨result, h₁⟩ | ⟨result, h₁⟩)
        · exact Or.inl ⟨result, hkeeps.consumed c result h₁⟩
        · exact Or.inr ⟨result, hkeeps.consumedTerminal c result h₁⟩
      by_cases hbefore : inv.state = .completed
      · have hend : inv.state.isTerminal = true := by rw [hbefore]; rfl
        obtain ⟨_, hdefinition, _⟩ := hkeeps.settled hend fun hfailed => by simp [hbefore] at hfailed
        exact hmono (hr.required p inv hinv hbefore c
          (h.waitsFor_back ho hs hinv hinv' hdefinition (Or.inl hend) hwaits))
      · obtain ⟨hdefinition, hno, hall⟩ := h.completes hinv hinv' hcompleted hbefore
        have hback := h.waitsFor_back ho hs hinv hinv' hdefinition (Or.inr hno) hwaits
        exact hmono (hall c (mem_requiredResults.2 hback))

end Steps

section Runs

variable {sha256 : Value → String} {history : List (TaskSnapshot × TaskEvent)} {state : TaskSnapshot}

theorem TaskRun.completedResults (run : TaskRun sha256 history state) :
    OutcomesKept state.attempts ∧ CompletedResults state := by
  have hall := run.invariant
    (I := fun state => (state.Owned ∧ state.InStep) ∧ OutcomesKept state.attempts ∧ CompletedResults state)
    (fun definition position _ => ?_) (fun state event record moved h _ heffect => ?_) fun _ _ h => ?_
  · exact hall.2
  · refine ⟨⟨owned_empty, inStep_empty⟩, fun id attempt o h => ?_, ?_⟩
    · simp [TaskSnapshot.registered] at h
    · constructor <;> simp [TaskSnapshot.registered]
  · obtain ⟨⟨ho, hs⟩, hk, hr⟩ := h
    have hkept := hk.step heffect
    have hnext := hr.step heffect ho hs hk
    exact ⟨heffect.inStep ho hs, hkept, hnext.1, hnext.2, hnext.3⟩
  · exact ⟨h.1, h.2.1, h.2.2.1, h.2.2.2, h.2.2.3⟩

theorem TaskRun.started_after_dependencies (run : TaskRun sha256 history state) {id : String}
    {attempt : AttemptSnapshot} (hattempt : state.attempts[id]? = some attempt) :
    ∃ step ∈ history, step.2.starts = some attempt.binding ∧
      ∃ inv, step.1.invocations[attempt.binding.invocationId]? = some inv ∧
        ∀ d ∈ inv.definition.dependencies, hasConsumed inv d = true := by
  induction run generalizing attempt with
  | registered h =>
    simp only [apply, bind_eq_ok, pure_eq_ok] at h
    obtain ⟨_, _, rfl⟩ := h
    simp [TaskSnapshot.registered] at hattempt
  | event run h ih =>
    obtain ⟨_, moved, heffect, rfl⟩ := apply_effect h
    rcases heffect.attempt_origin hattempt with ⟨old, hold, hkeeps⟩ | ⟨inv, binding, hstarts, hs, _, rfl⟩
    · obtain ⟨step, hstep, hevent⟩ := ih hold
      rw [hkeeps.binding]
      exact ⟨step, List.mem_append_left _ hstep, hevent⟩
    · exact ⟨_, List.mem_append_right _ (List.mem_singleton_self _), hstarts, inv, hs.lookup,
        hs.dependencies⟩
  | skipped run position ih => exact ih hattempt

/-- **Results are consumed before completion.**  In every snapshot of a run a
completed invocation has consumed every result it requires there; a consumed
result is the recorded completion of its child, with the child's evidence; no
child is consumed twice; and every attempt was started when all dependencies then
declared were consumed. -/
theorem TaskRun.results_consumed (run : TaskRun sha256 history state) :
    (∀ (p : String) (inv : InvocationSnapshot), state.invocations[p]? = some inv →
      inv.state = .completed → ∀ c ∈ requiredResults state.invocations p, hasConsumed inv c = true) ∧
    (∀ (p : String) (inv : InvocationSnapshot) (c : String) (result : ConsumedResult),
      state.invocations[p]? = some inv → inv.consumedResults[c]? = some result →
      result.childInvocationId = c ∧ ∃ child, state.invocations[c]? = some child ∧
        child.completionFact = some result.completionFact ∧
        childEvidence state child = .ok result.evidence) ∧
    (∀ (p : String) (inv : InvocationSnapshot) (c : String), state.invocations[p]? = some inv →
      ¬(c ∈ inv.consumedResults ∧ c ∈ inv.terminalConsumedResults)) ∧
    (∀ (id : String) (attempt : AttemptSnapshot), state.attempts[id]? = some attempt →
      ∃ step ∈ history, step.2.starts = some attempt.binding ∧
        ∃ inv, step.1.invocations[attempt.binding.invocationId]? = some inv ∧
          ∀ d ∈ inv.definition.dependencies, hasConsumed inv d = true) := by
  obtain ⟨_, hr⟩ := run.completedResults
  refine ⟨fun p inv hinv hcompleted c hc => hr.required p inv hinv hcompleted c (mem_requiredResults.1 hc),
    fun p inv c result hinv hresult => ?_, hr.exclusive, fun _ _ => run.started_after_dependencies⟩
  obtain ⟨hname, child, id, attempt, hchild, hfact, hlast, hattempt, _, hevidence⟩ :=
    hr.consumed p inv c result hinv hresult
  refine ⟨hname, child, hchild, hfact, ?_⟩
  simp [childEvidence, hlast, hattempt, hevidence]

def sampleDelegate : InvocationDefinition :=
  { sampleChild with role := .delegation, dependencies := [] }

def sampleDelegateBinding (attemptId executionId : String) : AttemptBinding :=
  { sampleBinding with
    attemptId := attemptId
    invocationId := "child"
    execution := ⟨"session", "turn", executionId⟩
    inputSource := sampleDelegate.inputSource }

/-- A record of the sample stream with its own identity and causes. -/
def sampleFact (position : ℕ) (factId : String) (causes : List FactRef) : FactRecord :=
  ⟨"task", position, ⟨factId, ⟨"task.task", "task"⟩, "task.event", 1, true, causes, .null⟩⟩

theorem runFrom_run {events : List (TaskEvent × FactRecord)}
    {history : List (TaskSnapshot × TaskEvent)} {state : TaskSnapshot}
    (h : runFrom (fun _ => "") (.registered sampleTask 1) events = .ok (history, state)) :
    TaskRun (fun _ => "") history state := by
  have hempty : sampleEvents [] = .ok ([], .registered sampleTask 1) := rfl
  exact (sampleEvents_run hempty).append h

def sampleCompletion : FactRef := ⟨"task", 6, "child-completed"⟩

def sampleDelegation : List (TaskEvent × FactRecord) :=
  [(.invocationAdmitted sampleRoot, sampleFact 2 "root" []),
    (.attemptStarted sampleBinding, sampleFact 3 "root-start" []),
    (.invocationAdmitted sampleDelegate, sampleFact 4 "child" []),
    (.attemptStarted (sampleDelegateBinding "child-1" "child-execution-1"),
      sampleFact 5 "child-start" []),
    (.attemptObserved (sampleObservation (sampleDelegateBinding "child-1" "child-execution-1") 1
      (.completed [])), sampleFact 6 "child-completed" []),
    (.resultConsumed "root" ⟨"child", sampleCompletion, []⟩, sampleFact 7 "result" [sampleCompletion]),
    (.attemptObserved (sampleObservation sampleBinding 1 (.completed [])),
      sampleFact 8 "root-completed" [])]

/-- A root that completed has consumed the delegation it requires. -/
theorem TaskRun.results_consumed_delegation : ∃ history state inv,
    TaskRun (fun _ => "") history state ∧ state.invocations["root"]? = some inv ∧
      inv.state = .completed ∧ "child" ∈ requiredResults state.invocations "root" ∧
      hasConsumed inv "child" = true := by
  have h : (runFrom (fun _ => "") (.registered sampleTask 1) sampleDelegation).toOption.any (fun run =>
      (run.2.invocations["root"]?).any fun inv => decide (inv.state = .completed) &&
        (requiredResults run.2.invocations "root").contains "child") = true := by
    decide
  simp only [Option.any_eq_true, toOption_eq_some, Bool.and_eq_true, decide_eq_true_eq,
    Std.ExtTreeSet.contains_iff_mem] at h
  obtain ⟨⟨history, state⟩, hrun, inv, hinv, hcompleted, hrequired⟩ := h
  have run := runFrom_run hrun
  exact ⟨history, state, inv, run, hinv, hcompleted, hrequired,
    (TaskRun.results_consumed run).1 "root" inv hinv hcompleted "child" hrequired⟩

end Runs

end Tasks
end Kolyan
