/-
# Consumed results and restarted children

A parent that consumed a terminal result acts on it, and `load_consumed` later
refuses a consumed result whose attempt is not the child's latest or whose fact
is not the child's.  Nothing in the reducer keeps that so: `start` accepts a
failed child whose failure was consumed, adds an attempt and forgets the terminal
fact.  `consumed_results_faithful_iff` is exact: the consumed results of a run
are the children's as long as no event starts an invocation whose terminal
result was consumed, and from the first such event on they are not.
-/

import Kolyan.Tasks.Results

namespace Kolyan
namespace Tasks

open Checks Facts OrderedMaps

/-- A consumed terminal result is that of the child's latest attempt. -/
def CurrentResult (state : TaskSnapshot) (c : String) (entry : ConsumedTerminalResult) : Prop :=
  ∃ (child : InvocationSnapshot) (id : String) (attempt : AttemptSnapshot),
    state.invocations[c]? = some child ∧ child.attempts.getLast? = some id ∧
    state.attempts[id]? = some attempt ∧ attempt.binding = entry.child ∧
    child.terminalFact = some entry.terminalFact

/-- Every consumed result of a snapshot is still the child's result. -/
structure Faithful (state : TaskSnapshot) : Prop where
  terminal : ∀ (p : String) (inv : InvocationSnapshot) (c : String) (entry : ConsumedTerminalResult),
    state.invocations[p]? = some inv → inv.terminalConsumedResults[c]? = some entry →
    CurrentResult state c entry
  completed : ∀ (p : String) (inv : InvocationSnapshot) (c : String) (result : ConsumedResult),
    state.invocations[p]? = some inv → inv.consumedResults[c]? = some result →
    ∃ child, state.invocations[c]? = some child ∧ child.completionFact = some result.completionFact

/-- The event starts an invocation whose terminal result was consumed. -/
def restarts (before : TaskSnapshot) (event : TaskEvent) : Bool :=
  event.starts.any fun binding => before.invocations.values.any fun inv =>
    inv.terminalConsumedResults.contains binding.invocationId

/-- A consumed terminal result names an attempt of the child that ended. -/
def TerminalChild (state : TaskSnapshot) (c : String) (entry : ConsumedTerminalResult) : Prop :=
  ∃ (child : InvocationSnapshot) (id : String) (attempt : AttemptSnapshot),
    state.invocations[c]? = some child ∧ id ∈ child.attempts ∧ state.attempts[id]? = some attempt ∧
    attempt.binding = entry.child ∧ attempt.state.isTerminal = true

/-- Every consumed terminal result names one. -/
def Anchored (state : TaskSnapshot) : Prop :=
  ∀ (p : String) (inv : InvocationSnapshot) (c : String) (entry : ConsumedTerminalResult),
    state.invocations[p]? = some inv → inv.terminalConsumedResults[c]? = some entry →
    TerminalChild state c entry

/-- Some consumed terminal result is of an attempt before the child's latest. -/
def Stale (state : TaskSnapshot) : Prop :=
  ∃ (p : String) (inv : InvocationSnapshot) (c : String) (entry : ConsumedTerminalResult)
    (child : InvocationSnapshot), state.invocations[p]? = some inv ∧
    inv.terminalConsumedResults[c]? = some entry ∧ state.invocations[c]? = some child ∧
    entry.child.attemptId ∈ child.attempts.dropLast

theorem restarts_iff {before : TaskSnapshot} {event : TaskEvent} :
    restarts before event = true ↔ ∃ (binding : AttemptBinding) (p : String) (inv : InvocationSnapshot)
      (entry : ConsumedTerminalResult), event.starts = some binding ∧
      before.invocations[p]? = some inv ∧
      inv.terminalConsumedResults[binding.invocationId]? = some entry := by
  simp only [restarts, Option.any_eq_true, List.any_eq_true, mem_values,
    Std.ExtTreeMap.contains_iff_mem, mem_iff_exists]
  constructor
  · rintro ⟨binding, hstarts, inv, ⟨p, hp⟩, entry, hentry⟩
    exact ⟨binding, p, inv, entry, hstarts, hp, hentry⟩
  · rintro ⟨binding, p, inv, entry, hstarts, hp, hentry⟩
    exact ⟨binding, hstarts, inv, ⟨p, hp⟩, entry, hentry⟩

section Steps

variable {record : FactRecord} {state moved : TaskSnapshot} {event : TaskEvent} {c : String}
  {entry : ConsumedTerminalResult}

theorem OutcomesKept.terminal (hk : OutcomesKept state.attempts) {id : String}
    {attempt : AttemptSnapshot} (hattempt : state.attempts[id]? = some attempt) {o : AttemptObservation}
    (ho : attempt.observation = some o) {d : TerminalResultDisposition}
    (hd : o.outcome.disposition = some d) : attempt.state.isTerminal = true := by
  obtain ⟨h₁, h₂, h₃⟩ := hk id attempt o hattempt ho
  cases hout : o.outcome with
  | completed evidence => rw [h₁ evidence hout]; rfl
  | failed why safe => rw [h₂ why safe hout]; rfl
  | cancelled why => rw [h₃ why hout]; rfl
  | _ => simp [hout, AttemptOutcome.disposition] at hd

theorem TerminalConsumable.current {p : String} {inv child : InvocationSnapshot}
    {attempt : AttemptSnapshot} {observation : AttemptObservation}
    (h : TerminalConsumable state p entry inv child attempt observation)
    (hk : OutcomesKept state.attempts) :
    CurrentResult state entry.child.invocationId entry ∧ TerminalChild state entry.child.invocationId entry := by
  have hend := hk.terminal h.stopped h.observed h.disposition
  exact ⟨⟨child, _, attempt, h.source, h.last, h.stopped, h.bound, h.fact⟩,
    ⟨child, _, attempt, h.source, List.mem_of_getLast? h.last, h.stopped, h.bound, hend⟩⟩

theorem TerminalChild.step (ht : TerminalChild state c entry) (h : Effect record state event moved)
    (ho : state.Owned) (hs : state.InStep) : TerminalChild moved c entry := by
  obtain ⟨child, id, attempt, hchild, hid, hattempt, hbinding, hend⟩ := ht
  obtain ⟨child', hchild', hkeeps⟩ := h.keeps ho hs hchild
  obtain ⟨attempt', hattempt', hkept⟩ := h.keepsAttempt hattempt
  have hlive : ¬attempt.state.IsLive := by
    intro hlive
    rw [hlive.not_terminal] at hend
    exact absurd hend (by simp)
  exact ⟨child', id, attempt', hchild', hkeeps.attempts.subset hid, hattempt',
    hkept.binding.trans hbinding, by rw [(hkept.stopped hlive).1, hend]⟩

/-- **The latest result of a child that ended stays its latest** until the child
is started again. -/
theorem CurrentResult.step (hc : CurrentResult state c entry) (ht : TerminalChild state c entry)
    (h : Effect record state event moved) (ho : state.Owned) (hs : state.InStep)
    (hno : ∀ binding, event.starts = some binding → binding.invocationId ≠ c) :
    CurrentResult moved c entry := by
  obtain ⟨child, id, attempt, hchild, hlast, hattempt, hbinding, hfact⟩ := hc
  obtain ⟨child₂, id₂, attempt₂, hchild₂, hid₂, hattempt₂, hbinding₂, hend⟩ := ht
  obtain rfl : child = child₂ := Option.some.inj (hchild.symm.trans hchild₂)
  have hid := List.mem_of_getLast? hlast
  -- both attempts have the binding of the entry, hence one identity
  have heq : id = id₂ := by
    rw [← (ho.bound hchild hid hattempt).attemptId, ← (ho.bound hchild hid₂ hattempt₂).attemptId,
      hbinding, hbinding₂]
  subst heq
  obtain rfl : attempt = attempt₂ := Option.some.inj (hattempt.symm.trans hattempt₂)
  have hstate : attempt.state = child.state := by
    have hsame := (hs.states c child hchild id hid attempt hattempt).1
    rwa [InvocationSnapshot.stateOf, if_pos hlast] at hsame
  obtain ⟨child', hchild', hkeeps⟩ := h.keeps ho hs hchild
  obtain ⟨attempt', hattempt', hkept⟩ := h.keepsAttempt hattempt
  obtain ⟨_, _, hlist, hterminal, _⟩ := hkeeps.settled (hstate ▸ hend) fun _ => hno
  exact ⟨child', id, attempt', hchild', by rw [hlist, hlast], hattempt', hkept.binding.trans hbinding,
    hterminal.trans hfact⟩

theorem Anchored.step (ha : Anchored state) (h : Effect record state event moved) (ho : state.Owned)
    (hs : state.InStep) (hk : OutcomesKept state.attempts) : Anchored moved := by
  intro p inv' c entry hinv' hentry
  rcases h.invocation_origin hinv' with ⟨_, _, _, _, rfl⟩ | ⟨inv, hinv, hconsumed⟩
  · simp [InvocationSnapshot.admitted] at hentry
  · have hchild : TerminalChild state c entry := by
      rcases hconsumed.terminal c entry hentry with hold | ⟨rfl, rfl⟩
      · exact ha p inv c entry hinv hold
      · cases h with
        | consumedTerminal consumable => exact (consumable.current hk).2
    exact hchild.step h ho hs

/-- **An event that restarts no consumed child keeps consumed results.** -/
theorem Faithful.step (hf : Faithful state) (ha : Anchored state) (h : Effect record state event moved)
    (ho : state.Owned) (hs : state.InStep) (hk : OutcomesKept state.attempts)
    (hr : CompletedResults state) (hno : restarts state event = false) : Faithful moved := by
  constructor
  · intro p inv' c entry hinv' hentry
    rcases h.invocation_origin hinv' with ⟨_, _, _, _, rfl⟩ | ⟨inv, hinv, hconsumed⟩
    · simp [InvocationSnapshot.admitted] at hentry
    · rcases hconsumed.terminal c entry hentry with hold | ⟨rfl, rfl⟩
      · refine (hf.terminal p inv c entry hinv hold).step (ha p inv c entry hinv hold) h ho hs ?_
        rintro binding hstarts rfl
        have hrestarts := restarts_iff.2 ⟨binding, p, inv, entry, hstarts, hinv, hold⟩
        rw [hno] at hrestarts
        exact absurd hrestarts (by simp)
      · obtain ⟨hcurrent, hchild⟩ : CurrentResult state entry.child.invocationId entry ∧
            TerminalChild state entry.child.invocationId entry := by
          cases h with
          | consumedTerminal consumable => exact consumable.current hk
        exact hcurrent.step hchild h ho hs fun binding hstarts => by simp [TaskEvent.starts] at hstarts
  · intro p inv c result hinv hresult
    obtain ⟨_, child, _, _, hchild, hfact, _⟩ := (hr.step h ho hs hk).consumed p inv c result hinv hresult
    exact ⟨child, hchild, hfact⟩

theorem Stale.not_faithful (hst : Stale state) (ho : state.Owned) : ¬Faithful state := by
  obtain ⟨p, inv, c, entry, child, hinv, hentry, hchild, hmem⟩ := hst
  intro hf
  obtain ⟨child₂, id, attempt, hchild₂, hlast, hattempt, hbinding, _⟩ := hf.terminal p inv c entry hinv hentry
  obtain rfl : child = child₂ := Option.some.inj (hchild.symm.trans hchild₂)
  have hid := (ho.bound hchild (List.mem_of_getLast? hlast) hattempt).attemptId
  rw [hbinding] at hid
  exact notMem_dropLast (ho.nodup c child hchild) hlast (hid ▸ hmem)

/-- **Staleness is for ever**: entries stay and attempt lists only grow. -/
theorem Stale.step (hst : Stale state) (h : Effect record state event moved) (ho : state.Owned)
    (hs : state.InStep) : Stale moved := by
  obtain ⟨p, inv, c, entry, child, hinv, hentry, hchild, hmem⟩ := hst
  obtain ⟨inv', hinv', hkeeps⟩ := h.keeps ho hs hinv
  obtain ⟨child', hchild', hkeepsChild⟩ := h.keeps ho hs hchild
  obtain ⟨more, hmore⟩ := hkeepsChild.attempts
  refine ⟨p, inv', c, entry, child', hinv', hkeeps.consumedTerminal c entry hentry, hchild', ?_⟩
  rw [← hmore]
  cases more with
  | nil => rwa [List.append_nil]
  | cons id more =>
    rw [List.dropLast_append_of_ne_nil (by simp)]
    exact List.mem_append_left _ (List.mem_of_mem_dropLast hmem)

theorem stale_of_restarts (ha : Anchored state) (h : Effect record state event moved) (ho : state.Owned)
    (hs : state.InStep) (hrestarts : restarts state event = true) : Stale moved := by
  obtain ⟨binding, p, inv, entry, hstarts, hinv, hentry⟩ := restarts_iff.1 hrestarts
  obtain ⟨child, id, attempt, hchild, hid, hattempt, hbinding, _⟩ := ha p inv _ entry hinv hentry
  obtain ⟨inv', hinv', hkeeps⟩ := h.keeps ho hs hinv
  have hname : entry.child.attemptId = id := by
    rw [← hbinding, (ho.bound hchild hid hattempt).attemptId]
  have hstale : ∀ {old}, Startable state old binding →
      moved.invocations = (state.started old binding).invocations → Stale moved := by
    intro old hstartable htable
    obtain rfl : child = old := Option.some.inj (hchild.symm.trans hstartable.lookup)
    refine ⟨p, inv', binding.invocationId, entry, _, hinv', hkeeps.consumedTerminal _ entry hentry,
      by rw [htable]; exact getElem?_insert_self, ?_⟩
    rw [List.dropLast_concat, hname]
    exact hid
  cases h with
  | budgeted _ startable =>
    obtain rfl := Option.some.inj hstarts
    exact hstale startable rfl
  | started _ startable =>
    obtain rfl := Option.some.inj hstarts
    exact hstale startable rfl
  | _ => simp [TaskEvent.starts] at hstarts

end Steps

section Runs

variable {sha256 : Value → String} {history : List (TaskSnapshot × TaskEvent)} {state : TaskSnapshot}

theorem TaskRun.anchored (run : TaskRun sha256 history state) : Anchored state := by
  induction run with
  | registered h =>
    simp only [apply, bind_eq_ok, pure_eq_ok] at h
    obtain ⟨_, _, rfl⟩ := h
    intro p inv c entry hinv
    simp [TaskSnapshot.registered] at hinv
  | event run h ih =>
    obtain ⟨_, moved, heffect, rfl⟩ := apply_effect h
    obtain ⟨ho, hs⟩ := run.inStep
    have hnext := ih.step heffect ho hs run.completedResults.1
    exact hnext
  | skipped run position ih => exact ih

/-- **A run without a restart keeps consumed results, one with a restart does not.** -/
theorem TaskRun.faithful_or_stale (run : TaskRun sha256 history state) :
    ((∀ step ∈ history, restarts step.1 step.2 = false) → Faithful state) ∧
      ((∃ step ∈ history, restarts step.1 step.2 = true) → Stale state) := by
  induction run with
  | registered h =>
    simp only [apply, bind_eq_ok, pure_eq_ok] at h
    obtain ⟨_, _, rfl⟩ := h
    refine ⟨fun _ => ?_, by simp⟩
    constructor <;> simp [TaskSnapshot.registered]
  | event run h ih =>
    obtain ⟨_, moved, heffect, rfl⟩ := apply_effect h
    obtain ⟨ho, hs⟩ := run.inStep
    obtain ⟨hk, hr⟩ := run.completedResults
    have ha := run.anchored
    rw [List.forall_mem_append, List.forall_mem_singleton]
    constructor
    · rintro ⟨hbefore, hno⟩
      have hnext := (ih.1 hbefore).step ha heffect ho hs hk hr hno
      exact ⟨hnext.terminal, hnext.completed⟩
    · rintro ⟨step, hstep, hrestarts⟩
      rcases List.mem_append.1 hstep with hstep | hstep
      · have hnext := (ih.2 ⟨step, hstep, hrestarts⟩).step heffect ho hs
        exact hnext
      · rw [List.mem_singleton.1 hstep] at hrestarts
        have hnext := stale_of_restarts ha heffect ho hs hrestarts
        exact hnext
  | skipped run position ih =>
    refine ⟨fun h => ?_, ih.2⟩
    have hkept := ih.1 h
    exact ⟨hkept.terminal, hkept.completed⟩

/-- **When a consumed result stays the child's.**  In every run the consumed
results of the snapshot reached are the children's latest exactly when no event
of the run started an invocation whose terminal result was consumed. -/
theorem TaskRun.consumed_results_faithful_iff (run : TaskRun sha256 history state) :
    Faithful state ↔ ∀ step ∈ history, restarts step.1 step.2 = false := by
  refine ⟨fun hf step hstep => ?_, run.faithful_or_stale.1⟩
  by_contra hrestarts
  have hstale := run.faithful_or_stale.2 ⟨step, hstep, by simpa using hrestarts⟩
  exact hstale.not_faithful run.inStep.1 hf

def sampleFailure : FactRef := ⟨"task", 6, "child-failed"⟩

def sampleFeedback : ConsumedTerminalResult where
  parent := sampleBinding
  child := sampleDelegateBinding "child-1" "child-execution-1"
  terminalFact := sampleFailure
  source := ⟨⟨"session", "turn", "child-execution-1"⟩, "stopped", 1⟩
  disposition := .failed "lost"

def sampleConsumption : List (TaskEvent × FactRecord) :=
  [(.invocationAdmitted sampleRoot, sampleFact 2 "root" []),
    (.attemptStarted sampleBinding, sampleFact 3 "root-start" []),
    (.invocationAdmitted sampleDelegate, sampleFact 4 "child" []),
    (.attemptStarted (sampleDelegateBinding "child-1" "child-execution-1"),
      sampleFact 5 "child-start" []),
    (.attemptObserved (sampleObservation (sampleDelegateBinding "child-1" "child-execution-1") 1
      (.failed "lost" true)), sampleFact 6 "child-failed" []),
    (.terminalResultConsumed "root" sampleFeedback, sampleFact 7 "feedback" [sampleFailure])]

def sampleRestart : TaskEvent × FactRecord :=
  (.attemptStarted (sampleDelegateBinding "child-2" "child-execution-2"), sampleFact 8 "child-again" [])

/-- **A consumed result need not stay the child's**: the root consumed the
failure of its delegation, which then starts a second attempt. -/
theorem TaskRun.not_always_faithful :
    ¬∀ history state, TaskRun (fun _ => "") history state → Faithful state := by
  intro hall
  have h : (runFrom (fun _ => "") (.registered sampleTask 1)
      (sampleConsumption ++ [sampleRestart])).toOption.any (fun run =>
        run.1.any fun step => restarts step.1 step.2) = true := by
    decide
  rw [Option.any_eq_true] at h
  obtain ⟨⟨history, state⟩, hrun, hrestarts⟩ := h
  rw [toOption_eq_some] at hrun
  have run := runFrom_run hrun
  have hstale := run.faithful_or_stale.2 (List.any_eq_true.1 hrestarts)
  exact hstale.not_faithful run.inStep.1 (hall history state run)

/-- Until the restart the consumed failure is the delegation's. -/
theorem TaskRun.consumed_results_faithful_feedback : ∃ history state,
    TaskRun (fun _ => "") history state ∧ Faithful state ∧
      (state.invocations["root"]?).any (·.terminalConsumedResults.contains "child") = true := by
  have h : (runFrom (fun _ => "") (.registered sampleTask 1) sampleConsumption).toOption.any (fun run =>
      (run.1.all fun step => !restarts step.1 step.2) &&
        (run.2.invocations["root"]?).any (·.terminalConsumedResults.contains "child")) = true := by
    decide
  rw [Option.any_eq_true] at h
  obtain ⟨⟨history, state⟩, hrun, h⟩ := h
  rw [toOption_eq_some] at hrun
  simp only [Bool.and_eq_true, List.all_eq_true, Bool.not_eq_true'] at h
  obtain ⟨hno, hconsumed⟩ := h
  have run := runFrom_run hrun
  exact ⟨history, state, run, (TaskRun.consumed_results_faithful_iff run).2 hno, hconsumed⟩

end Runs

end Tasks
end Kolyan
