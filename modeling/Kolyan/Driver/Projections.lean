/-
# Two readings of an execution's facts

The coordinator folds the facts of an execution up to the first one that ends
it; a cancellation and an uncertain effect are among those.  The Server closes a
Turn of its Session by the first fact of the Turn.  `foldState_ended` says what
the first reads where the second has an answer: the same, unless the coordinator
has stopped early.  A ledger is `Timely` if no completion was committed to an
execution that was cancelled before its Turn had ended; then the Server never
reads a completion where the coordinator reads a cancellation.
-/

import Kolyan.Driver.Sessions

namespace Kolyan
namespace Driver

open Ledger Execution

/-- A fact that the coordinator stops at and the Server reads over. -/
def stopsEarly : LedgerEventKind → Bool
  | .executionCancelled | .effectUncertain => true
  | _ => false

/-- The facts before the first one of the Turn's end. -/
def beforeEnd (facts : List LedgerEvent) : List LedgerEvent := facts.takeWhile fun fact => !endsTurn fact.kind

/-- The first fact that the coordinator stops at before the Turn's end. -/
def earlyStop (facts : List LedgerEvent) : Option LedgerEvent :=
  (beforeEnd facts).find? fun fact => stopsEarly fact.kind

/-- The state that a status stands for. -/
def matchingState : SessionTurnStatus → ExecutionState
  | .running => .running
  | .suspended => .suspended
  | .completed => .completed
  | .cancelled => .cancelled
  | .failed => .failed

section Folding

theorem endsTurn_of_closingStatus {kind : LedgerEventKind} {status : SessionTurnStatus}
    (h : closingStatus kind = some status) : endsTurn kind = true := by
  cases kind <;> first | rfl | exact nomatch h

theorem endsTurn_of_open {kind : LedgerEventKind} (h : closingStatus kind = none) : endsTurn kind = false := by
  cases kind <;> first | rfl | exact nomatch h

theorem nextState_closing {kind : LedgerEventKind} {status : SessionTurnStatus}
    (h : closingStatus kind = some status) (state : ExecutionState) :
    nextState state kind = matchingState status ∧ isTerminal (nextState state kind) = true := by
  cases kind <;> first | (obtain rfl := Option.some.inj h; exact ⟨rfl, rfl⟩) | exact nomatch h

theorem foldState_terminal {state : ExecutionState} (h : isTerminal state = true)
    (facts : List LedgerEvent) : foldState state facts = state := by
  cases facts with
  | nil => rfl
  | cons fact facts => rw [foldState, if_pos h]

theorem foldState_append (state : ExecutionState) (facts more : List LedgerEvent) :
    foldState state (facts ++ more) = foldState (foldState state facts) more := by
  induction facts generalizing state with
  | nil => rfl
  | cons fact facts ih =>
    rw [List.cons_append, foldState, foldState]
    split_ifs with hterm
    · exact (foldState_terminal hterm more).symm
    · exact ih _

/-- **Before the Turn's end**, the coordinator stops at an early stop and
nowhere else. -/
theorem foldState_open {state : ExecutionState} (hstate : isTerminal state = false)
    {facts : List LedgerEvent} (hopen : ∀ fact ∈ facts, endsTurn fact.kind = false) :
    match facts.find? fun fact => stopsEarly fact.kind with
    | none => isTerminal (foldState state facts) = false
    | some fact => foldState state facts = nextState .new fact.kind ∧ isTerminal (foldState state facts) := by
  induction facts generalizing state with
  | nil => exact hstate
  | cons fact facts ih =>
    obtain ⟨hfact, hopen⟩ := List.forall_mem_cons.1 hopen
    have hfold : foldState state (fact :: facts) = foldState (nextState state fact.kind) facts := by
      rw [foldState, hstate]
      rfl
    rw [hfold]
    by_cases hstop : stopsEarly fact.kind = true
    · rw [List.find?_cons_of_pos (p := fun fact : LedgerEvent => stopsEarly fact.kind) hstop]
      have hnext : nextState state fact.kind = nextState .new fact.kind ∧
          isTerminal (nextState state fact.kind) = true := by
        revert hstop
        cases fact.kind <;> first | exact fun _ => ⟨rfl, rfl⟩ | exact fun h => nomatch h
      rw [foldState_terminal hnext.2]
      exact hnext
    · rw [List.find?_cons_of_neg (p := fun fact : LedgerEvent => stopsEarly fact.kind) hstop]
      refine ih ?_ hopen
      revert hstop hfact
      cases fact.kind <;> first | exact fun _ _ => hstate | exact fun _ _ => rfl | simp [endsTurn, stopsEarly]

theorem foldState_ended {facts : List LedgerEvent} {status : SessionTurnStatus}
    (h : terminalStatus facts = some status) :
    foldState .new facts = match earlyStop facts with
      | none => matchingState status
      | some fact => nextState .new fact.kind := by
  obtain ⟨before, event, after, rfl, hclosing, hbefore⟩ := List.findSome?_eq_some_iff.1 h
  have hopen : ∀ fact ∈ before, endsTurn fact.kind = false := fun fact hfact => endsTurn_of_open (hbefore fact hfact)
  have hends : endsTurn event.kind = true := endsTurn_of_closingStatus hclosing
  have hbeforeEnd : beforeEnd (before ++ event :: after) = before := by
    unfold beforeEnd
    rw [List.takeWhile_append_of_pos fun fact hfact => by rw [hopen fact hfact]; rfl,
      List.takeWhile_cons_of_neg (by rw [hends]; exact Bool.false_ne_true), List.append_nil]
  have hnew : isTerminal .new = false := rfl
  have hfolded := foldState_open hnew hopen
  unfold earlyStop
  rw [hbeforeEnd, foldState_append]
  cases hstop : before.find? fun fact => stopsEarly fact.kind with
  | some fact =>
    rw [hstop] at hfolded
    rw [foldState_terminal hfolded.2]
    exact hfolded.1
  | none =>
    rw [hstop] at hfolded
    obtain ⟨hnext, hterminal⟩ := nextState_closing hclosing (foldState .new before)
    rw [foldState, if_neg (by rw [hfolded]; exact Bool.false_ne_true), foldState_terminal hterminal]
    exact hnext

theorem stopsEarly_eq_true {kind : LedgerEventKind} (h : stopsEarly kind = true) :
    kind = .executionCancelled ∧ nextState .new kind = .cancelled ∨
      kind = .effectUncertain ∧ nextState .new kind = .failed := by
  cases kind <;> first | exact .inl ⟨rfl, rfl⟩ | exact .inr ⟨rfl, rfl⟩ | exact nomatch h

end Folding

section Timely

/-- The ledger holds a fact of the end of the execution's Turn. -/
def turnEnded (events : List LedgerEvent) (executionId : String) : Bool :=
  events.any fun event => event.executionId = executionId && endsTurn event.kind

/-- **No completion after a cancellation**: where the execution was cancelled
before, its Turn had ended before too. -/
def Timely (events : List LedgerEvent) : Prop :=
  ∀ before event, before ++ [event] <+: events → event.kind = .turnCompleted →
    hasCancelled before event.executionId = true → turnEnded before event.executionId = true

theorem turnEnded_mono {old new : List LedgerEvent} (h : old <+: new) {executionId : String}
    (hended : turnEnded old executionId = true) : turnEnded new executionId = true := by
  obtain ⟨event, hevent, hends⟩ := List.any_eq_true.1 hended
  exact List.any_eq_true.2 ⟨event, h.subset hevent, hends⟩

theorem Timely.nil : Timely [] := by
  intro before event h
  have := h.length_le
  rw [List.length_append, List.length_singleton, List.length_nil] at this
  omega

theorem Timely.concat {events : List LedgerEvent} (h : Timely events) {event : LedgerEvent}
    (hevent : event.kind = .turnCompleted → hasCancelled events event.executionId = true →
      turnEnded events event.executionId = true) : Timely (events ++ [event]) := by
  intro before last hlast
  rcases List.prefix_concat_iff.1 hlast with heq | hlast
  · obtain ⟨rfl, hsingle⟩ := List.append_inj' heq rfl
    obtain rfl := List.singleton_inj.1 hsingle
    exact hevent
  · exact h before last hlast

theorem Timely.append {old new : List LedgerEvent} {event : LedgerEvent} {r : Except LedgerError LedgerEvent}
    (h : Timely old) (happended : Appended old event new r)
    (hevent : event.kind = .turnCompleted → hasCancelled old event.executionId = true →
      turnEnded old event.executionId = true) : Timely new := by
  cases happended with
  | refused error => exact h
  | committed cursor hfresh => exact h.concat hevent
  | ambiguous cursor message hfresh => exact h.concat hevent

/-- **In a timely ledger** the first fact of a Turn is no completion if its
execution was cancelled before. -/
theorem Timely.not_completed {events : List LedgerEvent} (h : Timely events) {executionId : String} {status : SessionTurnStatus}
    (hstatus : terminalStatus (events.filter fun event => event.executionId = executionId) = some status)
    {fact : LedgerEvent}
    (hstop : earlyStop (events.filter fun event => event.executionId = executionId) = some fact)
    (hcancelled : fact.kind = .executionCancelled) : status ≠ .completed := by
  rintro rfl
  obtain ⟨before, event, after, hfacts, hclosing, hbefore⟩ := List.findSome?_eq_some_iff.1 hstatus
  obtain ⟨pre, post, rfl, hpre, hpost⟩ := List.filter_eq_append_iff.1 hfacts
  obtain ⟨skipped, rest, rfl, hskipped, hevent, -⟩ := List.filter_eq_cons_iff.1 hpost
  have hopen : ∀ e ∈ pre ++ skipped, e.executionId = executionId → endsTurn e.kind = false := by
    intro e he hid
    rcases List.mem_append.1 he with he | he
    · refine endsTurn_of_open (hbefore e ?_)
      rw [← hpre]
      exact List.mem_filter.2 ⟨he, decide_eq_true hid⟩
    · exact absurd (decide_eq_true hid) (hskipped e he)
  have hkind : event.kind = .turnCompleted := by
    revert hclosing
    cases event.kind <;> first | exact fun _ => rfl | exact fun h => nomatch h
  have hid : event.executionId = executionId := of_decide_eq_true hevent
  have hfact : fact ∈ before := by
    have hmem := List.mem_of_find?_eq_some hstop
    rw [hfacts, beforeEnd, List.takeWhile_append_of_pos (fun e he => by rw [endsTurn_of_open (hbefore e he)]; rfl),
      List.takeWhile_cons_of_neg (by rw [hkind]; exact Bool.false_ne_true), List.append_nil] at hmem
    exact hmem
  rw [← hpre] at hfact
  obtain ⟨hfact, hfactId⟩ := List.mem_filter.1 hfact
  have hended := h (pre ++ skipped) event ⟨rest, by simp only [List.append_assoc, List.singleton_append]⟩ hkind
    (List.any_eq_true.2 ⟨fact, List.mem_append_left _ hfact, by
      rw [hid, hcancelled, of_decide_eq_true hfactId, decide_eq_true rfl, decide_eq_true rfl]
      rfl⟩)
  obtain ⟨e, he, hends⟩ := List.any_eq_true.1 hended
  obtain ⟨heId, hends⟩ := Bool.and_eq_true_iff.1 hends
  rw [hopen e he ((of_decide_eq_true heId).trans hid)] at hends
  exact nomatch hends

end Timely

end Driver
end Kolyan
