/-
# A step stream ends with one verdict

Whatever the Provider, the validator, the recorder and the timing of a stop do,
the items of a step stream are a word of a small automaton (`Phase.take`): the
start, then events, then at most one verdict, an error closing the stream at any
place and being the only item that may follow a completion (`stream_obeys`).  A
recorder that refuses the start takes its place with its own error.
-/

import Kolyan.Step.Stream

namespace Kolyan
namespace Step

open Streams

section Phases

/-- How far a step stream is. -/
inductive Phase where
  | fresh | running | completed | closed

/-- The items of a step stream, phase by phase. -/
def Phase.take (stepId : String) : Phase → Item → Option Phase
  | .fresh, .ok (.started id) => if id = stepId then some .running else none
  | .fresh, .error (.recording _) => some .closed
  | .running, .ok (.started _) => none
  | .running, .ok (.completed _) => some .completed
  | .running, .ok (.cancelled _) => some .closed
  | .running, .ok (.timedOut _) => some .closed
  | .running, .ok _ => some .running
  | .running, .error _ => some .closed
  | .completed, .error _ => some .closed
  | _, _ => none

/-- The item is a verdict on the Step. -/
def isVerdict : Item → Bool
  | .ok (.completed _) | .ok (.cancelled _) | .ok (.timedOut _) => true
  | _ => false

/-- The item is an error or a terminal stop. -/
def isLast : Item → Bool
  | .error _ | .ok (.cancelled _) | .ok (.timedOut _) => true
  | _ => false

variable {stepId : String} {x y z : Phase} {item : Item} {items : List Item}

theorem take_closed : Phase.take stepId .closed item = none := by
  cases item <;> rfl

theorem word_closed (h : items.foldlM (Phase.take stepId) .closed = some z) : items = [] := by
  cases items with
  | nil => rfl
  | cons item items => simp [List.foldlM_cons, take_closed] at h

theorem take_completed (h : Phase.take stepId .completed item = some y) :
    y = .closed ∧ ∃ error, item = .error error := by
  cases item with
  | ok event => simp [Phase.take] at h
  | error error => exact ⟨(Option.some.inj h).symm, error, rfl⟩

theorem word_completed (h : items.foldlM (Phase.take stepId) .completed = some z) :
    items = [] ∨ ∃ error, items = [.error error] := by
  cases items with
  | nil => exact Or.inl rfl
  | cons item items =>
    rw [List.foldlM_cons] at h
    obtain ⟨y, hy, h⟩ := Option.bind_eq_some_iff.1 h
    obtain ⟨rfl, error, rfl⟩ := take_completed hy
    exact Or.inr ⟨error, by rw [word_closed h]⟩

theorem take_last (hlast : isLast item = true) (h : Phase.take stepId x item = some y) :
    y = .closed := by
  cases x <;> cases item with
  | error error => cases error <;> simp_all [Phase.take]
  | ok event => cases event <;> simp_all [Phase.take, isLast]

theorem take_completion {result : StepResult}
    (h : Phase.take stepId x (.ok (.completed result)) = some y) : y = .completed := by
  cases x <;> simp_all [Phase.take]

theorem completion_of_verdict (hv : isVerdict item = true) (hl : isLast item = false) :
    ∃ result, item = .ok (.completed result) := by
  match item, hv, hl with
  | .ok (.completed result), _, _ => exact ⟨result, rfl⟩

theorem word_verdicts (h : items.foldlM (Phase.take stepId) x = some z) :
    (items.filter isVerdict).length ≤ 1 := by
  induction items generalizing x with
  | nil => simp
  | cons item items ih =>
    rw [List.foldlM_cons] at h
    obtain ⟨y, hy, hrest⟩ := Option.bind_eq_some_iff.1 h
    cases hv : isVerdict item with
    | false => simpa [List.filter_cons, hv] using ih hrest
    | true =>
      -- what follows a verdict has none
      have hnone : items.filter isVerdict = [] := by
        cases hl : isLast item with
        | true =>
          rw [take_last hl hy] at hrest
          rw [word_closed hrest, List.filter_nil]
        | false =>
          obtain ⟨result, rfl⟩ := completion_of_verdict hv hl
          rw [take_completion hy] at hrest
          rcases word_completed hrest with rfl | ⟨error, rfl⟩ <;> simp [isVerdict]
      rw [List.filter_cons_of_pos hv, hnone]
      rfl

end Phases

section Controlled

namespace ControlledStepStream

variable {out : Outside} {stepId : String} {s s' : ControlledStepStream} {x : Phase} {item : Item}
  {answer : Poll (Option (Except ProviderError ModelEvent))}

/-- The phase of a controlled stream. -/
def phase (s : ControlledStepStream) : Phase :=
  if s.terminal then .closed
  else if !s.started then .fresh
  else if s.completed then .completed
  else .running

/-- A stream that is not closed holds its boundary, and its Provider's stream
unless the opening was stopped; it is not completed before its start. -/
structure Held (stepId : String) (s : ControlledStepStream) : Prop where
  stepId : s.stepId = stepId
  boundary : s.terminal = false → s.boundary = true
  inner : s.terminal = false → s.stopped = none → s.inner = true
  fresh : s.started = false → s.completed = false

/-- The stream is in the phase, or closed. -/
def In (stepId : String) (s : ControlledStepStream) (x : Phase) : Prop :=
  s.Held stepId ∧ (s.terminal = true ∨ s.phase = x)

theorem Held.release (h : s.Held stepId) : s.release.Held stepId where
  stepId := h.stepId
  boundary := nofun
  inner := nofun
  fresh := h.fresh

theorem pollNext_terminal (h : s.terminal = true) : s.pollNext out = some (.ready none, s) := by
  rw [pollNext, if_pos h]

theorem pollNext_fresh (out : Outside) (ht : s.terminal = false) (hs : s.started = false) :
    s.pollNext out =
      some (.ready (some (.ok (.started s.stepId))), { s with started := true }) := by
  simp [pollNext, ht, hs]

/-- **A poll of a started stream** finds a stop, or hands on the Provider's answer. -/
theorem pollNext_started (out : Outside) (h : s.Held stepId) (ht : s.terminal = false) (hs : s.started = true) :
    (∃ stop, s.pollNext out = some (.ready (some (s.stopEvent stop)), s.release)) ∨
      s.pollNext out =
        some (({ s with looks := s.looks + 1 } : ControlledStepStream).receive out
          (out.provider s.looks)) := by
  rw [pollNext, if_neg (by simp [ht]), if_neg (by simp [hs])]
  cases hstopped : s.stopped with
  | some stop => exact Or.inl ⟨stop, by simp [stopNow, hstopped]⟩
  | none =>
    cases hlook : pollStop (out.look s.looks) with
    | some stop => exact Or.inl ⟨stop, by simp [stopNow, hstopped, h.boundary ht, hlook]⟩
    | none =>
      exact Or.inr (by simp [stopNow, hstopped, h.boundary ht, hlook, h.inner ht hstopped])

theorem take_stopEvent (ht : s.terminal = false) (hs : s.started = true) (stop : Stop) :
    Phase.take stepId s.phase (s.stopEvent stop) = some .closed := by
  cases hc : s.completed <;> cases stop <;> simp [phase, ht, hs, hc, stopEvent, Phase.take]

/-- **What a poll makes of the Provider's answer**: nothing, the end, or an item of
the phase. -/
theorem receive_cases (out : Outside) (answer : Poll (Option (Except ProviderError ModelEvent)))
    (h : s.Held stepId) (ht : s.terminal = false) (hs : s.started = true) :
    s.receive out answer = (.pending, s) ∨ s.receive out answer = (.ready none, s.release) ∨
      ∃ item s' y, s.receive out answer = (.ready (some item), s') ∧
        Phase.take stepId s.phase item = some y ∧ s'.Held stepId ∧ s'.phase = y := by
  have hclosed : s.release.phase = .closed := rfl
  rw [receive.eq_def]
  match answer with
  | .pending => exact Or.inl rfl
  | .ready none =>
    cases hc : s.completed with
    | true => exact Or.inr (Or.inl (by simp))
    | false =>
      exact Or.inr (Or.inr ⟨_, _, .closed, rfl, by simp [phase, ht, hs, hc, Phase.take], h.release,
        hclosed⟩)
  | .ready (some (.error error)) =>
    cases hc : s.completed <;>
      exact Or.inr (Or.inr ⟨_, _, .closed, rfl, by simp [phase, ht, hs, hc, Phase.take], h.release,
        hclosed⟩)
  | .ready (some (.ok event)) =>
    cases hc : s.completed with
    | true =>
      exact Or.inr (Or.inr ⟨_, _, .closed, rfl, by simp [phase, ht, hs, hc, Phase.take], h.release,
        hclosed⟩)
    | false =>
      have hrunning : s.phase = .running := by simp [phase, ht, hs, hc]
      simp only [Bool.false_eq_true, if_false]
      rw [hrunning]
      cases event with
      | started => exact Or.inl rfl
      | completed response =>
        dsimp only
        cases hv : out.validate s.modelRequest (resultOf s.stepId response) with
        | error error =>
          exact Or.inr (Or.inr ⟨_, _, .closed, rfl, rfl, h.release, hclosed⟩)
        | ok _ =>
          exact Or.inr (Or.inr ⟨_, _, .completed, rfl, rfl,
            ⟨h.stepId, h.boundary, h.inner, fun hf => by simp [hs] at hf⟩, by simp [phase, ht, hs]⟩)
      | _ => exact Or.inr (Or.inr ⟨_, _, .running, rfl, rfl, h, hrunning⟩)

/-- **The polls of a controlled stream**, by the phase of the stream. -/
theorem pollNext_cases (out : Outside) (h : s.In stepId x) :
    (∃ s', s.pollNext out = some (.pending, s') ∧ s'.In stepId x) ∨
      (∃ s', s.pollNext out = some (.ready none, s') ∧ s'.terminal = true ∧ s'.In stepId x) ∨
      ∃ item s' y, s.pollNext out = some (.ready (some item), s') ∧
        Phase.take stepId x item = some y ∧ s'.In stepId y := by
  obtain ⟨hheld, hphase⟩ := h
  cases ht : s.terminal with
  | true => exact Or.inr (Or.inl ⟨s, pollNext_terminal ht, ht, hheld, Or.inl ht⟩)
  | false =>
    obtain rfl : s.phase = x := hphase.resolve_left (by simp [ht])
    cases hs : s.started with
    | false =>
      refine Or.inr (Or.inr ⟨_, _, .running, pollNext_fresh out ht hs, ?_, ?_, Or.inr ?_⟩)
      · simp [phase, ht, hs, Phase.take, hheld.stepId]
      · exact ⟨hheld.stepId, hheld.boundary, hheld.inner, nofun⟩
      · simp [phase, ht, hheld.fresh hs]
    | true =>
      rcases pollNext_started out hheld ht hs with ⟨stop, hstop⟩ | hpoll
      · exact Or.inr (Or.inr ⟨_, _, .closed, hstop, take_stopEvent ht hs stop, hheld.release,
          Or.inl rfl⟩)
      · have hlooked : ({ s with looks := s.looks + 1 } : ControlledStepStream).Held stepId :=
          ⟨hheld.stepId, hheld.boundary, hheld.inner, hheld.fresh⟩
        rw [hpoll]
        rcases receive_cases out (out.provider s.looks) hlooked ht hs with
          hr | hr | ⟨item, s', y, hr, hy, hheld', hphase'⟩
        · exact Or.inl ⟨_, by rw [hr], hlooked, Or.inr rfl⟩
        · exact Or.inr (Or.inl ⟨_, by rw [hr], rfl, hlooked.release, Or.inl rfl⟩)
        · exact Or.inr (Or.inr ⟨item, s', y, by rw [hr], hy, hheld', Or.inr hphase'⟩)

end ControlledStepStream

end Controlled

section Streams

variable {out : Outside} {stepId : String} {x : Phase} {c c' : ControlledStepStream} {n : ℕ}
  {stream : StepEventStream} {e : StepEvent}

/-- The recorder, if there is one, accepts the event as its `n`-th. -/
def Outside.Accepts (out : Outside) (n : ℕ) (event : StepEvent) : Prop :=
  ∀ record ∈ out.recorder, record n event = .ok ()

/-- The stream is the controlled one, or records it and has recorded `n` events. -/
def Carries (out : Outside) (c : ControlledStepStream) (n : ℕ) : StepEventStream → Prop
  | .controlled s => out.recorder = none ∧ s = c
  | .recording s => out.recorder.isSome ∧ s = { inner := some c, terminal := false, recorded := n }

/-- The stream has ended. -/
def Ended (out : Outside) : StepEventStream → Prop
  | .controlled s => out.recorder = none ∧ s.terminal = true
  | .recording s => out.recorder.isSome ∧ s.terminal = true

theorem poll_ended (h : Ended out stream) : pollNext out stream = some (.ready none, stream) := by
  match stream, h with
  | .controlled s, h =>
    rw [pollNext, ControlledStepStream.pollNext_terminal h.2]
    rfl
  | .recording s, h =>
    obtain ⟨record, hrecord⟩ := Option.isSome_iff_exists.1 h.1
    simp [pollNext, hrecord, RecordingStepStream.pollNext, h.2]

theorem Carries.pending (h : Carries out c n stream) (hc : c.pollNext out = some (.pending, c')) :
    ∃ stream', pollNext out stream = some (.pending, stream') ∧ Carries out c' n stream' := by
  match stream, h with
  | .controlled s, ⟨hnone, hs⟩ =>
    subst hs
    exact ⟨.controlled c', by simp [pollNext, hc], hnone, rfl⟩
  | .recording s, ⟨hsome, hs⟩ =>
    subst hs
    obtain ⟨record, hrecord⟩ := Option.isSome_iff_exists.1 hsome
    exact ⟨.recording { inner := some c', terminal := false, recorded := n },
      by simp [pollNext, hrecord, RecordingStepStream.pollNext, hc], hsome, rfl⟩

theorem Carries.ended (h : Carries out c n stream) (hc : c.pollNext out = some (.ready none, c'))
    (ht : c'.terminal = true) :
    ∃ stream', pollNext out stream = some (.ready none, stream') ∧ Ended out stream' := by
  match stream, h with
  | .controlled s, ⟨hnone, hs⟩ =>
    subst hs
    exact ⟨.controlled c', by simp [pollNext, hc], hnone, ht⟩
  | .recording s, ⟨hsome, hs⟩ =>
    subst hs
    obtain ⟨record, hrecord⟩ := Option.isSome_iff_exists.1 hsome
    exact ⟨.recording { inner := none, terminal := true, recorded := n },
      by simp [pollNext, hrecord, RecordingStepStream.pollNext, hc], hsome, rfl⟩

theorem Carries.fails {error : StepError} (h : Carries out c n stream)
    (hc : c.pollNext out = some (.ready (some (.error error)), c')) (ht : c'.terminal = true) :
    ∃ stream', pollNext out stream = some (.ready (some (.error error)), stream') ∧
      Ended out stream' := by
  match stream, h with
  | .controlled s, ⟨hnone, hs⟩ =>
    subst hs
    exact ⟨.controlled c', by simp [pollNext, hc], hnone, ht⟩
  | .recording s, ⟨hsome, hs⟩ =>
    subst hs
    obtain ⟨record, hrecord⟩ := Option.isSome_iff_exists.1 hsome
    exact ⟨.recording { inner := none, terminal := true, recorded := n },
      by simp [pollNext, hrecord, RecordingStepStream.pollNext, hc], hsome, rfl⟩

theorem Carries.event (h : Carries out c n stream)
    (hc : c.pollNext out = some (.ready (some (.ok e)), c')) (ha : out.Accepts n e) :
    ∃ stream', pollNext out stream = some (.ready (some (.ok e)), stream') ∧
      Carries out c' (n + 1) stream' := by
  match stream, h with
  | .controlled s, ⟨hnone, hs⟩ =>
    subst hs
    exact ⟨.controlled c', by simp [pollNext, hc], hnone, rfl⟩
  | .recording s, ⟨hsome, hs⟩ =>
    subst hs
    obtain ⟨record, hrecord⟩ := Option.isSome_iff_exists.1 hsome
    exact ⟨.recording { inner := some c', terminal := false, recorded := n + 1 },
      by simp [pollNext, hrecord, RecordingStepStream.pollNext, hc, ha record hrecord], hsome, rfl⟩

theorem Carries.refused (h : Carries out c n stream)
    (hc : c.pollNext out = some (.ready (some (.ok e)), c')) (ha : ¬out.Accepts n e) :
    ∃ record error stream', out.recorder = some record ∧ record n e = .error error ∧
      pollNext out stream = some (.ready (some (.error (.recording error))), stream') ∧
        Ended out stream' := by
  obtain ⟨record, hrecord, hrefuses⟩ : ∃ record ∈ out.recorder, record n e ≠ .ok () := by
    simpa [Outside.Accepts] using ha
  obtain ⟨error, herror⟩ : ∃ error, record n e = .error error := by
    cases hr : record n e with
    | error error => exact ⟨error, rfl⟩
    | ok _ => exact absurd hr hrefuses
  match stream, h with
  | .controlled s, ⟨hnone, _⟩ => exact absurd (hnone.symm.trans hrecord) nofun
  | .recording s, ⟨hsome, hs⟩ =>
    subst hs
    exact ⟨record, error, .recording { inner := none, terminal := true, recorded := n + 1 }, hrecord,
      herror,
      by simp [pollNext, Option.mem_def.1 hrecord, RecordingStepStream.pollNext, hc, herror], hsome, rfl⟩

/-- Where a step stream is. -/
def StreamIn (out : Outside) (stepId : String) (stream : StepEventStream) (x : Phase) : Prop :=
  Ended out stream ∨ ∃ c n, Carries out c n stream ∧ c.In stepId x

theorem take_refusal {y : Phase} (error : StepEventRecordError)
    (h : Phase.take stepId x (.ok e) = some y) :
    Phase.take stepId x (.error (.recording error)) = some .closed := by
  cases x <;> simp_all [Phase.take]

theorem terminal_of_closed (h : c.In stepId .closed) : c.terminal = true := by
  rcases h.2 with h | h
  · exact h
  · by_contra hc
    simp only [ControlledStepStream.phase, hc] at h
    split_ifs at h
    simp_all

theorem stream_obeys : Obeys (pollNext out) (Phase.take stepId) (StreamIn out stepId) := by
  intro stream x h
  rcases h with h | ⟨c, n, hcarries, hin⟩
  · exact Or.inr (Or.inl ⟨stream, poll_ended h, Or.inl h⟩)
  · rcases c.pollNext_cases out hin with
      ⟨c', hc, hin'⟩ | ⟨c', hc, ht, hin'⟩ | ⟨item, c', y, hc, hy, hin'⟩
    · obtain ⟨stream', hp, hcarries'⟩ := hcarries.pending hc
      exact Or.inl ⟨stream', hp, Or.inr ⟨c', n, hcarries', hin'⟩⟩
    · obtain ⟨stream', hp, hended⟩ := hcarries.ended hc ht
      exact Or.inr (Or.inl ⟨stream', hp, Or.inl hended⟩)
    · match item, hc, hy with
      | .error error, hc, hy =>
        have hclosed : y = .closed := take_last rfl hy
        obtain ⟨stream', hp, hended⟩ := hcarries.fails hc (terminal_of_closed (hclosed ▸ hin'))
        exact Or.inr (Or.inr ⟨_, stream', y, hp, hy, Or.inl hended⟩)
      | .ok e, hc, hy =>
        by_cases ha : out.Accepts n e
        · obtain ⟨stream', hp, hcarries'⟩ := hcarries.event hc ha
          exact Or.inr (Or.inr ⟨_, stream', y, hp, hy, Or.inr ⟨c', n + 1, hcarries', hin'⟩⟩)
        · obtain ⟨record, error, stream', _, _, hp, hended⟩ := hcarries.refused hc ha
          exact Or.inr (Or.inr ⟨_, stream', .closed, hp, take_refusal error hy, Or.inl hended⟩)

end Streams

end Step
end Kolyan
