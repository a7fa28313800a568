/-
# When a Step completes

`aggregate_step_stream` answers a result exactly when the Provider completed
cleanly (`CleanEnd`): no stop was seen up to the Provider's end, what the Provider
yielded before it ends with its only completion, the validator accepted that one,
and the recorder accepted every event.  From the second poll on a stream that was
not stopped at its opening is the Provider's stream, looked at before each of its
polls, so what the aggregation still needs from poll `i` on is `Closes`, which
follows the Provider's answers one by one.

Together with the automaton of `Kolyan.Step.Verdict` this is the contract of a step
stream, `stream_ends_once`.  A recorder may refuse the very first event, and the
stream does not begin with its start then (`not_stream_ends_once`).
-/

import Kolyan.Step.Verdict

namespace Kolyan
namespace Step

open Streams

section Providers

/-- What the Provider's stream yields in `n` polls from poll `i` on. -/
def Outside.told (out : Outside) : ℕ → ℕ → List ModelEvent
  | _, 0 => []
  | i, n + 1 =>
      match out.provider i with
      | .ready (some (.ok event)) => event :: out.told (i + 1) n
      | _ => out.told (i + 1) n

/-- The events of a step stream for what the Provider yielded: its start is dropped. -/
def shown (stepId : String) (events : List ModelEvent) : List StepEvent :=
  (events.filter (· ≠ .started)).map (mapModelEvent stepId)

/-- The recorder accepts the events in turn, the first as its `n`-th. -/
def Outside.AcceptsAll (out : Outside) : ℕ → List StepEvent → Prop
  | _, [] => True
  | n, event :: events => out.Accepts n event ∧ out.AcceptsAll (n + 1) events

/-- The Provider's stream ends at its poll `i + n`, without an error before it, and
no stop is seen from look `i` up to that end. -/
structure Outside.RunsOut (out : Outside) (i n : ℕ) : Prop where
  unstopped : ∀ j ≤ n, pollStop (out.look (i + j)) = none
  clean : ∀ j < n, out.provider (i + j) = .pending ∨
    ∃ event, out.provider (i + j) = .ready (some (.ok event))
  ends : out.provider (i + n) = .ready none

/-- The events end with their only completion, and the validator accepts it. -/
def Completes (out : Outside) (request : StepRequest) (events : List ModelEvent) (r : StepResult) :
    Prop :=
  ∃ earlier response, events = earlier ++ [.completed response] ∧
    (∀ response', ModelEvent.completed response' ∉ earlier) ∧ r = resultOf request.stepId response ∧
      out.validate request.modelRequest r = .ok ()

/-- **The Provider completes cleanly**: it ends at its `n`-th poll before any stop is
seen, its last event is its only completion, and validator and recorder accept. -/
structure CleanEnd (out : Outside) (request : StepRequest) (n : ℕ) (r : StepResult) : Prop where
  runsOut : out.RunsOut 0 n
  completes : Completes out request (out.told 0 n) r
  recorded : out.AcceptsAll 0 (.started request.stepId :: shown request.stepId (out.told 0 n))

variable {out : Outside} {request : StepRequest} {i n k : ℕ} {r : StepResult}

theorem Outside.RunsOut.zero (hstop : pollStop (out.look i) = none)
    (hend : out.provider i = .ready none) : out.RunsOut i 0 where
  unstopped j hj := by
    obtain rfl : j = 0 := by omega
    exact hstop
  clean j hj := by omega
  ends := hend

theorem Outside.RunsOut.succ (hstop : pollStop (out.look i) = none)
    (hclean : out.provider i = .pending ∨ ∃ event, out.provider i = .ready (some (.ok event)))
    (h : out.RunsOut (i + 1) n) : out.RunsOut i (n + 1) where
  unstopped j hj := by
    cases j with
    | zero => exact hstop
    | succ j => simpa [Nat.add_assoc, Nat.add_comm 1] using h.unstopped j (by omega)
  clean j hj := by
    cases j with
    | zero => exact hclean
    | succ j => simpa [Nat.add_assoc, Nat.add_comm 1] using h.clean j (by omega)
  ends := by simpa [Nat.add_assoc, Nat.add_comm 1] using h.ends

theorem Outside.RunsOut.tail (h : out.RunsOut i (n + 1)) : out.RunsOut (i + 1) n where
  unstopped j hj := by simpa [Nat.add_assoc, Nat.add_comm 1] using h.unstopped (j + 1) (by omega)
  clean j hj := by simpa [Nat.add_assoc, Nat.add_comm 1] using h.clean (j + 1) (by omega)
  ends := by simpa [Nat.add_assoc, Nat.add_comm 1] using h.ends

end Providers

section Aggregates

variable {out : Outside} {request : StepRequest} {i n k m : ℕ} {b : Option StepResult}
  {r : StepResult} {stream : StepEventStream} {c c' : ControlledStepStream}

/-- The controlled stream that was started and has polled its Provider `i` times. -/
def running (request : StepRequest) (i : ℕ) (completed : Bool) : ControlledStepStream where
  inner := true
  stepId := request.stepId
  modelRequest := request.modelRequest
  boundary := true
  stopped := none
  started := true
  completed := completed
  terminal := false
  looks := i

/-- What the aggregation needs from the Provider's poll `i` on to answer `r`, when it
has the completion `b` and `n` events are recorded. -/
inductive Closes (out : Outside) (request : StepRequest) (r : StepResult) :
    ℕ → ℕ → Option StepResult → Prop
  | ends {i n : ℕ} (hstop : pollStop (out.look i) = none) (hend : out.provider i = .ready none) :
      Closes out request r i n (some r)
  | waits {i n : ℕ} {b : Option StepResult} (hstop : pollStop (out.look i) = none)
      (hpending : out.provider i = .pending)
      (next : Closes out request r (i + 1) n b) : Closes out request r i n b
  | starts {i n : ℕ} (hstop : pollStop (out.look i) = none)
      (hevent : out.provider i = .ready (some (.ok .started)))
      (next : Closes out request r (i + 1) n none) : Closes out request r i n none
  | shows {i n : ℕ} {event : ModelEvent} (hstop : pollStop (out.look i) = none)
      (hevent : out.provider i = .ready (some (.ok event))) (hstarted : event ≠ .started)
      (hcompleted : ∀ response, event ≠ .completed response)
      (haccepts : out.Accepts n (mapModelEvent request.stepId event))
      (next : Closes out request r (i + 1) (n + 1) none) : Closes out request r i n none
  | completes {i n : ℕ} {response : ModelResponse} (hstop : pollStop (out.look i) = none)
      (hevent : out.provider i = .ready (some (.ok (.completed response))))
      (hvalid : out.validate request.modelRequest (resultOf request.stepId response) = .ok ())
      (haccepts : out.Accepts n (.completed (resultOf request.stepId response)))
      (next : Closes out request r (i + 1) (n + 1) (some (resultOf request.stepId response))) :
      Closes out request r i n none

section Polls

theorem running_stopped {done : Bool} {stop : Stop} (h : pollStop (out.look i) = some stop) :
    (running request i done).pollNext out =
      some (.ready (some ((running request i done).stopEvent stop)), (running request i done).release) := by
  simp [ControlledStepStream.pollNext, running, ControlledStepStream.stopNow, h]

theorem running_goes (request : StepRequest) (done : Bool) (h : pollStop (out.look i) = none) :
    (running request i done).pollNext out =
      some ((running request (i + 1) done).receive out (out.provider i)) := by
  simp [ControlledStepStream.pollNext, running, ControlledStepStream.stopNow, h]

/-- The aggregation of the stream answers `r`. -/
def Aggregates (out : Outside) (b : Option StepResult) (stream : StepEventStream) (r : StepResult) :
    Prop :=
  ∃ m, consume (pollNext out) aggregateItem aggregateEnd m b stream = some (.ok r)

theorem consume_ne_ok {item : Item} {stream' : StepEventStream} {e : StepError}
    (hp : pollNext out stream = some (.ready (some item), stream'))
    (he : aggregateItem b item = .error e) :
    consume (pollNext out) aggregateItem aggregateEnd (m + 1) b stream ≠ some (.ok r) := by
  rw [consume_fails hp he]
  simp

theorem Carries.consume_ne_ok {item : Item} {e : StepError} (h : Carries out c n stream)
    (hc : c.pollNext out = some (.ready (some item), c')) (ht : c'.terminal = true)
    (he : aggregateItem b item = .error e) :
    consume (pollNext out) aggregateItem aggregateEnd (m + 1) b stream ≠ some (.ok r) := by
  match item, hc, he with
  | .error error, hc, he =>
    obtain ⟨stream', hp, _⟩ := h.fails hc ht
    exact Kolyan.Step.consume_ne_ok hp he
  | .ok event, hc, he =>
    by_cases ha : out.Accepts n event
    · obtain ⟨stream', hp, _⟩ := h.event hc ha
      exact Kolyan.Step.consume_ne_ok hp he
    · obtain ⟨record, error, stream', _, _, hp, _⟩ := h.refused hc ha
      exact Kolyan.Step.consume_ne_ok hp rfl

theorem aggregateItem_stopEvent (request : StepRequest) (i : ℕ) (b : Option StepResult) (stop : Stop) :
    ∃ e, aggregateItem b ((running request i b.isSome).stopEvent stop) = .error e := by
  cases b <;> cases stop <;> exact ⟨_, rfl⟩

theorem aggregateItem_shown {event : ModelEvent}
    (hcompleted : ∀ response, event ≠ .completed response) :
    aggregateItem none (.ok (mapModelEvent request.stepId event)) = .ok none := by
  cases event with
  | completed response => exact absurd rfl (hcompleted response)
  | _ => rfl

theorem receive_shown {event : ModelEvent} (hstarted : event ≠ .started)
    (hcompleted : ∀ response, event ≠ .completed response) :
    (running request i false).receive out (.ready (some (.ok event))) =
      (.ready (some (.ok (mapModelEvent request.stepId event))), running request i false) := by
  cases event with
  | started => exact absurd rfl hstarted
  | completed response => exact absurd rfl (hcompleted response)
  | _ => rfl

theorem receive_completed {response : ModelResponse}
    (hvalid : out.validate request.modelRequest (resultOf request.stepId response) = .ok ()) :
    (running request i false).receive out (.ready (some (.ok (.completed response)))) =
      (.ready (some (.ok (.completed (resultOf request.stepId response)))), running request i true) := by
  simp [ControlledStepStream.receive, running, hvalid, mapModelEvent]

end Polls

/-- **What `Closes` asks for is enough** for the aggregation to answer. -/
theorem Closes.aggregates (h : Closes out request r i n b)
    (hcarries : Carries out (running request i b.isSome) n stream) : Aggregates out b stream r := by
  induction h generalizing stream with
  | @ends i n hstop hend =>
    have hpoll : (running request i true).pollNext out =
        some (.ready none, (running request (i + 1) true).release) := by
      rw [running_goes _ _ hstop, hend]
      rfl
    obtain ⟨stream', hp, _⟩ := hcarries.ended hpoll rfl
    exact ⟨1, consume_end hp⟩
  | @waits i n b hstop hpending _ ih =>
    have hpoll : (running request i b.isSome).pollNext out =
        some (.pending, running request (i + 1) b.isSome) := by
      rw [running_goes _ _ hstop, hpending]
      rfl
    obtain ⟨stream', hp, hcarries'⟩ := hcarries.pending hpoll
    obtain ⟨m, hm⟩ := ih hcarries'
    exact ⟨m + 1, (consume_pending hp).trans hm⟩
  | @starts i n hstop hevent _ ih =>
    have hpoll : (running request i false).pollNext out =
        some (.pending, running request (i + 1) false) := by
      rw [running_goes _ _ hstop, hevent]
      rfl
    obtain ⟨stream', hp, hcarries'⟩ := hcarries.pending hpoll
    obtain ⟨m, hm⟩ := ih hcarries'
    exact ⟨m + 1, (consume_pending hp).trans hm⟩
  | @shows i n event hstop hevent hstarted hcompleted haccepts _ ih =>
    have hpoll := running_goes request false hstop
    rw [hevent, receive_shown hstarted hcompleted] at hpoll
    obtain ⟨stream', hp, hcarries'⟩ := hcarries.event hpoll haccepts
    obtain ⟨m, hm⟩ := ih hcarries'
    exact ⟨m + 1, (consume_item hp (aggregateItem_shown hcompleted)).trans hm⟩
  | @completes i n response hstop hevent hvalid haccepts _ ih =>
    have hpoll := running_goes request false hstop
    rw [hevent, receive_completed hvalid] at hpoll
    obtain ⟨stream', hp, hcarries'⟩ := hcarries.event hpoll haccepts
    obtain ⟨m, hm⟩ := ih hcarries'
    exact ⟨m + 1, (consume_item hp rfl).trans hm⟩

/-- **And it is needed**: an aggregation that answers followed the Provider to a clean
end. -/
theorem closes_of_consume
    (h : consume (pollNext out) aggregateItem aggregateEnd m b stream = some (.ok r))
    (hcarries : Carries out (running request i b.isSome) n stream) : Closes out request r i n b := by
  induction m generalizing i n b stream with
  | zero => simp [consume] at h
  | succ m ih =>
    cases hstop : pollStop (out.look i) with
    | some stop =>
      obtain ⟨e, he⟩ := aggregateItem_stopEvent request i b stop
      exact absurd h (hcarries.consume_ne_ok (running_stopped hstop) rfl he)
    | none =>
      have hpoll := running_goes request b.isSome hstop
      rcases hprovider : out.provider i with _ | (_ | (error | event))
      · rw [hprovider] at hpoll
        obtain ⟨stream', hp, hcarries'⟩ := hcarries.pending hpoll
        exact .waits hstop hprovider (ih ((consume_pending hp).symm.trans h) hcarries')
      · rw [hprovider] at hpoll
        cases b with
        | none => exact absurd h (hcarries.consume_ne_ok hpoll rfl rfl)
        | some r₀ =>
          obtain ⟨stream', hp, _⟩ := hcarries.ended hpoll rfl
          rw [consume_end hp] at h
          obtain rfl : r₀ = r := Except.ok.inj (Option.some.inj h)
          exact .ends hstop hprovider
      · rw [hprovider] at hpoll
        cases b <;> exact absurd h (hcarries.consume_ne_ok hpoll rfl rfl)
      · rw [hprovider] at hpoll
        cases b with
        | some r₀ => exact absurd h (hcarries.consume_ne_ok hpoll rfl rfl)
        | none =>
          by_cases hstarted : event = .started
          · subst hstarted
            obtain ⟨stream', hp, hcarries'⟩ := hcarries.pending hpoll
            exact .starts hstop hprovider (ih ((consume_pending hp).symm.trans h) hcarries')
          · by_cases hcompleted : ∃ response, event = .completed response
            · obtain ⟨response, rfl⟩ := hcompleted
              cases hvalid : out.validate request.modelRequest (resultOf request.stepId response) with
              | error error =>
                have hfails : (running request (i + 1) false).receive out
                    (.ready (some (.ok (.completed response)))) =
                      (.ready (some (.error (.validation error))),
                        (running request (i + 1) false).release) := by
                  simp [ControlledStepStream.receive, running, hvalid]
                exact absurd h (hcarries.consume_ne_ok (hpoll.trans (congrArg some hfails)) rfl rfl)
              | ok u =>
                rw [Option.isSome_none, receive_completed hvalid] at hpoll
                by_cases ha : out.Accepts n (.completed (resultOf request.stepId response))
                · obtain ⟨stream', hp, hcarries'⟩ := hcarries.event hpoll ha
                  exact .completes hstop hprovider hvalid ha
                    (ih ((consume_item hp rfl).symm.trans h) hcarries')
                · obtain ⟨record, error, stream', _, _, hp, _⟩ := hcarries.refused hpoll ha
                  exact absurd h (consume_ne_ok hp rfl)
            · have hother : ∀ response, event ≠ .completed response := by simpa using hcompleted
              rw [Option.isSome_none, receive_shown hstarted hother] at hpoll
              by_cases ha : out.Accepts n (mapModelEvent request.stepId event)
              · obtain ⟨stream', hp, hcarries'⟩ := hcarries.event hpoll ha
                exact .shows hstop hprovider hstarted hother ha
                  (ih ((consume_item hp (aggregateItem_shown hother)).symm.trans h) hcarries')
              · obtain ⟨record, error, stream', _, _, hp, _⟩ := hcarries.refused hpoll ha
                exact absurd h (consume_ne_ok hp rfl)

/-- What the Provider still has to yield for the answer `r`: nothing after the
completion `b`, and its completion before that. -/
def Needs (out : Outside) (request : StepRequest) (r : StepResult) (n : ℕ) (b : Option StepResult)
    (events : List ModelEvent) : Prop :=
  match b with
  | some r₀ => events = [] ∧ r₀ = r
  | none => Completes out request events r ∧ out.AcceptsAll n (shown request.stepId events)

theorem told_event {event : ModelEvent} (h : out.provider i = .ready (some (.ok event))) (k : ℕ) :
    out.told i (k + 1) = event :: out.told (i + 1) k := by
  rw [Outside.told, h]

theorem told_pending (h : out.provider i = .pending) (k : ℕ) :
    out.told i (k + 1) = out.told (i + 1) k := by
  rw [Outside.told, h]

theorem shown_cons {event : ModelEvent} {events : List ModelEvent} {stepId : String}
    (h : event ≠ .started) :
    shown stepId (event :: events) = mapModelEvent stepId event :: shown stepId events := by
  simp [shown, h]

theorem Completes.cons {event : ModelEvent} {events : List ModelEvent}
    (h : Completes out request events r) (hcompleted : ∀ response, event ≠ .completed response) :
    Completes out request (event :: events) r := by
  obtain ⟨earlier, response, rfl, hearlier, hr, hvalid⟩ := h
  refine ⟨event :: earlier, response, rfl, fun response' hmem => ?_, hr, hvalid⟩
  rcases List.mem_cons.1 hmem with h | h
  · exact hcompleted response' h.symm
  · exact hearlier response' h

theorem Completes.cases_cons {event : ModelEvent} {events : List ModelEvent}
    (h : Completes out request (event :: events) r) :
    (∃ response, event = .completed response ∧ events = [] ∧ r = resultOf request.stepId response ∧
        out.validate request.modelRequest r = .ok ()) ∨
      ((∀ response, event ≠ .completed response) ∧ Completes out request events r) := by
  obtain ⟨earlier, response, hevents, hearlier, hr, hvalid⟩ := h
  cases earlier with
  | nil =>
    obtain ⟨rfl, rfl⟩ : event = .completed response ∧ events = [] := by simpa using hevents
    exact Or.inl ⟨response, rfl, rfl, hr, hvalid⟩
  | cons first earlier =>
    obtain ⟨rfl, rfl⟩ : event = first ∧ events = earlier ++ [.completed response] := by
      simpa using hevents
    refine Or.inr ⟨fun response' heq => hearlier response' (heq ▸ List.mem_cons_self), earlier, response,
      rfl, fun response' hmem => hearlier response' (List.mem_cons_of_mem _ hmem), hr, hvalid⟩

theorem Closes.needs (h : Closes out request r i n b) :
    ∃ k, out.RunsOut i k ∧ Needs out request r n b (out.told i k) := by
  induction h with
  | ends hstop hend => exact ⟨0, .zero hstop hend, rfl, rfl⟩
  | waits hstop hpending _ ih =>
    obtain ⟨k, hruns, hneeds⟩ := ih
    exact ⟨k + 1, .succ hstop (Or.inl hpending) hruns, by rwa [told_pending hpending]⟩
  | starts hstop hevent _ ih =>
    obtain ⟨k, hruns, hcompletes, haccepts⟩ := ih
    refine ⟨k + 1, .succ hstop (Or.inr ⟨_, hevent⟩) hruns, ?_⟩
    rw [told_event hevent]
    exact ⟨hcompletes.cons nofun, by simpa [shown] using haccepts⟩
  | shows hstop hevent hstarted hcompleted haccepts _ ih =>
    obtain ⟨k, hruns, hcompletes, hrest⟩ := ih
    refine ⟨k + 1, .succ hstop (Or.inr ⟨_, hevent⟩) hruns, ?_⟩
    rw [told_event hevent]
    refine ⟨hcompletes.cons hcompleted, ?_⟩
    rw [shown_cons hstarted]
    exact ⟨haccepts, hrest⟩
  | completes hstop hevent hvalid haccepts _ ih =>
    obtain ⟨k, hruns, hnil, rfl⟩ := ih
    refine ⟨k + 1, .succ hstop (Or.inr ⟨_, hevent⟩) hruns, ?_⟩
    rw [told_event hevent, hnil]
    exact ⟨⟨[], _, rfl, by simp, rfl, hvalid⟩, haccepts, trivial⟩

theorem Closes.of_needs (hruns : out.RunsOut i k) (h : Needs out request r n b (out.told i k)) :
    Closes out request r i n b := by
  induction k generalizing i n b with
  | zero =>
    cases b with
    | none =>
      obtain ⟨⟨earlier, response, hnil, _⟩, _⟩ := h
      simp [Outside.told] at hnil
    | some r₀ =>
      obtain ⟨_, rfl⟩ := h
      exact .ends (hruns.unstopped 0 le_rfl) hruns.ends
  | succ k ih =>
    have hstop : pollStop (out.look i) = none := hruns.unstopped 0 (Nat.zero_le _)
    rcases hruns.clean 0 (Nat.succ_pos k) with hpending | ⟨event, hevent⟩
    · rw [told_pending (i := i) hpending] at h
      exact .waits hstop hpending (ih hruns.tail h)
    · rw [told_event (i := i) hevent] at h
      cases b with
      | some r₀ => exact absurd h.1 (List.cons_ne_nil _ _)
      | none =>
        obtain ⟨hcompletes, haccepts⟩ := h
        rcases hcompletes.cases_cons with ⟨response, rfl, hnil, rfl, hvalid⟩ | ⟨hother, hrest⟩
        · rw [shown_cons (by simp)] at haccepts
          exact .completes hstop hevent hvalid haccepts.1 (ih hruns.tail ⟨hnil, rfl⟩)
        · by_cases hstarted : event = .started
          · subst hstarted
            exact .starts hstop hevent (ih hruns.tail ⟨hrest, by simpa [shown] using haccepts⟩)
          · rw [shown_cons hstarted] at haccepts
            exact .shows hstop hevent hstarted hother haccepts.1 (ih hruns.tail ⟨hrest, haccepts.2⟩)

end Aggregates

section Contract

variable {out : Outside} {opening : Opening} {request : StepRequest} {stream : StepEventStream}
  {c : ControlledStepStream} {m n : ℕ} {r : StepResult}

/-- A stream that was opened but not polled yet. -/
def opened (request : StepRequest) (inner : Bool) (stopped : Option Stop) : ControlledStepStream where
  inner := inner
  stepId := request.stepId
  modelRequest := request.modelRequest
  boundary := true
  stopped := stopped
  started := false
  completed := false
  terminal := false
  looks := 0

/-- **What a Step starts with**: a stopped stream, or the Provider's. -/
theorem startWithControl_cases (h : startWithControl out opening request = .ok stream) :
    (∃ stop, opening = .stopped stop ∧ Carries out (opened request false (some stop)) 0 stream) ∨
      (opening = .answered (.ok ()) ∧ Carries out (opened request true none) 0 stream) := by
  rw [startWithControl] at h
  split_ifs at h
  match opening, h with
  | .stopped stop, h =>
    refine Or.inl ⟨stop, rfl, ?_⟩
    cases hrecorder : out.recorder <;> simp only [hrecorder] at h <;>
      exact Except.ok.inj h ▸ ⟨by simp [hrecorder], rfl⟩
  | .answered (.ok ()), h =>
    refine Or.inr ⟨rfl, ?_⟩
    cases hrecorder : out.recorder <;> simp only [hrecorder] at h <;>
      exact Except.ok.inj h ▸ ⟨by simp [hrecorder], rfl⟩

theorem first_poll {inner : Bool} {stopped : Option Stop}
    (h : Carries out (opened request inner stopped) 0 stream) :
    (out.Accepts 0 (.started request.stepId) ∧ ∃ stream',
        pollNext out stream = some (.ready (some (.ok (.started request.stepId))), stream') ∧
          Carries out { opened request inner stopped with started := true } 1 stream') ∨
      (¬out.Accepts 0 (.started request.stepId) ∧ ∃ record error stream', out.recorder = some record ∧
        record 0 (.started request.stepId) = .error error ∧
          pollNext out stream = some (.ready (some (.error (.recording error))), stream') ∧
            Ended out stream') := by
  have hpoll := (opened request inner stopped).pollNext_fresh out rfl rfl
  by_cases ha : out.Accepts 0 (.started request.stepId)
  · exact Or.inl ⟨ha, h.event hpoll ha⟩
  · exact Or.inr ⟨ha, h.refused hpoll ha⟩

theorem items_ended (h : Ended out stream) : items (pollNext out) n stream = [] := by
  induction n with
  | zero => rfl
  | succ n ih => rw [items_end (poll_ended h), ih]

/-- What the items of a step stream look like, however often it is polled. -/
structure OneVerdict (out : Outside) (request : StepRequest) (items : List Item) : Prop where
  begins : items = [] ∨ (∃ rest, items = .ok (.started request.stepId) :: rest) ∨
    ∃ record error, out.recorder = some record ∧ record 0 (.started request.stepId) = .error error ∧
      items = [.error (.recording error)]
  single : (items.filter isVerdict).length ≤ 1
  silent : ∀ before item after, items = before ++ item :: after → isLast item = true → after = []
  completed : ∀ before result after, items = before ++ .ok (.completed result) :: after →
    ∀ event, .ok event ∉ after

theorem Carries.fresh {inner : Bool} {stopped : Option Stop} (hinner : stopped = none → inner = true)
    (h : Carries out (opened request inner stopped) 0 stream) :
    StreamIn out request.stepId stream .fresh :=
  Or.inr ⟨_, 0, h, ⟨rfl, fun _ => rfl, fun _ => hinner, fun _ => rfl⟩, Or.inr rfl⟩

theorem answers_of_carries {inner : Bool} {stopped : Option Stop} (hinner : stopped = none → inner = true)
    (h : Carries out (opened request inner stopped) 0 stream) (n : ℕ) :
    (after (pollNext out) n stream).isSome :=
  Obeys.answers_after stream_obeys n (h.fresh hinner)

theorem oneVerdict_of_carries {inner : Bool} {stopped : Option Stop}
    (hinner : stopped = none → inner = true)
    (h : Carries out (opened request inner stopped) 0 stream) (n : ℕ) :
    OneVerdict out request (items (pollNext out) n stream) := by
  have hin := h.fresh hinner
  obtain ⟨z, hz⟩ := Obeys.items stream_obeys n hin
  refine ⟨?_, word_verdicts hz, fun before item after heq hlast => ?_,
    fun before result after heq event hmem => ?_⟩
  · cases n with
    | zero => exact Or.inl rfl
    | succ n =>
      rcases first_poll h with ⟨_, stream', hp, _⟩ | ⟨_, record, error, stream', hrecord, herror, hp, hended⟩
      · exact Or.inr (Or.inl ⟨items (pollNext out) n stream', items_item hp⟩)
      · exact Or.inr (Or.inr ⟨record, error, hrecord, herror, by rw [items_item hp, items_ended hended]⟩)
  · obtain ⟨y, y', _, hy', hafter⟩ := word_split (heq ▸ hz)
    rw [take_last hlast hy'] at hafter
    exact word_closed hafter
  · obtain ⟨y, y', _, hy', hafter⟩ := word_split (heq ▸ hz)
    rw [take_completion hy'] at hafter
    rcases word_completed hafter with rfl | ⟨error, rfl⟩ <;> simp at hmem

theorem not_aggregates_stopped {stop : Stop}
    (h : Carries out (opened request false (some stop)) 0 stream) : ¬Aggregates out none stream r := by
  rintro ⟨m, hm⟩
  cases m with
  | zero => simp [consume] at hm
  | succ m =>
    rcases first_poll h with ⟨_, stream', hp, hcarries⟩ | ⟨_, record, error, stream', _, _, hp, _⟩
    · rw [consume_item hp rfl] at hm
      cases m with
      | zero => simp [consume] at hm
      | succ m =>
        cases stop <;> exact hcarries.consume_ne_ok rfl rfl rfl hm
    · exact consume_ne_ok hp rfl hm

theorem aggregates_iff (h : Carries out (opened request true none) 0 stream) :
    Aggregates out none stream r ↔ ∃ n, CleanEnd out request n r := by
  constructor
  · rintro ⟨m, hm⟩
    cases m with
    | zero => simp [consume] at hm
    | succ m =>
      rcases first_poll h with ⟨ha, stream', hp, hcarries⟩ | ⟨_, record, error, stream', _, _, hp, _⟩
      · rw [consume_item hp rfl] at hm
        obtain ⟨k, hruns, hcompletes, haccepts⟩ := (closes_of_consume hm hcarries).needs
        exact ⟨k, hruns, hcompletes, ha, haccepts⟩
      · exact absurd hm (consume_ne_ok hp rfl)
  · rintro ⟨n, hruns, hcompletes, ha, haccepts⟩
    rcases first_poll h with ⟨_, stream', hp, hcarries⟩ | ⟨hna, _⟩
    · obtain ⟨m, hm⟩ := (Closes.of_needs (b := none) hruns ⟨hcompletes, haccepts⟩).aggregates hcarries
      exact ⟨m + 1, (consume_item hp rfl).trans hm⟩
    · exact absurd ha hna

/-- **A step stream ends with one verdict.**  Whatever is outside, the items of a
stream that was started begin with its start, or are the recorder's refusal of it;
they hold at most one completion or stop, nothing after an error or a stop, and no
event after a completion; no poll stops the program; and the aggregate of the stream
is `r` exactly when the opening was not stopped and the Provider completed cleanly
with `r`. -/
theorem stream_ends_once (h : startWithControl out opening request = .ok stream) :
    (∀ n, OneVerdict out request (items (pollNext out) n stream)) ∧
      (∀ n, (after (pollNext out) n stream).isSome) ∧
        ∀ r, (∃ n, aggregateStepStream out n stream = some (.ok r)) ↔
          opening = .answered (.ok ()) ∧ ∃ n, CleanEnd out request n r := by
  rcases startWithControl_cases h with ⟨stop, rfl, hcarries⟩ | ⟨rfl, hcarries⟩
  · refine ⟨oneVerdict_of_carries (by simp) hcarries, answers_of_carries (by simp) hcarries, fun r => ?_⟩
    exact iff_of_false (not_aggregates_stopped hcarries) (by simp)
  · refine ⟨oneVerdict_of_carries (by simp) hcarries, answers_of_carries (by simp) hcarries, fun r => ?_⟩
    rw [eq_self_iff_true, true_and]
    exact aggregates_iff hcarries

/-- A Provider that answers one response and ends, seen without any stop. -/
def answering (response : ModelResponse)
    (recorder : Option (ℕ → StepEvent → Except StepEventRecordError Unit)) : Outside where
  look _ := ⟨false, false, false, false, false⟩
  provider
    | 0 => .ready (some (.ok (.completed response)))
    | _ => .ready none
  validate _ _ := .ok ()
  recorder := recorder

def doneResponse : ModelResponse where
  id := "response-1"
  model := ⟨"mock", "model"⟩
  content := [.text "done"]
  structuredOutput := none
  stopReason := .endTurn
  usage := ⟨some 1, some 1, none, none, none⟩
  metadata := .null

def oneStep : StepRequest := ⟨"step-1", ⟨"request-1", []⟩⟩

theorem stream_ends_once_answering :
    (∀ n, OneVerdict (answering doneResponse none) oneStep
        (items (pollNext (answering doneResponse none)) n (.controlled (opened oneStep true none)))) ∧
      (∀ n, (after (pollNext (answering doneResponse none)) n
        (.controlled (opened oneStep true none))).isSome) ∧
        ∀ r, (∃ n, aggregateStepStream (answering doneResponse none) n
          (.controlled (opened oneStep true none)) = some (.ok r)) ↔
            Opening.answered (.ok ()) = .answered (.ok ()) ∧
              ∃ n, CleanEnd (answering doneResponse none) oneStep n r :=
  stream_ends_once (rfl : startWithControl _ (.answered (.ok ())) oneStep = .ok _)

def refusingAll : ℕ → StepEvent → Except StepEventRecordError Unit :=
  fun _ _ => .error ⟨"injected recorder failure"⟩

/-- A stream whose recorder refuses its start does not begin with it; and although the
Provider completes as its last event, accepted by the validator, before any stop, the
aggregate is no result. -/
theorem not_stream_ends_once :
    ∃ stream, startWithControl (answering doneResponse (some refusingAll)) (.answered (.ok ())) oneStep =
        .ok stream ∧
      items (pollNext (answering doneResponse (some refusingAll))) 1 stream =
        [.error (.recording ⟨"injected recorder failure"⟩)] ∧
      (answering doneResponse (some refusingAll)).RunsOut 0 1 ∧
      Completes (answering doneResponse (some refusingAll)) oneStep
        ((answering doneResponse (some refusingAll)).told 0 1) (resultOf "step-1" doneResponse) ∧
      ¬∃ n, aggregateStepStream (answering doneResponse (some refusingAll)) n stream =
        some (.ok (resultOf "step-1" doneResponse)) := by
  refine ⟨_, rfl, rfl, .succ rfl (Or.inr ⟨_, rfl⟩) (.zero rfl rfl), ⟨[], _, rfl, by simp, rfl, rfl⟩, ?_⟩
  rintro ⟨n, hn⟩
  cases n with
  | zero => simp [aggregateStepStream, consume] at hn
  | succ n => exact consume_ne_ok rfl rfl hn

end Contract

end Step
end Kolyan
