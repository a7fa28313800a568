/-
# Opening a response with retries

`OpenAiClient::open` sends a request until it is answered with success, and retries
failures of the transport and answers of the server, each under its own cap but with one
count of retries.  What it runs against is a script: for the `k`-th send, what the clock
shows, how the send ended, and whether the budget ran out before it did or while the
error body was read.

Every run is a chain of rounds (`round`), one send at most each.  `Past` is what the
rounds before a send have left: one observation for each, numbered and bounded, all of
them retries.  So a push never fails, a send never follows a stop, and a retry of an
answered send has passed the policy's checks (`open_bounded`).
-/

import Kolyan.Http.Report
import Kolyan.Lib.Growth

namespace Kolyan
namespace Http

section Model

/-- `OpenAiConfig`, as far as an opening reads it. -/
structure OpenAiConfig where
  transportRetries : ℕ
  timeoutMs : ℕ
  httpRetry : HttpRetryPolicy

/-- `OpenAiClient`: a configuration that `OpenAiClient::new` accepts. -/
structure OpenAiClient where
  config : OpenAiConfig
  transportRetries_le : config.transportRetries ≤ 16
  timeout_ne_zero : config.timeoutMs ≠ 0
  profile : 0 < config.httpRetry.config.maxRetries → config.httpRetry.config.profile = .openAi

/-- `OpenAiError`, of an opening. -/
inductive OpenAiError where
  | openingBudgetExhausted
  | transport (message : String)
  | http (status : ℕ) (body : String)
  | retriedError (source : OpenAiError) (report : RetryReport)

/-- `OpenAiError::with_retry_report`. -/
def OpenAiError.withRetryReport (error : OpenAiError) (report : RetryReport) : OpenAiError :=
  if 0 < report.observations.length ∨ report.terminalStop.isSome then .retriedError error report
  else error

/-- The answer of a server: its status, the headers an opening reads, whether the budget
runs out while its error body is read, and that body. -/
structure HttpAnswer where
  status : ℕ
  shouldRetry : Option String
  retryAfterMs : Option String
  retryAfter : Option String
  requestId : Option String
  bodyExpired : Bool
  body : String

/-- `is_success`. -/
def HttpAnswer.isSuccess (answer : HttpAnswer) : Bool := 200 ≤ answer.status && answer.status < 300

/-- How a send ended. -/
inductive Sent where
  | failed (timeout connect request : Bool) (message : String)
  | answered (answer : HttpAnswer)

/-- One send of the script: the time elapsed before it and at its decision, whether the
budget ran out during it, and the clock and the random multiplier at the decision. -/
structure Attempt where
  elapsedMs : ℕ
  expired : Bool
  sent : Sent
  decidedAtMs : ℕ
  nowUnixMs : ℕ
  jitter : ℚ

/-- What an opening runs against; the date parser and the reader of an error envelope are
third-party code. -/
structure Script where
  attempt : ℕ → Attempt
  httpDate : String → Option ℕ
  structuredCode : String → Option String

/-- What an opening does outside. -/
inductive Effect where
  | send
  | sleep (ms : ℕ)

/-- How a round of the loop ends: the opening is over, after a send or before it, or it
sleeps and goes on. -/
inductive Round where
  | ended (sent : Bool) (outcome : Except OpenAiError HttpAnswer) (report : RetryReport)
  | again (error : OpenAiError) (report : RetryReport) (delayMs : ℕ)

/-- How an opening ended, and what it did. -/
structure Opened where
  outcome : Except OpenAiError HttpAnswer
  report : RetryReport
  effects : List Effect

variable (client : OpenAiClient) (script : Script)

/-- `record_budget_stop`. -/
def recordBudgetStop (report : RetryReport) (attempt : ℕ) (status : Option ℕ)
    (requestId : Option String) : Option RetryReport :=
  (report.finish .elapsedLimit).push
    (.new attempt status none requestId (some (.stop .elapsedLimit)))

/-- The end of a round with a decision. -/
def settle (report : RetryReport) (attempt : ℕ) (status : Option ℕ) (code requestId : Option String)
    (decision : RetryDecision) (error : OpenAiError) : Option Round :=
  (report.push (.new attempt status code requestId (some decision))).map fun report =>
    match decision with
    | .stop reason =>
        .ended true (.error (error.withRetryReport (report.finish reason))) (report.finish reason)
    | .retry delayMs _ => .again error report delayMs

/-- What the policy decides an answer on. -/
def retryInput (retriesUsed : ℕ) (answer : HttpAnswer) : RetryInput where
  retriesUsed := retriesUsed
  elapsedMs := (script.attempt retriesUsed).decidedAtMs
  nowUnixMs := (script.attempt retriesUsed).nowUnixMs
  jitter := (script.attempt retriesUsed).jitter
  status := answer.status
  errorCode := script.structuredCode answer.body
  headers := ⟨answer.shouldRetry, answer.retryAfterMs, answer.retryAfter⟩

/-- The decision on a failure of the transport. -/
def decideTransport (retriesUsed : ℕ) (eligible : Bool) : RetryDecision :=
  if eligible ∧ retriesUsed < client.config.transportRetries then .retry 0 .backoff
  else .stop (if eligible then .exhausted else .ineligible)

/-- One turn of the loop of `OpenAiClient::open`; none is a failed `expect`. -/
def round (retriesUsed : ℕ) (previous : Option OpenAiError) (report : RetryReport) : Option Round :=
  let policy := client.config.httpRetry
  let bounded := 0 < policy.config.maxRetries
  let attempt := script.attempt retriesUsed
  if bounded ∧ policy.remainingMs attempt.elapsedMs = none then
    let report := report.finish .elapsedLimit
    some (.ended false
      (.error ((previous.getD .openingBudgetExhausted).withRetryReport report)) report)
  else if bounded ∧ attempt.expired then
    (recordBudgetStop report (retriesUsed + 1) none none).map fun report =>
      .ended true (.error (OpenAiError.openingBudgetExhausted.withRetryReport report)) report
  else
    match attempt.sent with
    | .failed timeout connect request message =>
        settle report (retriesUsed + 1) none none none
          (decideTransport client retriesUsed (timeout || connect || request)) (.transport message)
    | .answered answer =>
        if answer.isSuccess then
          (report.push (.new (retriesUsed + 1) (some answer.status) none answer.requestId none)).map
            fun report => .ended true (.ok answer) report
        else if bounded ∧ answer.bodyExpired then
          (recordBudgetStop report (retriesUsed + 1) (some answer.status) answer.requestId).map
            fun report => .ended true (.error ((OpenAiError.http answer.status
              "error body read exceeded opening budget").withRetryReport report)) report
        else
          settle report (retriesUsed + 1) (some answer.status)
            (script.structuredCode answer.body) answer.requestId
            (policy.decide script.httpDate (retryInput script retriesUsed answer))
            (.http answer.status answer.body)

/-- The loop of `OpenAiClient::open`, for at most `fuel` turns. -/
def openFrom : ℕ → ℕ → Option OpenAiError → RetryReport → List Effect → Option Opened
  | 0, _, _, _, _ => none
  | fuel + 1, retriesUsed, previous, report, effects =>
      match round client script retriesUsed previous report with
      | none => none
      | some (.ended sent outcome report) =>
          some ⟨outcome, report, effects ++ if sent then [.send] else []⟩
      | some (.again error report delayMs) =>
          openFrom fuel (retriesUsed + 1) (some error) report (effects ++ [.send, .sleep delayMs])

/-- The largest number of retries. -/
def OpenAiClient.retryCap : ℕ :=
  max client.config.httpRetry.config.maxRetries client.config.transportRetries

/-- `OpenAiClient::open`, for at most `fuel` turns of its loop. -/
def openResponse (fuel : ℕ) : Option Opened := openFrom client script fuel 0 none .default []

end Model

section Laws

variable {client : OpenAiClient} {script : Script}

/-- What an observed send was followed by. -/
def RetryObservation.effects (observation : RetryObservation) : List Effect :=
  match observation.decision with
  | some (.retry delayMs _) => [.send, .sleep delayMs]
  | _ => [.send]

/-- How many sends there are among effects. -/
def sends (effects : List Effect) : ℕ :=
  (effects.filter fun effect => match effect with
    | .send => true
    | .sleep _ => false).length

/-- A retry after the `i`-th send was allowed: the transport failed with a retry left, or
the server answered and the policy's checks passed. -/
def Allowed (client : OpenAiClient) (script : Script) (i : ℕ) (observation : RetryObservation)
    (delayMs : ℕ) : Prop :=
  (observation.status = none ∧ i < client.config.transportRetries ∧
      ∃ timeout connect request message,
        (script.attempt i).sent = .failed timeout connect request message) ∨
    ∃ answer, (script.attempt i).sent = .answered answer ∧ observation.status = some answer.status ∧
      MayRetry script.httpDate client.config.httpRetry (retryInput script i answer) delayMs

/-- **What holds of an opening that ended**: at most one send more than the larger cap, one
numbered and bounded observation for each, each send followed by the wait of its
observation and by another send only after a retry, and each retry allowed. -/
structure Lawful (client : OpenAiClient) (script : Script) (opened : Opened) : Prop where
  sends_le : sends opened.effects ≤ client.retryCap + 1
  observed : opened.report.observations.length = sends opened.effects
  numbered : ∀ (i : ℕ) (observation : RetryObservation),
    opened.report.observations[i]? = some observation →
      observation.attempt = i + 1 ∧ observation.Bounded
  effects_eq : opened.effects = opened.report.observations.flatMap RetryObservation.effects
  retried : ∀ (i : ℕ) (observation : RetryObservation),
    opened.report.observations[i]? = some observation →
      i + 1 < opened.report.observations.length →
        ∃ delayMs basis, observation.decision = some (.retry delayMs basis)
  allowed : ∀ (i : ℕ) (observation : RetryObservation) (delayMs : ℕ) (basis : WaitBasis),
    opened.report.observations[i]? = some observation →
      observation.decision = some (.retry delayMs basis) → Allowed client script i observation delayMs

/-- What the rounds before the `k`-th send have left: `k` observations, all of retries. -/
structure Past (client : OpenAiClient) (script : Script) (k : ℕ) (observations : List RetryObservation)
    (effects : List Effect) : Prop where
  length_eq : observations.length = k
  numbered : ∀ (i : ℕ) (observation : RetryObservation), observations[i]? = some observation →
    observation.attempt = i + 1 ∧ observation.Bounded
  effects_eq : effects = observations.flatMap RetryObservation.effects
  retried : ∀ (i : ℕ) (observation : RetryObservation), observations[i]? = some observation →
    ∃ delayMs basis, observation.decision = some (.retry delayMs basis) ∧
      Allowed client script i observation delayMs
  cap : k ≤ client.retryCap

variable {k : ℕ} {observations : List RetryObservation} {effects : List Effect}
  {observation : RetryObservation} {report : RetryReport}

theorem retryCap_lt : client.retryCap < maxObservations := by
  have hhttp := client.config.httpRetry.valid.maxRetries_le
  have htransport := client.transportRetries_le
  simp only [OpenAiClient.retryCap, maxRetryCount, maxObservations] at *
  omega

theorem sends_append (before after : List Effect) : sends (before ++ after) = sends before + sends after := by
  simp [sends]

theorem sends_effects : sends observation.effects = 1 := by
  unfold RetryObservation.effects
  split <;> rfl

theorem sends_flatMap : sends (observations.flatMap RetryObservation.effects) = observations.length := by
  induction observations with
  | nil => rfl
  | cons observation observations ih =>
    rw [List.flatMap_cons, sends_append, sends_effects, ih, List.length_cons, Nat.add_comm]

theorem effects_stop (h : ∀ delayMs basis, observation.decision ≠ some (.retry delayMs basis)) :
    observation.effects = [.send] := by
  unfold RetryObservation.effects
  split
  · rename_i delayMs basis hdecision
    exact absurd hdecision (h delayMs basis)
  · rfl

theorem Past.nil : Past client script 0 [] [] where
  length_eq := rfl
  numbered := nofun
  effects_eq := rfl
  retried := nofun
  cap := Nat.zero_le _

theorem Past.again {delayMs : ℕ} {basis : WaitBasis} (h : Past client script k observations effects)
    (hattempt : observation.attempt = k + 1) (hbounded : observation.Bounded)
    (hdecision : observation.decision = some (.retry delayMs basis))
    (hallowed : Allowed client script k observation delayMs) (hcap : k < client.retryCap) :
    Past client script (k + 1) (observations ++ [observation]) (effects ++ [.send, .sleep delayMs]) where
  length_eq := by rw [List.length_append, h.length_eq, List.length_singleton]
  numbered i o ho := by
    rcases Growth.kept_or_new ho with ho | ⟨rfl, rfl⟩
    · exact h.numbered i o ho
    · exact ⟨by rw [hattempt, h.length_eq], hbounded⟩
  effects_eq := by
    rw [List.flatMap_append, ← h.effects_eq]
    simp [RetryObservation.effects, hdecision]
  retried i o ho := by
    rcases Growth.kept_or_new ho with ho | ⟨rfl, rfl⟩
    · exact h.retried i o ho
    · exact ⟨delayMs, basis, hdecision, by rwa [h.length_eq]⟩
  cap := hcap

theorem Past.unsent (h : Past client script k observations effects)
    (hreport : report.observations = observations) (outcome : Except OpenAiError HttpAnswer) :
    Lawful client script ⟨outcome, report, effects⟩ := by
  subst hreport
  refine ⟨?_, ?_, h.numbered, h.effects_eq, fun i o ho _ => ?_, fun i o delayMs basis ho hdecision => ?_⟩
  · rw [h.effects_eq, sends_flatMap, h.length_eq]
    exact Nat.le_succ_of_le h.cap
  · rw [h.effects_eq, sends_flatMap]
  · obtain ⟨delayMs, basis, hdecision, -⟩ := h.retried i o ho
    exact ⟨delayMs, basis, hdecision⟩
  · obtain ⟨delayMs', basis', hdecision', hallowed⟩ := h.retried i o ho
    obtain ⟨rfl, rfl⟩ := RetryDecision.retry.inj (Option.some.inj (hdecision'.symm.trans hdecision))
    exact hallowed

theorem Past.sent (h : Past client script k observations effects)
    (hreport : report.observations = observations ++ [observation])
    (hattempt : observation.attempt = k + 1) (hbounded : observation.Bounded)
    (hdecision : ∀ delayMs basis, observation.decision ≠ some (.retry delayMs basis))
    (outcome : Except OpenAiError HttpAnswer) :
    Lawful client script ⟨outcome, report, effects ++ [.send]⟩ := by
  have heffects : effects ++ [.send] = report.observations.flatMap RetryObservation.effects := by
    rw [hreport, List.flatMap_append, ← h.effects_eq, List.flatMap_singleton, effects_stop hdecision]
  refine ⟨?_, ?_, fun i o ho => ?_, heffects, fun i o ho hlast => ?_,
    fun i o delayMs basis ho hretry => ?_⟩
  · rw [heffects, sends_flatMap, hreport, List.length_append, h.length_eq]
    exact Nat.succ_le_succ h.cap
  · rw [heffects, sends_flatMap]
  · rw [hreport] at ho
    rcases Growth.kept_or_new ho with ho | ⟨rfl, rfl⟩
    · exact h.numbered i o ho
    · exact ⟨by rw [hattempt, h.length_eq], hbounded⟩
  · rw [hreport] at ho hlast
    rcases Growth.kept_or_new ho with ho | ⟨rfl, rfl⟩
    · obtain ⟨delayMs, basis, hretry, -⟩ := h.retried i o ho
      exact ⟨delayMs, basis, hretry⟩
    · simp at hlast
  · rw [hreport] at ho
    rcases Growth.kept_or_new ho with ho | ⟨rfl, rfl⟩
    · obtain ⟨delayMs', basis', hretry', hallowed⟩ := h.retried i o ho
      obtain ⟨rfl, rfl⟩ := RetryDecision.retry.inj (Option.some.inj (hretry'.symm.trans hretry))
      exact hallowed
    · exact absurd hretry (hdecision delayMs basis)

/-- What a round after `k` others leaves: the report as it was when nothing was sent, and
one observation more otherwise. -/
inductive RoundLaw (client : OpenAiClient) (script : Script) (k : ℕ)
    (observations : List RetryObservation) : Round → Prop where
  | unsent {outcome report} (hreport : report.observations = observations) :
      RoundLaw client script k observations (.ended false outcome report)
  | sent {outcome report observation} (hreport : report.observations = observations ++ [observation])
      (hattempt : observation.attempt = k + 1) (hbounded : observation.Bounded)
      (hdecision : ∀ delayMs basis, observation.decision ≠ some (.retry delayMs basis)) :
      RoundLaw client script k observations (.ended true outcome report)
  | again {error report delayMs basis observation}
      (hreport : report.observations = observations ++ [observation])
      (hattempt : observation.attempt = k + 1) (hbounded : observation.Bounded)
      (hdecision : observation.decision = some (.retry delayMs basis))
      (hallowed : Allowed client script k observation delayMs) (hcap : k < client.retryCap) :
      RoundLaw client script k observations (.again error report delayMs)

section Rounds

variable (hlength : report.observations.length = k) (hcap : k ≤ client.retryCap)

include hlength hcap

theorem push_round (status : Option ℕ) (errorCode requestId : Option String)
    (decision : Option RetryDecision) :
    report.push (.new (k + 1) status errorCode requestId decision) =
      some { report with observations :=
        report.observations ++ [.new (k + 1) status errorCode requestId decision] } :=
  RetryReport.push_new (by rw [hlength]; exact hcap.trans_lt retryCap_lt) (by rw [hlength])

/-- **The end of a round with a decision** is lawful, when a retry is allowed. -/
theorem settle_law {status : Option ℕ} {errorCode requestId : Option String} {decision : RetryDecision}
    (error : OpenAiError)
    (hretry : ∀ delayMs basis, decision = .retry delayMs basis → k < client.retryCap ∧
      Allowed client script k (.new (k + 1) status errorCode requestId (some decision)) delayMs) :
    ∃ r, settle report (k + 1) status errorCode requestId decision error = some r ∧
      RoundLaw client script k report.observations r := by
  rw [settle, push_round hlength hcap, Option.map_some]
  cases decision with
  | stop reason =>
    exact ⟨_, rfl, .sent rfl rfl (RetryObservation.bounded_new _ _ _ _ _) (by simp [RetryObservation.new])⟩
  | retry delayMs basis =>
    obtain ⟨hlt, hallowed⟩ := hretry delayMs basis rfl
    exact ⟨_, rfl, .again rfl rfl (RetryObservation.bounded_new _ _ _ _ _) rfl hallowed hlt⟩

theorem budgetStop_law (status : Option ℕ) (requestId : Option String)
    (outcome : RetryReport → Except OpenAiError HttpAnswer) :
    ∃ r, ((recordBudgetStop report (k + 1) status requestId).map fun report =>
        Round.ended true (outcome report) report) = some r ∧
      RoundLaw client script k report.observations r := by
  have hfinished : (report.finish .elapsedLimit).observations.length = k := hlength
  rw [recordBudgetStop, push_round hfinished hcap, Option.map_some]
  exact ⟨_, rfl, .sent rfl rfl (RetryObservation.bounded_new _ _ _ _ _) (by simp [RetryObservation.new])⟩

/-- **Every round is lawful**: no push fails, and a retry has passed the checks. -/
theorem round_law (script : Script) (previous : Option OpenAiError) :
    ∃ r, round client script k previous report = some r ∧
      RoundLaw client script k report.observations r := by
  rw [round]
  by_cases hlate : 0 < client.config.httpRetry.config.maxRetries ∧
      client.config.httpRetry.remainingMs (script.attempt k).elapsedMs = none
  · rw [if_pos hlate]
    exact ⟨_, rfl, .unsent rfl⟩
  rw [if_neg hlate]
  by_cases hexpired : 0 < client.config.httpRetry.config.maxRetries ∧ (script.attempt k).expired
  · rw [if_pos hexpired]
    exact budgetStop_law hlength hcap _ _ _
  rw [if_neg hexpired]
  cases hsent : (script.attempt k).sent with
  | failed timeout connect request message =>
    refine settle_law hlength hcap _ fun delayMs basis hdecision => ?_
    unfold decideTransport at hdecision
    split_ifs at hdecision with hleft
    exact ⟨hleft.2.trans_le (le_max_right _ _), Or.inl ⟨rfl, hleft.2, _, _, _, _, hsent⟩⟩
  | answered answer =>
    dsimp only
    by_cases hsuccess : answer.isSuccess = true
    · rw [if_pos hsuccess, push_round hlength hcap, Option.map_some]
      exact ⟨_, rfl, .sent rfl rfl (RetryObservation.bounded_new _ _ _ _ _) (by simp [RetryObservation.new])⟩
    rw [if_neg hsuccess]
    by_cases hbody : 0 < client.config.httpRetry.config.maxRetries ∧ answer.bodyExpired
    · rw [if_pos hbody]
      exact budgetStop_law hlength hcap _ _ _
    rw [if_neg hbody]
    refine settle_law hlength hcap _ fun delayMs basis hdecision => ?_
    have hmay := decide_eq_retry hdecision
    exact ⟨hmay.retryLeft.trans_le (le_max_left _ _), Or.inr ⟨answer, hsent, rfl, hmay⟩⟩

end Rounds

theorem openFrom_lawful {fuel : ℕ} {previous : Option OpenAiError}
    (h : Past client script k report.observations effects) (hfuel : client.retryCap + 1 ≤ fuel + k) :
    ∃ opened, openFrom client script fuel k previous report effects = some opened ∧
      Lawful client script opened := by
  induction fuel generalizing k previous report effects with
  | zero =>
    have := h.cap
    omega
  | succ fuel ih =>
    obtain ⟨r, hround, hlaw⟩ := round_law h.length_eq h.cap script previous
    rw [openFrom, hround]
    cases hlaw with
    | unsent hreport => exact ⟨_, rfl, by simpa using h.unsent hreport _⟩
    | sent hreport hattempt hbounded hdecision =>
      exact ⟨_, rfl, h.sent hreport hattempt hbounded hdecision _⟩
    | again hreport hattempt hbounded hdecision hallowed hcap =>
      refine ih ?_ (by omega)
      rw [hreport]
      exact h.again hattempt hbounded hdecision hallowed hcap

/-- **An opening ends and is bounded.**  Whatever the sends come to, the loop ends within
one turn more than the larger cap, no push fails, and what it did and reports is lawful. -/
theorem open_bounded {fuel : ℕ} (hfuel : client.retryCap + 1 ≤ fuel) :
    ∃ opened, openResponse client script fuel = some opened ∧ Lawful client script opened :=
  openFrom_lawful .nil hfuel

/-- A client that retries two answers and three failures of the transport. -/
def twiceClient : OpenAiClient where
  config := ⟨3, 60000, ⟨⟨2, 60000, 30000, .openAi⟩, by decide, by decide, by decide, by decide⟩⟩
  transportRetries_le := by decide
  timeout_ne_zero := by decide
  profile _ := rfl

def overloaded : Script where
  attempt k := ⟨100 * k, false, .answered ⟨503, none, some "250", none, none, false, "busy"⟩, 100 * k, 0, 1⟩
  httpDate _ := none
  structuredCode _ := none

theorem open_bounded_overloaded :
    ∃ opened, openResponse twiceClient overloaded 4 = some opened ∧
      Lawful twiceClient overloaded opened :=
  open_bounded (by decide)

end Laws

end Http
end Kolyan
