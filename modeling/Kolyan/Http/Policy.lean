/-
# The retry policy of an HTTP opening

`kolyan-protocol-http/src/policy.rs`: which answers of a server may be retried, and
after how long.  The caller owns the clock, the count of retries and the random
multiplier; numbers in headers and the multiplier are rationals.  A date in a header
is read by `httpdate`, which is a parameter here: the seconds of the date since the
epoch.
-/

import Kolyan.Numbers

namespace Kolyan
namespace Http

/-- `MAX_RETRIES`. -/
def maxRetryCount : ℕ := 16

/-- `MAX_WINDOW_MS`. -/
def maxWindowMs : ℕ := 86400000

/-- `u64::MAX`. -/
def u64Limit : ℕ := 2 ^ 64 - 1

/-- `RetryProfile`. -/
inductive RetryProfile where
  | openAi | anthropic
  deriving DecidableEq

/-- `PolicyConfig`. -/
structure PolicyConfig where
  maxRetries : ℕ
  maxElapsedMs : ℕ
  maxServerDelayMs : ℕ
  profile : RetryProfile

/-- What `TryFrom<PolicyConfig>` accepts. -/
structure PolicyConfig.Valid (config : PolicyConfig) : Prop where
  maxRetries_le : config.maxRetries ≤ maxRetryCount
  maxElapsedMs_le : config.maxElapsedMs ≤ maxWindowMs
  maxServerDelayMs_le : config.maxServerDelayMs ≤ config.maxElapsedMs
  bounds_ne_zero : 0 < config.maxRetries → config.maxElapsedMs ≠ 0 ∧ config.maxServerDelayMs ≠ 0

/-- `HttpRetryPolicy`: validated host settings. -/
structure HttpRetryPolicy where
  config : PolicyConfig
  valid : config.Valid

/-- `TryFrom<PolicyConfig> for HttpRetryPolicy`. -/
def HttpRetryPolicy.tryFrom (config : PolicyConfig) : Option HttpRetryPolicy :=
  if h : config.maxRetries > maxRetryCount ∨ config.maxElapsedMs > maxWindowMs ∨
      config.maxServerDelayMs > config.maxElapsedMs ∨
      (config.maxRetries > 0 ∧ (config.maxElapsedMs = 0 ∨ config.maxServerDelayMs = 0)) then none
  else some ⟨config, by grind [PolicyConfig.Valid]⟩

/-- `RetryHeaders`. -/
structure RetryHeaders where
  shouldRetry : Option String
  retryAfterMs : Option String
  retryAfter : Option String

/-- `RetryInput`. -/
structure RetryInput where
  retriesUsed : ℕ
  elapsedMs : ℕ
  nowUnixMs : ℕ
  jitter : ℚ
  status : ℕ
  errorCode : Option String
  headers : RetryHeaders

/-- `WaitBasis`. -/
inductive WaitBasis where
  | retryAfterMs | retryAfterSeconds | retryAfterDate | backoff

/-- `StopReason`. -/
inductive StopReason where
  | disabled | exhausted | permanentQuota | unknownRateLimit | headerDenied | ineligible
  | elapsedLimit | serverDelayLimit | invalidInput

/-- `RetryDecision`. -/
inductive RetryDecision where
  | stop (reason : StopReason)
  | retry (delayMs : ℕ) (basis : WaitBasis)

section Hints

variable (httpDate : String → Option ℕ)

/-- A positive number of a header in milliseconds, `multiplier` of them a unit. -/
def positiveNumber (text : String) (multiplier : ℕ) : Option ℚ :=
  match parseF64 (trim text.toList) with
  | some (.finite value) => if value ≤ 0 then none else some (value * multiplier)
  | _ => none

/-- `positive_ms`: rounded up, saturating. -/
def positiveMs (text : String) (multiplier : ℕ) : Option ℕ :=
  (positiveNumber text multiplier).map fun value => min ⌈value⌉.toNat u64Limit

/-- The wait until a date. -/
def dateMs (text : String) (nowUnixMs : ℕ) : Option ℕ :=
  match httpDate text with
  | none => none
  | some seconds => if nowUnixMs < seconds * 1000 then some (seconds * 1000 - nowUnixMs) else none

/-- `server_hint`. -/
def serverHint (headers : RetryHeaders) (nowUnixMs : ℕ) : Option (ℕ × WaitBasis) :=
  match headers.retryAfterMs.bind (positiveMs · 1) with
  | some ms => some (ms, .retryAfterMs)
  | none =>
      match headers.retryAfter with
      | none => none
      | some text =>
          match positiveMs text 1000 with
          | some ms => some (ms, .retryAfterSeconds)
          | none => (dateMs httpDate text nowUnixMs).map (·, .retryAfterDate)

/-- The wait that a server's headers ask for, in milliseconds. -/
def serverWait (headers : RetryHeaders) (nowUnixMs : ℕ) : Option ℚ :=
  match headers.retryAfterMs.bind (positiveNumber · 1) with
  | some ms => some ms
  | none =>
      match headers.retryAfter with
      | none => none
      | some text =>
          match positiveNumber text 1000 with
          | some ms => some ms
          | none => (dateMs httpDate text nowUnixMs).map fun ms : ℕ => (ms : ℚ)

end Hints

namespace HttpRetryPolicy

variable (policy : HttpRetryPolicy)

/-- `HttpRetryPolicy::remaining_ms`. -/
def remainingMs (elapsedMs : ℕ) : Option ℕ :=
  if elapsedMs ≤ policy.config.maxElapsedMs then
    (some (policy.config.maxElapsedMs - elapsedMs)).filter (0 < ·)
  else none

/-- The delay of the exponential backoff. -/
def backoffMs (retriesUsed : ℕ) (jitter : ℚ) : ℕ :=
  ⌈(min (500 * 2 ^ min retriesUsed 4) 8000 : ℕ) * jitter⌉.toNat

/-- An error code that says that no retry will help. -/
def isPermanentQuota (errorCode : Option String) : Bool :=
  errorCode = some "Throttling.AllocationQuota" || errorCode = some "insufficient_quota"

/-- An error code that says that a limit is one of rate. -/
def isRateLimit (errorCode : Option String) : Bool :=
  errorCode = some "rate_limit_exceeded" || errorCode = some "rate_limit_error" ||
    errorCode = some "Throttling.RateLimit" || errorCode = some "Throttling.RateLimitExceeded"

/-- The last part of `HttpRetryPolicy::decide`: the delay of an eligible answer. -/
def decideDelay (httpDate : String → Option ℕ) (input : RetryInput) : RetryDecision :=
  let hint := serverHint httpDate input.headers input.nowUnixMs
  if policy.config.profile = .openAi ∧ hint.any (fun h => h.1 > 120000) then .stop .serverDelayLimit
  else if hint.any (fun h => h.1 > policy.config.maxServerDelayMs) then .stop .serverDelayLimit
  else
    let (delayMs, basis) := hint.getD (backoffMs input.retriesUsed input.jitter, .backoff)
    match policy.remainingMs input.elapsedMs with
    | none => .stop .elapsedLimit
    | some remaining => if delayMs ≥ remaining then .stop .elapsedLimit else .retry delayMs basis

/-- `HttpRetryPolicy::decide`. -/
def decide (httpDate : String → Option ℕ) (input : RetryInput) : RetryDecision :=
  if isPermanentQuota input.errorCode then .stop .permanentQuota
  else if policy.config.maxRetries = 0 then .stop .disabled
  else if ¬(100 ≤ input.status ∧ input.status ≤ 599) ∨ ¬(3 / 4 ≤ input.jitter ∧ input.jitter ≤ 1) then
    .stop .invalidInput
  else if input.retriesUsed ≥ policy.config.maxRetries then .stop .exhausted
  else if 200 ≤ input.status ∧ input.status < 300 then .stop .ineligible
  else if input.status = 429 ∧ !isRateLimit input.errorCode then .stop .unknownRateLimit
  else if input.headers.shouldRetry = some "false" then .stop .headerDenied
  else if input.headers.shouldRetry ≠ some "true" ∧
      ¬(input.status = 408 ∨ input.status = 409 ∨ input.status = 429 ∨ input.status ≥ 500) then
    .stop .ineligible
  else policy.decideDelay httpDate input

end HttpRetryPolicy

section Decisions

variable {httpDate : String → Option ℕ} {policy : HttpRetryPolicy} {input : RetryInput}
  {delayMs : ℕ} {basis : WaitBasis}

theorem remainingMs_eq_some {remaining : ℕ} :
    policy.remainingMs input.elapsedMs = some remaining ↔
      input.elapsedMs + remaining = policy.config.maxElapsedMs ∧ 0 < remaining := by
  unfold HttpRetryPolicy.remainingMs
  split_ifs with h
  · rw [Option.filter_eq_some_iff]
    simp only [Option.some.injEq, decide_eq_true_eq]
    omega
  · simp only [false_iff]
    omega

theorem le_ceil_min {wait : ℚ} {limit : ℕ} (hlimit : limit ≤ u64Limit) (hwait : wait ≤ limit) :
    wait ≤ (min ⌈wait⌉.toNat u64Limit : ℕ) := by
  have hceil : ⌈wait⌉ ≤ (limit : ℤ) := Int.ceil_le.2 (by exact_mod_cast hwait)
  rw [min_eq_left (by omega)]
  have hle : (⌈wait⌉ : ℚ) ≤ ((⌈wait⌉.toNat : ℤ) : ℚ) := by exact_mod_cast Int.self_le_toNat _
  exact (Int.le_ceil wait).trans (by exact_mod_cast hle)

/-- **The hint is the wait that the server asks for**, rounded up, unless it saturates. -/
theorem serverHint_of_serverWait {headers : RetryHeaders} {nowUnixMs limit : ℕ} {wait : ℚ}
    (hlimit : limit ≤ u64Limit) (h : serverWait httpDate headers nowUnixMs = some wait)
    (hwait : wait ≤ limit) :
    ∃ ms basis, serverHint httpDate headers nowUnixMs = some (ms, basis) ∧ wait ≤ ms := by
  have hround : ∀ {text : String} {multiplier : ℕ}, positiveNumber text multiplier = some wait →
      positiveMs text multiplier = some (min ⌈wait⌉.toNat u64Limit) := fun hnumber => by
    rw [positiveMs, hnumber, Option.map_some]
  have hnone : ∀ {text : String} {multiplier : ℕ}, positiveNumber text multiplier = none →
      positiveMs text multiplier = none := fun hnumber => by
    rw [positiveMs, hnumber, Option.map_none]
  rw [serverWait] at h
  rw [serverHint]
  cases hms : headers.retryAfterMs.bind (positiveNumber · 1) with
  | some ms =>
    obtain rfl : ms = wait := by simpa [hms] using h
    obtain ⟨text, htext, hnumber⟩ := Option.bind_eq_some_iff.1 hms
    refine ⟨_, .retryAfterMs, ?_, le_ceil_min hlimit hwait⟩
    rw [htext, Option.bind_some, hround hnumber]
  | none =>
    rw [hms] at h
    have hfirst : headers.retryAfterMs.bind (positiveMs · 1) = none := by
      cases htext : headers.retryAfterMs with
      | none => rfl
      | some text => exact hnone (by simpa [htext] using hms)
    rw [hfirst]
    cases htext : headers.retryAfter with
    | none => simp [htext] at h
    | some text =>
      simp only [htext] at h ⊢
      cases hnumber : positiveNumber text 1000 with
      | some ms =>
        obtain rfl : ms = wait := by simpa [hnumber] using h
        refine ⟨_, .retryAfterSeconds, ?_, le_ceil_min hlimit hwait⟩
        rw [hround hnumber]
      | none =>
        rw [hnone hnumber]
        obtain ⟨ms, hdate, rfl⟩ : ∃ ms, dateMs httpDate text nowUnixMs = some ms ∧ (ms : ℚ) = wait := by
          simpa only [hnumber, Option.map_eq_some_iff] using h
        exact ⟨ms, .retryAfterDate, by rw [hdate]; rfl, le_rfl⟩

/-- What a retry after `delayMs` has passed: the code is no permanent quota and a 429 is a
rate limit, a retry is left, the delay ends within the window, and it is no shorter than
the wait that the server asks for, when the host admits that wait. -/
structure MayRetry (httpDate : String → Option ℕ) (policy : HttpRetryPolicy) (input : RetryInput)
    (delayMs : ℕ) : Prop where
  notPermanent : HttpRetryPolicy.isPermanentQuota input.errorCode = false
  classified : input.status = 429 → HttpRetryPolicy.isRateLimit input.errorCode = true
  retryLeft : input.retriesUsed < policy.config.maxRetries
  inTime : input.elapsedMs + delayMs < policy.config.maxElapsedMs
  waits : ∀ wait, serverWait httpDate input.headers input.nowUnixMs = some wait →
    wait ≤ policy.config.maxServerDelayMs → wait ≤ delayMs

theorem decideDelay_eq_retry (h : policy.decideDelay httpDate input = .retry delayMs basis) :
    input.elapsedMs + delayMs < policy.config.maxElapsedMs ∧
      ∀ hint, serverHint httpDate input.headers input.nowUnixMs = some hint → hint.1 = delayMs := by
  rw [HttpRetryPolicy.decideDelay] at h
  split_ifs at h
  generalize hhint : serverHint httpDate input.headers input.nowUnixMs = hint at h
  cases hremaining : policy.remainingMs input.elapsedMs with
  | none => simp [hremaining] at h
  | some remaining =>
    obtain ⟨htotal, _⟩ := remainingMs_eq_some.1 hremaining
    simp only [hremaining] at h
    split_ifs at h with hlate
    obtain ⟨rfl, rfl⟩ := RetryDecision.retry.inj h
    refine ⟨by omega, ?_⟩
    rintro found ⟨rfl⟩
    rfl

theorem decide_eq_retry (h : policy.decide httpDate input = .retry delayMs basis) :
    MayRetry httpDate policy input delayMs := by
  rw [HttpRetryPolicy.decide] at h
  split_ifs at h with hquota hdisabled hinvalid hused hsuccess hlimit hdenied hstatus
  obtain ⟨htime, hhint⟩ := decideDelay_eq_retry h
  refine ⟨by simpa using hquota, fun h429 => ?_, not_le.1 hused, htime, fun wait hwait hcap => ?_⟩
  · by_contra hcode
    exact hlimit ⟨h429, by simpa using hcode⟩
  · have hbound : policy.config.maxServerDelayMs ≤ u64Limit :=
      (policy.valid.maxServerDelayMs_le.trans policy.valid.maxElapsedMs_le).trans
        (by norm_num [maxWindowMs, u64Limit])
    obtain ⟨ms, b, hms, hle⟩ := serverHint_of_serverWait hbound hwait hcap
    obtain rfl : ms = delayMs := hhint _ hms
    exact hle

end Decisions

end Http
end Kolyan
