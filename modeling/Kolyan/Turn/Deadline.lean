/-
# The deadline of a Turn and its clocks

A Turn has one `TurnDeadline`: the instant of the monotonic clock after which it stops,
and the Unix millisecond that is saved for it and mapped to an instant again when the
Turn is resumed.  The two clocks are read one after the other, so a `ClockSample` knows
only that the wall clock was read between two instants.  A relative limit pays for that
span before it is written down; a ceiling that was given in Unix time is kept as it is,
and only its instant is mapped from the start of the sample.

Along any chain of captures, ceilings and restores (`Chain`) the live instant stays
within every limit that had not passed when its sample was taken (`Within`).  A restore
never passes the saved millisecond; it may pass the instant that was live before it, by
no more than the time between the start of that sample and its reading of the wall clock
(`chain_within`, `restore_gains`).
-/

import Kolyan.Turn.Planning

namespace Kolyan
namespace Turn
namespace Clocks

open Checks Threads

/-! ### Samples of the clocks -/

section Samples

/-- Nanoseconds of a millisecond. -/
def nanosPerMilli : ℕ := 1000000

/-- `Duration::MAX`, in nanoseconds. -/
def durationMax : ℕ := 2 ^ 64 * 1000000000 - 1

/-- `Duration::checked_add`. -/
def durationAdd (a b : ℕ) : Option ℕ := if a + b ≤ durationMax then some (a + b) else none

/-- The clocks of a machine: an instant is nanoseconds of the monotonic clock, which
has a last one, and the wall clock shows the time since the instant of the Unix epoch. -/
structure MachineClocks where
  instantMax : ℕ
  epoch : ℤ

/-- `Instant::checked_add`. -/
def MachineClocks.checkedAdd (clocks : MachineClocks) (instant duration : ℕ) : Option ℕ :=
  if instant + duration ≤ clocks.instantMax then some (instant + duration) else none

/-- The instant of a Unix millisecond. -/
def MachineClocks.mono (clocks : MachineClocks) (unixMs : ℕ) : ℤ := clocks.epoch + (unixMs * nanosPerMilli : ℕ)

/-- When the clocks were read: the wall clock between two readings of the monotonic one. -/
structure Reading where
  before : ℕ
  wall : ℕ
  after : ℕ
  started : before ≤ wall
  ended : wall ≤ after

/-- `SystemTime::now().duration_since(UNIX_EPOCH)`. -/
def Reading.unix (clocks : MachineClocks) (reading : Reading) : Except TurnDeadlineError ℕ :=
  if (reading.wall : ℤ) < clocks.epoch then .error .clockBeforeUnixEpoch
  else .ok ((reading.wall : ℤ) - clocks.epoch).toNat

/-- `ClockSample`. -/
structure ClockSample where
  before : ℕ
  after : ℕ
  unix : ℕ
  deriving DecidableEq

/-- `ClockSample::from_reading`. -/
def ClockSample.fromReading (before after : ℕ) (unix : Except TurnDeadlineError ℕ) : Except TurnDeadlineError ClockSample := do
  let unix ← unix
  return { before, after, unix }

/-- `ClockSample::capture`. -/
def ClockSample.capture (clocks : MachineClocks) (reading : Reading) : Except TurnDeadlineError ClockSample :=
  ClockSample.fromReading reading.before reading.after (reading.unix clocks)

/-- `ClockSample::conservative_unix`. -/
def ClockSample.conservativeUnix (sample : ClockSample) (deadline : ℕ) : Except TurnDeadlineError ℕ :=
  let precise := deadline - (sample.after - sample.before)
  if precise / nanosPerMilli < 2 ^ 64 then .ok (precise / nanosPerMilli) else .error .unixOverflow

/-- The millisecond of a limit from the reading on. -/
def ClockSample.relativeUnix (sample : ClockSample) (limit : ℕ) : Except TurnDeadlineError ℕ := do
  let precise ← expect (durationAdd sample.unix limit) .unixOverflow
  sample.conservativeUnix precise

/-- `ClockSample::map_unix`. -/
def ClockSample.mapUnix (sample : ClockSample) (unixMs : ℕ) (add : ℕ → ℕ → Option ℕ) : Except TurnDeadlineError ℕ :=
  expect (add sample.after (unixMs * nanosPerMilli - sample.unix)) .instantOverflow

/-- `ClockSample::map_external`. -/
def ClockSample.mapExternal (sample : ClockSample) (unixMs : ℕ) (add : ℕ → ℕ → Option ℕ) : Except TurnDeadlineError ℕ :=
  expect (add sample.before (unixMs * nanosPerMilli - sample.unix)) .instantOverflow

end Samples

/-! ### The deadline -/

section Deadlines

/-- `TurnDeadline`. -/
structure TurnDeadline where
  duration : Option ℕ
  sample : Option ClockSample
  instant : Option ℕ
  unixMs : Option ℕ
  deriving DecidableEq

/-- `option.map(f).transpose()`. -/
def mapOption {ε α β : Type} (f : α → Except ε β) : Option α → Except ε (Option β)
  | none => .ok none
  | some a => do return some (← f a)

/-- The tighter of two limits, where there may be none. -/
def tighter : Option ℕ → Option ℕ → Option ℕ
  | some a, some b => some (min a b)
  | a, b => a.or b

/-- `TurnDeadline::from_sample`. -/
def TurnDeadline.fromSample (duration ceiling : Option ℕ) (sample : ClockSample) (add : ℕ → ℕ → Option ℕ) :
    Except TurnDeadlineError TurnDeadline := do
  let relative ← mapOption sample.relativeUnix duration
  let unixMs := tighter relative ceiling
  let relativeInstant ← mapOption (fun limit => expect (add sample.before limit) .instantOverflow) duration
  let mapped ← mapOption (fun value => sample.mapUnix value add) relative
  let instant := tighter relativeInstant mapped
  let external ← mapOption (fun value => sample.mapExternal value add) ceiling
  let instant := tighter instant external
  return { duration, sample := some sample, instant, unixMs }

variable (clocks : MachineClocks)

/-- `TurnDeadline::capture`. -/
def TurnDeadline.capture (reading : Reading) (duration ceiling : Option ℕ) : Except TurnDeadlineError TurnDeadline :=
  if duration.isNone ∧ ceiling.isNone then .ok { duration, sample := none, instant := none, unixMs := none }
  else do
    let sample ← ClockSample.capture clocks reading
    TurnDeadline.fromSample duration ceiling sample clocks.checkedAdd

/-- The sample that a deadline was made from, or one that is taken now. -/
def TurnDeadline.sampled (deadline : TurnDeadline) (reading : Reading) : Except TurnDeadlineError ClockSample :=
  match deadline.sample with
  | some sample => .ok sample
  | none => ClockSample.capture clocks reading

/-- `TurnDeadline::tighten_absolute`. -/
def TurnDeadline.tightenAbsolute (deadline : TurnDeadline) (reading : Reading) :
    Option ℕ → Except TurnDeadlineError TurnDeadline
  | none => .ok deadline
  | some ceiling => do
    let sample ← deadline.sampled clocks reading
    let instant ← sample.mapExternal ceiling clocks.checkedAdd
    return {
      duration := deadline.duration
      sample := some sample
      instant := some (deadline.instant.elim instant (min · instant))
      unixMs := some (deadline.unixMs.elim ceiling (min · ceiling)) }

/-- `TurnDeadline::restore`. -/
def TurnDeadline.restore (reading : Reading) : Option ℕ → Except TurnDeadlineError TurnDeadline
  | none => TurnDeadline.capture clocks reading none none
  | some unixMs => do
    let sample ← ClockSample.capture clocks reading
    let instant ← sample.mapExternal unixMs clocks.checkedAdd
    return { duration := none, sample := some sample, instant := some instant, unixMs := some unixMs }

/-- What a Turn keeps in mind of its deadline. -/
def TurnDeadline.plain (deadline : TurnDeadline) : Turn.TurnDeadline where
  duration := deadline.duration
  instant := deadline.instant
  unixMs := deadline.unixMs

/-- What may become of a deadline: ceilings are intersected with it, and it is saved and
restored at another reading of the clocks.  The list has the ceilings, the last first. -/
inductive Chain (start : TurnDeadline) : List ℕ → TurnDeadline → Prop where
  | start : Chain start [] start
  | tighten {ceilings : List ℕ} {deadline next : TurnDeadline} {reading : Reading} {ceiling : Option ℕ}
      (h : Chain start ceilings deadline) (hnext : deadline.tightenAbsolute clocks reading ceiling = .ok next) :
      Chain start (ceiling.toList ++ ceilings) next
  | restore {ceilings : List ℕ} {deadline next : TurnDeadline} {reading : Reading} (h : Chain start ceilings deadline)
      (hnext : TurnDeadline.restore clocks reading deadline.unixMs = .ok next) : Chain start ceilings next

end Deadlines

/-! ### What the steps compute -/

section Steps

variable {clocks : MachineClocks}

/-- The reading of the wall clock lies within the sample. -/
structure ClockSample.Sampled (clocks : MachineClocks) (sample : ClockSample) : Prop where
  started : (sample.before : ℤ) ≤ clocks.epoch + sample.unix
  ended : clocks.epoch + sample.unix ≤ sample.after

/-- What passed of a sample before it read the wall clock. -/
def ClockSample.lag (clocks : MachineClocks) (sample : ClockSample) : ℤ := clocks.epoch + sample.unix - sample.before

theorem capture_sampled {reading : Reading} {sample : ClockSample} (h : ClockSample.capture clocks reading = .ok sample) :
    sample.Sampled clocks ∧ sample.before = reading.before := by
  simp only [ClockSample.capture, ClockSample.fromReading, bind_eq_ok, pure_eq_ok] at h
  obtain ⟨unix, hunix, rfl⟩ := h
  unfold Reading.unix at hunix
  split_ifs at hunix with hepoch
  obtain rfl := Except.ok.inj hunix
  have hstarted := reading.started
  have hended := reading.ended
  refine ⟨⟨?_, ?_⟩, rfl⟩ <;> dsimp only <;> omega

theorem checkedAdd_eq_some {instant duration sum : ℕ} :
    clocks.checkedAdd instant duration = some sum ↔ sum = instant + duration ∧ instant + duration ≤ clocks.instantMax := by
  unfold MachineClocks.checkedAdd
  split_ifs with h
  · rw [Option.some_inj]
    omega
  · refine ⟨(fun hsum => nomatch hsum), ?_⟩
    rintro ⟨rfl, hsum⟩
    exact absurd hsum h

theorem durationAdd_eq_some {a b sum : ℕ} : durationAdd a b = some sum ↔ sum = a + b ∧ a + b ≤ durationMax := by
  unfold durationAdd
  split_ifs with h
  · rw [Option.some_inj]
    omega
  · refine ⟨(fun hsum => nomatch hsum), ?_⟩
    rintro ⟨rfl, hsum⟩
    exact absurd hsum h

/-- The instant of a ceiling, as a sample maps it. -/
def ClockSample.external (sample : ClockSample) (unixMs : ℕ) : ℕ := sample.before + (unixMs * nanosPerMilli - sample.unix)

theorem mapExternal_eq_ok {sample : ClockSample} {unixMs instant : ℕ} :
    sample.mapExternal unixMs clocks.checkedAdd = .ok instant ↔
      instant = sample.external unixMs ∧ sample.external unixMs ≤ clocks.instantMax := by
  rw [ClockSample.mapExternal, expect_eq_ok, checkedAdd_eq_some, ClockSample.external]

/-- The millisecond that is saved for a relative limit. -/
def ClockSample.relative (sample : ClockSample) (limit : ℕ) : ℕ :=
  (sample.unix + limit - (sample.after - sample.before)) / nanosPerMilli

/-- The instant of a relative limit. -/
def ClockSample.ownInstant (sample : ClockSample) (limit : ℕ) : ℕ :=
  min (sample.before + limit) (sample.after + (sample.relative limit * nanosPerMilli - sample.unix))

theorem relativeUnix_eq_ok {sample : ClockSample} {limit unixMs : ℕ} :
    sample.relativeUnix limit = .ok unixMs ↔
      unixMs = sample.relative limit ∧ sample.unix + limit ≤ durationMax ∧ sample.relative limit < 2 ^ 64 := by
  simp only [ClockSample.relativeUnix, bind_eq_ok, expect_eq_ok, durationAdd_eq_some]
  constructor
  · rintro ⟨_, ⟨rfl, hprecise⟩, h⟩
    unfold ClockSample.conservativeUnix at h
    dsimp only at h
    split_ifs at h with hfits
    exact ⟨(Except.ok.inj h).symm, hprecise, hfits⟩
  · rintro ⟨rfl, hprecise, hfits⟩
    exact ⟨_, ⟨rfl, hprecise⟩, if_pos hfits⟩

theorem mapOption_eq_ok {ε α β : Type} {f : α → Except ε β} {g : α → β} {P : α → Prop}
    (hf : ∀ a b, f a = .ok b ↔ b = g a ∧ P a) {o : Option α} {o' : Option β} :
    mapOption f o = .ok o' ↔ o' = o.map g ∧ ∀ a, o = some a → P a := by
  cases o with
  | none =>
    refine ⟨fun h => ⟨(Except.ok.inj h).symm, fun _ h => (nomatch h)⟩, ?_⟩
    rintro ⟨rfl, -⟩
    rfl
  | some a =>
    simp only [mapOption, bind_eq_ok, pure_eq_ok, hf, Option.map_some, Option.some_inj, forall_eq']
    constructor
    · rintro ⟨_, ⟨rfl, ha⟩, rfl⟩
      exact ⟨rfl, ha⟩
    · rintro ⟨rfl, ha⟩
      exact ⟨_, ⟨rfl, ha⟩, rfl⟩

/-- The deadline in numbers that have no bound. -/
def TurnDeadline.exact (duration ceiling : Option ℕ) (sample : ClockSample) : TurnDeadline where
  duration := duration
  sample := some sample
  instant := tighter (duration.map sample.ownInstant) (ceiling.map sample.external)
  unixMs := tighter (duration.map sample.relative) ceiling

/-- Every number on the way to a deadline can be shown. -/
structure Shown (clocks : MachineClocks) (duration ceiling : Option ℕ) (sample : ClockSample) : Prop where
  unix : ∀ limit, duration = some limit → sample.unix + limit ≤ durationMax ∧ sample.relative limit < 2 ^ 64
  own : ∀ limit, duration = some limit → sample.before + limit ≤ clocks.instantMax ∧
    sample.after + (sample.relative limit * nanosPerMilli - sample.unix) ≤ clocks.instantMax
  external : ∀ value, ceiling = some value → sample.external value ≤ clocks.instantMax

/-- **No sum wraps.**  `from_sample` answers what the numbers are, and an error if one of
them cannot be shown. -/
theorem fromSample_eq_ok {duration ceiling : Option ℕ} {sample : ClockSample} {deadline : TurnDeadline} :
    TurnDeadline.fromSample duration ceiling sample clocks.checkedAdd = .ok deadline ↔
      deadline = .exact duration ceiling sample ∧ Shown clocks duration ceiling sample := by
  have hadd : ∀ {instant duration sum : ℕ}, expect (clocks.checkedAdd instant duration) TurnDeadlineError.instantOverflow = .ok sum ↔
      sum = instant + duration ∧ instant + duration ≤ clocks.instantMax := by
    intro instant duration sum
    rw [expect_eq_ok, checkedAdd_eq_some]
  have hexact : ∀ external, tighter (tighter (duration.map (sample.before + ·)) ((duration.map sample.relative).map fun value =>
      sample.after + (value * nanosPerMilli - sample.unix))) external = tighter (duration.map sample.ownInstant) external := by
    intro external
    cases duration <;> rfl
  simp only [TurnDeadline.fromSample, bind_eq_ok, pure_eq_ok, mapOption_eq_ok fun _ _ => relativeUnix_eq_ok,
    mapOption_eq_ok fun _ _ => hadd, mapOption_eq_ok fun _ _ => mapExternal_eq_ok, ClockSample.mapUnix]
  constructor
  · rintro ⟨_, ⟨rfl, hunix⟩, _, ⟨rfl, hown⟩, _, ⟨rfl, hmapped⟩, _, ⟨rfl, hexternal⟩, rfl⟩
    rw [hexact]
    refine ⟨rfl, hunix, fun limit hlimit => ⟨hown limit hlimit, ?_⟩, hexternal⟩
    exact hmapped _ (by rw [hlimit, Option.map_some])
  · rintro ⟨rfl, hshown⟩
    refine ⟨_, ⟨rfl, hshown.unix⟩, _, ⟨rfl, fun limit hlimit => (hshown.own limit hlimit).1⟩, _, ⟨rfl, ?_⟩, _,
      ⟨rfl, hshown.external⟩, ?_⟩
    · intro value hvalue
      obtain ⟨limit, hlimit, rfl⟩ := Option.map_eq_some_iff.1 hvalue
      exact (hshown.own limit hlimit).2
    · rw [hexact]
      rfl

theorem external_le {sample : ClockSample} (hsampled : sample.Sampled clocks) (unixMs : ℕ) :
    (sample.external unixMs : ℤ) ≤ max (clocks.mono unixMs) sample.before := by
  have hstarted := hsampled.started
  unfold ClockSample.external MachineClocks.mono
  omega

theorem mono_le_external (sample : ClockSample) (unixMs : ℕ) :
    clocks.mono unixMs ≤ sample.external unixMs + sample.lag clocks := by
  unfold ClockSample.external MachineClocks.mono ClockSample.lag
  omega

theorem mono_le_mono {a b : ℕ} (h : a ≤ b) : clocks.mono a ≤ clocks.mono b := by
  have := Nat.mul_le_mul_right nanosPerMilli h
  unfold MachineClocks.mono
  omega

/-- **A relative limit is saved no later than it is live**, or as the epoch itself. -/
theorem mono_relative {sample : ClockSample} (hsampled : sample.Sampled clocks) (limit : ℕ) :
    sample.relative limit = 0 ∨ clocks.mono (sample.relative limit) ≤ sample.ownInstant limit := by
  have hended := hsampled.ended
  have hfloor : sample.relative limit * nanosPerMilli ≤ sample.unix + limit - (sample.after - sample.before) := Nat.div_mul_le_self _ _
  rcases Nat.eq_zero_or_pos (sample.relative limit) with hzero | hpos
  · exact .inl hzero
  · have hpos := Nat.mul_pos hpos (show 0 < nanosPerMilli by decide)
    have hstarted := hsampled.started
    right
    unfold MachineClocks.mono ClockSample.ownInstant
    omega

end Steps

/-! ### What holds along a chain -/

section Chains

variable {clocks : MachineClocks}

/-- What a deadline that has limits is made of. -/
structure Live where
  sample : ClockSample
  instant : ℕ
  unixMs : ℕ

/-- The deadline has these limits. -/
structure TurnDeadline.Shows (deadline : TurnDeadline) (live : Live) : Prop where
  sample : deadline.sample = some live.sample
  instant : deadline.instant = some live.instant
  unixMs : deadline.unixMs = some live.unixMs

/-- The deadline has no limit. -/
structure TurnDeadline.Unlimited (deadline : TurnDeadline) : Prop where
  sample : deadline.sample = none
  instant : deadline.instant = none
  unixMs : deadline.unixMs = none

/-- The live instant is on the clock, and earlier than what is saved by no more than what
passed of the sample before it read the wall clock. -/
structure Live.Held (clocks : MachineClocks) (live : Live) : Prop where
  sampled : live.sample.Sampled clocks
  shown : live.instant ≤ clocks.instantMax
  saved : clocks.mono live.unixMs ≤ live.instant + live.sample.lag clocks

/-- A limit is kept: by the live instant unless it had passed when the sample was taken,
and by what is saved unless that is the epoch. -/
structure Live.BoundedBy (clocks : MachineClocks) (bound : ℤ) (live : Live) : Prop where
  instant : (live.instant : ℤ) ≤ max bound live.sample.before
  saved : live.unixMs = 0 ∨ clocks.mono live.unixMs ≤ bound

/-- The limits of one Unix millisecond, mapped with a sample. -/
def Live.ofUnix (sample : ClockSample) (unixMs : ℕ) : Live := { sample, instant := sample.external unixMs, unixMs }

/-- The limits together with a ceiling. -/
def Live.tighten (live : Live) (ceiling : ℕ) : Live where
  sample := live.sample
  instant := min live.instant (live.sample.external ceiling)
  unixMs := min live.unixMs ceiling

theorem Live.ofUnix_held {sample : ClockSample} {unixMs : ℕ} (hsampled : sample.Sampled clocks)
    (hshown : sample.external unixMs ≤ clocks.instantMax) : (Live.ofUnix sample unixMs).Held clocks :=
  ⟨hsampled, hshown, mono_le_external sample unixMs⟩

theorem Live.Held.tighten {live : Live} (h : live.Held clocks) (ceiling : ℕ) : (live.tighten ceiling).Held clocks := by
  refine ⟨h.sampled, (Nat.min_le_left _ _).trans h.shown, ?_⟩
  have hlive := (mono_le_mono (Nat.min_le_left live.unixMs ceiling)).trans h.saved
  have hceiling : clocks.mono (min live.unixMs ceiling) ≤ live.sample.external ceiling + live.sample.lag clocks :=
    (mono_le_mono (Nat.min_le_right live.unixMs ceiling)).trans (mono_le_external live.sample ceiling)
  unfold Live.tighten
  dsimp only
  omega

theorem Live.ofUnix_bounded {sample : ClockSample} {unixMs : ℕ} {bound : ℤ} (hsampled : sample.Sampled clocks)
    (h : unixMs = 0 ∨ clocks.mono unixMs ≤ bound) : (Live.ofUnix sample unixMs).BoundedBy clocks bound := by
  refine ⟨?_, h⟩
  rcases h with rfl | h
  · have hzero : (Live.ofUnix sample 0).instant = sample.before := by
      show sample.before + (0 * nanosPerMilli - sample.unix) = sample.before
      omega
    rw [hzero]
    exact le_max_right _ _
  · exact (external_le hsampled unixMs).trans (max_le_max_right _ h)

theorem Live.BoundedBy.tighten {live : Live} {bound : ℤ} (h : live.BoundedBy clocks bound) (ceiling : ℕ) :
    (live.tighten ceiling).BoundedBy clocks bound := by
  refine ⟨le_trans (Int.ofNat_le.2 (Nat.min_le_left _ _)) h.instant, ?_⟩
  rcases h.saved with hzero | hsaved
  · left
    show min live.unixMs ceiling = 0
    rw [hzero, Nat.zero_min]
  · exact .inr ((mono_le_mono (Nat.min_le_left _ _)).trans hsaved)

theorem Live.tighten_bounded {live : Live} (hsampled : live.sample.Sampled clocks) (ceiling : ℕ) :
    (live.tighten ceiling).BoundedBy clocks (clocks.mono ceiling) :=
  ⟨le_trans (Int.ofNat_le.2 (Nat.min_le_right _ _)) (external_le hsampled ceiling), .inr (mono_le_mono (Nat.min_le_right _ _))⟩

theorem tightenAbsolute_cases {deadline next : TurnDeadline} {reading : Reading} {ceiling : Option ℕ}
    (h : deadline.tightenAbsolute clocks reading ceiling = .ok next) :
    ceiling = none ∧ next = deadline ∨ ∃ value, ceiling = some value ∧
      (deadline.Unlimited → ∃ sample, sample.Sampled clocks ∧ sample.external value ≤ clocks.instantMax ∧
        next.Shows (.ofUnix sample value)) ∧ ∀ live, deadline.Shows live → next.Shows (live.tighten value) := by
  cases ceiling with
  | none => exact .inl ⟨rfl, (Except.ok.inj h).symm⟩
  | some value =>
    simp only [TurnDeadline.tightenAbsolute, bind_eq_ok, pure_eq_ok, mapExternal_eq_ok] at h
    obtain ⟨sample, hsample, instant, ⟨hinstant, hshown⟩, rfl⟩ := h
    refine .inr ⟨value, rfl, fun hnone => ⟨sample, ?_, hshown, ?_⟩, fun live hlive => ?_⟩
    · rw [TurnDeadline.sampled, hnone.sample] at hsample
      exact (capture_sampled hsample).1
    · refine ⟨rfl, ?_, ?_⟩
      · rw [hnone.instant]
        exact congrArg some hinstant
      · rw [hnone.unixMs]
        rfl
    · rw [TurnDeadline.sampled, hlive.sample] at hsample
      obtain rfl := Except.ok.inj hsample
      refine ⟨rfl, ?_, ?_⟩
      · rw [hlive.instant]
        exact congrArg (fun i => some (min live.instant i)) hinstant
      · rw [hlive.unixMs]
        rfl

theorem restore_cases {deadline next : TurnDeadline} {reading : Reading}
    (h : TurnDeadline.restore clocks reading deadline.unixMs = .ok next) :
    (deadline.Unlimited → next.Unlimited) ∧ ∀ live, deadline.Shows live → ∃ sample, sample.Sampled clocks ∧
      sample.before = reading.before ∧ sample.external live.unixMs ≤ clocks.instantMax ∧ next.Shows (.ofUnix sample live.unixMs) := by
  refine ⟨fun hnone => ?_, fun live hlive => ?_⟩
  · rw [hnone.unixMs] at h
    obtain rfl := Except.ok.inj h
    exact ⟨rfl, rfl, rfl⟩
  · rw [hlive.unixMs] at h
    simp only [TurnDeadline.restore, bind_eq_ok, pure_eq_ok, mapExternal_eq_ok] at h
    obtain ⟨sample, hsample, _, ⟨rfl, hshown⟩, rfl⟩ := h
    obtain ⟨hsampled, hbefore⟩ := capture_sampled hsample
    exact ⟨sample, hsampled, hbefore, hshown, rfl, rfl, rfl⟩

/-- **What a chain keeps of limits.**  A deadline with limits keeps having some, and what
neither a ceiling nor a restore breaks goes on holding of them. -/
theorem Chain.shows {start deadline : TurnDeadline} {ceilings : List ℕ} (h : Chain clocks start ceilings deadline)
    {P : Live → Prop} (htighten : ∀ live value, P live → P (live.tighten value))
    (hrestore : ∀ live sample, P live → sample.Sampled clocks → P (.ofUnix sample live.unixMs))
    (hstart : ∃ live, start.Shows live ∧ P live) : ∃ live, deadline.Shows live ∧ P live := by
  induction h with
  | start => exact hstart
  | tighten _ hnext ih =>
    obtain ⟨live, hlive, hP⟩ := ih
    rcases tightenAbsolute_cases hnext with ⟨-, rfl⟩ | ⟨value, -, -, hnext⟩
    · exact ⟨live, hlive, hP⟩
    · exact ⟨_, hnext live hlive, htighten live value hP⟩
  | restore _ hnext ih =>
    obtain ⟨live, hlive, hP⟩ := ih
    obtain ⟨sample, hsampled, -, -, hnext⟩ := (restore_cases hnext).2 live hlive
    exact ⟨_, hnext, hrestore live sample hP hsampled⟩

theorem TurnDeadline.Shows.unique {deadline : TurnDeadline} {live other : Live} (h : deadline.Shows live)
    (hother : deadline.Shows other) : live = other := by
  obtain ⟨sample, instant, unixMs⟩ := live
  obtain ⟨sample', instant', unixMs'⟩ := other
  obtain rfl : sample = sample' := Option.some.inj (h.sample.symm.trans hother.sample)
  obtain rfl : instant = instant' := Option.some.inj (h.instant.symm.trans hother.instant)
  obtain rfl : unixMs = unixMs' := Option.some.inj (h.unixMs.symm.trans hother.unixMs)
  rfl

theorem Chain.trans {start middle deadline : TurnDeadline} {before later : List ℕ} (h : Chain clocks middle later deadline)
    (hbefore : Chain clocks start before middle) : Chain clocks start (later ++ before) deadline := by
  induction h with
  | start => exact hbefore
  | tighten _ hnext ih =>
    rw [List.append_assoc]
    exact ih.tighten hnext
  | restore _ hnext ih => exact ih.restore hnext

theorem Chain.bounded {start deadline : TurnDeadline} {ceilings : List ℕ} (h : Chain clocks start ceilings deadline)
    {bound : ℤ} {first live : Live} (hfirst : start.Shows first) (hbound : first.BoundedBy clocks bound)
    (hlive : deadline.Shows live) : live.BoundedBy clocks bound := by
  obtain ⟨other, hother, hP⟩ := h.shows (fun _ value hP => hP.tighten value)
    (fun _ _ hP hsampled => Live.ofUnix_bounded hsampled hP.saved) ⟨first, hfirst, hbound⟩
  exact hlive.unique hother ▸ hP

/-- A deadline within a window and under some ceilings. -/
structure Live.Within (clocks : MachineClocks) (window : Option ℕ) (ceilings : List ℕ) (live : Live) : Prop where
  held : live.Held clocks
  fits : live.unixMs < 2 ^ 64 ∨ live.unixMs ∈ ceilings
  window : ∀ last : ℕ, window = some last → live.BoundedBy clocks last
  ceilings : ∀ value ∈ ceilings, live.unixMs ≤ value ∧ live.BoundedBy clocks (clocks.mono value)

theorem Live.ofUnix_within {sample : ClockSample} {unixMs : ℕ} (hsampled : sample.Sampled clocks)
    (hshown : sample.external unixMs ≤ clocks.instantMax) : (Live.ofUnix sample unixMs).Within clocks none [unixMs] := by
  refine ⟨Live.ofUnix_held hsampled hshown, .inr List.mem_cons_self, (fun _ h => nomatch h), fun other hother => ?_⟩
  obtain rfl := List.mem_singleton.1 hother
  exact ⟨le_rfl, Live.ofUnix_bounded hsampled (.inr le_rfl)⟩

theorem Live.Within.tighten {window : Option ℕ} {ceilings : List ℕ} {live : Live} (h : live.Within clocks window ceilings)
    (value : ℕ) : (live.tighten value).Within clocks window (value :: ceilings) := by
  refine ⟨h.held.tighten value, ?_, fun last hlast => (h.window last hlast).tighten value, ?_⟩
  · show min live.unixMs value < 2 ^ 64 ∨ min live.unixMs value ∈ value :: ceilings
    rcases Nat.le_total live.unixMs value with hle | hle
    · rw [Nat.min_eq_left hle]
      exact h.fits.imp_right (List.mem_cons_of_mem _)
    · rw [Nat.min_eq_right hle]
      exact .inr List.mem_cons_self
  · intro other hother
    rcases List.mem_cons.1 hother with rfl | hother
    · exact ⟨Nat.min_le_right _ _, Live.tighten_bounded h.held.sampled other⟩
    · obtain ⟨hle, hbounded⟩ := h.ceilings other hother
      exact ⟨(Nat.min_le_left _ _).trans hle, hbounded.tighten value⟩

theorem Live.Within.ofUnix {window : Option ℕ} {ceilings : List ℕ} {live : Live} (h : live.Within clocks window ceilings)
    {sample : ClockSample} (hsampled : sample.Sampled clocks) (hshown : sample.external live.unixMs ≤ clocks.instantMax) :
    (Live.ofUnix sample live.unixMs).Within clocks window ceilings where
  held := Live.ofUnix_held hsampled hshown
  fits := h.fits
  window last hlast := Live.ofUnix_bounded hsampled (h.window last hlast).saved
  ceilings value hvalue := ⟨(h.ceilings value hvalue).1, Live.ofUnix_bounded hsampled (h.ceilings value hvalue).2.saved⟩

/-- A deadline without limits was given none; one with limits keeps them. -/
def TurnDeadline.Kept (clocks : MachineClocks) (window : Option ℕ) (ceilings : List ℕ) (deadline : TurnDeadline) : Prop :=
  (deadline.Unlimited ∧ window = none ∧ ceilings = []) ∨ ∃ live, deadline.Shows live ∧ live.Within clocks window ceilings

/-- The limits of a duration. -/
def Live.ofDuration (sample : ClockSample) (limit : ℕ) : Live where
  sample := sample
  instant := sample.ownInstant limit
  unixMs := sample.relative limit

theorem Live.ofDuration_within {sample : ClockSample} {limit : ℕ} (hsampled : sample.Sampled clocks)
    (hfits : sample.relative limit < 2 ^ 64) (hown : sample.before + limit ≤ clocks.instantMax) :
    (Live.ofDuration sample limit).Within clocks (some (sample.before + limit)) [] := by
  have hle : sample.ownInstant limit ≤ sample.before + limit := Nat.min_le_left _ _
  have hge : sample.before ≤ sample.ownInstant limit := by
    have hstarted := hsampled.started
    have hended := hsampled.ended
    unfold ClockSample.ownInstant
    omega
  have hsaved := mono_relative hsampled limit
  refine ⟨⟨hsampled, hle.trans hown, ?_⟩, .inl hfits, ?_, fun _ h => (nomatch h)⟩
  · show clocks.mono (sample.relative limit) ≤ sample.ownInstant limit + sample.lag clocks
    have hstarted := hsampled.started
    unfold ClockSample.lag
    rcases hsaved with hzero | hsaved
    · rw [hzero]
      unfold MachineClocks.mono
      omega
    · omega
  · rintro last ⟨⟩
    refine ⟨le_max_of_le_left (Int.ofNat_le.2 hle), ?_⟩
    exact hsaved.imp_right fun h => h.trans (Int.ofNat_le.2 hle)

/-- **What is captured**: the numbers themselves, which the clocks can show. -/
theorem capture_eq_ok {reading : Reading} {duration ceiling : Option ℕ} {deadline : TurnDeadline}
    (h : TurnDeadline.capture clocks reading duration ceiling = .ok deadline) :
    duration = none ∧ ceiling = none ∧ deadline.Unlimited ∨ ¬(duration = none ∧ ceiling = none) ∧ ∃ sample,
      ClockSample.capture clocks reading = .ok sample ∧ deadline = .exact duration ceiling sample ∧
        Shown clocks duration ceiling sample := by
  unfold TurnDeadline.capture at h
  split_ifs at h with hnone
  · obtain rfl := Except.ok.inj h
    exact .inl ⟨Option.isNone_iff_eq_none.1 hnone.1, Option.isNone_iff_eq_none.1 hnone.2, rfl, rfl, rfl⟩
  · simp only [bind_eq_ok, fromSample_eq_ok] at h
    rw [Option.isNone_iff_eq_none, Option.isNone_iff_eq_none] at hnone
    exact .inr ⟨hnone, h⟩

theorem capture_kept {reading : Reading} {duration ceiling : Option ℕ} {deadline : TurnDeadline}
    (h : TurnDeadline.capture clocks reading duration ceiling = .ok deadline) :
    deadline.Kept clocks (duration.map (reading.before + ·)) ceiling.toList := by
  rcases capture_eq_ok h with ⟨rfl, rfl, hnone⟩ | ⟨hsome, sample, hsample, rfl, hshown⟩
  · exact .inl ⟨hnone, rfl, rfl⟩
  · obtain ⟨hsampled, hbefore⟩ := capture_sampled hsample
    rw [← hbefore]
    cases duration with
    | none =>
      cases ceiling with
      | none => exact absurd ⟨rfl, rfl⟩ hsome
      | some value =>
        exact .inr ⟨.ofUnix sample value, ⟨rfl, rfl, rfl⟩, Live.ofUnix_within hsampled (hshown.external value rfl)⟩
    | some limit =>
      have hwithin := Live.ofDuration_within hsampled (hshown.unix limit rfl).2 (hshown.own limit rfl).1
      cases ceiling with
      | none => exact .inr ⟨.ofDuration sample limit, ⟨rfl, rfl, rfl⟩, hwithin⟩
      | some value => exact .inr ⟨(Live.ofDuration sample limit).tighten value, ⟨rfl, rfl, rfl⟩, hwithin.tighten value⟩

theorem Chain.kept {start deadline : TurnDeadline} {window : Option ℕ} {given ceilings : List ℕ}
    (h : Chain clocks start ceilings deadline) (hstart : start.Kept clocks window given) :
    deadline.Kept clocks window (ceilings ++ given) := by
  induction h with
  | start => exact hstart
  | @tighten ceilings deadline next reading ceiling _ hnext ih =>
    rcases tightenAbsolute_cases hnext with ⟨rfl, rfl⟩ | ⟨value, rfl, hunlimited, hlimited⟩
    · exact ih
    · rcases ih with ⟨hnone, rfl, hempty⟩ | ⟨live, hlive, hwithin⟩
      · obtain ⟨sample, hsampled, hshown, hshows⟩ := hunlimited hnone
        rw [Option.toList_some, List.append_assoc, hempty]
        exact .inr ⟨_, hshows, Live.ofUnix_within hsampled hshown⟩
      · exact .inr ⟨_, hlimited live hlive, hwithin.tighten value⟩
  | restore _ hnext ih =>
    rcases ih with ⟨hnone, hrest⟩ | ⟨live, hlive, hwithin⟩
    · exact .inl ⟨(restore_cases hnext).1 hnone, hrest⟩
    · obtain ⟨sample, hsampled, -, hshown, hshows⟩ := (restore_cases hnext).2 live hlive
      exact .inr ⟨_, hshows, hwithin.ofUnix hsampled hshown⟩

theorem Chain.gains {start deadline : TurnDeadline} {ceilings : List ℕ} (h : Chain clocks start ceilings deadline)
    {first live : Live} (hfirst : start.Shows first) (hheld : first.Held clocks) (hlive : deadline.Shows live) :
    (live.instant : ℤ) ≤ max (first.instant + first.sample.lag clocks) live.sample.before := by
  have hlag : 0 ≤ first.sample.lag clocks := Int.sub_nonneg.2 hheld.sampled.started
  have hbound : first.BoundedBy clocks (first.instant + first.sample.lag clocks) :=
    ⟨le_max_of_le_left (Int.le_add_of_nonneg_right hlag), .inr hheld.saved⟩
  exact (h.bounded hfirst hbound hlive).instant

theorem Chain.relative {reading : Reading} {duration : Option ℕ} {captured deadline : TurnDeadline} {ceilings : List ℕ}
    (hcapture : TurnDeadline.capture clocks reading duration none = .ok captured) (h : Chain clocks captured ceilings deadline)
    {first live : Live} (hfirst : captured.Shows first) (hlive : deadline.Shows live) :
    live.BoundedBy clocks first.instant := by
  refine h.bounded hfirst ⟨le_max_left _ _, ?_⟩ hlive
  rcases capture_eq_ok hcapture with ⟨-, -, hnone⟩ | ⟨hsome, sample, hsample, rfl, -⟩
  · exact nomatch hnone.sample.symm.trans hfirst.sample
  · cases duration with
    | none => exact absurd ⟨rfl, rfl⟩ hsome
    | some limit =>
      have hinstant : sample.ownInstant limit = first.instant := Option.some.inj hfirst.instant
      have hunix : sample.relative limit = first.unixMs := Option.some.inj hfirst.unixMs
      rw [← hinstant, ← hunix]
      exact mono_relative (capture_sampled hsample).1 limit

/-- **A deadline is not extended by being saved.**  Along every chain from a capture the
limits stay: the live instant is within the captured window and every ceiling that had not
passed when its sample was taken, and what is saved is within every ceiling
(`Live.Within`).  A restore is within what was saved.  Over the live instant of any earlier
deadline it gains at most what passed of the sample of that deadline before it read the
wall clock, and it gains nothing over the captured one where no ceiling was given. -/
theorem chain_within {reading : Reading} {duration ceiling : Option ℕ} {captured middle deadline : TurnDeadline}
    {before later : List ℕ} (hcapture : TurnDeadline.capture clocks reading duration ceiling = .ok captured)
    (hmiddle : Chain clocks captured before middle) (hchain : Chain clocks middle later deadline) :
    (captured.Unlimited ∨ ∃ sample, captured = .exact duration ceiling sample ∧ Shown clocks duration ceiling sample) ∧
      deadline.Kept clocks (duration.map (reading.before + ·)) (later ++ (before ++ ceiling.toList)) ∧
      (∀ first live, middle.Shows first → deadline.Shows live →
        (live.instant : ℤ) ≤ max (first.instant + first.sample.lag clocks) live.sample.before) ∧
      (∀ live reading' restored, deadline.Shows live → TurnDeadline.restore clocks reading' deadline.unixMs = .ok restored →
        ∃ next, restored.Shows next ∧ next.sample.before = reading'.before ∧ next.unixMs = live.unixMs ∧
          (next.instant : ℤ) ≤ max (clocks.mono live.unixMs) reading'.before) ∧
      (ceiling = none → ∀ first live, captured.Shows first → deadline.Shows live → live.BoundedBy clocks first.instant) := by
  have hkept := hmiddle.kept (capture_kept hcapture)
  refine ⟨?_, hchain.kept hkept, fun first live hfirst hlive => ?_, fun live reading' restored hlive hrestore => ?_, ?_⟩
  · rcases capture_eq_ok hcapture with ⟨-, -, hnone⟩ | ⟨-, sample, -, hexact, hshown⟩
    · exact .inl hnone
    · exact .inr ⟨sample, hexact, hshown⟩
  · rcases hkept with ⟨hnone, -⟩ | ⟨other, hother, hwithin⟩
    · exact nomatch hnone.sample.symm.trans hfirst.sample
    · exact hchain.gains hfirst (hfirst.unique hother ▸ hwithin.held) hlive
  · obtain ⟨sample, hsampled, hbefore, -, hshows⟩ := (restore_cases hrestore).2 live hlive
    refine ⟨_, hshows, hbefore, rfl, ?_⟩
    rw [← hbefore]
    exact external_le hsampled live.unixMs
  · rintro rfl first live hfirst hlive
    exact (hchain.trans hmiddle).relative hcapture hfirst hlive

/-! ### A ceiling that is saved between two readings -/

section Ceilings

def evenClocks : MachineClocks := { instantMax := 2 ^ 63, epoch := 0 }

def slowReading : Reading := ⟨1000, 1000000, 1000000, by decide, by decide⟩

def quickReading : Reading := ⟨2000000, 2000000, 2000000, le_rfl, le_rfl⟩

/-- **A restore can gain time.**  A ceiling of ten milliseconds is live until 9.001 ms when
the clocks were read slowly, which is before the millisecond that is saved, and until the
tenth when it is restored from a quick reading.  A ceiling that had passed is live at the
start of its sample, after the ceiling. -/
theorem restore_gains : ∃ captured restored expired,
    TurnDeadline.capture evenClocks slowReading none (some 10) = .ok captured ∧ captured.unixMs = some 10 ∧
      captured.instant = some 9001000 ∧ 9001000 < evenClocks.mono 10 ∧
      TurnDeadline.restore evenClocks quickReading captured.unixMs = .ok restored ∧
        restored.instant = some 10000000 ∧ max 9001000 quickReading.before < 10000000 ∧
      TurnDeadline.capture evenClocks slowReading none (some 0) = .ok expired ∧ expired.instant = some 1000 ∧
        evenClocks.mono 0 < 1000 :=
  ⟨⟨none, some ⟨1000, 1000000, 1000000⟩, some 9001000, some 10⟩, ⟨none, some ⟨2000000, 2000000, 2000000⟩, some 10000000, some 10⟩,
    ⟨none, some ⟨1000, 1000000, 1000000⟩, some 1000, some 0⟩, by decide +kernel⟩

def sixMillis : TurnDeadline :=
  { duration := some 6000000, sample := some ⟨1000, 1000000, 1000000⟩, instant := some 6000000, unixMs := some 6 }

def fiveMillis : TurnDeadline :=
  { duration := none, sample := some ⟨2000000, 2000000, 2000000⟩, instant := some 5000000, unixMs := some 5 }

theorem chain_within_sixMillis : TurnDeadline.capture evenClocks slowReading (some 6000000) (some 10) = .ok sixMillis ∧
    fiveMillis.Kept evenClocks (some 6001000) [5, 10] := by
  have hcapture : TurnDeadline.capture evenClocks slowReading (some 6000000) (some 10) = .ok sixMillis := by decide +kernel
  have htighten : sixMillis.tightenAbsolute evenClocks quickReading (some 5) =
      .ok { sixMillis with instant := some 4001000, unixMs := some 5 } := by decide +kernel
  have hrestore : TurnDeadline.restore evenClocks quickReading (some 5) = .ok fiveMillis := by decide +kernel
  obtain ⟨-, hkept, -⟩ := chain_within hcapture (Chain.start.tighten htighten) (Chain.start.restore hrestore)
  exact ⟨hcapture, hkept⟩

end Ceilings

end Chains

end Clocks
end Turn
end Kolyan
