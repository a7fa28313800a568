/-
# Retries need evidence

A retry re-executes external effects, so an attempt after the first needs a
stopped predecessor and evidence about it.  The flag `retry_authorized` lives on
the attempt and the last observation does too, while startability is judged on
the invocation; `Witnessed` ties both to the events of the run: an attempt
carries its last accepted observation, the cursors of its observations increase,
and an authorized attempt failed after a `RetryAuthorized` event that names it.
-/

import Kolyan.Tasks.Progress

namespace Kolyan
namespace Tasks

open Checks Facts OrderedMaps

/-- The observation an event records of an attempt. -/
def TaskEvent.observes (id : String) : TaskEvent → Option AttemptObservation
  | attemptObserved observation => if observation.attemptId = id then some observation else none
  | _ => none

theorem TaskEvent.observes_attemptObserved (observation : AttemptObservation) (id : String) :
    (attemptObserved observation).observes id =
      if observation.attemptId = id then some observation else none := rfl

/-- The accepted observations of an attempt, in order. -/
def observations (history : List (TaskSnapshot × TaskEvent)) (id : String) : List AttemptObservation :=
  history.filterMap fun step => step.2.observes id

/-- An accepted event of the run authorizes a retry of the attempt, with a
source bound to its execution and ahead of all of its observations. -/
def Authorized (history : List (TaskSnapshot × TaskEvent)) (id : String) (attempt : AttemptSnapshot) :
    Prop :=
  ∃ step ∈ history, ∃ source why, step.2 = .retryAuthorized id source why ∧
    source.execution = attempt.binding.execution ∧
    ∀ o, (observations history id).getLast? = some o → o.source.cursor < source.cursor

/-- The attempts of a snapshot carry what the run observed of them. -/
structure Witnessed (history : List (TaskSnapshot × TaskEvent)) (state : TaskSnapshot) : Prop where
  last : ∀ (id : String) (attempt : AttemptSnapshot), state.attempts[id]? = some attempt →
    attempt.observation = (observations history id).getLast?
  unknown : ∀ id, id ∉ state.attempts → observations history id = []
  increasing : ∀ id, (observations history id).Pairwise fun a b => a.source.cursor < b.source.cursor
  authorized : ∀ (id : String) (attempt : AttemptSnapshot), state.attempts[id]? = some attempt →
    attempt.retryAuthorized = true → attempt.state = .failed ∧ Authorized history id attempt

section Steps

variable {record : FactRecord} {state moved : TaskSnapshot} {event : TaskEvent}

theorem Effect.observation (h : Effect record state event moved) {id : String}
    {attempt' : AttemptSnapshot} (hattempt' : moved.attempts[id]? = some attempt') :
    attempt'.observation =
      (event.observes id).or ((state.attempts[id]?).bind fun attempt => attempt.observation) := by
  have hstart : ∀ {inv binding}, Startable state inv binding →
      (state.started inv binding).attempts[id]? = some attempt' →
      attempt'.observation = (state.attempts[id]?).bind fun attempt => attempt.observation := by
    intro inv binding hs hlookup
    rw [started_attempts] at hlookup
    split_ifs at hlookup with heq
    · obtain rfl := Option.some.inj hlookup
      rw [← heq, notMem_iff.1 hs.attempt.attempt]
      rfl
    · rw [hlookup]
      rfl
  have hmove : ∀ {k attempt next}, (state.attempts.insert k next)[id]? = some attempt' →
      state.attempts[k]? = some attempt → next.observation = attempt.observation →
      attempt'.observation = (state.attempts[id]?).bind fun attempt => attempt.observation := by
    intro k attempt next hlookup hattempt hsame
    rw [getElem?_insert] at hlookup
    split_ifs at hlookup with heq
    · obtain rfl := Option.some.inj hlookup
      rw [← heq, hattempt, hsame]
      rfl
    · rw [hlookup]
      rfl
  cases h with
  | budgeted _ startable => exact hstart startable hattempt'
  | started _ startable => exact hstart startable hattempt'
  | @observed observation attempt inv next usage total o =>
    replace hattempt' : (state.attempts.insert _ _)[id]? = some attempt' := hattempt'
    rw [getElem?_insert] at hattempt'
    rw [TaskEvent.observes_attemptObserved]
    split_ifs at hattempt' ⊢ with heq
    · obtain rfl := Option.some.inj hattempt'
      rfl
    · rw [hattempt']
      rfl
  | resumed r => exact hmove hattempt' r.lookup rfl
  | recovered lookup _ _ => exact hmove hattempt' lookup rfl
  | authorized a => exact hmove hattempt' a.lookup rfl
  | cancelled =>
    rw [Std.ExtTreeMap.getElem?_map, Option.map_eq_some_iff] at hattempt'
    obtain ⟨attempt, hattempt, rfl⟩ := hattempt'
    rw [hattempt]
    split_ifs <;> rfl
  | _ =>
    rw [show state.attempts[id]? = some attempt' from hattempt']
    rfl

theorem Effect.observes (h : Effect record state event moved) {id : String}
    {observation : AttemptObservation} (hobserves : event.observes id = some observation) :
    ∃ attempt, state.attempts[id]? = some attempt ∧ ∀ previous, attempt.observation = some previous →
      previous.source.cursor < observation.source.cursor := by
  cases h with
  | observed o =>
    rw [TaskEvent.observes_attemptObserved] at hobserves
    split_ifs at hobserves with heq
    obtain rfl := Option.some.inj hobserves
    exact ⟨_, heq ▸ o.lookup, o.advances⟩
  | _ => simp [TaskEvent.observes] at hobserves

theorem Effect.mem_attempts (h : Effect record state event moved) {id : String}
    (hid : id ∉ moved.attempts) : id ∉ state.attempts := by
  intro hmem
  obtain ⟨attempt, hattempt⟩ := mem_iff_exists.1 hmem
  obtain ⟨attempt', hattempt', _⟩ := h.keepsAttempt hattempt
  exact hid (mem_of_getElem? hattempt')

theorem Effect.retryAuthorized (h : Effect record state event moved) {id : String}
    {attempt' : AttemptSnapshot} (hattempt' : moved.attempts[id]? = some attempt')
    (hauthorized : attempt'.retryAuthorized = true) :
    (∃ source why, event = .retryAuthorized id source why ∧
      source.execution = attempt'.binding.execution ∧ attempt'.cursor < source.cursor ∧
      attempt'.state = .failed) ∨
    ∃ attempt, state.attempts[id]? = some attempt ∧ attempt.retryAuthorized = true := by
  have hmove : ∀ {k attempt next}, (state.attempts.insert k next)[id]? = some attempt' →
      state.attempts[k]? = some attempt → next.retryAuthorized = attempt.retryAuthorized →
      ∃ attempt, state.attempts[id]? = some attempt ∧ attempt.retryAuthorized = true := by
    intro k attempt next hlookup hattempt hsame
    rw [getElem?_insert] at hlookup
    split_ifs at hlookup with heq
    · obtain rfl := Option.some.inj hlookup
      exact ⟨attempt, heq ▸ hattempt, hsame ▸ hauthorized⟩
    · exact ⟨attempt', hlookup, hauthorized⟩
  have hstart : ∀ {binding}, (state.attempts.insert binding.attemptId (.started binding))[id]? =
      some attempt' → ∃ attempt, state.attempts[id]? = some attempt ∧ attempt.retryAuthorized = true := by
    intro binding hlookup
    rw [getElem?_insert] at hlookup
    split_ifs at hlookup with heq
    · obtain rfl := Option.some.inj hlookup
      simp [AttemptSnapshot.started] at hauthorized
    · exact ⟨attempt', hlookup, hauthorized⟩
  cases h with
  | budgeted => exact Or.inr (hstart hattempt')
  | started => exact Or.inr (hstart hattempt')
  | observed o => exact Or.inr (hmove hattempt' o.lookup rfl)
  | resumed r => exact Or.inr (hmove hattempt' r.lookup rfl)
  | recovered lookup _ _ => exact Or.inr (hmove hattempt' lookup rfl)
  | @authorized k source why attempt inv a =>
    rw [moved_attempts] at hattempt'
    split_ifs at hattempt' with heq
    · obtain rfl := Option.some.inj hattempt'
      subst heq
      exact Or.inl ⟨source, why, rfl, a.bound, a.advances, rfl⟩
    · exact Or.inr ⟨attempt', hattempt', hauthorized⟩
  | cancelled =>
    rw [Std.ExtTreeMap.getElem?_map, Option.map_eq_some_iff] at hattempt'
    obtain ⟨attempt, hattempt, rfl⟩ := hattempt'
    refine Or.inr ⟨attempt, hattempt, ?_⟩
    split_ifs at hauthorized <;> exact hauthorized
  | _ => exact Or.inr ⟨attempt', hattempt', hauthorized⟩

theorem AttemptSnapshot.cursor_of_observation {attempt : AttemptSnapshot} {o : AttemptObservation}
    (h : attempt.observation = some o) : attempt.cursor = o.source.cursor := by
  simp [AttemptSnapshot.cursor, h]

end Steps

section Runs

variable {sha256 : Value → String} {history : List (TaskSnapshot × TaskEvent)} {state : TaskSnapshot}

theorem observations_append (step : TaskSnapshot × TaskEvent) (id : String) :
    observations (history ++ [step]) id = observations history id ++ (step.2.observes id).toList := by
  simp only [observations, List.filterMap_append, List.append_cancel_left_eq]
  cases h : step.2.observes id <;> simp [h]

theorem Witnessed.step (hw : Witnessed history state) {record : FactRecord} {event : TaskEvent}
    {moved : TaskSnapshot} (h : Effect record state event moved) :
    Witnessed (history ++ [(state, event)]) moved := by
  have hlast : ∀ id, (state.attempts[id]?).bind (fun attempt => attempt.observation) =
      (observations history id).getLast? := by
    intro id
    cases hid : state.attempts[id]? with
    | none => rw [hw.unknown id (notMem_iff.2 hid)]; rfl
    | some attempt => exact hw.last id attempt hid
  have hcarried : ∀ (id : String) (attempt' : AttemptSnapshot), moved.attempts[id]? = some attempt' →
      attempt'.observation = (observations (history ++ [(state, event)]) id).getLast? := by
    intro id attempt' hattempt'
    rw [h.observation hattempt', hlast, observations_append]
    cases event.observes id with
    | none => simp
    | some o => simp
  refine ⟨hcarried, fun id hid => ?_, fun id => ?_, fun id attempt' hattempt' hauthorized => ?_⟩
  · have hold := h.mem_attempts hid
    rw [observations_append, hw.unknown id hold]
    cases hobserves : event.observes id with
    | none => simp
    | some o =>
      obtain ⟨attempt, hattempt, _⟩ := h.observes hobserves
      exact absurd (mem_of_getElem? hattempt) hold
  · rw [observations_append]
    cases hobserves : event.observes id with
    | none => simpa using hw.increasing id
    | some o =>
      obtain ⟨attempt, hattempt, hadvances⟩ := h.observes hobserves
      rw [Option.toList_some, List.pairwise_append]
      refine ⟨hw.increasing id, List.pairwise_singleton _ _, fun a ha b hb => ?_⟩
      rw [List.mem_singleton.1 hb]
      -- every earlier cursor is at most the last one
      obtain ⟨front, previous, hsplit⟩ :=
        (List.eq_nil_or_concat' (observations history id)).resolve_left (List.ne_nil_of_mem ha)
      have hprevious : attempt.observation = some previous := by
        rw [hw.last id attempt hattempt, hsplit, List.getLast?_concat]
      have hlt := hadvances previous hprevious
      have hsorted := hw.increasing id
      rw [hsplit, List.pairwise_append] at hsorted
      rw [hsplit] at ha
      rcases List.mem_append.1 ha with ha | ha
      · have := hsorted.2.2 a ha previous (List.mem_singleton_self _)
        omega
      · rw [List.mem_singleton.1 ha]
        exact hlt
  · rcases h.retryAuthorized hattempt' hauthorized with ⟨source, why, rfl, hbound, hcursor, hfailed⟩ |
      ⟨attempt, hattempt, hold⟩
    · refine ⟨hfailed, _, List.mem_append_right _ (List.mem_singleton_self _), source, why, rfl, hbound,
        fun o ho => ?_⟩
      rw [← hcarried id attempt' hattempt'] at ho
      rw [AttemptSnapshot.cursor_of_observation ho] at hcursor
      exact hcursor
    · obtain ⟨hfailed, step, hstep, source, why, hevent, hbound, hahead⟩ :=
        hw.authorized id attempt hattempt hold
      obtain ⟨next, hnext, hkeeps⟩ := h.keepsAttempt hattempt
      obtain rfl : next = attempt' := Option.some.inj (hnext.symm.trans hattempt')
      -- an authorized attempt has failed, so no later event moves it
      have hstopped : ¬attempt.state.IsLive := fun hlive => hlive.ne_failed hfailed
      obtain ⟨hstate, hsame⟩ := hkeeps.stopped hstopped
      refine ⟨hstate.trans hfailed, step, List.mem_append_left _ hstep, source, why, hevent,
        by rw [hkeeps.binding]; exact hbound, fun o ho => hahead o ?_⟩
      rw [← hcarried id next hattempt', hsame, hw.last id attempt hattempt] at ho
      exact ho

theorem TaskRun.witnessed (run : TaskRun sha256 history state) : Witnessed history state := by
  induction run with
  | registered h =>
    simp only [apply, bind_eq_ok, pure_eq_ok] at h
    obtain ⟨_, _, rfl⟩ := h
    constructor <;> simp [TaskSnapshot.registered, observations]
  | event run h ih =>
    obtain ⟨_, moved, heffect, rfl⟩ := apply_effect h
    have hnext := ih.step heffect
    exact ⟨hnext.last, hnext.unknown, hnext.increasing, hnext.authorized⟩
  | skipped run position ih => exact ⟨ih.last, ih.unknown, ih.increasing, ih.authorized⟩

theorem apply_starts {record : FactRecord} {event : TaskEvent} {next : TaskSnapshot}
    (h : apply sha256 (some state) event record = .ok next) {binding : AttemptBinding}
    (hstarts : event.starts = some binding) : ∃ inv, Startable state inv binding := by
  obtain ⟨_, moved, heffect, _⟩ := apply_effect h
  cases heffect with
  | budgeted _ startable => exact ⟨_, Option.some.inj hstarts ▸ startable⟩
  | started _ startable => exact ⟨_, Option.some.inj hstarts ▸ startable⟩
  | _ => simp [TaskEvent.starts] at hstarts

/-- **Retries need evidence.**  Whenever an event starts an attempt of an
invocation that had one, every earlier attempt of it failed, and about the last
of them either its last accepted observation reported a failure that is safe to
retry, or an accepted event authorized the retry of exactly that attempt, with a
source bound to its execution and ahead of its last observation.  The cursors of
the accepted observations of each attempt increase strictly. -/
theorem TaskRun.retries_need_evidence (run : TaskRun sha256 history state) :
    (∀ (event : TaskEvent) (record : FactRecord) (next : TaskSnapshot) (binding : AttemptBinding),
      apply sha256 (some state) event record = .ok next → event.starts = some binding →
      ∃ inv, state.invocations[binding.invocationId]? = some inv ∧
        (∀ id ∈ inv.attempts, ∀ (attempt : AttemptSnapshot), state.attempts[id]? = some attempt →
          attempt.state = .failed) ∧
        (inv.attempts = [] ∨ ∃ id attempt, inv.attempts.getLast? = some id ∧
          state.attempts[id]? = some attempt ∧ attempt.state = .failed ∧
          ((∃ o why, (observations history id).getLast? = some o ∧ o.outcome = .failed why true) ∨
            Authorized history id attempt))) ∧
    ∀ id, (observations history id).Pairwise fun a b => a.source.cursor < b.source.cursor := by
  have hw := run.witnessed
  obtain ⟨ho, hs⟩ := run.inStep
  refine ⟨fun event record next binding h hstarts => ?_, hw.increasing⟩
  obtain ⟨inv, hstartable⟩ := apply_starts h hstarts
  have hfailed := hs.failed_of_startable hstartable
  refine ⟨inv, hstartable.lookup, hfailed, ?_⟩
  rcases hstartable.evidence with hadmitted | ⟨_, id, attempt, hlast, hattempt, hevidence⟩
  · left
    by_contra hne
    -- the state of a started attempt is never `admitted`
    obtain ⟨front, id, hsplit⟩ := (List.eq_nil_or_concat' inv.attempts).resolve_left hne
    have hmem : id ∈ inv.attempts := by rw [hsplit]; simp
    obtain ⟨attempt, hattempt, _⟩ := ho.listed _ inv hstartable.lookup id hmem
    obtain ⟨hstate, hstarted⟩ := hs.states _ inv hstartable.lookup id hmem attempt hattempt
    rw [InvocationSnapshot.stateOf, hsplit, List.getLast?_concat, if_pos rfl] at hstate
    exact hstarted (hstate.trans hadmitted)
  · right
    have hstate := hfailed id (List.mem_of_getLast? hlast) attempt hattempt
    refine ⟨id, attempt, hlast, hattempt, hstate, ?_⟩
    rcases hevidence with hauthorized | hsafe
    · exact Or.inr (hw.authorized id attempt hattempt hauthorized).2
    · left
      unfold AttemptSnapshot.failedSafely at hsafe
      rw [Option.any_eq_true] at hsafe
      obtain ⟨o, hobservation, houtcome⟩ := hsafe
      rw [hw.last id attempt hattempt] at hobservation
      cases hout : o.outcome with
      | failed why safe =>
        rw [hout] at houtcome
        obtain rfl : safe = true := houtcome
        exact ⟨o, why, hobservation, hout⟩
      | _ => simp [hout] at houtcome

def sampleRetry : AttemptBinding :=
  { sampleBinding with attemptId := "second", execution := ⟨"session", "turn", "execution-2"⟩ }

def sampleObservation (binding : AttemptBinding) (cursor : ℕ) (outcome : AttemptOutcome) :
    AttemptObservation where
  attemptId := binding.attemptId
  execution := binding.execution
  source := ⟨binding.execution, "stopped", cursor⟩
  usage := ⟨2, 1, 0⟩
  outcome := outcome

/-- A safe failure of the first sample attempt lets a second one start. -/
theorem TaskRun.retries_need_evidence_retry : ∃ history state next,
    TaskRun (fun _ => "") history state ∧
      apply (fun _ => "") (some state) (.attemptStarted sampleRetry) (sampleRecord 5) = .ok next ∧
      ∃ inv, state.invocations["root"]? = some inv ∧ ∀ id ∈ inv.attempts,
        ∀ (attempt : AttemptSnapshot), state.attempts[id]? = some attempt → attempt.state = .failed := by
  have h : (sampleEvents [.invocationAdmitted sampleRoot, .attemptStarted sampleBinding,
      .attemptObserved (sampleObservation sampleBinding 1 (.failed "lost" true))]).toOption.any
      (fun run => (apply (fun _ => "") (some run.2) (.attemptStarted sampleRetry)
        (sampleRecord 5)).toOption.isSome) = true := by
    decide
  simp only [Option.any_eq_true, Option.isSome_iff_exists, toOption_eq_some] at h
  obtain ⟨⟨history, state⟩, hrun, next, hnext⟩ := h
  have run := sampleEvents_run hrun
  obtain ⟨inv, hinv, hfailed, _⟩ :=
    (TaskRun.retries_need_evidence run).1 (.attemptStarted sampleRetry) (sampleRecord 5) next sampleRetry
      hnext rfl
  exact ⟨history, state, next, run, hnext, inv, hinv, hfailed⟩

end Runs

end Tasks
end Kolyan
