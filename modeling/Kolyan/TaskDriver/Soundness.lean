/-
# Retry proofs among other writers

A call of `authorize_retry` runs between the writers of the ledger and of the task
journal.  `Passage` is what a call that answered has gone through: the snapshot it
began with, the proof it planned on its first read, the ledger of its last read
and the command that ended it.  From a passage follow both halves of
`retry_proofs_sound`: the last read shows facts that may be retried, closed by the
proof, and the same call on those facts answers again and appends nothing.
-/

import Kolyan.TaskDriver.Authorization

namespace Kolyan
namespace TaskDriver

open Checks Threads Facts Ledger Tasks Driver OrderedMaps

/-- The operations of the public methods: a registration goes to the stream of its
task. -/
def submits : TaskOp → Prop
  | .command taskId _ event => Submits taskId event
  | _ => True

/-- What other threads do to the host of a call: the journal grows along a run, and
the stream of the task is left alone if `calm` says so. -/
structure HostGrows {J : Type} {journal : FactJournal J} (contract : journal.Contract) (host : TaskHost)
    (taskId : String) (calm : Prop) (a b : TaskHostState J) : Prop where
  run : Run contract host taskId b.journal
  grows : Grows contract a.journal b.journal
  calm : calm → contract.rows b.journal taskId = contract.rows a.journal taskId

section Rules

variable {σ J ε α : Type} {P : LedgerStore σ} {C : P.Contract} {journal : FactJournal J}
variable {contract : journal.Contract} {host : TaskHost} {taskId : String} {pages thread : ℕ} {calm : Prop}

theorem HostGrows.trans {a b c : TaskHostState J} (h : HostGrows contract host taskId calm a b)
    (h' : HostGrows contract host taskId calm b c) : HostGrows contract host taskId calm a c :=
  ⟨h'.run, h.grows.trans h'.grows, fun hcalm => (h'.calm hcalm).trans (h.calm hcalm)⟩

variable (C contract host taskId pages thread calm) in
/-- A call among the writers of the ledger and of the task journal. -/
abbrev calls : Setting (Op TaskOp) (Op.Answer TaskOp.Answer) (World σ (TaskHostState J)) :=
  setting C (fun _ => True) (HostGrows contract host taskId calm) (taskStep journal host pages)
    (fun _ o => submits o) thread

variable (C contract host taskId calm) in
/-- The worlds that others, and the ledger operations of a call, lead to. -/
abbrev Others : World σ (TaskHostState J) → World σ (TaskHostState J) → Prop :=
  Interference C (fun _ => True) (HostGrows contract host taskId calm)

variable {w : World σ (TaskHostState J)}

end Rules

section Passages

variable {σ J : Type} {P : LedgerStore σ} {C : P.Contract} {journal : FactJournal J}
variable {contract : journal.Contract} {host : TaskHost} {taskId : String} {pages thread : ℕ} {calm : Prop}
variable {codec : RetryCodec} {factId attemptId reason : String} {fuel : ℕ} {w₀ : World σ (TaskHostState J)}

/-- **What a call that answered has gone through.** -/
structure Passage (C : P.Contract) (contract : journal.Contract) (host : TaskHost) (taskId : String) (pages : ℕ)
    (calm : Prop) (codec : RetryCodec) (factId attemptId reason : String) (before read : World σ (TaskHostState J))
    (attempt : AttemptSnapshot) (all : List LedgerEvent) (committed : LedgerEvent) (snapshot : TaskSnapshot)
    (w : World σ (TaskHostState J)) : Prop where
  arguments : checkArguments factId reason = .ok ()
  began : ∃ first, Tasks.snapshot journal host before.host.journal pages taskId = some (.ok first) ∧
    checkRetryable attemptId first = .ok attempt
  named : attempt.binding.execution.executionId ≠ ""
  planned : ∃ candidate, planProof codec taskId factId attemptId reason attempt all = .ok candidate ∧
    sameProof candidate committed = true
  unchanged : (read.events C).filter (fun event => event.executionId = attempt.binding.execution.executionId) =
    inspected codec taskId factId attemptId all ++ [committed]
  between : Others C contract host taskId calm before read
  ended : ∃ last, Others C contract host taskId calm read last ∧ ∃ j',
    Tasks.command journal host last.host.journal pages taskId factId
      (.retryAuthorized attemptId (sourceRef attempt.binding committed) reason) = some (.ok snapshot, j') ∧
    w = { last with host := { last.host with journal := j' } }

/-- **What the last read shows**: facts that may be retried, closed by a proof
that was made from all facts before it. -/
structure Proven (codec : RetryCodec) (taskId factId attemptId : String) (binding : AttemptBinding)
    (facts : List LedgerEvent) (stored : LedgerEvent) : Prop where
  retryable : Retryable codec binding.execution facts
  closed : ∃ (front : List LedgerEvent) (last : LedgerEvent) (proof : RetryProof), facts = front ++ [stored] ∧
    front.getLast? = some last ∧ proof.binding = binding ∧ proof.inspectedThrough = sourceRef binding last ∧
      { stored with cursor := 0 } = proofFact codec taskId factId attemptId proof

variable {before read w : World σ (TaskHostState J)} {attempt : AttemptSnapshot} {all : List LedgerEvent}
variable {committed : LedgerEvent} {snapshot : TaskSnapshot}

theorem Passage.proven (h : Passage C contract host taskId pages calm codec factId attemptId reason before read attempt
    all committed snapshot w) :
    Proven codec taskId factId attemptId attempt.binding
      ((read.events C).filter fun event => event.executionId = attempt.binding.execution.executionId) committed := by
  obtain ⟨candidate, hplan, hsame⟩ := h.planned
  obtain ⟨hretryable, proof, last, rfl, hbinding, hlast, hthrough⟩ := planProof_eq_ok hplan
  have hstored := (sameProof_eq_true.1 hsame).symm
  have hkind : committed.kind = .executionRetryAuthorized := (congrArg LedgerEvent.kind hstored :)
  rw [h.unchanged]
  exact ⟨hretryable.proven hkind, _, last, proof, rfl, hlast, hbinding, hthrough, hstored⟩

theorem Passage.committed_id (h : Passage C contract host taskId pages calm codec factId attemptId reason before read
    attempt all committed snapshot w) : committed.eventId = proofId codec taskId factId attemptId := by
  obtain ⟨_, _, _, -, -, -, -, hstored⟩ := h.proven.closed
  exact (congrArg LedgerEvent.eventId hstored :)

variable (hdecode : ∀ event : TaskEvent, host.decodeEvent event.toValue = .ok event)

include hdecode

theorem Passage.commanded (h : Passage C contract host taskId pages calm codec factId attemptId reason before read
    attempt all committed snapshot w) :
    Tasks.identity factId = .ok () ∧ Tasks.identity taskId = .ok () ∧ Run contract host taskId w.host.journal ∧
      Grows contract before.host.journal w.host.journal ∧
      (∃ r ∈ contract.rows w.host.journal taskId,
        Carries ⟨taskId, factId, .retryAuthorized attemptId (sourceRef attempt.binding committed) reason⟩ r) ∧
      replay journal host w.host.journal taskId (contract.rows w.host.journal taskId) = .ok (some snapshot) := by
  obtain ⟨last, hlast, j', hcommand, rfl⟩ := h.ended
  obtain ⟨hfact, htask⟩ := command_identities hcommand
  have hsubmits : Submits taskId (.retryAuthorized attemptId (sourceRef attempt.binding committed) reason) := trivial
  have hrun : Run contract host taskId j' := hlast.host.run.command hsubmits hcommand
  obtain ⟨hs, -⟩ := hlast.host.run.invariant hdecode
  obtain ⟨hcarried, hreplay, -⟩ := command_ok hdecode hsubmits hs hcommand
  have hgrows : Grows contract last.host.journal j' := by
    rcases command_cases hs.valid hcommand with ⟨_, _, _, _, hplanned, hv', hrows⟩ | ⟨rfl, _⟩
    · exact (hplanned.settled hs hv' hrows).2
    · exact Grows.refl _
  exact ⟨hfact, htask, hrun, (h.between.host.grows.trans hlast.host.grows).trans hgrows, hcarried, hreplay⟩

theorem Passage.binding (h : Passage C contract host taskId pages calm codec factId attemptId reason before read
    attempt all committed snapshot w) (hbefore : Others C contract host taskId calm w₀ before) :
    ∃ attempt', snapshot.attempts[attemptId]? = some attempt' ∧ attempt'.binding = attempt.binding := by
  obtain ⟨-, -, hrun, hgrows, -, hreplay⟩ := h.commanded hdecode
  obtain ⟨first, hfirst, hretryable⟩ := h.began
  obtain ⟨hs, -⟩ := hbefore.host.run.invariant hdecode
  obtain ⟨hs', -⟩ := hrun.invariant hdecode
  have hlater := replay_later hs hs' hgrows (snapshot_eq_ok hs.valid hfirst).2 hreplay
  simp only [checkRetryable, bind_eq_ok, expect_eq_ok, reject_eq_ok, pure_eq_ok] at hretryable
  obtain ⟨_, hattempt, _, _, rfl⟩ := hretryable
  obtain ⟨attempt', hattempt', hkeeps⟩ := hlater.keepsAttempt hattempt
  exact ⟨attempt', hattempt', hkeeps.binding⟩

/-- **The answer passes the checks of the call again** if the stream of the task was
left alone; its attempt has failed, with the observation that was proved. -/
theorem Passage.again (h : Passage C contract host taskId pages calm codec factId attemptId reason before read attempt
    all committed snapshot w) (hbefore : Others C contract host taskId calm w₀ before) (hcalm : calm) :
    ∃ attempt', checkRetryable attemptId snapshot = .ok attempt' ∧ attempt'.binding = attempt.binding ∧
      attempt'.observation = attempt.observation ∧ attempt'.state = .failed := by
  obtain ⟨-, -, -, -, ⟨r, hr, hcarries⟩, hreplay⟩ := h.commanded hdecode
  obtain ⟨failed, hfailed, hstate⟩ := carried_failed hdecode hr hcarries hreplay
  obtain ⟨first, hfirst, hretryable⟩ := h.began
  obtain ⟨last, hlast, j', hcommand, rfl⟩ := h.ended
  obtain ⟨hs, -⟩ := hbefore.host.run.invariant hdecode
  obtain ⟨hs', -⟩ := hlast.host.run.invariant hdecode
  have hrows : contract.rows last.host.journal taskId = contract.rows before.host.journal taskId :=
    (hlast.host.calm hcalm).trans (h.between.host.calm hcalm)
  have hthen : replay journal host last.host.journal taskId (contract.rows last.host.journal taskId) =
      .ok (some first) := by
    rw [hrows]
    exact replay_grows hs hs' (h.between.host.grows.trans hlast.host.grows) (snapshot_eq_ok hs.valid hfirst).2
  have hsubmits : Submits taskId (.retryAuthorized attemptId (sourceRef attempt.binding committed) reason) := trivial
  obtain ⟨-, hafter, hmoved⟩ := command_ok hdecode hsubmits hs' hcommand
  rcases hmoved with rfl | ⟨state, record, hstate', happly⟩
  · -- the fact was there already, so nothing has moved
    obtain rfl : first = snapshot := Option.some.inj (Except.ok.inj (hthen.symm.trans hafter))
    refine ⟨attempt, hretryable, rfl, rfl, ?_⟩
    simp only [checkRetryable, bind_eq_ok, expect_eq_ok, pure_eq_ok] at hretryable
    obtain ⟨_, hattempt, _, _, rfl⟩ := hretryable
    obtain rfl := Option.some.inj (hattempt.symm.trans hfailed)
    exact hstate
  · obtain rfl : state = some first := (Except.ok.inj (hstate'.symm.trans hthen))
    obtain ⟨-, moved, heffect, rfl⟩ := apply_effect happly
    simp only [checkRetryable, bind_eq_ok, expect_eq_ok, reject_eq_ok, pure_eq_ok, not_or] at hretryable
    obtain ⟨found, hattempt, _, ⟨hopen, huncancelled, -⟩, rfl⟩ := hretryable
    cases heffect with
    | authorized authorizable =>
      obtain rfl := Option.some.inj (hattempt.symm.trans authorizable.lookup)
      refine ⟨{ found with retryAuthorized := true, state := .failed, waiting := none }, ?_, rfl, rfl, rfl⟩
      simp only [checkRetryable, bind_eq_ok, expect_eq_ok, reject_eq_ok, pure_eq_ok, not_or]
      refine ⟨_, getElem?_insert_self, (), ⟨?_, huncancelled, by simp [InvocationState.isStopped]⟩, rfl⟩
      rw [refresh_isTerminal]
      exact hopen

omit hdecode

theorem run_host {ε α : Type} {o : TaskOp} {next : o.Answer → Except ε α} {w : World σ (TaskHostState J)} :
    (Fallible.ofProg (.ask (.host o) fun a => .done (next a)) :
      Fallible (Op TaskOp) (Op.Answer TaskOp.Answer) ε α).run.run
        (perform P (taskStep journal host pages) thread) w =
      some (next (taskStep journal host pages thread w.host o).1,
        { w with host := (taskStep journal host pages thread w.host o).2 }) := rfl

theorem requireIdle_alone {executionId : String} (hidle : executionId ∉ w.host.active) :
    (requireIdle executionId).run.run (perform P (taskStep journal host pages) thread) w = some (.ok (), w) := by
  refine (Fallible.run_then run_host).trans (Fallible.run_lift (reject_of_not ?_))
  simpa [taskStep] using hidle

theorem taskSnapshot_alone {snapshot : TaskSnapshot}
    (h : Tasks.snapshot journal host w.host.journal pages taskId = some (.ok snapshot)) :
    (taskSnapshot taskId).run.run (perform P (taskStep journal host pages) thread) w = some (.ok snapshot, w) := by
  refine (Fallible.run_then run_host).trans ?_
  simp only [taskStep, h]
  rfl

theorem taskCommand_alone {event : TaskEvent} {snapshot : TaskSnapshot}
    (h : Tasks.command journal host w.host.journal pages taskId factId event = some (.ok snapshot, w.host.journal)) :
    (taskCommand taskId factId event).run.run (perform P (taskStep journal host pages) thread) w =
      some (.ok snapshot, w) := by
  refine (Fallible.run_then run_host).trans ?_
  simp only [taskStep, h]
  rfl

theorem executionFacts_alone (reliable : C.Reliable) (hw : w.Sound C) {executionId : String} (hid : executionId ≠ "")
    (hfuel : (w.events C).length < fuel) :
    ∃ w', (executionFacts fuel executionId).run.run (perform P (taskStep journal host pages) thread) w =
      some (.ok ((w.events C).filter fun event => event.executionId = executionId), w') ∧ World.Same C w w' := by
  obtain ⟨w', hrun, hsame⟩ : ∃ w', (executionEventsAfter fuel executionId 0 : LedgerProg TaskOp.Answer _).run.run
      (perform P (taskStep journal host pages) thread) w =
        some (.ok ((w.events C).filter fun event => event.executionId = executionId), w') ∧ World.Same C w w' :=
    executionEventsAfter_alone reliable hw hid hfuel
  refine ⟨w', ?_, hsame⟩
  rw [executionFacts, onLedger, Fallible.run_mapError hrun]

variable {snapshot : TaskSnapshot} {later : AttemptSnapshot}

/-- **The same call alone**, on the facts of the last read: it makes the same
proof, finds it committed, and finds its command carried out. -/
theorem Passage.repeats (h : Passage C contract host taskId pages calm codec factId attemptId reason before read
    attempt all committed snapshot w) (reliable : C.Reliable) {w₂ : World σ (TaskHostState J)} {pages₂ fuel₂ : ℕ}
    (hw₂ : w₂.Sound C) (hfuel : (w₂.events C).length < fuel₂)
    (hfacts : (w₂.events C).filter (fun event => event.executionId = attempt.binding.execution.executionId) =
      (read.events C).filter fun event => event.executionId = attempt.binding.execution.executionId)
    (hidle : attempt.binding.execution.executionId ∉ w₂.host.active) {now : TaskSnapshot}
    (hsnapshot : Tasks.snapshot journal host w₂.host.journal pages₂ taskId = some (.ok now))
    (hretryable : checkRetryable attemptId now = .ok later) (hbinding : later.binding = attempt.binding)
    (hobservation : later.observation = attempt.observation)
    (hcommand : Tasks.command journal host w₂.host.journal pages₂ taskId factId
      (.retryAuthorized attemptId (sourceRef attempt.binding committed) reason) = some (.ok now, w₂.host.journal)) :
    ∃ w₃, (authorizeRetry codec taskId factId attemptId reason fuel₂).run.run
        (perform P (taskStep journal host pages₂) thread) w₂ = some (.ok now, w₃) ∧ World.Same C w₂ w₃ := by
  obtain ⟨candidate, hplan, hsame⟩ := h.planned
  have hid := h.committed_id
  rw [h.unchanged] at hfacts
  have hreads : ∀ {w : World σ (TaskHostState J)}, w.Sound C → (w.events C).length < fuel₂ → ∃ w',
      (executionFacts fuel₂ attempt.binding.execution.executionId).run.run
        (perform P (taskStep journal host pages₂) thread) w = some (.ok ((w.events C).filter fun event =>
          event.executionId = attempt.binding.execution.executionId), w') ∧ World.Same C w w' :=
    fun hw hlt => executionFacts_alone reliable hw h.named hlt
  obtain ⟨w₃, hread, hsame₃⟩ := hreads hw₂ hfuel
  obtain ⟨w₄, hread', hsame₄⟩ := hreads hsame₃.sound (hsame₃.events ▸ hfuel)
  rw [hfacts] at hread
  rw [hsame₃.events, hfacts] at hread'
  have hidle₃ : attempt.binding.execution.executionId ∉ w₃.host.active := hsame₃.host ▸ hidle
  refine ⟨w₄, ?_, hsame₃.trans hsame₄⟩
  rw [authorizeRetry, Fallible.run_then (Fallible.run_lift h.arguments), Fallible.run_then (taskSnapshot_alone hsnapshot),
    Fallible.run_then (Fallible.run_lift hretryable)]
  simp only [hbinding]
  rw [Fallible.run_then (requireIdle_alone hidle), Fallible.run_then hread,
    Fallible.run_then (Fallible.run_lift (planProof_again hplan hid hbinding hobservation)),
    storedProof_proven hid]
  have hcommitted : (commitProof attempt.binding.execution.executionId candidate (some committed)).run.run
      (perform P (taskStep journal host pages₂) thread) w₃ = some (.ok committed, w₃) := by
    rw [commitProof, Fallible.run_then (Fallible.run_lift (reject_of_not (by simp [hsame])))]
    rfl
  rw [Fallible.run_then hcommitted, Fallible.run_then (requireIdle_alone hidle₃), Fallible.run_then hread',
    Fallible.run_then (Fallible.run_lift (reject_of_not (by rw [inspected_proven hid]; simp)))]
  refine taskCommand_alone ?_
  rw [hsame₄.host, hsame₃.host]
  exact hcommand

/-- The facts of the execution of an attempt. -/
def factsOf (binding : AttemptBinding) (events : List LedgerEvent) : List LedgerEvent :=
  events.filter fun event => event.executionId = binding.execution.executionId

end Passages

section Sample

def retriedInput : InvocationInputEnvelope where
  kind := .standalone
  scope := ⟨"task", "root", sampleTask.agent, sampleTask.constraintsDigest⟩
  body := .null

def retriedStream : String := coordinate (fun _ => "") retriedInput.scope

def retriedBinding : AttemptBinding :=
  { sampleBinding with inputSource := .standalone ⟨retriedStream, 1, retriedStream⟩ }

def stoppedCommands : List (String × TaskEvent) :=
  [("admitted", .invocationAdmitted { sampleRoot with inputSource := retriedBinding.inputSource }),
    ("started", .attemptStarted retriedBinding),
    ("stopped", .attemptObserved (sampleObservation retriedBinding 3 (.failed "lost" false)))]

def retriedEvent : TaskEvent := .retryAuthorized "first" ⟨retriedBinding.execution, "retry/", 4⟩ "again"

noncomputable def retriedHost : TaskHost :=
  { sampleHost with
    decodeEvent := fun value =>
      match (TaskEvent.registered sampleTask :: retriedEvent :: stoppedCommands.map (·.2)).find?
          (·.toValue = value) with
      | some event => .ok event
      | none => sampleHost.decodeEvent value
    decodeEnvelope := fun value => if value = retriedInput.toValue then .ok retriedInput else .error "foreign" }

noncomputable def commanded : MemoryState → List (String × TaskEvent) → Option MemoryState
  | j, [] => some j
  | j, (factId, event) :: rest =>
      (Tasks.command memoryJournal retriedHost j 10 "task" factId event).bind fun answer => commanded answer.2 rest

end Sample

end TaskDriver
end Kolyan
