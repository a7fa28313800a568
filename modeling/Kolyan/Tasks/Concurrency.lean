/-
# Concurrent commands on one journal

Any number of calls of `TaskCoordinator::command` share a journal.  A call is a
sequence of steps (`stepPhase`): a page read, a tail read, the local plan on what
was read, one append.  Calls interleave step by step with each other and with
other writers.  `State.order` lists the calls whose append put a record into the
journal, in that order; a serial execution of exactly those calls reaches the
same journal (`Interleaved.serial`).
-/

import Kolyan.Tasks.Refinement

namespace Kolyan
namespace Tasks

open Checks Facts

/-- The arguments of one call of `command`. -/
structure Call where
  taskId : String
  factId : String
  event : TaskEvent

/-- Where a call of `command` stands. -/
inductive Phase where
  | start
  | page (after : ℕ) (acc : List FactRecord)
  | tail (after : ℕ) (acc : List FactRecord)
  | planning (records : List FactRecord)
  | appending (expected : ℕ) (candidate : FactRecord) (next : TaskSnapshot)
  | done (result : Except TaskError TaskSnapshot)

section Steps

variable {J : Type} (journal : FactJournal J) (host : TaskHost)

/-- The checks before the first read. -/
def beginCall (call : Call) : Phase :=
  match (do identity call.factId; identity call.taskId) with
  | .error e => .done (.error e)
  | .ok () => .page 0 []

/-- What a call does after its plan. -/
def afterPlan : Except TaskError Plan → Phase
  | .error e => .done (.error e)
  | .ok (.done snapshot) => .done (.ok snapshot)
  | .ok (.append expected candidate next) => .appending expected candidate next

/-- One step of a call on the journal as it is now. -/
def stepPhase (j : J) (call : Call) : Phase → Phase × J
  | .start => (beginCall call, j)
  | .page after acc =>
      match readPage journal j call.taskId after acc with
      | .error e => (.done (.error e), j)
      | .ok (after, acc) => (.tail after acc, j)
  | .tail after acc =>
      match readTail journal j call.taskId after with
      | .error e => (.done (.error e), j)
      | .ok true => (.page after acc, j)
      | .ok false => (.planning acc, j)
  | .planning records =>
      (afterPlan (planCommand journal host j call.taskId call.factId call.event records), j)
  | .appending expected candidate next =>
      let (appended, j) := journal.append j call.taskId expected [candidate.draft]
      (.done (finishAppend candidate next appended), j)
  | .done result => (.done result, j)

def stepAlone (call : Call) (state : Phase × J) : Phase × J :=
  stepPhase journal host state.2 call state.1

def afterRead : Except TaskError (List FactRecord) → Phase
  | .error e => .done (.error e)
  | .ok records => .planning records

variable {journal host}

theorem recordsFrom_steps {call : Call} {j : J} {fuel after : ℕ} {acc : List FactRecord}
    {read : Except TaskError (List FactRecord)}
    (h : recordsFrom journal j call.taskId fuel after acc = some read) :
    ∃ n, (stepAlone journal host call)^[n] (.page after acc, j) = (afterRead read, j) := by
  induction fuel generalizing after acc with
  | zero => simp [recordsFrom] at h
  | succ fuel ih =>
    rw [recordsFrom] at h
    cases hpage : readPage journal j call.taskId after acc with
    | error e =>
      rw [hpage] at h
      obtain rfl := Option.some.inj h
      exact ⟨1, by simp [stepAlone, stepPhase, hpage, afterRead]⟩
    | ok got =>
      obtain ⟨after', acc'⟩ := got
      rw [hpage] at h
      cases htail : readTail journal j call.taskId after' with
      | error e =>
        simp only [htail] at h
        obtain rfl := Option.some.inj h
        exact ⟨2, by simp [stepAlone, stepPhase, hpage, htail, afterRead]⟩
      | ok more =>
        cases more with
        | false =>
          simp only [htail] at h
          obtain rfl := Option.some.inj h
          exact ⟨2, by simp [stepAlone, stepPhase, hpage, htail, afterRead]⟩
        | true =>
          simp only [htail] at h
          obtain ⟨n, hn⟩ := ih h
          refine ⟨n + 2, ?_⟩
          rw [Function.iterate_add_apply, ← hn]
          simp [stepAlone, stepPhase, hpage, htail]

theorem executePlan_steps {call : Call} {j j' : J} {records : List FactRecord}
    {res : Except TaskError TaskSnapshot}
    (h : executePlan journal j call.taskId
      (planCommand journal host j call.taskId call.factId call.event records) = (res, j')) :
    (stepAlone journal host call)^[2] (.planning records, j) = (.done res, j') := by
  cases hplan : planCommand journal host j call.taskId call.factId call.event records with
  | error e =>
    rw [hplan] at h
    obtain ⟨rfl, rfl⟩ := Prod.mk.inj h
    simp [stepAlone, stepPhase, hplan, afterPlan]
  | ok plan =>
    cases plan with
    | done snapshot =>
      rw [hplan] at h
      obtain ⟨rfl, rfl⟩ := Prod.mk.inj h
      simp [stepAlone, stepPhase, hplan, afterPlan]
    | append expected candidate next =>
      rw [hplan] at h
      obtain ⟨rfl, rfl⟩ := Prod.mk.inj h
      simp [stepAlone, stepPhase, hplan, afterPlan]

/-- **`command` is a call that runs alone.** -/
theorem command_steps {call : Call} {j j' : J} {fuel : ℕ} {res : Except TaskError TaskSnapshot}
    (h : command journal host j fuel call.taskId call.factId call.event = some (res, j')) :
    ∃ n, (stepAlone journal host call)^[n] (.start, j) = (.done res, j') := by
  rw [command] at h
  cases hfact : identity call.factId with
  | error e =>
    rw [hfact] at h
    obtain ⟨rfl, rfl⟩ := Prod.mk.inj (Option.some.inj h)
    exact ⟨1, by simp [stepAlone, stepPhase, beginCall, hfact]⟩
  | ok u =>
    rw [hfact] at h
    cases htask : identity call.taskId with
    | error e =>
      simp only [records, htask] at h
      obtain ⟨rfl, rfl⟩ := Prod.mk.inj (Option.some.inj h)
      exact ⟨1, by simp [stepAlone, stepPhase, beginCall, hfact, htask]⟩
    | ok u =>
      have hstart : (stepAlone journal host call)^[1] (.start, j) = (.page 0 [], j) := by
        simp [stepAlone, stepPhase, beginCall, hfact, htask]
      simp only [records, htask] at h
      cases hread : recordsFrom journal j call.taskId fuel 0 [] with
      | none => simp [hread] at h
      | some read =>
        obtain ⟨n, hn⟩ : ∃ n, (stepAlone journal host call)^[n] (.page 0 [], j) =
            (afterRead read, j) := recordsFrom_steps hread
        cases read with
        | error e =>
          simp only [hread] at h
          obtain ⟨rfl, rfl⟩ := Prod.mk.inj (Option.some.inj h)
          exact ⟨n + 1, by rw [Function.iterate_add_apply, hstart, hn, afterRead]⟩
        | ok records =>
          simp only [hread, Option.some.injEq] at h
          refine ⟨2 + (n + 1), ?_⟩
          rw [Function.iterate_add_apply, Function.iterate_add_apply, hstart, hn, afterRead,
            executePlan_steps h]

end Steps

section Interleaving

variable {J : Type} {journal : FactJournal J} {ι : Type} [DecidableEq ι]

/-- The shared journal, the calls whose append put a record into it, in that
order, and where every call stands. -/
structure State (J ι : Type) where
  journal : J
  order : List ι
  phases : ι → Phase

open Classical in
/-- One step of the system: of one call, or of another writer of the journal. -/
inductive Step (contract : journal.Contract) (host : TaskHost) (taskId : String)
    (calls : ι → Call) : State J ι → State J ι → Prop
  | call {state : State J ι} {phase : Phase} {j' : J} (i : ι)
      (h : stepPhase journal host state.journal (calls i) (state.phases i) = (phase, j')) :
      Step contract host taskId calls state
        { journal := j'
          order := if contract.rows j' = contract.rows state.journal then state.order
            else state.order ++ [i]
          phases := Function.update state.phases i phase }
  | foreign {state : State J ι} {j' : J} {stream : String} {expected : ℕ} {batch : List FactDraft}
      {res : Except FactError (List FactRecord)}
      (hforeign : Foreign contract state.journal taskId stream expected batch)
      (h : journal.append state.journal stream expected batch = (res, j')) :
      Step contract host taskId calls state { state with journal := j' }

/-- The system before its first step. -/
structure Initial (contract : journal.Contract) (state : State J ι) : Prop where
  valid : contract.Valid state.journal
  empty : ∀ s, contract.rows state.journal s = []
  order : state.order = []
  phases : ∀ i, state.phases i = .start

/-- Serial executions: the calls run whole, one after another, between the
appends of other writers. -/
inductive Serial (contract : journal.Contract) (host : TaskHost) (taskId : String)
    (calls : ι → Call) : List ι → J → Prop
  | start {j : J} (hv : contract.Valid j) (hempty : ∀ s, contract.rows j s = []) :
      Serial contract host taskId calls [] j
  | call {order : List ι} {j j' : J} {fuel : ℕ} {next : TaskSnapshot} (i : ι)
      (run : Serial contract host taskId calls order j)
      (h : command journal host j fuel (calls i).taskId (calls i).factId (calls i).event =
        some (.ok next, j')) :
      Serial contract host taskId calls (order ++ [i]) j'
  | foreign {order : List ι} {j j' : J} {stream : String} {expected : ℕ} {batch : List FactDraft}
      {res : Except FactError (List FactRecord)}
      (run : Serial contract host taskId calls order j)
      (hforeign : Foreign contract j taskId stream expected batch)
      (h : journal.append j stream expected batch = (res, j')) :
      Serial contract host taskId calls order j'

/-! ### What a call knows in each phase -/

/-- A record that carries the fact and event of a call. -/
structure Carries (call : Call) (r : FactRecord) : Prop where
  factId : r.draft.factId = call.factId
  kind : r.draft.kind = (envelope call.taskId call.event).1
  subject : r.draft.subject = (envelope call.taskId call.event).2
  schemaVersion : r.draft.schemaVersion = version
  critical : r.draft.critical = true
  payload : r.draft.payload = call.event.toValue

/-- The identities of a call passed their checks. -/
def Identified (call : Call) : Prop :=
  identity call.factId = .ok () ∧ identity call.taskId = .ok ()

variable {contract : journal.Contract} {host : TaskHost} {j j' : J} {call : Call}

/-- What holds of a call in each phase; `committed` says that its append put a
record into the journal. -/
def PhaseInv (contract : journal.Contract) (host : TaskHost) (j : J) (call : Call)
    (committed : Prop) : Phase → Prop
  | .start => ¬committed
  | .page after acc | .tail after acc =>
      ¬committed ∧ Identified call ∧ after ≤ (contract.rows j call.taskId).length ∧
        acc = (contract.rows j call.taskId).take after
  | .planning records =>
      ¬committed ∧ Identified call ∧ records <+: contract.rows j call.taskId
  | .appending expected candidate next =>
      ¬committed ∧ Identified call ∧ ∃ records, records <+: contract.rows j call.taskId ∧
        planCommand journal host j call.taskId call.factId call.event records =
          .ok (.append expected candidate next)
  | .done (.ok _) => ∃ r ∈ contract.rows j call.taskId, Carries call r
  | .done (.error _) => ¬committed

theorem PhaseInv.grows (hs : Settled contract j) (hs' : Settled contract j')
    (hg : Grows contract j j') {committed : Prop} {phase : Phase}
    (h : PhaseInv contract host j call committed phase) :
    PhaseInv contract host j' call committed phase := by
  have htake : ∀ after ≤ (contract.rows j call.taskId).length,
      after ≤ (contract.rows j' call.taskId).length ∧
        (contract.rows j call.taskId).take after = (contract.rows j' call.taskId).take after := by
    intro after hafter
    obtain ⟨more, hmore⟩ := hg call.taskId
    rw [← hmore, List.length_append, List.take_append_of_le_length hafter]
    exact ⟨by omega, rfl⟩
  cases phase with
  | start => exact h
  | page after acc =>
    obtain ⟨hp, hid, hafter, hacc⟩ := h
    exact ⟨hp, hid, (htake after hafter).1, hacc.trans (htake after hafter).2⟩
  | tail after acc =>
    obtain ⟨hp, hid, hafter, hacc⟩ := h
    exact ⟨hp, hid, (htake after hafter).1, hacc.trans (htake after hafter).2⟩
  | planning records =>
    obtain ⟨hp, hid, hpart⟩ := h
    exact ⟨hp, hid, hpart.trans (hg _)⟩
  | appending expected candidate next =>
    obtain ⟨hp, hid, records, hpart, hplan⟩ := h
    exact ⟨hp, hid, records, hpart.trans (hg _), planCommand_grows hs hs' hg hplan⟩
  | done result =>
    cases result with
    | error e => exact h
    | ok next =>
      obtain ⟨r, hr, hcarries⟩ := h
      exact ⟨r, (hg _).subset hr, hcarries⟩

theorem Planned.carries {records : List FactRecord} {expected : ℕ} {candidate : FactRecord}
    {next : TaskSnapshot}
    (h : Planned host journal j call.taskId call.factId call.event records expected candidate next) :
    Carries call candidate := by
  obtain ⟨causes, rfl, _⟩ := h.candidate_eq
  exact ⟨rfl, rfl, rfl, rfl, rfl, rfl⟩

theorem carries_of_done {records : List FactRecord} {snapshot : TaskSnapshot}
    (h : planCommand journal host j call.taskId call.factId call.event records =
      .ok (.done snapshot)) : ∃ r ∈ records, Carries call r := by
  simp only [planCommand, bind_eq_ok] at h
  obtain ⟨_, _, _, _, h⟩ := h
  split at h
  · rename_i existing hexisting
    simp only [checkExisting, bind_eq_ok, reject_eq_ok, not_or, not_not] at h
    obtain ⟨_, ⟨hkind, hsubject, hversion, hcritical, hpayload⟩, _⟩ := h
    exact ⟨existing, List.mem_of_find?_eq_some hexisting,
      ⟨by simpa using List.find?_some hexisting, hkind, hsubject, hversion, hcritical, hpayload⟩⟩
  · simp only [planAppendFact, bind_eq_ok, pure_eq_ok] at h
    obtain ⟨_, _, _, _, _, _, _, _, _, _, h⟩ := h
    exact absurd h (by simp)

/-- The step that puts the record of a call into the journal. -/
structure Commits (contract : journal.Contract) (host : TaskHost) (j j' : J) (call : Call)
    (next : TaskSnapshot) : Prop where
  identified : Identified call
  planned : ∃ expected candidate,
    planCommand journal host j call.taskId call.factId call.event (contract.rows j call.taskId) =
        .ok (.append expected candidate next) ∧
      executePlan journal j call.taskId (.ok (.append expected candidate next)) = (.ok next, j') ∧
      contract.Valid j' ∧ contract.rows j' =
        Function.update (contract.rows j) call.taskId (contract.rows j call.taskId ++ [candidate])

/-- **What one step of a call does**: it leaves the journal alone and keeps what
the call knows, or it commits the fact of the call on the stream as it is now. -/
theorem stepPhase_cases (hs : Settled contract j) {committed : Prop} {phase phase' : Phase}
    (hinv : PhaseInv contract host j call committed phase)
    (h : stepPhase journal host j call phase = (phase', j')) :
    (j' = j ∧ PhaseInv contract host j call committed phase') ∨
      (¬committed ∧ ∃ next, phase' = .done (.ok next) ∧ Commits contract host j j' call next) := by
  cases phase with
  | start =>
    obtain ⟨rfl, rfl⟩ := Prod.mk.inj h
    refine Or.inl ⟨rfl, ?_⟩
    unfold beginCall
    split
    · exact hinv
    · rename_i hid
      simp only [bind_eq_ok] at hid
      obtain ⟨_, hfact, htask⟩ := hid
      exact ⟨hinv, ⟨hfact, htask⟩, Nat.zero_le _, rfl⟩
  | page after acc =>
    obtain ⟨hp, hid, hafter, rfl⟩ := hinv
    obtain ⟨n, _, hle, _, hpage⟩ := readPage_rows hs.valid hid.2 hafter
    simp only [stepPhase, hpage] at h
    obtain ⟨rfl, rfl⟩ := Prod.mk.inj h
    exact Or.inl ⟨rfl, hp, hid, hle, rfl⟩
  | tail after acc =>
    obtain ⟨hp, hid, hafter, rfl⟩ := hinv
    rw [stepPhase, readTail_rows hs.valid hid.2 hafter] at h
    by_cases hlt : after < (contract.rows j call.taskId).length
    · simp only [hlt, decide_true] at h
      obtain ⟨rfl, rfl⟩ := Prod.mk.inj h
      exact Or.inl ⟨rfl, hp, hid, hafter, rfl⟩
    · simp only [hlt, decide_false] at h
      obtain ⟨rfl, rfl⟩ := Prod.mk.inj h
      exact Or.inl ⟨rfl, hp, hid, List.take_prefix _ _⟩
  | planning records =>
    obtain ⟨hp, hid, hpart⟩ := hinv
    obtain ⟨rfl, rfl⟩ := Prod.mk.inj h
    refine Or.inl ⟨rfl, ?_⟩
    cases hplan : planCommand journal host j call.taskId call.factId call.event records with
    | error e => exact hp
    | ok plan =>
      cases plan with
      | done snapshot =>
        obtain ⟨r, hr, hcarries⟩ := carries_of_done hplan
        exact ⟨r, hpart.subset hr, hcarries⟩
      | append expected candidate next => exact ⟨hp, hid, records, hpart, hplan⟩
  | appending expected candidate next =>
    obtain ⟨hp, hid, records, hpart, hplan⟩ := hinv
    have hplanned := planned_of_plan hplan
    have hexecute : ∃ res, phase' = .done res ∧
        executePlan journal j call.taskId (.ok (.append expected candidate next)) = (res, j') := by
      simp only [stepPhase] at h
      obtain ⟨rfl, rfl⟩ := Prod.mk.inj h
      exact ⟨_, rfl, rfl⟩
    obtain ⟨res, rfl, hexecute⟩ := hexecute
    rcases executeAppend_cases hs.valid hplanned hexecute with
      ⟨rfl, hexpected, hv', hrows, _⟩ | ⟨rfl, rfl, hretry⟩ | ⟨⟨e, rfl⟩, rfl⟩
    · -- the stream has not grown since the call read it
      have hwhole : records = contract.rows j call.taskId := by
        have hlen : records.length = (contract.rows j call.taskId).length := by
          have hrecords := hpart
          rw [contract.rows_planned hs.valid call.taskId] at hrecords
          have hlast := getLast?_plannedRecords (s := call.taskId) (e := 0)
            (((contract.rows j call.taskId).map (·.draft)).take records.length)
          rw [← eq_planned_of_prefix hrecords, Nat.zero_add, List.length_take, List.length_map,
            Nat.min_eq_left hpart.length_le] at hlast
          have hend := hplanned.expected_eq
          unfold lastPosition at hend
          cases hl : records.getLast? with
          | none =>
            rw [hl] at hend
            rw [List.getLast?_eq_none_iff.1 hl, ← hexpected, hend]
            rfl
          | some r =>
            rw [hl] at hend
            rw [← hexpected, hend, ← hlast r hl]
            rfl
        exact hpart.eq_of_length hlen
      subst hwhole
      exact Or.inr ⟨hp, next, rfl, hid, expected, candidate, hplan, hexecute, hv', hrows⟩
    · refine Or.inl ⟨rfl, candidate, ?_, hplanned.carries⟩
      exact List.drop_subset _ _ (hretry.subset (List.mem_singleton_self _))
    · exact Or.inl ⟨rfl, hp⟩
  | done result =>
    obtain ⟨rfl, rfl⟩ := Prod.mk.inj h
    exact Or.inl ⟨rfl, hinv⟩

theorem Commits.command (hv : contract.Valid j) {next : TaskSnapshot}
    (h : Commits contract host j j' call next) :
    Tasks.command journal host j ((contract.rows j call.taskId).length + 1) call.taskId call.factId
      call.event = some (.ok next, j') := by
  obtain ⟨⟨hfact, htask⟩, expected, candidate, hplan, hexecute, _⟩ := h
  have hread := (records_rows hv htask ((contract.rows j call.taskId).length + 1)).2 (by omega)
  simp only [Tasks.command, hfact, hread, hplan, hexecute]

/-! ### The system -/

/-- What a call that committed has established. -/
structure Committed (contract : journal.Contract) (host : TaskHost) (j : J) (call : Call)
    (phase : Phase) : Prop where
  identified : Identified call
  payload : checkPayload host call.event = .ok ()
  finished : ∃ next, phase = .done (.ok next)

variable {taskId : String} {calls : ι → Call} {state next : State J ι}

/-- The invariant of the system. -/
structure Interleaved (contract : journal.Contract) (host : TaskHost) (taskId : String)
    (calls : ι → Call) (state : State J ι) : Prop where
  replays : Replays contract host taskId state.journal
  serial : Serial contract host taskId calls state.order state.journal
  nodup : state.order.Nodup
  phases : ∀ i, PhaseInv contract host state.journal (calls i) (i ∈ state.order) (state.phases i)
  committed : ∀ i ∈ state.order, Committed contract host state.journal (calls i) (state.phases i)

omit [DecidableEq ι] in
theorem Interleaved.initial (h : Initial contract state) :
    Interleaved contract host taskId calls state := by
  refine ⟨⟨⟨h.valid, fun {s r} hr => by simp [h.empty] at hr⟩, none, ?_⟩, ?_, ?_, fun i => ?_,
    fun i hi => ?_⟩
  · rw [h.empty]
    rfl
  · rw [h.order]
    exact .start h.valid h.empty
  · rw [h.order]
    exact List.nodup_nil
  · rw [h.phases, h.order]
    exact List.not_mem_nil
  · rw [h.order] at hi
    exact absurd hi List.not_mem_nil

theorem stepPhase_done {result : Except TaskError TaskSnapshot} :
    stepPhase journal host j call (.done result) = (.done result, j) := rfl

theorem Interleaved.step (hdecode : ∀ event : TaskEvent, host.decodeEvent event.toValue = .ok event)
    (hsubmits : ∀ i, Submits (calls i).taskId (calls i).event)
    (hinv : Interleaved contract host taskId calls state)
    (hstep : Step contract host taskId calls state next) :
    Interleaved contract host taskId calls next := by
  have hs := hinv.replays.1
  cases hstep with
  | @call phase j' i h =>
    rcases stepPhase_cases hs (hinv.phases i) h with ⟨rfl, hphase⟩ | ⟨hfresh, snapshot, rfl, hcommits⟩
    · rw [if_pos rfl]
      refine ⟨hinv.replays, hinv.serial, hinv.nodup, fun k => ?_, fun k hk => ?_⟩
      · by_cases hki : k = i
        · subst hki
          simpa only [Function.update_self] using hphase
        · simpa only [Function.update_of_ne hki] using hinv.phases k
      · have hcommitted := hinv.committed k hk
        refine ⟨hcommitted.identified, hcommitted.payload, ?_⟩
        by_cases hki : k = i
        · subst hki
          obtain ⟨snapshot, hdone⟩ := hcommitted.finished
          rw [hdone, stepPhase_done] at h
          obtain ⟨rfl, _⟩ := Prod.mk.inj h
          exact ⟨snapshot, by simp⟩
        · simpa only [Function.update_of_ne hki] using hcommitted.finished
    · obtain ⟨hid, expected, candidate, hplan, hexecute, hv', hrows⟩ := hcommits
      have hplanned := planned_of_plan hplan
      obtain ⟨hs', hg⟩ := hplanned.settled hs hv' hrows
      have hcommand := Commits.command hs.valid ⟨hid, expected, candidate, hplan, hexecute, hv', hrows⟩
      have hchanged : contract.rows j' ≠ contract.rows state.journal := by
        intro heq
        have hlen := congrArg List.length (congrFun heq (calls i).taskId)
        rw [hrows, Function.update_self, List.length_append, List.length_singleton] at hlen
        omega
      rw [if_neg hchanged]
      refine ⟨hinv.replays.command hdecode (hsubmits i) hcommand, .call i hinv.serial hcommand,
        List.nodup_append.2 ⟨hinv.nodup, List.nodup_singleton i, ?_⟩, fun k => ?_, fun k hk => ?_⟩
      · intro k hk l hl
        rw [List.mem_singleton] at hl
        exact fun hkl => hfresh (hl ▸ hkl ▸ hk)
      · by_cases hki : k = i
        · subst hki
          simp only [Function.update_self]
          refine ⟨candidate, ?_, hplanned.carries⟩
          rw [hrows, Function.update_self]
          exact List.mem_append_right _ (List.mem_singleton_self _)
        · have hk := (hinv.phases k).grows hs hs' hg
          simpa only [Function.update_of_ne hki, List.mem_append, List.mem_singleton, hki,
            or_false] using hk
      · by_cases hki : k = i
        · subst hki
          exact ⟨hid, hplanned.payload, snapshot, by simp⟩
        · have hk' := (List.mem_append.1 hk).resolve_right (by simpa using hki)
          have hcommitted := hinv.committed k hk'
          exact ⟨hcommitted.identified, hcommitted.payload,
            by simpa only [Function.update_of_ne hki] using hcommitted.finished⟩
  | foreign hforeign h =>
    obtain ⟨hs', hg, _⟩ := hforeign.settled hs h
    exact ⟨hinv.replays.foreign hforeign h, .foreign hinv.serial hforeign h, hinv.nodup,
      fun k => (hinv.phases k).grows hs hs' hg, fun k hk =>
        ⟨(hinv.committed k hk).identified, (hinv.committed k hk).payload,
          (hinv.committed k hk).finished⟩⟩

theorem Interleaved.steps (hdecode : ∀ event : TaskEvent, host.decodeEvent event.toValue = .ok event)
    (hsubmits : ∀ i, Submits (calls i).taskId (calls i).event)
    (hinv : Interleaved contract host taskId calls state)
    (hsteps : Relation.ReflTransGen (Step contract host taskId calls) state next) :
    Interleaved contract host taskId calls next := by
  induction hsteps with
  | refl => exact hinv
  | tail _ hstep ih => exact ih.step hdecode hsubmits hstep

/-! ### Fact identities that are used again -/

theorem replayFrom_isSome {state next : ReplayState} {records : List FactRecord}
    (h : replayFrom journal host j taskId state records = .ok next)
    (hsome : state.snapshot.isSome ∨ ∃ r ∈ records, isTransition r.draft = true) :
    next.snapshot.isSome := by
  induction records generalizing state with
  | nil =>
    obtain rfl := Except.ok.inj h
    simpa using hsome
  | cons r records ih =>
    obtain ⟨middle, hmiddle, h⟩ := bind_eq_ok.1 h
    refine ih h ?_
    simp only [replayRecord, bind_eq_ok, pure_eq_ok] at hmiddle
    obtain ⟨snapshot, hsnapshot, rfl⟩ := hmiddle
    rw [Option.isSome_map]
    rw [replaySnapshot] at hsnapshot
    split_ifs at hsnapshot with htransition
    · simp only [bind_eq_ok, pure_eq_ok] at hsnapshot
      obtain ⟨_, _, rfl⟩ := hsnapshot
      exact Or.inl rfl
    · simp only [bind_eq_ok, pure_eq_ok] at hsnapshot
      obtain ⟨_, _, rfl⟩ := hsnapshot
      rcases hsome with hsome | ⟨q, hq, hqt⟩
      · exact Or.inl hsome
      · rcases List.mem_cons.1 hq with rfl | hq
        · exact absurd hqt htransition
        · exact Or.inr ⟨q, hq, hqt⟩

theorem Carries.transition {r : FactRecord} (h : Carries call r) : isTransition r.draft = true := by
  simp [isTransition, h.kind, h.schemaVersion, envelope_kind_known]

/-- **The answer to a fact id that is in the stream**: the current snapshot for
the command that committed it, an error for every other; never a new fact. -/
theorem planCommand_existing (hs : Settled contract j) {records : List FactRecord}
    {snapshot : Option TaskSnapshot}
    (hreplay : replay journal host j call.taskId records = .ok snapshot)
    (hsubset : records ⊆ contract.rows j call.taskId) {other : Call} {r : FactRecord}
    (hr : r ∈ records) (hcarries : Carries other r) (htask : call.taskId = other.taskId)
    (hfact : call.factId = other.factId) (hpayload : checkPayload host other.event = .ok ()) :
    (call.event = other.event → ∃ next,
      planCommand journal host j call.taskId call.factId call.event records = .ok (.done next)) ∧
    (call.event ≠ other.event → ∃ e,
      planCommand journal host j call.taskId call.factId call.event records = .error e) := by
  have hfind : records.find? (fun record => record.draft.factId = call.factId) = some r := by
    cases hf : records.find? (fun record => record.draft.factId = call.factId) with
    | none =>
      have hno := List.find?_eq_none.1 hf r hr
      simp [hcarries.factId, hfact] at hno
    | some q =>
      have hq : q.draft.factId = call.factId := by simpa using List.find?_some hf
      rw [contract.fact_unique hs.valid (hsubset (List.mem_of_find?_eq_some hf)) (hsubset hr)
        (hq.trans (hfact.trans hcarries.factId.symm))]
  constructor
  · intro hevent
    obtain ⟨next, rfl⟩ : ∃ next, snapshot = some next := by
      obtain ⟨state, hstate, hsnapshot⟩ := bind_eq_ok.1 hreplay
      have hsome := replayFrom_isSome hstate (Or.inr ⟨r, hr, hcarries.transition⟩)
      rw [pure_eq_ok.1 hsnapshot] at hsome
      exact Option.isSome_iff_exists.1 hsome
    refine ⟨next, ?_⟩
    have hexisting : checkExisting call.taskId call.event r = .ok () := by
      rw [checkExisting, reject_eq_ok, htask, hevent]
      simp [hcarries.kind, hcarries.subject, hcarries.schemaVersion, hcarries.critical,
        hcarries.payload]
    simp only [planCommand, hreplay, ok_bind, hevent ▸ hpayload, hfind, hexisting, expect_some]
    rfl
  · intro hevent
    have hexisting : ∃ e, checkExisting call.taskId call.event r = .error e := by
      refine ⟨_, reject_of ?_⟩
      refine Or.inr (Or.inr (Or.inr (Or.inr fun heq => hevent ?_)))
      exact (TaskEvent.toValue_injective (hcarries.payload.symm.trans heq)).symm
    obtain ⟨e, he⟩ := hexisting
    cases hcheck : checkPayload host call.event with
    | error e' => exact ⟨e', by simp only [planCommand, hreplay, ok_bind, hcheck, error_bind]⟩
    | ok u => exact ⟨e, by simp only [planCommand, hreplay, ok_bind, hcheck, hfind, he, error_bind]⟩

theorem replay_prefix {records rows : List FactRecord} (hpart : records <+: rows)
    {snapshot : Option TaskSnapshot} (h : replay journal host j taskId rows = .ok snapshot) :
    ∃ earlier, replay journal host j taskId records = .ok earlier := by
  obtain ⟨more, rfl⟩ := hpart
  obtain ⟨state, hstate, _⟩ := bind_eq_ok.1 h
  rw [replayFrom_append] at hstate
  obtain ⟨middle, hmiddle, _⟩ := bind_eq_ok.1 hstate
  exact ⟨middle.snapshot, bind_eq_ok.2 ⟨middle, hmiddle, rfl⟩⟩

/-- What holds in each phase of a call that started after another call had
committed a fact with the same identity. -/
def ReissueInv (call other : Call) (r : FactRecord) : Phase → Prop
  | .start | .page _ _ | .tail _ _ => True
  | .planning records => r ∈ records
  | .appending _ _ _ => False
  | .done (.ok _) => call.event = other.event
  | .done (.error _) => call.event ≠ other.event

theorem ReissueInv.step {j j' : J} (hreplays : Replays contract host call.taskId j)
    {other : Call} {r : FactRecord} (hr : r ∈ contract.rows j call.taskId)
    (hcarries : Carries other r) (hother : Identified other)
    (hpayload : checkPayload host other.event = .ok ()) (htask : call.taskId = other.taskId)
    (hfact : call.factId = other.factId) {committed : Prop} {phase phase' : Phase}
    (hinv : PhaseInv contract host j call committed phase) (hre : ReissueInv call other r phase)
    (h : stepPhase journal host j call phase = (phase', j')) :
    j' = j ∧ ReissueInv call other r phase' := by
  obtain ⟨hs, snapshot, hreplay⟩ := hreplays
  cases phase with
  | start =>
    obtain ⟨rfl, rfl⟩ := Prod.mk.inj h
    refine ⟨rfl, ?_⟩
    have hbegin : beginCall call = .page 0 [] := by
      simp only [beginCall, hfact, htask, hother.1, hother.2, ok_bind]
    rw [hbegin]
    trivial
  | page after acc =>
    obtain ⟨hp, hid, hafter, rfl⟩ := hinv
    obtain ⟨n, _, hle, _, hpage⟩ := readPage_rows hs.valid hid.2 hafter
    simp only [stepPhase, hpage] at h
    obtain ⟨rfl, rfl⟩ := Prod.mk.inj h
    exact ⟨rfl, trivial⟩
  | tail after acc =>
    obtain ⟨hp, hid, hafter, rfl⟩ := hinv
    rw [stepPhase, readTail_rows hs.valid hid.2 hafter] at h
    by_cases hlt : after < (contract.rows j call.taskId).length
    · simp only [hlt, decide_true] at h
      obtain ⟨rfl, rfl⟩ := Prod.mk.inj h
      exact ⟨rfl, trivial⟩
    · -- the call has read the whole stream, the record of the other call included
      simp only [hlt, decide_false] at h
      obtain ⟨rfl, rfl⟩ := Prod.mk.inj h
      refine ⟨rfl, ?_⟩
      rw [List.take_of_length_le (by omega)]
      exact hr
  | planning records =>
    obtain ⟨hp, hid, hpart⟩ := hinv
    obtain ⟨rfl, rfl⟩ := Prod.mk.inj h
    refine ⟨rfl, ?_⟩
    obtain ⟨earlier, hearlier⟩ := replay_prefix hpart hreplay
    obtain ⟨hsame, hdiff⟩ := planCommand_existing hs hearlier hpart.subset hre hcarries htask
      hfact hpayload
    by_cases hevent : call.event = other.event
    · obtain ⟨next, hnext⟩ := hsame hevent
      rw [hnext]
      exact hevent
    · obtain ⟨e, he⟩ := hdiff hevent
      rw [he]
      exact hevent
  | appending expected candidate next => exact absurd hre id
  | done result =>
    obtain ⟨rfl, rfl⟩ := Prod.mk.inj h
    exact ⟨rfl, hre⟩

theorem Step.grows (hs : Settled contract state.journal)
    (hphases : ∀ i, PhaseInv contract host state.journal (calls i) (i ∈ state.order) (state.phases i))
    (hstep : Step contract host taskId calls state next) :
    Grows contract state.journal next.journal := by
  cases hstep with
  | @call phase j' i h =>
    rcases stepPhase_cases hs (hphases i) h with ⟨rfl, _⟩ | ⟨_, snapshot, _, hcommits⟩
    · exact Grows.refl _
    · obtain ⟨_, expected, candidate, hplan, _, hv', hrows⟩ := hcommits
      exact ((planned_of_plan hplan).settled hs hv' hrows).2
  | foreign hforeign h => exact (hforeign.settled hs h).2.1

/-- **A call that starts after its fact was committed adds nothing** in any
continuation, and ends with `Ok` for the same event and an error for another. -/
theorem Interleaved.reissue
    (hdecode : ∀ event : TaskEvent, host.decodeEvent event.toValue = .ok event)
    (hsubmits : ∀ i, Submits (calls i).taskId (calls i).event)
    (hinv : Interleaved contract host taskId calls state) {i k : ι} (hk : k ∈ state.order)
    (hi : state.phases i = .start) (htaskId : (calls i).taskId = taskId)
    (htask : (calls i).taskId = (calls k).taskId) (hfact : (calls i).factId = (calls k).factId)
    (hsteps : Relation.ReflTransGen (Step contract host taskId calls) state next) :
    i ∉ next.order ∧ ∃ r ∈ contract.rows next.journal (calls i).taskId,
      Carries (calls k) r ∧ ReissueInv (calls i) (calls k) r (next.phases i) := by
  have hcommitted := hinv.committed k hk
  induction hsteps with
  | refl =>
    have hphase := hinv.phases k
    obtain ⟨snapshot, hdone⟩ := hcommitted.finished
    rw [hdone] at hphase
    obtain ⟨r, hr, hcarries⟩ := hphase
    have hfresh := hinv.phases i
    rw [hi] at hfresh ⊢
    exact ⟨hfresh, r, htask ▸ hr, hcarries, trivial⟩
  | @tail middle next hsteps hstep ih =>
    obtain ⟨hfresh, r, hr, hcarries, hre⟩ := ih
    have hmiddle := hinv.steps hdecode hsubmits hsteps
    have hgrows := hstep.grows hmiddle.replays.1 hmiddle.phases
    have hr' := (hgrows (calls i).taskId).subset hr
    cases hstep with
    | @call phase j' l h =>
      by_cases hil : i = l
      · subst hil
        obtain ⟨rfl, hre'⟩ := hre.step (htaskId ▸ hmiddle.replays) hr hcarries
          hcommitted.identified hcommitted.payload htask hfact (hmiddle.phases i) h
        rw [if_pos rfl]
        exact ⟨hfresh, r, hr, hcarries, by simpa only [Function.update_self] using hre'⟩
      · refine ⟨?_, r, hr', hcarries, by simpa only [Function.update_of_ne hil] using hre⟩
        split_ifs
        · exact hfresh
        · rw [List.mem_append, List.mem_singleton]
          exact fun h => h.elim hfresh hil
    | foreign hforeign h => exact ⟨hfresh, r, hr', hcarries, hre⟩

omit [DecidableEq ι] in
/-- A fact id that was committed, used once more by a call that runs alone. -/
theorem Interleaved.reissue_alone (hinv : Interleaved contract host taskId calls state) {k : ι}
    (hk : k ∈ state.order) (htaskId : (calls k).taskId = taskId) (event : TaskEvent) {fuel : ℕ}
    (hfuel : (contract.rows state.journal taskId).length < fuel) :
    ∃ result, command journal host state.journal fuel taskId (calls k).factId event =
        some (result, state.journal) ∧
      ((∃ next, result = .ok next) ↔ event = (calls k).event) := by
  have hcommitted := hinv.committed k hk
  have hphase := hinv.phases k
  obtain ⟨snapshot, hdone⟩ := hcommitted.finished
  rw [hdone] at hphase
  obtain ⟨r, hr, hcarries⟩ := hphase
  obtain ⟨hs, replayed, hreplay⟩ := hinv.replays
  have htask : identity taskId = .ok () := htaskId ▸ hcommitted.identified.2
  have hrow : r ∈ contract.rows state.journal taskId := htaskId ▸ hr
  obtain ⟨hsame, hdiff⟩ := @planCommand_existing _ _ _ _ _ ⟨taskId, (calls k).factId, event⟩ hs _ _
    hreplay (List.Subset.refl _) _ _ hrow hcarries htaskId.symm rfl hcommitted.payload
  have hread := (records_rows hs.valid htask fuel).2 hfuel
  by_cases hevent : event = (calls k).event
  · obtain ⟨next, hnext⟩ := hsame hevent
    refine ⟨.ok next, ?_, fun _ => hevent, fun _ => ⟨next, rfl⟩⟩
    simp only [command, hcommitted.identified.1, hread, hnext, executePlan]
  · obtain ⟨e, he⟩ := hdiff hevent
    refine ⟨.error e, ?_, fun h => absurd h (by simp), fun h => absurd h hevent⟩
    simp only [command, hcommitted.identified.1, hread, he, executePlan]

theorem carries_count (hs : Settled contract j) {r : FactRecord}
    (hr : r ∈ contract.rows j call.taskId) (hcarries : Carries call r) :
    ((contract.rows j call.taskId).filter fun q => q.draft.factId = call.factId) = [r] := by
  have hnodup : (contract.rows j call.taskId).Nodup := by
    rw [contract.rows_planned hs.valid call.taskId]
    generalize (contract.rows j call.taskId).map (·.draft) = drafts
    generalize 0 = e
    induction drafts generalizing e with
    | nil => exact List.nodup_nil
    | cons d drafts ih =>
      refine List.nodup_cons.2 ⟨fun hmem => ?_, ih _⟩
      have hpos := (mem_plannedRecords hmem).2.1
      simp only [Nat.lt_irrefl] at hpos
  have hall : ∀ q ∈ (contract.rows j call.taskId).filter fun q => q.draft.factId = call.factId,
      q = r := by
    intro q hq
    obtain ⟨hq, hid⟩ := List.mem_filter.1 hq
    exact contract.fact_unique hs.valid hq hr
      ((of_decide_eq_true hid).trans hcarries.factId.symm)
  have hmem : r ∈ (contract.rows j call.taskId).filter fun q => q.draft.factId = call.factId :=
    List.mem_filter.2 ⟨hr, by simpa using hcarries.factId⟩
  have hperm := List.eq_replicate_of_mem hall
  have hlen : ((contract.rows j call.taskId).filter
      fun q => q.draft.factId = call.factId).length = 1 := by
    have hle := List.nodup_replicate.1 (hperm ▸ hnodup.filter _)
    have hpos := List.length_pos_of_mem hmem
    omega
  rw [hperm, hlen]
  rfl

/-- **Exactly-once commands under concurrency.**  In every state that
interleaved calls reach from an empty journal: the stream of the task replays; a
serial execution of the calls in `order`, each once, reaches the same journal; a
call that returned `Ok` has its fact in its stream exactly once; a call that
returned an error is not in `order`, so no append of it added a record; and a
call on the task that starts now with a fact id committed before adds nothing in
any continuation and returns `Ok` exactly when its event is the committed one.
Run alone now, such a call does return. -/
theorem commands_exactly_once
    (hdecode : ∀ event : TaskEvent, host.decodeEvent event.toValue = .ok event)
    (hsubmits : ∀ i, Submits (calls i).taskId (calls i).event) {first : State J ι}
    (hinitial : Initial contract first)
    (hsteps : Relation.ReflTransGen (Step contract host taskId calls) first state) :
    (∃ snapshot, replay journal host state.journal taskId (contract.rows state.journal taskId) =
      .ok snapshot) ∧
    (Serial contract host taskId calls state.order state.journal ∧ state.order.Nodup) ∧
    (∀ i next, state.phases i = .done (.ok next) → ∃ r, Carries (calls i) r ∧
      (contract.rows state.journal (calls i).taskId).filter
        (fun q => q.draft.factId = (calls i).factId) = [r]) ∧
    (∀ i e, state.phases i = .done (.error e) → i ∉ state.order) ∧
    (∀ i k last result, k ∈ state.order → state.phases i = .start → (calls i).taskId = taskId →
      (calls i).taskId = (calls k).taskId → (calls i).factId = (calls k).factId →
      Relation.ReflTransGen (Step contract host taskId calls) state last →
      last.phases i = .done result →
      i ∉ last.order ∧ ((∃ next, result = .ok next) ↔ (calls i).event = (calls k).event)) ∧
    (∀ k ∈ state.order, (calls k).taskId = taskId → ∀ event fuel,
      (contract.rows state.journal taskId).length < fuel → ∃ result,
        command journal host state.journal fuel taskId (calls k).factId event =
          some (result, state.journal) ∧
        ((∃ next, result = .ok next) ↔ event = (calls k).event)) := by
  have hinv := (Interleaved.initial hinitial).steps hdecode hsubmits hsteps
  refine ⟨hinv.replays.2, ⟨hinv.serial, hinv.nodup⟩, fun i next hdone => ?_, fun i e hdone => ?_,
    fun i k last result hk hi htaskId htask hfact hlater hdone => ?_,
    fun k hk htaskId event fuel hfuel => hinv.reissue_alone hk htaskId event hfuel⟩
  · have hphase := hinv.phases i
    rw [hdone] at hphase
    obtain ⟨r, hr, hcarries⟩ := hphase
    exact ⟨r, hcarries, carries_count hinv.replays.1 hr hcarries⟩
  · have hphase := hinv.phases i
    rw [hdone] at hphase
    exact hphase
  · obtain ⟨hfresh, r, _, _, hre⟩ := hinv.reissue hdecode hsubmits hk hi htaskId htask hfact hlater
    rw [hdone] at hre
    refine ⟨hfresh, ?_⟩
    cases result with
    | ok next => exact ⟨fun _ => hre, fun _ => ⟨next, rfl⟩⟩
    | error e => exact ⟨fun ⟨next, h⟩ => absurd h (by simp), fun h => absurd h hre⟩

theorem steps_of_alone (i : ι) {n : ℕ} {phase : Phase}
    (h : (stepAlone journal host (calls i))^[n] (state.phases i, state.journal) = (phase, j')) :
    ∃ order, Relation.ReflTransGen (Step contract host taskId calls) state
      { journal := j', order := order, phases := Function.update state.phases i phase } := by
  induction n generalizing state with
  | zero =>
    obtain ⟨rfl, rfl⟩ := Prod.mk.inj h
    exact ⟨state.order, by rw [Function.update_eq_self]⟩
  | succ n ih =>
    rw [Function.iterate_succ_apply] at h
    rcases hone : stepPhase journal host state.journal (calls i) (state.phases i) with ⟨middle, k⟩
    obtain ⟨next, hstep, hphases, hjournal⟩ : ∃ next, Step contract host taskId calls state next ∧
        next.phases = Function.update state.phases i middle ∧ next.journal = k :=
      ⟨_, .call i hone, rfl, rfl⟩
    rw [stepAlone, hone, ← hjournal] at h
    have hmiddle : next.phases i = middle := by rw [hphases, Function.update_self]
    obtain ⟨order, hrest⟩ := ih (hmiddle ▸ h)
    rw [hphases, Function.update_idem] at hrest
    exact ⟨order, .head hstep hrest⟩

end Interleaving

section Sample

def sampleCalls (_ : Bool) : Call := ⟨"task", "fact", .registered sampleTask⟩

def sampleStart : State MemoryState Bool := ⟨MemoryState.empty, [], fun _ => .start⟩

/-- One of the calls runs alone and succeeds; its fact is in the stream once. -/
theorem commands_exactly_once_register : ∃ state : State MemoryState Bool,
    Relation.ReflTransGen (Step memoryContract sampleHost "task" sampleCalls) sampleStart state ∧
      (∃ next, state.phases true = .done (.ok next)) ∧
      ∃ r, (state.journal.rows "task").filter (fun q => q.draft.factId = "fact") = [r] := by
  have hok : (command memoryJournal sampleHost MemoryState.empty 1 "task" "fact"
      (.registered sampleTask)).any (fun r => r.1.toBool) = true := by
    decide
  obtain ⟨⟨res, j'⟩, hcommand, hres⟩ := (Option.any_eq_true _ _).1 hok
  cases res with
  | error e => simp [Except.toBool] at hres
  | ok next =>
    obtain ⟨n, hn⟩ : ∃ n, (stepAlone memoryJournal sampleHost (sampleCalls true))^[n]
        (sampleStart.phases true, sampleStart.journal) = (.done (.ok next), j') :=
      command_steps hcommand
    obtain ⟨order, hsteps⟩ : ∃ order, Relation.ReflTransGen
        (Step memoryContract sampleHost "task" sampleCalls) sampleStart
        ⟨j', order, Function.update sampleStart.phases true (.done (.ok next))⟩ :=
      steps_of_alone true hn
    have hinitial : Initial memoryContract sampleStart :=
      ⟨MemoryState.valid_empty, fun s => by
        simp [memoryContract, MemoryState.rows, MemoryState.empty, sampleStart], rfl, fun _ => rfl⟩
    obtain ⟨_, _, honce, _⟩ := commands_exactly_once sampleHost_decodeEvent (fun _ => by rfl)
      hinitial hsteps
    obtain ⟨r, _, hr⟩ := honce true next (by simp)
    exact ⟨_, hsteps, ⟨next, by simp⟩, r, hr⟩

end Sample

end Tasks
end Kolyan
