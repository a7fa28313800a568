/-
# Admission refines replay

`command` decides on a snapshot it replayed and appends one fact; `replay` meets
that fact later and decides again.  `replay_candidate` says that the two
decisions agree: what `command` accepted, replay accepts, with the same snapshot.
From it follows, along every run of commands and of other writers of the
journal, that a task stream always replays (`Run.invariant`) and that a fresh
command returns exactly what replay of the stream then gives
(`admission_refines_replay`).
-/

import Kolyan.Tasks.Growth

namespace Kolyan
namespace Facts

section Prefixes

variable {s : String} {e : ℕ}

theorem take_plannedRecords (batch : List FactDraft) (n : ℕ) :
    (plannedRecords s e batch).take n = plannedRecords s e (batch.take n) := by
  induction batch generalizing e n with
  | nil => simp [plannedRecords]
  | cons d batch ih =>
    cases n with
    | zero => simp [plannedRecords]
    | succ n => simp [plannedRecords, ih]

theorem eq_planned_of_prefix {page : List FactRecord} {batch : List FactDraft}
    (h : page <+: plannedRecords s e batch) :
    page = plannedRecords s e (batch.take page.length) := by
  rw [← take_plannedRecords]
  exact List.prefix_iff_eq_take.1 h

end Prefixes

end Facts

namespace Tasks

open Checks Facts

section Refinement

variable {J : Type} {journal : FactJournal J} {contract : journal.Contract} {host : TaskHost}
  {j j' : J} {taskId factId : String} {event : TaskEvent}

/-! ### Reading a stream -/

theorem validateRead_of_identity (h : identity taskId = .ok ()) (limit : ℕ) (hlow : 1 ≤ limit)
    (hhigh : limit ≤ 1024) : validateRead taskId limit = .ok () := by
  rw [identity, reject_eq_ok] at h
  simp only [validateRead, Facts.identity, bind_eq_ok, reject_eq_ok, maxFactIdBytes]
  exact ⟨(), reject_of_not h, by omega⟩

theorem absorbPage_planned {after : ℕ} {acc : List FactRecord} {drafts : List FactDraft}
    (h : after + drafts.length ≤ u64Max) :
    absorbPage taskId after acc (plannedRecords taskId after drafts) =
      .ok (after + drafts.length, acc ++ plannedRecords taskId after drafts) := by
  induction drafts generalizing after acc with
  | nil => simp [plannedRecords, absorbPage]
  | cons d drafts ih =>
    rw [List.length_cons] at h
    have hnext : checkedAdd after 1 = some (after + 1) := if_pos (by omega)
    rw [plannedRecords, absorbPage]
    simp only [reject, ne_eq, not_true_eq_false, if_false, ok_bind, hnext, expect_some]
    rw [ih (by omega), List.append_assoc, List.length_cons, Nat.add_right_comm, Nat.add_assoc]
    rfl

variable (hv : contract.Valid j) (ht : identity taskId = .ok ())

include hv ht

/-- **One page read advances to a longer part of the stream**, if there is one. -/
theorem readPage_rows {after : ℕ} (hafter : after ≤ (contract.rows j taskId).length) :
    ∃ n, after ≤ n ∧ n ≤ (contract.rows j taskId).length ∧
      (after < (contract.rows j taskId).length → after < n) ∧
      readPage journal j taskId after ((contract.rows j taskId).take after) =
        .ok (n, (contract.rows j taskId).take n) := by
  obtain ⟨page, hread, hpage⟩ := contract.read_ok hv
    (validateRead_of_identity ht pageSize (by decide) (by decide)) after
  have hplanned := contract.rows_planned hv taskId
  have hbound : (contract.rows j taskId).length ≤ u64Max :=
    (contract.rows_bounded hv taskId).trans (by decide)
  obtain ⟨more, hmore⟩ := hpage.isPrefix
  have hlen : page.length + more.length = (contract.rows j taskId).length - after := by
    have h := congrArg List.length hmore
    simpa only [List.length_append, List.length_drop] using h
  have hpageEq : ∃ drafts, page = plannedRecords taskId after drafts := by
    have hp := hpage.isPrefix
    rw [hplanned, drop_plannedRecords, Nat.zero_add] at hp
    exact ⟨_, eq_planned_of_prefix hp⟩
  obtain ⟨drafts, hdrafts⟩ := hpageEq
  have hdraftsLen : drafts.length = page.length := by rw [hdrafts, length_plannedRecords]
  refine ⟨after + page.length, by omega, by omega, fun hlt => ?_, ?_⟩
  · have hne := hpage.ne_nil (by rw [Ne, List.drop_eq_nil_iff]; omega)
    have := List.length_pos_iff.2 hne
    omega
  · have htake : (contract.rows j taskId).take (after + page.length) =
        (contract.rows j taskId).take after ++ page := by
      rw [List.take_add, ← hmore, List.take_left]
    have hsize : ¬page.length > pageSize := by have := hpage.length_le; omega
    simp only [readPage, readFacts, hread, mapError, ok_bind, reject, hsize, if_false]
    rw [htake, hdrafts, absorbPage_planned (by omega), length_plannedRecords]

theorem readTail_rows {after : ℕ} (hafter : after ≤ (contract.rows j taskId).length) :
    readTail journal j taskId after = .ok (decide (after < (contract.rows j taskId).length)) := by
  obtain ⟨page, hread, hpage⟩ := contract.read_ok hv
    (validateRead_of_identity ht 1 (by decide) (by decide)) after
  have hplanned := contract.rows_planned hv taskId
  simp only [readTail, readFacts, hread, mapError, ok_bind]
  rw [hpage.eq_take_one]
  rcases hd : (contract.rows j taskId).drop after with _ | ⟨r, rest⟩
  · have hend := List.drop_eq_nil_iff.1 hd
    simp [show ¬after < (contract.rows j taskId).length by omega]
  · have hlt : after < (contract.rows j taskId).length := by
      by_contra hge
      rw [List.drop_eq_nil_iff.2 (by omega)] at hd
      exact absurd hd (by simp)
    rw [hplanned, drop_plannedRecords, Nat.zero_add] at hd
    rcases hdrop : ((contract.rows j taskId).map (·.draft)).drop after with _ | ⟨d, ds⟩
    · rw [hdrop] at hd; exact absurd hd (by simp [plannedRecords])
    · rw [hdrop, plannedRecords] at hd
      obtain ⟨rfl, _⟩ := List.cons.inj hd
      simp [reject, hlt]

/-- **The page loop reads the whole stream**, in at most one round for each
record and one more. -/
theorem recordsFrom_rows (fuel : ℕ) {after : ℕ} (hafter : after ≤ (contract.rows j taskId).length) :
    (∀ res, recordsFrom journal j taskId fuel after ((contract.rows j taskId).take after) =
        some res → res = .ok (contract.rows j taskId)) ∧
      ((contract.rows j taskId).length < fuel + after →
        recordsFrom journal j taskId fuel after ((contract.rows j taskId).take after) =
          some (.ok (contract.rows j taskId))) := by
  induction fuel generalizing after with
  | zero => exact ⟨by simp [recordsFrom], fun h => by omega⟩
  | succ fuel ih =>
    obtain ⟨n, hn, hle, hprogress, hpage⟩ := readPage_rows hv ht hafter
    rw [recordsFrom, hpage]
    simp only [readTail_rows hv ht hle]
    by_cases hlt : n < (contract.rows j taskId).length
    · simp only [hlt, decide_true]
      exact ⟨(ih hle).1, fun h => (ih hle).2 (by have := hprogress (by omega); omega)⟩
    · simp only [hlt, decide_false, Option.some.injEq,
        List.take_of_length_le (show (contract.rows j taskId).length ≤ n by omega)]
      exact ⟨fun res h => h.symm, fun _ => trivial⟩

theorem records_rows (fuel : ℕ) :
    (∀ res, records journal j fuel taskId = some res → res = .ok (contract.rows j taskId)) ∧
      ((contract.rows j taskId).length < fuel →
        records journal j fuel taskId = some (.ok (contract.rows j taskId))) := by
  have h := recordsFrom_rows hv ht fuel (Nat.zero_le _)
  simp only [records, ht]
  simpa only [List.take_zero, Nat.add_zero] using h

omit hv ht

/-! ### The fact a command appends -/

theorem mem_addCause {causes : List FactRef} {cause c : FactRef} (h : c ∈ causes) :
    c ∈ addCause causes cause := by
  rw [addCause]
  split_ifs
  · exact h
  · exact List.mem_append_left _ h

theorem mem_foldl_addCause {more causes : List FactRef} {c : FactRef} (h : c ∈ causes) :
    c ∈ more.foldl addCause causes := by
  induction more generalizing causes with
  | nil => exact h
  | cons cause more ih => exact ih (mem_addCause h)

theorem last_mem_commandCauses {records : List FactRecord} {snapshot : Option TaskSnapshot}
    {causes : List FactRef} (h : commandCauses host records snapshot event = .ok causes)
    {r : FactRecord} (hr : records.getLast? = some r) : reference r ∈ causes := by
  simp only [commandCauses, bind_eq_ok, pure_eq_ok] at h
  obtain ⟨goals, _, budget, _, rfl⟩ := h
  apply mem_foldl_addCause
  apply mem_foldl_addCause
  apply mem_foldl_addCause
  simp [hr]

/-- What a plan to append was built from. -/
structure Planned (host : TaskHost) (journal : FactJournal J) (j : J) (taskId factId : String)
    (event : TaskEvent) (records : List FactRecord) (expected : ℕ) (candidate : FactRecord)
    (next : TaskSnapshot) : Prop where
  replayed : ∃ snapshot, replay journal host j taskId records = .ok snapshot ∧
    verifyEvent host.sha256 host.goalVerifier snapshot event candidate = .ok () ∧
    apply host.sha256 snapshot event candidate = .ok next
  payload : checkPayload host event = .ok ()
  fresh : ∀ r ∈ records, r.draft.factId ≠ factId
  expected_eq : expected = lastPosition records
  candidate_eq : ∃ causes, candidate =
      ⟨taskId, expected + 1, commandDraft taskId factId event causes⟩ ∧
    ∀ r, records.getLast? = some r → reference r ∈ causes
  source : verifyInputEvent journal j host taskId event candidate next = .ok ()

theorem planned_of_plan {records : List FactRecord} {expected : ℕ} {candidate : FactRecord}
    {next : TaskSnapshot}
    (h : planCommand journal host j taskId factId event records =
      .ok (.append expected candidate next)) :
    Planned host journal j taskId factId event records expected candidate next := by
  simp only [planCommand, bind_eq_ok] at h
  obtain ⟨snapshot, hreplay, _, hpayload, h⟩ := h
  split at h
  · simp only [bind_eq_ok, pure_eq_ok] at h
    obtain ⟨_, _, _, _, h⟩ := h
    exact absurd h (by simp)
  · rename_i hnone
    simp only [planAppendFact, bind_eq_ok, expect_eq_ok, pure_eq_ok] at h
    obtain ⟨causes, hcauses, position, hposition, _, hverify, applied, happly, _, hsource, h⟩ := h
    obtain ⟨rfl, rfl, rfl⟩ := Plan.append.inj h
    have hpos : position = lastPosition records + 1 := by
      rw [checkedAdd] at hposition
      split_ifs at hposition
      exact (Option.some.inj hposition).symm
    refine ⟨⟨snapshot, hreplay, hverify, happly⟩, hpayload, fun r hr => ?_, rfl,
      ⟨causes, by rw [hpos], fun r hr => last_mem_commandCauses hcauses hr⟩, hsource⟩
    have hno := List.find?_eq_none.1 hnone r hr
    simpa using hno

/-! ### Replay agrees -/

theorem apply_position {snapshot : Option TaskSnapshot} {record : FactRecord} {next : TaskSnapshot}
    {sha256 : Value → String} (h : apply sha256 snapshot event record = .ok next) :
    next.position = record.position := by
  cases snapshot with
  | none =>
    cases event with
    | registered definition =>
      simp only [apply, bind_eq_ok, pure_eq_ok] at h
      obtain ⟨_, _, rfl⟩ := h
      rfl
    | _ => simp [apply] at h
  | some state =>
    cases event with
    | registered definition => simp [apply] at h
    | _ =>
      simp only [apply, bind_eq_ok, pure_eq_ok] at h
      obtain ⟨_, _, _, _, rfl⟩ := h
      rfl

theorem replayFrom_append {state : ReplayState} (xs ys : List FactRecord) :
    replayFrom journal host j taskId state (xs ++ ys) =
      (replayFrom journal host j taskId state xs >>= fun state =>
        replayFrom journal host j taskId state ys) := by
  induction xs generalizing state with
  | nil => rfl
  | cons x xs ih =>
    simp only [List.cons_append, replayFrom]
    cases replayRecord journal host j taskId state x with
    | error e => rfl
    | ok next => simp only [ok_bind, ih]

theorem replayFrom_previous {state next : ReplayState} {records : List FactRecord}
    (h : replayFrom journal host j taskId state records = .ok next) :
    next.previous = (records.getLast?.map reference).or state.previous := by
  induction records generalizing state with
  | nil =>
    obtain rfl := Except.ok.inj h
    rfl
  | cons record rest ih =>
    obtain ⟨middle, hmiddle, h⟩ := bind_eq_ok.1 h
    simp only [replayRecord, bind_eq_ok, pure_eq_ok] at hmiddle
    obtain ⟨_, _, rfl⟩ := hmiddle
    rw [ih h, List.getLast?_cons]
    cases rest.getLast? <;> rfl

theorem commandDraft_transition (causes : List FactRef) :
    isTransition (commandDraft taskId factId event causes) = true := by
  simp [isTransition, commandDraft, envelope_kind_known]

/-- **Replay accepts what a command planned**, with the snapshot the command
returns: every check of `replay` was made by `command` on the same values. -/
theorem replay_candidate (hdecode : ∀ event : TaskEvent, host.decodeEvent event.toValue = .ok event)
    (hsubmits : Submits taskId event) {records : List FactRecord} {expected : ℕ}
    {candidate : FactRecord} {next : TaskSnapshot}
    (h : Planned host journal j taskId factId event records expected candidate next) :
    replay journal host j taskId (records ++ [candidate]) = .ok (some next) := by
  obtain ⟨snapshot, hreplay, hverify, happly⟩ := h.replayed
  obtain ⟨causes, hcandidate, hlast⟩ := h.candidate_eq
  obtain ⟨state, hstate, hsnapshot⟩ := bind_eq_ok.1 hreplay
  obtain rfl := pure_eq_ok.1 hsnapshot
  have hprevious := replayFrom_previous hstate
  have hregistration : checkRegistration taskId event = .ok () := by
    cases event with
    | registered definition => exact reject_of_not (not_not.2 hsubmits)
    | _ => rfl
  have hcausal : ¬state.previous.any fun cause => cause ∉ candidate.draft.causes := by
    rw [hprevious, hcandidate]
    cases hr : records.getLast? with
    | none => simp [ReplayState.initial]
    | some r =>
      have hmem := hlast r hr
      simp [commandDraft, hmem]
  have hdraft : candidate.draft = commandDraft taskId factId event causes := by rw [hcandidate]
  have htransition : replayTransition journal host j taskId state candidate = .ok next := by
    have hcritical : candidate.draft.critical = true := by rw [hdraft]; rfl
    have hpayload : candidate.draft.payload = event.toValue := by rw [hdraft]; rfl
    have henvelope : candidate.draft.kind = (envelope taskId event).1 ∧
        candidate.draft.subject = (envelope taskId event).2 := by rw [hdraft]; exact ⟨rfl, rfl⟩
    simp only [replayTransition, bind_eq_ok, reject_eq_ok, mapError_eq_ok, pure_eq_ok, hpayload,
      hdecode]
    refine ⟨(), not_not.2 hcritical, event, rfl, (), ?_, (), hregistration, (), hverify, next,
      happly, (), h.source, rfl⟩
    rw [not_or, not_or, not_not, not_not]
    exact ⟨henvelope.1.symm, henvelope.2.symm, hcausal⟩
  have hrecord : replayRecord journal host j taskId state candidate =
      .ok ⟨some (next.moveTo candidate.position), some (reference candidate)⟩ := by
    have hknown : isTransition candidate.draft = true := by
      rw [hdraft]; exact commandDraft_transition causes
    simp only [replayRecord, replaySnapshot, hknown, if_true, htransition, ok_bind]
    rfl
  have hmoved : next.moveTo candidate.position = next := by
    rw [← apply_position happly]
    rfl
  rw [replay, replayFrom_append, hstate]
  simp only [ok_bind, replayFrom, hrecord, hmoved]
  rfl

theorem inputSourceKind_unknown : inputSourceKind ∉ knownKinds := by decide

theorem head_not_source {snapshot : Option TaskSnapshot} {records : List FactRecord}
    (h : replay journal host j taskId records = .ok snapshot) {r : FactRecord}
    (hr : records.head? = some r) : ¬IsSource r := by
  rintro ⟨hcritical, hkind⟩
  obtain ⟨rest, rfl⟩ : ∃ rest, records = r :: rest := by
    cases records with
    | nil => simp at hr
    | cons q rest => exact ⟨rest, by rw [Option.some.inj hr]⟩
  have hunknown : isTransition r.draft = false := by
    simp [isTransition, hkind, inputSourceKind_unknown]
  simp only [replay, replayFrom, replayRecord, replaySnapshot, hunknown, reject, hcritical,
    Bool.false_eq_true, if_false, if_true, error_bind] at h
  exact absurd h (by simp)

theorem replayFrom_unknown {records : List FactRecord}
    (h : ∀ r ∈ records, r.draft.critical = false ∧ r.draft.kind ∉ knownKinds) (state : ReplayState) :
    ∃ next, replayFrom journal host j taskId state records = .ok next := by
  induction records generalizing state with
  | nil => exact ⟨state, rfl⟩
  | cons r records ih =>
    obtain ⟨hr, hrest⟩ := List.forall_mem_cons.1 h
    have hunknown : isTransition r.draft = false := by simp [isTransition, hr.2]
    obtain ⟨next, hnext⟩ := ih hrest
      ⟨state.snapshot.map fun state => state.moveTo r.position, some (reference r)⟩
    refine ⟨next, ?_⟩
    simp only [replayFrom, replayRecord, replaySnapshot, hunknown, reject, hr.1,
      Bool.false_eq_true, if_false, ok_bind]
    exact hnext

/-! ### What a command does to the journal -/

theorem lastPosition_rows (hv : contract.Valid j) (stream : String) :
    lastPosition (contract.rows j stream) = (contract.rows j stream).length := by
  have h := getLast?_plannedRecords (s := stream) (e := 0) ((contract.rows j stream).map (·.draft))
  rw [← contract.rows_planned hv stream, List.length_map, Nat.zero_add] at h
  unfold lastPosition
  cases hl : (contract.rows j stream).getLast? with
  | none => simp [List.getLast?_eq_none_iff.1 hl]
  | some r => exact h r hl

theorem Planned.candidate_record {records : List FactRecord} {expected : ℕ}
    {candidate : FactRecord} {next : TaskSnapshot}
    (h : Planned host journal j taskId factId event records expected candidate next) :
    plannedRecords taskId expected [candidate.draft] = [candidate] := by
  obtain ⟨causes, rfl, _⟩ := h.candidate_eq
  rfl

/-- **The append of a plan**: it commits the candidate, or it was committed at
that position before, or it fails; only the first changes the journal. -/
theorem executeAppend_cases (hv : contract.Valid j) {records : List FactRecord} {expected : ℕ}
    {candidate : FactRecord} {next : TaskSnapshot} {res : Except TaskError TaskSnapshot} {k : J}
    (hplanned : Planned host journal k taskId factId event records expected candidate next)
    (h : executePlan journal j taskId (.ok (.append expected candidate next)) = (res, j')) :
    (res = .ok next ∧ expected = (contract.rows j taskId).length ∧ contract.Valid j' ∧
        contract.rows j' =
          Function.update (contract.rows j) taskId (contract.rows j taskId ++ [candidate]) ∧
        ∀ s, ∀ r ∈ contract.rows j s, r.draft.factId ≠ factId) ∨
      (res = .ok next ∧ j' = j ∧ [candidate] <+: (contract.rows j taskId).drop expected) ∨
      ((∃ e, res = .error e) ∧ j' = j) := by
  have hrecord := hplanned.candidate_record
  have hfactId : candidate.draft.factId = factId := by
    obtain ⟨causes, rfl, _⟩ := hplanned.candidate_eq
    rfl
  rcases happend : journal.append j taskId expected [candidate.draft] with ⟨appended, j''⟩
  simp only [executePlan, happend, Prod.mk.injEq] at h
  obtain ⟨rfl, rfl⟩ := h
  cases appended with
  | error e => exact Or.inr (Or.inr ⟨⟨_, rfl⟩, contract.append_error hv happend⟩)
  | ok committed =>
    obtain ⟨hv', hcommitted, hcase⟩ := contract.append_ok hv happend
    rw [hrecord] at hcommitted
    have hres : finishAppend candidate next (.ok committed) = .ok next := by
      simp only [finishAppend, mapError, ok_bind, hcommitted, reject, ne_eq, not_true_eq_false,
        if_false]
      rfl
    rcases hcase with ⟨hexpected, hfresh, hrows⟩ | ⟨hsame, hpart⟩
    · refine Or.inl ⟨hres, hexpected, hv', by rw [hrows, hcommitted], fun s r hr hid => ?_⟩
      exact hfresh candidate.draft (List.mem_singleton_self _) s r hr (hid.trans hfactId.symm)
    · exact Or.inr (Or.inl ⟨hres, hsame, hcommitted ▸ hpart⟩)

/-- **What a command does**: it commits one planned fact at the end of its
stream, or it leaves the journal alone and answers a fact that was there or an
error. -/
theorem command_cases (hv : contract.Valid j) {fuel : ℕ} {res : Except TaskError TaskSnapshot}
    (h : command journal host j fuel taskId factId event = some (res, j')) :
    (∃ expected candidate next, res = .ok next ∧
        Planned host journal j taskId factId event (contract.rows j taskId) expected candidate next ∧
        contract.Valid j' ∧ contract.rows j' =
          Function.update (contract.rows j) taskId (contract.rows j taskId ++ [candidate])) ∨
      (j' = j ∧ ∀ next, res = .ok next → ∃ r ∈ contract.rows j taskId, r.draft.factId = factId) := by
  rw [command] at h
  cases hfact : identity factId with
  | error e =>
    rw [hfact] at h
    obtain ⟨rfl, rfl⟩ := Prod.mk.inj (Option.some.inj h)
    exact Or.inr ⟨rfl, by simp⟩
  | ok u =>
    rw [hfact] at h
    cases ht : identity taskId with
    | error e =>
      simp only [records, ht] at h
      obtain ⟨rfl, rfl⟩ := Prod.mk.inj (Option.some.inj h)
      exact Or.inr ⟨rfl, by simp⟩
    | ok u =>
      cases hrecords : records journal j fuel taskId with
      | none => simp [hrecords] at h
      | some read =>
        obtain rfl := (records_rows hv ht fuel).1 read hrecords
        simp only [hrecords, Option.some.injEq] at h
        cases hplan : planCommand journal host j taskId factId event (contract.rows j taskId) with
        | error e =>
          rw [hplan] at h
          obtain ⟨rfl, rfl⟩ := Prod.mk.inj h
          exact Or.inr ⟨rfl, by simp⟩
        | ok plan =>
          cases plan with
          | done snapshot =>
            rw [hplan] at h
            obtain ⟨rfl, rfl⟩ := Prod.mk.inj h
            refine Or.inr ⟨rfl, fun _ _ => ?_⟩
            simp only [planCommand, bind_eq_ok] at hplan
            obtain ⟨_, _, _, _, hplan⟩ := hplan
            split at hplan
            · rename_i existing hexisting
              exact ⟨existing, List.mem_of_find?_eq_some hexisting,
                by simpa using List.find?_some hexisting⟩
            · simp only [planAppendFact, bind_eq_ok, pure_eq_ok] at hplan
              obtain ⟨_, _, _, _, _, _, _, _, _, _, hplan⟩ := hplan
              exact absurd hplan (by simp)
          | append expected candidate next =>
            have hplanned := planned_of_plan hplan
            rw [hplan] at h
            rcases executeAppend_cases hv hplanned h with
              ⟨hres, _, hv', hrows, _⟩ | ⟨_, _, hpart⟩ | ⟨⟨e, he⟩, hsame⟩
            · exact Or.inl ⟨expected, candidate, next, hres, hplanned, hv', hrows⟩
            · -- the batch table has nothing at the end of the stream
              rw [hplanned.expected_eq, lastPosition_rows hv, List.drop_length] at hpart
              exact absurd (List.prefix_nil.1 hpart) (by simp)
            · exact Or.inr ⟨hsame, fun next hnext => by rw [he] at hnext; simp at hnext⟩

/-! ### Settled journals stay settled -/

/-- An append keeps published sources alone when it is the first record of its
stream or brings no source to a stream without one. -/
theorem Settled.append (hs : Settled contract j) (hv' : contract.Valid j') {stream : String}
    {added : List FactRecord}
    (hrows : contract.rows j' =
      Function.update (contract.rows j) stream (contract.rows j stream ++ added))
    (hadded : (contract.rows j stream = [] ∧ added.length = 1) ∨
      ((∀ r ∈ added, ¬IsSource r) ∧ ∀ r, (contract.rows j stream).head? = some r → ¬IsSource r)) :
    Settled contract j' ∧ Grows contract j j' := by
  refine ⟨⟨hv', fun {s r} hr hsource => ?_⟩, fun s => ?_⟩
  · rw [hrows] at hr ⊢
    by_cases hstream : s = stream
    · subst hstream
      rw [Function.update_self] at hr ⊢
      rcases hadded with ⟨hempty, hone⟩ | ⟨hnone, hhead⟩
      · obtain ⟨q, rfl⟩ := List.length_eq_one_iff.1 hone
        rw [hempty, List.nil_append] at hr ⊢
        rw [Option.some.inj hr]
      · rw [List.head?_append] at hr
        cases hold : (contract.rows j s).head? with
        | none =>
          rw [hold, Option.none_or] at hr
          exact absurd hsource (hnone r (List.mem_of_head? hr))
        | some q =>
          rw [hold, Option.some_or, Option.some.injEq] at hr
          exact absurd (hr ▸ hsource) (hhead q hold)
    · rw [Function.update_of_ne hstream] at hr ⊢
      exact hs.alone hr hsource
  · rw [hrows]
    by_cases hstream : s = stream
    · subst hstream
      rw [Function.update_self]
      exact List.prefix_append _ _
    · rw [Function.update_of_ne hstream]

theorem Planned.not_source {records : List FactRecord} {expected : ℕ} {candidate : FactRecord}
    {next : TaskSnapshot}
    (h : Planned host journal j taskId factId event records expected candidate next) :
    ¬IsSource candidate := by
  rintro ⟨_, hkind⟩
  obtain ⟨causes, rfl, _⟩ := h.candidate_eq
  exact inputSourceKind_unknown (hkind ▸ envelope_kind_known taskId event)

theorem Planned.settled (hs : Settled contract j) (hv' : contract.Valid j') {expected : ℕ}
    {candidate : FactRecord} {next : TaskSnapshot}
    (h : Planned host journal j taskId factId event (contract.rows j taskId) expected candidate next)
    (hrows : contract.rows j' =
      Function.update (contract.rows j) taskId (contract.rows j taskId ++ [candidate])) :
    Settled contract j' ∧ Grows contract j j' := by
  obtain ⟨snapshot, hreplay, _⟩ := h.replayed
  refine hs.append hv' hrows (Or.inr ⟨fun r hr => ?_, fun r hr => head_not_source hreplay hr⟩)
  rw [List.mem_singleton.1 hr]
  exact h.not_source

/-- What other writers append: on the stream of `taskId` noncritical facts of
unknown kind; anywhere an input source alone at the start of a stream, or facts
that are no input source, to a stream that holds none. -/
structure Foreign (contract : journal.Contract) (j : J) (taskId stream : String) (expected : ℕ)
    (batch : List FactDraft) : Prop where
  onTask : stream = taskId → ∀ d ∈ batch, d.critical = false ∧ d.kind ∉ knownKinds
  sources : (expected = 0 ∧ batch.length = 1) ∨
    ((∀ d ∈ batch, ¬(d.critical = true ∧ d.kind = inputSourceKind)) ∧
      ∀ r, (contract.rows j stream).head? = some r → ¬IsSource r)

theorem Foreign.settled (hs : Settled contract j) {stream : String} {expected : ℕ}
    {batch : List FactDraft} {res : Except FactError (List FactRecord)}
    (hforeign : Foreign contract j taskId stream expected batch)
    (h : journal.append j stream expected batch = (res, j')) :
    Settled contract j' ∧ Grows contract j j' ∧
      ∃ added, contract.rows j' taskId = contract.rows j taskId ++ added ∧
        ∀ r ∈ added, r.draft.critical = false ∧ r.draft.kind ∉ knownKinds := by
  have hkeep : j' = j → Settled contract j' ∧ Grows contract j j' ∧
      ∃ added, contract.rows j' taskId = contract.rows j taskId ++ added ∧
        ∀ r ∈ added, r.draft.critical = false ∧ r.draft.kind ∉ knownKinds := by
    rintro rfl
    exact ⟨hs, Grows.refl _, [], (List.append_nil _).symm, by simp⟩
  cases res with
  | error e => exact hkeep (contract.append_error hs.valid h)
  | ok committed =>
    obtain ⟨hv', rfl, ⟨hexpected, _, hrows⟩ | ⟨hsame, _⟩⟩ := contract.append_ok hs.valid h
    · have hsources : (contract.rows j stream = [] ∧
          (plannedRecords stream expected batch).length = 1) ∨
          ((∀ r ∈ plannedRecords stream expected batch, ¬IsSource r) ∧
            ∀ r, (contract.rows j stream).head? = some r → ¬IsSource r) := by
        rcases hforeign.sources with ⟨hzero, hone⟩ | ⟨hnone, hhead⟩
        · refine Or.inl ⟨List.length_eq_zero_iff.1 (hexpected.symm.trans hzero), ?_⟩
          rw [length_plannedRecords, hone]
        · exact Or.inr ⟨fun r hr => hnone r.draft (mem_plannedRecords hr).2.2.2, hhead⟩
      obtain ⟨hs', hg⟩ := hs.append hv' hrows hsources
      refine ⟨hs', hg, ?_⟩
      by_cases hstream : stream = taskId
      · subst hstream
        refine ⟨_, by rw [hrows, Function.update_self], fun r hr => ?_⟩
        exact hforeign.onTask rfl r.draft (mem_plannedRecords hr).2.2.2
      · exact ⟨[], by rw [hrows, Function.update_of_ne (Ne.symm hstream), List.append_nil], by simp⟩
    · exact hkeep hsame

/-! ### Runs -/

/-- The journals that runs of commands, on any task and with any arguments,
reach from an empty journal, between the appends of other writers. -/
inductive Run (contract : journal.Contract) (host : TaskHost) (taskId : String) : J → Prop
  | start {j : J} (hv : contract.Valid j) (hempty : ∀ s, contract.rows j s = []) :
      Run contract host taskId j
  | command {j j' : J} {fuel : ℕ} {stream factId : String} {event : TaskEvent}
      {res : Except TaskError TaskSnapshot} (run : Run contract host taskId j)
      (hsubmits : Submits stream event)
      (h : command journal host j fuel stream factId event = some (res, j')) :
      Run contract host taskId j'
  | foreign {j j' : J} {stream : String} {expected : ℕ} {batch : List FactDraft}
      {res : Except FactError (List FactRecord)} (run : Run contract host taskId j)
      (hforeign : Foreign contract j taskId stream expected batch)
      (h : journal.append j stream expected batch = (res, j')) : Run contract host taskId j'

/-- The invariant of a run. -/
def Replays (contract : journal.Contract) (host : TaskHost) (taskId : String) (j : J) : Prop :=
  Settled contract j ∧
    ∃ snapshot, replay journal host j taskId (contract.rows j taskId) = .ok snapshot

theorem Planned.replays (hdecode : ∀ event : TaskEvent, host.decodeEvent event.toValue = .ok event)
    (hsubmits : Submits taskId event) (hs : Settled contract j) (hv' : contract.Valid j')
    {expected : ℕ} {candidate : FactRecord} {next : TaskSnapshot}
    (h : Planned host journal j taskId factId event (contract.rows j taskId) expected candidate next)
    (hrows : contract.rows j' =
      Function.update (contract.rows j) taskId (contract.rows j taskId ++ [candidate])) :
    replay journal host j' taskId (contract.rows j' taskId) = .ok (some next) := by
  obtain ⟨hs', hg⟩ := h.settled hs hv' hrows
  rw [hrows, Function.update_self]
  exact replay_grows hs hs' hg (replay_candidate hdecode hsubmits h)

theorem Replays.command (hdecode : ∀ event : TaskEvent, host.decodeEvent event.toValue = .ok event)
    {task : String} (hinv : Replays contract host task j) {fuel : ℕ} (hsubmits : Submits taskId event)
    {res : Except TaskError TaskSnapshot}
    (h : command journal host j fuel taskId factId event = some (res, j')) :
    Replays contract host task j' := by
  obtain ⟨hs, snapshot, hreplay⟩ := hinv
  rcases command_cases hs.valid h with ⟨_, _, next, _, hplanned, hv', hrows⟩ | ⟨rfl, _⟩
  · obtain ⟨hs', hg⟩ := hplanned.settled hs hv' hrows
    refine ⟨hs', ?_⟩
    by_cases htask : task = taskId
    · subst htask
      exact ⟨_, hplanned.replays hdecode hsubmits hs hv' hrows⟩
    · refine ⟨snapshot, ?_⟩
      rw [hrows, Function.update_of_ne htask]
      exact replay_grows hs hs' hg hreplay
  · exact ⟨hs, snapshot, hreplay⟩

theorem Replays.foreign (hinv : Replays contract host taskId j) {stream : String} {expected : ℕ}
    {batch : List FactDraft} {res : Except FactError (List FactRecord)}
    (hforeign : Foreign contract j taskId stream expected batch)
    (h : journal.append j stream expected batch = (res, j')) : Replays contract host taskId j' := by
  obtain ⟨hs, snapshot, hreplay⟩ := hinv
  obtain ⟨hs', hg, added, hrows, hadded⟩ := hforeign.settled hs h
  obtain ⟨state, hstate, _⟩ := bind_eq_ok.1 hreplay
  obtain ⟨next, hnext⟩ : ∃ next, replayFrom journal host j' taskId state added = .ok next :=
    replayFrom_unknown hadded state
  refine ⟨hs', next.snapshot, ?_⟩
  rw [replay, hrows, replayFrom_append, replayFrom_grows hs hs' hg hstate, ok_bind, hnext]
  rfl

theorem Run.invariant (hdecode : ∀ event : TaskEvent, host.decodeEvent event.toValue = .ok event)
    (run : Run contract host taskId j) : Replays contract host taskId j := by
  induction run with
  | start hv hempty =>
    refine ⟨⟨hv, fun {s r} hr => by simp [hempty] at hr⟩, none, ?_⟩
    rw [hempty]
    rfl
  | command _ hsubmits h ih => exact ih.command hdecode hsubmits h
  | foreign _ hforeign h ih => exact ih.foreign hforeign h

/-- What commands and other writers make of a journal. -/
def Steps (contract : journal.Contract) (host : TaskHost) (taskId : String) : J → J → Prop :=
  Relation.ReflTransGen fun j j' =>
    (∃ fuel stream factId event res, Submits stream event ∧ command journal host j fuel stream factId event = some (res, j')) ∨
      ∃ stream expected batch res, Foreign contract j taskId stream expected batch ∧
        journal.append j stream expected batch = (res, j')

theorem Steps.grows (hs : Settled contract j) (h : Steps contract host taskId j j') :
    Settled contract j' ∧ Grows contract j j' := by
  induction h with
  | refl => exact ⟨hs, Grows.refl _⟩
  | tail _ hstep ih =>
    obtain ⟨hmiddle, hg⟩ := ih
    rcases hstep with ⟨fuel, stream, factId, event, res, -, h⟩ | ⟨stream, expected, batch, res, hforeign, h⟩
    · rcases command_cases hmiddle.valid h with ⟨_, _, next, _, hplanned, hv', hrows⟩ | ⟨rfl, _⟩
      · obtain ⟨hs', hg'⟩ := hplanned.settled hmiddle hv' hrows
        exact ⟨hs', hg.trans hg'⟩
      · exact ⟨hmiddle, hg⟩
    · obtain ⟨hs', hg', -⟩ := hforeign.settled hmiddle h
      exact ⟨hs', hg.trans hg'⟩

/-- **Publishing an input source is a step of a run** on every stream but the
task's own: it appends nothing, or one fact at the start of an empty stream. -/
theorem Run.publish (run : Run contract host taskId j) {envelope : InvocationInputEnvelope}
    {causes : List FactRef} {res : Except TaskError VerifiedInvocationInputSource}
    (hother : coordinate host.sha256 envelope.scope ≠ taskId)
    (h : publishInvocationInputSource journal j host envelope causes = (res, j')) :
    Run contract host taskId j' := by
  rw [publishInvocationInputSource] at h
  split at h
  · exact (Prod.mk.inj h).2 ▸ run
  · split at h
    · exact (Prod.mk.inj h).2 ▸ run
    · rcases happend : journal.append j (coordinate host.sha256 envelope.scope) 0
        [inputSourceDraft (coordinate host.sha256 envelope.scope) envelope causes] with
        ⟨appended, j''⟩
      simp only [appendPublication, happend, Prod.mk.injEq] at h
      obtain ⟨_, rfl⟩ := h
      exact run.foreign ⟨fun heq => absurd heq hother, Or.inl ⟨rfl, rfl⟩⟩ happend
    · exact (Prod.mk.inj h).2 ▸ run

/-- **Admission refines replay.**  In every journal a run reaches, the stream of
the task replays; and a command for the task that succeeds with a new fact id
returns exactly the snapshot to which the stream replays right after it. -/
theorem admission_refines_replay (hdecode : ∀ event : TaskEvent, host.decodeEvent event.toValue = .ok event)
    (run : Run contract host taskId j) :
    (∃ snapshot, replay journal host j taskId (contract.rows j taskId) = .ok snapshot) ∧
      ∀ fuel factId event next j', Submits taskId event →
        (∀ r ∈ contract.rows j taskId, r.draft.factId ≠ factId) →
        command journal host j fuel taskId factId event = some (.ok next, j') →
        replay journal host j' taskId (contract.rows j' taskId) = .ok (some next) := by
  obtain ⟨hs, hreplays⟩ := run.invariant hdecode
  refine ⟨hreplays, fun fuel factId event next j' hsubmits hfresh h => ?_⟩
  rcases command_cases hs.valid h with ⟨_, _, next', hres, hplanned, hv', hrows⟩ | ⟨_, hold⟩
  · obtain rfl := Except.ok.inj hres
    exact hplanned.replays hdecode hsubmits hs hv' hrows
  · obtain ⟨r, hr, hid⟩ := hold next rfl
    exact absurd hid (hfresh r hr)

end Refinement

section Sample

/-- A host that decodes what was encoded and has no goal verifier. -/
noncomputable def sampleHost : TaskHost where
  sha256 _ := ""
  decodeEvent value :=
    open Classical in
    if h : ∃ event, TaskEvent.toValue event = value then .ok h.choose else .error "not an event"
  decodeEnvelope _ := .error "not an envelope"
  goalVerifier := none

theorem sampleHost_decodeEvent (event : TaskEvent) :
    sampleHost.decodeEvent event.toValue = .ok event := by
  have h : ∃ e, TaskEvent.toValue e = event.toValue := ⟨event, rfl⟩
  simp only [sampleHost, dif_pos h]
  exact congrArg Except.ok (TaskEvent.toValue_injective h.choose_spec)

theorem sampleRun : Run memoryContract sampleHost "task" MemoryState.empty :=
  .start MemoryState.valid_empty fun s => by simp [memoryContract, MemoryState.rows, MemoryState.empty]

/-- Registering the sample task in the empty journal succeeds and replays. -/
theorem admission_refines_replay_register : ∃ next j',
    command memoryJournal sampleHost MemoryState.empty 1 "task" "fact" (.registered sampleTask) =
        some (.ok next, j') ∧
      replay memoryJournal sampleHost j' "task" (j'.rows "task") = .ok (some next) := by
  have hok : (command memoryJournal sampleHost MemoryState.empty 1 "task" "fact"
      (.registered sampleTask)).any (fun r => r.1.toBool) = true := by
    decide
  obtain ⟨⟨res, j'⟩, hcommand, hres⟩ := (Option.any_eq_true _ _).1 hok
  cases res with
  | error e => simp [Except.toBool] at hres
  | ok next =>
    refine ⟨next, j', hcommand, (admission_refines_replay sampleHost_decodeEvent sampleRun).2 1 "fact"
      (.registered sampleTask) next j' (by rfl) ?_ hcommand⟩
    simp [memoryContract, MemoryState.rows, MemoryState.empty]

end Sample

end Tasks
end Kolyan
