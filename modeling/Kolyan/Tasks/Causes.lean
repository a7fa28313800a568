/-
# The causal closure of an input source

`validate_causes` walks the records that a list of causes refers to, depth first,
with a stack and two colours.  It is an instance of the walks of
`Kolyan.Lib.Walks`: the successors of a reference are the causes of the record it
resolves to (`causalGraph`), and one turn of the loop is one step of the walk
(`enterCause_eq_ok_iff`).  So the scan ends within its fuel
(`scanCauses_fuel`), and it accepts exactly the lists of causes whose closure is
finite and small, acyclic, and made of records that resolve (`CausalClosure`),
in whatever order the causes are given.
-/

import Kolyan.Lib.Walks
import Kolyan.Tasks.Accounting
import Kolyan.Tasks.Input

namespace Kolyan
namespace Tasks

open Checks Facts Relation

section Closure

variable {J : Type} (journal : FactJournal J) (j : J)

/-- The reference resolves to exactly one record, which is critical, lies where the
reference says and repeats no cause; its causes in its own stream are earlier. -/
structure Resolves (reference : FactRef) (record : FactRecord) : Prop where
  alone : journal.read j reference.streamId (reference.position - 1) 1 = .ok [record]
  streamId : record.streamId = reference.streamId
  position : record.position = reference.position
  factId : record.draft.factId = reference.factId
  critical : record.draft.critical = true
  length_causes : record.draft.causes.length ≤ 32
  nodup_causes : record.draft.causes.Nodup
  earlier : ∀ cause ∈ record.draft.causes, cause.streamId = record.streamId →
    cause.position < record.position

/-- The second reference is a cause of the record that the first one resolves to. -/
def CausedBy (reference cause : FactRef) : Prop :=
  ∃ record, journal.read j reference.streamId (reference.position - 1) 1 = .ok [record] ∧
    cause ∈ record.draft.causes

/-- The reference is reached from the list through the causes of records. -/
def ReachedFrom (causes : List FactRef) (reference : FactRef) : Prop :=
  ∃ cause ∈ causes, ReflTransGen (CausedBy journal j) cause reference

/-- The encoded size of the record at a reference. -/
def recordSize (reference : FactRef) : ℕ :=
  match readCause journal j reference with
  | .ok record => record.toValue.encodedLen
  | .error _ => 0

/-- **What `validate_causes` accepts**: 1 to 32 distinct causes whose closure `R` has at
most 1024 references, none on a cycle, none at position 0 or in the source's own stream,
each a well-formed identity that resolves, and whose records take at most 16 MiB. -/
structure CausalClosure (causes : List FactRef) (stream : String) : Prop where
  ne_nil : causes ≠ []
  length_le : causes.length ≤ 32
  nodup : causes.Nodup
  closure : ∃ R : Finset FactRef, (∀ a, a ∈ R ↔ ReachedFrom journal j causes a) ∧ R.card ≤ 1024 ∧
    (∀ a ∈ R, ¬TransGen (CausedBy journal j) a a) ∧
    (∀ a ∈ R, a.position ≠ 0 ∧ a.streamId ≠ stream ∧ identity a.streamId = .ok () ∧
      identity a.factId = .ok () ∧ ∃ record, Resolves journal j a record) ∧
    ∑ a ∈ R, recordSize journal j a ≤ 16 * 1024 * 1024

end Closure

section Graphs

variable {J : Type} (journal : FactJournal J) (j : J) (stream : String)

/-- The graph that the scan of a source's causes walks. -/
def causalGraph : Walks.Graph FactRef where
  succ reference :=
    match readCause journal j reference with
    | .ok record => record.draft.causes
    | .error _ => []
  fit a := a.position ≠ 0 ∧ a.streamId ≠ stream ∧ identity a.streamId = .ok () ∧
    identity a.factId = .ok () ∧ ∃ record, Resolves journal j a record
  weight := recordSize journal j
  cap := maxCausalRecords
  budget := maxBytes

/-- A task of the scan. -/
def Walk.task : Walk → Walks.Task FactRef
  | .enter reference => .enter reference
  | .exit key => .exit key

/-- A scan as a walk of the graph. -/
def CausalScan.walk (scan : CausalScan) : Walks.Walk FactRef :=
  ⟨scan.black, scan.gray, scan.bytes, scan.stack.map Walk.task⟩

variable {journal j stream} {reference a b : FactRef} {record : FactRecord} {scan scan' : CausalScan}
  {causes : List FactRef}

theorem readCause_eq_ok_iff : readCause journal j reference = .ok record ↔
    journal.read j reference.streamId (reference.position - 1) 1 = .ok [record] := by
  simp only [readCause, readFacts, bind_eq_ok, mapError_eq_ok]
  constructor
  · rintro ⟨rows, hread, hrows⟩
    rcases rows with _ | ⟨r, _ | ⟨r', rows⟩⟩
    · simp at hrows
    · obtain rfl : r = record := Except.ok.inj hrows
      exact hread
    · simp at hrows
  · intro hread
    exact ⟨[record], hread, rfl⟩

theorem causalGraph_edge : (causalGraph journal j stream).Edge a b ↔ CausedBy journal j a b := by
  unfold Walks.Graph.Edge causalGraph CausedBy
  cases h : readCause journal j a with
  | ok record => simp [← readCause_eq_ok_iff, h]
  | error e => simp [← readCause_eq_ok_iff, h]

theorem Resolves.succ (h : Resolves journal j reference record) :
    (causalGraph journal j stream).succ reference = record.draft.causes := by
  simp [causalGraph, readCause_eq_ok_iff.2 h.alone]

theorem Resolves.size (stream : String) (h : Resolves journal j reference record) :
    (causalGraph journal j stream).weight reference = record.toValue.encodedLen := by
  simp [causalGraph, recordSize, readCause_eq_ok_iff.2 h.alone]

theorem length_succ (h : (causalGraph journal j stream).fit a) :
    ((causalGraph journal j stream).succ a).length ≤ 32 := by
  obtain ⟨_, _, _, _, record, hrecord⟩ := h
  rw [hrecord.succ]
  exact hrecord.length_causes

theorem causalClosure_iff : CausalClosure journal j causes stream ↔
    causes ≠ [] ∧ causes.length ≤ 32 ∧ causes.Nodup ∧
      (causalGraph journal j stream).Admissible causes := by
  have hedge : (causalGraph journal j stream).Edge = CausedBy journal j :=
    funext fun a => funext fun b => propext causalGraph_edge
  constructor
  · rintro ⟨hnil, hlen, hnodup, R, hR, hcard, hcycle, hfit, hsize⟩
    refine ⟨hnil, hlen, hnodup, R, ?_, hcard, fun a ha => ⟨hfit a ha, ?_⟩, hsize⟩
    · simpa only [Walks.Graph.Reached, ReachedFrom, hedge] using hR
    · simpa only [hedge] using hcycle a ha
  · rintro ⟨hnil, hlen, hnodup, R, hR, hcard, hfit, hsize⟩
    refine ⟨hnil, hlen, hnodup, R, ?_, hcard, fun a ha => ?_, fun a ha => (hfit a ha).1, hsize⟩
    · simpa only [Walks.Graph.Reached, ReachedFrom, hedge] using hR
    · simpa only [hedge] using (hfit a ha).2

/-- **A reference that was not seen is visited** exactly as the walk visits its node. -/
theorem expandCause_eq_ok_iff : expandCause journal j scan reference = .ok scan' ↔
    scan.black.length + scan.gray.length < maxCausalRecords ∧
      ∃ record, Resolves journal j reference record ∧
        scan.bytes + record.toValue.encodedLen ≤ maxBytes ∧
          scan' = { scan with
            gray := reference :: scan.gray
            bytes := scan.bytes + record.toValue.encodedLen
            stack := record.draft.causes.map .enter ++ .exit reference :: scan.stack } := by
  simp only [expandCause, checkCausalRecord, bind_eq_ok, reject_eq_ok, expect_eq_ok,
    checkedAdd_eq_some, pure_eq_ok, readCause_eq_ok_iff]
  constructor
  · rintro ⟨_, hcap, record, hread, _, hrecord, bytes, ⟨rfl, _⟩, _, hbytes, _, hcauses, rfl⟩
    simp only [not_or, not_not, not_lt] at hrecord
    obtain ⟨hstream, hposition, hfact, hcritical, hlen⟩ := hrecord
    rw [not_or] at hcauses
    refine ⟨not_le.1 hcap, record, ⟨hread, hstream, hposition, hfact, hcritical, hlen, ?_, ?_⟩,
      not_lt.1 hbytes, rfl⟩
    · simpa [hasDuplicate] using hcauses.1
    · simpa using hcauses.2
  · rintro ⟨hcap, record, h, hbytes, rfl⟩
    refine ⟨(), not_le.2 hcap, record, h.alone, (), ?_, _, ⟨rfl, ?_⟩, (), not_lt.2 hbytes, (), ?_, rfl⟩
    · simp [h.streamId, h.position, h.factId, h.critical, h.length_causes]
    · exact hbytes.trans (by decide)
    · rw [not_or]
      exact ⟨by simpa [hasDuplicate] using h.nodup_causes, by simpa using h.earlier⟩

/-- **A turn of the loop that enters a reference is a step of the walk.** -/
theorem step_of_enterCause (scan : CausalScan) {stack : List Walk}
    (h : enterCause journal j stream { scan with stack := stack } reference = .ok scan') :
    (causalGraph journal j stream).Step
      ({ scan with stack := .enter reference :: stack } : CausalScan).walk scan'.walk := by
  simp only [enterCause, bind_eq_ok, reject_eq_ok] at h
  obtain ⟨_, hplace, _, hstreamId, _, hfactId, _, hgray, h⟩ := h
  rw [not_or] at hplace
  split_ifs at h with hblack
  · obtain rfl := Except.ok.inj h
    exact .skip hgray hblack
  · obtain ⟨hcap, record, hrecord, hbytes, rfl⟩ := expandCause_eq_ok_iff.1 h
    rw [← hrecord.size stream] at hbytes
    have hfit : (causalGraph journal j stream).fit reference :=
      ⟨hplace.1, hplace.2, hstreamId, hfactId, record, hrecord⟩
    have hvisit := @Walks.Graph.Step.visit _ _ _ _ _ _ _ (stack.map Walk.task) hgray hblack hfit hcap hbytes
    rw [hrecord.succ, hrecord.size stream] at hvisit
    simpa [CausalScan.walk, Walk.task, Function.comp_def] using hvisit

/-- **And each such step is a turn of the loop**, when every black node is fit. -/
theorem enterCause_of_step (scan : CausalScan) (stack : List Walk) {w : Walks.Walk FactRef}
    (hblack : ∀ a ∈ scan.black, (causalGraph journal j stream).fit a)
    (h : (causalGraph journal j stream).Step
      ({ scan with stack := .enter reference :: stack } : CausalScan).walk w) :
    ∃ scan', enterCause journal j stream { scan with stack := stack } reference = .ok scan' ∧
      scan'.walk = w := by
  have hfit : (causalGraph journal j stream).fit reference ∧ reference ∉ scan.gray := by
    cases h with
    | skip hgray hmem => exact ⟨hblack reference hmem, hgray⟩
    | visit hgray _ hfit => exact ⟨hfit, hgray⟩
  obtain ⟨⟨hposition, hstream, hstreamId, hfactId, record, hrecord⟩, hgray⟩ := hfit
  have henter : enterCause journal j stream { scan with stack := stack } reference =
      if reference ∈ scan.black then .ok { scan with stack := stack }
      else expandCause journal j { scan with stack := stack } reference := by
    simp only [enterCause, reject_of_not (not_or.2 ⟨hposition, hstream⟩), hstreamId, hfactId,
      reject_of_not hgray, ok_bind]
  rw [henter]
  cases h with
  | skip _ hmem => exact ⟨_, if_pos hmem, rfl⟩
  | visit _ hmem _ hcap hbudget =>
    rw [hrecord.size stream] at hbudget
    refine ⟨_, (if_neg hmem).trans (expandCause_eq_ok_iff.2 ⟨hcap, record, hrecord, hbudget, rfl⟩), ?_⟩
    rw [hrecord.succ, hrecord.size stream]
    simp [CausalScan.walk, Walk.task, Function.comp_def]

theorem step_exit (scan : CausalScan) (key : FactRef) (stack : List Walk) :
    (causalGraph journal j stream).Step
      ({ scan with stack := .exit key :: stack } : CausalScan).walk
      ({ scan with gray := scan.gray.erase key, black := key :: scan.black, stack := stack } :
        CausalScan).walk :=
  .leave

theorem walk_of_scanCauses {fuel : ℕ} (scan : CausalScan) (h : scanCauses journal j stream fuel scan = .ok ()) :
    ∃ w, ReflTransGen (causalGraph journal j stream).Step scan.walk w ∧ w.stack = [] := by
  induction fuel generalizing scan with
  | zero => simp [scanCauses] at h
  | succ fuel ih =>
    obtain ⟨black, gray, bytes, stack⟩ := scan
    match stack, h with
    | [], _ => exact ⟨_, .refl, rfl⟩
    | .exit key :: stack, h =>
      obtain ⟨w, hw, hnil⟩ := ih _ h
      have hstep : (causalGraph journal j stream).Step _ _ :=
        step_exit ⟨black, gray, bytes, .exit key :: stack⟩ key stack
      exact ⟨w, .head hstep hw, hnil⟩
    | .enter reference :: stack, h =>
      obtain ⟨next, hnext, h⟩ := bind_eq_ok.1 h
      obtain ⟨w, hw, hnil⟩ := ih _ h
      exact ⟨w, .head (step_of_enterCause _ hnext) hw, hnil⟩

theorem readCause_ne_panicked : readCause journal j reference ≠ .error .panicked := by
  refine bind_ne_error (mapError_ne_error (by simp)) fun rows => ?_
  rcases rows with _ | ⟨r, _ | ⟨r', rows⟩⟩ <;> simp

theorem enterCause_ne_panicked : enterCause journal j stream scan reference ≠ .error .panicked := by
  refine bind_ne_error (reject_ne_error (by simp)) fun _ => ?_
  refine bind_ne_error (reject_ne_error (by simp)) fun _ => ?_
  refine bind_ne_error (reject_ne_error (by simp)) fun _ => ?_
  refine bind_ne_error (reject_ne_error (by simp)) fun _ => ?_
  split_ifs
  · simp
  · refine bind_ne_error (reject_ne_error (by simp)) fun _ => ?_
    refine bind_ne_error readCause_ne_panicked fun record => ?_
    refine bind_ne_error (reject_ne_error (by simp)) fun _ => ?_
    refine bind_ne_error (expect_ne_error (by simp)) fun bytes => ?_
    refine bind_ne_error (reject_ne_error (by simp)) fun _ => ?_
    exact bind_ne_error (reject_ne_error (by simp)) fun _ => by simp [pure, Except.pure]

section Fuel

variable {roots : List FactRef}
  (hwalk : ReflTransGen (causalGraph journal j stream).Step (Walks.start roots) scan.walk)

include hwalk

theorem scanCauses_of_admissible {fuel : ℕ} (hG : (causalGraph journal j stream).Admissible roots)
    (hfuel : Walks.measure (causalGraph journal j stream) 32 scan.walk < fuel) :
    scanCauses journal j stream fuel scan = .ok () := by
  induction fuel generalizing scan with
  | zero => omega
  | succ fuel ih =>
    have hcoloured := Walks.Coloured.walk hwalk
    have hlower : ∀ {w}, (causalGraph journal j stream).Step scan.walk w →
        Walks.measure (causalGraph journal j stream) 32 w < fuel := fun hstep => by
      have := Walks.measure_step (fun _ => length_succ) hcoloured hstep
      omega
    obtain ⟨black, gray, bytes, stack⟩ := scan
    match stack with
    | [] => rfl
    | .exit key :: stack =>
      have hstep : (causalGraph journal j stream).Step _ _ :=
        step_exit ⟨black, gray, bytes, .exit key :: stack⟩ key stack
      exact ih (hwalk.tail hstep) (hlower hstep)
    | .enter reference :: stack =>
      obtain ⟨w, hstep⟩ := Walks.exists_step hG hwalk (by simp [CausalScan.walk])
      obtain ⟨scan', hscan', rfl⟩ := enterCause_of_step ⟨black, gray, bytes, .enter reference :: stack⟩ stack
        (fun a ha => hcoloured.fit a (Or.inl ha)) hstep
      rw [scanCauses]
      exact bind_eq_ok.2 ⟨scan', hscan', ih (hwalk.tail hstep) (hlower hstep)⟩

/-- **More fuel changes nothing**: the scan ends within its measure. -/
theorem scanCauses_fuel {fuel : ℕ}
    (hfuel : Walks.measure (causalGraph journal j stream) 32 scan.walk < fuel) (more : ℕ) :
    scanCauses journal j stream (fuel + more) scan = scanCauses journal j stream fuel scan ∧
      scanCauses journal j stream fuel scan ≠ .error .panicked := by
  induction fuel generalizing scan with
  | zero => omega
  | succ fuel ih =>
    have hcoloured := Walks.Coloured.walk hwalk
    have hlower : ∀ {w}, (causalGraph journal j stream).Step scan.walk w →
        Walks.measure (causalGraph journal j stream) 32 w < fuel := fun hstep => by
      have := Walks.measure_step (fun _ => length_succ) hcoloured hstep
      omega
    obtain ⟨black, gray, bytes, stack⟩ := scan
    rw [Nat.succ_add, scanCauses, scanCauses]
    match stack with
    | [] => exact ⟨rfl, nofun⟩
    | .exit key :: stack =>
      have hstep : (causalGraph journal j stream).Step _ _ :=
        step_exit ⟨black, gray, bytes, .exit key :: stack⟩ key stack
      exact ih (hwalk.tail hstep) (hlower hstep)
    | .enter reference :: stack =>
      dsimp only
      cases hnext : enterCause journal j stream ⟨black, gray, bytes, stack⟩ reference with
      | error e =>
        exact ⟨rfl, fun h => enterCause_ne_panicked (hnext.trans (congrArg _ (Except.error.inj h)))⟩
      | ok next =>
        have hstep := step_of_enterCause ⟨black, gray, bytes, []⟩ hnext
        exact ih (hwalk.tail hstep) (hlower hstep)

end Fuel

theorem measure_start (h : causes.length ≤ 32) :
    Walks.measure (causalGraph journal j stream) 32 (Walks.start causes) < causalFuel := by
  simp only [Walks.measure, Walks.start, causalGraph, causalFuel, List.length_map, List.length_nil]
  omega

/-- The scan of a list of causes, as `validate_causes` starts it. -/
def startScan (causes : List FactRef) : CausalScan := ⟨[], [], 0, causes.map .enter⟩

theorem walk_startScan : (startScan causes).walk = Walks.start causes := by
  simp [startScan, CausalScan.walk, Walks.start, Walk.task]

/-- **`validate_causes` accepts exactly the closed lists of causes.** -/
theorem validateCauses_eq_ok_iff :
    validateCauses journal j causes stream = .ok () ↔ CausalClosure journal j causes stream := by
  rw [causalClosure_iff, validateCauses]
  simp only [bind_eq_ok, reject_eq_ok, not_or, not_lt, hasDuplicate, decide_eq_true_eq, not_not]
  constructor
  · rintro ⟨_, ⟨hnil, hlen⟩, _, hnodup, hscan⟩
    obtain ⟨w, hwalk, hend⟩ := walk_of_scanCauses (startScan causes) hscan
    rw [walk_startScan] at hwalk
    exact ⟨hnil, hlen, hnodup, Walks.admissible_of_walk hwalk hend⟩
  · rintro ⟨hnil, hlen, hnodup, hG⟩
    have hstart : ReflTransGen (causalGraph journal j stream).Step (Walks.start causes)
        (startScan causes).walk := by rw [walk_startScan]
    refine ⟨(), ⟨hnil, hlen⟩, (), hnodup, scanCauses_of_admissible hstart hG ?_⟩
    rw [walk_startScan]
    exact measure_start hlen

/-- **The scan ends within its fuel**: it never runs out, and more changes nothing. -/
theorem validateCauses_ends (more : ℕ) :
    validateCauses journal j causes stream ≠ .error .panicked ∧
      (causes.length ≤ 32 → scanCauses journal j stream (causalFuel + more) (startScan causes) =
        scanCauses journal j stream causalFuel (startScan causes)) := by
  have hstart : ReflTransGen (causalGraph journal j stream).Step (Walks.start causes)
      (startScan causes).walk := by rw [walk_startScan]
  have hfuel : causes.length ≤ 32 → Walks.measure (causalGraph journal j stream) 32
      (startScan causes).walk < causalFuel := by
    rw [walk_startScan]
    exact measure_start
  refine ⟨fun h => ?_, fun hlen => (scanCauses_fuel hstart (hfuel hlen) more).1⟩
  rw [validateCauses] at h
  by_cases hlen : causes.length ≤ 32
  · refine bind_ne_error (reject_ne_error (by simp)) (fun _ => ?_) h
    exact bind_ne_error (reject_ne_error (by simp)) fun _ =>
      (scanCauses_fuel hstart (hfuel hlen) 0).2
  · rw [reject_of (Or.inr (not_le.1 hlen))] at h
    simp at h

theorem CausalClosure.perm {causes' : List FactRef} (hperm : causes.Perm causes')
    (h : CausalClosure journal j causes stream) : CausalClosure journal j causes' stream where
  ne_nil hnil := h.ne_nil (List.perm_nil.1 (hnil ▸ hperm))
  length_le := hperm.length_eq ▸ h.length_le
  nodup := hperm.nodup_iff.1 h.nodup
  closure := by
    obtain ⟨R, hR, hrest⟩ := h.closure
    refine ⟨R, fun a => (hR a).trans ?_, hrest⟩
    simp only [ReachedFrom, hperm.mem_iff]

/-- **Causal closure validation is exact and ends**, for every journal and every list
of causes, in whatever order the causes are. -/
theorem validateCauses_exact (causes : List FactRef) (stream : String) :
    (validateCauses journal j causes stream = .ok () ↔ CausalClosure journal j causes stream) ∧
      (∀ more, validateCauses journal j causes stream ≠ .error .panicked ∧
        (causes.length ≤ 32 → scanCauses journal j stream (causalFuel + more) (startScan causes) =
          scanCauses journal j stream causalFuel (startScan causes))) ∧
      ∀ causes', causes.Perm causes' → (validateCauses journal j causes stream = .ok () ↔
        validateCauses journal j causes' stream = .ok ()) := by
  refine ⟨validateCauses_eq_ok_iff, validateCauses_ends, fun causes' hperm => ?_⟩
  rw [validateCauses_eq_ok_iff, validateCauses_eq_ok_iff]
  exact ⟨CausalClosure.perm hperm, CausalClosure.perm hperm.symm⟩

def rootFact : FactRecord where
  streamId := "facts"
  position := 1
  draft :=
    { factId := "fact-1", subject := ⟨"test.subject", "subject"⟩, kind := "test.fact"
      schemaVersion := 1, critical := true, causes := [], payload := .null }

def rootJournal : FactJournal Unit where
  read _ stream after _ := .ok (if stream = "facts" ∧ after = 0 then [rootFact] else [])
  append _ _ _ _ := (.error (.storage "read only"), ())

theorem validateCauses_exact_root : CausalClosure rootJournal () [⟨"facts", 1, "fact-1"⟩] "source" :=
  (validateCauses_exact [⟨"facts", 1, "fact-1"⟩] "source").1.1 (by decide +kernel)

end Graphs

end Tasks
end Kolyan
