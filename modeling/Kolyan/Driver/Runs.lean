/-
# Runs of an execution's calls

The processes around a ledger make calls, each of which takes its next operation
in any order with the others; somebody else commits facts that end no Turn; and a
process restarts, which loses its calls and its active set but not the ledger.
`projections_agree` is about every state that is reached so: where the Server
reads the end of a Turn, the coordinator reads the same end, unless an
`ExecutionCancelled` or an `EffectUncertain` fact was committed before the Turn's
own; then it reads that, and a cancelled execution is never a completed Turn.
`stepFails` and `toolLost` are runs of the two cases.
-/

import Kolyan.Driver.Lifecycle

namespace Kolyan
namespace Driver

open Checks Threads Fallible Ledger Policy Turn

section Systems

variable {σ : Type} (P : LedgerStore σ) (codec : DriverCodec) (fuel : ℕ)

/-- The shared world and every call that is under way or has ended. -/
structure System (σ : Type) where
  world : World σ Host
  threads : List (RawProg Unit)

/-- What may happen next: a new call, one operation of a call under the answers
of its host, a fact of somebody else, or a restart. -/
inductive Label where
  | invoke (call : Call)
  | advance (thread : ℕ) (env : Env)
  | commit (event : LedgerEvent)
  | restart

/-- One step of the system. -/
def System.step (s : System σ) : Label → Option (System σ)
  | .invoke call => some { s with threads := s.threads ++ [call.program codec fuel] }
  | .advance thread env => do
      let p ← s.threads[thread]?
      let ⟨o, next⟩ ← p.next?
      let (answer, world) := perform P (hostStep env) thread s.world o
      return { world, threads := s.threads.set thread (next answer) }
  | .commit event =>
      if endsTurn event.kind then none
      else some { s with world := { s.world with store := (P.append s.world.store event).2 } }
  | .restart => some
      { world := { s.world with host := { s.world.host with active := [] } }, threads := [] }

/-- A process that starts on a store. -/
def System.initial (store : σ) : System σ :=
  { world := { store, host := { active := [], claims := [] }, authors := [] }, threads := [] }

def System.run (s : System σ) : List Label → Option (System σ)
  | [] => some s
  | l :: schedule => do (← s.step P codec fuel l).run schedule

end Systems

section Reachable

variable {σ : Type} {P : LedgerStore σ} (C : P.Contract) {codec : DriverCodec} {fuel : ℕ}

/-- The states of all runs. -/
inductive Reach (codec : DriverCodec) (fuel : ℕ) : System σ → Prop
  | initial (store : σ) (h : C.Valid store) (hempty : C.events store = []) : Reach codec fuel (System.initial store)
  | step {s s' : System σ} {l : Label} (hs : Reach codec fuel s) (hl : s.step P codec fuel l = some s') :
      Reach codec fuel s'

/-- The facts of an execution. -/
def System.facts (s : System σ) (executionId : String) : List LedgerEvent :=
  (s.world.events C).filter fun event => event.executionId = executionId

/-- A timely ledger, and calls on their way. -/
structure System.Orderly (s : System σ) : Prop where
  sound : s.world.Sound C
  timely : Timely (s.world.events C)
  threads : ∀ (i : ℕ) (p : RawProg Unit), s.threads[i]? = some p →
    Prog.Holds (lifecycle C i) p (fun _ w => w.Sound C) s.world

variable {C}

theorem System.Orderly.initial {store : σ} (h : C.Valid store) (hempty : C.events store = []) :
    (System.initial store).Orderly C where
  sound := World.Sound.start h _
  timely := by
    show Timely (C.events store)
    rw [hempty]
    exact Timely.nil
  threads := by
    intro i p hp
    rw [show (System.initial store).threads = [] from rfl, List.getElem?_nil] at hp
    exact nomatch hp

theorem System.Orderly.others {s : System σ} (h : s.Orderly C) {w : World σ Host} (hw : Grown C s.world w)
    {i : ℕ} {p : RawProg Unit} (hp : s.threads[i]? = some p) :
    Prog.Holds (lifecycle C i) p (fun _ w => w.Sound C) w := by
  have hholds := h.threads i p hp
  cases p with
  | done u => exact hw.sound
  | halt => trivial
  | ask o next => exact hholds.interfere (fun _ _ _ => Grown.trans) nofun hw

theorem System.Orderly.advance {s : System σ} (h : s.Orderly C) {i : ℕ} {env : Env} {o : Op HostOp}
    {next : o.Answer HostOp.Answer → RawProg Unit} (hp : s.threads[i]? = some (.ask o next)) :
    System.Orderly C ⟨(perform P (hostStep env) i s.world o).2,
      s.threads.set i (next (perform P (hostStep env) i s.world o).1)⟩ := by
  have hact : (lifecycle C i).act s.world o (perform P (hostStep env) i s.world o).1
      (perform P (hostStep env) i s.world o).2 := ⟨env, rfl⟩
  have hgrown : Grown C s.world (perform P (hostStep env) i s.world o).2 := grown_of_act h.sound hact
  obtain ⟨hallow, hnext⟩ := (h.threads i _ hp).step (Grown.refl h.sound)
  refine ⟨hgrown.sound, Timely.perform h.timely h.sound hallow env, fun j q hq => ?_⟩
  rcases eq_or_ne i j with rfl | hij
  · rw [List.getElem?_set_self (List.getElem?_eq_some_iff.1 hp).1] at hq
    obtain rfl := Option.some.inj hq
    exact hnext _ _ hact
  · rw [List.getElem?_set_ne hij] at hq
    exact h.others hgrown hq

theorem System.Orderly.step {s s' : System σ} {l : Label} (h : s.Orderly C)
    (hl : s.step P codec fuel l = some s') : s'.Orderly C := by
  cases l with
  | invoke call =>
    obtain rfl := Option.some.inj hl
    refine ⟨h.sound, h.timely, fun i p hp => ?_⟩
    rw [List.getElem?_append] at hp
    split_ifs at hp with hlt
    · exact h.threads i p hp
    · obtain rfl := List.mem_singleton.1 (List.mem_of_getElem? hp)
      exact holds_call codec fuel call h.sound
  | advance thread env =>
    obtain ⟨p, hp, hl⟩ := Option.bind_eq_some_iff.1 hl
    obtain ⟨⟨o, next⟩, hnext, hl⟩ := Option.bind_eq_some_iff.1 hl
    obtain rfl := Option.some.inj hl
    cases p with
    | done u => exact nomatch hnext
    | halt => exact nomatch hnext
    | ask o' next' =>
      obtain ⟨rfl, hnext⟩ := Sigma.mk.inj (Option.some.inj hnext)
      obtain rfl := eq_of_heq hnext
      exact h.advance hp
  | commit event =>
    simp only [System.step] at hl
    split_ifs at hl with hends
    obtain rfl := Option.some.inj hl
    obtain ⟨hvalid, happended⟩ := C.append_spec h.sound.valid event
    have hgrown : Grown C s.world { s.world with store := (P.append s.world.store event).2 } :=
      ⟨h.sound.grow hvalid happended.grows, happended.grows⟩
    refine ⟨hgrown.sound, h.timely.append happended fun hkind => ?_, fun i p hp => h.others hgrown hp⟩
    rw [hkind] at hends
    exact absurd rfl hends
  | restart =>
    obtain rfl := Option.some.inj hl
    refine ⟨⟨h.sound.valid, h.sound.authored, h.sound.single⟩, h.timely, fun i p hp => ?_⟩
    have hnone : ([] : List (RawProg Unit))[i]? = none := List.getElem?_nil
    exact nomatch hnone.symm.trans hp

theorem Reach.orderly {s : System σ} (h : Reach C codec fuel s) : s.Orderly C := by
  induction h with
  | initial store h hempty => exact System.Orderly.initial h hempty
  | step hs hl ih => exact ih.step hl

theorem Reach.run {s s' : System σ} (hs : Reach C codec fuel s) {schedule : List Label}
    (h : s.run P codec fuel schedule = some s') : Reach C codec fuel s' := by
  induction schedule generalizing s with
  | nil => exact Option.some.inj h ▸ hs
  | cons l schedule ih =>
    obtain ⟨t, ht, h⟩ := Option.bind_eq_some_iff.1 h
    exact ih (hs.step ht) h

theorem project_terminal {executionId : String} {facts : List LedgerEvent} {state : Execution.ExecutionState}
    (h : Execution.foldState .new facts = state) (hterminal : Execution.isTerminal state = true) :
    Execution.project executionId facts = pure state := by
  unfold Execution.project
  rw [h]
  cases state <;> first | rfl | exact nomatch hterminal

/-- **The two readings of an execution.**  In every state that any run of calls
reaches, where the Server reads the status of an ended Turn the coordinator's
state is the one of that status, unless it has stopped early: at a cancellation,
and then it is `cancelled` and the Turn has not completed, or at an uncertain
effect, and then it is `failed`. -/
theorem projections_agree {s : System σ} (h : Reach C codec fuel s) (executionId : String)
    {status : SessionTurnStatus} (hstatus : terminalStatus (s.facts C executionId) = some status) :
    ∃ state, Execution.project executionId (s.facts C executionId) = pure state ∧
      match earlyStop (s.facts C executionId) with
      | none => state = matchingState status
      | some fact => fact.kind = .executionCancelled ∧ state = .cancelled ∧ status ≠ .completed ∨
          fact.kind = .effectUncertain ∧ state = .failed := by
  have hfolded := foldState_ended hstatus
  cases hstop : earlyStop (s.facts C executionId) with
  | none =>
    rw [hstop] at hfolded
    have hterminal : Execution.isTerminal (matchingState status) = true := by
      obtain ⟨_, event, _, -, hclosing, -⟩ := List.findSome?_eq_some_iff.1 hstatus
      obtain ⟨hnext, hterminal⟩ := nextState_closing hclosing .new
      exact hnext ▸ hterminal
    exact ⟨matchingState status, project_terminal hfolded hterminal, rfl⟩
  | some fact =>
    rw [hstop] at hfolded
    have hkind := stopsEarly_eq_true (List.find?_some (p := fun fact : LedgerEvent => stopsEarly fact.kind) hstop)
    rcases hkind with ⟨hkind, hstate⟩ | ⟨hkind, hstate⟩
    · refine ⟨.cancelled, project_terminal (hfolded.trans hstate) rfl, .inl ⟨hkind, rfl, ?_⟩⟩
      exact h.orderly.timely.not_completed hstatus hstop hkind
    · exact ⟨.failed, project_terminal (hfolded.trans hstate) rfl, .inr ⟨hkind, rfl⟩⟩

end Reachable

section Disagreement

def ranKey : ExecutionRef := { sessionId := "s", turnId := "t", executionId := "e" }

def ranRequest : TurnRequest where
  turnId := "t"
  modelRequest := { requestId := "r", messages := [] }
  config := { maxSteps := 2, maxToolCalls := none, deadline := none }

def ranCall : PreparedCall where
  call := { id := "c", name := "write", arguments := .object [] }
  toolRevision := "1"
  claim := {
    toolName := "write"
    capabilities := [.filesystemWrite]
    effects := [.create]
    resource := { path := none }
    idempotency := .unknown }
  requirements := { processSandbox := false, maxOutputBytes := 1, timeoutMs := 1 }
  executionBinding := .null
  digest := "0"

def ranExecutor : TurnExecutor where
  toolDispatch := { mode := .serial, onError := .failTurn }
  toolTimeout := none
  policyEngine := some {
    manifests := (∅ : BTreeMap ToolManifest).insert "write" {
      toolName := "write"
      capabilities := [.filesystemWrite]
      effects := [.create]
      pathScopes := []
      idempotency := .unknown
      approval := .never }
    deniedTools := []
    workspace := none
    progress := none }
  executionKey := none
  agentSnapshotDigest := none
  absoluteDeadlineAtMs := none

/-- An encoding with one digest, that reads back the admission of the run. -/
def ranCodec : DriverCodec where
  turn := { sha256 := fun _ => "0", checkpointLen := fun _ => 0 }
  evidence := {
    sha256 := fun _ => "0"
    text := fun _ => ""
    receipt := fun _ => .error ""
    result := fun _ => .error ""
    wait := fun _ => .error ""
    request := fun _ => .error ""
    resolution := fun _ => .error "" }
  outcome := fun _ => ""
  request := fun _ => .null
  step := fun _ => .null
  messages := fun _ => .null
  approval := fun _ => .null
  checkpoint := fun _ => .null
  suspension := fun _ => .null
  admission := fun _ => .null
  readKey := fun _ => .error ""
  readStep := fun _ => .error ""
  readCheckpoint := fun _ => .error ""
  readSuspension := fun _ => .error ""
  readAdmission := fun _ => .ok {
    schemaVersion := 1
    key := ranKey
    modelRequest := ranRequest.modelRequest
    maxSteps := 2
    maxToolCalls := none
    deadlineAtMs := none
    toolTimeoutMs := none
    dispatch := ranExecutor.toolDispatch
    agentSnapshotDigest := none }
  readConfirmation := fun _ => .error ""
  readRequest := fun _ => .error ""
  readPrepared := fun _ => .error ""
  readScope := fun _ => .error ""
  readGrant := fun _ => .error ""

/-- A host whose model answers `reply`, whose tool loses its connection, and
whose futures are cut off as `cut` says. -/
def answering (cut : Raced Unit) (reply : Except StepError StepReply) : Env
  | .active (.isActive _) => false
  | .active (.insert _) => false
  | .active (.remove _) => ()
  | .claim _ => .ok true
  | .turn .look => { cancelled := false, now := 0, nowMs := 0 }
  | .turn (.cutoff _) => .ok 0
  | .turn (.boundary _) => .cancelled
  | .turn (.record _) => .ok ()
  | .turn (.recordRequest _) => .ok ()
  | .turn (.recordCheckpoint _) => .ok ()
  | .turn (.step _ _) => .cancelled
  | .turn (.prepare _) => .answered (.ok ranCall)
  | .turn (.execute _) => ()
  | .turn (.progress _) => none
  | .turn (.approval _) => .cancelled
  | .turn .poll => (0 : ℕ)
  | .turn (.planned _ _) => ()
  | .cut => cut
  | .model _ _ => .inr (.answered reply)
  | .invoke _ => .error (.uncertain "connection lost")
  | .verifyWait _ _ => .ok ()
  | .verifyResult _ _ _ => .ok ()
  | .recoverWait _ => .ok none
  | .beforeEffect _ => .ok .continue
  | .afterReceipt _ _ => .ok ()
  | .verifyObservation _ _ => .ok ()
  | .loadSession id => .error (.notFound id)
  | .updateTurn _ _ _ _ _ => .ok ()

def ranStart : Label := .invoke
  (.start ranExecutor false ranRequest "s" "e" { duration := none, instant := none, unixMs := none })

/-- `steps` operations of a call. -/
def advances (thread steps : ℕ) (env : Env) : List Label := List.replicate steps (.advance thread env)

/-- The Turn waits for its model when the Session is cancelled: `ExecutionCancelled`
is committed, and then the Step fails and its recorder commits `TurnFailed`. -/
def stepFails : List Label :=
  let env := answering (.answered ()) (.error (.failed "overloaded"))
  [ranStart] ++ advances 0 12 env ++ [.invoke (.cancelTurn ranKey)] ++ advances 1 5 env ++ advances 0 3 env

/-- The tool loses its connection: `EffectUncertain` is committed, and before the
executor answers the Turn is cancelled, whose recorder commits `TurnCancelled`. -/
def toolLost : List Label :=
  let env := answering (.answered ()) (.ok {
    response := { content := [.toolCall ranCall.call] }
    outcome := .toolCalls })
  let cut := answering .cancelled (.error .cancelled)
  [ranStart] ++ advances 0 59 env ++ advances 0 1 cut ++ advances 0 2 env

def ran (schedule : List Label) : Option (System LedgerState) :=
  (System.initial LedgerState.empty).run inMemoryLedger ranCodec 30 schedule

theorem reach_ran {schedule : List Label} {s : System LedgerState} (h : ran schedule = some s) :
    Reach inMemoryContract ranCodec 30 s :=
  (Reach.initial LedgerState.empty LedgerState.ordered_empty rfl).run h

/-- Where the tool was lost, the coordinator's state is `failed` and the Turn
was cancelled. -/
theorem projections_agree_toolLost : ∃ s, Reach inMemoryContract ranCodec 30 s ∧
    terminalStatus (s.facts inMemoryContract "e") = some .cancelled ∧
    Execution.project "e" (s.facts inMemoryContract "e") = pure .failed := by
  have hran : (ran toolLost).any (fun s => terminalStatus (s.facts inMemoryContract "e") = some .cancelled ∧
      (earlyStop (s.facts inMemoryContract "e")).any fun fact => fact.kind = .effectUncertain) = true := by
    decide +kernel
  obtain ⟨s, hs, hcheck⟩ := (Option.any_eq_true _ _).1 hran
  obtain ⟨hstatus, hstop⟩ := of_decide_eq_true hcheck
  obtain ⟨fact, hfact, huncertain⟩ := (Option.any_eq_true _ _).1 hstop
  obtain ⟨state, hproject, hstate⟩ := projections_agree (reach_ran hs) "e" hstatus
  rw [hfact] at hstate
  rcases hstate with ⟨hcancelled, -⟩ | ⟨-, rfl⟩
  · rw [hcancelled] at huncertain
    exact nomatch huncertain
  · exact ⟨s, reach_ran hs, hstatus, hproject⟩

/-- **The two readings can differ.**  A Step that fails after the cancellation of
its execution leaves a cancelled execution and a failed Turn. -/
theorem not_projections_match : ¬∀ s, Reach inMemoryContract ranCodec 30 s → ∀ executionId status,
    terminalStatus (s.facts inMemoryContract executionId) = some status →
      Execution.project executionId (s.facts inMemoryContract executionId) = pure (matchingState status) := by
  have hran : (ran stepFails).any (fun s => terminalStatus (s.facts inMemoryContract "e") = some .failed ∧
      Execution.foldState .new (s.facts inMemoryContract "e") = .cancelled) = true := by
    decide +kernel
  obtain ⟨s, hs, hcheck⟩ := (Option.any_eq_true _ _).1 hran
  obtain ⟨hstatus, hfolded⟩ := of_decide_eq_true hcheck
  intro hmatch
  have hproject := hmatch s (reach_ran hs) "e" .failed hstatus
  rw [project_terminal hfolded rfl] at hproject
  exact nomatch hproject

end Disagreement

end Driver
end Kolyan
