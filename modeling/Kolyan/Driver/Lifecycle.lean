/-
# The life of an execution, in both readings

Any number of calls of the driver, the coordinator and the Server run operation
by operation on one ledger, with every answer of their hosts up to an
environment, and a process may stop at any time.  A thread keeps the ledger
`Timely`: its programs are `quiet` but for the recorder of an attempt, which
records a completion only after the boundary control of the attempt has
committed the end of the Turn (`holds_serveTurn`).  So the two readings of an
execution's facts differ only in the ways that `projections_agree` names.
-/

import Kolyan.Driver.Projections
import Kolyan.Driver.Quiet
import Kolyan.Execution.Admission
import Kolyan.Turn.Ending

namespace Kolyan
namespace Driver

open Checks Threads Fallible Ledger Policy Turn

section Threads

variable {σ : Type} {P : LedgerStore σ} (C : P.Contract)

/-- A ledger that stays sound and only grows. -/
structure Grown (w w' : World σ Host) : Prop where
  sound : w'.Sound C
  events : w.events C <+: w'.events C

/-- A thread among others that add facts: it appends a completion plainly only
where the Turn of the execution has ended. -/
def lifecycle (thread : ℕ) : Setting (Op HostOp) (Op.Answer HostOp.Answer) (World σ Host) where
  act w o r w' := ∃ env, perform P (hostStep env) thread w o = (r, w')
  rely := Grown C
  allow w o :=
    match o with
    | .ledger (.append event) => event.kind = .turnCompleted → turnEnded (w.events C) event.executionId = true
    | _ => True

/-- The ledger is sound, and if `ended` says so the execution's Turn has ended. -/
structure Ended (executionId : String) (ended : Bool) (w : World σ Host) : Prop where
  sound : w.Sound C
  fact : ended = true → turnEnded (w.events C) executionId = true

variable {C} {thread : ℕ} {w w' : World σ Host} {executionId : String} {ended : Bool}

theorem Grown.refl (h : w.Sound C) : Grown C w w := ⟨h, List.prefix_rfl⟩

theorem Grown.trans {a b c : World σ Host} (h : Grown C a b) (h' : Grown C b c) : Grown C a c :=
  ⟨h'.sound, h.events.trans h'.events⟩

theorem grown_of_act (h : w.Sound C) {o : Op HostOp} {r : o.Answer HostOp.Answer}
    (hact : (lifecycle C thread).act w o r w') : Grown C w w' := by
  obtain ⟨env, hact⟩ := hact
  obtain ⟨hsound, hgrows, -⟩ := h.perform (hostStep env) thread o
  rw [hact] at hsound hgrows
  exact ⟨hsound, hgrows⟩

theorem Ended.grown (h : Ended C executionId ended w) (hw : Grown C w w') : Ended C executionId ended w' :=
  ⟨hw.sound, fun hended => turnEnded_mono hw.events (h.fact hended)⟩

theorem allow_of_quiet {o : Op HostOp} (h : quiet o) : (lifecycle C thread).allow w o := by
  match o with
  | .ledger (.append event) =>
    intro hkind
    replace h : quietKind event.kind = true := h
    rw [hkind] at h
    exact nomatch h
  | .ledger (.query q) => trivial
  | .ledger (.appendUnlessCancelled event) => trivial
  | .host e => trivial

theorem holds_within {α : Type} {p : RawProg α} (hp : p.Within quiet) (h : Ended C executionId ended w) :
    Prog.Holds (lifecycle C thread) p (fun _ w' => Ended C executionId ended w') w :=
  hp.holds (fun _ _ h hw => h.grown hw) (fun _ _ _ hquiet => allow_of_quiet hquiet)
    (fun _ _ _ _ h _ hact => h.grown (grown_of_act h.sound hact)) h

theorem turnEnded_of_saved {old new : List LedgerEvent} {event saved : LedgerEvent}
    (h : Appended old event new (.ok saved)) (hkind : endsTurn event.kind = true) :
    turnEnded new event.executionId = true := by
  obtain ⟨-, hsaved, hnew⟩ := h.ok
  refine List.any_eq_true.2 ⟨saved, by rw [hnew]; exact List.mem_append_right _ (List.mem_singleton.2 rfl), ?_⟩
  rw [hsaved]
  exact Bool.and_eq_true_iff.2 ⟨decide_eq_true rfl, hkind⟩

theorem Timely.perform (h : Timely (w.events C)) (hw : w.Sound C) {o : Op HostOp}
    (hallow : (lifecycle C thread).allow w o) (env : Env) :
    Timely ((Ledger.perform P (hostStep env) thread w o).2.events C) := by
  match o with
  | .ledger (.query q) =>
    rw [show (Ledger.perform P (hostStep env) thread w (.ledger (.query q))).2.events C = w.events C from
      (C.query_frame hw.valid q).2]
    exact h
  | .ledger (.append event) =>
    obtain ⟨-, happended⟩ := C.append_spec hw.valid event
    exact h.append happended fun hkind _ => hallow hkind
  | .ledger (.appendUnlessCancelled event) =>
    obtain ⟨-, happended, hrefused⟩ := C.admission_spec hw.valid event
    by_cases hcancelled : hasCancelled (w.events C) event.executionId = true
    · rw [show (Ledger.perform P (hostStep env) thread w (.ledger (.appendUnlessCancelled event))).2.events C =
        w.events C from hrefused hcancelled]
      exact h
    · exact h.append happended fun _ hcancelled' => absurd hcancelled' hcancelled
  | .host e => exact h

end Threads

section Ports

variable {σ : Type} {P : LedgerStore σ} {C : P.Contract} {thread : ℕ} {w : World σ Host}
variable {codec : DriverCodec} {fuel : ℕ} {attempt : Attempt} {tools : DurableTools} {ended : Bool}

variable (C) in
/-- The ports of an attempt beside what its Turn knows: the executions under way
leave completions alone, and a Turn that has ended has left a fact. -/
structure Ports.Kept (attempt : Attempt) (ports : Ports) (w : World σ Host) (ended : Bool) : Prop where
  ended : Ended C attempt.key.executionId ended w
  running : ∀ p ∈ ports.running, p.2.Within quiet

variable {ports : Ports}

theorem Ports.Kept.drop (h : ∀ p ∈ ports.running, p.2.Within quiet) (callId : String) :
    ∀ p ∈ (ports.drop callId).running, p.2.Within quiet :=
  fun p hp => h p (List.mem_filter.1 hp).1

theorem Ports.Kept.keep (h : ∀ p ∈ ports.running, p.2.Within quiet) {callId : String} {q : Running}
    (hq : q.Within quiet) : ∀ p ∈ (ports.keep callId q).running, p.2.Within quiet :=
  List.forall_mem_cons.2 ⟨hq, fun p hp => h p (List.mem_filter.1 hp).1⟩

/-- What a port of an attempt has to keep. -/
def Answered (C : P.Contract) (attempt : Attempt) (ended : Bool) (o : TurnOp) (r : o.Answer × Ports)
    (w : World σ Host) : Prop :=
  ∃ ended', ending.act ended o r.1 ended' ∧ r.2.Kept C attempt w ended'

theorem holds_port {o : TurnOp} {α : Type} {p : RawProg α} (hp : p.Within quiet)
    {f : α → o.Answer × Ports} (hadmits : ∀ a, admitsEnd o a = false)
    (hrunning : ∀ a, ∀ q ∈ (f a).2.running, q.2.Within quiet)
    (h : ports.Kept C attempt w ended) :
    Prog.Holds (lifecycle C thread) (p.bind fun a => .done (f a)) (Answered C attempt ended o) w :=
  Prog.holds_bind ((holds_within hp h.ended).mono fun a w' hended =>
    ⟨ended, by show ended = (ended || admitsEnd o (f a).1); rw [hadmits, Bool.or_false], hended, hrunning a⟩)

theorem holds_passed {o : TurnOp} (hadmits : ∀ a, admitsEnd o a = false) (h : ports.Kept C attempt w ended) :
    Prog.Holds (lifecycle C thread) (.ask (.host (.turn o)) fun a => .done (a, ports))
      (Answered C attempt ended o) w :=
  holds_port (p := .ask (.host (.turn o)) .done) (f := fun a : o.Answer => (a, ports))
    ⟨trivial, fun _ => trivial⟩ hadmits (fun _ => h.running) h

theorem within_append (next : ℕ) {kind : LedgerEventKind} (hkind : quietKind kind = true) (payload : Value) :
    (attempt.append next kind payload).Within quiet := ⟨hkind, fun _ => trivial⟩

theorem within_streamStep (stepId : String) (request : ModelRequest) (moves next : ℕ) :
    (streamStep attempt stepId request moves next).Within quiet := by
  induction moves generalizing next with
  | zero => trivial
  | succ moves ih =>
    refine ⟨trivial, fun move => ?_⟩
    cases move with
    | inr ended => trivial
    | inl event =>
      have hrecord : (attempt.recordStep next event).Within quiet := by
        unfold Attempt.recordStep
        split
        · trivial
        · exact within_append next rfl _
      refine Prog.within_bind hrecord fun r => ?_
      split
      · exact ih r.2
      · trivial

theorem quietKind_encode {event : TurnEvent} (h : isSilent (.record event) = true) :
    quietKind (encodeTurnEvent codec event).1 = true := by
  cases event <;> first | rfl | exact nomatch h

/-- **The recorder.**  It completes a Turn after the Turn has ended. -/
theorem holds_record {event : TurnEvent} (hevent : isSilent (.record event) = false → ended = true)
    (h : ports.Kept C attempt w ended) :
    Prog.Holds (lifecycle C thread) (serveTurn codec fuel attempt tools (.record event) ports)
      (Answered C attempt ended (.record event)) w := by
  unfold serveTurn Attempt.record
  by_cases hsilent : isSilent (.record event) = true
  · exact holds_port (within_append ports.next (quietKind_encode hsilent) _) (fun _ => rfl)
      (fun _ => h.running) h
  · have hended := hevent (Bool.eq_false_iff.2 hsilent)
    intro w' hw
    have hw' := h.ended.grown hw
    refine ⟨fun _ => hw'.fact hended, fun saved w'' hact => ?_⟩
    exact ⟨ended, (Bool.or_false ended).symm, hw'.grown (grown_of_act hw'.sound hact), h.running⟩

theorem holds_awaited {α : Type} {p : RawProg α} {Q : Raced α → World σ Host → Prop}
    (hcut : ∀ w', Grown C w w' → Q .cancelled w' ∧ Q .timedOut w')
    (hp : ∀ w', Grown C w w' → Prog.Holds (lifecycle C thread) p (fun a => Q (.answered a)) w') :
    Prog.Holds (lifecycle C thread) (awaited p) Q w := by
  intro w' hw'
  refine ⟨trivial, fun c w'' hact => ?_⟩
  have hgrown : Grown C w w'' := Grown.trans hw' (grown_of_act hw'.sound hact)
  match (c : Raced Unit) with
  | .cancelled => exact (hcut w'' hgrown).1
  | .timedOut => exact (hcut w'' hgrown).2
  | .answered _ => exact Prog.holds_bind (hp w'' hgrown)

theorem holds_terminalFact {boundary : TurnBoundary} {reason : TurnEndReason}
    (hkind : boundary.kind = .terminal reason) (h : Ended C attempt.key.executionId ended w) :
    Prog.Holds (lifecycle C thread) (if boundary.kind = .terminal .cancelled
        then Ledger.append (attempt.boundaryFact boundary.kind)
        else appendUnlessCancelled (attempt.boundaryFact boundary.kind) : LedgerProg HostOp.Answer LedgerEvent).run
      (fun r w' => Ended C attempt.key.executionId (ended || r.toBool) w') w := by
  have hends : endsTurn (attempt.boundaryFact boundary.kind).kind = true := by
    rw [hkind]
    cases reason <;> rfl
  have hleft : ∀ {w w' : World σ Host} {r : Except LedgerError LedgerEvent}, Ended C attempt.key.executionId ended w →
      Grown C w w' → Appended (w.events C) (attempt.boundaryFact boundary.kind) (w'.events C) r →
        Ended C attempt.key.executionId (ended || r.toBool) w' := by
    intro w w' r h hw happended
    cases r with
    | error error => exact (Bool.or_false ended).symm ▸ h.grown hw
    | ok saved => exact ⟨hw.sound, fun _ => turnEnded_of_saved happended hends⟩
  split
  · rename_i hcancelled
    intro w' hw
    have hquiet : quiet (.ledger (.append (attempt.boundaryFact boundary.kind)) : Op HostOp) := by
      rw [hcancelled]
      rfl
    refine ⟨allow_of_quiet hquiet, fun r w'' hact => ?_⟩
    have hgrown := grown_of_act hw.sound hact
    obtain ⟨env, hact⟩ := hact
    obtain ⟨rfl, rfl⟩ := Prod.mk.inj hact
    exact hleft (h.grown hw) hgrown (C.append_spec hw.sound.valid _).2
  · intro w' hw
    refine ⟨trivial, fun r w'' hact => ?_⟩
    have hgrown := grown_of_act hw.sound hact
    obtain ⟨env, hact⟩ := hact
    obtain ⟨rfl, rfl⟩ := Prod.mk.inj hact
    exact hleft (h.grown hw) hgrown (C.admission_spec hw.sound.valid _).2.1

theorem holds_admitBoundary {boundary : TurnBoundary} {reason : TurnEndReason}
    (hkind : boundary.kind = .terminal reason) (h : Ended C attempt.key.executionId ended w) :
    Prog.Holds (lifecycle C thread) (attempt.admitBoundary boundary).run
      (fun r w' => Ended C attempt.key.executionId (ended || r.toBool) w') w := by
  unfold Attempt.admitBoundary
  refine Fallible.holds_bind (Fallible.holds_lift ?_)
  split
  · refine Fallible.holds_bind (Fallible.holds_mapError ((holds_terminalFact hkind h).mono fun r w' hr => ?_))
    cases r with
    | ok saved => exact hr
    | error error => exact hr
  · exact (Bool.or_false ended).symm ▸ h

theorem admitsEnd_terminal {boundary : TurnBoundary} {reason : TurnEndReason}
    (hkind : boundary.kind = .terminal reason) (r : Except TurnError Unit) :
    admitsEnd (.boundary boundary) (.answered r) = r.toBool := by
  obtain ⟨turnId, kind⟩ := boundary
  obtain rfl := hkind
  cases r <;> rfl

theorem admitsEnd_eq_true {boundary : TurnBoundary} {r : Raced (Except TurnError Unit)}
    (h : admitsEnd (.boundary boundary) r = true) :
    (∃ reason, boundary.kind = .terminal reason) ∧ r = .answered (.ok ()) := by
  obtain ⟨turnId, kind⟩ := boundary
  cases kind with
  | terminal reason =>
    match r with
    | .answered (.ok ()) => exact ⟨⟨reason, rfl⟩, rfl⟩
    | .answered (.error error) => exact nomatch h
    | .cancelled => exact nomatch h
    | .timedOut => exact nomatch h
  | _ => exact nomatch h

/-- **The boundary control.**  A terminal boundary is answered without an error
once its fact is committed. -/
theorem holds_boundary (boundary : TurnBoundary) (h : ports.Kept C attempt w ended) :
    Prog.Holds (lifecycle C thread) (serveTurn codec fuel attempt tools (.boundary boundary) ports)
      (Answered C attempt ended (.boundary boundary)) w := by
  by_cases hterminal : ∃ reason, boundary.kind = .terminal reason
  · obtain ⟨reason, hkind⟩ := hterminal
    unfold serveTurn
    refine Prog.holds_bind (holds_awaited (fun w' hw => ?_) fun w' hw => ?_)
    · have hcut : ∀ r, r ≠ Raced.answered (.ok ()) →
          Answered C attempt ended (.boundary boundary) (r, ports) w' := by
        intro r hr
        have hadmits : admitsEnd (.boundary boundary) r = false :=
          Bool.eq_false_iff.2 fun hadmits => hr (admitsEnd_eq_true hadmits).2
        refine ⟨ended, ?_, h.ended.grown hw, h.running⟩
        show ended = (ended || admitsEnd (.boundary boundary) r)
        rw [hadmits, Bool.or_false]
      exact ⟨hcut _ nofun, hcut _ nofun⟩
    · refine (holds_admitBoundary hkind (h.ended.grown hw)).mono fun r w'' hr => ?_
      exact ⟨ended || r.toBool, congrArg (ended || ·) (admitsEnd_terminal hkind r).symm, hr, h.running⟩
  · have hawaited : (awaited (attempt.admitBoundary boundary).run).Within quiet := by
      refine ⟨trivial, fun c => ?_⟩
      match (c : Raced Unit) with
      | .cancelled => trivial
      | .timedOut => trivial
      | .answered _ => exact Prog.within_bind (quiet_admitBoundary attempt boundary).within fun _ => trivial
    refine holds_port hawaited (fun r => Bool.eq_false_iff.2 fun hadmits => ?_) (fun _ => h.running) h
    exact hterminal (admitsEnd_eq_true hadmits).1

theorem holds_poll (callId : String) (h : ports.Kept C attempt w ended) :
    Prog.Holds (lifecycle C thread) (ports.poll callId) (fun r w' => r.2.Kept C attempt w' ended) w := by
  unfold Ports.poll
  split
  · exact ⟨h.ended, Ports.Kept.drop h.running callId⟩
  · rename_i o next hlookup
    have hquiet : (Prog.ask o next : Running).Within quiet := by
      obtain ⟨before, after, hrunning, -⟩ := List.lookup_eq_some_iff.1 hlookup
      exact h.running (callId, .ask o next) (by rw [hrunning]; simp)
    intro w' hw
    have hw' := h.ended.grown hw
    refine ⟨allow_of_quiet hquiet.1, fun a w'' hact => ?_⟩
    exact ⟨hw'.grown (grown_of_act hw'.sound hact), Ports.Kept.keep h.running (hquiet.2 a)⟩
  · trivial

theorem holds_progress (callId : String) (h : ports.Kept C attempt w ended) :
    Prog.Holds (lifecycle C thread) (serveTurn codec fuel attempt tools (.progress callId) ports)
      (Answered C attempt ended (.progress callId)) w := by
  have hdone : ∀ {r : Option (Raced (Except ToolError ToolOutcome)) × Ports} {w' : World σ Host},
      r.2.Kept C attempt w' ended → Answered C attempt ended (.progress callId) r w' :=
    fun h => ⟨ended, (Bool.or_false ended).symm, h⟩
  have hdropped : ∀ w', Grown C w w' → (ports.drop callId).Kept C attempt w' ended := fun w' hw =>
    ⟨h.ended.grown hw, Ports.Kept.drop h.running callId⟩
  unfold serveTurn Ports.progress
  refine Prog.holds_bind (holds_awaited (fun w' hw => ?_) fun w' hw => ?_)
  · exact ⟨hdone (hdropped w' hw), hdone (hdropped w' hw)⟩
  · have hkept : ports.Kept C attempt w' ended := ⟨h.ended.grown hw, h.running⟩
    exact (holds_poll callId hkept).mono fun r w'' hr => hdone hr

/-- **The ports of an attempt.**  They keep what their Turn knows of its end. -/
theorem holds_serveTurn (o : TurnOp) (h : ports.Kept C attempt w ended) (hallow : ending.allow ended o) :
    Prog.Holds (lifecycle C thread) (serveTurn codec fuel attempt tools o ports)
      (Answered C attempt ended o) w := by
  cases o with
  | look => exact holds_passed (fun _ => rfl) h
  | cutoff unixMs => exact holds_passed (fun _ => rfl) h
  | prepare call => exact holds_passed (fun _ => rfl) h
  | approval toolName => exact holds_passed (fun _ => rfl) h
  | poll => exact holds_passed (fun _ => rfl) h
  | planned plan checkpoint => exact holds_passed (fun _ => rfl) h
  | boundary boundary => exact holds_boundary boundary h
  | record event => exact holds_record hallow h
  | recordRequest request =>
    exact holds_port (within_append ports.next rfl _) (fun _ => rfl) (fun _ => h.running) h
  | recordCheckpoint checkpoint =>
    exact holds_port (quiet_recordCheckpoint codec fuel attempt checkpoint).within (fun _ => rfl)
      (fun _ => h.running) h
  | step stepId request =>
    exact holds_port (within_streamStep stepId request fuel ports.next) (fun _ => rfl) (fun _ => h.running) h
  | execute invocation =>
    exact ⟨ended, (Bool.or_false ended).symm, h.ended, Ports.Kept.keep h.running
      (quiet_executeInvocation codec.evidence tools invocation).within⟩
  | progress callId => exact holds_progress callId h

theorem holds_attemptTurn {turn : TurnProg ResumableTurn}
    (hturn : Prog.Holds ending turn.run (fun _ _ => True) false) (hw : w.Sound C) :
    Prog.Holds (lifecycle C thread) (attemptTurn codec fuel attempt tools turn).run
      (fun _ w' => w'.Sound C) w := by
  have hfresh : Ports.fresh.Kept C attempt w false :=
    ⟨⟨hw, fun h => nomatch h⟩, fun _ hp => absurd hp List.not_mem_nil⟩
  have hports : ∀ (o : TurnOp) (ports : Ports) (w : World σ Host) (ended : Bool), ports.Kept C attempt w ended →
      ending.allow ended o → Prog.Holds (lifecycle C thread) (serveTurn codec fuel attempt tools o ports)
        (Answered C attempt ended o) w := fun o _ _ _ h hallow => holds_serveTurn o h hallow
  have hserved := Prog.holds_serve (E := lifecycle C thread) (fun ports w ended => Ports.Kept C attempt ports w ended)
    hports (fun _ => rfl) hturn hfresh
  exact Prog.holds_bind (hserved.mono fun r w' ⟨_, _, hkept⟩ => hkept.ended.sound)

end Ports

section Calls

variable {σ : Type} {P : LedgerStore σ} {C : P.Contract} {thread : ℕ} {w : World σ Host} {ε α β : Type}
variable (codec : DriverCodec) (fuel : ℕ) (executor : TurnExecutor) (effectHooks : Bool)

theorem holds_quiet (p : HostProg ε α) [h : Only quiet p] (hw : w.Sound C) :
    Prog.Holds (lifecycle C thread) p.run (fun _ w' => w'.Sound C) w := by
  have hopen : Ended C "" false w := ⟨hw, fun h => nomatch h⟩
  exact (holds_within h.within hopen).mono fun _ _ hended => hended.sound

theorem holds_after {p : HostProg ε α} [Only quiet p] {f : α → HostProg ε β}
    (hf : ∀ a w, w.Sound C → Prog.Holds (lifecycle C thread) (f a).run (fun _ w' => w'.Sound C) w)
    (hw : w.Sound C) : Prog.Holds (lifecycle C thread) (p >>= f).run (fun _ w' => w'.Sound C) w := by
  refine Fallible.holds_bind ((holds_quiet p hw).mono fun r w' hw' => ?_)
  cases r with
  | ok a => exact hf a w' hw'
  | error e => exact hw'

theorem holds_finish (attempt : Attempt) (tools : DurableTools) {turn : TurnProg ResumableTurn}
    (hturn : Prog.Holds ending turn.run (fun _ _ => True) false) (hw : w.Sound C) :
    Prog.Holds (lifecycle C thread) (finish codec fuel attempt tools turn).run (fun _ w' => w'.Sound C) w := by
  unfold finish
  refine Fallible.holds_bind (Fallible.holds_attempt ((holds_attemptTurn hturn hw).mono fun r w' hw' => ?_))
  match r with
  | .ok (.completed result) => exact holds_quiet (completed fuel attempt.key result) hw'
  | .ok (.suspended suspension) => exact holds_quiet (suspended codec fuel attempt.key suspension) hw'
  | .error error => exact holds_after (p := persistError fuel attempt.key error) (fun _ _ hw => hw) hw'

theorem holds_startWithDeadline (request : TurnRequest) (sessionId executionId : String)
    (deadline : TurnDeadline) (hw : w.Sound C) :
    Prog.Holds (lifecycle C thread)
      (startWithDeadline codec fuel executor effectHooks request sessionId executionId deadline).run
      (fun _ w' => w'.Sound C) w := by
  unfold startWithDeadline
  refine holds_after (fun deadline w hw => ?_) hw
  dsimp only
  refine holds_after (fun toolTimeoutMs w hw => holds_after (fun admission w hw => ?_) hw) hw
  refine holds_after (fun _ w hw => holds_after (fun _ w hw => holds_after (fun _ w hw => ?_) hw) hw) hw
  exact holds_finish codec fuel _ _ (holds_startResumable codec.turn _ fuel request deadline) hw

theorem holds_driveCheckpoint (key : ExecutionRef) (checkpoint : TurnCheckpoint) (deadline : TurnDeadline)
    (hw : w.Sound C) :
    Prog.Holds (lifecycle C thread)
      (driveCheckpoint codec fuel executor effectHooks key checkpoint deadline).run
      (fun _ w' => w'.Sound C) w := by
  unfold driveCheckpoint
  refine holds_after (fun _ w hw => holds_after (fun admission w hw => holds_after (fun scope w hw => ?_) hw) hw) hw
  refine holds_after (fun _ w hw => holds_after (fun cursor w hw => ?_) hw) hw
  exact holds_finish codec fuel _ _ (holds_resumeCheckpoint codec.turn _ fuel checkpoint scope deadline) hw

theorem holds_resume (sessionId executionId checkpointId : String) (input : ResumeInput) (hw : w.Sound C) :
    Prog.Holds (lifecycle C thread)
      (resume codec fuel executor effectHooks sessionId executionId checkpointId input).run
      (fun _ w' => w'.Sound C) w := by
  unfold resume
  refine holds_after (fun key w hw => holds_after (fun _ w hw => holds_after (fun _ w hw => ?_) hw) hw) hw
  refine holds_after (fun admission w hw => holds_after (fun _ w hw => holds_after (fun suspension w hw => ?_) hw) hw) hw
  refine holds_after (fun scope w hw => holds_after (fun deadline w hw => holds_after (fun _ w hw => ?_) hw) hw) hw
  refine holds_after (fun _ w hw => holds_after (fun merged w hw => holds_after (fun _ w hw => ?_) hw) hw) hw
  refine holds_after (fun _ w hw => holds_after (fun _ w hw => ?_) hw) hw
  exact holds_driveCheckpoint codec fuel executor effectHooks key merged deadline hw

theorem holds_resumeApproval (sessionId executionId approvalId : String) (hw : w.Sound C) :
    Prog.Holds (lifecycle C thread)
      (resumeApproval codec fuel executor effectHooks sessionId executionId approvalId).run
      (fun _ w' => w'.Sound C) w := by
  unfold resumeApproval
  refine holds_after (fun suspension w hw => holds_after (fun events w hw => holds_after (fun event w hw => ?_) hw) hw) hw
  refine holds_after (fun confirmation w hw => ?_) hw
  exact holds_resume codec fuel executor effectHooks _ _ _ _ hw

theorem holds_resumeCommitted (sessionId executionId checkpointId : String) (hw : w.Sound C) :
    Prog.Holds (lifecycle C thread)
      (resumeCommitted codec fuel executor effectHooks sessionId executionId checkpointId).run
      (fun _ w' => w'.Sound C) w := by
  unfold resumeCommitted
  refine holds_after (fun key w hw => holds_after (fun _ w hw => holds_after (fun _ w hw => ?_) hw) hw) hw
  refine holds_after (fun current w hw => holds_after (fun deadline w hw => holds_after (fun checkpoint w hw => ?_) hw) hw) hw
  refine holds_after (fun _ w hw => ?_) hw
  exact holds_driveCheckpoint codec fuel executor effectHooks key checkpoint deadline hw

/-- A call of a process: of the driver, of the coordinator, or of the Server. -/
inductive Call where
  | start (executor : TurnExecutor) (effectHooks : Bool) (request : TurnRequest)
      (sessionId executionId : String) (deadline : TurnDeadline)
  | resume (executor : TurnExecutor) (effectHooks : Bool) (sessionId executionId checkpointId : String)
      (input : ResumeInput)
  | resumeApproval (executor : TurnExecutor) (effectHooks : Bool) (sessionId executionId approvalId : String)
  | resumeCommitted (executor : TurnExecutor) (effectHooks : Bool)
      (sessionId executionId checkpointId : String)
  | cancel (key : ExecutionRef)
  | coordinator (call : Execution.Call)
  | cancelTurn (execution : ExecutionRef)
  | approve (key : ExecutionRef) (suspension : TurnSuspension) (approvalId decision : String)
  | denyPending (execution : ExecutionRef) (scope : ToolExecutionScope) (approvalId : String)
  | commitSession (sessionId turnId : String) (status : SessionTurnStatus) (messages : List Message)

/-- A call, without what it answers. -/
def settled (p : HostProg ε α) : RawProg Unit := p.run.bind fun _ => .done ()

/-- The program of a call. -/
def Call.program : Call → RawProg Unit
  | start executor effectHooks request sessionId executionId deadline =>
      settled (startWithDeadline codec fuel executor effectHooks request sessionId executionId deadline)
  | resume executor effectHooks sessionId executionId checkpointId input =>
      settled (Driver.resume codec fuel executor effectHooks sessionId executionId checkpointId input)
  | resumeApproval executor effectHooks sessionId executionId approvalId =>
      settled (Driver.resumeApproval codec fuel executor effectHooks sessionId executionId approvalId)
  | resumeCommitted executor effectHooks sessionId executionId checkpointId =>
      settled (Driver.resumeCommitted codec fuel executor effectHooks sessionId executionId checkpointId)
  | cancel key => settled (Driver.cancel key)
  | coordinator call => settled (coordinatorCall (call.program fuel))
  | cancelTurn execution => settled (Driver.cancelTurn codec fuel execution)
  | approve key suspension approvalId decision =>
      settled (recordApprovalDecision codec key suspension approvalId decision)
  | denyPending execution scope approvalId => settled (Driver.denyPending codec fuel execution scope approvalId)
  | commitSession sessionId turnId status messages =>
      settled (Driver.commitSession codec fuel sessionId turnId status messages)

theorem holds_settled {p : HostProg ε α}
    (h : Prog.Holds (lifecycle C thread) p.run (fun _ w' => w'.Sound C) w) :
    Prog.Holds (lifecycle C thread) (settled p) (fun _ w' => w'.Sound C) w :=
  Prog.holds_bind h

/-- The calls of the coordinator leave completions alone. -/
instance quiet_coordinatorProgram (call : Execution.Call) : Only quiet (call.program fuel) := by
  cases call with
  | start execution => unfold Execution.Call.program Execution.start; infer_instance
  | resume execution => unfold Execution.Call.program Execution.resume; infer_instance
  | recover execution => unfold Execution.Call.program Execution.recover; infer_instance
  | cancel execution => unfold Execution.Call.program; infer_instance
  | release id => unfold Execution.Call.program; infer_instance

theorem holds_call (call : Call) (hw : w.Sound C) :
    Prog.Holds (lifecycle C thread) (call.program codec fuel) (fun _ w' => w'.Sound C) w := by
  cases call with
  | start executor effectHooks request sessionId executionId deadline =>
    exact holds_settled (holds_startWithDeadline codec fuel executor effectHooks request _ _ deadline hw)
  | resume executor effectHooks sessionId executionId checkpointId input =>
    exact holds_settled (holds_resume codec fuel executor effectHooks _ _ _ input hw)
  | resumeApproval executor effectHooks sessionId executionId approvalId =>
    exact holds_settled (holds_resumeApproval codec fuel executor effectHooks _ _ _ hw)
  | resumeCommitted executor effectHooks sessionId executionId checkpointId =>
    exact holds_settled (holds_resumeCommitted codec fuel executor effectHooks _ _ _ hw)
  | cancel key => exact holds_settled (holds_quiet _ hw)
  | coordinator call => exact holds_settled (holds_quiet _ hw)
  | cancelTurn execution => exact holds_settled (holds_quiet _ hw)
  | approve key suspension approvalId decision => exact holds_settled (holds_quiet _ hw)
  | denyPending execution scope approvalId => exact holds_settled (holds_quiet _ hw)
  | commitSession sessionId turnId status messages => exact holds_settled (holds_quiet _ hw)

end Calls

end Driver
end Kolyan
