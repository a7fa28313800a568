/-
# Tool effects, at most once

Any number of `execute_invocation` calls run on one ledger, operation by
operation, among whatever else commits facts there: a process that crashes leaves
its call where it stands, and one that resumes makes another.  A call reaches the
tool in one place, after its own `EffectStarted` fact was admitted, and it reaches
it once (`once_executeInvocation`); the fact has one author, so the effect of a
Step's call reaches the tool at most once (`effects_at_most_once`).  A result that
a call returns is the one of the effect's receipt in the ledger.
-/

import Kolyan.Driver.Runs

namespace Kolyan
namespace Driver

open Checks Threads Fallible Ledger Policy Turn

section Structure

variable (codec : EvidenceCodec) (tools : DurableTools) (bound : PreparedEvidence)

theorem once_enter (invocation : ToolInvocation) : (tools.enter codec bound invocation).run.Once calm := by
  unfold DurableTools.enter
  refine once_bind fun _ => once_bind fun _ => Prog.once_ask fun outcome => ?_
  exact (quiet_conclude codec tools bound invocation.window outcome).within

theorem once_executeInvocation (invocation : ToolInvocation) :
    (tools.executeInvocation codec invocation).run.Once calm := by
  unfold DurableTools.executeInvocation
  refine once_bind fun _ => once_bind fun bound => once_bind fun _ => once_bind fun _ => once_bind fun receipt => ?_
  split
  · exact (quiet_answerReceipt codec tools bound invocation.window _).once
  · refine once_bind fun waiting => ?_
    split
    · exact (quiet_answerWait codec tools bound _).once
    · refine once_bind fun started => ?_
      split
      · exact (quiet_recover codec tools bound _).once
      · exact once_enter codec tools bound invocation

end Structure

section Receipts

variable {codec : EvidenceCodec} {bound : PreparedEvidence} {payload : Value} {result : ToolResult}

theorem field_receiptPayload (h : bound.receiptPayload codec (.ok result) = .ok payload) :
    field "output" payload = result.toValue := by
  obtain ⟨_, -, h⟩ := bind_eq_ok.1 h
  obtain rfl := pure_eq_ok.1 h
  rfl

theorem field_validateReceipt (h : bound.validateReceipt codec payload = .ok (.ok result)) :
    field "output" payload = result.toValue := by
  unfold PreparedEvidence.validateReceipt at h
  obtain ⟨stated, -, h⟩ := bind_eq_ok.1 h
  obtain ⟨expected, hexpected, h⟩ := bind_eq_ok.1 h
  obtain ⟨_, hsame, h⟩ := bind_eq_ok.1 h
  obtain rfl := pure_eq_ok.1 h
  have hsame : payload = expected := by simpa using hsame
  unfold PreparedEvidence.expectedReceipt at hexpected
  obtain ⟨built, hbuilt, hexpected⟩ := bind_eq_ok.1 hexpected
  have houtput := field_receiptPayload hbuilt
  split at hexpected
  · obtain rfl := pure_eq_ok.1 hexpected
    rw [hsame]
    exact houtput
  · obtain ⟨proof, -, hexpected⟩ := bind_eq_ok.1 hexpected
    obtain rfl := pure_eq_ok.1 hexpected
    obtain ⟨_, -, hbuilt⟩ := bind_eq_ok.1 hbuilt
    obtain rfl := pure_eq_ok.1 hbuilt
    rw [hsame]
    rfl

end Receipts

section Calls

/-- A host, and what its environment answers at the moment. -/
structure Answering where
  host : Host
  env : Env

/-- One operation of such a host. -/
def answeringStep (thread : ℕ) (answering : Answering) (e : HostOp) : e.Answer × Answering :=
  let (answer, host) := hostStep answering.env thread answering.host e
  (answer, { answering with host })

/-- One call of `execute_invocation`. -/
structure EffectCall where
  tools : DurableTools
  invocation : ToolInvocation

/-- The execution that the call is in. -/
def EffectCall.executionId (call : EffectCall) : String := call.invocation.scope.execution.executionId

/-- The effect that the call is about. -/
def EffectCall.effect (call : EffectCall) : String := effectId call.invocation.prepared call.invocation.scope

/-- The id of an effect's facts, up to their last part. -/
def effectRoot (executionId effect : String) : String := executionId ++ "/effect/" ++ effect

/-- The program of a call. -/
def EffectCall.program (codec : EvidenceCodec) (call : EffectCall) : Running :=
  (call.tools.executeInvocation codec call.invocation).run

/-- The effect was started, in an execution that was not cancelled before. -/
def EffectStarted (executionId effect : String) (events : List LedgerEvent) : Prop :=
  ∃ before event after, events = before ++ event :: after ∧
    event.eventId = effectRoot executionId effect ++ "/started" ∧ event.kind = .effectStarted ∧
    event.executionId = executionId ∧ hasCancelled before executionId = false

/-- The receipt of the effect holds a result. -/
def Receipted (executionId effect : String) (result : ToolResult) (events : List LedgerEvent) : Prop :=
  ∃ event ∈ events, event.eventId = effectRoot executionId effect ++ "/receipt" ∧
    event.kind = .effectReceipt ∧ field "output" event.payload = result.toValue

theorem EffectStarted.grows {executionId effect : String} {old new : List LedgerEvent}
    (h : EffectStarted executionId effect old) (hgrows : old <+: new) : EffectStarted executionId effect new := by
  obtain ⟨before, event, after, rfl, hevent⟩ := h
  obtain ⟨more, rfl⟩ := hgrows
  exact ⟨before, event, after ++ more, by simp, hevent⟩

theorem EffectStarted.admitted {executionId effect : String} {old new : List LedgerEvent} {event saved : LedgerEvent}
    (happended : Appended old event new (.ok saved))
    (hrefused : hasCancelled old event.executionId = true → new = old)
    (hid : event.eventId = effectRoot executionId effect ++ "/started") (hkind : event.kind = .effectStarted)
    (hexecution : event.executionId = executionId) : EffectStarted executionId effect new := by
  obtain ⟨-, hsaved, hnew⟩ := happended.ok
  refine ⟨old, saved, [], hnew, ?_, ?_, ?_, Bool.eq_false_iff.2 fun hcancelled => ?_⟩
  · rw [hsaved]
    exact hid
  · rw [hsaved]
    exact hkind
  · rw [hsaved]
    exact hexecution
  · have hsame := hrefused (hexecution ▸ hcancelled)
    rw [hnew] at hsame
    exact absurd (congrArg List.length hsame) (by simp)

end Calls

section Effects

variable {σ : Type} {P : LedgerStore σ} (C : P.Contract)

/-- What a call may ask its host for: its own tool, once its own start of the
effect is in the ledger. -/
def mayInvoke (call : EffectCall) (thread : ℕ) (w : World σ Answering) : HostOp → Prop
  | .invoke invocation => invocation = call.invocation ∧
      (effectRoot call.executionId call.effect ++ "/started", thread) ∈ w.authors ∧
      EffectStarted call.executionId call.effect (w.events C)
  | _ => True

/-- A call among others that may commit anything. -/
def effects (call : EffectCall) (thread : ℕ) :
    Setting (Op HostOp) (Op.Answer HostOp.Answer) (World σ Answering) :=
  setting C (fun _ => True) (fun _ _ => True) answeringStep (mayInvoke C call thread) thread

variable {C} {call : EffectCall} {thread : ℕ} {w w' : World σ Answering} {ε α β : Type}

theorem mayInvoke_of_idle {e : HostOp} (h : idleHost e = true) : mayInvoke C call thread w e := by
  cases e with
  | invoke invocation => exact nomatch h
  | _ => trivial

theorem holds_calm {p : RawProg α} (hp : p.Within calm) {K : List LedgerEvent → Prop}
    (hK : ∀ old new, old <+: new → K old → K new) (hw : w.Sound C) (h : K (w.events C)) :
    Prog.Holds (effects C call thread) p (fun _ w' => w'.Sound C ∧ K (w'.events C)) w := by
  refine hp.holds (fun w w' h hw => ⟨hw.sound, hK _ _ hw.grows h.2⟩) (fun w o _ hcalm => ?_)
    (fun w o r w' h _ hact => ?_) ⟨hw, h⟩
  · match o with
    | .ledger _ => trivial
    | .host e => exact mayInvoke_of_idle hcalm
  · obtain ⟨hsound, hgrows, -⟩ := h.1.perform answeringStep thread o
    replace hact : perform P answeringStep thread w o = (r, w') := hact
    rw [hact] at hsound hgrows
    exact ⟨hsound, hK _ _ hgrows h.2⟩

theorem mono_mem (event : LedgerEvent) : ∀ old new : List LedgerEvent, old <+: new → event ∈ old → event ∈ new :=
  fun _ _ h he => h.subset he

theorem mono_true : ∀ old new : List LedgerEvent, old <+: new → True → True := fun _ _ _ h => h

theorem yields_calm (p : HostProg ε α) [h : Only calm p] {K : List LedgerEvent → Prop}
    (hK : ∀ old new, old <+: new → K old → K new) (hw : w.Sound C) (hk : K (w.events C)) :
    Yields (effects C call thread) p (fun _ w' => w'.Sound C ∧ K (w'.events C)) w :=
  (holds_calm h.within hK hw hk).mono fun _ _ hr _ _ => hr

theorem yields_after {p : HostProg ε α} [Only calm p] {f : α → HostProg ε β} {Q : β → World σ Answering → Prop}
    {K : List LedgerEvent → Prop} (hK : ∀ old new, old <+: new → K old → K new) (hw : w.Sound C)
    (hk : K (w.events C))
    (hf : ∀ a w', w'.Sound C → K (w'.events C) → Yields (effects C call thread) (f a) Q w') :
    Yields (effects C call thread) (p >>= f) Q w :=
  yields_bind ((yields_calm p hK hw hk).mono fun a w' h => hf a w' h.1 h.2)

variable {codec : EvidenceCodec} {tools : DurableTools} {bound : PreparedEvidence}

theorem yields_uncertain {Q : α → World σ Answering → Prop} (message : String) (hw : w.Sound C) :
    Yields (effects C call thread) (tools.uncertain bound message : ToolProg α) Q w := by
  unfold DurableTools.uncertain
  dsimp only
  refine yields_after mono_true hw trivial fun r w' _ _ => ?_
  cases r with
  | ok event => exact yields_throw
  | error error => exact yields_throw

theorem yields_attempted {ε' : Type} {p : HostProg ε α} [h : Only calm p] {Q : α → World σ Answering → Prop}
    (hp : Yields (effects C call thread) p Q w) (hw : w.Sound C) :
    Yields (effects C call thread) (attempt p : HostProg ε' (Except ε α)) (fun r w' => match r with
      | .ok a => Q a w'
      | .error _ => w'.Sound C) w := by
  refine yields_attempt ((Prog.Holds.and hp (holds_calm h.within mono_true hw trivial)).mono fun r w' hr => ?_)
  cases r with
  | ok a => exact hr.1 a rfl
  | error error => exact hr.2.1

theorem yields_orUncertain {p : ToolProg α} [Only calm p] {Q : α → World σ Answering → Prop}
    {text : ToolError → String} (hp : Yields (effects C call thread) p Q w) (hw : w.Sound C) :
    Yields (effects C call thread) (tools.orUncertain bound text p) Q w := by
  unfold DurableTools.orUncertain
  refine yields_bind ((yields_attempted hp hw).mono fun r w' hr => ?_)
  cases r with
  | ok a => exact yields_pure hr
  | error error => exact yields_uncertain _ hr

theorem yields_checked {x : Except ToolError α} {text : ToolError → String} {K : List LedgerEvent → Prop}
    (hK : ∀ old new, old <+: new → K old → K new) (hw : w.Sound C) (hk : K (w.events C)) :
    Yields (effects C call thread) (tools.orUncertain bound text (lift x))
      (fun a w' => x = .ok a ∧ w'.Sound C ∧ K (w'.events C)) w :=
  Yields.and (yields_orUncertain (yields_lift fun _ h => h) hw) (yields_calm _ hK hw hk)

theorem yields_appendOnce {key : ExecutionRef} {suffix : String} {kind : LedgerEventKind} {payload : Value} :
    Yields (effects C call thread) (appendOnce key suffix kind payload) (fun event w' => w'.Sound C ∧
      event ∈ w'.events C ∧ event.eventId = key.executionId ++ "/" ++ suffix ∧ event.kind = kind ∧
      event.payload = payload) w := by
  unfold appendOnce
  dsimp only
  refine yields_bind (yields_mapError (holds_eventById (fun _ _ _ h => nomatch h) fun w' hw' => ?_))
  rintro found hfound
  obtain rfl := Except.ok.inj hfound
  split
  · rename_i existing hexisting
    split
    · rename_i hsame
      refine yields_pure ⟨hw'.sound, List.mem_of_find?_eq_some hexisting,
        of_decide_eq_true (List.find?_some (p := fun event : LedgerEvent => decide (event.eventId = _)) hexisting), ?_⟩
      obtain ⟨hsame, hpayload⟩ := Bool.and_eq_true_iff.1 hsame
      obtain ⟨-, hkind⟩ := Bool.and_eq_true_iff.1 hsame
      exact ⟨of_decide_eq_true hkind, of_decide_eq_true hpayload⟩
    · exact yields_throw
  · refine yields_mapError (holds_append fun w'' hw'' s' r hvalid happended => ?_)
    rintro saved rfl
    obtain ⟨-, hsaved, hnew⟩ := happended.ok
    refine ⟨hw''.sound.record hvalid happended thread, ?_, ?_⟩
    · show saved ∈ C.events s'
      rw [hnew]
      exact List.mem_append_right _ (List.mem_singleton.2 rfl)
    · rw [hsaved]
      exact ⟨rfl, rfl, rfl⟩

/-- What a call of `execute_invocation` comes to: a result is the one of the
effect's receipt. -/
def Concluded (C : P.Contract) (call : EffectCall) (outcome : ToolOutcome) (w : World σ Answering) : Prop :=
  ∀ result, outcome = .completed result → Receipted call.executionId call.effect result (w.events C)

theorem concluded_wait (wait : ExternalWait) : Concluded C call (.awaitingExternal wait) w := fun _ h => nomatch h

/-- The evidence is the one of the call. -/
structure Bound (call : EffectCall) (tools : DurableTools) (bound : PreparedEvidence) : Prop where
  root : bound.root = effectRoot call.executionId call.effect
  key : tools.key.executionId = call.executionId
  effect : bound.request.effectId = call.effect

theorem Bound.id (h : Bound call tools bound) (suffix : String) :
    tools.key.executionId ++ "/" ++ ("effect/" ++ bound.request.effectId ++ "/" ++ suffix) =
      effectRoot call.executionId call.effect ++ "/" ++ suffix := by
  rw [h.key, h.effect]
  simp only [effectRoot, String.append_assoc]
  rfl

theorem yields_saved {suffix : String} :
    Yields (effects C call thread) (bound.saved suffix) (fun found w' => w'.Sound C ∧
      ∀ event, found = some event → event ∈ w'.events C ∧ event.eventId = bound.root ++ "/" ++ suffix) w := by
  unfold PreparedEvidence.saved
  refine yields_mapError (holds_eventById (fun _ _ _ h => nomatch h) fun w' hw' => ?_)
  rintro found hfound
  obtain rfl := Except.ok.inj hfound
  refine ⟨hw'.sound, fun event hevent => ⟨List.mem_of_find?_eq_some hevent, ?_⟩⟩
  exact of_decide_eq_true (List.find?_some (p := fun event : LedgerEvent => decide (event.eventId = _)) hevent)

theorem yields_answerReceipt {window : ℕ} {event : LedgerEvent} (hw : w.Sound C)
    (hevent : event ∈ w.events C)
    (hid : event.eventId = effectRoot call.executionId call.effect ++ "/receipt") :
    Yields (effects C call thread) (tools.answerReceipt codec bound window event) (Concluded C call) w := by
  unfold DurableTools.answerReceipt
  refine yields_bind ((yields_checked (mono_mem event) hw hevent).mono ?_)
  rintro _ w ⟨hidentity, hw, hevent⟩
  have hkind : event.kind = .effectReceipt := by
    have := reject_eq_ok.1 hidentity
    simp only [not_or, not_not] at this
    exact this.2.2.2.1
  refine yields_after (mono_mem event) hw hevent fun _ w hw hevent => ?_
  refine yields_bind ((yields_checked (mono_mem event) hw hevent).mono ?_)
  rintro result w ⟨hresult, hw, hevent⟩
  refine yields_after (mono_mem event) hw hevent fun _ w _ hevent => ?_
  refine yields_bind (yields_lift fun output houtput => yields_pure ?_)
  rintro _ ⟨⟩
  rw [houtput] at hresult
  exact ⟨event, hevent, hid, hkind, field_validateReceipt hresult⟩

theorem yields_answerWait {event : LedgerEvent} (hw : w.Sound C) :
    Yields (effects C call thread) (tools.answerWait codec bound event) (Concluded C call) w := by
  unfold DurableTools.answerWait
  refine yields_after mono_true hw trivial fun _ w hw _ => yields_after mono_true hw trivial fun _ w hw _ => ?_
  refine yields_after mono_true hw trivial fun wait w hw _ => yields_after mono_true hw trivial fun _ w hw _ => ?_
  exact yields_after mono_true hw trivial fun _ w _ _ => yields_pure (concluded_wait wait)

theorem yields_recover {event : LedgerEvent} (hw : w.Sound C) :
    Yields (effects C call thread) (tools.recover codec bound event) (Concluded C call) w := by
  unfold DurableTools.recover
  refine yields_after mono_true hw trivial fun _ w hw _ => yields_after mono_true hw trivial fun _ w hw _ => ?_
  refine yields_after mono_true hw trivial fun _ w hw _ => yields_after mono_true hw trivial fun recovered w hw _ => ?_
  cases recovered with
  | none => exact yields_uncertain _ hw
  | some wait =>
    dsimp only
    unfold DurableTools.republish
    refine yields_after mono_true hw trivial fun _ w hw _ => yields_after mono_true hw trivial fun _ w hw _ => ?_
    refine yields_after mono_true hw trivial fun _ w hw _ => yields_after mono_true hw trivial fun _ w hw _ => ?_
    refine yields_after mono_true hw trivial fun r w hw _ => ?_
    split
    · exact yields_pure (concluded_wait wait)
    · exact yields_throw
    · exact yields_uncertain _ hw

theorem yields_publish {suffix what : String} {kind : LedgerEventKind} {payload : Value} (h : Bound call tools bound)
    [Certain (quietKind kind)] (hw : w.Sound C) :
    Yields (effects C call thread) (tools.publish bound suffix what kind payload) (fun event w' => w'.Sound C ∧
      event ∈ w'.events C ∧ event.eventId = effectRoot call.executionId call.effect ++ "/" ++ suffix ∧
      event.kind = kind ∧ event.payload = payload) w := by
  unfold DurableTools.publish
  refine yields_bind ((yields_attempted yields_appendOnce hw).mono fun r w hr => ?_)
  cases r with
  | ok event =>
    obtain ⟨hsound, hevent, hid, hfact⟩ := hr
    exact yields_pure ⟨hsound, hevent, hid.trans (h.id suffix), hfact⟩
  | error error => exact yields_uncertain _ hr

theorem yields_publishReceipt (h : Bound call tools bound) {window : ℕ} {result : Except ToolError ToolResult}
    (hw : w.Sound C) :
    Yields (effects C call thread) (tools.publishReceipt codec bound window result) (Concluded C call) w := by
  have hcertain : Certain (quietKind (if result.toBool then .effectCompleted else .effectFailed)) := by
    split <;> exact ⟨rfl⟩
  unfold DurableTools.publishReceipt
  refine yields_bind ((yields_checked mono_true hw trivial).mono ?_)
  rintro payload w ⟨hpayload, hw, -⟩
  refine yields_bind ((yields_publish h hw).mono ?_)
  rintro receipt w ⟨hw, hreceipt, hid, hkind, hsame⟩
  refine yields_after (mono_mem receipt) hw hreceipt fun _ w hw hreceipt => ?_
  refine yields_after (mono_mem receipt) hw hreceipt fun _ w hw hreceipt => ?_
  refine yields_bind (yields_lift fun output houtput => yields_pure ?_)
  rintro _ ⟨⟩
  rw [houtput] at hpayload
  refine ⟨receipt, hreceipt, ?_, hkind, by rw [hsame]; exact field_receiptPayload hpayload⟩
  rw [hid, String.append_assoc]
  rfl

theorem yields_conclude (h : Bound call tools bound) {window : ℕ} (outcome : Except ToolError ToolOutcome)
    (hw : w.Sound C) :
    Yields (effects C call thread) (tools.conclude codec bound window outcome) (Concluded C call) w := by
  unfold DurableTools.conclude
  split
  · exact yields_publishReceipt h hw
  · rename_i wait
    unfold DurableTools.publishWait
    refine yields_after mono_true hw trivial fun _ w hw _ => yields_after mono_true hw trivial fun _ w hw _ => ?_
    refine yields_after mono_true hw trivial fun _ w hw _ => yields_after mono_true hw trivial fun r w hw _ => ?_
    cases r with
    | ok saved => exact yields_pure (concluded_wait wait)
    | error error => exact yields_uncertain _ hw
  · exact yields_uncertain _ hw
  · exact yields_publishReceipt h hw

/-- **The start of an effect.**  It leaves a fact of this thread's own, in an
execution that was not cancelled before. -/
theorem yields_start (h : Bound call tools bound) (hw : w.Sound C) :
    Yields (effects C call thread) (tools.start bound) (fun _ w' => w'.Sound C ∧
      (effectRoot call.executionId call.effect ++ "/started", thread) ∈ w'.authors ∧
      EffectStarted call.executionId call.effect (w'.events C)) w := by
  unfold DurableTools.start
  refine yields_after mono_true hw trivial fun _ w hw _ => yields_after mono_true hw trivial fun _ w hw _ => ?_
  refine yields_bind (yields_mapError (holds_appendUnlessCancelled fun w' hw' s' r hvalid happended hrefused => ?_))
  rintro saved rfl
  have hstarted := EffectStarted.admitted happended hrefused (congrArg (· ++ "/started") h.root) rfl h.key
  obtain ⟨-, hsaved, -⟩ := happended.ok
  have hid : saved.eventId = effectRoot call.executionId call.effect ++ "/started" := by
    rw [hsaved]
    exact congrArg (· ++ "/started") h.root
  refine yields_pure ⟨hw'.sound.record hvalid happended thread, ?_, hstarted⟩
  rw [← hid]
  exact List.mem_append_right _ (List.mem_singleton.2 rfl)

theorem yields_enter (h : Bound call tools bound) (hw : w.Sound C) :
    Yields (effects C call thread) (tools.enter codec bound call.invocation) (Concluded C call) w := by
  unfold DurableTools.enter
  refine yields_after mono_true hw trivial fun _ w hw _ => ?_
  refine yields_bind ((yields_start h hw).mono ?_)
  rintro _ w ⟨hw, hauthor, hstarted⟩
  intro w' hw'
  replace hw' : Interference C _ _ w w' := hw'
  refine ⟨⟨rfl, hw'.authors.subset hauthor, hstarted.grows hw'.grows⟩, fun outcome w'' hact => ?_⟩
  have hsound := (hw'.sound.perform answeringStep thread (.host (.invoke call.invocation))).1
  replace hact : perform P answeringStep thread w' (.host (.invoke call.invocation)) = (outcome, w'') := hact
  rw [hact] at hsound
  exact yields_conclude h outcome hsound

/-- **A call of `execute_invocation`.**  It calls its tool under its own start of
the effect, and a result that it returns is the one of the receipt. -/
theorem yields_executeInvocation (hw : w.Sound C) :
    Yields (effects C call thread) (call.tools.executeInvocation codec call.invocation) (Concluded C call) w := by
  unfold DurableTools.executeInvocation
  refine yields_after mono_true hw trivial fun _ w hw _ => ?_
  refine yields_bind (yields_lift fun bound hbound => ?_)
  have hcall : Bound call call.tools bound := by
    obtain ⟨_, -, hbound⟩ := bind_eq_ok.1 hbound
    obtain ⟨_, hscope, hbound⟩ := bind_eq_ok.1 hbound
    obtain ⟨_, -, hbound⟩ := bind_eq_ok.1 hbound
    obtain rfl := pure_eq_ok.1 hbound
    have hscope : call.invocation.scope.execution = call.tools.key := by simpa using hscope
    exact ⟨rfl, by rw [← hscope]; rfl, rfl⟩
  refine yields_after mono_true hw trivial fun _ w hw _ => yields_after mono_true hw trivial fun _ w hw _ => ?_
  refine yields_bind (yields_saved.mono ?_)
  rintro receipt w ⟨hw, hreceipt⟩
  cases receipt with
  | some event =>
    obtain ⟨hevent, hid⟩ := hreceipt event rfl
    refine yields_answerReceipt hw hevent ?_
    rw [hid, hcall.root, String.append_assoc]
    rfl
  | none =>
    refine yields_after mono_true hw trivial fun waiting w hw _ => ?_
    cases waiting with
    | some event => exact yields_answerWait hw
    | none =>
      refine yields_after mono_true hw trivial fun started w hw _ => ?_
      cases started with
      | some event => exact yields_recover hw
      | none => exact yields_enter hcall hw

end Effects

section Systems

variable {σ : Type} (P : LedgerStore σ) (codec : EvidenceCodec)

/-- The shared world, every call with what is left of it, and the invocations
that have reached a tool, each with the call that it came from. -/
structure ToolSystem (σ : Type) where
  world : World σ Answering
  calls : List (EffectCall × Running)
  invoked : List (ℕ × ToolInvocation)

/-- What may happen next: a new call, one operation of a call, other answers of
the host, or a fact that somebody else commits.  A call that crashed or was
dropped makes no more operations. -/
inductive ToolLabel where
  | invoke (call : EffectCall)
  | advance (thread : ℕ)
  | answers (env : Env)
  | commit (event : LedgerEvent)
  | commitUnlessCancelled (event : LedgerEvent)

/-- The invocation that an operation hands to a tool. -/
def handed (thread : ℕ) : Op HostOp → List (ℕ × ToolInvocation)
  | .host (.invoke invocation) => [(thread, invocation)]
  | _ => []

/-- One step of the system. -/
def ToolSystem.step (s : ToolSystem σ) : ToolLabel → Option (ToolSystem σ)
  | .invoke call => some { s with calls := s.calls ++ [(call, call.program codec)] }
  | .advance thread => do
      let (call, rest) ← s.calls[thread]?
      let ⟨o, next⟩ ← rest.next?
      let (answer, world) := perform P answeringStep thread s.world o
      return {
        world
        calls := s.calls.set thread (call, next answer)
        invoked := s.invoked ++ handed thread o }
  | .answers env => some { s with world := { s.world with host := { s.world.host with env } } }
  | .commit event => some { s with world := { s.world with store := (P.append s.world.store event).2 } }
  | .commitUnlessCancelled event =>
      some { s with world := { s.world with store := (P.appendUnlessCancelled s.world.store event).2 } }

/-- A store with a host, and no call yet. -/
def ToolSystem.initial (store : σ) (host : Answering) : ToolSystem σ :=
  { world := { store, host, authors := [] }, calls := [], invoked := [] }

def ToolSystem.run (s : ToolSystem σ) : List ToolLabel → Option (ToolSystem σ)
  | [] => some s
  | l :: schedule => do (← s.step P codec l).run schedule

/-- The invocations of one effect that have reached a tool. -/
def ToolSystem.invocations (s : ToolSystem σ) (executionId effect : String) : List (ℕ × ToolInvocation) :=
  s.invoked.filter fun (_, invocation) => invocation.scope.execution.executionId = executionId &&
    effectId invocation.prepared invocation.scope = effect

end Systems

section Reachable

variable {σ : Type} {P : LedgerStore σ} (C : P.Contract) {codec : EvidenceCodec}

/-- The states of all runs. -/
inductive ToolReach (codec : EvidenceCodec) : ToolSystem σ → Prop
  | initial (store : σ) (host : Answering) (h : C.Valid store) : ToolReach codec (ToolSystem.initial store host)
  | step {s s' : ToolSystem σ} {l : ToolLabel} (hs : ToolReach codec s) (hl : s.step P codec l = some s') :
      ToolReach codec s'

/-- Calls on their way: each has reached its tool at most once, under its own
start of the effect. -/
structure ToolSystem.Orderly (s : ToolSystem σ) : Prop where
  sound : s.world.Sound C
  calls : ∀ (i : ℕ) (call : EffectCall) (rest : Running), s.calls[i]? = some (call, rest) →
    Prog.Holds (effects C call i) rest (fun r w => ∀ outcome, r = .ok outcome → Concluded C call outcome w) s.world
  once : ∀ (i : ℕ) (call : EffectCall) (rest : Running), s.calls[i]? = some (call, rest) →
    rest.Once calm ∧ (i ∈ s.invoked.map (·.1) → rest.Within calm)
  invoked : ∀ x ∈ s.invoked, ∃ call rest, s.calls[x.1]? = some (call, rest) ∧
    mayInvoke C call x.1 s.world (.invoke x.2)
  nodup : (s.invoked.map (·.1)).Nodup

variable {C}

/-- Any step of the world. -/
abbrev Moved (C : P.Contract) (w w' : World σ Answering) : Prop :=
  Interference C (fun _ => True) (fun _ _ => True) w w'

theorem Moved.mayInvoke {w w' : World σ Answering} (h : Moved C w w') {call : EffectCall} {thread : ℕ}
    {invocation : ToolInvocation} (hw : mayInvoke C call thread w (.invoke invocation)) :
    mayInvoke C call thread w' (.invoke invocation) :=
  ⟨hw.1, h.authors.subset hw.2.1, hw.2.2.grows h.grows⟩

theorem Moved.concluded {w w' : World σ Answering} (h : Moved C w w') {call : EffectCall} {outcome : ToolOutcome}
    (hw : Concluded C call outcome w) : Concluded C call outcome w' := by
  intro result hresult
  obtain ⟨event, hevent, hreceipt⟩ := hw result hresult
  exact ⟨event, h.grows.subset hevent, hreceipt⟩

theorem Moved.holds {w w' : World σ Answering} (h : Moved C w w') {call : EffectCall} {i : ℕ} {rest : Running}
    (hrest : Prog.Holds (effects C call i) rest
      (fun r w => ∀ outcome, r = .ok outcome → Concluded C call outcome w) w) :
    Prog.Holds (effects C call i) rest
      (fun r w => ∀ outcome, r = .ok outcome → Concluded C call outcome w) w' := by
  cases rest with
  | done r => exact fun outcome hr => h.concluded (hrest outcome hr)
  | halt => trivial
  | ask o next => exact hrest.interfere (fun _ _ _ => Interference.trans fun _ _ _ _ _ => trivial) nofun h

theorem ToolSystem.Orderly.initial {store : σ} {host : Answering} (h : C.Valid store) :
    (ToolSystem.initial store host).Orderly C where
  sound := World.Sound.start h host
  calls := fun _ _ _ hcall => nomatch List.getElem?_nil.symm.trans hcall
  once := fun _ _ _ hcall => nomatch List.getElem?_nil.symm.trans hcall
  invoked := fun _ hx => absurd hx List.not_mem_nil
  nodup := List.nodup_nil

theorem ToolSystem.Orderly.moved {s : ToolSystem σ} (h : s.Orderly C) {w : World σ Answering}
    (hw : Moved C s.world w) : ToolSystem.Orderly C ⟨w, s.calls, s.invoked⟩ where
  sound := hw.sound
  calls := fun i call rest hcall => hw.holds (h.calls i call rest hcall)
  once := h.once
  invoked := by
    intro x hx
    obtain ⟨call, rest, hcall, hinvoke⟩ := h.invoked x hx
    exact ⟨call, rest, hcall, hw.mayInvoke hinvoke⟩
  nodup := h.nodup

theorem ToolSystem.Orderly.invoke {s : ToolSystem σ} (h : s.Orderly C) (codec : EvidenceCodec) (call : EffectCall) :
    ToolSystem.Orderly C { s with calls := s.calls ++ [(call, call.program codec)] } where
  sound := h.sound
  calls := by
    intro i call' rest hcall
    rw [List.getElem?_append] at hcall
    split_ifs at hcall with hlt
    · exact h.calls i call' rest hcall
    · obtain ⟨rfl, rfl⟩ := Prod.mk.inj (List.mem_singleton.1 (List.mem_of_getElem? hcall))
      exact yields_executeInvocation h.sound
  once := by
    intro i call' rest hcall
    rw [List.getElem?_append] at hcall
    split_ifs at hcall with hlt
    · exact h.once i call' rest hcall
    · obtain ⟨rfl, rfl⟩ := Prod.mk.inj (List.mem_singleton.1 (List.mem_of_getElem? hcall))
      refine ⟨once_executeInvocation codec call'.tools call'.invocation, fun hi => absurd ?_ hlt⟩
      obtain ⟨x, hx, rfl⟩ := List.mem_map.1 hi
      obtain ⟨_, _, hx, -⟩ := h.invoked x hx
      exact (List.getElem?_eq_some_iff.1 hx).1
  invoked := by
    intro x hx
    obtain ⟨call', rest, hcall, hinvoke⟩ := h.invoked x hx
    exact ⟨call', rest, (List.getElem?_append_left (List.getElem?_eq_some_iff.1 hcall).1).trans hcall, hinvoke⟩
  nodup := h.nodup

theorem mem_handed {thread : ℕ} {o : Op HostOp} {x : ℕ × ToolInvocation} :
    x ∈ handed thread o ↔ x.1 = thread ∧ o = .host (.invoke x.2) := by
  unfold handed
  split
  · rename_i invocation
    rw [List.mem_singleton, Prod.ext_iff]
    refine and_congr_right fun _ => ⟨fun h => by rw [h], fun h => ?_⟩
    exact (HostOp.invoke.inj (Op.host.inj h)).symm
  · rename_i hne
    exact ⟨fun h => absurd h List.not_mem_nil, fun h => absurd h.2 (hne x.2)⟩

theorem handed_of_calm {thread : ℕ} {o : Op HostOp} (h : calm o) : handed thread o = [] := by
  refine List.eq_nil_iff_forall_not_mem.2 fun x hx => ?_
  obtain ⟨-, rfl⟩ := mem_handed.1 hx
  exact nomatch h

theorem ToolSystem.Orderly.advance {s : ToolSystem σ} (h : s.Orderly C) {i : ℕ} {call : EffectCall} {o : Op HostOp}
    {next : o.Answer HostOp.Answer → Running} (hi : s.calls[i]? = some (call, .ask o next)) :
    ToolSystem.Orderly C ⟨(perform P answeringStep i s.world o).2,
      s.calls.set i (call, next (perform P answeringStep i s.world o).1), s.invoked ++ handed i o⟩ := by
  obtain ⟨hsound, hgrows, hauthors⟩ := h.sound.perform answeringStep i o
  have hmoved : Moved C s.world (perform P answeringStep i s.world o).2 :=
    ⟨hsound, hgrows, fun _ _ => .inr trivial, hauthors, trivial⟩
  obtain ⟨hallow, hnext⟩ := (h.calls i call _ hi).step (Interference.refl h.sound trivial)
  have hset : (s.calls.set i (call, next (perform P answeringStep i s.world o).1))[i]? =
      some (call, next (perform P answeringStep i s.world o).1) :=
    List.getElem?_set_self (List.getElem?_eq_some_iff.1 hi).1
  have hother : ∀ j, i ≠ j → (s.calls.set i (call, next (perform P answeringStep i s.world o).1))[j]? = s.calls[j]? :=
    fun j hij => List.getElem?_set_ne hij
  obtain ⟨honce, hcalm⟩ := h.once i call _ hi
  have hrest := honce.rest (perform P answeringStep i s.world o).1
  -- A call that has been at its tool does not ask for it again.
  have hfresh : ∀ x ∈ handed i o, x.1 ∉ s.invoked.map (·.1) := by
    intro x hx hold
    obtain ⟨rfl, rfl⟩ := mem_handed.1 hx
    exact nomatch (hcalm hold).1
  refine ⟨hsound, fun j call' rest hj => ?_, fun j call' rest hj => ?_, fun x hx => ?_, ?_⟩
  · rcases eq_or_ne i j with rfl | hij
    · obtain ⟨rfl, rfl⟩ := Prod.mk.inj (Option.some.inj (hset.symm.trans hj))
      exact hnext _ _ rfl
    · exact hmoved.holds (h.calls j call' rest ((hother j hij).symm.trans hj))
  · rcases eq_or_ne i j with rfl | hij
    · obtain ⟨rfl, rfl⟩ := Prod.mk.inj (Option.some.inj (hset.symm.trans hj))
      by_cases ho : calm o
      · refine ⟨hrest.1 ho, fun hold => ?_⟩
        rw [handed_of_calm ho, List.append_nil] at hold
        exact (hcalm hold).2 _
      · exact ⟨(hrest.2 ho).once, fun _ => hrest.2 ho⟩
    · obtain ⟨hj', hj''⟩ := h.once j call' rest ((hother j hij).symm.trans hj)
      refine ⟨hj', fun hold => hj'' ?_⟩
      rw [List.map_append, List.mem_append] at hold
      refine hold.resolve_right fun hnew => hij ?_
      obtain ⟨x, hx, rfl⟩ := List.mem_map.1 hnew
      exact (mem_handed.1 hx).1.symm
  · rcases List.mem_append.1 hx with hx | hx
    · obtain ⟨call', rest, hcall, hinvoke⟩ := h.invoked x hx
      rcases eq_or_ne i x.1 with rfl | hij
      · obtain ⟨rfl, rfl⟩ := Prod.mk.inj (Option.some.inj (hi.symm.trans hcall))
        exact ⟨call, _, hset, hmoved.mayInvoke hinvoke⟩
      · exact ⟨call', rest, (hother _ hij).trans hcall, hmoved.mayInvoke hinvoke⟩
    · obtain ⟨hthread, rfl⟩ := mem_handed.1 hx
      rw [hthread]
      exact ⟨call, _, hset, hmoved.mayInvoke hallow⟩
  · rw [List.map_append]
    refine List.nodup_append.2 ⟨h.nodup, ?_, fun a ha b hb hab => ?_⟩
    · unfold handed
      split
      · exact List.nodup_singleton i
      · exact List.nodup_nil
    · obtain ⟨x, hx, rfl⟩ := List.mem_map.1 hb
      exact hfresh x hx (hab ▸ ha)

theorem ToolSystem.Orderly.step {s s' : ToolSystem σ} {l : ToolLabel} (h : s.Orderly C)
    (hl : s.step P codec l = some s') : s'.Orderly C := by
  cases l with
  | invoke call =>
    obtain rfl := Option.some.inj hl
    exact h.invoke codec call
  | advance thread =>
    obtain ⟨⟨call, rest⟩, hrest, hl⟩ := Option.bind_eq_some_iff.1 hl
    obtain ⟨⟨o, next⟩, hnext, hl⟩ := Option.bind_eq_some_iff.1 hl
    obtain rfl := Option.some.inj hl
    cases rest with
    | done r => exact nomatch hnext
    | halt => exact nomatch hnext
    | ask o' next' =>
      obtain ⟨rfl, hnext⟩ := Sigma.mk.inj (Option.some.inj hnext)
      obtain rfl := eq_of_heq hnext
      exact h.advance hrest
  | answers env =>
    obtain rfl := Option.some.inj hl
    exact h.moved ⟨⟨h.sound.valid, h.sound.authored, h.sound.single⟩, List.prefix_rfl, fun _ he => .inl he,
      List.prefix_rfl, trivial⟩
  | commit event =>
    obtain rfl := Option.some.inj hl
    obtain ⟨hvalid, happended⟩ := C.append_spec h.sound.valid event
    exact h.moved ⟨h.sound.grow hvalid happended.grows, happended.grows, fun _ _ => .inr trivial,
      List.prefix_rfl, trivial⟩
  | commitUnlessCancelled event =>
    obtain rfl := Option.some.inj hl
    obtain ⟨hvalid, happended, -⟩ := C.admission_spec h.sound.valid event
    exact h.moved ⟨h.sound.grow hvalid happended.grows, happended.grows, fun _ _ => .inr trivial,
      List.prefix_rfl, trivial⟩

theorem ToolReach.orderly {s : ToolSystem σ} (h : ToolReach C codec s) : s.Orderly C := by
  induction h with
  | initial store host h => exact ToolSystem.Orderly.initial h
  | step hs hl ih => exact ih.step hl

theorem ToolReach.run {s s' : ToolSystem σ} (hs : ToolReach C codec s) {schedule : List ToolLabel}
    (h : s.run P codec schedule = some s') : ToolReach C codec s' := by
  induction schedule generalizing s with
  | nil => exact Option.some.inj h ▸ hs
  | cons l schedule ih =>
    obtain ⟨t, ht, h⟩ := Option.bind_eq_some_iff.1 h
    exact ih (hs.step ht) h

theorem ToolSystem.Orderly.mem_invocations {s : ToolSystem σ} (h : s.Orderly C) {executionId effect : String}
    {x : ℕ × ToolInvocation} (hx : x ∈ s.invocations executionId effect) :
    (effectRoot executionId effect ++ "/started", x.1) ∈ s.world.authors ∧
      EffectStarted executionId effect (s.world.events C) := by
  obtain ⟨hx, hof⟩ := List.mem_filter.1 hx
  obtain ⟨call, _, -, hinvocation, hauthor, hstarted⟩ := h.invoked x hx
  obtain ⟨hexecution, heffect⟩ := Bool.and_eq_true_iff.1 hof
  have hexecution : call.executionId = executionId := by
    have := of_decide_eq_true hexecution
    rw [hinvocation] at this
    exact this
  have heffect : call.effect = effect := by
    have := of_decide_eq_true heffect
    rw [hinvocation] at this
    exact this
  rw [hexecution, heffect] at hauthor hstarted
  exact ⟨hauthor, hstarted⟩

theorem Receipted.unique {w : World σ Answering} (h : w.Sound C) {executionId effect : String}
    {result other : ToolResult} (hresult : Receipted executionId effect result (w.events C))
    (hother : Receipted executionId effect other (w.events C)) : other = result := by
  obtain ⟨event, hevent, hid, -, hfield⟩ := hresult
  obtain ⟨event', hevent', hid', -, hfield'⟩ := hother
  obtain rfl := List.inj_on_of_nodup_map (C.unique h.valid) hevent hevent' (hid.trans hid'.symm)
  exact ToolResult.toValue_injective (hfield'.symm.trans hfield)

/-- **Tool effects, at most once.**  However calls of `execute_invocation` run,
crash and are made again among what others commit, one effect of an execution
reaches the tool at most once; if it has, its start is in the ledger, and it was
committed while no `ExecutionCancelled` was; and every result that a call has
returned is the one result of the effect's receipt. -/
theorem effects_at_most_once {s : ToolSystem σ} (h : ToolReach C codec s) (executionId effect : String) :
    (s.invocations executionId effect).length ≤ 1 ∧
    (s.invocations executionId effect ≠ [] → EffectStarted executionId effect (s.world.events C)) ∧
    ∀ (i : ℕ) (call : EffectCall) (result : ToolResult), s.calls[i]? = some (call, .done (.ok (.completed result))) →
      call.executionId = executionId → call.effect = effect →
      Receipted executionId effect result (s.world.events C) ∧
        ∀ other, Receipted executionId effect other (s.world.events C) → other = result := by
  have horderly := h.orderly
  refine ⟨?_, fun hne => ?_, ?_⟩
  · have hnodup : ((s.invocations executionId effect).map (·.1)).Nodup :=
      horderly.nodup.sublist ((List.filter_sublist (l := s.invoked)).map _)
    have hone : ∀ x ∈ s.invocations executionId effect, ∀ y ∈ s.invocations executionId effect, x.1 = y.1 :=
      fun x hx y hy => horderly.sound.author_unique (horderly.mem_invocations hx).1 (horderly.mem_invocations hy).1
    match hall : s.invocations executionId effect with
    | [] => exact Nat.zero_le 1
    | [x] => exact le_rfl
    | x :: y :: rest =>
      rw [hall] at hnodup hone
      have hdiffer := (List.nodup_cons.1 hnodup).1
      refine absurd (List.mem_map.2 ⟨y, List.mem_cons_self .., ?_⟩) hdiffer
      exact hone y (List.mem_cons_of_mem _ (List.mem_cons_self ..)) x (List.mem_cons_self ..)
  · obtain ⟨x, hx⟩ := List.exists_mem_of_ne_nil _ hne
    exact (horderly.mem_invocations hx).2
  · rintro i call result hcall rfl rfl
    have hreceipted := horderly.calls i call _ hcall _ rfl result rfl
    exact ⟨hreceipted, fun other hother => Receipted.unique horderly.sound hreceipted hother⟩

end Reachable

section Race

def racedCall : PreparedCall :=
  { ranCall with requirements := { processSandbox := false, maxOutputBytes := 100, timeoutMs := 1 } }

def racedScope : ToolExecutionScope := { execution := ranKey, stepId := "r", agentSnapshotDigest := none }

def racedInvocation : ToolInvocation where
  prepared := racedCall
  grant := {
    scope := racedScope
    callId := "c"
    toolName := "write"
    toolRevision := "1"
    preparedDigest := "0"
    policyRevision := "p"
    constraints := { maxOutputBytes := some 100, timeoutMs := some 1 }
    approvalEvidenceId := none }
  scope := racedScope
  policyRevision := "p"
  window := 1

def racedResult : ToolResult := { callId := "c", content := "", isError := false }

def racedHost : Answering where
  host := { active := [], claims := [] }
  env
    | .invoke _ => .ok (.completed racedResult)
    | e => answering (.answered ()) (.error .cancelled) e

def racedEffect : EffectCall where
  tools := { key := ranKey, snapshotDigest := none, effectHooks := false }
  invocation := racedInvocation

/-- Two processes resume the same effect: both find no start of it, the second
commits one and calls the tool, and the first is refused. -/
def raced : List ToolLabel :=
  [.invoke racedEffect, .invoke racedEffect] ++ List.replicate 6 (.advance 0) ++ List.replicate 14 (.advance 1) ++
    List.replicate 3 (.advance 0)

/-- A call of this effect that has ended with the result. -/
def racedDone (x : EffectCall × Running) : Bool :=
  match x.2 with
  | .done (.ok (.completed result)) => result = racedResult ∧ x.1.executionId = "e" ∧ x.1.effect = "r/c"
  | _ => false

/-- In this race the effect reached the tool once, and the result of the call
that did is the one of the receipt. -/
theorem effects_at_most_once_raced : ∃ s : ToolSystem LedgerState, ToolReach inMemoryContract ranCodec.evidence s ∧
    (s.invocations "e" "r/c").length = 1 ∧ EffectStarted "e" "r/c" (s.world.events inMemoryContract) ∧
    Receipted "e" "r/c" racedResult (s.world.events inMemoryContract) := by
  have hran : ((ToolSystem.initial LedgerState.empty racedHost).run inMemoryLedger ranCodec.evidence raced).any
      (fun s => (s.invocations "e" "r/c").length = 1 ∧ s.calls.any racedDone) = true := by
    decide +kernel
  obtain ⟨s, hs, hcheck⟩ := (Option.any_eq_true _ _).1 hran
  obtain ⟨hlength, hcalls⟩ := of_decide_eq_true hcheck
  have hreach : ToolReach inMemoryContract ranCodec.evidence s :=
    (ToolReach.initial LedgerState.empty racedHost LedgerState.ordered_empty).run hs
  obtain ⟨-, hstarted, hresults⟩ := effects_at_most_once hreach "e" "r/c"
  refine ⟨s, hreach, hlength, hstarted (List.ne_nil_of_length_pos (by omega)), ?_⟩
  obtain ⟨⟨call, rest⟩, hmem, hended⟩ := List.any_eq_true.1 hcalls
  obtain ⟨i, hi⟩ := List.mem_iff_getElem?.1 hmem
  unfold racedDone at hended
  split at hended
  · rename_i result hrest
    obtain ⟨rfl, hexecution, heffect⟩ := of_decide_eq_true hended
    replace hrest : rest = .done (.ok (.completed racedResult)) := hrest
    rw [hrest] at hi
    exact (hresults i call racedResult hi hexecution heffect).1
  · cases hended

end Race

end Driver
end Kolyan
