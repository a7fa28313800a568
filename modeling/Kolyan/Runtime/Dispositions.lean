/-
# Dispositions of effects that have ended

What `apply_effect` answers for an effect that has ended is read back from the
ledger: from the receipt of a prepared tool (`ToolRecord`), or from the first of
the facts that end a generic effect (`terminalFrom`).  Facts are only added behind
them, so later calls read the same.  A denial is recorded too, but nothing reads
it back: the admission is asked again, and the answer stands only as long as it is
the same.
-/

import Kolyan.Ledger.Calls
import Kolyan.Lib.Chronicles
import Kolyan.Runtime.Effects

namespace Kolyan
namespace Runtime

open Checks Threads Fallible Ledger Driver Policy Turn

section Facts

/-- The facts that end an effect. -/
def outcomes : List String := ["completed", "failed", "uncertain"]

/-- The effect was prepared by the tools. -/
def ToolPrepared (events : List LedgerEvent) (executionId effectId : String) : Prop :=
  ∃ prepared ∈ events, prepared.eventId = effectRoot executionId effectId ++ "/prepared" ∧
    asStr (field "binding_kind" prepared.payload) = some "prepared_tool_v1"

/-- A fact that the writers of a ledger may add: the key of a preparation is its id,
and the end of an effect that the tools did not prepare is behind its receipt. -/
structure MayEnter (events : List LedgerEvent) (event : LedgerEvent) : Prop where
  keyed : ∀ effectId, event.eventId = effectRoot event.executionId effectId ++ "/prepared" →
    event.idempotencyKey = event.eventId
  ended : ∀ suffix ∈ outcomes, ∀ effectId, event.eventId = effectRoot event.executionId effectId ++ ("/" ++ suffix) →
    ToolPrepared events event.executionId effectId ∨ HasReceipt events event.executionId effectId

/-- The facts of an execution. -/
abbrev factsOf (key : ExecutionRef) (events : List LedgerEvent) : List LedgerEvent :=
  events.filter fun event => event.executionId = key.executionId

/-- The effect was prepared by `apply_effect`. -/
def GenericPrepared (key : ExecutionRef) (effect : EffectRequest) (events : List LedgerEvent) : Prop :=
  ∃ prepared ∈ events, prepared.eventId = effectFact key effect.effectId "prepared" ∧
    prepared.turnId = key.turnId ∧ prepared.executionId = key.executionId ∧ prepared.kind = .effectPrepared ∧
    prepared.payload = preparedPayload effect

/-- A receipt in the ledger says that the effect has ended so. -/
def ReceiptSays (codec : RuntimeCodec) (key : ExecutionRef) (effect : EffectRequest) (events : List LedgerEvent)
    (disposition : EffectDisposition) : Prop :=
  ∃ receipt ∈ events, receipt.eventId = effectFact key effect.effectId "receipt" ∧
    receipt.executionId = key.executionId ∧ receiptDisposition codec effect receipt.payload = .ok disposition

/-- The denial of the effect is in the ledger. -/
def DenialRecorded (key : ExecutionRef) (effect : EffectRequest) (events : List LedgerEvent) (code : String) : Prop :=
  ∃ denied ∈ events, denied.eventId = effectFact key effect.effectId "denied" ∧
    denied.turnId = key.turnId ∧ denied.executionId = key.executionId ∧ denied.kind = .effectDenied ∧
    denied.payload = .object [("effect_id", .string effect.effectId), ("code", .string code)]

variable {codec : RuntimeCodec} {key : ExecutionRef} {effect : EffectRequest} {disposition : EffectDisposition}
variable {events later : List LedgerEvent} {event : LedgerEvent}
variable {executionId effectId code : String}

theorem ToolPrepared.grows (h : ToolPrepared events executionId effectId) (hpart : events <+: later) :
    ToolPrepared later executionId effectId := h.imp fun _ h => ⟨hpart.subset h.1, h.2⟩

theorem GenericPrepared.grows (h : GenericPrepared key effect events) (hpart : events <+: later) :
    GenericPrepared key effect later := h.imp fun _ h => ⟨hpart.subset h.1, h.2⟩

theorem ReceiptSays.grows (h : ReceiptSays codec key effect events disposition) (hpart : events <+: later) :
    ReceiptSays codec key effect later disposition := h.imp fun _ h => ⟨hpart.subset h.1, h.2⟩

theorem DenialRecorded.grows (h : DenialRecorded key effect events code) (hpart : events <+: later) :
    DenialRecorded key effect later code := h.imp fun _ h => ⟨hpart.subset h.1, h.2⟩

theorem binding_preparedPayload : asStr (field "binding_kind" (preparedPayload effect)) = some "generic_effect_v1" := rfl

theorem GenericPrepared.not_tool (hunique : (events.map (·.eventId)).Nodup) (h : GenericPrepared key effect events) :
    ¬ToolPrepared events key.executionId effect.effectId := by
  rintro ⟨tool, htool, htoolId, hkind⟩
  obtain ⟨prepared, hprepared, hid, -, -, -, hpayload⟩ := h
  rw [effectFact_eq] at hid
  obtain rfl := eq_of_name hunique htool hprepared (htoolId.trans hid.symm)
  rw [hpayload, binding_preparedPayload] at hkind
  exact absurd hkind (by decide)

/-- The preparation of a generic effect, as it is checked. -/
def PreparedHere (key : ExecutionRef) (effect : EffectRequest) (events : List LedgerEvent) : Prop :=
  ∃ prepared ∈ events, checkEvent prepared key (effectFact key effect.effectId "prepared") .effectPrepared = .ok () ∧
    prepared.payload = preparedPayload effect

theorem GenericPrepared.here (hchronicle : Chronicle MayEnter events) (h : GenericPrepared key effect events) :
    PreparedHere key effect events := by
  obtain ⟨prepared, hmem, hid, hturn, hexecution, hkind, hpayload⟩ := h
  refine ⟨prepared, hmem, ?_, hpayload⟩
  obtain ⟨_, _, -, hmay⟩ := hchronicle.split hmem
  have hkey := hmay.keyed effect.effectId (by rw [hid, hexecution, effectFact_eq]; rfl)
  exact reject_of_not (by simp [hid, hturn, hexecution, hkind, hkey])

/-- The end of a generic effect, as `terminal_effect` reads it. -/
def Told (codec : RuntimeCodec) (key : ExecutionRef) (effect : EffectRequest) (disposition : EffectDisposition)
    (events : List LedgerEvent) : Prop :=
  terminalFrom codec key effect (factsOf key events) = .ok (some disposition)

theorem terminalFrom_append {facts : List LedgerEvent} (rest : List LedgerEvent)
    (h : terminalFrom codec key effect facts = .ok (some disposition)) :
    terminalFrom codec key effect (facts ++ rest) = .ok (some disposition) := by
  induction facts with
  | nil => exact nomatch Except.ok.inj h
  | cons event facts ih =>
    rw [List.cons_append, terminalFrom]
    rw [terminalFrom] at h
    split_ifs at h ⊢
    · exact h
    · exact h
    · exact h
    · exact h
    · exact ih h

theorem terminalFrom_receipt {before after : List LedgerEvent} {receipt : LedgerEvent}
    (hbefore : ∀ fact ∈ before, fact.eventId ≠ effectFact key effect.effectId "receipt" ∧
      ∀ suffix ∈ outcomes, fact.eventId ≠ effectFact key effect.effectId suffix)
    (hid : receipt.eventId = effectFact key effect.effectId "receipt")
    (htells : receiptDisposition codec effect receipt.payload = .ok disposition) :
    terminalFrom codec key effect (before ++ receipt :: after) = .ok (some disposition) := by
  induction before with
  | nil => rw [List.nil_append, terminalFrom, if_pos hid, htells]; rfl
  | cons fact before ih =>
    obtain ⟨hreceipt, hends⟩ := hbefore fact (List.mem_cons_self ..)
    rw [List.cons_append, terminalFrom, if_neg hreceipt, if_neg (hends _ (by decide)), if_neg (hends _ (by decide)),
      if_neg (hends _ (by decide))]
    exact ih fun other hother => hbefore other (List.mem_cons_of_mem _ hother)

theorem Told.grows (h : Told codec key effect disposition events) (hpart : events <+: later) :
    Told codec key effect disposition later := by
  obtain ⟨rest, rfl⟩ := hpart
  rw [Told, factsOf, List.filter_append]
  exact terminalFrom_append _ h

/-- **The receipt of a generic effect is told**: the facts that end it are behind it. -/
theorem ReceiptSays.told (hchronicle : Chronicle MayEnter events) (hunique : (events.map (·.eventId)).Nodup)
    (htool : ¬ToolPrepared events key.executionId effect.effectId)
    (h : ReceiptSays codec key effect events disposition) : Told codec key effect disposition events := by
  obtain ⟨receipt, hmem, hid, hexecution, htells⟩ := h
  have hown : receipt ∈ factsOf key events := List.mem_filter.2 ⟨hmem, decide_eq_true hexecution⟩
  obtain ⟨before, after, hfacts⟩ := List.append_of_mem hown
  have hnames : ((factsOf key events).map (·.eventId)).Nodup := hunique.sublist (List.filter_sublist.map _)
  rw [hfacts, List.map_append, List.map_cons] at hnames
  have hnot : ∀ fact ∈ before, fact.eventId ≠ receipt.eventId := fun fact hfact =>
    (List.nodup_append.1 hnames).2.2 _ (List.mem_map_of_mem hfact) _ (List.mem_cons_self ..)
  rw [Told, hfacts]
  refine terminalFrom_receipt (fun fact hfact => ⟨fun h => hnot fact hfact (h.trans hid.symm), ?_⟩) hid htells
  rintro suffix hsuffix hfactId
  -- The receipt is before the end, so it is among the facts before itself.
  obtain ⟨earlier, rest, rfl⟩ := List.append_of_mem hfact
  rw [List.append_assoc, List.cons_append] at hfacts
  obtain ⟨seen, hseen, hmay, hearlier⟩ := hchronicle.selected hfacts
  have hseen : seen <+: events := (List.prefix_append _ _).trans hseen
  have hown : fact.executionId = key.executionId := by
    have hfact : fact ∈ factsOf key events := by rw [hfacts]; simp
    exact of_decide_eq_true (List.mem_filter.1 hfact).2
  rw [effectFact_eq, ← hown] at hfactId
  rcases hmay.ended suffix hsuffix effect.effectId hfactId with htools | ⟨other, hother, hotherId, hsame⟩
  · exact htool (hown ▸ htools.grows hseen)
  · obtain rfl := eq_of_name hunique (hseen.subset hother) hmem (by rw [hotherId, hid, effectFact_eq, hown]; rfl)
    refine hnot other (List.mem_append_left _ ?_) rfl
    rw [← hearlier]
    exact List.mem_filter.2 ⟨hother, decide_eq_true hexecution⟩

/-- **The preparation of a tool**: the facts of its effect that `recover_prepared_tool`
reads first, and the evidence that they are. -/
structure ToolPreparation (codec : RuntimeCodec) (key : ExecutionRef) (effect : EffectRequest) where
  prepared : LedgerEvent
  identity : LedgerEvent
  authorized : LedgerEvent
  bound : PreparedEvidence
  isPrepared : checkEvent prepared key (effectFact key effect.effectId "prepared") .effectPrepared = .ok ()
  binding : asStr (field "binding_kind" prepared.payload) = some "prepared_tool_v1"
  isIdentity : checkEvent identity key (key.executionId ++ "/execution-started") .executionStarted = .ok ()
  execution : identity.payload = key.toValue
  isAuthorized : checkEvent authorized key (effectFact key effect.effectId "authorized") .effectAuthorized = .ok ()
  evidence : evidenceFromFacts codec key effect.effectId prepared.payload authorized.payload = .ok bound
  request : bound.request = effect

/-- **The record of a tool**: its start and its receipt, which proves a result. -/
structure ToolRecord (codec : RuntimeCodec) (key : ExecutionRef) (effect : EffectRequest) extends
    ToolPreparation codec key effect where
  started : LedgerEvent
  receipt : LedgerEvent
  result : Except ToolError ToolResult
  isStarted : checkEvent started key (effectFact key effect.effectId "started") .effectStarted = .ok ()
  start : started.payload = bound.startedPayload
  isReceipt : checkEvent receipt key (effectFact key effect.effectId "receipt") .effectReceipt = .ok ()
  proof : bound.validateReceipt codec.toEvidenceCodec receipt.payload = .ok result

/-- The preparation is in the ledger. -/
structure ToolPreparation.Entered (tool : ToolPreparation codec key effect) (events : List LedgerEvent) : Prop where
  prepared : tool.prepared ∈ events
  identity : tool.identity ∈ events
  authorized : tool.authorized ∈ events

/-- The record is in the ledger. -/
structure ToolRecord.Entered (record : ToolRecord codec key effect) (events : List LedgerEvent) : Prop where
  preparation : record.toToolPreparation.Entered events
  started : record.started ∈ events
  receipt : record.receipt ∈ events

theorem ToolPreparation.Entered.grows {tool : ToolPreparation codec key effect} (h : tool.Entered events)
    (hpart : events <+: later) : tool.Entered later :=
  ⟨hpart.subset h.prepared, hpart.subset h.identity, hpart.subset h.authorized⟩

theorem ToolRecord.Entered.grows {record : ToolRecord codec key effect} (h : record.Entered events)
    (hpart : events <+: later) : record.Entered later :=
  ⟨h.preparation.grows hpart, hpart.subset h.started, hpart.subset h.receipt⟩

/-- The record of a tool in the ledger, with its result. -/
def ToolRecorded (codec : RuntimeCodec) (key : ExecutionRef) (effect : EffectRequest) (disposition : EffectDisposition)
    (events : List LedgerEvent) : Prop :=
  ∃ record : ToolRecord codec key effect, record.Entered events ∧ disposition = toolDisposition record.result

/-- **The end of an effect is recorded**: by the facts of a prepared tool, or by a
fact that `terminal_effect` reads for a generic one. -/
def Recorded (codec : RuntimeCodec) (key : ExecutionRef) (effect : EffectRequest) (disposition : EffectDisposition)
    (events : List LedgerEvent) : Prop :=
  ToolRecorded codec key effect disposition events ∨
    PreparedHere key effect events ∧ Told codec key effect disposition events

theorem ToolRecorded.grows (h : ToolRecorded codec key effect disposition events) (hpart : events <+: later) :
    ToolRecorded codec key effect disposition later := h.imp fun _ h => ⟨h.1.grows hpart, h.2⟩

theorem PreparedHere.grows (h : PreparedHere key effect events) (hpart : events <+: later) :
    PreparedHere key effect later := h.imp fun _ h => ⟨hpart.subset h.1, h.2⟩

theorem Recorded.grows (h : Recorded codec key effect disposition events) (hpart : events <+: later) :
    Recorded codec key effect disposition later :=
  h.imp (·.grows hpart) fun h => ⟨h.1.grows hpart, h.2.grows hpart⟩

theorem eventId_of_checkEvent {id : String} {kind : LedgerEventKind} (h : checkEvent event key id kind = .ok ()) :
    event.eventId = id := by
  have hcheck := reject_eq_ok.1 h
  simp only [not_or, not_not] at hcheck
  exact hcheck.1

/-- What a receipt says by its status. -/
def StatusSays (payload : Value) (disposition : EffectDisposition) : ReceiptStatus → Prop
  | .completed => ∃ output, field? "output" payload = some output ∧ .completed output = disposition
  | .failed => ∃ code, ((field? "code" payload).or (field? "error" payload)).bind asStr = some code ∧
      .failed code = disposition
  | .uncertain => ∃ text, asStr (field "evidence" payload) = some text ∧ .uncertain text = disposition

theorem receiptDisposition_eq_ok {payload : Value} : receiptDisposition codec effect payload = .ok disposition ↔
    ∃ receipt, codec.receipt (field "receipt" payload) = .ok receipt ∧ receipt.inputDigest = effect.inputDigest ∧
      receipt.effectId = effect.effectId ∧ StatusSays payload disposition receipt.status := by
  unfold receiptDisposition
  simp only [bind_eq_ok, mapError_eq_ok, reject_eq_ok, not_or, not_not, exists_and_left, exists_const, and_assoc]
  refine exists_congr fun receipt => and_congr_right fun _ => and_congr_right fun _ => and_congr_right fun _ => ?_
  cases receipt.status <;> simp only [StatusSays, bind_eq_ok, expect_eq_ok, pure_eq_ok]

theorem receiptDisposition_denied {payload : Value} : receiptDisposition codec effect payload ≠ .ok (.denied code) := by
  intro h
  obtain ⟨receipt, -, -, -, htells⟩ := receiptDisposition_eq_ok.1 h
  cases hstatus : receipt.status <;>
  · rw [hstatus] at htells
    obtain ⟨_, -, htells⟩ := htells
    exact nomatch htells

theorem terminalFrom_denied {facts : List LedgerEvent} :
    terminalFrom codec key effect facts ≠ .ok (some (.denied code)) := by
  induction facts with
  | nil => exact fun h => by cases Except.ok.inj h
  | cons event facts ih =>
    rw [terminalFrom]
    split_ifs
    · intro h
      obtain ⟨disposition, htells, h⟩ := bind_eq_ok.1 h
      obtain rfl := Option.some.inj (pure_eq_ok.1 h)
      exact receiptDisposition_denied htells
    · exact fun h => by cases Option.some.inj (Except.ok.inj h)
    · exact fun h => by cases Option.some.inj (Except.ok.inj h)
    · exact fun h => by cases Option.some.inj (Except.ok.inj h)
    · exact ih

theorem not_recorded_denied : ¬Recorded codec key effect (.denied code) events := by
  rintro (⟨record, -, hresult⟩ | ⟨-, htold⟩)
  · unfold toolDisposition at hresult
    split at hresult
    · exact nomatch hresult
    · exact nomatch hresult
  · exact terminalFrom_denied htold

end Facts

section Settings

variable {σ : Type} {P : LedgerStore σ} (C : P.Contract)

/-- The facts that a call enters. -/
def entersOnly (w : World σ EffectHost) : Op EffectPort → Prop
  | .ledger (.append event) | .ledger (.appendUnlessCancelled event) => MayEnter (w.events C) event
  | _ => True

/-- A call that enters facts, among others that may commit anything. -/
def entering (thread : ℕ) : Setting (Op EffectPort) (Op.Answer EffectPort.Answer) (World σ EffectHost) :=
  { setting C (fun _ => True) (Untouched thread) portStep (fun _ _ => True) thread with allow := entersOnly C }

/-- A call that only reads. -/
def looking (thread : ℕ) : Setting (Op EffectPort) (Op.Answer EffectPort.Answer) (World σ EffectHost) :=
  { setting C (fun _ => True) (Untouched thread) portStep (fun _ _ => True) thread with allow := fun _ => Op.reads }

/-- A setting of the calls of an `ExecutionRuntime`. -/
abbrev CallSetting (thread : ℕ) (E : Setting (Op EffectPort) (Op.Answer EffectPort.Answer) (World σ EffectHost)) : Prop :=
  Shares C (fun _ => True) (Untouched thread) portStep thread E

theorem entering_shares (thread : ℕ) : CallSetting C thread (entering C thread) := ⟨rfl, rfl, fun _ _ => trivial⟩

theorem looking_shares (thread : ℕ) : CallSetting C thread (looking C thread) := ⟨rfl, rfl, fun _ _ => trivial⟩

end Settings

section Entering

variable {σ : Type} {P : LedgerStore σ} {C : P.Contract} {thread : ℕ} {w : World σ EffectHost}
  {codec : RuntimeCodec} {fuel : ℕ} {key : ExecutionRef} {effect : EffectRequest} {grant : EffectGrant}
  {disposition : EffectDisposition}

theorem entering_saved {eventId : String} :
    Yields (entering C thread) (saved eventId) (fun found w' => Between C thread w w' ∧
      ∀ event, found = some event → event ∈ w'.events C ∧ event.eventId = eventId) w := by
  unfold saved ledgerCall
  refine yields_mapError ((entering_shares C thread).yields_eventById.mono ?_)
  rintro found w' ⟨hw', rfl⟩
  refine ⟨hw', fun event hevent => ⟨List.mem_of_find?_eq_some hevent, ?_⟩⟩
  exact of_decide_eq_true (List.find?_some (p := fun event : LedgerEvent => decide (event.eventId = _)) hevent)

theorem entering_appendOnce {eventId : String} {kind : LedgerEventKind} {payload : Value}
    (hmay : ∀ w', Between C thread w w' → ∀ event : LedgerEvent, event.eventId = eventId →
      event.executionId = key.executionId → event.idempotencyKey = event.eventId → MayEnter (w'.events C) event) :
    Yields (entering C thread) (appendOnce key eventId kind payload) (fun event w' => Between C thread w w' ∧
      event ∈ w'.events C ∧ event.eventId = eventId ∧ event.turnId = key.turnId ∧
      event.executionId = key.executionId ∧ event.kind = kind ∧ event.payload = payload) w := by
  unfold appendOnce
  dsimp only
  refine yields_bind (entering_saved.mono ?_)
  rintro found w₁ ⟨hw₁, hfound⟩
  split
  · rename_i existing
    obtain ⟨hmem, hid⟩ := hfound existing rfl
    refine yields_bind (yields_lift fun _ hsame => yields_pure ⟨hw₁, hmem, hid, ?_⟩)
    have hsame := reject_eq_ok.1 hsame
    rw [Bool.not_eq_false, Execution.sameFact] at hsame
    obtain ⟨hsame, hpayload⟩ := Bool.and_eq_true_iff.1 hsame
    obtain ⟨hsame, hkind⟩ := Bool.and_eq_true_iff.1 hsame
    obtain ⟨hturn, hexecution⟩ := Bool.and_eq_true_iff.1 hsame
    exact ⟨of_decide_eq_true hturn, of_decide_eq_true hexecution, of_decide_eq_true hkind, of_decide_eq_true hpayload⟩
  · refine yields_mapError (((entering_shares C thread).yields_append (untouched_trans thread) (fun _ _ _ => rfl)
      (fun _ _ => trivial) fun w₂ hw₂ => hmay w₂ (hw₁.trans hw₂) _ rfl rfl rfl).mono ?_)
    rintro saved w₂ ⟨hw₂, hmem, hsame⟩
    rw [hsame] at hmem ⊢
    exact ⟨hw₁.trans hw₂, hmem, rfl, rfl, rfl, rfl, rfl⟩

theorem mayEnter_fact {events : List LedgerEvent} {event : LedgerEvent} {suffix : String}
    (hid : event.eventId = effectFact key effect.effectId suffix) (hkey : event.idempotencyKey = event.eventId)
    (hends : ∀ other ∈ outcomes, Apart ("/" ++ suffix) ("/" ++ other)) : MayEnter events event where
  keyed := fun _ _ => hkey
  ended := fun other hother _ h => by
    rw [effectFact_eq] at hid
    exact absurd (hid.symm.trans h) (append_ne_of_ends (hends other hother).1 (hends other hother).2)

theorem mayEnter_outcome {events : List LedgerEvent} {event : LedgerEvent} {suffix : String} (hsuffix : suffix ∈ outcomes)
    (hid : event.eventId = effectFact key effect.effectId suffix) (hexecution : event.executionId = key.executionId)
    (hkey : event.idempotencyKey = event.eventId) (hreceipt : HasReceipt events key.executionId effect.effectId) :
    MayEnter events event where
  keyed := fun _ _ => hkey
  ended := fun other hother effectId h => by
    rw [effectFact_eq] at hid
    have happart : ∀ s ∈ outcomes, ∀ t ∈ outcomes, s = t ∨ Apart ("/" ++ s) ("/" ++ t) := by decide
    rcases happart suffix hsuffix other hother with rfl | happart
    · rw [hid, hexecution, String.append_left_inj] at h
      obtain rfl := (String.append_right_inj _).1 h
      exact .inr (hexecution ▸ hreceipt)
    · exact absurd (hid.symm.trans h) (append_ne_of_ends happart.1 happart.2)

theorem mayEnter_of_start {events : List LedgerEvent} {event : LedgerEvent} {start rest : String}
    (hid : event.eventId = event.executionId ++ (start ++ rest)) (hkey : event.idempotencyKey = event.eventId)
    (hs : ¬start.toList <+: "/effect/".toList ∧ ¬"/effect/".toList <+: start.toList) : MayEnter events event where
  keyed := fun _ _ => hkey
  ended := fun suffix _ effectId h => by
    have heffect : effectRoot event.executionId effectId ++ ("/" ++ suffix) =
        event.executionId ++ ("/effect/" ++ (effectId ++ ("/" ++ suffix))) := by
      simp only [effectRoot, String.append_assoc]
    exact absurd (hid.symm.trans (h.trans heffect)) (append_ne_of_starts hs.1 hs.2)

/-- The end of a generic effect that an answer was read from or recorded. -/
def Concluded (codec : RuntimeCodec) (key : ExecutionRef) (effect : EffectRequest) (events : List LedgerEvent)
    (disposition : EffectDisposition) : Prop :=
  GenericPrepared key effect events ∧
    (Told codec key effect disposition events ∨ ReceiptSays codec key effect events disposition)

/-- What is known of an effect behind an answer. -/
def Known (codec : RuntimeCodec) (key : ExecutionRef) (effect : EffectRequest) (events : List LedgerEvent) :
    EffectDisposition → Prop
  | .completed output => ToolRecorded codec key effect (.completed output) events ∨
      Concluded codec key effect events (.completed output)
  | .failed code => ToolRecorded codec key effect (.failed code) events ∨ Concluded codec key effect events (.failed code)
  | .uncertain _ => ToolPrepared events key.executionId effect.effectId ∨ GenericPrepared key effect events
  | .denied code => GenericPrepared key effect events ∧ DenialRecorded key effect events code
  | _ => True

theorem Concluded.grows {events later : List LedgerEvent} (h : Concluded codec key effect events disposition)
    (hpart : events <+: later) : Concluded codec key effect later disposition :=
  ⟨h.1.grows hpart, h.2.imp (·.grows hpart) (·.grows hpart)⟩

theorem Known.grows {events later : List LedgerEvent} (h : Known codec key effect events disposition)
    (hpart : events <+: later) : Known codec key effect later disposition := by
  cases disposition with
  | completed output => exact Or.imp (·.grows hpart) (·.grows hpart) h
  | failed code => exact Or.imp (·.grows hpart) (·.grows hpart) h
  | uncertain text => exact Or.imp (·.grows hpart) (·.grows hpart) h
  | suspended interactionId => trivial
  | denied code => exact And.imp (·.grows hpart) (·.grows hpart) h
  | cancelled => trivial

theorem Concluded.known {events : List LedgerEvent} (h : Concluded codec key effect events disposition) :
    Known codec key effect events disposition := by
  cases disposition with
  | completed output => exact .inr h
  | failed code => exact .inr h
  | uncertain text => exact .inr h.1
  | suspended interactionId => trivial
  | cancelled => trivial
  | denied code =>
    rcases h.2 with htold | ⟨receipt, -, -, -, htells⟩
    · exact absurd htold terminalFrom_denied
    · exact absurd htells receiptDisposition_denied

/-- **The end of an effect that was executed**: its receipt says so. -/
theorem entering_conclude {receipt : EffectReceipt} {expected : ReceiptStatus} {name suffix : String} {outcome : Value}
    {kind : LedgerEventKind} (hcodec : codec.receipt receipt.toValue = .ok receipt) (hsuffix : suffix ∈ outcomes)
    (htells : StatusSays (.object [("receipt", receipt.toValue), (name, outcome)]) disposition expected)
    (hprepared : GenericPrepared key effect (w.events C)) :
    Yields (entering C thread) (conclude key effect grant receipt expected name outcome suffix kind disposition)
      (fun answer w' => Known codec key effect (w'.events C) answer) w := by
  unfold conclude
  refine yields_bind (yields_lift fun _ hstatus => yields_bind (yields_lift fun _ hbound => ?_))
  obtain rfl : receipt.status = expected := not_not.1 (reject_eq_ok.1 hstatus)
  have hbound := reject_eq_ok.1 hbound
  simp only [not_or, not_not] at hbound
  obtain ⟨heffect, -, hinput, -⟩ := hbound
  unfold appendReceipt
  refine yields_bind (yields_bind ((entering_appendOnce fun _ _ event hid _ hkey =>
    mayEnter_fact hid hkey (by decide)).mono ?_))
  rintro saved w₁ ⟨hw₁, hmem, hid, -, hexecution, -, hpayload⟩
  have hreceipt : HasReceipt (w₁.events C) key.executionId effect.effectId :=
    ⟨saved, hmem, hid.trans (effectFact_eq ..), hexecution⟩
  refine yields_pure (yields_bind ((entering_appendOnce fun w₂ hw₂ event hid hexecution hkey =>
    mayEnter_outcome hsuffix hid hexecution hkey (hreceipt.grows hw₂.grows)).mono ?_))
  rintro _ w₂ ⟨hw₂, -⟩
  refine yields_pure (Concluded.known ⟨hprepared.grows (hw₁.grows.trans hw₂.grows), .inr ?_⟩)
  refine ⟨saved, hw₂.grows.subset hmem, hid, hexecution, receiptDisposition_eq_ok.2 ?_⟩
  rw [hpayload]
  exact ⟨receipt, hcodec, hinput, heffect, htells⟩

theorem entering_executed (hcodec : ∀ receipt : EffectReceipt, codec.receipt receipt.toValue = .ok receipt)
    (hprepared : GenericPrepared key effect (w.events C)) (outcome : EffectOutcome) :
    Yields (entering C thread) (executed key effect grant outcome)
      (fun answer w' => Known codec key effect (w'.events C) answer) w := by
  cases outcome with
  | completed receipt output => exact entering_conclude (hcodec receipt) (by decide) ⟨output, rfl, rfl⟩ hprepared
  | failed receipt code => exact entering_conclude (hcodec receipt) (by decide) ⟨code, rfl, rfl⟩ hprepared
  | uncertain receipt text => exact entering_conclude (hcodec receipt) (by decide) ⟨text, rfl, rfl⟩ hprepared

theorem entering_terminalEffect :
    Yields (entering C thread) (terminalEffect codec fuel key effect) (fun found w' => Between C thread w w' ∧
      ∀ disposition, found = some disposition → Told codec key effect disposition (w'.events C)) w := by
  unfold terminalEffect ledgerCall
  refine yields_bind (yields_mapError (((entering_shares C thread).yields_executionEvents (untouched_trans thread)).mono ?_))
  rintro facts w' ⟨-, hw', rfl⟩
  refine yields_lift fun found hfound => ⟨hw', ?_⟩
  rintro disposition rfl
  exact hfound

theorem entering_dispatch (hcodec : ∀ receipt : EffectReceipt, codec.receipt receipt.toValue = .ok receipt)
    (hprepared : GenericPrepared key effect (w.events C)) :
    Yields (entering C thread) (dispatch codec fuel key effect grant)
      (fun answer w' => Known codec key effect (w'.events C) answer) w := by
  unfold dispatch
  refine yields_bind (yields_lift fun _ _ => ?_)
  refine yields_bind ((entering_appendOnce fun _ _ event hid _ hkey => mayEnter_fact hid hkey (by decide)).mono ?_)
  rintro _ w₁ ⟨hw₁, -⟩
  have hstart : Prog.Holds (entering C thread) (appendUnlessCancelled (startedEvent key effect)).run
      (fun _ w' => Between C thread w₁ w') w₁ := by
    intro w₂ hw₂
    replace hw₂ : Between C thread w₁ w₂ := hw₂
    refine ⟨mayEnter_fact rfl rfl (by decide), fun r w₃ hact => ?_⟩
    obtain ⟨-, rfl⟩ := Prod.mk.inj hact
    exact hw₂.trans (between_perform hw₂.sound (.appendUnlessCancelled (startedEvent key effect)))
  refine yields_bind ((yields_attempt hstart).mono fun started w₂ hw₂ => ?_)
  have hprepared₂ := hprepared.grows (hw₁.grows.trans hw₂.grows)
  split
  · refine yields_bind fun w₃ hw₃ => ⟨trivial, fun outcome w₄ hact => ?_⟩
    obtain ⟨-, rfl⟩ := Prod.mk.inj hact
    have hprepared₃ : GenericPrepared key effect (w₃.events C) := hprepared₂.grows (Interference.grows hw₃)
    rintro executed -
    exact entering_executed hcodec (by exact hprepared₃) executed
  · exact yields_pure trivial
  · refine yields_bind (entering_terminalEffect.mono ?_)
    rintro found w₃ ⟨hw₃, hfound⟩
    refine yields_pure ?_
    cases found with
    | none => exact .inr (hprepared₂.grows hw₃.grows)
    | some answer => exact Concluded.known ⟨hprepared₂.grows hw₃.grows, .inl (hfound answer rfl)⟩
  · exact yields_throw

theorem entering_applyPrepared (hcodec : ∀ receipt : EffectReceipt, codec.receipt receipt.toValue = .ok receipt) :
    Yields (entering C thread) (applyPrepared codec fuel key effect)
      (fun answer w' => Known codec key effect (w'.events C) answer) w := by
  unfold applyPrepared
  refine yields_bind ((entering_appendOnce fun _ _ event hid _ hkey => mayEnter_fact hid hkey (by decide)).mono ?_)
  rintro prepared w₁ ⟨-, hmem, hid, hturn, hexecution, hkind, hpayload⟩
  have hprepared : GenericPrepared key effect (w₁.events C) := ⟨prepared, hmem, hid, hturn, hexecution, hkind, hpayload⟩
  refine yields_bind (entering_terminalEffect.mono ?_)
  rintro terminal w₂ ⟨hw₂, hterminal⟩
  split
  · exact yields_pure (Concluded.known ⟨hprepared.grows hw₂.grows, .inl (hterminal _ rfl)⟩)
  refine yields_bind (entering_saved.mono ?_)
  rintro started w₃ ⟨hw₃, -⟩
  have hprepared₃ := hprepared.grows (hw₂.grows.trans hw₃.grows)
  split_ifs
  · exact yields_pure (.inr hprepared₃)
  refine yields_bind fun w₄ hw₄ => ⟨trivial, fun decision w₅ hact => ?_⟩
  obtain ⟨-, rfl⟩ := Prod.mk.inj hact
  replace hprepared₃ := hprepared₃.grows (Interference.grows hw₄)
  rintro decided -
  split
  · rename_i code
    refine yields_bind ((entering_appendOnce fun _ _ event hid _ hkey => mayEnter_fact hid hkey (by decide)).mono ?_)
    rintro denied w₅ ⟨hw₅, hdenied⟩
    exact yields_pure ⟨hprepared₃.grows hw₅.grows, denied, hdenied⟩
  · refine yields_bind ((entering_appendOnce fun _ _ event hid _ hkey => mayEnter_fact hid hkey (by decide)).mono ?_)
    rintro _ w₅ -
    refine yields_bind ((entering_appendOnce fun _ _ event hid hexecution hkey => ?_).mono fun _ _ _ => yields_pure trivial)
    rw [← hexecution, String.append_assoc] at hid
    exact mayEnter_of_start hid hkey (by decide)
  · exact entering_dispatch hcodec (by exact hprepared₃)

theorem entering_recoverReceipt {tool : ToolPreparation codec key effect} {started : Option LedgerEvent}
    (htool : tool.Entered (w.events C)) (hstarted : ∀ event, started = some event → event ∈ w.events C ∧
      checkEvent event key (effectFact key effect.effectId "started") .effectStarted = .ok () ∧
      event.payload = tool.bound.startedPayload) :
    Yields (entering C thread) (recoverReceipt codec key effect tool.bound started)
      (fun answer w' => Known codec key effect (w'.events C) answer) w := by
  unfold recoverReceipt
  refine yields_bind (entering_saved.mono ?_)
  rintro found w' ⟨hw', hfound⟩
  split
  · rename_i receipt
    obtain ⟨hreceipt, -⟩ := hfound receipt rfl
    refine yields_bind (yields_lift fun _ isReceipt => yields_bind (yields_lift fun _ hsome => ?_))
    refine yields_bind (yields_lift fun result proof => yields_pure ?_)
    obtain ⟨event, rfl⟩ := Option.ne_none_iff_exists'.1 (reject_eq_ok.1 hsome)
    obtain ⟨hevent, isStarted, start⟩ := hstarted event rfl
    let record : ToolRecord codec key effect := {
      toToolPreparation := tool
      started := event
      receipt, result, isStarted, start
      isReceipt := mapError_eq_ok.1 isReceipt
      proof := mapError_eq_ok.1 proof }
    have hentered : record.Entered (w'.events C) := ⟨htool.grows hw'.grows, hw'.grows.subset hevent, hreceipt⟩
    have hrecorded : ToolRecorded codec key effect (toolDisposition result) (w'.events C) := ⟨record, hentered, rfl⟩
    cases result with
    | ok output => exact .inl hrecorded
    | error error => exact .inl hrecorded
  · refine yields_pure (.inl ⟨tool.prepared, hw'.grows.subset htool.prepared, ?_, tool.binding⟩)
    exact (eventId_of_checkEvent tool.isPrepared).trans (effectFact_eq ..)

theorem entering_recoverPreparedTool {prepared : LedgerEvent} (hprepared : prepared ∈ w.events C)
    (isPrepared : checkEvent prepared key (effectFact key effect.effectId "prepared") .effectPrepared = .ok ())
    (binding : asStr (field "binding_kind" prepared.payload) = some "prepared_tool_v1") :
    Yields (entering C thread) (recoverPreparedTool codec key effect prepared)
      (fun answer w' => Known codec key effect (w'.events C) answer) w := by
  unfold recoverPreparedTool
  refine yields_bind (entering_saved.mono ?_)
  rintro found w₁ ⟨hw₁, hfound⟩
  refine yields_bind (yields_lift fun identity hidentity => ?_)
  obtain ⟨hidentity, -⟩ := hfound identity (expect_eq_ok.1 hidentity)
  refine yields_bind (yields_lift fun _ isIdentity => yields_bind (yields_lift fun _ execution => ?_))
  refine yields_bind (entering_saved.mono ?_)
  rintro found w₂ ⟨hw₂, hfound⟩
  refine yields_bind (yields_lift fun authorized hauthorized => ?_)
  obtain ⟨hauthorized, -⟩ := hfound authorized (expect_eq_ok.1 hauthorized)
  refine yields_bind (yields_lift fun _ isAuthorized => yields_bind (yields_lift fun bound evidence => ?_))
  refine yields_bind (yields_lift fun _ request => yields_bind (entering_saved.mono ?_))
  rintro started w₃ ⟨hw₃, hstarted⟩
  have hgrows := hw₂.grows.trans hw₃.grows
  obtain ⟨tool, rfl, htool⟩ : ∃ tool : ToolPreparation codec key effect, tool.bound = bound ∧ tool.Entered (w₃.events C) := by
    refine ⟨{
      prepared, identity, authorized, bound, isPrepared, binding
      isIdentity := mapError_eq_ok.1 isIdentity
      execution := not_not.1 (reject_eq_ok.1 execution)
      isAuthorized := mapError_eq_ok.1 isAuthorized
      evidence := mapError_eq_ok.1 evidence
      request := not_not.1 (reject_eq_ok.1 request) }, rfl, ?_⟩
    exact ⟨(hw₁.grows.trans hgrows).subset hprepared, hgrows.subset hidentity, hw₃.grows.subset hauthorized⟩
  dsimp only
  split
  · rename_i event
    refine yields_bind (yields_lift fun _ isStarted => yields_bind (yields_lift fun _ start => ?_))
    refine entering_recoverReceipt htool ?_
    rintro _ ⟨⟩
    exact ⟨(hstarted event rfl).1, mapError_eq_ok.1 isStarted, not_not.1 (reject_eq_ok.1 start)⟩
  · exact entering_recoverReceipt htool fun _ h => by cases h

theorem entering_refuseUnprepared {suffixes : List String} :
    Yields (entering C thread) (refuseUnprepared key effect suffixes) (fun _ _ => True) w := by
  induction suffixes generalizing w with
  | nil => exact yields_pure trivial
  | cons suffix suffixes ih =>
    unfold refuseUnprepared
    exact yields_bind (entering_saved.mono fun _ _ _ => yields_bind (yields_lift fun _ _ => ih))

/-- **An answer of `apply_effect`**, with what is known behind it. -/
structure Answered (C : P.Contract) (codec : RuntimeCodec) (key : ExecutionRef) (effect : EffectRequest)
    (answer : EffectDisposition) (w : World σ EffectHost) : Prop where
  named : key.executionId ≠ ""
  valid : validateEffect effect = .ok ()
  known : Known codec key effect (w.events C) answer

/-- **`apply_effect`.** -/
theorem entering_applyEffect (hcodec : ∀ receipt : EffectReceipt, codec.receipt receipt.toValue = .ok receipt) :
    Yields (entering C thread) (applyEffect codec fuel key effect) (Answered C codec key effect) w := by
  unfold applyEffect
  refine yields_bind (yields_lift fun _ hvalid => ?_)
  unfold status ledgerCall
  refine yields_bind (yields_bind (yields_mapError (((entering_shares C thread).yields_executionEvents
    (untouched_trans thread)).mono ?_)))
  rintro facts w₁ ⟨hnamed, -⟩
  refine yields_pure ?_
  split_ifs
  · exact yields_pure ⟨hnamed, hvalid, trivial⟩
  refine yields_bind (entering_saved.mono ?_)
  rintro prepared w₂ ⟨-, hprepared⟩
  split
  · rename_i prepared
    refine yields_bind (yields_lift fun _ isPrepared => ?_)
    split
    · rename_i binding
      exact (entering_recoverPreparedTool (hprepared prepared rfl).1 (mapError_eq_ok.1 isPrepared) binding).mono
        fun _ _ hknown => ⟨hnamed, hvalid, hknown⟩
    · exact (entering_applyPrepared hcodec).mono fun _ _ hknown => ⟨hnamed, hvalid, hknown⟩
    · exact yields_throw
  · refine yields_bind (entering_refuseUnprepared.mono fun _ w₃ _ => ?_)
    exact (entering_applyPrepared hcodec).mono fun _ _ hknown => ⟨hnamed, hvalid, hknown⟩

/-- The answer of a call, if it is one of `apply_effect`. -/
def CallAnswered (C : P.Contract) (codec : RuntimeCodec) (call : RuntimeCall) (answer : Option EffectDisposition)
    (w : World σ EffectHost) : Prop :=
  match call with
  | .applyEffect _ key effect => ∀ disposition, answer = some disposition → Answered C codec key effect disposition w
  | _ => True

theorem entering_program (hcodec : ∀ receipt : EffectReceipt, codec.receipt receipt.toValue = .ok receipt)
    (call : RuntimeCall) : Yields (entering C thread) (call.program codec) (CallAnswered C codec call) w := by
  cases call with
  | start key =>
    refine yields_bind (yields_bind ((entering_appendOnce fun _ _ event hid hexecution hkey => ?_).mono ?_))
    · rw [← hexecution, ← String.append_empty (s := "/execution-started")] at hid
      exact mayEnter_of_start hid hkey (by decide)
    · exact fun _ _ _ => yields_pure (yields_pure trivial)
  | cancel key =>
    refine yields_bind (yields_bind ((entering_appendOnce fun _ _ event hid hexecution hkey => ?_).mono ?_))
    · rw [← hexecution, ← String.append_empty (s := "/execution-cancelled")] at hid
      exact mayEnter_of_start hid hkey (by decide)
    · exact fun _ _ _ => yields_pure (yields_pure trivial)
  | applyEffect fuel key effect =>
    refine yields_bind ((entering_applyEffect hcodec).mono fun disposition _ h => yields_pure ?_)
    rintro _ ⟨⟩
    exact h

end Entering

end Runtime
end Kolyan
