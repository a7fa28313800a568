/-
# Dispositions that stay

Once the end of an effect is recorded, a call of `apply_effect` for it only reads
(`looking_applyEffect`): it finds the preparation, and behind it the record of the
tool or the receipt that is told, and neither the admission nor the executor is
asked again.
-/

import Kolyan.Execution.Refusals
import Kolyan.Runtime.Dispositions

namespace Kolyan
namespace Runtime

open Checks Threads Fallible Ledger Driver Policy Turn

section Looking

variable {σ : Type} {P : LedgerStore σ} {C : P.Contract} {thread : ℕ} {w : World σ EffectHost}
  {codec : RuntimeCodec} {fuel : ℕ} {key : ExecutionRef} {effect : EffectRequest} {disposition : EffectDisposition}

theorem statusAfter_cancelled {status : Option ExecutionStatus} {kind : LedgerEventKind}
    (h : statusAfter status kind = some .cancelled) : status = some .cancelled ∨ kind = .executionCancelled := by
  unfold statusAfter at h
  split at h
  · exact .inr rfl
  · exact absurd h (by decide)
  · exact absurd h (by decide)
  · exact absurd h (by decide)
  · exact absurd h (by decide)
  · exact absurd h (by decide)
  · exact .inl h

theorem statusFrom_cancelled {events : List LedgerEvent} {status : Option ExecutionStatus}
    (h : statusFrom status events = some .cancelled) :
    status = some .cancelled ∨ ∃ event ∈ events, event.kind = .executionCancelled := by
  induction events generalizing status with
  | nil => exact .inl h
  | cons event events ih =>
    rw [statusFrom] at h
    split_ifs at h with hcancelled
    · exact .inl h
    · rcases ih h with hafter | ⟨other, hother, hkind⟩
      · exact (statusAfter_cancelled hafter).imp_right fun hkind => ⟨event, List.mem_cons_self .., hkind⟩
      · exact .inr ⟨other, List.mem_cons_of_mem _ hother, hkind⟩

theorem looking_saved {event : LedgerEvent} {eventId : String} (hid : eventId ≠ "") (hmem : event ∈ w.events C)
    (hname : event.eventId = eventId) :
    Reads C (looking C thread) (saved eventId) (fun found w' => Between C thread w w' ∧ found = some event) w := by
  unfold saved ledgerCall
  refine reads_mapError (((looking_shares C thread).reads_eventById hid).mono ?_)
  rintro found w' ⟨hw', rfl⟩
  exact ⟨hw', find?_named (C.unique hw'.sound.valid) (hw'.grows.subset hmem) hname⟩

theorem name_ne {suffix : String} (hnamed : key.executionId ≠ "") : key.executionId ++ suffix ≠ "" :=
  fun h => hnamed (String.append_eq_empty_iff.1 h).1

theorem effectFact_ne {effectId suffix : String} (hnamed : key.executionId ≠ "") : effectFact key effectId suffix ≠ "" := by
  rw [effectFact_eq, effectRoot, String.append_assoc, String.append_assoc]
  exact name_ne hnamed

theorem looking_status (hnamed : key.executionId ≠ "") :
    Reads C (looking C thread) (status fuel key) (fun found w' => Between C thread w w' ∧
      (found = some .cancelled → hasCancelled (w'.events C) key.executionId = true)) w := by
  unfold status ledgerCall
  refine reads_bind (reads_mapError (((looking_shares C thread).reads_executionEvents (untouched_trans thread) hnamed).mono ?_))
  rintro facts w' ⟨hw', rfl⟩
  refine reads_pure ⟨hw', fun hcancelled => ?_⟩
  obtain ⟨event, hevent, hkind⟩ := (statusFrom_cancelled hcancelled).resolve_left (by simp)
  obtain ⟨hmem, hexecution⟩ := List.mem_filter.1 hevent
  exact List.any_eq_true.2 ⟨event, hmem, by simp [of_decide_eq_true hexecution, hkind]⟩

theorem looking_recoverPreparedTool (hnamed : key.executionId ≠ "") {record : ToolRecord codec key effect}
    (h : record.Entered (w.events C)) :
    Reads C (looking C thread) (recoverPreparedTool codec key effect record.prepared)
      (fun answer _ => answer = toolDisposition record.result) w := by
  unfold recoverPreparedTool
  refine reads_bind ((looking_saved (name_ne hnamed) h.preparation.identity (eventId_of_checkEvent record.isIdentity)).mono ?_)
  rintro _ w₁ ⟨hw₁, rfl⟩
  refine reads_bind (reads_lift rfl (reads_bind (reads_lift (mapError_eq_ok.2 record.isIdentity) ?_)))
  refine reads_bind (reads_lift (reject_of_not (not_not.2 record.execution)) ?_)
  replace h := h.grows hw₁.grows
  refine reads_bind ((looking_saved (effectFact_ne hnamed) h.preparation.authorized
    (eventId_of_checkEvent record.isAuthorized)).mono ?_)
  rintro _ w₂ ⟨hw₂, rfl⟩
  refine reads_bind (reads_lift rfl (reads_bind (reads_lift (mapError_eq_ok.2 record.isAuthorized) ?_)))
  refine reads_bind (reads_lift (mapError_eq_ok.2 record.evidence) ?_)
  refine reads_bind (reads_lift (reject_of_not (not_not.2 record.request)) ?_)
  replace h := h.grows hw₂.grows
  refine reads_bind ((looking_saved (effectFact_ne hnamed) h.started (eventId_of_checkEvent record.isStarted)).mono ?_)
  rintro _ w₃ ⟨hw₃, rfl⟩
  refine reads_bind (reads_lift (mapError_eq_ok.2 record.isStarted) ?_)
  refine reads_bind (reads_lift (reject_of_not (not_not.2 record.start)) ?_)
  unfold recoverReceipt
  refine reads_bind ((looking_saved (effectFact_ne hnamed) (h.grows hw₃.grows).receipt
    (eventId_of_checkEvent record.isReceipt)).mono ?_)
  rintro _ w₄ ⟨-, rfl⟩
  refine reads_bind (reads_lift (mapError_eq_ok.2 record.isReceipt) ?_)
  refine reads_bind (reads_lift (reject_of_not (by simp)) ?_)
  exact reads_bind (reads_lift (mapError_eq_ok.2 record.proof) (reads_pure rfl))

theorem looking_applyPrepared (hnamed : key.executionId ≠ "") (hprepared : PreparedHere key effect (w.events C))
    (htold : Told codec key effect disposition (w.events C)) :
    Reads C (looking C thread) (applyPrepared codec fuel key effect) (fun answer _ => answer = disposition) w := by
  obtain ⟨prepared, hmem, hcheck, hpayload⟩ := hprepared
  unfold applyPrepared appendOnce
  refine reads_bind (reads_bind ((looking_saved (effectFact_ne hnamed) hmem (eventId_of_checkEvent hcheck)).mono ?_))
  rintro _ w₁ ⟨hw₁, rfl⟩
  refine reads_bind (reads_lift (reject_of_not ?_) (reads_pure ?_))
  · have hcheck := reject_eq_ok.1 hcheck
    simp only [not_or, not_not] at hcheck
    simp [Execution.sameFact, hcheck, hpayload]
  unfold terminalEffect ledgerCall
  refine reads_bind (reads_bind (reads_mapError (((looking_shares C thread).reads_executionEvents
    (untouched_trans thread) hnamed).mono ?_)))
  rintro facts w₂ ⟨hw₂, rfl⟩
  exact reads_lift (htold.grows (hw₁.grows.trans hw₂.grows)) (reads_pure rfl)

/-- **A later call only reads**, and answers what is recorded, unless the execution
was cancelled. -/
theorem looking_applyEffect (hnamed : key.executionId ≠ "") (hvalid : validateEffect effect = .ok ())
    (h : Recorded codec key effect disposition (w.events C)) :
    Reads C (looking C thread) (applyEffect codec fuel key effect) (fun answer w' =>
      hasCancelled (w'.events C) key.executionId = true ∨ answer = disposition) w := by
  unfold applyEffect
  refine reads_bind (reads_lift hvalid (reads_bind ((looking_status hnamed).mono ?_)))
  rintro status w₁ ⟨hw₁, hcancelled⟩
  split_ifs with hstatus
  · exact reads_pure (.inl (hcancelled hstatus))
  rcases h.grows hw₁.grows with ⟨record, hentered, rfl⟩ | ⟨hprepared, htold⟩
  · refine reads_bind ((looking_saved (effectFact_ne hnamed) hentered.preparation.prepared
      (eventId_of_checkEvent record.isPrepared)).mono ?_)
    rintro _ w₂ ⟨hw₂, rfl⟩
    refine reads_bind (reads_lift (mapError_eq_ok.2 record.isPrepared) ?_)
    rw [record.binding]
    exact (looking_recoverPreparedTool hnamed (hentered.grows hw₂.grows)).mono fun _ _ h => .inr h
  · obtain ⟨prepared, hmem, hcheck, hpayload⟩ := hprepared
    refine reads_bind ((looking_saved (effectFact_ne hnamed) hmem (eventId_of_checkEvent hcheck)).mono ?_)
    rintro _ w₂ ⟨hw₂, rfl⟩
    refine reads_bind (reads_lift (mapError_eq_ok.2 hcheck) ?_)
    rw [hpayload, binding_preparedPayload]
    refine (looking_applyPrepared hnamed ?_ (htold.grows hw₂.grows)).mono fun _ _ h => .inr h
    exact ⟨prepared, hw₂.grows.subset hmem, hcheck, hpayload⟩

end Looking

section Ending

variable {σ : Type} {P : LedgerStore σ} {C : P.Contract} {thread fuel : ℕ} {own : ℕ}
  {codec : RuntimeCodec} {key : ExecutionRef} {effect : EffectRequest} {grant : EffectGrant}

/-- A call of an `ExecutionRuntime` that ends alone, and adds no more than its own facts. -/
abbrev CallEnds (C : P.Contract) (thread fuel own : ℕ) {α : Type} (p : RuntimeProg α) : Prop :=
  EndsAlone C portStep thread fuel own p

theorem ends_saved {eventId : String} : CallEnds C thread fuel 0 (saved eventId) := endsAlone_eventById.mapError

theorem ends_appendOnce {eventId : String} {kind : LedgerEventKind} {payload : Value} :
    CallEnds C thread fuel 1 (appendOnce key eventId kind payload) := by
  unfold appendOnce
  refine endsAlone_then ends_saved fun found => ?_
  cases found with
  | some existing => exact endsAlone_then (endsAlone_lift _) fun _ => endsAlone_pure _
  | none => exact endsAlone_append.mapError

theorem ends_facts (reliable : C.Reliable) :
    CallEnds C thread fuel 0 (ledgerCall (executionEventsAfter fuel key.executionId 0)) :=
  (endsAlone_executionEvents reliable).mapError

theorem ends_status (reliable : C.Reliable) : CallEnds C thread fuel 0 (status fuel key) :=
  endsAlone_then (ends_facts reliable) fun _ => endsAlone_pure _

theorem ends_terminalEffect (reliable : C.Reliable) : CallEnds C thread fuel 0 (terminalEffect codec fuel key effect) :=
  endsAlone_then (ends_facts reliable) fun _ => endsAlone_lift _

theorem ends_port {e : EffectPort} {α : Type} {next : Op.Answer EffectPort.Answer (.host e) → Except RuntimeExecutionError α} :
    CallEnds C thread fuel 0 (Fallible.ofProg (.ask (.host e) fun r => .done (next r))) :=
  endsAlone_ask fun _ _ => le_rfl

theorem ends_conclude {receipt : EffectReceipt} {expected : ReceiptStatus} {name suffix : String} {outcome : Value}
    {kind : LedgerEventKind} {disposition : EffectDisposition} :
    CallEnds C thread fuel 2 (conclude key effect grant receipt expected name outcome suffix kind disposition) := by
  refine endsAlone_then (endsAlone_lift _) fun _ => endsAlone_then (endsAlone_lift _) fun _ => ?_
  refine endsAlone_bind 1 1 ?_ (fun _ => ?_) le_rfl
  · exact endsAlone_bind 1 0 ends_appendOnce (fun _ => endsAlone_pure _) le_rfl
  · exact endsAlone_bind 1 0 ends_appendOnce (fun _ => endsAlone_pure _) le_rfl

theorem ends_dispatch (reliable : C.Reliable) : CallEnds C thread fuel 4 (dispatch codec fuel key effect grant) := by
  refine endsAlone_then (endsAlone_lift _) fun _ => endsAlone_bind 1 3 ends_appendOnce (fun _ => ?_) le_rfl
  refine endsAlone_bind 1 2 endsAlone_appendUnlessCancelled.attempt (fun started => ?_) le_rfl
  split
  · refine endsAlone_then ends_port fun outcome => ?_
    cases outcome with
    | completed receipt output => exact ends_conclude
    | failed receipt code => exact ends_conclude
    | uncertain receipt text => exact ends_conclude
  · exact endsAlone_pure _
  · exact endsAlone_then (ends_terminalEffect reliable) fun _ => endsAlone_pure _
  · exact endsAlone_throw _

theorem ends_applyPrepared (reliable : C.Reliable) : CallEnds C thread fuel 5 (applyPrepared codec fuel key effect) := by
  refine endsAlone_bind 1 4 ends_appendOnce (fun _ => endsAlone_then (ends_terminalEffect reliable) fun terminal => ?_) le_rfl
  split
  · exact endsAlone_pure _
  refine endsAlone_then ends_saved fun started => ?_
  split_ifs
  · exact endsAlone_pure _
  refine endsAlone_then ends_port fun decision => ?_
  split
  · exact endsAlone_bind 1 0 ends_appendOnce (fun _ => endsAlone_pure _) (by omega)
  · refine endsAlone_bind 1 1 ends_appendOnce (fun _ => ?_) (by omega)
    exact endsAlone_bind 1 0 ends_appendOnce (fun _ => endsAlone_pure _) le_rfl
  · exact ends_dispatch reliable

theorem ends_recoverReceipt {bound : PreparedEvidence} {started : Option LedgerEvent} :
    CallEnds C thread fuel own (recoverReceipt codec key effect bound started) := by
  refine endsAlone_then ends_saved fun found => ?_
  split
  · refine endsAlone_then (endsAlone_lift _) fun _ => endsAlone_then (endsAlone_lift _) fun _ => ?_
    exact endsAlone_then (endsAlone_lift _) fun _ => endsAlone_pure _
  · exact endsAlone_pure _

theorem ends_recoverPreparedTool {prepared : LedgerEvent} :
    CallEnds C thread fuel own (recoverPreparedTool codec key effect prepared) := by
  refine endsAlone_then ends_saved fun _ => endsAlone_then (endsAlone_lift _) fun _ => ?_
  refine endsAlone_then (endsAlone_lift _) fun _ => endsAlone_then (endsAlone_lift _) fun _ => ?_
  refine endsAlone_then ends_saved fun _ => endsAlone_then (endsAlone_lift _) fun _ => ?_
  refine endsAlone_then (endsAlone_lift _) fun _ => endsAlone_then (endsAlone_lift _) fun _ => ?_
  refine endsAlone_then (endsAlone_lift _) fun _ => endsAlone_then ends_saved fun started => ?_
  cases started with
  | some event =>
    exact endsAlone_then (endsAlone_lift _) fun _ => endsAlone_then (endsAlone_lift _) fun _ => ends_recoverReceipt
  | none => exact ends_recoverReceipt

theorem ends_refuseUnprepared {suffixes : List String} : CallEnds C thread fuel 0 (refuseUnprepared key effect suffixes) := by
  induction suffixes with
  | nil => exact endsAlone_pure _
  | cons suffix suffixes ih =>
    exact endsAlone_then ends_saved fun _ => endsAlone_then (endsAlone_lift _) fun _ => ih

/-- **`apply_effect` ends**, and adds at most the preparation, the authorization, the
start, the receipt and the outcome of the effect. -/
theorem ends_applyEffect (reliable : C.Reliable) : CallEnds C thread fuel 5 (applyEffect codec fuel key effect) := by
  refine endsAlone_then (endsAlone_lift _) fun _ => endsAlone_then (ends_status reliable) fun found => ?_
  split_ifs
  · exact endsAlone_pure _
  refine endsAlone_then ends_saved fun prepared => ?_
  split
  · refine endsAlone_then (endsAlone_lift _) fun _ => ?_
    split
    · exact ends_recoverPreparedTool
    · exact ends_applyPrepared reliable
    · exact endsAlone_throw _
  · exact endsAlone_then ends_refuseUnprepared fun _ => ends_applyPrepared reliable

end Ending

section Refused

variable {σ : Type} {P : LedgerStore σ} {thread fuel : ℕ} {w : World σ EffectHost} {α : Type}
  {codec : RuntimeCodec} {key : ExecutionRef} {effect : EffectRequest}

/-- An admission that fails. -/
def Unavailable (host : EffectHost) : Prop :=
  ∀ key effect, host.env (.decide key effect) = .error (.admission "unavailable")

/-- A call alone, while the admission fails. -/
def refusing (P : LedgerStore σ) (thread : ℕ) :
    Setting (Op EffectPort) (Op.Answer EffectPort.Answer) (World σ EffectHost) where
  act := fun w o r w' => perform P portStep thread w o = (r, w')
  rely := fun _ w => Unavailable w.host
  allow := fun _ _ => True

theorem refusing_any (p : RuntimeProg α) : Yields (refusing P thread) p (fun _ _ => True) w :=
  Prog.holds_of_forall (fun _ _ => trivial) fun _ _ _ _ => trivial

/-- What is answered is no denial. -/
abbrev NotDenied (answer : EffectDisposition) (_ : World σ EffectHost) : Prop := ∀ code, answer ≠ .denied code

theorem refusing_applyPrepared : Yields (refusing P thread) (applyPrepared codec fuel key effect) NotDenied w := by
  unfold applyPrepared
  refine yields_bind ((refusing_any _).mono fun _ w₁ _ => ?_)
  unfold terminalEffect
  refine yields_bind (yields_bind ((refusing_any _).mono fun facts w₂ _ => yields_lift fun terminal hterminal => ?_))
  split
  · refine yields_pure fun code h => ?_
    subst h
    exact terminalFrom_denied hterminal
  refine yields_bind ((refusing_any _).mono fun started w₃ _ => ?_)
  split_ifs
  · exact yields_pure fun _ h => nomatch h
  -- Without a decision the call fails.
  refine yields_bind fun w₄ hw₄ => ⟨trivial, fun decision w₅ hact => ?_⟩
  obtain ⟨rfl, -⟩ := Prod.mk.inj hact
  rintro decided hdecided
  exact absurd ((hw₄ key effect).symm.trans hdecided) (by simp)

theorem refusing_recoverPreparedTool {prepared : LedgerEvent} :
    Yields (refusing P thread) (recoverPreparedTool codec key effect prepared) NotDenied w := by
  have hreceipt : ∀ (bound : PreparedEvidence) (started : Option LedgerEvent) (w : World σ EffectHost),
      Yields (refusing P thread) (recoverReceipt codec key effect bound started) NotDenied w := by
    intro bound started w
    unfold recoverReceipt
    refine yields_bind ((refusing_any _).mono fun found w' _ => ?_)
    split
    · refine yields_bind (yields_lift fun _ _ => yields_bind (yields_lift fun _ _ => yields_bind (yields_lift fun result _ => ?_)))
      refine yields_pure fun code h => ?_
      unfold toolDisposition at h
      split at h
      · cases h
      · cases h
    · exact yields_pure fun _ h => by cases h
  unfold recoverPreparedTool
  refine yields_bind ((refusing_any _).mono fun _ w₁ _ => yields_bind (yields_lift fun _ _ => ?_))
  refine yields_bind (yields_lift fun _ _ => yields_bind (yields_lift fun _ _ => ?_))
  refine yields_bind ((refusing_any _).mono fun _ w₂ _ => yields_bind (yields_lift fun _ _ => ?_))
  refine yields_bind (yields_lift fun _ _ => yields_bind (yields_lift fun bound _ => ?_))
  refine yields_bind (yields_lift fun _ _ => yields_bind ((refusing_any _).mono fun started w₃ _ => ?_))
  dsimp only
  split
  · exact yields_bind (yields_lift fun _ _ => yields_bind (yields_lift fun _ _ => hreceipt _ _ _))
  · exact hreceipt _ _ _

theorem refusing_applyEffect : Yields (refusing P thread) (applyEffect codec fuel key effect) NotDenied w := by
  unfold applyEffect
  refine yields_bind (yields_lift fun _ _ => yields_bind ((refusing_any _).mono fun found w₁ _ => ?_))
  split_ifs
  · exact yields_pure fun _ h => nomatch h
  refine yields_bind ((refusing_any _).mono fun prepared w₂ _ => ?_)
  split
  · refine yields_bind (yields_lift fun _ _ => ?_)
    split
    · exact refusing_recoverPreparedTool
    · exact refusing_applyPrepared
    · exact yields_throw
  · exact yields_bind ((refusing_any _).mono fun _ w₃ _ => refusing_applyPrepared)

end Refused

section Pools

variable {σ : Type} {P : LedgerStore σ} (C : P.Contract) (codec : RuntimeCodec)

/-- What others do: the ports come to answer otherwise, and somebody else enters a
fact, behind its receipt if it ends an effect. -/
inductive Outside : World σ EffectHost → World σ EffectHost → Prop
  | answers (w : World σ EffectHost) (env : (e : EffectPort) → e.Answer) :
    Outside w { w with host := { w.host with env } }
  | commit (w : World σ EffectHost) (event : LedgerEvent) (h : MayEnter (w.events C) event) :
    Outside w { w with store := (P.append w.store event).2 }
  | commitUnlessCancelled (w : World σ EffectHost) (event : LedgerEvent) (h : MayEnter (w.events C) event) :
    Outside w { w with store := (P.appendUnlessCancelled w.store event).2 }

/-- The calls of an `ExecutionRuntime`, on a ledger that others enter facts into. -/
def sharedRules : Pool.Rules (Op EffectPort) (Op.Answer EffectPort.Answer) (World σ EffectHost) RuntimeCall
    (Except RuntimeExecutionError (Option EffectDisposition)) :=
  { runtimeRules C codec with other := Outside C }

/-- A pool of such calls. -/
abbrev CallPool (σ : Type) := Pool (Op EffectPort) (Op.Answer EffectPort.Answer) (World σ EffectHost) RuntimeCall
  (Except RuntimeExecutionError (Option EffectDisposition))

/-- A valid ledger that no call has been at, and whose facts were entered in order. -/
structure Begun (w : World σ EffectHost) : Prop where
  valid : C.Valid w.store
  chronicle : Chronicle MayEnter (w.events C)
  authors : w.authors = []
  log : w.host.log = []

/-- What every run keeps. -/
structure InOrder (calls : ℕ) (w : World σ EffectHost) : Prop where
  sound : w.Sound C
  chronicle : Chronicle MayEnter (w.events C)
  threads : ∀ x ∈ w.host.log, x.thread < calls

variable {C} {codec} {calls thread : ℕ} {w w' : World σ EffectHost}

theorem Begun.inOrder (h : Begun C w) : InOrder C 0 w where
  sound := by
    obtain ⟨store, host, authors⟩ := w
    obtain rfl : authors = [] := h.authors
    exact World.Sound.start h.valid host
  chronicle := h.chronicle
  threads := by simp [h.log]

theorem MayEnter.saved {events : List LedgerEvent} {event : LedgerEvent} {cursor : ℕ} (h : MayEnter events event) :
    MayEnter events { event with cursor } := ⟨h.keyed, h.ended⟩

theorem chronicle_appended {events later : List LedgerEvent} {event : LedgerEvent} {r : Except LedgerError LedgerEvent}
    (h : Chronicle MayEnter events) (hevent : MayEnter events event) (happended : Appended events event later r) :
    Chronicle MayEnter later := by
  cases happended with
  | refused error => exact h
  | committed cursor hfresh => exact h.snoc hevent.saved
  | ambiguous cursor message hfresh => exact h.snoc hevent.saved

theorem InOrder.perform (h : InOrder C calls w) (hthread : thread < calls) {o : Op EffectPort} (hask : entersOnly C w o) :
    InOrder C calls (perform P portStep thread w o).2 := by
  obtain ⟨hsound, -, -⟩ := h.sound.perform portStep thread o
  match o with
  | .ledger (.query q) =>
    refine ⟨hsound, ?_, h.threads⟩
    show Chronicle MayEnter (C.events (P.query w.store q).2)
    rw [(C.query_frame h.sound.valid q).2]
    exact h.chronicle
  | .ledger (.append event) =>
    exact ⟨hsound, chronicle_appended h.chronicle hask (C.append_spec h.sound.valid event).2, h.threads⟩
  | .ledger (.appendUnlessCancelled event) =>
    exact ⟨hsound, chronicle_appended h.chronicle hask (C.admission_spec h.sound.valid event).2.1, h.threads⟩
  | .host (.decide key effect) => exact ⟨hsound, h.chronicle, h.threads⟩
  | .host (.execute key effect grant) =>
    refine ⟨hsound, h.chronicle, fun x hx => ?_⟩
    rcases List.mem_append.1 hx with hx | hx
    · exact h.threads x hx
    · obtain rfl := List.mem_singleton.1 hx
      exact hthread

theorem Outside.harmless (h : Outside C w w') (hw : InOrder C calls w) :
    InOrder C calls w' ∧ ∀ thread, Between C thread w w' := by
  cases h with
  | answers env =>
    have hsound : World.Sound C { w with host := { w.host with env } } :=
      ⟨hw.sound.valid, hw.sound.authored, hw.sound.single⟩
    exact ⟨⟨hsound, hw.chronicle, hw.threads⟩,
      fun _ => ⟨hsound, List.prefix_rfl, fun _ _ => .inr trivial, List.prefix_rfl, rfl⟩⟩
  | commit event hmay =>
    obtain ⟨hvalid, happended⟩ := C.append_spec hw.sound.valid event
    have hsound := hw.sound.grow hvalid happended.grows
    exact ⟨⟨hsound, chronicle_appended hw.chronicle hmay happended, hw.threads⟩,
      fun _ => ⟨hsound, happended.grows, fun _ _ => .inr trivial, List.prefix_rfl, rfl⟩⟩
  | commitUnlessCancelled event hmay =>
    obtain ⟨hvalid, happended, -⟩ := C.admission_spec hw.sound.valid event
    have hsound := hw.sound.grow hvalid happended.grows
    exact ⟨⟨hsound, chronicle_appended hw.chronicle hmay happended, hw.threads⟩,
      fun _ => ⟨hsound, happended.grows, fun _ _ => .inr trivial, List.prefix_rfl, rfl⟩⟩

/-- A program of a call. -/
abbrev CallProg := Prog (Op EffectPort) (Op.Answer EffectPort.Answer) (Except RuntimeExecutionError (Option EffectDisposition))

/-- A call on its way, with what is to be known behind its answer. -/
abbrev OnItsWay (C : P.Contract) (codec : RuntimeCodec) (thread : ℕ) (call : RuntimeCall) (p : CallProg)
    (w : World σ EffectHost) : Prop :=
  Prog.Holds (entering C thread) p (fun r w => ∀ answer, r = .ok answer → CallAnswered C codec call answer w) w

theorem CallAnswered.grows {call : RuntimeCall} {answer : Option EffectDisposition} (h : CallAnswered C codec call answer w)
    (hgrows : w.events C <+: w'.events C) : CallAnswered C codec call answer w' := by
  cases call with
  | start key => trivial
  | cancel key => trivial
  | applyEffect fuel key effect =>
    intro disposition hdisposition
    obtain ⟨hnamed, hvalid, hknown⟩ := h disposition hdisposition
    exact ⟨hnamed, hvalid, hknown.grows hgrows⟩

theorem OnItsWay.survives {call : RuntimeCall} {p : CallProg} (h : OnItsWay C codec thread call p w)
    (hw : Between C thread w w') : OnItsWay C codec thread call p w' :=
  Prog.Holds.survives (fun _ _ _ => Between.trans) (fun _ _ _ h hw answer hanswer => (h answer hanswer).grows hw.grows) h hw

theorem shared_keeps (hcodec : ∀ receipt : EffectReceipt, codec.receipt receipt.toValue = .ok receipt) :
    Pool.Keeps (sharedRules C codec) (InOrder C) (OnItsWay C codec) where
  starts := fun _ call _ h _ =>
    ⟨⟨h.sound, h.chronicle, fun x hx => Nat.lt_succ_of_lt (h.threads x hx)⟩, entering_program hcodec call⟩
  own := by
    intro n i call o next a w w' h hi hon hact
    obtain ⟨hask, hnext⟩ := Prog.Holds.step (Between.refl h.sound) hon
    have hworld := h.perform hi hask
    obtain ⟨rfl, rfl⟩ := Prod.mk.inj hact
    exact ⟨hworld, hnext _ _ rfl⟩
  harmless := by
    intro n i j call other o next p a w w' hij h hon hact hother
    obtain ⟨rfl, rfl⟩ := Prod.mk.inj hact
    exact hother.survives (between_others hij h.sound o)
  other := by
    intro n w w' h houtside
    obtain ⟨hworld, hbetween⟩ := Outside.harmless houtside h
    exact ⟨hworld, fun i call p hp => hp.survives (hbetween i)⟩

variable (C codec) (key : ExecutionRef) (effect : EffectRequest) (disposition : EffectDisposition)

/-- What a later call of the effect may answer. -/
def Settled (r : Except RuntimeExecutionError (Option EffectDisposition)) (w : World σ EffectHost) : Prop :=
  (C.Reliable → ∃ answer, r = .ok answer) ∧ ∀ answer, r = .ok answer →
    hasCancelled (w.events C) key.executionId = true ∨ answer = some disposition

/-- A later call of the effect, which only reads. -/
structure Reading (thread : ℕ) (p : CallProg) (w : World σ EffectHost) : Prop where
  looks : Prog.Holds (looking C thread) p (Settled C key disposition) w
  idle : w.host.log.filter (·.thread = thread) = []

/-- The world of the later calls, from the first of them on. -/
structure Closed (first calls : ℕ) (w : World σ EffectHost) : Prop extends InOrder C calls w where
  later : first ≤ calls
  recorded : Recorded codec key effect disposition (w.events C)

/-- A call that is on its way, and only reads if it is a later one of the effect. -/
structure Follows (first thread : ℕ) (call : RuntimeCall) (p : CallProg) (w : World σ EffectHost) : Prop where
  onItsWay : OnItsWay C codec thread call p w
  reading : first ≤ thread → ∀ fuel, call = .applyEffect fuel key effect → Reading C key disposition thread p w

variable {C codec key effect disposition} {first : ℕ}

theorem Settled.grows {r : Except RuntimeExecutionError (Option EffectDisposition)} (h : Settled C key disposition r w)
    (hgrows : w.events C <+: w'.events C) : Settled C key disposition r w' := by
  refine ⟨h.1, fun answer hanswer => (h.2 answer hanswer).imp_left fun hcancelled => ?_⟩
  obtain ⟨event, hevent, hof⟩ := List.any_eq_true.1 hcancelled
  exact List.any_eq_true.2 ⟨event, hgrows.subset hevent, hof⟩

theorem Reading.survives {p : CallProg} (h : Reading C key disposition thread p w) (hw : Between C thread w w') :
    Reading C key disposition thread p w' where
  looks := Prog.Holds.survives (fun _ _ _ => Between.trans) (fun _ _ _ h hw => h.grows (Interference.grows hw)) h.looks hw
  idle := Eq.trans hw.host h.idle

theorem reading_program {fuel : ℕ} (hnamed : key.executionId ≠ "") (hvalid : validateEffect effect = .ok ())
    (hrecorded : Recorded codec key effect disposition (w.events C)) :
    Prog.Holds (looking C thread) ((RuntimeCall.applyEffect fuel key effect).program codec).run
      (Settled C key disposition) w := by
  refine reads_bind (Q := fun answer w => hasCancelled (w.events C) key.executionId = true ∨ answer = some disposition)
    ((looking_applyEffect hnamed hvalid hrecorded).mono ?_)
  rintro answer w' hanswer
  exact reads_pure (hanswer.imp_right (congrArg some))

theorem perform_reads (hw : w.Sound C) {o : Op EffectPort} (ho : o.reads) :
    (perform P portStep thread w o).2.events C = w.events C ∧ (perform P portStep thread w o).2.host = w.host := by
  match o, ho with
  | .ledger (.query q), _ => exact ⟨(C.query_frame hw.valid q).2, rfl⟩

/-- **Every step keeps what is recorded, and the later calls reading.** -/
theorem closed_keeps (hcodec : ∀ receipt : EffectReceipt, codec.receipt receipt.toValue = .ok receipt)
    (hnamed : key.executionId ≠ "") (hvalid : validateEffect effect = .ok ()) :
    Pool.Keeps (sharedRules C codec) (Closed C codec key effect disposition first)
      (Follows C codec key effect disposition first) where
  starts := by
    intro n call w h hstarts
    obtain ⟨hworld, hon⟩ := (shared_keeps hcodec).starts n call w h.toInOrder hstarts
    refine ⟨⟨hworld, Nat.le_succ_of_le h.later, h.recorded⟩, hon, ?_⟩
    rintro - fuel rfl
    refine ⟨reading_program hnamed hvalid h.recorded, List.filter_eq_nil_iff.2 fun x hx => ?_⟩
    have := h.threads x hx
    simp only [decide_eq_true_eq]
    omega
  own := by
    intro n i call o next a w w' h hi hfollows hact
    obtain ⟨hworld, hon⟩ := (shared_keeps hcodec).own n i call o next a w w' h.toInOrder hi hfollows.onItsWay hact
    obtain ⟨rfl, rfl⟩ := Prod.mk.inj hact
    have hgrows := (h.sound.perform portStep i o).2.1
    refine ⟨⟨hworld, h.later, h.recorded.grows hgrows⟩, hon, fun hfirst fuel hcall => ?_⟩
    obtain ⟨hlooks, hidle⟩ := hfollows.reading hfirst fuel hcall
    obtain ⟨hreads, hnext⟩ := hlooks.step (Between.refl h.sound)
    have hhost : (perform P portStep i w o).2.host = w.host := (perform_reads h.sound hreads).2
    exact ⟨hnext _ _ rfl, (congrArg (fun host => host.log.filter (·.thread = i)) hhost).trans hidle⟩
  harmless := by
    intro n i j call other o next p a w w' hij h hfollows hact hother
    obtain ⟨rfl, rfl⟩ := Prod.mk.inj hact
    have hbetween := between_others hij h.sound o
    exact ⟨hother.onItsWay.survives hbetween, fun hfirst fuel hcall => (hother.reading hfirst fuel hcall).survives hbetween⟩
  other := by
    intro n w w' h houtside
    obtain ⟨hworld, hbetween⟩ := Outside.harmless houtside h.toInOrder
    refine ⟨⟨hworld, h.later, h.recorded.grows (hbetween 0).grows⟩, fun i call p hp => ?_⟩
    exact ⟨hp.onItsWay.survives (hbetween i),
      fun hfirst fuel hcall => (hp.reading hfirst fuel hcall).survives (hbetween i)⟩

variable (C codec key effect disposition)

/-- **A disposition stays.**  However the pool goes on, as long as the execution is not
cancelled every later call of the effect that answers answers the same, none executes
anything, and one that is left alone does answer. -/
structure Stays (pool : CallPool σ) : Prop where
  answers : ∀ later, Pool.Run (sharedRules C codec) pool later → ∀ (j fuel : ℕ)
    (answer : Except RuntimeExecutionError (Option EffectDisposition)), pool.calls.length ≤ j →
    later.calls[j]? = some (.applyEffect fuel key effect, .done answer) →
    hasCancelled (later.world.events C) key.executionId = false → answer = .ok (some disposition)
  executes : ∀ later, Pool.Run (sharedRules C codec) pool later → ∀ (j fuel : ℕ) (p : CallProg), pool.calls.length ≤ j →
    later.calls[j]? = some (.applyEffect fuel key effect, p) → ∀ x ∈ later.world.host.log, x.thread ≠ j
  returns : ∀ later, Pool.Run (sharedRules C codec) pool later →
    hasCancelled (later.world.events C) key.executionId = false → ∀ fuel thread : ℕ,
    (later.world.events C).length + 5 < fuel → ∃ w, ((RuntimeCall.applyEffect fuel key effect).program codec).run.run
      (perform P portStep thread) later.world = some (.ok (some disposition), w)

variable {C codec key effect disposition} {pool : CallPool σ}

theorem returns_recorded (reliable : C.Reliable) (hw : w.Sound C) (hnamed : key.executionId ≠ "")
    (hvalid : validateEffect effect = .ok ()) (hrecorded : Recorded codec key effect disposition (w.events C))
    (hcancelled : hasCancelled (w.events C) key.executionId = false) {fuel : ℕ} (hfuel : (w.events C).length + 5 < fuel) :
    ∃ w', ((RuntimeCall.applyEffect fuel key effect).program codec).run.run (perform P portStep thread) w =
      some (.ok (some disposition), w') := by
  have hends : CallEnds C thread fuel 5 ((RuntimeCall.applyEffect fuel key effect).program codec) :=
    endsAlone_bind 5 0 (ends_applyEffect reliable) (fun _ => endsAlone_pure _) le_rfl
  obtain ⟨r, w', hrun⟩ := hends.runs hw hfuel
  have hreads : Prog.Holds (looking C thread) ((RuntimeCall.applyEffect fuel key effect).program codec).run
      (Settled C key disposition) w := reading_program hnamed hvalid hrecorded
  obtain ⟨⟨hanswers, hsame⟩, -, hevents⟩ := hreads.runs
    (fun (s : World σ EffectHost) (hs : s.Sound C ∧ s.events C = w.events C) => Between.refl hs.1)
    (fun s o hs ho => ⟨rfl, (hs.1.perform portStep thread o).1, (perform_reads hs.1 ho).1.trans hs.2⟩) ⟨hw, rfl⟩ hrun
  obtain ⟨answer, rfl⟩ := hanswers reliable
  rw [hevents] at hsame
  rcases hsame answer rfl with hcancel | rfl
  · exact absurd (hcancelled.symm.trans hcancel) (by decide)
  · exact ⟨w', hrun⟩

theorem stays_of_recorded (reliable : C.Reliable)
    (hcodec : ∀ receipt : EffectReceipt, codec.receipt receipt.toValue = .ok receipt)
    (hpool : Pool.Holds (InOrder C) (OnItsWay C codec) pool) (hnamed : key.executionId ≠ "")
    (hvalid : validateEffect effect = .ok ()) (hrecorded : Recorded codec key effect disposition (pool.world.events C)) :
    Stays C codec key effect disposition pool := by
  have hstart : Pool.Holds (Closed C codec key effect disposition pool.calls.length)
      (Follows C codec key effect disposition pool.calls.length) pool := by
    refine ⟨⟨hpool.world, le_rfl, hrecorded⟩, fun i call p hi => ⟨hpool.calls i call p hi, fun hfirst => ?_⟩⟩
    have := (List.getElem?_eq_some_iff.1 hi).1
    omega
  have hlater : ∀ later, Pool.Run (sharedRules C codec) pool later →
      Pool.Holds (Closed C codec key effect disposition pool.calls.length)
        (Follows C codec key effect disposition pool.calls.length) later :=
    fun _ hrun => hstart.run (closed_keeps hcodec hnamed hvalid) hrun
  refine ⟨fun later hrun j fuel answer hj hcall hcancelled => ?_, fun later hrun j fuel p hj hcall x hx => ?_,
    fun later hrun hcancelled fuel thread hfuel => ?_⟩
  · obtain ⟨hanswers, hsame⟩ := (((hlater later hrun).calls j _ _ hcall).reading hj fuel rfl).looks
    obtain ⟨answered, rfl⟩ := hanswers reliable
    exact congrArg Except.ok ((hsame answered rfl).resolve_left (by simp [hcancelled]))
  · have hidle := (((hlater later hrun).calls j _ _ hcall).reading hj fuel rfl).idle
    exact of_decide_eq_false (Bool.not_eq_true _ ▸ List.filter_eq_nil_iff.1 hidle x hx)
  · have hworld := (hlater later hrun).world
    exact returns_recorded reliable hworld.sound hnamed hvalid hworld.recorded hcancelled hfuel

/-- The dispositions that say that an effect has ended: it is completed or failed, it
is denied, or its receipt says that its outcome is uncertain. -/
def Final (codec : RuntimeCodec) (key : ExecutionRef) (effect : EffectRequest) (events : List LedgerEvent) :
    EffectDisposition → Prop
  | .completed _ | .failed _ | .denied _ => True
  | .uncertain text => ReceiptSays codec key effect events (.uncertain text) ∧
      ¬ToolPrepared events key.executionId effect.effectId
  | .suspended _ | .cancelled => False

theorem Concluded.recorded {events : List LedgerEvent} (hchronicle : Chronicle MayEnter events)
    (hunique : (events.map (·.eventId)).Nodup) (h : Concluded codec key effect events disposition) :
    Recorded codec key effect disposition events := by
  refine .inr ⟨h.1.here hchronicle, ?_⟩
  rcases h.2 with htold | htells
  · exact htold
  · exact htells.told hchronicle hunique (h.1.not_tool hunique)

theorem Known.recorded {events : List LedgerEvent} (hchronicle : Chronicle MayEnter events)
    (hunique : (events.map (·.eventId)).Nodup) (h : Known codec key effect events disposition)
    (hfinal : Final codec key effect events disposition) (hnot : ∀ code, disposition ≠ .denied code) :
    Recorded codec key effect disposition events := by
  cases disposition with
  | completed output => exact Or.elim h .inl fun h => h.recorded hchronicle hunique
  | failed code => exact Or.elim h .inl fun h => h.recorded hchronicle hunique
  | uncertain text => exact Concluded.recorded hchronicle hunique ⟨Or.resolve_left h hfinal.2, .inr hfinal.1⟩
  | suspended interactionId => exact hfinal.elim
  | denied code => exact absurd rfl (hnot code)
  | cancelled => exact hfinal.elim

/-- **A denial does not stay**: where the admission fails, a later call does not deny. -/
theorem not_stays_denied {code : String}
    (hcancelled : hasCancelled (pool.world.events C) key.executionId = false) :
    ¬Stays C codec key effect (.denied code) pool := by
  intro h
  let env : (e : EffectPort) → e.Answer := fun e => EffectPort.casesOn (motive := EffectPort.Answer) e
    (fun _ _ => .error (.admission "unavailable")) fun _ _ _ => .error (.executor "unavailable")
  have hstep : Pool.Run (sharedRules C codec) pool { pool with world.host.env := env } :=
    .single (.other (Outside.answers pool.world env))
  obtain ⟨w, hrun⟩ := h.returns _ hstep hcancelled ((pool.world.events C).length + 6) 0 (by
    show (pool.world.events C).length + 5 < _
    omega)
  have hrefused : Yields (refusing P 0) ((RuntimeCall.applyEffect ((pool.world.events C).length + 6) key effect).program codec)
      (fun answer _ => ∀ code, answer ≠ some (.denied code)) { pool.world with host := { pool.world.host with env } } :=
    yields_bind (refusing_applyEffect.mono fun answer _ hanswer =>
      yields_pure fun code h => hanswer code (Option.some.inj h))
  have hkeeps : ∀ (s : World σ EffectHost) (o : Op EffectPort), Unavailable s.host →
      Unavailable (perform P portStep 0 s o).2.host := by
    intro s o hs
    cases o with
    | ledger o => cases o <;> exact hs
    | host e => cases e <;> exact hs
  exact (hrefused.runs (fun _ hs => hs) (fun s o hs _ => ⟨rfl, hkeeps s o hs⟩) (fun _ _ => rfl) hrun).1 _ rfl code rfl

/-- **Final dispositions stay, if they are recorded.**  When a call of `apply_effect` has
answered that its effect is completed, failed, uncertain by its receipt or denied, and
the execution is not cancelled, the answer stays whatever the admission comes to answer
if and only if the ledger holds the facts that it is read back from; which is so of every
such answer but a denial. -/
theorem dispositions_stay (reliable : C.Reliable)
    (hcodec : ∀ receipt : EffectReceipt, codec.receipt receipt.toValue = .ok receipt)
    (h : Pool.Reach (sharedRules C codec) (Begun C) pool) {i fuel : ℕ}
    (hi : pool.calls[i]? = some (.applyEffect fuel key effect, .done (.ok (some disposition))))
    (hfinal : Final codec key effect (pool.world.events C) disposition)
    (hcancelled : hasCancelled (pool.world.events C) key.executionId = false) :
    (Stays C codec key effect disposition pool ↔ Recorded codec key effect disposition (pool.world.events C)) ∧
      (Recorded codec key effect disposition (pool.world.events C) ↔ ∀ code, disposition ≠ .denied code) := by
  have hpool := h.invariant (shared_keeps hcodec) fun _ hw => Begun.inOrder hw
  obtain ⟨hnamed, hvalid, hknown⟩ := hpool.calls i _ _ hi _ rfl disposition rfl
  have hrecorded : Recorded codec key effect disposition (pool.world.events C) ↔ ∀ code, disposition ≠ .denied code := by
    refine ⟨?_, hknown.recorded hpool.world.chronicle (C.unique hpool.world.sound.valid) hfinal⟩
    rintro hrecorded code rfl
    exact not_recorded_denied hrecorded
  refine ⟨⟨fun hstays => hrecorded.2 ?_, stays_of_recorded reliable hcodec hpool hnamed hvalid⟩, hrecorded⟩
  rintro code rfl
  exact not_stays_denied hcancelled hstays

end Pools

section Denied

def readText (name : String) (v : Value) : Except String String := expect (asStr (field name v)) ("no " ++ name)

def readStatus : Value → Except String ReceiptStatus
  | .string "Completed" => .ok .completed
  | .string "Failed" => .ok .failed
  | .string "Uncertain" => .ok .uncertain
  | _ => .error "no status"

def readReceipt (v : Value) : Except String EffectReceipt := do
  return {
    receiptId := ← readText "receipt_id" v
    effectId := ← readText "effect_id" v
    authorizationId := ← readText "authorization_id" v
    inputDigest := ← readText "input_digest" v
    executorId := ← readText "executor_id" v
    executorRevision := ← readText "executor_revision" v
    resultDigest := ← readText "result_digest" v
    status := ← readStatus (field "status" v) }

theorem readReceipt_toValue (receipt : EffectReceipt) : readReceipt receipt.toValue = .ok receipt := by
  obtain ⟨receiptId, effectId, authorizationId, inputDigest, executorId, executorRevision, resultDigest, status⟩ := receipt
  cases status <;> rfl

def readCodec : RuntimeCodec := { racedCodec with receipt := readReceipt }

def denyingPorts : EffectHost where
  env
    | .decide _ _ => .ok (.deny "no")
    | .execute _ _ _ => .error (.executor "unavailable")
  log := []

def calledAgain (pool : CallPool LedgerState) (env : (e : EffectPort) → e.Answer) : CallPool LedgerState where
  world := { pool.world with host := { pool.world.host with env } }
  calls := pool.calls ++ [(.applyEffect 2 racedKey racedRequest,
    ((RuntimeCall.applyEffect 2 racedKey racedRequest).program readCodec).run)]

def answered (disposition : EffectDisposition) : RuntimeCall × CallProg → Bool
  | (.applyEffect 2 key effect, .done (.ok (some answer))) =>
    key = racedKey && effect = racedRequest && answer = disposition
  | _ => false

theorem eq_of_answered {disposition : EffectDisposition} {call : RuntimeCall × CallProg}
    (h : answered disposition call = true) :
    call = (.applyEffect 2 racedKey racedRequest, .done (.ok (some disposition))) := by
  unfold answered at h
  split at h
  · simp only [Bool.and_eq_true, decide_eq_true_eq] at h
    obtain ⟨⟨rfl, rfl⟩, rfl⟩ := h
    rfl
  · exact nomatch h

def emptyPool (host : EffectHost) : CallPool LedgerState := ⟨⟨LedgerState.empty, host, []⟩, []⟩

theorem reach_empty {host : EffectHost} (hlog : host.log = []) :
    Pool.Reach (sharedRules inMemoryContract readCodec) (Begun inMemoryContract) (emptyPool host) :=
  .initial ⟨LedgerState.ordered_empty, chronicle_nil, rfl, hlog⟩

theorem run_calledAgain (pool : CallPool LedgerState) (env : (e : EffectPort) → e.Answer) :
    Pool.Run (sharedRules inMemoryContract readCodec) pool (calledAgain pool env) :=
  .tail (.single (.other (.answers pool.world env))) (.call trivial)

/-- **A denial is reconsidered.**  The first call is denied; then the admission grants the
same effect, and the second call executes and completes it. -/
theorem dispositions_stay_denied : ∃ pool later : CallPool LedgerState,
    Pool.Reach (sharedRules inMemoryContract readCodec) (Begun inMemoryContract) pool ∧
      Pool.Run (sharedRules inMemoryContract readCodec) pool later ∧
      hasCancelled (later.world.events inMemoryContract) "e" = false ∧
      pool.calls[0]? = some (.applyEffect 2 racedKey racedRequest, .done (.ok (some (.denied "no")))) ∧
      later.calls[1]? = some (.applyEffect 2 racedKey racedRequest, .done (.ok (some (.completed (.string "done"))))) ∧
      (executions later.world "e" "f").length = 1 := by
  have hran : ((calledAgain (emptyPool denyingPorts) denyingPorts.env).schedule (perform inMemoryLedger portStep)
      (List.replicate 12 0)).any (fun pool => pool.calls[0]?.any (answered (.denied "no")) &&
        ((calledAgain pool racedPorts.env).schedule (perform inMemoryLedger portStep) (List.replicate 14 1)).any fun later =>
          hasCancelled (later.world.events inMemoryContract) "e" = false &&
            later.calls[1]?.any (answered (.completed (.string "done"))) &&
              (executions later.world "e" "f").length = 1) = true := by decide +kernel
  obtain ⟨pool, hpool, hcheck⟩ := (Option.any_eq_true _ _).1 hran
  obtain ⟨hfirst, hrest⟩ := Bool.and_eq_true_iff.1 hcheck
  obtain ⟨later, hlater, hcheck⟩ := (Option.any_eq_true _ _).1 hrest
  simp only [Bool.and_eq_true, decide_eq_true_eq] at hcheck
  obtain ⟨⟨hcancelled, hsecond⟩, hlength⟩ := hcheck
  obtain ⟨first, hcall, hanswer⟩ := (Option.any_eq_true _ _).1 hfirst
  obtain ⟨second, hcall', hanswer'⟩ := (Option.any_eq_true _ _).1 hsecond
  refine ⟨pool, later, ?_, ?_, hcancelled, ?_, ?_, hlength⟩
  · exact ((reach_empty rfl).run (run_calledAgain _ _)).schedule (fun _ _ _ => rfl) hpool
  · exact (run_calledAgain pool racedPorts.env).trans (Pool.Run.schedule (fun _ _ _ => rfl) hlater)
  · rw [hcall, eq_of_answered hanswer]
  · rw [hcall', eq_of_answered hanswer']

/-- A completion stays. -/
theorem dispositions_stay_completed : ∃ pool : CallPool LedgerState,
    Pool.Reach (sharedRules inMemoryContract readCodec) (Begun inMemoryContract) pool ∧
      pool.calls[0]? = some (.applyEffect 2 racedKey racedRequest, .done (.ok (some (.completed (.string "done"))))) ∧
      Stays inMemoryContract readCodec racedKey racedRequest (.completed (.string "done")) pool := by
  have hran : ((calledAgain (emptyPool racedPorts) racedPorts.env).schedule (perform inMemoryLedger portStep)
      (List.replicate 18 0)).any (fun pool => hasCancelled (pool.world.events inMemoryContract) "e" = false &&
        pool.calls[0]?.any (answered (.completed (.string "done")))) = true := by decide +kernel
  obtain ⟨pool, hpool, hcheck⟩ := (Option.any_eq_true _ _).1 hran
  obtain ⟨hcancelled, hfirst⟩ := Bool.and_eq_true_iff.1 hcheck
  obtain ⟨first, hcall, hanswer⟩ := (Option.any_eq_true _ _).1 hfirst
  have hreach : Pool.Reach (sharedRules inMemoryContract readCodec) (Begun inMemoryContract) pool :=
    ((reach_empty rfl).run (run_calledAgain _ _)).schedule (fun _ _ _ => rfl) hpool
  rw [eq_of_answered hanswer] at hcall
  obtain ⟨hstays, hrecorded⟩ := dispositions_stay Execution.inMemory_reliable readReceipt_toValue hreach hcall trivial
    (of_decide_eq_true hcancelled)
  exact ⟨pool, hreach, hcall, hstays.2 (hrecorded.2 fun _ h => nomatch h)⟩

end Denied

end Runtime
end Kolyan
