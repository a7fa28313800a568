/-
# Generic effects, at most once

Any number of `apply_effect`, `start` and `cancel` calls run on one ledger,
operation by operation, whatever the admission and the executor answer; a process
that crashes leaves its call where it stands.  Only the call whose append of the
`EffectStarted` fact succeeds goes on to the executor, and the fact has one author,
so an effect is executed at most once (`generic_effects_once`).  Two dispatchers may
still read the facts of one effect while the other writes them: a completion is read
back as one only behind its receipt, which is `Grounded`, a condition on the ledger
that every append of a call keeps.
-/

import Kolyan.Driver.Effects
import Kolyan.Lib.Pools
import Kolyan.Runtime.Execution

namespace Kolyan
namespace Runtime

open Checks Threads Fallible Ledger Driver Policy Turn

section Facts

theorem append_ne_of_ends {x y s t : String} (hs : ¬s.toList <:+ t.toList) (ht : ¬t.toList <:+ s.toList) :
    x ++ s ≠ y ++ t := by
  intro h
  have hlist : x.toList ++ s.toList = y.toList ++ t.toList := by rw [← String.toList_append, h, String.toList_append]
  rcases List.suffix_or_suffix_of_suffix ⟨_, rfl⟩ ⟨_, hlist.symm⟩ with hsuffix | hsuffix
  · exact hs hsuffix
  · exact ht hsuffix

theorem append_ne_of_starts {a s t x y : String} (hs : ¬s.toList <+: t.toList) (ht : ¬t.toList <+: s.toList) :
    a ++ (s ++ x) ≠ a ++ (t ++ y) := by
  intro h
  rw [String.append_right_inj] at h
  have hlist : s.toList ++ x.toList = t.toList ++ y.toList := by rw [← String.toList_append, h, String.toList_append]
  rcases List.prefix_or_prefix_of_prefix ⟨_, rfl⟩ ⟨_, hlist.symm⟩ with hprefix | hprefix
  · exact hs hprefix
  · exact ht hprefix

theorem effectFact_eq (key : ExecutionRef) (effectId suffix : String) :
    effectFact key effectId suffix = effectRoot key.executionId effectId ++ ("/" ++ suffix) :=
  String.append_assoc ..

/-- The receipt of an effect is in the ledger. -/
def HasReceipt (events : List LedgerEvent) (executionId effectId : String) : Prop :=
  ∃ receipt ∈ events, receipt.eventId = effectRoot executionId effectId ++ "/receipt" ∧ receipt.executionId = executionId

/-- A fact that may follow: the id of a receipt belongs to a receipt, and a completion
is behind its receipt. -/
structure MayFollow (events : List LedgerEvent) (event : LedgerEvent) : Prop where
  receipt : ∀ effectId, event.eventId = effectRoot event.executionId effectId ++ "/receipt" → event.kind = .effectReceipt
  completed : ∀ effectId, event.eventId = effectRoot event.executionId effectId ++ "/completed" →
    HasReceipt events event.executionId effectId

/-- **Every completion is behind its receipt.** -/
def Grounded (events : List LedgerEvent) : Prop := ∀ before event, before ++ [event] <+: events → MayFollow before event

/-- The effect of a completed call has a durable receipt with its output. -/
def CompletedBy (executionId effectId : String) (output : Value) (events : List LedgerEvent) : Prop :=
  ∃ receipt ∈ events, receipt.eventId = effectRoot executionId effectId ++ "/receipt" ∧
    receipt.executionId = executionId ∧ receipt.kind = .effectReceipt ∧ field? "output" receipt.payload = some output

variable {events later : List LedgerEvent} {event : LedgerEvent} {executionId effectId : String} {output : Value}

theorem Grounded.earlier (h : Grounded later) (hpart : events <+: later) : Grounded events :=
  fun before event hbefore => h before event (hbefore.trans hpart)

theorem grounded_nil : Grounded [] := fun before event h => by simp at h

theorem Grounded.snoc (h : Grounded events) (hevent : MayFollow events event) : Grounded (events ++ [event]) := by
  intro before last hlast
  rcases List.prefix_concat_iff.1 hlast with heq | hpart
  · obtain ⟨rfl, hsame⟩ := List.append_inj' heq rfl
    obtain rfl := List.singleton_inj.1 hsame
    exact hevent
  · exact h before last hpart

theorem Grounded.kind_receipt (h : Grounded events) (hevent : event ∈ events)
    (hid : event.eventId = effectRoot event.executionId effectId ++ "/receipt") : event.kind = .effectReceipt := by
  obtain ⟨before, after, rfl⟩ := List.append_of_mem hevent
  exact (h before event ⟨after, by simp⟩).receipt effectId hid

theorem HasReceipt.grows (h : HasReceipt events executionId effectId) (hpart : events <+: later) :
    HasReceipt later executionId effectId := h.imp fun _ h => ⟨hpart.subset h.1, h.2⟩

theorem CompletedBy.grows (h : CompletedBy executionId effectId output events) (hpart : events <+: later) :
    CompletedBy executionId effectId output later := h.imp fun _ h => ⟨hpart.subset h.1, h.2⟩

theorem Grounded.appended {r : Except LedgerError LedgerEvent} (h : Grounded events)
    (hevent : MayFollow events event) (happended : Appended events event later r) : Grounded later := by
  cases happended with
  | refused error => exact h
  | committed cursor hfresh => exact h.snoc ⟨hevent.receipt, hevent.completed⟩
  | ambiguous cursor message hfresh => exact h.snoc ⟨hevent.receipt, hevent.completed⟩

/-- Two ends that no text has both of. -/
abbrev Apart (s t : String) : Prop := ¬s.toList <:+ t.toList ∧ ¬t.toList <:+ s.toList

variable {key : ExecutionRef} {suffix : String}

theorem mayFollow_fact (hid : event.eventId = effectFact key effectId suffix) (hr : Apart ("/" ++ suffix) "/receipt")
    (hc : Apart ("/" ++ suffix) "/completed") : MayFollow events event := by
  rw [effectFact_eq] at hid
  exact ⟨fun _ h => absurd (hid.symm.trans h) (append_ne_of_ends hr.1 hr.2),
    fun _ h => absurd (hid.symm.trans h) (append_ne_of_ends hc.1 hc.2)⟩

theorem mayFollow_receipt (hid : event.eventId = effectFact key effectId "receipt") (hkind : event.kind = .effectReceipt) :
    MayFollow events event := by
  rw [effectFact_eq] at hid
  exact ⟨fun _ _ => hkind, fun _ h => absurd (hid.symm.trans h) (append_ne_of_ends (by decide) (by decide))⟩

theorem mayFollow_completed (hid : event.eventId = effectFact key effectId "completed")
    (hexecution : event.executionId = key.executionId) (h : HasReceipt events key.executionId effectId) :
    MayFollow events event := by
  rw [effectFact_eq] at hid
  refine ⟨fun _ h => absurd (hid.symm.trans h) (append_ne_of_ends (by decide) (by decide)), fun other hother => ?_⟩
  rw [hid, hexecution] at hother
  have hroot : effectRoot key.executionId effectId = effectRoot key.executionId other :=
    (String.append_left_inj ("/" ++ "completed")).1 hother
  obtain rfl := (String.append_right_inj _).1 hroot
  rw [hexecution]
  exact h

theorem mayFollow_of_start {start rest : String} (hid : event.eventId = event.executionId ++ (start ++ rest))
    (hs : ¬start.toList <+: "/effect/".toList ∧ ¬"/effect/".toList <+: start.toList) : MayFollow events event := by
  have hne : ∀ effectId suffix, event.eventId ≠ effectRoot event.executionId effectId ++ suffix := by
    intro effectId suffix h
    have heffect : effectRoot event.executionId effectId ++ suffix =
        event.executionId ++ ("/effect/" ++ (effectId ++ suffix)) := by
      simp only [effectRoot, String.append_assoc]
    exact append_ne_of_starts hs.1 hs.2 (hid.symm.trans (h.trans heffect))
  exact ⟨fun effectId h => absurd h (hne effectId _), fun effectId h => absurd h (hne effectId _)⟩

end Facts

section Receipts

variable {codec : RuntimeCodec} {key : ExecutionRef} {effect : EffectRequest} {facts events : List LedgerEvent} {output : Value}

theorem receiptDisposition_completed {payload : Value}
    (h : receiptDisposition codec effect payload = .ok (.completed output)) : field? "output" payload = some output := by
  unfold receiptDisposition at h
  obtain ⟨receipt, -, h⟩ := bind_eq_ok.1 h
  obtain ⟨_, -, h⟩ := bind_eq_ok.1 h
  split at h
  · obtain ⟨found, hfound, h⟩ := bind_eq_ok.1 h
    obtain rfl := EffectDisposition.completed.inj (pure_eq_ok.1 h)
    exact expect_eq_ok.1 hfound
  · obtain ⟨_, -, h⟩ := bind_eq_ok.1 h
    exact nomatch pure_eq_ok.1 h
  · obtain ⟨_, -, h⟩ := bind_eq_ok.1 h
    exact nomatch pure_eq_ok.1 h

/-- **What `terminal_effect` reads a completion from**: a receipt, or a completion
that no receipt is before. -/
theorem terminalFrom_completed (h : terminalFrom codec key effect facts = .ok (some (.completed output))) :
    (∃ event ∈ facts, event.eventId = effectFact key effect.effectId "receipt" ∧
      field? "output" event.payload = some output) ∨
    ∃ before event after, facts = before ++ event :: after ∧
      event.eventId = effectFact key effect.effectId "completed" ∧
      ∀ fact ∈ before, fact.eventId ≠ effectFact key effect.effectId "receipt" := by
  induction facts with
  | nil => exact nomatch Except.ok.inj h
  | cons event facts ih =>
    rw [terminalFrom] at h
    split_ifs at h with hreceipt hcompleted hfailed huncertain
    · obtain ⟨disposition, hdisposition, h⟩ := bind_eq_ok.1 h
      obtain rfl := Option.some.inj (pure_eq_ok.1 h)
      exact .inl ⟨event, List.mem_cons_self .., hreceipt, receiptDisposition_completed hdisposition⟩
    · exact .inr ⟨[], event, facts, rfl, hcompleted, fun _ h => absurd h List.not_mem_nil⟩
    · exact nomatch Option.some.inj (Except.ok.inj h)
    · exact nomatch Option.some.inj (Except.ok.inj h)
    · rcases ih h with ⟨receipt, hmem, hfound⟩ | ⟨before, fact, after, rfl, hfact, hbefore⟩
      · exact .inl ⟨receipt, List.mem_cons_of_mem _ hmem, hfound⟩
      · refine .inr ⟨event :: before, fact, after, rfl, hfact, fun other hother => ?_⟩
        rcases List.mem_cons.1 hother with rfl | hother
        · exact hreceipt
        · exact hbefore other hother

theorem Grounded.terminal (h : Grounded events)
    (hread : terminalFrom codec key effect (events.filter fun event => decide (event.executionId = key.executionId)) =
      .ok (some (.completed output))) : CompletedBy key.executionId effect.effectId output events := by
  rcases terminalFrom_completed hread with ⟨receipt, hmem, hid, houtput⟩ | ⟨before, event, after, hfacts, hid, hbefore⟩
  · obtain ⟨hmem, hexecution⟩ := List.mem_filter.1 hmem
    have hexecution := of_decide_eq_true hexecution
    rw [effectFact_eq] at hid
    exact ⟨receipt, hmem, hid, hexecution, h.kind_receipt hmem (hexecution ▸ hid), houtput⟩
  · -- The receipt of a completion is among the facts before it.
    obtain ⟨earlier, rest, rfl, hearlier, hrest⟩ := List.filter_eq_append_iff.1 hfacts
    obtain ⟨skipped, later, rfl, hskipped, hown, -⟩ := List.filter_eq_cons_iff.1 hrest
    have hown := of_decide_eq_true hown
    have hfollow := h (earlier ++ skipped) event ⟨later, by simp⟩
    rw [effectFact_eq] at hid
    obtain ⟨receipt, hreceipt, hreceiptId, hsame⟩ := hfollow.completed effect.effectId (hown ▸ hid)
    rw [hown] at hreceiptId hsame
    have hmem : receipt ∈ before := by
      rw [← hearlier, List.mem_filter]
      refine ⟨(List.mem_append.1 hreceipt).resolve_right fun hskip => ?_, decide_eq_true hsame⟩
      exact hskipped receipt hskip (decide_eq_true hsame)
    exact absurd (hreceiptId.trans (effectFact_eq key _ "receipt").symm) (hbefore receipt hmem)

end Receipts

section Calls

/-- One execution of an effect, by the call of a thread. -/
structure Executed where
  thread : ℕ
  key : ExecutionRef
  effect : EffectRequest
  grant : EffectGrant

/-- What stands behind the ports: what it answers at the moment, and what it has
executed. -/
structure EffectHost where
  env : (e : EffectPort) → e.Answer
  log : List Executed

/-- One call of a port. -/
def portStep (thread : ℕ) (host : EffectHost) : (e : EffectPort) → e.Answer × EffectHost
  | .decide key effect => (host.env (.decide key effect), host)
  | .execute key effect grant =>
    (host.env (.execute key effect grant), { host with log := host.log ++ [⟨thread, key, effect, grant⟩] })

/-- The executions of a thread are its own. -/
def Untouched (thread : ℕ) (host host' : EffectHost) : Prop :=
  host'.log.filter (·.thread = thread) = host.log.filter (·.thread = thread)

/-- The calls of an `ExecutionRuntime`. -/
inductive RuntimeCall where
  | start (key : ExecutionRef)
  | cancel (key : ExecutionRef)
  | applyEffect (fuel : ℕ) (key : ExecutionRef) (effect : EffectRequest)

/-- The program of a call; only `apply_effect` answers with a disposition. -/
def RuntimeCall.program (codec : RuntimeCodec) : RuntimeCall → RuntimeProg (Option EffectDisposition)
  | .start key => do
    Runtime.start key
    return none
  | .cancel key => do
    Runtime.cancel key
    return none
  | .applyEffect fuel key effect => do return some (← Runtime.applyEffect codec fuel key effect)

variable {σ : Type} {P : LedgerStore σ} (C : P.Contract)

/-- What the others do between two operations of a thread. -/
abbrev Between (thread : ℕ) : World σ EffectHost → World σ EffectHost → Prop :=
  Interference C (fun _ => True) (Untouched thread)

/-- **What justifies an execution**: a grant that is bound to the effect, and a start of
it by the same call, in an execution that was not cancelled. -/
structure Justified (x : Executed) (w : World σ EffectHost) : Prop where
  bound : x.grant.effectId = x.effect.effectId
  input : x.grant.inputDigest = x.effect.inputDigest
  author : (effectRoot x.key.executionId x.effect.effectId ++ "/started", x.thread) ∈ w.authors
  started : EffectStarted x.key.executionId x.effect.effectId (w.events C)

/-- What a call may ask for. -/
def mayAsk (thread : ℕ) (w : World σ EffectHost) : Op EffectPort → Prop
  | .ledger (.append event) | .ledger (.appendUnlessCancelled event) => MayFollow (w.events C) event
  | .host (.execute key effect grant) =>
    Justified C ⟨thread, key, effect, grant⟩ w ∧ w.host.log.filter (·.thread = thread) = []
  | _ => True

/-- A call among others that may commit anything. -/
def runtime (thread : ℕ) : Setting (Op EffectPort) (Op.Answer EffectPort.Answer) (World σ EffectHost) :=
  { setting C (fun _ => True) (Untouched thread) portStep (fun _ _ => True) thread with allow := mayAsk C thread }

/-- Operations that only read. -/
def reading : Op EffectPort → Prop
  | .ledger (.query _) => True
  | _ => False

end Calls

section Reading

instance reading_query (q : LedgerQuery) : Only reading (query q : LedgerProg EffectPort.Answer _) :=
  ⟨trivial, fun _ => trivial⟩

instance reading_checkedQuery (q : LedgerQuery) : Only reading (checkedQuery q : LedgerProg EffectPort.Answer _) := by
  unfold checkedQuery; infer_instance

instance reading_eventById (id : String) : Only reading (eventById id : LedgerProg EffectPort.Answer _) := by
  unfold eventById; infer_instance

instance reading_eventPages (id : String) (fuel after : ℕ) (events : List LedgerEvent) :
    Only reading (eventPages id fuel after events : LedgerProg EffectPort.Answer _) := by
  induction fuel generalizing after events with
  | zero => exact ⟨trivial⟩
  | succ fuel ih => unfold eventPages; infer_instance

instance reading_executionEventsAfter (fuel : ℕ) (id : String) (after : ℕ) :
    Only reading (executionEventsAfter fuel id after : LedgerProg EffectPort.Answer _) := reading_eventPages id fuel after []

end Reading

section Steps

variable {σ : Type} {P : LedgerStore σ} {C : P.Contract} {thread : ℕ} {w w' w'' : World σ EffectHost} {α β : Type}
  {codec : RuntimeCodec} {fuel : ℕ} {key : ExecutionRef} {effect : EffectRequest} {grant : EffectGrant}

theorem untouched_trans (thread : ℕ) (a b c : EffectHost) (h : Untouched thread a b) (h' : Untouched thread b c) :
    Untouched thread a c := Eq.trans h' h

theorem Between.trans (h : Between C thread w w') (h' : Between C thread w' w'') : Between C thread w w'' :=
  Interference.trans (untouched_trans thread) h h'

theorem Between.refl (h : w.Sound C) : Between C thread w w := Interference.refl h rfl

theorem between_perform (h : w.Sound C) (o : LedgerOp) : Between C thread w (perform P portStep thread w (.ledger o)).2 := by
  obtain ⟨hsound, hgrows, hauthors⟩ := h.perform portStep thread (.ledger o)
  refine ⟨hsound, hgrows, fun _ _ => .inr trivial, hauthors, ?_⟩
  cases o with
  | query q => rfl
  | append event => rfl
  | appendUnlessCancelled event => rfl

theorem mayAsk_of_reading (w : World σ EffectHost) (o : Op EffectPort) (h : reading o) : mayAsk C thread w o := by
  match o with
  | .ledger (.query _) => trivial
  | .ledger (.append _) => exact h.elim
  | .ledger (.appendUnlessCancelled _) => exact h.elim
  | .host _ => exact h.elim

theorem yields_saved {eventId : String} :
    Yields (runtime C thread) (saved eventId) (fun found w' => Between C thread w w' ∧
      ∀ event, found = some event → event ∈ w'.events C ∧ event.eventId = eventId) w := by
  unfold saved ledgerCall
  refine yields_mapError (Prog.Holds.allowing (holds_eventById (fun _ _ _ h => nomatch h) fun w' hw' => ?_)
    (reading_eventById eventId).within mayAsk_of_reading)
  rintro found hfound
  obtain rfl := Except.ok.inj hfound
  refine ⟨hw', fun event hevent => ⟨List.mem_of_find?_eq_some hevent, ?_⟩⟩
  exact of_decide_eq_true (List.find?_some (p := fun event : LedgerEvent => decide (event.eventId = _)) hevent)

theorem yields_facts {executionId : String} :
    Yields (runtime C thread) (ledgerCall (executionEventsAfter fuel executionId 0)) (fun facts w' => Between C thread w w' ∧
      facts = (w'.events C).filter fun event => decide (event.executionId = executionId)) w := by
  unfold ledgerCall
  refine yields_mapError (Prog.Holds.allowing (holds_executionEventsAfter (untouched_trans thread)
    (fun _ _ _ h => nomatch h) (fun w' hw' => ?_) fuel) (reading_executionEventsAfter fuel _ 0).within mayAsk_of_reading)
  rintro facts hfacts
  obtain rfl := Except.ok.inj hfacts
  exact ⟨hw', since_zero hw'.sound _⟩

theorem yields_append {event : LedgerEvent} (hmay : ∀ w', Between C thread w w' → MayFollow (w'.events C) event) :
    Yields (runtime C thread) (ledgerCall (append event)) (fun saved w' => Between C thread w w' ∧
      saved ∈ w'.events C ∧ saved = { event with cursor := saved.cursor }) w := by
  unfold ledgerCall
  refine yields_mapError fun w₁ hw₁ => ?_
  replace hw₁ : Between C thread w w₁ := hw₁
  refine ⟨hmay w₁ hw₁, ?_⟩
  rintro r w₂ hact
  obtain ⟨-, happended⟩ := C.append_spec hw₁.sound.valid event
  have hw₂ := hw₁.trans (between_perform hw₁.sound (.append event))
  obtain ⟨rfl, rfl⟩ := Prod.mk.inj hact
  rintro saved hsaved
  rw [hsaved] at happended
  obtain ⟨-, hsame, hnew⟩ := happended.ok
  refine ⟨hw₂, ?_, hsame⟩
  show saved ∈ C.events _
  rw [hnew]
  exact List.mem_append_right _ (List.mem_singleton.2 rfl)

theorem yields_appendOnce {eventId : String} {kind : LedgerEventKind} {payload : Value}
    (hmay : ∀ w', Between C thread w w' → ∀ event : LedgerEvent, event.eventId = eventId →
      event.executionId = key.executionId → event.kind = kind → MayFollow (w'.events C) event) :
    Yields (runtime C thread) (appendOnce key eventId kind payload) (fun event w' => Between C thread w w' ∧
      event ∈ w'.events C ∧ event.eventId = eventId ∧ event.executionId = key.executionId ∧ event.kind = kind ∧
      event.payload = payload) w := by
  unfold appendOnce
  dsimp only
  refine yields_bind (yields_saved.mono ?_)
  rintro found w₁ ⟨hw₁, hfound⟩
  split
  · rename_i existing
    obtain ⟨hmem, hid⟩ := hfound existing rfl
    refine yields_bind (yields_lift fun _ hsame => yields_pure ⟨hw₁, hmem, hid, ?_⟩)
    have hsame := reject_eq_ok.1 hsame
    rw [Bool.not_eq_false, Execution.sameFact] at hsame
    obtain ⟨hsame, hpayload⟩ := Bool.and_eq_true_iff.1 hsame
    obtain ⟨hsame, hkind⟩ := Bool.and_eq_true_iff.1 hsame
    obtain ⟨-, hexecution⟩ := Bool.and_eq_true_iff.1 hsame
    exact ⟨of_decide_eq_true hexecution, of_decide_eq_true hkind, of_decide_eq_true hpayload⟩
  · refine (yields_append fun w₂ hw₂ => hmay w₂ (hw₁.trans hw₂) _ rfl rfl rfl).mono ?_
    rintro saved w₂ ⟨hw₂, hmem, hsame⟩
    rw [hsame] at hmem ⊢
    exact ⟨hw₁.trans hw₂, hmem, rfl, rfl, rfl, rfl⟩

/-- A completion of the effect has its receipt. -/
def Finished (C : P.Contract) (key : ExecutionRef) (effect : EffectRequest) (disposition : EffectDisposition)
    (w : World σ EffectHost) : Prop :=
  ∀ output, disposition = .completed output → Grounded (w.events C) →
    CompletedBy key.executionId effect.effectId output (w.events C)

theorem Finished.grows {disposition : EffectDisposition} (h : Finished C key effect disposition w)
    (hgrows : w.events C <+: w'.events C) : Finished C key effect disposition w' :=
  fun output houtput hgrounded => (h output houtput (hgrounded.earlier hgrows)).grows hgrows

theorem yields_terminalEffect :
    Yields (runtime C thread) (terminalEffect codec fuel key effect) (fun found w' => Between C thread w w' ∧
      ∀ disposition, found = some disposition → Finished C key effect disposition w') w := by
  unfold terminalEffect
  refine yields_bind (yields_facts.mono ?_)
  rintro facts w' ⟨hw', rfl⟩
  refine yields_lift fun found hfound => ⟨hw', ?_⟩
  rintro disposition rfl output rfl hgrounded
  exact hgrounded.terminal hfound

theorem yields_appendReceipt {payload : Value} :
    Yields (runtime C thread) (appendReceipt key effect payload) (fun _ w' => w'.Sound C ∧
      ∃ receipt ∈ w'.events C, receipt.eventId = effectRoot key.executionId effect.effectId ++ "/receipt" ∧
        receipt.executionId = key.executionId ∧ receipt.kind = .effectReceipt ∧ receipt.payload = payload) w := by
  unfold appendReceipt
  refine yields_bind ((yields_appendOnce fun _ _ event hid _ hkind => mayFollow_receipt hid hkind).mono ?_)
  rintro receipt w' ⟨hw', hmem, hid, hexecution, hkind, hpayload⟩
  exact yields_pure ⟨hw'.sound, receipt, hmem, hid.trans (effectFact_eq ..), hexecution, hkind, hpayload⟩

theorem yields_conclude {receipt : EffectReceipt} {expected : ReceiptStatus} {name suffix : String} {outcome : Value}
    {kind : LedgerEventKind} {disposition : EffectDisposition}
    (houtput : ∀ output, disposition = .completed output → name = "output" ∧ outcome = output)
    (hmay : ∀ (events : List LedgerEvent) (event : LedgerEvent), event.eventId = effectFact key effect.effectId suffix →
      event.executionId = key.executionId → HasReceipt events key.executionId effect.effectId → MayFollow events event) :
    Yields (runtime C thread) (conclude key effect grant receipt expected name outcome suffix kind disposition)
      (Finished C key effect) w := by
  unfold conclude
  refine yields_bind (yields_lift fun _ _ => yields_bind (yields_lift fun _ _ => ?_))
  refine yields_bind (yields_appendReceipt.mono ?_)
  rintro _ w₁ ⟨hsound, saved, hmem, hid, hexecution, hkind, hpayload⟩
  refine yields_bind ((yields_appendOnce fun w₂ hw₂ event hevent hsame _ =>
    hmay _ event hevent hsame ⟨saved, hw₂.grows.subset hmem, hid, hexecution⟩).mono ?_)
  rintro _ w₂ ⟨hw₂, -⟩
  refine yields_pure fun output hcompleted _ => ?_
  obtain ⟨rfl, rfl⟩ := houtput output hcompleted
  refine ⟨saved, hw₂.grows.subset hmem, hid, hexecution, hkind, ?_⟩
  rw [hpayload]
  rfl

theorem yields_executed (outcome : EffectOutcome) :
    Yields (runtime C thread) (executed key effect grant outcome) (Finished C key effect) w := by
  cases outcome with
  | completed receipt output =>
    exact yields_conclude (fun _ h => ⟨rfl, EffectDisposition.completed.inj h⟩) fun _ _ => mayFollow_completed
  | failed receipt code =>
    exact yields_conclude (fun _ h => nomatch h) fun _ _ hid _ _ => mayFollow_fact hid (by decide) (by decide)
  | uncertain receipt evidence =>
    exact yields_conclude (fun _ h => nomatch h) fun _ _ hid _ _ => mayFollow_fact hid (by decide) (by decide)

/-- **The start of an effect.**  A call that commits it is its author, and no
cancellation was before. -/
theorem yields_started :
    Prog.Holds (runtime C thread) (appendUnlessCancelled (startedEvent key effect)).run (fun r w' => Between C thread w w' ∧
      ∀ saved, r = .ok saved → (effectRoot key.executionId effect.effectId ++ "/started", thread) ∈ w'.authors ∧
        EffectStarted key.executionId effect.effectId (w'.events C)) w := by
  intro w₁ hw₁
  replace hw₁ : Between C thread w w₁ := hw₁
  have hfact : (startedEvent key effect).eventId = effectFact key effect.effectId "started" := rfl
  have hid : (startedEvent key effect).eventId = effectRoot key.executionId effect.effectId ++ "/started" :=
    effectFact_eq key effect.effectId "started"
  refine ⟨mayFollow_fact hfact (by decide) (by decide), ?_⟩
  rintro r w₂ hact
  obtain ⟨-, happended, hrefused⟩ := C.admission_spec hw₁.sound.valid (startedEvent key effect)
  have hw₂ := hw₁.trans (between_perform hw₁.sound (.appendUnlessCancelled (startedEvent key effect)))
  have hauthors : w₂.authors = recordAuthor thread r w₁.authors := by
    obtain ⟨rfl, rfl⟩ := Prod.mk.inj hact
    rfl
  obtain ⟨rfl, rfl⟩ := Prod.mk.inj hact
  refine ⟨hw₂, fun saved hsaved => ?_⟩
  rw [hsaved] at happended
  refine ⟨?_, .admitted happended hrefused hid rfl rfl⟩
  obtain ⟨-, hsame, -⟩ := happended.ok
  rw [hauthors, hsaved, ← hid]
  refine List.mem_append_right _ (List.mem_singleton.2 ?_)
  rw [hsame]

theorem yields_owned :
    Yields (runtime C thread) (do
      let terminal ← terminalEffect codec fuel key effect
      return terminal.getD (.uncertain "another dispatcher owns the started effect")) (Finished C key effect) w := by
  refine yields_bind (yields_terminalEffect.mono ?_)
  rintro found w' ⟨-, hfound⟩
  refine yields_pure ?_
  cases found with
  | none => exact fun _ h => nomatch h
  | some disposition => exact hfound disposition rfl

/-- **A dispatch.**  It executes the effect behind its own start of it. -/
theorem yields_dispatch (hfresh : w.host.log.filter (·.thread = thread) = []) :
    Yields (runtime C thread) (dispatch codec fuel key effect grant) (Finished C key effect) w := by
  unfold dispatch
  refine yields_bind (yields_lift fun _ hbound => ?_)
  have hbound := reject_eq_ok.1 hbound
  rw [not_or, not_not, not_not] at hbound
  refine yields_bind ((yields_appendOnce fun _ _ _ hid _ _ => mayFollow_fact hid (by decide) (by decide)).mono ?_)
  rintro _ w₁ ⟨hw₁, -⟩
  refine yields_bind ((yields_attempt yields_started).mono ?_)
  rintro started w₂ ⟨hw₂, hstarted⟩
  split
  · obtain ⟨hauthor, hstart⟩ := hstarted _ rfl
    refine yields_bind fun w₃ hw₃ => ⟨?_, fun outcome w₄ _ => ?_⟩
    · have hw₀ : Between C thread w w₃ := (hw₁.trans hw₂).trans hw₃
      replace hw₃ : Between C thread w₂ w₃ := hw₃
      exact ⟨⟨hbound.1, hbound.2, hw₃.authors.subset hauthor, hstart.grows hw₃.grows⟩, Eq.trans hw₀.host hfresh⟩
    · rintro executed rfl
      exact yields_executed executed
  · exact yields_pure fun _ h => nomatch h
  · exact yields_owned
  · exact yields_throw

theorem yields_applyPrepared (hfresh : w.host.log.filter (·.thread = thread) = []) :
    Yields (runtime C thread) (applyPrepared codec fuel key effect) (Finished C key effect) w := by
  unfold applyPrepared
  refine yields_bind ((yields_appendOnce fun _ _ _ hid _ _ => mayFollow_fact hid (by decide) (by decide)).mono ?_)
  rintro _ w₁ ⟨hw₁, -⟩
  refine yields_bind (yields_terminalEffect.mono ?_)
  rintro terminal w₂ ⟨hw₂, hterminal⟩
  split
  · exact yields_pure (hterminal _ rfl)
  · refine yields_bind (yields_saved.mono ?_)
    rintro started w₃ ⟨hw₃, -⟩
    split_ifs
    · exact yields_pure fun _ h => nomatch h
    · refine yields_bind fun w₄ hw₄ => ⟨trivial, fun decision w₅ hact => ?_⟩
      obtain ⟨-, rfl⟩ := Prod.mk.inj hact
      have hw₀ : Between C thread w w₄ := ((hw₁.trans hw₂).trans hw₃).trans hw₄
      rintro decided -
      split
      · refine yields_bind ((yields_appendOnce fun _ _ _ hid _ _ => mayFollow_fact hid (by decide) (by decide)).mono ?_)
        exact fun _ _ _ => yields_pure fun _ h => nomatch h
      · refine yields_bind ((yields_appendOnce fun _ _ _ hid _ _ => mayFollow_fact hid (by decide) (by decide)).mono ?_)
        rintro _ w₅ -
        refine yields_bind ((yields_appendOnce fun _ _ event hid hexecution _ => ?_).mono ?_)
        · rw [← hexecution, String.append_assoc] at hid
          exact mayFollow_of_start hid (by decide)
        · exact fun _ _ _ => yields_pure fun _ h => nomatch h
      · exact yields_dispatch (Eq.trans hw₀.host hfresh)

theorem toolDisposition_completed {bound : PreparedEvidence} {payload output : Value} {result : Except ToolError ToolResult}
    (hresult : bound.validateReceipt codec.toEvidenceCodec payload = .ok result)
    (h : toolDisposition result = .completed output) : field? "output" payload = some output := by
  cases result with
  | error error => exact nomatch h
  | ok tool =>
    obtain rfl := EffectDisposition.completed.inj h
    have hfield := field_validateReceipt hresult
    rw [field] at hfield
    cases hfound : field? "output" payload with
    | none =>
      rw [hfound] at hfield
      exact nomatch hfield
    | some output => exact congrArg some (by rwa [hfound] at hfield)

theorem yields_recoverReceipt {bound : PreparedEvidence} {started : Option LedgerEvent} :
    Yields (runtime C thread) (recoverReceipt codec key effect bound started) (Finished C key effect) w := by
  unfold recoverReceipt
  refine yields_bind (yields_saved.mono ?_)
  rintro found w' ⟨-, hfound⟩
  split
  · rename_i receipt
    obtain ⟨hmem, hid⟩ := hfound receipt rfl
    refine yields_bind (yields_lift fun _ hcheck => yields_bind (yields_lift fun _ _ => ?_))
    refine yields_bind (yields_lift fun result hresult => yields_pure ?_)
    have hcheck := reject_eq_ok.1 (mapError_eq_ok.1 hcheck)
    simp only [not_or, not_not] at hcheck
    obtain ⟨-, hexecution, -, hkind, -⟩ := hcheck
    rintro output houtput -
    exact ⟨receipt, hmem, hid.trans (effectFact_eq ..), hexecution, hkind,
      toolDisposition_completed (mapError_eq_ok.1 hresult) houtput⟩
  · exact yields_pure fun _ h => by cases h

theorem yields_recoverPreparedTool {prepared : LedgerEvent} :
    Yields (runtime C thread) (recoverPreparedTool codec key effect prepared) (Finished C key effect) w := by
  unfold recoverPreparedTool
  refine yields_bind (yields_saved.mono fun _ w _ => yields_bind (yields_lift fun _ _ => ?_))
  refine yields_bind (yields_lift fun _ _ => yields_bind (yields_lift fun _ _ => ?_))
  refine yields_bind (yields_saved.mono fun _ w _ => yields_bind (yields_lift fun _ _ => ?_))
  refine yields_bind (yields_lift fun _ _ => yields_bind (yields_lift fun bound _ => ?_))
  refine yields_bind (yields_lift fun _ _ => yields_bind (yields_saved.mono fun started w _ => ?_))
  dsimp only
  split
  · exact yields_bind (yields_lift fun _ _ => yields_bind (yields_lift fun _ _ => yields_recoverReceipt))
  · exact yields_recoverReceipt

theorem yields_refuseUnprepared {suffixes : List String} (hw : w.Sound C) :
    Yields (runtime C thread) (refuseUnprepared key effect suffixes) (fun _ w' => Between C thread w w') w := by
  induction suffixes generalizing w with
  | nil => exact yields_pure (.refl hw)
  | cons suffix suffixes ih =>
    unfold refuseUnprepared
    refine yields_bind (yields_saved.mono ?_)
    rintro _ w' ⟨hw', -⟩
    refine yields_bind (yields_lift fun _ _ => ?_)
    exact (ih hw'.sound).mono fun _ _ h => hw'.trans h

theorem yields_status : Yields (runtime C thread) (status fuel key) (fun _ w' => Between C thread w w') w := by
  unfold status
  exact yields_bind (yields_facts.mono fun _ _ h => yields_pure h.1)

/-- **`apply_effect`.** -/
theorem yields_applyEffect (hfresh : w.host.log.filter (·.thread = thread) = []) :
    Yields (runtime C thread) (applyEffect codec fuel key effect) (Finished C key effect) w := by
  unfold applyEffect
  refine yields_bind (yields_lift fun _ _ => yields_bind (yields_status.mono fun found w₁ hw₁ => ?_))
  split_ifs
  · exact yields_pure fun _ h => nomatch h
  · refine yields_bind (yields_saved.mono ?_)
    rintro prepared w₂ ⟨hw₂, -⟩
    have hw₂ := hw₁.trans hw₂
    split
    · refine yields_bind (yields_lift fun _ _ => ?_)
      split
      · exact yields_recoverPreparedTool
      · exact yields_applyPrepared (Eq.trans hw₂.host hfresh)
      · exact yields_throw
    · refine yields_bind ((yields_refuseUnprepared hw₂.sound).mono fun _ w₃ hw₃ => ?_)
      exact yields_applyPrepared (Eq.trans (hw₂.trans hw₃).host hfresh)

/-- The end of a call. -/
def Ended (C : P.Contract) (call : RuntimeCall) (answer : Option EffectDisposition) (w : World σ EffectHost) : Prop :=
  match call with
  | .applyEffect _ key effect => ∀ disposition, answer = some disposition → Finished C key effect disposition w
  | _ => True

theorem yields_program (call : RuntimeCall) (hfresh : w.host.log.filter (·.thread = thread) = []) :
    Yields (runtime C thread) (call.program codec) (Ended C call) w := by
  cases call with
  | start key =>
    refine yields_bind (yields_bind ((yields_appendOnce fun _ _ event hid hexecution _ => ?_).mono ?_))
    · rw [← hexecution, ← String.append_empty (s := "/execution-started")] at hid
      exact mayFollow_of_start hid (by decide)
    · exact fun _ _ _ => yields_pure (yields_pure trivial)
  | cancel key =>
    refine yields_bind (yields_bind ((yields_appendOnce fun _ _ event hid hexecution _ => ?_).mono ?_))
    · rw [← hexecution, ← String.append_empty (s := "/execution-cancelled")] at hid
      exact mayFollow_of_start hid (by decide)
    · exact fun _ _ _ => yields_pure (yields_pure trivial)
  | applyEffect fuel key effect =>
    refine yields_bind ((yields_applyEffect hfresh).mono fun disposition _ h => yields_pure ?_)
    rintro _ ⟨⟩
    exact h

end Steps

section Pools

variable {σ : Type} {P : LedgerStore σ} (C : P.Contract) (codec : RuntimeCodec)

/-- What others do: the ports come to answer otherwise, and somebody else commits a
fact, behind its receipt if it is a completion. -/
inductive Elsewhere : World σ EffectHost → World σ EffectHost → Prop
  | answers (w : World σ EffectHost) (env : (e : EffectPort) → e.Answer) :
    Elsewhere w { w with host := { w.host with env } }
  | commit (w : World σ EffectHost) (event : LedgerEvent) (h : MayFollow (w.events C) event) :
    Elsewhere w { w with store := (P.append w.store event).2 }
  | commitUnlessCancelled (w : World σ EffectHost) (event : LedgerEvent) (h : MayFollow (w.events C) event) :
    Elsewhere w { w with store := (P.appendUnlessCancelled w.store event).2 }

/-- The calls of an `ExecutionRuntime` on one ledger, which crash where they are left. -/
def runtimeRules : Pool.Rules (Op EffectPort) (Op.Answer EffectPort.Answer) (World σ EffectHost) RuntimeCall
    (Except RuntimeExecutionError (Option EffectDisposition)) where
  program call := (call.program codec).run
  starts _ _ := True
  act thread w o r w' := perform P portStep thread w o = (r, w')
  other := Elsewhere C

/-- A valid ledger that no call has been at, whose completions are behind their
receipts, such as an empty one. -/
structure Unused (w : World σ EffectHost) : Prop where
  valid : C.Valid w.store
  grounded : Grounded (w.events C)
  authors : w.authors = []
  log : w.host.log = []

/-- What every run keeps: each execution has its justification and a call of its own. -/
structure Orderly (calls : ℕ) (w : World σ EffectHost) : Prop where
  sound : w.Sound C
  grounded : Grounded (w.events C)
  executed : ∀ x ∈ w.host.log, x.thread < calls ∧ Justified C x w
  threads : (w.host.log.map (·.thread)).Nodup

variable {C} {codec} {calls thread : ℕ} {w w' : World σ EffectHost}

theorem Justified.later {x : Executed} (h : Justified C x w) (hgrows : w.events C <+: w'.events C)
    (hauthors : w.authors <+: w'.authors) : Justified C x w' :=
  ⟨h.bound, h.input, hauthors.subset h.author, h.started.grows hgrows⟩

theorem Unused.orderly (h : Unused C w) : Orderly C 0 w where
  sound := by
    obtain ⟨store, host, authors⟩ := w
    obtain rfl : authors = [] := h.authors
    exact World.Sound.start h.valid host
  grounded := h.grounded
  executed := by simp [h.log]
  threads := by simp [h.log]

theorem Orderly.fresh (h : Orderly C calls w) : w.host.log.filter (·.thread = calls) = [] := by
  refine List.filter_eq_nil_iff.2 fun x hx => ?_
  have := (h.executed x hx).1
  simp only [decide_eq_true_eq]
  omega

theorem Orderly.called (h : Orderly C calls w) : Orderly C (calls + 1) w where
  sound := h.sound
  grounded := h.grounded
  executed := fun x hx => (h.executed x hx).imp_left Nat.lt_succ_of_lt
  threads := h.threads

theorem Orderly.kept (h : Orderly C calls w) (hsound : w'.Sound C) (hgrows : w.events C <+: w'.events C)
    (hauthors : w.authors <+: w'.authors) (hgrounded : Grounded (w'.events C)) (hlog : w'.host.log = w.host.log) :
    Orderly C calls w' where
  sound := hsound
  grounded := hgrounded
  executed := fun x hx => by
    rw [hlog] at hx
    exact (h.executed x hx).imp_right fun hx => hx.later hgrows hauthors
  threads := hlog ▸ h.threads

theorem Orderly.perform (h : Orderly C calls w) (hthread : thread < calls) {o : Op EffectPort}
    (hask : mayAsk C thread w o) : Orderly C calls (perform P portStep thread w o).2 := by
  obtain ⟨hsound, hgrows, hauthors⟩ := h.sound.perform portStep thread o
  match o with
  | .ledger (.query q) =>
    refine h.kept hsound hgrows hauthors ?_ rfl
    show Grounded (C.events (P.query w.store q).2)
    rw [(C.query_frame h.sound.valid q).2]
    exact h.grounded
  | .ledger (.append event) =>
    exact h.kept hsound hgrows hauthors (h.grounded.appended hask (C.append_spec h.sound.valid event).2) rfl
  | .ledger (.appendUnlessCancelled event) =>
    exact h.kept hsound hgrows hauthors (h.grounded.appended hask (C.admission_spec h.sound.valid event).2.1) rfl
  | .host (.decide key effect) => exact h.kept hsound hgrows hauthors h.grounded rfl
  | .host (.execute key effect grant) =>
    obtain ⟨hjustified, hfresh⟩ := hask
    refine ⟨hsound, h.grounded, fun x hx => ?_, ?_⟩
    · rcases List.mem_append.1 hx with hx | hx
      · exact (h.executed x hx).imp_right fun hx => hx.later hgrows hauthors
      · obtain rfl := List.mem_singleton.1 hx
        exact ⟨hthread, hjustified.later hgrows hauthors⟩
    · show ((w.host.log ++ [(⟨thread, key, effect, grant⟩ : Executed)]).map (·.thread)).Nodup
      rw [List.map_append]
      refine List.nodup_append.2 ⟨h.threads, List.nodup_singleton _, fun a ha b hb hab => ?_⟩
      obtain ⟨x, hx, rfl⟩ := List.mem_map.1 ha
      obtain rfl := List.mem_singleton.1 hb
      exact List.filter_eq_nil_iff.1 hfresh x hx (decide_eq_true hab)

theorem between_others {i j : ℕ} (hij : i ≠ j) (h : w.Sound C) (o : Op EffectPort) :
    Between C j w (perform P portStep i w o).2 := by
  obtain ⟨hsound, hgrows, hauthors⟩ := h.perform portStep i o
  refine ⟨hsound, hgrows, fun _ _ => .inr trivial, hauthors, ?_⟩
  match o with
  | .ledger (.query _) | .ledger (.append _) | .ledger (.appendUnlessCancelled _) | .host (.decide _ _) => rfl
  | .host (.execute key effect grant) =>
    show (w.host.log ++ [_]).filter _ = w.host.log.filter _
    rw [List.filter_append, List.filter_cons_of_neg (by simpa using hij), List.filter_nil, List.append_nil]

theorem Elsewhere.harmless (h : Elsewhere C w w') (hw : Orderly C calls w) :
    Orderly C calls w' ∧ ∀ thread, Between C thread w w' := by
  cases h with
  | answers env =>
    have hsound : World.Sound C { w with host := { w.host with env } } :=
      ⟨hw.sound.valid, hw.sound.authored, hw.sound.single⟩
    exact ⟨hw.kept hsound List.prefix_rfl List.prefix_rfl hw.grounded rfl,
      fun _ => ⟨hsound, List.prefix_rfl, fun _ _ => .inr trivial, List.prefix_rfl, rfl⟩⟩
  | commit event hmay =>
    obtain ⟨hvalid, happended⟩ := C.append_spec hw.sound.valid event
    have hsound := hw.sound.grow hvalid happended.grows
    exact ⟨hw.kept hsound happended.grows List.prefix_rfl (hw.grounded.appended hmay happended) rfl,
      fun _ => ⟨hsound, happended.grows, fun _ _ => .inr trivial, List.prefix_rfl, rfl⟩⟩
  | commitUnlessCancelled event hmay =>
    obtain ⟨hvalid, happended, -⟩ := C.admission_spec hw.sound.valid event
    have hsound := hw.sound.grow hvalid happended.grows
    exact ⟨hw.kept hsound happended.grows List.prefix_rfl (hw.grounded.appended hmay happended) rfl,
      fun _ => ⟨hsound, happended.grows, fun _ _ => .inr trivial, List.prefix_rfl, rfl⟩⟩

/-- A call on its way, with what it is to end with. -/
abbrev Underway (C : P.Contract) (thread : ℕ) (call : RuntimeCall)
    (p : Prog (Op EffectPort) (Op.Answer EffectPort.Answer) (Except RuntimeExecutionError (Option EffectDisposition)))
    (w : World σ EffectHost) : Prop :=
  Prog.Holds (runtime C thread) p (fun r w => ∀ answer, r = .ok answer → Ended C call answer w) w

theorem Ended.grows {call : RuntimeCall} {answer : Option EffectDisposition} (h : Ended C call answer w)
    (hgrows : w.events C <+: w'.events C) : Ended C call answer w' := by
  cases call with
  | start key => trivial
  | cancel key => trivial
  | applyEffect fuel key effect => exact fun disposition hdisposition => (h disposition hdisposition).grows hgrows

theorem Underway.survives {call : RuntimeCall}
    {p : Prog (Op EffectPort) (Op.Answer EffectPort.Answer) (Except RuntimeExecutionError (Option EffectDisposition))}
    (h : Underway C thread call p w) (hw : Between C thread w w') : Underway C thread call p w' :=
  Prog.Holds.survives (fun _ _ _ => Between.trans) (fun _ _ _ h hw answer hanswer => (h answer hanswer).grows hw.grows) h hw

theorem runtime_keeps : Pool.Keeps (runtimeRules C codec) (Orderly C) (Underway C) where
  starts := fun _ call _ h _ => ⟨h.called, yields_program call h.fresh⟩
  own := by
    intro n i call o next a w w' h hi hunderway hact
    obtain ⟨hask, hnext⟩ := Prog.Holds.step (Between.refl h.sound) hunderway
    have hworld := h.perform hi hask
    obtain ⟨rfl, rfl⟩ := Prod.mk.inj hact
    exact ⟨hworld, hnext _ _ rfl⟩
  harmless := by
    intro n i j call other o next p a w w' hij h hunderway hact hother
    obtain ⟨rfl, rfl⟩ := Prod.mk.inj hact
    exact hother.survives (between_others hij h.sound o)
  other := by
    intro n w w' h helse
    obtain ⟨hworld, hbetween⟩ := helse.harmless h
    exact ⟨hworld, fun i call p hp => hp.survives (hbetween i)⟩

/-- The executions of an effect. -/
def executions (w : World σ EffectHost) (executionId effectId : String) : List Executed :=
  w.host.log.filter fun x => x.key.executionId = executionId ∧ x.effect.effectId = effectId

theorem Orderly.executions_le_one (h : Orderly C calls w) (executionId effectId : String) :
    (executions w executionId effectId).length ≤ 1 := by
  have hnodup : ((executions w executionId effectId).map (·.thread)).Nodup :=
    h.threads.sublist ((List.filter_sublist (l := w.host.log)).map _)
  have hauthor : ∀ x ∈ executions w executionId effectId,
      (effectRoot executionId effectId ++ "/started", x.thread) ∈ w.authors := by
    intro x hx
    obtain ⟨hmem, hof⟩ := List.mem_filter.1 hx
    obtain ⟨rfl, rfl⟩ := of_decide_eq_true hof
    exact (h.executed x hmem).2.author
  match hall : executions w executionId effectId with
  | [] => exact Nat.zero_le 1
  | [x] => exact le_rfl
  | x :: y :: rest =>
    rw [hall] at hnodup hauthor
    have hone : x.thread = y.thread :=
      h.sound.author_unique (hauthor x (by simp)) (hauthor y (by simp))
    exact absurd (List.mem_map.2 ⟨y, List.mem_cons_self .., hone.symm⟩) (List.nodup_cons.1 hnodup).1

/-- **Generic effects, at most once.**  However `apply_effect`, `start` and `cancel`
calls run and crash on one ledger, whatever the admission and the executor answer and
others commit: one effect of an execution is executed at most once, only with a grant
that is bound to its id and its input digest, and behind a start that no cancellation
was before; and a call that returns `Completed` with an output has a durable receipt
of the effect with this output. -/
theorem generic_effects_once {pool : Pool (Op EffectPort) (Op.Answer EffectPort.Answer) (World σ EffectHost) RuntimeCall
      (Except RuntimeExecutionError (Option EffectDisposition))}
    (h : Pool.Reach (runtimeRules C codec) (Unused C) pool) :
    (∀ executionId effectId, (executions pool.world executionId effectId).length ≤ 1) ∧
    (∀ x ∈ pool.world.host.log, x.grant.effectId = x.effect.effectId ∧ x.grant.inputDigest = x.effect.inputDigest ∧
      EffectStarted x.key.executionId x.effect.effectId (pool.world.events C)) ∧
    ∀ (i fuel : ℕ) (key : ExecutionRef) (effect : EffectRequest) (output : Value),
      pool.calls[i]? = some (.applyEffect fuel key effect, .done (.ok (some (.completed output)))) →
      CompletedBy key.executionId effect.effectId output (pool.world.events C) := by
  have hholds := h.invariant runtime_keeps fun _ hw => hw.orderly
  refine ⟨hholds.world.executions_le_one, fun x hx => ?_, fun i fuel key effect output hi => ?_⟩
  · obtain ⟨-, hjustified⟩ := hholds.world.executed x hx
    exact ⟨hjustified.bound, hjustified.input, hjustified.started⟩
  · exact hholds.calls i _ _ hi _ rfl _ rfl output rfl hholds.world.grounded

end Pools

section Race

def racedKey : ExecutionRef := { sessionId := "s", turnId := "t", executionId := "e" }

def racedRequest : EffectRequest where
  effectId := "f"
  operationKind := "write"
  inputDigest := "0"
  requirements := []
  policyRevision := "p"

def racedGrant : EffectGrant where
  authorizationId := "a"
  effectId := "f"
  inputDigest := "0"
  constraintsDigest := ""
  authorityRevision := ""

def racedReceipt : EffectReceipt where
  receiptId := "r"
  effectId := "f"
  authorizationId := "a"
  inputDigest := "0"
  executorId := "x"
  executorRevision := "1"
  resultDigest := "0"
  status := .completed

def racedPorts : EffectHost where
  env
    | .decide _ _ => .ok (.grant racedGrant)
    | .execute _ _ _ => .ok (.completed racedReceipt (.string "done"))
  log := []

def racedCodec : RuntimeCodec where
  toEvidenceCodec := { ranCodec.evidence with receipt := fun _ => .ok racedReceipt }
  effectRequest := fun _ => .error ""
  preparedCall := fun _ => .error ""
  scope := fun _ => .error ""
  grant := fun _ => .error ""

/-- Two dispatchers of the effect: both get the grant, the second starts and executes
it, and the first reads its receipt. -/
def racedOrder : List ℕ := List.replicate 10 0 ++ List.replicate 14 1 ++ List.replicate 3 0

def racedPool : Pool (Op EffectPort) (Op.Answer EffectPort.Answer) (World LedgerState EffectHost) RuntimeCall
    (Except RuntimeExecutionError (Option EffectDisposition)) where
  world := ⟨LedgerState.empty, racedPorts, []⟩
  calls := List.replicate 2 (.applyEffect 2 racedKey racedRequest,
    ((RuntimeCall.applyEffect 2 racedKey racedRequest).program racedCodec).run)

/-- A call of this effect that has ended with the output. -/
def racedDone (call : RuntimeCall × Prog (Op EffectPort) (Op.Answer EffectPort.Answer)
    (Except RuntimeExecutionError (Option EffectDisposition))) : Bool :=
  match call with
  | (.applyEffect _ key effect, .done (.ok (some (.completed output)))) =>
    key = racedKey ∧ effect = racedRequest ∧ output = .string "done"
  | _ => false

/-- In this race the effect is executed once, and both calls have the output of its
receipt. -/
theorem generic_effects_once_raced : ∃ pool,
    Pool.Reach (runtimeRules inMemoryContract racedCodec) (Unused inMemoryContract) pool ∧
      (executions pool.world "e" "f").length = 1 ∧
      CompletedBy "e" "f" (.string "done") (pool.world.events inMemoryContract) := by
  have hran : (racedPool.schedule (perform inMemoryLedger portStep) racedOrder).any (fun pool =>
      (executions pool.world "e" "f").length = 1 ∧ pool.calls.head?.any racedDone) = true := by decide +kernel
  obtain ⟨pool, hpool, hcheck⟩ := (Option.any_eq_true _ _).1 hran
  obtain ⟨hlength, hfirst⟩ := of_decide_eq_true hcheck
  obtain ⟨call, hcall, hended⟩ := (Option.any_eq_true _ _).1 hfirst
  have hunused : Unused inMemoryContract ⟨LedgerState.empty, racedPorts, []⟩ :=
    ⟨LedgerState.ordered_empty, grounded_nil, rfl, rfl⟩
  have hreach : Pool.Reach (runtimeRules inMemoryContract racedCodec) (Unused inMemoryContract) pool :=
    (((Pool.Reach.initial hunused).step (.call trivial)).step (.call trivial)).schedule (fun _ _ _ => rfl) hpool
  refine ⟨pool, hreach, hlength, ?_⟩
  unfold racedDone at hended
  split at hended
  · rename_i fuel key effect output
    obtain ⟨rfl, rfl, rfl⟩ := of_decide_eq_true hended
    exact (generic_effects_once hreach).2.2 0 fuel racedKey racedRequest _ (List.head?_eq_getElem?.symm.trans hcall)
  · cases hended

end Race

end Runtime
end Kolyan
