/-
# The calls of a component on a shared ledger

The rules of `Kolyan.Ledger.Port` are about the setting that allows every ledger
operation.  A component that must say which facts it adds, and when, has a setting
of its own, which shares the ledger and its queries with that one (`Shares`).  The
lookups of such a component answer for one moment (`yields_eventById`,
`yields_executionEvents`) and fail only where the store does (`Reads`).  A call that
has the ledger to itself ends (`EndsAlone`), if its fuel is beyond the facts that are
there and those it adds.
-/

import Kolyan.Ledger.Alone
import Kolyan.Lib.Pools
import Kolyan.Lib.Serving

namespace Kolyan
namespace Ledger

open Checks Threads Fallible

/-- Operations that only read. -/
def Op.reads {E : Type} : Op E → Prop
  | .ledger (.query _) => True
  | _ => False

section Reading

variable {E : Type} {A : E → Type}

instance reads_query (q : LedgerQuery) : Only Op.reads (query q : LedgerProg A _) := ⟨trivial, fun _ => trivial⟩

instance reads_checkedQuery (q : LedgerQuery) : Only Op.reads (checkedQuery q : LedgerProg A _) := by
  unfold checkedQuery; infer_instance

instance reads_eventById (id : String) : Only Op.reads (eventById id : LedgerProg A _) := by
  unfold eventById; infer_instance

instance reads_eventPages (id : String) (fuel after : ℕ) (events : List LedgerEvent) :
    Only Op.reads (eventPages id fuel after events : LedgerProg A _) := by
  induction fuel generalizing after events with
  | zero => exact ⟨trivial⟩
  | succ fuel ih => unfold eventPages; infer_instance

instance reads_executionEventsAfter (fuel : ℕ) (id : String) (after : ℕ) :
    Only Op.reads (executionEventsAfter fuel id after : LedgerProg A _) := reads_eventPages id fuel after []

end Reading

section Sharing

variable {σ H X : Type} {A : X → Type} {P : LedgerStore σ} {C : P.Contract}
variable {mayAdd : LedgerEvent → Prop} {hostRely : H → H → Prop} {hostStep : ℕ → H → (x : X) → A x × H} {thread : ℕ}
variable {E : Setting (Op X) (Op.Answer A) (World σ H)} {w w' : World σ H} {α : Type}

/-- A setting on a shared ledger that allows all queries. -/
structure Shares (C : P.Contract) (mayAdd : LedgerEvent → Prop) (hostRely : H → H → Prop)
    (hostStep : ℕ → H → (x : X) → A x × H) (thread : ℕ) (E : Setting (Op X) (Op.Answer A) (World σ H)) : Prop where
  act : E.act = fun w o r w' => perform P hostStep thread w o = (r, w')
  rely : E.rely = Interference C mayAdd hostRely
  queries : ∀ w q, E.allow w (.ledger (.query q))

theorem Shares.reading (h : Shares C mayAdd hostRely hostStep thread E) {p : Prog (Op X) (Op.Answer A) α}
    {Q : α → World σ H → Prop} (hp : p.Within Op.reads)
    (holds : Prog.Holds (setting C mayAdd hostRely hostStep (fun _ _ => True) thread) p Q w) : Prog.Holds E p Q w := by
  induction p generalizing w with
  | done a => exact holds
  | halt => trivial
  | ask o next ih =>
    rintro w' hw'
    rw [h.rely] at hw'
    have hallow : E.allow w' o := by
      match o, hp.1 with
      | .ledger (.query q), _ => exact h.queries w' q
    refine ⟨hallow, fun r w'' hact => ?_⟩
    rw [h.act] at hact
    exact ih r (hp.2 r) ((holds w' hw').2 r w'' hact)

theorem Shares.yields_eventById (h : Shares C mayAdd hostRely hostStep thread E) {eventId : String} :
    Yields E (eventById eventId) (fun found w' => Interference C mayAdd hostRely w w' ∧
      found = (w'.events C).find? fun event => event.eventId = eventId) w := by
  refine h.reading (reads_eventById eventId).within (holds_eventById (fun _ _ _ h => nomatch h) fun w' hw' => ?_)
  rintro found hfound
  exact ⟨hw', (Except.ok.inj hfound).symm⟩

/-- **The facts of an execution**, which has a name, of the moment of the last page. -/
theorem Shares.yields_executionEvents (h : Shares C mayAdd hostRely hostStep thread E)
    (htrans : ∀ a b c, hostRely a b → hostRely b c → hostRely a c) {executionId : String} {fuel : ℕ} :
    Yields E (executionEventsAfter fuel executionId 0) (fun facts w' => executionId ≠ "" ∧
      Interference C mayAdd hostRely w w' ∧
      facts = (w'.events C).filter fun event => event.executionId = executionId) w := by
  refine h.reading (reads_executionEventsAfter fuel executionId 0).within ?_
  by_cases hid : executionId = ""
  · subst hid
    cases fuel with
    | zero => trivial
    | succ fuel => exact holds_bind (holds_bind (holds_lift fun _ h => nomatch h))
  refine holds_executionEventsAfter htrans (fun _ _ _ h => nomatch h) (fun w' hw' => ?_) fuel
  rintro facts hfacts
  obtain rfl := Except.ok.inj hfacts
  exact ⟨hid, hw', since_zero hw'.sound _⟩

/-- **What a program reads.**  Its only failures are those of the store, and what it
answers is in `Q`. -/
def Reads {ε : Type} (C : P.Contract) (E : Setting (Op X) (Op.Answer A) (World σ H))
    (p : Fallible (Op X) (Op.Answer A) ε α) (Q : α → World σ H → Prop) (w : World σ H) : Prop :=
  Prog.Holds E p.run (fun r w' => (C.Reliable → ∃ a, r = .ok a) ∧ ∀ a, r = .ok a → Q a w') w

section Rules

variable {ε β : Type} {Q R : α → World σ H → Prop}

theorem Reads.mono {p : Fallible (Op X) (Op.Answer A) ε α} (h : Reads C E p Q w) (hQ : ∀ a w, Q a w → R a w) :
    Reads C E p R w := Prog.Holds.mono h fun _ w hr => ⟨hr.1, fun a ha => hQ a w (hr.2 a ha)⟩

theorem reads_pure {a : α} (h : Q a w) : Reads C E (pure a : Fallible (Op X) (Op.Answer A) ε α) Q w := by
  refine ⟨fun _ => ⟨a, rfl⟩, ?_⟩
  rintro b hb
  obtain rfl := Except.ok.inj hb
  exact h

theorem reads_lift {x : Except ε α} {a : α} (hx : x = .ok a) (h : Q a w) :
    Reads C E (lift x : Fallible (Op X) (Op.Answer A) ε α) Q w := by
  subst hx
  exact reads_pure h

theorem reads_bind {p : Fallible (Op X) (Op.Answer A) ε α} {f : α → Fallible (Op X) (Op.Answer A) ε β}
    {Q : β → World σ H → Prop} (h : Reads C E p (fun a w => Reads C E (f a) Q w) w) : Reads C E (p >>= f) Q w := by
  refine holds_bind (Prog.Holds.mono h fun r w' hr => ?_)
  cases r with
  | ok a => exact hr.2 a rfl
  | error e => exact ⟨fun reliable => absurd (hr.1 reliable) (by simp), fun _ h => nomatch h⟩

theorem reads_mapError {ε' : Type} {f : ε → ε'} {p : Fallible (Op X) (Op.Answer A) ε α} (h : Reads C E p Q w) :
    Reads C E (mapError f p) Q w := by
  refine holds_mapError (Prog.Holds.mono h fun r w' hr => ?_)
  cases r with
  | ok a => exact ⟨fun _ => ⟨a, rfl⟩, fun b hb => hr.2 b (congrArg Except.ok (Except.ok.inj hb))⟩
  | error e => exact ⟨fun reliable => absurd (hr.1 reliable) (by simp), fun _ h => nomatch h⟩

end Rules

/-- The answer of a program that the store alone may fail. -/
abbrev Replies (C : P.Contract) (r : Except LedgerError α) : Prop := C.Reliable → ∃ a, r = .ok a

theorem replies_checkedQuery {q : LedgerQuery} (hvalid : q.validate = .ok ()) :
    Prog.Holds (setting C mayAdd hostRely hostStep (fun _ _ => True) thread) (checkedQuery (A := A) q).run
      (fun r _ => Replies C r) w := by
  refine holds_bind (holds_lift ?_)
  rw [hvalid]
  refine holds_bind fun w' hw' => ⟨trivial, fun r w'' hact => ?_⟩
  replace hw' : Interference C mayAdd hostRely w w' := hw'
  obtain ⟨rfl, rfl⟩ := Prod.mk.inj hact
  cases hpage : (P.query w'.store q).1 with
  | error e =>
    intro reliable
    obtain ⟨page, hread⟩ := reliable.reads w'.store q hw'.sound.valid hvalid
    exact absurd (hpage.symm.trans hread) (by simp)
  | ok page =>
    obtain rfl := C.query_ok hw'.sound.valid hpage
    refine holds_bind (holds_lift ?_)
    rw [reject_of_not (by rw [List.length_take]; omega)]
    refine holds_bind (holds_lift ?_)
    rw [checkPage_exact (C.ascending hw'.sound.valid) _ _ (.inl le_rfl)]
    exact fun _ => ⟨_, rfl⟩

theorem replies_eventById {eventId : String} (hid : eventId ≠ "") :
    Prog.Holds (setting C mayAdd hostRely hostStep (fun _ _ => True) thread) (eventById (A := A) eventId).run
      (fun r _ => Replies C r) w := by
  have hempty : eventId.isEmpty = false := by
    rw [← Bool.not_eq_true, String.isEmpty_iff]
    exact hid
  have hvalid : LedgerQuery.validate { executionId := none, eventId := some eventId, after := 0, through := none, limit := 1 }
      = .ok () := by
    simp [LedgerQuery.validate, reject, hempty]
  refine holds_bind ((replies_checkedQuery hvalid).mono fun r w' hr => ?_)
  cases r with
  | error e => exact fun reliable => absurd (hr reliable) (by simp)
  | ok page => exact fun _ => ⟨_, rfl⟩

theorem replies_executionEvents {executionId : String} (hid : executionId ≠ "") {fuel : ℕ} :
    Prog.Holds (setting C mayAdd hostRely hostStep (fun _ _ => True) thread)
      (executionEventsAfter (A := A) fuel executionId 0).run (fun r _ => Replies C r) w := by
  have hpages : ∀ (fuel after : ℕ) (events : List LedgerEvent) (w : World σ H),
      Prog.Holds (setting C mayAdd hostRely hostStep (fun _ _ => True) thread)
        (eventPages (A := A) executionId fuel after events).run (fun r _ => Replies C r) w := by
    intro fuel
    induction fuel with
    | zero => exact fun _ _ _ => trivial
    | succ fuel ih =>
      intro after events w
      refine holds_bind ((replies_checkedQuery (executionPage_validate hid after)).mono fun r w' hr => ?_)
      cases r with
      | error e => exact fun reliable => absurd (hr reliable) (by simp)
      | ok page =>
        dsimp only
        split_ifs
        · exact fun _ => ⟨_, rfl⟩
        · exact ih _ _ w'
  exact hpages fuel 0 [] w

theorem Shares.reads_eventById (h : Shares C mayAdd hostRely hostStep thread E) {eventId : String} (hid : eventId ≠ "") :
    Reads C E (eventById eventId) (fun found w' => Interference C mayAdd hostRely w w' ∧
      found = (w'.events C).find? fun event => event.eventId = eventId) w :=
  (h.reading (Ledger.reads_eventById eventId).within (replies_eventById hid)).and h.yields_eventById

theorem Shares.reads_executionEvents (h : Shares C mayAdd hostRely hostStep thread E)
    (htrans : ∀ a b c, hostRely a b → hostRely b c → hostRely a c) {executionId : String} (hid : executionId ≠ "")
    {fuel : ℕ} :
    Reads C E (executionEventsAfter fuel executionId 0) (fun facts w' => Interference C mayAdd hostRely w w' ∧
      facts = (w'.events C).filter fun event => event.executionId = executionId) w :=
  Prog.Holds.mono ((h.reading (reads_executionEventsAfter fuel executionId 0).within (replies_executionEvents hid)).and
    (h.yields_executionEvents htrans)) fun _ _ hr => ⟨hr.1, fun a ha => (hr.2 a ha).2⟩

theorem Shares.yields_append (h : Shares C mayAdd hostRely hostStep thread E)
    (htrans : ∀ a b c, hostRely a b → hostRely b c → hostRely a c) (hrefl : ∀ a b, hostRely a b → hostRely b b)
    {event : LedgerEvent} (hmay : ∀ saved : LedgerEvent, saved = { event with cursor := saved.cursor } → mayAdd saved)
    (hallow : ∀ w', Interference C mayAdd hostRely w w' → E.allow w' (.ledger (.append event))) :
    Yields E (append event) (fun saved w' => Interference C mayAdd hostRely w w' ∧ saved ∈ w'.events C ∧
      saved = { event with cursor := saved.cursor }) w := by
  intro w₁ hw₁
  rw [h.rely] at hw₁
  refine ⟨hallow w₁ hw₁, fun r w₂ hact => ?_⟩
  rw [h.act] at hact
  obtain ⟨rfl, rfl⟩ := Prod.mk.inj hact
  obtain ⟨hvalid, happended⟩ := C.append_spec hw₁.sound.valid event
  have hown : Interference C mayAdd hostRely w₁ (perform P hostStep thread w₁ (.ledger (.append event))).2 := by
    obtain ⟨hsound, hgrows, hauthors⟩ := hw₁.sound.perform hostStep thread (.ledger (.append event))
    refine ⟨hsound, hgrows, fun e he => ?_, hauthors, hrefl _ _ hw₁.host⟩
    exact (happended.mem he).imp_right (hmay e)
  rintro saved hsaved
  rw [hsaved] at happended
  obtain ⟨-, hsame, hnew⟩ := happended.ok
  refine ⟨Interference.trans htrans hw₁ hown, ?_, hsame⟩
  show saved ∈ C.events _
  rw [hnew]
  exact List.mem_append_right _ (List.mem_singleton.2 rfl)

end Sharing

section Ending

variable {σ H X : Type} {A : X → Type} {P : LedgerStore σ} (C : P.Contract)
variable (hostStep : ℕ → H → (x : X) → A x × H) (thread room : ℕ) {own : ℕ} {α β ε : Type}

/-- A call that has the ledger to itself. -/
def alone (P : LedgerStore σ) : Setting (Op X) (Op.Answer A) (World σ H) where
  act := fun w o r w' => perform P hostStep thread w o = (r, w')
  rely := fun w w' => w' = w
  allow := fun _ _ => True

/-- **A call ends**, alone, where the ledger has room for the facts of its own. -/
def EndsAlone (own : ℕ) (p : Fallible (Op X) (Op.Answer A) ε α) : Prop :=
  ∀ w : World σ H, w.Sound C → (w.events C).length + own < room →
    Prog.Ends (alone hostStep thread P) p.run (fun _ w' => w'.Sound C ∧
      (w'.events C).length ≤ (w.events C).length + own) w

variable {C hostStep thread room}

theorem ends_of_run {p : Prog (Op X) (Op.Answer A) α} {Q : α → World σ H → Prop} {w w' : World σ H} {a : α}
    (h : p.run (perform P hostStep thread) w = some (a, w')) (hQ : Q a w') :
    Prog.Ends (alone hostStep thread P) p Q w := by
  induction p generalizing w with
  | done b =>
    obtain ⟨rfl, rfl⟩ := Prod.mk.inj (Option.some.inj h)
    exact hQ
  | halt => exact nomatch h
  | ask o next ih =>
    rintro _ rfl
    refine ⟨trivial, fun r w'' hact => ?_⟩
    obtain ⟨rfl, rfl⟩ := Prod.mk.inj hact
    exact ih _ h

theorem endsAlone_ask {o : Op X} {next : Op.Answer A o → Except ε α}
    (hgrows : ∀ w : World σ H, w.Sound C →
      ((perform P hostStep thread w o).2.events C).length ≤ (w.events C).length + own) :
    EndsAlone C hostStep thread room own (Fallible.ofProg (.ask o fun r => .done (next r))) := by
  intro w hw _
  exact ends_of_run rfl ⟨(hw.perform hostStep thread o).1, hgrows w hw⟩

theorem endsAlone_lift (x : Except ε α) :
    EndsAlone C hostStep thread room own (lift x : Fallible (Op X) (Op.Answer A) ε α) :=
  fun _ hw _ => ⟨hw, Nat.le_add_right ..⟩

theorem endsAlone_pure (a : α) : EndsAlone C hostStep thread room own (pure a : Fallible (Op X) (Op.Answer A) ε α) :=
  fun _ hw _ => ⟨hw, Nat.le_add_right ..⟩

theorem endsAlone_throw (e : ε) :
    EndsAlone C hostStep thread room own (throw e : Fallible (Op X) (Op.Answer A) ε α) :=
  fun _ hw _ => ⟨hw, Nat.le_add_right ..⟩

theorem endsAlone_bind (k l : ℕ) {p : Fallible (Op X) (Op.Answer A) ε α} {f : α → Fallible (Op X) (Op.Answer A) ε β}
    (hp : EndsAlone C hostStep thread room k p) (hf : ∀ a, EndsAlone C hostStep thread room l (f a))
    (hown : k + l ≤ own) : EndsAlone C hostStep thread room own (p >>= f) := by
  intro w hw hroom
  refine Fallible.ends_bind ((hp w hw (by omega)).mono fun r w' hr => ?_)
  obtain ⟨hw', hlength⟩ := hr
  cases r with
  | error e => exact ⟨hw', by omega⟩
  | ok a => exact (hf a w' hw' (by omega)).mono fun _ w'' h => ⟨h.1, by omega⟩

theorem endsAlone_then {p : Fallible (Op X) (Op.Answer A) ε α} {f : α → Fallible (Op X) (Op.Answer A) ε β}
    (hp : EndsAlone C hostStep thread room 0 p) (hf : ∀ a, EndsAlone C hostStep thread room own (f a)) :
    EndsAlone C hostStep thread room own (p >>= f) := endsAlone_bind 0 own hp hf (by omega)

theorem EndsAlone.mapError {ε' : Type} {g : ε → ε'} {p : Fallible (Op X) (Op.Answer A) ε α}
    (h : EndsAlone C hostStep thread room own p) : EndsAlone C hostStep thread room own (Fallible.mapError g p) := by
  intro w hw hroom
  refine Fallible.ends_mapError ((h w hw hroom).mono fun r w' hr => ?_)
  cases r with
  | ok a => exact hr
  | error e => exact hr

theorem EndsAlone.attempt {ε' : Type} {p : Fallible (Op X) (Op.Answer A) ε α}
    (h : EndsAlone C hostStep thread room own p) :
    EndsAlone C hostStep thread room own (Fallible.attempt p : Fallible (Op X) (Op.Answer A) ε' (Except ε α)) :=
  fun w hw hroom => Fallible.ends_attempt (h w hw hroom)

theorem EndsAlone.more {k : ℕ} {p : Fallible (Op X) (Op.Answer A) ε α} (h : EndsAlone C hostStep thread room k p)
    (hown : k ≤ own) : EndsAlone C hostStep thread room own p :=
  fun w hw hroom => (h w hw (by omega)).mono fun _ _ h => ⟨h.1, by omega⟩

theorem endsAlone_query {q : LedgerQuery} : EndsAlone C hostStep thread room 0 (query q : LedgerProg A _) :=
  endsAlone_ask fun _ hw => (congrArg List.length (C.query_frame hw.valid q).2).le

theorem endsAlone_checkedQuery {q : LedgerQuery} : EndsAlone C hostStep thread room 0 (checkedQuery q : LedgerProg A _) := by
  unfold checkedQuery
  exact endsAlone_then (endsAlone_lift _) fun _ => endsAlone_then endsAlone_query fun _ =>
    endsAlone_then (endsAlone_lift _) fun _ => endsAlone_then (endsAlone_lift _) fun _ => endsAlone_pure _

theorem endsAlone_eventById {eventId : String} :
    EndsAlone C hostStep thread room 0 (eventById eventId : LedgerProg A _) := by
  unfold eventById
  exact endsAlone_then endsAlone_checkedQuery fun _ => endsAlone_pure _

theorem length_of_appended {old new : List LedgerEvent} {event : LedgerEvent} {r : Except LedgerError LedgerEvent}
    (h : Appended old event new r) : new.length ≤ old.length + 1 := by
  cases h with
  | refused error => omega
  | committed cursor hfresh => rw [List.length_append, List.length_singleton]
  | ambiguous cursor message hfresh => rw [List.length_append, List.length_singleton]

theorem endsAlone_append {event : LedgerEvent} : EndsAlone C hostStep thread room 1 (append event : LedgerProg A _) :=
  endsAlone_ask fun _ hw => length_of_appended (C.append_spec hw.valid event).2

theorem endsAlone_appendUnlessCancelled {event : LedgerEvent} :
    EndsAlone C hostStep thread room 1 (appendUnlessCancelled event : LedgerProg A _) :=
  endsAlone_ask fun _ hw => length_of_appended (C.admission_spec hw.valid event).2.1

/-- **The facts of an execution**, in as many pages as there is room. -/
theorem endsAlone_executionEvents (reliable : C.Reliable) {executionId : String} :
    EndsAlone C hostStep thread room 0 (executionEventsAfter room executionId 0 : LedgerProg A _) := by
  intro w hw hroom
  by_cases hid : executionId = ""
  · subst hid
    cases room with
    | zero => omega
    | succ fuel =>
      refine Fallible.ends_bind (Fallible.ends_bind (Fallible.ends_lift ?_))
      exact ⟨hw, le_rfl⟩
  · obtain ⟨w', hrun, hsame⟩ := executionEventsAfter_alone reliable hw hid (by omega)
    exact ends_of_run hrun ⟨hsame.sound, (congrArg List.length hsame.events).le⟩

theorem EndsAlone.runs {p : Fallible (Op X) (Op.Answer A) ε α} (h : EndsAlone C hostStep thread room own p)
    {w : World σ H} (hw : w.Sound C) (hroom : (w.events C).length + own < room) :
    ∃ r w', p.run.run (perform P hostStep thread) w = some (r, w') := by
  obtain ⟨r, w', hrun, -⟩ := (h w hw hroom).runs (fun _ (_ : True) => rfl) (fun _ _ _ _ => ⟨rfl, trivial⟩) trivial
  exact ⟨r, w', hrun⟩

end Ending

end Ledger
end Kolyan
