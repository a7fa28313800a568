/-
# Programs over a shared ledger

The callers of `LedgerStore` are threads of one process, or of several, that
share a store.  Here they are programs over two kinds of operation, those of
the store and those of their host, run in a `World` that holds the store, the
host's state and a record of which thread committed which fact.  The lemmas
`holds_…` are the proof rules of the two default methods of the trait when
other threads run in between: a lookup answers for the moment of its query, and
a paged read for the moment of its last page.
-/

import Kolyan.Ledger.Store
import Kolyan.Lib.Threads

namespace Kolyan
namespace Ledger

open Checks Threads

/-- The operations of a store. -/
inductive LedgerOp where
  | query (q : LedgerQuery)
  | append (event : LedgerEvent)
  | appendUnlessCancelled (event : LedgerEvent)

/-- The operations of a thread: the store's and its host's. -/
inductive Op (E : Type) where
  | ledger (o : LedgerOp)
  | host (e : E)

/-- What an operation answers. -/
def Op.Answer {E : Type} (A : E → Type) : Op E → Type
  | .ledger (.query _) => Except LedgerError (List LedgerEvent)
  | .ledger (.append _) => Except LedgerError LedgerEvent
  | .ledger (.appendUnlessCancelled _) => Except LedgerError LedgerEvent
  | .host e => A e

/-- Programs that fail with a ledger's errors. -/
abbrev LedgerProg {E : Type} (A : E → Type) := Fallible (Op E) (Op.Answer A) LedgerError

section Programs

variable {E : Type} {A : E → Type}

/-- `LedgerStore::query`. -/
def query (q : LedgerQuery) : LedgerProg A (List LedgerEvent) :=
  Fallible.ofProg (.ask (.ledger (.query q)) .done)

/-- `LedgerStore::append`. -/
def append (event : LedgerEvent) : LedgerProg A LedgerEvent :=
  Fallible.ofProg (.ask (.ledger (.append event)) .done)

/-- `LedgerStore::append_unless_cancelled`. -/
def appendUnlessCancelled (event : LedgerEvent) : LedgerProg A LedgerEvent :=
  Fallible.ofProg (.ask (.ledger (.appendUnlessCancelled event)) .done)

/-- The loop of `checked_query`: every event is in scope and cursors ascend. -/
def checkPage (q : LedgerQuery) (previous : ℕ) : List LedgerEvent → Except LedgerError Unit
  | [] => .ok ()
  | event :: page => do
    reject (q.selects event = false ∨ event.cursor ≤ previous)
      (.storage "query returned an out-of-scope or nonascending event")
    checkPage q event.cursor page

/-- `checked_query`. -/
def checkedQuery (q : LedgerQuery) : LedgerProg A (List LedgerEvent) := do
  Fallible.lift q.validate
  let page ← query q
  Fallible.lift (reject (page.length > q.limit) (.storage "query returned more than its limit"))
  Fallible.lift (checkPage q q.after page)
  return page

/-- `LedgerStore::event_by_id`. -/
def eventById (eventId : String) : LedgerProg A (Option LedgerEvent) := do
  let page ← checkedQuery
    { executionId := none, eventId := some eventId, after := 0, through := none, limit := 1 }
  return page.head?

/-- The query of one page of an execution. -/
def executionPage (executionId : String) (after : ℕ) : LedgerQuery :=
  { executionId := some executionId, eventId := none, after, through := none, limit := 512 }

/-- The loop of `execution_events_after`; the pages left are the fuel. -/
def eventPages (executionId : String) :
    ℕ → ℕ → List LedgerEvent → LedgerProg A (List LedgerEvent)
  | 0, _, _ => Fallible.ofProg .halt
  | fuel + 1, after, events => do
    let page ← checkedQuery (executionPage executionId after)
    let next := (page.getLast?.map (·.cursor)).getD after
    if page.length < 512 then return events ++ page
    else eventPages executionId fuel next (events ++ page)

/-- `LedgerStore::execution_events_after`: one execution in pages of 512. -/
def executionEventsAfter (fuel : ℕ) (executionId : String) (after : ℕ) :
    LedgerProg A (List LedgerEvent) :=
  eventPages executionId fuel after []

end Programs

/-- A store, the state of the threads' host, and who committed which event id. -/
structure World (σ H : Type) where
  store : σ
  host : H
  authors : List (String × ℕ)

section Perform

variable {σ H E : Type} {A : E → Type}

/-- Note the author of a successful append. -/
def recordAuthor (thread : ℕ) (r : Except LedgerError LedgerEvent) (authors : List (String × ℕ)) :
    List (String × ℕ) :=
  match r with
  | .ok saved => authors ++ [(saved.eventId, thread)]
  | .error _ => authors

/-- One atomic operation of a thread. -/
def perform (P : LedgerStore σ) (hostStep : ℕ → H → (e : E) → A e × H) (thread : ℕ)
    (w : World σ H) : (o : Op E) → Op.Answer A o × World σ H
  | .ledger (.query q) => ((P.query w.store q).1, { w with store := (P.query w.store q).2 })
  | .ledger (.append event) =>
      ((P.append w.store event).1,
        { w with
          store := (P.append w.store event).2
          authors := recordAuthor thread (P.append w.store event).1 w.authors })
  | .ledger (.appendUnlessCancelled event) =>
      ((P.appendUnlessCancelled w.store event).1,
        { w with
          store := (P.appendUnlessCancelled w.store event).2
          authors := recordAuthor thread (P.appendUnlessCancelled w.store event).1 w.authors })
  | .host e => ((hostStep thread w.host e).1, { w with host := (hostStep thread w.host e).2 })

end Perform

section Worlds

variable {σ H E : Type} {A : E → Type} {P : LedgerStore σ} (C : P.Contract)

/-- The committed facts of a world. -/
abbrev World.events (w : World σ H) : List LedgerEvent := C.events w.store

/-- The store is valid, and every recorded id is a committed fact with one
author. -/
structure World.Sound (w : World σ H) : Prop where
  valid : C.Valid w.store
  authored : ∀ a ∈ w.authors, ∃ event ∈ w.events C, event.eventId = a.1
  single : (w.authors.map (·.1)).Nodup

variable {C}

theorem World.Sound.start {s : σ} (hs : C.Valid s) (h : H) : World.Sound C ⟨s, h, []⟩ where
  valid := hs
  authored := fun _ ha => absurd ha List.not_mem_nil
  single := List.nodup_nil

theorem World.Sound.author_unique {w : World σ H} (h : w.Sound C) {id : String} {i j : ℕ}
    (hi : (id, i) ∈ w.authors) (hj : (id, j) ∈ w.authors) : i = j := by
  have := List.inj_on_of_nodup_map h.single hi hj rfl
  exact (Prod.mk.inj this).2

variable {hostStep : ℕ → H → (e : E) → A e × H}

theorem World.Sound.grow {w : World σ H} (h : w.Sound C) {s' : σ} (hs : C.Valid s')
    (hgrows : w.events C <+: C.events s') : World.Sound C ⟨s', w.host, w.authors⟩ where
  valid := hs
  authored := fun a ha => (h.authored a ha).imp fun _ he => ⟨hgrows.subset he.1, he.2⟩
  single := h.single

theorem World.Sound.record {w : World σ H} (h : w.Sound C) {event : LedgerEvent} {s' : σ}
    {r : Except LedgerError LedgerEvent} (hs : C.Valid s')
    (happ : Appended (w.events C) event (C.events s') r) (thread : ℕ) :
    World.Sound C ⟨s', w.host, recordAuthor thread r w.authors⟩ := by
  have hgrow := h.grow hs happ.grows
  cases r with
  | error e => exact hgrow
  | ok saved =>
    obtain ⟨hfresh, hsaved, hnew⟩ := happ.ok
    refine ⟨hs, fun a ha => ?_, ?_⟩
    · rcases List.mem_append.1 ha with ha | ha
      · exact hgrow.authored a ha
      · obtain rfl := List.mem_singleton.1 ha
        exact ⟨saved, by simp only [World.events]; rw [hnew]; simp, rfl⟩
    · simp only [recordAuthor, List.map_append, List.map_cons, List.map_nil]
      refine List.nodup_append.2 ⟨h.single, List.nodup_singleton _, fun x hx y hy => ?_⟩
      obtain rfl := List.mem_singleton.1 hy
      obtain ⟨a, ha, rfl⟩ := List.mem_map.1 hx
      obtain ⟨ev, hev, hid⟩ := h.authored a ha
      have hne := (collides_eq_false.1 hfresh ev hev).1
      rw [hid] at hne
      rw [hsaved]
      exact hne

/-- **An operation keeps the world sound**, and facts are only added. -/
theorem World.Sound.perform {w : World σ H} (h : w.Sound C)
    (hostStep : ℕ → H → (e : E) → A e × H) (thread : ℕ) (o : Op E) :
    (Ledger.perform P hostStep thread w o).2.Sound C ∧
      w.events C <+: (Ledger.perform P hostStep thread w o).2.events C ∧
      w.authors <+: (Ledger.perform P hostStep thread w o).2.authors := by
  have hrec : ∀ r, w.authors <+: recordAuthor thread r w.authors := by
    intro r
    cases r with
    | error e => exact List.prefix_rfl
    | ok saved => exact List.prefix_append _ _
  match o with
  | .ledger (.query q) =>
    obtain ⟨hs, he⟩ := C.query_frame h.valid q
    refine ⟨⟨hs, ?_, h.single⟩, ?_, List.prefix_rfl⟩
    · simp only [World.events, Ledger.perform, he]
      exact h.authored
    · simp only [World.events, Ledger.perform, he]
      exact List.prefix_rfl
  | .ledger (.append event) =>
    obtain ⟨hs, happ⟩ := C.append_spec h.valid event
    exact ⟨h.record hs happ thread, happ.grows, hrec _⟩
  | .ledger (.appendUnlessCancelled event) =>
    obtain ⟨hs, happ, -⟩ := C.admission_spec h.valid event
    exact ⟨h.record hs happ thread, happ.grows, hrec _⟩
  | .host e => exact ⟨⟨h.valid, h.authored, h.single⟩, List.prefix_rfl, List.prefix_rfl⟩

variable (C)

/-- What the others may do between two operations of a thread: add facts that
satisfy `mayAdd` and change the host as `hostRely` allows. -/
structure Interference (mayAdd : LedgerEvent → Prop) (hostRely : H → H → Prop)
    (w w' : World σ H) : Prop where
  sound : w'.Sound C
  grows : w.events C <+: w'.events C
  added : ∀ event ∈ w'.events C, event ∈ w.events C ∨ mayAdd event
  authors : w.authors <+: w'.authors
  host : hostRely w.host w'.host

variable {C} {mayAdd : LedgerEvent → Prop} {hostRely : H → H → Prop}

theorem Interference.trans (htrans : ∀ a b c, hostRely a b → hostRely b c → hostRely a c)
    {a b c : World σ H} (h : Interference C mayAdd hostRely a b) (h' : Interference C mayAdd hostRely b c) :
    Interference C mayAdd hostRely a c where
  sound := h'.sound
  grows := h.grows.trans h'.grows
  added := fun event he => (h'.added event he).elim (h.added event) .inr
  authors := h.authors.trans h'.authors
  host := htrans _ _ _ h.host h'.host

theorem Interference.refl {w : World σ H} (h : w.Sound C) (hrefl : hostRely w.host w.host) :
    Interference C mayAdd hostRely w w :=
  ⟨h, List.prefix_rfl, fun _ he => .inl he, List.prefix_rfl, hrefl⟩

theorem Interference.query {w w' : World σ H} (h : Interference C mayAdd hostRely w w')
    (q : LedgerQuery) :
    Interference C mayAdd hostRely w { w' with store := (P.query w'.store q).2 } ∧
      World.events C { w' with store := (P.query w'.store q).2 } = w'.events C := by
  obtain ⟨hs, he⟩ := C.query_frame h.sound.valid q
  have hev : World.events C { w' with store := (P.query w'.store q).2 } = w'.events C := he
  refine ⟨⟨⟨hs, ?_, h.sound.single⟩, ?_, ?_, h.authors, h.host⟩, hev⟩
  · rw [hev]; exact h.sound.authored
  · rw [hev]; exact h.grows
  · rw [hev]; exact h.added

theorem checkPage_exact {q : LedgerQuery} {events : List LedgerEvent}
    (hasc : events.Pairwise (·.cursor < ·.cursor)) :
    ∀ (n previous : ℕ), previous ≤ q.after ∨ (∀ e ∈ events, q.selects e → previous < e.cursor) →
      checkPage q previous ((events.filter q.selects).take n) = .ok () := by
  induction events with
  | nil => intro n previous _; simp [checkPage]
  | cons e events ih =>
    obtain ⟨hlt, hasc⟩ := List.pairwise_cons.1 hasc
    intro n previous hprev
    by_cases hsel : q.selects e = true
    · rw [List.filter_cons_of_pos hsel]
      cases n with
      | zero => simp [checkPage]
      | succ n =>
        have hafter : q.after < e.cursor := by
          simp only [LedgerQuery.selects, Bool.and_eq_true, decide_eq_true_eq] at hsel
          omega
        have hcur : previous < e.cursor := by
          rcases hprev with h | h
          · omega
          · exact h e (List.mem_cons_self ..) hsel
        have hreject : ¬(q.selects e = false ∨ e.cursor ≤ previous) := by
          rw [hsel]; simp only [Bool.true_eq_false, false_or]; omega
        rw [List.take_succ_cons, checkPage, reject_of_not hreject, ok_bind]
        exact ih hasc n e.cursor (.inr fun e' he' _ => hlt e' he')
    · rw [List.filter_cons_of_neg hsel]
      exact ih hasc n previous (hprev.imp_right fun h e' he' => h e' (List.mem_cons_of_mem _ he'))

variable (C) in
/-- A thread on a shared ledger: every ledger operation is allowed to it, and the
host operations that `mayAsk` names. -/
def setting (mayAdd : LedgerEvent → Prop) (hostRely : H → H → Prop)
    (hostStep : ℕ → H → (e : E) → A e × H) (mayAsk : World σ H → E → Prop) (thread : ℕ) :
    Setting (Op E) (Op.Answer A) (World σ H) where
  act w o r w' := perform P hostStep thread w o = (r, w')
  rely := Interference C mayAdd hostRely
  allow w o :=
    match o with
    | .ledger _ => True
    | .host e => mayAsk w e

variable {mayAsk : World σ H → E → Prop} {thread : ℕ} {w : World σ H}

theorem holds_checkedQuery {q : LedgerQuery} {Q : Except LedgerError (List LedgerEvent) → World σ H → Prop}
    (herr : ∀ e w', Q (.error e) w')
    (hok : ∀ w', Interference C mayAdd hostRely w w' →
      Q (.ok (((w'.events C).filter q.selects).take q.limit)) w') :
    Prog.Holds (setting C mayAdd hostRely hostStep mayAsk thread)
      (checkedQuery (A := A) q).run Q w := by
  refine Fallible.holds_bind (Fallible.holds_lift ?_)
  cases hvalid : q.validate with
  | error e => exact herr e w
  | ok u =>
    refine Fallible.holds_bind fun w' hw' => ⟨trivial, ?_⟩
    replace hw' : Interference C mayAdd hostRely w w' := hw'
    obtain ⟨hw'', hev⟩ := hw'.query q
    have hok := hok _ hw''
    rw [hev] at hok
    rintro r w'' hact
    obtain ⟨hr, rfl⟩ := Prod.mk.inj hact
    cases r with
    | error e => exact herr e _
    | ok page =>
      obtain rfl := C.query_ok hw'.sound.valid hr
      refine Fallible.holds_bind (Fallible.holds_lift ?_)
      rw [reject_of_not (by rw [List.length_take]; omega)]
      refine Fallible.holds_bind (Fallible.holds_lift ?_)
      rw [checkPage_exact (C.ascending hw'.sound.valid) _ _ (.inl le_rfl)]
      exact hok

theorem holds_append {event : LedgerEvent} {Q : Except LedgerError LedgerEvent → World σ H → Prop}
    (h : ∀ w', Interference C mayAdd hostRely w w' → ∀ s' r, C.Valid s' →
      Appended (w'.events C) event (C.events s') r →
        Q r ⟨s', w'.host, recordAuthor thread r w'.authors⟩) :
    Prog.Holds (setting C mayAdd hostRely hostStep mayAsk thread)
      (append (A := A) event).run Q w := by
  intro w' hw'
  replace hw' : Interference C mayAdd hostRely w w' := hw'
  obtain ⟨hs, happ⟩ := C.append_spec hw'.sound.valid event
  refine ⟨trivial, ?_⟩
  rintro r w'' hact
  obtain ⟨rfl, rfl⟩ := Prod.mk.inj hact
  exact h w' hw' _ _ hs happ

/-- An admission is an append to an execution that is not cancelled. -/
theorem holds_appendUnlessCancelled {event : LedgerEvent}
    {Q : Except LedgerError LedgerEvent → World σ H → Prop}
    (h : ∀ w', Interference C mayAdd hostRely w w' → ∀ s' r, C.Valid s' →
      Appended (w'.events C) event (C.events s') r →
      (hasCancelled (w'.events C) event.executionId = true → C.events s' = w'.events C) →
        Q r ⟨s', w'.host, recordAuthor thread r w'.authors⟩) :
    Prog.Holds (setting C mayAdd hostRely hostStep mayAsk thread)
      (appendUnlessCancelled (A := A) event).run Q w := by
  intro w' hw'
  replace hw' : Interference C mayAdd hostRely w w' := hw'
  obtain ⟨hs, happ, hcancel⟩ := C.admission_spec hw'.sound.valid event
  refine ⟨trivial, ?_⟩
  rintro r w'' hact
  obtain ⟨rfl, rfl⟩ := Prod.mk.inj hact
  exact h w' hw' _ _ hs happ hcancel

theorem holds_eventById {eventId : String} {Q : Except LedgerError (Option LedgerEvent) → World σ H → Prop}
    (herr : ∀ e w', Q (.error e) w')
    (hok : ∀ w', Interference C mayAdd hostRely w w' →
      Q (.ok ((w'.events C).find? (·.eventId = eventId))) w') :
    Prog.Holds (setting C mayAdd hostRely hostStep mayAsk thread)
      (eventById (A := A) eventId).run Q w := by
  refine Fallible.holds_bind (holds_checkedQuery herr fun w' hw' => ?_)
  refine Fallible.holds_pure ?_
  have hsel : ∀ event ∈ w'.events C, (LedgerQuery.selects
      { executionId := none, eventId := some eventId, after := 0, through := none, limit := 1 } event) =
        decide (event.eventId = eventId) := by
    intro event he
    have hpos := C.positive hw'.sound.valid event he
    simp [LedgerQuery.selects, hpos, eq_comm]
  rw [List.filter_congr hsel, List.head?_take, if_neg one_ne_zero, List.head?_filter]
  exact hok w' hw'

/-- The facts of `p` after a cursor. -/
def since (p : LedgerEvent → Bool) (after : ℕ) (events : List LedgerEvent) : List LedgerEvent :=
  events.filter fun event => p event && decide (after < event.cursor)

theorem filter_gt_last_take {M : List LedgerEvent} (hasc : M.Pairwise (·.cursor < ·.cursor)) {n : ℕ}
    {last : LedgerEvent} (hlast : (M.take n).getLast? = some last) :
    M.filter (fun event => decide (last.cursor < event.cursor)) = M.drop n := by
  obtain ⟨init, hinit⟩ := List.getLast?_eq_some_iff.1 hlast
  have hsplit : M.take n ++ M.drop n = M := List.take_append_drop n M
  have hpair := hasc
  rw [← hsplit, List.pairwise_append] at hpair
  obtain ⟨htake, -, hcross⟩ := hpair
  rw [hinit, List.pairwise_append] at htake
  have hlow : ∀ event ∈ M.take n, ¬last.cursor < event.cursor := by
    intro event he
    rw [hinit] at he
    rcases List.mem_append.1 he with he | he
    · have := htake.2.2 event he last (List.mem_singleton_self _)
      omega
    · rw [List.mem_singleton.1 he]
      omega
  have hmem : last ∈ M.take n := by rw [hinit]; simp
  calc M.filter (fun event => decide (last.cursor < event.cursor))
      = (M.take n ++ M.drop n).filter (fun event => decide (last.cursor < event.cursor)) := by
        rw [hsplit]
    _ = M.drop n := by
        rw [List.filter_append, List.filter_eq_nil_iff.2 (by simpa using hlow), List.nil_append,
          List.filter_eq_self]
        intro event he
        simpa using hcross last hmem event he

/-- How far a paged read has come: what it holds and what lies after its
cursor are the facts after the start.  The cursor was given out, unless the
read is at its start. -/
structure Paged (p : LedgerEvent → Bool) (start after : ℕ) (acc events : List LedgerEvent) : Prop where
  split : acc ++ since p after events = since p start events
  le : start ≤ after
  reached : after = start ∧ acc = [] ∨ ∃ event ∈ events, event.cursor = after

theorem Paged.start {p : LedgerEvent → Bool} {start : ℕ} {events : List LedgerEvent} :
    Paged p start start [] events :=
  ⟨rfl, le_rfl, .inl ⟨rfl, rfl⟩⟩

theorem Paged.grows {p : LedgerEvent → Bool} {start after : ℕ} {acc old new : List LedgerEvent}
    (h : Paged p start after acc old) (hpart : old <+: new)
    (hasc : new.Pairwise (·.cursor < ·.cursor)) : Paged p start after acc new := by
  rcases h.reached with ⟨rfl, rfl⟩ | ⟨event, hevent, hcursor⟩
  · exact Paged.start
  · refine ⟨?_, h.le, .inr ⟨event, hpart.subset hevent, hcursor⟩⟩
    obtain ⟨more, rfl⟩ := hpart
    have hlater : ∀ e ∈ more, after < e.cursor := by
      intro e he
      have := (List.pairwise_append.1 hasc).2.2 event hevent e he
      omega
    have hmore : ∀ a, a ≤ after → since p a more = more.filter p := by
      intro a ha
      refine List.filter_congr fun e he => ?_
      have := hlater e he
      simp only [show a < e.cursor by omega, decide_true, Bool.and_true]
    have hsplit := h.split
    simp only [since, List.filter_append] at hsplit hmore ⊢
    rw [← List.append_assoc, hsplit, hmore after le_rfl, hmore start h.le]

theorem Paged.page {p : LedgerEvent → Bool} {start after n : ℕ} {acc events : List LedgerEvent}
    (h : Paged p start after acc events) (hasc : events.Pairwise (·.cursor < ·.cursor))
    {last : LedgerEvent} (hlast : ((since p after events).take n).getLast? = some last) :
    Paged p start last.cursor (acc ++ (since p after events).take n) events := by
  have hmem : last ∈ since p after events :=
    List.mem_of_mem_take (List.mem_of_getLast? hlast)
  obtain ⟨hin, hsel⟩ := List.mem_filter.1 hmem
  have hlt : after < last.cursor := by
    simp only [Bool.and_eq_true, decide_eq_true_eq] at hsel
    exact hsel.2
  have hrest : since p last.cursor events = (since p after events).drop n := by
    have hdrop := filter_gt_last_take (hasc.filter _) hlast
    refine Eq.trans ?_ hdrop
    simp only [since, List.filter_filter]
    refine List.filter_congr fun e _ => ?_
    by_cases he : last.cursor < e.cursor
    · simp [he, show after < e.cursor by omega]
    · simp [he]
  refine ⟨?_, h.le.trans hlt.le, .inr ⟨last, hin, rfl⟩⟩
  rw [List.append_assoc, hrest, List.take_append_drop, h.split]

theorem Paged.last {p : LedgerEvent → Bool} {start after n : ℕ} {acc events : List LedgerEvent}
    (h : Paged p start after acc events) (hshort : ((since p after events).take n).length < n) :
    acc ++ (since p after events).take n = since p start events := by
  rw [List.length_take] at hshort
  rw [List.take_of_length_le (by omega), h.split]

theorem selects_since {executionId : String} {after : ℕ} (events : List LedgerEvent) :
    events.filter (executionPage executionId after).selects =
      since (fun event => decide (event.executionId = executionId)) after events := by
  refine List.filter_congr fun event _ => ?_
  simp [executionPage, LedgerQuery.selects, Bool.and_comm, eq_comm]

theorem holds_eventPages {executionId : String} {start : ℕ}
    {Q : Except LedgerError (List LedgerEvent) → World σ H → Prop}
    (htrans : ∀ a b c, hostRely a b → hostRely b c → hostRely a c)
    (herr : ∀ e w', Q (.error e) w')
    (hok : ∀ w', Interference C mayAdd hostRely w w' → Q (.ok (since
      (fun event => decide (event.executionId = executionId)) start (w'.events C))) w')
    (fuel after : ℕ) (acc : List LedgerEvent)
    (hacc : ∀ w', Interference C mayAdd hostRely w w' →
      Paged (fun event => decide (event.executionId = executionId)) start after acc (w'.events C)) :
    Prog.Holds (setting C mayAdd hostRely hostStep mayAsk thread)
      (eventPages (A := A) executionId fuel after acc).run Q w := by
  induction fuel generalizing after acc w with
  | zero => exact trivial
  | succ fuel ih =>
    refine Fallible.holds_bind (holds_checkedQuery herr fun w' hw' => ?_)
    have hpaged := hacc w' hw'
    have hasc := C.ascending hw'.sound.valid
    simp only [selects_since, show (executionPage executionId after).limit = 512 from rfl]
    split_ifs with hshort
    · refine Fallible.holds_pure ?_
      rw [hpaged.last hshort]
      exact hok w' hw'
    · obtain ⟨last, hlast⟩ : ∃ last, ((since (fun event => decide (event.executionId = executionId))
          after (w'.events C)).take 512).getLast? = some last := by
        refine Option.ne_none_iff_exists'.1 fun hnone => hshort ?_
        rw [List.getLast?_eq_none_iff.1 hnone]
        decide
      simp only [hlast, Option.map_some, Option.getD_some]
      refine ih (fun w'' hw'' => hok w'' (hw'.trans htrans hw'')) _ _ fun w'' hw'' => ?_
      exact (hpaged.page hasc hlast).grows hw''.grows (C.ascending hw''.sound.valid)

theorem holds_executionEventsAfter {executionId : String} {start : ℕ}
    {Q : Except LedgerError (List LedgerEvent) → World σ H → Prop}
    (htrans : ∀ a b c, hostRely a b → hostRely b c → hostRely a c)
    (herr : ∀ e w', Q (.error e) w')
    (hok : ∀ w', Interference C mayAdd hostRely w w' → Q (.ok (since
      (fun event => decide (event.executionId = executionId)) start (w'.events C))) w')
    (fuel : ℕ) :
    Prog.Holds (setting C mayAdd hostRely hostStep mayAsk thread)
      (executionEventsAfter (A := A) fuel executionId start).run Q w :=
  holds_eventPages htrans herr hok fuel start [] fun _ _ => Paged.start

theorem since_zero {w : World σ H} (hw : w.Sound C) (p : LedgerEvent → Bool) :
    since p 0 (w.events C) = (w.events C).filter p := by
  refine List.filter_congr fun event he => ?_
  simp only [C.positive hw.valid event he, decide_true, Bool.and_true]

end Worlds

end Ledger
end Kolyan
