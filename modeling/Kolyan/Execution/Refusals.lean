/-
# Refused admissions

`ExecutionCoordinator::start`, `resume` and `recover` append their fact before
they insert the execution into the active set, so that the error of the insertion
comes after the durable change.  Here a call runs alone, in a world that any
interleaving of calls and drivers may have led to.  An active execution has been
started (`Driven`), so a refused `start` changes nothing, and `resume` reads that
the execution is not active; but `recover` goes on from `Running`, which an active
execution whose last fact is `ExecutionSuspended` is projected to, and then its
own fact wipes the suspension out (`recover_wipes_suspension`).
-/

import Kolyan.Execution.Admission
import Kolyan.Ledger.Alone

namespace Kolyan

namespace Execution

open Checks Threads Ledger

section Driven

variable {σ : Type} {P : LedgerStore σ} (C : P.Contract)

/-- The execution has an `ExecutionStarted` fact. -/
def Started (executionId : String) (w : World σ (List String)) : Prop :=
  ∃ event ∈ w.events C, event.executionId = executionId ∧ event.kind = .executionStarted

/-- Every active execution has been started. -/
def Driven (w : World σ (List String)) : Prop := ∀ id ∈ w.host, Started C id w

/-- A thread may insert an execution that has been started. -/
def mayInsert (w : World σ (List String)) : ActiveOp → Prop
  | .insert id => Started C id w
  | .isActive _ | .remove _ => True

/-- A call among any others. -/
abbrev guarded (thread : ℕ) : Setting (Op ActiveOp) (Op.Answer ActiveOp.Answer) (World σ (List String)) :=
  setting C (fun _ => True) (fun _ _ => True) activeStep (mayInsert C) thread

variable {C} {w w' : World σ (List String)} {thread fuel : ℕ} {executionId : String} {execution : ExecutionRef}

theorem Started.grow (h : Started C executionId w) (hgrows : w.events C <+: w'.events C) : Started C executionId w' :=
  let ⟨event, hevent, hfact⟩ := h
  ⟨event, hgrows.subset hevent, hfact⟩

theorem guarded_insertion {suffix : String} {payload : Value} {admission : AdmissionKind} :
    Prog.Holds (guarded C thread)
      (do appendOnce execution suffix .executionStarted payload
          admitExecution execution admission : CoordinatorProg _).run (fun _ _ => True) w := by
  refine Fallible.holds_bind (holds_appendOnce (fun _ _ => trivial) ?_ ?_)
  · intro w' _ existing hexisting hsame w'' hw''
    simp only [sameFact, onceEvent, Bool.and_eq_true] at hsame
    have hstarted : Started C execution.executionId w' :=
      ⟨existing, hexisting, of_decide_eq_true hsame.1.1.2, of_decide_eq_true hsame.1.2⟩
    exact ⟨hstarted.grow hw''.grows, fun _ _ _ => trivial⟩
  · intro w' _ s' saved _ happ w'' hw''
    obtain ⟨-, hsaved, hnew⟩ := happ.ok
    have hmem : saved ∈ C.events s' := by
      rw [hnew]
      exact List.mem_append_right _ (List.mem_singleton.2 rfl)
    have hstarted : Started C execution.executionId ⟨s', w'.host, w'.authors ++ [(saved.eventId, thread)]⟩ := by
      refine ⟨saved, hmem, ?_, ?_⟩ <;> rw [hsaved] <;> rfl
    exact ⟨hstarted.grow hw''.grows, fun _ _ _ => trivial⟩

theorem guarded_continue {admission : AdmissionKind} (tag : String) :
    Prog.Holds (guarded C thread)
      (do
        let cursor ← latestCursor fuel execution.executionId
        appendOnce execution (tag ++ toString cursor) .executionStarted .null
        admitExecution execution admission : CoordinatorProg _).run (fun _ _ => True) w := by
  have hrely : ∀ a b c : List String, True → True → True := fun _ _ _ _ _ => trivial
  refine Fallible.holds_bind (Fallible.holds_bind (Fallible.holds_mapError
    (holds_executionEventsAfter hrely (fun _ _ => trivial) (fun w' _ => ?_) fuel)))
  exact Fallible.holds_pure guarded_insertion

theorem guarded_project {events : List LedgerEvent} {α : Type} {f : ExecutionState → CoordinatorProg α}
    (hf : ∀ state w', Prog.Holds (guarded C thread) (f state).run (fun _ _ => True) w') :
    Prog.Holds (guarded C thread) (do f (← project executionId events) : CoordinatorProg _).run (fun _ _ => True) w := by
  refine Fallible.holds_bind ?_
  unfold project
  cases foldState .new events with
  | suspended => exact fun w' _ => ⟨trivial, fun active w'' _ => hf _ w''⟩
  | new | running | completed | cancelled | failed => exact hf _ w

theorem guarded_some {p : CoordinatorProg ExecutionAdmission}
    (h : Prog.Holds (guarded C thread) p.run (fun _ _ => True) w) :
    Prog.Holds (guarded C thread) (do return some (← p) : CoordinatorProg _).run (fun _ _ => True) w :=
  Fallible.holds_bind (h.mono fun r _ _ => match r with
    | .ok _ => trivial
    | .error _ => trivial)

theorem guarded_act (call : Call) (events : List LedgerEvent) :
    Prog.Holds (guarded C thread) (call.act fuel events).run (fun _ _ => True) w := by
  refine guarded_project fun state w' => ?_
  cases call with
  | start execution =>
    refine guarded_some ?_
    cases state with
    | new => exact guarded_insertion
    | running =>
      refine Fallible.holds_bind fun w'' _ => ⟨trivial, fun (active : Bool) _ _ => ?_⟩
      show Prog.Holds _ (ExceptT.run (if active = true then _ else _)) _ _
      split_ifs <;> trivial
    | suspended | completed | cancelled | failed => trivial
  | resume execution =>
    refine guarded_some ?_
    cases state with
    | suspended => exact guarded_continue _
    | new | running | completed | cancelled | failed => trivial
  | recover execution =>
    refine guarded_some ?_
    cases state with
    | running | suspended => exact guarded_continue _
    | new | completed | cancelled | failed => trivial
  | cancel execution =>
    refine Fallible.holds_bind ?_
    have hcancel : Prog.Holds (guarded C thread)
        (do appendOnce execution "execution-cancelled" .executionCancelled .null
            Execution.release execution.executionId : CoordinatorProg _).run (fun _ _ => True) w' :=
      Fallible.holds_bind (holds_appendOnce (fun _ _ => trivial)
        (fun _ _ _ _ _ _ _ => ⟨trivial, fun _ _ _ => trivial⟩) (fun _ _ _ _ _ _ _ _ => ⟨trivial, fun _ _ _ => trivial⟩))
    refine Prog.Holds.mono (Q := fun _ _ => True) ?_ fun r _ _ => by cases r <;> trivial
    show Prog.Holds _ (ExceptT.run (if isTerminal state = true then _ else _)) _ _
    split_ifs
    · trivial
    · exact hcancel
  | release id => exact fun w'' _ => ⟨trivial, fun _ _ _ => trivial⟩

variable (C) in
/-- A call that will insert only what has been started. -/
def Guarded (i : ℕ) (flight : Flight) (w : World σ (List String)) : Prop :=
  match flight.phase with
  | .reading p => p.Asks ∧ Prog.Holds (guarded C i) p (fun _ _ => True) w
  | .acting _ p => p.Asks ∧ Prog.Holds (guarded C i) p (fun _ _ => True) w
  | .finished _ => True

theorem guarded_ofActing {i : ℕ} {call : Call} {read : Option ExecutionState} {p : RawProg (Option ExecutionAdmission)}
    (h : Prog.Holds (guarded C i) p (fun _ _ => True) w) : Guarded C i ⟨call, Phase.ofActing read p⟩ w := by
  cases p with
  | done outcome => trivial
  | ask o next => exact ⟨nofun, h⟩
  | halt => exact ⟨nofun, h⟩

theorem guarded_ofReading {i : ℕ} {call : Call} {p : RawProg (List LedgerEvent)}
    (h : Prog.Holds (guarded C i) p (fun _ _ => True) w) : Guarded C i ⟨call, Phase.ofReading fuel call p⟩ w := by
  cases p with
  | done r =>
    cases r with
    | error e => trivial
    | ok events => exact guarded_ofActing (guarded_act call events)
  | ask o next => exact ⟨nofun, h⟩
  | halt => exact ⟨nofun, h⟩

theorem guarded_begin {i : ℕ} (call : Call) : Guarded C i ⟨call, call.begin fuel⟩ w := by
  have hrely : ∀ a b c : List String, True → True → True := fun _ _ _ _ _ => trivial
  have hread : Guarded C i ⟨call, Phase.ofReading fuel call (readExecution fuel call.executionId).run⟩ w :=
    guarded_ofReading (Fallible.holds_mapError
      (holds_executionEventsAfter hrely (fun _ _ => trivial) (fun _ _ => trivial) fuel))
  cases call with
  | release id =>
    have hrelease : Prog.Holds (guarded C i) ((Call.release id).actOn fuel .new).run (fun _ _ => True) w :=
      fun _ _ => ⟨trivial, fun _ _ _ => trivial⟩
    exact guarded_ofActing hrelease
  | start execution => exact hread
  | resume execution => exact hread
  | recover execution => exact hread
  | cancel execution => exact hread

theorem driven_perform {i : ℕ} {o : Op ActiveOp} (h : Driven C w) (hw : w.Sound C) (hallow : (guarded C i).allow w o) :
    Driven C (perform P activeStep i w o).2 := by
  have hgrows := (hw.perform activeStep i o).2.1
  have hkept : ∀ id ∈ w.host, Started C id (perform P activeStep i w o).2 := fun id hid => (h id hid).grow hgrows
  match o with
  | .ledger (.query q) => exact hkept
  | .ledger (.append event) => exact hkept
  | .ledger (.appendUnlessCancelled event) => exact hkept
  | .host (.isActive id) => exact hkept
  | .host (.remove id) => exact fun other hother => hkept other (List.mem_filter.1 hother).1
  | .host (.insert id) =>
    intro other hother
    have hinserted : other = id ∨ other ∈ w.host := by
      have hstep : (perform P activeStep i w (.host (.insert id))).2.host =
          if w.host.contains id then w.host else id :: w.host := by
        show (activeStep i w.host (.insert id)).2 = _
        rw [activeStep]
        split <;> rfl
      rw [hstep] at hother
      split_ifs at hother
      · exact .inr hother
      · exact List.mem_cons.1 hother
    rcases hinserted with rfl | hother
    · exact Started.grow hallow hgrows
    · exact hkept other hother

/-- **What every reachable system keeps.** -/
structure Guards (s : System σ) : Prop where
  sound : s.world.Sound C
  driven : Driven C s.world
  flights : ∀ i f, s.flights[i]? = some f → Guarded C i f s.world

theorem guards_initial {store : σ} (h : C.Valid store) : Guards (C := C) (System.initial store) where
  sound := World.Sound.start h []
  driven := fun _ h => absurd h List.not_mem_nil
  flights := fun _ _ h => nomatch h

theorem Guarded.interfere {i : ℕ} {flight : Flight} (h : Guarded C i flight w) (hsound : w'.Sound C)
    (hgrows : w.events C <+: w'.events C) (hauthors : w.authors <+: w'.authors) : Guarded C i flight w' := by
  have hrely : ∀ a b c : List String, True → True → True := fun _ _ _ _ _ => trivial
  have hany : Interference C (fun _ => True) (fun _ _ => True) w w' :=
    ⟨hsound, hgrows, fun _ _ => .inr trivial, hauthors, trivial⟩
  obtain ⟨call, phase⟩ := flight
  cases phase with
  | reading p => exact ⟨h.1, h.2.interfere (fun _ _ _ => Interference.trans hrely) h.1 hany⟩
  | acting read p => exact ⟨h.1, h.2.interfere (fun _ _ _ => Interference.trans hrely) h.1 hany⟩
  | finished outcome => trivial

theorem Guarded.advance {i : ℕ} {flight : Flight} {phase : Phase} (h : Guarded C i flight w) (hw : w.Sound C)
    (hdriven : Driven C w) (hstep : flight.phase.step P fuel i flight.call w = some (phase, w')) :
    Guarded C i ⟨flight.call, phase⟩ w' ∧ Driven C w' ∧ w'.Sound C ∧ w.events C <+: w'.events C ∧
      w.authors <+: w'.authors := by
  obtain ⟨call, old⟩ := flight
  cases old with
  | reading p =>
    cases p with
    | done r => exact nomatch hstep
    | halt => exact nomatch hstep
    | ask o next =>
      obtain ⟨rfl, rfl⟩ := Prod.mk.inj (Option.some.inj hstep)
      obtain ⟨hallow, hnext⟩ := Prog.Holds.step (Interference.refl hw trivial) h.2
      exact ⟨guarded_ofReading (hnext _ _ rfl), driven_perform hdriven hw hallow, hw.perform activeStep i o⟩
  | acting read p =>
    cases p with
    | done r => exact nomatch hstep
    | halt => exact nomatch hstep
    | ask o next =>
      obtain ⟨rfl, rfl⟩ := Prod.mk.inj (Option.some.inj hstep)
      obtain ⟨hallow, hnext⟩ := Prog.Holds.step (Interference.refl hw trivial) h.2
      exact ⟨guarded_ofActing (hnext _ _ rfl), driven_perform hdriven hw hallow, hw.perform activeStep i o⟩
  | finished outcome => exact nomatch hstep

theorem Guards.step {s s' : System σ} {l : Label} (h : Guards (C := C) s) (hstep : s.step P fuel l = some s') :
    Guards (C := C) s' := by
  have hcommit : ∀ {event : LedgerEvent} {store : σ} {r : Except LedgerError LedgerEvent}, C.Valid store →
      Appended (s.world.events C) event (C.events store) r →
        Guards (C := C) { s with world := { s.world with store } } := by
    intro event store r hvalid happ
    have hsound := h.sound.grow hvalid happ.grows
    exact ⟨hsound, fun id hid => (h.driven id hid).grow happ.grows,
      fun i f hf => (h.flights i f hf).interfere hsound happ.grows List.prefix_rfl⟩
  cases l with
  | invoke call =>
    obtain rfl := Option.some.inj hstep
    refine ⟨h.sound, h.driven, fun i f hf => ?_⟩
    rcases Nat.lt_or_ge i s.flights.length with hi | hi
    · rw [List.getElem?_append_left hi] at hf
      exact h.flights i f hf
    · rw [List.getElem?_append_right hi, List.getElem?_singleton] at hf
      split_ifs at hf
      obtain rfl := Option.some.inj hf
      exact guarded_begin call
  | advance thread =>
    obtain ⟨flight, hflight, hrest⟩ := Option.bind_eq_some_iff.1 hstep
    obtain ⟨⟨phase, world⟩, hphase, hs'⟩ := Option.bind_eq_some_iff.1 hrest
    obtain rfl := Option.some.inj hs'
    obtain ⟨hguarded, hdriven, hsound, hgrows, hauthors⟩ :=
      (h.flights thread flight hflight).advance h.sound h.driven hphase
    have hthread : thread < s.flights.length := (List.getElem?_eq_some_iff.1 hflight).1
    refine ⟨hsound, hdriven, fun i f hf => ?_⟩
    rcases eq_or_ne thread i with rfl | hne
    · rw [List.getElem?_set_self hthread] at hf
      obtain rfl := Option.some.inj hf
      exact hguarded
    · rw [List.getElem?_set_ne hne] at hf
      exact (h.flights i f hf).interfere hsound hgrows hauthors
  | commit event =>
    obtain rfl := Option.some.inj hstep
    obtain ⟨hvalid, happ⟩ := C.append_spec h.sound.valid event
    exact hcommit hvalid happ
  | commitUnlessCancelled event =>
    obtain rfl := Option.some.inj hstep
    obtain ⟨hvalid, happ, -⟩ := C.admission_spec h.sound.valid event
    exact hcommit hvalid happ

theorem Reach.guards {cond : System σ → Label → System σ → Prop} {s : System σ} (hs : Reach C fuel cond s) :
    Guards (C := C) s := by
  induction hs with
  | initial store h => exact guards_initial h
  | step _ hl _ ih => exact ih.step hl

end Driven

section Alone

variable {σ : Type} {P : LedgerStore σ} {C : P.Contract} {w w' : World σ (List String)} {thread fuel : ℕ}

/-- A world with the facts and the active set of another. -/
structure Same (C : P.Contract) (w w' : World σ (List String)) : Prop where
  sound : w'.Sound C
  events : w'.events C = w.events C
  host : w'.host = w.host

theorem Same.refl (hw : w.Sound C) : Same C w w := ⟨hw, rfl, rfl⟩

theorem Same.trans {w'' : World σ (List String)} (h : Same C w w') (h' : Same C w' w'') : Same C w w'' :=
  ⟨h'.sound, h'.events.trans h.events, h'.host.trans h.host⟩

/-- What a program answers alone, and the world after it. -/
abbrev Answers {α : Type} (P : LedgerStore σ) (thread : ℕ) (w : World σ (List String)) (p : RawProg α)
    (r : Except CoordinatorError α) (w' : World σ (List String)) : Prop :=
  p.run (perform P activeStep thread) w = some (r, w')

theorem runs_query (hw : w.Sound C) {q : LedgerQuery} {r : Except LedgerError (List LedgerEvent)}
    (h : (query q : LedgerProg ActiveOp.Answer _).run.run (perform P activeStep thread) w = some (r, w')) :
    Same C w w' ∧ r = (P.query w.store q).1 := by
  obtain ⟨rfl, rfl⟩ := Prod.mk.inj (Option.some.inj h)
  have hframe := C.query_frame hw.valid q
  exact ⟨⟨(hw.perform activeStep thread (.ledger (.query q))).1, hframe.2, rfl⟩, rfl⟩

theorem runs_checkedQuery (hw : w.Sound C) {q : LedgerQuery} {r : Except LedgerError (List LedgerEvent)}
    (h : (checkedQuery q : LedgerProg ActiveOp.Answer _).run.run (perform P activeStep thread) w = some (r, w')) :
    Same C w w' ∧ ∀ page, r = .ok page → page = ((w.events C).filter q.selects).take q.limit := by
  rcases Fallible.runs_bind h with ⟨e, hvalidate, rfl⟩ | ⟨u, w₁, hvalidate, hafter⟩
  · obtain ⟨-, rfl⟩ := Fallible.runs_lift hvalidate
    exact ⟨Same.refl hw, nofun⟩
  obtain ⟨-, rfl⟩ := Fallible.runs_lift hvalidate
  rcases Fallible.runs_bind hafter with ⟨e, hquery, rfl⟩ | ⟨page, w₂, hquery, hpaged⟩
  · exact ⟨(runs_query hw hquery).1, nofun⟩
  obtain ⟨hsame, hpage⟩ := runs_query hw hquery
  have hexact := C.query_ok hw.valid hpage.symm
  rcases Fallible.runs_bind hpaged with ⟨e, hbound, rfl⟩ | ⟨u, w₃, hbound, hbounded⟩
  · obtain ⟨-, rfl⟩ := Fallible.runs_lift hbound
    exact ⟨hsame, nofun⟩
  obtain ⟨-, rfl⟩ := Fallible.runs_lift hbound
  rcases Fallible.runs_bind hbounded with ⟨e, hscope, rfl⟩ | ⟨u, w₄, hscope, hscoped⟩
  · obtain ⟨-, rfl⟩ := Fallible.runs_lift hscope
    exact ⟨hsame, nofun⟩
  obtain ⟨-, rfl⟩ := Fallible.runs_lift hscope
  obtain ⟨rfl, rfl⟩ := Fallible.runs_pure hscoped
  exact ⟨hsame, fun page' hpage' => (Except.ok.inj hpage').symm.trans hexact⟩

theorem Answers.holds {α : Type} {p : Prog (Op ActiveOp) (Op.Answer ActiveOp.Answer) α} {r : α}
    {Q : α → World σ (List String) → Prop} (hw : w.Sound C)
    (h : p.run (perform P activeStep thread) w = some (r, w')) (hp : Prog.Holds (racing C (fun _ => True) thread) p Q w) :
    Q r w' := by
  have hrefl : ∀ v : World σ (List String), v.Sound C → Rely C (fun _ => True) v v :=
    fun _ hv => Interference.refl hv trivial
  exact (hp.runs hrefl (fun _ o hv _ => ⟨rfl, (hv.perform activeStep thread o).1⟩) hw h).1

theorem runs_eventById (hw : w.Sound C) {id : String} {r : Except LedgerError (Option LedgerEvent)}
    (h : (eventById id : LedgerProg ActiveOp.Answer _).run.run (perform P activeStep thread) w = some (r, w')) :
    Same C w w' ∧ ∀ found, r = .ok found → found = (w.events C).find? (·.eventId = id) := by
  have hsame : Same C w w' := by
    rcases Fallible.runs_bind h with ⟨e, hpage, rfl⟩ | ⟨page, w₁, hpage, hrest⟩
    · exact (runs_checkedQuery hw hpage).1
    · obtain ⟨-, rfl⟩ := Fallible.runs_pure hrest
      exact (runs_checkedQuery hw hpage).1
  have hvalue : ∀ found, r = .ok found → found = (w'.events C).find? (·.eventId = id) :=
    Answers.holds (Q := fun r w => ∀ found, r = .ok found → found = (w.events C).find? (·.eventId = id)) hw h
      (holds_eventById (fun e w' found hfound => nomatch hfound) fun w' _ found hfound => (Except.ok.inj hfound).symm)
  rw [hsame.events] at hvalue
  exact ⟨hsame, hvalue⟩

theorem runs_eventPages (hw : w.Sound C) {id : String} {after : ℕ} {seen : List LedgerEvent}
    {r : Except LedgerError (List LedgerEvent)}
    (h : (eventPages id fuel after seen : LedgerProg ActiveOp.Answer _).run.run (perform P activeStep thread) w =
      some (r, w')) : Same C w w' := by
  induction fuel generalizing after seen w with
  | zero => exact nomatch h
  | succ fuel ih =>
    rcases Fallible.runs_bind h with ⟨e, hpage, rfl⟩ | ⟨page, w₁, hpage, hrest⟩
    · exact (runs_checkedQuery hw hpage).1
    · have hsame := (runs_checkedQuery hw hpage).1
      dsimp only at hrest
      split_ifs at hrest with hlast
      · obtain ⟨-, rfl⟩ := Fallible.runs_pure hrest
        exact hsame
      · exact hsame.trans (ih hsame.sound hrest)

theorem runs_readExecution (hw : w.Sound C) {id : String} {r : Except CoordinatorError (List LedgerEvent)}
    (h : Answers P thread w (readExecution fuel id).run r w') :
    Same C w w' ∧ ∀ events, r = .ok events → events = (w.events C).filter (·.executionId = id) := by
  obtain ⟨r', hread, rfl⟩ := Fallible.runs_mapError h
  have hsame := runs_eventPages hw hread
  have hrely : ∀ a b c : List String, True → True → True := fun _ _ _ _ _ => trivial
  have hvalue : ∀ events, r' = .ok events → events = (w'.events C).filter (·.executionId = id) := by
    refine Answers.holds (Q := fun r w => ∀ events, r = .ok events → events = (w.events C).filter (·.executionId = id))
      hw hread (holds_executionEventsAfter hrely (fun e w' events hevents => nomatch hevents)
        (fun w' hw' events hevents => ?_) fuel)
    obtain rfl := Except.ok.inj hevents
    exact since_zero hw'.sound _
  rw [hsame.events] at hvalue
  refine ⟨hsame, fun events hevents => ?_⟩
  cases r' with
  | error e => exact nomatch hevents
  | ok events' => exact hvalue events (congrArg Except.ok (Except.ok.inj hevents))

variable (C) in
/-- The state that the facts of an execution fold to. -/
def folded (executionId : String) (w : World σ (List String)) : ExecutionState :=
  foldState .new ((w.events C).filter (·.executionId = executionId))

variable (C) in
/-- The cursor of the last fact of an execution. -/
def latest (executionId : String) (w : World σ (List String)) : ℕ :=
  (((w.events C).filter (·.executionId = executionId)).getLast?.map (·.cursor)).getD 0

theorem Same.folded (h : Same C w w') (id : String) : folded C id w' = folded C id w := by
  rw [Execution.folded, h.events, Execution.folded]

/-- **The public state**, read alone: the folded one, but `Running` for a suspended
execution that is active. -/
theorem runs_state (hw : w.Sound C) {id : String} {r : Except CoordinatorError ExecutionState}
    (h : Answers P thread w (state fuel id).run r w') :
    Same C w w' ∧ ∀ state, r = .ok state → state =
      if folded C id w = .suspended ∧ w.host.contains id = true then .running else folded C id w := by
  rcases Fallible.runs_bind h with ⟨e, hread, rfl⟩ | ⟨events, w₁, hread, hproject⟩
  · exact ⟨(runs_readExecution hw hread).1, nofun⟩
  obtain ⟨hsame, hevents⟩ := runs_readExecution hw hread
  obtain rfl := hevents events rfl
  have hfold : foldState .new ((w.events C).filter (·.executionId = id)) = folded C id w := rfl
  unfold project at hproject
  rw [hfold] at hproject
  by_cases hsuspended : folded C id w = .suspended
  · rw [hsuspended] at hproject
    dsimp only at hproject
    rcases Fallible.runs_bind hproject with ⟨e, hactive, rfl⟩ | ⟨active, w₂, hactive, hrest⟩
    · obtain ⟨hr, -⟩ := Fallible.runs_call hactive
      exact nomatch hr
    obtain ⟨hr, hw₂⟩ := Fallible.runs_call hactive
    obtain ⟨rfl, rfl⟩ := Fallible.runs_pure hrest
    obtain rfl := Except.ok.inj hr
    have hkept : w' = w₁ := hw₂
    subst hkept
    refine ⟨hsame, fun state hstate => ?_⟩
    rw [← Except.ok.inj hstate, hsuspended, ← hsame.host]
    show (if w'.host.contains id = true then _ else _) = _
    simp only [true_and]
  · have hpure : Answers P thread w₁ (pure (folded C id w) : CoordinatorProg _).run r w' := by
      cases hstate : folded C id w with
      | suspended => exact absurd hstate hsuspended
      | new | running | completed | cancelled | failed =>
        rw [hstate] at hproject
        exact hproject
    obtain ⟨rfl, rfl⟩ := Fallible.runs_pure hpure
    refine ⟨hsame, fun state hstate => ?_⟩
    rw [if_neg (fun h => hsuspended h.1)]
    exact (Except.ok.inj hstate).symm

theorem runs_latestCursor (hw : w.Sound C) {id : String} {r : Except CoordinatorError ℕ}
    (h : Answers P thread w (latestCursor fuel id).run r w') :
    Same C w w' ∧ ∀ cursor, r = .ok cursor → cursor = latest C id w := by
  rcases Fallible.runs_bind h with ⟨e, hread, rfl⟩ | ⟨events, w₁, hread, hrest⟩
  · exact ⟨(runs_readExecution hw hread).1, nofun⟩
  · obtain ⟨hsame, hevents⟩ := runs_readExecution hw hread
    obtain ⟨rfl, rfl⟩ := Fallible.runs_pure hrest
    refine ⟨hsame, fun cursor hcursor => ?_⟩
    rw [← Except.ok.inj hcursor, hevents events rfl, latest]

theorem runs_insertion {execution : ExecutionRef} {kind : AdmissionKind} {r : Except CoordinatorError ExecutionAdmission}
    (h : Answers P thread w (admitExecution execution kind).run r w') :
    w'.store = w.store ∧ (w.host.contains execution.executionId = true ↔ ∃ e, r = .error e) := by
  obtain ⟨rfl, rfl⟩ := Fallible.runs_call h
  have hanswer : (perform P activeStep thread w (.host (.insert execution.executionId))).1 =
      !w.host.contains execution.executionId := by
    show (activeStep thread w.host (.insert execution.executionId)).1 = _
    rw [activeStep]
    cases w.host.contains execution.executionId <;> rfl
  refine ⟨rfl, ?_⟩
  rw [hanswer]
  cases w.host.contains execution.executionId with
  | true => exact ⟨fun _ => ⟨_, rfl⟩, fun _ => rfl⟩
  | false =>
    refine ⟨fun h => (by cases h), ?_⟩
    rintro ⟨_, h⟩
    cases h

/-- What `append_once` may do alone on an honest store: nothing, or add its fact,
whose identity was free, and succeed. -/
structure Once (C : P.Contract) (w w' : World σ (List String)) (event : LedgerEvent) (r : Except CoordinatorError Unit) :
    Prop where
  sound : w'.Sound C
  host : w'.host = w.host
  events : w'.events C = w.events C ∨ r = .ok () ∧ collides (w.events C) event = false ∧
    ∃ cursor, w'.events C = w.events C ++ [{ event with cursor }]

theorem Same.once {event : LedgerEvent} {r : Except CoordinatorError Unit} (h : Same C w w') : Once C w w' event r :=
  ⟨h.sound, h.host, .inl h.events⟩

theorem runs_append (honest : C.Honest) (hw : w.Sound C) {event : LedgerEvent} {r : Except LedgerError LedgerEvent}
    (h : (append event : LedgerProg ActiveOp.Answer _).run.run (perform P activeStep thread) w = some (r, w')) :
    w'.Sound C ∧ w'.host = w.host ∧ r = (P.append w.store event).1 ∧
      (∀ e, r = .error e → w'.events C = w.events C) ∧
      ∀ saved, r = .ok saved → collides (w.events C) event = false ∧
        ∃ cursor, w'.events C = w.events C ++ [{ event with cursor }] := by
  obtain ⟨rfl, rfl⟩ := Prod.mk.inj (Option.some.inj h)
  have happ := (C.append_spec hw.valid event).2
  refine ⟨(hw.perform activeStep thread (.ledger (.append event))).1, rfl, rfl, fun e he => ?_, fun saved hsaved => ?_⟩
  · exact honest w.store event e hw.valid he
  · have hanswer : (P.append w.store event).1 = .ok saved := hsaved
    rw [hanswer] at happ
    obtain ⟨hfresh, hcursor, hnew⟩ := happ.ok
    exact ⟨hfresh, saved.cursor, hnew.trans (by rw [← hcursor])⟩

/-- **`append_once` alone.** -/
theorem runs_appendOnce (honest : C.Honest) (hw : w.Sound C) {execution : ExecutionRef} {suffix : String}
    {kind : LedgerEventKind} {payload : Value} {r : Except CoordinatorError Unit}
    (h : Answers P thread w (appendOnce execution suffix kind payload).run r w') :
    Once C w w' (onceEvent execution suffix kind payload) r := by
  rcases Fallible.runs_bind h with ⟨e, hlookup, rfl⟩ | ⟨found, w₁, hlookup, hafter⟩
  · obtain ⟨r', hread, -⟩ := Fallible.runs_mapError hlookup
    exact (runs_eventById hw hread).1.once
  obtain ⟨r', hread, -⟩ := Fallible.runs_mapError hlookup
  have hsame := (runs_eventById hw hread).1
  cases found with
  | some existing =>
    have hend : w' = w₁ := by
      dsimp only at hafter
      split_ifs at hafter
      · exact (Fallible.runs_pure hafter).2
      · exact (Fallible.runs_throw hafter).2
    exact hend ▸ hsame.once
  | none =>
    rcases Fallible.runs_bind hafter with ⟨e, hattempt, -⟩ | ⟨answer, w₂, hattempt, hdone⟩
    · obtain ⟨_, -, hr⟩ := Fallible.runs_attempt hattempt
      exact nomatch hr
    obtain ⟨answer', happend, hanswer⟩ := Fallible.runs_attempt hattempt
    obtain rfl := Except.ok.inj hanswer
    obtain ⟨hsound, hhost, -, hrefused, hcommitted⟩ := runs_append honest hsame.sound happend
    cases answer with
    | ok saved =>
      obtain ⟨rfl, rfl⟩ := Fallible.runs_pure hdone
      have hevents := hcommitted saved rfl
      rw [hsame.events] at hevents
      exact ⟨hsound, hhost.trans hsame.host, .inr ⟨rfl, hevents⟩⟩
    | error error =>
      have hsame₂ : Same C w w₂ := hsame.trans ⟨hsound, hrefused error rfl, hhost⟩
      cases error with
      | conflict key =>
        rcases Fallible.runs_bind hdone with ⟨e, hagain, rfl⟩ | ⟨found, w₃, hagain, hlast⟩
        · obtain ⟨_, hread, -⟩ := Fallible.runs_mapError hagain
          exact (hsame₂.trans (runs_eventById hsame₂.sound hread).1).once
        obtain ⟨_, hread, -⟩ := Fallible.runs_mapError hagain
        have hsame₃ := hsame₂.trans (runs_eventById hsame₂.sound hread).1
        have hend : w' = w₃ := by
          split_ifs at hlast
          · exact (Fallible.runs_pure hlast).2
          · exact (Fallible.runs_throw hlast).2
        exact hend ▸ hsame₃.once
      | invalidQuery message | cancelled id | storage message =>
        obtain ⟨-, rfl⟩ := Fallible.runs_throw hdone
        exact hsame₂.once

/-- **The fact and the insertion**: a refusal after the fact finds the execution
active. -/
theorem runs_admission (honest : C.Honest) (hw : w.Sound C) {execution : ExecutionRef} {suffix : String} {payload : Value}
    {kind : AdmissionKind} {e : CoordinatorError}
    (h : Answers P thread w (do
      appendOnce execution suffix .executionStarted payload
      admitExecution execution kind : CoordinatorProg _).run (.error e) w') :
    w'.events C = w.events C ∨ w.host.contains execution.executionId = true ∧
      collides (w.events C) (onceEvent execution suffix .executionStarted payload) = false ∧
      ∃ cursor, w'.events C = w.events C ++ [{ onceEvent execution suffix .executionStarted payload with cursor }] := by
  rcases Fallible.runs_bind h with ⟨e', honce, -⟩ | ⟨u, w₁, honce, hinsertion⟩
  · exact .inl ((runs_appendOnce honest hw honce).events.resolve_right fun hcommitted => nomatch hcommitted.1)
  · obtain ⟨-, hhost, hevents⟩ := runs_appendOnce honest hw honce
    obtain ⟨hstore, hactive⟩ := runs_insertion hinsertion
    have hsame : w'.events C = w₁.events C := congrArg C.events hstore
    rw [hsame]
    refine hevents.imp_right fun hcommitted => ⟨?_, hcommitted.2⟩
    rw [← hhost]
    exact hactive.2 ⟨e, rfl⟩

theorem foldState_append (state : ExecutionState) (events : List LedgerEvent) (event : LedgerEvent) :
    foldState state (events ++ [event]) =
      if isTerminal (foldState state events) then foldState state events else nextState (foldState state events) event.kind := by
  induction events generalizing state with
  | nil =>
    rw [List.nil_append, foldState]
    split_ifs with hterm
    · rw [foldState, if_pos hterm]
    · rw [foldState, if_neg hterm]
      rfl
  | cons first events ih =>
    rw [List.cons_append, foldState, foldState]
    split_ifs with hterm
    · rfl
    · rw [ih, if_pos ‹_›]
    · rw [ih, if_neg ‹_›]

theorem folded_commit {id : String} {event : LedgerEvent} (hid : event.executionId = id)
    (hevents : w'.events C = w.events C ++ [event]) (hlive : isTerminal (folded C id w) = false) :
    folded C id w' = nextState (folded C id w) event.kind := by
  have hfact : [event].filter (fun e => e.executionId = id) = [event] := by
    rw [List.filter_singleton, decide_eq_true hid]
    rfl
  rw [folded, hevents, List.filter_append, hfact, foldState_append]
  exact if_neg (Bool.not_eq_true _ ▸ hlive)

variable (C) in
/-- A recovery that goes on from the projection of an active execution that its
facts say is suspended: its own fact is still free. -/
def Overtakes (w : World σ (List String)) : Call → Prop
  | .recover execution =>
      execution.executionId ≠ "" ∧ folded C execution.executionId w = .suspended ∧
        w.host.contains execution.executionId = true ∧ collides (w.events C) (onceEvent execution
          ("execution-recovered/" ++ toString (latest C execution.executionId w)) .executionStarted .null) = false
  | _ => False

/-- A call that asks for an admission. -/
def Call.seeksAdmission : Call → Bool
  | start _ | resume _ | recover _ => true
  | cancel _ | release _ => false

theorem start_refused (honest : C.Honest) (hw : w.Sound C) (hdriven : Driven C w) {execution : ExecutionRef}
    {e : CoordinatorError} (h : Answers P thread w (start fuel execution).run (.error e) w') :
    w'.events C = w.events C := by
  rcases Fallible.runs_bind h with ⟨e', hread, -⟩ | ⟨read, w₁, hread, hact⟩
  · exact (runs_state hw hread).1.events
  obtain ⟨hsame, hvalue⟩ := runs_state hw hread
  have hstate := hvalue read rfl
  cases read with
  | new =>
    have hnew : folded C execution.executionId w = .new := by
      split_ifs at hstate
      exact hstate.symm
    refine ((runs_admission honest hsame.sound hact).resolve_right fun hcommitted => ?_).trans hsame.events
    have hactive := hcommitted.1
    rw [hsame.host, List.contains_iff_mem] at hactive
    obtain ⟨event, hevent, hid, hkind⟩ := hdriven _ hactive
    exact (foldState_new hnew).2 event (List.mem_filter.2 ⟨hevent, decide_eq_true hid⟩) hkind
  | running =>
    rcases Fallible.runs_bind hact with ⟨e', hactive, -⟩ | ⟨active, w₂, hactive, hrest⟩
    · exact nomatch (Fallible.runs_call hactive).1
    · have hkept : w₂ = w₁ := (Fallible.runs_call hactive).2
      have hend : w' = w₂ := by
        split_ifs at hrest
        · exact (Fallible.runs_throw hrest).2
        · exact (Fallible.runs_throw hrest).2
      rw [hend, hkept, hsame.events]
  | suspended | completed | cancelled | failed =>
    obtain ⟨-, rfl⟩ := Fallible.runs_throw hact
    exact hsame.events

theorem resume_refused (honest : C.Honest) (hw : w.Sound C) {execution : ExecutionRef}
    {e : CoordinatorError} (h : Answers P thread w (resume fuel execution).run (.error e) w') :
    w'.events C = w.events C := by
  rcases Fallible.runs_bind h with ⟨e', hread, -⟩ | ⟨read, w₁, hread, hact⟩
  · exact (runs_state hw hread).1.events
  obtain ⟨hsame, hvalue⟩ := runs_state hw hread
  have hstate := hvalue read rfl
  cases read with
  | suspended =>
    have hidle : ¬w.host.contains execution.executionId = true := by
      intro hactive
      split_ifs at hstate with hboth
      exact hboth ⟨hstate.symm, hactive⟩
    rcases Fallible.runs_bind hact with ⟨e', hcursor, -⟩ | ⟨cursor, w₂, hcursor, hrest⟩
    · exact (hsame.trans (runs_latestCursor hsame.sound hcursor).1).events
    · have hsame₂ := hsame.trans (runs_latestCursor hsame.sound hcursor).1
      refine ((runs_admission honest hsame₂.sound hrest).resolve_right fun hcommitted => ?_).trans hsame₂.events
      exact hidle (hsame₂.host ▸ hcommitted.1)
  | new | running | completed | cancelled | failed =>
    obtain ⟨-, rfl⟩ := Fallible.runs_throw hact
    exact hsame.events

theorem named_of_read {id : String} {events : List LedgerEvent}
    (h : Answers P thread w (readExecution fuel id).run (.ok events) w') : id ≠ "" := by
  rintro rfl
  obtain ⟨r', hread, hr⟩ := Fallible.runs_mapError h
  cases fuel with
  | zero => exact nomatch hread
  | succ fuel =>
    rcases Fallible.runs_bind hread with ⟨e, -, rfl⟩ | ⟨page, w₁, hpage, -⟩
    · exact nomatch hr
    · rcases Fallible.runs_bind hpage with ⟨e, -, he⟩ | ⟨u, w₂, hvalidate, -⟩
      · exact nomatch he
      · exact nomatch (Fallible.runs_lift hvalidate).1

/-- A recovery alone: it reads, and then it appends its fact and inserts. -/
theorem recover_parts (hw : w.Sound C) {execution : ExecutionRef} {e : CoordinatorError}
    (h : Answers P thread w (recover fuel execution).run (.error e) w') :
    Same C w w' ∨ ∃ w₁, Same C w w₁ ∧ execution.executionId ≠ "" ∧
      (folded C execution.executionId w = .running ∨ folded C execution.executionId w = .suspended) ∧
      Answers P thread w₁ (do
        appendOnce execution ("execution-recovered/" ++ toString (latest C execution.executionId w)) .executionStarted .null
        admitExecution execution .recover : CoordinatorProg _).run (.error e) w' := by
  rcases Fallible.runs_bind h with ⟨e', hread, -⟩ | ⟨read, w₁, hread, hact⟩
  · exact .inl (runs_state hw hread).1
  obtain ⟨hsame, hvalue⟩ := runs_state hw hread
  have hstate := hvalue read rfl
  have hnamed : execution.executionId ≠ "" := by
    rcases Fallible.runs_bind hread with ⟨e', -, he'⟩ | ⟨events, w₂, hevents, -⟩
    · exact nomatch he'
    · exact named_of_read hevents
  have hgoes : w' = w₁ ∨
      (folded C execution.executionId w = .running ∨ folded C execution.executionId w = .suspended) ∧
      Answers P thread w₁ (do
        let cursor ← latestCursor fuel execution.executionId
        appendOnce execution ("execution-recovered/" ++ toString cursor) .executionStarted .null
        admitExecution execution .recover : CoordinatorProg _).run (.error e) w' := by
    cases read with
    | running =>
      refine .inr ⟨?_, hact⟩
      split_ifs at hstate with hboth
      · exact .inr hboth.1
      · exact .inl hstate.symm
    | suspended =>
      refine .inr ⟨.inr ?_, hact⟩
      split_ifs at hstate
      exact hstate.symm
    | new | completed | cancelled | failed => exact .inl (Fallible.runs_throw hact).2
  rcases hgoes with rfl | ⟨hfold, hact⟩
  · exact .inl hsame
  rcases Fallible.runs_bind hact with ⟨e', hcursor, -⟩ | ⟨cursor, w₂, hcursor, hrest⟩
  · exact .inl (hsame.trans (runs_latestCursor hsame.sound hcursor).1)
  · obtain ⟨hsame₂, hlatest⟩ := runs_latestCursor hsame.sound hcursor
    have hlast : latest C execution.executionId w₁ = latest C execution.executionId w := by
      rw [latest, hsame.events, latest]
    rw [hlatest cursor rfl, hlast] at hrest
    exact .inr ⟨w₂, hsame.trans hsame₂, hnamed, hfold, hrest⟩

/-- **A recovery that is refused** changes no folded state, unless it overtakes the
driver of a suspended execution. -/
theorem recover_refused (honest : C.Honest) (hw : w.Sound C) {execution : ExecutionRef} {e : CoordinatorError}
    (h : Answers P thread w (recover fuel execution).run (.error e) w')
    (hovertakes : ¬Overtakes C w (.recover execution)) :
    folded C execution.executionId w' = folded C execution.executionId w := by
  rcases recover_parts hw h with hsame | ⟨w₁, hsame, hnamed, hfold, hact⟩
  · exact hsame.folded _
  rcases runs_admission honest hsame.sound hact with hevents | ⟨hactive, hfresh, cursor, hevents⟩
  · rw [folded, hevents, hsame.events, folded]
  · rw [hsame.events] at hfresh hevents
    rw [hsame.host] at hactive
    rcases hfold with hrunning | hsuspended
    · have hlive : isTerminal (folded C execution.executionId w) = false := by
        rw [hrunning]
        rfl
      have hmoved : folded C execution.executionId w' =
          nextState (folded C execution.executionId w) .executionStarted := folded_commit rfl hevents hlive
      rw [hmoved, hrunning]
      rfl
    · exact absurd ⟨hnamed, hsuspended, hactive, hfresh⟩ hovertakes

end Alone

section Reliable

variable {σ : Type} {P : LedgerStore σ} {C : P.Contract} {w w' : World σ (List String)} {thread fuel : ℕ}

theorem checkedQuery_answered (reliable : C.Reliable) (hw : w.Sound C) {q : LedgerQuery} (hvalid : q.validate = .ok ())
    {r : Except LedgerError (List LedgerEvent)}
    (h : (checkedQuery q : LedgerProg ActiveOp.Answer _).run.run (perform P activeStep thread) w = some (r, w')) :
    ∃ page, r = .ok page := by
  rcases Fallible.runs_bind h with ⟨e, hvalidate, -⟩ | ⟨u, w₁, hvalidate, hafter⟩
  · exact nomatch hvalid.symm.trans (Fallible.runs_lift hvalidate).1.symm
  obtain ⟨-, rfl⟩ := Fallible.runs_lift hvalidate
  obtain ⟨answer, hanswer⟩ := reliable.reads _ q hw.valid hvalid
  rcases Fallible.runs_bind hafter with ⟨e, hquery, -⟩ | ⟨page, w₂, hquery, hpaged⟩
  · exact nomatch hanswer.symm.trans (runs_query hw hquery).2.symm
  have hexact := C.query_ok hw.valid (runs_query hw hquery).2.symm
  rcases Fallible.runs_bind hpaged with ⟨e, hbound, -⟩ | ⟨u, w₃, hbound, hbounded⟩
  · have hlimit : ¬page.length > q.limit := by
      rw [hexact, List.length_take]
      omega
    exact nomatch (reject_of_not hlimit).symm.trans (Fallible.runs_lift hbound).1.symm
  rcases Fallible.runs_bind hbounded with ⟨e, hscope, -⟩ | ⟨u, w₄, hscope, hscoped⟩
  · have hpage : checkPage q q.after page = .ok () := by
      rw [hexact]
      exact checkPage_exact (C.ascending hw.valid) _ _ (.inl le_rfl)
    exact nomatch hpage.symm.trans (Fallible.runs_lift hscope).1.symm
  · exact ⟨page, (Fallible.runs_pure hscoped).1⟩

theorem executionPage_valid {id : String} (hid : id ≠ "") (after : ℕ) : (executionPage id after).validate = .ok () := by
  have hempty : id.isEmpty = false := by
    rw [← Bool.not_eq_true, String.isEmpty_iff]
    exact hid
  simp [LedgerQuery.validate, executionPage, reject, hempty]

theorem eventPages_answered (reliable : C.Reliable) (hw : w.Sound C) {id : String} (hid : id ≠ "") {after : ℕ}
    {seen : List LedgerEvent} {r : Except LedgerError (List LedgerEvent)}
    (h : (eventPages id fuel after seen : LedgerProg ActiveOp.Answer _).run.run (perform P activeStep thread) w =
      some (r, w')) : ∃ events, r = .ok events := by
  induction fuel generalizing after seen w with
  | zero => exact nomatch h
  | succ fuel ih =>
    rcases Fallible.runs_bind h with ⟨e, hpage, -⟩ | ⟨page, w₁, hpage, hrest⟩
    · obtain ⟨page, hok⟩ := checkedQuery_answered reliable hw (executionPage_valid hid after) hpage
      exact nomatch hok
    · dsimp only at hrest
      split_ifs at hrest
      · exact ⟨_, (Fallible.runs_pure hrest).1⟩
      · exact ih (runs_checkedQuery hw hpage).1.sound hrest

theorem readExecution_answered (reliable : C.Reliable) (hw : w.Sound C) {id : String} (hid : id ≠ "")
    {r : Except CoordinatorError (List LedgerEvent)} (h : Answers P thread w (readExecution fuel id).run r w') :
    ∃ events, r = .ok events := by
  obtain ⟨r', hread, rfl⟩ := Fallible.runs_mapError h
  obtain ⟨events, rfl⟩ := eventPages_answered reliable hw hid hread
  exact ⟨events, rfl⟩

theorem appendOnce_committed (reliable : C.Reliable) (hw : w.Sound C) {execution : ExecutionRef} {suffix : String}
    {kind : LedgerEventKind} {payload : Value} {r : Except CoordinatorError Unit}
    (hnamed : (onceEvent execution suffix kind payload).eventId ≠ "")
    (hfresh : collides (w.events C) (onceEvent execution suffix kind payload) = false)
    (h : Answers P thread w (appendOnce execution suffix kind payload).run r w') :
    ∃ cursor, w'.events C = w.events C ++ [{ onceEvent execution suffix kind payload with cursor }] := by
  have hlookupValid : LedgerQuery.validate
      ⟨none, some (onceEvent execution suffix kind payload).eventId, 0, none, 1⟩ = .ok () := by
    have hempty : (onceEvent execution suffix kind payload).eventId.isEmpty = false := by
      rw [← Bool.not_eq_true, String.isEmpty_iff]
      exact hnamed
    simp [LedgerQuery.validate, reject, hempty]
  rcases Fallible.runs_bind h with ⟨e, hlookup, -⟩ | ⟨found, w₁, hlookup, hafter⟩
  · obtain ⟨r', hread, hr⟩ := Fallible.runs_mapError hlookup
    rcases Fallible.runs_bind hread with ⟨e', hpage, -⟩ | ⟨page, w₁, hpage, hhead⟩
    · obtain ⟨page, hok⟩ := checkedQuery_answered reliable hw hlookupValid hpage
      cases hok
    · rw [(Fallible.runs_pure hhead).1] at hr
      cases hr
  obtain ⟨r', hread, hr⟩ := Fallible.runs_mapError hlookup
  obtain ⟨hsame, hfound⟩ := runs_eventById hw hread
  have hnone : found = none := by
    cases r' with
    | error e => cases hr
    | ok found' =>
      rw [Except.ok.inj hr, hfound found' rfl]
      refine List.find?_eq_none.2 fun item hitem hid => ?_
      exact (collides_eq_false.1 hfresh item hitem).1 (of_decide_eq_true hid)
  subst hnone
  rcases Fallible.runs_bind hafter with ⟨e, hattempt, -⟩ | ⟨answer, w₂, hattempt, hdone⟩
  · obtain ⟨_, -, hanswer⟩ := Fallible.runs_attempt hattempt
    cases hanswer
  obtain ⟨answer', happend, hanswer⟩ := Fallible.runs_attempt hattempt
  obtain rfl := Except.ok.inj hanswer
  obtain ⟨-, -, hstored, -, hcommitted⟩ := runs_append reliable.honest hsame.sound happend
  have hkept : C.events w₁.store = w.events C := hsame.events
  have hfree : collides (C.events w₁.store) (onceEvent execution suffix kind payload) = false := by
    rw [hkept]
    exact hfresh
  obtain ⟨saved, hsaved⟩ := reliable.commits w₁.store _ hsame.sound.valid hfree
  obtain rfl := hstored.trans hsaved
  obtain ⟨-, rfl⟩ := Fallible.runs_pure hdone
  rw [← hsame.events]
  exact (hcommitted saved rfl).2

/-- **A recovery that overtakes a driver wipes the suspension out.** -/
theorem recover_wipes_suspension (reliable : C.Reliable) (hw : w.Sound C) {execution : ExecutionRef}
    {e : CoordinatorError} (h : Answers P thread w (recover fuel execution).run (.error e) w')
    (hovertakes : Overtakes C w (.recover execution)) : folded C execution.executionId w' = .running := by
  obtain ⟨hnamed, hsuspended, hactive, hfresh⟩ := hovertakes
  rcases Fallible.runs_bind h with ⟨e', hread, -⟩ | ⟨read, w₁, hread, hact⟩
  · rcases Fallible.runs_bind hread with ⟨e₂, hevents, -⟩ | ⟨events, w₁, hevents, hproject⟩
    · exact nomatch (readExecution_answered reliable hw hnamed hevents).choose_spec
    · have hfold : foldState .new events = .suspended := by
        rw [(runs_readExecution hw hevents).2 events rfl]
        exact hsuspended
      unfold project at hproject
      rw [hfold] at hproject
      rcases Fallible.runs_bind hproject with ⟨e₂, hactive, -⟩ | ⟨active, w₂, hactive, hrest⟩
      · exact nomatch (Fallible.runs_call hactive).1
      · exact nomatch (Fallible.runs_pure hrest).1
  obtain ⟨hsame, hvalue⟩ := runs_state hw hread
  have hrunning : read = .running := (hvalue read rfl).trans (if_pos ⟨hsuspended, hactive⟩)
  subst hrunning
  rcases Fallible.runs_bind hact with ⟨e', hcursor, -⟩ | ⟨cursor, w₂, hcursor, hrest⟩
  · rcases Fallible.runs_bind hcursor with ⟨e₂, hevents, -⟩ | ⟨events, w₂, -, hlast⟩
    · exact nomatch (readExecution_answered reliable hsame.sound hnamed hevents).choose_spec
    · exact nomatch (Fallible.runs_pure hlast).1
  obtain ⟨hsame₂, hlatest⟩ := runs_latestCursor hsame.sound hcursor
  have hkept : w₂.events C = w.events C := hsame₂.events.trans hsame.events
  have hcursors : cursor = latest C execution.executionId w := by
    rw [hlatest cursor rfl, latest, hsame.events, latest]
  subst hcursors
  have hcommitted : ∃ cursor, w'.events C = w.events C ++ [{ onceEvent execution
      ("execution-recovered/" ++ toString (latest C execution.executionId w)) .executionStarted .null with cursor }] := by
    have hid : (onceEvent execution ("execution-recovered/" ++ toString (latest C execution.executionId w))
        .executionStarted .null).eventId ≠ "" := by
      simp [onceEvent, hnamed]
    rcases Fallible.runs_bind hrest with ⟨e', honce, -⟩ | ⟨u, w₃, honce, hinsertion⟩
    · rw [← hkept] at hfresh ⊢
      exact appendOnce_committed reliable hsame₂.sound hid hfresh honce
    · have hend : w'.events C = w₃.events C := congrArg C.events (runs_insertion hinsertion).1
      rw [hend]
      rw [← hkept] at hfresh ⊢
      exact appendOnce_committed reliable hsame₂.sound hid hfresh honce
  obtain ⟨cursor, hevents⟩ := hcommitted
  have hlive : isTerminal (folded C execution.executionId w) = false := by
    rw [hsuspended]
    rfl
  have hmoved : folded C execution.executionId w' =
      nextState (folded C execution.executionId w) .executionStarted := folded_commit rfl hevents hlive
  rw [hmoved]
  rfl

/-- **What a refused admission leaves of the folded state.**  Nothing is changed
unless a recovery overtakes the driver of a suspended execution; there, a reliable
store has it changed. -/
theorem refused_unchanged (C : P.Contract) (honest : C.Honest) {s : System σ}
    (hs : Reach C fuel (fun _ _ _ => True) s) {call : Call} (hseeks : call.seeksAdmission = true) {e : CoordinatorError}
    (hrun : Answers P thread s.world (call.program fuel).run (.error e) w') :
    (¬Overtakes C s.world call → folded C call.executionId w' = folded C call.executionId s.world) ∧
      (C.Reliable → Overtakes C s.world call →
        folded C call.executionId w' ≠ folded C call.executionId s.world) := by
  obtain ⟨hw, hdriven, -⟩ := hs.guards
  have hsome : ∀ {p : CoordinatorProg ExecutionAdmission},
      Answers P thread s.world (do return some (← p) : CoordinatorProg _).run (.error e) w' →
        Answers P thread s.world p.run (.error e) w' := by
    intro p hp
    rcases Fallible.runs_bind hp with ⟨e', herror, he⟩ | ⟨admission, w₁, -, hpure⟩
    · obtain rfl := Except.error.inj he
      exact herror
    · exact nomatch (Fallible.runs_pure hpure).1
  cases call with
  | start execution =>
    refine ⟨fun _ => ?_, fun _ hovertakes => absurd hovertakes id⟩
    rw [folded, start_refused honest hw hdriven (hsome hrun), folded]
  | resume execution =>
    refine ⟨fun _ => ?_, fun _ hovertakes => absurd hovertakes id⟩
    rw [folded, resume_refused honest hw (hsome hrun), folded]
  | recover execution =>
    refine ⟨recover_refused honest hw (hsome hrun), fun reliable hovertakes => ?_⟩
    rw [show (Call.recover execution).executionId = execution.executionId from rfl,
      recover_wipes_suspension reliable hw (hsome hrun) hovertakes, hovertakes.2.1]
    nofun
  | cancel execution => exact nomatch hseeks
  | release id => exact nomatch hseeks

end Reliable

section InMemory

theorem inMemory_reliable : inMemoryContract.Reliable where
  honest s event e _ h := by
    show (appendChecked s event false).2.events = s.events
    have herror : (appendChecked s event false).1 = .error e := h
    unfold appendChecked at herror ⊢
    split_ifs at herror ⊢ with hcancel hclash
    · rfl
    · rfl
  reads s q _ h := by
    refine ⟨(s.events.filter q.selects).take q.limit, ?_⟩
    show (do q.validate; return (s.events.filter q.selects).take q.limit) = _
    rw [h]
    rfl
  commits s event _ h := by
    refine ⟨{ event with cursor := s.nextCursor + 1 }, ?_⟩
    show (appendChecked s event false).1 = _
    have hclash : collides s.events event = false := h
    unfold appendChecked
    rw [if_neg (by simp), hclash, if_neg (by simp)]

def suspension : List Label :=
  [.invoke (.start raced), .advance 0, .advance 0, .advance 0, .advance 0,
   .commit { onceEvent raced "step-1" .executionSuspended .null with turnId := "t" }]

def driven? : Option (System LedgerState) := (System.initial LedgerState.empty).run inMemoryLedger 1 suspension

theorem driven_reach {s : System LedgerState} (h : driven? = some s) :
    Reach inMemoryContract 1 (fun _ _ _ => True) s :=
  (Reach.initial LedgerState.empty LedgerState.ordered_empty).run h

/-- A second start of the driven execution is refused, and changes nothing. -/
theorem start_again_unchanged : ∃ s w' e, driven? = some s ∧
    Answers inMemoryLedger 1 s.world ((Call.start raced).program 1).run (.error e) w' ∧
      folded inMemoryContract "e" w' = folded inMemoryContract "e" s.world := by
  have hrun : driven?.any (fun s => ((((Call.start raced).program 1).run.run
      (perform inMemoryLedger activeStep 1) s.world).any fun r => r.1 = .error (.alreadyActive "e"))) = true := by
    decide
  obtain ⟨s, hs, hrun⟩ := (Option.any_eq_true _ _).1 hrun
  obtain ⟨⟨r, w'⟩, hanswer, hr⟩ := (Option.any_eq_true _ _).1 hrun
  obtain rfl := of_decide_eq_true hr
  have hunchanged : folded inMemoryContract (Call.start raced).executionId w' =
      folded inMemoryContract (Call.start raced).executionId s.world :=
    (refused_unchanged inMemoryContract inMemory_reliable.honest (driven_reach hs) rfl hanswer).1 id
  exact ⟨s, w', _, hs, hanswer, hunchanged⟩

/-- **A refused recovery of the driven execution** leaves it running on its ledger. -/
theorem recover_driven_changes : ¬∀ s, Reach inMemoryContract 1 (fun _ _ _ => True) s → ∀ call : Call,
    call.seeksAdmission = true → ∀ thread e w',
      Answers inMemoryLedger thread s.world (call.program 1).run (.error e) w' →
        folded inMemoryContract call.executionId w' = folded inMemoryContract call.executionId s.world := by
  intro h
  have hrun : driven?.any (fun s => folded inMemoryContract "e" s.world = .suspended ∧
      (((Call.recover raced).program 1).run.run (perform inMemoryLedger activeStep 1) s.world).any fun r =>
        r.1 = .error (.alreadyActive "e") ∧ folded inMemoryContract "e" r.2 = .running) = true := by
    decide
  obtain ⟨s, hs, hrun⟩ := (Option.any_eq_true _ _).1 hrun
  obtain ⟨hsuspended, hrun⟩ := of_decide_eq_true hrun
  obtain ⟨⟨r, w'⟩, hanswer, hr⟩ := (Option.any_eq_true _ _).1 hrun
  obtain ⟨hr, hrunning⟩ := of_decide_eq_true hr
  obtain rfl : r = .error (.alreadyActive "e") := hr
  have hsame : folded inMemoryContract "e" w' = folded inMemoryContract "e" s.world :=
    h s (driven_reach hs) (.recover raced) rfl 1 _ w' hanswer
  rw [hsuspended] at hsame
  exact nomatch hrunning.symm.trans hsame

end InMemory

end Execution
end Kolyan
