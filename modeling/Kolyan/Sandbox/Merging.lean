/-
# What the receiver delivers

The rows that were sent and not yet delivered are split over the two channels and their
heads, each in order (`Observations.Queued`).  A poll that fills both heads first knows the
oldest row of each channel, so it takes the oldest of all, whatever the second pass of
`poll_recv` finds (`received`).  With the counters this is kept by every operation
(`Accounted.perform`), so that it holds after every run (`observations_merge`).
-/

import Kolyan.Sandbox.Observation

namespace Kolyan
namespace Sandbox

open Mailboxes

variable {C : Mpsc Sequenced} {view : C.State → Mailbox Sequenced} {s s' s'' : Observations C}
  {pending rest : List Sequenced} {row : Sequenced}

/-! ### The rows on their way -/

variable (view) in
/-- What is left to receive of a channel. -/
def waiting (receive : C.State) (head : Option Sequenced) : List Sequenced := head.toList ++ (view receive).items

namespace Observations

variable (view) in
/-- The rows on their way, split over the two channels of a receiver that holds both. -/
structure Queued (s : Observations C) (pending : List Sequenced) : Prop where
  lifecycle : waiting view s.lifecycle s.lifecycleHead = pending.filter (!·.isOutput)
  output : waiting view s.output s.outputHead = pending.filter (·.isOutput)
  lifecycleOpen : (view s.lifecycle).isOpen = true
  outputOpen : (view s.output).isOpen = true

variable (view) in
/-- A missing head means that nothing is left in its channel. -/
structure Headed (s : Observations C) (pending : List Sequenced) : Prop extends s.Queued view pending where
  lifecycleHead : s.lifecycleHead = none → pending.filter (!·.isOutput) = []
  outputHead : s.outputHead = none → pending.filter (·.isOutput) = []

variable (view) in
/-- Only the channels and the heads differ, and the senders of the channels do not. -/
structure Alike (s s' : Observations C) : Prop where
  fields : s' = { s with lifecycle := s'.lifecycle, output := s'.output, lifecycleHead := s'.lifecycleHead, outputHead := s'.outputHead }
  lifecycle : (view s'.lifecycle).senders = (view s.lifecycle).senders
  output : (view s'.output).senders = (view s.output).senders

theorem Alike.refl : s.Alike view s := ⟨rfl, rfl, rfl⟩

theorem Alike.trans (h : s.Alike view s') (h' : s'.Alike view s'') : s.Alike view s'' := by
  refine ⟨?_, h'.lifecycle.trans h.lifecycle, h'.output.trans h.output⟩
  rw [h'.fields, h.fields]

/-! ### The heads -/

variable (view) in
/-- What filling a head leaves: nothing is lost, and a channel is closed only when nobody sends to it. -/
structure Filled (receive : C.State) (head : Option Sequenced) (r : Bool × C.State × Option Sequenced) : Prop where
  waiting : waiting view r.2.1 r.2.2 = waiting view receive head
  senders : (view r.2.1).senders = (view receive).senders
  isOpen : (view r.2.1).isOpen = (view receive).isOpen
  empty : r.2.2 = none → Sandbox.waiting view receive head = []
  closed : r.1 = true → (view receive).senders = 0

theorem fillHead_filled (hC : C.Documented view) (head : Option Sequenced) {receive : C.State}
    (hopen : (view receive).isOpen = true) : Filled view receive head (fillHead receive head) := by
  cases head with
  | some event => exact ⟨rfl, rfl, rfl, nofun, nofun⟩
  | none =>
    cases hitems : (view receive).items with
    | cons event items =>
      obtain ⟨hrecv, hview⟩ := hC.received_cons hitems
      have hfill : fillHead receive none = (false, (C.tryRecv receive).2, some event) := by
        rw [fillHead, show C.tryRecv receive = (.ok event, (C.tryRecv receive).2) from Prod.ext hrecv rfl]
      rw [hfill]
      exact ⟨by simp [Sandbox.waiting, hview, hitems], by rw [hview], by rw [hview], nofun, nofun⟩
    | nil =>
      obtain ⟨hrecv, hview⟩ := hC.received_nil hitems
      rw [hopen] at hrecv
      have hempty : Sandbox.waiting view receive none = [] := by simp [Sandbox.waiting, hitems]
      by_cases hsenders : (view receive).senders = 0
      · have hfill : fillHead receive none = (true, (C.tryRecv receive).2, none) := by
          rw [fillHead, show C.tryRecv receive = (.error .disconnected, (C.tryRecv receive).2) from
            Prod.ext (by rw [hrecv]; simp [hsenders]) rfl]
        rw [hfill]
        exact ⟨by simp [Sandbox.waiting, hview], by rw [hview], by rw [hview], fun _ => hempty, fun _ => hsenders⟩
      · have hfill : fillHead receive none = (false, (C.tryRecv receive).2, none) := by
          rw [fillHead, show C.tryRecv receive = (.error .empty, (C.tryRecv receive).2) from
            Prod.ext (by rw [hrecv]; simp [hsenders]) rfl]
        rw [hfill]
        exact ⟨by simp [Sandbox.waiting, hview], by rw [hview], by rw [hview], fun _ => hempty, nofun⟩

theorem fillHeads_headed (hC : C.Documented view) (h : s.Queued view pending) :
    s.fillHeads.2.2.Headed view pending ∧ s.Alike view s.fillHeads.2.2 ∧
      (s.fillHeads.1 = true → (view s.lifecycle).senders = 0) ∧ (s.fillHeads.2.1 = true → (view s.output).senders = 0) := by
  have hlife := fillHead_filled hC s.lifecycleHead h.lifecycleOpen
  have hout := fillHead_filled hC s.outputHead h.outputOpen
  exact ⟨⟨⟨hlife.waiting.trans h.lifecycle, hout.waiting.trans h.output, hlife.isOpen.trans h.lifecycleOpen,
      hout.isOpen.trans h.outputOpen⟩, fun hnone => h.lifecycle.symm.trans (hlife.empty hnone),
      fun hnone => h.output.symm.trans (hout.empty hnone)⟩,
    ⟨rfl, hlife.senders, hout.senders⟩, hlife.closed, hout.closed⟩

theorem head_of_waiting {receive : C.State} {head : Option Sequenced} {row : Sequenced} {rows : List Sequenced}
    (hwaiting : waiting view receive head = row :: rows) (hhead : head = none → row :: rows = []) :
    head = some row ∧ (view receive).items = rows := by
  cases head with
  | none => exact absurd (hhead rfl) (List.cons_ne_nil _ _)
  | some event =>
    obtain ⟨hrow, hrows⟩ := List.cons.inj hwaiting
    exact ⟨congrArg some hrow, hrows⟩

theorem takeHead_cons (h : s.Headed view (row :: rest)) (hsorted : (row :: rest).Pairwise (·.sequence < ·.sequence)) :
    s.takeHead.1 = some row.observation ∧ s.takeHead.2.Queued view rest ∧ s.Alike view s.takeHead.2 := by
  have holder := (List.pairwise_cons.1 hsorted).1
  cases hrow : row.isOutput with
  | false =>
    have hlife : (row :: rest).filter (!·.isOutput) = row :: rest.filter (!·.isOutput) :=
      List.filter_cons_of_pos (by rw [hrow]; rfl)
    have hout : (row :: rest).filter (·.isOutput) = rest.filter (·.isOutput) :=
      List.filter_cons_of_neg (by rw [hrow]; exact Bool.false_ne_true)
    obtain ⟨hhead, hitems⟩ := head_of_waiting (h.lifecycle.trans hlife) (fun hnone => hlife ▸ h.lifecycleHead hnone)
    have htake : s.takeHead = (some row.observation, { s with lifecycleHead := none }) := by
      rw [takeHead, hhead]
      cases hother : s.outputHead with
      | none => rfl
      | some output =>
        have hmem : output ∈ rest.filter (·.isOutput) := by
          rw [← hout, ← h.output, waiting, hother]
          exact List.mem_cons_self
        exact if_pos (holder output (List.mem_filter.1 hmem).1)
    rw [htake]
    exact ⟨rfl, ⟨hitems, h.output.trans hout, h.lifecycleOpen, h.outputOpen⟩, ⟨rfl, rfl, rfl⟩⟩
  | true =>
    have hlife : (row :: rest).filter (!·.isOutput) = rest.filter (!·.isOutput) :=
      List.filter_cons_of_neg (by rw [hrow]; exact Bool.false_ne_true)
    have hout : (row :: rest).filter (·.isOutput) = row :: rest.filter (·.isOutput) :=
      List.filter_cons_of_pos hrow
    obtain ⟨hhead, hitems⟩ := head_of_waiting (h.output.trans hout) (fun hnone => hout ▸ h.outputHead hnone)
    have htake : s.takeHead = (some row.observation, { s with outputHead := none }) := by
      rw [takeHead, hhead]
      cases hother : s.lifecycleHead with
      | none => rfl
      | some life =>
        have hmem : life ∈ rest.filter (!·.isOutput) := by
          rw [← hlife, ← h.lifecycle, waiting, hother]
          exact List.mem_cons_self
        exact if_neg (Nat.lt_asymm (holder life (List.mem_filter.1 hmem).1))
    rw [htake]
    exact ⟨rfl, ⟨h.lifecycle.trans hlife, hitems, h.lifecycleOpen, h.outputOpen⟩, ⟨rfl, rfl, rfl⟩⟩

theorem Queued.heads (h : s.Queued view []) : s.lifecycleHead = none ∧ s.outputHead = none ∧
    (view s.lifecycle).items = [] ∧ (view s.output).items = [] := by
  obtain ⟨hlifeHead, hlife⟩ := List.append_eq_nil_iff.1 h.lifecycle
  obtain ⟨houtHead, hout⟩ := List.append_eq_nil_iff.1 h.output
  exact ⟨Option.toList_eq_nil_iff.1 hlifeHead, Option.toList_eq_nil_iff.1 houtHead, hlife, hout⟩

theorem takeHead_nil (h : s.Queued view []) : s.takeHead = (none, s) := by
  obtain ⟨hlife, hout, -⟩ := h.heads
  rw [takeHead, hlife, hout]

theorem pollHead_empty (hC : C.Documented view) {receive : C.State} (hitems : (view receive).items = [])
    (hopen : (view receive).isOpen = true) : (pollHead receive none).2.2 = none ∧
      view (pollHead receive none).2.1 = view receive ∧
      ((pollHead receive none).1 = 0 ∨ (pollHead receive none).1 = 1 ∧ (view receive).senders = 0) := by
  obtain ⟨hview, hpoll | ⟨hpoll, hsenders⟩⟩ := hC.polled_nil hitems hopen
  · rw [pollHead, show C.pollRecv receive = (.pending, (C.pollRecv receive).2) from Prod.ext hpoll rfl]
    exact ⟨rfl, hview, .inl rfl⟩
  · rw [pollHead, show C.pollRecv receive = (.ready none, (C.pollRecv receive).2) from Prod.ext hpoll rfl]
    exact ⟨rfl, hview, .inr ⟨rfl, hsenders⟩⟩

/-- **The second pass finds nothing that the first did not**, and the end only when nobody sends. -/
theorem pollHeads_nil (hC : C.Documented view) (h : s.Queued view []) :
    s.pollHeads.2.Queued view [] ∧ s.Alike view s.pollHeads.2 ∧
      (s.pollHeads.1 = 2 → (view s.lifecycle).senders = 0 ∧ (view s.output).senders = 0) := by
  obtain ⟨hlifeHead, houtHead, hlifeItems, houtItems⟩ := h.heads
  obtain ⟨hlife, hlifeView, hlifeClosed⟩ := pollHead_empty hC hlifeItems h.lifecycleOpen
  obtain ⟨hout, houtView, houtClosed⟩ := pollHead_empty hC houtItems h.outputOpen
  rw [pollHeads, hlifeHead, houtHead]
  refine ⟨⟨?_, ?_, hlifeView ▸ h.lifecycleOpen, houtView ▸ h.outputOpen⟩, ⟨rfl, by rw [hlifeView], by rw [houtView]⟩,
    fun hclosed => ?_⟩
  · simp [waiting, hlife, hlifeView, hlifeItems]
  · simp [waiting, hout, houtView, houtItems]
  · dsimp only at hclosed
    refine ⟨(hlifeClosed.resolve_left fun hzero => ?_).2, (houtClosed.resolve_left fun hzero => ?_).2⟩
    · rcases houtClosed with hother | ⟨hother, -⟩ <;> omega
    · rcases hlifeClosed with hother | ⟨hother, -⟩ <;> omega

/-! ### A poll -/

variable (view) in
/-- What a poll answers of the rows on their way, and which are left. -/
inductive Received (s : Observations C) : List Sequenced → Observed → List Sequenced → Prop
  | next {row : Sequenced} {rest : List Sequenced} : Received s (row :: rest) (.delivered row.observation) rest
  | nothing : Received s [] .nothing []
  | closed (hlifecycle : (view s.lifecycle).senders = 0) (houtput : (view s.output).senders = 0) : Received s [] .closed []

/-- **`try_recv` delivers the oldest row.** -/
theorem received_tryRecv (hC : C.Documented view) (h : s.Queued view pending)
    (hsorted : pending.Pairwise (·.sequence < ·.sequence)) :
    ∃ rest, s.Received view pending (s.perform .tryRecv).1 rest ∧ (s.perform .tryRecv).2.Queued view rest ∧
      s.Alike view (s.perform .tryRecv).2 := by
  obtain ⟨hheaded, halike, hlife, hout⟩ := fillHeads_headed hC h
  cases pending with
  | cons row rest =>
    obtain ⟨htaken, hqueued, hsame⟩ := takeHead_cons hheaded hsorted
    have hrecv : s.tryRecv = (.ok row.observation, s.fillHeads.2.2.takeHead.2) := by
      rw [tryRecv]
      dsimp only
      rw [show s.fillHeads.2.2.takeHead = (some row.observation, s.fillHeads.2.2.takeHead.2) from Prod.ext htaken rfl]
    have hperform : s.perform .tryRecv = (.delivered row.observation, s.fillHeads.2.2.takeHead.2) := by
      rw [perform, hrecv]
    rw [hperform]
    exact ⟨rest, .next, hqueued, halike.trans hsame⟩
  | nil =>
    have hrecv : s.tryRecv = (.error (if s.fillHeads.1 && s.fillHeads.2.1 then .disconnected else .empty), s.fillHeads.2.2) := by
      rw [tryRecv]
      dsimp only
      rw [takeHead_nil hheaded.toQueued]
    cases hclosed : s.fillHeads.1 && s.fillHeads.2.1 with
    | true =>
      obtain ⟨hlifecycle, houtput⟩ := Bool.and_eq_true_iff.1 hclosed
      have hperform : s.perform .tryRecv = (.closed, s.fillHeads.2.2) := by
        rw [perform, hrecv, hclosed]
        rfl
      rw [hperform]
      exact ⟨[], .closed (hlife hlifecycle) (hout houtput), hheaded.toQueued, halike⟩
    | false =>
      have hperform : s.perform .tryRecv = (.nothing, s.fillHeads.2.2) := by
        rw [perform, hrecv, hclosed]
        rfl
      rw [hperform]
      exact ⟨[], .nothing, hheaded.toQueued, halike⟩

/-- **`poll_recv` delivers the oldest row**, whichever polls of the channels are cut short. -/
theorem received_pollRecv (hC : C.Documented view) (h : s.Queued view pending)
    (hsorted : pending.Pairwise (·.sequence < ·.sequence)) :
    ∃ rest, s.Received view pending (s.perform .pollRecv).1 rest ∧ (s.perform .pollRecv).2.Queued view rest ∧
      s.Alike view (s.perform .pollRecv).2 := by
  obtain ⟨hheaded, halike, hlife, hout⟩ := fillHeads_headed hC h
  cases pending with
  | cons row rest =>
    obtain ⟨htaken, hqueued, hsame⟩ := takeHead_cons hheaded hsorted
    have hpoll : s.pollRecv = (.ready (some row.observation), s.fillHeads.2.2.takeHead.2) := by
      rw [pollRecv]
      dsimp only
      rw [show s.fillHeads.2.2.takeHead = (some row.observation, s.fillHeads.2.2.takeHead.2) from Prod.ext htaken rfl]
    have hperform : s.perform .pollRecv = (.delivered row.observation, s.fillHeads.2.2.takeHead.2) := by
      rw [perform, hpoll]
    rw [hperform]
    exact ⟨rest, .next, hqueued, halike.trans hsame⟩
  | nil =>
    obtain ⟨hqueued, hsame, hboth⟩ := pollHeads_nil hC hheaded.toQueued
    have hpoll : s.pollRecv = if s.fillHeads.1 && s.fillHeads.2.1 then (.ready none, s.fillHeads.2.2)
        else (if s.fillHeads.2.2.pollHeads.1 = 2 then .ready none else .pending, s.fillHeads.2.2.pollHeads.2) := by
      rw [pollRecv]
      dsimp only
      rw [takeHead_nil hheaded.toQueued]
      dsimp only
      rw [takeHead_nil hqueued]
    cases hclosed : s.fillHeads.1 && s.fillHeads.2.1 with
    | true =>
      obtain ⟨hlifecycle, houtput⟩ := Bool.and_eq_true_iff.1 hclosed
      have hperform : s.perform .pollRecv = (.closed, s.fillHeads.2.2) := by
        rw [perform, hpoll, hclosed]
        rfl
      rw [hperform]
      exact ⟨[], .closed (hlife hlifecycle) (hout houtput), hheaded.toQueued, halike⟩
    | false =>
      rw [hclosed, if_neg Bool.false_ne_true] at hpoll
      by_cases htwo : s.fillHeads.2.2.pollHeads.1 = 2
      · have hperform : s.perform .pollRecv = (.closed, s.fillHeads.2.2.pollHeads.2) := by
          rw [perform, hpoll, if_pos htwo]
        obtain ⟨hlifecycle, houtput⟩ := hboth htwo
        rw [hperform]
        exact ⟨[], .closed (halike.lifecycle.symm.trans hlifecycle) (halike.output.symm.trans houtput), hqueued,
          halike.trans hsame⟩
      · have hperform : s.perform .pollRecv = (.nothing, s.fillHeads.2.2.pollHeads.2) := by
          rw [perform, hpoll, if_neg htwo]
        rw [hperform]
        exact ⟨[], .nothing, hqueued, halike.trans hsame⟩

theorem received (hC : C.Documented view) (h : s.Queued view pending) (hsorted : pending.Pairwise (·.sequence < ·.sequence))
    {o : ObservationOp} (ho : o = .tryRecv ∨ o = .pollRecv) :
    ∃ rest, s.Received view pending (s.perform o).1 rest ∧ (s.perform o).2.Queued view rest ∧ s.Alike view (s.perform o).2 := by
  rcases ho with rfl | rfl
  · exact received_tryRecv hC h hsorted
  · exact received_pollRecv hC h hsorted

/-! ### An emit -/

variable (view) in
/-- An event was sent: it has the next number and is behind the others. -/
structure Sent (s : Observations C) (row : Sequenced) (s' : Observations C) : Prop where
  sequence : row.sequence = s.sequence
  fields : s' = { s with lifecycle := s'.lifecycle, output := s'.output, sequence := s.sequence + 1 }
  lifecycle : (view s'.lifecycle).senders = (view s.lifecycle).senders
  output : (view s'.output).senders = (view s.output).senders
  queued : ∀ pending, s.Queued view pending → s'.Queued view (pending ++ [row])

variable (view) in
/-- An event was refused: the loss is counted. -/
structure Refused (s s' : Observations C) : Prop where
  fields : s' = { s with
    lifecycle := s'.lifecycle, output := s'.output, dropped := s.dropped + 1
    lifecycleDropped := s'.lifecycleDropped, outputDropped := s'.outputDropped }
  lost : s'.lifecycleDropped + s'.outputDropped = s.lifecycleDropped + s.outputDropped + 1
  lifecycle : (view s'.lifecycle).senders = (view s.lifecycle).senders
  output : (view s'.output).senders = (view s.output).senders
  queued : ∀ pending, s.Queued view pending → s'.Queued view pending

theorem countLoss_lost (output : Bool) : (s.countLoss output).lifecycleDropped + (s.countLoss output).outputDropped =
    s.lifecycleDropped + s.outputDropped + 1 := by
  cases output with
  | true => exact (UInt64.add_assoc ..).symm
  | false =>
    show s.lifecycleDropped + 1 + s.outputDropped = _
    rw [UInt64.add_assoc, UInt64.add_comm 1, ← UInt64.add_assoc]

theorem recordLoss_refused {lifecycle output : C.State} (hlife : view lifecycle = view s.lifecycle)
    (hout : view output = view s.output) (lost : Bool) :
    s.Refused view ({ s with lifecycle := lifecycle, output := output }.recordLoss lost) := by
  refine ⟨?_, countLoss_lost lost, ?_, ?_, fun pending h => ?_⟩
  · cases lost <;> rfl
  · cases lost <;> exact congrArg (·.senders) hlife
  · cases lost <;> exact congrArg (·.senders) hout
  · have hlifecycle : waiting view lifecycle s.lifecycleHead = waiting view s.lifecycle s.lifecycleHead := by
      rw [waiting, hlife, waiting]
    have houtput : waiting view output s.outputHead = waiting view s.output s.outputHead := by
      rw [waiting, hout, waiting]
    cases lost <;>
      exact ⟨hlifecycle.trans h.lifecycle, houtput.trans h.output, hlife ▸ h.lifecycleOpen, hout ▸ h.outputOpen⟩

theorem waiting_sent {receive receive' : C.State} {head : Option Sequenced}
    (hview : view receive' = { view receive with items := (view receive).items ++ [row] }) :
    waiting view receive' head = waiting view receive head ++ [row] := by
  rw [waiting, hview, waiting, List.append_assoc]

theorem filter_snoc_pos {p : Sequenced → Bool} (h : p row = true) : (pending ++ [row]).filter p = pending.filter p ++ [row] := by
  rw [List.filter_append, List.filter_cons_of_pos h, List.filter_nil]

theorem filter_snoc_neg {p : Sequenced → Bool} (h : p row = false) : (pending ++ [row]).filter p = pending.filter p := by
  rw [List.filter_append, List.filter_cons_of_neg (by rw [h]; exact Bool.false_ne_true), List.filter_nil, List.append_nil]

/-- **What `emit` does**: the row is sent, or a loss is counted. -/
theorem emit_cases (hC : C.Documented view) (launch : LaunchObservation) (event : SandboxProcessEvent) :
    (∃ s', s.emit launch event = (some ⟨s.sequence, launch.row event⟩, s') ∧
      s.Sent view ⟨s.sequence, launch.row event⟩ s') ∨
    ∃ s', s.emit launch event = (none, s') ∧ s.Refused view s' := by
  rw [emit]
  dsimp only
  split_ifs with hnumber houtput
  · rcases hC.sent (s := s.output) (a := ⟨s.sequence, launch.row event⟩) with ⟨hsent, hview⟩ | ⟨hrefused, hview⟩
    · rw [show C.trySend s.output ⟨s.sequence, launch.row event⟩ = (true, _) from Prod.ext hsent rfl]
      refine .inl ⟨_, rfl, rfl, rfl, rfl, congrArg (·.senders) hview, fun pending h => ⟨?_, ?_, h.lifecycleOpen, ?_⟩⟩
      · exact h.lifecycle.trans (filter_snoc_neg (congrArg not houtput)).symm
      · rw [waiting_sent hview, filter_snoc_pos houtput, h.output]
      · rw [hview]
        exact h.outputOpen
    · rw [show C.trySend s.output ⟨s.sequence, launch.row event⟩ = (false, _) from Prod.ext hrefused rfl]
      exact .inr ⟨_, rfl, recordLoss_refused rfl hview true⟩
  · rcases hC.sent (s := s.lifecycle) (a := ⟨s.sequence, launch.row event⟩) with ⟨hsent, hview⟩ | ⟨hrefused, hview⟩
    · rw [show C.trySend s.lifecycle ⟨s.sequence, launch.row event⟩ = (true, _) from Prod.ext hsent rfl]
      refine .inl ⟨_, rfl, rfl, rfl, congrArg (·.senders) hview, rfl, fun pending h => ⟨?_, ?_, ?_, h.outputOpen⟩⟩
      · rw [waiting_sent hview, filter_snoc_pos (congrArg not (Bool.not_eq_true _ ▸ houtput)), h.lifecycle]
      · exact h.output.trans (filter_snoc_neg (Bool.not_eq_true _ ▸ houtput)).symm
      · rw [hview]
        exact h.lifecycleOpen
    · rw [show C.trySend s.lifecycle ⟨s.sequence, launch.row event⟩ = (false, _) from Prod.ext hrefused rfl]
      exact .inr ⟨_, rfl, recordLoss_refused hview rfl false⟩
  · exact .inr ⟨_, rfl, recordLoss_refused rfl rfl _⟩

end Observations

/-! ### All runs -/

section Logs

variable {log : ObservationLog} {o : ObservationOp} {a : Observed}

theorem sent_snoc : ObservationLog.sent (log ++ [⟨o, a⟩]) = log.sent ++ ObservationLog.sent [⟨o, a⟩] := List.filterMap_append

theorem delivered_snoc : ObservationLog.delivered (log ++ [⟨o, a⟩]) = log.delivered ++ ObservationLog.delivered [⟨o, a⟩] :=
  List.filterMap_append

theorem refused_snoc : ObservationLog.refused (log ++ [⟨o, a⟩]) = log.refused + if a = .refused then 1 else 0 := by
  rw [ObservationLog.refused, List.countP_append, List.countP_singleton]
  simp [ObservationLog.refused]

theorem begun_snoc : ObservationLog.begun (log ++ [⟨o, a⟩]) = log.begun + if o = .countLoss then 1 else 0 := by
  rw [ObservationLog.begun, List.countP_append, List.countP_singleton]
  simp [ObservationLog.begun]

theorem recorded_snoc : ObservationLog.recorded (log ++ [⟨o, a⟩]) = log.recorded + if o = .countDropped then 1 else 0 := by
  rw [ObservationLog.recorded, List.countP_append, List.countP_singleton]
  simp [ObservationLog.recorded]

end Logs

variable (view) in
/-- What a run keeps: the rows that were sent are numbered in order, those delivered are the
first of them, as long as the receiver holds both channels the others are queued, and the
losses are counted. -/
structure Accounted (log : ObservationLog) (s : Observations C) : Prop where
  numbered : log.sent.map (·.sequence) = List.range s.sequence
  delivered : ∃ taken pending, log.sent = taken ++ pending ∧ log.delivered = taken.map (·.observation) ∧
    (s.receiver = .both → s.Queued view pending)
  dropped : s.dropped = .ofNat (log.refused + log.recorded)
  lost : s.lifecycleDropped + s.outputDropped = .ofNat (log.refused + log.begun)
  recording : log.begun = log.recorded + s.recording
  lifecycleSenders : (view s.lifecycle).senders = s.senders
  outputSenders : (view s.output).senders = s.senders + s.leaving

namespace Accounted

variable {log : ObservationLog} {o : ObservationOp}

theorem start (hC : C.Documented view) {capacity : ℕ} (h : sandboxProcessObservationChannel C capacity = .ok s) :
    Accounted view [] s := by
  unfold sandboxProcessObservationChannel at h
  split_ifs at h
  obtain rfl := Except.ok.inj h
  have hview := hC.channel capacity
  exact ⟨rfl, ⟨[], [], rfl, rfl, fun _ => ⟨by simp [waiting, hview, Mailbox.new], by simp [waiting, hview, Mailbox.new],
    by rw [hview]; rfl, by rw [hview]; rfl⟩⟩, rfl, rfl, rfl, by rw [hview]; rfl, by rw [hview]; rfl⟩

theorem sorted (h : Accounted view log s) : log.sent.Pairwise (·.sequence < ·.sequence) := by
  have hrange : (log.sent.map (·.sequence)).Pairwise (· < ·) := h.numbered ▸ List.pairwise_lt_range
  exact List.pairwise_map.1 hrange

theorem sent (h : Accounted view log s) {row : Sequenced} {launch : LaunchObservation} {event : SandboxProcessEvent}
    (hsent : s.Sent view row s') : Accounted view (log ++ [⟨.emit launch event, .sent row⟩]) s' := by
  obtain ⟨taken, pending, hsplit, htaken, hqueued⟩ := h.delivered
  have hfields := hsent.fields
  refine ⟨?_, ⟨taken, pending ++ [row], ?_, ?_, fun hboth => hsent.queued pending (hqueued ?_)⟩, ?_, ?_, ?_, ?_, ?_⟩
  · rw [sent_snoc, List.map_append, h.numbered, hfields, List.range_succ, ← hsent.sequence]
    rfl
  · rw [sent_snoc, hsplit, List.append_assoc]
    rfl
  · rw [delivered_snoc, htaken]
    exact List.append_nil _
  · rw [hfields] at hboth
    exact hboth
  · rw [hfields, refused_snoc, recorded_snoc]
    exact h.dropped
  · rw [hfields, refused_snoc, begun_snoc]
    exact h.lost
  · rw [hfields, begun_snoc, recorded_snoc]
    exact h.recording
  · rw [hsent.lifecycle, h.lifecycleSenders, hfields]
  · rw [hsent.output, h.outputSenders, hfields]

theorem refused (h : Accounted view log s) {launch : LaunchObservation} {event : SandboxProcessEvent}
    (hrefused : s.Refused view s') : Accounted view (log ++ [⟨.emit launch event, .refused⟩]) s' := by
  obtain ⟨taken, pending, hsplit, htaken, hqueued⟩ := h.delivered
  have hfields := hrefused.fields
  have hcount : ObservationLog.refused (log ++ [⟨.emit launch event, .refused⟩]) = log.refused + 1 := refused_snoc
  refine ⟨?_, ⟨taken, pending, ?_, ?_, fun hboth => hrefused.queued pending (hqueued ?_)⟩, ?_, ?_, ?_, ?_, ?_⟩
  · rw [sent_snoc, List.map_append, h.numbered, hfields]
    exact List.append_nil _
  · rw [sent_snoc, hsplit]
    exact List.append_nil _
  · rw [delivered_snoc, htaken]
    exact List.append_nil _
  · rw [hfields] at hboth
    exact hboth
  · rw [hfields, hcount, recorded_snoc, if_neg nofun, Nat.add_right_comm, UInt64.ofNat_add]
    exact congrArg (· + 1) h.dropped
  · rw [hrefused.lost, hcount, begun_snoc, if_neg nofun, Nat.add_right_comm, UInt64.ofNat_add]
    exact congrArg (· + 1) h.lost
  · rw [hfields, begun_snoc, recorded_snoc]
    exact h.recording
  · rw [hrefused.lifecycle, h.lifecycleSenders, hfields]
  · rw [hrefused.output, h.outputSenders, hfields]

theorem polled (hC : C.Documented view) (h : Accounted view log s) (ho : o = .tryRecv ∨ o = .pollRecv)
    (hboth : s.receiver = .both) : Accounted view (log ++ [⟨o, (s.perform o).1⟩]) (s.perform o).2 := by
  obtain ⟨taken, pending, hsplit, htaken, hqueued⟩ := h.delivered
  have hsorted : pending.Pairwise (·.sequence < ·.sequence) := (List.pairwise_append.1 (hsplit ▸ h.sorted)).2.1
  obtain ⟨rest, hreceived, hrest, halike⟩ := Observations.received hC (hqueued hboth) hsorted ho
  generalize s.perform o = r at hreceived hrest halike
  obtain ⟨a, s'⟩ := r
  have hfields := halike.fields
  have hloss : o ≠ .countLoss ∧ o ≠ .countDropped := by
    rcases ho with rfl | rfl <;> exact ⟨nofun, nofun⟩
  have hanswer : a ≠ .refused ∧ ObservationLog.sent [⟨o, a⟩] = [] := by
    cases hreceived <;> exact ⟨nofun, rfl⟩
  have hdelivered : ∃ now, pending = now ++ rest ∧ ObservationLog.delivered [⟨o, a⟩] = now.map (·.observation) := by
    cases hreceived with
    | next => exact ⟨[_], rfl, rfl⟩
    | nothing => exact ⟨[], rfl, rfl⟩
    | closed => exact ⟨[], rfl, rfl⟩
  obtain ⟨now, rfl, hnow⟩ := hdelivered
  dsimp only at *
  refine ⟨?_, ⟨taken ++ now, rest, ?_, ?_, fun _ => hrest⟩, ?_, ?_, ?_, ?_, ?_⟩
  · rw [sent_snoc, hanswer.2, List.append_nil, h.numbered, hfields]
  · rw [sent_snoc, hanswer.2, List.append_nil, hsplit, List.append_assoc]
  · rw [delivered_snoc, htaken, hnow, List.map_append]
  · rw [hfields, refused_snoc, recorded_snoc, if_neg hanswer.1, if_neg hloss.2]
    exact h.dropped
  · rw [hfields, refused_snoc, begun_snoc, if_neg hanswer.1, if_neg hloss.1]
    exact h.lost
  · rw [hfields, begun_snoc, recorded_snoc, if_neg hloss.1, if_neg hloss.2]
    exact h.recording
  · rw [halike.lifecycle, h.lifecycleSenders, hfields]
  · rw [halike.output, h.outputSenders, hfields]

theorem done (h : Accounted view log s) (hsequence : s'.sequence = s.sequence)
    (hqueued : s'.receiver = .both → s.receiver = .both ∧ ∀ pending, s.Queued view pending → s'.Queued view pending)
    (hdropped : s'.dropped = s.dropped + .ofNat (if o = .countDropped then 1 else 0))
    (hlost : s'.lifecycleDropped + s'.outputDropped =
      s.lifecycleDropped + s.outputDropped + .ofNat (if o = .countLoss then 1 else 0))
    (hrecording : (if o = .countDropped then 1 else 0) + s'.recording = s.recording + if o = .countLoss then 1 else 0)
    (hlifecycle : (view s'.lifecycle).senders = s'.senders) (houtput : (view s'.output).senders = s'.senders + s'.leaving) :
    Accounted view (log ++ [⟨o, .done⟩]) s' := by
  obtain ⟨taken, pending, hsplit, htaken, hpending⟩ := h.delivered
  refine ⟨?_, ⟨taken, pending, ?_, ?_, fun hboth => (hqueued hboth).2 pending (hpending (hqueued hboth).1)⟩, ?_, ?_, ?_,
    hlifecycle, houtput⟩
  · rw [sent_snoc, hsequence, ← h.numbered]
    exact congrArg _ (List.append_nil _)
  · rw [sent_snoc, hsplit]
    exact List.append_nil _
  · rw [delivered_snoc, htaken]
    exact List.append_nil _
  · rw [refused_snoc, if_neg nofun, Nat.add_zero, recorded_snoc, ← Nat.add_assoc, UInt64.ofNat_add, hdropped, h.dropped]
  · rw [refused_snoc, if_neg nofun, Nat.add_zero, begun_snoc, ← Nat.add_assoc, UInt64.ofNat_add, hlost, h.lost]
  · rw [begun_snoc, recorded_snoc, Nat.add_assoc, hrecording, h.recording, Nat.add_assoc]

theorem perform (hC : C.Documented view) (h : Accounted view log s) (ho : s.MayPerform o) :
    Accounted view (log ++ [⟨o, (s.perform o).1⟩]) (s.perform o).2 := by
  have hlife := h.lifecycleSenders
  have hout := h.outputSenders
  cases o with
  | emit launch event =>
    rw [Observations.perform]
    rcases Observations.emit_cases (s := s) hC launch event with ⟨s', hemit, hsent⟩ | ⟨s', hemit, hrefused⟩
    · rw [hemit]
      exact h.sent hsent
    · rw [hemit]
      exact h.refused hrefused
  | countLoss =>
    exact h.done rfl (fun hboth => ⟨hboth, fun _ hq => ⟨hq.lifecycle, hq.output, hq.lifecycleOpen, hq.outputOpen⟩⟩)
      (UInt64.add_zero _).symm (Observations.countLoss_lost false) (Nat.zero_add _) hlife hout
  | countDropped =>
    exact h.done rfl (fun hboth => ⟨hboth, fun _ hq => ⟨hq.lifecycle, hq.output, hq.lifecycleOpen, hq.outputOpen⟩⟩) rfl
      (UInt64.add_zero _).symm (Nat.add_sub_cancel' ho) hlife hout
  | cloneSender =>
    have hlifeView := hC.cloneSender s.lifecycle
    have houtView := hC.cloneSender s.output
    refine h.done rfl (fun hboth => ⟨hboth, fun _ hq => ⟨?_, ?_, ?_, ?_⟩⟩) (UInt64.add_zero _).symm (UInt64.add_zero _).symm
      (Nat.zero_add _) ?_ ?_
    · exact (congrArg (s.lifecycleHead.toList ++ ·.items) hlifeView).trans hq.lifecycle
    · exact (congrArg (s.outputHead.toList ++ ·.items) houtView).trans hq.output
    · exact (congrArg (·.isOpen) hlifeView).trans hq.lifecycleOpen
    · exact (congrArg (·.isOpen) houtView).trans hq.outputOpen
    · exact (congrArg (·.senders) hlifeView).trans (congrArg (· + 1) hlife)
    · exact (congrArg (·.senders) houtView).trans ((congrArg (· + 1) hout).trans (Nat.add_right_comm ..))
  | dropLifecycleSender =>
    have hlifeView := hC.dropSender s.lifecycle
    have hsenders : 0 < s.senders := ho
    refine h.done rfl (fun hboth => ⟨hboth, fun _ hq => ⟨?_, hq.output, ?_, hq.outputOpen⟩⟩) (UInt64.add_zero _).symm
      (UInt64.add_zero _).symm (Nat.zero_add _) ?_ ?_
    · exact (congrArg (s.lifecycleHead.toList ++ ·.items) hlifeView).trans hq.lifecycle
    · exact (congrArg (·.isOpen) hlifeView).trans hq.lifecycleOpen
    · exact (congrArg (·.senders) hlifeView).trans (congrArg (· - 1) hlife)
    · show (view s.output).senders = s.senders - 1 + (s.leaving + 1)
      omega
  | dropOutputSender =>
    have houtView := hC.dropSender s.output
    have hleaving : 0 < s.leaving := ho
    refine h.done rfl (fun hboth => ⟨hboth, fun _ hq => ⟨hq.lifecycle, ?_, hq.lifecycleOpen, ?_⟩⟩) (UInt64.add_zero _).symm
      (UInt64.add_zero _).symm (Nat.zero_add _) hlife ?_
    · exact (congrArg (s.outputHead.toList ++ ·.items) houtView).trans hq.output
    · exact (congrArg (·.isOpen) houtView).trans hq.outputOpen
    · exact (congrArg (·.senders) houtView).trans ((congrArg (· - 1) hout).trans (Nat.add_sub_assoc hleaving _))
  | tryRecv => exact h.polled hC (.inl rfl) ho
  | pollRecv => exact h.polled hC (.inr rfl) ho
  | dropLifecycleReceiver =>
    exact h.done rfl (fun hboth => nomatch hboth) (UInt64.add_zero _).symm (UInt64.add_zero _).symm (Nat.zero_add _)
      ((congrArg (·.senders) (hC.dropReceiver s.lifecycle)).trans hlife) hout
  | dropOutputReceiver =>
    exact h.done rfl (fun hboth => nomatch hboth) (UInt64.add_zero _).symm (UInt64.add_zero _).symm (Nat.zero_add _) hlife
      ((congrArg (·.senders) (hC.dropReceiver s.output)).trans hout)

theorem run (hC : C.Documented view) {capacity : ℕ} {start : Observations C}
    (hstart : sandboxProcessObservationChannel C capacity = .ok start) {os : List ObservationOp}
    (hos : (observing C).Meets Observations.MayPerform start os) :
    Accounted view ((observing C).answers start os) ((observing C).after start os) := by
  have hstep : ∀ (past : List ObservationOp) (s : Observations C) (o : ObservationOp),
      (s = (observing C).after start past ∧ Accounted view ((observing C).answers start past) s) → s.MayPerform o →
        ((observing C).step s o).2 = (observing C).after start (past ++ [o]) ∧
          Accounted view ((observing C).answers start (past ++ [o])) ((observing C).step s o).2 := by
    rintro past s o ⟨hs, h⟩ ho
    rw [Machine.after_append, Machine.answers_append, ← hs]
    exact ⟨rfl, h.perform hC ho⟩
  have hfirst : start = (observing C).after start [] ∧ Accounted view ((observing C).answers start []) start :=
    ⟨rfl, Accounted.start hC hstart⟩
  have hrun := Machine.historyInvariant hstep hfirst hos
  exact hrun.2

end Accounted

theorem row_of_sent (hC : C.Documented view) {start : Observations C} {os : List ObservationOp} {launch : LaunchObservation}
    {event : SandboxProcessEvent}
    (h : (⟨.emit launch event, .sent row⟩ : (_ : ObservationOp) × Observed) ∈ (observing C).answers start os) :
    row.observation = launch.row event := by
  obtain ⟨past, later, hlog⟩ := List.append_of_mem h
  obtain ⟨before, -, -, -, hanswer⟩ := Machine.exists_of_answers_eq hlog
  change _ = (Observations.perform _ (.emit launch event)).1 at hanswer
  rw [Observations.perform] at hanswer
  rcases Observations.emit_cases (s := (observing C).after start before) hC launch event with
    ⟨s', hemit, -⟩ | ⟨s', hemit, -⟩
  · rw [hemit] at hanswer
    rw [Observed.sent.inj hanswer]
  · rw [hemit] at hanswer
    exact nomatch hanswer

/-- **Observations are merged in order, with the losses counted**, in every run: any senders
and operations in any order, a channel of any capacity that does what it documents, and polls
of it that may be cut short.  The rows that were sent are numbered in order, those delivered
are the first of them, a poll that answers that the observations are closed comes after all
of them and after every sender, and any other poll delivers the next row if there is one.
The counters count modulo 2⁶⁴, and the sum of the two is ahead of the third by the calls of
`record_loss` that have counted once. -/
theorem observations_merge (hC : C.Documented view) {capacity : ℕ} {start : Observations C}
    (hstart : sandboxProcessObservationChannel C capacity = .ok start) {os : List ObservationOp}
    (hos : (observing C).Meets Observations.MayPerform start os) :
    let log : ObservationLog := (observing C).answers start os
    let s := (observing C).after start os
    (∀ launch event row, ⟨.emit launch event, .sent row⟩ ∈ log → row.observation = launch.row event) ∧
      log.sent.Pairwise (·.sequence < ·.sequence) ∧ log.delivered <+: log.sent.map (·.observation) ∧
      (∀ o, s.MayPerform o → (s.perform o).1 = .closed →
        log.delivered = log.sent.map (·.observation) ∧ s.senders = 0 ∧ s.leaving = 0) ∧
      (∀ o row, o = .tryRecv ∨ o = .pollRecv → s.MayPerform o → log.sent[log.delivered.length]? = some row →
        (s.perform o).1 = .delivered row.observation) ∧
      s.dropped = .ofNat (log.refused + log.recorded) ∧
      s.lifecycleDropped + s.outputDropped = .ofNat (log.refused + log.begun) ∧ log.begun = log.recorded + s.recording := by
  intro log s
  have haccount : Accounted view log s := Accounted.run hC hstart hos
  obtain ⟨taken, pending, hsplit, htaken, hqueued⟩ := haccount.delivered
  have hsorted : pending.Pairwise (·.sequence < ·.sequence) := (List.pairwise_append.1 (hsplit ▸ haccount.sorted)).2.1
  refine ⟨fun _ _ _ h => row_of_sent hC h, haccount.sorted, ?_, fun o ho hclosed => ?_, fun o row ho hmay hrow => ?_,
    haccount.dropped, haccount.lost, haccount.recording⟩
  · rw [htaken, hsplit, List.map_append]
    exact List.prefix_append ..
  · have hpoll : o = .tryRecv ∨ o = .pollRecv := by
      cases o with
      | tryRecv => exact .inl rfl
      | pollRecv => exact .inr rfl
      | emit launch event =>
        rw [Observations.perform] at hclosed
        rcases Observations.emit_cases (s := s) hC launch event with ⟨s', hemit, -⟩ | ⟨s', hemit, -⟩ <;>
          exact nomatch hemit ▸ hclosed
      | _ => exact nomatch hclosed
    have hboth : s.receiver = .both := by
      rcases hpoll with rfl | rfl <;> exact ho
    obtain ⟨rest, hreceived, -⟩ := Observations.received hC (hqueued hboth) hsorted hpoll
    rw [hclosed] at hreceived
    have hlife := haccount.lifecycleSenders
    have hout := haccount.outputSenders
    cases hreceived with
    | closed hlifecycle houtput =>
      refine ⟨by rw [htaken, hsplit, List.append_nil], hlife.symm.trans hlifecycle, ?_⟩
      omega
  · have hboth : s.receiver = .both := by
      rcases ho with rfl | rfl <;> exact hmay
    obtain ⟨rest, hreceived, -⟩ := Observations.received hC (hqueued hboth) hsorted ho
    rw [hsplit, htaken, List.length_map, List.getElem?_append_right le_rfl, Nat.sub_self] at hrow
    generalize (s.perform o).1 = a at hreceived ⊢
    cases hreceived with
    | next => rw [Option.some.inj hrow]
    | nothing => exact nomatch hrow
    | closed => exact nomatch hrow

/-! ### A run, and one that counts too far -/

section Samples

abbrev sampleChannels : Mpsc Sequenced := mailboxes Sequenced [true, true]

def sampleObservations : Observations sampleChannels where
  sequence := 0
  dropped := 0
  lifecycleDropped := 0
  outputDropped := 0
  lifecycle := sampleChannels.channel 1
  output := sampleChannels.channel 1
  lifecycleHead := none
  outputHead := none
  senders := 1
  leaving := 0
  recording := 0
  receiver := .both

theorem sample_opened : sandboxProcessObservationChannel sampleChannels 1 = .ok sampleObservations := rfl

def sampleLaunch : LaunchObservation := ⟨"turn", "launch", 1, 1⟩

/-- A process prints and ends, and the channel of its life is full when it is cleaned up. -/
def sampleRun : List ObservationOp :=
  [.pollRecv, .emit sampleLaunch (.outputObserved .stdout [104, 105]), .emit sampleLaunch (.reaped (some 0) none),
    .emit sampleLaunch (.groupCleanup none), .dropLifecycleSender, .pollRecv, .dropOutputSender, .tryRecv]

theorem sample_meets : (observing sampleChannels).Meets Observations.MayPerform sampleObservations sampleRun :=
  ⟨rfl, Nat.one_pos, Nat.one_pos, Nat.one_pos, Nat.one_pos, rfl, Nat.one_pos, rfl, trivial⟩

theorem observations_merge_sample :
    let log : ObservationLog := (observing sampleChannels).answers sampleObservations sampleRun
    let s := (observing sampleChannels).after sampleObservations sampleRun
    (s.perform .pollRecv).1 = .closed ∧ log.delivered = log.sent.map (·.observation) ∧ log.delivered.length = 2 ∧
      s.dropped = 1 ∧ s.lifecycleDropped + s.outputDropped = 1 := by
  obtain ⟨-, -, -, hclosed, -, hdropped, hlost, -⟩ := observations_merge (mailboxes_documented _) sample_opened sample_meets
  have hend : (((observing sampleChannels).after sampleObservations sampleRun).perform .pollRecv).1 = .closed := by
    decide +kernel
  exact ⟨hend, (hclosed .pollRecv rfl hend).1, by decide +kernel, hdropped, hlost⟩

/-- Calls of `record_loss`, one after the other. -/
def recordings : ℕ → List ObservationOp
  | 0 => []
  | n + 1 => .countLoss :: .countDropped :: recordings n

theorem meets_recordings {s : Observations C} (hsenders : 0 < s.senders) (n : ℕ) :
    (observing C).Meets Observations.MayPerform s (recordings n) := by
  induction n generalizing s with
  | zero => trivial
  | succ n ih => exact ⟨hsenders, Nat.succ_pos _, ih hsenders⟩

theorem counts_recordings (s : Observations C) (n : ℕ) :
    let log : ObservationLog := (observing C).answers s (recordings n)
    log.refused = 0 ∧ log.begun = n ∧ log.recorded = n := by
  induction n generalizing s with
  | zero => exact ⟨rfl, rfl, rfl⟩
  | succ n ih =>
    obtain ⟨hrefused, hbegun, hrecorded⟩ := ih ((observing C).after s [.countLoss, .countDropped])
    have hlog : (observing C).answers s (recordings (n + 1)) = ⟨.countLoss, .done⟩ :: ⟨.countDropped, .done⟩ ::
        (observing C).answers ((observing C).after s [.countLoss, .countDropped]) (recordings n) := rfl
    rw [hlog]
    refine ⟨?_, ?_, ?_⟩
    · simpa [ObservationLog.refused] using hrefused
    · simpa [ObservationLog.begun] using hbegun
    · simpa [ObservationLog.recorded] using hrecorded

/-- **The counters are no numbers**: after 2⁶⁴ calls of `record_loss` none is counted. -/
theorem not_observations_merge : ∃ os : List ObservationOp,
    (observing sampleChannels).Meets Observations.MayPerform sampleObservations os ∧
      let log : ObservationLog := (observing sampleChannels).answers sampleObservations os
      let s := (observing sampleChannels).after sampleObservations os
      s.recording = 0 ∧ log.refused + log.recorded = 2 ^ 64 ∧ s.dropped.toNat = 0 ∧
        s.dropped.toNat ≠ log.refused + log.recorded := by
  obtain ⟨n, hn⟩ : ∃ n, n = 2 ^ 64 := ⟨_, rfl⟩
  have hmeets := meets_recordings (s := sampleObservations) Nat.one_pos n
  have haccount := Accounted.run (C := sampleChannels) (mailboxes_documented _) sample_opened hmeets
  obtain ⟨hrefused, hbegun, hrecorded⟩ := counts_recordings sampleObservations n
  have hrecording := haccount.recording
  rw [hbegun, hrecorded] at hrecording
  have hdropped := haccount.dropped.trans (congrArg UInt64.ofNat (show _ = 2 ^ 64 by
    rw [hrefused, hrecorded, Nat.zero_add, hn]))
  have hzero : (UInt64.ofNat (2 ^ 64)).toNat = 0 := by decide +kernel
  refine ⟨recordings n, hmeets, Nat.add_eq_left.1 hrecording.symm, ?_, ?_, ?_⟩
  · rw [hrefused, hrecorded, Nat.zero_add, hn]
  · rw [hdropped, hzero]
  · rw [hdropped, hzero, hrefused, hrecorded, hn]
    decide +kernel

end Samples

end Sandbox
end Kolyan
