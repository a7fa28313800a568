/-
# What the outcome of a replacement tells

A worker leaves its target at every instant as it was, or with the complete new content
(`left_cases`).  The host calls a call `Completed` only when the worker has answered, which
it does after the rename.  The other way fails: once the target has been replaced, a worker
that a signal ends, that cannot print its line, or whose end the sandbox cannot see, is
reported as a definite failure, `Failed` (`receive_unsettled`).  `receipt::decode` calls an
answer that it cannot read `Uncertain`; that there is none is no such case.

`Settled` is what is left of the ends: the worker is seen to end after its line, or the
host has stopped it and calls it cancelled, or timed out.
-/

import Kolyan.Tools.Isolated

namespace Kolyan
namespace Tools

open Paths (Name)
open Checks Policy Turn Threads

/-- A failure that says that nothing was changed. -/
def Definite (error : ToolError) : Prop :=
  (∃ message, error = .failed message) ∨ ∃ message, error = .policyDenied message

/-- The end of a worker that has replaced its target is known, or open: it is seen to end
after its line, or it is cancelled, or timed out. -/
structure Course.Settled (c : Course) : Prop where
  joined : c.joined = true
  cleaned : c.cleaned = true
  reaped : c.reaped = true
  ended : c.loopEnd = .cancelled ∨ c.loopEnd = .timedOut ∨
    c.loopEnd = .exited ∧ c.stop = .returned true ∧ c.inputFailed = false ∧ c.captured = true

variable {host : IsolatedFileHost} {invocation : ToolInvocation} {c : Course} {request : ExactFileWorkerRequest}
  {limit : ℕ} {operation : FileOperation}

section Admission

/-- **An admitted request** has the operation of the call, whose framing fits. -/
theorem admission_eq_ok {cap : ℕ} (h : host.admission invocation c (some cap) = .ok (request, limit))
    (hoperation : host.tools.operation invocation.prepared.call = .ok operation) :
    request.operation = operation ∧ ∃ granted, limit = Files.outputLimit (some cap) granted ∧
      Files.fitsFraming operation host.tools.config.fileLimits limit = .ok () := by
  simp only [IsolatedFileHost.admission, hoperation, bind_eq_ok, mapError_eq_ok, expect_eq_ok, pure_eq_ok] at h
  obtain ⟨_, -, _, -, _, -, _, hown, granted, -, _, hframing, binding, -, made, hmade, _, -, _, -, hpair⟩ := h
  obtain ⟨rfl, rfl⟩ := Prod.mk.inj hpair
  obtain rfl := Except.ok.inj hown
  refine ⟨?_, granted, rfl, hframing⟩
  simp only [IsolatedFileHost.workerRequest, bind_eq_ok] at hmade
  obtain ⟨_, -, _, -, hmade⟩ := hmade
  split at hmade
  · obtain ⟨_, -, hmade⟩ := bind_eq_ok.1 hmade
    exact (pure_eq_ok.1 hmade) ▸ rfl
  · simp only [bind_eq_ok, pure_eq_ok] at hmade
    obtain ⟨_, -, _, -, _, -, _, -, rfl⟩ := hmade
    rfl

theorem started_eq_some (h : host.started invocation c = some (request, limit)) :
    c.cancelledBefore = false ∧ ∃ most cap, ceiling invocation = .ok most ∧
      Files.rawCap invocation.prepared.call.id most = .ok cap ∧
      host.admission invocation c (some cap) = .ok (request, limit) := by
  unfold IsolatedFileHost.started at h
  split at h
  · exact nomatch h
  rename_i hbefore
  obtain ⟨most, hmost, h⟩ := Option.bind_eq_some_iff.1 h
  obtain ⟨cap, hcap, h⟩ := Option.bind_eq_some_iff.1 h
  rw [toOption_eq_some] at hmost hcap h
  exact ⟨Bool.eq_false_iff.2 hbefore, most, cap, hmost, hcap, h⟩

theorem execute_started {most cap : ℕ} (hmost : ceiling invocation = .ok most)
    (hcap : Files.rawCap invocation.prepared.call.id most = .ok cap)
    (hadmitted : host.admission invocation c (some cap) = .ok (request, limit)) :
    host.execute invocation c = mapError toolError (host.receive c request limit) >>=
      Files.finish invocation.prepared.call.id most := by
  rw [IsolatedFileHost.execute, hmost, ok_bind]
  dsimp only
  rw [hcap, ok_bind, IsolatedFileHost.executeBounded, hadmitted, ok_bind]

theorem execute_eq_ok {result : ToolResult} (hbefore : c.cancelledBefore = false)
    (h : host.execute invocation c = .ok result) : ∃ request limit output,
      host.started invocation c = some (request, limit) ∧ host.receive c request limit = .ok output ∧
      result = Files.result invocation.prepared.call.id output := by
  simp only [IsolatedFileHost.execute, IsolatedFileHost.executeBounded, bind_eq_ok, mapError_eq_ok] at h
  obtain ⟨most, hmost, cap, hcap, output, ⟨⟨request, limit⟩, hadmitted, hreceive⟩, hfinish⟩ := h
  refine ⟨request, limit, output, ?_, hreceive, ?_⟩
  · rw [IsolatedFileHost.started, hbefore, hmost]
    simp only [Bool.false_eq_true, if_false, Except.toOption, Option.bind_eq_bind, Option.bind_some, hcap, hadmitted]
  · simp only [Files.finish, bind_eq_ok, pure_eq_ok] at hfinish
    obtain ⟨_, -, rfl⟩ := hfinish
    rfl

end Admission

section Worker

variable (host c) in
/-- **What a worker leaves.**  Its target is as it was, and it has not exited well; or the
target holds the new content, and then it has exited well, with its line, exactly if it
was let run to its end and could print. -/
theorem left_cases (hreplaces : request.operation.isRead = false) :
    (Unreplaced request c.disk (host.left c request).disk.files (host.left c request).disk.replaced ∧
      (host.left c request).status ≠ some 0) ∨
    ∃ content, Replaced host.codec.contentSha256 request host.tools.config.fileLimits c.disk content
        (host.left c request).disk.files (host.left c request).disk.replaced ∧
      (c.stop = .returned true ∧ (host.left c request).status = some 0 ∧
        (executeExact host.codec.contentSha256 request host.tools.config.fileLimits).runs c.disk =
          some (.ok (resultOf host.codec.contentSha256 request.operation content), (host.left c request).disk) ∧
        (host.left c request).stdout = asBytes (receiptLine (resultOf host.codec.contentSha256 request.operation content)) ∨
      c.stop ≠ .returned true ∧ (host.left c request).status ≠ some 0) := by
  have hstart : Unreplaced request c.disk c.disk.files c.disk.replaced := unreplaced_of_like ⟨rfl, rfl⟩
  have hholds := executeExact_holds host.codec.contentSha256 request host.tools.config.fileLimits c.disk
  have hone : some (1 : Int32) ≠ some 0 := by decide
  have hpanic : some (101 : Int32) ≠ some 0 := by decide
  unfold IsolatedFileHost.left workerEnd
  cases hstop : c.stop with
  | refused => exact .inl ⟨hstart, hone⟩
  | killed n =>
    rcases cut_of_holds hholds hstart.atomic n with h | ⟨content, h⟩
    · exact .inl ⟨h, nofun⟩
    · exact .inr ⟨content, h, .inr ⟨nofun, nofun⟩⟩
  | returned printed =>
    cases hrun : (executeExact host.codec.contentSha256 request host.tools.config.fileLimits).runs c.disk with
    | none => exact .inl ⟨hstart, hpanic⟩
    | some answer =>
      obtain ⟨r, d'⟩ := answer
      have htells := runs_of_holds hholds hrun
      cases r with
      | error e => exact .inl ⟨htells, hone⟩
      | ok result =>
        rcases htells with ⟨hread, -⟩ | ⟨content, hreplaced, rfl⟩
        · exact nomatch hreplaces.symm.trans hread
        · cases printed with
          | true => exact .inr ⟨content, hreplaced, .inl ⟨rfl, rfl, rfl, rfl⟩⟩
          | false => exact .inr ⟨content, hreplaced, .inr ⟨nofun, hone⟩⟩

theorem Replaced.ne {content : String} {files : Directory (List Name) (List UInt8)} {record : List (List Name)}
    {sha256 : String → String} {limits : FileOperationLimits} {d₀ : Disk}
    (h : Replaced sha256 request limits d₀ content files record) : record ≠ d₀.replaced := by
  rw [h.record]
  exact List.cons_ne_self _ _

/-- **A worker that has replaced its target, and was let run to its end**, has printed its line. -/
theorem left_line (hreplaces : request.operation.isRead = false) (hstop : c.stop = .returned true) {content : String}
    (h : Replaced host.codec.contentSha256 request host.tools.config.fileLimits c.disk content
      (host.left c request).disk.files (host.left c request).disk.replaced) :
    (host.left c request).status = some 0 ∧
      (executeExact host.codec.contentSha256 request host.tools.config.fileLimits).runs c.disk =
        some (.ok (resultOf host.codec.contentSha256 request.operation content), (host.left c request).disk) ∧
      (host.left c request).stdout =
        asBytes (receiptLine (resultOf host.codec.contentSha256 request.operation content)) := by
  rcases left_cases host c hreplaces with ⟨hkept, -⟩ | ⟨other, hother, hend⟩
  · exact absurd hkept.record h.ne
  · have hsame : fromUtf8 (asBytes other) = fromUtf8 (asBytes content) :=
      congrArg fromUtf8 (Option.some.inj (hother.target.symm.trans h.target))
    rw [fromUtf8_asBytes, fromUtf8_asBytes] at hsame
    obtain rfl := Except.ok.inj hsame
    rcases hend with ⟨-, hend⟩ | ⟨hnot, -⟩
    · exact hend
    · exact absurd hstop hnot

theorem decode_line (hcodec : host.codec.Lawful) {content : String} {held : Option (List UInt8)}
    (hvalid : validateOperation request.operation host.tools.config.fileLimits = .ok ())
    (hplanned : Planned host.codec.contentSha256 request host.tools.config.fileLimits held content) :
    decode host.codec request.operation (receiptLine (resultOf host.codec.contentSha256 request.operation content))
        host.tools.config.fileLimits =
      .ok (resultOf host.codec.contentSha256 request.operation content) := by
  simp only [decode, bind_eq_ok, mapError_eq_ok, reject_eq_ok, pure_eq_ok]
  refine ⟨_, hcodec.prints _, (), not_not.2 rfl, (), not_not.2 (hcodec.digest content), (), ?_, rfl⟩
  simp only [validateOperation, bind_eq_ok] at hvalid
  obtain ⟨_, -, _, -, hvalid⟩ := hvalid
  unfold Planned at hplanned
  cases hop : request.operation with
  | read path =>
    rw [hop] at hplanned
    exact hplanned.elim
  | write path text =>
    rw [hop] at hplanned hvalid
    obtain rfl : content = text := hplanned
    have hmatches : matchesContent host.codec (resultOf host.codec.contentSha256 (.write path content) content) content
        = true := by
      rw [matchesContent, Bool.and_eq_true]
      exact ⟨decide_eq_true rfl, decide_eq_true rfl⟩
    refine reject_eq_ok.2 ?_
    rintro (hsome | hlong | hmismatch)
    · cases hsome
    · exact reject_eq_ok.1 hvalid hlong
    · exact hmismatch hmatches
  | edit path oldText newText expectedSha256 =>
    rw [hop] at hplanned
    obtain ⟨original, a, b, -, heditable, hab, rfl⟩ := hplanned
    refine reject_eq_ok.2 ?_
    rintro (hsome | hlong)
    · cases hsome
    · refine absurd hlong (Nat.not_lt_of_le ?_)
      show (String.ofList (a ++ newText.toList ++ b)).utf8ByteSize ≤ _
      rw [utf8ByteSize_replaced newText hab]
      exact heditable.fits

theorem decodeBytes_asBytes (operation : FileOperation) (text : String) :
    host.decodeBytes operation (asBytes text) = decode host.codec operation text host.tools.config.fileLimits := by
  rw [IsolatedFileHost.decodeBytes, fromUtf8_asBytes]

end Worker

section Ends

variable {o : Observed}

theorem collect_eq_ok {output : Shell.SandboxOutput} (h : o.collect = .ok output) :
    (o.joined = true ∧ o.cleaned = true ∧ o.reaped = true) ∧ o.loopEnd = .exited ∧
      (o.inputFailed = false ∧ o.captured = true) ∧ output = ⟨o.status, o.stdout, o.stderr⟩ := by
  simp only [Observed.collect, bind_eq_ok, reject_eq_ok, pure_eq_ok, Bool.not_eq_false, Bool.not_eq_true] at h
  obtain ⟨_, hjoined, _, hcleaned, _, hreaped, _, hended, _, -, _, hinput, _, hcaptured, rfl⟩ := h
  refine ⟨⟨hjoined, hcleaned, hreaped⟩, ?_, ⟨hinput, hcaptured⟩, rfl⟩
  cases hend : o.loopEnd with
  | exited => rfl
  | cancelled | timedOut | waitFailed => rw [hend] at hended; exact nomatch hended

theorem collect_ended (h : o.joined = true ∧ o.cleaned = true ∧ o.reaped = true) :
    o.collect = do
      o.loopEnd.outcome
      reject (o.overflow = true) .outputLimit
      reject (o.inputFailed = true) .io
      reject (o.captured = false) .io
      return ⟨o.status, o.stdout, o.stderr⟩ := by
  obtain ⟨hjoined, hcleaned, hreaped⟩ := h
  rw [Observed.collect, hjoined, hcleaned, hreaped]
  rfl

theorem collect_unended (h : ¬(o.joined = true ∧ o.cleaned = true ∧ o.reaped = true)) :
    o.collect = .error .worker ∨ o.collect = .error .io := by
  rw [Observed.collect]
  by_cases hjoined : o.joined = false
  · rw [reject_of hjoined]
    exact .inl rfl
  rw [reject_of_not hjoined, ok_bind]
  by_cases hcleaned : o.cleaned = false
  · rw [reject_of hcleaned]
    exact .inr rfl
  rw [reject_of_not hcleaned, ok_bind]
  by_cases hreaped : o.reaped = false
  · rw [reject_of hreaped]
    exact .inr rfl
  · exact absurd ⟨Bool.not_eq_false _ ▸ hjoined, Bool.not_eq_false _ ▸ hcleaned, Bool.not_eq_false _ ▸ hreaped⟩ h

/-- **A process is cancelled, or timed out, by its loop only**, and when it was looked after. -/
theorem collect_error {e : SandboxError} (h : o.collect = .error e) : (e ≠ .cancelled ∧ e ≠ .timeout) ∨
    (o.joined = true ∧ o.cleaned = true ∧ o.reaped = true) ∧ (o.loopEnd = .cancelled ∨ o.loopEnd = .timedOut) := by
  by_cases hends : o.joined = true ∧ o.cleaned = true ∧ o.reaped = true
  · cases hend : o.loopEnd with
    | cancelled => exact .inr ⟨hends, .inl rfl⟩
    | timedOut => exact .inr ⟨hends, .inr rfl⟩
    | waitFailed =>
      rw [collect_ended hends, hend] at h
      obtain rfl : SandboxError.io = e := Except.error.inj h
      exact .inl ⟨nofun, nofun⟩
    | exited =>
      rw [collect_ended hends, hend] at h
      refine .inl ⟨?_, ?_⟩ <;> rintro rfl <;> revert h <;>
        exact bind_ne_error nofun fun _ => bind_ne_error (reject_ne_error nofun) fun _ =>
          bind_ne_error (reject_ne_error nofun) fun _ => bind_ne_error (reject_ne_error nofun) fun _ => nofun
  · rcases collect_unended hends with hcollect | hcollect <;> rw [hcollect] at h <;> obtain rfl := Except.error.inj h
    · exact .inl ⟨nofun, nofun⟩
    · exact .inl ⟨nofun, nofun⟩

end Ends

section Outcomes

/-- **A worker whose end is settled** has its line accepted, or is cancelled, or timed out. -/
theorem receive_settled (hcodec : host.codec.Lawful)
    (hvalid : validateOperation request.operation host.tools.config.fileLimits = .ok ())
    (hreplaces : request.operation.isRead = false) {content : String}
    (hreplaced : Replaced host.codec.contentSha256 request host.tools.config.fileLimits c.disk content
      (host.left c request).disk.files (host.left c request).disk.replaced)
    (hfits : c.stop = .returned true →
      (receiptLine (resultOf host.codec.contentSha256 request.operation content)).utf8ByteSize ≤ limit)
    (hsettled : c.Settled) :
    (c.stop = .returned true ∧
        host.receive c request limit = .ok (resultOf host.codec.contentSha256 request.operation content)) ∨
      host.receive c request limit = .error (.sandbox .cancelled) ∨
      host.receive c request limit = .error (.sandbox .timeout) := by
  have hends : (c.observed limit (host.left c request)).joined = true ∧
      (c.observed limit (host.left c request)).cleaned = true ∧
      (c.observed limit (host.left c request)).reaped = true :=
    ⟨hsettled.joined, hsettled.cleaned, hsettled.reaped⟩
  have hloop : (c.observed limit (host.left c request)).loopEnd = c.loopEnd := rfl
  rw [IsolatedFileHost.receive, collect_ended hends, hloop]
  rcases hsettled.ended with hend | hend | ⟨hend, hstop, hinput, hcaptured⟩
  · rw [hend]
    exact .inr (.inl rfl)
  · rw [hend]
    exact .inr (.inr rfl)
  · refine .inl ⟨hstop, ?_⟩
    obtain ⟨hstatus, -, hstdout⟩ := left_line hreplaces hstop hreplaced
    have hroom : (c.observed limit (host.left c request)).overflow ≠ true := by
      have hlen : (asBytes (receiptLine (resultOf host.codec.contentSha256 request.operation content))).length =
          (receiptLine (resultOf host.codec.contentSha256 request.operation content)).utf8ByteSize := rfl
      simp only [Course.observed, hstatus, hstdout, if_true, hlen, List.length_nil, Nat.add_zero, ne_eq,
        decide_eq_true_eq, not_lt]
      exact hfits hstop
    have hstdin : (c.observed limit (host.left c request)).inputFailed ≠ true := by
      show c.inputFailed ≠ true
      rw [hinput]
      exact Bool.false_ne_true
    have hpipes : (c.observed limit (host.left c request)).captured ≠ false := by
      show c.captured ≠ false
      rw [hcaptured]
      exact Bool.noConfusion
    rw [hend, reject_of_not hroom, reject_of_not hstdin, reject_of_not hpipes]
    show (reject ((host.left c request).status ≠ some 0) _ >>= fun _ =>
      mapError BoundedError.file (host.decodeBytes request.operation (host.left c request).stdout)) = _
    rw [reject_of_not (not_not.2 hstatus), ok_bind, hstdout, decodeBytes_asBytes,
      decode_line hcodec hvalid hreplaced.planned]
    rfl

theorem receive_eq_ok (hreplaces : request.operation.isRead = false) {output : FileOperationResult}
    (h : host.receive c request limit = .ok output) : c.Settled ∧
      (host.left c request).status = some 0 ∧
      host.decodeBytes request.operation (host.left c request).stdout = .ok output := by
  simp only [IsolatedFileHost.receive, bind_eq_ok, mapError_eq_ok, reject_eq_ok, not_not] at h
  obtain ⟨got, hgot, -, hstatus, hdecode⟩ := h
  obtain ⟨⟨hjoined, hcleaned, hreaped⟩, hexited, ⟨hinput, hcaptured⟩, rfl⟩ := collect_eq_ok hgot
  have hstatus : (host.left c request).status = some 0 := hstatus
  refine ⟨⟨hjoined, hcleaned, hreaped, .inr (.inr ⟨hexited, ?_, hinput, hcaptured⟩)⟩, hstatus, hdecode⟩
  rcases left_cases host c hreplaces with ⟨-, hbad⟩ | ⟨-, -, ⟨hstop, -⟩ | ⟨-, hbad⟩⟩
  · exact absurd hstatus hbad
  · exact hstop
  · exact absurd hstatus hbad

/-- **A worker whose end is not settled is reported to have failed.** -/
theorem receive_unsettled (hreplaces : request.operation.isRead = false) {content : String}
    (hreplaced : Replaced host.codec.contentSha256 request host.tools.config.fileLimits c.disk content
      (host.left c request).disk.files (host.left c request).disk.replaced) (hsettled : ¬c.Settled) :
    ∃ error message, host.receive c request limit = .error error ∧ toolError error = .failed message := by
  cases hreceive : host.receive c request limit with
  | ok output => exact absurd (receive_eq_ok hreplaces hreceive).1 hsettled
  | error error =>
    refine ⟨error, ?_⟩
    rw [IsolatedFileHost.receive] at hreceive
    cases hcollect : (c.observed limit (host.left c request)).collect with
    | error e =>
      rw [hcollect] at hreceive
      obtain rfl : BoundedError.sandbox e = error := Except.error.inj hreceive
      rcases collect_error hcollect with ⟨hcancelled, htimeout⟩ | ⟨⟨hjoined, hcleaned, hreaped⟩, hend⟩
      · cases e with
        | cancelled => exact absurd rfl hcancelled
        | timeout => exact absurd rfl htimeout
        | _ => exact ⟨_, rfl, rfl⟩
      · exact absurd ⟨hjoined, hcleaned, hreaped, hend.imp_right .inl⟩ hsettled
    | ok got =>
      obtain ⟨⟨hjoined, hcleaned, hreaped⟩, hexited, ⟨hinput, hcaptured⟩, rfl⟩ := collect_eq_ok hcollect
      have hnot : c.stop ≠ .returned true := fun hstop =>
        hsettled ⟨hjoined, hcleaned, hreaped, .inr (.inr ⟨hexited, hstop, hinput, hcaptured⟩)⟩
      have hstatus : (host.left c request).status ≠ some 0 := by
        rcases left_cases host c hreplaces with ⟨hkept, -⟩ | ⟨-, -, ⟨hstop, -⟩ | ⟨-, hbad⟩⟩
        · exact absurd hkept.record hreplaced.ne
        · exact absurd hstop hnot
        · exact hbad
      rw [hcollect] at hreceive
      have hfailed : (reject ((host.left c request).status ≠ some 0)
          (BoundedError.file (.invalid ("worker failed: " ++ host.lossy (c.observed limit (host.left c request)).stderr)))
          >>= fun _ => mapError BoundedError.file (host.decodeBytes request.operation (host.left c request).stdout)) =
            .error error := hreceive
      rw [reject_of hstatus] at hfailed
      obtain rfl := Except.error.inj hfailed
      exact ⟨_, rfl, rfl⟩

theorem finalDisk_started (h : host.started invocation c = some (request, limit)) :
    host.finalDisk invocation c = (host.left c request).disk := by
  rw [IsolatedFileHost.finalDisk, h]

theorem executeInvocation_eq (hbefore : c.cancelledBefore = false) :
    host.executeInvocation invocation c =
      if c.cancelledDuring then
        match host.execute invocation c with
        | .ok _ | .error .cancelled => .error .cancelled
        | .error error => .error error
      else (host.execute invocation c).map .completed := by
  rw [IsolatedFileHost.executeInvocation, hbefore]
  rfl

theorem executeInvocation_failed (hbefore : c.cancelledBefore = false) {message : String}
    (h : host.execute invocation c = .error (.failed message)) :
    host.executeInvocation invocation c = .error (.failed message) := by
  rw [executeInvocation_eq hbefore, h]
  split <;> rfl

theorem executeInvocation_error (hbefore : c.cancelledBefore = false) {error : ToolError}
    (h : host.executeInvocation invocation c = .error error) :
    error = .cancelled ∨ host.execute invocation c = .error error := by
  rw [executeInvocation_eq hbefore] at h
  split_ifs at h
  · split at h
    · exact .inl (Except.error.inj h).symm
    · exact .inl (Except.error.inj h).symm
    · rename_i e _ he
      exact .inr (he.trans (congrArg Except.error (Except.error.inj h)))
  · cases hexecute : host.execute invocation c with
    | ok result => rw [hexecute] at h; exact nomatch h
    | error e => rw [hexecute] at h; exact .inr (congrArg Except.error (Except.error.inj h))

theorem executeInvocation_completed {result : ToolResult}
    (h : host.executeInvocation invocation c = .ok (.completed result)) :
    c.cancelledBefore = false ∧ host.execute invocation c = .ok result := by
  unfold IsolatedFileHost.executeInvocation at h
  split_ifs at h with hbefore hduring
  · split at h <;> exact nomatch h
  · refine ⟨Bool.eq_false_iff.2 hbefore, ?_⟩
    cases hexecute : host.execute invocation c with
    | ok other =>
      rw [hexecute] at h
      obtain rfl := ToolOutcome.completed.inj (Except.ok.inj h)
      rfl
    | error e => rw [hexecute] at h; exact nomatch h

end Outcomes

section Definite

variable (hcodec : host.codec.Lawful)
  (hoperation : host.tools.operation invocation.prepared.call = .ok operation) (hreplaces : operation.isRead = false)

include hoperation hreplaces

theorem started_replaces (hstarted : host.started invocation c = some (request, limit)) :
    request.operation = operation ∧ request.operation.isRead = false ∧
      validateOperation request.operation host.tools.config.fileLimits = .ok () := by
  obtain ⟨-, most, cap, -, -, hadmitted⟩ := started_eq_some hstarted
  obtain ⟨rfl, -⟩ := admission_eq_ok hadmitted hoperation
  simp only [IsolatedFileTools.operation, bind_eq_ok, mapError_eq_ok, pure_eq_ok] at hoperation
  obtain ⟨decoded, -, _, hvalid, rfl⟩ := hoperation
  exact ⟨rfl, hreplaces, hvalid⟩

include hcodec

/-- **A replacement whose end is settled does not fail definitely.** -/
theorem settled_not_definite (hstarted : host.started invocation c = some (request, limit)) {content : String}
    (hreplaced : Replaced host.codec.contentSha256 request host.tools.config.fileLimits c.disk content
      (host.left c request).disk.files (host.left c request).disk.replaced) (hsettled : c.Settled)
    {error : ToolError} (herror : host.executeInvocation invocation c = .error error) : ¬Definite error := by
  obtain ⟨hbefore, most, cap, hmost, hcap, hadmitted⟩ := started_eq_some hstarted
  obtain ⟨hsame, hread, hvalid⟩ := started_replaces hoperation hreplaces hstarted
  obtain ⟨-, granted, rfl, hframing⟩ := admission_eq_ok hadmitted hoperation
  rw [← hsame] at hframing
  have hfits : ∀ (hstop : c.stop = .returned true),
      (receiptLine (resultOf host.codec.contentSha256 request.operation content)).utf8ByteSize ≤
        Files.outputLimit (some cap) granted ∧
      (receiptLine (resultOf host.codec.contentSha256 request.operation content)).utf8ByteSize ≤ cap :=
    fun hstop => Files.line_fits hcodec hread hframing (left_line hread hstop hreplaced).2.1
  rcases executeInvocation_error hbefore herror with rfl | hexecute
  · rintro (⟨_, h⟩ | ⟨_, h⟩) <;> exact nomatch h
  rw [execute_started hmost hcap hadmitted] at hexecute
  rcases receive_settled hcodec hvalid hread hreplaced (fun hstop => (hfits hstop).1) hsettled with
    ⟨hstop, hreceive⟩ | hreceive | hreceive
  · -- the result is within its limit, so nothing fails
    have hfinish := (Files.finish_decoded hcodec hcap (hfits hstop).2 (decode_line hcodec hvalid hreplaced.planned)).1
    rw [hreceive] at hexecute
    exact nomatch hfinish.symm.trans hexecute
  · rw [hreceive] at hexecute
    obtain rfl : ToolError.cancelled = error := Except.error.inj hexecute
    rintro (⟨_, h⟩ | ⟨_, h⟩) <;> exact nomatch h
  · rw [hreceive] at hexecute
    obtain rfl : ToolError.timedOut = error := Except.error.inj hexecute
    rintro (⟨_, h⟩ | ⟨_, h⟩) <;> exact nomatch h

omit hcodec in
theorem unsettled_definite (hstarted : host.started invocation c = some (request, limit)) {content : String}
    (hreplaced : Replaced host.codec.contentSha256 request host.tools.config.fileLimits c.disk content
      (host.left c request).disk.files (host.left c request).disk.replaced) (hsettled : ¬c.Settled) :
    ∃ error, host.executeInvocation invocation c = .error error ∧ Definite error := by
  obtain ⟨hbefore, most, cap, hmost, hcap, hadmitted⟩ := started_eq_some hstarted
  obtain ⟨-, hread, -⟩ := started_replaces hoperation hreplaces hstarted
  obtain ⟨error, message, hreceive, hfailed⟩ := receive_unsettled hread hreplaced hsettled
  refine ⟨_, executeInvocation_failed hbefore ?_, .inl ⟨message, rfl⟩⟩
  rw [execute_started hmost hcap hadmitted, hreceive, ← hfailed]
  rfl

omit hcodec in
theorem atomic_left (hstarted : host.started invocation c = some (request, limit)) :
    Atomic host.codec.contentSha256 request host.tools.config.fileLimits c.disk
      (host.left c request).disk.files (host.left c request).disk.replaced := by
  obtain ⟨-, hread, -⟩ := started_replaces hoperation hreplaces hstarted
  rcases left_cases host c hread with ⟨hkept, -⟩ | ⟨content, hreplaced, -⟩
  · exact .inl hkept
  · exact .inr ⟨content, hreplaced⟩

/-- **Which definite failures change nothing.**  For every execution of a write or an edit,
whatever the disk and the sandbox do: at every instant of the worker the target is the old
one or the complete new one, and so it is in the end, where nothing has changed if no worker
was started; and a call that completes has replaced its target by the content whose length
and digest are its result.  A definite failure leaves the target unreplaced if and only if
every worker that has replaced its target has a settled end. -/
theorem definite_failures :
    (∀ request limit, host.started invocation c = some (request, limit) → request.operation = operation ∧
      (∀ n, Atomic host.codec.contentSha256 request host.tools.config.fileLimits c.disk
        ((executeExact host.codec.contentSha256 request host.tools.config.fileLimits).run.cut Disk.act n c.disk).files
        ((executeExact host.codec.contentSha256 request host.tools.config.fileLimits).run.cut Disk.act n c.disk).replaced) ∧
      Atomic host.codec.contentSha256 request host.tools.config.fileLimits c.disk
        (host.finalDisk invocation c).files (host.finalDisk invocation c).replaced) ∧
    (host.started invocation c = none → host.finalDisk invocation c = c.disk) ∧
    (∀ result, host.executeInvocation invocation c = .ok (.completed result) → ∃ request limit content,
      host.started invocation c = some (request, limit) ∧
      Replaced host.codec.contentSha256 request host.tools.config.fileLimits c.disk content
        (host.finalDisk invocation c).files (host.finalDisk invocation c).replaced ∧
      result = Files.result invocation.prepared.call.id (resultOf host.codec.contentSha256 operation content)) ∧
    ((∀ error, host.executeInvocation invocation c = .error error → Definite error →
        ∀ request limit, host.started invocation c = some (request, limit) →
          Unreplaced request c.disk (host.finalDisk invocation c).files (host.finalDisk invocation c).replaced) ↔
      ∀ request limit, host.started invocation c = some (request, limit) →
        (host.left c request).disk.replaced ≠ c.disk.replaced → c.Settled) := by
  refine ⟨fun request limit hstarted => ?_, fun hnone => by rw [IsolatedFileHost.finalDisk, hnone],
    fun result hresult => ?_, fun hdefinite request limit hstarted hreplaced => ?_, fun hsettled => ?_⟩
  · have hstart : Unreplaced request c.disk c.disk.files c.disk.replaced := unreplaced_of_like ⟨rfl, rfl⟩
    refine ⟨(started_replaces hoperation hreplaces hstarted).1, fun n => ?_, ?_⟩
    · exact cut_of_holds (executeExact_holds _ _ _ _) hstart.atomic n
    · rw [finalDisk_started hstarted]
      exact atomic_left hoperation hreplaces hstarted
  · obtain ⟨hbefore, hexecute⟩ := executeInvocation_completed hresult
    obtain ⟨request, limit, output, hstarted, hreceive, rfl⟩ := execute_eq_ok hbefore hexecute
    obtain ⟨rfl, hread, hvalid⟩ := started_replaces hoperation hreplaces hstarted
    obtain ⟨-, hstatus, hdecode⟩ := receive_eq_ok hread hreceive
    rw [finalDisk_started hstarted]
    rcases left_cases host c hread with
      ⟨-, hbad⟩ | ⟨content, hreplaced, ⟨-, -, -, hstdout⟩ | ⟨-, hbad⟩⟩
    · exact absurd hstatus hbad
    · rw [hstdout, decodeBytes_asBytes, decode_line hcodec hvalid hreplaced.planned] at hdecode
      obtain rfl := Except.ok.inj hdecode
      exact ⟨request, limit, content, hstarted, hreplaced, rfl⟩
    · exact absurd hstatus hbad
  · by_contra hunsettled
    rcases atomic_left hoperation hreplaces hstarted with hkept | ⟨content, hdone⟩
    · exact hreplaced hkept.record
    · obtain ⟨error, herror, hfailure⟩ := unsettled_definite hoperation hreplaces hstarted hdone hunsettled
      have hkept := hdefinite error herror hfailure request limit hstarted
      rw [finalDisk_started hstarted] at hkept
      exact hreplaced hkept.record
  · intro error herror hfailure request limit hstarted
    rw [finalDisk_started hstarted]
    rcases atomic_left hoperation hreplaces hstarted with hkept | ⟨content, hdone⟩
    · exact hkept
    · have hend := hsettled request limit hstarted hdone.ne
      exact absurd hfailure (settled_not_definite hcodec hoperation hreplaces hstarted hdone hend herror)

end Definite

section Written

def stagedListing : Listing where
  tree := .dir [("w".toList, .dir [("f".toList, .file)]), ("s".toList, .dir [("d".toList, .dir [])])]
  identity path := ⟨1, path.length⟩
  links := 40
  mode _ := 0o700

def writeHost : IsolatedFileHost where
  tools := {
    config := {
      workspace := ["w".toList]
      protectedRoots := []
      fileLimits := ⟨1024, 1024⟩
      maxOutputBytes := 4096
      timeoutMs := 1000 }
    decode := fun call => match call.arguments with
      | .object [("content", .string content), ("path", .string path)] => .ok (.write path content)
      | _ => .error "data did not match"
    adapterRevision := .ok "file-worker" }
  stagingRoot := ["s".toList]
  stagingBinding := ⟨["s".toList], [⟨1, 0⟩, ⟨1, 1⟩]⟩
  codec := printedCodec
  sha256 _ := "digest"
  lossy _ := ""

def writeBinding : ExactFileBinding where
  workspace := ⟨["w".toList], [⟨1, 0⟩, ⟨1, 1⟩]⟩
  parent := ⟨["w".toList], [⟨1, 0⟩, ⟨1, 1⟩]⟩
  leaf := "f".toList
  targetIdentity := some ⟨1, 2⟩
  protectedRoots := []

def writeInvocation : ToolInvocation where
  prepared := {
    call := {
      id := "call"
      name := "file.write"
      arguments := .object [("content", .string "b"), ("path", .string "f")] }
    toolRevision := "file-worker"
    claim := {
      toolName := "file.write"
      capabilities := (FileOperation.write "f" "b").capabilities
      effects := (FileOperation.write "f" "b").effects
      resource := { path := some (physicalText ["w".toList, "f".toList]) }
      idempotency := .nonIdempotent }
    requirements := { processSandbox := true, maxOutputBytes := 4096, timeoutMs := 1000 }
    executionBinding := writeBinding.toValue
    digest := "digest" }
  grant := {
    scope := ⟨⟨"session", "turn", "execution"⟩, "step", none⟩
    callId := "call"
    toolName := "file.write"
    toolRevision := "file-worker"
    preparedDigest := "digest"
    policyRevision := "policy"
    constraints := { maxOutputBytes := some 4096, timeoutMs := some 1000 }
    approvalEvidenceId := none }
  scope := ⟨⟨"session", "turn", "execution"⟩, "step", none⟩
  policyRevision := "policy"
  window := 0

/-- An execution over a disk without faults, whose worker stops somewhere, and whose end the
sandbox sees. -/
def writeCourse (stop : Stop) : Course where
  cancelledBefore := false
  cancelledDuring := false
  snapshot := stagedListing.toSnapshot
  before := stagedListing
  stageDirectory := .ok "d".toList
  after := stagedListing
  spawned := .ok ()
  disk := {
    files := Directory.write Directory.empty ["w".toList, "f".toList] (asBytes "abc")
    looks := fun _ => some stagedListing
    faults := fun _ => none
    clock := 0
    sequence := 0
    replaced := [] }
  stop := stop
  loopEnd := .exited
  joined := true
  cleaned := true
  reaped := true
  inputFailed := false
  captured := true
  stderr := []

/-- What a worker that is let run to its end has done. -/
theorem definite_failures_written : ∃ request limit content,
    writeHost.started writeInvocation (writeCourse (.returned true)) = some (request, limit) ∧
      Replaced printedCodec.contentSha256 request ⟨1024, 1024⟩ (writeCourse (.returned true)).disk content
        (writeHost.finalDisk writeInvocation (writeCourse (.returned true))).files
        (writeHost.finalDisk writeInvocation (writeCourse (.returned true))).replaced := by
  obtain ⟨-, -, hcompleted, -⟩ := @definite_failures writeHost writeInvocation (writeCourse (.returned true))
    (.write "f" "b") printedCodec_lawful (by decide +kernel) rfl
  have hresult : writeHost.executeInvocation writeInvocation (writeCourse (.returned true)) =
      .ok (.completed (Files.result "call" (resultOf printedCodec.contentSha256 (.write "f" "b") "b"))) := by
    decide +kernel
  obtain ⟨request, limit, content, hstarted, hreplaced, -⟩ := hcompleted _ hresult
  exact ⟨request, limit, content, hstarted, hreplaced⟩

/-- **A write that is reported to have failed, and has replaced its target.**  A signal ends
the worker after its seventh operation, the rename, and before its line. -/
theorem definite_failure_replaced :
    writeHost.executeInvocation writeInvocation (writeCourse (.killed 7)) =
        .error (.failed "invalid isolated file execution: worker failed: ") ∧
      (writeCourse (.killed 7)).disk.files ["w".toList, "f".toList] = some (asBytes "abc") ∧
      (writeHost.finalDisk writeInvocation (writeCourse (.killed 7))).files ["w".toList, "f".toList] =
        some (asBytes "b") ∧
      (writeHost.finalDisk writeInvocation (writeCourse (.killed 7))).replaced = [["w".toList, "f".toList]] := by
  decide +kernel

end Written

end Tools
end Kolyan
