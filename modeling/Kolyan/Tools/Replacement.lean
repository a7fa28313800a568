/-
# What a worker leaves of its target

`execute_exact` replaces its target at one instant, by a rename: before it every file is as
it was (`Unreplaced`), and from then on the target holds the complete new content
(`Replaced`), which is the content of a write, or what an edit makes of the one that it has
read (`Planned`).  This holds at every instant of a run, whatever the disk answers and
wherever the run is stopped (`executeExact_holds`).  An error is answered before the rename
only, and the result of a replacement after it.

The stage is not the target: it is outside the workspace that the target is in
(`stage_ne_target`).
-/

import Kolyan.Tools.Executors

namespace Kolyan
namespace Tools

open Paths (Name)
open Checks Threads
open Threads.Fallible (lift attempt)

section Content

/-- When an edit of a content succeeds: its digest is the expected one, the bytes of the old
text occur at one place, and the result is not too long. -/
structure Editable (sha256 : String → String) (limits : FileOperationLimits) (oldText newText : String)
    (expectedSha256 : Option String) (c : String) : Prop where
  digest : ∀ expected ∈ expectedSha256, eqIgnoreAsciiCase (sha256 c) expected = true
  once : ∃! i, asBytes oldText <+: (asBytes c).drop i
  fits : c.utf8ByteSize - oldText.utf8ByteSize + newText.utf8ByteSize ≤ limits.maxWriteBytes

variable {sha256 : String → String} {limits : FileOperationLimits} {oldText newText c : String}
  {expectedSha256 : Option String}

theorem utf8ByteSize_eq (s : String) : s.utf8ByteSize = (Utf8.encode s.toList).length := by
  rw [← asBytes_eq]
  rfl

theorem utf8ByteSize_replaced (newText : String) {a b : List Char} (h : c.toList = a ++ oldText.toList ++ b) :
    (String.ofList (a ++ newText.toList ++ b)).utf8ByteSize =
      c.utf8ByteSize - oldText.utf8ByteSize + newText.utf8ByteSize := by
  simp only [utf8ByteSize_eq, h, String.toList_ofList, Utf8.encode_append, List.length_append]
  omega

/-- **The content of an edit.**  It is computed without the disk and does not panic, it is
there when the content is editable, and then the old text is replaced where it stands. -/
theorem exactEdited_spec (sha256 : String → String) (limits : FileOperationLimits) (newText : String)
    (expectedSha256 : Option String) (c : String) (hold : oldText ≠ "") : ∃ r : Except FileOperationError String,
    exactEdited sha256 limits oldText newText expectedSha256 c = lift r ∧
      ((∃ content, r = .ok content) ↔ Editable sha256 limits oldText newText expectedSha256 c) ∧
      ∀ content, r = .ok content → ∃ a b : List Char, c.toList = a ++ oldText.toList ++ b ∧
        content = .ofList (a ++ newText.toList ++ b) := by
  have hfails : ∀ (e : FileOperationError), ¬Editable sha256 limits oldText newText expectedSha256 c →
      ((∃ content, (Except.error e : Except FileOperationError String) = .ok content) ↔
        Editable sha256 limits oldText newText expectedSha256 c) ∧
      ∀ content, (Except.error e : Except FileOperationError String) = .ok content →
        ∃ a b : List Char, c.toList = a ++ oldText.toList ++ b ∧ content = .ofList (a ++ newText.toList ++ b) :=
    fun e hnot => ⟨iff_of_false (fun ⟨_, h⟩ => nomatch h) hnot, fun _ h => nomatch h⟩
  unfold exactEdited
  dsimp only
  by_cases hstale : expectedSha256.any fun expected => !eqIgnoreAsciiCase (sha256 c) expected
  · refine ⟨.error .staleContent, lift_error_bind (reject_of hstale), hfails _ fun h => ?_⟩
    cases expectedSha256 with
    | none => exact nomatch hstale
    | some expected =>
      rw [Option.any_some, h.digest expected rfl] at hstale
      exact nomatch hstale
  have hdigest : ∀ expected ∈ expectedSha256, eqIgnoreAsciiCase (sha256 c) expected = true := by
    intro expected hexpected
    rw [Option.mem_def.1 hexpected, Option.any_some, Bool.not_eq_true, Bool.not_eq_false'] at hstale
    exact hstale
  have hfresh : reject (expectedSha256.any fun expected => !eqIgnoreAsciiCase (sha256 c) expected)
      FileOperationError.staleContent = .ok () := reject_of_not hstale
  cases hindices : matchIndices c oldText with
  | nil =>
    refine ⟨.error .missingMatch, (lift_ok_bind hfresh).trans (lift_error_bind rfl), hfails _ fun h => ?_⟩
    obtain ⟨i, hi⟩ := (matchIndices_eq_singleton hold).2 h.once
    exact nomatch hindices.symm.trans hi
  | cons i rest =>
    have hhead : expect (i :: rest).head? FileOperationError.missingMatch = .ok i := rfl
    by_cases hrest : rest = []
    · subst hrest
      have hone : ∃! i, asBytes oldText <+: (asBytes c).drop i := (matchIndices_eq_singleton hold).1 ⟨i, hindices⟩
      have hi : asBytes oldText <+: (asBytes c).drop i :=
        (mem_matchIndices hold).1 (hindices ▸ List.mem_singleton_self i)
      obtain ⟨a, b, hsplit, rfl⟩ := occurs_split hold hi
      have hcontent := replaceRange_match newText hsplit
      have hlong := utf8ByteSize_replaced newText hsplit
      by_cases hfits : (String.ofList (a ++ newText.toList ++ b)).utf8ByteSize > limits.maxWriteBytes
      · refine ⟨.error .writeLimitExceeded, ?_, hfails _ fun h => ?_⟩
        · rw [lift_ok_bind hfresh, lift_ok_bind hhead, lift_ok_bind (reject_of_not fun h => h rfl),
            orPanic_some hcontent, pure_bind, lift_error_bind (reject_of hfits)]
        · rw [hlong] at hfits
          exact absurd h.fits (Nat.not_le_of_gt hfits)
      · refine ⟨.ok (.ofList (a ++ newText.toList ++ b)), ?_, ?_, ?_⟩
        · rw [lift_ok_bind hfresh, lift_ok_bind hhead, lift_ok_bind (reject_of_not fun h => h rfl),
            orPanic_some hcontent, pure_bind, lift_ok_bind (reject_of_not hfits)]
          rfl
        · refine iff_of_true ⟨_, rfl⟩ ⟨hdigest, hone, ?_⟩
          rw [← hlong]
          exact Nat.le_of_not_gt hfits
        · intro content h
          exact ⟨a, b, hsplit, (Except.ok.inj h).symm⟩
    · have htail : (i :: rest).tail ≠ [] := hrest
      refine ⟨.error .ambiguousMatch, ?_, hfails _ fun h => ?_⟩
      · rw [lift_ok_bind hfresh, lift_ok_bind hhead, lift_error_bind (reject_of htail)]
      · obtain ⟨j, hj⟩ := (matchIndices_eq_singleton hold).2 h.once
        exact hrest (List.cons.inj (hindices.symm.trans hj)).2

end Content

section Worker

variable (sha256 : String → String) (request : ExactFileWorkerRequest) (limits : FileOperationLimits) (d₀ : Disk)

/-- The new content that a request makes of what its target holds. -/
def Planned (held : Option (List UInt8)) (content : String) : Prop :=
  match request.operation with
  | .read _ => False
  | .write _ text => content = text
  | .edit _ oldText newText expectedSha256 => ∃ (original : String) (a b : List Char),
      held = some (asBytes original) ∧ Editable sha256 limits oldText newText expectedSha256 original ∧
        original.toList = a ++ oldText.toList ++ b ∧ content = .ofList (a ++ newText.toList ++ b)

/-- Nothing has been replaced, and every file is as it was. -/
structure Unreplaced (files : Directory (List Name) (List UInt8)) (record : List (List Name)) : Prop where
  record : record = d₀.replaced
  kept : ∀ path bytes, d₀.files path = some bytes → files path = some bytes
  target : files request.binding.target = d₀.files request.binding.target

/-- The target has been replaced, and holds the new content. -/
structure Replaced (content : String) (files : Directory (List Name) (List UInt8)) (record : List (List Name)) :
    Prop where
  planned : Planned sha256 request limits (d₀.files request.binding.target) content
  record : record = request.binding.target :: d₀.replaced
  target : files request.binding.target = some (asBytes content)

/-- **At every instant** the target is the old one, or the complete new one. -/
def Atomic : Keep := fun files record =>
  Unreplaced request d₀ files record ∨ ∃ content, Replaced sha256 request limits d₀ content files record

/-- What an answer says of the target. -/
def Tells (r : Except FileOperationError FileOperationResult) (d : Disk) : Prop :=
  match r with
  | .error _ => Unreplaced request d₀ d.files d.replaced
  | .ok result =>
      (request.operation.isRead = true ∧ Unreplaced request d₀ d.files d.replaced) ∨
        ∃ content, Replaced sha256 request limits d₀ content d.files d.replaced ∧
          result = resultOf sha256 request.operation content

variable {sha256 request limits d₀} {d : Disk} {stage : ExactFileStaging} {s : Listing}

theorem unreplaced_of_like (h : d₀.Like d) : Unreplaced request d₀ d.files d.replaced :=
  ⟨h.2, h.kept, congrFun h.1 _⟩

theorem Unreplaced.atomic {files : Directory (List Name) (List UInt8)} {record : List (List Name)}
    (h : Unreplaced request d₀ files record) : Atomic sha256 request limits d₀ files record := .inl h

theorem Unreplaced.write (h : Unreplaced request d₀ d.files d.replaced) {path : List Name}
    (hpath : d₀.files path = none) (hne : path ≠ request.binding.target) (bytes : List UInt8) :
    Unreplaced request d₀ (d.store (d.files.write path bytes)).files d.replaced :=
  ⟨h.record, Disk.Keeps.write h.kept hpath bytes, (Directory.write_other _ hne.symm).trans h.target⟩

theorem Unreplaced.without (h : Unreplaced request d₀ d.files d.replaced) {path : List Name}
    (hpath : d₀.files path = none) (hne : path ≠ request.binding.target) :
    Unreplaced request d₀ (d.store (d.files.without path)).files d.replaced :=
  ⟨h.record, Disk.Keeps.without h.kept hpath, (Directory.without_other _ hne.symm).trans h.target⟩

theorem stage_ne_target {t : Snapshot} (hbinding : request.binding.reopen t = .ok ())
    (hstage : stage.reopen request.binding s = .ok ()) : stage.path ≠ request.binding.target := by
  intro heq
  have hinside : request.binding.workspace.physicalPath <+: request.binding.parent.physicalPath := by
    simp only [ExactFileBinding.reopen, ExactFileBinding.validate, bind_eq_ok, reject_eq_ok, not_or, not_not] at hbinding
    obtain ⟨-, ⟨-, -, -, -, -, -, -, hroot, -⟩, -⟩ := hbinding
    exact hroot.2.1
  have houtside : ¬request.binding.workspace.physicalPath <+: stage.parent.physicalPath := by
    simp only [ExactFileStaging.reopen, bind_eq_ok, reject_eq_ok, not_or] at hstage
    obtain ⟨-, -, -, hroot, -⟩ := hstage
    exact hroot.1
  rw [ExactFileStaging.path, ExactFileBinding.target] at heq
  exact houtside ((List.append_inj_left' heq rfl) ▸ hinside)

theorem holds_readContent {J : Keep} (hJ : J d.files d.replaced) :
    Prog.Holds (guarded J) (readContent request limits).run
      (fun r d' => d.Like d' ∧ ∀ original, r = .ok original → d.files request.binding.target = some (asBytes original))
      d := by
  refine holds_then (quiet_look J d hJ) (fun e d₁ h => ⟨h, nofun⟩) fun s d₁ h₁ => ?_
  refine holds_then (quiet_lift _ J d₁ (h₁.keeps hJ)) (fun e d₂ h => ⟨h₁.trans h, nofun⟩) fun _ d₂ h₂ => ?_
  have h₂ := h₁.trans h₂
  obtain ⟨htick, hread⟩ := act_read (d := d₂) request.binding.target (limits.maxReadBytes + 1)
  refine holds_then (Q := fun r d₃ => d.Like d₃ ∧ ∀ bytes, r = .ok bytes →
    ∃ content, d.files request.binding.target = some content ∧ content.take (limits.maxReadBytes + 1) = bytes)
    (holds_ask (htick ▸ h₂.keeps hJ) ⟨htick ▸ h₂, fun bytes hbytes => ?_⟩) (fun e d₃ h => ⟨h.1, nofun⟩) ?_
  · rw [← h₂.1]
    exact hread bytes (expect_eq_ok.1 hbytes)
  intro bytes d₃ ⟨h₃, hbytes⟩
  obtain ⟨content, hcontent, htake⟩ := hbytes bytes rfl
  by_cases hlong : bytes.length > limits.maxReadBytes
  · rw [lift_error_bind (reject_of hlong)]
    exact ⟨h₃, nofun⟩
  rw [lift_ok_bind (reject_of_not hlong)]
  refine ⟨h₃, fun original horiginal => ?_⟩
  -- the file has no more bytes than were read, or the limit would be exceeded
  have hwhole : content = bytes := by
    rw [← htake, List.take_of_length_le]
    rw [← htake, List.length_take] at hlong
    omega
  have hdecoded : fromUtf8 bytes = .ok original := mapError_eq_ok.1 horiginal
  rw [hcontent, hwhole, fromUtf8_eq_ok_iff.1 hdecoded]

theorem oldText_ne {path oldText newText : String} {expectedSha256 : Option String}
    (h : validateOperation (.edit path oldText newText expectedSha256) limits = .ok ()) : oldText ≠ "" := by
  simp only [validateOperation, bind_eq_ok, reject_eq_ok] at h
  obtain ⟨-, -, -, -, -, hne, -⟩ := h
  rintro rfl
  exact hne rfl

theorem holds_exactContent {J : Keep} (hJ : J d.files d.replaced)
    (hvalid : validateOperation request.operation limits = .ok ()) (hlike : d₀.Like d) :
    Prog.Holds (guarded J) (exactContent sha256 request limits).run
      (fun r d' => d₀.Like d' ∧ ∀ content, r = .ok content → request.operation.isRead = true ∨
        Planned sha256 request limits (d₀.files request.binding.target) content) d := by
  unfold exactContent Planned
  cases hop : request.operation with
  | read path => exact (holds_readContent hJ).mono fun r d' h => ⟨hlike.trans h.1, fun _ _ => .inl rfl⟩
  | write path text => exact ⟨hlike, fun content h => .inr (Except.ok.inj h).symm⟩
  | edit path oldText newText expectedSha256 =>
    refine holds_then (holds_readContent hJ) (fun e d' h => ⟨hlike.trans h.1, nofun⟩) fun original d' ⟨h, hheld⟩ => ?_
    obtain ⟨r, hr, hiff, hsplit⟩ := exactEdited_spec sha256 limits newText expectedSha256 original
      (oldText_ne (hop ▸ hvalid))
    rw [hr]
    refine ⟨hlike.trans h, fun content hcontent => .inr ?_⟩
    obtain ⟨a, b, hab, hnew⟩ := hsplit content hcontent
    have hheld := hheld original rfl
    rw [hlike.1] at hheld
    exact ⟨original, a, b, hheld, hiff.1 ⟨content, hcontent⟩, hab, hnew⟩

theorem Unreplaced.like (h : Unreplaced request d₀ d.files d.replaced) {d' : Disk} (hlike : d.Like d') :
    Unreplaced request d₀ d'.files d'.replaced := hlike.keeps h

theorem holds_commitStage {content : String} (h : Unreplaced request d₀ d.files d.replaced)
    (habsent : d₀.files stage.path = none) (hne : stage.path ≠ request.binding.target)
    (hplanned : Planned sha256 request limits (d₀.files request.binding.target) content) :
    Prog.Holds (guarded (Atomic sha256 request limits d₀)) (commitStage request stage content).run (fun r d' =>
      match r with
      | .ok () => Replaced sha256 request limits d₀ content d'.files d'.replaced
      | .error _ => Unreplaced request d₀ d'.files d'.replaced) d := by
  refine holds_then (Q := fun r d₁ => Unreplaced request d₀ d₁.files d₁.replaced ∧
    (r = .ok () → d₁.files stage.path = some (asBytes content))) ?_ (fun e d₁ h₁ => h₁.1) ?_
  · rcases act_writeAll (d := d) stage.path (asBytes content) with hact | ⟨written, hact⟩
    · refine holds_ask ?_ ⟨?_, fun _ => ?_⟩ <;> rw [hact]
      · exact .inl (h.write habsent hne _)
      · exact h.write habsent hne _
      · exact Directory.write_self _
    · refine holds_ask ?_ ⟨?_, ?_⟩ <;> rw [hact]
      · exact .inl (h.write habsent hne _)
      · exact h.write habsent hne _
      · exact fun hfalse => nomatch hfalse
  intro _ d₁ ⟨h₁, hstage⟩
  have hstage := hstage rfl
  refine holds_then (quiet_syncAll _ _ d₁ h₁.atomic) (fun e d₂ hlike => h₁.like hlike) fun _ d₂ h₂ => ?_
  refine holds_then (quiet_look _ d₂ (h₁.like h₂).atomic) (fun e d₃ hlike => (h₁.like h₂).like hlike) fun s d₃ h₃ => ?_
  have h₃ := h₂.trans h₃
  refine holds_then (quiet_lift _ _ d₃ (h₁.like h₃).atomic) (fun e d₄ hlike => (h₁.like h₃).like hlike) fun _ d₄ h₄ => ?_
  have h₄ := h₃.trans h₄
  refine holds_then (quiet_lift _ _ d₄ (h₁.like h₄).atomic) (fun e d₅ hlike => (h₁.like h₄).like hlike) fun _ d₅ h₅ => ?_
  have h₅ := h₄.trans h₅
  have hnow := h₁.like h₅
  rcases act_rename (d := d₅) stage.path request.binding.target with ⟨bytes, hbytes, hact⟩ | hact
  · have hbytes : bytes = asBytes content := by
      rw [h₅.1, hstage] at hbytes
      exact (Option.some.inj hbytes).symm
    have hreplaced : Replaced sha256 request limits d₀ content
        ((d₅.files.without stage.path).write request.binding.target bytes) (request.binding.target :: d₅.replaced) :=
      ⟨hplanned, by rw [hnow.record], by rw [Directory.write_self, hbytes]⟩
    refine holds_ask ?_ ?_ <;> rw [hact]
    · exact .inr ⟨content, hreplaced⟩
    · exact hreplaced
  · refine holds_ask ?_ ?_ <;> rw [hact]
    · exact .inl hnow
    · exact hnow

theorem holds_replaceThrough {content : String} (h : Unreplaced request d₀ d.files d.replaced)
    (hlike : d₀.Like d) (hne : stage.path ≠ request.binding.target)
    (hplanned : Planned sha256 request limits (d₀.files request.binding.target) content) :
    Prog.Holds (guarded (Atomic sha256 request limits d₀)) (replaceThrough request stage content).run (fun r d' =>
      match r with
      | .ok () => Replaced sha256 request limits d₀ content d'.files d'.replaced
      | .error _ => Unreplaced request d₀ d'.files d'.replaced) d := by
  refine holds_then (Q := fun r d₁ => Unreplaced request d₀ d₁.files d₁.replaced ∧
    (r = .ok .created → d₀.files stage.path = none)) ?_ (fun e d₁ h₁ => h₁.1) ?_
  · rcases act_createNew (d := d) stage.path with ⟨hnone, hact⟩ | ⟨hanswer, hact⟩
    · have habsent : d₀.files stage.path = none := hlike.1 ▸ hnone
      refine holds_ask ?_ ⟨?_, fun _ => habsent⟩ <;> rw [hact]
      · exact .inl (h.write habsent hne _)
      · exact h.write habsent hne _
    · refine holds_ask ?_ ⟨?_, fun hcreated => absurd (Except.ok.inj hcreated) hanswer⟩ <;> rw [hact]
      · exact .inl h
      · exact h
  rintro (_ | _ | _) d₁ ⟨h₁, habsent⟩
  · have habsent := habsent rfl
    refine holds_then (Fallible.holds_attempt ((holds_commitStage h₁ habsent hne hplanned).mono fun r d₂ hr => ?_))
      (Q := fun r d₂ => (r = .ok (.ok ()) → Replaced sha256 request limits d₀ content d₂.files d₂.replaced) ∧
        (r ≠ .ok (.ok ()) → Unreplaced request d₀ d₂.files d₂.replaced)) (fun e d₂ h₂ => h₂.2 fun h => by cases h) ?_
    · cases r with
      | ok u => exact ⟨fun _ => hr, fun h => absurd rfl h⟩
      | error e => exact ⟨fun h => (by cases h), fun _ => hr⟩
    rintro (e | u) d₂ h₂
    · replace h₂ := h₂.2 fun h => by cases h
      refine holds_then (Q := fun _ d₃ => Unreplaced request d₀ d₃.files d₃.replaced) ?_ (fun _ d₃ h₃ => h₃)
        fun _ d₃ h₃ => h₃
      rcases act_removeFile (d := d₂) stage.path with hact | hact
      · refine holds_ask ?_ ?_ <;> rw [hact]
        · exact .inl h₂
        · exact h₂
      · refine holds_ask ?_ ?_ <;> rw [hact]
        · exact .inl (h₂.without habsent hne)
        · exact h₂.without habsent hne
    · exact h₂.1 rfl
  · exact h₁
  · exact h₁

theorem holds_openStage {J : Keep} (hJ : J d.files d.replaced) :
    Prog.Holds (guarded J) (openStage request).run (fun r d' => d.Like d' ∧
      ∀ stage, request.staging = some stage → r = .ok () → ∃ s, stage.reopen request.binding s = .ok ()) d := by
  unfold openStage
  cases request.staging with
  | none => exact ⟨⟨rfl, rfl⟩, nofun⟩
  | some stage =>
    refine holds_then (quiet_look J d hJ) (fun e d₁ h => ⟨h, fun _ _ herror => nomatch herror⟩) fun s d₁ h => ?_
    refine ⟨h, fun other hother hok => ⟨s, ?_⟩⟩
    rw [← Option.some.inj hother]
    exact hok

theorem executeExact_holds (sha256 : String → String) (request : ExactFileWorkerRequest) (limits : FileOperationLimits)
    (d₀ : Disk) : Prog.Holds (guarded (Atomic sha256 request limits d₀)) (executeExact sha256 request limits).run
      (Tells sha256 request limits d₀) d₀ := by
  have hstart : ∀ {d : Disk}, d₀.Like d → Unreplaced request d₀ d.files d.replaced := unreplaced_of_like
  cases hvalid : validateOperation request.operation limits with
  | error e =>
    rw [executeExact, lift_error_bind hvalid]
    exact hstart ⟨rfl, rfl⟩
  | ok u =>
    rw [executeExact, lift_ok_bind hvalid]
    by_cases hshape : request.operation.isRead ≠ request.staging.isNone
    · rw [lift_error_bind (reject_of hshape)]
      exact hstart ⟨rfl, rfl⟩
    rw [lift_ok_bind (reject_of_not hshape)]
    have hread : request.operation.isRead = request.staging.isNone := not_not.1 hshape
    refine holds_then (quiet_look _ d₀ (hstart ⟨rfl, rfl⟩).atomic) (fun e d h => hstart h) fun s d hlike => ?_
    cases hbinding : request.binding.reopen s.toSnapshot with
    | error e =>
      rw [lift_error_bind rfl]
      exact hstart hlike
    | ok u =>
      rw [lift_ok_bind rfl]
      refine holds_then (holds_openStage (hstart hlike).atomic) (fun e d₁ h => hstart (hlike.trans h.1))
        fun _ d₁ ⟨h₁, hstage⟩ => ?_
      have h₁ := hlike.trans h₁
      refine holds_then (holds_exactContent (hstart h₁).atomic hvalid h₁) (fun e d₂ h => hstart h.1)
        fun content d₂ ⟨h₂, hplanned⟩ => ?_
      have hplanned := hplanned content rfl
      cases hstaging : request.staging with
      | none =>
        rw [hstaging] at hread
        exact .inl ⟨hread, hstart h₂⟩
      | some stage =>
        rw [hstaging] at hread
        obtain ⟨t, ht⟩ := hstage stage hstaging rfl
        have hplanned := hplanned.resolve_left (by rw [hread]; exact Bool.false_ne_true)
        refine holds_then (holds_replaceThrough (hstart h₂) h₂ (stage_ne_target hbinding ht) hplanned)
          (fun e d₃ h => h) fun _ d₃ h => ?_
        exact .inr ⟨content, h, rfl⟩

end Worker

end Tools
end Kolyan
