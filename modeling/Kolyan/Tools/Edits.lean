/-
# Edits in both executors

An edit replaces the one place where the bytes of its old text occur, counted with
overlaps (`Editable`).  On a disk that works, and where both executors reach the same
regular file, they answer alike: they succeed if and only if the digest is that of the
content, there is one such place, and the result is not too long; and the file is then the
text before the place, the new text, and the text behind it (`edits_agree`).  On any disk,
a failed call leaves every file that was there as it was.

The content of an edit is computed by the same steps in both (`edited_eq`); what they do
around it is proved for each apart.
-/

import Kolyan.Tools.Replacement

namespace Kolyan
namespace Tools

open Paths (Name)
open Checks Threads
open Threads.Fallible (lift run_attempt)

variable {sha256 : String → String} {operations : FileOperations} {request : ExactFileWorkerRequest}
  {limits : FileOperationLimits} {oldText newText c : String} {expectedSha256 : Option String}
  {d : Disk} {s : Listing} {target : List Name} {α β : Type}

theorem edited_eq : operations.edited sha256 oldText newText expectedSha256 c =
    exactEdited sha256 operations.limits oldText newText expectedSha256 c := rfl

section Runs

theorem take_of_le {bytes : List UInt8} {limit n : ℕ} (h : bytes.length ≤ limit) (hn : limit ≤ n) : bytes.take n = bytes :=
  List.take_of_length_le (h.trans hn)

theorem runs_read {directory : List Name} {path : List Char} (hcalm : d.Calm s)
    (hopened : openedFile s.toSnapshot directory path = .ok target) (hfile : s.isFile target = true)
    (hc : d.files target = some (asBytes c)) (hfits : c.utf8ByteSize ≤ operations.limits.maxReadBytes)
    (hlimit : operations.limits.maxReadBytes < 2 ^ 64 - 1) :
    (operations.read directory path).runs d = some (.ok c, d.tick.tick) := by
  have hlength : (asBytes c).length ≤ operations.limits.maxReadBytes := hfits
  have hwhole : (asBytes c).take (min (operations.limits.maxReadBytes + 1) (2 ^ 64 - 1)) = asBytes c :=
    take_of_le hlength (by omega)
  have hread := runs_readToEnd hcalm.tick (min (operations.limits.maxReadBytes + 1) (2 ^ 64 - 1)) hc
  rw [hwhole] at hread
  have hnot : ¬(!s.isFile target) = true := by
    rw [hfile]
    exact Bool.false_ne_true
  rw [FileOperations.read, runs_then (runs_look hcalm), lift_ok_bind hopened, lift_ok_bind (reject_of_not hnot),
    runs_then hread, lift_ok_bind (reject_of_not (Nat.not_lt_of_le hlength)), decodeUtf8, fromUtf8_asBytes]
  rfl

theorem runs_readContent (hcalm : d.Calm s) (hopened : openedTarget s.toSnapshot request.binding = .ok ())
    (hc : d.files request.binding.target = some (asBytes c)) (hfits : c.utf8ByteSize ≤ limits.maxReadBytes) :
    (readContent request limits).runs d = some (.ok c, d.tick.tick) := by
  have hlength : (asBytes c).length ≤ limits.maxReadBytes := hfits
  have hread := runs_readToEnd hcalm.tick (limits.maxReadBytes + 1) hc
  rw [take_of_le hlength (Nat.le_succ _)] at hread
  rw [readContent, runs_then (runs_look hcalm), lift_ok_bind hopened, runs_then hread,
    lift_ok_bind (reject_of_not (Nat.not_lt_of_le hlength)), decodeUtf8, fromUtf8_asBytes]
  rfl

/-- **A content is committed through a file that was created for it.** -/
theorem runs_commitTemporary (temporary target : List Name) (hcalm : d.Calm s) (content : String) :
    ∃ d', (commitTemporary temporary target content).runs d = some (.ok (), d') ∧
      d'.files target = some (asBytes content) := by
  have hwritten := hcalm.store (d.files.write temporary (asBytes content))
  obtain ⟨d', hrename, htarget⟩ := runs_rename target hwritten.tick
    (show (d.store (d.files.write temporary (asBytes content))).tick.files temporary = some (asBytes content) from
      Directory.write_self _)
  refine ⟨d', ?_, htarget⟩
  rw [commitTemporary, runs_then (runs_writeAll temporary (asBytes content) hcalm), runs_then (runs_syncAll hwritten)]
  exact hrename

/-- **A name that is free is found**, and the content committed through it. -/
theorem runs_allocate {parent : List Name} (name : Name) (content : String) {tries : ℕ} (hcalm : d.Calm s)
    (hfree : ∃ k < tries, d.files (operations.temporary parent (d.sequence + k)) = none) :
    ∃ d', (operations.allocate parent name content tries).runs d = some (.ok (), d') ∧
      d'.files (parent ++ [name]) = some (asBytes content) := by
  induction tries generalizing d with
  | zero =>
    obtain ⟨k, hk, -⟩ := hfree
    exact absurd hk (Nat.not_lt_zero k)
  | succ tries ih =>
    let d₁ : Disk := { d.tick with sequence := d.sequence + 1 }
    have hcalm₁ : d₁.Calm s := ⟨hcalm.looks, hcalm.faults⟩
    have hcreate := runs_createNew (operations.temporary parent d.sequence) hcalm₁
    rw [FileOperations.allocate, runs_then runs_fetchAdd]
    cases hfile : d.files (operations.temporary parent d.sequence) with
    | some bytes =>
      -- the first name is taken, so the free one is among the others
      have htaken : (createNew (operations.temporary parent d.sequence)).runs d₁ = some (.ok .taken, d₁.tick) := by
        have hfile₁ : d₁.files (operations.temporary parent d.sequence) = some bytes := hfile
        rw [hcreate, hfile₁]
      obtain ⟨k, hk, hnone⟩ := hfree
      have hk0 : k ≠ 0 := by
        rintro rfl
        cases hfile.symm.trans hnone
      obtain ⟨d', hrun, htarget⟩ := ih hcalm₁.tick ⟨k - 1, by omega, by
        show d.files (operations.temporary parent (d.sequence + 1 + (k - 1))) = none
        rwa [Nat.add_assoc, Nat.add_sub_cancel' (Nat.one_le_iff_ne_zero.2 hk0)]⟩
      exact ⟨d', (runs_then htaken).trans hrun, htarget⟩
    | none =>
      have hcreated : (createNew (operations.temporary parent d.sequence)).runs d₁ =
          some (.ok .created, d₁.store (d.files.write (operations.temporary parent d.sequence) [])) := by
        have hfile₁ : d₁.files (operations.temporary parent d.sequence) = none := hfile
        rw [hcreate, hfile₁]
        rfl
      obtain ⟨d', hcommit, htarget⟩ := runs_commitTemporary (operations.temporary parent d.sequence)
        (parent ++ [name]) (hcalm₁.store (d.files.write (operations.temporary parent d.sequence) [])) content
      exact ⟨d', (runs_then hcreated).trans (runs_then (run_attempt hcommit)), htarget⟩

theorem runs_atomicReplace {directory parent : List Name} {path : List Char} {name : Name} (content : String)
    (hcalm : d.Calm s) (hparent : openedParent s.toSnapshot directory path = .ok parent)
    (hname : fileName path = some name) (hfile : s.isFile (parent ++ [name]) = true)
    (hfree : ∃ k < 32, d.files (operations.temporary parent (d.sequence + k)) = none) :
    ∃ d', (operations.atomicReplace directory path content).runs d = some (.ok (), d') ∧
      d'.files (parent ++ [name]) = some (asBytes content) := by
  have hexpect : expect (fileName path) (FileOperationError.invalidArguments "missing file name") = .ok name :=
    expect_eq_ok.2 hname
  have hnot : ¬((s.tree.at (parent ++ [name])).isSome = true ∧ s.isFile (parent ++ [name]) = false) := by
    rw [hfile]
    exact fun h => nomatch h.2
  obtain ⟨d', hrun, htarget⟩ := runs_allocate name content hcalm.tick.tick hfree
  refine ⟨d', ?_, htarget⟩
  rw [FileOperations.atomicReplace, runs_then (runs_look hcalm), lift_ok_bind hparent, lift_ok_bind hexpect,
    runs_then (runs_look hcalm.tick), lift_ok_bind (reject_of_not hnot)]
  exact hrun

theorem runs_replaceThrough {stage : ExactFileStaging} (content : String) (hcalm : d.Calm s)
    (hleaf : leafIdentity s.toSnapshot request.binding.parent.physicalPath request.binding.leaf =
      .ok request.binding.targetIdentity)
    (habsent : d.files stage.path = none) :
    ∃ d', (replaceThrough request stage content).runs d = some (.ok (), d') ∧
      d'.files request.binding.target = some (asBytes content) := by
  have hcreate := runs_createNew stage.path hcalm
  rw [habsent] at hcreate
  have hempty := hcalm.store (d.files.write stage.path [])
  have hwrite := runs_writeAll stage.path (asBytes content) hempty
  have hwritten := hempty.store ((d.store (d.files.write stage.path [])).files.write stage.path (asBytes content))
  have hstage : ((d.store (d.files.write stage.path [])).store
      ((d.store (d.files.write stage.path [])).files.write stage.path (asBytes content))).tick.tick.files stage.path =
      some (asBytes content) := Directory.write_self _
  obtain ⟨d', hrename, htarget⟩ := runs_rename request.binding.target hwritten.tick.tick hstage
  refine ⟨d', ?_, htarget⟩
  have hsame : ¬request.binding.targetIdentity ≠ request.binding.targetIdentity := fun h => h rfl
  have hcommit : (commitStage request stage content).runs (d.store (d.files.write stage.path [])) = some (.ok (), d') := by
    rw [commitStage, runs_then hwrite, runs_then (runs_syncAll hwritten), runs_then (runs_look hwritten.tick),
      lift_ok_bind hleaf, lift_ok_bind (reject_of_not hsame)]
    exact hrename
  rw [replaceThrough, runs_then hcreate]
  exact runs_then (run_attempt hcommit)

end Runs

section Failures

variable {d₀ : Disk}

/-- What a failure leaves: every file that was there. -/
def Leaves (d₀ : Disk) (r : Except FileOperationError α) (d : Disk) : Prop := ∀ e, r = .error e → d₀.Keeps d

/-- A setting in which everything may be asked. -/
abbrev anything : Keep := fun _ _ => True

theorem leaves_then {p : DiskProgram α} {f : α → DiskProgram β} (h : d₀.Keeps d) (hp : Quiet p)
    (hf : ∀ a d', d₀.Keeps d' → Prog.Holds (guarded anything) (f a).run (Leaves d₀) d') :
    Prog.Holds (guarded anything) (p >>= f).run (Leaves d₀) d :=
  holds_then (hp anything d trivial) (fun _ _ hlike _ _ => h.trans hlike.kept)
    fun a d' hlike => hf a d' (h.trans hlike.kept)

theorem leaves_commitTemporary {temporary : List Name} {content : String} (h : d₀.Keeps d)
    (habsent : d₀.files temporary = none) :
    Prog.Holds (guarded anything) (commitTemporary temporary target content).run (Leaves d₀) d := by
  refine holds_then (Q := fun _ d' => d₀.Keeps d') ?_ (fun _ _ h _ _ => h) fun _ d₁ h₁ => ?_
  · refine holds_ask trivial ?_
    rcases act_writeAll (d := d) temporary (asBytes content) with hact | ⟨written, hact⟩ <;>
    · rw [hact]
      exact h.write habsent _
  refine leaves_then h₁ (quiet_syncAll temporary) fun _ d₂ h₂ => ?_
  refine holds_ask trivial fun e herror => ?_
  rcases act_rename (d := d₂) temporary target with ⟨bytes, -, hact⟩ | hact
  · rw [hact] at herror
    exact nomatch herror
  · rw [hact]
    exact h₂

theorem leaves_allocate {parent : List Name} {name : Name} {content : String} {tries : ℕ} (h : d₀.Keeps d) :
    Prog.Holds (guarded anything) (operations.allocate parent name content tries).run (Leaves d₀) d := by
  induction tries generalizing d with
  | zero => exact fun _ _ => h
  | succ tries ih =>
    refine leaves_then h quiet_fetchAdd fun sequence d₁ h₁ => ?_
    refine holds_then (Q := fun r d₂ => d₀.Keeps d₂ ∧
      (r = .ok .created → d₀.files (operations.temporary parent sequence) = none)) ?_ (fun _ _ h _ _ => h.1) ?_
    · rcases act_createNew (d := d₁) (operations.temporary parent sequence) with ⟨hnone, hact⟩ | ⟨hanswer, hact⟩
      · have habsent : d₀.files (operations.temporary parent sequence) = none := by
          cases hfile : d₀.files (operations.temporary parent sequence) with
          | none => rfl
          | some bytes => exact nomatch (h₁ _ _ hfile).symm.trans hnone
        refine holds_ask trivial ⟨?_, fun _ => habsent⟩
        rw [hact]
        exact h₁.write habsent _
      · refine holds_ask trivial ⟨?_, fun hcreated => absurd (Except.ok.inj hcreated) hanswer⟩
        rw [hact]
        exact h₁
    rintro (_ | _ | _) d₂ ⟨h₂, habsent⟩
    · have habsent := habsent rfl
      refine holds_then (Q := fun r d₃ => ∃ result, r = .ok result ∧ Leaves d₀ result d₃)
        (Fallible.holds_attempt ((leaves_commitTemporary h₂ habsent).mono fun r d₃ hr => ⟨r, rfl, hr⟩))
        (fun _ _ h => nomatch h) ?_
      rintro (e | u) d₃ ⟨result, heq, h₃⟩
      · have h₃ := h₃ e (Except.ok.inj heq).symm
        refine holds_then (Q := fun _ d₄ => d₀.Keeps d₄) ?_ (fun _ _ h _ _ => h) fun _ _ h _ _ => h
        refine holds_ask trivial ?_
        rcases act_removeFile (d := d₃) (operations.temporary parent sequence) with hact | hact
        · rw [hact]
          exact h₃
        · rw [hact]
          exact h₃.without habsent
      · exact nofun
    · exact ih h₂
    · exact fun _ _ => h₂

theorem quiet_read (directory : List Name) (path : List Char) : Quiet (operations.read directory path) := by
  refine quiet_look.bind fun s => ?_
  refine (quiet_lift _).bind fun target => (quiet_lift _).bind fun _ => ?_
  exact (quiet_readToEnd target _).bind fun bytes => (quiet_lift _).bind fun _ => quiet_lift _

theorem quiet_edited (original : String) :
    Quiet (operations.edited sha256 oldText newText expectedSha256 original) := by
  refine (quiet_lift _).bind fun _ => (quiet_lift _).bind fun index => (quiet_lift _).bind fun _ => ?_
  exact (quiet_orPanic _).bind fun replaced => (quiet_lift _).bind fun _ => quiet_pure replaced

theorem leaves_atomicReplace {directory : List Name} {path : List Char} {content : String} (h : d₀.Keeps d) :
    Prog.Holds (guarded anything) (operations.atomicReplace directory path content).run (Leaves d₀) d := by
  refine leaves_then h quiet_look fun s d₁ h₁ => ?_
  refine leaves_then h₁ (quiet_lift _) fun parent d₂ h₂ => leaves_then h₂ (quiet_lift _) fun name d₃ h₃ => ?_
  refine leaves_then h₃ quiet_look fun s d₄ h₄ => leaves_then h₄ (quiet_lift _) fun _ d₅ h₅ => ?_
  exact leaves_allocate h₅

theorem leaves_execute (operation : FileOperation) (h : d₀.Keeps d) :
    Prog.Holds (guarded anything) (operations.execute sha256 operation).run (Leaves d₀) d := by
  refine leaves_then h (quiet_lift _) fun _ d₁ h₁ => leaves_then h₁ (quiet_lift _) fun path d₂ h₂ => ?_
  refine leaves_then h₂ (quiet_lift _) fun directory d₃ h₃ => ?_
  have hdone : ∀ {content : String} {d₄ : Disk}, d₀.Keeps d₄ → Prog.Holds (guarded anything)
      (operations.atomicReplace directory path content >>= fun _ =>
        (pure (resultOf sha256 operation content) : DiskProgram FileOperationResult)).run (Leaves d₀) d₄ :=
    fun h₄ => holds_then (leaves_atomicReplace h₄) (fun e _ hr _ _ => hr e rfl) fun _ _ _ => nofun
  cases operation with
  | read label => exact leaves_then h₃ (quiet_read directory path) fun _ _ _ => nofun
  | write label content => exact hdone h₃
  | edit label oldText newText expectedSha256 =>
    refine leaves_then h₃ (quiet_read directory path) fun original d₄ h₄ => ?_
    exact leaves_then h₄ (quiet_edited original) fun replaced d₅ h₅ => hdone h₅

end Failures

section Agreement

/-- Both executors reach one regular file, the target: the label of the operation leads to
it below the pinned directory, the binding names it and has not changed, the stage can be
opened, and both find a free name to write to. -/
structure SameFile (operations : FileOperations) (request : ExactFileWorkerRequest) (s : Listing) (d : Disk)
    (target : List Name) : Prop where
  file : s.isFile target = true
  pinned : ∃ directory parent name, operations.workspace.directory = .ok directory ∧
    openedFile s.toSnapshot directory request.operation.path.toList = .ok target ∧
    openedParent s.toSnapshot directory request.operation.path.toList = .ok parent ∧
    fileName request.operation.path.toList = some name ∧ parent ++ [name] = target ∧
    ∃ k < 32, d.files (operations.temporary parent (d.sequence + k)) = none
  bound : request.binding.reopen s.toSnapshot = .ok ()
  same : request.binding.target = target
  staged : ∃ stage, request.staging = some stage ∧ stage.reopen request.binding s = .ok () ∧
    d.files stage.path = none

/-- The content after an edit. -/
def contentAfter (c : String) : Except FileOperationError String → String
  | .ok content => content
  | .error _ => c

variable {path : String}

theorem relativeFile_of_validate {operation : FileOperation} (h : operations.validate operation = .ok ()) :
    relativeFile operation.path = .ok operation.path.toList := by
  obtain ⟨relative, hrelative, -⟩ := bind_eq_ok.1 h
  have htext : relative = operation.path.toList := by
    simp only [relativeFile, Workspace.relative, bind_eq_ok, mapError_eq_ok, reject_eq_ok, pure_eq_ok] at hrelative
    obtain ⟨text, ⟨-, -, rfl⟩, -, -, rfl⟩ := hrelative
    rfl
  rw [hrelative, htext]

/-- **The pinned executor** answers with the edit of the content, and leaves its result. -/
theorem runs_execute (hop : request.operation = .edit path oldText newText expectedSha256)
    (haccepts : operations.validate request.operation = .ok ()) (hlimit : operations.limits.maxReadBytes < 2 ^ 64 - 1)
    (hcalm : d.Calm s) (hsame : SameFile operations request s d target) (hc : d.files target = some (asBytes c))
    (hfits : c.utf8ByteSize ≤ operations.limits.maxReadBytes) {r : Except FileOperationError String}
    (hr : exactEdited sha256 operations.limits oldText newText expectedSha256 c = lift r) :
    ∃ d', (operations.execute sha256 request.operation).runs d =
      some (r.map (resultOf sha256 request.operation), d') ∧
      d'.files target = some (asBytes (contentAfter c r)) := by
  obtain ⟨directory, parent, name, hdirectory, hopened, hparent, hname, htarget, hfree⟩ := hsame.pinned
  have hrelative := relativeFile_of_validate haccepts
  have hdirectory : mapError (fun _ => FileOperationError.io) operations.workspace.directory = .ok directory :=
    mapError_eq_ok.2 hdirectory
  have hread := runs_read hcalm hopened hsame.file hc hfits hlimit
  rw [← edited_eq] at hr
  rw [FileOperations.execute, lift_ok_bind haccepts, lift_ok_bind hrelative, lift_ok_bind hdirectory]
  simp only [hop] at hread ⊢
  rw [runs_then hread, hr]
  cases r with
  | error e => exact ⟨d.tick.tick, rfl, hc⟩
  | ok content =>
    rw [hop] at hparent hname
    rw [← htarget] at hsame ⊢
    obtain ⟨d', hrun, hnew⟩ := runs_atomicReplace content hcalm.tick.tick hparent hname hsame.file hfree
    exact ⟨d', runs_then hrun, hnew⟩

theorem at_of_isFile {t : Snapshot} (h : t.isFile target = true) : t.tree.at target = some .file := by
  unfold Snapshot.isFile at h
  split at h
  · assumption
  · exact nomatch h

theorem leafIdentity_of_reopen {binding : ExactFileBinding} {t : Snapshot} (h : binding.reopen t = .ok ())
    (hfile : t.tree.at binding.target = some .file) :
    leafIdentity t binding.parent.physicalPath binding.leaf = .ok binding.targetIdentity ∧
      binding.targetIdentity = some (t.identity binding.target) := by
  have hleaf : leafIdentity t binding.parent.physicalPath binding.leaf = .ok (some (t.identity binding.target)) := by
    rw [leafIdentity, ← ExactFileBinding.target, hfile]
  simp only [ExactFileBinding.reopen, bind_eq_ok, reject_eq_ok, not_not] at h
  obtain ⟨-, -, -, -, -, -, identity, hread, heq⟩ := h
  rw [heq] at hread
  exact ⟨hread, Except.ok.inj (hread.symm.trans hleaf)⟩

/-- **The exact executor** answers with the edit of the content, and leaves its result. -/
theorem runs_executeExact (hop : request.operation = .edit path oldText newText expectedSha256)
    (haccepts : validateOperation request.operation limits = .ok ()) (hcalm : d.Calm s)
    (hsame : SameFile operations request s d target) (hc : d.files target = some (asBytes c))
    (hfits : c.utf8ByteSize ≤ limits.maxReadBytes) {r : Except FileOperationError String}
    (hr : exactEdited sha256 limits oldText newText expectedSha256 c = lift r) :
    ∃ d', (executeExact sha256 request limits).runs d = some (r.map (resultOf sha256 request.operation), d') ∧
      d'.files target = some (asBytes (contentAfter c r)) := by
  obtain ⟨stage, hstaging, hstage, habsent⟩ := hsame.staged
  have htarget := hsame.same
  subst htarget
  have hfile : s.tree.at request.binding.target = some .file := at_of_isFile hsame.file
  obtain ⟨hleaf, hidentity⟩ := leafIdentity_of_reopen hsame.bound hfile
  have hopened : openedTarget s.toSnapshot request.binding = .ok () := by
    rw [openedTarget, hfile]
    exact reject_of_not fun h => h hidentity.symm
  have hshape : ¬request.operation.isRead ≠ request.staging.isNone := by
    rw [hop, hstaging]
    exact fun h => h rfl
  have hstaged : (openStage request).runs d.tick = some (.ok (), d.tick.tick) := by
    rw [openStage, hstaging]
    show (look >>= fun s => lift (stage.reopen request.binding s)).runs d.tick = _
    rw [runs_then (runs_look hcalm.tick), hstage]
    rfl
  have hcontent : (exactContent sha256 request limits).runs d.tick.tick = some (r, d.tick.tick.tick.tick) := by
    rw [exactContent, hop]
    show (readContent request limits >>= _).runs _ = _
    rw [runs_then (runs_readContent hcalm.tick.tick hopened hc hfits), hr]
    rfl
  rw [executeExact, lift_ok_bind haccepts, lift_ok_bind (reject_of_not hshape), runs_then (runs_look hcalm),
    lift_ok_bind hsame.bound, runs_then hstaged]
  cases r with
  | error e => exact ⟨d.tick.tick.tick.tick, runs_fails hcontent, hc⟩
  | ok content =>
    obtain ⟨d', hrun, hnew⟩ := runs_replaceThrough content hcalm.tick.tick.tick.tick hleaf habsent
    refine ⟨d', ?_, hnew⟩
    rw [runs_then hcontent, hstaging]
    exact runs_then hrun

theorem around_unique {o : String} (hone : ∃! i, asBytes o <+: (asBytes c).drop i)
    {a b a' b' : List Char} (h : c.toList = a ++ o.toList ++ b) (h' : c.toList = a' ++ o.toList ++ b') :
    a' = a ∧ b' = b := by
  have hat : ∀ {a b : List Char}, c.toList = a ++ o.toList ++ b →
      asBytes o <+: (asBytes c).drop (Utf8.encode a).length := by
    intro a b h
    rw [asBytes_eq, asBytes_eq, h]
    exact Utf8.occurs_encode a o.toList b
  exact Utf8.around_eq (h'.symm.trans h) (hone.unique (hat h') (hat h))

/-- **Edits replace the one occurrence, in both executors.**  Of an edit that both accept,
and of a file within the read limit that both reach, they give the same answer and leave the
same content; the answer is a result if and only if the content is `Editable`, and then the
content is `a ++ new ++ b` for the only `a` and `b` with `c = a ++ old ++ b`.  Whatever the
disk does, a call that fails leaves every file that was there as it was. -/
theorem edits_agree (sha256 : String → String) (operations : FileOperations) (request : ExactFileWorkerRequest)
    {path oldText newText : String} {expectedSha256 : Option String}
    (hop : request.operation = .edit path oldText newText expectedSha256)
    (hpinned : operations.validate request.operation = .ok ())
    (hexact : validateOperation request.operation operations.limits = .ok ()) :
    (∀ (d : Disk) (s : Listing) (target : List Name) (c : String), d.Calm s → SameFile operations request s d target →
      d.files target = some (asBytes c) → c.utf8ByteSize ≤ operations.limits.maxReadBytes →
      ∃ (r : Except FileOperationError FileOperationResult) (left right : Disk),
        (operations.execute sha256 request.operation).runs d = some (r, left) ∧
        (executeExact sha256 request operations.limits).runs d = some (r, right) ∧
        left.files target = right.files target ∧
        ((∃ result, r = .ok result) ↔ Editable sha256 operations.limits oldText newText expectedSha256 c) ∧
        match r with
        | .ok result => ∃ a b : List Char, c.toList = a ++ oldText.toList ++ b ∧
            (∀ a' b' : List Char, c.toList = a' ++ oldText.toList ++ b' → a' = a ∧ b' = b) ∧
            let new := String.ofList (a ++ newText.toList ++ b)
            left.files target = some (asBytes new) ∧ result.bytes = new.utf8ByteSize ∧ result.sha256 = sha256 new
        | .error _ => left.files target = some (asBytes c)) ∧
    ∀ (d d' : Disk) (e : FileOperationError),
      (operations.execute sha256 request.operation).runs d = some (.error e, d') ∨
        (executeExact sha256 request operations.limits).runs d = some (.error e, d') → d.Keeps d' := by
  have hold : oldText ≠ "" := oldText_ne (hop ▸ hexact)
  refine ⟨fun d s target c hcalm hsame hc hfits => ?_, fun d d' e hrun => ?_⟩
  · have hlimit : operations.limits.maxReadBytes < 2 ^ 64 - 1 := by
      obtain ⟨u, hlimits, -⟩ := bind_eq_ok.1 hexact
      simp only [reject_eq_ok, not_or] at hlimits
      omega
    obtain ⟨r, hr, hiff, hsplit⟩ := exactEdited_spec sha256 operations.limits newText expectedSha256 c hold
    obtain ⟨left, hleft, hleftFile⟩ := runs_execute hop hpinned hlimit hcalm hsame hc hfits hr
    obtain ⟨right, hright, hrightFile⟩ := runs_executeExact hop hexact hcalm hsame hc hfits hr
    refine ⟨r.map (resultOf sha256 request.operation), left, right, hleft, hright, hleftFile.trans hrightFile.symm, ?_⟩
    cases r with
    | error e =>
      refine ⟨iff_of_false (fun ⟨_, h⟩ => nomatch h) fun h => ?_, hleftFile⟩
      obtain ⟨content, hcontent⟩ := hiff.2 h
      exact nomatch hcontent
    | ok content =>
      have heditable := hiff.1 ⟨content, rfl⟩
      obtain ⟨a, b, hab, rfl⟩ := hsplit content rfl
      exact ⟨iff_of_true ⟨_, rfl⟩ heditable, a, b, hab, fun a' b' => around_unique heditable.once hab, hleftFile,
        rfl, rfl⟩
  · rcases hrun with hrun | hrun
    · exact runs_of_holds (leaves_execute request.operation fun _ _ h => h) hrun e rfl
    · exact (runs_of_holds (executeExact_holds sha256 request operations.limits d) hrun).kept

def sampleListing : Listing where
  tree := .dir [("w".toList, .dir [("f".toList, .file)]), ("s".toList, .dir [])]
  identity path := ⟨1, path.length⟩
  links := 40
  mode _ := 0o700

def sampleDisk : Disk where
  files := Directory.write Directory.empty ["w".toList, "f".toList] (asBytes "abc")
  looks _ := some sampleListing
  faults _ := none
  clock := 0
  sequence := 0
  replaced := []

def sampleOperations : FileOperations where
  workspace := { path := "/w".toList, directory := .ok ["w".toList] }
  limits := ⟨1024, 1024⟩
  processId := 1

def sampleRequest : ExactFileWorkerRequest where
  operation := .edit "f" "b" "xy" none
  binding := {
    workspace := ⟨["w".toList], [⟨1, 0⟩, ⟨1, 1⟩]⟩
    parent := ⟨["w".toList], [⟨1, 0⟩, ⟨1, 1⟩]⟩
    leaf := "f".toList
    targetIdentity := some ⟨1, 2⟩
    protectedRoots := [] }
  staging := some ⟨⟨["s".toList], [⟨1, 0⟩, ⟨1, 1⟩]⟩, "r".toList⟩

theorem sameFile_sample :
    SameFile sampleOperations sampleRequest sampleListing sampleDisk ["w".toList, "f".toList] where
  file := by decide +kernel
  pinned := by
    refine ⟨["w".toList], ["w".toList], "f".toList, rfl, rfl, rfl, by decide +kernel, rfl, 0, by decide, ?_⟩
    decide +kernel
  bound := rfl
  same := rfl
  staged := ⟨_, rfl, rfl, by decide +kernel⟩

/-- Edits of that file agree. -/
theorem edits_agree_sample : ∃ (r : Except FileOperationError FileOperationResult) (left right : Disk),
    (sampleOperations.execute (fun _ => "digest") sampleRequest.operation).runs sampleDisk = some (r, left) ∧
      (executeExact (fun _ => "digest") sampleRequest sampleOperations.limits).runs sampleDisk = some (r, right) ∧
      left.files ["w".toList, "f".toList] = right.files ["w".toList, "f".toList] := by
  obtain ⟨hagree, -⟩ := edits_agree (fun _ => "digest") sampleOperations sampleRequest rfl rfl rfl
  have hfile : sampleDisk.files ["w".toList, "f".toList] = some (asBytes "abc") := by decide +kernel
  obtain ⟨r, left, right, hleft, hright, hsame, -⟩ := hagree sampleDisk sampleListing ["w".toList, "f".toList] "abc"
    ⟨fun _ => rfl, fun _ => rfl⟩ sameFile_sample hfile (by decide)
  exact ⟨r, left, right, hleft, hright, hsame⟩

end Agreement

end Tools
end Kolyan
