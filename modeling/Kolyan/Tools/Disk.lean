/-
# The disk under a file tool

The questions that the two executors of file operations ask of the system: what the
directories look like, the bytes of a file, and the five effects of a replacement.  A
`Disk` answers them: its files by physical path, what it will tell of its directories each
time it is asked, and which of its operations will fail.  An operation that fails leaves
the files as they are, except that a write that fails may have written a part.  A rename
happens at once; what it replaced is on record (`replaced`).

What each operation can do is said once (`act_…`).  A program whose operations all keep
some property of the files has it at every instant, also when it is stopped
(`cut_of_holds`).
-/

import Kolyan.Bytes
import Kolyan.Lib.Alone
import Kolyan.Lib.Cuts
import Kolyan.Lib.Directories
import Kolyan.Tools.Adapters

namespace Kolyan
namespace Tools

open Paths (Name)
open Checks Threads

section Model

/-- What the system tells of its directories: the tree with its identities, and the
permission bits of a directory. -/
structure Listing extends Snapshot where
  mode : List Name → ℕ

/-- The answer to the creation of a file. -/
inductive Creation where
  | created | taken | failed

/-- What an executor asks of the system. -/
inductive DiskOp where
  | look
  | read (path : List Name) (limit : ℕ)
  | createNew (path : List Name)
  | writeAll (path : List Name) (bytes : List UInt8)
  | syncAll (path : List Name)
  | rename (source target : List Name)
  | removeFile (path : List Name)
  | fetchAdd

/-- What it answers: nothing, or false, is an error. -/
@[reducible] def DiskOp.Answer : DiskOp → Type
  | look => Option Listing
  | read .. => Option (List UInt8)
  | createNew _ => Creation
  | writeAll .. | syncAll _ | rename .. | removeFile _ => Bool
  | fetchAdd => ℕ

/-- A disk: its files, what it tells of its directories at each instant, its faults, with
how many bytes of a write are there then, the counter of temporary names, and the paths
that renames have replaced. -/
structure Disk where
  files : Directory (List Name) (List UInt8)
  looks : ℕ → Option Listing
  faults : ℕ → Option ℕ
  clock : ℕ
  sequence : ℕ
  replaced : List (List Name)

/-- The next instant. -/
def Disk.tick (d : Disk) : Disk := { d with clock := d.clock + 1 }

/-- Other files. -/
def Disk.store (d : Disk) (files : Directory (List Name) (List UInt8)) : Disk := { d.tick with files }

/-- One operation. -/
def Disk.act (d : Disk) : (o : DiskOp) → o.Answer × Disk
  | .look => (d.looks d.clock, d.tick)
  | .read path limit =>
      match d.faults d.clock with
      | some _ => (none, d.tick)
      | none => ((d.files path).map (·.take limit), d.tick)
  | .createNew path =>
      match d.faults d.clock, d.files path with
      | some _, _ => (.failed, d.tick)
      | none, some _ => (.taken, d.tick)
      | none, none => (.created, d.store (d.files.write path []))
  | .writeAll path bytes =>
      match d.faults d.clock with
      | some written => (false, d.store (d.files.write path (bytes.take written)))
      | none => (true, d.store (d.files.write path bytes))
  | .syncAll _ => ((d.faults d.clock).isNone, d.tick)
  | .rename source target =>
      match d.faults d.clock, d.files.rename source target with
      | none, some files => (true, { d.store files with replaced := target :: d.replaced })
      | _, _ => (false, d.tick)
  | .removeFile path =>
      match d.faults d.clock with
      | some _ => (false, d.tick)
      | none => ((d.files path).isSome, d.store (d.files.without path))
  | .fetchAdd => (d.sequence, { d.tick with sequence := d.sequence + 1 })

/-- A program of an executor. -/
abbrev DiskProgram := Fallible DiskOp DiskOp.Answer FileOperationError

/-- An operation that tells whether it was done. -/
def done (b : Bool) : Except FileOperationError Unit := reject (b = false) .io

/-- The directories as they are. -/
def look : DiskProgram Listing := .ofProg (.ask .look fun a => .done (expect a .io))

/-- `File::take` and `read_to_end`. -/
def readToEnd (path : List Name) (limit : ℕ) : DiskProgram (List UInt8) :=
  .ofProg (.ask (.read path limit) fun a => .done (expect a .io))

/-- `open_with`, of `create_new`. -/
def createNew (path : List Name) : DiskProgram Creation := .ofProg (.ask (.createNew path) fun a => .done (.ok a))

/-- `write_all`. -/
def writeAll (path : List Name) (bytes : List UInt8) : DiskProgram Unit :=
  .ofProg (.ask (.writeAll path bytes) fun a => .done (done a))

/-- `sync_all`. -/
def syncAll (path : List Name) : DiskProgram Unit := .ofProg (.ask (.syncAll path) fun a => .done (done a))

/-- `Dir::rename`. -/
def rename (source target : List Name) : DiskProgram Unit :=
  .ofProg (.ask (.rename source target) fun a => .done (done a))

/-- `remove_file`. -/
def removeFile (path : List Name) : DiskProgram Unit := .ofProg (.ask (.removeFile path) fun a => .done (done a))

/-- `TEMP_SEQUENCE.fetch_add(1)`. -/
def fetchAdd : DiskProgram ℕ := .ofProg (.ask .fetchAdd fun a => .done (.ok a))

/-- A value that is there, or a panic. -/
def orPanic {α : Type} : Option α → DiskProgram α
  | some a => pure a
  | none => ExceptT.mk .halt

end Model

section Calm

/-- A disk that tells one thing of its directories, and whose operations do not fail. -/
structure Disk.Calm (d : Disk) (s : Listing) : Prop where
  looks : ∀ k, d.looks k = some s
  faults : ∀ k, d.faults k = none

variable {d : Disk} {s : Listing} {path source target : List Name} {bytes : List UInt8} {α β : Type}

/-- The run of a program alone. -/
abbrev DiskProgram.runs (p : DiskProgram α) (d : Disk) : Option (Except FileOperationError α × Disk) :=
  p.run.run Disk.act d

theorem runs_then {p : DiskProgram α} {f : α → DiskProgram β} {a : α} {d' : Disk} (h : p.runs d = some (.ok a, d')) :
    (p >>= f).runs d = (f a).runs d' := Fallible.run_then h

theorem runs_fails {p : DiskProgram α} {f : α → DiskProgram β} {e : FileOperationError} {d' : Disk}
    (h : p.runs d = some (.error e, d')) : (p >>= f).runs d = some (.error e, d') := by
  have hrun : p.run.run Disk.act d = some (.error e, d') := h
  refine Fallible.run_bind.trans ?_
  rw [hrun]
  rfl

theorem lift_ok_bind {x : Except FileOperationError α} {a : α} {f : α → DiskProgram β} (h : x = .ok a) :
    Fallible.lift x >>= f = f a := by
  subst h
  rfl

theorem lift_error_bind {x : Except FileOperationError α} {e : FileOperationError} {f : α → DiskProgram β}
    (h : x = .error e) : Fallible.lift x >>= f = Fallible.lift (.error e) := by
  subst h
  rfl

theorem orPanic_some {o : Option α} {a : α} (h : o = some a) : orPanic o = pure a := by rw [h, orPanic]

theorem Disk.Calm.tick (h : d.Calm s) : d.tick.Calm s := ⟨h.looks, h.faults⟩

theorem Disk.Calm.store (h : d.Calm s) (files : Directory (List Name) (List UInt8)) : (d.store files).Calm s :=
  ⟨h.looks, h.faults⟩

theorem runs_look (h : d.Calm s) : look.runs d = some (.ok s, d.tick) := by
  show some (expect (d.looks d.clock) FileOperationError.io, d.tick) = _
  rw [h.looks]
  rfl

theorem runs_readToEnd (h : d.Calm s) (limit : ℕ) (hbytes : d.files path = some bytes) :
    (readToEnd path limit).runs d = some (.ok (bytes.take limit), d.tick) := by
  have hact : d.act (.read path limit) = (some (bytes.take limit), d.tick) := by
    simp only [Disk.act, h.faults, hbytes, Option.map_some]
  show some (expect (d.act (.read path limit)).1 FileOperationError.io, (d.act (.read path limit)).2) = _
  rw [hact]
  rfl

theorem runs_createNew (path : List Name) (h : d.Calm s) : (createNew path).runs d =
    match d.files path with
    | some _ => some (.ok .taken, d.tick)
    | none => some (.ok .created, d.store (d.files.write path [])) := by
  show some (Except.ok (d.act (.createNew path)).1, (d.act (.createNew path)).2) = _
  simp only [Disk.act, h.faults]
  cases d.files path <;> rfl

theorem runs_writeAll (path : List Name) (bytes : List UInt8) (h : d.Calm s) :
    (writeAll path bytes).runs d = some (.ok (), d.store (d.files.write path bytes)) := by
  show some (done (d.act (.writeAll path bytes)).1, (d.act (.writeAll path bytes)).2) = _
  simp only [Disk.act, h.faults]
  rfl

theorem runs_syncAll (h : d.Calm s) : (syncAll path).runs d = some (.ok (), d.tick) := by
  show some (done (d.act (.syncAll path)).1, (d.act (.syncAll path)).2) = _
  simp only [Disk.act, h.faults]
  rfl

theorem runs_rename (target : List Name) (h : d.Calm s) (hsource : d.files source = some bytes) :
    ∃ d', (rename source target).runs d = some (.ok (), d') ∧ d'.files target = some bytes := by
  refine ⟨{ d.store ((d.files.without source).write target bytes) with replaced := target :: d.replaced }, ?_,
    Directory.write_self _⟩
  show some (done (d.act (.rename source target)).1, (d.act (.rename source target)).2) = _
  simp only [Disk.act, h.faults, Directory.rename, hsource, Option.map_some]
  rfl

theorem runs_fetchAdd : fetchAdd.runs d = some (.ok d.sequence, { d.tick with sequence := d.sequence + 1 }) := rfl

end Calm

section Guarded

/-- What is kept of the files and of the record of a disk. -/
abbrev Keep := Directory (List Name) (List UInt8) → List (List Name) → Prop

/-- The setting of a program that runs alone, each of whose operations keeps `J`. -/
def guarded (J : Keep) : Setting DiskOp DiskOp.Answer Disk where
  act d o a d' := d.act o = (a, d')
  rely d d' := d = d'
  allow d o := J (d.act o).2.files (d.act o).2.replaced

variable {J : Keep} {d d' : Disk} {α β : Type} {p : DiskProgram α} {Q : Except FileOperationError α → Disk → Prop}
  {path source target : List Name} {bytes : List UInt8}

theorem runs_of_holds (h : Prog.Holds (guarded J) p.run Q d) {r : Except FileOperationError α}
    (hrun : p.runs d = some (r, d')) : Q r d' :=
  (@Prog.Holds.runs _ _ _ _ Disk.act d d' (guarded J) (fun _ => True) (fun _ _ => rfl) (fun _ _ _ _ => ⟨rfl, trivial⟩)
    _ _ h trivial _ hrun).1

/-- **What is kept is kept at every instant**, wherever the program is stopped. -/
theorem cut_of_holds (h : Prog.Holds (guarded J) p.run Q d) (hJ : J d.files d.replaced) (n : ℕ) :
    J (p.run.cut Disk.act n d).files (p.run.cut Disk.act n d).replaced :=
  @Prog.Holds.cut _ _ _ _ Disk.act d (guarded J) (fun d => J d.files d.replaced) (fun _ _ => rfl)
    (fun _ _ _ ho => ⟨rfl, ho⟩) _ _ h hJ n

theorem holds_ask {o : DiskOp} {next : o.Answer → Except FileOperationError α}
    (hJ : J (d.act o).2.files (d.act o).2.replaced) (hQ : Q (next (d.act o).1) (d.act o).2) :
    Prog.Holds (guarded J) (Fallible.ofProg (.ask o fun a => .done (next a)) : DiskProgram α).run Q d := by
  rintro _ rfl
  refine ⟨hJ, fun a d'' h => ?_⟩
  obtain ⟨rfl, rfl⟩ := Prod.mk.inj h
  exact hQ

theorem holds_then {f : α → DiskProgram β} {R : Except FileOperationError β → Disk → Prop}
    (h : Prog.Holds (guarded J) p.run Q d) (herror : ∀ e d', Q (.error e) d' → R (.error e) d')
    (hok : ∀ a d', Q (.ok a) d' → Prog.Holds (guarded J) (f a).run R d') : Prog.Holds (guarded J) (p >>= f).run R d := by
  refine Fallible.holds_bind (h.mono fun r d' hr => ?_)
  cases r with
  | ok a => exact hok a d' hr
  | error e => exact herror e d' hr

/-- The same files, and the same record. -/
def Disk.Like (d d' : Disk) : Prop := d'.files = d.files ∧ d'.replaced = d.replaced

/-- **A program that leaves the files alone.** -/
def Quiet (p : DiskProgram α) : Prop :=
  ∀ (J : Keep) (d : Disk), J d.files d.replaced → Prog.Holds (guarded J) p.run (fun _ d' => d.Like d') d

theorem Disk.Like.trans {d'' : Disk} (h : d.Like d') (h' : d'.Like d'') : d.Like d'' :=
  ⟨h'.1.trans h.1, h'.2.trans h.2⟩

theorem Disk.Like.keeps (h : d.Like d') (hJ : J d.files d.replaced) : J d'.files d'.replaced := by
  rwa [h.1, h.2]

theorem quiet_lift (x : Except FileOperationError α) : Quiet (Fallible.lift x) := fun _ _ _ => ⟨rfl, rfl⟩

theorem quiet_pure (a : α) : Quiet (pure a : DiskProgram α) := fun _ _ _ => ⟨rfl, rfl⟩

theorem quiet_orPanic (o : Option α) : Quiet (orPanic o) := by
  intro J d hJ
  cases o with
  | none => trivial
  | some a => exact ⟨rfl, rfl⟩

theorem quiet_look : Quiet look := fun _ _ hJ => holds_ask hJ ⟨rfl, rfl⟩

theorem quiet_fetchAdd : Quiet fetchAdd := fun _ _ hJ => holds_ask hJ ⟨rfl, rfl⟩

theorem quiet_syncAll (path : List Name) : Quiet (syncAll path) := fun _ _ hJ => holds_ask hJ ⟨rfl, rfl⟩

theorem act_read (path : List Name) (limit : ℕ) : (d.act (.read path limit)).2 = d.tick ∧
    ∀ bytes, (d.act (.read path limit)).1 = some bytes → ∃ content, d.files path = some content ∧ content.take limit = bytes := by
  simp only [Disk.act]
  cases d.faults d.clock with
  | some written => exact ⟨rfl, fun _ h => nomatch h⟩
  | none => exact ⟨rfl, fun bytes h => Option.map_eq_some_iff.1 h⟩

theorem quiet_readToEnd (path : List Name) (limit : ℕ) : Quiet (readToEnd path limit) := by
  intro J d hJ
  have hact := (act_read (d := d) path limit).1
  exact holds_ask (hact ▸ hJ) (hact ▸ ⟨rfl, rfl⟩)

theorem Quiet.bind {f : α → DiskProgram β} (h : Quiet p) (hf : ∀ a, Quiet (f a)) : Quiet (p >>= f) :=
  fun J d hJ => holds_then (h J d hJ) (fun _ _ hlike => hlike)
    fun a d' hlike => (hf a J d' (hlike.keeps hJ)).mono fun _ _ hlike' => hlike.trans hlike'

/-- **The creation of a file**: it was not there and is empty now, or nothing has changed. -/
theorem act_createNew (path : List Name) :
    (d.files path = none ∧ d.act (.createNew path) = (.created, d.store (d.files.write path []))) ∨
      ((d.act (.createNew path)).1 ≠ .created ∧ (d.act (.createNew path)).2 = d.tick) := by
  simp only [Disk.act]
  split
  · exact .inr ⟨nofun, rfl⟩
  · exact .inr ⟨nofun, rfl⟩
  · exact .inl ⟨‹_›, rfl⟩

theorem act_writeAll (path : List Name) (bytes : List UInt8) :
    d.act (.writeAll path bytes) = (true, d.store (d.files.write path bytes)) ∨
      ∃ some, d.act (.writeAll path bytes) = (false, d.store (d.files.write path some)) := by
  simp only [Disk.act]
  cases d.faults d.clock with
  | some written => exact .inr ⟨_, rfl⟩
  | none => exact .inl rfl

/-- **A rename** puts a file in the place of another, or changes nothing. -/
theorem act_rename (source target : List Name) :
    (∃ bytes, d.files source = some bytes ∧ d.act (.rename source target) =
      (true, { d.store ((d.files.without source).write target bytes) with replaced := target :: d.replaced })) ∨
      d.act (.rename source target) = (false, d.tick) := by
  simp only [Disk.act]
  split
  · rename_i hrename
    obtain ⟨bytes, hbytes, rfl⟩ := Option.map_eq_some_iff.1 hrename
    exact .inl ⟨bytes, hbytes, rfl⟩
  · exact .inr rfl

theorem act_removeFile (path : List Name) : (d.act (.removeFile path)).2 = d.tick ∨
    (d.act (.removeFile path)).2 = d.store (d.files.without path) := by
  simp only [Disk.act]
  cases d.faults d.clock with
  | some written => exact .inl rfl
  | none => exact .inr rfl

/-- The files of a disk are still there, as they were. -/
def Disk.Keeps (d d' : Disk) : Prop := ∀ path bytes, d.files path = some bytes → d'.files path = some bytes

theorem Disk.Like.kept (h : d.Like d') : d.Keeps d' := fun path bytes hpath => by rwa [h.1]

theorem Disk.Keeps.trans {d'' : Disk} (h : d.Keeps d') (h' : d'.Keeps d'') : d.Keeps d'' :=
  fun path bytes hpath => h' path bytes (h path bytes hpath)

theorem Disk.Keeps.write (h : d.Keeps d') (hpath : d.files path = none) (bytes : List UInt8) :
    d.Keeps (d'.store (d'.files.write path bytes)) := by
  intro other content hother
  have hne : other ≠ path := by
    rintro rfl
    exact nomatch hpath.symm.trans hother
  exact (Directory.write_other _ hne).trans (h other content hother)

theorem Disk.Keeps.without (h : d.Keeps d') (hpath : d.files path = none) :
    d.Keeps (d'.store (d'.files.without path)) := by
  intro other content hother
  have hne : other ≠ path := by
    rintro rfl
    exact nomatch hpath.symm.trans hother
  exact (Directory.without_other _ hne).trans (h other content hother)

end Guarded

end Tools
end Kolyan
