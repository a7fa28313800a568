/-
# Stored approvals

`FileApprovalStore` (`kolyan-storage/src/lib.rs`): a request waits in a file named after
its id, is moved to a claimed file when it is claimed, and is written under a third name
first.  The directory is a map from names to contents, and what serde writes and reads is
a codec.

A call on an id touches the three files of that id only (`step_other`), and what it
answers and leaves of the pending and the claimed file is decided by these two
(`step_slot`).  Names of two ids differ, with one exception: the claimed file of `a` is
the pending file of `a.claimed` (`pendingName_eq_claimedName`).
-/

import Kolyan.Lib.Cells
import Kolyan.Lib.Directories
import Kolyan.Sessions.Store
import Kolyan.Tools.Receipts

namespace Kolyan
namespace Approvals

open Checks Turn
open Sessions (StorageError)

section Model

/-- What serde writes of an approval request, and reads. -/
structure Codec (C : Type) where
  encode : ApprovalRequest → C
  decode : C → Except String ApprovalRequest
  decode_encode : ∀ request, decode (encode request) = .ok request

def requestValue (request : ApprovalRequest) : Value :=
  .object [("approval_id", .string request.approvalId), ("turn_id", .string request.turnId),
    ("call_id", .string request.callId), ("tool_name", .string request.toolName),
    ("reason", .string request.reason), ("expires_at_ms", request.expiresAtMs.elim .null .nat)]

/-- `required_option`, of a number: the field is there, and may be null. -/
def requiredOption (fields : List (String × Value)) (key : String) : Option (Option ℕ) :=
  match fields.lookup key with
  | some .null => some none
  | _ => (Tools.natField fields key).map some

def requestOfValue (value : Value) : Option ApprovalRequest := do
  let fields ← Tools.strictFields
    ["approval_id", "turn_id", "call_id", "tool_name", "reason", "expires_at_ms"] value
  let approvalId ← Tools.textField fields "approval_id"
  let turnId ← Tools.textField fields "turn_id"
  let callId ← Tools.textField fields "call_id"
  let toolName ← Tools.textField fields "tool_name"
  let reason ← Tools.textField fields "reason"
  let expiresAtMs ← requiredOption fields "expires_at_ms"
  return { approvalId, turnId, callId, toolName, reason, expiresAtMs }

theorem requiredOption_nat {fields : List (String × Value)} {key : String} {n : ℕ}
    (h : fields.lookup key = some (.nat n)) : requiredOption fields key = some (some n) := by
  rw [requiredOption, h]
  exact congrArg (Option.map some) (Tools.natField_nat h)

theorem requestOfValue_requestValue (request : ApprovalRequest) :
    requestOfValue (requestValue request) = some request := by
  obtain ⟨approvalId, turnId, callId, toolName, reason, expiresAtMs⟩ := request
  cases expiresAtMs with
  | none => rfl
  | some expiresAtMs =>
    simp only [requestOfValue, requestValue, Tools.strictFields, Option.elim_some]
    show ((requiredOption _ "expires_at_ms").bind _) = _
    rw [requiredOption_nat rfl]
    rfl

def jsonCodec : Codec Value where
  encode := requestValue
  decode value := expect (requestOfValue value) "invalid approval request"
  decode_encode request := by
    rw [requestOfValue_requestValue]
    rfl

/-- `Path::file_stem` of a name: what is before the last dot, unless that is nothing. -/
def fileStem (name : String) : String :=
  match (name.toList.reverse.dropWhile (· ≠ '.')).drop 1 with
  | [] => name
  | before => .ofList before.reverse

/-- `Path::with_extension` of a name. -/
def withExtension (name extension : String) : String := fileStem name ++ "." ++ extension

/-- `FileApprovalStore::path`. -/
def path (approvalId : String) : Except StorageError String := do
  reject (approvalId = "" ∨ approvalId = "." ∨ approvalId = ".." ∨ '/' ∈ approvalId.toList ∨
    '\\' ∈ approvalId.toList) .invalidId
  return approvalId ++ ".json"

/-- `FileApprovalStore::claimed_path`. -/
def claimedPath (approvalId : String) : Except StorageError String := do
  let path ← path approvalId
  return withExtension path "claimed.json"

/-- The directory of a store. -/
abbrev Files (C : Type) := Directory String C

/-- The error of a rename of a file that is not there. -/
def noSuchFile : StorageError := .failed (.io "No such file or directory")

variable {C : Type} (codec : Codec C) (files : Files C)

/-- `serde_json::from_slice` of what a file holds. -/
def read (content : C) : Except StorageError ApprovalRequest :=
  mapError (fun message => .failed (.serialization message)) (codec.decode content)

/-- `save`. -/
def save (request : ApprovalRequest) : Except StorageError Unit × Files C :=
  match path request.approvalId with
  | .error error => (.error error, files)
  | .ok path =>
      let written := files.write (withExtension path "json.tmp") (codec.encode request)
      match written.rename (withExtension path "json.tmp") path with
      | none => (.error noSuchFile, written)
      | some renamed => (.ok (), renamed)

/-- `load`. -/
def load (approvalId : String) : Except StorageError ApprovalRequest := do
  let path ← path approvalId
  let content ← expect (files path) (.notFound approvalId)
  read codec content

/-- `claim`. -/
def claim (approvalId : String) : Except StorageError ApprovalRequest × Files C :=
  match path approvalId, claimedPath approvalId with
  | .ok pending, .ok claimed =>
      match files.rename pending claimed with
      | none => (.error (.notFound approvalId), files)
      | some renamed => ((expect (renamed claimed) noSuchFile).bind (read codec), renamed)
  | .error error, _ | _, .error error => (.error error, files)

/-- `delete`. -/
def delete (approvalId : String) : Except StorageError Unit × Files C :=
  match path approvalId, claimedPath approvalId with
  | .ok path, .ok claimed =>
      let (removed, rest) := files.remove path
      let (also, rest) := rest.remove claimed
      (if removed || also then .ok () else .error (.notFound approvalId), rest)
  | .error error, _ | _, .error error => (.error error, files)

/-- The calls of an `ApprovalStore`. -/
inductive Op where
  | save (request : ApprovalRequest)
  | load (approvalId : String)
  | claim (approvalId : String)
  | delete (approvalId : String)

/-- The approval that a call is about. -/
def Op.id : Op → String
  | .save request => request.approvalId
  | .load approvalId | .claim approvalId | .delete approvalId => approvalId

/-- What a call answers. -/
@[reducible] def Op.Answer : Op → Type
  | .save _ | .delete _ => Except StorageError Unit
  | .load _ | .claim _ => Except StorageError ApprovalRequest

/-- A call that takes the claimed file. -/
def Op.Consumes : Op → Prop
  | .save _ | .load _ => False
  | .claim _ | .delete _ => True

instance (o : Op) : Decidable o.Consumes := by
  cases o <;> unfold Op.Consumes <;> infer_instance

/-- `FileApprovalStore`. -/
def store : Machine Op Op.Answer (Files C) where
  step files
    | .save request => save codec files request
    | .load approvalId => (load codec files approvalId, files)
    | .claim approvalId => claim codec files approvalId
    | .delete approvalId => delete files approvalId

end Model

section Names

/-- An id that `path` accepts. -/
def ValidId (approvalId : String) : Prop := ∃ name, path approvalId = .ok name

instance (approvalId : String) : Decidable (ValidId approvalId) :=
  match h : path approvalId with
  | .ok name => isTrue ⟨name, h⟩
  | .error _ => isFalse (by rintro ⟨name, hname⟩; simp [h] at hname)

/-- The file of a request that waits. -/
def pendingName (approvalId : String) : String := approvalId ++ ".json"

/-- The file of a request that was claimed. -/
def claimedName (approvalId : String) : String := approvalId ++ ".claimed.json"

/-- The file that a request is written to first. -/
def tempName (approvalId : String) : String := approvalId ++ ".json.tmp"

variable {a b : String}

theorem fileStem_json (h : a ≠ "") : fileStem (a ++ ".json") = a := by
  have hlist : a.toList ≠ [] := by simpa using h
  have hdrop : ((a ++ ".json").toList.reverse.dropWhile (· ≠ '.')).drop 1 = a.toList.reverse := by
    simp [List.dropWhile]
  rw [fileStem, hdrop]
  split
  · exact absurd (by simpa using ‹a.toList.reverse = []›) hlist
  · simp

theorem path_of_valid (h : ValidId a) : path a = .ok (pendingName a) := by
  obtain ⟨name, hname⟩ := h
  simp only [path, bind_eq_ok, reject_eq_ok] at hname ⊢
  obtain ⟨_, hok, _⟩ := hname
  exact ⟨(), hok, rfl⟩

theorem ValidId.ne_empty (h : ValidId a) : a ≠ "" := by
  rintro rfl
  exact absurd (path_of_valid h) (by simp [path, reject, bind, Except.bind])

theorem withExtension_of_valid (h : ValidId a) (extension : String) :
    withExtension (pendingName a) extension = a ++ "." ++ extension := by
  rw [withExtension, pendingName, fileStem_json h.ne_empty]

theorem claimedPath_of_valid (h : ValidId a) : claimedPath a = .ok (claimedName a) := by
  rw [claimedPath, path_of_valid h]
  show Except.ok _ = _
  rw [withExtension_of_valid h, String.append_assoc]
  rfl

theorem path_of_invalid (h : ¬ValidId a) : path a = .error .invalidId := by
  cases hpath : path a with
  | ok name => exact absurd ⟨name, hpath⟩ h
  | error error =>
    simp only [path, reject] at hpath
    split_ifs at hpath
    · exact hpath.symm
    · exact nomatch hpath

/-! ### Which names are equal -/

theorem pendingName_inj : pendingName a = pendingName b ↔ a = b := by
  simp [pendingName, String.ext_iff]

theorem claimedName_inj : claimedName a = claimedName b ↔ a = b := by
  simp [claimedName, String.ext_iff]

/-- **The one exception**: an id that ends in `.claimed`. -/
theorem pendingName_eq_claimedName : pendingName b = claimedName a ↔ b = a ++ ".claimed" := by
  have h : claimedName a = (a ++ ".claimed") ++ ".json" := by
    rw [claimedName, String.append_assoc]
    rfl
  rw [h]
  exact pendingName_inj

theorem pendingName_ne_tempName : pendingName b ≠ tempName a := by
  intro h
  have hlast := congrArg (fun s : String => s.toList.getLast?) h
  simp [pendingName, tempName] at hlast

theorem claimedName_ne_tempName : claimedName b ≠ tempName a := by
  intro h
  have hlast := congrArg (fun s : String => s.toList.getLast?) h
  simp [claimedName, tempName] at hlast

theorem pendingName_ne_claimedName : pendingName a ≠ claimedName a := by
  rw [ne_eq, pendingName_eq_claimedName]
  intro h
  simpa using congrArg (fun s : String => s.toList.length) h

end Names

section Slots

variable {C : Type}

/-- The two files of an approval. -/
@[ext] structure Slot (C : Type) where
  pending : Option C
  claimed : Option C

/-- The store of one approval: a request waits until it is claimed or deleted. -/
def slots (codec : Codec C) : Machine Op Op.Answer (Slot C) where
  step slot
    | .save request =>
        if ValidId request.approvalId then (.ok (), { slot with pending := some (codec.encode request) })
        else (.error .invalidId, slot)
    | .load approvalId =>
        if ValidId approvalId then
          ((expect slot.pending (.notFound approvalId)).bind (read codec), slot)
        else (.error .invalidId, slot)
    | .claim approvalId =>
        if ValidId approvalId then
          match slot.pending with
          | none => (.error (.notFound approvalId), slot)
          | some content => (read codec content, ⟨none, some content⟩)
        else (.error .invalidId, slot)
    | .delete approvalId =>
        if ValidId approvalId then
          (if slot.pending.isSome || slot.claimed.isSome then .ok () else .error (.notFound approvalId),
            ⟨none, none⟩)
        else (.error .invalidId, slot)

/-- The files of an approval in a directory. -/
def slotOf (files : Files C) (approvalId : String) : Slot C :=
  ⟨files (pendingName approvalId), files (claimedName approvalId)⟩

variable {codec : Codec C} {files : Files C} {o : Op}

theorem step_invalid (codec : Codec C) (files : Files C) (h : ¬ValidId o.id) : ∃ answer,
    (store codec).step files o = (answer, files) ∧
    (slots codec).step (slotOf files o.id) o = (answer, slotOf files o.id) := by
  have hpath : path o.id = .error .invalidId := path_of_invalid h
  cases o with
  | save request =>
    refine ⟨.error .invalidId, ?_, if_neg h⟩
    have hpath : path request.approvalId = .error .invalidId := hpath
    simp only [store, save, hpath]
  | load approvalId =>
    refine ⟨.error .invalidId, ?_, if_neg h⟩
    have hpath : path approvalId = .error .invalidId := hpath
    simp only [store, load, hpath]
    rfl
  | claim approvalId =>
    refine ⟨.error .invalidId, ?_, if_neg h⟩
    have hpath : path approvalId = .error .invalidId := hpath
    simp only [store, claim, hpath]
  | delete approvalId =>
    refine ⟨.error .invalidId, ?_, if_neg h⟩
    have hpath : path approvalId = .error .invalidId := hpath
    simp only [store, delete, hpath]

theorem save_of_valid {request : ApprovalRequest} (h : ValidId request.approvalId) :
    save codec files request = (.ok (),
      ((files.write (tempName request.approvalId) (codec.encode request)).without
        (tempName request.approvalId)).write (pendingName request.approvalId) (codec.encode request)) := by
  have htemp : withExtension (pendingName request.approvalId) "json.tmp" = tempName request.approvalId := by
    rw [withExtension_of_valid h, String.append_assoc]
    rfl
  simp [save, path_of_valid h, htemp, Directory.rename]

theorem load_of_valid {a : String} (h : ValidId a) :
    load codec files a = (expect (files (pendingName a)) (.notFound a)).bind (read codec) := by
  rw [load, path_of_valid h]
  rfl

theorem claim_of_valid {a : String} (h : ValidId a) :
    claim codec files a =
      match files (pendingName a) with
      | none => (.error (.notFound a), files)
      | some content =>
          (read codec content, (files.without (pendingName a)).write (claimedName a) content) := by
  rw [claim, path_of_valid h, claimedPath_of_valid h]
  cases hpending : files (pendingName a) with
  | none => simp [Directory.rename, hpending]
  | some content =>
    simp only [Directory.rename, hpending, Option.map_some, Directory.write_self]
    rfl

theorem delete_of_valid {a : String} (h : ValidId a) :
    delete files a =
      (if (files (pendingName a)).isSome || (files (claimedName a)).isSome then .ok ()
        else .error (.notFound a), (files.without (pendingName a)).without (claimedName a)) := by
  rw [delete, path_of_valid h, claimedPath_of_valid h]
  simp only [Directory.remove, Directory.without_other _ pendingName_ne_claimedName.symm]

theorem step_other {name : String} (htemp : name ≠ tempName o.id) (hpending : name ≠ pendingName o.id)
    (hclaimed : o.Consumes → name ≠ claimedName o.id) : ((store codec).step files o).2 name = files name := by
  by_cases h : ValidId o.id
  · cases o with
    | save request =>
      have hstep : ((store codec).step files (.save request)).2 = _ := congrArg Prod.snd (save_of_valid h)
      rw [hstep]
      exact (Directory.write_other _ hpending).trans
        ((Directory.without_other _ htemp).trans (Directory.write_other _ htemp))
    | load approvalId => rfl
    | claim approvalId =>
      have hstep : ((store codec).step files (.claim approvalId)).2 = _ :=
        congrArg Prod.snd (claim_of_valid h)
      rw [hstep]
      cases files (pendingName approvalId) with
      | none => rfl
      | some content =>
        exact (Directory.write_other _ (hclaimed trivial)).trans (Directory.without_other _ hpending)
    | delete approvalId =>
      have hstep : ((store codec).step files (.delete approvalId)).2 = _ :=
        congrArg Prod.snd (delete_of_valid h)
      rw [hstep]
      exact (Directory.without_other _ (hclaimed trivial)).trans (Directory.without_other _ hpending)
  · obtain ⟨answer, hstep, -⟩ := step_invalid codec files h
    rw [hstep]

theorem step_slot (codec : Codec C) (files : Files C) (o : Op) :
    ((store codec).step files o).1 = ((slots codec).step (slotOf files o.id) o).1 ∧
    slotOf ((store codec).step files o).2 o.id = ((slots codec).step (slotOf files o.id) o).2 := by
  by_cases h : ValidId o.id
  · cases o with
    | save request =>
      have hstep : (store codec).step files (.save request) = _ := save_of_valid h
      rw [hstep, slots]
      simp only [Op.id] at h ⊢
      rw [if_pos h]
      refine ⟨rfl, Slot.ext (Directory.write_self _) ?_⟩
      show Directory.write _ _ _ _ = _
      rw [Directory.write_other _ pendingName_ne_claimedName.symm,
        Directory.without_other _ claimedName_ne_tempName, Directory.write_other _ claimedName_ne_tempName]
      rfl
    | load approvalId =>
      have hstep : ((store codec).step files (.load approvalId)).1 = _ := load_of_valid h
      rw [hstep, slots]
      simp only [Op.id] at h ⊢
      rw [if_pos h]
      exact ⟨rfl, rfl⟩
    | claim approvalId =>
      have hstep : (store codec).step files (.claim approvalId) = _ := claim_of_valid h
      rw [hstep, slots]
      simp only [Op.id, slotOf] at h ⊢
      rw [if_pos h]
      cases hpending : files (pendingName approvalId) with
      | none => exact ⟨rfl, Slot.ext hpending rfl⟩
      | some content =>
        refine ⟨rfl, Slot.ext ?_ (Directory.write_self _)⟩
        exact (Directory.write_other _ pendingName_ne_claimedName).trans (Directory.without_self _)
    | delete approvalId =>
      have hstep : (store codec).step files (.delete approvalId) = _ := delete_of_valid h
      rw [hstep, slots]
      simp only [Op.id, slotOf] at h ⊢
      rw [if_pos h]
      refine ⟨rfl, Slot.ext ?_ (Directory.without_self _)⟩
      exact (Directory.without_other _ pendingName_ne_claimedName).trans (Directory.without_self _)
  · obtain ⟨answer, hstep, hslot⟩ := step_invalid codec files h
    rw [hstep, hslot]
    exact ⟨rfl, rfl⟩

end Slots

end Approvals
end Kolyan
