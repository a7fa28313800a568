/-
# What an executed file call leaves behind

`kolyan-tools`: an isolated file call is executed by a worker, and
`receipt::decode` checks what the worker printed against the operation before it
becomes the result of the call (`Executed`).  Its preparation stays with its
binding, which the prepared call carries as a JSON value; whoever reads that value
back gets the binding (`ofValue_toValue`).
-/

import Kolyan.Tools.Adapters
import Kolyan.Tasks.Encoding

namespace Kolyan
namespace Tools

open Paths Checks Policy Turn

section Receipts

/-- `FileOperationResult`. -/
structure FileOperationResult where
  path : String
  bytes : ℕ
  sha256 : String
  content : Option String
  deriving DecidableEq

/-- What serde reads as an operation and as a result, and the SHA-256 of a content in
hexadecimal. -/
structure FileCodec where
  operation : ToolCall → Except String FileOperation
  result : String → Except String FileOperationResult
  contentSha256 : String → String

/-- A canonical SHA-256: 64 lower hexadecimal characters. -/
def canonicalSha256 (value : String) : Bool :=
  value.utf8ByteSize = 64 && value.toList.all fun c => ('0' ≤ c && c ≤ '9') || ('a' ≤ c && c ≤ 'f')

variable (codec : FileCodec)

/-- `matches_content`. -/
def matchesContent (result : FileOperationResult) (content : String) : Bool :=
  result.bytes = content.utf8ByteSize && result.sha256 = codec.contentSha256 content

/-- `invalid`, in `receipt::decode`: of a replacement it is not known whether it committed. -/
def FileOperation.invalid (operation : FileOperation) (reason : String) : IsolatedFileError :=
  if operation.isRead then .invalid reason else .uncertain reason

/-- What `receipt::decode` asks of each kind of operation. -/
def receiptFits (operation : FileOperation) (result : FileOperationResult) (limits : FileOperationLimits) :
    Except IsolatedFileError Unit :=
  match operation with
  | .read _ => do
      let content ← expect result.content (operation.invalid "read result has no content")
      reject (content.utf8ByteSize > limits.maxReadBytes ∨ ¬matchesContent codec result content)
        (operation.invalid "read result content, digest or byte count mismatch")
  | .write _ content =>
      reject (result.content.isSome ∨ result.bytes > limits.maxWriteBytes ∨ ¬matchesContent codec result content)
        (operation.invalid "write result content, digest or byte count mismatch")
  | .edit .. =>
      reject (result.content.isSome ∨ result.bytes > limits.maxWriteBytes)
        (operation.invalid "edit result shape or byte ceiling mismatch")

/-- `receipt::decode`. -/
def decode (operation : FileOperation) (stdout : String) (limits : FileOperationLimits) :
    Except IsolatedFileError FileOperationResult := do
  let result ← mapError (fun error => operation.invalid ("worker result decoding: " ++ error)) (codec.result stdout)
  reject (result.path ≠ operation.path) (operation.invalid "worker result path mismatch")
  reject (¬canonicalSha256 result.sha256) (operation.invalid "worker result digest is not canonical SHA-256")
  receiptFits codec operation result limits
  return result

/-- A result that `execute` made of a call: no error, and the text, as serde reads it,
of what `receipt::decode` accepted of a worker. -/
structure Executed (tools : IsolatedFileTools) (call : ToolCall) (result : ToolResult) : Prop where
  callId : result.callId = call.id
  noError : result.isError = false
  decoded : ∃ operation stdout output, tools.operation call = .ok operation ∧
    decode codec operation stdout tools.config.fileLimits = .ok output ∧ codec.result result.content = .ok output

end Receipts

section Bindings

/-- The fields of an object that has only these, as a struct with `deny_unknown_fields` is read. -/
def strictFields (names : List String) : Value → Option (List (String × Value))
  | .object fields => if fields.all (fun field => names.contains field.1) then some fields else none
  | _ => none

/-- An unsigned number. -/
def natField (fields : List (String × Value)) (key : String) : Option ℕ :=
  match fields.lookup key with
  | some (.number text) =>
      if text.toList ≠ [] ∧ text.toList.all Char.isDigit then some (Nat.ofDigitChars 10 text.toList 0) else none
  | _ => none

/-- An absolute path. -/
def pathOfText (path : String) : Option (List Name) :=
  match path.toList with
  | '/' :: [] => some []
  | '/' :: rest => some (pieces rest)
  | _ => none

/-- A path. -/
def pathValue : Value → Option (List Name)
  | .string path => pathOfText path
  | _ => none

/-- `ExactFileIdentity`. -/
def ExactFileIdentity.ofValue (value : Value) : Option ExactFileIdentity := do
  let fields ← strictFields ["dev", "ino"] value
  let dev ← natField fields "dev"
  let ino ← natField fields "ino"
  return { dev, ino }

/-- A list of values. -/
def listValue {α : Type} (read : Value → Option α) : Value → Option (List α)
  | .array items => items.mapM read
  | _ => none

/-- `ExactDirectoryBinding`. -/
def ExactDirectoryBinding.ofValue (value : Value) : Option ExactDirectoryBinding := do
  let fields ← strictFields ["physical_path", "identity_chain"] value
  let physicalPath ← (fields.lookup "physical_path").bind pathValue
  let identityChain ← (fields.lookup "identity_chain").bind (listValue ExactFileIdentity.ofValue)
  return { physicalPath, identityChain }

/-- `deserialize_nullable`. -/
def nullable {α : Type} (read : Value → Option α) : Value → Option (Option α)
  | .null => some none
  | value => (read value).map some

/-- `ExactFileBinding`. -/
def ExactFileBinding.ofValue (value : Value) : Option ExactFileBinding := do
  let fields ← strictFields ["workspace", "parent", "leaf", "target_identity", "protected_roots"] value
  let workspace ← (fields.lookup "workspace").bind ExactDirectoryBinding.ofValue
  let parent ← (fields.lookup "parent").bind ExactDirectoryBinding.ofValue
  let leaf ← textField fields "leaf"
  let targetIdentity ← (fields.lookup "target_identity").bind (nullable ExactFileIdentity.ofValue)
  let protectedRoots ← (fields.lookup "protected_roots").bind (listValue pathValue)
  return { workspace, parent, leaf := leaf.toList, targetIdentity, protectedRoots }

/-- A binding of normal names. -/
structure ExactFileBinding.Normal (binding : ExactFileBinding) : Prop where
  workspace : ∀ name ∈ binding.workspace.physicalPath, Proper name
  parent : ∀ name ∈ binding.parent.physicalPath, Proper name
  protectedRoots : ∀ root ∈ binding.protectedRoots, ∀ name ∈ root, Proper name

theorem natField_nat {fields : List (String × Value)} {key : String} {n : ℕ} (h : fields.lookup key = some (.nat n)) :
    natField fields key = some n := by
  have htext : (toString n).toList = Nat.toDigits 10 n := Nat.toList_repr
  rw [natField, h]
  simp only [Value.nat, htext, Nat.ofDigitChars_ten_toDigits]
  rw [if_pos]
  refine ⟨Nat.toDigits_ne_nil, List.all_eq_true.2 fun c hc => ?_⟩
  exact Nat.isDigit_of_mem_toDigits (by decide) (by decide) hc

theorem pathOfText_physicalText {path : List Name} (h : ∀ name ∈ path, Proper name) :
    pathOfText (physicalText path) = some path := by
  rcases eq_or_ne path [] with rfl | hne
  · rfl
  · have hpieces := pieces_text h hne
    have htext : text path ≠ [] := by
      intro hnil
      rw [hnil] at hpieces
      have hmem : ([] : Name) ∈ path := hpieces ▸ List.mem_singleton_self _
      exact (h _ hmem).nonempty rfl
    obtain ⟨c, rest, hcons⟩ := List.exists_cons_of_ne_nil htext
    rw [pathOfText, physicalText, String.toList_ofList, hcons]
    simp only [← hcons, hpieces]

theorem listValue_list {α : Type} {read : Value → Option α} {write : α → Value} {items : List α}
    (h : ∀ a ∈ items, read (write a) = some a) : listValue read (.list write items) = some items := by
  rw [Value.list, listValue, List.mapM_map]
  induction items with
  | nil => rfl
  | cons a items ih =>
    obtain ⟨ha, hitems⟩ := List.forall_mem_cons.1 h
    rw [List.mapM_cons, ih hitems, Function.comp_apply, ha]
    rfl

theorem ExactFileIdentity.ofValue_toValue (i : ExactFileIdentity) : ofValue i.toValue = some i := by
  have hfields : strictFields ["dev", "ino"] i.toValue = some [("dev", .nat i.dev), ("ino", .nat i.ino)] := rfl
  have hdev : natField [("dev", .nat i.dev), ("ino", .nat i.ino)] "dev" = some i.dev := natField_nat rfl
  have hino : natField [("dev", .nat i.dev), ("ino", .nat i.ino)] "ino" = some i.ino := natField_nat rfl
  simp only [ofValue, hfields, hdev, hino, Option.bind_eq_bind, Option.bind_some]
  rfl

theorem ExactDirectoryBinding.ofValue_toValue {b : ExactDirectoryBinding} (h : ∀ name ∈ b.physicalPath, Proper name) :
    ofValue b.toValue = some b := by
  have hfields : strictFields ["physical_path", "identity_chain"] b.toValue =
      some [("physical_path", .string (physicalText b.physicalPath)),
        ("identity_chain", .list ExactFileIdentity.toValue b.identityChain)] := rfl
  have hchain := listValue_list fun i (_ : i ∈ b.identityChain) => ExactFileIdentity.ofValue_toValue i
  simp only [ofValue, hfields, Option.bind_eq_bind, Option.bind_some, List.lookup, beq_self_eq_true, pathValue,
    pathOfText_physicalText h, (by decide : ("identity_chain" == "physical_path") = false), hchain]
  rfl

theorem ExactFileBinding.ofValue_toValue {b : ExactFileBinding} (h : b.Normal) : ofValue b.toValue = some b := by
  have hworkspace := ExactDirectoryBinding.ofValue_toValue h.workspace
  have hparent := ExactDirectoryBinding.ofValue_toValue h.parent
  have hidentity : nullable ExactFileIdentity.ofValue (.option ExactFileIdentity.toValue b.targetIdentity) =
      some b.targetIdentity := by
    cases b.targetIdentity with
    | none => rfl
    | some i => exact congrArg (Option.map some) i.ofValue_toValue
  have hroots : listValue pathValue (.list (fun root => .string (physicalText root)) b.protectedRoots) =
      some b.protectedRoots := listValue_list fun root hroot => pathOfText_physicalText (h.protectedRoots root hroot)
  have hfields : strictFields ["workspace", "parent", "leaf", "target_identity", "protected_roots"] b.toValue =
      some [("workspace", b.workspace.toValue), ("parent", b.parent.toValue), ("leaf", .string (String.ofList b.leaf)),
        ("target_identity", .option ExactFileIdentity.toValue b.targetIdentity),
        ("protected_roots", .list (fun root => .string (physicalText root)) b.protectedRoots)] := rfl
  rw [ofValue, hfields]
  show (ExactDirectoryBinding.ofValue b.workspace.toValue).bind _ = _
  rw [hworkspace, Option.bind_some]
  show (ExactDirectoryBinding.ofValue b.parent.toValue).bind _ = _
  rw [hparent, Option.bind_some]
  show (nullable ExactFileIdentity.ofValue (.option ExactFileIdentity.toValue b.targetIdentity)).bind _ = _
  rw [hidentity, Option.bind_some]
  show (listValue pathValue (.list (fun root => .string (physicalText root)) b.protectedRoots)).bind _ = _
  rw [hroots, Option.bind_some, String.toList_ofList]
  rfl

end Bindings

end Tools
end Kolyan
