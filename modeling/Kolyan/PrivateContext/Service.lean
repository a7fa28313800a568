/-
# Private contexts

`crates/kolyan-server/src/private_context.rs`: the Session of a child invocation
starts from messages that its parent selected.  `initialize` first appends one fact
to a stream of the journal that belongs to the private Session alone, and then
creates the Session in the store; `load_verified_initialization` compares the
Session with the fact.  Between the two stores, and between any two operations, a
process may die and others go on, so a call is a program over the operations of the
journal, the Session store and the verifier of the Agent.  `sha2` is the parameter
`sha256`, the hexadecimal digest of a document's compact encoding; the encoders of
`serde` do not fail on these types.
-/

import Kolyan.Instances.Registry
import Kolyan.Sessions.Store
import Kolyan.Tasks.Encoding

namespace Kolyan

/-! ### Encoding of messages -/

/-- `ImageSource`. -/
def ImageSource.toValue : ImageSource → Value
  | .url address => .object [("type", .string "url"), ("url", .string address)]
  | .base64 mediaType data =>
      .object [("type", .string "base64"), ("media_type", .string mediaType), ("data", .string data)]

/-- `ContentBlock`. -/
def ContentBlock.toValue : ContentBlock → Value
  | .text content => .object [("type", .string "text"), ("text", .string content)]
  | .image source => .object [("type", .string "image"), ("source", source.toValue)]
  | .document source title =>
      .object [("type", .string "document"), ("source", source.toValue), ("title", .option .string title)]
  | .toolCall call => .object [("type", .string "tool_call"), ("call", call.toValue)]
  | .toolResult result => .object [("type", .string "tool_result"), ("result", result.toValue)]
  | .reasoning content opaqueState =>
      .object [("type", .string "reasoning"), ("text", .string content), ("opaque", .option id opaqueState)]

/-- `MessageRole`. -/
def MessageRole.toValue : MessageRole → Value
  | .user => .string "user"
  | .assistant => .string "assistant"

/-- `Message`. -/
def Message.toValue (message : Message) : Value :=
  .object [("role", message.role.toValue), ("content", .list ContentBlock.toValue message.content)]

/-- `Vec<Message>`. -/
def messagesValue (messages : List Message) : Value := .list Message.toValue messages

/-- A block that its JSON gives back: an opaque state of `null` reads as none. -/
def ContentBlock.Plain (block : ContentBlock) : Prop := ∀ text, block ≠ .reasoning text (some .null)

/-- Messages that their JSON gives back. -/
def PlainMessages (messages : List Message) : Prop := ∀ message ∈ messages, ∀ block ∈ message.content, block.Plain

/-- `SessionInitialization`. -/
def Sessions.SessionInitialization.toValue (initialization : Sessions.SessionInitialization) : Value :=
  .object [("binding_digest", .string initialization.bindingDigest), ("messages", messagesValue initialization.messages)]

namespace PrivateContext

open Checks Threads Facts
open Instances (JournalOp performFact factText isContention)
open Sessions (StorageError SessionInitialization SessionRecord SessionFiles SessionCall Request sessionStore)

/-- `PrivateContextOwner`. -/
structure PrivateContextOwner where
  logicalSessionId : String
  taskId : String
  invocationId : String
  privateSessionId : String
  snapshotDigest : String

/-- Its encoding. -/
def PrivateContextOwner.toValue (owner : PrivateContextOwner) : Value :=
  .object [("logical_session_id", .string owner.logicalSessionId), ("task_id", .string owner.taskId),
    ("invocation_id", .string owner.invocationId), ("private_session_id", .string owner.privateSessionId),
    ("snapshot_digest", .string owner.snapshotDigest)]

/-- `VerifiedPrivateContextInitialization`. -/
structure VerifiedPrivateContextInitialization where
  initialization : SessionInitialization
  initializationFact : FactRef
  ownershipFact : FactRef
  deriving DecidableEq

/-- Its encoding. -/
def VerifiedPrivateContextInitialization.toValue (value : VerifiedPrivateContextInitialization) : Value :=
  .object [("initialization", value.initialization.toValue), ("initialization_fact", value.initializationFact.toValue),
    ("ownership_fact", value.ownershipFact.toValue)]

/-- `ServerError`: that of a Session, or another one as its text. -/
inductive ServerError where
  | session (error : StorageError)
  | other (message : String)
  deriving DecidableEq

/-- `conflict`. -/
def conflict (message : String) : ServerError := .session (.conflict message)

/-- The bytes of an initialization, and of a ceiling, at most. -/
def maxContextBytes : ℕ := 16 * 1024 * 1024

/-- `len() == 64` and lowercase hexadecimal. -/
def isLowerDigest (digest : String) : Bool := digest.utf8ByteSize = 64 && digest.toList.all Tasks.isLowerHexDigit

/-- An operation of a call. -/
inductive ContextOp where
  | verifyOwner (owner : PrivateContextOwner) (fact : FactRef)
  | journal (op : JournalOp)
  | session (sessionId : String) (call : SessionCall)

/-- What it answers. -/
@[reducible] def ContextOp.Answer : ContextOp → Type
  | verifyOwner _ _ => Except ServerError Unit
  | journal op => op.Answer
  | session _ _ => Except StorageError SessionRecord

/-- Programs of the service. -/
abbrev ContextProg := Fallible ContextOp ContextOp.Answer ServerError

/-- `ownership.verify_owner`. -/
def verifyOwner (owner : PrivateContextOwner) (fact : FactRef) : ContextProg Unit :=
  Fallible.ofProg (.call (ContextOp.verifyOwner owner fact))

/-- `journal.read`, its errors as conflicts. -/
def readContext (stream : String) : ContextProg (List FactRecord) :=
  Fallible.mapError (fun error => conflict (factText error))
    (Fallible.ofProg (.call (ContextOp.journal (.read stream 0 2))))

/-- `journal.append`, its error as a value. -/
def appendContext (stream : String) (draft : FactDraft) : ContextProg (Except FactError (List FactRecord)) :=
  Fallible.attempt (Fallible.ofProg (.call (ContextOp.journal (.append stream 0 [draft]))))

/-- A call of the Session store. -/
def callSession (sessionId : String) (call : SessionCall) : ContextProg SessionRecord :=
  Fallible.mapError .session (Fallible.ofProg (.call (ContextOp.session sessionId call)))

section Service

variable (sha256 : Value → String)

/-- The binding of an owner and a projection. -/
def bindingValue (owner : PrivateContextOwner) (projection : String) : Value :=
  Value.canonical (.object [("schema_version", .nat 1), ("domain", .string "kolyan.server.private-context"),
    ("owner", owner.toValue), ("projection_digest", .string projection)])

/-- The initialization that an owner and its messages are bound to. -/
def boundInitialization (owner : PrivateContextOwner) (messages : List Message) : SessionInitialization where
  bindingDigest := sha256 (bindingValue owner (sha256 (messagesValue messages)))
  messages := messages

/-- `private_context_initialization`. -/
def privateContextInitialization (owner : PrivateContextOwner) (messages : List Message) :
    Except ServerError SessionInitialization := do
  forEach (fun id => reject (isIdentifier id = false) (conflict "invalid private context owner identity"))
    [owner.logicalSessionId, owner.taskId, owner.invocationId, owner.privateSessionId]
  reject (isLowerDigest owner.snapshotDigest = false) (conflict "invalid snapshot digest")
  let value := boundInitialization sha256 owner messages
  reject (value.toValue.encodedLen > maxContextBytes) (conflict "private context initialization exceeds host ceiling")
  return value

/-- The stream of a private Session. -/
def contextStream (privateSessionId : String) : String :=
  "server.private-context." ++
    sha256 (.array [.string "kolyan.server.private-context.owner.v1", .string privateSessionId])

/-- The fact of an initialization. -/
def contextDraft (owner : PrivateContextOwner) (fact : FactRef) (initialization : SessionInitialization) : FactDraft where
  factId := contextStream sha256 owner.privateSessionId
  subject := ⟨"server.private-context", owner.privateSessionId⟩
  kind := "server.private-context.initialized"
  schemaVersion := 1
  critical := true
  causes := [fact]
  payload := Value.canonical (.object [("owner", owner.toValue),
    ("projection_digest", .string (sha256 (messagesValue initialization.messages))),
    ("binding_digest", .string initialization.bindingDigest)])

/-- The match on what the append answers: a lost race is settled by reading again. -/
def settleAppend : Except FactError (List FactRecord) → Except ServerError Unit
  | .ok _ => .ok ()
  | .error error => reject (isContention error = false) (conflict (factText error))

/-- `PrivateContextService::initialize`. -/
def initializePrivateContext (owner : PrivateContextOwner) (fact : FactRef) (selectedMessages : List Message) :
    ContextProg SessionRecord := do
  let initialization ← Fallible.lift (privateContextInitialization sha256 owner selectedMessages)
  verifyOwner owner fact
  let stream := contextStream sha256 owner.privateSessionId
  let draft := contextDraft sha256 owner fact initialization
  let saved ← readContext stream
  if saved = [] then do
    let appended ← appendContext stream draft
    Fallible.lift (settleAppend appended)
  let saved ← readContext stream
  Fallible.lift (reject (saved ≠ [⟨stream, 1, draft⟩]) (conflict "private context ownership/projection fact differs"))
  callSession owner.privateSessionId (.initializeContext initialization)

/-- `PrivateContextService::load_verified_initialization`. -/
def loadVerifiedInitialization (owner : PrivateContextOwner) (fact : FactRef) (maxBytes : ℕ) :
    ContextProg VerifiedPrivateContextInitialization := do
  Fallible.lift (reject (maxBytes = 0 ∨ maxBytes > maxContextBytes) (conflict "invalid initialization host ceiling"))
  verifyOwner owner fact
  let record ← callSession owner.privateSessionId .load
  Fallible.lift (reject (record.sessionId ≠ owner.privateSessionId) (conflict "foreign private Session record"))
  let initial ← Fallible.lift (expect record.initialization (conflict "missing owned initialization"))
  let canonical ← Fallible.lift (privateContextInitialization sha256 owner initial.messages)
  Fallible.lift (reject (initial ≠ canonical) (conflict "initialization binding differs"))
  let stream := contextStream sha256 owner.privateSessionId
  let rows ← readContext stream
  let expected := contextDraft sha256 owner fact initial
  Fallible.lift (reject (rows ≠ [⟨stream, 1, expected⟩]) (conflict "initialization fact differs"))
  let value : VerifiedPrivateContextInitialization :=
    { initialization := initial, initializationFact := ⟨stream, 1, expected.factId⟩, ownershipFact := fact }
  Fallible.lift (reject (value.toValue.encodedLen > maxBytes) (conflict "initialization proof exceeds host ceiling"))
  return value

end Service

end PrivateContext
end Kolyan
