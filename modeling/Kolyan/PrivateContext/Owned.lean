/-
# What a private Session keeps

Any number of services share a journal and a Session store; their calls for one
private Session interleave operation by operation, die at any point and meet faults
of the journal, the disk and the verifier.  The stream of the Session then holds at
most one fact, and the Session is missing or starts from what that fact was
committed with (`Owned`).  An operation of a call keeps this and leaves the fact and
the Session in place (`Owning.perform`), so does what others do (`Owning.others`),
and an operation of a call for something else changes nothing (`unchanged_of_ne`).
-/

import Kolyan.PrivateContext.Service
import Kolyan.Sessions.History
import Kolyan.Driver.Receipts

namespace Kolyan

/-! ### Messages are told apart by their JSON -/

section Encoding

theorem ImageSource.toValue_inj {a b : ImageSource} : a.toValue = b.toValue ↔ a = b := by
  cases a <;> cases b <;> simp [ImageSource.toValue]

theorem MessageRole.toValue_inj {a b : MessageRole} : a.toValue = b.toValue ↔ a = b := by
  cases a <;> cases b <;> simp [MessageRole.toValue]

theorem eq_of_option_id {a b : Option Value} (ha : a ≠ some .null) (hb : b ≠ some .null)
    (h : Value.option id a = Value.option id b) : a = b := by
  cases a with
  | none =>
    cases b with
    | none => rfl
    | some b => exact absurd (congrArg some h.symm) hb
  | some a =>
    cases b with
    | none => exact absurd (congrArg some h) ha
    | some b => exact congrArg some h

theorem ContentBlock.toValue_inj {a b : ContentBlock} (ha : a.Plain) (hb : b.Plain) (h : a.toValue = b.toValue) : a = b := by
  have htitle : ∀ x y : Option String, Value.option .string x = Value.option .string y ↔ x = y := fun _ _ =>
    Value.option_inj (fun _ _ => by simp) (fun _ => by simp)
  cases a <;> cases b <;>
    simp only [ContentBlock.toValue, Value.object.injEq, List.cons.injEq, Prod.mk.injEq, Value.string.injEq, true_and,
      and_true, String.reduceEq, false_and, and_false] at h
  case text.text => rw [h]
  case image.image => rw [ImageSource.toValue_inj.1 h]
  case document.document => rw [ImageSource.toValue_inj.1 h.1, (htitle _ _).1 h.2]
  case toolCall.toolCall => rw [Policy.ToolCall.toValue_injective h]
  case toolResult.toolResult => rw [ToolResult.toValue_injective h]
  case reasoning.reasoning =>
    have hstate := eq_of_option_id (fun he => ha _ (by rw [he])) (fun he => hb _ (by rw [he])) h.2
    rw [h.1, hstate]

theorem eq_of_map_eq {α β : Type} {f : α → β} {as bs : List α} (hf : ∀ a ∈ as, ∀ b ∈ bs, f a = f b → a = b)
    (h : as.map f = bs.map f) : as = bs := by
  induction as generalizing bs with
  | nil => exact (List.map_eq_nil_iff.1 h.symm).symm
  | cons a as ih =>
    cases bs with
    | nil => exact nomatch h
    | cons b bs =>
      obtain ⟨hhead, htail⟩ := List.cons.inj h
      have hrest := ih (fun x hx y hy => hf x (List.mem_cons_of_mem _ hx) y (List.mem_cons_of_mem _ hy)) htail
      rw [hf a List.mem_cons_self b List.mem_cons_self hhead, hrest]

theorem messagesValue_inj {as bs : List Message} (ha : PlainMessages as) (hb : PlainMessages bs)
    (h : messagesValue as = messagesValue bs) : as = bs := by
  refine eq_of_map_eq (fun a hamem b hbmem hvalue => ?_) (Value.array.inj h)
  obtain ⟨role, content⟩ := a
  obtain ⟨role', content'⟩ := b
  simp only [Message.toValue, Value.object.injEq, List.cons.injEq, Prod.mk.injEq, true_and, and_true, Value.list,
    Value.array.injEq] at hvalue
  obtain ⟨hrole, hcontent⟩ := hvalue
  have hblocks : content = content' :=
    eq_of_map_eq (fun x hx y hy => ContentBlock.toValue_inj (ha _ hamem x hx) (hb _ hbmem y hy)) hcontent
  rw [MessageRole.toValue_inj.1 hrole, hblocks]

end Encoding

namespace PrivateContext

open Checks Threads Facts
open Instances (JournalOp performFact factText isContention)
open Sessions (StorageError SessionInitialization SessionRecord SessionFiles SessionCall Disk Request sessionStore)

/-! ### The services and what surrounds them -/

section World

/-- A journal and a Session store. -/
structure ContextWorld (J : Type) where
  journal : J
  files : SessionFiles

/-- The bytes of the JSON of an initialization. -/
def initializationLen (initialization : SessionInitialization) : ℕ := initialization.toValue.encodedLen

/-- A failure of the journal. -/
def journalFailure (message : String) : (op : JournalOp) → op.Answer
  | .read _ _ _ | .append _ _ _ => .error (.storage message)

variable {J : Type} (P : FactJournal J)

/-- What an operation does when nothing fails. -/
def perform (world : ContextWorld J) : (o : ContextOp) → o.Answer × ContextWorld J
  | .verifyOwner _ _ => (.ok (), world)
  | .journal op => ((performFact P world.journal op).1, { world with journal := (performFact P world.journal op).2 })
  | .session sessionId call =>
    let served := (sessionStore initializationLen).step world.files ⟨sessionId, call, .works⟩
    (served.1, { world with files := served.2 })

/-- What an operation may do: the verifier answers anything, the journal may fail
before or after it did what it was asked for, and so may the disk. -/
def MayAnswer (world : ContextWorld J) : (o : ContextOp) → o.Answer → ContextWorld J → Prop
  | .verifyOwner _ _, _, world' => world' = world
  | .journal op, answer, world' =>
    (answer, world') = perform P world (.journal op) ∨
      (∃ message, answer = journalFailure message op) ∧ (world' = world ∨ world' = (perform P world (.journal op)).2)
  | .session sessionId call, answer, world' => ∃ disk,
    answer = ((sessionStore initializationLen).step world.files ⟨sessionId, call, disk⟩).1 ∧
      world' = { world with files := ((sessionStore initializationLen).step world.files ⟨sessionId, call, disk⟩).2 }

/-- What a private Session is initialized for and with. -/
structure Selection where
  owner : PrivateContextOwner
  fact : FactRef
  messages : List Message

/-- A call of a service. -/
inductive ContextRequest where
  | start (selection : Selection)
  | load (owner : PrivateContextOwner) (fact : FactRef) (maxBytes : ℕ)

/-- The private Session that it is for. -/
def ContextRequest.privateSessionId : ContextRequest → String
  | start selection => selection.owner.privateSessionId
  | load owner _ _ => owner.privateSessionId

/-- What it is answered. -/
inductive ContextAnswer where
  | session (record : SessionRecord)
  | verified (value : VerifiedPrivateContextInitialization)
  deriving DecidableEq

/-- What it runs. -/
def ContextRequest.program (sha256 : Value → String) : ContextRequest → ContextProg ContextAnswer
  | start selection => do
      let record ← initializePrivateContext sha256 selection.owner selection.fact selection.messages
      return .session record
  | load owner fact maxBytes => do
      let value ← loadVerifiedInitialization sha256 owner fact maxBytes
      return .verified value

/-- A call, and the world that it was made in. -/
structure ContextCall (J : Type) where
  request : ContextRequest
  before : ContextWorld J

/-- Somebody else: facts of other streams, calls for other Sessions, and Turns of
this one. -/
inductive Elsewhere (contract : P.Contract) (stream sessionId : String) (world : ContextWorld J) : ContextWorld J → Prop
  | journal {j : J} (hvalid : contract.Valid j) (hrows : contract.rows j stream = contract.rows world.journal stream) :
    Elsewhere contract stream sessionId world { world with journal := j }
  | session {request : Request} (h : request.sessionId = sessionId →
      request.call ≠ .create ∧ ∀ initialization, request.call ≠ .initializeContext initialization) :
    Elsewhere contract stream sessionId world
      { world with files := ((sessionStore initializationLen).step world.files request).2 }

variable {P} (contract : P.Contract) (sha256 : Value → String) (sessionId : String) (lists : Set (List Message))
  (faultless : ℕ → Prop)

/-- Calls for one private Session, some of which meet no faults. -/
def contextRules : Pool.Rules ContextOp ContextOp.Answer (ContextWorld J) (ContextCall J) (Except ServerError ContextAnswer) where
  program call := (call.request.program sha256).run
  starts world call := call.before = world ∧ call.request.privateSessionId = sessionId ∧
    ∀ selection, call.request = .start selection → selection.messages ∈ lists
  act i world o answer world' := MayAnswer P world o answer world' ∧ (faultless i → (answer, world') = perform P world o)
  other := Elsewhere P contract (contextStream sha256 sessionId) sessionId

/-- A world without the private Session. -/
def Unowned (world : ContextWorld J) : Prop :=
  contract.Valid world.journal ∧ contract.rows world.journal (contextStream sha256 sessionId) = [] ∧
    world.files sessionId = none

/-- The calls for a private Session and what they have come to. -/
abbrev ContextPool (J : Type) :=
  Pool ContextOp ContextOp.Answer (ContextWorld J) (ContextCall J) (Except ServerError ContextAnswer)

end World

/-! ### Selections -/

section Selections

variable (sha256 : Value → String)

/-- The initialization of a selection. -/
def Selection.initialization (selection : Selection) : SessionInitialization :=
  boundInitialization sha256 selection.owner selection.messages

/-- The fact that commits it. -/
def Selection.record (selection : Selection) : FactRecord :=
  ⟨contextStream sha256 selection.owner.privateSessionId, 1,
    contextDraft sha256 selection.owner selection.fact (selection.initialization sha256)⟩

/-- What a load answers of it. -/
def Selection.proof (selection : Selection) : VerifiedPrivateContextInitialization where
  initialization := selection.initialization sha256
  initializationFact := ⟨contextStream sha256 selection.owner.privateSessionId, 1,
    contextStream sha256 selection.owner.privateSessionId⟩
  ownershipFact := selection.fact

/-- A Session that starts from it. -/
def Selection.Binds (selection : Selection) (record : SessionRecord) : Prop :=
  record.sessionId = selection.owner.privateSessionId ∧ record.initialization = some (selection.initialization sha256)

/-- A selection for one private Session, with messages of some lists. -/
structure Selection.InPlay (sessionId : String) (lists : Set (List Message)) (selection : Selection) : Prop where
  session : selection.owner.privateSessionId = sessionId
  messages : selection.messages ∈ lists

/-- It passes the checks of the service. -/
def Selection.Valid (selection : Selection) : Prop :=
  privateContextInitialization sha256 selection.owner selection.messages = .ok (selection.initialization sha256)

variable {sha256} {s t : Selection}

theorem privateContextInitialization_eq_ok {owner : PrivateContextOwner} {messages : List Message}
    {initialization : SessionInitialization} (h : privateContextInitialization sha256 owner messages = .ok initialization) :
    initialization = boundInitialization sha256 owner messages ∧ initializationLen initialization ≤ maxContextBytes := by
  simp only [privateContextInitialization, bind_eq_ok, reject_eq_ok, pure_eq_ok, gt_iff_lt, not_lt] at h
  obtain ⟨-, -, -, -, -, hsize, rfl⟩ := h
  exact ⟨rfl, hsize⟩

/-- **A draft names the owner, the ownership fact and the projection.** -/
theorem contextDraft_inj {owner owner' : PrivateContextOwner} {fact fact' : FactRef}
    {initialization initialization' : SessionInitialization}
    (h : contextDraft sha256 owner fact initialization = contextDraft sha256 owner' fact' initialization') :
    owner = owner' ∧ fact = fact' ∧
      sha256 (messagesValue initialization.messages) = sha256 (messagesValue initialization'.messages) := by
  have hpayload := congrArg FactDraft.payload h
  have hcauses := congrArg FactDraft.causes h
  obtain ⟨logical, task, invocation, privateId, snapshot⟩ := owner
  obtain ⟨logical', task', invocation', privateId', snapshot'⟩ := owner'
  simp only [contextDraft, PrivateContextOwner.toValue, Value.canonical, Value.canonicalFields] at hpayload
  simp at hpayload
  obtain ⟨-, ⟨rfl, rfl, rfl, rfl, rfl⟩, hprojection⟩ := hpayload
  exact ⟨rfl, List.singleton_inj.1 hcauses, hprojection⟩

end Selections

/-! ### The Session of an initialization -/

section Store

variable {encodedLen : SessionInitialization → ℕ} {sessionId : String} {initialization : SessionInitialization} {disk : Disk}
  {file file' : Option SessionRecord} {answer : Except StorageError SessionRecord}

theorem serve_load (h : (answer, file') = Request.serve encodedLen ⟨sessionId, .load, disk⟩ file) :
    file' = file ∧ ∀ record, answer = .ok record → file = some record := by
  unfold Request.serve at h
  cases hload : SessionCall.outcome encodedLen disk sessionId file .load with
  | error error =>
    rw [hload] at h
    obtain ⟨rfl, rfl⟩ := Prod.mk.inj h
    exact ⟨rfl, nofun⟩
  | ok outcome =>
    have hkept := hload
    simp only [SessionCall.outcome, Sessions.load, bind_eq_ok, pure_eq_ok] at hkept
    obtain ⟨-, -, -, -, found, hread, rfl⟩ := hkept
    rw [hload] at h
    obtain ⟨rfl, rfl⟩ := Prod.mk.inj h
    exact ⟨rfl, fun record hrecord => Except.ok.inj hrecord ▸ Sessions.read_eq_ok hread⟩

theorem serve_load_works (hpath : Sessions.path sessionId = .ok ()) {record : SessionRecord} :
    Request.serve encodedLen ⟨sessionId, .load, .works⟩ (some record) = (.ok record, some record) := by
  simp [Request.serve, SessionCall.outcome, Sessions.Disk.lock, Sessions.load, hpath, Sessions.read, pure, Except.pure]

/-- An initialization leaves a file as it is, or creates one, and answers a Session
that starts from it. -/
theorem serve_initialization
    (h : (answer, file') = Request.serve encodedLen ⟨sessionId, .initializeContext initialization, disk⟩ file) :
    (file' = file ∨ file = none ∧ Sessions.path sessionId = .ok () ∧
      file' = some (SessionRecord.fresh sessionId (some initialization))) ∧
    ∀ record, answer = .ok record → file' = some record ∧ record.sessionId = sessionId ∧
      record.initialization = some initialization := by
  unfold Request.serve at h
  cases hcall : SessionCall.outcome encodedLen disk sessionId file (.initializeContext initialization) with
  | error error =>
    rw [hcall] at h
    obtain ⟨rfl, rfl⟩ := Prod.mk.inj h
    exact ⟨.inl rfl, fun _ hrecord => by cases hrecord⟩
  | ok outcome =>
    have hdone := hcall
    simp only [SessionCall.outcome, Sessions.initializeContext, bind_eq_ok] at hdone
    obtain ⟨-, -, -, -, _, hpath, hdone⟩ := hdone
    split at hdone
    · next found hread =>
      simp only [bind_eq_ok, reject_eq_ok, pure_eq_ok, not_or, not_not] at hdone
      obtain ⟨-, ⟨hid, hinitialization⟩, rfl⟩ := hdone
      rw [hcall] at h
      obtain ⟨rfl, rfl⟩ := Prod.mk.inj h
      refine ⟨.inl rfl, fun record hrecord => ?_⟩
      obtain rfl := Except.ok.inj hrecord
      exact ⟨Sessions.read_eq_ok hread, hid, hinitialization⟩
    · next hread =>
      obtain rfl := Sessions.file_eq_none_of_read hread
      obtain rfl := Except.ok.inj hdone
      rw [hcall] at h
      obtain ⟨rfl, rfl⟩ := Prod.mk.inj h
      refine ⟨?_, fun record hrecord => ?_⟩
      · cases disk with
        | unwritten fault => exact .inl rfl
        | works | unlocked _ | unreadable _ | unsynced _ => exact .inr ⟨rfl, hpath, rfl⟩
      · cases disk with
        | unwritten fault => cases hrecord
        | unsynced message => cases hrecord
        | works | unlocked _ | unreadable _ =>
          obtain rfl := Except.ok.inj hrecord
          exact ⟨rfl, rfl, rfl⟩
    · cases hdone

theorem serve_initialization_works (hvalid : initialization.validate encodedLen = .ok ())
    (hpath : Sessions.path sessionId = .ok ())
    (hfile : ∀ record, file = some record → record.sessionId = sessionId ∧ record.initialization = some initialization) :
    ∃ record, (Request.serve encodedLen ⟨sessionId, .initializeContext initialization, .works⟩ file).1 = .ok record := by
  cases file with
  | none =>
    refine ⟨SessionRecord.fresh sessionId (some initialization), ?_⟩
    simp [Request.serve, SessionCall.outcome, hvalid, Sessions.Disk.lock, Sessions.initializeContext, hpath, Sessions.read,
      expect, Sessions.write, pure, Except.pure]
  | some record =>
    obtain ⟨hid, hinitialization⟩ := hfile record rfl
    refine ⟨record, ?_⟩
    simp [Request.serve, SessionCall.outcome, hvalid, Sessions.Disk.lock, Sessions.initializeContext, hpath, Sessions.read,
      hid, hinitialization, reject, pure, Except.pure]

theorem serve_turn {request : Request} (hcreate : request.call ≠ .create) {record : SessionRecord} :
    ∃ later, (request.serve encodedLen (some record)).2 = some later ∧ later.sessionId = record.sessionId ∧
      later.initialization = record.initialization := by
  unfold Request.serve
  cases hcall : request.call.outcome encodedLen request.disk request.sessionId (some record) with
  | error error => exact ⟨record, rfl, rfl, rfl⟩
  | ok outcome =>
    cases outcome with
    | kept found => exact ⟨record, rfl, rfl, rfl⟩
    | written found =>
      have hsame : found.sessionId = record.sessionId ∧ found.initialization = record.initialization := by
        have hchange := Sessions.Change.of_written hcall fun h => absurd h hcreate
        generalize request.call = call at hchange
        cases hchange <;> exact ⟨rfl, rfl⟩
      cases hdisk : request.disk with
      | unwritten fault => exact ⟨record, rfl, rfl, rfl⟩
      | works | unlocked _ | unreadable _ | unsynced _ => exact ⟨found, rfl, hsame⟩

theorem serve_turn_none {request : Request} (hcreate : request.call ≠ .create)
    (hinitial : ∀ initialization, request.call ≠ .initializeContext initialization) :
    (request.serve encodedLen none).2 = none := by
  unfold Request.serve
  cases hcall : request.call.outcome encodedLen request.disk request.sessionId none with
  | error error => rfl
  | ok outcome =>
    cases outcome with
    | kept found => rfl
    | written found =>
      have hchange := Sessions.Change.of_written hcall fun h => absurd h hcreate
      generalize hc : request.call = call at hchange
      cases hchange with
      | initialized initialization => exact absurd hc (hinitial initialization)
      | created => exact absurd hc hcreate

end Store

/-! ### What every operation keeps -/

section Invariant

variable {J : Type} {P : FactJournal J} (contract : P.Contract) (sha256 : Value → String) (sessionId : String)
  (lists : Set (List Message))

/-- The stream and the file of a private Session: neither, or the fact of a selection
and a Session that starts from it or is still missing. -/
inductive Ownership (rows : List FactRecord) (file : Option SessionRecord) : Prop
  | free (hrows : rows = []) (hfile : file = none)
  | owned {selection : Selection} (hplay : selection.InPlay sessionId lists) (hvalid : selection.Valid sha256)
    (hrows : rows = [selection.record sha256])
    (hfile : ∀ record, file = some record → selection.Binds sha256 record ∧ Sessions.path sessionId = .ok ())

/-- The rows of the stream of a private Session. -/
abbrev contextRows (world : ContextWorld J) : List FactRecord :=
  contract.rows world.journal (contextStream sha256 sessionId)

/-- A world whose private Session has one owner at most. -/
structure Owned (world : ContextWorld J) : Prop where
  valid : contract.Valid world.journal
  ownership : Ownership sha256 sessionId lists (contextRows contract sha256 sessionId world) (world.files sessionId)

/-- What a call relies on between its operations: a fact stays, and so does a Session. -/
structure Owning (world world' : ContextWorld J) : Prop where
  owned : Owned contract sha256 sessionId lists world'
  fact : contextRows contract sha256 sessionId world ≠ [] →
    contextRows contract sha256 sessionId world' = contextRows contract sha256 sessionId world
  session : world.files sessionId ≠ none → world'.files sessionId ≠ none

/-- The operations of a call: it appends its own fact only, and initializes the
Session only when its own fact is there. -/
def MayAsk (request : ContextRequest) (world : ContextWorld J) : ContextOp → Prop
  | .verifyOwner _ _ => True
  | .journal (.read _ _ _) => True
  | .journal (.append stream expected batch) => ∃ selection, request = .start selection ∧
      selection.InPlay sessionId lists ∧ selection.Valid sha256 ∧ stream = contextStream sha256 sessionId ∧ expected = 0 ∧
        batch = [(selection.record sha256).draft]
  | .session id .load => id = sessionId
  | .session id (.initializeContext initialization) => id = sessionId ∧ ∃ selection, request = .start selection ∧
      selection.InPlay sessionId lists ∧ selection.Valid sha256 ∧ initialization = selection.initialization sha256 ∧
        contextRows contract sha256 sessionId world = [selection.record sha256]
  | .session _ _ => False

variable {contract sha256 sessionId lists} {world world' world'' : ContextWorld J} {request : ContextRequest}
  {selected other : Selection}

theorem record_inj (hcollision : Set.InjOn sha256 (messagesValue '' lists)) (hplain : ∀ messages ∈ lists, PlainMessages messages)
    (hs : selected.InPlay sessionId lists) (ht : other.InPlay sessionId lists)
    (h : selected.record sha256 = other.record sha256) : selected = other := by
  obtain ⟨howner, hfact, hprojection⟩ := contextDraft_inj (congrArg FactRecord.draft h)
  have hvalue : messagesValue selected.messages = messagesValue other.messages :=
    hcollision ⟨_, hs.messages, rfl⟩ ⟨_, ht.messages, rfl⟩ hprojection
  have hmessages := messagesValue_inj (hplain _ hs.messages) (hplain _ ht.messages) hvalue
  obtain ⟨owner, fact, messages⟩ := selected
  obtain ⟨owner', fact', messages'⟩ := other
  dsimp only at howner hfact hmessages
  rw [howner, hfact, hmessages]

theorem Owning.refl (h : Owned contract sha256 sessionId lists world) : Owning contract sha256 sessionId lists world world :=
  ⟨h, fun _ => rfl, id⟩

theorem Owning.trans (h : Owning contract sha256 sessionId lists world world')
    (h' : Owning contract sha256 sessionId lists world' world'') : Owning contract sha256 sessionId lists world world'' where
  owned := h'.owned
  fact hrows := (h'.fact (by rwa [h.fact hrows])).trans (h.fact hrows)
  session hfile := h'.session (h.session hfile)

theorem Owning.rows (h : Owning contract sha256 sessionId lists world world') {record : FactRecord}
    (hrows : contextRows contract sha256 sessionId world = [record]) :
    contextRows contract sha256 sessionId world' = [record] :=
  (h.fact (hrows ▸ List.cons_ne_nil _ _)).trans hrows

theorem Owned.selects (h : Owned contract sha256 sessionId lists world) {record : FactRecord}
    (hrows : contextRows contract sha256 sessionId world = [record]) :
    ∃ selection : Selection, selection.InPlay sessionId lists ∧ selection.Valid sha256 ∧
      record = selection.record sha256 ∧ ∀ record, world.files sessionId = some record →
        selection.Binds sha256 record ∧ Sessions.path sessionId = .ok () := by
  cases h.ownership with
  | free hnone _ => exact absurd (hnone.symm.trans hrows) (by simp)
  | owned hplay hvalid hfact hfile => exact ⟨_, hplay, hvalid, List.singleton_inj.1 (hrows.symm.trans hfact), hfile⟩

theorem Owned.of_session (h : Owned contract sha256 sessionId lists world) {record : SessionRecord}
    (hfile : world.files sessionId = some record) :
    ∃ selection : Selection, selection.InPlay sessionId lists ∧ selection.Valid sha256 ∧
      contextRows contract sha256 sessionId world = [selection.record sha256] ∧ selection.Binds sha256 record ∧
        Sessions.path sessionId = .ok () := by
  cases h.ownership with
  | free _ hnone => exact absurd (hnone.symm.trans hfile) (by simp)
  | owned hplay hvalid hrows hbinds => exact ⟨_, hplay, hvalid, hrows, hbinds record hfile⟩

theorem append_owning (h : Owned contract sha256 sessionId lists world) (hplay : selected.InPlay sessionId lists)
    (hvalid : selected.Valid sha256) :
    Owning contract sha256 sessionId lists world { world with
      journal := (P.append world.journal (contextStream sha256 sessionId) 0 [(selected.record sha256).draft]).2 } := by
  cases happend : P.append world.journal (contextStream sha256 sessionId) 0 [(selected.record sha256).draft] with
  | mk answer j =>
    cases answer with
    | error error =>
      obtain rfl := contract.append_error h.valid happend
      exact .refl h
    | ok records =>
      obtain ⟨hjournal, rfl, ⟨hlength, -, hrows⟩ | ⟨rfl, -⟩⟩ := contract.append_ok h.valid happend
      · have hnil : contextRows contract sha256 sessionId world = [] := List.eq_nil_of_length_eq_zero hlength.symm
        have hnew : contract.rows j (contextStream sha256 sessionId) = [selected.record sha256] := by
          rw [hrows, Function.update_self, show contract.rows world.journal (contextStream sha256 sessionId) = [] from hnil,
            List.nil_append, ← hplay.session]
          rfl
        have hfile : world.files sessionId = none := by
          cases h.ownership with
          | free _ hfile => exact hfile
          | owned _ _ hfact _ => exact absurd (hnil.symm.trans hfact) (by simp)
        exact ⟨⟨hjournal, .owned hplay hvalid hnew fun record hrecord => absurd (hfile.symm.trans hrecord) (by simp)⟩,
          fun hne => absurd hnil hne, fun hne => absurd hfile hne⟩
      · exact .refl h

theorem files_owning (h : Owned contract sha256 sessionId lists world) {files : SessionFiles}
    (hfiles : files sessionId = world.files sessionId) :
    Owning contract sha256 sessionId lists world { world with files := files } where
  owned := by
    refine ⟨h.valid, ?_⟩
    show Ownership sha256 sessionId lists _ (files sessionId)
    exact hfiles ▸ h.ownership
  fact _ := rfl
  session hne := hfiles.trans_ne hne

/-- **An initialization** creates the Session of the fact, if it is missing. -/
theorem initialize_owning (h : Owned contract sha256 sessionId lists world) (hplay : selected.InPlay sessionId lists)
    (hvalid : selected.Valid sha256) (hrows : contextRows contract sha256 sessionId world = [selected.record sha256])
    {disk : Disk} :
    Owning contract sha256 sessionId lists world { world with
      files := ((sessionStore initializationLen).step world.files
        ⟨sessionId, .initializeContext (selected.initialization sha256), disk⟩).2 } := by
  have hserve := (@serve_initialization initializationLen sessionId (selected.initialization sha256) disk (world.files sessionId) _ _
    rfl).1
  have hupdate : ((sessionStore initializationLen).step world.files
      ⟨sessionId, .initializeContext (selected.initialization sha256), disk⟩).2 sessionId = _ := Function.update_self ..
  rcases hserve with hsame | ⟨hnone, hpath, hfresh⟩
  · exact files_owning h (hupdate.trans hsame)
  · refine ⟨⟨h.valid, .owned hplay hvalid hrows fun record hrecord => ?_⟩, fun _ => rfl, fun hne => absurd hnone hne⟩
    obtain rfl := Option.some.inj ((hupdate.trans hfresh).symm.trans hrecord)
    exact ⟨⟨hplay.session.symm, rfl⟩, hpath⟩

theorem load_files {disk : Disk} (files : SessionFiles) :
    ((sessionStore initializationLen).step files ⟨sessionId, .load, disk⟩).2 = files := by
  have hserve := (@serve_load initializationLen sessionId disk (files sessionId) _ _ rfl).1
  exact (congrArg (Function.update files sessionId) hserve).trans (Function.update_eq_self sessionId files)

theorem MayAnswer.journal {op : JournalOp} {answer : op.Answer} (h : MayAnswer P world (.journal op) answer world') :
    world' = world ∨ world' = (perform P world (.journal op)).2 := by
  rcases h with h | ⟨-, h⟩
  · exact .inr (congrArg Prod.snd h)
  · exact h

theorem MayAnswer.read {stream : String} {after limit : ℕ} {answer : (JournalOp.read stream after limit).Answer}
    (h : MayAnswer P world (.journal (.read stream after limit)) answer world') : world' = world :=
  h.journal.elim id id

theorem Owning.perform (h : Owned contract sha256 sessionId lists world) {o : ContextOp}
    (ho : MayAsk contract sha256 sessionId lists request world o) {answer : o.Answer}
    (hact : MayAnswer P world o answer world') : Owning contract sha256 sessionId lists world world' := by
  match o with
  | .verifyOwner _ _ =>
    obtain rfl : world' = world := hact
    exact .refl h
  | .journal (.read _ _ _) =>
    obtain rfl := hact.read
    exact .refl h
  | .journal (.append _ _ _) =>
    obtain ⟨s, -, hplay, hvalid, rfl, rfl, rfl⟩ := ho
    rcases hact.journal with rfl | rfl
    · exact .refl h
    · exact append_owning h hplay hvalid
  | .session _ .load =>
    obtain rfl := ho
    obtain ⟨disk, -, rfl⟩ := hact
    exact files_owning h (congrFun (load_files world.files) _)
  | .session _ (.initializeContext _) =>
    obtain ⟨rfl, s, -, hplay, hvalid, rfl, hrows⟩ := ho
    obtain ⟨disk, -, rfl⟩ := hact
    exact initialize_owning h hplay hvalid hrows

theorem Owning.others (h : Owned contract sha256 sessionId lists world)
    (hother : Elsewhere P contract (contextStream sha256 sessionId) sessionId world world') :
    Owning contract sha256 sessionId lists world world' := by
  cases hother with
  | @journal j hvalid hrows =>
    refine ⟨⟨hvalid, ?_⟩, fun _ => hrows, id⟩
    show Ownership sha256 sessionId lists (contract.rows j _) _
    exact hrows.symm ▸ h.ownership
  | @session request hturn =>
    by_cases hid : request.sessionId = sessionId
    · obtain ⟨hcreate, hinitial⟩ := hturn hid
      have hupdate : ((sessionStore initializationLen).step world.files request).2 sessionId =
          (request.serve initializationLen (world.files sessionId)).2 := by
        rw [← hid]
        exact Function.update_self ..
      cases hfile : world.files sessionId with
      | none =>
        rw [hfile, serve_turn_none hcreate hinitial] at hupdate
        exact files_owning h (hupdate.trans hfile.symm)
      | some record =>
        obtain ⟨later, hlater, hsame⟩ := @serve_turn initializationLen request hcreate record
        rw [hfile, hlater] at hupdate
        obtain ⟨s, hplay, hvalid, hrows, ⟨hbinds, hinitialization⟩, hpath⟩ := h.of_session hfile
        refine ⟨⟨h.valid, .owned hplay hvalid hrows fun found hfound => ?_⟩, fun _ => rfl, fun _ => ?_⟩
        · obtain rfl := Option.some.inj (hupdate.symm.trans hfound)
          exact ⟨⟨hsame.1.trans hbinds, hsame.2.trans hinitialization⟩, hpath⟩
        · exact hupdate.trans_ne (Option.some_ne_none later)
    · exact files_owning h (Function.update_of_ne (Ne.symm hid) _ _)

theorem unchanged_of_ne (hcollision : Set.InjOn sha256 (messagesValue '' lists))
    (hplain : ∀ messages ∈ lists, PlainMessages messages) (h : Owned contract sha256 sessionId lists world)
    (hplay : other.InPlay sessionId lists) (hrows : contextRows contract sha256 sessionId world = [other.record sha256])
    (hne : request ≠ .start other) {o : ContextOp} (ho : MayAsk contract sha256 sessionId lists request world o)
    {answer : o.Answer} (hact : MayAnswer P world o answer world') : world' = world := by
  match o with
  | .verifyOwner _ _ => exact hact
  | .journal (.read _ _ _) => exact hact.read
  | .journal (.append _ _ _) =>
    obtain ⟨s, -, -, -, rfl, rfl, rfl⟩ := ho
    rcases hact.journal with rfl | rfl
    · rfl
    · cases happend : P.append world.journal (contextStream sha256 sessionId) 0 [(s.record sha256).draft] with
      | mk answer j =>
        have hsame : j = world.journal := by
          cases answer with
          | error error => exact contract.append_error h.valid happend
          | ok records =>
            obtain ⟨-, -, ⟨hlength, -, -⟩ | ⟨hsame, -⟩⟩ := contract.append_ok h.valid happend
            · have hone := congrArg List.length hrows
              rw [← hlength] at hone
              exact nomatch hone
            · exact hsame
        show { world with journal := (P.append world.journal _ 0 _).2 } = world
        rw [happend, hsame]
  | .session _ .load =>
    obtain rfl := ho
    obtain ⟨disk, -, rfl⟩ := hact
    rw [load_files]
  | .session _ (.initializeContext _) =>
    obtain ⟨rfl, s, hs, hmine, -, rfl, hmineRows⟩ := ho
    have hsame := record_inj hcollision hplain hmine hplay (List.singleton_inj.1 (hmineRows.symm.trans hrows))
    exact absurd (hsame ▸ hs) hne

end Invariant

end PrivateContext
end Kolyan
