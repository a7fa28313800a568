/-
# A private context has one owner

What the calls of the services come to on top of what every operation keeps.
`ends_initialization` and `ends_load` say it of one call among the others, in the world
that it was made in: which answers it may give, and which ones it must give when it
meets no faults.  `private_context_has_one_owner` reads the promises of the service
off the pools of all runs.
-/

import Kolyan.Facts.Exact
import Kolyan.PrivateContext.Owned

namespace Kolyan
namespace PrivateContext

open Checks Threads Facts
open Instances (JournalOp performFact factText isContention)
open Sessions (StorageError SessionInitialization SessionRecord SessionFiles SessionCall Disk Request sessionStore)

/-! ### What a call comes to among the others -/

section Calls

variable {J : Type} {P : FactJournal J} (contract : P.Contract) (sha256 : Value → String) (sessionId : String)
  (lists : Set (List Message)) (calm : Prop)

/-- A call among others; a calm one meets no faults. -/
def contextSetting (request : ContextRequest) : Setting ContextOp ContextOp.Answer (ContextWorld J) where
  act world o answer world' := MayAnswer P world o answer world' ∧ (calm → (answer, world') = perform P world o)
  rely := Owning contract sha256 sessionId lists
  allow := MayAsk contract sha256 sessionId lists request

/-- The proof of an initialization fits a ceiling that a load accepts. -/
def Selection.Fits (selection : Selection) (maxBytes : ℕ) : Prop :=
  1 ≤ maxBytes ∧ maxBytes ≤ maxContextBytes ∧ (selection.proof sha256).toValue.encodedLen ≤ maxBytes

/-- What an initialization that was called in a world comes to. -/
def Initialized (before : ContextWorld J) (selection : Selection) (world : ContextWorld J) :
    Except ServerError SessionRecord → Prop
  | .ok record => contextRows contract sha256 sessionId world = [selection.record sha256] ∧ selection.Binds sha256 record ∧
      world.files sessionId ≠ none
  | .error _ => ¬(calm ∧ contextRows contract sha256 sessionId before = [selection.record sha256] ∧
      Sessions.path sessionId = .ok ())

/-- A selection that is committed, with its Session, for an owner and an ownership fact. -/
structure Loadable (world : ContextWorld J) (owner : PrivateContextOwner) (fact : FactRef) (maxBytes : ℕ)
    (selection : Selection) : Prop where
  owner : selection.owner = owner
  fact : selection.fact = fact
  play : selection.InPlay sessionId lists
  rows : contextRows contract sha256 sessionId world = [selection.record sha256]
  fits : selection.Fits sha256 maxBytes

/-- What a load that was called in a world comes to. -/
def LoadedContext (before : ContextWorld J) (owner : PrivateContextOwner) (fact : FactRef) (maxBytes : ℕ)
    (world : ContextWorld J) : Except ServerError VerifiedPrivateContextInitialization → Prop
  | .ok value => ∃ selection, Loadable contract sha256 sessionId lists world owner fact maxBytes selection ∧
      value = selection.proof sha256
  | .error _ => ¬(calm ∧ before.files sessionId ≠ none ∧
      ∃ selection, Loadable contract sha256 sessionId lists before owner fact maxBytes selection)

/-- What a call comes to. -/
def Answered (call : ContextCall J) (answer : Except ServerError ContextAnswer) (world : ContextWorld J) : Prop :=
  match call.request, answer with
  | .start selection, .ok (.session record) =>
    Initialized contract sha256 sessionId calm call.before selection world (.ok record)
  | .start selection, .error error =>
    Initialized contract sha256 sessionId calm call.before selection world (.error error)
  | .load owner fact maxBytes, .ok (.verified value) =>
    LoadedContext contract sha256 sessionId lists calm call.before owner fact maxBytes world (.ok value)
  | .load owner fact maxBytes, .error error =>
    LoadedContext contract sha256 sessionId lists calm call.before owner fact maxBytes world (.error error)
  | _, .ok _ => False

variable {contract sha256 sessionId lists calm} {world before : ContextWorld J} {request : ContextRequest}

theorem Answered.stable {call : ContextCall J} {answer : Except ServerError ContextAnswer} {world' : ContextWorld J}
    (h : Answered contract sha256 sessionId lists calm call answer world)
    (hworld : Owning contract sha256 sessionId lists world world') :
    Answered contract sha256 sessionId lists calm call answer world' := by
  unfold Answered at h ⊢
  cases hrequest : call.request with
  | start selection =>
    rw [hrequest] at h
    match answer, h with
    | .ok (.session record), ⟨hrows, hbinds, hfile⟩ => exact ⟨hworld.rows hrows, hbinds, hworld.session hfile⟩
    | .error error, h => exact h
  | load owner fact maxBytes =>
    rw [hrequest] at h
    match answer, h with
    | .ok (.verified value), ⟨selection, hloadable, hvalue⟩ =>
      exact ⟨selection, { hloadable with rows := hworld.rows hloadable.rows }, hvalue⟩
    | .error error, h => exact h

section Operations

variable {α : Type} {Q : Except ServerError α → ContextWorld J → Prop}

theorem ends_verifyOwner {owner : PrivateContextOwner} {fact : FactRef}
    {Q : Except ServerError Unit → ContextWorld J → Prop}
    (hok : ∀ world', Owning contract sha256 sessionId lists world world' → Q (.ok ()) world')
    (herror : ∀ world' error, ¬calm → Q (.error error) world') :
    Prog.Ends (contextSetting contract sha256 sessionId lists calm request) (verifyOwner owner fact).run Q world := by
  rintro world' hworld
  refine ⟨trivial, fun answer world'' ⟨hanswer, hcalm⟩ => ?_⟩
  obtain rfl : world'' = world' := hanswer
  cases answer with
  | ok u => exact hok _ hworld
  | error error => exact herror _ error fun h => nomatch congrArg Prod.fst (hcalm h)

/-- A read answers the fact of the stream, unless the journal fails. -/
theorem ends_readContext (hstream : Facts.identity (contextStream sha256 sessionId) = .ok ())
    {Q : Except ServerError (List FactRecord) → ContextWorld J → Prop}
    (hok : ∀ world', Owning contract sha256 sessionId lists world world' →
      Q (.ok (contextRows contract sha256 sessionId world')) world')
    (herror : ∀ world' error, ¬calm → Q (.error error) world') :
    Prog.Ends (contextSetting contract sha256 sessionId lists calm request)
      (readContext (contextStream sha256 sessionId)).run Q world := by
  refine Fallible.ends_mapError ?_
  rintro world' hworld
  refine ⟨trivial, fun answer world'' hboth => ?_⟩
  obtain ⟨hanswer, hcalm⟩ := hboth
  obtain rfl := hanswer.read
  have hvalid : validateRead (contextStream sha256 sessionId) 2 = .ok () := by
    rw [validateRead, hstream, ok_bind, reject_of_not (by omega)]
  obtain ⟨page, hpage, ⟨later, hlater⟩, -, hnonempty⟩ := contract.read_ok hworld.owned.valid hvalid 0
  -- the stream has one fact at most, so the page is all of it
  have hall : page = contextRows contract sha256 sessionId world'' := by
    rw [List.drop_zero] at hlater hnonempty
    change page ++ later = contextRows contract sha256 sessionId world'' at hlater
    change contextRows contract sha256 sessionId world'' ≠ [] → page ≠ [] at hnonempty
    cases hworld.owned.ownership with
    | free hrows _ =>
      rw [hrows] at hlater ⊢
      exact (List.append_eq_nil_iff.1 hlater).1
    | owned _ _ hrows _ =>
      have hne := hnonempty (by rw [hrows]; exact List.cons_ne_nil _ _)
      rw [hrows] at hlater ⊢
      obtain ⟨hnil, -⟩ | ⟨hone, -⟩ := List.append_eq_singleton_iff.1 hlater
      · exact absurd hnil hne
      · exact hone
  cases answer with
  | ok found =>
    have hfound : found = page := by
      rcases hanswer with hperform | ⟨⟨message, hfailed⟩, -⟩
      · exact Except.ok.inj ((congrArg Prod.fst hperform).trans hpage)
      · cases hfailed
    rw [hfound, hall]
    exact hok _ hworld
  | error error =>
    refine herror _ _ fun h => ?_
    cases (congrArg Prod.fst (hcalm h)).trans hpage

theorem ends_appendContext {selection : Selection} (hrequest : request = .start selection)
    (hplay : selection.InPlay sessionId lists) (hvalid : selection.Valid sha256)
    {Q : Except ServerError (Except FactError (List FactRecord)) → ContextWorld J → Prop}
    (hok : ∀ world' answer, Owning contract sha256 sessionId lists world world' → Q (.ok answer) world') :
    Prog.Ends (contextSetting contract sha256 sessionId lists calm request)
      (appendContext (contextStream sha256 sessionId) (selection.record sha256).draft).run Q world := by
  refine Fallible.ends_attempt ?_
  rintro world' hworld
  have hmay : MayAsk contract sha256 sessionId lists request world'
      (.journal (.append (contextStream sha256 sessionId) 0 [(selection.record sha256).draft])) :=
    ⟨selection, hrequest, hplay, hvalid, rfl, rfl, rfl⟩
  exact ⟨hmay, fun answer world'' ⟨hanswer, _⟩ => hok world'' answer
    (hworld.trans (Owning.perform hworld.owned hmay hanswer))⟩

/-- An initialization of the Session, where it may be asked for, answers a Session
that starts from the selection. -/
theorem ends_initializeSession (hcollision : Set.InjOn sha256 (messagesValue '' lists))
    (hplain : ∀ messages ∈ lists, PlainMessages messages) (hhex : ∀ value, isLowerDigest (sha256 value) = true)
    {selection : Selection} (hrequest : request = .start selection) (hplay : selection.InPlay sessionId lists) (hvalid : selection.Valid sha256)
    (hrows : contextRows contract sha256 sessionId world = [selection.record sha256])
    {Q : Except ServerError SessionRecord → ContextWorld J → Prop}
    (hok : ∀ world' record, Owning contract sha256 sessionId lists world world' → selection.Binds sha256 record →
      world'.files sessionId = some record → Q (.ok record) world')
    (herror : ∀ world' error, (calm → Sessions.path sessionId ≠ .ok ()) → Q (.error error) world') :
    Prog.Ends (contextSetting contract sha256 sessionId lists calm request)
      (callSession sessionId (.initializeContext (selection.initialization sha256))).run Q world := by
  refine Fallible.ends_mapError ?_
  rintro world' hworld
  have hmay : MayAsk contract sha256 sessionId lists request world'
      (.session sessionId (.initializeContext (selection.initialization sha256))) :=
    ⟨rfl, selection, hrequest, hplay, hvalid, rfl, hworld.rows hrows⟩
  refine ⟨hmay, fun answer world'' ⟨hanswer, hcalm⟩ => ?_⟩
  have howning := hworld.trans (Owning.perform hworld.owned hmay hanswer)
  obtain ⟨disk, rfl, rfl⟩ := hanswer
  have hserve := (@serve_initialization initializationLen sessionId (selection.initialization sha256) disk
    (world'.files sessionId) _ _ rfl).2
  cases hanswer : ((sessionStore initializationLen).step world'.files
      ⟨sessionId, .initializeContext (selection.initialization sha256), disk⟩).1 with
  | ok record =>
    obtain ⟨hfile, hid, hinitialization⟩ := hserve record hanswer
    refine hok _ record howning ⟨hid.trans hplay.session.symm, hinitialization⟩ ?_
    exact (Function.update_self ..).trans hfile
  | error error =>
    refine herror _ _ fun h hpath => ?_
    have hbounded := (privateContextInitialization_eq_ok hvalid).2
    have hdigest := hhex (bindingValue selection.owner (sha256 (messagesValue selection.messages)))
    simp only [isLowerDigest, Bool.and_eq_true, decide_eq_true_eq] at hdigest
    have hchecked : (selection.initialization sha256).validate initializationLen = .ok () := by
      have hdigit : ¬((selection.initialization sha256).bindingDigest.utf8ByteSize ≠ 64 ∨
          (selection.initialization sha256).bindingDigest.toList.all Tasks.isLowerHexDigit = false) := by
        rintro (hsize | hlower)
        · exact hsize hdigest.1
        · exact absurd (hdigest.2.symm.trans hlower) (by decide)
      have hsize : ¬initializationLen (selection.initialization sha256) > Sessions.maxInitializationBytes := not_lt.2 hbounded
      rw [SessionInitialization.validate, reject_of_not hdigit, ok_bind, reject_of_not hsize]
    have hbinds : ∀ record, world'.files sessionId = some record → record.sessionId = sessionId ∧
        record.initialization = some (selection.initialization sha256) := by
      intro record hrecord
      obtain ⟨owner, hplay', -, hfact, hbinds, -⟩ := hworld.owned.of_session hrecord
      have hsame := record_inj hcollision hplain hplay' hplay
        (List.singleton_inj.1 (hfact.symm.trans (hworld.rows hrows)))
      exact ⟨hbinds.1.trans hplay'.session, hsame ▸ hbinds.2⟩
    obtain ⟨record, hrecord⟩ := serve_initialization_works hchecked hpath hbinds
    have hdone : .error error = Except.ok record := by
      rw [← hanswer, ← hrecord]
      exact congrArg Prod.fst (hcalm h)
    exact nomatch hdone

theorem ends_loadSession {Q : Except ServerError SessionRecord → ContextWorld J → Prop}
    (hok : ∀ world' record, Owning contract sha256 sessionId lists world world' →
      world'.files sessionId = some record → Q (.ok record) world')
    (herror : ∀ world' error, (calm → world.files sessionId = none) → Q (.error error) world') :
    Prog.Ends (contextSetting contract sha256 sessionId lists calm request) (callSession sessionId .load).run Q world := by
  refine Fallible.ends_mapError ?_
  rintro world' hworld
  refine ⟨rfl, fun answer world'' ⟨hanswer, hcalm⟩ => ?_⟩
  obtain ⟨disk, rfl, rfl⟩ := hanswer
  have hsame : ({ world' with files := ((sessionStore initializationLen).step world'.files
      ⟨sessionId, .load, disk⟩).2 } : ContextWorld J) = world' := by rw [load_files]
  rw [hsame] at hcalm ⊢
  have hserve := (@serve_load initializationLen sessionId disk (world'.files sessionId) _ _ rfl).2
  cases hanswer : ((sessionStore initializationLen).step world'.files ⟨sessionId, .load, disk⟩).1 with
  | ok record => exact hok _ record hworld (hserve record hanswer)
  | error error =>
    refine herror _ _ fun h => by_contra fun hne => ?_
    obtain ⟨record, hrecord⟩ := Option.ne_none_iff_exists'.1 (hworld.session hne)
    obtain ⟨-, -, -, -, -, hpath⟩ := hworld.owned.of_session hrecord
    have hdone : .error error = Except.ok record := by
      rw [← hanswer]
      refine (congrArg Prod.fst (hcalm h)).trans ?_
      show (Request.serve initializationLen ⟨sessionId, .load, .works⟩ (world'.files sessionId)).1 = _
      rw [hrecord, serve_load_works hpath]
    exact nomatch hdone

end Operations

section Programs

variable (hcollision : Set.InjOn sha256 (messagesValue '' lists)) (hplain : ∀ messages ∈ lists, PlainMessages messages)
  (hhex : ∀ value, isLowerDigest (sha256 value) = true)

include hhex in
theorem identity_contextStream : Facts.identity (contextStream sha256 sessionId) = .ok () := by
  have hsize := hhex (.array [.string "kolyan.server.private-context.owner.v1", .string sessionId])
  rw [isLowerDigest, Bool.and_eq_true, decide_eq_true_eq] at hsize
  refine Facts.identity_append (by decide +kernel) ?_
  rw [hsize.1]
  decide +kernel

include hcollision hplain hhex

/-- **An initialization** answers the Session of its own fact, or an error; it is no
error if it is calm and its fact was there. -/
theorem ends_initialization {selection : Selection} (hbefore : Owned contract sha256 sessionId lists before)
    (hplay : selection.InPlay sessionId lists) :
    Prog.Ends (contextSetting contract sha256 sessionId lists calm (.start selection))
      (initializePrivateContext sha256 selection.owner selection.fact selection.messages).run
      (fun answer world => Initialized contract sha256 sessionId calm before selection world answer) before := by
  obtain rfl := hplay.session
  have hstream : Facts.identity (contextStream sha256 selection.owner.privateSessionId) = .ok () :=
    identity_contextStream hhex
  refine Fallible.ends_bind (Fallible.ends_lift ?_)
  cases hchecked : privateContextInitialization sha256 selection.owner selection.messages with
  | error error =>
    -- a fact is only committed for a selection that passes the checks
    rintro ⟨-, hrows, -⟩
    obtain ⟨owner, hplay', hvalid, hfact, -⟩ := hbefore.selects hrows
    obtain rfl := record_inj hcollision hplain hplay hplay' hfact
    exact nomatch hchecked.symm.trans hvalid
  | ok initialization =>
    obtain ⟨rfl, -⟩ := privateContextInitialization_eq_ok hchecked
    refine Fallible.ends_bind (ends_verifyOwner (fun w₁ h₁ => ?_) fun _ _ hfault h => hfault h.1)
    refine Fallible.ends_bind (ends_readContext hstream (fun w₂ h₂ => ?_) fun _ _ hfault h => hfault h.1)
    have hw₂ := h₁.trans h₂
    -- what follows the append, or the first read where a fact was found
    have hrest : ∀ w, Owning contract sha256 selection.owner.privateSessionId lists before w →
        Prog.Ends (contextSetting contract sha256 selection.owner.privateSessionId lists calm (.start selection)) (do
            let saved ← readContext (contextStream sha256 selection.owner.privateSessionId)
            Fallible.lift (reject (saved ≠ [selection.record sha256])
              (conflict "private context ownership/projection fact differs"))
            callSession selection.owner.privateSessionId
              (.initializeContext (selection.initialization sha256)) : ContextProg SessionRecord).run
          (fun answer world =>
            Initialized contract sha256 selection.owner.privateSessionId calm before selection world answer) w := by
      intro w hw
      refine Fallible.ends_bind (ends_readContext hstream (fun w₃ h₃ => ?_) fun _ _ hfault h => hfault h.1)
      by_cases hrows : contextRows contract sha256 selection.owner.privateSessionId w₃ = [selection.record sha256]
      · refine Fallible.ends_bind_lift (reject_of_not (not_not.2 hrows)) ?_
        refine ends_initializeSession hcollision hplain hhex rfl hplay hchecked hrows (fun w₄ record h₄ hbinds hfile => ?_)
          fun _ _ herror h => herror h.1 h.2.2
        exact ⟨h₄.rows hrows, hbinds, hfile.trans_ne (Option.some_ne_none record)⟩
      · exact Fallible.ends_bind_error (reject_of hrows) fun h => hrows ((hw.trans h₃).rows h.2.1)
    dsimp only
    by_cases hempty : contextRows contract sha256 selection.owner.privateSessionId w₂ = []
    · rw [if_pos hempty]
      refine Fallible.ends_bind (ends_appendContext rfl hplay hchecked fun w₃ answer h₃ => ?_)
      cases hsettle : settleAppend answer with
      | error error =>
        -- the stream was empty, so the fact was not there before
        refine Fallible.ends_bind_error hsettle ?_
        rintro ⟨-, hrows, -⟩
        exact absurd (hempty.symm.trans (hw₂.rows hrows)) (by simp)
      | ok u => exact Fallible.ends_bind_lift hsettle (hrest w₃ (hw₂.trans h₃))
    · rw [if_neg hempty]
      exact hrest w₂ hw₂

/-- **A load** answers what is committed, for the owner and the ownership fact that it
is committed for, or an error; it is no error if it is calm and the Session was there. -/
theorem ends_load {owner : PrivateContextOwner} {fact : FactRef} {maxBytes : ℕ} (howner : owner.privateSessionId = sessionId) :
    Prog.Ends (contextSetting contract sha256 sessionId lists calm (.load owner fact maxBytes))
      (loadVerifiedInitialization sha256 owner fact maxBytes).run
      (fun answer world => LoadedContext contract sha256 sessionId lists calm before owner fact maxBytes world answer)
      before := by
  obtain rfl := howner
  have hstream : Facts.identity (contextStream sha256 owner.privateSessionId) = .ok () := identity_contextStream hhex
  by_cases hceiling : maxBytes = 0 ∨ maxBytes > maxContextBytes
  · refine Fallible.ends_bind_error (reject_of hceiling) ?_
    rintro ⟨-, -, selection, hloadable⟩
    obtain ⟨hpos, hmax, -⟩ := hloadable.fits
    omega
  refine Fallible.ends_bind_lift (reject_of_not hceiling) ?_
  refine Fallible.ends_bind (ends_verifyOwner (fun w₁ h₁ => ?_) fun _ _ hfault h => hfault h.1)
  refine Fallible.ends_bind (ends_loadSession (fun w₂ record h₂ hrecord => ?_) fun _ _ hnone h =>
    h₁.session h.2.1 (hnone h.1))
  obtain ⟨committed, hplay, hvalid, hrows, ⟨hid, hinitialization⟩, -⟩ := h₂.owned.of_session hrecord
  -- whoever was committed before is the one that is found
  have hfound : ∀ selection, Loadable contract sha256 owner.privateSessionId lists before owner fact maxBytes selection →
      selection = committed := fun selection hloadable =>
    record_inj hcollision hplain hloadable.play hplay
      (List.singleton_inj.1 (((h₁.trans h₂).rows hloadable.rows).symm.trans hrows))
  refine Fallible.ends_bind_lift (reject_of_not (not_not.2 (hid.trans hplay.session))) ?_
  refine Fallible.ends_bind_lift (expect_eq_ok.2 hinitialization) ?_
  refine Fallible.ends_bind (Fallible.ends_lift ?_)
  cases hchecked : privateContextInitialization sha256 owner (committed.initialization sha256).messages with
  | error error =>
    rintro ⟨-, -, selection, hloadable⟩
    obtain rfl := hfound selection hloadable
    obtain rfl := hloadable.owner
    exact nomatch hchecked.symm.trans hvalid
  | ok canonical =>
    obtain ⟨rfl, -⟩ := privateContextInitialization_eq_ok hchecked
    by_cases hcanonical : committed.initialization sha256 =
        boundInitialization sha256 owner (committed.initialization sha256).messages
    case neg =>
      refine Fallible.ends_bind_error (reject_of hcanonical) ?_
      rintro ⟨-, -, selection, hloadable⟩
      obtain rfl := hfound selection hloadable
      obtain rfl := hloadable.owner
      exact hcanonical rfl
    refine Fallible.ends_bind_lift (reject_of_not (not_not.2 hcanonical)) ?_
    refine Fallible.ends_bind (ends_readContext hstream (fun w₃ h₃ => ?_) fun _ _ hfault h => hfault h.1)
    rw [h₃.rows hrows]
    by_cases hdraft : [committed.record sha256] = [⟨contextStream sha256 owner.privateSessionId, 1,
        contextDraft sha256 owner fact (committed.initialization sha256)⟩]
    case neg =>
      refine Fallible.ends_bind_error (reject_of hdraft) ?_
      rintro ⟨-, -, selection, hloadable⟩
      obtain rfl := hfound selection hloadable
      obtain rfl := hloadable.owner
      obtain rfl := hloadable.fact
      exact hdraft rfl
    refine Fallible.ends_bind_lift (reject_of_not (not_not.2 hdraft)) ?_
    obtain ⟨rfl, rfl, -⟩ := contextDraft_inj (congrArg FactRecord.draft (List.singleton_inj.1 hdraft))
    by_cases hsize : (committed.proof sha256).toValue.encodedLen > maxBytes
    · refine Fallible.ends_bind_error (reject_of hsize) ?_
      rintro ⟨-, -, selection, hloadable⟩
      obtain rfl := hfound selection hloadable
      exact absurd hloadable.fits.2.2 (not_le.2 hsize)
    · refine Fallible.ends_bind_lift (reject_of_not hsize) ?_
      have hpos : 1 ≤ maxBytes := Nat.pos_of_ne_zero fun h => hceiling (.inl h)
      have hmax : maxBytes ≤ maxContextBytes := not_lt.1 fun h => hceiling (.inr h)
      exact ⟨committed, ⟨rfl, rfl, hplay, h₃.rows hrows, hpos, hmax, not_lt.1 hsize⟩, rfl⟩

theorem ends_program {call : ContextCall J} (hbefore : Owned contract sha256 sessionId lists call.before)
    (hsession : call.request.privateSessionId = sessionId)
    (hlists : ∀ selection, call.request = .start selection → selection.messages ∈ lists) :
    Prog.Ends (contextSetting contract sha256 sessionId lists calm call.request) (call.request.program sha256).run
      (Answered contract sha256 sessionId lists calm call) call.before := by
  obtain ⟨request, before⟩ := call
  cases request with
  | start selection =>
    have hplay : selection.InPlay sessionId lists := ⟨hsession, hlists selection rfl⟩
    refine Fallible.ends_bind ((ends_initialization hcollision hplain hhex hbefore hplay).mono fun answer world h => ?_)
    cases answer with
    | ok record => exact h
    | error error => exact h
  | load owner fact maxBytes =>
    refine Fallible.ends_bind ((ends_load hcollision hplain hhex hsession).mono fun answer world h => ?_)
    cases answer with
    | ok value => exact h
    | error error => exact h

end Programs

end Calls

/-! ### All runs -/

section Pools

variable {J : Type} {P : FactJournal J} (contract : P.Contract) (sha256 : Value → String) (sessionId : String)
  (lists : Set (List Message)) (faultless : ℕ → Prop)

/-- A call that is on its way from the world that it was made in. -/
structure ContextUnderway (i : ℕ) (call : ContextCall J) (p : Prog ContextOp ContextOp.Answer (Except ServerError ContextAnswer))
    (world : ContextWorld J) : Prop where
  play : ∀ selection, call.request = .start selection → selection.InPlay sessionId lists
  owned : Owned contract sha256 sessionId lists call.before
  since : Owning contract sha256 sessionId lists call.before world
  ends : Prog.Ends (contextSetting contract sha256 sessionId lists (faultless i) call.request) p
    (Answered contract sha256 sessionId lists (faultless i) call) world

/-- **One owner.**  The initializations that succeed are one and the same selection;
one for something else than what is committed is refused and changes nothing; one that
repeats what is committed succeeds when it meets no faults, with the Session there; a
load answers what is committed, and one that meets no faults does so for exactly the
owner and the ownership fact that it is committed for, within its ceiling. -/
structure OneOwner (pool : ContextPool J) : Prop where
  owned : Owned contract sha256 sessionId lists pool.world
  agree : ∀ (i k : ℕ) (c d : ContextCall J) (s t : Selection) (r r' : SessionRecord), pool.calls[i]? = some (c, .done (.ok (.session r))) →
    pool.calls[k]? = some (d, .done (.ok (.session r'))) → c.request = .start s → d.request = .start t →
      s = t ∧ s.Binds sha256 r ∧ s.Binds sha256 r' ∧ contextRows contract sha256 sessionId pool.world = [s.record sha256]
  refused : ∀ committed : Selection, committed.InPlay sessionId lists →
    contextRows contract sha256 sessionId pool.world = [committed.record sha256] → ∀ (i : ℕ) (c : ContextCall J) p (s : Selection),
      pool.calls[i]? = some (c, p) → c.request = .start s → s ≠ committed → (∀ a, p ≠ .done (.ok a)) ∧
        ∀ next, Pool.Advances (contextRules contract sha256 sessionId lists faultless) i pool next → next.world = pool.world
  repeated : ∀ (i : ℕ) (c : ContextCall J) p (s : Selection), pool.calls[i]? = some (c, p) → c.request = .start s → faultless i →
    contextRows contract sha256 sessionId c.before = [s.record sha256] → Sessions.path sessionId = .ok () →
      p ≠ .halt ∧ ∀ a, p = .done a → ∃ r stored, a = .ok (.session r) ∧ s.Binds sha256 r ∧
        pool.world.files sessionId = some stored ∧ s.Binds sha256 stored
  answered : ∀ (i : ℕ) (c : ContextCall J) v owner fact maxBytes, pool.calls[i]? = some (c, .done (.ok (.verified v))) →
    c.request = .load owner fact maxBytes → ∃ s,
      Loadable contract sha256 sessionId lists pool.world owner fact maxBytes s ∧ v = s.proof sha256
  loaded : ∀ (i : ℕ) (c : ContextCall J) p owner fact maxBytes, pool.calls[i]? = some (c, p) → c.request = .load owner fact maxBytes →
    faultless i → c.before.files sessionId ≠ none → p ≠ .halt ∧ ∀ a, p = .done a →
      ((∃ v, a = .ok (.verified v)) ↔ ∃ s, Loadable contract sha256 sessionId lists c.before owner fact maxBytes s)

variable {contract sha256 sessionId lists faultless}

theorem Unowned.owned {world : ContextWorld J} (h : Unowned contract sha256 sessionId world) :
    Owned contract sha256 sessionId lists world :=
  ⟨h.1, .free h.2.1 h.2.2⟩

theorem ContextUnderway.interfere {i : ℕ} {call : ContextCall J}
    {p : Prog ContextOp ContextOp.Answer (Except ServerError ContextAnswer)} {world world' : ContextWorld J}
    (h : ContextUnderway contract sha256 sessionId lists faultless i call p world)
    (hworld : Owning contract sha256 sessionId lists world world') :
    ContextUnderway contract sha256 sessionId lists faultless i call p world' where
  play := h.play
  owned := h.owned
  since := h.since.trans hworld
  ends := h.ends.interfere (fun _ _ _ => Owning.trans) (fun _ _ _ => Answered.stable) hworld

section Runs

variable (hcollision : Set.InjOn sha256 (messagesValue '' lists)) (hplain : ∀ messages ∈ lists, PlainMessages messages)
  (hhex : ∀ value, isLowerDigest (sha256 value) = true)

include hcollision hplain hhex

theorem context_keeps : Pool.Keeps (contextRules contract sha256 sessionId lists faultless)
    (fun _ => Owned contract sha256 sessionId lists) (ContextUnderway contract sha256 sessionId lists faultless) := by
  constructor
  case starts =>
    rintro n call world hworld ⟨hbefore, hsession, hlists⟩
    subst hbefore
    refine ⟨hworld, fun selection hs => ⟨?_, hlists selection hs⟩, hworld, .refl hworld,
      ends_program hcollision hplain hhex hworld hsession hlists⟩
    rw [← hsession, hs]
    rfl
  case own =>
    intro n i call o next answer world world' hworld _ h hact
    obtain ⟨hallow, hnext⟩ := h.ends world (.refl hworld)
    have howning := Owning.perform hworld hallow hact.1
    exact ⟨howning.owned, h.play, h.owned, h.since.trans howning, hnext answer world' hact⟩
  case harmless =>
    intro n i k call other o next p answer world world' hne hworld h hact hp
    obtain ⟨hallow, -⟩ := h.ends world (.refl hworld)
    exact hp.interfere (Owning.perform hworld hallow hact.1)
  case other =>
    intro n world world' hworld hother
    have howning := Owning.others hworld hother
    exact ⟨howning.owned, fun _ _ _ h => h.interfere howning⟩

omit hhex in
theorem Loadable.before {world before : ContextWorld J} {owner : PrivateContextOwner} {fact : FactRef} {maxBytes : ℕ}
    {selection : Selection} (h : Loadable contract sha256 sessionId lists world owner fact maxBytes selection)
    (howned : Owned contract sha256 sessionId lists before) (hfile : before.files sessionId ≠ none)
    (hsince : Owning contract sha256 sessionId lists before world) :
    Loadable contract sha256 sessionId lists before owner fact maxBytes selection := by
  obtain ⟨record, hrecord⟩ := Option.ne_none_iff_exists'.1 hfile
  obtain ⟨committed, hplay, -, hrows, -, -⟩ := howned.of_session hrecord
  obtain rfl := record_inj hcollision hplain hplay h.play (List.singleton_inj.1 ((hsince.rows hrows).symm.trans h.rows))
  exact { h with rows := hrows }

/-- **A private context has one owner**, in every run of any number of services. -/
theorem private_context_has_one_owner {pool : ContextPool J}
    (h : Pool.Reach (contextRules contract sha256 sessionId lists faultless) (Unowned contract sha256 sessionId) pool) :
    OneOwner contract sha256 sessionId lists faultless pool := by
  have hinvariant := h.invariant (context_keeps hcollision hplain hhex) fun _ => Unowned.owned
  have hplay : ∀ i (c : ContextCall J) p s, pool.calls[i]? = some (c, p) → c.request = .start s → s.InPlay sessionId lists :=
    fun i c p s hi hs => (hinvariant.calls i c p hi).play s hs
  have hanswered : ∀ i (c : ContextCall J) r s, pool.calls[i]? = some (c, .done (.ok (.session r))) → c.request = .start s →
      Initialized contract sha256 sessionId (faultless i) c.before s pool.world (.ok r) := by
    intro i c r s hi hs
    have hcall := (hinvariant.calls i c _ hi).ends
    simp only [Prog.Ends, Answered, hs] at hcall
    exact hcall
  constructor
  case owned => exact hinvariant.world
  case agree =>
    intro i k c d s t r r' hi hk hs ht
    obtain ⟨hrows, hbinds, -⟩ := hanswered i c r s hi hs
    obtain ⟨hrows', hbinds', -⟩ := hanswered k d r' t hk ht
    obtain rfl := record_inj hcollision hplain (hplay i c _ s hi hs) (hplay k d _ t hk ht)
      (List.singleton_inj.1 (hrows.symm.trans hrows'))
    exact ⟨rfl, hbinds, hbinds', hrows⟩
  case refused =>
    intro committed hcommitted hrows i c p s hi hs hne
    constructor
    · rintro a rfl
      have hcall := (hinvariant.calls i c _ hi).ends
      simp only [Prog.Ends, Answered, hs] at hcall
      match a, hcall with
      | .session r, ⟨hmine, _⟩ =>
        exact hne (record_inj hcollision hplain (hplay i c _ s hi hs) hcommitted
          (List.singleton_inj.1 (hmine.symm.trans hrows)))
    · rintro next ⟨c', o, continuation, answer, world, hask, hact, rfl⟩
      obtain ⟨rfl, rfl⟩ := Prod.mk.inj (Option.some.inj (hi.symm.trans hask))
      obtain ⟨hallow, -⟩ := (hinvariant.calls i c _ hi).ends _ (.refl hinvariant.world)
      refine unchanged_of_ne hcollision hplain hinvariant.world hcommitted hrows ?_ hallow hact.1
      rw [hs]
      exact fun h => hne (ContextRequest.start.inj h)
  case repeated =>
    intro i c p s hi hs hfaultless hrows hpath
    have hcall := hinvariant.calls i c p hi
    constructor
    · rintro rfl
      exact hcall.ends
    · rintro a rfl
      have hends := hcall.ends
      simp only [Prog.Ends, Answered, hs] at hends
      match a, hends with
      | .error error, hends => exact absurd ⟨hfaultless, hrows, hpath⟩ hends
      | .ok (.session r), ⟨hmine, hbinds, hfile⟩ =>
        obtain ⟨stored, hstored⟩ := Option.ne_none_iff_exists'.1 hfile
        obtain ⟨committed, hcommitted, -, hfact, hstarts, -⟩ := hinvariant.world.of_session hstored
        obtain rfl := record_inj hcollision hplain hcommitted (hplay i c _ s hi hs)
          (List.singleton_inj.1 (hfact.symm.trans hmine))
        exact ⟨r, stored, rfl, hbinds, hstored, hstarts⟩
  case answered =>
    intro i c v owner fact maxBytes hi hrequest
    have hcall := (hinvariant.calls i c _ hi).ends
    simp only [Prog.Ends, Answered, hrequest] at hcall
    exact hcall
  case loaded =>
    intro i c p owner fact maxBytes hi hrequest hfaultless hfile
    have hcall := hinvariant.calls i c p hi
    constructor
    · rintro rfl
      exact hcall.ends
    · rintro a rfl
      have hends := hcall.ends
      simp only [Prog.Ends, Answered, hrequest] at hends
      match a, hends with
      | .error error, hends =>
        exact ⟨fun ⟨v, hv⟩ => (nomatch hv), fun hloadable => absurd ⟨hfaultless, hfile, hloadable⟩ hends⟩
      | .ok (.verified v), ⟨s, hloadable, hv⟩ =>
        exact ⟨fun _ => ⟨s, hloadable.before hcollision hplain hcall.owned hfile hcall.since⟩, fun _ => ⟨v, rfl⟩⟩

end Runs

end Pools

/-! ### Two Sessions -/

section Examples

def sampleDigest (value : Value) : String :=
  String.ofList (List.replicate 64 (if value = messagesValue [assistantMessage []] then 'b' else 'a'))

def sampleLists : Set (List Message) := {[], [assistantMessage []]}

def ownershipFact : FactRef := ⟨"owner", 1, "ownership"⟩

def sampleSelection (privateSessionId : String) : Selection where
  owner := ⟨"logical", "task", "child", privateSessionId, String.ofList (List.replicate 64 'a')⟩
  fact := ownershipFact
  messages := []

def ownershipWorld : ContextWorld MemoryState where
  journal := (memoryJournal.append MemoryState.empty "owner" 0
    [⟨"ownership", ⟨"test.owner", "child"⟩, "test.exact-owner", 1, true, [], .null⟩]).2
  files _ := none

def callAll (pool : ContextPool MemoryState) : List ContextRequest → Option (ContextPool MemoryState)
  | [] => some pool
  | request :: requests => do
      let (answer, world) ← (request.program sampleDigest).run.run (perform memoryJournal) pool.world
      callAll ⟨world, pool.calls ++ [(⟨request, pool.world⟩, .done answer)]⟩ requests

def answerOf : ContextCall MemoryState × Prog ContextOp ContextOp.Answer (Except ServerError ContextAnswer) →
    Option (Except ServerError ContextAnswer)
  | (_, .done answer) => some answer
  | _ => none

theorem mayAnswer_perform {J : Type} {P : FactJournal J} (world : ContextWorld J) (o : ContextOp) :
    MayAnswer P world o (perform P world o).1 (perform P world o).2 := by
  match o with
  | .verifyOwner _ _ => rfl
  | .journal _ => exact .inl rfl
  | .session _ _ => exact ⟨.works, rfl, rfl⟩

theorem reach_callAll {sessionId : String} {requests : List ContextRequest} {pool last : ContextPool MemoryState}
    (hrequests : ∀ request ∈ requests, request.privateSessionId = sessionId ∧
      ∀ selection, request = .start selection → selection.messages ∈ sampleLists)
    (h : Pool.Reach (contextRules memoryContract sampleDigest sessionId sampleLists fun _ => True)
      (Unowned memoryContract sampleDigest sessionId) pool) (hlast : callAll pool requests = some last) :
    Pool.Reach (contextRules memoryContract sampleDigest sessionId sampleLists fun _ => True)
      (Unowned memoryContract sampleDigest sessionId) last := by
  induction requests generalizing pool with
  | nil => exact Option.some.inj hlast ▸ h
  | cons request requests ih =>
    obtain ⟨⟨answer, world⟩, hrun, hlast⟩ := Option.bind_eq_some_iff.1 hlast
    obtain ⟨hsession, hlists⟩ := hrequests request List.mem_cons_self
    have hact : ∀ (i : ℕ) (s : ContextWorld MemoryState) (o : ContextOp),
        (contextRules memoryContract sampleDigest sessionId sampleLists fun _ => True).act i s o
          (perform memoryJournal s o).1 (perform memoryJournal s o).2 := fun _ s o => ⟨mayAnswer_perform s o, fun _ => rfl⟩
    have hstarts : (contextRules memoryContract sampleDigest sessionId sampleLists fun _ => True).starts pool.world
        ⟨request, pool.world⟩ := ⟨rfl, hsession, hlists⟩
    have hcalled := h.call_alone hact hstarts hrun
    exact ih (fun later hlater => hrequests later (List.mem_cons_of_mem _ hlater)) hcalled hlast

theorem sampleDigest_hex (value : Value) : isLowerDigest (sampleDigest value) = true := by
  unfold sampleDigest
  split_ifs
  · decide +kernel
  · decide +kernel

theorem sampleLists_injOn : Set.InjOn sampleDigest (messagesValue '' sampleLists) := by
  have hne : sampleDigest (messagesValue []) ≠ sampleDigest (messagesValue [assistantMessage []]) := by decide +kernel
  rintro _ ⟨as, rfl | rfl, rfl⟩ _ ⟨bs, rfl | rfl, rfl⟩ h
  · rfl
  · exact absurd h hne
  · exact absurd h.symm hne
  · rfl

theorem sampleLists_plain : ∀ messages ∈ sampleLists, PlainMessages messages := by
  rintro _ (rfl | rfl) message hmessage block hblock
  · exact absurd hmessage List.not_mem_nil
  · obtain rfl := List.mem_singleton.1 hmessage
    exact absurd hblock List.not_mem_nil

theorem unowned_ownershipWorld {sessionId : String}
    (h : memoryContract.rows ownershipWorld.journal (contextStream sampleDigest sessionId) = []) :
    Unowned memoryContract sampleDigest sessionId ownershipWorld := by
  refine ⟨?_, h, rfl⟩
  cases happend : memoryJournal.append MemoryState.empty "owner" 0
      [⟨"ownership", ⟨"test.owner", "child"⟩, "test.exact-owner", 1, true, [], .null⟩] with
  | mk answer j =>
    have hj : ownershipWorld.journal = j := congrArg Prod.snd happend
    rw [hj]
    cases answer with
    | error error => exact memoryContract.append_error MemoryState.valid_empty happend ▸ MemoryState.valid_empty
    | ok records => exact (memoryContract.append_ok MemoryState.valid_empty happend).1

theorem private_context_has_one_owner_sample : ∃ pool : ContextPool MemoryState,
    pool.calls.map answerOf = [
      some (.ok (.session (Sessions.SessionRecord.fresh "private"
        (some ((sampleSelection "private").initialization sampleDigest))))),
      some (.ok (.verified ((sampleSelection "private").proof sampleDigest)))] ∧
    OneOwner memoryContract sampleDigest "private" sampleLists (fun _ => True) pool := by
  have hran : ((callAll ⟨ownershipWorld, []⟩ [.start (sampleSelection "private"),
      .load (sampleSelection "private").owner ownershipFact 4096]).map fun pool => pool.calls.map answerOf) = some [
      some (.ok (.session (Sessions.SessionRecord.fresh "private"
        (some ((sampleSelection "private").initialization sampleDigest))))),
      some (.ok (.verified ((sampleSelection "private").proof sampleDigest)))] := by decide +kernel
  obtain ⟨pool, hpool, hanswers⟩ := Option.map_eq_some_iff.1 hran
  have hrequests : ∀ request ∈ [ContextRequest.start (sampleSelection "private"),
      .load (sampleSelection "private").owner ownershipFact 4096], request.privateSessionId = "private" ∧
        ∀ selection, request = .start selection → selection.messages ∈ sampleLists := by
    intro request hrequest
    rcases List.mem_pair.1 hrequest with rfl | rfl
    · exact ⟨rfl, fun selection h => ContextRequest.start.inj h ▸ .inl rfl⟩
    · exact ⟨rfl, nofun⟩
  have hreach := reach_callAll hrequests (.initial (unowned_ownershipWorld (by decide +kernel))) hpool
  exact ⟨pool, hanswers, private_context_has_one_owner sampleLists_injOn sampleLists_plain sampleDigest_hex hreach⟩

/-- A load whose ceiling is below the proof, an id that names no file, and messages
that JSON does not tell apart are outside the promises. -/
theorem not_private_context_has_one_owner :
    (∃ pool : ContextPool MemoryState, callAll ⟨ownershipWorld, []⟩ [.start (sampleSelection "private"),
        .load (sampleSelection "private").owner ownershipFact 64] = some pool ∧
      Pool.Reach (contextRules memoryContract sampleDigest "private" sampleLists fun _ => True)
        (Unowned memoryContract sampleDigest "private") pool ∧
      pool.world.files "private" = some (Sessions.SessionRecord.fresh "private"
        (some ((sampleSelection "private").initialization sampleDigest))) ∧
      (pool.calls.map answerOf)[1]? = some (some (.error (conflict "initialization proof exceeds host ceiling")))) ∧
    (∃ pool : ContextPool MemoryState, callAll ⟨ownershipWorld, []⟩ [.start (sampleSelection ".."),
        .start (sampleSelection "..")] = some pool ∧
      contextRows memoryContract sampleDigest ".." pool.world = [(sampleSelection "..").record sampleDigest] ∧
      pool.calls.map answerOf = [some (.error (.session .invalidId)), some (.error (.session .invalidId))]) ∧
    ∀ text owner fact, (⟨owner, fact, [assistantMessage [.reasoning text none]]⟩ : Selection) ≠
        ⟨owner, fact, [assistantMessage [.reasoning text (some .null)]]⟩ ∧
      (⟨owner, fact, [assistantMessage [.reasoning text none]]⟩ : Selection).record sampleDigest =
        (⟨owner, fact, [assistantMessage [.reasoning text (some .null)]]⟩ : Selection).record sampleDigest := by
  refine ⟨?_, ?_, fun text owner fact => ⟨by simp [assistantMessage], rfl⟩⟩
  · have hran : ((callAll ⟨ownershipWorld, []⟩ [.start (sampleSelection "private"),
        .load (sampleSelection "private").owner ownershipFact 64]).map fun pool =>
          (pool.world.files "private", (pool.calls.map answerOf)[1]?)) =
        some (some (Sessions.SessionRecord.fresh "private" (some ((sampleSelection "private").initialization sampleDigest))),
          some (some (.error (conflict "initialization proof exceeds host ceiling")))) := by decide +kernel
    obtain ⟨pool, hpool, hresult⟩ := Option.map_eq_some_iff.1 hran
    obtain ⟨hfile, hanswer⟩ := Prod.mk.inj hresult
    have hrequests : ∀ request ∈ [ContextRequest.start (sampleSelection "private"),
        .load (sampleSelection "private").owner ownershipFact 64], request.privateSessionId = "private" ∧
          ∀ selection, request = .start selection → selection.messages ∈ sampleLists := by
      intro request hrequest
      rcases List.mem_pair.1 hrequest with rfl | rfl
      · exact ⟨rfl, fun selection h => ContextRequest.start.inj h ▸ .inl rfl⟩
      · exact ⟨rfl, nofun⟩
    have hreach := reach_callAll hrequests (.initial (unowned_ownershipWorld (by decide +kernel))) hpool
    exact ⟨pool, hpool, hreach, hfile, hanswer⟩
  · have hran : ((callAll ⟨ownershipWorld, []⟩ [.start (sampleSelection ".."), .start (sampleSelection "..")]).map fun pool =>
          (contextRows memoryContract sampleDigest ".." pool.world, pool.calls.map answerOf)) =
        some ([(sampleSelection "..").record sampleDigest],
          [some (.error (.session .invalidId)), some (.error (.session .invalidId))]) := by decide +kernel
    obtain ⟨pool, hpool, hresult⟩ := Option.map_eq_some_iff.1 hran
    obtain ⟨hrows, hanswers⟩ := Prod.mk.inj hresult
    exact ⟨pool, hpool, hrows, hanswers⟩

end Examples

end PrivateContext
end Kolyan
