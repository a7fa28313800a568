/-
# The history of a Session

What every run of the calls of a Session store keeps.  A run is noted as the list
of the messages that its calls contribute to a Session (`contributions`): those
of a commit that closes a Turn, and those that a Turn is appended with.  Both
histories of a record are its initial messages followed by these contributions,
and a commit contributes once however often it is retried (`Accounted`).  What a
record says of a closed Turn stays, and while a Turn is open neither history grows
(`Extends`).
-/

import Kolyan.Sessions.Store
import Kolyan.Lib.OrderedMaps

namespace Kolyan
namespace Sessions

open Checks
open Driver (SessionTurn SessionTurnStatus)

/-- The messages that one call adds to the histories of a Session: a commit of the
end of a Turn, or a Turn appended with messages. -/
structure Contribution where
  turnId : String
  appended : Bool
  status : SessionTurnStatus
  messages : List Message
  context : List Message

/-- The contribution of a call that a file changed in. -/
def SessionCall.contribution : SessionCall → List Contribution
  | .updateTurnWithContext turnId status messages context =>
    if isOpen status then [] else [{ turnId, appended := false, status, messages, context }]
  | .appendTurn turn messages =>
    [{ turnId := turn.turnId, appended := true, status := turn.status, messages, context := messages }]
  | _ => []

/-- What a request contributes to a Session: nothing if its file stays as it is. -/
def noteContribution (sessionId : String) (files : SessionFiles) (request : Request) (files' : SessionFiles) :
    List Contribution :=
  if files' sessionId = files sessionId then [] else request.call.contribution

/-- A suspension commits no messages, no update makes a Turn run again, and a
Session is created where the file system says whether it exists. -/
def Request.Regular (request : Request) : Prop :=
  match request.call with
  | .updateTurnWithContext _ status messages context =>
    status ≠ .running ∧ (status = .suspended → messages = [] ∧ context = [])
  | .create => ∀ fault, request.disk ≠ .unreadable fault
  | _ => True

/-- The messages that a Session starts from. -/
def SessionRecord.initialMessages (record : SessionRecord) : List Message := record.initialization.elim [] (·.messages)

/-- What the record of a Session has to do with the contributions so far. -/
structure Accounted (log : List Contribution) (record : SessionRecord) : Prop where
  oneOpen : ∀ a ∈ record.turns, ∀ b ∈ record.turns, isOpen a.status → isOpen b.status → a = b
  turnIds : (record.turns.map (·.turnId)).Nodup
  executionIds : (record.turns.map (·.executionId)).Nodup
  messages : record.messages = record.initialMessages ++ log.flatMap (·.messages)
  context : record.contextMessages = record.initialMessages ++ log.flatMap (·.context)
  once : (log.map fun c => (c.turnId, c.appended)).Nodup
  known : ∀ c ∈ log, c.turnId ∈ record.turns.map (·.turnId)
  closed : ∀ c ∈ log, c.appended = false → isOpen c.status = false ∧
    record.commits[c.turnId]? = some c.messages ∧ record.contextCommits[c.turnId]? = some c.context ∧
      ∀ turn ∈ record.turns, turn.turnId = c.turnId → turn.status = c.status
  logged : ∀ turn ∈ record.turns, isOpen turn.status = false → turn.turnId ∈ record.commits →
    ∃ c ∈ log, c.turnId = turn.turnId ∧ c.appended = false
  commitsKnown : ∀ turnId ∈ record.commits, turnId ∈ record.turns.map (·.turnId)
  inputsKnown : ∀ turnId ∈ record.inputs, turnId ∈ record.turns.map (·.turnId)
  input : ∀ turn ∈ record.turns, isOpen turn.status → ∀ input, record.inputs[turn.turnId]? = some input →
    input.historyLen = (record.history input.contextPolicy).length

/-- A later record of the same Session. -/
structure Extends (record later : SessionRecord) : Prop where
  initialization : later.initialization = record.initialization
  messages : record.messages <+: later.messages
  context : record.contextMessages <+: later.contextMessages
  turnIds : record.turns.map (·.turnId) <+: later.turns.map (·.turnId)
  closed : ∀ turn ∈ record.turns, isOpen turn.status = false → turn ∈ later.turns ∧
    later.commits[turn.turnId]? = record.commits[turn.turnId]? ∧
      later.contextCommits[turn.turnId]? = record.contextCommits[turn.turnId]?
  inputs : ∀ turn ∈ record.turns, later.inputs[turn.turnId]? = record.inputs[turn.turnId]?
  stays : ∀ turn ∈ later.turns, isOpen turn.status → turn.turnId ∈ record.turns.map (·.turnId) →
    (∃ item ∈ record.turns, item.turnId = turn.turnId ∧ isOpen item.status) ∧
      later.messages = record.messages ∧ later.contextMessages = record.contextMessages

section Changes

/-- What a call makes of a file that it changes. -/
inductive Change (sessionId : String) : Option SessionRecord → SessionCall → SessionRecord → Prop
  | initialized (initialization : SessionInitialization) :
    Change sessionId none (.initializeContext initialization) (.fresh sessionId (some initialization))
  | created : Change sessionId none .create (.fresh sessionId none)
  | begun {record : SessionRecord} {turn : SessionTurn} (hfree : record.clashes turn = false) :
    Change sessionId (some record) (.beginTurn turn) (record.push turn)
  | begunWith {record : SessionRecord} {turn : SessionTurn} {messages : List Message} {policy : SessionContextPolicy}
    (hfree : record.clashes turn = false) :
    Change sessionId (some record) (.beginTurnWithProjection turn record.version messages policy)
      ((record.withInput turn.turnId messages policy).push turn)
  | committed {record : SessionRecord} {turn : SessionTurn} {turnId : String} {status : SessionTurnStatus}
    {messages context : List Message} (hturn : record.turns.find? (·.turnId = turnId) = some turn)
    (hopen : isOpen turn.status = true) :
    Change sessionId (some record) (.updateTurnWithContext turnId status messages context)
      (record.commit turnId status messages context)
  | appended {record : SessionRecord} {turn : SessionTurn} {messages : List Message}
    (hfree : record.clashes turn = false) :
    Change sessionId (some record) (.appendTurn turn messages) (record.append turn messages)

variable {encodedLen : SessionInitialization → ℕ} {disk : Disk} {sessionId : String} {file : Option SessionRecord}
  {record : SessionRecord}

theorem read_eq_ok (h : read disk sessionId file = .ok record) : file = some record := by
  unfold read at h
  split at h
  · exact nomatch h
  · exact expect_eq_ok.1 h

theorem file_eq_none_of_read {id : String} (h : read disk sessionId file = .error (.notFound id)) : file = none := by
  unfold read at h
  split at h
  · exact nomatch h
  · cases file with
    | none => rfl
    | some record => exact nomatch h

theorem Change.of_written {call : SessionCall} (h : call.outcome encodedLen disk sessionId file = .ok (.written record))
    (hcreate : call = .create → ∀ fault, disk ≠ .unreadable fault) : Change sessionId file call record := by
  cases call with
  | initializeContext initialization =>
    simp only [SessionCall.outcome, Sessions.initializeContext, bind_eq_ok] at h
    obtain ⟨-, -, -, -, -, -, h⟩ := h
    split at h
    · simp only [bind_eq_ok, pure_eq_ok, reduceCtorEq, and_false, exists_false] at h
    · next hread =>
      obtain rfl := file_eq_none_of_read hread
      cases h
      exact .initialized initialization
    · cases h
  | create =>
    simp only [SessionCall.outcome, create, bind_eq_ok, reject_eq_ok, pure_eq_ok, Outcome.written.injEq] at h
    obtain ⟨-, -, -, -, -, hthere, rfl⟩ := h
    cases file with
    | none => exact .created
    | some there =>
      refine absurd ?_ hthere
      cases disk with
      | unreadable fault => exact absurd rfl (hcreate rfl fault)
      | works | unlocked _ | unwritten _ | unsynced _ => rfl
  | load => simp only [SessionCall.outcome, load, bind_eq_ok, pure_eq_ok, reduceCtorEq, and_false, exists_false] at h
  | beginTurn turn =>
    simp only [SessionCall.outcome, beginTurn, bind_eq_ok, reject_eq_ok, pure_eq_ok, Outcome.written.injEq,
      Bool.not_eq_true] at h
    obtain ⟨-, -, -, -, found, hread, -, hfree, rfl⟩ := h
    obtain rfl := read_eq_ok hread
    exact .begun hfree
  | beginTurnWithProjection turn expectedVersion messages policy =>
    simp only [SessionCall.outcome, beginTurn, bind_eq_ok, reject_eq_ok, pure_eq_ok, Outcome.written.injEq,
      Bool.not_eq_true, not_not] at h
    obtain ⟨-, -, -, -, found, hread, -, hfree, -, rfl, rfl⟩ := h
    obtain rfl := read_eq_ok hread
    exact .begunWith hfree
  | updateTurnWithContext turnId status messages context =>
    simp only [SessionCall.outcome, updateTurnWithContext, bind_eq_ok, expect_eq_ok] at h
    obtain ⟨-, -, -, -, found, hread, turn, hturn, h⟩ := h
    obtain rfl := read_eq_ok hread
    split at h
    · cases h
    · simp only [bind_eq_ok, reject_eq_ok, pure_eq_ok, Outcome.written.injEq, Bool.not_eq_false] at h
      obtain ⟨-, hopen, rfl⟩ := h
      exact .committed hturn hopen
  | appendTurn turn messages =>
    simp only [SessionCall.outcome, appendTurn, bind_eq_ok, reject_eq_ok, pure_eq_ok, Outcome.written.injEq,
      Bool.not_eq_true] at h
    obtain ⟨-, -, -, -, found, hread, -, hfree, rfl⟩ := h
    obtain rfl := read_eq_ok hread
    exact .appended hfree

end Changes

section Turns

variable {turnId : String} {status : SessionTurnStatus} {turns : List SessionTurn} {turn : SessionTurn}
  {record : SessionRecord}

theorem map_turnId_setStatus (turns : List SessionTurn) : (setStatus turnId status turns).map (·.turnId) = turns.map (·.turnId) := by
  induction turns with
  | nil => rfl
  | cons item turns ih =>
    rw [setStatus]
    split_ifs
    · rfl
    · exact congrArg (item.turnId :: ·) ih

theorem map_executionId_setStatus (turns : List SessionTurn) :
    (setStatus turnId status turns).map (·.executionId) = turns.map (·.executionId) := by
  induction turns with
  | nil => rfl
  | cons item turns ih =>
    rw [setStatus]
    split_ifs
    · rfl
    · exact congrArg (item.executionId :: ·) ih

theorem mem_setStatus (hnodup : (turns.map (·.turnId)).Nodup) {item : SessionTurn} :
    item ∈ setStatus turnId status turns ↔
      item ∈ turns ∧ item.turnId ≠ turnId ∨ ∃ turn ∈ turns, turn.turnId = turnId ∧ item = { turn with status } := by
  induction turns with
  | nil => simp [setStatus]
  | cons first turns ih =>
    obtain ⟨hfirst, hrest⟩ := List.nodup_cons.1 hnodup
    rw [setStatus]
    split_ifs with hid
    · subst hid
      have hother : ∀ turn ∈ turns, turn.turnId ≠ first.turnId := fun turn hturn he =>
        hfirst (List.mem_map.2 ⟨turn, hturn, he⟩)
      constructor
      · intro hitem
        rcases List.mem_cons.1 hitem with rfl | hitem
        · exact .inr ⟨first, List.mem_cons_self, rfl, rfl⟩
        · exact .inl ⟨List.mem_cons_of_mem _ hitem, hother item hitem⟩
      · rintro (⟨hitem, hne⟩ | ⟨turn, hturn, he, rfl⟩)
        · exact List.mem_cons_of_mem _ ((List.mem_cons.1 hitem).resolve_left fun he => hne (he ▸ rfl))
        · rcases List.mem_cons.1 hturn with rfl | hturn
          · exact List.mem_cons_self
          · exact absurd he (hother turn hturn)
    · rw [List.mem_cons, ih hrest]
      constructor
      · rintro (rfl | ⟨hitem, hne⟩ | ⟨turn, hturn, he, rfl⟩)
        · exact .inl ⟨List.mem_cons_self, hid⟩
        · exact .inl ⟨List.mem_cons_of_mem _ hitem, hne⟩
        · exact .inr ⟨turn, List.mem_cons_of_mem _ hturn, he, rfl⟩
      · rintro (⟨hitem, hne⟩ | ⟨turn, hturn, he, rfl⟩)
        · exact (List.mem_cons.1 hitem).imp id fun hitem => .inl ⟨hitem, hne⟩
        · rcases List.mem_cons.1 hturn with rfl | hturn
          · exact absurd he hid
          · exact .inr (.inr ⟨turn, hturn, he, rfl⟩)

theorem clashes_eq_false : record.clashes turn = false ↔
    ∀ item ∈ record.turns, item.turnId ≠ turn.turnId ∧ item.executionId ≠ turn.executionId ∧
      isOpen item.status = false := by
  simp only [SessionRecord.clashes, List.any_eq_false, Bool.or_eq_true, decide_eq_true_eq, not_or,
    Bool.not_eq_true, and_assoc]

theorem fresh_turnId (h : record.clashes turn = false) : turn.turnId ∉ record.turns.map (·.turnId) := by
  rintro hmem
  obtain ⟨item, hitem, he⟩ := List.mem_map.1 hmem
  exact (clashes_eq_false.1 h item hitem).1 he

theorem fresh_executionId (h : record.clashes turn = false) :
    turn.executionId ∉ record.turns.map (·.executionId) := by
  rintro hmem
  obtain ⟨item, hitem, he⟩ := List.mem_map.1 hmem
  exact (clashes_eq_false.1 h item hitem).2.1 he

theorem Accounted.eq_of_turnId {log : List Contribution} (h : Accounted log record) {a b : SessionTurn}
    (ha : a ∈ record.turns) (hb : b ∈ record.turns) (he : a.turnId = b.turnId) : a = b :=
  List.inj_on_of_nodup_map h.turnIds ha hb he

end Turns

section Steps

variable {sessionId : String} {log : List Contribution} {record : SessionRecord}

theorem Accounted.fresh (initialization : Option SessionInitialization) :
    Accounted [] (.fresh sessionId initialization) where
  oneOpen _ ha := absurd ha List.not_mem_nil
  turnIds := List.nodup_nil
  executionIds := List.nodup_nil
  messages := (List.append_nil _).symm
  context := (List.append_nil _).symm
  once := List.nodup_nil
  known _ hc := absurd hc List.not_mem_nil
  closed _ hc := absurd hc List.not_mem_nil
  logged _ hturn := absurd hturn List.not_mem_nil
  commitsKnown _ hid := absurd hid Std.ExtTreeMap.not_mem_empty
  inputsKnown _ hid := absurd hid Std.ExtTreeMap.not_mem_empty
  input _ hturn := absurd hturn List.not_mem_nil

/-- A record with a Turn more, its input and its messages. -/
def SessionRecord.grown (record : SessionRecord) (turn : SessionTurn) (inputs : Std.ExtTreeMap String SessionTurnInput)
    (entries : List Contribution) : SessionRecord :=
  { record with
    turns := record.turns ++ [turn]
    inputs
    messages := record.messages ++ entries.flatMap (·.messages)
    contextMessages := record.contextMessages ++ entries.flatMap (·.context)
    version := record.version + 1 }

/-- The inputs of a record with a Turn more: those of the other Turns stay, and a
Turn with an input comes without messages. -/
structure NewInput (record : SessionRecord) (turn : SessionTurn) (inputs : Std.ExtTreeMap String SessionTurnInput)
    (entries : List Contribution) : Prop where
  others : ∀ turnId, turnId ≠ turn.turnId → inputs[turnId]? = record.inputs[turnId]?
  own : ∀ input, inputs[turn.turnId]? = some input →
    entries = [] ∧ input.historyLen = (record.history input.contextPolicy).length

theorem Accounted.grown (h : Accounted log record) {turn : SessionTurn} (hfree : record.clashes turn = false)
    {inputs : Std.ExtTreeMap String SessionTurnInput} {entries : List Contribution}
    (hinputs : NewInput record turn inputs entries) (hentries : (entries.map fun c => (c.turnId, c.appended)).Nodup)
    (hnew : ∀ c ∈ entries, c.turnId = turn.turnId ∧ c.appended = true) :
    Accounted (log ++ entries) (record.grown turn inputs entries) := by
  have hclosed : ∀ item ∈ record.turns, isOpen item.status = false := fun item hitem =>
    (clashes_eq_false.1 hfree item hitem).2.2
  have hfresh := fresh_turnId hfree
  have hids : (record.turns ++ [turn]).map (·.turnId) = record.turns.map (·.turnId) ++ [turn.turnId] :=
    List.map_append
  have hlast : ∀ item ∈ record.turns ++ [turn], isOpen item.status → item = turn := by
    intro item hitem hopen
    rcases List.mem_append.1 hitem with hitem | hitem
    · exact absurd hopen (by simp [hclosed item hitem])
    · exact List.mem_singleton.1 hitem
  constructor
  case oneOpen =>
    intro a ha b hb hopena hopenb
    rw [hlast a ha hopena, hlast b hb hopenb]
  case turnIds =>
    show ((record.turns ++ [turn]).map (·.turnId)).Nodup
    rw [hids]
    refine List.nodup_append.2 ⟨h.turnIds, List.nodup_singleton _, fun a ha b hb he => ?_⟩
    rw [he, List.mem_singleton.1 hb] at ha
    exact hfresh ha
  case executionIds =>
    show ((record.turns ++ [turn]).map (·.executionId)).Nodup
    rw [List.map_append]
    refine List.nodup_append.2 ⟨h.executionIds, List.nodup_singleton _, fun a ha b hb he => ?_⟩
    rw [he, List.mem_singleton.1 hb] at ha
    exact fresh_executionId hfree ha
  case messages =>
    show record.messages ++ entries.flatMap (·.messages) = _
    rw [h.messages, List.flatMap_append, List.append_assoc]
    rfl
  case context =>
    show record.contextMessages ++ entries.flatMap (·.context) = _
    rw [h.context, List.flatMap_append, List.append_assoc]
    rfl
  case once =>
    rw [List.map_append]
    refine List.nodup_append.2 ⟨h.once, hentries, fun a ha b hb he => ?_⟩
    obtain ⟨c, hc, rfl⟩ := List.mem_map.1 ha
    obtain ⟨d, hd, rfl⟩ := List.mem_map.1 hb
    have hid : c.turnId = turn.turnId := (congrArg Prod.fst he).trans (hnew d hd).1
    exact hfresh (hid ▸ h.known c hc)
  case known =>
    show ∀ c ∈ log ++ entries, c.turnId ∈ (record.turns ++ [turn]).map (·.turnId)
    intro c hc
    rw [hids]
    rcases List.mem_append.1 hc with hc | hc
    · exact List.mem_append_left _ (h.known c hc)
    · exact List.mem_append_right _ (List.mem_singleton.2 (hnew c hc).1)
  case closed =>
    intro c hc hcommitted
    rcases List.mem_append.1 hc with hc | hc
    · obtain ⟨hstatus, hcommit, hcontext, hturns⟩ := h.closed c hc hcommitted
      refine ⟨hstatus, hcommit, hcontext, fun item hitem hid => ?_⟩
      rcases List.mem_append.1 hitem with hitem | hitem
      · exact hturns item hitem hid
      · exact absurd (h.known c hc) (hid ▸ List.mem_singleton.1 hitem ▸ hfresh)
    · exact absurd ((hnew c hc).2.symm.trans hcommitted) Bool.noConfusion
  case logged =>
    intro item hitem hstatus hcommit
    rcases List.mem_append.1 hitem with hitem | hitem
    · obtain ⟨c, hc, hid⟩ := h.logged item hitem hstatus hcommit
      exact ⟨c, List.mem_append_left _ hc, hid⟩
    · obtain rfl := List.mem_singleton.1 hitem
      exact absurd (h.commitsKnown _ hcommit) hfresh
  case commitsKnown =>
    show ∀ turnId ∈ record.commits, turnId ∈ (record.turns ++ [turn]).map (·.turnId)
    intro turnId hid
    rw [hids]
    exact List.mem_append_left _ (h.commitsKnown turnId hid)
  case inputsKnown =>
    show ∀ turnId ∈ inputs, turnId ∈ (record.turns ++ [turn]).map (·.turnId)
    intro turnId hid
    rw [hids]
    by_cases he : turnId = turn.turnId
    · exact List.mem_append_right _ (List.mem_singleton.2 he)
    · obtain ⟨input, hinput⟩ := OrderedMaps.mem_iff_exists.1 hid
      exact List.mem_append_left _ (h.inputsKnown turnId (OrderedMaps.mem_of_getElem? ((hinputs.others turnId he).symm.trans hinput)))
  case input =>
    intro item hitem hopen input hinput
    obtain rfl := hlast item hitem hopen
    obtain ⟨rfl, hlen⟩ := hinputs.own input hinput
    rw [hlen]
    cases input.contextPolicy <;> simp [SessionRecord.history, SessionRecord.grown]

theorem Accounted.sameInputs (h : Accounted log record) {turn : SessionTurn} (hfree : record.clashes turn = false)
    (entries : List Contribution) : NewInput record turn record.inputs entries where
  others _ _ := rfl
  own _ hinput := absurd (h.inputsKnown _ (OrderedMaps.mem_of_getElem? hinput)) (fresh_turnId hfree)

theorem newInput_withInput {turn : SessionTurn} (messages : List Message) (policy : SessionContextPolicy) :
    NewInput record turn (record.withInput turn.turnId messages policy).inputs [] where
  others _ hne := OrderedMaps.getElem?_insert_of_ne hne.symm
  own input hinput := by
    obtain rfl := Option.some.inj (OrderedMaps.getElem?_insert_self.symm.trans hinput)
    exact ⟨rfl, rfl⟩

section Commits

variable {turn : SessionTurn} {turnId : String} {status : SessionTurnStatus} {messages context : List Message}

theorem turnId_of_find? (hturn : record.turns.find? (·.turnId = turnId) = some turn) : turn.turnId = turnId := by
  simpa using List.find?_some hturn

theorem Accounted.mem_commit (h : Accounted log record)
    (hturn : record.turns.find? (·.turnId = turnId) = some turn) {item : SessionTurn} :
    item ∈ (record.commit turnId status messages context).turns ↔
      item ∈ record.turns ∧ item.turnId ≠ turnId ∨ item = { turn with status } := by
  have hmem : turn ∈ record.turns := List.mem_of_find?_eq_some hturn
  have hid := turnId_of_find? hturn
  refine (mem_setStatus h.turnIds).trans (or_congr_right ⟨?_, fun he => ⟨turn, hmem, hid, he⟩⟩)
  rintro ⟨found, hfound, hfid, rfl⟩
  rw [h.eq_of_turnId hfound hmem (hfid.trans hid.symm)]

theorem Accounted.others_closed (h : Accounted log record)
    (hturn : record.turns.find? (·.turnId = turnId) = some turn) (hopen : isOpen turn.status = true)
    {item : SessionTurn} (hitem : item ∈ record.turns) (hne : item.turnId ≠ turnId) :
    isOpen item.status = false := by
  refine Bool.eq_false_iff.2 fun hitemOpen => hne ?_
  rw [h.oneOpen item hitem turn (List.mem_of_find?_eq_some hturn) hitemOpen hopen, turnId_of_find? hturn]

/-- **The end of an open Turn is accounted for once it is committed.** -/
theorem Accounted.commit (h : Accounted log record) (hturn : record.turns.find? (·.turnId = turnId) = some turn) (hopen : isOpen turn.status = true)
    (hregular : isOpen status → messages = [] ∧ context = []) :
    Accounted (log ++ SessionCall.contribution (.updateTurnWithContext turnId status messages context))
      (record.commit turnId status messages context) := by
  have hmem : turn ∈ record.turns := List.mem_of_find?_eq_some hturn
  have hid := turnId_of_find? hturn
  have hitems : ∀ {item : SessionTurn}, item ∈ (record.commit turnId status messages context).turns ↔
      item ∈ record.turns ∧ item.turnId ≠ turnId ∨ item = { turn with status } := h.mem_commit hturn
  have hothers : ∀ item ∈ record.turns, item.turnId ≠ turnId → isOpen item.status = false := fun item hitem hne =>
    h.others_closed hturn hopen hitem hne
  -- The Turn was open, so no commit of its end is noted yet.
  have hunlogged : ∀ c ∈ log, c.appended = false → c.turnId ≠ turnId := by
    intro c hc hcommitted he
    obtain ⟨hstatus, -, -, hturns⟩ := h.closed c hc hcommitted
    rw [hturns turn hmem (hid.trans he.symm), hstatus] at hopen
    exact Bool.noConfusion hopen
  constructor
  case oneOpen =>
    intro a ha b hb hopena hopenb
    rcases hitems.1 ha with ⟨ha, hne⟩ | rfl
    · exact absurd hopena (by simp [hothers a ha hne])
    · rcases hitems.1 hb with ⟨hb, hne⟩ | rfl
      · exact absurd hopenb (by simp [hothers b hb hne])
      · rfl
  case turnIds => exact map_turnId_setStatus record.turns ▸ h.turnIds
  case executionIds => exact map_executionId_setStatus record.turns ▸ h.executionIds
  case messages =>
    show record.messages ++ messages = _
    rw [h.messages, List.flatMap_append, List.append_assoc]
    refine congrArg _ (congrArg _ ?_)
    cases hstatus : isOpen status with
    | true => simp [SessionCall.contribution, hstatus, (hregular hstatus).1]
    | false => simp [SessionCall.contribution, hstatus]
  case context =>
    show record.contextMessages ++ context = _
    rw [h.context, List.flatMap_append, List.append_assoc]
    refine congrArg _ (congrArg _ ?_)
    cases hstatus : isOpen status with
    | true => simp [SessionCall.contribution, hstatus, (hregular hstatus).2]
    | false => simp [SessionCall.contribution, hstatus]
  case once =>
    cases hstatus : isOpen status with
    | true => simpa [SessionCall.contribution, hstatus] using h.once
    | false =>
      simp only [SessionCall.contribution, hstatus, Bool.false_eq_true, if_false, List.map_append, List.map_cons,
        List.map_nil]
      refine List.nodup_append.2 ⟨h.once, List.nodup_singleton _, fun a ha b hb he => ?_⟩
      obtain ⟨c, hc, rfl⟩ := List.mem_map.1 ha
      rw [List.mem_singleton.1 hb] at he
      exact hunlogged c hc (congrArg Prod.snd he) (congrArg Prod.fst he)
  case known =>
    show ∀ c ∈ log ++ SessionCall.contribution (.updateTurnWithContext turnId status messages context),
      c.turnId ∈ (setStatus turnId status record.turns).map (·.turnId)
    rw [map_turnId_setStatus]
    intro c hc
    rcases List.mem_append.1 hc with hc | hc
    · exact h.known c hc
    · simp only [SessionCall.contribution] at hc
      split_ifs at hc with hstatus
      · exact absurd hc List.not_mem_nil
      · rw [List.mem_singleton.1 hc]
        exact List.mem_map.2 ⟨turn, hmem, hid⟩
  case closed =>
    intro c hc hcommitted
    rcases List.mem_append.1 hc with hc | hc
    · obtain ⟨hstatus, hcommit, hcontext, hturns⟩ := h.closed c hc hcommitted
      have hne := hunlogged c hc hcommitted
      refine ⟨hstatus, (OrderedMaps.getElem?_insert_of_ne hne.symm).trans hcommit,
        (OrderedMaps.getElem?_insert_of_ne hne.symm).trans hcontext, fun item hitem he => ?_⟩
      rcases hitems.1 hitem with ⟨hitem, -⟩ | rfl
      · exact hturns item hitem he
      · exact absurd (he.symm.trans hid) hne
    · simp only [SessionCall.contribution] at hc
      split_ifs at hc with hstatus
      · exact absurd hc List.not_mem_nil
      · obtain rfl := List.mem_singleton.1 hc
        refine ⟨Bool.eq_false_iff.2 hstatus, OrderedMaps.getElem?_insert_self, OrderedMaps.getElem?_insert_self,
          fun item hitem he => ?_⟩
        rcases hitems.1 hitem with ⟨-, hne⟩ | rfl
        · exact absurd he hne
        · rfl
  case logged =>
    intro item hitem hstatus hcommit
    rcases hitems.1 hitem with ⟨hitem, hne⟩ | rfl
    · have hcommit' : item.turnId ∈ record.commits :=
        (OrderedMaps.mem_insert.1 hcommit).resolve_left fun he => hne he.symm
      obtain ⟨c, hc, hcid⟩ := h.logged item hitem hstatus hcommit'
      exact ⟨c, List.mem_append_left _ hc, hcid⟩
    · refine ⟨{ turnId, appended := false, status, messages, context }, List.mem_append_right _ ?_, hid.symm, rfl⟩
      simp only [SessionCall.contribution, hstatus, Bool.false_eq_true, if_false, List.mem_singleton]
  case commitsKnown =>
    show ∀ id ∈ record.commits.insert turnId messages, id ∈ (setStatus turnId status record.turns).map (·.turnId)
    rw [map_turnId_setStatus]
    intro id hcommit
    rcases OrderedMaps.mem_insert.1 hcommit with rfl | hcommit
    · exact List.mem_map.2 ⟨turn, hmem, hid⟩
    · exact h.commitsKnown id hcommit
  case inputsKnown =>
    show ∀ id ∈ record.inputs, id ∈ (setStatus turnId status record.turns).map (·.turnId)
    rw [map_turnId_setStatus]
    exact h.inputsKnown
  case input =>
    intro item hitem hitemOpen input hinput
    rcases hitems.1 hitem with ⟨hitem, hne⟩ | rfl
    · exact absurd hitemOpen (by simp [hothers item hitem hne])
    · obtain ⟨rfl, rfl⟩ := hregular hitemOpen
      rw [h.input turn hmem hopen input hinput]
      cases input.contextPolicy <;> simp [SessionRecord.history, SessionRecord.commit]

end Commits

theorem Request.Regular.empty {disk : Disk} {turnId : String} {status : SessionTurnStatus}
    {messages context : List Message}
    (h : Request.Regular ⟨sessionId, .updateTurnWithContext turnId status messages context, disk⟩)
    (hstatus : isOpen status = true) : messages = [] ∧ context = [] := by
  obtain ⟨hnotRunning, hsuspended⟩ := h
  cases status with
  | running => exact absurd rfl hnotRunning
  | suspended => exact hsuspended rfl
  | completed | cancelled | failed => exact nomatch hstatus

theorem Accounted.change (h : Accounted log record) {call : SessionCall} {record' : SessionRecord}
    (hchange : Change sessionId (some record) call record') {disk : Disk}
    (hregular : Request.Regular ⟨sessionId, call, disk⟩) : Accounted (log ++ call.contribution) record' := by
  cases hchange with
  | @begun _ turn hfree =>
    have hgrown := h.grown hfree (h.sameInputs hfree []) List.nodup_nil fun _ hc => absurd hc List.not_mem_nil
    simpa [SessionRecord.grown, SessionRecord.push, SessionCall.contribution] using hgrown
  | @begunWith _ turn messages policy hfree =>
    have hgrown := h.grown hfree (newInput_withInput messages policy) List.nodup_nil
      fun _ hc => absurd hc List.not_mem_nil
    simpa [SessionRecord.grown, SessionRecord.push, SessionRecord.withInput, SessionCall.contribution] using hgrown
  | committed hturn hopen => exact h.commit hturn hopen hregular.empty
  | @appended _ turn messages hfree =>
    have hgrown := h.grown hfree
      (h.sameInputs hfree (SessionCall.contribution (.appendTurn turn messages))) (List.nodup_singleton _)
      fun c hc => by
        obtain rfl := List.mem_singleton.1 hc
        exact ⟨rfl, rfl⟩
    simpa [SessionRecord.grown, SessionRecord.push, SessionRecord.append, SessionCall.contribution] using hgrown

end Steps

section Later

variable {sessionId : String} {log : List Contribution} {record later last : SessionRecord}

theorem Extends.refl (record : SessionRecord) : Extends record record where
  initialization := rfl
  messages := List.prefix_rfl
  context := List.prefix_rfl
  turnIds := List.prefix_rfl
  closed _ hturn _ := ⟨hturn, rfl, rfl⟩
  inputs _ _ := rfl
  stays turn hturn hopen _ := ⟨⟨turn, hturn, rfl, hopen⟩, rfl, rfl⟩

theorem Extends.trans (h : Extends record later) (h' : Extends later last) : Extends record last where
  initialization := h'.initialization.trans h.initialization
  messages := h.messages.trans h'.messages
  context := h.context.trans h'.context
  turnIds := h.turnIds.trans h'.turnIds
  closed turn hturn hstatus := by
    obtain ⟨hlater, hcommit, hcontext⟩ := h.closed turn hturn hstatus
    obtain ⟨hlast, hcommit', hcontext'⟩ := h'.closed turn hlater hstatus
    exact ⟨hlast, hcommit'.trans hcommit, hcontext'.trans hcontext⟩
  inputs turn hturn := by
    obtain ⟨item, hitem, hid⟩ := List.mem_map.1 (h.turnIds.subset (List.mem_map_of_mem hturn))
    have hlast := h'.inputs item hitem
    rw [hid] at hlast
    exact hlast.trans (h.inputs turn hturn)
  stays turn hturn hopen hid := by
    obtain ⟨⟨item, hitem, he, hitemOpen⟩, hmessages, hcontext⟩ := h'.stays turn hturn hopen (h.turnIds.subset hid)
    obtain ⟨hfirst, hmessages', hcontext'⟩ := h.stays item hitem hitemOpen (he ▸ hid)
    exact ⟨he ▸ hfirst, hmessages.trans hmessages', hcontext.trans hcontext'⟩

theorem Extends.grown {turn : SessionTurn} (hfree : record.clashes turn = false)
    {inputs : Std.ExtTreeMap String SessionTurnInput} {entries : List Contribution}
    (hinputs : NewInput record turn inputs entries) : Extends record (record.grown turn inputs entries) where
  initialization := rfl
  messages := List.prefix_append _ _
  context := List.prefix_append _ _
  turnIds := by
    show _ <+: (record.turns ++ [turn]).map (·.turnId)
    rw [List.map_append]
    exact List.prefix_append _ _
  closed item hitem _ := ⟨List.mem_append_left _ hitem, rfl, rfl⟩
  inputs item hitem := hinputs.others item.turnId (clashes_eq_false.1 hfree item hitem).1
  stays item hitem hopen hid := by
    rcases List.mem_append.1 hitem with hitem | hitem
    · exact absurd hopen (by simp [(clashes_eq_false.1 hfree item hitem).2.2])
    · exact absurd (List.mem_singleton.1 hitem ▸ hid) (fresh_turnId hfree)

end Later

section Runs

variable {encodedLen : SessionInitialization → ℕ} {sessionId : String}

variable {files : SessionFiles} {request : Request}

theorem Change.ne {file : Option SessionRecord} {call : SessionCall} {record : SessionRecord}
    (h : Change sessionId file call record) : some record ≠ file := by
  intro he
  cases h with
  | initialized | created => exact nomatch he
  | begun | begunWith | committed | appended =>
    have hversion := congrArg SessionRecord.version (Option.some.inj he)
    exact absurd hversion (Nat.succ_ne_self _)

theorem file_cases (encodedLen : SessionInitialization → ℕ) (files : SessionFiles) (sessionId : String)
    (hregular : request.Regular) :
    ((sessionStore encodedLen).step files request).2 sessionId = files sessionId ∨
      request.sessionId = sessionId ∧ ∃ record,
        ((sessionStore encodedLen).step files request).2 sessionId = some record ∧
          Change sessionId (files sessionId) request.call record := by
  by_cases hid : request.sessionId = sessionId
  swap
  · exact .inl (Function.update_of_ne (Ne.symm hid) _ _)
  subst hid
  have hfile : ((sessionStore encodedLen).step files request).2 request.sessionId =
      (request.serve encodedLen (files request.sessionId)).2 := Function.update_self ..
  rw [hfile, Request.serve]
  have hcreate : request.call = .create → ∀ fault, request.disk ≠ .unreadable fault := by
    intro hcall
    rw [Request.Regular, hcall] at hregular
    exact hregular
  cases houtcome : request.call.outcome encodedLen request.disk request.sessionId (files request.sessionId) with
  | error error => exact .inl rfl
  | ok outcome =>
    cases outcome with
    | kept record => exact .inl rfl
    | written record =>
      show (write request.disk _ record).2 = _ ∨ _ ∧ ∃ written, (write request.disk _ record).2 = _ ∧ _
      unfold write
      split
      · exact .inl rfl
      · exact .inr ⟨rfl, record, rfl, Change.of_written houtcome hcreate⟩
      · exact .inr ⟨rfl, record, rfl, Change.of_written houtcome hcreate⟩

/-- The invariant of the file of a Session. -/
def FileAccounted (sessionId : String) (log : List Contribution) (files : SessionFiles) : Prop :=
  match files sessionId with
  | none => log = []
  | some record => Accounted log record

theorem FileAccounted.step (encodedLen : SessionInitialization → ℕ) {log : List Contribution}
    (h : FileAccounted sessionId log files) (hregular : request.Regular) :
    FileAccounted sessionId
      (log ++ noteContribution sessionId files request ((sessionStore encodedLen).step files request).2)
      ((sessionStore encodedLen).step files request).2 := by
  rcases file_cases encodedLen files sessionId hregular with hsame | ⟨rfl, record, hnext, hchange⟩
  · rw [noteContribution, if_pos hsame, List.append_nil, FileAccounted, hsame]
    exact h
  · rw [noteContribution, if_neg (hnext ▸ hchange.ne), FileAccounted, hnext]
    cases hfile : files request.sessionId with
    | none =>
      rw [FileAccounted, hfile] at h
      subst h
      rw [hfile] at hchange
      cases hcall : request.call with
      | initializeContext initialization =>
        rw [hcall] at hchange
        cases hchange
        exact .fresh _
      | create =>
        rw [hcall] at hchange
        cases hchange
        exact .fresh _
      | load | beginTurn | beginTurnWithProjection | updateTurnWithContext | appendTurn =>
        rw [hcall] at hchange
        exact nomatch hchange
    | some before =>
      rw [FileAccounted, hfile] at h
      exact h.change (hfile ▸ hchange) hregular

theorem Accounted.retry {log : List Contribution} {record : SessionRecord} (h : Accounted log record)
    (hrecord : files sessionId = some record) {c : Contribution} (hc : c ∈ log) (hcommitted : c.appended = false)
    (disk : Disk) :
    ((sessionStore encodedLen).step files
      ⟨sessionId, .updateTurnWithContext c.turnId c.status c.messages c.context, disk⟩).2 sessionId = some record := by
  obtain ⟨hstatus, -, -, hturns⟩ := h.closed c hc hcommitted
  have hregular : Request.Regular
      ⟨sessionId, .updateTurnWithContext c.turnId c.status c.messages c.context, disk⟩ := by
    refine ⟨fun he => ?_, fun he => ?_⟩
    · exact absurd (he ▸ hstatus) Bool.noConfusion
    · exact absurd (he ▸ hstatus) Bool.noConfusion
  rcases file_cases encodedLen files sessionId hregular with hsame | ⟨-, later, -, hchange⟩
  · exact hsame.trans hrecord
  · rw [hrecord] at hchange
    cases hchange with
    | committed hturn hopen =>
      rw [hturns _ (List.mem_of_find?_eq_some hturn) (turnId_of_find? hturn), hstatus] at hopen
      exact Bool.noConfusion hopen

end Runs

section Examples

end Examples

end Sessions
end Kolyan
