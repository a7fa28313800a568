/-
# Hooks run at most once

A dispatch that is the only one to record its intents executes every script once and
leaves a trail that a verification reads for ever (`hooks_once`).  The journal answers
an identical intent at its position with the original record, though, and two
dispatches of one operation record identical intents, so the runs are those in which
no append finds its facts recorded already (`FreshActs`).
-/

import Kolyan.Hooks.Lawful
import Kolyan.Hooks.Steps

namespace Kolyan
namespace Hooks

open Checks Facts Artifacts Threads

variable {J : Type} {journal : FactJournal J} {contract : journal.Contract} {codec : HookCodec} {store : ArtifactStore}
  {selects : String → Prop} {i : ℕ} {w : HookWorld J}

/-! ### The operations of a call -/

theorem yields_putArtifact {bytes : Bytes} {Q : ArtifactRef → HookWorld J → Prop}
    (h : ∀ w' files, Rely contract codec selects i w w' → Kept contract codec selects i w' { w' with files } →
      isDigest (codec.sha256 bytes) = true → (∀ maxBytes, bytes.length ≤ maxBytes →
        findArtifact codec.sha256 store files ⟨codec.sha256 bytes, bytes.length, .required⟩ maxBytes = .ok bytes) →
      Q ⟨codec.sha256 bytes, bytes.length, .required⟩ { w' with files }) :
    Fallible.Yields (hookSetting contract codec store selects i) (putArtifact bytes) Q w := by
  refine Fallible.yields_mapError (Prog.holds_call fun w' hw' => ⟨trivial, fun a w'' ha artifact hartifact => ?_⟩)
  subst hartifact
  obtain ⟨⟨hanswer, rfl⟩ | ⟨⟨_, herror⟩, -⟩, -⟩ := ha
  swap
  · exact nomatch herror
  have hanswer' : (pinArtifact codec.sha256 store w'.files bytes).1 = .ok artifact :=
    hanswer.elim Eq.symm fun herror => nomatch herror.choose_spec
  obtain ⟨rfl, hdigest, hfound⟩ := pinArtifact_eq_ok hanswer'
  exact h w' _ hw' (.of_rely fun _ => hw'.steady.files files_pinArtifact) hdigest hfound

theorem yields_appendTo {run : String} {expected : ℕ} {draft : FactDraft} {Q : List FactRecord → HookWorld J → Prop}
    (hhooks : selects run)
    (hmine : ∀ w', Rely contract codec selects i w w' → w'.firsts (runStream run) = some i ∨ expected = 0)
    (h : ∀ w' w'', Rely contract codec selects i w w' → Appended contract i w' w'' (runStream run) draft →
      Kept contract codec selects i w' w'' → expected = (w'.rows contract (runStream run)).length →
      Q [⟨runStream run, expected + 1, draft⟩] w'')
    (hapart : ∀ a b : HookCatalog codec, a.stream = b.stream → a = b) :
    Fallible.Yields (hookSetting contract codec store selects i) (appendTo (runStream run) expected [draft]) Q w := by
  refine Fallible.yields_mapError (Prog.holds_call fun w' hw' => ?_)
  have hallow : Allow contract codec selects i w' (.append (runStream run) expected [draft]) :=
    ⟨⟨draft, rfl⟩, .inl ⟨run, rfl, hhooks, hmine w' hw'⟩⟩
  refine ⟨hallow, fun a w'' ha records hrecords => ?_⟩
  have hkept := kept_act hapart hw'.steady hallow ha
  rcases append_cases hw'.steady.valid ha.1 with ⟨-, hrecorded⟩ | ⟨hexpected, rfl, happended⟩
  · exact absurd (hrecorded records hrecords) (ha.2 ⟨run, rfl⟩)
  · obtain rfl := Except.ok.inj hrecords
    exact h w' w'' hw' happended hkept hexpected

/-! ### Where a dispatch stands -/

/-- The facts and the executed scripts of a run, as the dispatch knows them that began it,
or none that it has not begun. -/
def Progress (contract : journal.Contract) (i : ℕ) (world : HookWorld J) (run : String) (rows : List FactRecord)
    (keys : List HookKey) : Prop :=
  (rows = [] ∧ keys = [] ∧ world.firsts (runStream run) ≠ some i) ∨
    (world.firsts (runStream run) = some i ∧ world.rows contract (runStream run) = rows ∧
      ∀ key, (runStream run, key) ∈ world.executed → key ∈ keys)

variable {run : String} {rows : List FactRecord} {keys : List HookKey}

theorem Progress.rely {w' : HookWorld J} (h : Progress contract i w run rows keys) (hw : Rely contract codec selects i w w') :
    Progress contract i w' run rows keys := by
  rcases h with ⟨hrows, hkeys, hfirst⟩ | ⟨hfirst, hrows, hkeys⟩
  · exact .inl ⟨hrows, hkeys, fun hmine => hfirst ((hw.firsts run).1 hmine)⟩
  · exact .inr ⟨(hw.firsts run).2 hfirst, (hw.rows run hfirst).trans hrows,
      fun key hkey => hkeys key (hw.executed run key hfirst hkey)⟩

theorem Progress.appended {w' : HookWorld J} {draft : FactDraft} (h : Progress contract i w run rows keys)
    (hsteady : w.Steady contract codec selects) (happended : Appended contract i w w' (runStream run) draft)
    (hlength : rows.length = (w.rows contract (runStream run)).length) :
    w'.firsts (runStream run) = some i ∧
      w'.rows contract (runStream run) = rows ++ [⟨runStream run, rows.length + 1, draft⟩] ∧
      ∀ key, (runStream run, key) ∈ w'.executed → key ∈ keys := by
  rcases h with ⟨rfl, rfl, -⟩ | ⟨hfirst, rfl, hkeys⟩
  · have hnil : w.rows contract (runStream run) = [] := List.length_eq_zero_iff.1 hlength.symm
    refine ⟨?_, ?_, fun key hkey => ?_⟩
    · rw [happended.firsts, if_pos ⟨rfl, hnil⟩]
    · rw [happended.rows_self, hnil]
    · rw [happended.executed] at hkey
      obtain ⟨other, -, hbegun⟩ := hsteady.executing _ hkey
      exact absurd ((hsteady.begun run).2 hnil) hbegun
  · refine ⟨?_, happended.rows_self, fun key hkey => ?_⟩
    · rw [happended.firsts]
      split_ifs
      · rfl
      · exact hfirst
    · exact hkeys key (happended.executed ▸ hkey)

/-! ### One hook -/

section Hook

variable {catalog : HookCatalog codec} {policy : HookAccessPolicy} {nativeDigest : String} {binding : VerifiedHookBinding}
  {event : HookEvent} {hook : RegisteredHook} {place : ℕ}

theorem field_input {input : ArtifactRef} {runId : String} :
    field (startedDraft binding hook runId nativeDigest input).payload "input" = (artifactValue input).canonical := by
  unfold startedDraft field
  rfl

theorem field_output {started : FactRef} {output : ArtifactRef} {reply : Option HookReply}
    {hostFailure : Option String} :
    field (completedDraft started output reply hostFailure).payload "output" = (artifactValue output).canonical := by
  unfold completedDraft field
  rfl

variable (hexact : contract.Exact) (hapart : ∀ a b : HookCatalog codec, a.stream = b.stream → a = b)

include hexact in
theorem yields_validateCurrent {Q : Unit → HookWorld J → Prop}
    (h : ∀ w', Rely contract codec selects i w w' → Restored contract catalog binding w' →
      binding.saved.nativeDigest = nativeDigest → Q () w') :
    Fallible.Yields (hookSetting contract codec store selects i) (catalog.validateCurrent binding policy nativeDigest) Q w := by
  refine Fallible.yields_bind (yields_restoreBinding watched_setting hexact fun w₁ restored hw₁ hrestored _ _ =>
    Fallible.yields_bind (Fallible.yields_lift fun _ hsame => Fallible.yields_bind (Fallible.yields_lift fun _ hdigests =>
      Fallible.yields_bind (yields_replay watched_setting hexact fun w₂ state hw₂ _ _ => Fallible.yields_lift fun _ _ => ?_))))
  rw [reject_eq_ok, not_not] at hsame
  rw [reject_eq_ok, not_or, not_not, not_not] at hdigests
  subst hsame
  exact h w₂ (Rely.trans hw₁ hw₂) (hrestored.later hw₂.later hw₂.steady.toSound) hdigests.2

/-- The intent of a hook, which a dispatch has recorded. -/
structure Intended (contract : journal.Contract) (codec : HookCodec) (store : ArtifactStore)
    (binding : VerifiedHookBinding) (event : HookEvent) (run : String) (hook : RegisteredHook) (place : ℕ)
    (started : FactRecord) (world : HookWorld J) : Prop where
  at_ : started.streamId = runStream run ∧ started.position = 2 * place + 1
  body : ∃ bytes, findArtifact codec.sha256 store world.files hook.body (32 * 1024) = .ok bytes
  input : ∃ input bytes, input.retention = .required ∧ encode codec event.toValue = .ok bytes ∧
    findArtifact codec.sha256 store world.files input hook.manifest.maxInputBytes = .ok bytes ∧
    bytes.length ≤ hook.manifest.maxInputBytes ∧
    started.draft = startedDraft binding hook (runId run place) binding.saved.nativeDigest input

theorem Intended.later {started : FactRecord} {w' : HookWorld J}
    (h : Intended contract codec store binding event run hook place started w) (hlater : w.Later contract w') :
    Intended contract codec store binding event run hook place started w' where
  at_ := h.at_
  body := by
    obtain ⟨bytes, hbytes⟩ := h.body
    exact ⟨bytes, hlater.findArtifact hbytes⟩
  input := by
    obtain ⟨input, bytes, hretention, hencode, hread, hrest⟩ := h.input
    exact ⟨input, bytes, hretention, hencode, hlater.findArtifact hread, hrest⟩

include hexact hapart in
/-- **What the first worker yields**: the intent is recorded, and the run is this call's. -/
theorem yields_prepareHook {Q : FactRef → HookWorld J → Prop} (hhooks : selects run)
    (hprogress : Progress contract i w run rows keys) (hrows : rows.length = 2 * place)
    (h : ∀ w' started, w.Later contract w' → w'.Steady contract codec selects →
      w'.firsts (runStream run) = some i → w'.rows contract (runStream run) = rows ++ [started] →
      (∀ key, (runStream run, key) ∈ w'.executed → key ∈ keys) → Restored contract catalog binding w' →
      Intended contract codec store binding event run hook place started w' → Q (reference started) w') :
    Fallible.Yields (hookSetting contract codec store selects i)
      (prepareHook catalog policy nativeDigest binding event run hook place) Q w := by
  refine Fallible.yields_bind (yields_validateCurrent hexact fun w₁ hw₁ hrestored hdigest => Fallible.yields_bind
    (Fallible.yields_lift fun input hinput => Fallible.yields_bind (Fallible.yields_lift fun _ hbound =>
      Fallible.yields_bind (yields_getArtifact watched_setting fun w₂ body hw₂ hbody => ?_))))
  rw [reject_eq_ok, not_lt] at hbound
  refine Fallible.yields_bind (fun w₃ hw₃ => ⟨trivial, fun remaining w₃' hact _ _ => ?_⟩)
  obtain ⟨rfl, -⟩ := hact
  refine Fallible.yields_bind (fun w₄ hw₄ => ⟨trivial, fun installed w₄' hact _ _ => ?_⟩)
  obtain ⟨rfl, -⟩ := hact
  refine Fallible.yields_bind (yields_putArtifact fun w₅ files hw₅ hkept _ hfound => ?_)
  have hw : Rely contract codec selects i w w₅ := hw₁.trans (hw₂.trans (hw₃.trans (hw₄.trans hw₅)))
  have hprogress₅ := hprogress.rely hw
  have hput : Progress contract i { w₅ with files } run rows keys := hprogress₅
  refine Fallible.yields_bind (yields_appendTo hhooks (fun w' hw' => ?_) (fun w₆ w₇ hw₆ happended hkept' hexpected => ?_) hapart)
  · rcases hput.rely hw' with ⟨hnil, -, -⟩ | ⟨hfirst, -, -⟩
    · right
      rw [← hrows, hnil]
      rfl
    · exact .inl hfirst
  · have hprogress' := (hput.rely hw₆).appended hw₆.steady happended (hrows.trans hexpected)
    have hlater : HookWorld.Later contract { w₅ with files } w₇ := hw₆.later.trans hkept'.later
    have hstored : w₂.Later contract w₇ :=
      (((hw₃.trans (hw₄.trans hw₅)).later.trans hkept.later).trans hlater)
    refine Fallible.yields_lift fun fact hfact => ?_
    obtain rfl : reference ⟨runStream run, 2 * place + 1, _⟩ = fact := Option.some.inj (expect_eq_ok.1 hfact)
    obtain ⟨hfirst, hrows', hkeys⟩ := hprogress'
    rw [hrows] at hrows'
    refine h w₇ _ ((hw.later.trans hkept.later).trans hlater) hkept'.steady hfirst hrows' hkeys
      ((hrestored.later hw₂.later hw₂.steady.toSound).later hstored hkept'.steady.toSound)
      ⟨⟨rfl, rfl⟩, ⟨body, hstored.findArtifact hbody⟩, _, input, rfl, hinput, hlater.findArtifact (hfound _ hbound), hbound, ?_⟩
    rw [hdigest]

end Hook

/-! ### What a script printed -/

theorem encodedLen_byte : ∀ n < 256, (toString n).utf8ByteSize ≤ 3 := by decide +kernel

theorem encodedItems_bytes (bytes : Bytes) :
    Value.encodedItems (bytes.map fun b => .nat b.toNat) ≤ 3 * bytes.length := by
  induction bytes with
  | nil => exact Nat.zero_le _
  | cons b bytes ih =>
    have hbyte := encodedLen_byte b.toNat b.toNat_lt
    simp only [List.map_cons, Value.encodedItems, List.length_cons, Value.nat, Value.encodedLen] at ih ⊢
    omega

theorem encodedLen_bytesValue (bytes : Bytes) : (bytesValue bytes).encodedLen ≤ 4 * bytes.length + 2 := by
  have hitems := encodedItems_bytes bytes
  simp only [bytesValue, Value.list, Value.encodedLen, Value.commas, List.length_map]
  omega

/-- **The encoding of a success fits into what a verification reads.** -/
theorem encodedLen_success {stdout stderr : Bytes} (h : stdout.length + stderr.length ≤ 64 * 1024) :
    (NativeOutcome.exited (some 0) stdout stderr).toValue.encodedLen ≤ 1024 * 1024 := by
  have hout := encodedLen_bytesValue stdout
  have herr := encodedLen_bytesValue stderr
  have hcode : (Value.option (fun code => .number (toString code)) (some (0 : Int32))).encodedLen = 1 := by decide +kernel
  have hstatus : (Value.string "exited").encodedLen = 8 := by decide +kernel
  have hnames : Value.stringBytes "status" = 8 ∧ Value.stringBytes "exit_code" = 11 ∧ Value.stringBytes "stdout" = 8 ∧
      Value.stringBytes "stderr" = 8 := by decide +kernel
  obtain ⟨h₁, h₂, h₃, h₄⟩ := hnames
  simp only [NativeOutcome.toValue, Value.encodedLen, Value.encodedFields, Value.commas, List.length_cons, List.length_nil,
    hcode, h₁, h₂, h₃, h₄] at hout herr hstatus ⊢
  omega

theorem replyOf_eq_ok {event : HookEvent} {outcome : NativeOutcome} {reply : HookReply}
    (h : replyOf codec event outcome = .ok reply) :
    ∃ stdout stderr, outcome = .exited (some 0) stdout stderr ∧ HookReply.parse codec stdout event.phase = .ok reply := by
  cases outcome with
  | failed kind message =>
    unfold replyOf at h
    dsimp only at h
    split_ifs at h
  | exited exitCode stdout stderr =>
    cases exitCode with
    | none => exact nomatch h
    | some code =>
      unfold replyOf at h
      dsimp only at h
      split_ifs at h with hcode
      subst hcode
      exact ⟨stdout, stderr, rfl, h⟩

theorem outcomeReply_eq_ok (hlawful : codec.Lawful) {event : HookEvent} {outcome : NativeOutcome} {reply : HookReply}
    {hook : RegisteredHook} (h : replyOf codec event outcome = .ok reply)
    (hbound : ∀ exitCode stdout stderr, outcome = .exited exitCode stdout stderr →
      stdout.length + stderr.length ≤ hook.manifest.maxOutputBytes)
    (hceiling : hook.manifest.maxOutputBytes ≤ 64 * 1024) :
    outcomeReply codec event hook (codec.bytes outcome.toValue) = .ok reply ∧
      (codec.bytes outcome.toValue).length ≤ 1024 * 1024 := by
  obtain ⟨stdout, stderr, rfl, hparse⟩ := replyOf_eq_ok h
  have hle := hbound _ _ _ rfl
  refine ⟨?_, ?_⟩
  · simp only [outcomeReply, hlawful.success, unreadable, mapError, ok_bind]
    rw [reject_of_not (by simpa using hle)]
    exact hparse
  · rw [hlawful.bytes_length]
    exact encodedLen_success (hle.trans hceiling)

/-! ### The loop of a dispatch -/

section Loop

variable {catalog : HookCatalog codec} {policy : HookAccessPolicy} {nativeDigest : String} {binding : VerifiedHookBinding}
  {event : HookEvent} {hook : RegisteredHook} {place : ℕ}

theorem checkSelection_registered {state : State} {previous : Option HookKey} {hooks : List RegisteredHook}
    (h : HookCatalog.checkSelection state previous hooks = .ok ()) (hmem : hook ∈ hooks) :
    state.entries[hook.manifest.key]? = some hook := by
  induction hooks generalizing previous with
  | nil => exact nomatch hmem
  | cons first hooks ih =>
    simp only [HookCatalog.checkSelection, bind_eq_ok, reject_eq_ok, not_or, not_not] at h
    obtain ⟨_, ⟨-, hentry⟩, hrest⟩ := h
    rcases List.mem_cons.1 hmem with rfl | hmem
    · exact hentry
    · exact ih hrest hmem

theorem Restored.validated (h : Restored contract catalog binding w) (hmem : hook ∈ binding.saved.hooks) :
    hook.manifest.validate = .ok () := by
  obtain ⟨-, state, hstate, hselection⟩ := h.selected
  exact (replayRows_spec hstate).2.1 _ _ (checkSelection_registered hselection hmem)

theorem Restored.nodup (h : Restored contract catalog binding w) :
    ((selectedHooks binding event).map (·.manifest.key)).Nodup := by
  have hkeys : (binding.saved.hooks.map (·.manifest.key)).Nodup := h.ascending.imp fun hlt => by
    rintro rfl
    simp at hlt
  exact hkeys.sublist (List.filter_sublist.map _)

theorem maxOutputBytes_le (h : hook.manifest.validate = .ok ()) : hook.manifest.maxOutputBytes ≤ 64 * 1024 := by
  simp only [HookManifest.validate, bind_eq_ok, reject_eq_ok, not_or, not_not] at h
  obtain ⟨_, -, _, -, _, -, _, -, -, -, h⟩ := h
  exact h.2

variable (hlawful : codec.Lawful) (hexact : contract.Exact)
  (hapart : ∀ a b : HookCatalog codec, a.stream = b.stream → a = b)

/-- Where a dispatch stands that has begun its run. -/
structure Ahead (contract : journal.Contract) (catalog : HookCatalog codec) (selects : String → Prop)
    (i : ℕ) (binding : VerifiedHookBinding) (run : String) (rows : List FactRecord) (keys : List HookKey)
    (world : HookWorld J) : Prop where
  steady : world.Steady contract codec selects
  first : world.firsts (runStream run) = some i
  rows : world.rows contract (runStream run) = rows
  keys : ∀ key, (runStream run, key) ∈ world.executed → key ∈ keys
  restored : Restored contract catalog binding world

theorem Ahead.rely {w' : HookWorld J} (h : Ahead contract catalog selects i binding run rows keys w)
    (hw : Rely contract codec selects i w w') : Ahead contract catalog selects i binding run rows keys w' where
  steady := hw.steady
  first := (hw.firsts run).2 h.first
  rows := (hw.rows run h.first).trans h.rows
  keys key hkey := h.keys key (hw.executed run key h.first hkey)
  restored := h.restored.later hw.later hw.steady.toSound

include hlawful hexact hapart in
/-- **What one round yields**: both facts of the hook, and its script was executed once. -/
theorem yields_runHook {Q : HookReply × FactRef → HookWorld J → Prop} (hhooks : selects run)
    (hprogress : Progress contract i w run rows keys) (hrows : rows.length = 2 * place)
    (hmem : hook ∈ binding.saved.hooks) (hnew : hook.manifest.key ∉ keys)
    (h : ∀ w' started ended reply, w.Later contract w' →
      Ahead contract catalog selects i binding run (rows ++ [started, ended]) (keys ++ [hook.manifest.key]) w' →
      Observed codec store w'.files binding event run place hook started ended reply → Q (reply, reference ended) w') :
    Fallible.Yields (hookSetting contract codec store selects i)
      (runHook catalog policy nativeDigest binding event run hook place) Q w := by
  refine Fallible.yields_bind (fun w₀ hw₀ => ⟨trivial, fun cancelled w₀' hact _ _ => ?_⟩)
  obtain ⟨rfl, -⟩ := hact
  refine Fallible.yields_bind (yields_prepareHook hexact hapart hhooks (hprogress.rely hw₀) hrows
    fun w₁ started hlater₁ hsteady₁ hfirst₁ hrows₁ hkeys₁ hrestored₁ hintended => ?_)
  have hahead₁ : Ahead contract catalog selects i binding run (rows ++ [started]) keys w₁ :=
    ⟨hsteady₁, hfirst₁, hrows₁, hkeys₁, hrestored₁⟩
  refine Fallible.yields_bind (fun w₂ hw₂ => ⟨trivial, fun cancelled w₂' hact _ _ => ?_⟩)
  obtain ⟨rfl, -⟩ := hact
  have hahead₂ := hahead₁.rely hw₂
  refine Fallible.yields_bind (fun w₃ hw₃ => ?_)
  have hahead₃ := hahead₂.rely hw₃
  -- the script is executed while its run is this call's, and was not before
  have hfresh : (runStream run, hook.manifest.key) ∉ w₃.executed := fun hmem => hnew (hahead₃.keys _ hmem)
  have hallow : Allow contract codec selects i w₃ (.execute (runStream run) hook) := ⟨⟨run, rfl⟩, hahead₃.first, hfresh⟩
  refine ⟨hallow, fun outcome w₄ hact _ houtcome => ?_⟩
  obtain rfl := Except.ok.inj houtcome
  have hkept₄ := kept_act hapart hahead₃.steady hallow hact
  obtain ⟨⟨hbound, hw₄⟩, -⟩ := hact
  have hahead₄ : Ahead contract catalog selects i binding run (rows ++ [started]) (keys ++ [hook.manifest.key]) w₄ := by
    refine ⟨hkept₄.steady, ?_, ?_, fun key hkey => ?_, hahead₃.restored.later hkept₄.later hkept₄.steady.toSound⟩
    · rw [hw₄]
      exact hahead₃.first
    · rw [hw₄]
      exact hahead₃.rows
    · rw [hw₄] at hkey
      rcases List.mem_append.1 hkey with hkey | hkey
      · exact List.mem_append_left _ (hahead₃.keys key hkey)
      · rw [(Prod.mk.inj (List.mem_singleton.1 hkey)).2]
        exact List.mem_append_right _ (List.mem_singleton_self _)
  refine Fallible.yields_bind (Fallible.yields_bind (yields_putArtifact fun w₅ files hw₅ hkept₅ _ hfound => ?_))
  have hahead₅ := hahead₄.rely hw₅
  have hput : Progress contract i { w₅ with files } run (rows ++ [started]) (keys ++ [hook.manifest.key]) :=
    .inr ⟨hahead₅.first, hahead₅.rows, hahead₅.keys⟩
  refine Fallible.yields_bind (yields_appendTo hhooks (fun w' hw' => .inl ((hw'.firsts run).2 hahead₅.first))
    (fun w₆ w₇ hw₆ happended hkept₇ hexpected => Fallible.yields_lift fun fact hfact => Fallible.yields_bind
      (Fallible.yields_lift fun reply hreply => Fallible.yields_pure ?_)) hapart)
  obtain rfl : reference ⟨runStream run, 2 * place + 1 + 1, _⟩ = fact := Option.some.inj (expect_eq_ok.1 hfact)
  have hlength : (rows ++ [started]).length = 2 * place + 1 := by rw [List.length_append, hrows]; rfl
  obtain ⟨hfirst₇, hrows₇, hkeys₇⟩ := (hput.rely hw₆).appended hw₆.steady happended (hlength.trans hexpected)
  rw [hlength, List.append_assoc] at hrows₇
  have hfiles : HookWorld.Later contract { w₅ with files } w₇ := hw₆.later.trans hkept₇.later
  have hlater : w₁.Later contract w₇ :=
    (((hw₂.later.trans hw₃.later).trans hkept₄.later).trans (hw₅.later.trans hkept₅.later)).trans hfiles
  have hend : Ahead contract catalog selects i binding run (rows ++ [started, _]) (keys ++ [hook.manifest.key]) w₇ :=
    ⟨hkept₇.steady, hfirst₇, hrows₇, hkeys₇, hrestored₁.later hlater hkept₇.steady.toSound⟩
  have hreads := outcomeReply_eq_ok hlawful hreply hbound (maxOutputBytes_le (hrestored₁.validated hmem))
  obtain ⟨input, bytes, hretention, hencode, hsaved, hle, hdraft⟩ := (hintended.later hlater).input
  refine h w₇ started _ reply ((hw₀.later.trans hlater₁).trans hlater) hend ⟨(hintended.later hlater).body, hintended.at_,
    ⟨input, bytes, ?_, hretention, hencode, hsaved, hle, hdraft⟩, ⟨rfl, rfl⟩, ⟨_, _, ?_, rfl, hfiles.findArtifact (hfound _ hreads.2),
      hreads.1, ?_⟩⟩
  · rw [hdraft, field_input, hlawful.artifact]
  · rw [field_output, hlawful.artifact]
  · rw [hreply]
    rfl

include hlawful hexact hapart in
/-- **What the loop yields**: a trail, after the facts that were there. -/
theorem yields_runHooks {hooks : List RegisteredHook} {completed : List FactRef} {Q : HookDispatchResult → HookWorld J → Prop}
    (hhooks : selects run) (hprogress : Progress contract i w run rows keys)
    (hahead : hooks = [] → Ahead contract catalog selects i binding run rows keys w) (hrows : rows.length = 2 * place)
    (hmem : ∀ hook ∈ hooks, hook ∈ binding.saved.hooks) (hnodup : (keys ++ hooks.map (·.manifest.key)).Nodup)
    (h : ∀ w' r tail keys', w.Later contract w' → Ahead contract catalog selects i binding run (rows ++ tail) keys' w' →
      Trail codec store w'.files binding event run place completed hooks tail r → Q r w') :
    Fallible.Yields (hookSetting contract codec store selects i)
      (runHooks catalog policy nativeDigest binding event run place completed hooks) Q w := by
  induction hooks generalizing place completed rows keys w with
  | nil =>
    refine Fallible.yields_pure (h w _ [] keys .refl ?_ .done)
    rw [List.append_nil]
    exact hahead rfl
  | cons hook hooks ih =>
    have hnew : hook.manifest.key ∉ keys := fun hkey =>
      (List.nodup_append.1 hnodup).2.2 _ hkey _ (List.mem_cons_self ..) rfl
    refine Fallible.yields_bind (yields_runHook hlawful hexact hapart hhooks hprogress hrows (hmem hook (List.mem_cons_self ..))
      hnew fun w₁ started ended reply hlater hnext hobserved => ?_)
    show Fallible.Yields _ (if reply.decision = .deny then _ else _) Q w₁
    split_ifs with hdeny
    · exact Fallible.yields_pure (h w₁ _ _ _ hlater hnext (.denied hobserved hdeny))
    · refine ih (.inr ⟨hnext.first, hnext.rows, hnext.keys⟩) (fun _ => hnext) ?_
        (fun other hother => hmem other (List.mem_cons_of_mem _ hother)) ?_ fun w₂ r tail keys' hlater' hend htrail => ?_
      · rw [List.length_append, hrows]
        rfl
      · rwa [List.append_assoc]
      · rw [List.append_assoc] at hend
        exact h w₂ r _ keys' (hlater.trans hlater') hend (.next (hobserved.later hlater') hdeny htrail)

/-- **What a dispatch leaves for ever**: a trail of its run, to which nobody adds a fact. -/
structure Recorded (contract : journal.Contract) (codec : HookCodec) (store : ArtifactStore)
    (selects : String → Prop) (i : ℕ) (catalog : HookCatalog codec) (binding : VerifiedHookBinding)
    (event : HookEvent) (operationId : String) (run : String) (r : HookDispatchResult) (world : HookWorld J) : Prop where
  steady : world.Steady contract codec selects
  asked : Asked contract codec binding event operationId catalog world run
  trail : Trail codec store world.files binding event run 0 [] (selectedHooks binding event)
    (world.rows contract (runStream run)) r
  closed : world.firsts (runStream run) = some i ∨ ¬selects run

include hlawful hexact hapart in
/-- **What `dispatch` yields.** -/
theorem yields_dispatch {operationId : String} (hselects : ∀ run, runOf codec binding operationId = .ok run →
      (selects run ↔ selectedHooks binding event ≠ [])) (hnew : ∀ run, w.firsts (runStream run) ≠ some i) :
    Fallible.Yields (hookSetting contract codec store selects i)
      (dispatch catalog policy nativeDigest binding event operationId)
      (fun r w' => ∃ run, Recorded contract codec store selects i catalog binding event operationId run r w') w := by
  refine Fallible.yields_bind (Fallible.yields_lift fun _ hoperation => Fallible.yields_bind (Fallible.yields_lift
    fun _ hevent => Fallible.yields_bind (Fallible.yields_lift fun _ hscope => Fallible.yields_bind
      (fun w₁ hw₁ => ⟨trivial, fun cancelled w₁' hact _ _ => ?_⟩))))
  obtain ⟨rfl, -⟩ := hact
  rw [reject_eq_ok, not_not] at hscope
  refine Fallible.yields_bind (Fallible.yields_lift fun run hrun => Fallible.yields_bind (yields_validateCurrent hexact
    fun w₂ hw₂ hrestored _ => Fallible.yields_bind (yields_readStream watched_setting hexact fun w₃ hw₃ hreads =>
      Fallible.yields_bind (Fallible.yields_lift fun _ hempty => ?_))))
  have hw : Rely contract codec selects i w w₃ := Rely.trans hw₁ (Rely.trans hw₂ hw₃)
  have hrestored₃ := hrestored.later hw₃.later hw₃.steady.toSound
  have hnil : w₃.rows contract (runStream run) = [] := by
    unfold refuseExisting at hempty
    split at hempty
    · rename_i hlast
      rw [List.getLast?_eq_none_iff, List.take_eq_nil_iff] at hlast
      exact hlast.resolve_left (by decide)
    · exact nomatch hempty
  have hasked : ∀ w', w₃.Later contract w' → w'.Sound contract codec →
      Asked contract codec binding event operationId catalog w' run := fun w' hlater hsound =>
    ⟨hoperation, hevent, hscope, hrestored₃.later hlater hsound, hrun, hreads, _, HookEvent.encodes hlawful hevent⟩
  by_cases hnone : selectedHooks binding event = []
  · rw [hnone]
    refine Fallible.yields_pure ⟨run, hw₃.steady, hasked w₃ .refl hw₃.steady.toSound, ?_, .inr fun hsome => (hselects run hrun).1 hsome hnone⟩
    rw [hnone, hnil]
    exact .done
  · have hprogress : Progress contract i w₃ run [] [] := .inl ⟨rfl, rfl, fun hfirst => hnew run ((hw.firsts run).1 hfirst)⟩
    refine yields_runHooks hlawful hexact hapart ((hselects run hrun).2 hnone) hprogress (fun hempty => absurd hempty hnone) rfl
      (fun hook hmem => (List.mem_filter.1 hmem).1) ?_ fun w₄ r tail keys' hlater hahead htrail => ?_
    · rw [List.nil_append]
      exact hrestored₃.nodup
    · refine ⟨run, hahead.steady, hasked w₄ hlater hahead.steady.toSound, ?_, .inl hahead.first⟩
      rw [hahead.rows, List.nil_append]
      exact htrail

end Loop

/-! ### The catalog -/

section Catalogs

variable {catalog : HookCatalog codec} (hlawful : codec.Lawful) (hexact : contract.Exact)
  (hapart : ∀ a b : HookCatalog codec, a.stream = b.stream → a = b)

include hapart in
/-- **A planned fact may be appended**: if it is, the rows are still those that were replayed. -/
theorem yields_appendFact {state : State} {draft : FactDraft} {rows : List FactRecord}
    (hreplay : catalog.replayRows rows = .ok state) (hrows : rows <+: w.rows contract catalog.stream)
    (hnext : ∃ next, catalog.replayRow state ⟨catalog.stream, state.head + 1, draft⟩ = .ok next) :
    Fallible.Yields (hookSetting contract codec store selects i) (catalog.appendFact state.head draft)
      (fun _ w' => w'.Steady contract codec selects) w := by
  refine Fallible.yields_bind (Fallible.yields_attempt (Prog.holds_call fun w' hw' => ?_))
  have hallow : Allow contract codec selects i w' (.append catalog.stream state.head [draft]) := by
    refine ⟨⟨draft, rfl⟩, .inr ⟨catalog, rfl, fun hhead => ?_⟩⟩
    have hprefix := hrows.trans (hw'.later.rows catalog.stream)
    have hsame : rows = w'.rows contract catalog.stream :=
      hprefix.eq_of_length ((replayRows_spec hreplay).2.2.1.symm.trans hhead)
    obtain ⟨next, hnext⟩ := hnext
    refine ⟨next, ?_⟩
    rw [← hsame, HookCatalog.replayRows, List.foldlM_append, bind_eq_ok]
    exact ⟨state, hreplay, by simp only [plannedRecords, List.foldlM_cons, List.foldlM_nil, hnext]; rfl⟩
  refine ⟨hallow, fun a w'' hact => ?_⟩
  have hkept := kept_act hapart hw'.steady hallow hact
  rcases a with error | records
  · cases error with
    | conflict => exact Fallible.yields_pure hkept.steady
    | stalePosition => exact Fallible.yields_pure hkept.steady
    | invalid => exact Fallible.yields_throw
    | missingCause => exact Fallible.yields_throw
    | storage => exact Fallible.yields_throw
  · exact Fallible.yields_pure hkept.steady

include hlawful hexact hapart in
/-- **`register` asks only for what the catalog replays.** -/
theorem yields_register {manifest : HookManifest} {bytes : Bytes} :
    Fallible.Yields (hookSetting contract codec store selects i) (catalog.register manifest bytes) (fun _ _ => True) w := by
  refine Fallible.yields_bind (Fallible.yields_lift fun _ hmanifest => Fallible.yields_bind (Fallible.yields_lift
    fun _ hbody => Fallible.yields_bind (yields_putArtifact fun w₁ files hw₁ _ hdigest _ => Fallible.yields_bind
      (yields_replay watched_setting hexact fun w₂ state hw₂ _ hstate => ?_))))
  simp only [reject_eq_ok, not_or, not_lt] at hbody
  split
  · exact Fallible.yields_lift fun _ _ => trivial
  · rename_i hfree
    refine Fallible.yields_bind (Fallible.yields_lift fun _ hsize => Fallible.yields_bind (Fallible.yields_lift
      fun draft hdraft => Fallible.yields_bind ((yields_appendFact hapart hstate List.prefix_rfl ?_).mono fun _ w₃ hw₃ => ?_)))
    · let payload : Registration :=
        { catalog := catalog.name, manifest, body := ⟨codec.sha256 bytes, bytes.length, .required⟩ }
      exact @replayRow_registered codec catalog state hlawful payload draft (replayRows_spec hstate).1 hmanifest rfl rfl hdigest
        ⟨List.length_pos_of_ne_nil hbody.1, hbody.2.1⟩ hfree (reject_eq_ok.1 hsize) hdraft
    · refine Fallible.yields_bind (yields_replay watched_setting hexact fun w₄ state' hw₄ _ _ => Fallible.yields_bind
        (Fallible.yields_lift fun _ _ => Fallible.yields_lift fun _ _ => trivial))

include hlawful hexact hapart in
/-- **So does `revoke`.** -/
theorem yields_revoke {key : HookKey} {registration : FactRef} {operationId reason : String} :
    Fallible.Yields (hookSetting contract codec store selects i) (catalog.revoke key registration operationId reason)
      (fun _ _ => True) w := by
  refine Fallible.yields_bind (Fallible.yields_lift fun _ _ => Fallible.yields_bind (Fallible.yields_lift
    fun _ hoperation => Fallible.yields_bind (Fallible.yields_lift fun _ hreason => Fallible.yields_bind
      (yields_replay watched_setting hexact fun w₁ state hw₁ _ hstate => ?_))))
  split
  · exact Fallible.yields_lift fun _ _ => trivial
  · rename_i hnew
    refine Fallible.yields_bind (Fallible.yields_lift fun saved hsaved => Fallible.yields_bind (Fallible.yields_lift
      fun _ hsame => Fallible.yields_bind (Fallible.yields_lift fun _ hfree => Fallible.yields_bind (Fallible.yields_lift
        fun draft hdraft => Fallible.yields_bind ((yields_appendFact hapart hstate List.prefix_rfl ?_).mono fun _ w₂ hw₂ => ?_)))))
    · rw [reject_eq_ok, not_not] at hsame
      rw [reject_eq_ok, Bool.not_eq_true, Option.isSome_eq_false_iff, Option.isNone_iff_eq_none] at hfree
      exact @replayRow_revoked codec catalog state hlawful ⟨key, registration, operationId, reason⟩ draft saved
        (replayRows_spec hstate).1 hoperation (reject_eq_ok.1 hreason) (expect_eq_ok.1 hsaved)
        hsame hfree hnew hdraft
    · exact Fallible.yields_bind (yields_replay watched_setting hexact fun w₃ state' hw₃ _ _ => Fallible.yields_bind
        (Fallible.yields_lift fun _ _ => Fallible.yields_lift fun _ _ => trivial))

end Catalogs

/-! ### All runs -/

section Runs

variable (contract codec store selects) in
/-- What the answer of a call leaves. -/
def Outcome (i : ℕ) : HookCall codec → HookAnswer → HookWorld J → Prop
  | .dispatch catalog _ _ binding event operationId, .dispatched (.ok r), world =>
    ∃ run, Recorded contract codec store selects i catalog binding event operationId run r world
  | .verify _ binding event operationId, .verified (.ok r), world =>
    binding.Ascending ∧ ∃ rows, Proven contract codec store binding event operationId world rows r
  | _, _, _ => True

variable (codec selects) in
/-- **The condition on the calls**: of the dispatches of one operation all select a hook, or
none does. -/
def Selecting : HookCall codec → Prop
  | .dispatch _ _ _ binding event operationId =>
    ∀ run, runOf codec binding operationId = .ok run → (selects run ↔ selectedHooks binding event ≠ [])
  | _ => True

variable (contract codec store selects) in
/-- Calls of the hooks under both conditions. -/
def freshRules : Pool.Rules HookOp HookOp.Answer (HookWorld J) (HookCall codec) HookAnswer :=
  { hookRules contract store codec (Selecting codec selects) with act := FreshActs contract codec store }

variable (contract codec selects) in
/-- A steady world in which every run was begun by a call that was made. -/
def Good (n : ℕ) (world : HookWorld J) : Prop :=
  world.Steady contract codec selects ∧ ∀ run k, world.firsts (runStream run) = some k → k < n

variable {w' : HookWorld J} {catalog : HookCatalog codec} {binding : VerifiedHookBinding} {event : HookEvent}
  {operationId : String} {r : HookDispatchResult}

theorem Recorded.frozen (h : Recorded contract codec store selects i catalog binding event operationId run r w)
    (hw : Rely contract codec selects i w w') :
    w'.rows contract (runStream run) = w.rows contract (runStream run) := by
  rcases h.closed with hfirst | hnone
  · exact hw.rows run hfirst
  · have hnil : ∀ {v : HookWorld J}, v.Steady contract codec selects → v.rows contract (runStream run) = [] :=
      fun hv => by_contra fun hne => hnone (hv.quiet run hne)
    rw [hnil hw.steady, hnil h.steady]

theorem Recorded.rely (h : Recorded contract codec store selects i catalog binding event operationId run r w)
    (hw : Rely contract codec selects i w w') :
    Recorded contract codec store selects i catalog binding event operationId run r w' where
  steady := hw.steady
  asked := { h.asked with restored := h.asked.restored.later hw.later hw.steady.toSound }
  trail := by
    rw [h.frozen hw]
    exact h.trail.later hw.later
  closed := h.closed.imp_left (hw.firsts run).2

theorem Proven.later (h : Proven contract codec store binding event operationId w rows r) (hw : w.Later contract w') :
    Proven contract codec store binding event operationId w' rows r := by
  obtain ⟨run, hrun, hrows, htrail⟩ := h
  exact ⟨run, hrun, hrows.trans (hw.rows _), htrail.later hw⟩

theorem Outcome.rely {c : HookCall codec} {a : HookAnswer} (h : Outcome contract codec store selects i c a w)
    (hw : Rely contract codec selects i w w') :
    Outcome contract codec store selects i c a w' := by
  unfold Outcome at h ⊢
  split
  · obtain ⟨run, hrecorded⟩ := h
    exact ⟨run, hrecorded.rely hw⟩
  · obtain ⟨hascending, rows, hproven⟩ := h
    exact ⟨hascending, rows, hproven.later hw.later⟩
  · trivial

variable (hlawful : codec.Lawful) (hexact : contract.Exact)
  (hapart : ∀ a b : HookCatalog codec, a.stream = b.stream → a = b)

include hlawful hexact hapart in
/-- **A call that is made** asks only for what it may, and leaves what its answer says. -/
theorem holds_program {c : HookCall codec} (hc : Selecting codec selects c) (hnew : ∀ run, w.firsts (runStream run) ≠ some i) :
    Prog.Holds (hookSetting contract codec store selects i) c.program (Outcome contract codec store selects i c) w := by
  cases c with
  | dispatch catalog policy nativeDigest binding event operationId =>
    refine Prog.holds_bind (Prog.Holds.mono (yields_dispatch hlawful hexact hapart hc hnew) fun a w' ha => ?_)
    cases a with
    | ok r => exact ha r rfl
    | error error => trivial
  | verify catalog binding event operationId =>
    refine Prog.holds_bind (Prog.Holds.mono (yields_verifyDispatch watched_setting hexact) fun a w' ha => ?_)
    cases a with
    | ok r => exact ha r rfl
    | error error => trivial
  | register catalog manifest bytes =>
    exact Prog.holds_bind (Prog.Holds.mono (yields_register hlawful hexact hapart) fun a w' _ => trivial)
  | revoke catalog key registration operationId reason =>
    exact Prog.holds_bind (Prog.Holds.mono (yields_revoke hlawful hexact hapart) fun a w' _ => trivial)

variable (contract codec store selects) in
/-- What holds of every call: it is on its way to what its answer says. -/
def Underway (i : ℕ) (c : HookCall codec) (p : Prog HookOp HookOp.Answer HookAnswer) (world : HookWorld J) : Prop :=
  Prog.Holds (hookSetting contract codec store selects i) p (Outcome contract codec store selects i c) world

theorem Underway.rely {c : HookCall codec} {p : Prog HookOp HookOp.Answer HookAnswer}
    (h : Underway contract codec store selects i c p w) (hw : Rely contract codec selects i w w') :
    Underway contract codec store selects i c p w' :=
  Prog.Holds.survives (fun _ _ _ => Rely.trans) (fun _ _ _ => Outcome.rely) h hw

include hapart in
/-- **An operation of a call** keeps the world good and the call on its way. -/
theorem Good.own {n : ℕ} {c : HookCall codec} {o : HookOp} {continuation : o.Answer → Prog HookOp HookOp.Answer HookAnswer}
    {a : o.Answer} (hgood : Good contract codec selects n w) (hi : i < n)
    (h : Underway contract codec store selects i c (.ask o continuation) w) (hact : FreshActs contract codec store i w o a w') :
    Good contract codec selects n w' ∧ Underway contract codec store selects i c (continuation a) w' := by
  obtain ⟨hallow, hnext⟩ := Prog.Holds.step hgood.1.rely h
  have hkept := kept_act hapart hgood.1 hallow hact
  refine ⟨⟨hkept.steady, fun run k hk => ?_⟩, hnext a w' hact⟩
  rcases hkept.firsts run k hk with hk | rfl
  · exact hgood.2 run k hk
  · exact hi

include hlawful hexact hapart in
theorem keeps_underway : Pool.Keeps (freshRules contract codec store selects) (Good contract codec selects)
    (Underway contract codec store selects) where
  starts n c s hgood hc :=
    ⟨⟨hgood.1, fun run k hk => Nat.lt_succ_of_lt (hgood.2 run k hk)⟩,
      holds_program hlawful hexact hapart hc fun run hfirst => lt_irrefl n (hgood.2 run n hfirst)⟩
  own n i c o continuation a s s' hgood hi h hact := hgood.own hapart hi h hact
  harmless n i j c d o continuation p a s s' hij hgood h hact hd := by
    obtain ⟨hallow, -⟩ := Prog.Holds.step hgood.1.rely h
    exact hd.rely ((kept_act hapart hgood.1 hallow hact).rely j hij)
  other n s s' hgood hother := by
    have hrely : ∀ j, Rely contract codec selects j s s' := fun j => rely_other hgood.1 hother
    exact ⟨⟨(hrely 0).steady, fun run k hk => hgood.2 run k (((hrely k).firsts run).1 hk)⟩,
      fun i c p h => h.rely (hrely i)⟩

theorem HooksIdle.good (h : HooksIdle contract codec w) : Good contract codec selects 0 w := by
  refine ⟨⟨⟨h.valid, h.catalogs⟩, fun run => ?_, ?_, fun e he => ?_, fun run hne => absurd (h.runs run) hne⟩,
    fun run k hk => ?_⟩
  · exact ⟨fun _ => h.runs run, fun _ => h.firsts _⟩
  · rw [h.executed]
    exact List.nodup_nil
  · rw [h.executed] at he
    exact nomatch he
  · rw [h.firsts] at hk
    exact nomatch hk

/-! ### After the answer -/

variable (contract codec store) in
/-- The operations when none of them fails and every script ends in one way. -/
def hookAct (script : RegisteredHook → NativeOutcome) (i : ℕ) (world : HookWorld J) : (o : HookOp) → o.Answer × HookWorld J
  | .read stream after limit => (journal.read world.journal stream after limit, world)
  | .append stream expected batch =>
    let (a, j) := journal.append world.journal stream expected batch
    (a, world.appended contract i stream j)
  | .put bytes =>
    let (a, files) := pinArtifact codec.sha256 store world.files bytes
    (a, { world with files })
  | .get reference maxBytes => (findArtifact codec.sha256 store world.files reference maxBytes, world)
  | .cancelled => (false, world)
  | .remaining => (some 10000, world)
  | .prepare .. => (.ok (), world)
  | .execute stream hook => (script hook, { world with executed := world.executed ++ [(stream, hook.manifest.key)] })

def Printing (script : RegisteredHook → NativeOutcome) : Prop :=
  ∀ hook exitCode stdout stderr, script hook = .exited exitCode stdout stderr →
    stdout.length + stderr.length ≤ hook.manifest.maxOutputBytes

theorem hookActs_act {script : RegisteredHook → NativeOutcome} (hprinting : Printing script) (o : HookOp) :
    HookActs contract codec.sha256 store i w o (hookAct contract codec store script i w o).1
      (hookAct contract codec store script i w o).2 := by
  cases o with
  | read => exact ⟨rfl, rfl⟩
  | append => exact .inl ⟨_, rfl, rfl⟩
  | put => exact .inl ⟨.inl rfl, rfl⟩
  | get => exact ⟨rfl, rfl⟩
  | cancelled => rfl
  | remaining => rfl
  | prepare => rfl
  | execute stream hook => exact ⟨hprinting hook, rfl⟩

variable (contract codec store selects) in
/-- The setting of a verification after the call `i` has answered. -/
def sinceSetting (i j : ℕ) : Setting HookOp HookOp.Answer (HookWorld J) where
  act := FreshActs contract codec store j
  rely := Rely contract codec selects i
  allow _
    | .read .. | .get .. => True
    | _ => False

theorem watched_since {j : ℕ} : Watched contract codec store (sinceSetting contract codec store selects i j) where
  later _ _ h := ⟨h.later, h.steady.toSound⟩
  trans _ _ _ := Rely.trans
  refl _ _ h := h.steady.rely
  acts _ _ _ _ h := ⟨j, h.1⟩
  reads _ _ _ _ := trivial
  gets _ _ _ := trivial

variable (contract codec store selects) in
/-- A verification is on its way to the answer of the dispatch. -/
def Agreeing (i : ℕ) (r : HookDispatchResult) (j : ℕ) (p : Prog HookOp HookOp.Answer HookAnswer) (world : HookWorld J) : Prop :=
  Prog.Ends (sinceSetting contract codec store selects i j) p (fun a _ => a = .verified (.ok r)) world

theorem Agreeing.rely {j : ℕ} {p : Prog HookOp HookOp.Answer HookAnswer}
    (h : Agreeing contract codec store selects i r j p w) (hw : Rely contract codec selects i w w') :
    Agreeing contract codec store selects i r j p w' :=
  Prog.Ends.interfere (fun _ _ _ => Rely.trans) (fun _ _ _ ha _ => ha) h hw

include hexact in
theorem Recorded.agreeing {j : ℕ} (h : Recorded contract codec store selects i catalog binding event operationId run r w) :
    Agreeing contract codec store selects i r j (HookCall.verify catalog binding event operationId).program w :=
  Prog.ends_bind ((ends_verifyDispatch watched_since hexact h.asked h.trail fun _ hw' => h.frozen hw').mono
    fun _ _ ha => congrArg HookAnswer.verified ha)

variable (contract codec store selects) in
/-- What holds of every call after the call `i` has answered. -/
def Since (i n : ℕ) (c : HookCall codec) (r : HookDispatchResult) (j : ℕ) (d : HookCall codec)
    (p : Prog HookOp HookOp.Answer HookAnswer) (world : HookWorld J) : Prop :=
  Underway contract codec store selects j d p world ∧ (j = i → ∃ a, p = .done a) ∧
    (n ≤ j → d = c → Agreeing contract codec store selects i r j p world)

include hlawful hexact hapart in
/-- **Every step keeps what was recorded**, and every later verification on its way to it. -/
theorem keeps_since {n : ℕ} (hi : i < n) :
    Pool.Keeps (freshRules contract codec store selects)
      (fun m world => Good contract codec selects m world ∧ n ≤ m ∧
        Recorded contract codec store selects i catalog binding event operationId run r world)
      (Since contract codec store selects i n (.verify catalog binding event operationId) r) := by
  have hkeeps : Pool.Keeps (freshRules contract codec store selects) _ _ := keeps_underway hlawful hexact hapart
  -- a step of another call leaves the first what it relies on
  have hrely : ∀ {m j : ℕ} {d : HookCall codec} {o : HookOp} {continuation : o.Answer → Prog HookOp HookOp.Answer HookAnswer}
      {a : o.Answer} {s s' : HookWorld J}, Good contract codec selects m s →
      Since contract codec store selects i n (.verify catalog binding event operationId) r j d (.ask o continuation) s →
      FreshActs contract codec store j s o a s' → Rely contract codec selects i s s' := by
    intro m j d o continuation a s s' hgood hsince hact
    have hne : j ≠ i := fun he => by
      obtain ⟨_, hdone⟩ := hsince.2.1 he
      exact nomatch hdone
    obtain ⟨hallow, -⟩ := Prog.Holds.step hgood.1.rely hsince.1
    exact (kept_act hapart hgood.1 hallow hact).rely i hne
  refine ⟨fun m c s hgood hc => ?_, fun m j c o continuation a s s' hgood hj hsince hact => ?_,
    fun m j k c d o continuation p a s s' hjk hgood hsince hact hd => ?_, fun m s s' hgood hother => ?_⟩
  · obtain ⟨hworld, hn, hrecorded⟩ := hgood
    obtain ⟨hgood', hunderway⟩ := hkeeps.starts m c s hworld hc
    refine ⟨⟨hgood', Nat.le_succ_of_le hn, hrecorded⟩, hunderway, fun he => ?_, fun _ hverify => ?_⟩
    · exact absurd he (Nat.ne_of_gt (lt_of_lt_of_le hi hn))
    · subst hverify
      exact hrecorded.agreeing hexact
  · obtain ⟨hworld, hn, hrecorded⟩ := hgood
    have hstep := hrely hworld hsince hact
    obtain ⟨hgood', hunderway⟩ := hkeeps.own m j c o continuation a s s' hworld hj hsince.1 hact
    refine ⟨⟨hgood', hn, hrecorded.rely hstep⟩, hunderway, fun he => ?_, fun hle hverify => ?_⟩
    · obtain ⟨_, hdone⟩ := hsince.2.1 he
      exact nomatch hdone
    · exact ((hsince.2.2 hle hverify) s hworld.1.rely).2 a s' hact
  · have hstep := hrely hgood.1 hsince hact
    exact ⟨hkeeps.harmless m j k c d o continuation p a s s' hjk hgood.1 hsince.1 hact hd.1, hd.2.1,
      fun hle hverify => (hd.2.2 hle hverify).rely hstep⟩
  · obtain ⟨hworld, hn, hrecorded⟩ := hgood
    obtain ⟨hgood', hcalls⟩ := hkeeps.other m s s' hworld hother
    have hstep : Rely contract codec selects i s s' := rely_other hworld.1 hother
    exact ⟨⟨hgood', hn, hrecorded.rely hstep⟩, fun j c p hsince => ⟨hcalls j c p hsince.1, hsince.2.1,
      fun hle hverify => (hsince.2.2 hle hverify).rely hstep⟩⟩

theorem Agreeing.answers {j : ℕ} {p : Prog HookOp HookOp.Answer HookAnswer}
    (h : Agreeing contract codec store selects i r j p w) (hsteady : w.Steady contract codec selects)
    (script : RegisteredHook → NativeOutcome) :
    ∃ world, p.run (hookAct contract codec store script j) w = some (.verified (.ok r), world) := by
  have hrefl : ∀ s : HookWorld J, s.Steady contract codec selects → Rely contract codec selects i s s := fun _ hs => hs.rely
  have hact : ∀ (s : HookWorld J) o, s.Steady contract codec selects →
      (sinceSetting contract codec store selects i j).allow s o →
      FreshActs contract codec store j s o (hookAct contract codec store script j s o).1
        (hookAct contract codec store script j s o).2 ∧
        (hookAct contract codec store script j s o).2.Steady contract codec selects := by
    intro s o hs hallow
    cases o with
    | read => exact ⟨⟨⟨rfl, rfl⟩, trivial⟩, hs⟩
    | get => exact ⟨⟨⟨rfl, rfl⟩, trivial⟩, hs⟩
    | append | put | cancelled | remaining | prepare | execute => exact hallow.elim
  obtain ⟨_, world, hrun, rfl, -⟩ := Prog.Ends.runs hrefl hact h hsteady
  exact ⟨world, hrun⟩

include hlawful hexact hapart in
/-- **Hooks run at most once, and their proof agrees with the run**, as long as no fact of a
run is already recorded where a call appends it.  No script is executed twice for one
run.  After a dispatch has answered, every verification that is made finds its answer,
whatever was registered, revoked or run in between; wherever one stands, it ends with it.
What a verification answers, the facts of the run say: every selected hook, in the order
of the keys, was started and succeeded, up to the first that denies. -/
theorem hooks_once {pool : Pool HookOp HookOp.Answer (HookWorld J) (HookCall codec) HookAnswer}
    (h : Pool.Reach (freshRules contract codec store selects) (HooksIdle contract codec) pool) :
    pool.world.executed.Nodup ∧
      (∀ (i : ℕ) (catalog : HookCatalog codec) policy nativeDigest binding event operationId r,
        pool.calls[i]? = some (.dispatch catalog policy nativeDigest binding event operationId, .done (.dispatched (.ok r))) →
        ∀ later, Pool.Run (freshRules contract codec store selects) pool later → ∀ (j : ℕ) p, pool.calls.length ≤ j →
          later.calls[j]? = some (.verify catalog binding event operationId, p) → ∀ script,
          ∃ world, p.run (hookAct contract codec store script j) later.world = some (.verified (.ok r), world)) ∧
      ∀ (i : ℕ) (catalog : HookCatalog codec) binding event operationId r,
        pool.calls[i]? = some (.verify catalog binding event operationId, .done (.verified (.ok r))) →
        binding.Ascending ∧ ∃ rows, Proven contract codec store binding event operationId pool.world rows r := by
  have hkeeps : Pool.Keeps (freshRules contract codec store selects) _ _ := keeps_underway hlawful hexact hapart
  have hpool := h.invariant hkeeps fun s hs => HooksIdle.good hs
  refine ⟨hpool.world.1.executed, fun i catalog policy nativeDigest binding event operationId r hi later hrun j p hj hp script => ?_,
    fun i catalog binding event operationId r hi => hpool.calls i _ _ hi⟩
  obtain ⟨run, hrecorded⟩ := hpool.calls i _ _ hi
  have hlt : i < pool.calls.length := (List.getElem?_eq_some_iff.1 hi).1
  have hlater := Pool.Holds.run (keeps_since hlawful hexact hapart hlt)
    ⟨⟨hpool.world, le_rfl, hrecorded⟩, fun k d q hk => ⟨hpool.calls k d q hk, fun he => ?_, fun hle _ => ?_⟩⟩ hrun
  · exact ((hlater.calls j _ p hp).2.2 hj rfl).answers hlater.world.1.1 script
  · subst he
    exact ⟨_, congrArg Prod.snd (Option.some.inj (hk.symm.trans hi))⟩
  · exact absurd (List.getElem?_eq_some_iff.1 hk).1 (not_lt.2 hle)

end Runs

/-! ### One hook -/

section Sample

def samplePrinted : Printed := (some 0, [], [])

noncomputable def sampleDigest (value : Value) : String := plainDigest (plainBytes [samplePrinted] value)

def samplePermissions : Agent.AgentPermissions where
  tools := ∅
  delegation := { namedTargets := ∅, allowInline := false, allowSelf := false }

abbrev sampleDefinition : Agent.AgentDefinitionInput where
  definitionId := "planner"
  revision := "1"
  displayName := none
  model := ⟨"provider", "model"⟩
  instructions := "plan"
  permissions := samplePermissions

noncomputable def sampleOwnership : Agent.AgentInvocationBinding fun value => plainDigest (plainBytes [samplePrinted] value) where
  taskId := "task"
  invocationId := "invocation"
  logicalSessionId := "session"
  privateSessionId := "session"
  contextKind := .root
  snapshot :=
    { input :=
        { schemaVersion := 1
          definition := ⟨sampleDefinition, by decide +kernel⟩
          identity := ⟨"planner", "1", "planner-1"⟩
          permissions := samplePermissions
          digest := "0000000000000000000000000000000000000000000000000000000000000420" }
      valid := by decide +kernel }

def sampleScope : HookScope where
  logicalSessionId := "session"
  taskId := "task"
  invocationId := "invocation"
  privateSessionId := "session"
  executionId := "execution"
  turnId := "turn"
  agentSnapshotDigest := "0000000000000000000000000000000000000000000000000000000000000420"

def sampleEvent : HookEvent where
  schemaVersion := 1
  scope := sampleScope
  payload := .beforeModel 1 sampleScope.agentSnapshotDigest

def sampleManifest : HookManifest where
  key := ⟨"audit", "1"⟩
  phases := (∅ : BTreeSet HookPhase).insert .beforeModel
  toolNames := ∅
  capabilities := ((∅ : BTreeSet Policy.Capability).insert .processExecute).insert .filesystemRead
  effects := ((∅ : BTreeSet Policy.Effect).insert .execute).insert .read
  timeoutMs := 1000
  maxInputBytes := 4096
  maxOutputBytes := 1024

def sampleBody : Bytes := [35]

def sampleRegistration : Registration where
  catalog := "hooks"
  manifest := sampleManifest
  body := ⟨plainDigest sampleBody, 1, .required⟩

noncomputable def sampleStream : String :=
  "agent.hooks.catalog." ++ sampleDigest (.array [.string "kolyan.hooks.catalog.v1", .string "hooks"])

noncomputable def sampleSaved : SavedBinding where
  catalog := "hooks"
  scope := sampleScope
  agent := ⟨"planner", "1"⟩
  ownership := Agent.ownershipReference sampleDigest "task" "invocation"
  hooks := [⟨sampleManifest, sampleRegistration.body, ⟨sampleStream, 1, "agent.hook.registration." ++
    sampleDigest (.array [.string "kolyan.hooks.definition.v1", .string "hooks", sampleManifest.key.toValue])⟩⟩]
  policyDigest := sampleScope.agentSnapshotDigest
  nativeDigest := sampleScope.agentSnapshotDigest

noncomputable def sampleArtifacts : List ArtifactRef :=
  [sampleEvent.toValue, printedValue samplePrinted].map fun value => ⟨sampleDigest value, value.encodedLen, .required⟩

noncomputable def sampleCodec : HookCodec :=
  plainCodec [samplePrinted] [sampleRegistration] sampleArtifacts sampleOwnership sampleSaved ⟨1, .proceed, ""⟩

noncomputable def sampleCatalog : HookCatalog sampleCodec where
  name := "hooks"
  stream := sampleStream
  named := by decide +kernel

def sampleStore : ArtifactStore := ⟨1024 * 1024, by decide⟩

noncomputable def sampleOwned : FactDraft where
  factId := Agent.ownershipFact sampleDigest "task" "invocation"
  subject := ⟨"agent.invocation", "invocation"⟩
  kind := "agent.context.bound"
  schemaVersion := 1
  critical := true
  causes := []
  payload := .null

abbrev SamplePool := Pool HookOp HookOp.Answer (HookWorld MemoryState) (HookCall sampleCodec) HookAnswer

noncomputable def sampleAppend (pool : SamplePool) (stream : String) (draft : FactDraft) : SamplePool :=
  { pool with world := { pool.world with journal := (memoryJournal.append pool.world.journal stream 0 [draft]).2 } }

noncomputable def sampleMake (pool : SamplePool) (c : HookCall sampleCodec) : SamplePool :=
  { pool with calls := pool.calls ++ [(c, c.program)] }

noncomputable def sampleRegister : HookCall sampleCodec := .register sampleCatalog sampleManifest sampleBody

/-- A hook is to be registered for an agent that owns its invocation. -/
noncomputable def sampleStart : SamplePool :=
  sampleMake (sampleAppend ⟨⟨MemoryState.empty, ∅, fun _ => none, []⟩, []⟩
    (Agent.ownershipStream sampleDigest "task" "invocation") sampleOwned) sampleRegister

theorem sample_idle : HooksIdle memoryContract sampleCodec ⟨MemoryState.empty, ∅, fun _ => none, []⟩ where
  valid := MemoryState.valid_empty
  catalogs _ := ⟨State.empty, rfl⟩
  runs _ := rfl
  firsts _ := rfl
  executed := rfl

variable {act : ℕ → HookWorld MemoryState → (o : HookOp) → o.Answer → HookWorld MemoryState → Prop} {pool next : SamplePool}

noncomputable abbrev sampleRules (act : ℕ → HookWorld MemoryState → (o : HookOp) → o.Answer → HookWorld MemoryState → Prop) :
    Pool.Rules HookOp HookOp.Answer (HookWorld MemoryState) (HookCall sampleCodec) HookAnswer :=
  { hookRules memoryContract sampleStore sampleCodec (Selecting sampleCodec fun _ => True) with act }

abbrev SampleReach (act : ℕ → HookWorld MemoryState → (o : HookOp) → o.Answer → HookWorld MemoryState → Prop) :
    SamplePool → Prop := Pool.Reach (sampleRules act) (HooksIdle memoryContract sampleCodec)

theorem reach_append (h : SampleReach act pool) {stream : String} (hone : OfOneFact stream) (draft : FactDraft) :
    SampleReach act (sampleAppend pool stream draft) :=
  h.step (.other (.append (fun hhooks => not_ofOneFact hhooks hone) (fun _ => rfl) rfl))

theorem reach_make (h : SampleReach act pool) {c : HookCall sampleCodec} (hc : Selecting sampleCodec (fun _ => True) c) :
    SampleReach act (sampleMake pool c) := h.step (.call hc)

theorem reach_start : SampleReach act sampleStart :=
  reach_make (reach_append (.initial sample_idle) (.inr ⟨_, rfl⟩) sampleOwned) trivial

/-- Before the first dispatch nothing has been executed. -/
theorem hooks_once_started : sampleStart.world.executed.Nodup := by
  have hreach : SampleReach (FreshActs memoryContract sampleCodec sampleStore) sampleStart := reach_start
  exact (hooks_once plainCodec_lawful memory_exact plainCodec_apart hreach).1

end Sample

end Hooks
end Kolyan
