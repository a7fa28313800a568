/-
# What a verification reads

The facts of a run are a `Trail`: for every hook that the binding selects, in its
order, the fact that it was started and the fact of its successful outcome, up to
the first that denies.  `verify_dispatch` accepts exactly the trails
(`yields_verifyDispatch`, `ends_verifyDispatch`), in any world: what it reads of the
binding, the catalog and the artifact store is never undone (`HookWorld.Later`).
-/

import Kolyan.Hooks.Replays

namespace Kolyan
namespace Hooks

open Checks Facts Artifacts Threads

variable {J : Type} {journal : FactJournal J} (contract : journal.Contract)

section Worlds

/-- The rows of a stream. -/
def HookWorld.rows (world : HookWorld J) (stream : String) : List FactRecord := contract.rows world.journal stream

/-- A journal that holds its invariants, on which every catalog replays. -/
structure HookWorld.Sound (codec : HookCodec) (world : HookWorld J) : Prop where
  valid : contract.Valid world.journal
  catalogs : ∀ catalog : HookCatalog codec, ∃ state, catalog.replayRows (world.rows contract catalog.stream) = .ok state

/-- **What no step undoes**: rows are only added, none to a stream of one fact that has
one, and an object that is pinned stays. -/
structure HookWorld.Later (world next : HookWorld J) : Prop where
  rows : ∀ stream, world.rows contract stream <+: next.rows contract stream
  one : ∀ stream, OfOneFact stream → world.rows contract stream ≠ [] → next.rows contract stream = world.rows contract stream
  files : ∀ (path : String) (bytes : Bytes), world.files[path]? = some bytes → next.files[path]? = some bytes

variable {contract} {world next last : HookWorld J}

theorem HookWorld.Later.refl : world.Later contract world := ⟨fun _ => List.prefix_rfl, fun _ _ _ => rfl, fun _ _ h => h⟩

theorem HookWorld.Later.trans (h : world.Later contract next) (h' : next.Later contract last) : world.Later contract last where
  rows stream := (h.rows stream).trans (h'.rows stream)
  one stream hone hne := by
    have hsame := h.one stream hone hne
    rw [h'.one stream hone (by rwa [hsame]), hsame]
  files path bytes hbytes := h'.files path bytes (h.files path bytes hbytes)

variable {sha256 : Bytes → String} {store : ArtifactStore}

theorem HookWorld.Later.findArtifact (h : world.Later contract next) {reference : ArtifactRef} {maxBytes : ℕ} {bytes : Bytes}
    (hread : findArtifact sha256 store world.files reference maxBytes = .ok bytes) :
    findArtifact sha256 store next.files reference maxBytes = .ok bytes := by
  simp only [Hooks.findArtifact, bind_eq_ok, expect_eq_ok, pure_eq_ok] at hread ⊢
  obtain ⟨path, hpath, u, hbound, content, hcontent, v, hintegrity, rfl⟩ := hread
  exact ⟨path, hpath, u, hbound, content, h.files path content hcontent, v, hintegrity, rfl⟩

end Worlds

section Restored

variable {codec : HookCodec} (catalog : HookCatalog codec) (binding : VerifiedHookBinding) (world : HookWorld J)

/-- **What `restore_binding` finds**: the saved selection in its stream, its owner in the
stream of the ownership and every selected hook in the catalog. -/
structure Restored : Prop where
  scope : binding.saved.scope.validate = .ok ()
  saved : ∃ stream factId, catalog.bindingCoordinates binding.saved.scope = .ok (stream, factId) ∧
    ¬(binding.reference.streamId ≠ stream ∨ binding.reference.position ≠ 1 ∨ binding.reference.factId ≠ factId) ∧
    validateRead stream 2 = .ok () ∧
    catalog.savedIn binding.reference binding.saved.scope factId ((world.rows contract stream).take 2) = .ok binding.saved
  ids : forEach Agent.validateId [binding.saved.scope.taskId, binding.saved.scope.invocationId,
    binding.saved.scope.logicalSessionId] = .ok ()
  owned : ∃ stream, stream = Agent.ownershipStream codec.digest binding.saved.scope.taskId binding.saved.scope.invocationId ∧
    validateRead stream 2 = .ok () ∧ ownerOf codec binding.saved.scope ((world.rows contract stream).take 2) =
      .ok (binding.saved.agent, binding.saved.ownership)
  selected : validateRead catalog.stream 257 = .ok () ∧ ∃ state,
    catalog.replayRows (world.rows contract catalog.stream) = .ok state ∧
      HookCatalog.checkSelection state none binding.saved.hooks = .ok ()

variable {contract catalog binding world} {next : HookWorld J}

theorem checkSelection_kept {state state' : State} (hkept : state.Kept state') {previous : Option HookKey}
    {hooks : List RegisteredHook} (h : HookCatalog.checkSelection state previous hooks = .ok ()) :
    HookCatalog.checkSelection state' previous hooks = .ok () := by
  induction hooks generalizing previous with
  | nil => rfl
  | cons hook hooks ih =>
    simp only [HookCatalog.checkSelection, bind_eq_ok, reject_eq_ok, not_or, not_not] at h ⊢
    obtain ⟨u, ⟨horder, hentry⟩, hrest⟩ := h
    exact ⟨u, ⟨horder, hkept _ _ hentry⟩, ih hrest⟩

/-- The hooks of a binding are in the order of their keys. -/
def VerifiedHookBinding.Ascending (binding : VerifiedHookBinding) : Prop :=
  (binding.saved.hooks.map (·.manifest.key)).Pairwise (fun a b => compare a b = .lt)

theorem checkSelection_ascends {state : State} {previous : Option HookKey} {hooks : List RegisteredHook}
    (h : HookCatalog.checkSelection state previous hooks = .ok ()) :
    (hooks.map (·.manifest.key)).Pairwise (fun a b => compare a b = .lt) ∧
      ∀ old ∈ previous, ∀ key ∈ hooks.map (·.manifest.key), compare old key = .lt := by
  induction hooks generalizing previous with
  | nil => exact ⟨.nil, fun _ _ _ hkey => nomatch hkey⟩
  | cons first hooks ih =>
    simp only [HookCatalog.checkSelection, bind_eq_ok, reject_eq_ok, not_or, not_not] at h
    obtain ⟨_, ⟨horder, -⟩, hrest⟩ := h
    obtain ⟨hpairs, hfirst⟩ := ih hrest
    have hlt := hfirst first.manifest.key rfl
    refine ⟨List.Pairwise.cons hlt hpairs, fun old hold key hkey => ?_⟩
    have hstep : compare old first.manifest.key = .lt := by
      rw [Option.mem_def.1 hold] at horder
      simpa using horder
    rcases List.mem_cons.1 hkey with rfl | hkey
    · exact hstep
    · exact Std.TransCmp.lt_trans hstep (hlt key hkey)

theorem Restored.ascending (h : Restored contract catalog binding world) : binding.Ascending := by
  obtain ⟨-, state, -, hselection⟩ := h.selected
  exact (checkSelection_ascends hselection).1

theorem HookWorld.Later.kept {α : Type} {f : List FactRecord → Except HookError α} {a : α} {stream : String}
    (h : world.Later contract next) (hone : OfOneFact stream) (hnil : ∀ a, f [] ≠ .ok a)
    (hf : f ((world.rows contract stream).take 2) = .ok a) : f ((next.rows contract stream).take 2) = .ok a := by
  have hne : world.rows contract stream ≠ [] := by
    intro hempty
    rw [hempty, List.take_nil] at hf
    exact hnil a hf
  rwa [h.one stream hone hne]

theorem savedIn_nil {fact : FactRef} {scope : HookScope} {factId : String} (saved : SavedBinding) :
    catalog.savedIn fact scope factId [] ≠ .ok saved := by
  simp [HookCatalog.savedIn, expect]

theorem ownerOf_nil {scope : HookScope} (owner : Agent.AgentKey × FactRef) : ownerOf codec scope [] ≠ .ok owner := by
  simp [ownerOf, Agent.loadOwnership, expect, mapError]

theorem ofOneFact_binding {scope : HookScope} {stream factId : String}
    (h : catalog.bindingCoordinates scope = .ok (stream, factId)) : OfOneFact stream := by
  simp only [HookCatalog.bindingCoordinates, bind_eq_ok, pure_eq_ok, Prod.mk.injEq] at h
  obtain ⟨digest, -, rfl, -⟩ := h
  exact .inl ⟨digest, rfl⟩

theorem ofOneFact_ownership {task invocation : String} : OfOneFact (Agent.ownershipStream codec.digest task invocation) :=
  .inr ⟨_, rfl⟩

/-- **A binding that was restored is restored again**, whatever was registered or revoked since. -/
theorem Restored.later (h : Restored contract catalog binding world) (hlater : world.Later contract next)
    (hsound : next.Sound contract codec) : Restored contract catalog binding next where
  scope := h.scope
  saved := by
    obtain ⟨stream, factId, hcoordinates, hreference, hread, hsaved⟩ := h.saved
    exact ⟨stream, factId, hcoordinates, hreference, hread,
      hlater.kept (ofOneFact_binding hcoordinates) savedIn_nil hsaved⟩
  ids := h.ids
  owned := by
    obtain ⟨_, rfl, hread, howner⟩ := h.owned
    exact ⟨_, rfl, hread, hlater.kept ofOneFact_ownership ownerOf_nil howner⟩
  selected := by
    obtain ⟨hread, state, hstate, hselection⟩ := h.selected
    obtain ⟨state', hstate'⟩ := hsound.catalogs catalog
    obtain ⟨more, hmore⟩ := hlater.rows catalog.stream
    have hkept := replayRows_keeps hstate (hmore ▸ hstate')
    exact ⟨hread, state', hstate', checkSelection_kept hkept hselection⟩

end Restored

section Trails

variable (codec : HookCodec) (store : ArtifactStore) (files : Std.ExtTreeMap String Bytes)
  (binding : VerifiedHookBinding) (event : HookEvent) (run : String)

/-- **Both facts of a hook**: it was started on the event, and its script ended with a reply. -/
structure Observed (place : ℕ) (hook : RegisteredHook) (started ended : FactRecord) (reply : HookReply) : Prop where
  body : ∃ bytes, findArtifact codec.sha256 store files hook.body (32 * 1024) = .ok bytes
  startedAt : started.streamId = runStream run ∧ started.position = 2 * place + 1
  input : ∃ input bytes, codec.artifact (field started.draft.payload "input") = .ok input ∧ input.retention = .required ∧
    encode codec event.toValue = .ok bytes ∧
    findArtifact codec.sha256 store files input hook.manifest.maxInputBytes = .ok bytes ∧
    bytes.length ≤ hook.manifest.maxInputBytes ∧
    started.draft = startedDraft binding hook (runId run place) binding.saved.nativeDigest input
  endedAt : ended.streamId = runStream run ∧ ended.position = 2 * place + 2
  output : ∃ output bytes, codec.artifact (field ended.draft.payload "output") = .ok output ∧ output.retention = .required ∧
    findArtifact codec.sha256 store files output (1024 * 1024) = .ok bytes ∧ outcomeReply codec event hook bytes = .ok reply ∧
    ended.draft = completedDraft (reference started) output (some reply) none

/-- **The facts of the hooks from a place on**, and what they say. -/
inductive Trail : ℕ → List FactRef → List RegisteredHook → List FactRecord → HookDispatchResult → Prop
  | done {place : ℕ} {completed : List FactRef} : Trail place completed [] [] (.continued completed)
  | denied {place : ℕ} {completed : List FactRef} {hook : RegisteredHook} {hooks : List RegisteredHook}
      {started ended : FactRecord} {reply : HookReply}
      (h : Observed codec store files binding event run place hook started ended reply)
      (hdeny : reply.decision = .deny) :
      Trail place completed (hook :: hooks) [started, ended] (.denied reply.reason (completed ++ [reference ended]))
  | next {place : ℕ} {completed : List FactRef} {hook : RegisteredHook} {hooks : List RegisteredHook}
      {started ended : FactRecord} {reply : HookReply} {rows : List FactRecord} {r : HookDispatchResult}
      (h : Observed codec store files binding event run place hook started ended reply)
      (hdeny : reply.decision ≠ .deny) (hrest : Trail (place + 1) (completed ++ [reference ended]) hooks rows r) :
      Trail place completed (hook :: hooks) (started :: ended :: rows) r

variable {codec store files binding event run} {contract : journal.Contract} {world next : HookWorld J}

theorem Observed.later {place : ℕ} {hook : RegisteredHook} {started ended : FactRecord} {reply : HookReply}
    (h : Observed codec store world.files binding event run place hook started ended reply)
    (hlater : world.Later contract next) :
    Observed codec store next.files binding event run place hook started ended reply where
  body := by
    obtain ⟨bytes, hbytes⟩ := h.body
    exact ⟨bytes, hlater.findArtifact hbytes⟩
  startedAt := h.startedAt
  input := by
    obtain ⟨input, bytes, hinput, hretention, hencode, hread, hrest⟩ := h.input
    exact ⟨input, bytes, hinput, hretention, hencode, hlater.findArtifact hread, hrest⟩
  endedAt := h.endedAt
  output := by
    obtain ⟨output, bytes, houtput, hretention, hread, hrest⟩ := h.output
    exact ⟨output, bytes, houtput, hretention, hlater.findArtifact hread, hrest⟩

theorem Trail.later {place : ℕ} {completed : List FactRef} {hooks : List RegisteredHook} {rows : List FactRecord}
    {r : HookDispatchResult} (h : Trail codec store world.files binding event run place completed hooks rows r)
    (hlater : world.Later contract next) :
    Trail codec store next.files binding event run place completed hooks rows r := by
  induction h with
  | done => exact .done
  | denied h hdeny => exact .denied (h.later hlater) hdeny
  | next h hdeny _ ih => exact .next (h.later hlater) hdeny ih

theorem Trail.length_le {place : ℕ} {completed : List FactRef} {hooks : List RegisteredHook} {rows : List FactRecord}
    {r : HookDispatchResult} (h : Trail codec store files binding event run place completed hooks rows r) :
    rows.length ≤ 2 * hooks.length := by
  induction h with
  | done => exact Nat.zero_le _
  | denied => simp only [List.length_cons, List.length_nil]; omega
  | next _ _ _ ih => simp only [List.length_cons]; omega

end Trails

/-! ### Reading in a setting -/

/-- A setting in which nothing is undone, and in which everything may be read. -/
structure Watched (codec : HookCodec) (store : ArtifactStore) (E : Setting HookOp HookOp.Answer (HookWorld J)) : Prop where
  later : ∀ w w', E.rely w w' → w.Later contract w' ∧ w'.Sound contract codec
  trans : ∀ a b c, E.rely a b → E.rely b c → E.rely a c
  refl : ∀ w w', E.rely w w' → E.rely w' w'
  acts : ∀ w o a w', E.act w o a w' → ∃ i, HookActs contract codec.sha256 store i w o a w'
  reads : ∀ w stream after limit, E.allow w (.read stream after limit)
  gets : ∀ w reference maxBytes, E.allow w (.get reference maxBytes)

theorem HookWorld.Sound.take_catalog {contract : journal.Contract} {codec : HookCodec} {w : HookWorld J}
    (hsound : w.Sound contract codec) (catalog : HookCatalog codec) :
    (w.rows contract catalog.stream).take 257 = w.rows contract catalog.stream := by
  obtain ⟨state, hstate⟩ := hsound.catalogs catalog
  exact List.take_of_length_le (by have := (replayRows_spec hstate).2.2.2; omega)

section Readings

variable {contract} {codec : HookCodec} {store : ArtifactStore} {E : Setting HookOp HookOp.Answer (HookWorld J)}
  (hE : Watched contract codec store E) (hexact : contract.Exact) {w : HookWorld J}
include hE

include hexact in
theorem yields_readStream {stream : String} {limit : ℕ} {Q : List FactRecord → HookWorld J → Prop}
    (h : ∀ w', E.rely w w' → validateRead stream limit = .ok () → Q ((w'.rows contract stream).take limit) w') :
    Fallible.Yields E (readStream stream 0 limit) Q w := by
  refine Fallible.yields_mapError (Prog.holds_call fun w' hw' => ⟨hE.reads _ _ _ _, fun a w'' ha page hpage => ?_⟩)
  obtain ⟨i, rfl, rfl⟩ := hE.acts _ _ _ _ ha
  obtain ⟨hread, rfl⟩ := (hexact.read_eq_ok (hE.later _ _ hw').2.valid).1 hpage
  exact h w'' hw' hread

include hexact in
theorem ends_readStream {stream : String} {limit : ℕ} {Q : Except HookError (List FactRecord) → HookWorld J → Prop}
    (hread : validateRead stream limit = .ok ()) (h : ∀ w', E.rely w w' → Q (.ok ((w'.rows contract stream).take limit)) w') :
    Prog.Ends E (readStream stream 0 limit).run Q w := by
  refine Fallible.ends_mapError fun w' hw' => ⟨hE.reads _ _ _ _, fun a w'' ha => ?_⟩
  obtain ⟨i, rfl, rfl⟩ := hE.acts _ _ _ _ ha
  have hpage : journal.read w''.journal stream 0 limit = .ok ((w''.rows contract stream).take limit) :=
    (hexact.read_eq_ok (hE.later _ _ hw').2.valid).2 ⟨hread, rfl⟩
  show Prog.Ends E (.done _) _ w''
  rw [hpage]
  exact h w'' hw'

theorem yields_getArtifact {reference : ArtifactRef} {maxBytes : ℕ} {Q : Bytes → HookWorld J → Prop}
    (h : ∀ w' bytes, E.rely w w' → findArtifact codec.sha256 store w'.files reference maxBytes = .ok bytes → Q bytes w') :
    Fallible.Yields E (getArtifact reference maxBytes) Q w := by
  refine Fallible.yields_mapError (Prog.holds_call fun w' hw' => ⟨hE.gets _ _ _, fun a w'' ha bytes hbytes => ?_⟩)
  obtain ⟨i, rfl, rfl⟩ := hE.acts _ _ _ _ ha
  exact h w'' bytes hw' hbytes

theorem ends_getArtifact {reference : ArtifactRef} {maxBytes : ℕ} {bytes : Bytes}
    {Q : Except HookError Bytes → HookWorld J → Prop}
    (hread : findArtifact codec.sha256 store w.files reference maxBytes = .ok bytes)
    (h : ∀ w', E.rely w w' → Q (.ok bytes) w') : Prog.Ends E (getArtifact reference maxBytes).run Q w := by
  refine Fallible.ends_mapError fun w' hw' => ⟨hE.gets _ _ _, fun a w'' ha => ?_⟩
  obtain ⟨i, rfl, rfl⟩ := hE.acts _ _ _ _ ha
  show Prog.Ends E (.done _) _ w''
  rw [(hE.later _ _ hw').1.findArtifact hread]
  exact h w'' hw'

include hexact in
theorem yields_replay {catalog : HookCatalog codec} {Q : State → HookWorld J → Prop}
    (h : ∀ w' state, E.rely w w' → validateRead catalog.stream 257 = .ok () →
      catalog.replayRows (w'.rows contract catalog.stream) = .ok state → Q state w') :
    Fallible.Yields E catalog.replay Q w := by
  refine Fallible.yields_bind (yields_readStream hE hexact fun w' hw' hread => Fallible.yields_lift fun state hstate => ?_)
  rw [(hE.later _ _ hw').2.take_catalog] at hstate
  exact h w' state hw' hread hstate

include hexact in
/-- **What `restore_binding` yields.** -/
theorem yields_restoreBinding {catalog : HookCatalog codec} {fact : FactRef} {scope : HookScope}
    {Q : VerifiedHookBinding → HookWorld J → Prop}
    (h : ∀ w' binding, E.rely w w' → Restored contract catalog binding w' → binding.reference = fact →
      binding.saved.scope = scope → Q binding w') :
    Fallible.Yields E (catalog.restoreBinding fact scope) Q w := by
  refine Fallible.yields_bind (Fallible.yields_lift fun _ hscope => Fallible.yields_bind
    (Fallible.yields_lift fun coordinates hcoordinates => Fallible.yields_bind (Fallible.yields_lift fun _ hreference =>
      Fallible.yields_bind (yields_readStream hE hexact fun w₁ hw₁ hread₁ => Fallible.yields_bind
        (Fallible.yields_lift fun saved hsaved => ?_)))))
  obtain ⟨stream, factId⟩ := coordinates
  have hscope' : saved.scope = scope := by
    simp only [HookCatalog.savedIn, bind_eq_ok, reject_eq_ok, pure_eq_ok, not_or, not_not] at hsaved
    obtain ⟨_, -, _, -, _, -, _, ⟨-, h, -⟩, _, -, _, -, rfl⟩ := hsaved
    exact h
  refine Fallible.yields_bind (Fallible.yields_bind (Fallible.yields_lift fun _ hids => Fallible.yields_bind
    (yields_readStream hE hexact fun w₂ hw₂ hread₂ => Fallible.yields_lift fun owner howner => ?_)))
  obtain ⟨agent, ownership⟩ := owner
  refine Fallible.yields_bind (Fallible.yields_lift fun _ howned => Fallible.yields_bind
    (yields_replay hE hexact fun w₃ state hw₃ hread₃ hstate => Fallible.yields_bind
      (Fallible.yields_lift fun _ hselection => Fallible.yields_pure ?_)))
  rw [reject_eq_ok, not_or, not_not, not_not] at howned
  obtain ⟨rfl, rfl⟩ := howned
  subst hscope'
  have hlater₂ := (hE.later _ _ hw₃).1
  have hlater₁ := (hE.later _ _ (hE.trans _ _ _ hw₂ hw₃)).1
  refine h w₃ _ (hE.trans _ _ _ hw₁ (hE.trans _ _ _ hw₂ hw₃)) ⟨hscope, ?_, mapError_eq_ok.1 hids, ?_, hread₃, state, hstate, hselection⟩ rfl rfl
  · exact ⟨stream, factId, hcoordinates, reject_eq_ok.1 hreference, hread₁,
      hlater₁.kept (ofOneFact_binding hcoordinates) savedIn_nil hsaved⟩
  · exact ⟨_, rfl, hread₂, hlater₂.kept ofOneFact_ownership ownerOf_nil howner⟩

include hexact in
theorem ends_restoreBinding {catalog : HookCatalog codec} {binding : VerifiedHookBinding}
    {Q : Except HookError VerifiedHookBinding → HookWorld J → Prop} (hrestored : Restored contract catalog binding w)
    (h : ∀ w', E.rely w w' → Q (.ok binding) w') :
    Prog.Ends E (catalog.restoreBinding binding.reference binding.saved.scope).run Q w := by
  obtain ⟨stream, factId, hcoordinates, hreference, hread₁, hsaved⟩ := hrestored.saved
  obtain ⟨_, rfl, hread₂, howner⟩ := hrestored.owned
  refine Fallible.ends_bind_lift hrestored.scope (Fallible.ends_bind_lift hcoordinates
    (Fallible.ends_bind_lift (reject_of_not hreference) (Fallible.ends_bind (ends_readStream hE hexact hread₁
      fun w₁ hw₁ => ?_))))
  have hlater₁ := (hE.later _ _ hw₁).1
  refine Fallible.ends_bind_lift (hlater₁.kept (ofOneFact_binding hcoordinates) savedIn_nil hsaved)
    (Fallible.ends_bind (Fallible.ends_bind_lift (mapError_eq_ok.2 hrestored.ids) (Fallible.ends_bind
      (ends_readStream hE hexact hread₂ fun w₂ hw₂ => ?_))))
  have hw₂' := hE.trans _ _ _ hw₁ hw₂
  have howner₂ := (hE.later _ _ hw₂').1.kept ofOneFact_ownership ownerOf_nil howner
  show Prog.Ends E (.done (ownerOf codec binding.saved.scope _)) _ w₂
  rw [howner₂]
  refine Fallible.ends_bind_lift (reject_of_not (by simp)) (Fallible.ends_bind (Fallible.ends_bind
    (ends_readStream hE hexact hrestored.selected.1 fun w₃ hw₃ => ?_)))
  have hw₃' := hE.trans _ _ _ hw₂' hw₃
  obtain ⟨hlater, hsound⟩ := hE.later _ _ hw₃'
  obtain ⟨-, state, hstate, hselection⟩ := (hrestored.later hlater hsound).selected
  show Prog.Ends E (.done (catalog.replayRows _)) _ w₃
  rw [hsound.take_catalog, hstate]
  refine Fallible.ends_bind_lift hselection ?_
  exact h w₃ hw₃'

variable {binding : VerifiedHookBinding} {event : HookEvent} {run : String} {expectedInput : Bytes} {rows : List FactRecord}
  (hinput : encode codec event.toValue = .ok expectedInput)
include hinput

theorem yields_verifyHook {hook : RegisteredHook} {place : ℕ} {Q : HookReply × FactRef → HookWorld J → Prop}
    (h : ∀ w' started ended reply, E.rely w w' → rows[2 * place]? = some started → rows[2 * place + 1]? = some ended →
      Observed codec store w'.files binding event run place hook started ended reply → Q (reply, reference ended) w') :
    Fallible.Yields E (verifyHook codec binding event run expectedInput rows hook place) Q w := by
  refine Fallible.yields_bind (yields_getArtifact hE fun w₁ body hw₁ hbody => Fallible.yields_bind
    (Fallible.yields_lift fun started hstarted => Fallible.yields_bind (Fallible.yields_lift fun ended hended =>
      Fallible.yields_bind (Fallible.yields_lift fun input hread => Fallible.yields_bind (Fallible.yields_lift
        fun _ hretention => Fallible.yields_bind (yields_getArtifact hE fun w₂ saved hw₂ hsaved => ?_))))))
  refine Fallible.yields_bind (Fallible.yields_lift fun _ hsame => Fallible.yields_bind (Fallible.yields_lift
    fun _ hintent => Fallible.yields_bind (Fallible.yields_lift fun output houtput => Fallible.yields_bind
      (Fallible.yields_lift fun _ hretained => Fallible.yields_bind (yields_getArtifact hE fun w₃ bytes hw₃ hbytes => ?_)))))
  refine Fallible.yields_bind (Fallible.yields_lift fun reply hreply => Fallible.yields_bind
    (Fallible.yields_lift fun _ hcompletion => Fallible.yields_pure ?_))
  simp only [reject_eq_ok, not_or, not_not, not_lt, ne_eq, gt_iff_lt] at hretention hsame hintent hretained hcompletion
  obtain ⟨rfl, hbound⟩ := hsame
  have hlater₂ := (hE.later _ _ hw₃).1
  have hlater₁ := (hE.later _ _ (hE.trans _ _ _ hw₂ hw₃)).1
  refine h w₃ started ended reply (hE.trans _ _ _ hw₁ (hE.trans _ _ _ hw₂ hw₃)) (expect_eq_ok.1 hstarted)
    (expect_eq_ok.1 hended) ⟨⟨body, hlater₁.findArtifact hbody⟩, ⟨hintent.1, hintent.2.1⟩, ?_, ⟨hcompletion.1, hcompletion.2.1⟩, ?_⟩
  · exact ⟨input, saved, mapError_eq_ok.1 hread, hretention, hinput, hlater₂.findArtifact hsaved, hbound, hintent.2.2⟩
  · exact ⟨output, bytes, mapError_eq_ok.1 houtput, hretained, hbytes, hreply, hcompletion.2.2⟩

/-- **A round over facts that were observed ends with their reply.** -/
theorem ends_verifyHook {hook : RegisteredHook} {place : ℕ} {started ended : FactRecord} {reply : HookReply}
    {Q : Except HookError (HookReply × FactRef) → HookWorld J → Prop}
    (hobserved : Observed codec store w.files binding event run place hook started ended reply)
    (hstarted : rows[2 * place]? = some started) (hended : rows[2 * place + 1]? = some ended)
    (h : ∀ w', E.rely w w' → Q (.ok (reply, reference ended)) w') :
    Prog.Ends E (verifyHook codec binding event run expectedInput rows hook place).run Q w := by
  obtain ⟨body, hbody⟩ := hobserved.body
  obtain ⟨input, bytes, hread, hretention, hencode, hsaved, hbound, hstart⟩ := hobserved.input
  obtain rfl := Except.ok.inj (hinput.symm.trans hencode)
  obtain ⟨output, content, houtput, hretained, hcontent, hreply, hend⟩ := hobserved.output
  refine Fallible.ends_bind (ends_getArtifact hE hbody fun w₁ hw₁ => ?_)
  refine Fallible.ends_bind_lift (expect_eq_ok.2 hstarted) (Fallible.ends_bind_lift (expect_eq_ok.2 hended)
    (Fallible.ends_bind_lift (mapError_eq_ok.2 hread) (Fallible.ends_bind_lift (reject_of_not (not_not.2 hretention))
      (Fallible.ends_bind (ends_getArtifact hE ((hE.later _ _ hw₁).1.findArtifact hsaved) fun w₂ hw₂ => ?_)))))
  have hw₂' := hE.trans _ _ _ hw₁ hw₂
  refine Fallible.ends_bind_lift (reject_of_not (by simp [hbound])) (Fallible.ends_bind_lift
    (reject_of_not (by simp [hobserved.startedAt, hstart])) (Fallible.ends_bind_lift (mapError_eq_ok.2 houtput)
      (Fallible.ends_bind_lift (reject_of_not (not_not.2 hretained)) (Fallible.ends_bind
        (ends_getArtifact hE ((hE.later _ _ hw₂').1.findArtifact hcontent) fun w₃ hw₃ => ?_)))))
  refine Fallible.ends_bind_lift hreply (Fallible.ends_bind_lift (reject_of_not (by simp [hobserved.endedAt, hend])) ?_)
  exact h w₃ (hE.trans _ _ _ hw₂' hw₃)

theorem yields_verifyHooks {hooks : List RegisteredHook} {place : ℕ} {completed : List FactRef}
    {Q : HookDispatchResult → HookWorld J → Prop} (hw : E.rely w w) (hplace : 2 * place ≤ rows.length)
    (h : ∀ w' r, E.rely w w' → Trail codec store w'.files binding event run place completed hooks (rows.drop (2 * place)) r →
      Q r w') :
    Fallible.Yields E (verifyHooks codec binding event run expectedInput rows place completed hooks) Q w := by
  induction hooks generalizing place completed w with
  | nil =>
    refine Fallible.yields_bind (Fallible.yields_lift fun _ hlength => Fallible.yields_pure (h w _ hw ?_))
    rw [reject_eq_ok, not_not] at hlength
    rw [List.drop_eq_nil_of_le hlength.le]
    exact .done
  | cons hook hooks ih =>
    refine Fallible.yields_bind (yields_verifyHook hE hinput fun w' started ended reply hw' hstarted hended hobserved => ?_)
    obtain ⟨hlt, hstarted⟩ := List.getElem?_eq_some_iff.1 hstarted
    obtain ⟨hlt', hended⟩ := List.getElem?_eq_some_iff.1 hended
    have hdrop : rows.drop (2 * place) = started :: ended :: rows.drop (2 * (place + 1)) := by
      rw [List.drop_eq_getElem_cons hlt, List.drop_eq_getElem_cons hlt', hstarted, hended]
      rfl
    show Fallible.Yields E (if reply.decision = .deny then _ else _) Q w'
    split_ifs with hdeny
    · refine Fallible.yields_bind (Fallible.yields_lift fun _ hlength => Fallible.yields_pure (h w' _ hw' ?_))
      rw [reject_eq_ok, not_not] at hlength
      rw [hdrop, List.drop_eq_nil_of_le hlength.le]
      exact .denied hobserved hdeny
    · refine ih (hE.refl _ _ hw') (by omega) fun w'' r hw'' htrail => h w'' r (hE.trans _ _ _ hw' hw'') ?_
      rw [hdrop]
      exact .next (hobserved.later (hE.later _ _ hw'').1) hdeny htrail

omit hE hinput in
theorem rows_at {place : ℕ} {started ended : FactRecord} {rest : List FactRecord}
    (hdrop : rows.drop (2 * place) = started :: ended :: rest) :
    rows[2 * place]? = some started ∧ rows[2 * place + 1]? = some ended ∧ rows.drop (2 * (place + 1)) = rest := by
  have hget : ∀ n, rows[2 * place + n]? = (started :: ended :: rest)[n]? := fun n => by rw [← hdrop, List.getElem?_drop]
  refine ⟨hget 0, hget 1, ?_⟩
  have hrest : (rows.drop (2 * place)).drop 2 = rest := by rw [hdrop]; rfl
  rw [← hrest, List.drop_drop]
  rfl

theorem ends_verifyHooks {hooks : List RegisteredHook} {place : ℕ} {completed : List FactRef} {r : HookDispatchResult}
    {tail : List FactRecord} {Q : Except HookError HookDispatchResult → HookWorld J → Prop} (hw : E.rely w w)
    (htrail : Trail codec store w.files binding event run place completed hooks tail r)
    (hdrop : rows.drop (2 * place) = tail) (hplace : 2 * place ≤ rows.length) (h : ∀ w', E.rely w w' → Q (.ok r) w') :
    Prog.Ends E (verifyHooks codec binding event run expectedInput rows place completed hooks).run Q w := by
  induction hooks generalizing place completed w tail with
  | nil =>
    cases htrail
    have hlength : rows.length = 2 * place := le_antisymm (List.drop_eq_nil_iff.1 hdrop) hplace
    exact Fallible.ends_bind_lift (reject_of_not (not_not.2 hlength)) (h w hw)
  | cons hook hooks ih =>
    cases htrail with
    | @denied _ _ _ _ started ended reply hobserved hdeny =>
      obtain ⟨hstarted, hended, hrest⟩ := rows_at hdrop
      refine Fallible.ends_bind (ends_verifyHook hE hinput hobserved hstarted hended fun w' hw' => ?_)
      show Prog.Ends E (ExceptT.run (if reply.decision = .deny then _ else _)) Q w'
      obtain ⟨hlt, -⟩ := List.getElem?_eq_some_iff.1 hended
      have hlength : rows.length = 2 * (place + 1) := le_antisymm (List.drop_eq_nil_iff.1 hrest) (by omega)
      rw [if_pos hdeny]
      exact Fallible.ends_bind_lift (reject_of_not (not_not.2 hlength)) (h w' hw')
    | @next _ _ _ _ started ended reply rest _ hobserved hdeny hrest =>
      obtain ⟨hstarted, hended, hdrop'⟩ := rows_at hdrop
      refine Fallible.ends_bind (ends_verifyHook hE hinput hobserved hstarted hended fun w' hw' => ?_)
      show Prog.Ends E (ExceptT.run (if reply.decision = .deny then _ else _)) Q w'
      obtain ⟨hlt, -⟩ := List.getElem?_eq_some_iff.1 hended
      rw [if_neg hdeny]
      exact ih (hE.refl _ _ hw') (hrest.later (hE.later _ _ hw').1) hdrop' (by omega)
        fun w'' hw'' => h w'' (hE.trans _ _ _ hw' hw'')

end Readings

section Verified

variable (codec : HookCodec) (store : ArtifactStore) (binding : VerifiedHookBinding) (event : HookEvent)
  (operationId : String)

/-- **What a verification finds**: the facts of the run of an operation are a trail. -/
def Proven (world : HookWorld J) (rows : List FactRecord) (r : HookDispatchResult) : Prop :=
  ∃ run, runOf codec binding operationId = .ok run ∧ rows <+: world.rows contract (runStream run) ∧
    Trail codec store world.files binding event run 0 [] (selectedHooks binding event) rows r

/-- What a dispatch has checked, and a verification checks again, before it reads the run. -/
structure Asked (catalog : HookCatalog codec) (world : HookWorld J) (run : String) : Prop where
  operationOk : id operationId = .ok ()
  eventOk : event.validate = .ok ()
  scopeOk : event.scope = binding.saved.scope
  restored : Restored contract catalog binding world
  runIs : runOf codec binding operationId = .ok run
  reads : validateRead (runStream run) 18 = .ok ()
  encodes : ∃ bytes, encode codec event.toValue = .ok bytes

variable {contract codec store binding event operationId} {catalog : HookCatalog codec} {E : Setting HookOp HookOp.Answer (HookWorld J)}
  (hE : Watched contract codec store E) (hexact : contract.Exact) {w : HookWorld J}
include hE hexact

/-- **What `verify_dispatch` yields.** -/
theorem yields_verifyDispatch :
    Fallible.Yields E (verifyDispatch catalog binding event operationId)
      (fun r w' => binding.Ascending ∧ ∃ rows, Proven contract codec store binding event operationId w' rows r) w := by
  refine Fallible.yields_bind (Fallible.yields_lift fun _ _ => Fallible.yields_bind (Fallible.yields_lift fun _ _ =>
    Fallible.yields_bind (Fallible.yields_lift fun _ _ => Fallible.yields_bind (yields_restoreBinding hE hexact
      fun w₁ restored hw₁ hrestored _ _ => Fallible.yields_bind (Fallible.yields_lift fun _ hsame => Fallible.yields_bind
        (Fallible.yields_lift fun run hrun => Fallible.yields_bind (yields_readStream hE hexact fun w₂ hw₂ _ =>
          Fallible.yields_bind (Fallible.yields_lift fun input hinput => ?_))))))))
  refine yields_verifyHooks hE hinput (hE.refl _ _ hw₂) (Nat.zero_le _) fun w₃ r hw₃ htrail => ?_
  rw [reject_eq_ok, not_not] at hsame
  exact ⟨hsame ▸ hrestored.ascending, _, run, hrun, (List.take_prefix _ _).trans ((hE.later _ _ hw₃).1.rows _), htrail⟩

/-- **A verification ends with what the facts say**, once no fact is added to them. -/
theorem ends_verifyDispatch {run : String} {r : HookDispatchResult}
    (hasked : Asked contract codec binding event operationId catalog w run)
    (htrail : Trail codec store w.files binding event run 0 [] (selectedHooks binding event) (w.rows contract (runStream run)) r)
    (hfrozen : ∀ w', E.rely w w' → w'.rows contract (runStream run) = w.rows contract (runStream run)) :
    Prog.Ends E (verifyDispatch catalog binding event operationId).run (fun a _ => a = .ok r) w := by
  obtain ⟨input, hinput⟩ := hasked.encodes
  refine Fallible.ends_bind_lift hasked.operationOk (Fallible.ends_bind_lift hasked.eventOk (Fallible.ends_bind_lift
    (reject_of_not (not_not.2 hasked.scopeOk)) (Fallible.ends_bind (ends_restoreBinding hE hexact hasked.restored
      fun w₁ hw₁ => ?_))))
  refine Fallible.ends_bind_lift (reject_of_not (by simp)) (Fallible.ends_bind_lift hasked.runIs (Fallible.ends_bind
    (ends_readStream hE hexact hasked.reads fun w₂ hw₂ => ?_)))
  have hw₂' := hE.trans _ _ _ hw₁ hw₂
  have hshort : (w₂.rows contract (runStream run)).length ≤ 18 := by
    obtain ⟨_, _, -, -, -, hsaved⟩ := hasked.restored.saved
    simp only [HookCatalog.savedIn, bind_eq_ok, reject_eq_ok, not_or, not_lt, gt_iff_lt] at hsaved
    obtain ⟨_, -, _, -, _, -, _, ⟨-, -, hhooks, -⟩, _, -, _, -, hsame⟩ := hsaved
    obtain rfl := pure_eq_ok.1 hsame
    have hselected : (selectedHooks binding event).length ≤ binding.saved.hooks.length := List.length_filter_le _ _
    have hrows := htrail.length_le
    rw [hfrozen w₂ hw₂']
    omega
  rw [List.take_of_length_le hshort]
  refine Fallible.ends_bind_lift hinput ?_
  refine ends_verifyHooks hE hinput (hE.refl _ _ hw₂') (htrail.later (hE.later _ _ hw₂').1) ?_ (Nat.zero_le _) fun _ _ => rfl
  rw [Nat.mul_zero, List.drop_zero, hfrozen w₂ hw₂']

end Verified

end Hooks
end Kolyan
