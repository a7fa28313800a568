/-
# What one operation of the hooks does

Among any number of calls the run of an operation belongs to the call that put its
first fact there: nobody else appends to it or executes a script for it.  `Steady`
says so of a world, `Rely` what a call may rely on of the others and `Allow` what it
may ask for; an operation that a call may ask for keeps the first and is what the
others rely on (`steady_act`), as long as no call is answered with an intent that is
recorded already (`Unrecorded`).
-/

import Kolyan.Hooks.Trails

namespace Kolyan
namespace Hooks

open Checks Facts Artifacts Threads

section Names

theorem append_ne_append {a b x y : String} (n : ℕ) (ha : n < a.toList.length) (hb : n < b.toList.length)
    (hne : a.toList[n]? ≠ b.toList[n]?) : a ++ x ≠ b ++ y := by
  intro h
  have hat := congrArg (fun s : String => s.toList[n]?) h
  simp only [String.toList_append, List.getElem?_append_left ha, List.getElem?_append_left hb] at hat
  exact hne hat

theorem runStream_injective : Function.Injective runStream := by
  intro a b h
  have hlist := congrArg String.toList h
  rw [runStream, runStream, String.toList_append, String.toList_append] at hlist
  exact String.toList_inj.1 (List.append_cancel_left hlist)

variable {codec : HookCodec} (catalog : HookCatalog codec) {run : String}

theorem catalog_stream_eq : ∃ digest, catalog.stream = "agent.hooks.catalog." ++ digest := by
  have h := catalog.named
  simp only [catalogStream, bind_eq_ok, pure_eq_ok] at h
  obtain ⟨_, -, digest, -, h⟩ := h
  exact ⟨digest, h.symm⟩

theorem runStream_ne_catalog : runStream run ≠ catalog.stream := by
  obtain ⟨digest, h⟩ := catalog_stream_eq catalog
  rw [h]
  exact append_ne_append 12 (by decide) (by decide) (by decide)

theorem not_ofOneFact {stream : String} (h : OfHooks codec stream) : ¬OfOneFact stream := by
  rintro (⟨digest, rfl⟩ | ⟨digest, rfl⟩)
  · rcases h with ⟨catalog, h⟩ | ⟨run, h⟩
    · obtain ⟨name, hname⟩ := catalog_stream_eq catalog
      exact append_ne_append 12 (by decide) (by decide) (by decide) (h.trans hname)
    · exact append_ne_append 12 (by decide) (by decide) (by decide) h
  · rcases h with ⟨catalog, h⟩ | ⟨run, h⟩
    · obtain ⟨name, hname⟩ := catalog_stream_eq catalog
      exact append_ne_append 6 (by decide) (by decide) (by decide) (h.trans hname)
    · exact append_ne_append 6 (by decide) (by decide) (by decide) h

end Names

variable {J : Type} {journal : FactJournal J} (contract : journal.Contract) (codec : HookCodec) (store : ArtifactStore)
  (selects : String → Prop)

/-- **A world in which every run belongs to one call**: a run with facts has a call that
began it, a script was executed for runs that were begun and for none twice, and a run
without hooks has no facts. -/
structure HookWorld.Steady (world : HookWorld J) : Prop extends world.Sound contract codec where
  begun : ∀ run, world.firsts (runStream run) = none ↔ world.rows contract (runStream run) = []
  executed : world.executed.Nodup
  executing : ∀ e ∈ world.executed, ∃ run, e.1 = runStream run ∧ world.firsts e.1 ≠ none
  quiet : ∀ run, world.rows contract (runStream run) ≠ [] → selects run

/-- **What a call relies on**: the runs that it has begun stay as they are. -/
structure Rely (i : ℕ) (world next : HookWorld J) : Prop where
  later : world.Later contract next
  steady : next.Steady contract codec selects
  firsts : ∀ run, next.firsts (runStream run) = some i ↔ world.firsts (runStream run) = some i
  rows : ∀ run, world.firsts (runStream run) = some i →
    next.rows contract (runStream run) = world.rows contract (runStream run)
  executed : ∀ run key, world.firsts (runStream run) = some i → (runStream run, key) ∈ next.executed →
    (runStream run, key) ∈ world.executed

/-- What a call may ask for: it appends to a run that it has begun or begins, and to a
catalog what the catalog will replay, and executes a script once. -/
def Allow (i : ℕ) (world : HookWorld J) : HookOp → Prop
  | .append stream expected batch => (∃ draft, batch = [draft]) ∧
    ((∃ run, stream = runStream run ∧ selects run ∧ (world.firsts stream = some i ∨ expected = 0)) ∨
      ∃ catalog : HookCatalog codec, stream = catalog.stream ∧ (expected = (world.rows contract stream).length →
        ∃ state, catalog.replayRows (world.rows contract stream ++ plannedRecords stream expected batch) = .ok state))
  | .execute stream hook =>
    (∃ run, stream = runStream run) ∧ world.firsts stream = some i ∧ (stream, hook.manifest.key) ∉ world.executed
  | _ => True

/-- **The condition**: a fact of a run is not recorded already where it is to be. -/
def Unrecorded (world : HookWorld J) : HookOp → Prop
  | .append stream expected batch => (∃ run, stream = runStream run) →
    ¬batch <+: ((world.rows contract stream).drop expected).map (·.draft)
  | _ => True

/-- What an operation does under the condition. -/
def FreshActs (i : ℕ) (world : HookWorld J) (o : HookOp) (a : o.Answer) (next : HookWorld J) : Prop :=
  HookActs contract codec.sha256 store i world o a next ∧ Unrecorded contract world o

/-- The setting of a call. -/
def hookSetting (i : ℕ) : Setting HookOp HookOp.Answer (HookWorld J) where
  act := FreshActs contract codec store i
  rely := Rely contract codec selects i
  allow := Allow contract codec selects i

variable {contract codec store selects} {world next last : HookWorld J} {i j : ℕ}

theorem HookWorld.Steady.rely (h : world.Steady contract codec selects) : Rely contract codec selects i world world where
  later := .refl
  steady := h
  firsts _ := Iff.rfl
  rows _ _ := rfl
  executed _ _ _ h := h

theorem Rely.trans (h : Rely contract codec selects i world next) (h' : Rely contract codec selects i next last) :
    Rely contract codec selects i world last where
  later := h.later.trans h'.later
  steady := h'.steady
  firsts run := (h'.firsts run).trans (h.firsts run)
  rows run hrun := (h'.rows run ((h.firsts run).2 hrun)).trans (h.rows run hrun)
  executed run key hrun hkey := h.executed run key hrun (h'.executed run key ((h.firsts run).2 hrun) hkey)

theorem watched_setting : Watched contract codec store (hookSetting contract codec store selects i) where
  later _ _ h := ⟨h.later, h.steady.toSound⟩
  trans _ _ _ := Rely.trans
  refl _ _ h := h.steady.rely
  acts _ _ _ _ h := ⟨i, h.1⟩
  reads _ _ _ _ := trivial
  gets _ _ _ := trivial

/-! ### Appends -/

variable (contract) in
/-- What an append of one fact at the head of a stream leaves. -/
structure Appended (i : ℕ) (world next : HookWorld J) (stream : String) (draft : FactDraft) : Prop where
  valid : contract.Valid next.journal
  rows : ∀ s, next.rows contract s = if s = stream then
    world.rows contract stream ++ [⟨stream, (world.rows contract stream).length + 1, draft⟩] else world.rows contract s
  files : next.files = world.files
  executed : next.executed = world.executed
  firsts : ∀ s, next.firsts s = if s = stream ∧ world.rows contract stream = [] then some i else world.firsts s

/-- **The cases of an append.**  It commits its fact at the head of the stream, or it leaves
the world as it was and answers no fact, or one that is there already. -/
theorem append_cases (hvalid : contract.Valid world.journal) {stream : String} {expected : ℕ} {draft : FactDraft}
    {a : Except FactError (List FactRecord)}
    (h : HookActs contract codec.sha256 store i world (.append stream expected [draft]) a next) :
    (next = world ∧ ∀ records, a = .ok records → [draft] <+: ((world.rows contract stream).drop expected).map (·.draft)) ∨
      (expected = (world.rows contract stream).length ∧ a = .ok [⟨stream, expected + 1, draft⟩] ∧
        Appended contract i world next stream draft) := by
  rcases h with ⟨j, happend, rfl⟩ | ⟨⟨message, rfl⟩, rfl⟩
  swap
  · exact .inl ⟨rfl, fun _ hnot => nomatch hnot⟩
  have hsame : j = world.journal → world.appended contract i stream j = world := by
    rintro rfl
    rw [HookWorld.appended, if_neg (fun hfirst => hfirst.2 hfirst.1)]
  cases a with
  | error error => exact .inl ⟨hsame (contract.append_error hvalid happend), fun _ hnot => nomatch hnot⟩
  | ok records =>
    obtain ⟨hvalid', rfl, ⟨hexpected, -, hrows⟩ | ⟨rfl, hrecorded⟩⟩ := contract.append_ok hvalid happend
    · refine .inr ⟨hexpected, rfl, hvalid', fun s => ?_, rfl, rfl, fun s => ?_⟩
      · show contract.rows j s = _
        rw [hrows, Function.update_apply, hexpected]
        rfl
      · have hne : contract.rows j stream ≠ [] := by
          rw [hrows, Function.update_self]
          exact List.append_ne_nil_of_right_ne_nil _ (by simp [plannedRecords])
        unfold HookWorld.appended
        dsimp only
        by_cases hnil : contract.rows world.journal stream = []
        · rw [if_pos ⟨hnil, hne⟩, Function.update_apply]
          exact if_congr (by simp [HookWorld.rows, hnil]) rfl rfl
        · rw [if_neg (fun hfirst => hnil hfirst.1), if_neg (fun hfirst => hnil hfirst.2)]
    · refine .inl ⟨hsame rfl, fun records' _ => ?_⟩
      have hprefix := hrecorded.map (·.draft)
      rwa [map_draft_plannedRecords] at hprefix

namespace Appended

variable {stream : String} {draft : FactDraft} (h : Appended contract i world next stream draft)
include h

theorem rows_self : next.rows contract stream =
    world.rows contract stream ++ [⟨stream, (world.rows contract stream).length + 1, draft⟩] := by
  rw [h.rows, if_pos rfl]

theorem rows_of_ne {s : String} (hs : s ≠ stream) : next.rows contract s = world.rows contract s := by
  rw [h.rows, if_neg hs]

theorem later (hone : OfOneFact stream → world.rows contract stream = []) : world.Later contract next where
  rows s := by
    rcases eq_or_ne s stream with rfl | hs
    · rw [h.rows_self]
      exact List.prefix_append _ _
    · rw [h.rows_of_ne hs]
  one s hs hne := by
    rcases eq_or_ne s stream with rfl | hs'
    · exact absurd (hone hs) hne
    · exact h.rows_of_ne hs'
  files path bytes hbytes := by rwa [h.files]

theorem steady_run (hsteady : world.Steady contract codec selects) {run : String} (hrun : stream = runStream run)
    (hhooks : selects run) : next.Steady contract codec selects where
  valid := h.valid
  catalogs catalog := by
    rw [h.rows_of_ne (by rw [hrun]; exact (runStream_ne_catalog catalog).symm)]
    exact hsteady.catalogs catalog
  begun other := by
    rw [h.firsts]
    rcases eq_or_ne (runStream other) stream with he | hs
    · rw [he, h.rows_self]
      by_cases hnil : world.rows contract stream = []
      · simp [hnil]
      · have hbegun := hsteady.begun other
        rw [he] at hbegun
        simp only [hnil, and_false, if_false, hbegun, false_iff]
        exact List.append_ne_nil_of_right_ne_nil _ (by simp)
    · rw [if_neg (fun hfirst => hs hfirst.1), h.rows_of_ne hs]
      exact hsteady.begun other
  executed := by
    rw [h.executed]
    exact hsteady.executed
  executing e he := by
    rw [h.executed] at he
    obtain ⟨other, hother, hfirst⟩ := hsteady.executing e he
    refine ⟨other, hother, ?_⟩
    rw [h.firsts]
    split_ifs
    · simp
    · exact hfirst
  quiet other hne := by
    rcases eq_or_ne (runStream other) stream with he | hs
    · rw [runStream_injective (he.trans hrun)]
      exact hhooks
    · rw [h.rows_of_ne hs] at hne
      exact hsteady.quiet other hne

theorem steady_catalog (hapart : ∀ a b : HookCatalog codec, a.stream = b.stream → a = b)
    (hsteady : world.Steady contract codec selects) {catalog : HookCatalog codec} (hcatalog : stream = catalog.stream)
    {state : State} (hreplay : catalog.replayRows (next.rows contract stream) = .ok state) :
    next.Steady contract codec selects := by
  have hruns : ∀ run, next.rows contract (runStream run) = world.rows contract (runStream run) := fun run =>
    h.rows_of_ne (by rw [hcatalog]; exact runStream_ne_catalog catalog)
  have hfirsts : ∀ run, next.firsts (runStream run) = world.firsts (runStream run) := fun run => by
    rw [h.firsts, if_neg (fun hfirst => runStream_ne_catalog catalog (hfirst.1.trans hcatalog))]
  refine { valid := h.valid, catalogs := fun other => ?_, begun := fun run => ?_, executed := ?_, executing := ?_, quiet := ?_ }
  · rcases eq_or_ne other.stream stream with he | hs
    · rw [hapart other catalog (he.trans hcatalog), ← hcatalog]
      exact ⟨state, hreplay⟩
    · rw [h.rows_of_ne hs]
      exact hsteady.catalogs other
  · rw [hruns, hfirsts]
    exact hsteady.begun run
  · rw [h.executed]
    exact hsteady.executed
  · intro e he
    rw [h.executed] at he
    obtain ⟨run, hrun, hfirst⟩ := hsteady.executing e he
    exact ⟨run, hrun, by rwa [hrun, hfirsts, ← hrun]⟩
  · intro run hne
    rw [hruns] at hne
    exact hsteady.quiet run hne

theorem rely_run (hsteady : world.Steady contract codec selects) {run : String} (hrun : stream = runStream run)
    (hhooks : selects run) (hmine : world.firsts stream = some i ∨ world.rows contract stream = [])
    (hij : i ≠ j) : Rely contract codec selects j world next := by
  have hnone : world.rows contract stream = [] → world.firsts stream = none := fun hnil => by
    rw [hrun] at hnil ⊢
    exact (hsteady.begun run).2 hnil
  have hother : world.firsts stream ≠ some j := by
    rcases hmine with hfirst | hnil
    · rw [hfirst]
      exact fun he => hij (Option.some.inj he)
    · rw [hnone hnil]
      exact fun he => nomatch he
  refine ⟨h.later fun hone => absurd hone (@not_ofOneFact codec _ (.inr ⟨run, hrun⟩)),
    h.steady_run hsteady hrun hhooks, fun other => ?_, fun other hfirst => ?_, fun other key _ hkey => ?_⟩
  · rw [h.firsts]
    split_ifs with hfirst
    · rw [hfirst.1, hnone hfirst.2]
      simp [hij]
    · exact Iff.rfl
  · exact h.rows_of_ne fun he => hother (he ▸ hfirst)
  · rwa [h.executed] at hkey

theorem rely_catalog (hapart : ∀ a b : HookCatalog codec, a.stream = b.stream → a = b)
    (hsteady : world.Steady contract codec selects) {catalog : HookCatalog codec} (hcatalog : stream = catalog.stream)
    {state : State} (hreplay : catalog.replayRows (next.rows contract stream) = .ok state) :
    Rely contract codec selects j world next := by
  have hne : ∀ run, runStream run ≠ stream := fun run => by rw [hcatalog]; exact runStream_ne_catalog catalog
  refine ⟨h.later fun hone => absurd hone (@not_ofOneFact codec _ (.inl ⟨catalog, hcatalog⟩)),
    h.steady_catalog hapart hsteady hcatalog hreplay, fun run => ?_, fun run _ => h.rows_of_ne (hne run),
    fun run key _ hkey => ?_⟩
  · rw [h.firsts, if_neg (fun hfirst => hne run hfirst.1)]
  · rwa [h.executed] at hkey

end Appended

/-! ### The other operations -/

theorem HookWorld.Steady.files (h : world.Steady contract codec selects) {files : Std.ExtTreeMap String Bytes}
    (hfiles : ∀ (path : String) (bytes : Bytes), world.files[path]? = some bytes → files[path]? = some bytes) :
    Rely contract codec selects j world { world with files } where
  later := ⟨fun _ => List.prefix_rfl, fun _ _ _ => rfl, hfiles⟩
  steady := ⟨⟨h.valid, h.catalogs⟩, h.begun, h.executed, h.executing, h.quiet⟩
  firsts _ := Iff.rfl
  rows _ _ := rfl
  executed _ _ _ h := h

theorem files_pinArtifact {sha256 : Bytes → String} {files : Std.ExtTreeMap String Bytes} {bytes : Bytes} (path : String)
    (content : Bytes) (h : files[path]? = some content) : (pinArtifact sha256 store files bytes).2[path]? = some content := by
  unfold pinArtifact
  dsimp only
  split
  · exact h
  · rename_i name _
    cases hname : files[name]? with
    | some existing => exact h
    | none =>
      have hne : name ≠ path := by
        rintro rfl
        exact absurd (hname.symm.trans h) (by simp)
      show (files.insert name bytes)[path]? = some content
      rw [OrderedMaps.getElem?_insert_of_ne hne, h]

theorem HookWorld.Steady.execute (h : world.Steady contract codec selects) {run : String} {key : HookKey}
    (hfirst : world.firsts (runStream run) = some i) (hnew : (runStream run, key) ∉ world.executed) :
    HookWorld.Steady contract codec selects { world with executed := world.executed ++ [(runStream run, key)] } where
  valid := h.valid
  catalogs := h.catalogs
  begun := h.begun
  executed := by
    refine List.nodup_append.2 ⟨h.executed, List.nodup_singleton _, fun e he e' he' hee' => ?_⟩
    rw [List.mem_singleton] at he'
    exact hnew (he' ▸ hee' ▸ he)
  executing e he := by
    rcases List.mem_append.1 he with he | he
    · exact h.executing e he
    · rw [List.mem_singleton.1 he]
      exact ⟨run, rfl, by simp [hfirst]⟩
  quiet := h.quiet

/-- What an operation of a call leaves: a steady world in which nothing is undone, where only
that call may have begun another run, and what the others rely on. -/
structure Kept (contract : journal.Contract) (codec : HookCodec) (selects : String → Prop) (i : ℕ)
    (world next : HookWorld J) : Prop where
  later : world.Later contract next
  steady : next.Steady contract codec selects
  firsts : ∀ run k, next.firsts (runStream run) = some k → world.firsts (runStream run) = some k ∨ k = i
  rely : ∀ j, i ≠ j → Rely contract codec selects j world next

theorem Kept.of_rely (h : ∀ j, Rely contract codec selects j world next) : Kept contract codec selects i world next where
  later := (h i).later
  steady := (h i).steady
  firsts run k hk := .inl (((h k).firsts run).1 hk)
  rely j _ := h j

theorem kept_act (hapart : ∀ a b : HookCatalog codec, a.stream = b.stream → a = b)
    (hsteady : world.Steady contract codec selects) {o : HookOp} {a : o.Answer}
    (hallow : Allow contract codec selects i world o) (h : FreshActs contract codec store i world o a next) :
    Kept contract codec selects i world next := by
  obtain ⟨hact, -⟩ := h
  cases o with
  | read stream after limit =>
    obtain ⟨-, rfl⟩ := hact
    exact .of_rely fun _ => hsteady.rely
  | get reference maxBytes =>
    obtain ⟨-, rfl⟩ := hact
    exact .of_rely fun _ => hsteady.rely
  | cancelled =>
    obtain rfl := hact
    exact .of_rely fun _ => hsteady.rely
  | remaining =>
    obtain rfl := hact
    exact .of_rely fun _ => hsteady.rely
  | prepare hook body stdin timeoutMs runId =>
    obtain rfl := hact
    exact .of_rely fun _ => hsteady.rely
  | put bytes =>
    rcases hact with ⟨-, rfl⟩ | ⟨-, rfl⟩
    · exact .of_rely fun _ => hsteady.files files_pinArtifact
    · exact .of_rely fun _ => hsteady.rely
  | execute stream hook =>
    obtain ⟨-, rfl⟩ := hact
    obtain ⟨⟨run, rfl⟩, hfirst, hnew⟩ := hallow
    refine ⟨⟨fun _ => List.prefix_rfl, fun _ _ _ => rfl, fun _ _ h => h⟩, hsteady.execute hfirst hnew, fun _ _ hk => .inl hk,
      fun j hij => ⟨⟨fun _ => List.prefix_rfl, fun _ _ _ => rfl, fun _ _ h => h⟩, hsteady.execute hfirst hnew,
        fun _ => Iff.rfl, fun _ _ => rfl, fun other key hother hkey => ?_⟩⟩
    rcases List.mem_append.1 hkey with hkey | hkey
    · exact hkey
    · obtain ⟨hrun, -⟩ := Prod.mk.inj (List.mem_singleton.1 hkey)
      rw [hrun, hfirst] at hother
      exact absurd (Option.some.inj hother) hij
  | append stream expected batch =>
    obtain ⟨⟨draft, rfl⟩, hallow⟩ := hallow
    rcases append_cases hsteady.valid hact with ⟨rfl, -⟩ | ⟨hexpected, -, happended⟩
    · exact .of_rely fun _ => hsteady.rely
    · rcases hallow with ⟨run, hrun, hhooks, hmine⟩ | ⟨catalog, hcatalog, hreplay⟩
      · have hmine' : world.firsts stream = some i ∨ world.rows contract stream = [] :=
          hmine.imp_right fun hzero => List.length_eq_zero_iff.1 (hexpected.symm.trans hzero)
        refine ⟨happended.later fun hone => absurd hone (@not_ofOneFact codec _ (.inr ⟨run, hrun⟩)),
          happended.steady_run hsteady hrun hhooks, fun other k hk => ?_,
          fun j hij => happended.rely_run hsteady hrun hhooks hmine' hij⟩
        rw [happended.firsts] at hk
        split_ifs at hk
        · exact .inr (Option.some.inj hk).symm
        · exact .inl hk
      · obtain ⟨state, hstate⟩ := hreplay hexpected
        have hrows : next.rows contract stream =
            world.rows contract stream ++ plannedRecords stream expected [draft] := by
          rw [happended.rows_self, hexpected]
          rfl
        exact .of_rely fun _ => happended.rely_catalog hapart hsteady hcatalog (hrows ▸ hstate)

theorem rely_other (hsteady : world.Steady contract codec selects) (h : @HookOther J journal codec world next) :
    Rely contract codec selects j world next := by
  cases h with
  | publish hfree =>
    refine hsteady.files fun path content hcontent => ?_
    rw [OrderedMaps.getElem?_insert_of_notMem (OrderedMaps.notMem_iff.2 hfree) hcontent]
  | @append stream expected batch a journal' hstream hone happend =>
    have hidle : journal' = world.journal → Rely contract codec selects j world { world with journal := journal' } := by
      rintro rfl
      exact hsteady.rely
    cases a with
    | error error => exact hidle (contract.append_error hsteady.valid happend)
    | ok records =>
      obtain ⟨hvalid, -, ⟨hexpected, -, hrows⟩ | ⟨hsame, -⟩⟩ := contract.append_ok hsteady.valid happend
      swap
      · exact hidle hsame
      have hne : ∀ s, s ≠ stream → contract.rows journal' s = contract.rows world.journal s := fun s hs => by
        rw [hrows, Function.update_of_ne hs]
      have hruns : ∀ run, contract.rows journal' (runStream run) = contract.rows world.journal (runStream run) := fun run =>
        hne _ fun he => hstream (.inr ⟨run, he.symm⟩)
      refine ⟨⟨fun s => ?_, fun s hs hrow => ?_, fun _ _ h => h⟩, ⟨⟨hvalid, fun catalog => ?_⟩, fun run => ?_, hsteady.executed,
        hsteady.executing, fun run hrow => ?_⟩, fun _ => Iff.rfl, fun run _ => hruns run, fun _ _ _ h => h⟩
      · rcases eq_or_ne s stream with rfl | hs
        · show _ <+: contract.rows journal' s
          rw [hrows, Function.update_self]
          exact List.prefix_append _ _
        · show _ <+: contract.rows journal' s
          rw [hne s hs]
          exact List.prefix_rfl
      · refine hne s fun he => hrow ?_
        have hzero := hone (he ▸ hs)
        rw [he]
        exact List.length_eq_zero_iff.1 (hexpected.symm.trans hzero)
      · show ∃ state, catalog.replayRows (contract.rows journal' catalog.stream) = .ok state
        rw [hne _ fun he => hstream (.inl ⟨catalog, he.symm⟩)]
        exact hsteady.catalogs catalog
      · show world.firsts (runStream run) = none ↔ contract.rows journal' (runStream run) = []
        rw [hruns]
        exact hsteady.begun run
      · have hrow' : contract.rows journal' (runStream run) ≠ [] := hrow
        rw [hruns] at hrow'
        exact hsteady.quiet run hrow'

end Hooks
end Kolyan
