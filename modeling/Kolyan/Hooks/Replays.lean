/-
# What a replay of the catalog finds

`replay` accepts a stream of registrations and revocations that follow each other
(`Counted`): every revocation is of a registration, there are at most 128 of these,
so that a stream that replays has at most 256 rows.  A registration or a revocation
that was planned on the last state is accepted after it (`replayRow_registered`,
`replayRow_revoked`), and no row changes what was registered (`replayRow_keeps`).
-/

import Kolyan.Hooks.Runtime
import Kolyan.Facts.Exact

namespace Kolyan
namespace Hooks

open Checks Facts Artifacts

variable {codec : HookCodec} {catalog : HookCatalog codec} {state next : State} {row : FactRecord}

/-! ### Pinned bodies -/

/-- **What a `put` that answers has pinned.** -/
theorem pinArtifact_eq_ok {sha256 : Bytes → String} {store : ArtifactStore} {files : Std.ExtTreeMap String Bytes}
    {bytes : Bytes} {artifact : ArtifactRef} (h : (pinArtifact sha256 store files bytes).1 = .ok artifact) :
    artifact = ⟨sha256 bytes, bytes.length, .required⟩ ∧ isDigest artifact.digest = true ∧
      ∀ maxBytes, bytes.length ≤ maxBytes →
        findArtifact sha256 store (pinArtifact sha256 store files bytes).2 artifact maxBytes = .ok bytes := by
  unfold pinArtifact at h ⊢
  dsimp only at h ⊢
  cases hpath : store.path ⟨sha256 bytes, bytes.length, .required⟩ with
  | error error =>
    rw [hpath] at h
    exact nomatch h
  | ok path =>
    rw [hpath] at h
    have hdigest : isDigest (sha256 bytes) = true := by
      simp only [ArtifactStore.path, bind_eq_ok, reject_eq_ok, not_or, Bool.not_eq_false] at hpath
      exact hpath.choose_spec.1.1
    have hfound : ∀ (files : Std.ExtTreeMap String Bytes) maxBytes, files[path]? = some bytes → bytes.length ≤ maxBytes →
        findArtifact sha256 store files ⟨sha256 bytes, bytes.length, .required⟩ maxBytes = .ok bytes := by
      intro files maxBytes hat hle
      simp only [findArtifact, bind_eq_ok, reject_eq_ok, expect_eq_ok, pure_eq_ok]
      exact ⟨path, hpath, (), by simpa using hle, bytes, hat, (), by simp, rfl⟩
    dsimp only at h ⊢
    cases hat : files[path]? with
    | none =>
      rw [hat] at h
      obtain rfl := Except.ok.inj h
      exact ⟨rfl, hdigest, fun maxBytes hle => hfound _ _ OrderedMaps.getElem?_insert_self hle⟩
    | some existing =>
      rw [hat] at h
      dsimp only at h
      split_ifs at h with hsame
      obtain rfl := Except.ok.inj h
      exact ⟨rfl, hdigest, fun maxBytes hle => hfound _ _ (hsame ▸ hat) hle⟩

/-! ### States -/

/-- Every registration of a state is one of another. -/
def State.Kept (state next : State) : Prop :=
  ∀ (key : HookKey) (hook : RegisteredHook), state.entries[key]? = some hook → next.entries[key]? = some hook

/-- What the rows of a catalog count. -/
structure State.Counted (state : State) : Prop where
  head_eq : state.head = state.entries.size + state.revoked.size
  revoked_mem : ∀ key : HookKey, key ∈ state.revoked → key ∈ state.entries
  entries_le : state.entries.size ≤ 128

theorem State.Counted.empty : State.empty.Counted where
  head_eq := rfl
  revoked_mem _ h := absurd h Std.ExtTreeMap.not_mem_empty
  entries_le := Nat.zero_le _

/-! ### One row -/

theorem replayRegistration_eq_ok (h : catalog.replayRegistration state row = .ok next) :
    ∃ payload : Registration, payload.manifest.validate = .ok () ∧ state.entries[payload.manifest.key]? = none ∧
      state.entries.size < 128 ∧ next = { state with
        entries := state.entries.insert payload.manifest.key ⟨payload.manifest, payload.body, reference row⟩ } := by
  simp only [HookCatalog.replayRegistration, bind_eq_ok, reject_eq_ok, pure_eq_ok, not_or, not_le, ge_iff_le,
    Bool.not_eq_true, Option.isSome_eq_false_iff, Option.isNone_iff_eq_none] at h
  obtain ⟨payload, -, _, hmanifest, -, ⟨-, -, -, -, hsize, hfree⟩, -, -, -, -, rfl⟩ := h
  exact ⟨payload, hmanifest, hfree, hsize, rfl⟩

theorem replayRevocation_eq_ok (h : catalog.replayRevocation state row = .ok next) :
    ∃ payload : Revocation, payload.key ∈ state.entries ∧ payload.key ∉ state.revoked ∧
      next = { state with
        revoked := state.revoked.insert payload.key (reference row)
        operations := state.operations.insert payload.operationId (payload, reference row) } := by
  simp only [HookCatalog.replayRevocation, bind_eq_ok, reject_eq_ok, expect_eq_ok, pure_eq_ok, not_or,
    Bool.not_eq_true, Option.isSome_eq_false_iff, Option.isNone_iff_eq_none] at h
  obtain ⟨payload, -, -, -, -, -, original, horiginal, -, -, -, ⟨-, -, hrevoked, -⟩, rfl⟩ := h
  exact ⟨payload, OrderedMaps.mem_of_getElem? horiginal, OrderedMaps.notMem_iff.2 hrevoked, rfl⟩

/-- **What a row does to the state**, its head apart: a registration of a new key, or a
revocation of a registration that is not revoked. -/
theorem replayRow_cases (h : catalog.replayRow state row = .ok next) :
    row.position = state.head + 1 ∧ row.streamId = catalog.stream ∧ row.position ≤ 256 ∧ next.head = row.position ∧
      ((∃ (key : HookKey) (hook : RegisteredHook), hook.manifest.validate = .ok () ∧ state.entries[key]? = none ∧
          state.entries.size < 128 ∧ next.entries = state.entries.insert key hook ∧ next.revoked = state.revoked) ∨
        ∃ (key : HookKey) (fact : FactRef), key ∈ state.entries ∧ key ∉ state.revoked ∧
          next.entries = state.entries ∧ next.revoked = state.revoked.insert key fact) := by
  simp only [HookCatalog.replayRow, bind_eq_ok, reject_eq_ok, pure_eq_ok, not_or, not_not] at h
  obtain ⟨-, ⟨hposition, hstream, -, -⟩, -, -, middle, hmiddle, -, hcapacity, rfl⟩ := h
  refine ⟨hposition, hstream, by omega, rfl, ?_⟩
  unfold HookCatalog.replayFact at hmiddle
  split_ifs at hmiddle with hregistered hrevoked
  · obtain ⟨payload, hmanifest, hfree, hsize, rfl⟩ := replayRegistration_eq_ok hmiddle
    exact .inl ⟨payload.manifest.key, ⟨payload.manifest, payload.body, reference row⟩, hmanifest, hfree, hsize, rfl, rfl⟩
  · obtain ⟨payload, hentry, hfree, rfl⟩ := replayRevocation_eq_ok hmiddle
    exact .inr ⟨_, _, hentry, hfree, rfl, rfl⟩

theorem replayRow_keeps (h : catalog.replayRow state row = .ok next) : state.Kept next := by
  intro key hook hkey
  obtain ⟨-, -, -, -, ⟨key', hook', -, hfree, -, hentries, -⟩ | ⟨-, -, -, -, hentries, -⟩⟩ := replayRow_cases h
  · have hne : key' ≠ key := by
      rintro rfl
      exact absurd (hfree.symm.trans hkey) (by simp)
    rw [hentries, OrderedMaps.getElem?_insert_of_ne hne, hkey]
  · rw [hentries, hkey]

theorem State.Counted.replayRow (hcounted : state.Counted) (h : catalog.replayRow state row = .ok next) : next.Counted := by
  obtain ⟨hposition, -, -, hhead, hcases⟩ := replayRow_cases h
  have hstate := hcounted.head_eq
  rcases hcases with ⟨key, hook, -, hfree, hsize, hentries, hrevoked⟩ | ⟨key, fact, hentry, hfree, hentries, hrevoked⟩
  · have hgrown := OrderedMaps.size_insert_of_notMem (v := hook) (OrderedMaps.notMem_iff.2 hfree)
    refine ⟨?_, fun k hk => ?_, ?_⟩
    · rw [hhead, hentries, hrevoked]
      omega
    · rw [hrevoked] at hk
      rw [hentries]
      exact OrderedMaps.mem_insert.2 (.inr (hcounted.revoked_mem k hk))
    · rw [hentries]
      omega
  · have hgrown := OrderedMaps.size_insert_of_notMem (v := fact) hfree
    refine ⟨?_, fun k hk => ?_, ?_⟩
    · rw [hhead, hentries, hrevoked]
      omega
    · rw [hrevoked] at hk
      rw [hentries]
      rcases OrderedMaps.mem_insert.1 hk with rfl | hk
      · exact hentry
      · exact hcounted.revoked_mem k hk
    · rw [hentries]
      exact hcounted.entries_le

/-- Every registration of a state has a valid manifest. -/
def State.Validated (state : State) : Prop :=
  ∀ (key : HookKey) (hook : RegisteredHook), state.entries[key]? = some hook → hook.manifest.validate = .ok ()

theorem State.Validated.replayRow (hvalid : state.Validated) (h : catalog.replayRow state row = .ok next) : next.Validated := by
  intro key hook hkey
  obtain ⟨-, -, -, -, ⟨key', hook', hmanifest, -, -, hentries, -⟩ | ⟨-, -, -, -, hentries, -⟩⟩ := replayRow_cases h
  · rw [hentries, OrderedMaps.getElem?_insert] at hkey
    split_ifs at hkey
    · exact Option.some.inj hkey ▸ hmanifest
    · exact hvalid key hook hkey
  · exact hvalid key hook (hentries ▸ hkey)

theorem State.Counted.room (h : state.Counted) (hsize : state.entries.size < 128) : state.head + 1 ≤ 256 := by
  have hrevoked := OrderedMaps.size_le_of_mem h.revoked_mem
  have hhead := h.head_eq
  omega

theorem State.Counted.room_revoked (h : state.Counted) {key : HookKey} (hentry : key ∈ state.entries)
    (hfree : key ∉ state.revoked) : state.head + 1 ≤ 256 := by
  have hrevoked := OrderedMaps.size_lt_of_mem h.revoked_mem hentry hfree
  have hhead := h.head_eq
  have hentries := h.entries_le
  omega

/-! ### All rows -/

theorem replayRows_spec {rows : List FactRecord} (h : catalog.replayRows rows = .ok state) :
    state.Counted ∧ state.Validated ∧ state.head = rows.length ∧ rows.length ≤ 256 := by
  induction rows using List.reverseRecOn generalizing state with
  | nil =>
    obtain rfl := pure_eq_ok.1 h
    exact ⟨.empty, fun _ _ hkey => absurd hkey (by simp [State.empty]), rfl, Nat.zero_le _⟩
  | append_singleton rows row ih =>
    rw [HookCatalog.replayRows, List.foldlM_append, bind_eq_ok] at h
    obtain ⟨middle, hmiddle, hrow⟩ := h
    obtain ⟨hcounted, hvalid, hhead, -⟩ := ih hmiddle
    simp only [List.foldlM_cons, List.foldlM_nil, bind_eq_ok, pure_eq_ok] at hrow
    obtain ⟨_, hrow, rfl⟩ := hrow
    obtain ⟨hposition, -, hle, hnext, -⟩ := replayRow_cases hrow
    refine ⟨hcounted.replayRow hrow, hvalid.replayRow hrow, ?_, ?_⟩ <;> rw [List.length_append, List.length_singleton] <;> omega

theorem replayRows_keeps {rows more : List FactRecord} (h : catalog.replayRows rows = .ok state)
    (hnext : catalog.replayRows (rows ++ more) = .ok next) : state.Kept next := by
  induction more using List.reverseRecOn generalizing next with
  | nil =>
    rw [List.append_nil] at hnext
    obtain rfl := Except.ok.inj (h.symm.trans hnext)
    exact fun _ _ h => h
  | append_singleton more row ih =>
    rw [← List.append_assoc, HookCatalog.replayRows, List.foldlM_append, bind_eq_ok] at hnext
    obtain ⟨middle, hmiddle, hrow⟩ := hnext
    simp only [List.foldlM_cons, List.foldlM_nil, bind_eq_ok, pure_eq_ok] at hrow
    obtain ⟨_, hrow, rfl⟩ := hrow
    exact fun key hook hkey => replayRow_keeps hrow key hook (ih hmiddle key hook hkey)

/-! ### What was planned on the last state is accepted after it -/

theorem draft_eq_ok {kind : String} {key : HookKey} {causes : List FactRef} {payload : Value} {draft : FactDraft}
    (h : catalog.draft kind key causes payload = .ok draft) :
    draft.kind = kind ∧ draft.schemaVersion = 1 ∧ draft.critical = true ∧ draft.payload = payload ∧
      ∃ bytes, encode codec payload = .ok bytes := by
  simp only [HookCatalog.draft, bind_eq_ok, pure_eq_ok] at h
  obtain ⟨bytes, hbytes, identity, -, rfl⟩ := h
  exact ⟨rfl, rfl, rfl, rfl, bytes, hbytes⟩

variable (hlawful : codec.Lawful)
include hlawful

theorem replayRow_registered {payload : Registration} {draft : FactDraft} (hcounted : state.Counted)
    (hmanifest : payload.manifest.validate = .ok ()) (hcatalog : payload.catalog = catalog.name)
    (hretention : payload.body.retention = .required) (hdigest : isDigest payload.body.digest = true)
    (hlength : 1 ≤ payload.body.byteLength ∧ payload.body.byteLength ≤ 32 * 1024)
    (hfree : state.entries[payload.manifest.key]? = none) (hsize : ¬state.entries.size ≥ 128)
    (hdraft : catalog.registrationDraft payload.manifest.key payload.toValue.canonical = .ok draft) :
    ∃ next, catalog.replayRow state ⟨catalog.stream, state.head + 1, draft⟩ = .ok next := by
  obtain ⟨hkind, hversion, hcritical, hpayload, bytes, hbytes⟩ := draft_eq_ok hdraft
  have hroom := hcounted.room (not_le.1 hsize)
  have hread : codec.registration draft.payload = .ok payload := by rw [hpayload, hlawful.registration]
  have hrow : ∃ next, catalog.replayRegistration state ⟨catalog.stream, state.head + 1, draft⟩ = .ok next := by
    simp only [HookCatalog.replayRegistration, unreadable, bind_eq_ok, reject_eq_ok, mapError_eq_ok, pure_eq_ok]
    refine ⟨_, payload, hread, (), hmanifest, (), ?_, draft, ?_, (), fun h => h rfl, rfl⟩
    · simp [hcatalog, hretention, hdigest, hlength, hfree]
      omega
    · rw [hpayload]
      exact hdraft
  obtain ⟨next, hnext⟩ := hrow
  refine ⟨{ next with head := state.head + 1 }, ?_⟩
  simp only [HookCatalog.replayRow, HookCatalog.replayFact, bind_eq_ok, reject_eq_ok, pure_eq_ok]
  refine ⟨(), by simp [hversion, hcritical], bytes, by rw [hpayload]; exact hbytes, next, ?_, (), by omega, rfl⟩
  rw [if_pos hkind]
  exact hnext

theorem replayRow_revoked {payload : Revocation} {draft : FactDraft} {original : RegisteredHook}
    (hcounted : state.Counted) (hoperation : id payload.operationId = .ok ())
    (hreason : ¬(trimEmpty payload.reason ∨ payload.reason.utf8ByteSize > 1024))
    (horiginal : state.entries[payload.key]? = some original) (hregistration : original.reference = payload.registration)
    (hfree : state.revoked[payload.key]? = none) (hnew : state.operations[payload.operationId]? = none)
    (hdraft : catalog.revocationDraft payload.key payload.registration payload.operationId payload.toValue.canonical =
      .ok draft) :
    ∃ next, catalog.replayRow state ⟨catalog.stream, state.head + 1, draft⟩ = .ok next := by
  have hfields : draft.kind = "agent.hook.revoked" ∧ draft.schemaVersion = 1 ∧ draft.critical = true ∧
      draft.payload = payload.toValue.canonical ∧ ∃ bytes, encode codec payload.toValue.canonical = .ok bytes := by
    simp only [HookCatalog.revocationDraft, bind_eq_ok, pure_eq_ok] at hdraft
    obtain ⟨plain, hplain, identity, -, rfl⟩ := hdraft
    obtain ⟨hkind, hversion, hcritical, hpayload, hbytes⟩ := draft_eq_ok hplain
    exact ⟨hkind, hversion, hcritical, hpayload, hbytes⟩
  obtain ⟨hkind, hversion, hcritical, hpayload, bytes, hbytes⟩ := hfields
  have hroom := hcounted.room_revoked (OrderedMaps.mem_of_getElem? horiginal) (OrderedMaps.notMem_iff.2 hfree)
  have hread : codec.revocation draft.payload = .ok payload := by rw [hpayload, hlawful.revocation]
  have hrow : ∃ next, catalog.replayRevocation state ⟨catalog.stream, state.head + 1, draft⟩ = .ok next := by
    simp only [HookCatalog.replayRevocation, unreadable, bind_eq_ok, reject_eq_ok, expect_eq_ok, mapError_eq_ok, pure_eq_ok]
    refine ⟨_, payload, hread, (), hoperation, (), hreason, original, horiginal, draft, ?_, (), ?_, rfl⟩
    · rw [hpayload, hregistration]
      exact hdraft
    · simp [hregistration, hfree, hnew]
  obtain ⟨next, hnext⟩ := hrow
  refine ⟨{ next with head := state.head + 1 }, ?_⟩
  simp only [HookCatalog.replayRow, HookCatalog.replayFact, bind_eq_ok, reject_eq_ok, pure_eq_ok]
  refine ⟨(), by simp [hversion, hcritical], bytes, by rw [hpayload]; exact hbytes, next, ?_, (), by omega, rfl⟩
  rw [if_neg (by rw [hkind]; decide), if_pos hkind]
  exact hnext

end Hooks
end Kolyan
