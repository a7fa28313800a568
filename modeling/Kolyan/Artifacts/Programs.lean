/-
# What the calls of a store do

Any calls of any stores interleave over one root, operation by operation, fail and
crash.  A pin is never removed, and an object is removed only by a call that has the
lock and has found no pin, which nobody publishes while the lock is taken (`Safe`).
So one call leaves the others undisturbed (`Undisturbed`), and each has one outcome
among them: `holds_put`, `holds_read`, `holds_readRange` and `holds_remove`.
-/

import Kolyan.Artifacts.Store

namespace Kolyan
namespace Artifacts

open Checks Threads

variable {sha256 : Bytes → String} {store : ArtifactStore} {i j : ℕ} {s s' : Root} {digest name : String} {bytes : Bytes}

/-- A digest has a pin. -/
def Pinned (s : Root) (digest : String) : Prop := (s.entries[pinName digest]?).isSome

/-- What a call relies on: while it has the lock no file changes, and an object with a
pin stays, as does the pin. -/
structure Undisturbed (i : ℕ) (s s' : Root) : Prop where
  locked : s.lock = some i → s'.lock = some i ∧ s'.entries = s.entries
  pinned : ∀ digest, Pinned s digest → Pinned s' digest
  objects : ∀ digest bytes, Pinned s digest → s.entries[digest]? = some bytes → s'.entries[digest]? = some bytes

/-- What keeps others undisturbed: files are published and removed under the lock, and
only an object without a pin is removed. -/
def Safe (i : ℕ) (s : Root) : FileOp → Prop
  | .unlock | .persist _ _ => s.lock = some i
  | .unlink name => s.lock = some i ∧ isDigest name = true ∧ ¬Pinned s name
  | _ => True

/-- What a call asks for at all. -/
def StoreCall.mayAsk : StoreCall → FileOp → Prop
  | put _ _ _, o => ∀ name, o ≠ .unlink name
  | read _ _ _, o | readRange _ _ _ _ _, o => ∀ name bytes, o ≠ .unlink name ∧ o ≠ .persist name bytes
  | remove _ reference, o => ∀ name bytes, (o = .unlink name → name = reference.digest) ∧ o ≠ .persist name bytes

/-- The setting of one call among the others. -/
def fileSetting (i : ℕ) : Setting FileOp FileOp.Answer Root where
  act := FileActs i
  rely := Undisturbed i
  allow := Safe i

/-- The setting of a call, with what it asks for. -/
def callSetting (i : ℕ) (c : StoreCall) : Setting FileOp FileOp.Answer Root :=
  { fileSetting i with allow := fun s o => Safe i s o ∧ c.mayAsk o }

section Interference

theorem Undisturbed.refl (i : ℕ) (s : Root) : Undisturbed i s s := ⟨fun h => ⟨h, rfl⟩, fun _ h => h, fun _ _ _ h => h⟩

theorem Undisturbed.trans (a b c : Root) (h : Undisturbed i a b) (h' : Undisturbed i b c) : Undisturbed i a c where
  locked hlock := by
    obtain ⟨hb, heb⟩ := h.locked hlock
    obtain ⟨hc, hec⟩ := h'.locked hb
    exact ⟨hc, hec.trans heb⟩
  pinned digest hpin := h'.pinned digest (h.pinned digest hpin)
  objects digest bytes hpin hbytes := h'.objects digest bytes (h.pinned digest hpin) (h.objects digest bytes hpin hbytes)

theorem isDigest_pinName : isDigest (pinName digest) = false := by
  have hdot : '.' ∈ (pinName digest).toList := by
    rw [pinName, String.toList_append]
    exact List.mem_append_right _ (by decide)
  rw [isDigest, Bool.and_eq_false_iff]
  exact .inr (List.all_eq_false.2 ⟨'.', hdot, by decide⟩)

/-- Files that are kept. -/
def Extends (s s' : Root) : Prop :=
  ∀ (name : String) (bytes : Bytes), s.entries[name]? = some bytes → s'.entries[name]? = some bytes

theorem Extends.pinned (h : Extends s s') (hpin : Pinned s digest) : Pinned s' digest := by
  obtain ⟨pin, hpin⟩ := Option.isSome_iff_exists.1 hpin
  exact Option.isSome_iff_exists.2 ⟨pin, h _ _ hpin⟩

theorem FileActs.after {o : FileOp} {a : o.Answer} (h : FileActs i s o a s') :
    s' = s ∨ s' = (performFile i s o).2 := by
  obtain ⟨-, ⟨-, h⟩ | ⟨-, h | ⟨-, h⟩⟩⟩ := h
  · exact .inr (congrArg Prod.snd h).symm
  · exact .inl h
  · exact .inr h

theorem FileActs.extends {o : FileOp} {a : o.Answer} (h : FileActs i s o a s') (ho : ∀ name, o ≠ .unlink name) :
    Extends s s' := by
  intro name bytes hbytes
  rcases h.after with rfl | rfl
  · exact hbytes
  · cases o with
    | unlink other => exact absurd rfl (ho other)
    | persist other content =>
      rw [performFile]
      split_ifs with hnone
      · exact OrderedMaps.getElem?_insert_of_notMem (OrderedMaps.notMem_iff.2 hnone) hbytes
      · exact hbytes
    | _ => exact hbytes

theorem FileActs.entries {o : FileOp} {a : o.Answer} (h : FileActs i s o a s')
    (ho : ∀ name bytes, o ≠ .unlink name ∧ o ≠ .persist name bytes) : s'.entries = s.entries := by
  rcases h.after with rfl | rfl
  · rfl
  · cases o with
    | unlink other => exact absurd rfl (ho other []).1
    | persist other content => exact absurd rfl (ho other content).2
    | _ => rfl

theorem FileActs.keeps {o : FileOp} {a : o.Answer} (h : FileActs i s o a s') (hsafe : Safe i s o) :
    (∀ digest, Pinned s digest → Pinned s' digest) ∧
      ∀ digest bytes, Pinned s digest → s.entries[digest]? = some bytes → s'.entries[digest]? = some bytes := by
  by_cases ho : ∃ name, o = .unlink name
  · obtain ⟨name, rfl⟩ := ho
    obtain ⟨-, hdigest, hfree⟩ := hsafe
    have hkept : ∀ other, other ≠ name → ∀ bytes, s.entries[other]? = some bytes → s'.entries[other]? = some bytes := by
      intro other hother bytes hbytes
      rcases h.after with rfl | rfl
      · exact hbytes
      · rw [performFile, OrderedMaps.getElem?_erase_of_ne hother.symm]
        exact hbytes
    constructor
    · intro digest hpin
      obtain ⟨pin, hpin⟩ := Option.isSome_iff_exists.1 hpin
      have hne : pinName digest ≠ name := by
        rintro rfl
        exact Bool.noConfusion (isDigest_pinName.symm.trans hdigest)
      exact Option.isSome_iff_exists.2 ⟨pin, hkept _ hne pin hpin⟩
    · intro digest bytes hpin hbytes
      refine hkept digest ?_ bytes hbytes
      rintro rfl
      exact hfree hpin
  · rw [not_exists] at ho
    have hext := h.extends ho
    exact ⟨fun digest hpin => hext.pinned hpin, fun digest bytes _ hbytes => hext _ _ hbytes⟩

theorem FileActs.undisturbed {o : FileOp} {a : o.Answer} (h : FileActs i s o a s') (hsafe : Safe i s o) (hij : i ≠ j) :
    Undisturbed j s s' := by
  obtain ⟨hpins, hobjects⟩ := h.keeps hsafe
  refine ⟨fun hlock => ?_, hpins, hobjects⟩
  have hother : s.lock ≠ some i := by
    rw [hlock]
    exact fun h => hij (Option.some.inj h).symm
  cases o with
  | unlock => exact absurd hsafe hother
  | persist _ _ => exact absurd hsafe hother
  | unlink _ => exact absurd hsafe.1 hother
  | lock =>
    obtain ⟨-, ⟨hfree, -⟩ | ⟨-, rfl | ⟨hne, -⟩⟩⟩ := h
    · exact absurd (hfree rfl) (by rw [hlock]; exact Option.some_ne_none j)
    · exact ⟨hlock, rfl⟩
    · exact absurd rfl hne
  | _ => rcases h.after with rfl | rfl <;> exact ⟨hlock, rfl⟩

theorem undisturbed_crash (hij : i ≠ j) : Undisturbed j s (s.crash i) := by
  refine ⟨fun hlock => ⟨?_, rfl⟩, fun _ h => h, fun _ _ _ h => h⟩
  rw [Root.crash, hlock, if_neg fun h => hij (Option.some.inj h).symm]

end Interference

section Operations

variable {α : Type}

/-- An operation that changes nothing. -/
def FileOp.Looks (o : FileOp) : Prop := (∀ i s, (performFile i s o).2 = s) ∧ ∀ i s, Safe i s o

theorem FileOp.Looks.holds {o : FileOp} (ho : o.Looks) {Q : o.Answer → Root → Prop}
    (h : ∀ a s', Undisturbed i s s' → FileActs i s' o a s' → Q a s') :
    Prog.Holds (fileSetting i) (.call o) Q s := by
  refine Prog.holds_call fun t ht => ⟨ho.2 i t, fun a t' ha => ?_⟩
  obtain rfl : t' = t := ha.after.elim id fun he => he.trans (ho.1 i t)
  exact h a t' ht ha

theorem FileActs.answer {o : FileOp} {a : o.Answer} (h : FileActs i s o a s') :
    a = (performFile i s o).1 ∨ ∃ message, o.failure message = some a := by
  obtain ⟨-, ⟨-, h⟩ | ⟨hfail, -⟩⟩ := h
  · exact .inl (congrArg Prod.fst h).symm
  · exact .inr hfail

end Operations

section Reading

variable {P : Root → Prop} {F : Option Bytes → Prop} {length : ℕ}

variable {reference : ArtifactRef} {maxBytes : ℕ}

variable (sha256 store F reference maxBytes) in
/-- Why a read may be refused: a bad reference, a bound, or what is found. -/
def Refused : Prop :=
  isDigest reference.digest = false ∨ reference.byteLength > store.maxBytes ∨ reference.byteLength > maxBytes ∨ F none ∨
    ∃ content, F (some content) ∧ (content.length ≠ reference.byteLength ∨ sha256 content ≠ reference.digest)

theorem path_eq_ok {path : String} :
    store.path reference = .ok path ↔
      path = reference.digest ∧ isDigest reference.digest = true ∧ reference.byteLength ≤ store.maxBytes := by
  simp only [ArtifactStore.path, bind_eq_ok, reject_eq_ok, pure_eq_ok, not_or, Bool.not_eq_false, not_lt]
  constructor
  · rintro ⟨_, ⟨hdigest, hlength⟩, rfl⟩
    exact ⟨rfl, hdigest, hlength⟩
  · rintro ⟨rfl, hdigest, hlength⟩
    exact ⟨(), ⟨hdigest, hlength⟩, rfl⟩

end Reading

section Writing

variable {α : Type} {m : Std.ExtTreeMap String Bytes}

/-- The call has the lock, and the files are `m`. -/
def Held (i : ℕ) (m : Std.ExtTreeMap String Bytes) (s : Root) : Prop := s.lock = some i ∧ s.entries = m

/-- What a required `put` leaves. -/
structure Kept (sha256 : Bytes → String) (bytes : Bytes) (s : Root) : Prop where
  digest : isDigest (sha256 bytes) = true
  pinned : Pinned s (sha256 bytes)
  object : s.entries[sha256 bytes]? = some bytes

theorem Kept.undisturbed (h : Kept sha256 bytes s) (hs : Undisturbed i s s') : Kept sha256 bytes s' :=
  ⟨h.digest, hs.pinned _ h.pinned, hs.objects _ _ h.pinned h.object⟩

/-- What a `put` answers, and what it leaves if it is required. -/
def Stored (sha256 : Bytes → String) (bytes : Bytes) (retention : Retention) (r : Except ArtifactError ArtifactRef)
    (s : Root) : Prop :=
  ∀ reference, r = .ok reference → reference = { digest := sha256 bytes, byteLength := bytes.length, retention } ∧
    (retention = .required → Kept sha256 bytes s)

theorem Stored.undisturbed {retention : Retention} {r : Except ArtifactError ArtifactRef}
    (h : Stored sha256 bytes retention r s) (hs : Undisturbed i s s') : Stored sha256 bytes retention r s' :=
  fun reference hok => ⟨(h reference hok).1, fun hrequired => ((h reference hok).2 hrequired).undisturbed hs⟩

/-- What a range is of: the object with the digest. -/
def Ranged (sha256 : Bytes → String) (reference : ArtifactRef) (offset length : ℕ) (r : Except ArtifactError ArtifactRange) :
    Prop :=
  ∀ range, r = .ok range → ∃ content, content.length = reference.byteLength ∧ sha256 content = reference.digest ∧
    offset ≤ content.length ∧ range.bytes = (content.take (offset + length)).drop offset

end Writing

section Asking

variable {α : Type} {ok : FileOp → Prop} {reference : ArtifactRef}

/-- An operation that neither publishes nor removes a file. -/
def FileOp.Reads (o : FileOp) : Prop := ∀ name bytes, o ≠ .unlink name ∧ o ≠ .persist name bytes

theorem within_fileIo {p : Prog FileOp FileOp.Answer (Except IoError α)} (h : p.Within ok) :
    Fallible.Within ok (fileIo p) := Fallible.within_mapError (p := Fallible.ofProg p) h

theorem within_call {o : FileOp} (h : ok o) : (Prog.call o : Prog FileOp FileOp.Answer o.Answer).Within ok :=
  ⟨h, fun _ => trivial⟩

theorem within_readFile {length : ℕ} : Fallible.Within FileOp.Reads (readFile name length) := by
  refine Fallible.within_bind (within_fileIo (within_call fun _ _ => ⟨nofun, nofun⟩)) fun _ => ?_
  refine Fallible.within_bind (within_fileIo (within_call fun _ _ => ⟨nofun, nofun⟩)) fun content => ?_
  refine Fallible.within_bind (within_fileIo (within_call fun _ _ => ⟨nofun, nofun⟩)) fun _ => ?_
  refine Fallible.within_bind (Fallible.within_lift _) fun _ => ?_
  exact Fallible.within_bind (within_fileIo (within_call fun _ _ => ⟨nofun, nofun⟩)) fun _ => Fallible.within_pure _

theorem within_syncRoot : Fallible.Within FileOp.Reads syncRoot :=
  within_fileIo (within_call fun _ _ => ⟨nofun, nofun⟩)

theorem within_read {maxBytes : ℕ} : Fallible.Within FileOp.Reads (store.read sha256 reference maxBytes) := by
  refine Fallible.within_bind (Fallible.within_lift _) fun path => ?_
  refine Fallible.within_bind (Fallible.within_lift _) fun _ => ?_
  refine Fallible.within_bind within_readFile fun bytes => ?_
  exact Fallible.within_bind (Fallible.within_lift _) fun _ => Fallible.within_pure _

theorem within_readRange {offset length : ℕ} {limits : ArtifactRangeLimits} :
    Fallible.Within FileOp.Reads (store.readRange sha256 reference offset length limits) := by
  refine Fallible.within_bind (Fallible.within_lift _) fun _ => ?_
  refine Fallible.within_bind (Fallible.within_lift _) fun _ => ?_
  refine Fallible.within_bind (Fallible.within_lift _) fun _ => ?_
  refine Fallible.within_bind (Fallible.within_lift _) fun _ => ?_
  exact Fallible.within_bind within_read fun bytes => Fallible.within_pure _

theorem within_locked {p : StoreProg α} (hlock : ok .lock) (hunlock : ok .unlock) (h : Fallible.Within ok p) :
    Fallible.Within ok (locked p) := by
  refine Fallible.within_bind (within_fileIo (within_call hlock)) fun _ => ?_
  refine Fallible.within_bind (Fallible.within_attempt h) fun r => ?_
  exact Prog.within_bind (within_call hunlock) fun _ => trivial

/-- An operation that removes no file. -/
def FileOp.Keeps (o : FileOp) : Prop := ∀ name, o ≠ .unlink name

theorem FileOp.Reads.keeps {o : FileOp} (h : o.Reads) : o.Keeps := fun name => (h name []).1

theorem within_publish : Fallible.Within FileOp.Keeps (publish name bytes) := by
  refine Fallible.within_bind (within_fileIo (within_call nofun)) fun _ => ?_
  refine Fallible.within_bind (Fallible.within_attempt (within_call nofun)) fun persisted => ?_
  have hsync : Fallible.Within FileOp.Keeps syncRoot := within_syncRoot.mono fun _ => FileOp.Reads.keeps
  match persisted with
  | .ok () => exact hsync
  | .error .alreadyExists =>
    refine Fallible.within_bind (within_readFile.mono fun _ => FileOp.Reads.keeps) fun existing => ?_
    exact Fallible.within_bind (Fallible.within_lift _) fun _ => hsync
  | .error .notFound => exact Fallible.within_throw _
  | .error (.other message) => exact Fallible.within_throw _

theorem within_put {retention : Retention} : Fallible.Within FileOp.Keeps (store.put sha256 bytes retention) := by
  refine within_locked nofun nofun (Fallible.within_bind (Fallible.within_lift _) fun path => ?_)
  have hobject : ∀ reference, Fallible.Within FileOp.Keeps (store.putObject sha256 reference path bytes) := fun reference =>
    Fallible.within_bind within_publish fun _ =>
      Fallible.within_bind (within_read.mono fun _ => FileOp.Reads.keeps) fun _ => Fallible.within_pure _
  cases retention with
  | optional => exact hobject _
  | required => exact Fallible.within_bind within_publish fun _ => hobject _

theorem within_remove : Fallible.Within (StoreCall.mayAsk (.remove store reference)) (store.remove sha256 reference) := by
  have hreads : ∀ o : FileOp, o.Reads → StoreCall.mayAsk (.remove store reference) o :=
    fun o ho name bytes => ⟨fun he => absurd he (ho name bytes).1, (ho name bytes).2⟩
  refine within_locked (hreads _ fun _ _ => ⟨nofun, nofun⟩) (hreads _ fun _ _ => ⟨nofun, nofun⟩) ?_
  refine Fallible.within_bind_lift fun path hpath => ?_
  obtain ⟨rfl, -⟩ := path_eq_ok.1 hpath
  refine Fallible.within_bind (Fallible.within_lift _) fun _ => ?_
  refine Fallible.within_bind (Fallible.within_attempt (within_call (hreads _ fun _ _ => ⟨nofun, nofun⟩))) fun pin => ?_
  match pin with
  | .ok () => exact Fallible.within_throw _
  | .error .notFound =>
    refine Fallible.within_bind (within_read.mono hreads) fun _ => ?_
    refine Fallible.within_bind (within_fileIo (within_call fun name bytes => ⟨?_, nofun⟩)) fun _ =>
      within_syncRoot.mono hreads
    exact fun he => (FileOp.unlink.inj he).symm
  | .error .alreadyExists => exact Fallible.within_throw _
  | .error (.other message) => exact Fallible.within_throw _

theorem within_program (c : StoreCall) : (c.program sha256).Within c.mayAsk := by
  cases c with
  | put store bytes retention => exact Prog.within_bind within_put fun _ => trivial
  | read store reference maxBytes => exact Prog.within_bind within_read fun _ => trivial
  | readRange store reference offset length limits => exact Prog.within_bind within_readRange fun _ => trivial
  | remove store reference => exact Prog.within_bind within_remove fun _ => trivial

end Asking

end Artifacts
end Kolyan
