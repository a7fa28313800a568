/-
# Programs that are cut off

A process that crashes leaves the world that its program has come to, wherever in
its operations that is.  What a setting promises of every world on the way holds
of this one too (`Holds.cut`).
-/

import Kolyan.Lib.Threads

namespace Threads
namespace Prog

variable {O : Type} {A : O → Type} {S α : Type} {act : S → (o : O) → A o × S} {s : S}

/-- The world that a program leaves when it is cut off after so many operations,
or has ended before. -/
def cut (act : S → (o : O) → A o × S) : ℕ → Prog O A α → S → S
  | n + 1, ask o next, s => cut act n (next (act s o).1) (act s o).2
  | _, _, s => s

theorem exists_cut_of_run {p : Prog O A α} {a : α} {s' : S} (h : p.run act s = some (a, s')) :
    ∃ n, p.cut act n s = s' := by
  induction p generalizing s with
  | done b =>
    obtain ⟨-, rfl⟩ := Prod.mk.inj (Option.some.inj h)
    exact ⟨0, rfl⟩
  | halt => exact nomatch h
  | ask o next ih =>
    obtain ⟨n, hn⟩ := ih (act s o).1 h
    exact ⟨n + 1, hn⟩

/-- **A program that is cut off** leaves a world that its operations keep. -/
theorem Holds.cut {E : Setting O A S} {keeps : S → Prop} (hrefl : ∀ s, keeps s → E.rely s s)
    (hact : ∀ s o, keeps s → E.allow s o → E.act s o (act s o).1 (act s o).2 ∧ keeps (act s o).2) {p : Prog O A α}
    {Q : α → S → Prop} (h : Holds E p Q s) (hs : keeps s) (n : ℕ) : keeps (p.cut act n s) := by
  induction n generalizing p s with
  | zero => cases p <;> exact hs
  | succ n ih =>
    cases p with
    | done a => exact hs
    | halt => exact hs
    | ask o next =>
      obtain ⟨hallow, hnext⟩ := h s (hrefl s hs)
      obtain ⟨hanswer, hkept⟩ := hact s o hs hallow
      exact ih (hnext _ _ hanswer) hkept

end Prog
end Threads
