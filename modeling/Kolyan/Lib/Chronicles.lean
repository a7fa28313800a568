/-
# Chronicles

A list that only grows at its end, each entry allowed by the entries before it.
`Chronicle may entries` says so; an entry that is allowed keeps it
(`Chronicle.snoc`), and each entry of the list has the entries it was allowed by
before it (`Chronicle.split`).  An entry is known by a name that no other has, so
that a name that was found is found for ever (`find?_named`).
-/

import Mathlib

variable {α β : Type} {may : List α → α → Prop} {entries later : List α} {entry : α}

/-- Every entry of a list was allowed by the entries before it. -/
def Chronicle (may : List α → α → Prop) (entries : List α) : Prop :=
  ∀ before entry, before ++ [entry] <+: entries → may before entry

theorem chronicle_nil : Chronicle may [] := fun before entry h => by simp at h

theorem Chronicle.snoc (h : Chronicle may entries) (hentry : may entries entry) :
    Chronicle may (entries ++ [entry]) := by
  intro before last hlast
  rcases List.prefix_concat_iff.1 hlast with heq | hpart
  · obtain ⟨rfl, hsame⟩ := List.append_inj' heq rfl
    obtain rfl := List.singleton_inj.1 hsame
    exact hentry
  · exact h before last hpart

theorem Chronicle.split (h : Chronicle may entries) (hentry : entry ∈ entries) :
    ∃ before after, entries = before ++ entry :: after ∧ may before entry := by
  obtain ⟨before, after, rfl⟩ := List.append_of_mem hentry
  exact ⟨before, after, rfl, h before entry ⟨after, by simp⟩⟩

/-- **A selected entry**, with what it was allowed by and the selected ones before it. -/
theorem Chronicle.selected {p : α → Bool} {before after : List α} (h : Chronicle may entries)
    (hsplit : entries.filter p = before ++ entry :: after) :
    ∃ seen, seen ++ [entry] <+: entries ∧ may seen entry ∧ seen.filter p = before := by
  obtain ⟨earlier, rest, rfl, rfl, hrest⟩ := List.filter_eq_append_iff.1 hsplit
  obtain ⟨skipped, later, rfl, hskipped, -, -⟩ := List.filter_eq_cons_iff.1 hrest
  have hpart : (earlier ++ skipped) ++ [entry] <+: earlier ++ (skipped ++ entry :: later) := ⟨later, by simp⟩
  refine ⟨earlier ++ skipped, hpart, h _ _ hpart, ?_⟩
  rw [List.filter_append, List.filter_eq_nil_iff.2 hskipped, List.append_nil]

section Names

variable {name : α → β} {a b : α}

theorem eq_of_name (hnames : (entries.map name).Nodup) (ha : a ∈ entries) (hb : b ∈ entries)
    (h : name a = name b) : a = b := List.inj_on_of_nodup_map hnames ha hb h

theorem find?_named [DecidableEq β] (hnames : (entries.map name).Nodup) (ha : a ∈ entries) {n : β} (h : name a = n) :
    (entries.find? fun entry => name entry = n) = some a := by
  cases hfound : entries.find? fun entry => name entry = n with
  | none => exact absurd (decide_eq_true h) (List.find?_eq_none.1 hfound a ha)
  | some b =>
    have hb : name b = n := of_decide_eq_true (List.find?_some (p := fun entry => decide (name entry = n)) hfound)
    exact congrArg some (eq_of_name hnames (List.mem_of_find?_eq_some hfound) ha (hb.trans h.symm))

end Names
