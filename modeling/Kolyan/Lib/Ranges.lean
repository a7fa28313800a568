/-
# Ranges of positions in a list

A range is half open.  Ranges in order (`Ordered`) cut a part out of a list
(`slices`); those that leave no gap (`Tiles`) cut the list into pieces.  Ranges that
meet can be merged, which changes neither the positions that are kept nor the part
that is cut out.  When every position from some point on is kept, the part ends with
the rest of the list, and what comes before it is a sublist (`slices_eq_append`).
-/

import Mathlib

namespace Ranges

universe u

/-- The positions from `start` on, before `stop`. -/
structure Range where
  start : ℕ
  stop : ℕ
  deriving DecidableEq

/-- A position in the range. -/
def Range.Contains (r : Range) (i : ℕ) : Prop := r.start ≤ i ∧ i < r.stop

instance (r : Range) (i : ℕ) : Decidable (r.Contains i) := inferInstanceAs (Decidable (_ ∧ _))

/-- A position in one of the ranges. -/
def Kept (rs : List Range) (i : ℕ) : Prop := ∃ r ∈ rs, r.Contains i

instance (rs : List Range) (i : ℕ) : Decidable (Kept rs i) := inferInstanceAs (Decidable (∃ r ∈ rs, r.Contains i))

/-- The ranges lie in order between `lo` and `hi`. -/
def Ordered (lo hi : ℕ) : List Range → Prop
  | [] => lo ≤ hi
  | r :: rs => lo ≤ r.start ∧ r.start < r.stop ∧ Ordered r.stop hi rs

/-- The ranges fill what is between `lo` and `hi`, in order. -/
def Tiles (lo hi : ℕ) : List Range → Prop
  | [] => lo = hi
  | r :: rs => r.start = lo ∧ r.start < r.stop ∧ Tiles r.stop hi rs

section Order

variable {rs rs' : List Range} {r : Range} {lo lo' mid hi i : ℕ}

@[simp] theorem not_kept_nil : ¬Kept [] i := fun ⟨_, hr, _⟩ => nomatch hr

@[simp] theorem kept_cons : Kept (r :: rs) i ↔ r.Contains i ∨ Kept rs i := by simp [Kept]

@[simp] theorem kept_append : Kept (rs ++ rs') i ↔ Kept rs i ∨ Kept rs' i := by
  simp only [Kept, List.mem_append, or_and_right, exists_or]

theorem Ordered.le (h : Ordered lo hi rs) : lo ≤ hi := by
  induction rs generalizing lo with
  | nil => exact h
  | cons r rs ih =>
    have := ih h.2.2
    have := h.1
    have := h.2.1
    omega

theorem Ordered.mono (h : Ordered lo hi rs) (hlo : lo' ≤ lo) : Ordered lo' hi rs := by
  cases rs with
  | nil => exact hlo.trans h
  | cons r rs => exact ⟨hlo.trans h.1, h.2⟩

theorem Ordered.bounds (h : Ordered lo hi rs) (hkept : Kept rs i) : lo ≤ i ∧ i < hi := by
  induction rs generalizing lo with
  | nil => exact absurd hkept not_kept_nil
  | cons r rs ih =>
    obtain ⟨hstart, hlt, hrest⟩ := h
    have hle := hrest.le
    rcases kept_cons.1 hkept with ⟨hlow, hhigh⟩ | hkept
    · omega
    · have := ih hrest hkept
      omega

theorem Ordered.lt (h : Ordered lo hi rs) (hr : r ∈ rs) : r.start < r.stop := by
  induction rs generalizing lo with
  | nil => exact nomatch hr
  | cons s rs ih =>
    rcases List.mem_cons.1 hr with rfl | hr
    · exact h.2.1
    · exact ih h.2.2 hr

theorem Ordered.sublist (h : Ordered lo hi rs) (hsub : rs'.Sublist rs) : Ordered lo hi rs' := by
  induction hsub generalizing lo with
  | slnil => exact h
  | cons r _ ih => exact (ih h.2.2).mono (h.1.trans h.2.1.le)
  | cons_cons r _ ih => exact ⟨h.1, h.2.1, ih h.2.2⟩

theorem ordered_append : Ordered lo hi (rs ++ rs') ↔ ∃ mid, Ordered lo mid rs ∧ Ordered mid hi rs' := by
  induction rs generalizing lo with
  | nil => exact ⟨fun h => ⟨lo, le_refl lo, h⟩, fun ⟨_, hmid, h⟩ => h.mono hmid⟩
  | cons r rs ih =>
    simp only [List.cons_append, Ordered, ih]
    exact ⟨fun ⟨h, h', mid, hrest⟩ => ⟨mid, ⟨h, h', hrest.1⟩, hrest.2⟩,
      fun ⟨mid, ⟨h, h', hrest⟩, hafter⟩ => ⟨h, h', mid, hrest, hafter⟩⟩

theorem Tiles.ordered (h : Tiles lo hi rs) : Ordered lo hi rs := by
  induction rs generalizing lo with
  | nil => exact h.le
  | cons r rs ih => exact ⟨h.1.ge, h.2.1, ih h.2.2⟩

theorem Tiles.kept (h : Tiles lo hi rs) : Kept rs i ↔ lo ≤ i ∧ i < hi := by
  refine ⟨h.ordered.bounds, fun hi' => ?_⟩
  induction rs generalizing lo with
  | nil =>
    have : lo = hi := h
    omega
  | cons r rs ih =>
    obtain ⟨rfl, _, hrest⟩ := h
    by_cases hstop : i < r.stop
    · exact kept_cons.2 (.inl ⟨hi'.1, hstop⟩)
    · exact kept_cons.2 (.inr (ih hrest ⟨by omega, hi'.2⟩))

theorem Ordered.index_eq {r r' : Range} {j j' : ℕ} (h : Ordered lo hi rs) (hj : rs[j]? = some r)
    (hj' : rs[j']? = some r') (hi : r.Contains i) (hi' : r'.Contains i) : j = j' := by
  induction rs generalizing lo j j' with
  | nil => exact nomatch hj
  | cons s rs ih =>
    obtain ⟨hstart, hlt, hrest⟩ := h
    have hafter : ∀ t ∈ rs, t.Contains i → s.stop ≤ i := fun t ht hti => (hrest.bounds ⟨t, ht, hti⟩).1
    cases j with
    | zero =>
      obtain rfl := Option.some.inj hj
      cases j' with
      | zero => rfl
      | succ j' => exact absurd (hafter r' (List.mem_of_getElem? hj') hi') (not_le.2 hi.2)
    | succ j =>
      cases j' with
      | zero =>
        obtain rfl := Option.some.inj hj'
        exact absurd (hafter r (List.mem_of_getElem? hj) hi) (not_le.2 hi'.2)
      | succ j' => exact congrArg (· + 1) (ih hrest hj hj')

end Order

section Slices

variable {α : Type u} {l : List α} {rs : List Range} {r : Range} {lo mid hi n i : ℕ}

/-- The elements at the positions of a range. -/
def Range.slice (r : Range) (l : List α) : List α := (l.drop r.start).take (r.stop - r.start)

/-- The elements at the positions of the ranges. -/
def slices (rs : List Range) (l : List α) : List α := rs.flatMap fun r => r.slice l

@[simp] theorem slices_nil : slices [] l = [] := rfl

@[simp] theorem slices_cons : slices (r :: rs) l = r.slice l ++ slices rs l := rfl

@[simp] theorem slices_append {rs' : List Range} : slices (rs ++ rs') l = slices rs l ++ slices rs' l :=
  List.flatMap_append

theorem slice_append (h : lo ≤ mid) (h' : mid ≤ hi) :
    (Range.mk lo mid).slice l ++ (Range.mk mid hi).slice l = (Range.mk lo hi).slice l := by
  obtain ⟨k, rfl⟩ := Nat.exists_eq_add_of_le h
  obtain ⟨l, rfl⟩ := Nat.exists_eq_add_of_le h'
  have hsub : lo + k + l - (lo + k) = l := by omega
  have hall : lo + k + l - lo = k + l := by omega
  rw [Range.slice, Range.slice, Range.slice, hsub, hall, Nat.add_sub_cancel_left, List.take_add, List.drop_drop]

theorem slice_eq_drop (h : l.length ≤ hi) : (Range.mk lo hi).slice l = l.drop lo :=
  List.take_of_length_le (by rw [List.length_drop]; exact Nat.sub_le_sub_right h lo)

theorem mem_slice (h : r.Contains i) (hi : i < l.length) : l[i] ∈ r.slice l := by
  have hcontains : r.start ≤ i ∧ i < r.stop := h
  refine List.mem_iff_getElem.2 ⟨i - r.start, ?_, ?_⟩
  · simp only [Range.slice, List.length_take, List.length_drop]
    omega
  · simp only [Range.slice, List.getElem_take, List.getElem_drop]
    congr 1
    omega

theorem Ordered.slices_sublist (h : Ordered lo hi rs) : (slices rs l).Sublist ((Range.mk lo hi).slice l) := by
  induction rs generalizing lo with
  | nil => exact List.nil_sublist _
  | cons r rs ih =>
    obtain ⟨hstart, hlt, hrest⟩ := h
    rw [slices_cons, ← slice_append hstart (hlt.le.trans hrest.le), ← slice_append hlt.le hrest.le]
    exact ((List.Sublist.refl _).append (ih hrest)).trans (List.sublist_append_right _ _)

theorem slice_zero : (Range.mk 0 hi).slice l = l.take hi := rfl

theorem Ordered.slices_sublist_self (h : Ordered 0 l.length rs) : (Ranges.slices rs l).Sublist l := by
  have hsub := h.slices_sublist (l := l)
  rwa [slice_zero, List.take_length] at hsub

theorem mem_slices_of_kept (hkept : Kept rs i) (hi : i < l.length) : l[i] ∈ Ranges.slices rs l := by
  obtain ⟨r, hr, hcontains⟩ := hkept
  exact List.mem_flatMap.2 ⟨r, hr, mem_slice hcontains hi⟩

/-- **A part that keeps the rest of the list from some point on** ends with it. -/
theorem Ordered.slices_eq_append (h : Ordered lo l.length rs) (hlo : lo ≤ n) (hn : n ≤ l.length)
    (hkept : ∀ i, n ≤ i → i < l.length → Kept rs i) :
    ∃ front, slices rs l = front ++ l.drop n ∧ front.Sublist ((Range.mk lo n).slice l) := by
  induction rs generalizing lo n with
  | nil =>
    obtain rfl : n = l.length := by
      by_contra hne
      exact not_kept_nil (hkept n (le_refl n) (by omega))
    exact ⟨[], by simp, List.nil_sublist _⟩
  | cons r rs ih =>
    obtain ⟨hstart, hlt, hrest⟩ := h
    have hstop := hrest.le
    by_cases hafter : r.stop ≤ n
    · -- the point lies after the first range
      obtain ⟨front, hfront, hsub⟩ := ih hrest hafter hn fun i hi hi' =>
        (kept_cons.1 (hkept i hi hi')).resolve_left fun hcontains => not_lt.2 (hafter.trans hi) hcontains.2
      refine ⟨r.slice l ++ front, by rw [slices_cons, hfront, List.append_assoc], ?_⟩
      rw [← slice_append hstart (hlt.le.trans hafter), ← slice_append hlt.le hafter]
      exact ((List.Sublist.refl _).append hsub).trans (List.sublist_append_right _ _)
    · -- the point lies in the first range, and what follows the range is all kept
      have hwithin : r.start ≤ n := by
        rcases kept_cons.1 (hkept n (le_refl n) (by omega)) with hcontains | hlater
        · exact hcontains.1
        · have := (hrest.bounds hlater).1
          omega
      obtain ⟨front, hfront, hsub⟩ := ih hrest (le_refl _) hstop fun i hi hi' =>
        (kept_cons.1 (hkept i (by omega) hi')).resolve_left fun hcontains => not_lt.2 hi hcontains.2
      obtain rfl : front = [] := by
        rw [Range.slice, Nat.sub_self, List.take_zero] at hsub
        exact List.sublist_nil.1 hsub
      refine ⟨(Range.mk r.start n).slice l, ?_, ?_⟩
      · have hmeet : (Range.mk r.start r.stop).slice l = _ := (slice_append hwithin (by omega)).symm
        rw [slices_cons, hfront, List.nil_append, ← slice_eq_drop (le_refl l.length),
          ← slice_eq_drop (le_refl l.length), ← slice_append (show n ≤ r.stop by omega) hstop, ← List.append_assoc]
        exact congrArg (· ++ _) hmeet
      · rw [← slice_append hstart hwithin]
        exact List.sublist_append_right _ _

end Slices

section Merge

variable {α : Type u} {l : List α} {rs : List Range} {r : Range} {lo mid hi i : ℕ}

/-- One more range after the others; if it meets the last one, that one grows. -/
def push (rs : List Range) (r : Range) : List Range :=
  match rs.getLast? with
  | some last => if last.stop = r.start then rs.dropLast ++ [⟨last.start, r.stop⟩] else rs ++ [r]
  | none => rs ++ [r]

theorem push_spec (h : Ordered lo mid rs) (hmid : mid ≤ r.start) (hlt : r.start < r.stop) :
    Ordered lo r.stop (push rs r) ∧ (∀ i, Kept (push rs r) i ↔ Kept rs i ∨ r.Contains i) ∧
      slices (push rs r) l = slices rs l ++ r.slice l := by
  have happend : Ordered lo r.stop (rs ++ [r]) := ordered_append.2 ⟨mid, h, hmid, hlt, le_refl r.stop⟩
  have hplain : ∀ i, Kept (rs ++ [r]) i ↔ Kept rs i ∨ r.Contains i := fun i => by simp
  rcases List.eq_nil_or_concat rs with rfl | ⟨front, last, rfl⟩
  · exact ⟨happend, hplain, by simp [push]⟩
  · rw [push, List.concat_eq_append, List.getLast?_concat]
    dsimp only
    rw [List.concat_eq_append] at happend hplain h
    split_ifs with hmeet
    · obtain ⟨before, hfront, hstart, hlast, -⟩ := ordered_append.1 h
      rw [List.dropLast_concat]
      refine ⟨ordered_append.2 ⟨before, hfront, hstart, ?_, le_refl r.stop⟩, fun i => ?_, ?_⟩
      · exact hlast.trans (hmeet ▸ hlt)
      · have hgrow : (Range.mk last.start r.stop).Contains i ↔ last.Contains i ∨ r.Contains i := by
          simp only [Range.Contains]
          omega
        simp only [kept_append, kept_cons, not_kept_nil, or_false, hgrow, or_assoc]
      · have hslice : last.slice l ++ r.slice l = (Range.mk last.start r.stop).slice l := by
          obtain ⟨start, stop⟩ := r
          obtain rfl : last.stop = start := hmeet
          exact slice_append hlast.le hlt.le
        simp only [slices_append, slices_cons, slices_nil, List.append_nil, List.append_assoc, hslice]
    · exact ⟨happend, hplain, by simp⟩

/-- The ranges with those that meet as one. -/
def merge (rs : List Range) : List Range := rs.foldl push []

theorem merge_spec (h : Ordered lo hi rs) :
    Ordered lo hi (merge rs) ∧ (∀ i, Kept (merge rs) i ↔ Kept rs i) ∧ slices (merge rs) l = slices rs l := by
  have hfold : ∀ (rs done : List Range) (mid : ℕ), Ordered lo mid done → Ordered mid hi rs →
      Ordered lo hi (rs.foldl push done) ∧ (∀ i, Kept (rs.foldl push done) i ↔ Kept done i ∨ Kept rs i) ∧
        slices (rs.foldl push done) l = slices done l ++ slices rs l := by
    intro rs
    induction rs with
    | nil =>
      intro done mid hdone hrest
      refine ⟨?_, fun i => by simp, by simp⟩
      have hjoin := ordered_append.2 ⟨mid, hdone, hrest⟩
      rwa [List.append_nil] at hjoin
    | cons r rs ih =>
      intro done mid hdone hrest
      obtain ⟨hstart, hlt, hafter⟩ := hrest
      obtain ⟨hordered, hkept, hslices⟩ := push_spec (l := l) hdone hstart hlt
      obtain ⟨hordered', hkept', hslices'⟩ := ih (push done r) r.stop hordered hafter
      refine ⟨hordered', fun i => ?_, ?_⟩
      · rw [List.foldl_cons, hkept', hkept, kept_cons, or_assoc]
      · rw [List.foldl_cons, hslices', hslices, slices_cons, List.append_assoc]
  obtain ⟨hordered, hkept, hslices⟩ := hfold rs [] lo (le_refl lo) h
  exact ⟨hordered, fun i => (hkept i).trans (by simp), hslices⟩

theorem merge_ne_nil (h : rs ≠ []) (hordered : Ordered lo hi rs) : merge rs ≠ [] := by
  intro hnil
  obtain ⟨-, hkept, -⟩ := merge_spec (l := ([] : List ℕ)) hordered
  cases rs with
  | nil => exact h rfl
  | cons r rs =>
    have hfirst : Kept (r :: rs) r.start := kept_cons.2 (.inl ⟨le_refl _, hordered.2.1⟩)
    rw [← hkept, hnil] at hfirst
    exact not_kept_nil hfirst

end Merge

end Ranges
