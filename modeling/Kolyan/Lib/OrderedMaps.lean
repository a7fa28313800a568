/-
# Lookups, values and sums of ordered maps

An extensional tree map is its lookup function.  The lemmas state what a lookup
finds after one insertion with plain equality of keys, that the values of a map
are what its lookups find, and how a sum over the values grows with a new key.
-/

import Mathlib

namespace OrderedMaps

open Std

universe u v

variable {α : Type u} {β : Type v} {cmp : α → α → Ordering} [TransCmp cmp] {m : ExtTreeMap α β cmp}

theorem values_eq_map_toList : m.values = m.toList.map (·.2) := by
  obtain ⟨inner⟩ := m
  refine inner.inductionOn fun t => ?_
  show t.inner.values = (DTreeMap.Internal.Impl.Const.toList t.inner).map (·.2)
  rw [DTreeMap.Internal.Impl.values_eq_map_snd, DTreeMap.Internal.Impl.Const.toList_eq_toListModel_map,
    List.map_map]
  rfl

theorem mem_iff_exists {a : α} : a ∈ m ↔ ∃ v, m[a]? = some v := by
  rw [ExtTreeMap.mem_iff_isSome_getElem?, Option.isSome_iff_exists]

theorem notMem_iff {a : α} : a ∉ m ↔ m[a]? = none := by
  rw [ExtTreeMap.mem_iff_isSome_getElem?, Bool.not_eq_true, Option.isSome_eq_false_iff,
    Option.isNone_iff_eq_none]

theorem mem_of_getElem? {a : α} {v : β} (h : m[a]? = some v) : a ∈ m := mem_iff_exists.2 ⟨v, h⟩

theorem isEmpty_eq_false_iff_exists : m.isEmpty = false ↔ ∃ a, a ∈ m := by
  rw [ExtTreeMap.isEmpty_eq_false_iff, ExtTreeMap.eq_empty_iff_forall_not_mem, not_forall_not]

theorem size_insert_of_notMem {k : α} {v : β} (hk : k ∉ m) : (m.insert k v).size = m.size + 1 := by
  have hcontains : m.contains k = false := Bool.eq_false_iff.2 hk
  simp [ExtTreeMap.size_insert, hcontains]

theorem size_insert_of_mem {k : α} {v : β} (hk : k ∈ m) : (m.insert k v).size = m.size := by
  have hcontains : m.contains k = true := hk
  simp [ExtTreeMap.size_insert, hcontains]

section Lawful

variable [LawfulEqCmp cmp] [DecidableEq α] {k a : α} {v w : β}

omit [DecidableEq α] in
theorem size_le_of_mem {γ : Type*} {n : ExtTreeMap α γ cmp} (h : ∀ k, k ∈ m → k ∈ n) : m.size ≤ n.size := by
  rw [← ExtTreeMap.length_keys, ← ExtTreeMap.length_keys]
  refine (List.subperm_of_subset ExtTreeMap.nodup_keys fun k hk => ?_).length_le
  exact ExtTreeMap.mem_keys.2 (h k (ExtTreeMap.mem_keys.1 hk))

omit [DecidableEq α] in
theorem size_lt_of_mem {γ : Type*} {n : ExtTreeMap α γ cmp} (h : ∀ k, k ∈ m → k ∈ n) (hk : k ∈ n) (hm : k ∉ m) :
    m.size < n.size := by
  rw [← ExtTreeMap.length_keys, ← ExtTreeMap.length_keys]
  have hnodup : (k :: m.keys).Nodup :=
    List.nodup_cons.2 ⟨fun hmem => hm (ExtTreeMap.mem_keys.1 hmem), ExtTreeMap.nodup_keys⟩
  refine (List.subperm_of_subset hnodup fun a ha => ?_).length_le
  rcases List.mem_cons.1 ha with rfl | ha
  · exact ExtTreeMap.mem_keys.2 hk
  · exact ExtTreeMap.mem_keys.2 (h a (ExtTreeMap.mem_keys.1 ha))

omit [DecidableEq α] in
theorem mem_values : v ∈ m.values ↔ ∃ k : α, m[k]? = some v := by
  rw [values_eq_map_toList, List.mem_map]
  constructor
  · rintro ⟨⟨k, v⟩, hmem, rfl⟩
    exact ⟨k, ExtTreeMap.mem_toList_iff_getElem?_eq_some.1 hmem⟩
  · rintro ⟨k, hk⟩
    exact ⟨(k, v), ExtTreeMap.mem_toList_iff_getElem?_eq_some.2 hk, rfl⟩

theorem getElem?_insert : (m.insert k v)[a]? = if k = a then some v else m[a]? := by
  rw [ExtTreeMap.getElem?_insert]
  simp only [LawfulEqCmp.compare_eq_iff_eq]

theorem getElem?_insert_self : (m.insert k v)[k]? = some v := by
  rw [getElem?_insert, if_pos rfl]

theorem getElem?_insert_of_ne (h : k ≠ a) : (m.insert k v)[a]? = m[a]? := by
  rw [getElem?_insert, if_neg h]

omit [DecidableEq α] in
theorem getElem?_erase_of_ne (h : k ≠ a) : (m.erase k)[a]? = m[a]? := by
  rw [ExtTreeMap.getElem?_erase, if_neg fun hcompare => h (LawfulEqCmp.eq_of_compare hcompare)]

theorem getElem?_insert_of_notMem (hk : k ∉ m) (ha : m[a]? = some w) : (m.insert k v)[a]? = some w := by
  have hne : k ≠ a := by
    rintro rfl
    exact hk (mem_of_getElem? ha)
  rw [getElem?_insert_of_ne hne, ha]

theorem map_getElem?_insert {γ : Type*} {f : β → γ} (hk : m[k]? = some w) (hf : f v = f w) :
    ((m.insert k v)[a]?).map f = (m[a]?).map f := by
  rw [getElem?_insert]
  split_ifs with hka
  · rw [← hka, hk, Option.map_some, Option.map_some, hf]
  · rfl

omit [DecidableEq α] in
theorem mem_insert : a ∈ m.insert k v ↔ k = a ∨ a ∈ m := by
  rw [ExtTreeMap.mem_insert, LawfulEqCmp.compare_eq_iff_eq]

/-- **A property of every entry after an insertion** is one of the new entry and
of every other old one. -/
theorem forall_insert {P : α → β → Prop} :
    (∀ a w, (m.insert k v)[a]? = some w → P a w) ↔
      P k v ∧ ∀ a w, a ≠ k → m[a]? = some w → P a w := by
  constructor
  · intro h
    refine ⟨h k v getElem?_insert_self, fun a w hne ha => h a w ?_⟩
    rwa [getElem?_insert_of_ne hne.symm]
  · rintro ⟨hk, hrest⟩ a w ha
    rw [getElem?_insert] at ha
    split_ifs at ha with hka
    · obtain rfl := Option.some.inj ha
      exact hka ▸ hk
    · exact hrest a w (Ne.symm hka) ha

theorem toList_insert_perm (hk : k ∉ m) : (m.insert k v).toList.Perm ((k, v) :: m.toList) := by
  have hnodup : ∀ m : ExtTreeMap α β cmp, m.toList.Nodup := fun m =>
    (ExtTreeMap.distinct_keys_toList (t := m)).imp fun {a b} hne heq => by
      rw [heq] at hne
      exact hne (ReflCmp.compare_self)
  refine (List.perm_ext_iff_of_nodup (hnodup _) (List.nodup_cons.2 ⟨fun hmem => ?_, hnodup m⟩)).2 ?_
  · exact hk (mem_of_getElem? (ExtTreeMap.mem_toList_iff_getElem?_eq_some.1 hmem))
  · rintro ⟨a, w⟩
    rw [ExtTreeMap.mem_toList_iff_getElem?_eq_some, List.mem_cons,
      ExtTreeMap.mem_toList_iff_getElem?_eq_some, getElem?_insert, Prod.mk.injEq]
    split_ifs with hka
    · subst hka
      rw [notMem_iff.1 hk]
      simp [eq_comm]
    · simp [Ne.symm hka]

theorem sum_values_insert (f : β → ℕ) (hk : k ∉ m) :
    ((m.insert k v).values.map f).sum = f v + (m.values.map f).sum := by
  have hperm := ((toList_insert_perm (v := v) hk).map fun entry => f entry.2).sum_eq
  rw [values_eq_map_toList, values_eq_map_toList, List.map_map, List.map_map]
  rw [List.map_cons, List.sum_cons] at hperm
  exact hperm

section Folds

variable {entries : List (α × β)}

omit [LawfulEqCmp cmp] [DecidableEq α] in
theorem pairwise_ne_toList : m.toList.Pairwise fun e e' => e.1 ≠ e'.1 :=
  (ExtTreeMap.distinct_keys_toList (t := m)).imp fun {e e'} hne heq => by
    rw [heq] at hne
    exact hne ReflCmp.compare_self

theorem getElem?_foldl_insert_of_notMem (h : ∀ e ∈ entries, e.1 ≠ a) :
    (entries.foldl (fun m e => m.insert e.1 e.2) m)[a]? = m[a]? := by
  induction entries generalizing m with
  | nil => rfl
  | cons e entries ih =>
    rw [List.foldl_cons, ih fun e' he' => h e' (List.mem_cons_of_mem _ he'),
      getElem?_insert_of_ne (h e List.mem_cons_self)]

theorem getElem?_foldl_insert_of_mem (hdistinct : entries.Pairwise fun e e' => e.1 ≠ e'.1)
    (hmem : (a, v) ∈ entries) : (entries.foldl (fun m e => m.insert e.1 e.2) m)[a]? = some v := by
  induction entries generalizing m with
  | nil => simp at hmem
  | cons e entries ih =>
    obtain ⟨hhead, htail⟩ := List.pairwise_cons.1 hdistinct
    rw [List.foldl_cons]
    rcases List.mem_cons.1 hmem with rfl | hmem
    · rw [getElem?_foldl_insert_of_notMem fun e' he' => (hhead e' he').symm, getElem?_insert_self]
    · exact ih htail hmem

theorem getElem?_foldl_insert_toList (n : ExtTreeMap α β cmp) :
    (n.toList.foldl (fun m e => m.insert e.1 e.2) m)[a]? = n[a]?.or m[a]? := by
  cases hn : n[a]? with
  | some v =>
    rw [getElem?_foldl_insert_of_mem pairwise_ne_toList (ExtTreeMap.mem_toList_iff_getElem?_eq_some.2 hn),
      Option.some_or]
  | none =>
    refine (getElem?_foldl_insert_of_notMem ?_).trans (Option.none_or).symm
    rintro ⟨k, v⟩ he rfl
    rw [ExtTreeMap.mem_toList_iff_getElem?_eq_some.1 he] at hn
    exact nomatch hn

theorem getElem?_insertIfNew : (m.insertIfNew k v)[a]? = m[a]?.or (if k = a then some v else none) := by
  rw [ExtTreeMap.getElem?_insertIfNew]
  by_cases hka : k = a
  · subst hka
    by_cases hk : k ∈ m <;> simp [hk]
  · simp [hka]

/-- **A fold that fills in the keys of another map** keeps what was there. -/
theorem getElem?_foldl_insertIfNew_toList {γ : Type*} (n : ExtTreeMap α γ cmp) :
    (n.toList.foldl (fun m e => m.insertIfNew e.1 v) m)[a]? = m[a]?.or (n[a]?.map fun _ => v) := by
  have hfold : ∀ (entries : List (α × γ)) (m : ExtTreeMap α β cmp),
      (entries.foldl (fun m e => m.insertIfNew e.1 v) m)[a]? =
        m[a]?.or (if ∃ e ∈ entries, e.1 = a then some v else none) := by
    intro entries
    induction entries with
    | nil => simp
    | cons e entries ih =>
      intro m
      rw [List.foldl_cons, ih, getElem?_insertIfNew, Option.or_assoc]
      congr 1
      by_cases he : e.1 = a
      · simp [he]
      · simp only [he, if_false, Option.none_or, List.mem_cons, exists_eq_or_imp, false_or]
  rw [hfold]
  congr 1
  cases hn : n[a]? with
  | some w =>
    exact if_pos ⟨(a, w), ExtTreeMap.mem_toList_iff_getElem?_eq_some.2 hn, rfl⟩
  | none =>
    refine if_neg ?_
    rintro ⟨⟨k, w⟩, hmem, rfl⟩
    rw [ExtTreeMap.mem_toList_iff_getElem?_eq_some.1 hmem] at hn
    exact nomatch hn

end Folds

end Lawful

end OrderedMaps
