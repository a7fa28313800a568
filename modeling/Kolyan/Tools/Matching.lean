/-
# The match of an edit

What the two executors of an edit use of `str`: the offsets of the characters, the
matches among them, and the replacement of a range of bytes, which panics unless both of
its ends are between characters.

The matches are the places where the bytes of the old text occur, overlapping ones
included (`mem_matchIndices`), each once; and at a match the range is the old text, so the
replacement neither panics nor breaks a character (`replaceRange_match`).
-/

import Kolyan.Bytes
import Kolyan.Lib.Utf8

namespace Kolyan
namespace Tools

/-- The indices of `str::char_indices`, of characters that start at an offset. -/
def charIndices : ℕ → List Char → List ℕ
  | _, [] => []
  | index, c :: cs => index :: charIndices (index + c.utf8Size) cs

/-- `original[index..].starts_with(old_text)`. -/
def startsAt (original oldText : String) (index : ℕ) : Bool :=
  (asBytes oldText).isPrefixOf ((asBytes original).drop index)

/-- `matches`, in both executors. -/
def matchIndices (original oldText : String) : List ℕ :=
  (charIndices 0 original.toList).filter (startsAt original oldText)

/-- `str::is_char_boundary`. -/
def isCharBoundary (s : String) (index : ℕ) : Bool :=
  match (asBytes s)[index]? with
  | some b => index = 0 || b < 0x80 || 0xC0 ≤ b
  | none => index = 0 || index = s.utf8ByteSize

/-- `String::replace_range`; none is a panic. -/
def replaceRange (s : String) (start stop : ℕ) (new : String) : Option String :=
  if start ≤ stop ∧ isCharBoundary s start ∧ isCharBoundary s stop then
    (fromUtf8 ((asBytes s).take start ++ asBytes new ++ (asBytes s).drop stop)).toOption
  else none

variable {original oldText : String} {i : ℕ}

theorem asBytes_eq (s : String) : asBytes s = Utf8.encode s.toList := by
  have hencode : (Utf8.encode s.toList).toByteArray = s.toByteArray :=
    (Utf8.toByteArray_encode s.toList).trans String.utf8Encode_toList
  rw [asBytes, ← hencode, List.data_toByteArray, List.toList_toArray]

theorem asBytes_ofList (cs : List Char) : asBytes (.ofList cs) = Utf8.encode cs := by
  rw [asBytes_eq, String.toList_ofList]

theorem mem_charIndices {start : ℕ} {cs : List Char} :
    i ∈ charIndices start cs ↔ ∃ a b, cs = a ++ b ∧ b ≠ [] ∧ i = start + (Utf8.encode a).length := by
  induction cs generalizing start with
  | nil =>
    refine iff_of_false List.not_mem_nil ?_
    rintro ⟨a, b, h, hb, -⟩
    exact hb (List.append_eq_nil_iff.1 h.symm).2
  | cons c cs ih =>
    rw [charIndices, List.mem_cons, ih]
    constructor
    · rintro (rfl | ⟨a, b, rfl, hb, rfl⟩)
      · exact ⟨[], c :: cs, rfl, List.cons_ne_nil c cs, rfl⟩
      · refine ⟨c :: a, b, rfl, hb, ?_⟩
        rw [Utf8.encode_cons, List.length_append, String.length_utf8EncodeChar, Nat.add_assoc]
    · rintro ⟨_ | ⟨d, a⟩, b, h, hb, rfl⟩
      · exact .inl rfl
      · obtain ⟨rfl, rfl⟩ := List.cons.inj h
        refine .inr ⟨a, b, rfl, hb, ?_⟩
        rw [Utf8.encode_cons, List.length_append, String.length_utf8EncodeChar, Nat.add_assoc]

theorem nodup_charIndices (start : ℕ) (cs : List Char) : (charIndices start cs).Nodup := by
  induction cs generalizing start with
  | nil => exact List.nodup_nil
  | cons c cs ih =>
    refine List.nodup_cons.2 ⟨fun hmem => ?_, ih _⟩
    obtain ⟨a, b, -, -, h⟩ := mem_charIndices.1 hmem
    have := c.utf8Size_pos
    omega

theorem toList_ne_nil (h : oldText ≠ "") : oldText.toList ≠ [] := fun hnil => h (String.toList_eq_nil_iff.1 hnil)

theorem startsAt_iff : startsAt original oldText i = true ↔ asBytes oldText <+: (asBytes original).drop i :=
  List.isPrefixOf_iff_prefix

theorem occurs_split (hold : oldText ≠ "") (h : asBytes oldText <+: (asBytes original).drop i) :
    ∃ a b : List Char, original.toList = a ++ oldText.toList ++ b ∧ i = (Utf8.encode a).length := by
  rw [asBytes_eq, asBytes_eq] at h
  exact Utf8.encode_occurs (toList_ne_nil hold) h

theorem mem_matchIndices (hold : oldText ≠ "") :
    i ∈ matchIndices original oldText ↔ asBytes oldText <+: (asBytes original).drop i := by
  rw [matchIndices, List.mem_filter, startsAt_iff]
  refine ⟨And.right, fun h => ⟨?_, h⟩⟩
  obtain ⟨a, b, hsplit, rfl⟩ := occurs_split hold h
  rw [List.append_assoc] at hsplit
  refine mem_charIndices.2 ⟨a, _, hsplit, ?_, (Nat.zero_add _).symm⟩
  exact List.append_ne_nil_of_left_ne_nil (toList_ne_nil hold) b

theorem nodup_matchIndices : (matchIndices original oldText).Nodup := (nodup_charIndices 0 _).filter _

theorem matchIndices_eq_singleton (hold : oldText ≠ "") :
    (∃ i, matchIndices original oldText = [i]) ↔ ∃! i, asBytes oldText <+: (asBytes original).drop i := by
  constructor
  · rintro ⟨i, h⟩
    refine ⟨i, (mem_matchIndices hold).1 (h ▸ List.mem_singleton_self i), fun j hj => ?_⟩
    have hj := (mem_matchIndices hold).2 hj
    rw [h] at hj
    exact List.mem_singleton.1 hj
  · rintro ⟨i, hi, hone⟩
    refine ⟨i, List.perm_singleton.1 ?_⟩
    refine (List.perm_ext_iff_of_nodup nodup_matchIndices (List.nodup_singleton i)).2 fun j => ?_
    rw [mem_matchIndices hold, List.mem_singleton]
    exact ⟨hone j, fun h => h ▸ hi⟩

theorem isCharBoundary_between {s : String} {a b : List Char} (h : s.toList = a ++ b) :
    isCharBoundary s (Utf8.encode a).length = true := by
  have hbytes : asBytes s = Utf8.encode a ++ Utf8.encode b := by rw [asBytes_eq, h, Utf8.encode_append]
  have hhigh : ∀ x : UInt8, x.IsUTF8FirstByte → (decide (x < 0x80) || decide (0xC0 ≤ x)) = true := by
    decide +kernel
  rw [isCharBoundary, hbytes, List.getElem?_append_right le_rfl, Nat.sub_self]
  cases hb : Utf8.encode b with
  | nil =>
    have hlen : s.utf8ByteSize = (Utf8.encode a).length := by
      show (asBytes s).length = _
      rw [hbytes, hb, List.append_nil]
    simp [hlen]
  | cons x t =>
    have := hhigh x (Utf8.firstByte_of_encode hb)
    simp only [List.getElem?_cons_zero, Bool.or_assoc, this, Bool.or_true]

theorem replaceRange_match {a b : List Char} (new : String) (h : original.toList = a ++ oldText.toList ++ b) :
    replaceRange original (Utf8.encode a).length ((Utf8.encode a).length + oldText.utf8ByteSize) new =
      some (.ofList (a ++ new.toList ++ b)) := by
  have hsize : oldText.utf8ByteSize = (Utf8.encode oldText.toList).length := by
    rw [← asBytes_eq]
    rfl
  have hstart : isCharBoundary original (Utf8.encode a).length = true :=
    isCharBoundary_between (by rw [h, List.append_assoc])
  have hstop : isCharBoundary original ((Utf8.encode a).length + (Utf8.encode oldText.toList).length) = true := by
    rw [← List.length_append, ← Utf8.encode_append]
    exact isCharBoundary_between h
  obtain ⟨htake, hdrop⟩ := Utf8.splits_encode a oldText.toList b
  have hbytes : (asBytes original).take (Utf8.encode a).length ++ asBytes new ++
      (asBytes original).drop ((Utf8.encode a).length + (Utf8.encode oldText.toList).length) =
      asBytes (.ofList (a ++ new.toList ++ b)) := by
    rw [asBytes_eq original, h, htake, hdrop, asBytes_eq new, asBytes_ofList]
    simp only [Utf8.encode_append]
  rw [replaceRange, hsize, if_pos ⟨Nat.le_add_right _ _, hstart, hstop⟩, hbytes, fromUtf8_asBytes]
  rfl

end Tools
end Kolyan
