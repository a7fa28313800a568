/-
# Occurrences in UTF-8

A text is a list of characters, and its encoding the list of their bytes.  An encoding
determines the text in front of it (`encode_prefix`), and since the first byte of a
character is never one of its later bytes, the bytes of a nonempty text occur in those of
another at the start of a character only (`encode_occurs`): what a search over characters
finds is what a search over bytes finds.
-/

import Mathlib

namespace Utf8

/-- The bytes of a text. -/
def encode (cs : List Char) : List UInt8 := cs.flatMap String.utf8EncodeChar

variable {a b c o : List Char} {i : ℕ}

@[simp] theorem encode_nil : encode [] = [] := rfl

@[simp] theorem encode_cons (x : Char) (cs : List Char) : encode (x :: cs) = String.utf8EncodeChar x ++ encode cs := rfl

@[simp] theorem encode_append (cs ds : List Char) : encode (cs ++ ds) = encode cs ++ encode ds :=
  List.flatMap_append

theorem encode_eq_nil : encode c = [] ↔ c = [] := by
  cases c with
  | nil => exact iff_of_true rfl rfl
  | cons x cs =>
    refine iff_of_false (fun h => ?_) (List.cons_ne_nil x cs)
    exact String.utf8EncodeChar_ne_nil (List.append_eq_nil_iff.1 h).1

theorem toByteArray_encode (c : List Char) : (encode c).toByteArray = c.utf8Encode := rfl

/-- **A character is determined by its bytes**, whatever follows them. -/
theorem char_of_append {x y : Char} {r t : List UInt8}
    (h : String.utf8EncodeChar x ++ r = String.utf8EncodeChar y ++ t) : x = y ∧ r = t := by
  have hbytes : (String.utf8EncodeChar x).toByteArray ++ r.toByteArray =
      (String.utf8EncodeChar y).toByteArray ++ t.toByteArray := by
    rw [← List.toByteArray_append, ← List.toByteArray_append, h]
  have hdecode := congrArg (ByteArray.utf8DecodeChar? · 0) hbytes
  simp only [ByteArray.utf8DecodeChar?_utf8EncodeChar_append, Option.some.injEq] at hdecode
  subst hdecode
  exact ⟨rfl, List.append_cancel_left h⟩

/-- **The text in front of bytes**: prefixes of encodings are encodings of prefixes. -/
theorem encode_prefix : encode o <+: encode c ↔ o <+: c := by
  constructor
  · rintro ⟨t, ht⟩
    induction o generalizing c with
    | nil => exact List.nil_prefix
    | cons x o ih =>
      rw [encode_cons, List.append_assoc] at ht
      cases c with
      | nil => exact absurd (List.append_eq_nil_iff.1 ht).1 String.utf8EncodeChar_ne_nil
      | cons y c =>
        obtain ⟨rfl, hrest⟩ := char_of_append ht
        exact (List.prefix_cons_inj x).2 (ih hrest)
  · rintro ⟨t, rfl⟩
    rw [encode_append]
    exact List.prefix_append _ _

theorem encode_inj : encode a = encode b ↔ a = b := by
  refine ⟨fun h => ?_, congrArg encode⟩
  have hab : a <+: b := encode_prefix.1 ⟨[], by rw [List.append_nil, h]⟩
  have hba : b <+: a := encode_prefix.1 ⟨[], by rw [List.append_nil, h]⟩
  exact hab.eq_of_length_le hba.length_le

theorem firstByte_of_encode {x : UInt8} {t : List UInt8} (h : encode c = x :: t) : x.IsUTF8FirstByte := by
  cases c with
  | nil => exact nomatch h
  | cons y c =>
    have hpos : 0 < (String.utf8EncodeChar y).length := List.length_pos_iff.2 String.utf8EncodeChar_ne_nil
    have hx : (String.utf8EncodeChar y)[0] = x := by
      have := congrArg (·[0]?) h
      rw [encode_cons, List.getElem?_append_left hpos, List.getElem?_eq_getElem hpos] at this
      exact Option.some.inj this
    rw [← hx]
    exact UInt8.isUTF8FirstByte_getElem_utf8EncodeChar.2 rfl

/-- **Where bytes of a text occur**: between characters, as the text itself. -/
theorem encode_occurs (ho : o ≠ []) (h : encode o <+: (encode c).drop i) :
    ∃ a b, c = a ++ o ++ b ∧ i = (encode a).length := by
  induction c generalizing i with
  | nil =>
    rw [encode_nil, List.drop_nil, List.prefix_nil, encode_eq_nil] at h
    exact absurd h ho
  | cons x c ih =>
    rcases Nat.eq_zero_or_pos i with rfl | hpos
    · obtain ⟨b, hb⟩ := encode_prefix.1 h
      exact ⟨[], b, by rw [List.nil_append, hb], rfl⟩
    rcases Nat.lt_or_ge i (String.utf8EncodeChar x).length with hlt | hge
    · -- inside a character there is no first byte, and the text starts with one
      exfalso
      obtain ⟨y, t, hy⟩ := List.exists_cons_of_ne_nil (mt encode_eq_nil.1 ho)
      rw [encode_cons, List.drop_append_of_le_length hlt.le, List.drop_eq_getElem_cons hlt, hy, List.cons_append] at h
      have hfirst := firstByte_of_encode hy
      rw [(List.cons_prefix_cons.1 h).1, UInt8.isUTF8FirstByte_getElem_utf8EncodeChar] at hfirst
      omega
    · have hdrop : (encode (x :: c)).drop i = (encode c).drop (i - (String.utf8EncodeChar x).length) := by
        rw [encode_cons, List.drop_append, List.drop_eq_nil_of_le hge, List.nil_append]
      obtain ⟨a, b, rfl, hi⟩ := ih (hdrop ▸ h)
      refine ⟨x :: a, b, rfl, ?_⟩
      rw [encode_cons, List.length_append]
      omega

theorem occurs_encode (a o b : List Char) : encode o <+: (encode (a ++ o ++ b)).drop (encode a).length := by
  rw [List.append_assoc, encode_append, List.drop_left, encode_append]
  exact List.prefix_append _ _

theorem splits_encode (a o b : List Char) :
    (encode (a ++ o ++ b)).take (encode a).length = encode a ∧
      (encode (a ++ o ++ b)).drop ((encode a).length + (encode o).length) = encode b := by
  constructor
  · rw [List.append_assoc, encode_append, List.take_left]
  · rw [encode_append, ← List.length_append, ← encode_append, List.drop_left]

theorem around_eq {a' b' : List Char} (h : a ++ o ++ b = a' ++ o ++ b')
    (hlen : (encode a).length = (encode a').length) : a = a' ∧ b = b' := by
  have htake := congrArg (fun cs => (encode cs).take (encode a).length) h
  simp only [(splits_encode a o b).1] at htake
  rw [hlen, (splits_encode a' o b').1, encode_inj] at htake
  subst htake
  exact ⟨rfl, List.append_cancel_left h⟩

end Utf8
