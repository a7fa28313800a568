/-
# Bytes and UTF-8

`std::str::from_utf8` on the bytes of a buffer: the string they encode, or where
they stop to be valid and how long the sequence there is.
-/

import Mathlib

namespace Kolyan

/-- `std::str::Utf8Error`: `valid_up_to`, and `error_len`, which is none where the
input ends inside a sequence. -/
structure Utf8Error where
  validUpTo : ℕ
  errorLen : Option ℕ
  deriving DecidableEq

/-- The ranges of the bytes after the first one of a sequence; none for a byte that
starts no sequence of several bytes. -/
def continuations (b : UInt8) : Option (List (UInt8 × UInt8)) :=
  if 0xC2 ≤ b ∧ b ≤ 0xDF then some [(0x80, 0xBF)]
  else if b = 0xE0 then some [(0xA0, 0xBF), (0x80, 0xBF)]
  else if b = 0xED then some [(0x80, 0x9F), (0x80, 0xBF)]
  else if 0xE1 ≤ b ∧ b ≤ 0xEF then some [(0x80, 0xBF), (0x80, 0xBF)]
  else if b = 0xF0 then some [(0x90, 0xBF), (0x80, 0xBF), (0x80, 0xBF)]
  else if 0xF1 ≤ b ∧ b ≤ 0xF3 then some [(0x80, 0xBF), (0x80, 0xBF), (0x80, 0xBF)]
  else if b = 0xF4 then some [(0x80, 0x8F), (0x80, 0xBF), (0x80, 0xBF)]
  else none

/-- The bytes after a sequence whose first `seen` bytes are there, or its error length. -/
def skipSequence : List (UInt8 × UInt8) → ℕ → List UInt8 → Except (Option ℕ) (List UInt8)
  | [], _, bytes => .ok bytes
  | _ :: _, _, [] => .error none
  | (low, high) :: ranges, seen, b :: bytes =>
      if low ≤ b ∧ b ≤ high then skipSequence ranges (seen + 1) bytes else .error (some seen)

/-- The first error of bytes from offset `start` on; the fuel is their length. -/
def utf8ErrorFrom : ℕ → ℕ → List UInt8 → Utf8Error
  | 0, start, _ => ⟨start, none⟩
  | _ + 1, start, [] => ⟨start, none⟩
  | fuel + 1, start, b :: bytes =>
      if b < 0x80 then utf8ErrorFrom fuel (start + 1) bytes
      else
        match continuations b with
        | none => ⟨start, some 1⟩
        | some ranges =>
            match skipSequence ranges 1 bytes with
            | .error errorLen => ⟨start, errorLen⟩
            | .ok rest => utf8ErrorFrom fuel (start + 1 + ranges.length) rest

example : utf8ErrorFrom 4 0 [0x61, 0xE2, 0x82, 0x41] = ⟨1, some 2⟩ := by decide

/-- `std::str::from_utf8`. -/
def fromUtf8 (bytes : List UInt8) : Except Utf8Error String :=
  if h : ByteArray.IsValidUTF8 ⟨bytes.toArray⟩ then .ok (String.fromUTF8 ⟨bytes.toArray⟩ h)
  else .error (utf8ErrorFrom bytes.length 0 bytes)

/-- `str::as_bytes`. -/
def asBytes (s : String) : List UInt8 := s.toByteArray.data.toList

theorem fromUtf8_eq_ok_iff {bytes : List UInt8} {s : String} :
    fromUtf8 bytes = .ok s ↔ asBytes s = bytes := by
  unfold fromUtf8
  constructor
  · intro h
    split_ifs at h
    obtain rfl := Except.ok.inj h
    rfl
  · rintro rfl
    have hvalid : ByteArray.IsValidUTF8 ⟨(asBytes s).toArray⟩ := s.isValidUTF8
    rw [dif_pos hvalid]
    exact congrArg _ (String.toByteArray_inj.1 rfl)

theorem fromUtf8_asBytes (s : String) : fromUtf8 (asBytes s) = .ok s := fromUtf8_eq_ok_iff.2 rfl

end Kolyan
