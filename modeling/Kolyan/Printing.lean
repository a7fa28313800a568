/-
# The text of a JSON value

What `serde_json::to_string` prints: no spaces, the short escapes, six characters for any
other control character, and every other character as it is.  Its length in UTF-8 is the
encoded length of the value (`utf8Len_print`), a string that was printed can be read back
in front of anything (`readString_escape`), and a text that is printed once more, as the
content of a string, at most doubles (`escapedLen_escape_le`).
-/

import Kolyan.Value

namespace Kolyan

/-- The lower hexadecimal digits. -/
def hexDigits : List Char :=
  ['0', '1', '2', '3', '4', '5', '6', '7', '8', '9', 'a', 'b', 'c', 'd', 'e', 'f']

/-- The digit of a number below 16. -/
def hexDigit (n : ℕ) : Char := hexDigits.getD n '0'

/-- The number of a digit. -/
def hexValue (c : Char) : ℕ := hexDigits.idxOf c

theorem hexValue_hexDigit : ∀ n < 16, hexValue (hexDigit n) = n := by decide

/-- The characters that a character of a string is printed as. -/
def escape (c : Char) : List Char :=
  if c = '"' then ['\\', '"']
  else if c = '\\' then ['\\', '\\']
  else if c.val = 8 then ['\\', 'b']
  else if c.val = 9 then ['\\', 't']
  else if c.val = 10 then ['\\', 'n']
  else if c.val = 12 then ['\\', 'f']
  else if c.val = 13 then ['\\', 'r']
  else if c.val < 32 then
    ['\\', 'u', '0', '0', hexDigit (c.val.toNat / 16), hexDigit (c.val.toNat % 16)]
  else [c]

/-- A printed string. -/
def printString (s : String) : List Char := '"' :: (s.toList.flatMap escape ++ ['"'])

namespace Value

mutual

/-- `serde_json::to_string`. -/
def print : Value → List Char
  | .null => "null".toList
  | .bool b => if b then "true".toList else "false".toList
  | .number text => text.toList
  | .string text => printString text
  | .array items => '[' :: (printItems items ++ [']'])
  | .object fields => '{' :: (printFields fields ++ ['}'])

/-- The members of an array. -/
def printItems : List Value → List Char
  | [] => []
  | [v] => print v
  | v :: w :: vs => print v ++ ',' :: printItems (w :: vs)

/-- The fields of an object. -/
def printFields : List (String × Value) → List Char
  | [] => []
  | [(k, v)] => printString k ++ ':' :: print v
  | (k, v) :: f :: fs => printString k ++ ':' :: (print v ++ ',' :: printFields (f :: fs))

end

/-- The printed text. -/
def text (v : Value) : String := .ofList (print v)

end Value

section Reading

/-- The character that a short escape stands for. -/
def unescape (c : Char) : Char :=
  if c = 'b' then Char.ofNat 8
  else if c = 't' then Char.ofNat 9
  else if c = 'n' then Char.ofNat 10
  else if c = 'f' then Char.ofNat 12
  else if c = 'r' then Char.ofNat 13
  else c

/-- The content of a printed string, up to its closing quote, and what follows. -/
def readString : List Char → Option (List Char × List Char)
  | [] => none
  | '"' :: rest => some ([], rest)
  | '\\' :: 'u' :: '0' :: '0' :: high :: low :: rest =>
      (readString rest).map (Prod.map (Char.ofNat (16 * hexValue high + hexValue low) :: ·) id)
  | '\\' :: c :: rest => (readString rest).map (Prod.map (unescape c :: ·) id)
  | c :: rest => (readString rest).map (Prod.map (c :: ·) id)

theorem char_of_val {c : Char} {n : ℕ} (h : c.val.toNat = n) : Char.ofNat n = c := by
  rw [← h]
  exact Char.ofNat_toNat c

theorem readString_escape_append (c : Char) (rest : List Char) :
    readString (escape c ++ rest) = (readString rest).map (Prod.map (c :: ·) id) := by
  unfold escape
  split_ifs with hquote hback h8 h9 h10 h12 h13 hcontrol
  · rw [hquote]
    rfl
  · rw [hback]
    rfl
  · rw [← char_of_val (congrArg UInt32.toNat h8)]
    rfl
  · rw [← char_of_val (congrArg UInt32.toNat h9)]
    rfl
  · rw [← char_of_val (congrArg UInt32.toNat h10)]
    rfl
  · rw [← char_of_val (congrArg UInt32.toNat h12)]
    rfl
  · rw [← char_of_val (congrArg UInt32.toNat h13)]
    rfl
  · have hlt : c.val.toNat < 32 := hcontrol
    have hvalue : 16 * hexValue (hexDigit (c.val.toNat / 16)) + hexValue (hexDigit (c.val.toNat % 16)) =
        c.val.toNat := by
      rw [hexValue_hexDigit _ (by omega), hexValue_hexDigit _ (by omega)]
      omega
    show (readString rest).map (Prod.map (Char.ofNat _ :: ·) id) = _
    rw [hvalue, char_of_val rfl]
  · show readString (c :: rest) = _
    rw [readString.eq_def]
    split <;> simp_all

theorem readString_escape (cs rest : List Char) :
    readString (cs.flatMap escape ++ '"' :: rest) = some (cs, rest) := by
  induction cs with
  | nil => rfl
  | cons c cs ih =>
    rw [List.flatMap_cons, List.append_assoc, readString_escape_append, ih]
    rfl

end Reading

section Lengths

open String (utf8Len)

theorem utf8Len_toList (s : String) : utf8Len s.toList = s.utf8ByteSize := by
  rw [← String.utf8ByteSize_ofList, String.ofList_toList]

theorem plain_hexDigit : ∀ n < 16, (hexDigit n).utf8Size = 1 ∧ Value.charBytes (hexDigit n) = 1 := by decide

/-- **How characters are escaped**, with the bytes of each when it is printed and when that
is printed once more. -/
theorem escape_cases (c : Char) :
    (∃ d, escape c = ['\\', d] ∧ Value.charBytes c = 2 ∧ d.utf8Size = 1 ∧ Value.charBytes d ≤ 2 ∧
      c.utf8Size = 1) ∨
    (∃ high low, escape c = ['\\', 'u', '0', '0', high, low] ∧ Value.charBytes c = 6 ∧
      high.utf8Size = 1 ∧ low.utf8Size = 1 ∧ Value.charBytes high = 1 ∧ Value.charBytes low = 1) ∨
    (escape c = [c] ∧ Value.charBytes c = c.utf8Size) := by
  by_cases hquote : c = '"'
  · subst hquote
    exact Or.inl ⟨'"', by decide⟩
  by_cases hback : c = '\\'
  · subst hback
    exact Or.inl ⟨'\\', by decide⟩
  by_cases h8 : c.val = 8
  · obtain rfl := char_of_val (congrArg UInt32.toNat h8)
    exact Or.inl ⟨'b', by decide⟩
  by_cases h9 : c.val = 9
  · obtain rfl := char_of_val (congrArg UInt32.toNat h9)
    exact Or.inl ⟨'t', by decide⟩
  by_cases h10 : c.val = 10
  · obtain rfl := char_of_val (congrArg UInt32.toNat h10)
    exact Or.inl ⟨'n', by decide⟩
  by_cases h12 : c.val = 12
  · obtain rfl := char_of_val (congrArg UInt32.toNat h12)
    exact Or.inl ⟨'f', by decide⟩
  by_cases h13 : c.val = 13
  · obtain rfl := char_of_val (congrArg UInt32.toNat h13)
    exact Or.inl ⟨'r', by decide⟩
  have hescape : escape c = if c.val < 32 then
      ['\\', 'u', '0', '0', hexDigit (c.val.toNat / 16), hexDigit (c.val.toNat % 16)] else [c] := by
    rw [escape, if_neg hquote, if_neg hback, if_neg h8, if_neg h9, if_neg h10, if_neg h12, if_neg h13]
  have hbytes : Value.charBytes c = if c.val < 32 then 6 else c.utf8Size := by
    rw [Value.charBytes, if_neg (by simp [hquote, hback, h8, h9, h10, h12, h13])]
  by_cases hcontrol : c.val < 32
  · have hlt : c.val.toNat < 32 := hcontrol
    obtain ⟨hhigh, hhigh'⟩ := plain_hexDigit (c.val.toNat / 16) (by omega)
    obtain ⟨hlow, hlow'⟩ := plain_hexDigit (c.val.toNat % 16) (by omega)
    rw [if_pos hcontrol] at hescape hbytes
    exact Or.inr (Or.inl ⟨_, _, hescape, hbytes, hhigh, hlow, hhigh', hlow'⟩)
  · rw [if_neg hcontrol] at hescape hbytes
    exact Or.inr (Or.inr ⟨hescape, hbytes⟩)

theorem utf8Len_escape (c : Char) : utf8Len (escape c) = Value.charBytes c := by
  rcases escape_cases c with ⟨d, he, hc, hd, -⟩ | ⟨high, low, he, hc, hhigh, hlow, -⟩ | ⟨he, hc⟩
  · rw [he, hc, String.utf8Len_cons, String.utf8Len_cons, hd]
    decide
  · simp only [he, hc, String.utf8Len_cons, hhigh, hlow]
    decide
  · rw [he, hc, String.utf8Len_cons, String.utf8Len_nil, Nat.zero_add]

theorem utf8Len_printString (s : String) : utf8Len (printString s) = Value.stringBytes s := by
  have hcontent : utf8Len (s.toList.flatMap escape) = (s.toList.map Value.charBytes).sum := by
    induction s.toList with
    | nil => rfl
    | cons c cs ih =>
      rw [List.flatMap_cons, String.utf8Len_append, utf8Len_escape, ih, List.map_cons, List.sum_cons]
  rw [printString, String.utf8Len_cons, String.utf8Len_append, hcontent, Value.stringBytes]
  rfl

mutual

theorem utf8Len_print : (v : Value) → utf8Len v.print = v.encodedLen
  | .null => by decide
  | .bool b => by cases b <;> decide
  | .number text => by rw [Value.print, Value.encodedLen, utf8Len_toList]
  | .string text => by rw [Value.print, Value.encodedLen, utf8Len_printString]
  | .array items => by
      have hone : ('['.utf8Size, ']'.utf8Size) = (1, 1) := by decide
      have := utf8Len_printItems items
      simp only [Value.print, Value.encodedLen, String.utf8Len_cons, String.utf8Len_append,
        String.utf8Len_nil]
      simp_all
  | .object fields => by
      have hone : ('{'.utf8Size, '}'.utf8Size) = (1, 1) := by decide
      have := utf8Len_printFields fields
      simp only [Value.print, Value.encodedLen, String.utf8Len_cons, String.utf8Len_append,
        String.utf8Len_nil]
      simp_all

theorem utf8Len_printItems : (items : List Value) →
    utf8Len (Value.printItems items) = Value.encodedItems items + Value.commas items.length
  | [] => rfl
  | [v] => by
      rw [Value.printItems, utf8Len_print v]
      simp [Value.encodedItems, Value.commas]
  | v :: w :: vs => by
      have hone : ','.utf8Size = 1 := by decide
      have := utf8Len_print v
      have := utf8Len_printItems (w :: vs)
      simp_all [Value.printItems, Value.encodedItems, Value.commas]
      omega

theorem utf8Len_printFields : (fields : List (String × Value)) →
    utf8Len (Value.printFields fields) = Value.encodedFields fields + Value.commas fields.length
  | [] => rfl
  | [(k, v)] => by
      have hone : ':'.utf8Size = 1 := by decide
      have := utf8Len_print v
      simp_all [Value.printFields, Value.encodedFields, Value.commas, utf8Len_printString]
      omega
  | (k, v) :: f :: fs => by
      have hone : (':'.utf8Size, ','.utf8Size) = (1, 1) := by decide
      have := utf8Len_print v
      have := utf8Len_printFields (f :: fs)
      simp_all [Value.printFields, Value.encodedFields, Value.commas, utf8Len_printString]
      omega

end

/-- The bytes of characters that are printed as the content of a string. -/
def escapedLen (cs : List Char) : ℕ := (cs.map Value.charBytes).sum

@[simp] theorem escapedLen_nil : escapedLen [] = 0 := rfl

@[simp] theorem escapedLen_cons (c : Char) (cs : List Char) :
    escapedLen (c :: cs) = Value.charBytes c + escapedLen cs := by simp [escapedLen]

@[simp] theorem escapedLen_append (cs ds : List Char) :
    escapedLen (cs ++ ds) = escapedLen cs + escapedLen ds := by simp [escapedLen]

theorem escapedLen_printString (s : String) :
    escapedLen (printString s) = 4 + escapedLen (s.toList.flatMap escape) := by
  have hquote : Value.charBytes '"' = 2 := by decide
  simp only [printString, escapedLen_cons, escapedLen_append, escapedLen_nil, hquote]
  omega

theorem escapedLen_string (s : String) :
    escapedLen (Value.string s).print = 4 + escapedLen (s.toList.flatMap escape) := by
  rw [Value.print, escapedLen_printString]

theorem escapedLen_object (fields : List (String × Value)) :
    escapedLen (Value.object fields).print = 2 + escapedLen (Value.printFields fields) := by
  have hbrace : Value.charBytes '{' = 1 ∧ Value.charBytes '}' = 1 := by decide
  simp only [Value.print, escapedLen_cons, escapedLen_append, escapedLen_nil, hbrace]
  omega

theorem escapedLen_field (k : String) (v : Value) :
    escapedLen (Value.printFields [(k, v)]) = escapedLen (printString k) + 1 + escapedLen v.print := by
  have hcolon : Value.charBytes ':' = 1 := by decide
  simp only [Value.printFields, escapedLen_cons, escapedLen_append, hcolon]
  omega

theorem escapedLen_fields (k : String) (v : Value) (f : String × Value) (fs : List (String × Value)) :
    escapedLen (Value.printFields ((k, v) :: f :: fs)) =
      escapedLen (printString k) + 2 + escapedLen v.print + escapedLen (Value.printFields (f :: fs)) := by
  have hmarks : Value.charBytes ':' = 1 ∧ Value.charBytes ',' = 1 := by decide
  simp only [Value.printFields, escapedLen_cons, escapedLen_append, hmarks]
  omega

/-- **Printed twice, a character takes at most twice the bytes of its escape.** -/
theorem escapedLen_escape_le (c : Char) : escapedLen (escape c) ≤ 2 * Value.charBytes c := by
  have hplain : Value.charBytes '\\' = 2 ∧ Value.charBytes 'u' = 1 ∧ Value.charBytes '0' = 1 := by decide
  rcases escape_cases c with ⟨d, he, hc, -, hd, -⟩ | ⟨high, low, he, hc, -, -, hhigh, hlow⟩ | ⟨he, hc⟩
  · simp [he, hc, hplain]
    omega
  · simp [he, hc, hplain, hhigh, hlow]
  · simp [he]
    omega

theorem escapedLen_escape_le_eight (c : Char) : escapedLen (escape c) ≤ 8 * c.utf8Size := by
  have hplain : Value.charBytes '\\' = 2 ∧ Value.charBytes 'u' = 1 ∧ Value.charBytes '0' = 1 := by decide
  have hpos := c.utf8Size_pos
  rcases escape_cases c with ⟨d, he, hc, -, hd, hone⟩ | ⟨high, low, he, hc, -, -, hhigh, hlow⟩ | ⟨he, hc⟩
  · simp [he, hplain, hone]
    omega
  · simp [he, hplain, hhigh, hlow]
    omega
  · simp [he, hc]
    omega

end Lengths

end Kolyan
