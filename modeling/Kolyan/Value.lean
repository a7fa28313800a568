/-
# JSON values and the shared identity checks

`serde_json::Value` as the crates use it: a value is compared, asked for its
shape (`is_object`, `is_null`) and measured by the length of its compact
encoding (`serde_json::to_vec(v)?.len()`), which is what every size bound of
the repository counts.  A number is its printed text; an object is its list of
fields in encoding order (`serde_json::Map` is a sorted map, a derived struct
encodes its fields in declaration order).

The identity checks are the ones several crates repeat: a trimmed identity is
nonempty, a host identifier is ASCII, a digest is 64 hexadecimal characters.
-/

import Mathlib

namespace Kolyan

/-- `serde_json::Value`. -/
inductive Value where
  | null
  | bool (b : Bool)
  | number (text : String)
  | string (text : String)
  | array (items : List Value)
  | object (fields : List (String × Value))

namespace Value

mutual

/-- Equality of values is decidable, by recursion on the first. -/
protected def decEq : (v w : Value) → Decidable (v = w)
  | .null, .null => isTrue rfl
  | .bool a, .bool b =>
      if h : a = b then isTrue (h ▸ rfl) else isFalse fun e => h (Value.bool.inj e)
  | .number a, .number b =>
      if h : a = b then isTrue (h ▸ rfl) else isFalse fun e => h (Value.number.inj e)
  | .string a, .string b =>
      if h : a = b then isTrue (h ▸ rfl) else isFalse fun e => h (Value.string.inj e)
  | .array xs, .array ys =>
      match Value.decEqItems xs ys with
      | isTrue h => isTrue (h ▸ rfl)
      | isFalse h => isFalse fun e => h (Value.array.inj e)
  | .object xs, .object ys =>
      match Value.decEqFields xs ys with
      | isTrue h => isTrue (h ▸ rfl)
      | isFalse h => isFalse fun e => h (Value.object.inj e)
  | .null, .bool _ | .null, .number _ | .null, .string _ | .null, .array _ | .null, .object _
  | .bool _, .null | .bool _, .number _ | .bool _, .string _ | .bool _, .array _
  | .bool _, .object _ | .number _, .null | .number _, .bool _ | .number _, .string _
  | .number _, .array _ | .number _, .object _ | .string _, .null | .string _, .bool _
  | .string _, .number _ | .string _, .array _ | .string _, .object _ | .array _, .null
  | .array _, .bool _ | .array _, .number _ | .array _, .string _ | .array _, .object _
  | .object _, .null | .object _, .bool _ | .object _, .number _ | .object _, .string _
  | .object _, .array _ => isFalse (by simp)

/-- Equality of array contents. -/
protected def decEqItems : (xs ys : List Value) → Decidable (xs = ys)
  | [], [] => isTrue rfl
  | [], _ :: _ | _ :: _, [] => isFalse (by simp)
  | x :: xs, y :: ys =>
      match Value.decEq x y with
      | isFalse h => isFalse fun e => h (List.cons.inj e).1
      | isTrue h =>
          match Value.decEqItems xs ys with
          | isFalse h' => isFalse fun e => h' (List.cons.inj e).2
          | isTrue h' => isTrue (by rw [h, h'])

/-- Equality of object fields. -/
protected def decEqFields : (xs ys : List (String × Value)) → Decidable (xs = ys)
  | [], [] => isTrue rfl
  | [], _ :: _ | _ :: _, [] => isFalse (by simp)
  | (k, x) :: xs, (l, y) :: ys =>
      match decEq k l with
      | isFalse h => isFalse fun e => h (Prod.mk.inj (List.cons.inj e).1).1
      | isTrue hk =>
          match Value.decEq x y with
          | isFalse h => isFalse fun e => h (Prod.mk.inj (List.cons.inj e).1).2
          | isTrue h =>
              match Value.decEqFields xs ys with
              | isFalse h' => isFalse fun e => h' (List.cons.inj e).2
              | isTrue h' => isTrue (by rw [hk, h, h'])

end

instance : DecidableEq Value := Value.decEq

instance : Inhabited Value := ⟨.null⟩

/-- `Value::is_object`. -/
def isObject : Value → Bool
  | .object _ => true
  | _ => false

/-- `Value::is_null`. -/
def isNull : Value → Bool
  | .null => true
  | _ => false

/-- Bytes the compact formatter writes for one character of a string: two for
the short escapes, six for the other control characters, else its UTF-8. -/
def charBytes (c : Char) : ℕ :=
  if c = '"' ∨ c = '\\' ∨ c.val = 8 ∨ c.val = 9 ∨ c.val = 10 ∨ c.val = 12 ∨ c.val = 13 then 2
  else if c.val < 32 then 6
  else c.utf8Size

/-- Bytes of a quoted and escaped string. -/
def stringBytes (s : String) : ℕ := (s.toList.map charBytes).sum + 2

/-- Bytes of the commas between `n` members. -/
def commas (n : ℕ) : ℕ := n - 1

mutual

/-- `serde_json::to_vec(v)?.len()`: the length of the compact encoding. -/
def encodedLen : Value → ℕ
  | .null => 4
  | .bool b => if b then 4 else 5
  | .number text => text.utf8ByteSize
  | .string text => stringBytes text
  | .array items => encodedItems items + commas items.length + 2
  | .object fields => encodedFields fields + commas fields.length + 2

/-- Bytes of the members of an array, without the commas. -/
def encodedItems : List Value → ℕ
  | [] => 0
  | v :: vs => encodedLen v + encodedItems vs

/-- Bytes of the fields of an object, without the commas. -/
def encodedFields : List (String × Value) → ℕ
  | [] => 0
  | (k, v) :: fs => stringBytes k + 1 + encodedLen v + encodedFields fs

end

/-- An unsigned integer prints in decimal. -/
def nat (n : ℕ) : Value := .number (toString n)

mutual

/-- The value with the keys of every object in order, as `serde_json::Map` keeps
them and as the repository's canonical encoders write them. -/
def canonical : Value → Value
  | .array items => .array (canonicalItems items)
  | .object fields => .object ((canonicalFields fields).insertionSort fun a b => a.1 ≤ b.1)
  | v => v

/-- The members of an array. -/
def canonicalItems : List Value → List Value
  | [] => []
  | v :: vs => canonical v :: canonicalItems vs

/-- The fields of an object. -/
def canonicalFields : List (String × Value) → List (String × Value)
  | [] => []
  | (k, v) :: fs => (k, canonical v) :: canonicalFields fs

end

example : encodedLen (.object [("id", .string "a\nb"), ("n", nat 12), ("x", .array [.null])]) = 31 := by
  decide

end Value

/-- `char::is_whitespace`: the Unicode `White_Space` property. -/
def isWhitespace (c : Char) : Bool :=
  let n := c.val.toNat
  (9 ≤ n && n ≤ 13) || n = 0x20 || n = 0x85 || n = 0xA0 || n = 0x1680 ||
    (0x2000 ≤ n && n ≤ 0x200A) || n = 0x2028 || n = 0x2029 || n = 0x202F || n = 0x205F || n = 0x3000

/-- `value.trim().is_empty()`. -/
def trimEmpty (s : String) : Bool := s.toList.all isWhitespace

/-- `char::is_control`. -/
def isControl (c : Char) : Bool := c.val < 32 || (127 ≤ c.val && c.val ≤ 159)

/-- `u8::is_ascii_hexdigit`. -/
def isHexDigit (c : Char) : Bool :=
  ('0' ≤ c && c ≤ '9') || ('a' ≤ c && c ≤ 'f') || ('A' ≤ c && c ≤ 'F')

/-- `u8::is_ascii_alphanumeric`. -/
def isAsciiAlphanumeric (c : Char) : Bool :=
  ('0' ≤ c && c ≤ '9') || ('a' ≤ c && c ≤ 'z') || ('A' ≤ c && c ≤ 'Z')

/-- `value.is_empty() || value.len() > 256 || ...`, negated: 1 to 256 ASCII
identifier bytes.  Every byte of a character outside ASCII fails the test. -/
def isIdentifier (s : String) : Bool :=
  !s.isEmpty && s.utf8ByteSize ≤ 256 &&
    s.toList.all fun c => isAsciiAlphanumeric c || c = '.' || c = '_' || c = ':' || c = '-'

/-- A SHA-256 hex digest: 64 bytes, each a hexadecimal digit. -/
def isHexDigest (s : String) : Bool := s.utf8ByteSize = 64 && s.toList.all isHexDigit

end Kolyan
