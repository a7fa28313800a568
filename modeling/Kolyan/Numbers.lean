/-
# Texts that are numbers

`str::trim` and `str::parse` for the two number types that the protocols read from
headers and event fields: `i64`, and `f64` as the rational that the text denotes.
-/

import Kolyan.Value

namespace Kolyan

/-- `value.trim()`, on characters. -/
def trim (s : List Char) : List Char :=
  ((s.dropWhile isWhitespace).reverse.dropWhile isWhitespace).reverse

/-- The number that decimal digits stand for; none without a digit or with another character. -/
def parseDigits (s : List Char) : Option ℕ :=
  if s ≠ [] ∧ s.all (fun c => '0' ≤ c && c ≤ '9') then
    some (s.foldl (fun n c => 10 * n + (c.toNat - '0'.toNat)) 0)
  else none

/-- `str::parse::<i64>`: an optional sign and decimal digits, within the range. -/
def parseI64 (s : List Char) : Option ℤ :=
  let value : Option ℤ :=
    match s with
    | '-' :: digits => (parseDigits digits).map fun n => -(n : ℤ)
    | '+' :: digits => (parseDigits digits).map fun n => (n : ℤ)
    | digits => (parseDigits digits).map fun n => (n : ℤ)
  value.filter fun n => -2 ^ 63 ≤ n ∧ n < 2 ^ 63

/-- A parsed `f64`, a finite one as the rational that its text denotes. -/
inductive F64 where
  | finite (value : ℚ)
  | infinite
  | nan

/-- The digits of a mantissa as one number, and how many of them are fractional. -/
def parseMantissa (s : List Char) : Option (ℕ × ℕ) :=
  let isDigit := fun c : Char => decide ('0' ≤ c) && decide (c ≤ '9')
  match s.dropWhile isDigit with
  | [] => (parseDigits s).map (·, 0)
  | '.' :: fraction => (parseDigits (s.takeWhile isDigit ++ fraction)).map (·, fraction.length)
  | _ => none

/-- The exponent of a number, from its letter on; none is zero. -/
def parseExponent : List Char → Option ℤ
  | [] => some 0
  | _ :: '-' :: digits => (parseDigits digits).map fun n => -(n : ℤ)
  | _ :: '+' :: digits => (parseDigits digits).map fun n => (n : ℤ)
  | _ :: digits => (parseDigits digits).map fun n => (n : ℤ)

/-- An unsigned number; what rounds to infinity is from `2^1024 - 2^970` on. -/
def parseUnsigned (s : List Char) : Option F64 :=
  let lower := s.map Char.toLower
  if lower = "inf".toList ∨ lower = "infinity".toList then some .infinite
  else if lower = "nan".toList then some .nan
  else
    let isExponent := fun c : Char => c = 'e' || c = 'E'
    match parseMantissa (s.takeWhile (!isExponent ·)), parseExponent (s.dropWhile (!isExponent ·)) with
    | some (digits, places), some exponent =>
        let value : ℚ := digits * 10 ^ (exponent - places)
        if value < 2 ^ 1024 - 2 ^ 970 then some (.finite value) else some .infinite
    | _, _ => none

/-- `str::parse::<f64>`. -/
def parseF64 : List Char → Option F64
  | '-' :: s =>
      (parseUnsigned s).map fun value =>
        match value with
        | .finite q => .finite (-q)
        | value => value
  | '+' :: s => parseUnsigned s
  | s => parseUnsigned s

end Kolyan
