/-
# Canonical bytes

`canonical::bytes` writes a JSON value without recursion: a stack of tokens, the members
of an object sorted when the object is reached, commas, keys and brackets as tokens of
their own, and an output that refuses to grow beyond its limit.  What it writes is the
compact encoding of the value with all its objects sorted, if that fits, and an error
otherwise (`bytes_eq`).

Strings, numbers and the other scalars are written by `serde_json` (`JsonWriter`).
-/

import Kolyan.Policy.Grants

namespace Kolyan
namespace Policy

open Checks

/-! ### The encoder -/

section Encoder

/-- `serde_json::to_writer` on a scalar: the pieces that it hands to the output. -/
structure JsonWriter where
  scalar : Value → List (List UInt8)

/-- Whether more bytes fit, for `write_all` of a piece. -/
def writePiece (limit : ℕ) (output piece : List UInt8) : Except PreparedError (List UInt8) :=
  if piece.isEmpty then .ok output
  else if output.length + piece.length > limit then .error (.invalid "prepared input exceeds byte limit")
  else .ok (output ++ piece)

/-- The pieces one after the other. -/
def writePieces (limit : ℕ) : List UInt8 → List (List UInt8) → Except PreparedError (List UInt8)
  | output, [] => .ok output
  | output, piece :: pieces => do
    let output ← writePiece limit output piece
    writePieces limit output pieces

/-- `Token`. -/
inductive Token where
  | value (value : Value)
  | key (key : String)
  | byte (byte : UInt8)

/-- `sort_unstable_by` on the keys. -/
def sortEntries (entries : List (String × Value)) : List (String × Value) :=
  entries.insertionSort fun left right => left.1 ≤ right.1

/-- One member of an object on the stack; the first has no comma. -/
def pushEntry (member : (String × Value) × ℕ) (pending : List Token) : List Token :=
  let pending := .key member.1.1 :: .byte 58 :: .value member.1.2 :: pending
  if member.2 > 0 then .byte 44 :: pending else pending

/-- One member of an array on the stack. -/
def pushValue (member : Value × ℕ) (pending : List Token) : List Token :=
  let pending := .value member.1 :: pending
  if member.2 > 0 then .byte 44 :: pending else pending

mutual

/-- How many tokens a value comes to. -/
def weight : Value → ℕ
  | .array items => weightItems items + 2
  | .object fields => weightFields fields + 2
  | _ => 1

/-- The tokens of the members of an array. -/
def weightItems : List Value → ℕ
  | [] => 0
  | v :: vs => weight v + 1 + weightItems vs

/-- The tokens of the members of an object. -/
def weightFields : List (String × Value) → ℕ
  | [] => 0
  | (_, v) :: fs => weight v + 3 + weightFields fs

end

/-- The tokens that a token comes to. -/
def Token.weight : Token → ℕ
  | .value v => Policy.weight v
  | _ => 1

/-- The tokens that are still to come. -/
def pendingWeight (pending : List Token) : ℕ := (pending.map Token.weight).sum

theorem sortEntries_perm (entries : List (String × Value)) : (sortEntries entries).Perm entries :=
  List.perm_insertionSort _ entries

theorem weight_pos (value : Value) : 0 < weight value := by
  cases value <;> simp only [weight] <;> omega

theorem weightFields_perm {xs ys : List (String × Value)} (h : xs.Perm ys) : weightFields xs = weightFields ys := by
  induction h with
  | nil => rfl
  | cons x _ ih => rw [weightFields, weightFields, ih]
  | swap x y l =>
    simp only [weightFields]
    omega
  | trans _ _ ih₁ ih₂ => exact ih₁.trans ih₂

theorem pendingWeight_pushEntries (entries : List (String × Value)) (index : ℕ) (pending : List Token) :
    pendingWeight ((entries.zipIdx index).foldr pushEntry pending) ≤ weightFields entries + pendingWeight pending := by
  induction entries generalizing index with
  | nil => simp [weightFields]
  | cons entry entries ih =>
    have hrest := ih (index + 1)
    rw [List.zipIdx_cons, List.foldr_cons, weightFields, pushEntry]
    dsimp only
    split_ifs <;> simp only [pendingWeight, List.map_cons, List.sum_cons, Token.weight] at hrest ⊢ <;> omega

theorem pendingWeight_pushValues (values : List Value) (index : ℕ) (pending : List Token) :
    pendingWeight ((values.zipIdx index).foldr pushValue pending) ≤ weightItems values + pendingWeight pending := by
  induction values generalizing index with
  | nil => simp [weightItems]
  | cons value values ih =>
    have hrest := ih (index + 1)
    rw [List.zipIdx_cons, List.foldr_cons, weightItems, pushValue]
    dsimp only
    split_ifs <;> simp only [pendingWeight, List.map_cons, List.sum_cons, Token.weight] at hrest ⊢ <;> omega

variable (writer : JsonWriter) (limit : ℕ)

/-- The loop: the first token is the one that is popped. -/
def drain : List Token → List UInt8 → Except PreparedError (List UInt8)
  | [], output => .ok output
  | .value (.object entries) :: pending, output => do
    let output ← writePiece limit output [123]
    drain ((sortEntries entries).zipIdx.foldr pushEntry (.byte 125 :: pending)) output
  | .value (.array values) :: pending, output => do
    let output ← writePiece limit output [91]
    drain (values.zipIdx.foldr pushValue (.byte 93 :: pending)) output
  | .value value :: pending, output => do
    let output ← writePieces limit output (writer.scalar value)
    drain pending output
  | .key key :: pending, output => do
    let output ← writePieces limit output (writer.scalar (.string key))
    drain pending output
  | .byte byte :: pending, output => do
    let output ← writePiece limit output [byte]
    drain pending output
termination_by pending => pendingWeight pending
decreasing_by
  · have hpush := pendingWeight_pushEntries (sortEntries entries) 0 (.byte 125 :: pending)
    rw [weightFields_perm (sortEntries_perm entries)] at hpush
    simp only [pendingWeight, List.map_cons, List.sum_cons, Token.weight, weight] at hpush ⊢
    omega
  · have hpush := pendingWeight_pushValues values 0 (.byte 93 :: pending)
    simp only [pendingWeight, List.map_cons, List.sum_cons, Token.weight, weight] at hpush ⊢
    omega
  · have hpos := weight_pos value
    simp only [pendingWeight, List.map_cons, List.sum_cons, Token.weight]
    omega
  all_goals
    simp only [pendingWeight, List.map_cons, List.sum_cons, Token.weight]
    omega

/-- `canonical::bytes`. -/
def bytes (value : Value) : Except PreparedError (List UInt8) := drain writer limit [.value value] []

end Encoder

/-! ### What it writes -/

section Encoding

variable (writer : JsonWriter)

/-- Nothing before the first member, a comma before every other. -/
def separator (first : Bool) : List UInt8 := if first then [] else [44]

mutual

/-- The compact encoding of a value, its members in the order that they have. -/
def compact : Value → List UInt8
  | .array items => 91 :: (compactItems true items ++ [93])
  | .object fields => 123 :: (compactFields true fields ++ [125])
  | v => (writer.scalar v).flatten

/-- The members of an array. -/
def compactItems (first : Bool) : List Value → List UInt8
  | [] => []
  | v :: vs => separator first ++ (compact v ++ compactItems false vs)

/-- The members of an object. -/
def compactFields (first : Bool) : List (String × Value) → List UInt8
  | [] => []
  | (k, v) :: fs => separator first ++ ((writer.scalar (.string k)).flatten ++ 58 :: (compact v ++ compactFields false fs))

end

/-- What the tokens on the stack come to. -/
def emitted : List Token → List UInt8
  | [] => []
  | .value v :: pending => compact writer v.canonical ++ emitted pending
  | .key k :: pending => (writer.scalar (.string k)).flatten ++ emitted pending
  | .byte b :: pending => b :: emitted pending

/-- Bytes that are within the limit, or the error. -/
def fit (limit : ℕ) (bytes : List UInt8) : Except PreparedError (List UInt8) :=
  if bytes.length ≤ limit then .ok bytes else .error (.invalid "prepared input exceeds byte limit")

variable {writer} {limit : ℕ}

theorem fit_of_le {bytes : List UInt8} (h : bytes.length ≤ limit) : fit limit bytes = .ok bytes := if_pos h

theorem fit_then {a b : List UInt8} {f : List UInt8 → Except PreparedError (List UInt8)}
    (h : a.length ≤ limit → f a = fit limit (a ++ b)) : (do let output ← fit limit a; f output) = fit limit (a ++ b) := by
  by_cases ha : a.length ≤ limit
  · rw [fit_of_le ha]
    exact h ha
  · have hab : ¬(a ++ b).length ≤ limit := by
      rw [List.length_append]
      omega
    rw [fit, if_neg ha, fit, if_neg hab]
    rfl

theorem writePiece_eq {output : List UInt8} (h : output.length ≤ limit) (piece : List UInt8) :
    writePiece limit output piece = fit limit (output ++ piece) := by
  unfold writePiece
  cases piece with
  | nil => rw [List.append_nil, fit_of_le h]; rfl
  | cons b piece =>
    rw [if_neg (by simp), fit, List.length_append]
    by_cases hfits : output.length + (b :: piece).length ≤ limit
    · rw [if_neg (Nat.not_lt.2 hfits), if_pos hfits]
    · rw [if_pos (Nat.lt_of_not_le hfits), if_neg hfits]

theorem writePieces_eq {output : List UInt8} (h : output.length ≤ limit) (pieces : List (List UInt8)) :
    writePieces limit output pieces = fit limit (output ++ pieces.flatten) := by
  induction pieces generalizing output with
  | nil => rw [List.flatten_nil, List.append_nil, fit_of_le h]; rfl
  | cons piece pieces ih =>
    rw [writePieces, writePiece_eq h, List.flatten_cons, ← List.append_assoc]
    exact fit_then ih

theorem canonicalFields_eq (fields : List (String × Value)) :
    Value.canonicalFields fields = fields.map fun field => (field.1, field.2.canonical) := by
  induction fields with
  | nil => rfl
  | cons field fields ih => rw [Value.canonicalFields, ih, List.map_cons]

theorem canonicalItems_eq (items : List Value) : Value.canonicalItems items = items.map Value.canonical := by
  have h := canonicalItems_map id items
  rwa [List.map_id] at h

theorem canonical_object (fields : List (String × Value)) :
    (Value.object fields).canonical = .object (Value.canonicalFields (sortEntries fields)) := by
  rw [Value.canonical, canonicalFields_eq, canonicalFields_eq, sortEntries]
  refine congrArg Value.object (List.map_insertionSort (fun left right : String × Value => left.1 ≤ right.1) _ _ _ ?_).symm
  exact fun _ _ _ _ => Iff.rfl

theorem emitted_pushEntries (entries : List (String × Value)) (index : ℕ) (pending : List Token) :
    emitted writer ((entries.zipIdx index).foldr pushEntry pending) =
      compactFields writer (index = 0) (Value.canonicalFields entries) ++ emitted writer pending := by
  induction entries generalizing index with
  | nil => rfl
  | cons entry entries ih =>
    obtain ⟨key, value⟩ := entry
    rw [List.zipIdx_cons, List.foldr_cons, Value.canonicalFields, compactFields, pushEntry]
    cases index with
    | zero => simp [emitted, separator, ih]
    | succ index => simp [emitted, separator, ih]

theorem emitted_pushValues (values : List Value) (index : ℕ) (pending : List Token) :
    emitted writer ((values.zipIdx index).foldr pushValue pending) =
      compactItems writer (index = 0) (Value.canonicalItems values) ++ emitted writer pending := by
  induction values generalizing index with
  | nil => rfl
  | cons value values ih =>
    rw [List.zipIdx_cons, List.foldr_cons, Value.canonicalItems, compactItems, pushValue]
    cases index with
    | zero => simp [emitted, separator, ih]
    | succ index => simp [emitted, separator, ih]

theorem drain_eq (pending : List Token) (output : List UInt8) (h : output.length ≤ limit) :
    drain writer limit pending output = fit limit (output ++ emitted writer pending) := by
  fun_induction drain writer limit pending output with
  | case1 output => rw [emitted, List.append_nil, fit_of_le h]
  | case2 entries pending output ih =>
    rw [writePiece_eq h]
    have hemitted : output ++ emitted writer (.value (.object entries) :: pending) =
        output ++ [123] ++ emitted writer ((sortEntries entries).zipIdx.foldr pushEntry (.byte 125 :: pending)) := by
      rw [emitted_pushEntries, emitted, canonical_object, compact]
      simp [emitted]
    rw [hemitted]
    exact fit_then (ih _)
  | case3 values pending output ih =>
    rw [writePiece_eq h]
    have hemitted : output ++ emitted writer (.value (.array values) :: pending) =
        output ++ [91] ++ emitted writer (values.zipIdx.foldr pushValue (.byte 93 :: pending)) := by
      rw [emitted_pushValues, emitted, Value.canonical, compact]
      simp [emitted]
    rw [hemitted]
    exact fit_then (ih _)
  | case4 value pending output hobject harray ih =>
    have hcompact : compact writer value.canonical = (writer.scalar value).flatten := by
      cases value with
      | object fields => exact absurd rfl (hobject fields)
      | array values => exact absurd rfl (harray values)
      | _ => rfl
    rw [writePieces_eq h, emitted, hcompact, ← List.append_assoc]
    exact fit_then (ih _)
  | case5 key pending output ih =>
    rw [writePieces_eq h, emitted, ← List.append_assoc]
    exact fit_then (ih _)
  | case6 byte pending output ih =>
    have hemitted : output ++ emitted writer (.byte byte :: pending) = output ++ [byte] ++ emitted writer pending := by
      rw [emitted, List.append_assoc, List.singleton_append]
    rw [writePiece_eq h, hemitted]
    exact fit_then (ih _)

/-- **`canonical::bytes` writes the compact encoding of the sorted value, if it fits.** -/
theorem bytes_eq (writer : JsonWriter) (limit : ℕ) (value : Value) :
    bytes writer limit value = fit limit (compact writer value.canonical) := by
  rw [bytes, drain_eq _ _ (Nat.zero_le _), List.nil_append, emitted, emitted, List.append_nil]

end Encoding

end Policy
end Kolyan
