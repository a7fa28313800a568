/-
# The envelope of a tool's output

A tool result is bounded as a whole: its text is printed into the content, which is
printed again into the encoding of the result.  So a process may only write `raw_cap`
bytes, which leaves room for what printing twice adds.
-/

import Kolyan.Bytes
import Kolyan.Printing
import Kolyan.Tools.Receipts

namespace Kolyan
namespace Tools

open Checks Turn
open String (utf8Len)

/-- `envelope_len`. -/
def envelopeLen (result : ToolResult) : ℕ := result.toValue.encodedLen

namespace Shell

/-- `SandboxOutput`. -/
structure SandboxOutput where
  exitCode : Option Int32
  stdout : List UInt8
  stderr : List UInt8

/-- `ShellStream`. -/
structure ShellStream where
  encoding : String
  data : String

/-- `hex`. -/
def hex (bytes : List UInt8) : String :=
  .ofList (bytes.flatMap fun b => [hexDigit (b.toNat / 16), hexDigit (b.toNat % 16)])

/-- `stream`. -/
def stream (bytes : List UInt8) : ShellStream :=
  match fromUtf8 bytes with
  | .ok data => ⟨"utf8", data⟩
  | .error _ => ⟨"hex", hex bytes⟩

/-- `ShellStream`, encoded. -/
def ShellStream.toValue (s : ShellStream) : Value :=
  .object [("encoding", .string s.encoding), ("data", .string s.data)]

/-- `Option<i32>`, encoded. -/
def exitValue : Option Int32 → Value
  | none => .null
  | some code => .number (toString code.toInt)

/-- `ShellContent`, encoded. -/
def content (output : SandboxOutput) : Value :=
  .object [("exit_code", exitValue output.exitCode), ("stdout", (stream output.stdout).toValue),
    ("stderr", (stream output.stderr).toValue)]

/-- `result`. -/
def result (callId : String) (output : SandboxOutput) : ToolResult where
  callId := callId
  content := (content output).text
  isError := output.exitCode ≠ some 0

/-- What `raw_cap` reserves: the largest exit code, two empty streams and no error. -/
def reserve (callId : String) : ℕ :=
  envelopeLen { result callId ⟨some Int32.minValue, [], []⟩ with isError := false }

/-- `raw_cap`. -/
def rawCap (callId : String) (limit : ℕ) : Except ToolError ℕ :=
  if reserve callId ≤ limit ∧ 0 < (limit - reserve callId) / 8 then .ok ((limit - reserve callId) / 8)
  else .error (.failed "shell result ceiling cannot fit framing and a raw byte")

/-- The end of `execute`: the result of an output, within its limit. -/
def finish (callId : String) (limit : ℕ) (output : SandboxOutput) : Except ToolError ToolResult := do
  reject (envelopeLen (result callId output) > limit)
    (.failed "shell result exceeds its complete envelope ceiling")
  return result callId output

/-! ### The output fits -/

theorem charBytes_digit {c : Char} (h : c.isDigit = true) : Value.charBytes c = 1 := by
  have hrange : 48 ≤ c.val.toNat ∧ c.val.toNat ≤ 57 := by
    simpa [Char.isDigit, UInt32.le_iff_toNat_le] using h
  obtain ⟨hlow, hhigh⟩ := hrange
  obtain ⟨n, hn⟩ : ∃ n, c.val.toNat = n := ⟨_, rfl⟩
  obtain rfl := char_of_val hn
  rw [hn] at hlow hhigh
  clear h hn
  interval_cases n <;> decide

theorem escapedLen_digits {cs : List Char} (h : ∀ c ∈ cs, c.isDigit = true) : escapedLen cs = cs.length := by
  induction cs with
  | nil => rfl
  | cons c cs ih =>
    rw [escapedLen_cons, charBytes_digit (h c List.mem_cons_self),
      ih fun d hd => h d (List.mem_cons_of_mem c hd), List.length_cons, Nat.add_comm]

theorem escapedLen_nat {n e : ℕ} (h : n < 10 ^ e) (he : 0 < e) : escapedLen (Nat.repr n).toList ≤ e := by
  have hlist : (Nat.repr n).toList = Nat.toDigits 10 n := Nat.toList_repr
  rw [hlist, escapedLen_digits fun c hc => Nat.isDigit_of_mem_toDigits (by decide) (by decide) hc]
  exact Nat.toDigits_length 10 n e he h

/-- **An exit code takes eleven bytes at most**, as many as the smallest one. -/
theorem escapedLen_exitValue (code : Option Int32) : escapedLen (exitValue code).print ≤ 11 := by
  cases code with
  | none => decide
  | some code =>
    have hlow : -2 ^ 31 ≤ code.toInt := code.le_toInt
    have hhigh : code.toInt < 2 ^ 31 := code.toInt_lt
    rw [exitValue, Value.print]
    obtain ⟨m, hm⟩ | ⟨m, hm⟩ : (∃ m : ℕ, code.toInt = m) ∨ ∃ m : ℕ, code.toInt = Int.negSucc m := by
      cases code.toInt with
      | ofNat m => exact Or.inl ⟨m, rfl⟩
      | negSucc m => exact Or.inr ⟨m, rfl⟩
    · rw [hm]
      have := escapedLen_nat (show m < 10 ^ 10 by omega) (by decide)
      show escapedLen (Nat.repr m).toList ≤ 11
      omega
    · rw [hm]
      have := escapedLen_nat (show m + 1 < 10 ^ 10 by omega) (by decide)
      show escapedLen ("-" ++ Nat.repr (m + 1)).toList ≤ 11
      have hminus : escapedLen "-".toList = 1 := by decide
      rw [String.toList_append, escapedLen_append, hminus]
      omega

theorem escapedLen_flatMap_escape (cs : List Char) : escapedLen (cs.flatMap escape) ≤ 8 * utf8Len cs := by
  induction cs with
  | nil => exact Nat.zero_le _
  | cons c cs ih =>
    have := escapedLen_escape_le_eight c
    rw [List.flatMap_cons, escapedLen_append, String.utf8Len_cons]
    omega

theorem escape_hexDigit : ∀ n < 16, escape (hexDigit n) = [hexDigit n] := by decide

theorem escapedLen_hex (bytes : List UInt8) :
    escapedLen ((hex bytes).toList.flatMap escape) = 2 * bytes.length := by
  rw [hex, String.toList_ofList]
  induction bytes with
  | nil => rfl
  | cons b bytes ih =>
    have hb := b.toNat_lt
    obtain ⟨-, hhigh⟩ := plain_hexDigit (b.toNat / 16) (by omega)
    obtain ⟨-, hlow⟩ := plain_hexDigit (b.toNat % 16) (by omega)
    simp only [List.flatMap_cons, List.cons_append, List.nil_append,
      escape_hexDigit _ (show b.toNat / 16 < 16 by omega), escape_hexDigit _ (show b.toNat % 16 < 16 by omega),
      escapedLen_cons, hhigh, hlow, List.length_cons, ih]
    omega

theorem escapedLen_toValue (s : ShellStream) : escapedLen s.toValue.print =
    33 + escapedLen (s.encoding.toList.flatMap escape) + escapedLen (s.data.toList.flatMap escape) := by
  have hkeys : escapedLen (printString "encoding") = 12 ∧ escapedLen (printString "data") = 8 := by decide
  simp only [ShellStream.toValue, escapedLen_object, escapedLen_fields, escapedLen_field, hkeys, escapedLen_string]
  omega

/-- **A stream takes eight bytes for each of its own**, and no more framing than an empty one. -/
theorem escapedLen_stream (bytes : List UInt8) :
    escapedLen (stream bytes).toValue.print ≤ 37 + 8 * bytes.length := by
  rw [escapedLen_toValue, stream]
  cases hdata : fromUtf8 bytes with
  | ok data =>
    have htag : escapedLen ("utf8".toList.flatMap escape) = 4 := by decide
    have hbytes : utf8Len data.toList = bytes.length := by
      rw [utf8Len_toList, ← fromUtf8_eq_ok_iff.1 hdata]
      rfl
    have := escapedLen_flatMap_escape data.toList
    dsimp only
    omega
  | error e =>
    have htag : escapedLen ("hex".toList.flatMap escape) = 3 := by decide
    have := escapedLen_hex bytes
    dsimp only
    omega

theorem escapedLen_content (output : SandboxOutput) : escapedLen (content output).print =
    40 + escapedLen (exitValue output.exitCode).print + escapedLen (stream output.stdout).toValue.print +
      escapedLen (stream output.stderr).toValue.print := by
  have hkeys : escapedLen (printString "exit_code") = 13 ∧ escapedLen (printString "stdout") = 10 ∧
      escapedLen (printString "stderr") = 10 := by decide
  simp only [content, escapedLen_object, escapedLen_fields, escapedLen_field, hkeys]
  omega

theorem envelopeLen_eq (r : ToolResult) : envelopeLen r =
    37 + Value.stringBytes r.callId + escapedLen r.content.toList + cond r.isError 4 5 := by
  have hkeys : Value.stringBytes "call_id" = 9 ∧ Value.stringBytes "content" = 9 ∧
      Value.stringBytes "is_error" = 10 := by decide
  have hcontent : Value.stringBytes r.content = escapedLen r.content.toList + 2 := rfl
  simp only [envelopeLen, ToolResult.toValue, Value.encodedLen, Value.encodedFields, Value.commas,
    List.length_cons, List.length_nil, hkeys, hcontent]
  cases r.isError <;> simp only [cond_true, cond_false, if_true, if_false, Bool.false_eq_true] <;> omega

theorem reserve_eq (callId : String) : reserve callId = 167 + Value.stringBytes callId := by
  have hexit : escapedLen (exitValue (some Int32.minValue)).print = 11 := by decide +kernel
  have hstream : escapedLen (stream []).toValue.print = 37 := by decide +kernel
  rw [reserve, envelopeLen_eq]
  simp only [result, Value.text, String.toList_ofList, escapedLen_content, hexit, hstream]
  simp
  omega

/-- **The result of an output fits**, when the output is no longer than its cap. -/
theorem envelopeLen_result (callId : String) (output : SandboxOutput) :
    envelopeLen (result callId output) ≤
      reserve callId + 8 * (output.stdout.length + output.stderr.length) := by
  have hexit := escapedLen_exitValue output.exitCode
  have hout := escapedLen_stream output.stdout
  have herr := escapedLen_stream output.stderr
  rw [envelopeLen_eq, reserve_eq]
  have hflag : ∀ b : Bool, cond b 4 5 ≤ 5 := by decide
  have hflag := hflag (decide (output.exitCode ≠ some 0))
  simp only [result, Value.text, String.toList_ofList, escapedLen_content]
  omega

/-! ### The output can be recovered -/

/-- What follows a text. -/
def skip : List Char → List Char → Option (List Char)
  | [], cs => some cs
  | _ :: _, [] => none
  | t :: ts, c :: cs => if t = c then skip ts cs else none

/-- The stream that a text starts with, and what follows. -/
def readStream (cs : List Char) : Option (ShellStream × List Char) := do
  let cs ← skip ('{' :: (printString "encoding" ++ [':', '"'])) cs
  let (encoding, cs) ← readString cs
  let cs ← skip (',' :: (printString "data" ++ [':', '"'])) cs
  let (data, cs) ← readString cs
  let cs ← skip ['}'] cs
  return (⟨.ofList encoding, .ofList data⟩, cs)

/-- The bytes that hexadecimal digits stand for. -/
def unhex : List Char → List UInt8
  | high :: low :: cs => UInt8.ofNat (16 * hexValue high + hexValue low) :: unhex cs
  | _ => []

/-- The bytes of a stream. -/
def ShellStream.bytes (s : ShellStream) : List UInt8 :=
  if s.encoding = "hex" then unhex s.data.toList else asBytes s.data

/-- The exit code of a text. -/
def readCode (cs : List Char) : Option Int32 :=
  if cs = "null".toList then none
  else
    match cs with
    | '-' :: digits => some (Int32.ofInt (-(Nat.ofDigitChars 10 digits 0 : ℕ)))
    | digits => some (Int32.ofInt (Nat.ofDigitChars 10 digits 0 : ℕ))

/-- The output that a result was made of. -/
def recover (r : ToolResult) : Option SandboxOutput := do
  let cs ← skip ('{' :: (printString "exit_code" ++ [':'])) r.content.toList
  let rest ← skip (',' :: (printString "stdout" ++ [':'])) (cs.dropWhile (· ≠ ','))
  let (stdout, rest) ← readStream rest
  let rest ← skip (',' :: (printString "stderr" ++ [':'])) rest
  let (stderr, _) ← readStream rest
  return ⟨readCode (cs.takeWhile (· ≠ ',')), stdout.bytes, stderr.bytes⟩

theorem skip_append (ts cs : List Char) : skip ts (ts ++ cs) = some cs := by
  induction ts with
  | nil => rfl
  | cons t ts ih => rw [List.cons_append, skip, if_pos rfl, ih]

theorem readStream_print (s : ShellStream) (rest : List Char) :
    readStream (s.toValue.print ++ rest) = some (s, rest) := by
  have hprint : s.toValue.print ++ rest =
      ('{' :: (printString "encoding" ++ [':', '"'])) ++ (s.encoding.toList.flatMap escape ++ '"' ::
        ((',' :: (printString "data" ++ [':', '"'])) ++ (s.data.toList.flatMap escape ++ '"' ::
          (['}'] ++ rest)))) := by
    simp only [ShellStream.toValue, Value.print, Value.printFields]
    rw [show printString s.encoding = '"' :: (s.encoding.toList.flatMap escape ++ ['"']) from rfl,
      show printString s.data = '"' :: (s.data.toList.flatMap escape ++ ['"']) from rfl]
    simp
  rw [hprint, readStream, skip_append]
  simp only [Option.bind_eq_bind, Option.bind_some, readString_escape, skip_append, String.ofList_toList]
  rfl

theorem unhex_hex (bytes : List UInt8) : unhex (hex bytes).toList = bytes := by
  rw [hex, String.toList_ofList]
  induction bytes with
  | nil => rfl
  | cons b bytes ih =>
    have hb := b.toNat_lt
    have hvalue : 16 * hexValue (hexDigit (b.toNat / 16)) + hexValue (hexDigit (b.toNat % 16)) = b.toNat := by
      rw [hexValue_hexDigit _ (by omega), hexValue_hexDigit _ (by omega)]
      omega
    rw [List.flatMap_cons]
    show UInt8.ofNat _ :: unhex (bytes.flatMap _) = _
    rw [hvalue, ih, UInt8.ofNat_toNat]

theorem bytes_stream (bytes : List UInt8) : (stream bytes).bytes = bytes := by
  rw [stream]
  cases hdata : fromUtf8 bytes with
  | ok data => exact fromUtf8_eq_ok_iff.1 hdata
  | error e => exact unhex_hex bytes

theorem digits_repr (n : ℕ) : (Nat.repr n).toList ≠ [] ∧ (∀ c ∈ (Nat.repr n).toList, c.isDigit = true) ∧
    Nat.ofDigitChars 10 (Nat.repr n).toList 0 = n := by
  have hlist : (Nat.repr n).toList = Nat.toDigits 10 n := Nat.toList_repr
  rw [hlist]
  exact ⟨Nat.toDigits_ne_nil, fun c hc => Nat.isDigit_of_mem_toDigits (by decide) (by decide) hc,
    Nat.ofDigitChars_ten_toDigits⟩

theorem print_exitValue (code : Int32) :
    (∃ m : ℕ, code.toInt = m ∧ (exitValue (some code)).print = (Nat.repr m).toList) ∨
      ∃ m : ℕ, code.toInt = -(m + 1 : ℕ) ∧ (exitValue (some code)).print = '-' :: (Nat.repr (m + 1)).toList := by
  rw [exitValue, Value.print]
  cases code.toInt with
  | ofNat m => exact Or.inl ⟨m, rfl, rfl⟩
  | negSucc m =>
    refine Or.inr ⟨m, rfl, ?_⟩
    show ("-" ++ Nat.repr (m + 1)).toList = _
    rw [String.toList_append]
    rfl

theorem readCode_exitValue (code : Option Int32) : readCode (exitValue code).print = code := by
  cases code with
  | none => rfl
  | some code =>
    rcases print_exitValue code with ⟨m, hm, hprint⟩ | ⟨m, hm, hprint⟩
    · obtain ⟨hne, hdigits, hvalue⟩ := digits_repr m
      obtain ⟨c, cs, hcs⟩ := List.exists_cons_of_ne_nil hne
      have hc : c.isDigit = true := hdigits c (by rw [hcs]; exact List.mem_cons_self)
      have hminus : c ≠ '-' := by
        rintro rfl
        exact absurd hc (by decide)
      have hnull : c ≠ 'n' := by
        rintro rfl
        exact absurd hc (by decide)
      have hword : c :: cs ≠ "null".toList := fun h =>
        hnull (List.cons.inj (h : c :: cs = ['n', 'u', 'l', 'l'])).1
      rw [hprint, hcs, readCode, if_neg hword, ← hcs, hvalue, ← hm, Int32.ofInt_toInt]
      exact fun digits h => hminus (List.cons.inj h).1
    · obtain ⟨-, -, hvalue⟩ := digits_repr (m + 1)
      have hword : '-' :: (Nat.repr (m + 1)).toList ≠ "null".toList := fun h =>
        absurd (List.cons.inj (h : '-' :: (Nat.repr (m + 1)).toList = ['n', 'u', 'l', 'l'])).1 (by decide)
      rw [hprint, readCode, if_neg hword, hvalue, ← hm, Int32.ofInt_toInt]

theorem no_comma (code : Option Int32) : ∀ c ∈ (exitValue code).print, decide (c ≠ ',') = true := by
  have hdigit : ∀ {cs : List Char}, (∀ c ∈ cs, c.isDigit = true) → ∀ c ∈ cs, decide (c ≠ ',') = true := by
    intro cs h c hc
    rw [decide_eq_true_eq]
    rintro rfl
    exact absurd (h ',' hc) (by decide)
  cases code with
  | none =>
    show ∀ c ∈ ['n', 'u', 'l', 'l'], decide (c ≠ ',') = true
    simp
  | some code =>
    rcases print_exitValue code with ⟨m, -, hprint⟩ | ⟨m, -, hprint⟩
    · rw [hprint]
      exact hdigit (digits_repr m).2.1
    · rw [hprint]
      exact List.forall_mem_cons.2 ⟨by decide, hdigit (digits_repr (m + 1)).2.1⟩

theorem recover_result (callId : String) (output : SandboxOutput) :
    recover (result callId output) = some output := by
  have hprint : (content output).print =
      ('{' :: (printString "exit_code" ++ [':'])) ++ ((exitValue output.exitCode).print ++ ',' ::
        (printString "stdout" ++ [':'] ++ ((stream output.stdout).toValue.print ++
          ((',' :: (printString "stderr" ++ [':'])) ++ ((stream output.stderr).toValue.print ++ ['}']))))) := by
    simp only [content, Value.print, Value.printFields]
    simp
  have htake : ∀ cs : List Char, ((exitValue output.exitCode).print ++ ',' :: cs).takeWhile
      (fun c => decide (c ≠ ',')) = (exitValue output.exitCode).print := by
    intro cs
    rw [List.takeWhile_append_of_pos (no_comma _), List.takeWhile_cons_of_neg (by decide), List.append_nil]
  have hdrop : ∀ cs : List Char, ((exitValue output.exitCode).print ++ ',' :: cs).dropWhile
      (fun c => decide (c ≠ ',')) = ',' :: cs := by
    intro cs
    rw [List.dropWhile_append_of_pos (no_comma _), List.dropWhile_cons_of_neg (by decide)]
  rw [recover, result, Value.text, String.toList_ofList, hprint, skip_append]
  have hskip : ∀ ts cs : List Char, skip (',' :: ts) (',' :: (ts ++ cs)) = some cs :=
    fun ts cs => skip_append (',' :: ts) cs
  simp only [Option.bind_eq_bind, Option.bind_some, htake, hdrop, hskip, readStream_print, skip_append]
  rw [readCode_exitValue, bytes_stream, bytes_stream]
  rfl

end Shell

end Tools
end Kolyan
