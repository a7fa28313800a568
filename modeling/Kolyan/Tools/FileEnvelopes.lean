/-
# The envelope of a file call

The worker prints its result as one line of JSON, and the host embeds that text in a tool
result.  Its quotes and backslashes double there, so the worker may print half of what the
ceiling leaves.  A reader of JSON takes other texts than the printed one for the same
result, down to an array without keys; that one is shorter than the keys it leaves out
only if the digest is, and `receipt::decode` accepts no digest shorter than 64 characters
(`escapedLen_toValue_le`).

A replacement is refused before it starts unless the line that it must print fits
(`framing`); an edit reserves the longest length.
-/

import Kolyan.Tools.Envelopes
import Kolyan.Tools.Replacement

namespace Kolyan
namespace Tools

open Checks Turn Threads
open String (utf8Len)

/-- `FileOperationResult`, encoded. -/
def FileOperationResult.toValue (r : FileOperationResult) : Value :=
  match r.content with
  | none => .object [("path", .string r.path), ("bytes", .nat r.bytes), ("sha256", .string r.sha256)]
  | some content => .object [("path", .string r.path), ("bytes", .nat r.bytes), ("sha256", .string r.sha256),
      ("content", .string content)]

/-- The line that the worker prints. -/
def receiptLine (r : FileOperationResult) : String := r.toValue.text ++ "\n"

/-- The bytes of the shortest JSON that holds a result: an array of its fields. -/
def shortest (r : FileOperationResult) : ℕ :=
  5 + Value.stringBytes r.path + (toString r.bytes).utf8ByteSize + Value.stringBytes r.sha256 +
    r.content.elim 4 Value.stringBytes

/-- What is relied on of serde and of the hash: the line of a result is read back, no text
shorter than the shortest is read as a result, and a digest is canonical. -/
structure FileCodec.Lawful (codec : FileCodec) : Prop where
  prints : ∀ r, codec.result (receiptLine r) = .ok r
  reads : ∀ text r, codec.result text = .ok r → shortest r ≤ text.utf8ByteSize
  digest : ∀ content, canonicalSha256 (codec.contentSha256 content) = true

namespace Files

/-- `result`, in `execute`. -/
def result (callId : String) (output : FileOperationResult) : ToolResult where
  callId := callId
  content := output.toValue.text
  isError := false

/-- What `raw_cap` reserves. -/
def reserve (callId : String) : ℕ := envelopeLen { callId, content := "", isError := false }

/-- `raw_cap`. -/
def rawCap (callId : String) (limit : ℕ) : Except ToolError ℕ :=
  if reserve callId ≤ limit ∧ 0 < (limit - reserve callId) / 2 then .ok ((limit - reserve callId) / 2)
  else .error (.failed "file result ceiling cannot fit complete framing")

/-- The end of `execute`: the result of an output, within its limit. -/
def finish (callId : String) (limit : ℕ) (output : FileOperationResult) : Except ToolError ToolResult := do
  reject (envelopeLen (result callId output) > limit) (.failed "file result exceeds complete envelope ceiling")
  return result callId output

/-- `output_limit`, in `execute_bounded`. -/
def outputLimit (resultOutputLimit : Option ℕ) (granted : ℕ) : ℕ := min (resultOutputLimit.getD granted) granted

/-- `framing`, in `execute_bounded`. -/
def framing (operation : FileOperation) (limits : FileOperationLimits) : FileOperationResult where
  path := operation.path
  bytes := match operation with
    | .write _ content => content.utf8ByteSize
    | _ => limits.maxWriteBytes
  sha256 := .ofList (List.replicate 64 '0')
  content := none

/-- The check of the framing, in `execute_bounded`. -/
def fitsFraming (operation : FileOperation) (limits : FileOperationLimits) (limit : ℕ) : Except IsolatedFileError Unit :=
  reject (operation.isRead = false ∧ (framing operation limits).toValue.encodedLen + 1 > limit)
    (.invalid "output ceiling cannot fit replacement receipt")

/-! ### The result fits -/

theorem reserve_eq (callId : String) : reserve callId = 42 + Value.stringBytes callId := by
  rw [reserve, Shell.envelopeLen_eq]
  simp
  omega

theorem escapedLen_printString_le (s : String) : escapedLen (printString s) ≤ 2 * Value.stringBytes s := by
  have hcontent : ∀ cs : List Char, escapedLen (cs.flatMap escape) ≤ 2 * escapedLen cs := by
    intro cs
    induction cs with
    | nil => exact Nat.zero_le _
    | cons c cs ih =>
      have := escapedLen_escape_le c
      rw [List.flatMap_cons, escapedLen_append, escapedLen_cons]
      omega
  have hbytes : Value.stringBytes s = escapedLen s.toList + 2 := rfl
  have := hcontent s.toList
  rw [escapedLen_printString]
  omega

theorem plain_hex {c : Char} (h : (('0' ≤ c && c ≤ '9') || ('a' ≤ c && c ≤ 'f')) = true) :
    escape c = [c] ∧ Value.charBytes c = 1 ∧ c.utf8Size = 1 := by
  have hrange : 48 ≤ c.val.toNat ∧ c.val.toNat ≤ 57 ∨ 97 ≤ c.val.toNat ∧ c.val.toNat ≤ 102 := by
    simpa [Char.le_def, UInt32.le_iff_toNat_le] using h
  obtain ⟨n, hn⟩ : ∃ n, c.val.toNat = n := ⟨_, rfl⟩
  obtain rfl := char_of_val hn
  rw [hn] at hrange
  clear h hn
  rcases hrange with ⟨hlow, hhigh⟩ | ⟨hlow, hhigh⟩ <;> interval_cases n <;> decide

theorem plain_hexes {cs : List Char} (h : ∀ c ∈ cs, (('0' ≤ c && c ≤ '9') || ('a' ≤ c && c ≤ 'f')) = true) :
    cs.flatMap escape = cs ∧ escapedLen cs = utf8Len cs := by
  induction cs with
  | nil => exact ⟨rfl, rfl⟩
  | cons c cs ih =>
    obtain ⟨hc, hcs⟩ := List.forall_mem_cons.1 h
    obtain ⟨hescape, hbytes, hone⟩ := plain_hex hc
    obtain ⟨hflat, hlen⟩ := ih hcs
    rw [List.flatMap_cons, hescape, hflat, escapedLen_cons, hbytes, hlen, String.utf8Len_cons, hone]
    exact ⟨rfl, Nat.add_comm _ _⟩

theorem escapedLen_canonical {sha256 : String} (h : canonicalSha256 sha256 = true) :
    escapedLen (printString sha256) = 68 ∧ Value.stringBytes sha256 = 66 := by
  obtain ⟨hsize, hhex⟩ := Bool.and_eq_true_iff.1 h
  obtain ⟨hflat, hlen⟩ := plain_hexes (List.all_eq_true.1 hhex)
  have hsize : escapedLen sha256.toList = 64 := by
    rw [hlen, utf8Len_toList]
    exact of_decide_eq_true hsize
  have hbytes : Value.stringBytes sha256 = escapedLen sha256.toList + 2 := rfl
  rw [escapedLen_printString, hflat, hbytes, hsize]
  exact ⟨rfl, rfl⟩

theorem escapedLen_toString (n : ℕ) : escapedLen (toString n).toList = (toString n).utf8ByteSize := by
  have hlist : (toString n).toList = Nat.toDigits 10 n := Nat.toList_repr
  have hhex : ∀ c ∈ Nat.toDigits 10 n, (('0' ≤ c && c ≤ '9') || ('a' ≤ c && c ≤ 'f')) = true := by
    intro c hc
    have hdigit : c.isDigit = true := Nat.isDigit_of_mem_toDigits (by decide) (by decide) hc
    rw [Char.isDigit, Bool.and_eq_true_iff] at hdigit
    obtain ⟨hlow, hhigh⟩ := hdigit
    have hlow : '0' ≤ c := of_decide_eq_true hlow
    have hhigh : c ≤ '9' := of_decide_eq_true hhigh
    simp [hlow, hhigh]
  rw [← utf8Len_toList, hlist, (plain_hexes hhex).2]

/-- **A result takes at most twice the shortest text** that is read as it. -/
theorem escapedLen_toValue_le {r : FileOperationResult} (h : canonicalSha256 r.sha256 = true) :
    escapedLen r.toValue.print ≤ 2 * shortest r := by
  have hkeys : escapedLen (printString "path") = 8 ∧ escapedLen (printString "bytes") = 9 ∧
      escapedLen (printString "sha256") = 10 ∧ escapedLen (printString "content") = 11 := by decide
  have hpath := escapedLen_printString_le r.path
  obtain ⟨hdigest, hsha⟩ := escapedLen_canonical h
  have hnat : escapedLen (Value.nat r.bytes).print = (toString r.bytes).utf8ByteSize := escapedLen_toString r.bytes
  have hstring : ∀ s : String, escapedLen (Value.string s).print = escapedLen (printString s) := fun _ => rfl
  unfold FileOperationResult.toValue shortest
  cases r.content with
  | none =>
    simp only [escapedLen_object, escapedLen_fields, escapedLen_field, hkeys, hstring, hdigest, hnat, hsha,
      Option.elim_none]
    omega
  | some content =>
    have hcontent := escapedLen_printString_le content
    simp only [escapedLen_object, escapedLen_fields, escapedLen_field, hkeys, hstring, hdigest, hnat, hsha,
      Option.elim_some]
    omega

/-! ### The receipt fits -/

theorem encodedLen_receipt {r : FileOperationResult} (h : r.content = none) : r.toValue.encodedLen =
    28 + Value.stringBytes r.path + (toString r.bytes).utf8ByteSize + Value.stringBytes r.sha256 := by
  have hkeys : Value.stringBytes "path" = 6 ∧ Value.stringBytes "bytes" = 7 ∧ Value.stringBytes "sha256" = 8 := by decide
  rw [FileOperationResult.toValue, h]
  simp only [Value.encodedLen, Value.encodedFields, Value.commas, Value.nat, List.length_cons, List.length_nil, hkeys]
  omega

theorem utf8ByteSize_receiptLine (r : FileOperationResult) :
    (receiptLine r).utf8ByteSize = r.toValue.encodedLen + 1 := by
  have hline : "\n".utf8ByteSize = 1 := by decide
  rw [receiptLine, String.utf8ByteSize_append, Value.text, String.utf8ByteSize_ofList, utf8Len_print, hline]

theorem digits_mono {n m : ℕ} (h : n ≤ m) : (toString n).utf8ByteSize ≤ (toString m).utf8ByteSize := by
  have hsize : ∀ k : ℕ, (toString k).utf8ByteSize = (Nat.toDigits 10 k).length := by
    intro k
    have hlist : (toString k).toList = Nat.toDigits 10 k := Nat.toList_repr
    rw [← escapedLen_toString, hlist, Shell.escapedLen_digits fun c hc =>
      Nat.isDigit_of_mem_toDigits (by decide) (by decide) hc]
  have hm : m < 10 ^ (Nat.toDigits 10 m).length :=
    (Nat.length_toDigits_le_iff (by decide) Nat.length_toDigits_pos).1 le_rfl
  rw [hsize, hsize]
  exact (Nat.length_toDigits_le_iff (by decide) Nat.length_toDigits_pos).2 (h.trans_lt hm)

theorem receiptLine_fits {operation : FileOperation} {limits : FileOperationLimits} {limit : ℕ} {r : FileOperationResult}
    (hfits : fitsFraming operation limits limit = .ok ()) (hreplaces : operation.isRead = false)
    (hpath : r.path = operation.path) (hcontent : r.content = none) (hdigest : canonicalSha256 r.sha256 = true)
    (hbytes : r.bytes ≤ (framing operation limits).bytes) : (receiptLine r).utf8ByteSize ≤ limit := by
  have hzeros : canonicalSha256 (framing operation limits).sha256 = true := by
    show canonicalSha256 (.ofList (List.replicate 64 '0')) = true
    decide +kernel
  have hmono := digits_mono hbytes
  have hframing := encodedLen_receipt (r := framing operation limits) rfl
  have hline := encodedLen_receipt hcontent
  rw [(escapedLen_canonical hdigest).2, hpath] at hline
  rw [(escapedLen_canonical hzeros).2, show (framing operation limits).path = operation.path from rfl] at hframing
  rw [fitsFraming, reject_eq_ok, not_and, Nat.not_lt] at hfits
  have hle := hfits hreplaces
  rw [utf8ByteSize_receiptLine]
  omega

theorem reported {sha256 : String → String} {request : ExactFileWorkerRequest} {limits : FileOperationLimits}
    {d d' : Disk} {r : FileOperationResult} (hreplaces : request.operation.isRead = false)
    (hrun : (executeExact sha256 request limits).runs d = some (.ok r, d')) :
    ∃ content, r = resultOf sha256 request.operation content ∧
      content.utf8ByteSize ≤ (framing request.operation limits).bytes := by
  have htells := runs_of_holds (executeExact_holds sha256 request limits d) hrun
  rcases htells with ⟨hread, -⟩ | ⟨content, hreplaced, hr⟩
  · exact nomatch hreplaces.symm.trans hread
  · refine ⟨content, hr, ?_⟩
    have hplanned := hreplaced.planned
    unfold Planned at hplanned
    unfold framing
    cases hop : request.operation with
    | read path => rw [hop] at hreplaces; exact nomatch hreplaces
    | write path text =>
      rw [hop] at hplanned
      rw [show content = text from hplanned]
    | edit path oldText newText expectedSha256 =>
      rw [hop] at hplanned
      obtain ⟨original, a, b, -, heditable, hab, rfl⟩ := hplanned
      rw [utf8ByteSize_replaced newText hab]
      exact heditable.fits

variable {codec : FileCodec} {callId : String} {limit cap : ℕ}

/-- **A text that is accepted gives a result within the limit**, when it is within its cap. -/
theorem finish_decoded (hcodec : codec.Lawful) {operation : FileOperation} {stdout : String}
    {limits : FileOperationLimits} {output : FileOperationResult} (hcap : rawCap callId limit = .ok cap)
    (hlen : stdout.utf8ByteSize ≤ cap) (hdecode : decode codec operation stdout limits = .ok output) :
    finish callId limit output = .ok (result callId output) ∧ envelopeLen (result callId output) ≤ limit := by
  simp only [decode, bind_eq_ok, mapError_eq_ok, reject_eq_ok, not_not, pure_eq_ok] at hdecode
  obtain ⟨read, hread, -, -, -, hdigest, -, -, rfl⟩ := hdecode
  have htwice := escapedLen_toValue_le hdigest
  have hshort := hcodec.reads stdout read hread
  have hreserve := reserve_eq callId
  have hlen' : envelopeLen (result callId read) = 42 + Value.stringBytes callId + escapedLen read.toValue.print := by
    rw [Shell.envelopeLen_eq]
    simp only [result, Value.text, String.toList_ofList, cond_false]
    omega
  have hle : envelopeLen (result callId read) ≤ limit := by
    unfold rawCap at hcap
    split at hcap
    · obtain rfl := Except.ok.inj hcap
      omega
    · exact nomatch hcap
  refine ⟨?_, hle⟩
  rw [finish, reject_of_not (Nat.not_lt_of_le hle)]
  rfl

/-- The line of a replacement that a worker has made is within the cap. -/
theorem line_fits (hcodec : codec.Lawful) {granted : ℕ} {request : ExactFileWorkerRequest} {limits : FileOperationLimits}
    {d d' : Disk} {r : FileOperationResult} (hreplaces : request.operation.isRead = false)
    (hframing : fitsFraming request.operation limits (outputLimit (some cap) granted) = .ok ())
    (hrun : (executeExact codec.contentSha256 request limits).runs d = some (.ok r, d')) :
    (receiptLine r).utf8ByteSize ≤ outputLimit (some cap) granted ∧ (receiptLine r).utf8ByteSize ≤ cap := by
  obtain ⟨content, rfl, hbytes⟩ := reported hreplaces hrun
  have hnone : (resultOf codec.contentSha256 request.operation content).content = none := by
    rw [resultOf, hreplaces]
    rfl
  have hline := receiptLine_fits hframing hreplaces rfl hnone (hcodec.digest content) hbytes
  exact ⟨hline, hline.trans (min_le_left _ _)⟩

end Files

/-- **Tool output fits its envelope once the process ran.**  A shell output of no more bytes
than its cap gives a result within the limit, from which it can be recovered; a worker's
text of no more bytes than its cap that is accepted gives a result within the limit; and a
replacement whose framing fits has its line within the cap. -/
theorem output_fits {codec : FileCodec} (hcodec : codec.Lawful) (callId : String) (limit : ℕ) :
    (∀ cap output, Shell.rawCap callId limit = .ok cap → output.stdout.length + output.stderr.length ≤ cap →
      Shell.finish callId limit output = .ok (Shell.result callId output) ∧
        envelopeLen (Shell.result callId output) ≤ limit ∧
        Shell.recover (Shell.result callId output) = some output) ∧
    (∀ cap operation stdout limits output, Files.rawCap callId limit = .ok cap → stdout.utf8ByteSize ≤ cap →
      decode codec operation stdout limits = .ok output →
      Files.finish callId limit output = .ok (Files.result callId output) ∧
        envelopeLen (Files.result callId output) ≤ limit) ∧
    ∀ cap granted request limits d d' r, Files.rawCap callId limit = .ok cap →
      request.operation.isRead = false →
      Files.fitsFraming request.operation limits (Files.outputLimit (some cap) granted) = .ok () →
      (executeExact codec.contentSha256 request limits).runs d = some (.ok r, d') →
      (receiptLine r).utf8ByteSize ≤ Files.outputLimit (some cap) granted ∧ (receiptLine r).utf8ByteSize ≤ cap := by
  refine ⟨fun cap output hcap hlen => ?_,
    fun cap operation stdout limits output hcap hlen hdecode => Files.finish_decoded hcodec hcap hlen hdecode,
    fun cap granted request limits d d' r _ hreplaces hframing hrun => Files.line_fits hcodec hreplaces hframing hrun⟩
  have hfits := Shell.envelopeLen_result callId output
  have hle : envelopeLen (Shell.result callId output) ≤ limit := by
    unfold Shell.rawCap at hcap
    split at hcap
    · obtain rfl := Except.ok.inj hcap
      omega
    · exact nomatch hcap
  refine ⟨?_, hle, Shell.recover_result callId output⟩
  rw [Shell.finish, reject_of_not (Nat.not_lt_of_le hle)]
  rfl

section Printed

def readReceipt (cs : List Char) : Option FileOperationResult := do
  let cs ← Shell.skip ('{' :: (printString "path" ++ [':', '"'])) cs
  let (path, cs) ← readString cs
  let cs ← Shell.skip (',' :: (printString "bytes" ++ [':'])) cs
  let rest ← Shell.skip (',' :: (printString "sha256" ++ [':', '"'])) (cs.dropWhile Char.isDigit)
  let (sha256, rest) ← readString rest
  let bytes := Nat.ofDigitChars 10 (cs.takeWhile Char.isDigit) 0
  match rest with
  | '}' :: _ => some { path := .ofList path, bytes, sha256 := .ofList sha256, content := none }
  | _ => do
      let rest ← Shell.skip (',' :: (printString "content" ++ [':', '"'])) rest
      let (content, _) ← readString rest
      some { path := .ofList path, bytes, sha256 := .ofList sha256, content := some (.ofList content) }

def readLine (text : String) : Except String FileOperationResult :=
  expect ((readReceipt text.toList).filter fun r => text = receiptLine r) "not a printed line"

def digestOfB : String := "3e23e8160039594a33894f6564e1b1348bbd7a0088d42c4acb73eeaed59c009d"

/-- A codec that reads nothing but printed lines, and knows the digest of one content. -/
def printedCodec : FileCodec where
  operation _ := .error "no operation"
  result := readLine
  contentSha256 _ := digestOfB

def receiptTail (r : FileOperationResult) : List Char :=
  match r.content with
  | none => ['}', '\n']
  | some content => (',' :: (printString "content" ++ [':', '"'])) ++ (content.toList.flatMap escape ++ ['"', '}', '\n'])

theorem toList_receiptLine (r : FileOperationResult) : (receiptLine r).toList =
    ('{' :: (printString "path" ++ [':', '"'])) ++ (r.path.toList.flatMap escape ++ '"' ::
      ((',' :: (printString "bytes" ++ [':'])) ++ ((toString r.bytes).toList ++
        ((',' :: (printString "sha256" ++ [':', '"'])) ++ (r.sha256.toList.flatMap escape ++ '"' :: receiptTail r))))) := by
  have hquoted : ∀ s : String, printString s = '"' :: (s.toList.flatMap escape ++ ['"']) := fun _ => rfl
  have hline : "\n".toList = ['\n'] := rfl
  rw [receiptLine, String.toList_append, Value.text, String.toList_ofList, hline, FileOperationResult.toValue, receiptTail]
  cases r.content with
  | none =>
    simp only [Value.print, Value.printFields, Value.nat]
    rw [hquoted r.path, hquoted r.sha256]
    simp
  | some content =>
    simp only [Value.print, Value.printFields, Value.nat]
    rw [hquoted r.path, hquoted r.sha256, hquoted content]
    simp

theorem readReceipt_line (r : FileOperationResult) : readReceipt (receiptLine r).toList = some r := by
  have hlist : (toString r.bytes).toList = Nat.toDigits 10 r.bytes := Nat.toList_repr
  have hdigits : ∀ c ∈ Nat.toDigits 10 r.bytes, c.isDigit = true := fun c hc =>
    Nat.isDigit_of_mem_toDigits (by decide) (by decide) hc
  have htake : ∀ cs : List Char, (Nat.toDigits 10 r.bytes ++ ',' :: cs).takeWhile Char.isDigit =
      Nat.toDigits 10 r.bytes := by
    intro cs
    rw [List.takeWhile_append_of_pos hdigits, List.takeWhile_cons_of_neg (by decide), List.append_nil]
  have hdrop : ∀ cs : List Char, (Nat.toDigits 10 r.bytes ++ ',' :: cs).dropWhile Char.isDigit = ',' :: cs := by
    intro cs
    rw [List.dropWhile_append_of_pos hdigits, List.dropWhile_cons_of_neg (by decide)]
  have hskip : ∀ ts cs : List Char, Shell.skip (',' :: ts) (',' :: (ts ++ cs)) = some cs :=
    fun ts cs => Shell.skip_append (',' :: ts) cs
  rw [toList_receiptLine, readReceipt, Shell.skip_append]
  simp only [Option.bind_eq_bind, Option.bind_some, readString_escape, hlist, List.cons_append,
    htake, hdrop, hskip, Nat.ofDigitChars_ten_toDigits, String.ofList_toList]
  obtain ⟨path, bytes, sha256, content⟩ := r
  cases content with
  | none => rfl
  | some content =>
    show ((Shell.skip (',' :: (printString "content" ++ [':', '"'])) (',' :: ((printString "content" ++ [':', '"']) ++
      (content.toList.flatMap escape ++ '"' :: ['}', '\n'])))).bind _) = _
    rw [hskip, Option.bind_some]
    show ((readString (content.toList.flatMap escape ++ '"' :: ['}', '\n'])).bind _) = _
    rw [readString_escape, Option.bind_some, String.ofList_toList]

theorem printedCodec_lawful : printedCodec.Lawful where
  prints r := by
    show readLine (receiptLine r) = .ok r
    rw [readLine, readReceipt_line, Option.filter_some, if_pos (decide_eq_true rfl)]
    rfl
  reads text r h := by
    have hline : text = receiptLine r := of_decide_eq_true (Option.filter_eq_some_iff.1 (expect_eq_ok.1 h)).2
    have hkeys : Value.stringBytes "path" = 6 ∧ Value.stringBytes "bytes" = 7 ∧ Value.stringBytes "sha256" = 8 ∧
        Value.stringBytes "content" = 9 := by decide
    rw [hline, Files.utf8ByteSize_receiptLine, shortest, FileOperationResult.toValue]
    cases r.content with
    | none =>
      simp only [Value.encodedLen, Value.encodedFields, Value.commas, Value.nat, List.length_cons, List.length_nil, hkeys,
        Option.elim_none]
      omega
    | some content =>
      simp only [Value.encodedLen, Value.encodedFields, Value.commas, Value.nat, List.length_cons, List.length_nil, hkeys,
        Option.elim_some]
      omega
  digest _ := by
    show canonicalSha256 digestOfB = true
    decide +kernel

def editReceipt : FileOperationResult where
  path := "f"
  bytes := 1
  sha256 := digestOfB
  content := none

theorem decode_editReceipt :
    decode printedCodec (.edit "f" "a" "b" none) (receiptLine editReceipt) ⟨1024, 1024⟩ = .ok editReceipt := by
  simp only [decode, bind_eq_ok, mapError_eq_ok, reject_eq_ok, pure_eq_ok]
  refine ⟨editReceipt, printedCodec_lawful.prints editReceipt, (), by decide, (), ?_, (), rfl, rfl⟩
  exact not_not.2 (printedCodec_lawful.digest "")

/-- A printed quote and the receipt of an edit fit into small envelopes. -/
theorem output_fits_quote :
    Shell.recover (Shell.result "call" ⟨some 0, [0x22], []⟩) = some ⟨some 0, [0x22], []⟩ ∧
      envelopeLen (Files.result "call" editReceipt) ≤ 1024 := by
  obtain ⟨hshell, -, -⟩ := output_fits printedCodec_lawful "call" 200
  obtain ⟨-, hfiles, -⟩ := output_fits printedCodec_lawful "call" 1024
  have hshellCap : Shell.rawCap "call" 200 = .ok 3 := by
    rw [Shell.rawCap, Shell.reserve_eq]
    decide +kernel
  have hfileCap : Files.rawCap "call" 1024 = .ok 488 := by
    rw [Files.rawCap, Files.reserve_eq]
    decide +kernel
  have hline : (receiptLine editReceipt).utf8ByteSize ≤ 488 := by
    rw [Files.utf8ByteSize_receiptLine]
    decide +kernel
  exact ⟨(hshell 3 _ hshellCap (by decide)).2.2, (hfiles 488 _ _ _ _ hfileCap hline decode_editReceipt).2⟩

end Printed

end Tools
end Kolyan
