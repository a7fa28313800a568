/-
# Encodings that are read back

What the hooks rely on of `serde_json` and of SHA-256 can be had.  Each saved value is
told apart by what is written of it, so that it can be read back (`plainCodec_lawful`),
and a digest that tells the names of the catalogs apart gives each of them a stream of
its own (`plainCodec_apart`).
-/

import Kolyan.Hooks.Runtime
import Kolyan.Policy.Grants

namespace Kolyan
namespace Hooks

open Checks Facts Artifacts

/-! ### Saved values -/

section Values

theorem artifactValue_injective {a b : ArtifactRef} (h : (artifactValue a).canonical = (artifactValue b).canonical) : a = b := by
  obtain ⟨digest, byteLength, retention⟩ := a
  obtain ⟨digest', byteLength', retention'⟩ := b
  simp only [artifactValue, Value.nat] at h
  simp [Value.canonical, Value.canonicalFields] at h
  obtain ⟨hlength, hdigest, hretention⟩ := h
  cases retention <;> cases retention' <;> first | exact absurd hretention (by decide) | rw [hlength, hdigest]

theorem factRef_injective {a b : FactRef} (h : a.toValue.canonical = b.toValue.canonical) : a = b := by
  obtain ⟨streamId, position, factId⟩ := a
  obtain ⟨streamId', position', factId'⟩ := b
  simp only [FactRef.toValue, Value.nat] at h
  simp [Value.canonical, Value.canonicalFields] at h
  obtain ⟨hfact, hposition, hstream⟩ := h
  rw [hfact, hposition, hstream]

theorem hookKey_injective {a b : HookKey} (h : a.toValue.canonical = b.toValue.canonical) : a = b := by
  obtain ⟨id, revision⟩ := a
  obtain ⟨id', revision'⟩ := b
  simp [HookKey.toValue, Value.canonical, Value.canonicalFields] at h
  rw [h.1, h.2]

theorem manifest_injective {a b : HookManifest} (h : a.toValue.canonical = b.toValue.canonical) : a = b := by
  obtain ⟨key, phases, toolNames, capabilities, effects, timeoutMs, maxInputBytes, maxOutputBytes⟩ := a
  obtain ⟨key', phases', toolNames', capabilities', effects', timeoutMs', maxInputBytes', maxOutputBytes'⟩ := b
  simp only [HookManifest.toValue, Value.canonical, Value.canonicalFields, Value.nat] at h
  simp at h
  obtain ⟨hcapabilities, heffects, hkey, hinput, houtput, hphases, htimeout, htools⟩ := h
  have hphases := Policy.canonical_list (fun a b h => by cases a <;> cases b <;> first | rfl | exact absurd h (by decide)) hphases
  have hcapabilities := Policy.canonical_list (fun _ _ => Policy.Capability.canonical_toValue) hcapabilities
  have heffects := Policy.canonical_list (fun _ _ => Policy.Effect.canonical_toValue) heffects
  have htools := Policy.canonical_list (fun a b h => Value.string.inj (by simpa only [Value.canonical] using h)) htools
  rw [hookKey_injective hkey, hinput, houtput, htimeout, Std.ExtTreeSet.toList_inj.1 hphases, Std.ExtTreeSet.toList_inj.1 hcapabilities,
    Std.ExtTreeSet.toList_inj.1 heffects, Std.ExtTreeSet.toList_inj.1 htools]

theorem registration_injective {a b : Registration} (h : a.toValue.canonical = b.toValue.canonical) : a = b := by
  obtain ⟨catalog, manifest, body⟩ := a
  obtain ⟨catalog', manifest', body'⟩ := b
  simp only [Registration.toValue, Value.canonical, Value.canonicalFields] at h
  simp at h
  obtain ⟨hbody, hmanifest, hcatalog⟩ := h
  rw [artifactValue_injective hbody, manifest_injective hmanifest, hcatalog]

theorem revocation_injective {a b : Revocation} (h : a.toValue.canonical = b.toValue.canonical) : a = b := by
  obtain ⟨key, registration, operationId, reason⟩ := a
  obtain ⟨key', registration', operationId', reason'⟩ := b
  simp only [Revocation.toValue, Value.canonical, Value.canonicalFields] at h
  simp at h
  obtain ⟨hkey, hoperation, hreason, hregistration⟩ := h
  rw [hookKey_injective hkey, factRef_injective hregistration, hoperation, hreason]

end Values

/-! ### What a script printed -/

section Outcomes

abbrev Printed := Option Int32 × Bytes × Bytes

def printedValue (t : Printed) : Value := (NativeOutcome.exited t.1 t.2.1 t.2.2).toValue

theorem code_injective {a b : Option Int32} (h : Value.option (fun code => .number (toString code)) a =
    Value.option (fun code => .number (toString code)) b) : a = b := by
  cases a with
  | none => cases b with
    | none => rfl
    | some b => exact nomatch h
  | some a => cases b with
    | none => exact nomatch h
    | some b => exact congrArg some (Int32.toInt_inj.1 (Int.repr_injective (Value.number.inj h)))

theorem bytesValue_injective {a b : Bytes} (h : bytesValue a = bytesValue b) : a = b :=
  List.map_injective_iff.2 (fun _ _ hbyte => UInt8.toNat_inj.1 (Nat.repr_injective (Value.number.inj hbyte)))
    (Value.array.inj h)

theorem printedValue_injective : Function.Injective printedValue := by
  rintro ⟨code, stdout, stderr⟩ ⟨code', stdout', stderr'⟩ h
  simp only [printedValue, NativeOutcome.toValue, Value.object.injEq, List.cons.injEq, Prod.mk.injEq, true_and, and_true] at h
  rw [code_injective h.1, bytesValue_injective h.2.1, bytesValue_injective h.2.2]

def listBytes : Bytes → Bytes
  | [] => [0]
  | b :: bytes => 1 :: b :: listBytes bytes

theorem listBytes_length (bytes : Bytes) : (listBytes bytes).length = 2 * bytes.length + 1 := by
  induction bytes with
  | nil => rfl
  | cons b bytes ih =>
    rw [listBytes, List.length_cons, List.length_cons, List.length_cons, ih]
    omega

theorem listBytes_append {a b x y : Bytes} (h : listBytes a ++ x = listBytes b ++ y) : a = b ∧ x = y := by
  induction a generalizing b with
  | nil => cases b with
    | nil => exact ⟨rfl, (List.cons.inj h).2⟩
    | cons c b => exact absurd (List.cons.inj h).1 (by decide)
  | cons c a ih => cases b with
    | nil => exact absurd (List.cons.inj h).1 (by decide)
    | cons d b =>
      simp only [listBytes, List.cons_append, List.cons.injEq, true_and] at h
      obtain ⟨rfl, h⟩ := h
      obtain ⟨rfl, rfl⟩ := ih h
      exact ⟨rfl, rfl⟩

def codeBytes : Option Int32 → Bytes
  | none => [0, 0, 0, 0, 0]
  | some code =>
    let n := code.toUInt32.toNat
    [1, UInt8.ofNat (n / 2 ^ 24), UInt8.ofNat (n / 2 ^ 16), UInt8.ofNat (n / 2 ^ 8), UInt8.ofNat n]

theorem codeBytes_append {a b : Option Int32} {x y : Bytes} (h : codeBytes a ++ x = codeBytes b ++ y) : a = b ∧ x = y := by
  cases a with
  | none => cases b with
    | none => exact ⟨rfl, List.append_cancel_left h⟩
    | some b => exact absurd (List.cons.inj h).1 (by decide)
  | some a => cases b with
    | none => exact absurd (List.cons.inj h).1 (by decide)
    | some b =>
      simp only [codeBytes, List.cons_append, List.nil_append, List.cons.injEq, true_and] at h
      obtain ⟨h₃, h₂, h₁, h₀, htail⟩ := h
      have ha := a.toUInt32.toNat_lt
      have hb := b.toUInt32.toNat_lt
      have hbyte : ∀ {m n : ℕ}, UInt8.ofNat m = UInt8.ofNat n → m % 256 = n % 256 := fun hmn => by
        simpa using congrArg UInt8.toNat hmn
      have h₃ := hbyte h₃
      have h₂ := hbyte h₂
      have h₁ := hbyte h₁
      have h₀ := hbyte h₀
      have hsame : a.toUInt32.toNat = b.toUInt32.toNat := by omega
      have hsame : a = b := congrArg Int32.ofUInt32 (UInt32.toNat_inj.1 hsame)
      exact ⟨congrArg some hsame, htail⟩

def printedBytes (t : Printed) : Bytes := 2 :: (codeBytes t.1 ++ (listBytes t.2.1 ++ listBytes t.2.2))

theorem printedBytes_append {t u : Printed} {x y : Bytes} (h : printedBytes t ++ x = printedBytes u ++ y) : t = u := by
  simp only [printedBytes, List.cons_append, List.append_assoc] at h
  obtain ⟨hcode, h⟩ := codeBytes_append (List.cons.inj h).2
  obtain ⟨hout, h⟩ := listBytes_append h
  exact Prod.ext hcode (Prod.ext hout (listBytes_append h).1)

theorem encodedItems_ge (bytes : Bytes) : bytes.length ≤ Value.encodedItems (bytes.map fun b => .nat b.toNat) := by
  induction bytes with
  | nil => exact Nat.zero_le _
  | cons b bytes ih =>
    have hdigit : 0 < (toString b.toNat).utf8ByteSize := by
      have hne : (toString b.toNat) ≠ "" := Nat.repr_ne_empty
      exact Nat.pos_of_ne_zero fun hzero => hne (String.utf8ByteSize_eq_zero_iff.1 hzero)
    simp only [List.map_cons, Value.encodedItems, List.length_cons, Value.nat, Value.encodedLen] at ih ⊢
    omega

theorem printedBytes_fit (t : Printed) : (printedBytes t).length ≤ (printedValue t).encodedLen := by
  obtain ⟨code, stdout, stderr⟩ := t
  have hout := encodedItems_ge stdout
  have herr := encodedItems_ge stderr
  have hcode : (codeBytes code).length = 5 := by cases code <;> rfl
  have hstatus : (Value.string "exited").encodedLen = 8 := by decide +kernel
  have hnames : Value.stringBytes "status" = 8 ∧ Value.stringBytes "exit_code" = 11 ∧ Value.stringBytes "stdout" = 8 ∧
      Value.stringBytes "stderr" = 8 := by decide +kernel
  obtain ⟨h₁, h₂, h₃, h₄⟩ := hnames
  simp only [printedBytes, List.length_cons, List.length_append, listBytes_length, hcode, printedValue, NativeOutcome.toValue,
    Value.encodedLen, Value.encodedFields, Value.commas, List.length_nil, h₁, h₂, h₃, h₄, bytesValue, Value.list,
    List.length_map] at hstatus ⊢
  omega

end Outcomes

/-! ### The codec -/

section Codec

/-- What a function was applied to, among the known arguments if it is one of them. -/
noncomputable def inverse {α β : Type} [DecidableEq β] (f : α → β) (known : List α) (b : β) : Option α :=
  (known.find? fun a => f a = b).or (open Classical in if h : ∃ a, f a = b then some h.choose else none)

theorem inverse_apply {α β : Type} [DecidableEq β] {f : α → β} (hf : Function.Injective f) (known : List α) (a : α) :
    inverse f known (f a) = some a := by
  unfold inverse
  cases hfind : known.find? fun b => f b = f a with
  | some b =>
    have hsame : f b = f a := by simpa using List.find?_some hfind
    rw [hf hsame]
    rfl
  | none =>
    have hsome : ∃ b, f b = f a := ⟨a, rfl⟩
    rw [Option.none_or, dif_pos hsome]
    exact congrArg some (hf hsome.choose_spec)

def padTo (length : ℕ) (bytes : Bytes) : Bytes := (bytes ++ List.replicate length 0).take length

theorem padTo_length (length : ℕ) (bytes : Bytes) : (padTo length bytes).length = length := by
  simp [padTo]

theorem padTo_eq {length : ℕ} {bytes : Bytes} (h : bytes.length ≤ length) :
    padTo length bytes = bytes ++ List.replicate (length - bytes.length) 0 := by
  rw [padTo, List.take_append, List.take_of_length_le h, List.take_replicate, Nat.min_eq_left (Nat.sub_le _ _)]

theorem utf8Size_le_charBytes (c : Char) : c.utf8Size ≤ Value.charBytes c := by
  have hone : c.val ≤ 0x7f → c.utf8Size = 1 := fun h => by simp [Char.utf8Size, h]
  unfold Value.charBytes
  split_ifs with hshort hcontrol
  · rw [hone]
    · decide
    · rcases hshort with rfl | rfl | h | h | h | h | h
      · decide
      · decide
      all_goals rw [h]; decide
  · have hlow := UInt32.lt_iff_toNat_lt.1 hcontrol
    rw [hone (UInt32.le_iff_toNat_le.2 (le_trans (le_of_lt hlow) (by decide)))]
    decide
  · exact le_rfl

theorem utf8ByteSize_le_stringBytes (s : String) : s.utf8ByteSize + 2 ≤ Value.stringBytes s := by
  have hchars : ∀ cs : List Char, String.utf8Len cs ≤ (cs.map Value.charBytes).sum := by
    intro cs
    induction cs with
    | nil => exact Nat.zero_le _
    | cons c cs ih =>
      have hc := utf8Size_le_charBytes c
      rw [List.map_cons, List.sum_cons, String.utf8Len_cons]
      omega
  have h := hchars s.toList
  rw [← String.utf8ByteSize_ofList, String.ofList_toList] at h
  exact Nat.add_le_add_right h 2

def textBytes (text : String) : Bytes := text.toByteArray.data.toList ++ [1]

theorem textBytes_append {a b : String} {m n : ℕ}
    (h : textBytes a ++ List.replicate m 0 = textBytes b ++ List.replicate n 0) : a = b := by
  have hends : ∀ {m n : ℕ} {xs ys : Bytes},
      List.replicate m 0 ++ (1 :: xs) = List.replicate n 0 ++ (1 :: ys) → xs = ys := by
    intro m
    induction m with
    | zero =>
      intro n xs ys h
      cases n with
      | zero => exact (List.cons.inj h).2
      | succ n => exact absurd (List.cons.inj h).1 (by decide)
    | succ m ih =>
      intro n xs ys h
      cases n with
      | zero => exact absurd (List.cons.inj h).1 (by decide)
      | succ n => exact ih (List.cons.inj h).2
  have hreverse := congrArg List.reverse h
  simp only [textBytes, List.reverse_append, List.append_assoc, List.singleton_append, List.reverse_cons,
    List.reverse_replicate] at hreverse
  have hbytes := List.reverse_injective (hends hreverse)
  exact String.toByteArray_inj.1 (ByteArray.ext (Array.toList_inj.1 hbytes))

/-- The bytes that tell a value apart: those of a text after a name, or of an outcome. -/
noncomputable def valueBytes (known : List Printed) : Value → Bytes
  | .array [.string _, .string text] => 1 :: textBytes text
  | .object (("status", status) :: fields) =>
    (inverse printedValue known (.object (("status", status) :: fields))).elim [] printedBytes
  | _ => []

noncomputable def plainBytes (known : List Printed) (value : Value) : Bytes := padTo value.encodedLen (valueBytes known value)

/-- A digest that tells the texts apart, and of all other bytes their number. -/
def plainDigest : Bytes → String
  | 1 :: text => "x" ++ String.ofList (text.map fun b => Char.ofNat b.toNat)
  | bytes => String.ofList (List.leftpad 64 '0' (Nat.toDigits 10 bytes.length))

theorem plainDigest_text {a b : Bytes} (h : plainDigest (1 :: a) = plainDigest (1 :: b)) : a = b := by
  have htexts := String.ofList_injective ((String.append_right_inj _).1 h)
  refine List.map_injective_iff.2 (fun b c hbyte => ?_) htexts
  have hvalid : ∀ b : UInt8, (Char.ofNat b.toNat).toNat = b.toNat := by decide +kernel
  exact UInt8.toNat_inj.1 ((hvalid b).symm.trans ((congrArg Char.toNat hbyte).trans (hvalid c)))

/-- Encodings that are read back, where the given values are read as they are. -/
noncomputable def plainCodec (printed : List Printed) (registrations : List Registration) (artifacts : List ArtifactRef)
    (ownership : Agent.AgentInvocationBinding fun value => plainDigest (plainBytes printed value)) (saved : SavedBinding)
    (reply : HookReply) : HookCodec where
  sha256 := plainDigest
  bytes := plainBytes printed
  ownership _ := .ok ownership
  registration value := expect (inverse (fun payload => payload.toValue.canonical) registrations value) "unread"
  revocation value := expect (inverse (fun payload => payload.toValue.canonical) ([] : List Revocation) value) "unread"
  binding _ := .ok saved
  artifact value := expect (inverse (fun reference => (artifactValue reference).canonical) artifacts value) "unread"
  success bytes := expect (inverse (fun t => plainBytes printed (printedValue t)) printed bytes) "unread"
  reply _ := .ok reply

variable {printed : List Printed} {registrations : List Registration} {artifacts : List ArtifactRef}
  {ownership : Agent.AgentInvocationBinding fun value => plainDigest (plainBytes printed value)} {saved : SavedBinding}
  {reply : HookReply}

theorem plainBytes_printed (t : Printed) : plainBytes printed (printedValue t) =
    printedBytes t ++ List.replicate ((printedValue t).encodedLen - (printedBytes t).length) 0 := by
  have hvalue : valueBytes printed (printedValue t) = printedBytes t := by
    show (inverse printedValue printed (printedValue t)).elim [] printedBytes = _
    rw [inverse_apply printedValue_injective]
    rfl
  rw [plainBytes, hvalue, padTo_eq (printedBytes_fit t)]

theorem plainCodec_lawful : (plainCodec printed registrations artifacts ownership saved reply).Lawful where
  bytes_length value := padTo_length _ _
  registration payload := by
    show expect (inverse (fun payload : Registration => payload.toValue.canonical) registrations _) _ = _
    rw [inverse_apply fun _ _ h => registration_injective h]
    rfl
  revocation payload := by
    show expect (inverse (fun payload : Revocation => payload.toValue.canonical) [] _) _ = _
    rw [inverse_apply fun _ _ h => revocation_injective h]
    rfl
  artifact reference := by
    show expect (inverse (fun reference => (artifactValue reference).canonical) artifacts _) _ = _
    rw [inverse_apply fun _ _ h => artifactValue_injective h]
    rfl
  success exitCode stdout stderr := by
    have hinjective : Function.Injective fun t => plainBytes printed (printedValue t) := fun t u h =>
      printedBytes_append ((plainBytes_printed t).symm.trans (h.trans (plainBytes_printed u)))
    show expect (inverse (fun t => plainBytes printed (printedValue t)) printed
      (plainBytes printed (printedValue (exitCode, stdout, stderr)))) _ = _
    rw [inverse_apply hinjective]
    rfl

theorem plainCodec_apart (a b : HookCatalog (plainCodec printed registrations artifacts ownership saved reply))
    (h : a.stream = b.stream) : a = b := by
  have hfit : ∀ name : String, (1 :: textBytes name).length ≤
      (Value.array [.string "kolyan.hooks.catalog.v1", .string name]).encodedLen := by
    intro name
    have hname : Value.stringBytes "kolyan.hooks.catalog.v1" = 25 := by decide +kernel
    have hsize : (1 :: textBytes name).length = name.utf8ByteSize + 2 := by
      simp [textBytes]
    have hbytes : name.utf8ByteSize + 2 ≤ Value.stringBytes name := utf8ByteSize_le_stringBytes name
    simp only [hsize, Value.encodedLen, Value.encodedItems, hname]
    omega
  have hstream : ∀ c : HookCatalog (plainCodec printed registrations artifacts ownership saved reply),
      ∃ n, c.stream = "agent.hooks.catalog." ++ plainDigest (1 :: (textBytes c.name ++ List.replicate n 0)) := by
    intro c
    have hnamed := c.named
    simp only [catalogStream, hash, encode, bind_eq_ok, pure_eq_ok] at hnamed
    obtain ⟨_, -, digest, ⟨bytes, ⟨_, -, rfl⟩, rfl⟩, hstream⟩ := hnamed
    refine ⟨_, hstream.symm.trans (congrArg (fun bytes => "agent.hooks.catalog." ++ plainDigest bytes) (padTo_eq (hfit c.name)))⟩
  obtain ⟨m, ha⟩ := hstream a
  obtain ⟨n, hb⟩ := hstream b
  have hnames : a.name = b.name :=
    textBytes_append (plainDigest_text ((String.append_right_inj _).1 (ha.symm.trans (h.trans hb))))
  cases a
  cases b
  dsimp only at hnames h
  subst hnames h
  rfl

end Codec

end Hooks
end Kolyan
