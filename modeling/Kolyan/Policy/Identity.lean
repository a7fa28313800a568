/-
# Bytes that identify a value

The compact encoding can be read in one way only (`compact_append`): a scalar can be told
apart where a structural byte or the end follows, and everything else says how it goes on
with its first byte.  So two values have the same canonical bytes exactly if they are the
same up to the order of the members of their objects (`compact_canonical_iff`).

The digest of a preparation and the fingerprint of a grant are hashes of canonical bytes,
and identify what they are taken of as far as the hash does (`bytes_identify`).
-/

import Kolyan.Policy.Canonical

namespace Kolyan
namespace Policy

open Checks

/-! ### Values up to the order of members -/

section Values

/-- A value without members. -/
def Scalar : Value → Prop
  | .array _ | .object _ => False
  | _ => True

/-- **Induction on a value with its members.** -/
@[elab_as_elim]
theorem Value.members_induction {P : Value → Prop} (scalar : ∀ v, Scalar v → P v)
    (array : ∀ items : List Value, (∀ v ∈ items, P v) → P (.array items))
    (object : ∀ fields : List (String × Value), (∀ field ∈ fields, P field.2) → P (.object fields)) (v : Value) : P v := by
  refine @Value.rec P (fun items => ∀ v ∈ items, P v) (fun fields => ∀ field ∈ fields, P field.2) (fun field => P field.2)
    (scalar _ trivial) (fun _ => scalar _ trivial) (fun _ => scalar _ trivial) (fun _ => scalar _ trivial) (fun items => array items)
    (fun fields => object fields) (fun _ h => nomatch h) (fun _ _ hv hvs => List.forall_mem_cons.2 ⟨hv, hvs⟩) (fun _ h => nomatch h)
    (fun _ _ hf hfs => List.forall_mem_cons.2 ⟨hf, hfs⟩) (fun _ _ hv => hv) v

/-- A character of a printed number. -/
def isNumberChar (c : Char) : Bool := c.isDigit || c = '+' || c = '-' || c = '.' || c = 'e' || c = 'E'

mutual

/-- A value as `serde_json::Value` has it: a number is a printed number, and an object has
one member for each of its keys. -/
def Represented : Value → Prop
  | .number text => text.toList ≠ [] ∧ ∀ c ∈ text.toList, isNumberChar c
  | .array items => RepresentedItems items
  | .object fields => (fields.map (·.1)).Nodup ∧ RepresentedFields fields
  | _ => True

/-- The members of an array. -/
def RepresentedItems : List Value → Prop
  | [] => True
  | v :: vs => Represented v ∧ RepresentedItems vs

/-- The members of an object. -/
def RepresentedFields : List (String × Value) → Prop
  | [] => True
  | (_, v) :: fs => Represented v ∧ RepresentedFields fs

end

theorem represented_nat (n : ℕ) : Represented (.nat n) := by
  have hdigits : (toString n).toList = Nat.toDigits 10 n := by simp [toString, Nat.repr]
  rw [Value.nat, Represented, hdigits]
  refine ⟨Nat.toDigits_ne_nil, fun c hc => ?_⟩
  rw [isNumberChar, Nat.isDigit_of_mem_toDigits (by decide) (by decide) hc]
  rfl

theorem representedItems_iff {items : List Value} : RepresentedItems items ↔ ∀ v ∈ items, Represented v := by
  induction items with
  | nil => simp [RepresentedItems]
  | cons v vs ih => rw [RepresentedItems, ih, List.forall_mem_cons]

theorem representedFields_iff {fields : List (String × Value)} :
    RepresentedFields fields ↔ ∀ field ∈ fields, Represented field.2 := by
  induction fields with
  | nil => simp [RepresentedFields]
  | cons field fields ih => rw [RepresentedFields, ih, List.forall_mem_cons]

/-- Two values that differ at most in the order of the members of their objects. -/
inductive Same : Value → Value → Prop where
  | scalar {v : Value} (h : Scalar v) : Same v v
  | array {xs ys : List Value} (hlength : xs.length = ys.length)
      (h : ∀ (i : ℕ) x y, xs[i]? = some x → ys[i]? = some y → Same x y) : Same (.array xs) (.array ys)
  | object {xs ys xs' ys' : List (String × Value)} (hxs : xs.Perm xs') (hys : ys.Perm ys')
      (hkeys : xs'.map (·.1) = ys'.map (·.1)) (h : ∀ (i : ℕ) x y, xs'[i]? = some x → ys'[i]? = some y → Same x.2 y.2) :
      Same (.object xs) (.object ys)

theorem Represented.canonical {v : Value} (h : Represented v) : Represented v.canonical := by
  induction v using Value.members_induction with
  | scalar v hv => cases v <;> first | exact h | exact hv.elim
  | array items ih =>
    rw [Represented, representedItems_iff] at h
    rw [Value.canonical, Represented, representedItems_iff, canonicalItems_eq]
    simp only [List.mem_map, forall_exists_index, and_imp, forall_apply_eq_imp_iff₂]
    exact fun v hv => ih v hv (h v hv)
  | object fields ih =>
    rw [Represented, representedFields_iff] at h
    rw [canonical_object, Represented, representedFields_iff, canonicalFields_eq]
    refine ⟨?_, ?_⟩
    · rw [List.map_map]
      exact (((sortEntries_perm fields).map (·.1)).nodup_iff).2 h.1
    · simp only [List.mem_map, forall_exists_index, and_imp, forall_apply_eq_imp_iff₂]
      intro field hfield
      have hfield := (sortEntries_perm fields).mem_iff.1 hfield
      exact ih field hfield (h.2 field hfield)

theorem map_eq_map {α β : Type} {f g : α → β} {xs ys : List α} : xs.map f = ys.map g ↔
    xs.length = ys.length ∧ ∀ (i : ℕ) x y, xs[i]? = some x → ys[i]? = some y → f x = g y := by
  constructor
  · refine fun h => ⟨by simpa using congrArg List.length h, fun i x y hx hy => ?_⟩
    have hi := congrArg (·[i]?) h
    simpa [hx, hy] using hi
  · rintro ⟨hlength, h⟩
    refine List.ext_getElem (by simpa using hlength) fun i hx hy => ?_
    rw [List.length_map] at hx hy
    rw [List.getElem_map, List.getElem_map]
    exact h i _ _ (List.getElem?_eq_getElem hx) (List.getElem?_eq_getElem hy)

theorem same_of_canonical {v w : Value} (h : v.canonical = w.canonical) : Same v w := by
  induction v using Value.members_induction generalizing w with
  | scalar v hv =>
    have hvw : v = w := by
      cases v <;> cases w <;> first | exact hv.elim | exact h | cases h
    exact hvw ▸ .scalar hv
  | array items ih =>
    cases w with
    | array items' =>
      rw [Value.canonical, Value.canonical, canonicalItems_eq, canonicalItems_eq] at h
      obtain ⟨hlength, hitems⟩ := map_eq_map.1 (Value.array.inj h)
      exact .array hlength fun i x y hx hy => ih x (List.mem_of_getElem? hx) (hitems i x y hx hy)
    | _ => cases h
  | object fields ih =>
    cases w with
    | object fields' =>
      rw [canonical_object, canonical_object, canonicalFields_eq, canonicalFields_eq] at h
      have hmap := Value.object.inj h
      have hkeys : (sortEntries fields).map (·.1) = (sortEntries fields').map (·.1) := by
        simpa [List.map_map, Function.comp_def] using congrArg (List.map Prod.fst) hmap
      obtain ⟨-, hfields⟩ := map_eq_map.1 hmap
      refine .object (sortEntries_perm fields).symm (sortEntries_perm fields').symm hkeys fun i x y hx hy => ?_
      exact ih x ((sortEntries_perm fields).mem_iff.1 (List.mem_of_getElem? hx)) (Prod.mk.inj (hfields i x y hx hy)).2
    | _ => cases h

/-- **Where every key has one member, the same values have one canonical form.** -/
theorem Same.canonical {v w : Value} (h : Same v w) (hv : Represented v) : v.canonical = w.canonical := by
  induction h with
  | scalar _ => rfl
  | array hlength _ ih =>
    rw [Represented, representedItems_iff] at hv
    rw [Value.canonical, Value.canonical, canonicalItems_eq, canonicalItems_eq]
    exact congrArg Value.array (map_eq_map.2 ⟨hlength, fun i x y hx hy => ih i x y hx hy (hv x (List.mem_of_getElem? hx))⟩)
  | @object xs ys xs' ys' hxs hys hkeys _ ih =>
    rw [Represented, representedFields_iff] at hv
    obtain ⟨hnodup, hv⟩ := hv
    have hfields : Value.canonicalFields xs' = Value.canonicalFields ys' := by
      rw [canonicalFields_eq, canonicalFields_eq]
      obtain ⟨hlength, hnames⟩ := map_eq_map.1 hkeys
      refine map_eq_map.2 ⟨hlength, fun i x y hx hy => Prod.ext (hnames i x y hx hy) ?_⟩
      exact ih i x y hx hy (hv x (hxs.mem_iff.2 (List.mem_of_getElem? hx)))
    have hperm : (Value.canonicalFields xs).Perm (Value.canonicalFields ys) := by
      rw [canonicalFields_eq, canonicalFields_eq] at hfields ⊢
      exact (hxs.map _).trans (hfields ▸ (hys.map _).symm)
    rw [Value.canonical, Value.canonical]
    refine congrArg Value.object (List.Perm.eq_of_pairwise ?_ (List.pairwise_insertionSort _ _) (List.pairwise_insertionSort _ _)
      ((List.perm_insertionSort _ _).trans (hperm.trans (List.perm_insertionSort _ _).symm)))
    -- Two members with one key are one member.
    intro a b ha hb hab hba
    have ha := (List.perm_insertionSort _ _).mem_iff.1 ha
    have hb := hperm.mem_iff.2 ((List.perm_insertionSort _ _).mem_iff.1 hb)
    have hkeys : ((Value.canonicalFields xs).map (·.1)).Nodup := by
      rwa [canonicalFields_eq, List.map_map]
    exact List.inj_on_of_nodup_map hkeys ha hb (le_antisymm hab hba)

end Values

/-! ### One way to read -/

section Readings

/-- The bytes that are not part of a scalar. -/
def structural : List UInt8 := [91, 123, 93, 125, 44, 58]

/-- What may follow a value: nothing, or a byte that closes, separates or ends a key. -/
def Ends : List UInt8 → Prop
  | [] => True
  | b :: _ => b ∈ [93, 125, 44, 58]

/-- **What is relied on of `serde_json`.**  A scalar starts with a byte of its own, and
where a structural byte or the end follows, no two scalars can be mistaken. -/
structure JsonWriter.Lawful (writer : JsonWriter) : Prop where
  start : ∀ v, Scalar v → Represented v → ∃ b rest, (writer.scalar v).flatten = b :: rest ∧ b ∉ structural
  append : ∀ v w x y, Scalar v → Represented v → Scalar w → Represented w → Ends x → Ends y →
    (writer.scalar v).flatten ++ x = (writer.scalar w).flatten ++ y → v = w ∧ x = y

variable {writer : JsonWriter}

theorem compact_scalar {v : Value} (h : Scalar v) : compact writer v = (writer.scalar v).flatten := by
  cases v <;> first | rfl | exact h.elim

theorem compact_start (hlawful : writer.Lawful) {v : Value} (h : Represented v) :
    ∃ b rest, compact writer v = b :: rest ∧ b ∉ [93, 125, 44, 58] := by
  cases v with
  | array items => exact ⟨91, _, by rw [compact], by decide⟩
  | object fields => exact ⟨123, _, by rw [compact], by decide⟩
  | _ =>
    obtain ⟨b, rest, heq, hb⟩ := hlawful.start _ (by trivial) h
    exact ⟨b, rest, by rw [compact_scalar (by trivial), heq], fun hmem => hb (by
      simp only [structural, List.mem_cons] at hmem ⊢
      tauto)⟩

theorem ends_items (items : List Value) (x : List UInt8) : Ends (compactItems writer false items ++ 93 :: x) := by
  cases items with
  | nil => exact List.mem_cons_self
  | cons v vs =>
    rw [compactItems, separator, if_neg Bool.false_ne_true]
    show (44 : UInt8) ∈ [93, 125, 44, 58]
    decide

theorem ends_fields (fields : List (String × Value)) (x : List UInt8) : Ends (compactFields writer false fields ++ 125 :: x) := by
  cases fields with
  | nil =>
    show (125 : UInt8) ∈ [93, 125, 44, 58]
    decide
  | cons field fields =>
    rw [compactFields, separator, if_neg Bool.false_ne_true]
    show (44 : UInt8) ∈ [93, 125, 44, 58]
    decide

theorem close_ne {first : Bool} {close : UInt8} (hclose : close = 93 ∨ close = 125) {member rest x : List UInt8}
    (hmember : ∃ b tail, member = b :: tail ∧ b ∉ ([93, 125, 44, 58] : List UInt8)) :
    close :: x ≠ separator first ++ (member ++ rest) := by
  obtain ⟨b, tail, rfl, hb⟩ := hmember
  cases first with
  | false =>
    intro h
    have hcomma : close = 44 := (List.cons.inj h).1
    rcases hclose with rfl | rfl <;> exact absurd hcomma (by decide)
  | true =>
    intro h
    have hstart : close = b := (List.cons.inj h).1
    rcases hclose with rfl | rfl <;> exact hb (by rw [← hstart]; decide)

/-- The bytes of a value cannot be those of another, whatever follows. -/
def Reads (writer : JsonWriter) (v : Value) : Prop :=
  ∀ w x y, Represented w → Ends x → Ends y → compact writer v ++ x = compact writer w ++ y → v = w ∧ x = y

theorem compactItems_append (hlawful : writer.Lawful) {items items' : List Value} (ih : ∀ v ∈ items, Reads writer v)
    (hv : ∀ v ∈ items, Represented v) (hw : ∀ w ∈ items', Represented w) {first : Bool} {x y : List UInt8}
    (h : compactItems writer first items ++ 93 :: x = compactItems writer first items' ++ 93 :: y) : items = items' ∧ x = y := by
  induction items generalizing items' first with
  | nil => cases items' with
    | nil => exact ⟨rfl, (List.cons.inj h).2⟩
    | cons w ws =>
      rw [compactItems, compactItems, List.nil_append, List.append_assoc, List.append_assoc] at h
      exact absurd h (close_ne (.inl rfl) (compact_start hlawful (hw w List.mem_cons_self)))
  | cons v vs ihs => cases items' with
    | nil =>
      rw [compactItems, compactItems, List.nil_append, List.append_assoc, List.append_assoc] at h
      exact absurd h.symm (close_ne (.inl rfl) (compact_start hlawful (hv v List.mem_cons_self)))
    | cons w ws =>
      rw [List.forall_mem_cons] at ih hv hw
      rw [compactItems, compactItems, List.append_assoc, List.append_assoc, List.append_assoc, List.append_assoc] at h
      obtain ⟨rfl, hrest⟩ := ih.1 w _ _ hw.1 (ends_items vs x) (ends_items ws y) (List.append_cancel_left h)
      obtain ⟨rfl, rfl⟩ := ihs ih.2 hv.2 hw.2 hrest
      exact ⟨rfl, rfl⟩

theorem compactFields_append (hlawful : writer.Lawful) {fields fields' : List (String × Value)}
    (ih : ∀ field ∈ fields, Reads writer field.2) (hw : ∀ field ∈ fields', Represented field.2) {first : Bool} {x y : List UInt8}
    (h : compactFields writer first fields ++ 125 :: x = compactFields writer first fields' ++ 125 :: y) :
    fields = fields' ∧ x = y := by
  have hkey : ∀ key : String, ∃ b tail, (writer.scalar (.string key)).flatten = b :: tail ∧ b ∉ ([93, 125, 44, 58] : List UInt8) :=
    fun key => compact_start hlawful (v := .string key) trivial
  induction fields generalizing fields' first with
  | nil => cases fields' with
    | nil => exact ⟨rfl, (List.cons.inj h).2⟩
    | cons field fields' =>
      obtain ⟨key, value⟩ := field
      rw [compactFields, compactFields, List.nil_append, List.append_assoc, List.append_assoc] at h
      exact absurd h (close_ne (.inr rfl) (hkey key))
  | cons field fields ihs =>
    obtain ⟨key, value⟩ := field
    cases fields' with
    | nil =>
      rw [compactFields, compactFields, List.nil_append, List.append_assoc, List.append_assoc] at h
      exact absurd h.symm (close_ne (.inr rfl) (hkey key))
    | cons field' fields' =>
      obtain ⟨key', value'⟩ := field'
      rw [List.forall_mem_cons] at ih hw
      rw [compactFields, compactFields] at h
      simp only [List.append_assoc, List.cons_append] at h
      have hends : ∀ rest : List UInt8, Ends (58 :: rest) := fun rest => by
        show (58 : UInt8) ∈ [93, 125, 44, 58]
        decide
      obtain ⟨hsame, hvalues⟩ := hlawful.append (.string key) (.string key') _ _ trivial trivial trivial trivial
        (hends _) (hends _) (List.append_cancel_left h)
      obtain rfl := Value.string.inj hsame
      obtain ⟨rfl, hrest⟩ := ih.1 value' _ _ hw.1 (ends_fields fields x) (ends_fields fields' y) (List.cons.inj hvalues).2
      obtain ⟨rfl, rfl⟩ := ihs ih.2 hw.2 hrest
      exact ⟨rfl, rfl⟩

theorem compact_append (hlawful : writer.Lawful) {v : Value} (hv : Represented v) : Reads writer v := by
  induction v using Value.members_induction with
  | scalar v hscalar =>
    intro w x y hw hx hy h
    rw [compact_scalar hscalar] at h
    obtain ⟨b, rest, hstart, hb⟩ := hlawful.start v hscalar hv
    cases w with
    | array items =>
      rw [hstart, compact] at h
      exact absurd ((List.cons.inj h).1 ▸ by decide) hb
    | object fields =>
      rw [hstart, compact] at h
      exact absurd ((List.cons.inj h).1 ▸ by decide) hb
    | _ => exact hlawful.append v _ x y hscalar hv trivial hw hx hy h
  | array items ih =>
    intro w x y hw hx hy h
    rw [Represented, representedItems_iff] at hv
    cases w with
    | array items' =>
      rw [Represented, representedItems_iff] at hw
      rw [compact, compact, List.cons_append, List.cons_append, List.append_assoc, List.append_assoc] at h
      obtain ⟨rfl, rfl⟩ := compactItems_append hlawful (fun v hmem => ih v hmem (hv v hmem)) hv hw (List.cons.inj h).2
      exact ⟨rfl, rfl⟩
    | object fields =>
      rw [compact, compact] at h
      exact absurd (List.cons.inj h).1 (by decide)
    | _ =>
      obtain ⟨b, rest, hstart, hb⟩ := hlawful.start _ (by trivial) hw
      rw [compact, compact_scalar (by trivial), hstart] at h
      exact absurd ((List.cons.inj h).1 ▸ by decide) hb
  | object fields ih =>
    intro w x y hw hx hy h
    rw [Represented, representedFields_iff] at hv
    cases w with
    | array items =>
      rw [compact, compact] at h
      exact absurd (List.cons.inj h).1 (by decide)
    | object fields' =>
      rw [Represented, representedFields_iff] at hw
      rw [compact, compact, List.cons_append, List.cons_append, List.append_assoc, List.append_assoc] at h
      obtain ⟨rfl, rfl⟩ := compactFields_append hlawful (fun field hmem => ih field hmem (hv.2 field hmem)) hw.2 (List.cons.inj h).2
      exact ⟨rfl, rfl⟩
    | _ =>
      obtain ⟨b, rest, hstart, hb⟩ := hlawful.start _ (by trivial) hw
      rw [compact, compact_scalar (by trivial), hstart] at h
      exact absurd ((List.cons.inj h).1 ▸ by decide) hb

/-- **The canonical bytes say which value it is, up to the order of members.** -/
theorem compact_canonical_iff (hlawful : writer.Lawful) {v w : Value} (hv : Represented v) (hw : Represented w) :
    compact writer v.canonical = compact writer w.canonical ↔ Same v w := by
  refine ⟨fun h => same_of_canonical ?_, fun h => congrArg _ (h.canonical hv)⟩
  exact (compact_append hlawful hv.canonical _ [] [] hw.canonical trivial trivial (by rw [h])).1

end Readings

/-! ### Digests and fingerprints -/

section Digests

variable (writer : JsonWriter) (hash : List UInt8 → String)

/-- `PreparedCall::compute_digest`, down to the bytes. -/
def PreparedCall.hashContent (p : PreparedCall) : Except PreparedError String := do
  let encoded ← bytes writer (1024 * 1024) p.content
  return hash encoded

/-- `DOMAIN`. -/
def fingerprintDomain : List UInt8 := "kolyan.prepared-grant.fingerprint/v1".toUTF8.data.toList ++ [0]

/-- The texts of a grant, in the order in which their lengths are added. -/
def PreparedGrant.texts (grant : PreparedGrant) : List String :=
  [grant.scope.execution.sessionId, grant.scope.execution.turnId, grant.scope.execution.executionId, grant.scope.stepId,
    grant.callId, grant.toolName, grant.toolRevision, grant.preparedDigest, grant.policyRevision] ++
      grant.scope.agentSnapshotDigest.toList ++ grant.approvalEvidenceId.toList

/-- `preflight`. -/
def preflight (limit : ℕ) : ℕ → List String → Except PreparedError Unit
  | _, [] => .ok ()
  | total, text :: texts => do
    reject (total + text.utf8ByteSize > limit) (.invalid "grant fingerprint string preflight exceeds byte limit")
    preflight limit (total + text.utf8ByteSize) texts

/-- `PreparedGrant::fingerprint`. -/
def PreparedGrant.fingerprint (grant : PreparedGrant) (maxBytes : ℕ) : Except PreparedError String := do
  reject (¬(1 ≤ maxBytes ∧ maxBytes ≤ 1048576)) (.invalid "grant fingerprint bound must be 1..=1048576")
  reject (maxBytes < fingerprintDomain.length) (.invalid "grant fingerprint domain exceeds byte limit")
  let jsonLimit := maxBytes - fingerprintDomain.length
  preflight jsonLimit 0 grant.texts
  let encoded ← bytes writer jsonLimit grant.toValue
  return hash (fingerprintDomain ++ encoded)

variable {writer} {hash}

theorem bytes_eq_ok {limit : ℕ} {value : Value} {encoded : List UInt8} (h : bytes writer limit value = .ok encoded) :
    encoded = compact writer value.canonical := by
  rw [bytes_eq, fit] at h
  split_ifs at h
  exact (Except.ok.inj h).symm

theorem represented_option {α : Type} {f : α → Value} (hf : ∀ a, Represented (f a)) (o : Option α) :
    Represented (Value.option f o) := by
  cases o with
  | none => trivial
  | some a => exact hf a

theorem represented_list {α : Type} {f : α → Value} (hf : ∀ a, Represented (f a)) (as : List α) :
    Represented (Value.list f as) := by
  rw [Value.list, Represented, representedItems_iff, List.forall_mem_map]
  exact fun a _ => hf a

theorem InvocationClaim.represented (claim : InvocationClaim) : Represented claim.toValue := by
  have hcapabilities := represented_list (f := Capability.toValue) (fun a => by cases a <;> trivial) claim.capabilities
  have heffects := represented_list (f := Effect.toValue) (fun a => by cases a <;> trivial) claim.effects
  have hidempotency : Represented claim.idempotency.toValue := by cases claim.idempotency <;> trivial
  have hpath := represented_option (f := Value.string) (fun _ => trivial) claim.resource.path
  simp [InvocationClaim.toValue, Represented, RepresentedFields, hcapabilities, heffects, hidempotency, hpath]

theorem PreparedCall.content_represented {p : PreparedCall} (harguments : Represented p.call.arguments)
    (hbinding : Represented p.executionBinding) : Represented p.content := by
  simp [PreparedCall.content, ToolCall.toValue, ToolRequirements.toValue, Represented, RepresentedFields, represented_nat,
    p.claim.represented, harguments, hbinding]

theorem PreparedGrant.represented (grant : PreparedGrant) : Represented grant.toValue := by
  have hdigest := represented_option (f := Value.string) (fun _ => trivial) grant.scope.agentSnapshotDigest
  have hevidence := represented_option (f := Value.string) (fun _ => trivial) grant.approvalEvidenceId
  have hbytes := represented_option represented_nat grant.constraints.maxOutputBytes
  have htimeout := represented_option represented_nat grant.constraints.timeoutMs
  simp [PreparedGrant.toValue, ToolExecutionScope.toValue, ExecutionRef.toValue, ExecutionConstraints.toValue, Represented,
    RepresentedFields, hdigest, hevidence, hbytes, htimeout]

theorem option_canonical {α : Type} {f : α → Value} (hf : ∀ a b, (f a).canonical = (f b).canonical → a = b)
    (hnull : ∀ a, (f a).canonical ≠ .null) {a b : Option α} (h : (Value.option f a).canonical = (Value.option f b).canonical) :
    a = b := by
  cases a with
  | none => cases b with
    | none => rfl
    | some b => exact absurd h.symm (hnull b)
  | some a => cases b with
    | none => exact absurd h (hnull a)
    | some b => exact congrArg some (hf a b h)

theorem PreparedGrant.canonical_toValue {a b : PreparedGrant} (h : a.toValue.canonical = b.toValue.canonical) : a = b := by
  have htexts : ∀ {a b : Option String}, (Value.option .string a).canonical = (Value.option .string b).canonical → a = b :=
    option_canonical (f := Value.string) (fun _ _ h => Value.string.inj h) (fun _ h => nomatch h)
  have hnumbers : ∀ {a b : Option ℕ}, (Value.option .nat a).canonical = (Value.option .nat b).canonical → a = b :=
    option_canonical (f := Value.nat) (fun _ _ h => Nat.repr_injective (Value.number.inj h)) (fun _ h => nomatch h)
  obtain ⟨⟨⟨session, turn, execution⟩, stepId, snapshot⟩, callId, toolName, toolRevision, digest, policy, ⟨output, timeout⟩, evidence⟩ := a
  obtain ⟨⟨⟨session', turn', execution'⟩, stepId', snapshot'⟩, callId', toolName', toolRevision', digest', policy',
    ⟨output', timeout'⟩, evidence'⟩ := b
  simp only [PreparedGrant.toValue, ToolExecutionScope.toValue, ExecutionRef.toValue, ExecutionConstraints.toValue, Value.canonical,
    Value.canonicalFields] at h
  simp at h
  obtain ⟨hevidence, rfl, ⟨houtput, htimeout⟩, rfl, rfl, ⟨hsnapshot, ⟨rfl, rfl, rfl⟩, rfl⟩, rfl, rfl⟩ := h
  rw [htexts hevidence, htexts hsnapshot, hnumbers houtput, hnumbers htimeout]

theorem fingerprint_eq_ok {grant : PreparedGrant} {maxBytes : ℕ} {fingerprint : String}
    (h : grant.fingerprint writer hash maxBytes = .ok fingerprint) :
    fingerprint = hash (fingerprintDomain ++ compact writer grant.toValue.canonical) := by
  simp only [PreparedGrant.fingerprint, bind_eq_ok, reject_eq_ok, pure_eq_ok] at h
  obtain ⟨_, -, _, -, _, -, encoded, hencoded, rfl⟩ := h
  rw [bytes_eq_ok hencoded]

theorem hashContent_eq_ok {p : PreparedCall} {digest : String} (h : p.hashContent writer hash = .ok digest) :
    digest = hash (compact writer p.content.canonical) := by
  simp only [PreparedCall.hashContent, bind_eq_ok, pure_eq_ok] at h
  obtain ⟨encoded, hencoded, rfl⟩ := h
  rw [bytes_eq_ok hencoded]

/-- **Canonical bytes identify a value, and their hashes what they are taken of.**  The
encoder writes the compact encoding of the sorted value if it fits in the limit, and
fails otherwise; two values have one encoding exactly if they differ at most in the order
of members.  Where the hash is free of collisions, two preparations with one digest have
one content and two grants with one fingerprint are one grant. -/
theorem bytes_identify (hlawful : writer.Lawful) (hfree : Function.Injective hash) :
    (∀ (value : Value) (limit : ℕ), bytes writer limit value =
      if (compact writer value.canonical).length ≤ limit then .ok (compact writer value.canonical)
      else .error (.invalid "prepared input exceeds byte limit")) ∧
    (∀ v w : Value, Represented v → Represented w → (compact writer v.canonical = compact writer w.canonical ↔ Same v w)) ∧
    (∀ p q : PreparedCall, Represented p.call.arguments → Represented p.executionBinding → Represented q.call.arguments →
      Represented q.executionBinding → p.hashContent writer hash = .ok p.digest → q.hashContent writer hash = .ok q.digest →
        p.digest = q.digest → p.SameContent q) ∧
    ∀ (a b : PreparedGrant) (m n : ℕ) (fingerprint : String), a.fingerprint writer hash m = .ok fingerprint →
      b.fingerprint writer hash n = .ok fingerprint → a = b := by
  have hread : ∀ {v w : Value}, Represented v → Represented w → compact writer v.canonical = compact writer w.canonical →
      v.canonical = w.canonical := fun hv hw h =>
    (compact_append hlawful hv.canonical _ [] [] hw.canonical trivial trivial (by rw [h])).1
  refine ⟨fun value limit => bytes_eq writer limit value, fun v w hv hw => compact_canonical_iff hlawful hv hw, ?_, ?_⟩
  · intro p q hpa hpb hqa hqb hp hq hdigest
    have hbytes := hfree ((hashContent_eq_ok hp).symm.trans (hdigest.trans (hashContent_eq_ok hq)))
    exact PreparedCall.content_canonical (hread (p.content_represented hpa hpb) (q.content_represented hqa hqb) hbytes) hdigest
  · intro a b m n fingerprint ha hb
    have hbytes := hfree ((fingerprint_eq_ok ha).symm.trans (fingerprint_eq_ok hb))
    exact PreparedGrant.canonical_toValue (hread a.represented b.represented (List.append_cancel_left hbytes))

end Digests

/-! ### A writer whose scalars can be told apart -/

section Plain

def numberByte (c : Char) : UInt8 := UInt8.ofNat c.val.toNat

/-- A text without its quotes: quotes and backslashes have a backslash before them. -/
def escaped : List UInt8 → List UInt8
  | [] => []
  | b :: text => if b = 34 ∨ b = 92 then 92 :: b :: escaped text else b :: escaped text

def plainWriter : JsonWriter where
  scalar
    | .null => [[110, 117, 108, 108]]
    | .bool true => [[116, 114, 117, 101]]
    | .bool false => [[102, 97, 108, 115, 101]]
    | .number text => [text.toList.map numberByte]
    | .string text => [[34], escaped text.toByteArray.data.toList, [34]]
    | _ => []

theorem isNumberChar_val {c : Char} (h : isNumberChar c) :
    48 ≤ c.val.toNat ∧ c.val.toNat ≤ 57 ∨ c.val.toNat = 43 ∨ c.val.toNat = 45 ∨ c.val.toNat = 46 ∨ c.val.toNat = 101 ∨
      c.val.toNat = 69 := by
  simp only [isNumberChar, Char.isDigit, Bool.or_eq_true, Bool.and_eq_true, decide_eq_true_eq] at h
  rcases h with ((((h | rfl) | rfl) | rfl) | rfl) | rfl
  · exact .inl ⟨UInt32.le_iff_toNat_le.1 h.1, UInt32.le_iff_toNat_le.1 h.2⟩
  all_goals decide

theorem numberByte_val {c : Char} (h : isNumberChar c) : (numberByte c).toNat = c.val.toNat := by
  have hval := isNumberChar_val h
  rw [numberByte, UInt8.toNat_ofNat']
  omega

theorem numberByte_ne {c : Char} (h : isNumberChar c) {b : UInt8} (hb : b ∈ [34, 44, 58, 91, 93, 102, 110, 116, 123, 125]) :
    numberByte c ≠ b := by
  rintro rfl
  have hval := isNumberChar_val h
  rw [← numberByte_val h] at hval
  have hother : ∀ b ∈ ([34, 44, 58, 91, 93, 102, 110, 116, 123, 125] : List UInt8), ¬(48 ≤ b.toNat ∧ b.toNat ≤ 57 ∨ b.toNat = 43 ∨
      b.toNat = 45 ∨ b.toNat = 46 ∨ b.toNat = 101 ∨ b.toNat = 69) := by decide +kernel
  exact hother _ hb hval

theorem numberBytes_append {s t : List Char} {x y : List UInt8} (hs : ∀ c ∈ s, isNumberChar c) (ht : ∀ c ∈ t, isNumberChar c)
    (hx : Ends x) (hy : Ends y) (h : s.map numberByte ++ x = t.map numberByte ++ y) : s = t ∧ x = y := by
  have hend : ∀ {c : Char} {rest : List UInt8}, isNumberChar c → ¬Ends (numberByte c :: rest) := by
    intro c rest hc hends
    have hends : numberByte c ∈ [93, 125, 44, 58] := hends
    exact numberByte_ne hc (by simp only [List.mem_cons] at hends ⊢; tauto) rfl
  induction s generalizing t with
  | nil => cases t with
    | nil => exact ⟨rfl, h⟩
    | cons d t =>
      obtain rfl := h
      exact absurd hx (hend (ht d List.mem_cons_self))
  | cons c s ih => cases t with
    | nil =>
      obtain rfl := h
      exact absurd hy (hend (hs c List.mem_cons_self))
    | cons d t =>
      rw [List.forall_mem_cons] at hs ht
      obtain ⟨hcd, hrest⟩ := List.cons.inj h
      obtain ⟨rfl, rfl⟩ := ih hs.2 ht.2 hrest
      have hval : c.val.toNat = d.val.toNat := by
        rw [← numberByte_val hs.1, ← numberByte_val ht.1]
        exact congrArg UInt8.toNat hcd
      exact ⟨by rw [Char.ext (UInt32.toNat_inj.1 hval)], rfl⟩

theorem escaped_append {s t x y : List UInt8} (h : escaped s ++ 34 :: x = escaped t ++ 34 :: y) : s = t ∧ x = y := by
  induction s generalizing t with
  | nil => cases t with
    | nil => exact ⟨rfl, (List.cons.inj h).2⟩
    | cons c t =>
      rw [escaped, escaped] at h
      split_ifs at h with hc
      · exact absurd (List.cons.inj h).1 (by decide)
      · exact absurd (.inl (List.cons.inj h).1.symm) hc
  | cons b s ih => cases t with
    | nil =>
      rw [escaped, escaped] at h
      split_ifs at h with hb
      · exact absurd (List.cons.inj h).1 (by decide)
      · exact absurd (.inl (List.cons.inj h).1) hb
    | cons c t =>
      rw [escaped, escaped] at h
      split_ifs at h with hb hc hc
      · obtain ⟨rfl, rfl⟩ := ih (List.cons.inj (List.cons.inj h).2).2
        exact ⟨by rw [(List.cons.inj (List.cons.inj h).2).1], rfl⟩
      · exact absurd (.inr (List.cons.inj h).1.symm) hc
      · exact absurd (.inr (List.cons.inj h).1) hb
      · obtain ⟨rfl, rfl⟩ := ih (List.cons.inj h).2
        exact ⟨by rw [(List.cons.inj h).1], rfl⟩

def startKind (b : UInt8) : ℕ := if b = 110 then 0 else if b = 116 then 1 else if b = 102 then 2 else if b = 34 then 3 else 4

def scalarKind : Value → ℕ
  | .null => 0
  | .bool true => 1
  | .bool false => 2
  | .string _ => 3
  | _ => 4

theorem plainWriter_start {v : Value} (hv : Scalar v) (h : Represented v) :
    ∃ b rest, (plainWriter.scalar v).flatten = b :: rest ∧ b ∉ structural ∧ startKind b = scalarKind v := by
  cases v with
  | null => exact ⟨110, _, rfl, by decide, rfl⟩
  | bool b => cases b with
    | true => exact ⟨116, _, rfl, by decide, rfl⟩
    | false => exact ⟨102, _, rfl, by decide, rfl⟩
  | string text => exact ⟨34, _, rfl, by decide, rfl⟩
  | number text =>
    obtain ⟨hne, hchars⟩ := h
    obtain ⟨c, cs, hcs⟩ := List.exists_cons_of_ne_nil hne
    have hc : isNumberChar c := hchars c (hcs ▸ List.mem_cons_self)
    refine ⟨numberByte c, _, by simp only [plainWriter, hcs]; rfl, fun hmem => ?_, ?_⟩
    · exact numberByte_ne hc (by simp only [structural, List.mem_cons] at hmem ⊢; tauto) rfl
    · rw [startKind, if_neg (numberByte_ne hc (by decide)), if_neg (numberByte_ne hc (by decide)),
        if_neg (numberByte_ne hc (by decide)), if_neg (numberByte_ne hc (by decide))]
      rfl
  | array => exact hv.elim
  | object => exact hv.elim

theorem plainWriter_lawful : plainWriter.Lawful where
  start v hv h := by
    obtain ⟨b, rest, heq, hb, -⟩ := plainWriter_start hv h
    exact ⟨b, rest, heq, hb⟩
  append v w x y hv hrv hw hrw hx hy h := by
    have hkind : scalarKind v = scalarKind w := by
      obtain ⟨b, rest, hvb, -, hb⟩ := plainWriter_start hv hrv
      obtain ⟨c, rest', hwc, -, hc⟩ := plainWriter_start hw hrw
      rw [hvb, hwc] at h
      rw [← hb, ← hc, (List.cons.inj h).1]
    cases v with
    | null => cases w with
      | null => exact ⟨rfl, List.append_cancel_left h⟩
      | bool b => cases b <;> exact absurd hkind (by decide)
      | _ => exact absurd hkind (by simp [scalarKind])
    | bool b => cases w with
      | bool c =>
        obtain rfl : b = c := by
          cases b <;> cases c <;> first | rfl | exact absurd hkind (by decide)
        exact ⟨rfl, List.append_cancel_left h⟩
      | null => cases b <;> exact absurd hkind (by decide)
      | _ => cases b <;> exact absurd hkind (by simp [scalarKind])
    | number text => cases w with
      | number other =>
        have hbytes : ∀ text : String, (plainWriter.scalar (.number text)).flatten = text.toList.map numberByte := fun text => by
          simp [plainWriter]
        rw [hbytes, hbytes] at h
        obtain ⟨htexts, rfl⟩ := numberBytes_append hrv.2 hrw.2 hx hy h
        exact ⟨by rw [String.toList_inj.1 htexts], rfl⟩
      | bool b => cases b <;> exact absurd hkind (by simp [scalarKind])
      | array => exact hw.elim
      | object => exact hw.elim
      | _ => exact absurd hkind (by simp [scalarKind])
    | string text => cases w with
      | string other =>
        have hbytes : ∀ (text : String) (x : List UInt8), (plainWriter.scalar (.string text)).flatten ++ x =
            34 :: (escaped text.toByteArray.data.toList ++ 34 :: x) := fun text x => by
          simp [plainWriter]
        rw [hbytes, hbytes] at h
        obtain ⟨htexts, rfl⟩ := escaped_append (List.cons.inj h).2
        exact ⟨by rw [String.toByteArray_inj.1 (ByteArray.ext (Array.toList_inj.1 htexts))], rfl⟩
      | bool b => cases b <;> exact absurd hkind (by simp [scalarKind])
      | _ => exact absurd hkind (by simp [scalarKind])
    | array => exact hv.elim
    | object => exact hv.elim

def plainHash (encoded : List UInt8) : String := String.ofList (encoded.map fun b => Char.ofNat b.toNat)

theorem plainHash_injective : Function.Injective plainHash := by
  intro a b h
  have hvalid : ∀ b : UInt8, (Char.ofNat b.toNat).toNat = b.toNat := by decide +kernel
  refine List.map_injective_iff.2 (fun b c hbyte => ?_) (String.ofList_injective h)
  exact UInt8.toNat_inj.1 ((hvalid b).symm.trans ((congrArg Char.toNat hbyte).trans (hvalid c)))

theorem bytes_identify_plain : bytes plainWriter 16 (.object [("b", .nat 1), ("a", .null)]) =
      .ok "\x7b\"a\":null,\"b\":1\x7d".toUTF8.data.toList ∧
    Same (.object [("b", .nat 1), ("a", .null)]) (.object [("a", .null), ("b", .nat 1)]) := by
  have hnumber := represented_nat 1
  obtain ⟨hbytes, hsame, -, -⟩ := bytes_identify plainWriter_lawful plainHash_injective
  refine ⟨?_, (hsame _ _ ?_ ?_).1 (by decide +kernel)⟩
  · rw [hbytes]
    decide +kernel
  · exact ⟨by decide, hnumber, trivial, trivial⟩
  · exact ⟨by decide, trivial, hnumber, trivial⟩

end Plain

end Policy
end Kolyan
