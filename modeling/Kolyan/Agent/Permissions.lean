/-
# Static permission ceilings

`kolyan-agent/src/permission.rs`: what an agent may do at most, in four
environment tools and in the delegation to named, inline and self targets.
`AgentPermissions` are ordered by what they permit, and the source's
`intersection` and `require_subset_of` are the meet and the order on ceilings that
are within their bounds (`intersection_eq_ok`, `requireSubsetOf_eq_ok`).
-/

import Kolyan.Lib.Checks
import Kolyan.Lib.OrderedSets
import Kolyan.Tasks.Encoding

namespace Kolyan

/-- `BTreeSet<T>`. -/
abbrev BTreeSet (α : Type) [Ord α] := Std.ExtTreeSet α compare

namespace Agent

open Checks

/-- `AgentError`. -/
inductive AgentError where
  | invalid (message : String)
  | conflict
  | notFound
  | capacity
  | permissionDenied
  | snapshotMismatch
  deriving DecidableEq

/-- `AgentError::to_string`. -/
def AgentError.toString : AgentError → String
  | invalid message => "invalid Agent input: " ++ message
  | conflict => "definition content conflicts with its registered revision"
  | notFound => "exact definition revision is not registered"
  | capacity => "catalog capacity exceeded"
  | permissionDenied => "delegation or requested permissions exceed the effective ceiling"
  | snapshotMismatch => "snapshot digest or identity does not match its definition"

/-- `identity`. -/
def identity (value : String) : Except AgentError Unit :=
  reject (isIdentifier value = false) (.invalid "identity must be 1..256 ASCII identifier bytes")

/-- `AgentKey`. -/
structure AgentKey where
  definitionId : String
  revision : String
  deriving DecidableEq

namespace AgentKey

/-- `Ord` of a key, by its fields in turn. -/
instance : Ord AgentKey := ⟨compareLex (compareOn definitionId) (compareOn revision)⟩

instance : Std.TransOrd AgentKey :=
  inferInstanceAs (Std.TransCmp (compareLex (compareOn definitionId) (compareOn revision)))

instance : Std.LawfulEqOrd AgentKey where
  eq_of_compare := by
    rintro ⟨definitionId, revision⟩ ⟨definitionId', revision'⟩ h
    obtain ⟨hid, hrevision⟩ := Ordering.then_eq_eq.1 h
    obtain rfl : definitionId = definitionId' := Std.LawfulEqOrd.eq_of_compare hid
    obtain rfl : revision = revision' := Std.LawfulEqOrd.eq_of_compare hrevision
    rfl

/-- `AgentKey::validate`. -/
def validate (key : AgentKey) : Except AgentError Unit := do
  identity key.definitionId
  identity key.revision

end AgentKey

/-- `EnvironmentTool`. -/
inductive EnvironmentTool where
  | read | write | edit | shell

namespace EnvironmentTool

/-- The place of a tool in its declaration. -/
def place : EnvironmentTool → ℕ
  | read => 0
  | write => 1
  | edit => 2
  | shell => 3

/-- `Ord` of a tool. -/
instance : Ord EnvironmentTool := ⟨compareOn place⟩

instance : Std.TransOrd EnvironmentTool := inferInstanceAs (Std.TransCmp (compareOn place))

instance : Std.LawfulEqOrd EnvironmentTool where
  eq_of_compare := by
    intro a b h
    have hplace : a.place = b.place := Std.LawfulEqOrd.eq_of_compare h
    cases a <;> cases b <;> first | rfl | exact absurd hplace (by decide)

/-- `EnvironmentTool::name`. -/
def name : EnvironmentTool → String
  | read => "file.read"
  | write => "file.write"
  | edit => "file.edit"
  | shell => "shell"

end EnvironmentTool

/-- `DelegationCeiling`. -/
structure DelegationCeiling where
  namedTargets : BTreeSet AgentKey
  allowInline : Bool
  allowSelf : Bool
  deriving DecidableEq

/-- `AgentPermissions`. -/
structure AgentPermissions where
  tools : BTreeSet EnvironmentTool
  delegation : DelegationCeiling
  deriving DecidableEq

namespace DelegationCeiling

/-- `DelegationCeiling::validate`. -/
def validate (ceiling : DelegationCeiling) : Except AgentError Unit := do
  reject (ceiling.namedTargets.size > 256) (.invalid "delegation target count exceeds 256")
  forEach AgentKey.validate ceiling.namedTargets.toList

/-- The meet of two ceilings, field by field. -/
def meet (a b : DelegationCeiling) : DelegationCeiling where
  namedTargets := a.namedTargets ∩ b.namedTargets
  allowInline := a.allowInline && b.allowInline
  allowSelf := a.allowSelf && b.allowSelf

/-- `DelegationCeiling::intersection`. -/
def intersection (a b : DelegationCeiling) : Except AgentError DelegationCeiling := do
  a.validate
  b.validate
  return a.meet b

/-- `DelegationCeiling::is_subset_of`. -/
def isSubsetOf (a b : DelegationCeiling) : Bool :=
  OrderedSets.isSubset a.namedTargets b.namedTargets && (!a.allowInline || b.allowInline) && (!a.allowSelf || b.allowSelf)

end DelegationCeiling

namespace AgentPermissions

/-- `AgentPermissions::validate`. -/
def validate (permissions : AgentPermissions) : Except AgentError Unit := permissions.delegation.validate

/-- `AgentPermissions::intersection`. -/
def intersection (a b : AgentPermissions) : Except AgentError AgentPermissions := do
  a.validate
  b.validate
  let delegation ← a.delegation.intersection b.delegation
  return { tools := a.tools ∩ b.tools, delegation }

/-- `AgentPermissions::require_subset_of`. -/
def requireSubsetOf (a ceiling : AgentPermissions) : Except AgentError Unit := do
  a.validate
  ceiling.validate
  reject (OrderedSets.isSubset a.tools ceiling.tools = false ∨ a.delegation.isSubsetOf ceiling.delegation = false)
    .permissionDenied

/-! ### The order of ceilings -/

/-- What one ceiling permits the other permits too. -/
instance : LE AgentPermissions where
  le a b := OrderedSets.isSubset a.tools b.tools = true ∧ a.delegation.isSubsetOf b.delegation = true

/-- What both permit. -/
instance : Min AgentPermissions where
  min a b := { tools := a.tools ∩ b.tools, delegation := a.delegation.meet b.delegation }

variable {a b c : AgentPermissions}

theorem le_iff : a ≤ b ↔ OrderedSets.isSubset a.tools b.tools = true ∧
    OrderedSets.isSubset a.delegation.namedTargets b.delegation.namedTargets = true ∧
    (a.delegation.allowInline = true → b.delegation.allowInline = true) ∧
    (a.delegation.allowSelf = true → b.delegation.allowSelf = true) := by
  show _ ∧ DelegationCeiling.isSubsetOf _ _ = true ↔ _
  simp only [DelegationCeiling.isSubsetOf, Bool.and_eq_true, Bool.or_eq_true, Bool.not_eq_true', and_assoc]
  simp only [← Bool.not_eq_true, ← imp_iff_not_or]

/-- **Ceilings are a lower semilattice.** -/
instance : SemilatticeInf AgentPermissions where
  le_refl a := le_iff.2 ⟨OrderedSets.isSubset_refl, OrderedSets.isSubset_refl, id, id⟩
  le_trans a b c hab hbc := by
    obtain ⟨htools, htargets, hinline, hself⟩ := le_iff.1 hab
    obtain ⟨htools', htargets', hinline', hself'⟩ := le_iff.1 hbc
    exact le_iff.2 ⟨OrderedSets.isSubset_trans htools htools', OrderedSets.isSubset_trans htargets htargets',
      hinline' ∘ hinline, hself' ∘ hself⟩
  le_antisymm a b hab hba := by
    obtain ⟨htools, htargets, hinline, hself⟩ := le_iff.1 hab
    obtain ⟨htools', htargets', hinline', hself'⟩ := le_iff.1 hba
    obtain ⟨tools, ⟨namedTargets, allowInline, allowSelf⟩⟩ := a
    obtain ⟨tools', ⟨namedTargets', allowInline', allowSelf'⟩⟩ := b
    obtain rfl : tools = tools' := OrderedSets.isSubset_antisymm htools htools'
    obtain rfl : namedTargets = namedTargets' := OrderedSets.isSubset_antisymm htargets htargets'
    obtain rfl : allowInline = allowInline' := Bool.eq_iff_iff.2 ⟨hinline, hinline'⟩
    obtain rfl : allowSelf = allowSelf' := Bool.eq_iff_iff.2 ⟨hself, hself'⟩
    rfl
  inf := min
  inf_le_left a b := le_iff.2 ⟨(OrderedSets.isSubset_inter.1 OrderedSets.isSubset_refl).1,
    (OrderedSets.isSubset_inter.1 OrderedSets.isSubset_refl).1, fun h => (Bool.and_eq_true_iff.1 h).1,
    fun h => (Bool.and_eq_true_iff.1 h).1⟩
  inf_le_right a b := le_iff.2 ⟨(OrderedSets.isSubset_inter.1 OrderedSets.isSubset_refl).2,
    (OrderedSets.isSubset_inter.1 OrderedSets.isSubset_refl).2, fun h => (Bool.and_eq_true_iff.1 h).2,
    fun h => (Bool.and_eq_true_iff.1 h).2⟩
  le_inf a b c hab hac := by
    obtain ⟨htools, htargets, hinline, hself⟩ := le_iff.1 hab
    obtain ⟨htools', htargets', hinline', hself'⟩ := le_iff.1 hac
    exact le_iff.2 ⟨OrderedSets.isSubset_inter.2 ⟨htools, htools'⟩, OrderedSets.isSubset_inter.2 ⟨htargets, htargets'⟩,
      fun h => Bool.and_eq_true_iff.2 ⟨hinline h, hinline' h⟩, fun h => Bool.and_eq_true_iff.2 ⟨hself h, hself' h⟩⟩

theorem intersection_eq_ok (h : a.intersection b = .ok c) : c = a ⊓ b := by
  simp only [intersection, DelegationCeiling.intersection, bind_eq_ok, pure_eq_ok] at h
  obtain ⟨_, -, _, -, delegation, ⟨_, -, _, -, rfl⟩, rfl⟩ := h
  rfl

theorem requireSubsetOf_eq_ok (h : a.requireSubsetOf b = .ok ()) : a ≤ b := by
  simp only [requireSubsetOf, bind_eq_ok, reject_eq_ok, not_or, Bool.not_eq_false] at h
  obtain ⟨_, -, _, -, h⟩ := h
  exact h

theorem mem_namedTargets (h : a ≤ b) {key : AgentKey} (hkey : key ∈ a.delegation.namedTargets) :
    key ∈ b.delegation.namedTargets := OrderedSets.isSubset_iff.1 (le_iff.1 h).2.1 key hkey

theorem allowInline_of_le (h : a ≤ b) (ha : a.delegation.allowInline = true) : b.delegation.allowInline = true :=
  (le_iff.1 h).2.2.1 ha

theorem allowSelf_of_le (h : a ≤ b) (ha : a.delegation.allowSelf = true) : b.delegation.allowSelf = true :=
  (le_iff.1 h).2.2.2 ha

end AgentPermissions

section Encoding

/-- `AgentKey`. -/
def AgentKey.toValue (key : AgentKey) : Value :=
  .object [("definition_id", .string key.definitionId), ("revision", .string key.revision)]

/-- `DelegationCeiling`. -/
def DelegationCeiling.toValue (ceiling : DelegationCeiling) : Value :=
  .object [("named_targets", .list AgentKey.toValue ceiling.namedTargets.toList),
    ("allow_inline", .bool ceiling.allowInline), ("allow_self", .bool ceiling.allowSelf)]

/-- `AgentPermissions`. -/
def AgentPermissions.toValue (permissions : AgentPermissions) : Value :=
  .object [("tools", .list (fun tool => .string tool.name) permissions.tools.toList),
    ("delegation", permissions.delegation.toValue)]

end Encoding

end Agent
end Kolyan
