/-
# Definitions, snapshots and the catalog

`kolyan-agent/src/definition.rs`, `snapshot.rs` and `catalog.rs`.  A definition and
a snapshot carry their validation, so that a snapshot never permits more than its
definition; a catalog carries that it finds a definition under its own key.  The
three ways to a child all narrow what the parent and the host permit.
-/

import Kolyan.Agent.Permissions
import Kolyan.Lib.OrderedMaps

namespace Kolyan
namespace Agent

open Checks Tasks

section Definitions

/-- `ModelRef`. -/
structure ModelRef where
  provider : String
  model : String
  deriving DecidableEq

/-- `AgentDefinitionInput`. -/
structure AgentDefinitionInput where
  definitionId : String
  revision : String
  displayName : Option String
  model : ModelRef
  instructions : String
  permissions : AgentPermissions
  deriving DecidableEq

/-- An empty, long or unprintable name. -/
def badName (name : String) : Bool := trimEmpty name || name.utf8ByteSize > 256 || name.toList.any isControl

/-- The checks of `AgentDefinition::new`. -/
def AgentDefinitionInput.validate (input : AgentDefinitionInput) : Except AgentError Unit := do
  AgentKey.validate ⟨input.definitionId, input.revision⟩
  reject (badName input.model.provider ∨ badName input.model.model) (.invalid "invalid model reference")
  reject (input.displayName.any badName) (.invalid "invalid display name")
  reject (trimEmpty input.instructions ∨ input.instructions.utf8ByteSize > 65536 ∨
      input.instructions.toList.any fun c => c.val = 0)
    (.invalid "instructions must be 1..65536 non-NUL bytes")
  input.permissions.validate

/-- `AgentDefinition`: a validated input. -/
structure AgentDefinition where
  input : AgentDefinitionInput
  valid : input.validate = .ok ()
  deriving DecidableEq

/-- `AgentDefinition::new`. -/
def AgentDefinition.new (input : AgentDefinitionInput) : Except AgentError AgentDefinition :=
  match h : input.validate with
  | .ok () => .ok ⟨input, h⟩
  | .error error => .error error

/-- `AgentDefinition::key`. -/
def AgentDefinition.key (definition : AgentDefinition) : AgentKey :=
  ⟨definition.input.definitionId, definition.input.revision⟩

/-- `AgentDefinition::permissions`. -/
def AgentDefinition.permissions (definition : AgentDefinition) : AgentPermissions := definition.input.permissions

/-- `AgentDefinition`, as the input that it is read from. -/
def AgentDefinition.toValue (definition : AgentDefinition) : Value :=
  .object [("definition_id", .string definition.input.definitionId), ("revision", .string definition.input.revision),
    ("display_name", .option .string definition.input.displayName),
    ("model", .object [("provider", .string definition.input.model.provider),
      ("model", .string definition.input.model.model)]),
    ("instructions", .string definition.input.instructions), ("permissions", definition.input.permissions.toValue)]

end Definitions

section Snapshots

variable (sha256 : Value → String)

/-- `SnapshotInput`. -/
structure SnapshotInput where
  schemaVersion : ℕ
  definition : AgentDefinition
  identity : AgentIdentity
  permissions : AgentPermissions
  digest : String
  deriving DecidableEq

/-- `binding_digest`. -/
def SnapshotInput.bindingDigest (input : SnapshotInput) : String :=
  sha256 (.array [.string "kolyan.agent.snapshot.v1", .nat input.schemaVersion, input.definition.toValue,
    input.identity.toValue, input.permissions.toValue])

/-- The checks of `AgentSnapshot::try_from`. -/
def SnapshotInput.validate (input : SnapshotInput) : Except AgentError Unit := do
  Agent.identity input.identity.instanceId
  reject (input.schemaVersion ≠ 1 ∨ input.definition.key.definitionId ≠ input.identity.definitionId ∨
      input.definition.key.revision ≠ input.identity.revision ∨ input.bindingDigest sha256 ≠ input.digest)
    .snapshotMismatch
  input.permissions.requireSubsetOf input.definition.permissions

/-- `AgentSnapshot`: a validated input. -/
structure AgentSnapshot where
  input : SnapshotInput
  valid : input.validate sha256 = .ok ()
  deriving DecidableEq

/-- `AgentSnapshot::try_from`. -/
def AgentSnapshot.tryFrom (input : SnapshotInput) : Except AgentError (AgentSnapshot sha256) :=
  match h : input.validate sha256 with
  | .ok () => .ok ⟨input, h⟩
  | .error error => .error error

/-- `AgentSnapshot::new`. -/
def AgentSnapshot.new (definition : AgentDefinition) (instanceId : String) (permissions : AgentPermissions) :
    Except AgentError (AgentSnapshot sha256) :=
  let input : SnapshotInput :=
    { schemaVersion := 1
      definition
      identity := ⟨definition.key.definitionId, definition.key.revision, instanceId⟩
      permissions
      digest := "" }
  AgentSnapshot.tryFrom sha256 { input with digest := input.bindingDigest sha256 }

variable {sha256} (snapshot : AgentSnapshot sha256)

/-- `AgentSnapshot::definition`. -/
def AgentSnapshot.definition : AgentDefinition := snapshot.input.definition

/-- `AgentSnapshot::identity`. -/
def AgentSnapshot.identity : AgentIdentity := snapshot.input.identity

/-- `AgentSnapshot::permissions`. -/
def AgentSnapshot.permissions : AgentPermissions := snapshot.input.permissions

/-- `AgentSnapshot::digest`. -/
def AgentSnapshot.digest : String := snapshot.input.digest

theorem AgentSnapshot.permissions_le : snapshot.permissions ≤ snapshot.definition.permissions := by
  have h := snapshot.valid
  simp only [SnapshotInput.validate, bind_eq_ok] at h
  obtain ⟨_, -, _, -, h⟩ := h
  exact AgentPermissions.requireSubsetOf_eq_ok h

variable {snapshot}

theorem AgentSnapshot.tryFrom_eq_ok {input : SnapshotInput} :
    AgentSnapshot.tryFrom sha256 input = .ok snapshot ↔ snapshot.input = input := by
  unfold AgentSnapshot.tryFrom
  split
  · rename_i hvalid
    rw [Except.ok.injEq]
    exact ⟨fun h => h ▸ rfl, fun h => by cases snapshot; subst h; rfl⟩
  · rename_i error hvalid
    refine ⟨nofun, fun h => ?_⟩
    have hsnapshot := snapshot.valid
    rw [h, hvalid] at hsnapshot
    exact nomatch hsnapshot

theorem AgentSnapshot.new_eq_ok {definition : AgentDefinition} {instanceId : String} {permissions : AgentPermissions}
    (h : AgentSnapshot.new sha256 definition instanceId permissions = .ok snapshot) :
    snapshot.definition = definition ∧ snapshot.permissions = permissions ∧ snapshot.identity.instanceId = instanceId := by
  have hinput := AgentSnapshot.tryFrom_eq_ok.1 h
  rw [AgentSnapshot.definition, AgentSnapshot.permissions, AgentSnapshot.identity, hinput]
  exact ⟨rfl, rfl, rfl⟩

end Snapshots

section Catalogs

/-- `AgentSelector`. -/
inductive AgentSelector where
  | named (key : AgentKey)
  | inline (definition : AgentDefinition)

/-- `Registration`. -/
inductive Registration where
  | inserted | unchanged

/-- `AgentCatalog`, which finds a definition under its own key. -/
structure AgentCatalog where
  definitions : Std.ExtTreeMap AgentKey AgentDefinition
  capacity : ℕ
  keyed : ∀ (key : AgentKey) (definition : AgentDefinition), definitions[key]? = some definition → definition.key = key

/-- `AgentCatalog::new`. -/
def AgentCatalog.new (capacity : ℕ) : Except AgentError AgentCatalog := do
  reject (¬(1 ≤ capacity ∧ capacity ≤ 4096)) (.invalid "catalog capacity must be 1..4096")
  return { definitions := ∅, capacity, keyed := fun _ _ h => by simp at h }

variable {sha256 : Value → String} (catalog : AgentCatalog)

/-- `AgentCatalog::register`. -/
def AgentCatalog.register (definition : AgentDefinition) : Except AgentError (Registration × AgentCatalog) :=
  match catalog.definitions[definition.key]? with
  | some existing => if existing = definition then .ok (.unchanged, catalog) else .error .conflict
  | none =>
    if catalog.definitions.size = catalog.capacity then .error .capacity
    else .ok (.inserted,
      { catalog with
        definitions := catalog.definitions.insert definition.key definition
        keyed := fun key found h => by
          rw [OrderedMaps.getElem?_insert] at h
          split_ifs at h with hkey
          · obtain rfl := Option.some.inj h
            exact hkey
          · exact catalog.keyed key found h })

/-- `AgentCatalog::definition`. -/
def AgentCatalog.definition : AgentSelector → Except AgentError AgentDefinition
  | .named key => do
    key.validate
    expect catalog.definitions[key]? .notFound
  | .inline definition => do
    reject (catalog.definitions[definition.key]?.any fun existing => existing ≠ definition) .conflict
    return definition

/-- `AgentCatalog::resolve`. -/
def AgentCatalog.resolve (sha256 : Value → String) (selector : AgentSelector) (instanceId : String)
    (host requested : AgentPermissions) : Except AgentError (AgentSnapshot sha256) := do
  let definition ← catalog.definition selector
  let ceiling ← host.intersection definition.permissions
  requested.requireSubsetOf ceiling
  AgentSnapshot.new sha256 definition instanceId requested

/-- Whether the authority admits a child of a parent. -/
def admitsChild (authority : AgentPermissions) (parent : AgentDefinition) (selector : AgentSelector)
    (definition : AgentDefinition) : Bool :=
  if definition.key = parent.key then authority.delegation.allowSelf && definition = parent
  else match selector with
    | .named key => authority.delegation.namedTargets.contains key
    | .inline _ => authority.delegation.allowInline

/-- `AgentCatalog::child_definition_ceiling`. -/
def AgentCatalog.childDefinitionCeiling (parent : AgentSnapshot sha256) (selector : AgentSelector)
    (host : AgentPermissions) : Except AgentError (AgentDefinition × AgentPermissions) := do
  let definition ← catalog.definition selector
  let authority ← parent.permissions.intersection host
  reject (admitsChild authority parent.definition selector definition = false) .permissionDenied
  let ceiling ← authority.intersection definition.permissions
  return (definition, ceiling)

/-- A child needs an identity of its own. -/
def checkInstance (parent : AgentSnapshot sha256) (instanceId : String) : Except AgentError Unit :=
  reject (instanceId = parent.identity.instanceId) (.invalid "child must have a distinct instance identity")

/-- `AgentCatalog::resolve_child`. -/
def AgentCatalog.resolveChild (parent : AgentSnapshot sha256) (selector : AgentSelector) (instanceId : String)
    (host requested : AgentPermissions) : Except AgentError (AgentSnapshot sha256) := do
  let (definition, ceiling) ← catalog.childDefinitionCeiling parent selector host
  checkInstance parent instanceId
  requested.requireSubsetOf ceiling
  AgentSnapshot.new sha256 definition instanceId requested

/-- `AgentCatalog::resolve_child_definition`. -/
def AgentCatalog.resolveChildDefinition (parent : AgentSnapshot sha256) (selector : AgentSelector)
    (host requested : AgentPermissions) : Except AgentError AgentDefinition := do
  let (definition, ceiling) ← catalog.childDefinitionCeiling parent selector host
  requested.requireSubsetOf ceiling
  return definition

/-- `self_definition_ceiling`. -/
def selfDefinitionCeiling (parent : AgentSnapshot sha256) (host : AgentPermissions) :
    Except AgentError (AgentDefinition × AgentPermissions) := do
  let authority ← parent.permissions.intersection host
  let ceiling ← authority.intersection parent.definition.permissions
  reject (ceiling.delegation.allowSelf = false) .permissionDenied
  return (parent.definition, ceiling)

/-- `resolve_self`. -/
def resolveSelf (parent : AgentSnapshot sha256) (instanceId : String) (host requested : AgentPermissions) :
    Except AgentError (AgentSnapshot sha256) := do
  let (definition, ceiling) ← selfDefinitionCeiling parent host
  checkInstance parent instanceId
  requested.requireSubsetOf ceiling
  AgentSnapshot.new sha256 definition instanceId requested

/-- `resolve_self_definition`. -/
def resolveSelfDefinition (parent : AgentSnapshot sha256) (host requested : AgentPermissions) :
    Except AgentError AgentDefinition := do
  let (definition, ceiling) ← selfDefinitionCeiling parent host
  requested.requireSubsetOf ceiling
  return definition

end Catalogs

end Agent
end Kolyan
