/-
# What is advertised to the model

`runner/routing/advertisement.rs` and `schema.rs`: the definition of `agent.invoke` is made
for a parent, a host and a catalog.  A template of the whole input is edited branch by branch:
one for the self call, one for each named definition that is admitted, one for inline
definitions, each with the ceiling of the permissions that may be asked for.
-/

import Kolyan.Agent.Invoke
import Kolyan.Requests.Types
import Kolyan.Schema

namespace Kolyan
namespace Agent

open Checks

/-! ### The template -/

section Template

/-- An object of a schema. -/
def objectSchema (required : List String) (properties : List (String × Value)) : Value :=
  .object [("type", .string "object"), ("additionalProperties", .bool false), ("required", .list .string required),
    ("properties", .object properties)]

/-- A value of a type. -/
def typeSchema (name : String) : Value := .object [("type", .string name)]

/-- A fixed value. -/
def constSchema (value : Value) : Value := .object [("const", value)]

/-- `key`. -/
def keySchema : Value :=
  objectSchema ["definition_id", "revision"] [("definition_id", typeSchema "string"), ("revision", typeSchema "string")]

/-- `permissions`. -/
def permissionsSchema : Value :=
  .object [("type", .string "object"), ("additionalProperties", .bool false),
    ("description", .string "Inside an inline definition this is its immutable static ceiling; in child permissions this is the requested invocation ceiling. Neither is a grant. Actual authority is independently bounded by the parent, host, definition and policy."),
    ("required", .list .string ["tools", "delegation"]),
    ("properties", .object [
      ("tools", .object [("type", .string "array"),
        ("description", .string "An array of environment tool names, not an object or string. Use [] for no tools. An inline definition declares a static ceiling; requested child permissions must independently fit the effective ceiling. agent.invoke is configured through delegation, not listed here."),
        ("examples", .array [.array []]),
        ("items", .object [("enum", .list .string ["file.read", "file.write", "file.edit", "shell"])])]),
      ("delegation", objectSchema ["named_targets", "allow_inline", "allow_self"] [
        ("named_targets", .object [("type", .string "array"),
          ("description", .string "An array of exact definition_id/revision objects for future named delegation, not the target of this call. Use [] for no named targets; never use an empty string or an object in place of the array. A static inline definition ceiling does not grant these targets to the invocation."),
          ("examples", .array [.array []]), ("items", keySchema)]),
        ("allow_inline", typeSchema "boolean"), ("allow_self", typeSchema "boolean")])])]

/-- `definition`. -/
def definitionSchema : Value :=
  objectSchema ["definition_id", "revision", "model", "instructions", "permissions"] [
    ("definition_id", typeSchema "string"), ("revision", typeSchema "string"),
    ("display_name", .object [("type", .list .string ["string", "null"])]),
    ("model", objectSchema ["provider", "model"] [("provider", typeSchema "string"), ("model", typeSchema "string")]),
    ("instructions", typeSchema "string"), ("permissions", permissionsSchema)]

/-- The target of a self call, of a named definition and of an inline one. -/
def targetSchemas : List Value :=
  [objectSchema ["kind"] [("kind", constSchema (.string "self_call"))],
    objectSchema ["kind", "value"] [("kind", constSchema (.string "named")), ("value", keySchema)],
    objectSchema ["kind", "value"] [("kind", constSchema (.string "inline")), ("value", definitionSchema)]]

/-- `input_schema`. -/
def inputSchema : Value :=
  objectSchema ["children", "parallel"] [
    ("parallel", typeSchema "boolean"),
    ("children", .object [("type", .string "array"), ("minItems", .nat 1), ("maxItems", .nat 8),
      ("items", objectSchema ["target", "input", "permissions"] [
        ("input", typeSchema "string"), ("permissions", permissionsSchema),
        ("target", .object [("oneOf", .array targetSchemas)])])])]

end Template

/-! ### Admitted definitions -/

section Discovery

variable {sha256 : Value → String} (catalog : AgentCatalog) (parent : AgentSnapshot sha256) (host : AgentPermissions)

/-- One round of the loop of `admitted_named_definitions`. -/
def AgentCatalog.admitNamed (definitions : List AgentDefinition) (key : AgentKey) : Except AgentError (List AgentDefinition) :=
  if catalog.definitions.contains key then
    match catalog.childDefinitionCeiling parent (.named key) host with
    | .ok (definition, _) => .ok (definitions ++ [definition])
    | .error .permissionDenied => .ok definitions
    | .error error => .error error
  else .ok definitions

/-- `AgentCatalog::admitted_named_definitions`. -/
def AgentCatalog.admittedNamedDefinitions : Except AgentError (List AgentDefinition) := do
  let authority ← parent.permissions.intersection host
  authority.delegation.namedTargets.toList.foldlM (catalog.admitNamed parent host) []

end Discovery

namespace Advertisement

/-! ### The branches -/

/-- The description of the target of a branch. -/
def targetDescription : Value :=
  .string "The Agent invoked by this call. This target does not grant the child permission to invoke the same target later."

/-- An array of some of the given values, or the empty one where there is none. -/
def narrowItems (schema : Value) (description : String) (path : List String) (values : List Value) : Value :=
  let schema := schema.setAt (path ++ ["description"]) (.string description)
  if values.isEmpty then
    ((schema.setAt (path ++ ["items"]) (.bool false)).setAt (path ++ ["maxItems"]) (.nat 0)).setAt (path ++ ["examples"])
      (.array [.array []])
  else schema.setAt (path ++ ["items"]) (.object [("enum", .array values)])

/-- A switch that is off where it is not allowed. -/
def narrowSwitch (schema : Value) (path : List String) (allowed : Bool) : Value :=
  if allowed then schema else schema.setAt path (.object [("type", .string "boolean"), ("const", .bool false)])

/-- What `child` makes of the permissions. -/
def narrowPermissions (permissions : Value) (ceiling : AgentPermissions) (named : List AgentDefinition) : Value :=
  let permissions := permissions.setAt ["description"] (.string "Requested ceiling for this child and its descendants, bounded by the advertised target ceiling. Descendants cannot regain omitted tools. If an intermediate child must not read itself but must delegate reading, retain file.read here and express the no-direct-read task in its input.")
  let permissions := narrowItems permissions
    "Environment tools available to the child and as an upper bound for its descendants. agent.invoke is not an environment tool; delegation is configured separately. Use [] for no tools, never an empty string."
    ["properties", "tools"] (ceiling.tools.toList.map fun tool => .string tool.name)
  let keys := (named.map AgentDefinition.key).filter fun key => ceiling.delegation.namedTargets.contains key
  let delegation := ["properties", "delegation", "properties"]
  let permissions := narrowItems permissions
    "Exact named revisions this child may invoke later, not the target of this call. Choose only advertised entries. Use [] for no named delegation, never an empty string; do not copy the current target unless independently allowed here."
    (delegation ++ ["named_targets"]) (keys.map AgentKey.toValue)
  let permissions := narrowSwitch permissions (delegation ++ ["allow_self"]) ceiling.delegation.allowSelf
  let permissions := narrowSwitch permissions (delegation ++ ["allow_inline"]) ceiling.delegation.allowInline
  let permissions := permissions.setAt (delegation ++ ["allow_self", "description"]) (.string
    "Whether this child may invoke its own saved definition later. false removes that authority; true is allowed only within the advertised ceiling.")
  permissions.setAt (delegation ++ ["allow_inline", "description"]) (.string
    "Whether this child may invoke inline Agent definitions later. false removes that authority; true is allowed only within the advertised ceiling.")

/-- What `child` makes of the target. -/
def withTarget (template target : Value) : Value :=
  let branch := (template.setAt ["properties", "target"] target).setAt ["properties", "target", "description"] targetDescription
  if branch.getAt ["properties", "target", "properties", "kind", "const"] = .string "inline" then
    branch.setAt ["properties", "target", "properties", "value", "description"] (.string
      "An immutable Agent definition with a static permission ceiling, not an execution grant. The separate child permissions select this invocation's effective authority.")
  else branch

/-- `child`. -/
def child (template target : Value) (ceiling : AgentPermissions) (named : List AgentDefinition) : Value :=
  let branch := withTarget template target
  branch.setAt ["properties", "permissions"] (narrowPermissions (branch.getAt ["properties", "permissions"]) ceiling named)

/-! ### The definition of the tool -/

section Definition

variable {sha256 : Value → String} (catalog : AgentCatalog) (parent : AgentSnapshot sha256) (host : AgentPermissions)

/-- The target of a named definition: its key and no other. -/
def namedTarget (target : Value) (key : AgentKey) : Value :=
  target.setAt ["properties", "value"] (.object [("type", .string "object"), ("additionalProperties", .bool false),
    ("required", .list .string ["definition_id", "revision"]), ("properties", .object [
      ("definition_id", constSchema (.string key.definitionId)), ("revision", constSchema (.string key.revision))])])

/-- The branch of a named definition. -/
def namedBranch (template target : Value) (authority : AgentPermissions) (named : List AgentDefinition)
    (definition : AgentDefinition) : Except AgentError Value := do
  let ceiling ← authority.intersection definition.permissions
  return child template (namedTarget target definition.key) ceiling named

/-- The branch of the self call, where it is allowed. -/
def selfBranch (template target : Value) (parent : AgentDefinition) (authority : AgentPermissions) (named : List AgentDefinition) :
    Except AgentError (List Value) :=
  if authority.delegation.allowSelf then do
    let ceiling ← authority.intersection parent.permissions
    return [child template target ceiling named]
  else .ok []

/-- The branches, each for one kind of target. -/
def branches (template : Value) (targets : Value × Value × Value) (parent : AgentDefinition) (authority : AgentPermissions)
    (named : List AgentDefinition) : Except AgentError (List Value) := do
  let self ← selfBranch template targets.1 parent authority named
  let others ← named.mapM (namedBranch template targets.2.1 authority named)
  let inline := if authority.delegation.allowInline then [child template targets.2.2 authority named] else []
  return self ++ others ++ inline

/-- `definition`. -/
def definition : Except AgentError (Option Requests.ToolDefinition) := do
  let authority ← parent.permissions.intersection host
  let named ← catalog.admittedNamedDefinitions parent host
  let template := inputSchema.getAt ["properties", "children", "items"]
  let targets := (template.getAt ["properties", "target", "oneOf"]).items
  let target := fun n => targets.getD n .null
  let children ← branches template (target 0, target 1, target 2) parent.definition authority named
  if children = [] then return none
  else
    let input := inputSchema.setAt ["properties", "parallel", "description"] (.string
      "A scheduling request, not a concurrency grant. The host enforces resource safety and its concurrency budget.")
    let input := input.setAt ["properties", "children", "items"] (.object [("oneOf", .array children)])
    return some {
      name := agentInvokeName
      description := some "Invoke only the advertised exact named revisions or admitted inline/self targets; select child permissions within their advertised ceilings. Await durable child results."
      inputSchema := input }

end Definition

end Advertisement

end Agent
end Kolyan
