/-
# The request planner

`crates/kolyan-model/src/planning.rs` and `planning/rules.rs`: a table of rules for
the parameters of a request, with the overrides of each model.  `plan` goes over the
parameters that the request provides and those that the effective rules know, in
order, and decides for each whether it is sent, defaulted, mapped or left out.
Whether a schema compiles and what it accepts is a parameter (`Validator`).
-/

import Kolyan.Requests.Types
import Kolyan.Lib.Checks
import Kolyan.Lib.OrderedMaps

namespace Kolyan
namespace Requests

open Checks

/-- `jsonschema`: what a schema accepts, if it compiles. -/
abbrev Validator := Value → Option (Value → Bool)

/-- `PARAMETERS`. -/
def parameterNames : List String :=
  ["reasoning.effort", "reasoning.budget_tokens", "prompt_cache.key", "prompt_cache.retention",
    "prompt_cache.breakpoints", "max_output_tokens", "tool_choice"]

/-- `ParameterSupport`. -/
inductive ParameterSupport where
  | supported | unsupported | unknown
  deriving DecidableEq

/-- `ParameterConstraints`. -/
structure ParameterConstraints where
  requiredMaxTools : Option ℕ

/-- `ParameterRule`. -/
structure ParameterRule where
  support : ParameterSupport
  constraints : ParameterConstraints
  schema : Value
  default : Option Value
  omittable : Bool
  wireName : Option String

/-- `BTreeMap<String, ParameterRule>`. -/
abbrev ParameterRules := Std.ExtTreeMap String ParameterRule

/-- `ModelParameterOverrides`. -/
structure ModelParameterOverrides where
  features : Option (List ModelFeature)
  parameters : ParameterRules

/-- `ParameterTable`. -/
structure ParameterTable where
  provider : String
  protocol : String
  features : List ModelFeature
  defaults : ParameterRules
  models : Std.ExtTreeMap String ModelParameterOverrides

/-- `ParameterAction`. -/
inductive ParameterAction where
  | sent | defaulted | omittedUnsupported | omittedUnknown | mappedToAuto
  deriving DecidableEq

/-- `ParameterDecision`. -/
structure ParameterDecision where
  parameter : String
  action : ParameterAction
  deriving DecidableEq

/-- `PlannedRequest`. -/
structure PlannedRequest where
  request : ModelRequest
  wireExtensions : Std.ExtTreeMap String Value
  decisions : List ParameterDecision
  deriving DecidableEq

/-- `strip_prefix`. -/
def stripStart (start text : String) : Option String :=
  if start.toList.isPrefixOf text.toList then some (String.ofList (text.toList.drop start.toList.length)) else none

/-- The start of the key of an extension. -/
def extensionStart : String := "extensions."

/-- `key.strip_prefix("extensions.")`. -/
def extensionKey (key : String) : Option String := stripStart extensionStart key

/-- `split_once('.')`. -/
def splitDot (text : String) : Option (String × String) :=
  let rest := text.toList.dropWhile (· ≠ '.')
  if rest = [] then none else some (String.ofList (text.toList.takeWhile (· ≠ '.')), String.ofList (rest.drop 1))

/-- `extend`: what is in the second map goes before. -/
def extend (defaults overrides : ParameterRules) : ParameterRules :=
  overrides.toList.foldl (fun rules entry => rules.insert entry.1 entry.2) defaults

section Rules

variable (validator : Validator)

/-- `validate_value`. -/
def validateValue (schema value : Value) (key : String) : Except ProviderError Unit := do
  let accepts ← expect (validator schema) (invalid "invalid parameter schema")
  reject (accepts value = false) (invalid ("parameter violates configured schema: " ++ key))

/-- A character of a wire name. -/
def isWireCharacter (c : Char) : Bool := c.isAlphanum || c = '_'

/-- The bound on the tools of a required choice. -/
def checkConstraint (key : String) (rule : ParameterRule) : Except ProviderError Unit :=
  match rule.constraints.requiredMaxTools with
  | some limit =>
    reject (key ≠ "tool_choice" ∨ limit = 0 ∨ rule.support ≠ .supported ∨
        (validateValue validator rule.schema (.string "required") key).isOk = false)
      (invalid "invalid required tool-count constraint")
  | none => .ok ()

/-- The name of a rule and what it binds. -/
def checkBinding (reserved : List String) (key : String) (rule : ParameterRule) : Except ProviderError Unit :=
  match extensionKey key with
  | some extension => do
    let (space, name) ← expect (splitDot extension) (invalid "extension requires a namespace and name")
    let wire ← expect rule.wireName (invalid "extension requires wire_name")
    reject (space = "" ∨ name = "" ∨ wire = "" ∨ wire.toList.all isWireCharacter = false ∨ wire ∈ reserved)
      (invalid "invalid or reserved extension binding")
  | none =>
    reject (key ∉ parameterNames ∨ rule.wireName.isSome) (invalid "unrecognized neutral parameter or binding")

/-- The schema of a rule, and its default. -/
def checkSchema (key : String) (rule : ParameterRule) : Except ProviderError Unit := do
  let _ ← expect (validator rule.schema) (invalid "invalid parameter schema")
  match rule.default with
  | some default => validateValue validator rule.schema default key
  | none => return ()

/-- One rule in the first loop of `validate`. -/
def validateRule (reserved : List String) (key : String) (rule : ParameterRule) : Except ProviderError Unit := do
  checkConstraint validator key rule
  checkBinding reserved key rule
  checkSchema validator key rule

/-- The feature that a parameter needs. -/
def neededFeature (key : String) : Option ModelFeature :=
  if (stripStart "reasoning." key).isSome then some .reasoning
  else if (stripStart "prompt_cache." key).isSome then some .promptCaching
  else none

/-- The rules of a table for a model. -/
def ParameterTable.effective (table : ParameterTable) (model : ModelParameterOverrides) : ParameterRules :=
  extend table.defaults model.parameters

/-- The features of a table for a model. -/
def ParameterTable.featuresOf (table : ParameterTable) (model : ModelParameterOverrides) : List ModelFeature :=
  model.features.getD table.features

/-- The names that the supported rules bind. -/
def boundNames (rules : ParameterRules) : List String :=
  rules.toList.filterMap fun entry => if entry.2.support = .supported then entry.2.wireName else none

/-- One model in the second loop of `validate`. -/
def validateModel (table : ParameterTable) (name : String) (model : ModelParameterOverrides) :
    Except ProviderError Unit := do
  reject (name = "") (invalid "model identity cannot be empty")
  forEach (fun entry : String × ParameterRule =>
      reject (entry.2.support = .supported ∧ (neededFeature entry.1).any fun feature =>
          !(table.featuresOf model).contains feature)
        (invalid "supported parameter conflicts with model features"))
    (table.effective model).toList
  reject (¬(boundNames (table.effective model)).Nodup) (invalid "duplicate extension wire binding")

/-- `rules::validate`. -/
def ParameterTable.validate (table : ParameterTable) (protocol : String) (reserved : List String) :
    Except ProviderError Unit := do
  reject (table.provider = "" ∨ table.protocol ≠ protocol ∨ table.models.isEmpty)
    (invalid "invalid parameter table identity, protocol or model registry")
  forEach (fun entry : String × ParameterRule => validateRule validator reserved entry.1 entry.2)
    (table.defaults.toList ++ table.models.toList.flatMap fun entry => entry.2.parameters.toList)
  forEach (fun entry : String × ModelParameterOverrides => validateModel table entry.1 entry.2) table.models.toList

end Rules

/-- `RequestPlanner`: a table that is validated for some protocol and reserved names. -/
structure RequestPlanner (validator : Validator) (protocol : String) (reserved : List String) where
  table : ParameterTable
  valid : table.validate validator protocol reserved = .ok ()

/-- `RequestPlanner::new`. -/
def RequestPlanner.new (validator : Validator) (table : ParameterTable) (protocol : String) (reserved : List String) :
    Except ProviderError (RequestPlanner validator protocol reserved) :=
  match h : table.validate validator protocol reserved with
  | .ok () => .ok ⟨table, h⟩
  | .error error => .error error

section Parameters

/-- The features that a content block needs. -/
def blockFeature : ContentBlock → Option ModelFeature
  | .image _ => some .imageInput
  | .document _ _ => some .documentInput
  | .toolCall _ | .toolResult _ => some .toolUse
  | .text _ | .reasoning _ _ => none

/-- The features that a request needs. -/
def requiredFeatures (request : ModelRequest) : List ModelFeature :=
  [.streaming, .textInput, .textOutput] ++
    (if request.outputFormat.isSome then [.structuredOutput] else []) ++
    (if request.tools ≠ [] ∨ request.toolChoice.asksForTool = true then [.toolUse] else []) ++
    (request.messages.flatMap (·.content)).filterMap blockFeature

/-- `check_features`. -/
def checkFeatures (request : ModelRequest) (features : List ModelFeature) : Except ProviderError Unit :=
  match (requiredFeatures request).find? fun feature => !features.contains feature with
  | some feature => .error (unsupported ("required model feature unavailable: " ++ feature.text))
  | none => .ok ()

/-- A neutral parameter in the encoding of a request; one that is absent is null. -/
def ModelRequest.parameter (request : ModelRequest) : String → Value
  | "reasoning.effort" => .option .string (request.reasoning.bind (·.effort))
  | "reasoning.budget_tokens" => .option numberValue (request.reasoning.bind (·.budgetTokens))
  | "prompt_cache.key" => .option .string (request.promptCache.bind (·.key))
  | "prompt_cache.retention" => .option CacheRetention.toValue (request.promptCache.bind (·.retention))
  | "prompt_cache.breakpoints" => .option (.list CacheBreakpoint.toValue) (request.promptCache.map (·.breakpoints))
  | "max_output_tokens" => .option numberValue request.maxOutputTokens
  | "tool_choice" => request.toolChoice.toValue
  | _ => .null

/-- The extensions of a request, as parameters. -/
def ModelRequest.extensionParameters (request : ModelRequest) : Except ProviderError (List (String × Value)) :=
  match request.extensions with
  | .object fields => .ok (fields.toList.map fun entry => (extensionStart ++ entry.1, entry.2))
  | .null => .ok []
  | .other _ => .error (invalid "extensions must be a namespaced object")

/-- `parameters`. -/
def ModelRequest.parameters (request : ModelRequest) : Except ProviderError (Std.ExtTreeMap String Value) := do
  let extensions ← request.extensionParameters
  let neutral := parameterNames.map fun key => (key, request.parameter key)
  return (neutral ++ extensions).foldl (fun inputs entry => inputs.insert entry.1 entry.2) ∅

/-- The inputs of a plan: a rule for what is not provided adds a null. -/
def addRules (rules : ParameterRules) (inputs : Std.ExtTreeMap String Value) : Std.ExtTreeMap String Value :=
  rules.toList.foldl (fun inputs entry => inputs.insertIfNew entry.1 .null) inputs

end Parameters

section Plans

/-- What becomes of a parameter. -/
inductive Planned where
  | skipped
  | omitted (action : ParameterAction)
  | kept (action : ParameterAction) (value : Value)

variable (validator : Validator) (original : ModelRequest) (rules : ParameterRules)

/-- A required tool choice that the supported rule does not take as it is. -/
def needsAuto (rule : ParameterRule) (key : String) (input : Value) : Bool :=
  rule.support = .supported && ((validateValue validator rule.schema input key).isOk = false ||
    rule.constraints.requiredMaxTools.any fun limit => original.tools.length > limit)

/-- Whether a request provides a parameter. -/
def ModelRequest.provides (key : String) (input : Value) : Bool :=
  input ≠ .null || (extensionKey key).any fun name => (original.extensions.get name).isSome

/-- A parameter that is not known to be supported. -/
def leaveOut (rule : Option ParameterRule) (key : String) (support : ParameterSupport) :
    Except ProviderError Planned := do
  let compatibleChoice : Bool := key = "tool_choice" && original.toolChoice = .required
  reject (compatibleChoice = true ∧ support = .unknown)
    (unsupported "required tool_choice support is unknown; declare model capability")
  reject (rule.any (!·.omittable) = true ∨
      (key = "tool_choice" ∧ original.toolChoice ≠ .auto ∧ compatibleChoice = false))
    (unsupported ("required parameter unavailable: " ++ key))
  return .omitted (if support = .unsupported then .omittedUnsupported else .omittedUnknown)

/-- A parameter whose input is settled. -/
def planInput (rule : Option ParameterRule) (key : String) (input : Value) (mappedToAuto : Bool) :
    Except ProviderError Planned :=
  let provided := original.provides key input
  let support : ParameterSupport := (rule.map (·.support)).getD .unknown
  let default : Option Value := rule.bind (·.default)
  if (extensionKey key).isSome ∧ rule = none then .error (invalid "unregistered extension parameter")
  else if provided = false ∧ (support ≠ .supported ∨ default = none) then .ok .skipped
  else if support ≠ .supported then leaveOut original rule key support
  else do
    let rule ← expect rule (invalid "supported status requires a rule")
    let action := if mappedToAuto then ParameterAction.mappedToAuto
      else if provided then .sent else .defaulted
    let value := if provided then input else default.getD .null
    validateValue validator rule.schema value key
    return .kept action value

/-- One parameter in the loop of `plan`. -/
def planParameter (key : String) (input : Value) : Except ProviderError Planned :=
  let rule := rules[key]?
  match rule with
  | some found =>
    if key = "tool_choice" ∧ original.toolChoice = .required ∧ needsAuto validator original found key input = true then
      if (validateValue validator found.schema (.string "auto") key).isOk then
        planInput validator original rule key (.string "auto") true
      else if found.omittable then .ok (.omitted .omittedUnsupported)
      else .error (unsupported "no supported tool_choice value; omission forbidden")
    else planInput validator original rule key input false
  | none => planInput validator original rule key input false

/-- The variables of the loop of `plan`. -/
structure Planning where
  values : Std.ExtTreeMap String Value
  wireExtensions : Std.ExtTreeMap String Value
  decisions : List ParameterDecision

/-- What the loop does with the outcome of a parameter. -/
def Planning.record (planning : Planning) (key : String) : Planned → Planning
  | .skipped => planning
  | .omitted action => { planning with decisions := planning.decisions ++ [⟨key, action⟩] }
  | .kept action value =>
    { values := planning.values.insert key value
      wireExtensions := match (extensionKey key).bind fun _ => (rules[key]?).bind (·.wireName) with
        | some wire => planning.wireExtensions.insert wire value
        | none => planning.wireExtensions
      decisions := planning.decisions ++ [⟨key, action⟩] }

/-- The loop of `plan`. -/
def planAll (planning : Planning) : List (String × Value) → Except ProviderError Planning
  | [] => .ok planning
  | (key, input) :: rest => do
    let planned ← planParameter validator original rules key input
    planAll (planning.record rules key planned) rest

/-- `take`. -/
def take {α : Type} (read : Value → Option α) (values : Std.ExtTreeMap String Value) (key : String) :
    Except ProviderError (Option α) :=
  match values[key]? with
  | some value => do
    let a ← expect (read value) (invalid ("invalid neutral parameter type: " ++ key))
    return some a
  | none => .ok none

/-- The extensions among the values. -/
def extensionValues (values : Std.ExtTreeMap String Value) : Std.ExtTreeMap String Value :=
  values.toList.foldl (fun fields entry => match extensionKey entry.1 with
    | some name => fields.insert name entry.2
    | none => fields) ∅

/-- The request of the values that are kept. -/
def rebuild (values : Std.ExtTreeMap String Value) : Except ProviderError ModelRequest := do
  let effort ← take readString values "reasoning.effort"
  let budgetTokens ← take readNumber values "reasoning.budget_tokens"
  let key ← take readString values "prompt_cache.key"
  let retention ← take readRetention values "prompt_cache.retention"
  let breakpoints ← take readBreakpoints values "prompt_cache.breakpoints"
  let maxOutputTokens ← take readNumber values "max_output_tokens"
  let toolChoice ← take readToolChoice values "tool_choice"
  return { original with
    reasoning := if effort.isSome ∨ budgetTokens.isSome then some { effort, budgetTokens } else none
    promptCache := if key.isSome ∨ retention.isSome ∨ breakpoints.getD [] ≠ []
      then some { key, retention, breakpoints := breakpoints.getD [] } else none
    maxOutputTokens
    toolChoice := toolChoice.getD .auto
    extensions := .object (extensionValues values) }

variable {validator} {protocol : String} {reserved : List String} (planner : RequestPlanner validator protocol reserved)

/-- `RequestPlanner::plan`. -/
def RequestPlanner.plan : Except ProviderError PlannedRequest := do
  reject (original.model.provider ≠ planner.table.provider) (invalid "request provider does not match parameter table")
  let model ← expect planner.table.models[original.model.model]?
    (unsupported "model is not registered in parameter table")
  checkFeatures original (planner.table.featuresOf model)
  let rules := planner.table.effective model
  let inputs ← original.parameters
  let planning ← planAll validator original rules ⟨∅, ∅, []⟩ (addRules rules inputs).toList
  let request ← rebuild original planning.values
  return { request, wireExtensions := planning.wireExtensions, decisions := planning.decisions }

end Plans

end Requests
end Kolyan
