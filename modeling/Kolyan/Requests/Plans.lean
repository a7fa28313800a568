/-
# What a plan makes of a request

A parameter of a request has a value or is absent (`value?`).  The loop of `plan`
decides each parameter by itself (`Planned.Meets`): one that the request provides is
sent, mapped or left out, one that it does not provide is defaulted by a supported
rule or not decided at all.  The request that `plan` answers with is read back from
the values that were kept (`settled_rebuild`), so each decision says what became of
its parameter, and the extensions that were kept are what goes on the wire.
-/

import Kolyan.Requests.Rules

namespace Kolyan
namespace Requests

open Checks OrderedMaps

section Reading

/-- A value that is not null. -/
def present (value : Value) : Option Value := if value = .null then none else some value

/-- `read` reads what `write` writes, and nothing from a null. -/
structure Reads {α : Type} (read : Value → Option α) (write : α → Value) : Prop where
  read_write : ∀ a, read (write a) = some a
  read_null : read .null = none

variable {α : Type} {read : Value → Option α} {write : α → Value}

theorem reads_string : Reads readString .string := ⟨fun _ => rfl, rfl⟩

theorem reads_number : Reads readNumber numberValue := ⟨readNumber_numberValue, rfl⟩

theorem reads_retention : Reads readRetention CacheRetention.toValue := ⟨readRetention_toValue, rfl⟩

theorem reads_breakpoints : Reads readBreakpoints (.list CacheBreakpoint.toValue) := ⟨readBreakpoints_toValue, rfl⟩

theorem reads_toolChoice : Reads readToolChoice ToolChoice.toValue := ⟨readToolChoice_toValue, rfl⟩

theorem Reads.write_ne_null (h : Reads read write) (a : α) : write a ≠ .null := fun hnull => by
  have := h.read_write a
  rw [hnull, h.read_null] at this
  exact nomatch this

theorem Reads.present_option (h : Reads read write) (o : Option α) : present (.option write o) = o.map write := by
  cases o with
  | none => rfl
  | some a => exact if_neg (h.write_ne_null a)

theorem Reads.read_of_present (h : Reads read write) {o : Option α} {value : Value}
    (hvalue : present (.option write o) = some value) : (read value).map write = some value := by
  rw [h.present_option] at hvalue
  obtain ⟨a, rfl, rfl⟩ := Option.map_eq_some_iff.1 hvalue
  rw [h.read_write, Option.map_some]

theorem take_eq_ok {values : Std.ExtTreeMap String Value} {key : String} {o : Option α}
    (h : take read values key = .ok o) :
    o = values[key]?.bind read ∧ ∀ v : Value, values[key]? = some v → (read v).isSome = true := by
  unfold take at h
  split at h
  · rename_i value hvalue
    simp only [bind_eq_ok, expect_eq_ok, pure_eq_ok] at h
    obtain ⟨a, ha, rfl⟩ := h
    rw [hvalue, Option.bind_some, ha]
    refine ⟨rfl, fun v hv => ?_⟩
    rw [← Option.some.inj hv, ha, Option.isSome_some]
  · rename_i hvalue
    obtain rfl := Except.ok.inj h
    rw [hvalue]
    exact ⟨rfl, fun v hv => by cases hv⟩

end Reading

section Values

/-- A parameter of a request, if it is there. -/
def ModelRequest.value? (request : ModelRequest) (key : String) : Option Value :=
  match extensionKey key with
  | some name => request.extensions.get name
  | none => present (request.parameter key)

/-- A parameter that is not there: no breakpoints, and the choice of the model. -/
def absent : String → Option Value
  | "tool_choice" => some ToolChoice.auto.toValue
  | "prompt_cache.breakpoints" => some (.list CacheBreakpoint.toValue [])
  | _ => none

/-- A parameter of a request, or what stands for it when it is not there. -/
def ModelRequest.settled (request : ModelRequest) (key : String) : Option Value :=
  (request.value? key).or (absent key)

/-- What a value is read as under a parameter. -/
def reading (key : String) (value : Value) : Option Value :=
  match key with
  | "reasoning.effort" => (readString value).map .string
  | "reasoning.budget_tokens" => (readNumber value).map numberValue
  | "prompt_cache.key" => (readString value).map .string
  | "prompt_cache.retention" => (readRetention value).map CacheRetention.toValue
  | "prompt_cache.breakpoints" => (readBreakpoints value).map (.list CacheBreakpoint.toValue)
  | "max_output_tokens" => (readNumber value).map numberValue
  | "tool_choice" => (readToolChoice value).map ToolChoice.toValue
  | _ => some value

variable {request original : ModelRequest} {key : String}

theorem value?_of_mem (h : key ∈ parameterNames) : request.value? key = present (request.parameter key) := by
  unfold ModelRequest.value?
  rw [extensionKey_of_mem h]

theorem value?_extension (name : String) : request.value? (extensionStart ++ name) = request.extensions.get name := by
  unfold ModelRequest.value?
  rw [extensionKey_append]

theorem reading_of_notMem (h : key ∉ parameterNames) (value : Value) : reading key value = some value := by
  unfold reading
  split <;> first | rfl | exact absurd (by decide) h

theorem absent_of_notMem (h : key ∉ parameterNames) : absent key = none := by
  unfold absent
  split <;> first | rfl | exact absurd (by decide) h

theorem reading_value {value : Value} (h : request.value? key = some value) : reading key value = some value := by
  by_cases hkey : key ∈ parameterNames
  · rw [value?_of_mem hkey] at h
    simp only [parameterNames, List.mem_cons, List.not_mem_nil, or_false] at hkey
    rcases hkey with rfl | rfl | rfl | rfl | rfl | rfl | rfl
    · exact reads_string.read_of_present h
    · exact reads_number.read_of_present h
    · exact reads_string.read_of_present h
    · exact reads_retention.read_of_present h
    · exact reads_breakpoints.read_of_present h
    · exact reads_number.read_of_present h
    · exact reads_toolChoice.read_of_present (o := some request.toolChoice) h
  · exact reading_of_notMem hkey value

end Values

section Rebuild

variable {original request : ModelRequest} {values : Std.ExtTreeMap String Value}

/-- The extensions among entries, under their names. -/
def extensionEntry (entry : String × Value) : Option (String × Value) :=
  (extensionKey entry.1).map fun name => (name, entry.2)

theorem extensionEntry_eq_some {entry : String × Value} {name : String} {value : Value} :
    extensionEntry entry = some (name, value) ↔ entry = (extensionStart ++ name, value) := by
  obtain ⟨key, v⟩ := entry
  simp only [extensionEntry, Option.map_eq_some_iff, extensionKey_eq_some, Prod.mk.injEq]
  exact ⟨fun ⟨_, hkey, hname, hv⟩ => ⟨hname ▸ hkey, hv⟩, fun ⟨hkey, hv⟩ => ⟨name, hkey, rfl, hv⟩⟩

theorem extensionValues_eq_foldl : extensionValues values =
    (values.toList.filterMap extensionEntry).foldl (fun fields entry => fields.insert entry.1 entry.2) ∅ := by
  rw [List.foldl_filterMap, extensionValues]
  congr 1
  funext fields entry
  cases h : extensionKey entry.1 <;> simp [extensionEntry, h]

theorem getElem?_extensionValues (name : String) :
    (extensionValues values)[name]? = values[extensionStart ++ name]? := by
  rw [extensionValues_eq_foldl]
  cases hvalue : values[extensionStart ++ name]? with
  | some value =>
    refine getElem?_foldl_insert_of_mem ?_ ?_
    · refine List.pairwise_filterMap.2 (pairwise_ne_toList.imp fun {e e'} hne b hb b' hb' heq => hne ?_)
      rw [extensionEntry_eq_some.1 hb, extensionEntry_eq_some.1 hb', heq]
    · exact List.mem_filterMap.2 ⟨(extensionStart ++ name, value),
        Std.ExtTreeMap.mem_toList_iff_getElem?_eq_some.2 hvalue, extensionEntry_eq_some.2 rfl⟩
  | none =>
    refine (getElem?_foldl_insert_of_notMem ?_).trans Std.ExtTreeMap.getElem?_empty
    rintro ⟨_, value⟩ hentry rfl
    obtain ⟨entry, hmem, hentry⟩ := List.mem_filterMap.1 hentry
    rw [extensionEntry_eq_some.1 hentry, Std.ExtTreeMap.mem_toList_iff_getElem?_eq_some, hvalue] at hmem
    exact nomatch hmem

theorem map_taken {α : Type} {read : Value → Option α} {write : α → Value} {key : String} {o : Option α}
    (htake : take read values key = .ok o) (hreading : ∀ v, reading key v = (read v).map write) :
    o.map write = values[key]?.bind (reading key) ∧
      ∀ v : Value, values[key]? = some v → (reading key v).isSome = true := by
  obtain ⟨rfl, hread⟩ := take_eq_ok htake
  refine ⟨?_, fun v hv => ?_⟩
  · rw [Option.map_bind]
    exact congrArg _ (funext fun v => (hreading v).symm)
  · rw [hreading, Option.isSome_map]
    exact hread v hv

theorem bind_reasoning (effort : Option String) (budgetTokens : Option UInt32) :
    (if effort.isSome ∨ budgetTokens.isSome then some (ReasoningConfig.mk effort budgetTokens) else none).bind
        (·.effort) = effort ∧
      (if effort.isSome ∨ budgetTokens.isSome then some (ReasoningConfig.mk effort budgetTokens) else none).bind
        (·.budgetTokens) = budgetTokens := by
  cases effort <;> cases budgetTokens <;> exact ⟨rfl, rfl⟩

/-- The parts of the cache that is rebuilt; only breakpoints that are empty get lost. -/
theorem bind_promptCache (key : Option String) (retention : Option CacheRetention) (bs : List CacheBreakpoint) :
    (if key.isSome ∨ retention.isSome ∨ bs ≠ [] then some (PromptCacheConfig.mk key retention bs) else none).bind
        (·.key) = key ∧
      (if key.isSome ∨ retention.isSome ∨ bs ≠ [] then some (PromptCacheConfig.mk key retention bs) else none).bind
        (·.retention) = retention ∧
      ((if key.isSome ∨ retention.isSome ∨ bs ≠ [] then some (PromptCacheConfig.mk key retention bs) else none).map
        (·.breakpoints)).getD [] = bs := by
  cases key <;> cases retention <;> cases bs <;> exact ⟨rfl, rfl, rfl⟩

theorem or_breakpoints (o : Option (List CacheBreakpoint)) :
    (o.map (Value.list CacheBreakpoint.toValue)).or (absent "prompt_cache.breakpoints") =
      some (.list CacheBreakpoint.toValue (o.getD [])) := by
  cases o <;> rfl

/-- **The request that is rebuilt has the values that were kept**, as they are read,
and nothing under the other parameters. -/
theorem settled_rebuild (h : rebuild original values = .ok request) {key : String}
    (hkey : key ∈ parameterNames ∨ (extensionKey key).isSome = true) :
    request.settled key = (values[key]?.bind (reading key)).or (absent key) ∧
      ∀ v : Value, values[key]? = some v → (reading key v).isSome = true := by
  simp only [rebuild, bind_eq_ok, pure_eq_ok] at h
  obtain ⟨effort, heffort, budgetTokens, hbudget, cacheKey, hcacheKey, retention, hretention, breakpoints,
    hbreakpoints, maxOutputTokens, hmax, toolChoice, htoolChoice, rfl⟩ := h
  rcases hkey with hkey | hkey
  · rw [ModelRequest.settled, value?_of_mem hkey]
    simp only [parameterNames, List.mem_cons, List.not_mem_nil, or_false] at hkey
    obtain ⟨hcache, hkeep, hpoints⟩ := bind_promptCache cacheKey retention (breakpoints.getD [])
    rcases hkey with rfl | rfl | rfl | rfl | rfl | rfl | rfl
    · obtain ⟨hsame, hread⟩ := map_taken heffort fun _ => rfl
      refine ⟨congrArg (Option.or · _) ?_, hread⟩
      rw [← hsame, ← reads_string.present_option]
      exact congrArg (fun o => present (.option .string o)) (bind_reasoning effort budgetTokens).1
    · obtain ⟨hsame, hread⟩ := map_taken hbudget fun _ => rfl
      refine ⟨congrArg (Option.or · _) ?_, hread⟩
      rw [← hsame, ← reads_number.present_option]
      exact congrArg (fun o => present (.option numberValue o)) (bind_reasoning effort budgetTokens).2
    · obtain ⟨hsame, hread⟩ := map_taken hcacheKey fun _ => rfl
      refine ⟨congrArg (Option.or · _) ?_, hread⟩
      rw [← hsame, ← reads_string.present_option]
      exact congrArg (fun o => present (.option .string o)) hcache
    · obtain ⟨hsame, hread⟩ := map_taken hretention fun _ => rfl
      refine ⟨congrArg (Option.or · _) ?_, hread⟩
      rw [← hsame, ← reads_retention.present_option]
      exact congrArg (fun o => present (.option CacheRetention.toValue o)) hkeep
    · obtain ⟨hsame, hread⟩ := map_taken hbreakpoints fun _ => rfl
      refine ⟨?_, hread⟩
      rw [← hsame, or_breakpoints breakpoints]
      refine (congrArg (Option.or · _) (reads_breakpoints.present_option _)).trans ((or_breakpoints _).trans ?_)
      exact congrArg (fun bs => some (Value.list CacheBreakpoint.toValue bs)) hpoints
    · obtain ⟨hsame, hread⟩ := map_taken hmax fun _ => rfl
      refine ⟨congrArg (Option.or · _) ?_, hread⟩
      rw [← hsame, ← reads_number.present_option]
      rfl
    · obtain ⟨hsame, hread⟩ := map_taken htoolChoice fun _ => rfl
      refine ⟨?_, hread⟩
      rw [← hsame]
      cases toolChoice with
      | none => rfl
      | some choice => exact congrArg (Option.or · _) (reads_toolChoice.present_option (some choice))
  · obtain ⟨name, hname⟩ := Option.isSome_iff_exists.1 hkey
    obtain rfl := extensionKey_eq_some.1 hname
    have hnotMem : extensionStart ++ name ∉ parameterNames := fun hmem => by
      rw [extensionKey_of_mem hmem] at hname
      exact nomatch hname
    rw [ModelRequest.settled, value?_extension, absent_of_notMem hnotMem, Option.or_none, Option.or_none]
    refine ⟨?_, fun v _ => by rw [reading_of_notMem hnotMem, Option.isSome_some]⟩
    rw [funext (reading_of_notMem hnotMem), Option.bind_fun_some]
    exact getElem?_extensionValues name

end Rebuild

section Inputs

variable {request : ModelRequest} {rules : ParameterRules} {inputs : Std.ExtTreeMap String Value}

theorem extensionParameters_eq_ok {entries : List (String × Value)} (h : request.extensionParameters = .ok entries) :
    (entries.Pairwise fun e e' => e.1 ≠ e'.1) ∧
      ∀ key (value : Value), (key, value) ∈ entries ↔
        ∃ name, extensionKey key = some name ∧ request.extensions.get name = some value := by
  unfold ModelRequest.extensionParameters at h
  split at h
  · rename_i fields hfields
    obtain rfl := Except.ok.inj h
    rw [hfields]
    refine ⟨List.pairwise_map.2 (pairwise_ne_toList.imp ?_), fun key value => ?_⟩
    · intro e e' hne heq
      have hname : extensionKey (extensionStart ++ e.1) = extensionKey (extensionStart ++ e'.1) := congrArg _ heq
      rw [extensionKey_append, extensionKey_append] at hname
      exact hne (Option.some.inj hname)
    · simp only [List.mem_map, Prod.exists, Prod.mk.injEq, Std.ExtTreeMap.mem_toList_iff_getElem?_eq_some,
        extensionKey_eq_some, Extensions.get]
      constructor
      · rintro ⟨name, _, hget, hkey, hvalue⟩
        exact ⟨name, hkey.symm, hvalue ▸ hget⟩
      · rintro ⟨name, hkey, hget⟩
        exact ⟨name, value, hget, hkey.symm, rfl⟩
  · rename_i hnull
    obtain rfl := Except.ok.inj h
    simp [hnull, Extensions.get]
  · cases h

theorem neutral_entries (request : ModelRequest) :
    ((parameterNames.map fun key => (key, request.parameter key)).Pairwise fun e e' => e.1 ≠ e'.1) ∧
      ∀ key value, (key, value) ∈ parameterNames.map (fun key => (key, request.parameter key)) ↔
        key ∈ parameterNames ∧ value = request.parameter key := by
  have hnodup : parameterNames.Nodup := by decide
  refine ⟨List.pairwise_map.2 hnodup, fun key value => ?_⟩
  simp only [List.mem_map, Prod.mk.injEq]
  exact ⟨fun ⟨_, hmem, hkey, hvalue⟩ => hkey ▸ ⟨hmem, hvalue.symm⟩, fun ⟨hmem, hvalue⟩ => ⟨key, hmem, rfl, hvalue.symm⟩⟩

/-- **What the loop of `plan` finds under a key**: a neutral parameter of the
request, or one of its extensions. -/
theorem getElem?_parameters (h : request.parameters = .ok inputs) (key : String) :
    inputs[key]? = if key ∈ parameterNames then some (request.parameter key)
      else (extensionKey key).bind request.extensions.get := by
  simp only [ModelRequest.parameters, bind_eq_ok, pure_eq_ok] at h
  obtain ⟨extensions, hextensions, rfl⟩ := h
  obtain ⟨hdistinct, hmem⟩ := extensionParameters_eq_ok hextensions
  obtain ⟨hdistinct', hmem'⟩ := neutral_entries request
  have hcross : ∀ e ∈ parameterNames.map (fun key => (key, request.parameter key)), ∀ e' ∈ extensions,
      e.1 ≠ e'.1 := by
    intro e he e' he' heq
    obtain ⟨hname, -⟩ := (hmem' e.1 e.2).1 he
    obtain ⟨name, hextension, -⟩ := (hmem e'.1 e'.2).1 he'
    rw [← heq, extensionKey_of_mem hname] at hextension
    exact nomatch hextension
  have hall := List.pairwise_append.2 ⟨hdistinct', hdistinct, hcross⟩
  split_ifs with hkey
  · exact getElem?_foldl_insert_of_mem hall (List.mem_append_left _ ((hmem' key _).2 ⟨hkey, rfl⟩))
  · cases hget : (extensionKey key).bind request.extensions.get with
    | some value =>
      obtain ⟨name, hname, hvalue⟩ := Option.bind_eq_some_iff.1 hget
      exact getElem?_foldl_insert_of_mem hall (List.mem_append_right _ ((hmem key value).2 ⟨name, hname, hvalue⟩))
    | none =>
      refine (getElem?_foldl_insert_of_notMem ?_).trans Std.ExtTreeMap.getElem?_empty
      rintro ⟨_, value⟩ he rfl
      rcases List.mem_append.1 he with he | he
      · exact hkey ((hmem' _ value).1 he).1
      · obtain ⟨name, hname, hvalue⟩ := (hmem _ value).1 he
        rw [hname, Option.bind_some, hvalue] at hget
        exact nomatch hget

theorem getElem?_addRules (key : String) :
    (addRules rules inputs)[key]? = inputs[key]?.or (rules[key]?.map fun _ => .null) :=
  getElem?_foldl_insertIfNew_toList rules

theorem value?_eq_of_parameters (h : request.parameters = .ok inputs) (key : String) :
    request.value? key = if key ∈ parameterNames then present (request.parameter key) else inputs[key]? := by
  rw [getElem?_parameters h]
  split_ifs with hkey
  · exact value?_of_mem hkey
  · unfold ModelRequest.value?
    cases extensionKey key with
    | some name => rfl
    | none => rw [parameter_eq_null hkey]; rfl

/-- **What is found under a key is the value of the parameter**, if it is provided. -/
theorem provides_input (h : request.parameters = .ok inputs) {key : String} {input : Value}
    (hinput : (addRules rules inputs)[key]? = some input) :
    (request.provides key input = true → request.value? key = some input) ∧
      (request.provides key input = false → request.value? key = none) := by
  rw [getElem?_addRules, Option.or_eq_some_iff] at hinput
  by_cases hkey : key ∈ parameterNames
  · have hfound := getElem?_parameters h key
    rw [if_pos hkey] at hfound
    obtain rfl : input = request.parameter key := by
      rcases hinput with hinput | ⟨hnone, -⟩
      · exact Option.some.inj (hinput.symm.trans hfound)
      · rw [hfound] at hnone
        exact nomatch hnone
    rw [value?_of_mem hkey, present]
    simp only [ModelRequest.provides, extensionKey_of_mem hkey, Option.any_none, Bool.or_false, decide_eq_true_eq,
      decide_eq_false_iff_not, not_not]
    exact ⟨fun hne => if_neg hne, fun heq => if_pos heq⟩
  · have hvalue := value?_eq_of_parameters h key
    have hget := getElem?_parameters h key
    rw [if_neg hkey] at hvalue hget
    have hprovides : request.provides key input = (decide (input ≠ .null) || (request.value? key).isSome) := by
      rw [hvalue, hget]
      unfold ModelRequest.provides
      cases extensionKey key <;> rfl
    rw [hprovides, hvalue]
    rcases hinput with hinput | ⟨hnone, hrule⟩
    · simp [hinput]
    · obtain ⟨_, -, rfl⟩ := Option.map_eq_some_iff.1 hrule
      simp [hnone]

theorem notFound_input (h : request.parameters = .ok inputs) {key : String}
    (hinput : (addRules rules inputs)[key]? = none) : request.value? key = none ∧ rules[key]? = none := by
  rw [getElem?_addRules, Option.or_eq_none_iff, Option.map_eq_none_iff] at hinput
  refine ⟨?_, hinput.2⟩
  rw [value?_eq_of_parameters h, hinput.1]
  split_ifs with hkey
  · have hfound := getElem?_parameters h key
    rw [if_pos hkey, hinput.1] at hfound
    exact nomatch hfound
  · rfl

end Inputs

section Parameter

variable (validator : Validator) (original : ModelRequest) (rules : ParameterRules) (key : String)

/-- What the outcome of a parameter says of it. -/
def Planned.Meets : Planned → Prop
  | .skipped =>
    original.value? key = none ∧
      ∀ rule : ParameterRule, rules[key]? = some rule → rule.support = .supported → rule.default = none
  | .omitted action =>
    (action = .omittedUnsupported ∨ action = .omittedUnknown) ∧ (original.value? key).isSome = true ∧
      (∀ rule : ParameterRule, rules[key]? = some rule → rule.omittable = true ∧
        (rule.support = .supported → key = "tool_choice" ∧ original.toolChoice = .required)) ∧
      (key = "tool_choice" → original.toolChoice = .auto ∨ original.toolChoice = .required)
  | .kept action value =>
    ∃ (rule : ParameterRule) (accepts : Value → Bool), rules[key]? = some rule ∧ rule.support = .supported ∧
      validator rule.schema = some accepts ∧ accepts value = true ∧
      (action = .sent ∧ original.value? key = some value ∨
        action = .defaulted ∧ original.value? key = none ∧ rule.default = some value ∨
        action = .mappedToAuto ∧ key = "tool_choice" ∧ original.toolChoice = .required ∧ value = .string "auto")

variable {validator original rules key} {rule : Option ParameterRule} {input : Value} {planned : Planned}

theorem validateValue_eq_ok {schema value : Value} (h : validateValue validator schema value key = .ok ()) :
    ∃ accepts : Value → Bool, validator schema = some accepts ∧ accepts value = true := by
  simp only [validateValue, bind_eq_ok, expect_eq_ok, reject_eq_ok, Bool.not_eq_false] at h
  exact h

theorem leaveOut_eq_ok {support : ParameterSupport} (h : leaveOut original rule key support = .ok planned) :
    ∃ action, planned = .omitted action ∧ (action = .omittedUnsupported ∨ action = .omittedUnknown) ∧
      (∀ r : ParameterRule, rule = some r → r.omittable = true) ∧
      (key = "tool_choice" → original.toolChoice = .auto ∨ original.toolChoice = .required) := by
  simp only [leaveOut, bind_eq_ok, reject_eq_ok, pure_eq_ok, not_or] at h
  obtain ⟨_, -, _, ⟨hommit, hchoice⟩, rfl⟩ := h
  refine ⟨_, rfl, by split_ifs <;> simp, fun r hr => ?_, fun hkey => ?_⟩
  · subst hr
    simpa using hommit
  · by_contra hneither
    rw [not_or] at hneither
    exact hchoice ⟨hkey, hneither.1, by simp [hneither.2]⟩

/-- **A parameter whose input is settled** is skipped, left out or kept. -/
theorem planInput_eq_ok {mapped : Bool} (h : planInput validator original rule key input mapped = .ok planned) :
    (planned = .skipped ∧ original.provides key input = false ∧
        ∀ r : ParameterRule, rule = some r → r.support = .supported → r.default = none) ∨
      (original.provides key input = true ∧ (∀ r : ParameterRule, rule = some r → r.support ≠ .supported) ∧
        ∃ support, leaveOut original rule key support = .ok planned) ∨
      ∃ (r : ParameterRule) (value : Value) (accepts : Value → Bool),
        planned = .kept (if mapped then .mappedToAuto else if original.provides key input then .sent else .defaulted)
          value ∧
        rule = some r ∧ r.support = .supported ∧ validator r.schema = some accepts ∧ accepts value = true ∧
        (original.provides key input = true → value = input) ∧
        (original.provides key input = false → r.default = some value) := by
  unfold planInput at h
  extract_lets provided support default at h
  split_ifs at h with hregistered hskip hsupport
  · obtain rfl := Except.ok.inj h
    refine .inl ⟨rfl, hskip.1, fun r hr hsupported => ?_⟩
    subst hr
    exact hskip.2.resolve_left fun hne => hne hsupported
  · refine .inr (.inl ⟨?_, ?_, _, h⟩)
    · exact Bool.of_not_eq_false fun hprovided => hskip ⟨hprovided, .inl hsupport⟩
    · rintro r rfl
      exact hsupport
  · simp only [bind_eq_ok, expect_eq_ok, pure_eq_ok] at h
    obtain ⟨r, rfl, _, hvalid, rfl⟩ := h
    obtain ⟨accepts, haccepts, hvalue⟩ := validateValue_eq_ok hvalid
    refine .inr (.inr ⟨r, _, accepts, rfl, rfl, not_not.1 hsupport, haccepts, hvalue, fun hprovided => ?_,
      fun hprovided => ?_⟩)
    · exact if_pos hprovided
    · have hdefault : default ≠ none := fun hnone => hskip ⟨hprovided, .inr hnone⟩
      obtain ⟨value, hsome⟩ := Option.ne_none_iff_exists'.1 hdefault
      have hmissing : (if provided = true then input else default.getD .null) = value := by
        rw [if_neg (Bool.eq_false_iff.1 hprovided), hsome, Option.getD_some]
      exact hsome.trans (congrArg some hmissing.symm)

theorem value?_toolChoice : original.value? "tool_choice" = some original.toolChoice.toValue :=
  (value?_of_mem (by decide)).trans (reads_toolChoice.present_option (some original.toolChoice))

theorem meets_of_planInput (hprovided : original.provides key input = true → original.value? key = some input)
    (hmissing : original.provides key input = false → original.value? key = none)
    (h : planInput validator original rules[key]? key input false = .ok planned) :
    planned.Meets validator original rules key := by
  rcases planInput_eq_ok h with ⟨rfl, hprovides, hdefault⟩ | ⟨hprovides, hsupport, support, hleave⟩ |
    ⟨rule, value, accepts, rfl, hrule, hsupport, haccepts, hvalue, hinput, hdefault⟩
  · exact ⟨hmissing hprovides, hdefault⟩
  · obtain ⟨action, rfl, haction, homittable, hchoice⟩ := leaveOut_eq_ok hleave
    refine ⟨haction, ?_, fun rule hrule => ⟨homittable rule hrule, fun hsupported => ?_⟩, hchoice⟩
    · rw [hprovided hprovides, Option.isSome_some]
    · exact absurd hsupported (hsupport rule hrule)
  · refine ⟨rule, accepts, hrule, hsupport, haccepts, hvalue, ?_⟩
    cases hprovides : original.provides key input with
    | true => exact .inl ⟨rfl, hinput hprovides ▸ hprovided hprovides⟩
    | false => exact .inr (.inl ⟨rfl, hmissing hprovides, hdefault hprovides⟩)

theorem meets_of_planInput_auto {rule : ParameterRule} (hrule : rules["tool_choice"]? = some rule)
    (hrequired : original.toolChoice = .required) (hsupported : rule.support = .supported)
    (h : planInput validator original (some rule) "tool_choice" (.string "auto") true = .ok planned) :
    planned.Meets validator original rules "tool_choice" := by
  have hprovides : original.provides "tool_choice" (.string "auto") = true := rfl
  rcases planInput_eq_ok h with ⟨-, hfalse, -⟩ | ⟨-, hsupport, -⟩ |
    ⟨found, value, accepts, rfl, hfound, hsupport, haccepts, hvalue, hinput, -⟩
  · rw [hprovides] at hfalse
    exact nomatch hfalse
  · exact absurd hsupported (hsupport rule rfl)
  · exact ⟨found, accepts, hrule.trans hfound, hsupport, haccepts, hvalue,
      .inr (.inr ⟨rfl, rfl, hrequired, hinput hprovides⟩)⟩

theorem planParameter_meets (hprovided : original.provides key input = true → original.value? key = some input)
    (hmissing : original.provides key input = false → original.value? key = none)
    (h : planParameter validator original rules key input = .ok planned) :
    planned.Meets validator original rules key := by
  simp only [planParameter] at h
  split at h
  · rename_i rule hrule
    split_ifs at h with hauto hvalid homittable
    · obtain ⟨rfl, hrequired, hneeds⟩ := hauto
      have hsupported : rule.support = .supported := by simpa using (Bool.and_eq_true_iff.1 hneeds).1
      exact meets_of_planInput_auto hrule hrequired hsupported (hrule ▸ h)
    · obtain ⟨rfl, hrequired, -⟩ := hauto
      obtain rfl := Except.ok.inj h
      refine ⟨.inl rfl, ?_, fun r hr => ?_, fun _ => .inr hrequired⟩
      · rw [value?_toolChoice, Option.isSome_some]
      · obtain rfl := Option.some.inj (hrule.symm.trans hr)
        exact ⟨homittable, fun _ => ⟨rfl, hrequired⟩⟩
    · exact meets_of_planInput hprovided hmissing h
  · exact meets_of_planInput hprovided hmissing h

end Parameter

section Loop

variable {validator : Validator} {original : ModelRequest} {rules : ParameterRules}

/-- What the loop knows of a parameter: its value, and the decisions about it. -/
def Planning.at (planning : Planning) (key : String) : Option Value × List ParameterDecision :=
  (planning.values[key]?, planning.decisions.filter fun decision => decision.parameter = key)

/-- What the outcome of a parameter adds. -/
def Planned.entry (key : String) : Planned → Option Value × List ParameterDecision
  | .skipped => (none, [])
  | .omitted action => (none, [⟨key, action⟩])
  | .kept action value => (some value, [⟨key, action⟩])

theorem at_record_of_ne {planning : Planning} {key key' : String} (h : key ≠ key') (planned : Planned) :
    (planning.record rules key planned).at key' = planning.at key' := by
  cases planned with
  | skipped => rfl
  | omitted action => simp [Planning.record, Planning.at, h]
  | kept action value => simp [Planning.record, Planning.at, h, getElem?_insert_of_ne]

theorem at_record_self {planning : Planning} {key : String} (h : planning.at key = (none, [])) (planned : Planned) :
    (planning.record rules key planned).at key = planned.entry key := by
  obtain ⟨hvalue, hdecisions⟩ := Prod.mk.inj h
  cases planned with
  | skipped => exact h
  | omitted action => simp only [Planning.record, Planning.at, Planned.entry, hvalue, List.filter_append, hdecisions]; simp
  | kept action value =>
    simp only [Planning.record, Planning.at, Planned.entry, getElem?_insert_self, List.filter_append, hdecisions]
    simp

theorem at_planAll {inputs : List (String × Value)} (hdistinct : inputs.Pairwise fun e e' => e.1 ≠ e'.1)
    {planning planning' : Planning} (hnew : ∀ e ∈ inputs, planning.at e.1 = (none, []))
    (h : planAll validator original rules planning inputs = .ok planning') :
    (∀ e ∈ inputs, ∃ planned, planParameter validator original rules e.1 e.2 = .ok planned ∧
        planning'.at e.1 = planned.entry e.1) ∧
      ∀ key, (∀ e ∈ inputs, e.1 ≠ key) → planning'.at key = planning.at key := by
  induction inputs generalizing planning with
  | nil =>
    obtain rfl := Except.ok.inj h
    exact ⟨fun e he => absurd he List.not_mem_nil, fun _ _ => rfl⟩
  | cons e inputs ih =>
    obtain ⟨hhead, htail⟩ := List.pairwise_cons.1 hdistinct
    obtain ⟨planned, hplanned, hrest⟩ := bind_eq_ok.1 h
    have hnew' : ∀ e' ∈ inputs, (planning.record rules e.1 planned).at e'.1 = (none, []) := fun e' he' =>
      (at_record_of_ne (hhead e' he') planned).trans (hnew e' (List.mem_cons_of_mem _ he'))
    obtain ⟨hdecided, hother⟩ := ih htail hnew' hrest
    refine ⟨fun e' he' => ?_, fun key hkey => ?_⟩
    · rcases List.mem_cons.1 he' with rfl | he'
      · refine ⟨planned, hplanned, ?_⟩
        rw [hother e'.1 fun e'' he'' => (hhead e'' he'').symm]
        exact at_record_self (hnew e' List.mem_cons_self) planned
      · exact hdecided e' he'
    · rw [hother key fun e' he' => hkey e' (List.mem_cons_of_mem _ he')]
      exact at_record_of_ne (hkey e List.mem_cons_self) planned

/-- The extensions on the wire are the ones among the values. -/
structure Planning.Wired (rules : ParameterRules) (planning : Planning) : Prop where
  wires : ∀ (wire : String) (value : Value), planning.wireExtensions[wire]? = some value ↔
    ∃ name, wireOf rules (extensionStart ++ name) wire ∧ planning.values[extensionStart ++ name]? = some value

variable {reserved : List String}
  (hvalid : ∀ (key : String) (rule : ParameterRule), rules[key]? = some rule → RuleValid reserved key rule)
  (hinj : ∀ key key' wire, wireOf rules key wire → wireOf rules key' wire → key = key')

include hvalid hinj

theorem wired_kept {planning : Planning} {key : String} {rule : ParameterRule} {action : ParameterAction}
    {value : Value} (hrule : rules[key]? = some rule) (hsupported : rule.support = .supported)
    (h : planning.Wired rules) : (planning.record rules key (.kept action value)).Wired rules := by
  refine ⟨fun wire v => ?_⟩
  cases hkey : extensionKey key with
  | none =>
    have hne : ∀ name, key ≠ extensionStart ++ name := fun name heq => by
      rw [heq, extensionKey_append] at hkey
      exact nomatch hkey
    simp only [Planning.record, hkey, Option.bind_none, getElem?_insert_of_ne (hne _)]
    exact h.wires wire v
  | some name =>
    obtain ⟨bound, hbound, -⟩ := (hvalid key rule hrule).bound (by rw [hkey]; rfl)
    have hwire : wireOf rules key bound := ⟨rule, hrule, hsupported, hbound⟩
    simp only [Planning.record, hkey, hrule, hbound, Option.bind_some]
    obtain rfl := extensionKey_eq_some.1 hkey
    by_cases heq : bound = wire
    · subst heq
      rw [getElem?_insert_self]
      constructor
      · intro hv
        exact ⟨name, hwire, by rw [getElem?_insert_self, hv]⟩
      · rintro ⟨name', hwire', hv⟩
        rw [← hinj _ _ _ hwire hwire', getElem?_insert_self] at hv
        exact hv
    · -- another name on the wire belongs to another extension
      rw [getElem?_insert_of_ne heq, h.wires]
      refine exists_congr fun name' => and_congr_right fun hwire' => ?_
      have hne : extensionStart ++ name ≠ extensionStart ++ name' := fun hsame => by
        obtain ⟨rule', hrule', -, hbound'⟩ := hwire'
        rw [← hsame, hrule] at hrule'
        rw [← Option.some.inj hrule', hbound] at hbound'
        exact heq (Option.some.inj hbound')
      rw [getElem?_insert_of_ne hne]

/-- **The extensions on the wire are those among the values**, all through the loop. -/
theorem wired_planAll {inputs : List (String × Value)}
    (hmeets : ∀ e ∈ inputs, ∀ planned, planParameter validator original rules e.1 e.2 = .ok planned →
      planned.Meets validator original rules e.1)
    {planning planning' : Planning} (hwired : planning.Wired rules)
    (h : planAll validator original rules planning inputs = .ok planning') : planning'.Wired rules := by
  induction inputs generalizing planning with
  | nil => exact Except.ok.inj h ▸ hwired
  | cons e inputs ih =>
    obtain ⟨planned, hplanned, hrest⟩ := bind_eq_ok.1 h
    refine ih (fun e' he' => hmeets e' (List.mem_cons_of_mem _ he')) ?_ hrest
    have hmeet := hmeets e List.mem_cons_self planned hplanned
    cases planned with
    | skipped => exact hwired
    | omitted action => exact ⟨hwired.wires⟩
    | kept action value =>
      obtain ⟨rule, -, hrule, hsupported, -⟩ := hmeet
      exact wired_kept hvalid hinj hrule hsupported hwired

end Loop

section Plan

/-- A value that a supported rule of a parameter accepts. -/
def Accepted (validator : Validator) (rules : ParameterRules) (key : String) (value : Value) : Prop :=
  ∃ (rule : ParameterRule) (accepts : Value → Bool), rules[key]? = some rule ∧ rule.support = .supported ∧
    validator rule.schema = some accepts ∧ accepts value = true

/-- A supported rule has a default for the parameter. -/
def Defaults (rules : ParameterRules) (key : String) (value : Value) : Prop :=
  ∃ rule : ParameterRule, rules[key]? = some rule ∧ rule.support = .supported ∧ rule.default = some value

/-- What a decision about a parameter says of the two requests. -/
def ParameterAction.Explains (validator : Validator) (rules : ParameterRules) (original request : ModelRequest)
    (key : String) : ParameterAction → Prop
  | .sent =>
    (∃ value, original.value? key = some value ∧ Accepted validator rules key value) ∧
      request.settled key = original.settled key
  | .defaulted =>
    original.value? key = none ∧ ∃ value, Defaults rules key value ∧ Accepted validator rules key value ∧
      (reading key value).isSome = true ∧ request.settled key = reading key value
  | .mappedToAuto =>
    key = "tool_choice" ∧ original.toolChoice = .required ∧ request.toolChoice = .auto ∧
      Accepted validator rules key (.string "auto")
  | .omittedUnsupported | .omittedUnknown =>
    (original.value? key).isSome = true ∧ request.settled key = absent key ∧
      ∀ rule : ParameterRule, rules[key]? = some rule → rule.omittable = true ∧
        (rule.support = .supported → key = "tool_choice" ∧ original.toolChoice = .required)

/-- **What a plan has to account for.** -/
structure Accounted (validator : Validator) (reserved : List String) (rules : ParameterRules)
    (original : ModelRequest) (planned : PlannedRequest) : Prop where
  decided : ∀ key, (original.value? key).isSome = true ∨ (∃ value, Defaults rules key value) →
    ∃ action : ParameterAction, (planned.decisions.filter fun d => d.parameter = key) = [⟨key, action⟩] ∧
      action.Explains validator rules original planned.request key
  undecided : ∀ key, original.value? key = none → (∀ value, ¬Defaults rules key value) →
    (planned.decisions.filter fun d => d.parameter = key) = [] ∧
      planned.request.settled key = original.settled key
  choice : original.toolChoice ≠ .auto → original.toolChoice ≠ .required →
    planned.request.toolChoice = original.toolChoice
  wires : ∀ (wire : String) (value : Value), planned.wireExtensions[wire]? = some value ↔
    ∃ name, wireOf rules (extensionStart ++ name) wire ∧ planned.request.extensions.get name = some value
  bound : ∀ (name : String) (value : Value), planned.request.extensions.get name = some value →
    ∃ wire, wireOf rules (extensionStart ++ name) wire ∧ wire ∉ reserved
  distinct : ∀ name name' wire, wireOf rules (extensionStart ++ name) wire →
    wireOf rules (extensionStart ++ name') wire → name = name'
  unchanged : planned.request.toModelRequest = original.toModelRequest ∧ planned.request.model = original.model ∧
    planned.request.system = original.system ∧ planned.request.tools = original.tools ∧
    planned.request.outputFormat = original.outputFormat

variable {validator : Validator} {rules : ParameterRules} {original request : ModelRequest} {key : String}
  {reserved : List String}

theorem settled_toolChoice (request : ModelRequest) : request.settled "tool_choice" = some request.toolChoice.toValue := by
  rw [ModelRequest.settled, value?_toolChoice, Option.some_or]

theorem toolChoice_of_settled {choice : ToolChoice} (h : request.settled "tool_choice" = some choice.toValue) :
    request.toolChoice = choice := by
  rw [settled_toolChoice] at h
  have hread := congrArg readToolChoice (Option.some.inj h)
  rw [readToolChoice_toValue, readToolChoice_toValue] at hread
  exact Option.some.inj hread

theorem settled_of_value? {value : Value} (h : original.value? key = some value) :
    original.settled key = reading key value := by
  rw [ModelRequest.settled, h, Option.some_or, reading_value h]

theorem entry_of_skipped {planned : Planned} (hmeets : planned.Meets validator original rules key)
    (hmissing : original.value? key = none) (hdefault : ∀ value, ¬Defaults rules key value) :
    planned.entry key = (none, []) := by
  cases planned with
  | skipped => rfl
  | omitted action =>
    obtain ⟨-, hprovided, -⟩ := hmeets
    rw [hmissing] at hprovided
    exact nomatch hprovided
  | kept action value =>
    obtain ⟨rule, accepts, hrule, hsupported, -, -, hsent | hdefaulted | hmapped⟩ := hmeets
    · rw [hmissing] at hsent
      exact nomatch hsent.2
    · exact absurd ⟨rule, hrule, hsupported, hdefaulted.2.2⟩ (hdefault value)
    · obtain ⟨-, rfl, -⟩ := hmapped
      rw [value?_toolChoice] at hmissing
      exact nomatch hmissing

/-- **A parameter that is provided, or has a supported rule to default it, is decided
once**, and the decision says what became of it. -/
theorem explains_of_meets {planned : Planned} (hmeets : planned.Meets validator original rules key)
    (hasked : (original.value? key).isSome = true ∨ ∃ value, Defaults rules key value)
    (hsettled : request.settled key = ((planned.entry key).1.bind (reading key)).or (absent key))
    (hread : ∀ v : Value, (planned.entry key).1 = some v → (reading key v).isSome = true) :
    ∃ action : ParameterAction, (planned.entry key).2 = [⟨key, action⟩] ∧
      action.Explains validator rules original request key := by
  cases planned with
  | skipped =>
    obtain ⟨hmissing, hdefault⟩ := hmeets
    rcases hasked with hprovided | ⟨value, rule, hrule, hsupported, hvalue⟩
    · rw [hmissing] at hprovided
      exact nomatch hprovided
    · rw [hdefault rule hrule hsupported] at hvalue
      exact nomatch hvalue
  | omitted action =>
    obtain ⟨haction, hprovided, homittable, -⟩ := hmeets
    refine ⟨action, rfl, ?_⟩
    rcases haction with rfl | rfl <;> exact ⟨hprovided, hsettled, homittable⟩
  | kept action value =>
    obtain ⟨rule, accepts, hrule, hsupported, haccepts, hvalue, hcase⟩ := hmeets
    have haccepted : Accepted validator rules key value := ⟨rule, accepts, hrule, hsupported, haccepts, hvalue⟩
    have hsome : (reading key value).isSome = true := hread value rfl
    obtain ⟨read, hreading⟩ := Option.isSome_iff_exists.1 hsome
    have hsame : request.settled key = reading key value := by
      rw [hsettled, Planned.entry, Option.bind_some, hreading, Option.some_or]
    refine ⟨action, rfl, ?_⟩
    rcases hcase with ⟨rfl, hprovided⟩ | ⟨rfl, hmissing, hdefault⟩ | ⟨rfl, rfl, hrequired, rfl⟩
    · exact ⟨⟨value, hprovided, haccepted⟩, hsame.trans (settled_of_value? hprovided).symm⟩
    · exact ⟨hmissing, value, ⟨rule, hrule, hsupported, hdefault⟩, haccepted, hsome, hsame⟩
    · exact ⟨rfl, hrequired, toolChoice_of_settled hsame, haccepted⟩

theorem toolChoice_of_meets {planned : Planned} (hmeets : planned.Meets validator original rules "tool_choice")
    (hsettled : request.settled "tool_choice" =
      ((planned.entry "tool_choice").1.bind (reading "tool_choice")).or (absent "tool_choice"))
    (hauto : original.toolChoice ≠ .auto) (hrequired : original.toolChoice ≠ .required) :
    request.toolChoice = original.toolChoice := by
  cases planned with
  | skipped =>
    have hmissing := hmeets.1
    rw [value?_toolChoice] at hmissing
    exact nomatch hmissing
  | omitted action =>
    obtain ⟨-, -, -, hchoice⟩ := hmeets
    exact ((hchoice rfl).elim hauto hrequired).elim
  | kept action value =>
    obtain ⟨rule, accepts, -, -, -, -, ⟨-, hsent⟩ | ⟨-, hmissing, -⟩ | ⟨-, -, hmapped, -⟩⟩ := hmeets
    · refine toolChoice_of_settled ?_
      rw [hsettled, Planned.entry, Option.bind_some, reading_value hsent, Option.some_or, ← hsent, value?_toolChoice]
    · rw [value?_toolChoice] at hmissing
      exact nomatch hmissing
    · exact absurd hmapped hrequired

theorem settled_of_noParameter (hneutral : key ∉ parameterNames) (hextension : extensionKey key = none)
    (request : ModelRequest) : request.value? key = none ∧ request.settled key = none := by
  have hmissing : request.value? key = none := by
    unfold ModelRequest.value?
    rw [hextension, parameter_eq_null hneutral]
    rfl
  rw [ModelRequest.settled, hmissing, Option.none_or, absent_of_notMem hneutral]
  exact ⟨rfl, rfl⟩

section Run

variable {inputs : Std.ExtTreeMap String Value} {planning : Planning} (hinputs : original.parameters = .ok inputs)
  (hplanning : planAll validator original rules ⟨∅, ∅, []⟩ (addRules rules inputs).toList = .ok planning)

include hinputs in
theorem meets_of_mem_inputs {e : String × Value} (he : e ∈ (addRules rules inputs).toList) {planned : Planned}
    (hplanned : planParameter validator original rules e.1 e.2 = .ok planned) :
    planned.Meets validator original rules e.1 := by
  obtain ⟨hprovided, hmissing⟩ := provides_input hinputs (Std.ExtTreeMap.mem_toList_iff_getElem?_eq_some.1 he)
  exact planParameter_meets hprovided hmissing hplanned

include hinputs hplanning in
/-- **Every parameter has an outcome**, also one that the loop never comes to. -/
theorem planAll_meets (key : String) :
    ∃ planned : Planned, planned.Meets validator original rules key ∧ planning.at key = planned.entry key := by
  obtain ⟨hdecided, hother⟩ := at_planAll pairwise_ne_toList (fun _ _ => rfl) hplanning
  cases hinput : (addRules rules inputs)[key]? with
  | some input =>
    have he := Std.ExtTreeMap.mem_toList_iff_getElem?_eq_some.2 hinput
    obtain ⟨planned, hplanned, hat⟩ := hdecided (key, input) he
    exact ⟨planned, meets_of_mem_inputs hinputs he hplanned, hat⟩
  | none =>
    obtain ⟨hmissing, hrule⟩ := notFound_input hinputs hinput
    refine ⟨.skipped, ⟨hmissing, fun rule hsome => ?_⟩, hother key ?_⟩
    · rw [hrule] at hsome
      exact nomatch hsome
    · rintro ⟨_, input⟩ he rfl
      rw [Std.ExtTreeMap.mem_toList_iff_getElem?_eq_some.1 he] at hinput
      exact nomatch hinput

/-- The request of a plan has under each parameter what was decided of it. -/
theorem settled_of_entry {planned : Planned} (hrequest : rebuild original planning.values = .ok request)
    (hvalid : ∀ (key : String) (rule : ParameterRule), rules[key]? = some rule → RuleValid reserved key rule)
    (hmeets : planned.Meets validator original rules key) (hat : planning.at key = planned.entry key) :
    request.settled key = ((planned.entry key).1.bind (reading key)).or (absent key) ∧
      ∀ v : Value, (planned.entry key).1 = some v → (reading key v).isSome = true := by
  have hvalue : planning.values[key]? = (planned.entry key).1 := congrArg Prod.fst hat
  by_cases hparameter : key ∈ parameterNames ∨ (extensionKey key).isSome = true
  · rw [← hvalue]
    exact settled_rebuild hrequest hparameter
  · rw [not_or, Bool.not_eq_true, Option.isSome_eq_false_iff, Option.isNone_iff_eq_none] at hparameter
    obtain ⟨hneutral, hextension⟩ := hparameter
    have hnone : (planned.entry key).1 = none := by
      cases planned with
      | skipped => rfl
      | omitted action => rfl
      | kept action value =>
        obtain ⟨rule, -, hrule, -⟩ := hmeets
        exact absurd ((hvalid key rule hrule).neutral hextension).1 hneutral
    rw [hnone, Option.bind_none, Option.none_or, absent_of_notMem hneutral]
    exact ⟨(settled_of_noParameter hneutral hextension request).2, fun v hv => nomatch hv⟩

end Run

theorem extensions_rebuild {values : Std.ExtTreeMap String Value} (h : rebuild original values = .ok request)
    (name : String) : request.extensions.get name = values[extensionStart ++ name]? := by
  simp only [rebuild, bind_eq_ok, pure_eq_ok] at h
  obtain ⟨_, -, _, -, _, -, _, -, _, -, _, -, _, -, rfl⟩ := h
  exact getElem?_extensionValues name

theorem rebuild_unchanged {values : Std.ExtTreeMap String Value} (h : rebuild original values = .ok request) :
    request.toModelRequest = original.toModelRequest ∧ request.model = original.model ∧
      request.system = original.system ∧ request.tools = original.tools ∧
      request.outputFormat = original.outputFormat := by
  simp only [rebuild, bind_eq_ok, pure_eq_ok] at h
  obtain ⟨_, -, _, -, _, -, _, -, _, -, _, -, _, -, rfl⟩ := h
  exact ⟨rfl, rfl, rfl, rfl, rfl⟩

variable {protocol : String} {planner : RequestPlanner validator protocol reserved} {planned : PlannedRequest}

/-- **A plan drops nothing silently.** -/
theorem plan_accounts (h : planner.plan original = .ok planned) :
    ∃ model : ModelParameterOverrides, planner.table.models[original.model.model]? = some model ∧
      Accounted validator reserved (planner.table.effective model) original planned := by
  simp only [RequestPlanner.plan, bind_eq_ok, reject_eq_ok, expect_eq_ok, pure_eq_ok] at h
  obtain ⟨_, -, model, hmodel, _, -, inputs, hinputs, planning, hplanning, request, hrequest, rfl⟩ := h
  have hvalid : ∀ (key : String) (rule : ParameterRule), (planner.table.effective model)[key]? = some rule →
      RuleValid reserved key rule := fun _ _ => ruleValid_effective planner.valid hmodel
  have hinj : ∀ key key' wire, wireOf (planner.table.effective model) key wire →
      wireOf (planner.table.effective model) key' wire → key = key' :=
    fun _ _ _ => wireOf_effective_inj planner.valid hmodel
  have hwired := wired_planAll hvalid hinj (fun e he planned => meets_of_mem_inputs hinputs he)
    ⟨fun wire value => by simp⟩ hplanning
  refine ⟨model, hmodel, ?_⟩
  constructor
  case decided =>
    intro key hasked
    obtain ⟨planned, hmeets, hat⟩ := planAll_meets hinputs hplanning key
    obtain ⟨hsettled, hread⟩ := settled_of_entry hrequest hvalid hmeets hat
    obtain ⟨action, hdecisions, hexplains⟩ := explains_of_meets hmeets hasked hsettled hread
    exact ⟨action, (congrArg Prod.snd hat).trans hdecisions, hexplains⟩
  case undecided =>
    intro key hmissing hdefault
    obtain ⟨planned, hmeets, hat⟩ := planAll_meets hinputs hplanning key
    have hentry := entry_of_skipped hmeets hmissing hdefault
    refine ⟨(congrArg Prod.snd hat).trans (congrArg Prod.snd hentry), ?_⟩
    rw [(settled_of_entry hrequest hvalid hmeets hat).1, hentry, ModelRequest.settled, hmissing, Option.bind_none]
  case choice =>
    obtain ⟨planned, hmeets, hat⟩ := planAll_meets hinputs hplanning "tool_choice"
    exact toolChoice_of_meets hmeets (settled_of_entry hrequest hvalid hmeets hat).1
  case wires =>
    intro wire value
    simp only [extensions_rebuild hrequest]
    exact hwired.wires wire value
  case bound =>
    intro name value hvalue
    obtain ⟨planned, hmeets, hat⟩ := planAll_meets hinputs hplanning (extensionStart ++ name)
    rw [extensions_rebuild hrequest] at hvalue
    have hentry := (congrArg Prod.fst hat).symm.trans hvalue
    cases planned with
    | skipped => cases hentry
    | omitted action => cases hentry
    | kept action v =>
      obtain ⟨rule, -, hrule, hsupported, -⟩ := hmeets
      obtain ⟨wire, hwire, hreserved⟩ := (hvalid _ rule hrule).bound (by rw [extensionKey_append]; rfl)
      exact ⟨wire, ⟨rule, hrule, hsupported, hwire⟩, hreserved⟩
  case distinct =>
    intro name name' wire hwire hwire'
    have hkey := congrArg extensionKey (hinj _ _ _ hwire hwire')
    rw [extensionKey_append, extensionKey_append] at hkey
    exact Option.some.inj hkey
  case unchanged => exact rebuild_unchanged hrequest

/-- A schema that accepts everything, or the values that it lists. -/
def enumValidator : Validator
  | .object [] => some fun _ => true
  | .object [("enum", .array values)] => some fun value => values.contains value
  | _ => none

def sampleTable : ParameterTable where
  provider := "p"
  protocol := "fixture"
  features := [.textInput, .textOutput, .streaming, .promptCaching]
  defaults := (((∅ : ParameterRules)
    |>.insert "prompt_cache.key" ⟨.supported, ⟨none⟩, .object [], some (.string "k"), true, none⟩)
    |>.insert "reasoning.effort" ⟨.unsupported, ⟨none⟩, .object [], some (.string "high"), true, none⟩)
    |>.insert "extensions.vendor.temperature"
      ⟨.supported, ⟨none⟩, .object [("enum", .array [.nat 0, .nat 1])], some (.nat 1), true, some "temperature"⟩
  models := (∅ : Std.ExtTreeMap String ModelParameterOverrides).insert "a" ⟨none, ∅⟩

theorem sampleTable_valid : sampleTable.validate enumValidator "fixture" ["model"] = .ok () := by decide +kernel

def samplePlanner : RequestPlanner enumValidator "fixture" ["model"] := ⟨sampleTable, sampleTable_valid⟩

def sampleRequest : ModelRequest where
  requestId := "r"
  messages := []
  model := ⟨"p", "a"⟩
  system := []
  tools := []
  toolChoice := .auto
  outputFormat := none
  promptCache := some ⟨some "k", none, []⟩
  reasoning := none
  maxOutputTokens := none
  extensions := .null

def samplePlan : PlannedRequest where
  request := { sampleRequest with extensions := .object ((∅ : Std.ExtTreeMap String Value).insert "vendor.temperature" (.nat 1)) }
  wireExtensions := (∅ : Std.ExtTreeMap String Value).insert "temperature" (.nat 1)
  decisions := [⟨"extensions.vendor.temperature", .defaulted⟩, ⟨"prompt_cache.breakpoints", .omittedUnknown⟩,
    ⟨"prompt_cache.key", .sent⟩,
    ⟨"tool_choice", .omittedUnknown⟩]


theorem plan_sample : samplePlanner.plan sampleRequest = .ok samplePlan := by decide +kernel

theorem plan_accounts_sample : samplePlanner.plan sampleRequest = .ok samplePlan ∧
    ∃ model : ModelParameterOverrides, sampleTable.models["a"]? = some model ∧
      Accounted enumValidator ["model"] (sampleTable.effective model) sampleRequest samplePlan :=
  ⟨plan_sample, plan_accounts plan_sample⟩

/-- The default of a rule that is not supported has no decision, a value that is sent
can be the default of its rule, and a choice that is left out the one of the request. -/
theorem plan_sample_undecided :
    samplePlanner.plan sampleRequest = .ok samplePlan ∧
      (((sampleTable.effective ⟨none, ∅⟩)["reasoning.effort"]?.bind (·.default)) = some (.string "high") ∧
        (samplePlan.decisions.filter fun d => d.parameter = "reasoning.effort") = []) ∧
      ((samplePlan.decisions.filter fun d => d.parameter = "prompt_cache.key") = [⟨"prompt_cache.key", .sent⟩] ∧
        samplePlan.request.settled "prompt_cache.key" =
          (sampleTable.effective ⟨none, ∅⟩)["prompt_cache.key"]?.bind (·.default)) ∧
      (samplePlan.decisions.filter fun d => d.parameter = "tool_choice") = [⟨"tool_choice", .omittedUnknown⟩] ∧
        samplePlan.request.settled "tool_choice" = sampleRequest.settled "tool_choice" := by
  refine ⟨plan_sample, ⟨?_, ?_⟩, ⟨?_, ?_⟩, ?_, ?_⟩ <;> decide +kernel

end Plan

end Requests
end Kolyan
