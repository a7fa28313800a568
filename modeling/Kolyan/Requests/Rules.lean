/-
# What a validated table says of its effective rules

A planner carries a table that passed `validate`.  Every effective rule of a model
comes from the defaults of the table or from the overrides of the model, so what
`validate` checks of each holds of it: an extension has a wire name that is not
reserved, anything else is one of the seven neutral parameters.  Two supported rules
share no wire name.
-/

import Kolyan.Requests.Planner

namespace Kolyan
namespace Requests

open Checks OrderedMaps

section Keys

theorem stripStart_eq_some {start text rest : String} : stripStart start text = some rest ↔ text = start ++ rest := by
  unfold stripStart
  constructor
  · intro h
    split_ifs at h with hstart
    obtain ⟨t, ht⟩ := List.isPrefixOf_iff_prefix.1 hstart
    obtain rfl := Option.some.inj h
    rw [← ht, List.drop_left, ← String.toList_inj, String.toList_append, String.toList_ofList, ht]
  · rintro rfl
    have hstart : start.toList.isPrefixOf (start ++ rest).toList = true := by
      rw [String.toList_append]
      exact List.isPrefixOf_iff_prefix.2 (List.prefix_append _ _)
    rw [if_pos hstart, String.toList_append, List.drop_left, String.ofList_toList]

theorem extensionKey_eq_some {key name : String} : extensionKey key = some name ↔ key = extensionStart ++ name :=
  stripStart_eq_some

@[simp] theorem extensionKey_append (name : String) : extensionKey (extensionStart ++ name) = some name :=
  extensionKey_eq_some.2 rfl

theorem extensionKey_of_mem {key : String} (h : key ∈ parameterNames) : extensionKey key = none := by
  have hall : ∀ key ∈ parameterNames, extensionKey key = none := by decide +kernel
  exact hall key h

theorem parameter_eq_null {request : ModelRequest} {key : String} (h : key ∉ parameterNames) :
    request.parameter key = .null := by
  unfold ModelRequest.parameter
  split <;> first | rfl | exact absurd (by decide) h

end Keys

section Table

variable {validator : Validator} {protocol : String} {reserved : List String} {table : ParameterTable}

/-- What `validate` checks of a rule. -/
structure RuleValid (reserved : List String) (key : String) (rule : ParameterRule) : Prop where
  bound : (extensionKey key).isSome → ∃ wire, rule.wireName = some wire ∧ wire ∉ reserved
  neutral : extensionKey key = none → key ∈ parameterNames ∧ rule.wireName = none

theorem ruleValid_of_checkBinding {key : String} {rule : ParameterRule}
    (h : checkBinding reserved key rule = .ok ()) : RuleValid reserved key rule := by
  unfold checkBinding at h
  split at h
  · rename_i extension hkey
    simp only [bind_eq_ok, expect_eq_ok, reject_eq_ok, not_or] at h
    obtain ⟨_, -, wire, hwire, -, -, -, -, hreserved⟩ := h
    exact ⟨fun _ => ⟨wire, hwire, hreserved⟩, fun hnone => by rw [hkey] at hnone; cases hnone⟩
  · rename_i hkey
    rw [reject_eq_ok, not_or, not_not] at h
    exact ⟨fun hsome => by simp [hkey] at hsome, fun _ => ⟨h.1, by simpa using h.2⟩⟩

theorem getElem?_extend {defaults overrides : ParameterRules} {key : String} :
    (extend defaults overrides)[key]? = overrides[key]?.or defaults[key]? :=
  getElem?_foldl_insert_toList overrides

theorem ruleValid_effective (h : table.validate validator protocol reserved = .ok ()) {name : String}
    {model : ModelParameterOverrides} (hmodel : table.models[name]? = some model) {key : String}
    {rule : ParameterRule} (hrule : (table.effective model)[key]? = some rule) : RuleValid reserved key rule := by
  unfold ParameterTable.validate at h
  simp only [bind_eq_ok, forEach_eq_ok, reject_eq_ok] at h
  obtain ⟨_, -, _, hrules, -⟩ := h
  refine ruleValid_of_checkBinding ?_
  suffices hvalid : validateRule validator reserved key rule = .ok () by
    simp only [validateRule, bind_eq_ok] at hvalid
    obtain ⟨_, -, _, hbinding, -⟩ := hvalid
    exact hbinding
  refine hrules (key, rule) (List.mem_append.2 ?_)
  rw [ParameterTable.effective, getElem?_extend, Option.or_eq_some_iff] at hrule
  rcases hrule with hown | ⟨-, hdefault⟩
  · exact .inr (List.mem_flatMap.2 ⟨(name, model), Std.ExtTreeMap.mem_toList_iff_getElem?_eq_some.2 hmodel,
      Std.ExtTreeMap.mem_toList_iff_getElem?_eq_some.2 hown⟩)
  · exact .inl (Std.ExtTreeMap.mem_toList_iff_getElem?_eq_some.2 hdefault)

/-- The wire name that a supported rule binds. -/
def wireOf (rules : ParameterRules) (key wire : String) : Prop :=
  ∃ rule : ParameterRule, rules[key]? = some rule ∧ rule.support = .supported ∧ rule.wireName = some wire

theorem wireOf_inj {rules : ParameterRules} (h : (boundNames rules).Nodup) {key key' wire : String}
    (hkey : wireOf rules key wire) (hkey' : wireOf rules key' wire) : key = key' := by
  obtain ⟨rule, hrule, hsupported, hwire⟩ := hkey
  obtain ⟨rule', hrule', hsupported', hwire'⟩ := hkey'
  let bound : String × ParameterRule → Option String := fun entry =>
    if entry.2.support = .supported then entry.2.wireName else none
  have hpairwise : rules.toList.Pairwise fun e e' => bound e = bound e' → ∀ name, bound e = some name → e = e' := by
    refine (List.pairwise_filterMap.1 h).imp fun {e e'} hne heq name hname => ?_
    exact absurd rfl (hne name hname name (heq.symm.trans hname))
  have hsymm : Std.Symm fun e e' : String × ParameterRule =>
      bound e = bound e' → ∀ name, bound e = some name → e = e' :=
    ⟨fun e e' himp heq name hname => (himp heq.symm name (heq.symm.trans hname)).symm⟩
  have hbound : bound (key, rule) = some wire := (if_pos hsupported).trans hwire
  have hbound' : bound (key', rule') = some wire := (if_pos hsupported').trans hwire'
  have heq := hpairwise.forall_of_forall (fun _ _ _ _ _ => rfl)
    (Std.ExtTreeMap.mem_toList_iff_getElem?_eq_some.2 hrule)
    (Std.ExtTreeMap.mem_toList_iff_getElem?_eq_some.2 hrule') (hbound.trans hbound'.symm) wire hbound
  exact congrArg Prod.fst heq

theorem wireOf_effective_inj (h : table.validate validator protocol reserved = .ok ()) {name : String}
    {model : ModelParameterOverrides} (hmodel : table.models[name]? = some model) {key key' wire : String}
    (hkey : wireOf (table.effective model) key wire) (hkey' : wireOf (table.effective model) key' wire) :
    key = key' := by
  unfold ParameterTable.validate at h
  simp only [bind_eq_ok, forEach_eq_ok, reject_eq_ok] at h
  obtain ⟨_, -, _, -, hmodels⟩ := h
  have hvalid := hmodels (name, model) (Std.ExtTreeMap.mem_toList_iff_getElem?_eq_some.2 hmodel)
  simp only [validateModel, bind_eq_ok, forEach_eq_ok, reject_eq_ok, not_not] at hvalid
  obtain ⟨_, -, _, -, hnodup⟩ := hvalid
  exact wireOf_inj hnodup hkey hkey'

end Table

end Requests
end Kolyan
