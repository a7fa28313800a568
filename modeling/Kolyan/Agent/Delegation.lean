/-
# Permissions along a chain of delegations

A chain starts at a root that the catalog resolves and goes on with a child that
the catalog resolves, a self call or an intent of a prepared invocation, among
registrations in the catalog.  Each link rests on what its parent and its host
permit (`Admits`), so that along the chain permissions only shrink, and a named
child runs the content that was registered first (`delegation_shrinks`).
-/

import Kolyan.Agent.Invoke

namespace Kolyan
namespace Agent

open Checks Tasks Policy

section Admission

variable {sha256 : Value → String} {catalog : AgentCatalog} {parent : AgentSnapshot sha256}
  {host requested ceiling : AgentPermissions} {definition : AgentDefinition} {selector : AgentSelector}

/-- A selector as the target of a call. -/
def AgentSelector.target : AgentSelector → InvocationTarget
  | named key => .named key
  | inline definition => .inline definition

/-- **What admits a child**: its permissions are within the parent's, the host's and
its own definition's; a child with the parent's key is the parent's definition again,
and both allow self calls; another named child is a target of both, and another inline
child is allowed by both. -/
structure Admits (parent : AgentSnapshot sha256) (host : AgentPermissions) (target : InvocationTarget)
    (definition : AgentDefinition) (permissions : AgentPermissions) : Prop where
  parent_le : permissions ≤ parent.permissions
  host_le : permissions ≤ host
  definition_le : permissions ≤ definition.permissions
  same : definition.key = parent.definition.key → definition = parent.definition ∧
    parent.permissions.delegation.allowSelf = true ∧ host.delegation.allowSelf = true
  selfCall : target = .selfCall → definition = parent.definition
  named : ∀ key, target = .named key → definition.key = key ∧ (key ≠ parent.definition.key →
    key ∈ parent.permissions.delegation.namedTargets ∧ key ∈ host.delegation.namedTargets)
  inline : ∀ content, target = .inline content → definition = content ∧ (definition.key ≠ parent.definition.key →
    parent.permissions.delegation.allowInline = true ∧ host.delegation.allowInline = true)

theorem AgentCatalog.definition_named {key : AgentKey} (h : catalog.definition (.named key) = .ok definition) :
    catalog.definitions[key]? = some definition := by
  simp only [AgentCatalog.definition, bind_eq_ok, expect_eq_ok] at h
  obtain ⟨_, -, h⟩ := h
  exact h

theorem AgentCatalog.definition_inline {content : AgentDefinition}
    (h : catalog.definition (.inline content) = .ok definition) : definition = content := by
  simp only [AgentCatalog.definition, bind_eq_ok, pure_eq_ok] at h
  obtain ⟨_, -, rfl⟩ := h
  rfl

theorem admits_child (h : catalog.childDefinitionCeiling parent selector host = .ok (definition, ceiling))
    (hrequested : requested ≤ ceiling) :
    Admits parent host selector.target definition requested ∧ catalog.definition selector = .ok definition := by
  simp only [AgentCatalog.childDefinitionCeiling, bind_eq_ok, reject_eq_ok, pure_eq_ok, Bool.not_eq_false,
    Prod.mk.injEq] at h
  obtain ⟨found, hfound, authority, hauthority, _, hadmits, meet, hmeet, rfl, rfl⟩ := h
  obtain rfl := AgentPermissions.intersection_eq_ok hauthority
  obtain rfl := AgentPermissions.intersection_eq_ok hmeet
  obtain ⟨hauthority, hdefinition⟩ := le_inf_iff.1 hrequested
  obtain ⟨hparent, hhost⟩ := le_inf_iff.1 hauthority
  refine ⟨⟨hparent, hhost, hdefinition, fun hkey => ?_, fun hself => ?_, fun key hkey => ?_, fun content hcontent => ?_⟩,
    hfound⟩
  · unfold admitsChild at hadmits
    rw [if_pos hkey, Bool.and_eq_true] at hadmits
    obtain ⟨hself, hsame⟩ := hadmits
    exact ⟨of_decide_eq_true hsame, AgentPermissions.allowSelf_of_le inf_le_left hself,
      AgentPermissions.allowSelf_of_le inf_le_right hself⟩
  · cases selector <;> exact nomatch hself
  · cases selector with
    | inline content => exact nomatch hkey
    | named name =>
      obtain rfl := InvocationTarget.named.inj hkey
      have hname := catalog.keyed name found (AgentCatalog.definition_named hfound)
      refine ⟨hname, fun hne => ?_⟩
      rw [admitsChild, if_neg (hname ▸ hne)] at hadmits
      exact ⟨AgentPermissions.mem_namedTargets inf_le_left hadmits,
        AgentPermissions.mem_namedTargets inf_le_right hadmits⟩
  · cases selector with
    | named name => exact nomatch hcontent
    | inline given =>
      obtain rfl := InvocationTarget.inline.inj hcontent
      refine ⟨AgentCatalog.definition_inline hfound, fun hne => ?_⟩
      rw [admitsChild, if_neg hne] at hadmits
      exact ⟨AgentPermissions.allowInline_of_le inf_le_left hadmits,
        AgentPermissions.allowInline_of_le inf_le_right hadmits⟩

theorem admits_self (h : selfDefinitionCeiling parent host = .ok (definition, ceiling)) (hrequested : requested ≤ ceiling) :
    Admits parent host .selfCall definition requested := by
  simp only [selfDefinitionCeiling, bind_eq_ok, reject_eq_ok, pure_eq_ok, Bool.not_eq_false, Prod.mk.injEq] at h
  obtain ⟨authority, hauthority, meet, hmeet, _, hself, rfl, rfl⟩ := h
  obtain rfl := AgentPermissions.intersection_eq_ok hauthority
  obtain rfl := AgentPermissions.intersection_eq_ok hmeet
  obtain ⟨hauthority, hdefinition⟩ := le_inf_iff.1 hrequested
  obtain ⟨hparent, hhost⟩ := le_inf_iff.1 hauthority
  have hboth := AgentPermissions.allowSelf_of_le inf_le_left hself
  exact {
    parent_le := hparent
    host_le := hhost
    definition_le := hdefinition
    same := fun _ => ⟨rfl, AgentPermissions.allowSelf_of_le inf_le_left hboth,
      AgentPermissions.allowSelf_of_le inf_le_right hboth⟩
    selfCall := fun _ => rfl
    named := nofun
    inline := nofun }

end Admission

section Resolution

variable {sha256 : Value → String} {catalog : AgentCatalog} {parent child : AgentSnapshot sha256}
  {host requested : AgentPermissions} {definition : AgentDefinition} {selector : AgentSelector} {instanceId : String}

theorem resolve_eq_ok (h : catalog.resolve sha256 selector instanceId host requested = .ok child) :
    catalog.definition selector = .ok child.definition ∧ child.permissions ≤ host := by
  simp only [AgentCatalog.resolve, bind_eq_ok] at h
  obtain ⟨definition, hdefinition, ceiling, hceiling, _, hrequested, hnew⟩ := h
  obtain ⟨rfl, rfl, -⟩ := AgentSnapshot.new_eq_ok hnew
  obtain rfl := AgentPermissions.intersection_eq_ok hceiling
  exact ⟨hdefinition, (le_inf_iff.1 (AgentPermissions.requireSubsetOf_eq_ok hrequested)).1⟩

theorem resolveChild_eq_ok (h : catalog.resolveChild parent selector instanceId host requested = .ok child) :
    Admits parent host selector.target child.definition child.permissions ∧
      catalog.definition selector = .ok child.definition := by
  simp only [AgentCatalog.resolveChild, bind_eq_ok] at h
  obtain ⟨⟨definition, ceiling⟩, hceiling, _, -, _, hrequested, hnew⟩ := h
  obtain ⟨rfl, rfl, -⟩ := AgentSnapshot.new_eq_ok hnew
  exact admits_child hceiling (AgentPermissions.requireSubsetOf_eq_ok hrequested)

theorem resolveSelf_eq_ok (h : resolveSelf parent instanceId host requested = .ok child) :
    Admits parent host .selfCall child.definition child.permissions := by
  simp only [resolveSelf, bind_eq_ok] at h
  obtain ⟨⟨definition, ceiling⟩, hceiling, _, -, _, hrequested, hnew⟩ := h
  obtain ⟨rfl, rfl, -⟩ := AgentSnapshot.new_eq_ok hnew
  exact admits_self hceiling (AgentPermissions.requireSubsetOf_eq_ok hrequested)

theorem resolveChildDefinition_eq_ok
    (h : catalog.resolveChildDefinition parent selector host requested = .ok definition) :
    Admits parent host selector.target definition requested ∧ catalog.definition selector = .ok definition := by
  simp only [AgentCatalog.resolveChildDefinition, bind_eq_ok, pure_eq_ok] at h
  obtain ⟨⟨found, ceiling⟩, hceiling, _, hrequested, rfl⟩ := h
  exact admits_child hceiling (AgentPermissions.requireSubsetOf_eq_ok hrequested)

theorem resolveSelfDefinition_eq_ok (h : resolveSelfDefinition parent host requested = .ok definition) :
    Admits parent host .selfCall definition requested := by
  simp only [resolveSelfDefinition, bind_eq_ok, pure_eq_ok] at h
  obtain ⟨⟨found, ceiling⟩, hceiling, _, hrequested, rfl⟩ := h
  exact admits_self hceiling (AgentPermissions.requireSubsetOf_eq_ok hrequested)

end Resolution

section Intents

variable {codec : InvokeCodec} {parent : AgentInvocationBinding codec.sha256} {execution : ExecutionRef}
  {catalog : AgentCatalog} {host : AgentPermissions} {limits : InvokePrepareLimits}

theorem resolveTarget_eq_ok {target : InvocationTarget} {permissions : AgentPermissions} {definition : AgentDefinition}
    (h : resolveTarget codec parent catalog host permissions target = .ok definition) :
    Admits parent.snapshot host target definition permissions ∧
      ∀ key, target = .named key → catalog.definitions[key]? = some definition := by
  cases target with
  | selfCall => exact ⟨resolveSelfDefinition_eq_ok h, nofun⟩
  | named key =>
    obtain ⟨hadmits, hfound⟩ := resolveChildDefinition_eq_ok h
    exact ⟨hadmits, fun name hname => InvocationTarget.named.inj hname ▸ AgentCatalog.definition_named hfound⟩
  | inline content => exact ⟨(resolveChildDefinition_eq_ok h).1, nofun⟩

theorem resolveIntent_eq_ok {child : ChildInvocationInput} {intent : ResolvedChildIntent}
    (h : resolveIntent codec parent catalog host limits child = .ok intent) :
    resolveTarget codec parent catalog host child.permissions child.target = .ok intent.definition ∧
      intent.permissions = child.permissions ∧ intent.input = child.input := by
  simp only [resolveIntent, agentCheck, bind_eq_ok, mapError_eq_ok, pure_eq_ok] at h
  obtain ⟨_, -, definition, hdefinition, rfl⟩ := h
  exact ⟨hdefinition, rfl, rfl⟩

theorem resolveIntents_eq_ok {children : List ChildInvocationInput} {intents : List ResolvedChildIntent}
    (h : resolveIntents codec parent catalog host limits children = .ok intents) :
    List.Forall₂ (fun child intent => resolveIntent codec parent catalog host limits child = .ok intent) children
      intents := by
  induction children generalizing intents with
  | nil =>
    obtain rfl := Except.ok.inj h
    exact .nil
  | cons child children ih =>
    simp only [resolveIntents, bind_eq_ok, pure_eq_ok] at h
    obtain ⟨intent, hintent, rest, hrest, rfl⟩ := h
    exact .cons hintent (ih hrest)

theorem prepareAgentInvocation_eq_ok {call : ToolCall} {prepared : PreparedAgentInvocation}
    (h : prepareAgentInvocation codec parent execution catalog host limits call = .ok prepared) :
    ∃ input, codec.decodeInput call.arguments = .ok input ∧
      resolveIntents codec parent catalog host limits input.children = .ok prepared.children ∧
      bindPlan codec call (invokePlan codec parent execution limits input prepared.children) = .ok prepared.prepared ∧
      prepared.parallel = input.parallel ∧ limits.validate = .ok () ∧
      input.children ≠ [] ∧ input.children.length ≤ limits.maxChildren := by
  simp only [prepareAgentInvocation, decodeInvoke, bind_eq_ok, mapError_eq_ok, reject_eq_ok, pure_eq_ok] at h
  obtain ⟨_, hlimits, _, -, _, -, _, -, _, -, input, hinput, _, hcount, children, hchildren, bound, hbound, rfl⟩ := h
  rw [not_or, not_lt] at hcount
  exact ⟨input, hinput, hchildren, hbound, rfl, hlimits, hcount⟩

end Intents

section Chains

variable {codec : InvokeCodec}

/-- A link of a chain: a snapshot, the target that it was resolved from and the host's
allowance at that moment. -/
structure AgentLink (codec : InvokeCodec) where
  snapshot : AgentSnapshot codec.sha256
  host : AgentPermissions
  target : InvocationTarget

/-- The permissions of a link. -/
abbrev AgentLink.permissions (link : AgentLink codec) : AgentPermissions := link.snapshot.permissions

/-- The definition that a link runs. -/
abbrev AgentLink.definition (link : AgentLink codec) : AgentDefinition := link.snapshot.definition

/-- The chains of delegations, the newest link first, with the catalog that they have
led to and what was registered in it in turn. -/
inductive Delegated (codec : InvokeCodec) :
    AgentCatalog → List AgentDefinition → List (AgentLink codec) → Prop
  | new {capacity : ℕ} {catalog : AgentCatalog} (h : AgentCatalog.new capacity = .ok catalog) :
    Delegated codec catalog [] []
  | register {catalog next : AgentCatalog} {registered : List AgentDefinition} {links : List (AgentLink codec)}
    {definition : AgentDefinition} {registration : Registration} (h : Delegated codec catalog registered links)
    (hregister : catalog.register definition = .ok (registration, next)) :
    Delegated codec next (registered ++ [definition]) links
  | root {catalog : AgentCatalog} {registered : List AgentDefinition} {selector : AgentSelector} {instanceId : String}
    {host requested : AgentPermissions} {snapshot : AgentSnapshot codec.sha256} (h : Delegated codec catalog registered [])
    (hresolve : catalog.resolve codec.sha256 selector instanceId host requested = .ok snapshot) :
    Delegated codec catalog registered [⟨snapshot, host, selector.target⟩]
  | child {catalog : AgentCatalog} {registered : List AgentDefinition} {parent : AgentLink codec}
    {ancestors : List (AgentLink codec)} {selector : AgentSelector} {instanceId : String} {host requested : AgentPermissions}
    {snapshot : AgentSnapshot codec.sha256} (h : Delegated codec catalog registered (parent :: ancestors))
    (hresolve : catalog.resolveChild parent.snapshot selector instanceId host requested = .ok snapshot) :
    Delegated codec catalog registered (⟨snapshot, host, selector.target⟩ :: parent :: ancestors)
  | selfCall {catalog : AgentCatalog} {registered : List AgentDefinition} {parent : AgentLink codec}
    {ancestors : List (AgentLink codec)} {instanceId : String} {host requested : AgentPermissions}
    {snapshot : AgentSnapshot codec.sha256} (h : Delegated codec catalog registered (parent :: ancestors))
    (hresolve : resolveSelf parent.snapshot instanceId host requested = .ok snapshot) :
    Delegated codec catalog registered (⟨snapshot, host, .selfCall⟩ :: parent :: ancestors)
  | invoked {catalog : AgentCatalog} {registered : List AgentDefinition} {parent : AgentLink codec}
    {ancestors : List (AgentLink codec)} {binding : AgentInvocationBinding codec.sha256} {execution : ExecutionRef}
    {host : AgentPermissions} {limits : InvokePrepareLimits} {call : ToolCall} {prepared : PreparedAgentInvocation}
    {input : AgentInvokeInput} {i : ℕ} {child : ChildInvocationInput} {intent : ResolvedChildIntent} {instanceId : String}
    {snapshot : AgentSnapshot codec.sha256} (h : Delegated codec catalog registered (parent :: ancestors))
    (hbinding : binding.snapshot = parent.snapshot)
    (hprepare : prepareAgentInvocation codec binding execution catalog host limits call = .ok prepared)
    (hinput : codec.decodeInput call.arguments = .ok input) (hchild : input.children[i]? = some child)
    (hintent : prepared.children[i]? = some intent)
    (hsnapshot : AgentSnapshot.new codec.sha256 intent.definition instanceId intent.permissions = .ok snapshot) :
    Delegated codec catalog registered (⟨snapshot, host, child.target⟩ :: parent :: ancestors)

/-- A link below its parent. -/
def LinkAdmitted (child parent : AgentLink codec) : Prop :=
  Admits parent.snapshot child.host child.target child.definition child.permissions

/-- What a catalog has to do with the registrations that led to it. -/
structure Registered (catalog : AgentCatalog) (registered : List AgentDefinition) : Prop where
  first : ∀ key : AgentKey, catalog.definitions[key]? = registered.find? fun definition => definition.key = key
  one : ∀ a ∈ registered, ∀ b ∈ registered, a.key = b.key → a = b

variable {catalog next : AgentCatalog} {registered : List AgentDefinition} {links : List (AgentLink codec)}

theorem registered_new {capacity : ℕ} (h : AgentCatalog.new capacity = .ok catalog) : Registered catalog [] := by
  simp only [AgentCatalog.new, bind_eq_ok, pure_eq_ok] at h
  obtain ⟨_, -, rfl⟩ := h
  exact ⟨fun key => by simp, by simp⟩

theorem register_definitions {definition : AgentDefinition} {registration : Registration}
    (h : catalog.register definition = .ok (registration, next)) :
    (catalog.definitions[definition.key]? = none ∨ catalog.definitions[definition.key]? = some definition) ∧
      ∀ key : AgentKey, next.definitions[key]? =
        catalog.definitions[key]?.or (if definition.key = key then some definition else none) := by
  unfold AgentCatalog.register at h
  split at h
  · rename_i existing hexisting
    split_ifs at h with hsame
    obtain ⟨-, rfl⟩ := Prod.mk.inj (Except.ok.inj h)
    subst hsame
    refine ⟨.inr hexisting, fun key => ?_⟩
    by_cases hkey : existing.key = key
    · subst hkey
      rw [hexisting, Option.some_or]
    · rw [if_neg hkey, Option.or_none]
  · rename_i hnone
    split_ifs at h with hfull
    obtain ⟨-, rfl⟩ := Prod.mk.inj (Except.ok.inj h)
    refine ⟨.inl hnone, fun key => ?_⟩
    rw [OrderedMaps.getElem?_insert]
    by_cases hkey : definition.key = key
    · subst hkey
      rw [if_pos rfl, if_pos rfl, hnone, Option.none_or]
    · rw [if_neg hkey, if_neg hkey, Option.or_none]

theorem Registered.register (h : Registered catalog registered) {definition : AgentDefinition}
    {registration : Registration} (hregister : catalog.register definition = .ok (registration, next)) :
    Registered next (registered ++ [definition]) := by
  obtain ⟨hfree, hnext⟩ := register_definitions hregister
  have hkept : ∀ other ∈ registered, other.key = definition.key → other = definition := by
    intro other hother hkey
    rw [h.first] at hfree
    rcases hfree with hnone | hsome
    · exact absurd (List.find?_eq_none.1 hnone other hother) (by simpa using hkey)
    · have hfound := List.find?_some (p := fun found : AgentDefinition => decide (found.key = definition.key)) hsome
      exact h.one other hother definition (List.mem_of_find?_eq_some hsome) hkey
  constructor
  · intro key
    rw [hnext, h.first, List.find?_append, List.find?_singleton]
    simp only [decide_eq_true_eq]
  · intro a ha b hb hkey
    rw [List.mem_append, List.mem_singleton] at ha hb
    rcases ha with ha | rfl <;> rcases hb with hb | rfl
    · exact h.one a ha b hb hkey
    · exact hkept a ha hkey
    · exact (hkept b hb hkey.symm).symm
    · rfl

theorem find?_registered {key : AgentKey} {found definition : AgentDefinition}
    (h : registered.find? (fun definition => definition.key = key) = some found) :
    (registered ++ [definition]).find? (fun definition => definition.key = key) = some found := by
  rw [List.find?_append, h, Option.some_or]

/-- A link and one above it: what the link permits is within what that one permits
and within what its host allowed. -/
def Shrinks (descendant ancestor : AgentLink codec) : Prop :=
  descendant.permissions ≤ ancestor.permissions ∧ descendant.permissions ≤ ancestor.host

/-- A link runs the definition that was registered first under the name that it was
called by, which the catalog still holds. -/
def RunsFirst (catalog : AgentCatalog) (registered : List AgentDefinition) (link : AgentLink codec) : Prop :=
  ∀ key, link.target = .named key → catalog.definitions[key]? = some link.definition ∧
    registered.find? (fun definition => definition.key = key) = some link.definition

/-- **What holds of a chain**: every link is within all those above it, within its own
host and its own definition, and is admitted by the next one. -/
structure Contained (catalog : AgentCatalog) (registered : List AgentDefinition) (links : List (AgentLink codec)) :
    Prop where
  catalogued : Registered catalog registered
  shrinks : links.Pairwise Shrinks
  host : ∀ link ∈ links, link.permissions ≤ link.host
  definition : ∀ link ∈ links, link.permissions ≤ link.definition.permissions
  admitted : links.IsChain LinkAdmitted
  first : ∀ link ∈ links, RunsFirst catalog registered link

theorem Registered.runsFirst (h : Registered catalog registered) {link : AgentLink codec}
    (hnamed : ∀ key, link.target = .named key → catalog.definitions[key]? = some link.definition) :
    RunsFirst catalog registered link := by
  intro key hkey
  have hfound := hnamed key hkey
  exact ⟨hfound, h.first key ▸ hfound⟩

theorem Contained.register (h : Contained catalog registered links) {definition : AgentDefinition}
    {registration : Registration} (hregister : catalog.register definition = .ok (registration, next)) :
    Contained next (registered ++ [definition]) links := by
  refine ⟨h.catalogued.register hregister, h.shrinks, h.host, h.definition, h.admitted, fun link hlink key hkey => ?_⟩
  obtain ⟨hfound, hfirst⟩ := h.first link hlink key hkey
  refine ⟨?_, find?_registered hfirst⟩
  rw [(register_definitions hregister).2, hfound, Option.some_or]

theorem Contained.root {link : AgentLink codec} (h : Contained catalog registered ([] : List (AgentLink codec)))
    (hhost : link.permissions ≤ link.host)
    (hnamed : ∀ key, link.target = .named key → catalog.definitions[key]? = some link.definition) :
    Contained catalog registered [link] := by
  constructor
  case catalogued => exact h.catalogued
  case shrinks => exact List.pairwise_singleton _ _
  case host => exact List.forall_mem_singleton.2 hhost
  case definition => exact List.forall_mem_singleton.2 link.snapshot.permissions_le
  case admitted => exact .singleton _
  case first => exact List.forall_mem_singleton.2 (h.catalogued.runsFirst hnamed)

/-- **A link that the last one admits keeps what holds of a chain.** -/
theorem Contained.extend {parent link : AgentLink codec} {ancestors : List (AgentLink codec)}
    (h : Contained catalog registered (parent :: ancestors)) (hadmitted : LinkAdmitted link parent)
    (hnamed : ∀ key, link.target = .named key → catalog.definitions[key]? = some link.definition) :
    Contained catalog registered (link :: parent :: ancestors) := by
  have hparent : Shrinks link parent :=
    ⟨hadmitted.parent_le, hadmitted.parent_le.trans (h.host parent List.mem_cons_self)⟩
  constructor
  case catalogued => exact h.catalogued
  case shrinks =>
    refine List.pairwise_cons.2 ⟨fun ancestor hancestor => ?_, h.shrinks⟩
    rcases List.mem_cons.1 hancestor with rfl | hmem
    · exact hparent
    · -- what the parent permits is within all that its ancestors permit
      obtain ⟨hpermissions, hhost⟩ := (List.pairwise_cons.1 h.shrinks).1 ancestor hmem
      exact ⟨hparent.1.trans hpermissions, hparent.1.trans hhost⟩
  case host => exact List.forall_mem_cons.2 ⟨hadmitted.host_le, h.host⟩
  case definition => exact List.forall_mem_cons.2 ⟨hadmitted.definition_le, h.definition⟩
  case admitted => exact List.isChain_cons_cons.2 ⟨hadmitted, h.admitted⟩
  case first => exact List.forall_mem_cons.2 ⟨h.catalogued.runsFirst hnamed, h.first⟩

theorem definition_target {selector : AgentSelector} {definition : AgentDefinition} {key : AgentKey}
    (h : catalog.definition selector = .ok definition) (hkey : selector.target = .named key) :
    catalog.definitions[key]? = some definition := by
  cases selector with
  | inline content => exact nomatch hkey
  | named name => exact InvocationTarget.named.inj hkey ▸ AgentCatalog.definition_named h

theorem admits_intent {binding : AgentInvocationBinding codec.sha256} {execution : ExecutionRef} {host : AgentPermissions}
    {limits : InvokePrepareLimits} {call : ToolCall} {prepared : PreparedAgentInvocation} {input : AgentInvokeInput} {i : ℕ}
    {child : ChildInvocationInput} {intent : ResolvedChildIntent}
    (hprepare : prepareAgentInvocation codec binding execution catalog host limits call = .ok prepared)
    (hinput : codec.decodeInput call.arguments = .ok input) (hchild : input.children[i]? = some child)
    (hintent : prepared.children[i]? = some intent) :
    Admits binding.snapshot host child.target intent.definition intent.permissions ∧
      ∀ key, child.target = .named key → catalog.definitions[key]? = some intent.definition := by
  obtain ⟨decoded, hdecoded, hintents, -⟩ := prepareAgentInvocation_eq_ok hprepare
  obtain rfl := Except.ok.inj (hinput.symm.trans hdecoded)
  obtain ⟨hi, rfl⟩ := List.getElem?_eq_some_iff.1 hchild
  obtain ⟨hi', rfl⟩ := List.getElem?_eq_some_iff.1 hintent
  have hone := (List.forall₂_iff_get.1 (resolveIntents_eq_ok hintents)).2 i hi hi'
  obtain ⟨htarget, hpermissions, -⟩ := resolveIntent_eq_ok hone
  rw [List.get_eq_getElem, List.get_eq_getElem] at hpermissions
  rw [hpermissions]
  exact resolveTarget_eq_ok htarget

/-- **Permissions only shrink along delegations, and a named child runs what was
registered first.** -/
theorem delegation_shrinks (h : Delegated codec catalog registered links) : Contained catalog registered links := by
  induction h with
  | new hnew => exact ⟨registered_new hnew, .nil, by simp, by simp, .nil, by simp⟩
  | register _ hregister ih => exact ih.register hregister
  | @root catalog registered selector _ host _ snapshot _ hresolve ih =>
    obtain ⟨hdefinition, hhost⟩ := resolve_eq_ok hresolve
    exact ih.root hhost fun key => definition_target hdefinition
  | child _ hresolve ih =>
    obtain ⟨hadmits, hdefinition⟩ := resolveChild_eq_ok hresolve
    exact ih.extend hadmits fun key => definition_target hdefinition
  | selfCall _ hresolve ih => exact ih.extend (resolveSelf_eq_ok hresolve) nofun
  | invoked _ hbinding hprepare hinput hchild hintent hsnapshot ih =>
    obtain ⟨hadmits, hnamed⟩ := admits_intent hprepare hinput hchild hintent
    obtain ⟨hdefinition, hpermissions, -⟩ := AgentSnapshot.new_eq_ok hsnapshot
    rw [← hdefinition, ← hpermissions, hbinding] at hadmits
    rw [← hdefinition] at hnamed
    exact ih.extend hadmits hnamed

def selfCaller : AgentDefinition where
  input :=
    { definitionId := "planner"
      revision := "1"
      displayName := none
      model := ⟨"provider", "model"⟩
      instructions := "plan"
      permissions := { tools := {.read}, delegation := { namedTargets := ∅, allowInline := false, allowSelf := true } } }
  valid := by decide +kernel

def selfCallerCatalog : AgentCatalog where
  definitions := Std.ExtTreeMap.insert ∅ selfCaller.key selfCaller
  capacity := 1
  keyed key found h := by
    rw [OrderedMaps.getElem?_insert] at h
    split_ifs at h with hkey
    · exact Option.some.inj h ▸ hkey
    · simp at h

def selfCallerInput (instanceId : String) : SnapshotInput where
  schemaVersion := 1
  definition := selfCaller
  identity := ⟨"planner", "1", instanceId⟩
  permissions := selfCaller.permissions
  digest := "digest"

def constantCodec : InvokeCodec := ⟨fun _ => "digest", fun _ => .error "unread", fun _ => .error "unread"⟩

/-- A self call below a named root. -/
theorem delegation_shrinks_self :
    @Contained constantCodec selfCallerCatalog [selfCaller]
      [⟨⟨selfCallerInput "child", by decide +kernel⟩, selfCaller.permissions, .selfCall⟩,
        ⟨⟨selfCallerInput "root", by decide +kernel⟩, selfCaller.permissions, .named selfCaller.key⟩] := by
  have hnew : AgentCatalog.new 1 = .ok ⟨∅, 1, by simp⟩ := rfl
  have hregister : AgentCatalog.register ⟨∅, 1, by simp⟩ selfCaller = .ok (.inserted, selfCallerCatalog) := rfl
  have hresolve : selfCallerCatalog.resolve constantCodec.sha256 (.named selfCaller.key) "root" selfCaller.permissions
      selfCaller.permissions = .ok ⟨selfCallerInput "root", by decide +kernel⟩ := by decide +kernel
  have hself : @resolveSelf constantCodec.sha256 ⟨selfCallerInput "root", by decide +kernel⟩ "child"
      selfCaller.permissions selfCaller.permissions = .ok ⟨selfCallerInput "child", by decide +kernel⟩ := by
    decide +kernel
  have hroot := Delegated.root (.register (.new hnew) hregister) hresolve
  exact delegation_shrinks (.selfCall hroot hself)

end Chains

end Agent
end Kolyan
