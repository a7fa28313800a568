/-
# Verifying saved invocations

`verify_saved_agent_invocation` prepares a saved call again over a catalog of the
definitions that its plan holds.  Whatever it accepts a preparation over that
catalog makes.  What a preparation made it accepts exactly when no two inline
targets of the call have one key and different content
(`verifySaved_iff_inlineAgree`): the registrations of two such targets conflict,
although the preparation has resolved both.
-/

import Kolyan.Hooks.Once
import Kolyan.Agent.Delegation

namespace Kolyan
namespace Agent

open Checks Tasks Policy

variable {codec : InvokeCodec} {parent : AgentInvocationBinding codec.sha256} {execution : ExecutionRef}
  {catalog next : AgentCatalog} {host : AgentPermissions} {limits : InvokePrepareLimits}

/-- Inline targets with one key have one content. -/
def InlineAgree (input : AgentInvokeInput) : Prop :=
  ∀ a ∈ input.children, ∀ b ∈ input.children, ∀ c d : AgentDefinition, a.target = .inline c → b.target = .inline d →
    c.key = d.key → c = d

/-- What is read from the encoding of a plan is the plan. -/
def InvokeCodec.ReadsBack (codec : InvokeCodec) (plan : InvokePlan) : Prop :=
  codec.decodePlan plan.toValue.canonical = .ok plan

/-- Definitions with one key are one definition. -/
def Consistent (definitions : List AgentDefinition) : Prop :=
  ∀ a ∈ definitions, ∀ b ∈ definitions, a.key = b.key → a = b

section Registering

theorem Registered.holds {registered : List AgentDefinition} (h : Registered catalog registered)
    {definition : AgentDefinition} (hmem : definition ∈ registered) :
    catalog.definitions[definition.key]? = some definition := by
  rw [h.first]
  cases hfind : registered.find? fun found => found.key = definition.key with
  | none => exact absurd (List.find?_eq_none.1 hfind definition hmem) (by simp)
  | some found =>
    have hkey := List.find?_some (p := fun found : AgentDefinition => decide (found.key = definition.key)) hfind
    rw [h.one found (List.mem_of_find?_eq_some hfind) definition hmem (of_decide_eq_true hkey)]

theorem Registered.registerAll {registered : List AgentDefinition} {intents : List ResolvedChildIntent}
    (h : Registered catalog registered) (hall : registerAll catalog intents = .ok next) :
    Registered next (registered ++ intents.map (·.definition)) := by
  induction intents generalizing catalog registered with
  | nil =>
    obtain rfl := Except.ok.inj hall
    rwa [List.map_nil, List.append_nil]
  | cons intent intents ih =>
    simp only [Agent.registerAll, bind_eq_ok] at hall
    obtain ⟨⟨registration, between⟩, hregister, hrest⟩ := hall
    rw [List.map_cons, List.append_cons]
    exact ih (h.register hregister) hrest

/-- A definition that conflicts with none is registered while there is room. -/
theorem Registered.register_ok {registered : List AgentDefinition} (h : Registered catalog registered)
    {definition : AgentDefinition} (hagree : ∀ found ∈ registered, found.key = definition.key → found = definition)
    (hroom : catalog.definitions.size < catalog.capacity) :
    ∃ registration next, catalog.register definition = .ok (registration, next) ∧ next.capacity = catalog.capacity ∧
      next.definitions.size ≤ catalog.definitions.size + 1 := by
  unfold AgentCatalog.register
  split
  · rename_i existing hexisting
    rw [h.first] at hexisting
    have hkey := List.find?_some (p := fun found : AgentDefinition => decide (found.key = definition.key)) hexisting
    have hsame := hagree existing (List.mem_of_find?_eq_some hexisting) (of_decide_eq_true hkey)
    exact ⟨.unchanged, catalog, if_pos hsame, rfl, Nat.le_succ _⟩
  · rw [if_neg hroom.ne]
    exact ⟨.inserted, _, rfl, rfl, Std.ExtTreeMap.size_insert_le⟩

/-- **Consistent definitions are all registered while there is room.** -/
theorem Registered.registerAll_ok {registered : List AgentDefinition} {intents : List ResolvedChildIntent}
    (h : Registered catalog registered) (hconsistent : Consistent (registered ++ intents.map (·.definition)))
    (hroom : catalog.definitions.size + intents.length ≤ catalog.capacity) :
    ∃ next, Agent.registerAll catalog intents = .ok next := by
  induction intents generalizing catalog registered with
  | nil => exact ⟨catalog, rfl⟩
  | cons intent intents ih =>
    rw [List.map_cons] at hconsistent
    rw [List.length_cons] at hroom
    have hagree : ∀ found ∈ registered, found.key = intent.definition.key → found = intent.definition :=
      fun found hfound => hconsistent found (List.mem_append_left _ hfound) intent.definition
        (List.mem_append_right _ List.mem_cons_self)
    obtain ⟨registration, between, hregister, hcapacity, hsize⟩ := h.register_ok hagree (by omega)
    rw [List.append_cons] at hconsistent
    obtain ⟨next, hnext⟩ := ih (h.register hregister) hconsistent (by omega)
    exact ⟨next, by rw [Agent.registerAll, hregister, ok_bind]; exact hnext⟩

end Registering

section Resolving

variable {definition : AgentDefinition}

theorem definition_again {selector : AgentSelector} (h : catalog.definition selector = .ok definition)
    (hheld : next.definitions[definition.key]? = some definition) : next.definition selector = .ok definition := by
  cases selector with
  | named key =>
    have hkey := catalog.keyed key definition (AgentCatalog.definition_named h)
    simp only [AgentCatalog.definition, bind_eq_ok, expect_eq_ok] at h ⊢
    obtain ⟨_, hvalid, -⟩ := h
    exact ⟨(), hvalid, hkey ▸ hheld⟩
  | inline content =>
    obtain rfl := AgentCatalog.definition_inline h
    rw [AgentCatalog.definition, hheld, reject_of_not (by simp)]
    rfl

theorem resolveChildDefinition_again {selector : AgentSelector} {requested : AgentPermissions}
    (h : catalog.resolveChildDefinition parent.snapshot selector host requested = .ok definition)
    (hheld : next.definitions[definition.key]? = some definition) :
    next.resolveChildDefinition parent.snapshot selector host requested = .ok definition := by
  have hfound := (resolveChildDefinition_eq_ok h).2
  rw [AgentCatalog.resolveChildDefinition, AgentCatalog.childDefinitionCeiling, hfound] at h
  rwa [AgentCatalog.resolveChildDefinition, AgentCatalog.childDefinitionCeiling, definition_again hfound hheld]

theorem resolveTarget_again {target : InvocationTarget} {permissions : AgentPermissions}
    (h : resolveTarget codec parent catalog host permissions target = .ok definition)
    (hheld : next.definitions[definition.key]? = some definition) :
    resolveTarget codec parent next host permissions target = .ok definition := by
  cases target with
  | selfCall => exact h
  | named key => exact resolveChildDefinition_again h hheld
  | inline content => exact resolveChildDefinition_again h hheld

theorem resolveIntent_again {child : ChildInvocationInput} {intent : ResolvedChildIntent}
    (h : resolveIntent codec parent catalog host limits child = .ok intent)
    (hheld : next.definitions[intent.definition.key]? = some intent.definition) :
    resolveIntent codec parent next host limits child = .ok intent := by
  have htarget := (resolveIntent_eq_ok h).1
  rw [resolveIntent, agentCheck, htarget] at h
  rwa [resolveIntent, agentCheck, resolveTarget_again htarget hheld]

theorem resolveIntents_again {children : List ChildInvocationInput} {intents : List ResolvedChildIntent}
    (h : resolveIntents codec parent catalog host limits children = .ok intents)
    (hheld : ∀ intent ∈ intents, next.definitions[intent.definition.key]? = some intent.definition) :
    resolveIntents codec parent next host limits children = .ok intents := by
  induction children generalizing intents with
  | nil => exact h
  | cons child children ih =>
    simp only [resolveIntents, bind_eq_ok, pure_eq_ok] at h ⊢
    obtain ⟨intent, hintent, rest, hrest, rfl⟩ := h
    obtain ⟨hfirst, hothers⟩ := List.forall_mem_cons.1 hheld
    exact ⟨intent, resolveIntent_again hintent hfirst, rest, ih hrest hothers, rfl⟩

/-- **A call is prepared alike over any catalog that holds the definitions it uses.** -/
theorem prepareAgentInvocation_again {call : ToolCall} {prepared : PreparedAgentInvocation}
    (h : prepareAgentInvocation codec parent execution catalog host limits call = .ok prepared)
    (hheld : ∀ intent ∈ prepared.children, next.definitions[intent.definition.key]? = some intent.definition) :
    prepareAgentInvocation codec parent execution next host limits call = .ok prepared := by
  simp only [prepareAgentInvocation, bind_eq_ok, pure_eq_ok] at h ⊢
  obtain ⟨_, hlimits, _, hparent, _, hexecution, _, hname, _, hlength, input, hinput, _, hcount, children, hchildren,
    bound, hbound, rfl⟩ := h
  exact ⟨_, hlimits, _, hparent, _, hexecution, _, hname, _, hlength, input, hinput, _, hcount, children,
    resolveIntents_again hchildren hheld, bound, hbound, rfl⟩

theorem bindPlan_eq_ok {call : ToolCall} {plan : InvokePlan} {prepared : PreparedCall}
    (h : bindPlan codec call plan = .ok prepared) :
    prepared.call = call ∧ prepared.executionBinding = plan.toValue.canonical := by
  simp only [bindPlan, preparedCheck, PreparedCall.new, PreparedCall.withExecutionBinding, bind_eq_ok, mapError_eq_ok,
    reject_eq_ok, pure_eq_ok] at h
  obtain ⟨_, ⟨_, -, _, -, rfl⟩, _, ⟨_, -, _, -, _, -, rfl⟩, _, -, rfl⟩ := h
  exact ⟨rfl, rfl⟩

end Resolving

section Agreement

/-- What a target is resolved to: the parent's definition or what the catalog holds
under its key; only an inline target may have a key that the catalog does not hold. -/
theorem resolveTarget_held {target : InvocationTarget} {permissions : AgentPermissions} {definition : AgentDefinition}
    (h : resolveTarget codec parent catalog host permissions target = .ok definition)
    (hkey : definition.key ≠ parent.snapshot.definition.key) :
    (∀ found, catalog.definitions[definition.key]? = some found → found = definition) ∧
      (catalog.definitions[definition.key]? = none → target = .inline definition) := by
  cases target with
  | selfCall => exact absurd ((resolveSelfDefinition_eq_ok h).selfCall rfl ▸ rfl) hkey
  | named key =>
    have hfound := AgentCatalog.definition_named (resolveChildDefinition_eq_ok h).2
    rw [catalog.keyed key definition hfound, hfound]
    exact ⟨fun found hsome => (Option.some.inj hsome).symm, nofun⟩
  | inline content =>
    have hfound := (resolveChildDefinition_eq_ok h).2
    obtain rfl := AgentCatalog.definition_inline hfound
    refine ⟨fun found hsome => ?_, fun _ => rfl⟩
    simp only [AgentCatalog.definition, bind_eq_ok, reject_eq_ok, hsome, Option.any_some, decide_eq_true_eq, not_not] at hfound
    obtain ⟨_, hsame, -⟩ := hfound
    exact hsame

theorem resolveIntents_mem {children : List ChildInvocationInput} {intents : List ResolvedChildIntent}
    (h : resolveIntents codec parent catalog host limits children = .ok intents) :
    (∀ child ∈ children, ∃ intent ∈ intents, resolveIntent codec parent catalog host limits child = .ok intent) ∧
      ∀ intent ∈ intents, ∃ child ∈ children, resolveIntent codec parent catalog host limits child = .ok intent := by
  induction children generalizing intents with
  | nil =>
    obtain rfl := Except.ok.inj h
    simp
  | cons child children ih =>
    simp only [resolveIntents, bind_eq_ok, pure_eq_ok] at h
    obtain ⟨intent, hintent, rest, hrest, rfl⟩ := h
    obtain ⟨hchildren, hrest⟩ := ih hrest
    constructor
    · refine List.forall_mem_cons.2 ⟨⟨intent, List.mem_cons_self, hintent⟩, fun other hother => ?_⟩
      obtain ⟨found, hfound, hresolved⟩ := hchildren other hother
      exact ⟨found, List.mem_cons_of_mem _ hfound, hresolved⟩
    · refine List.forall_mem_cons.2 ⟨⟨child, List.mem_cons_self, hintent⟩, fun other hother => ?_⟩
      obtain ⟨found, hfound, hresolved⟩ := hrest other hother
      exact ⟨found, List.mem_cons_of_mem _ hfound, hresolved⟩

/-- **The definitions of a preparation are consistent exactly when its inline targets
agree.** -/
theorem consistent_iff_inlineAgree {input : AgentInvokeInput} {intents : List ResolvedChildIntent}
    (h : resolveIntents codec parent catalog host limits input.children = .ok intents) :
    Consistent (intents.map (·.definition)) ↔ InlineAgree input := by
  obtain ⟨hchildren, hintents⟩ := resolveIntents_mem h
  constructor
  · intro hconsistent a ha b hb c d hc hd hkey
    have hmem : ∀ child ∈ input.children, ∀ content, child.target = .inline content →
        content ∈ intents.map (·.definition) := by
      intro child hchild content hcontent
      obtain ⟨intent, hintent, hresolved⟩ := hchildren child hchild
      obtain ⟨htarget, -, -⟩ := resolveIntent_eq_ok hresolved
      have hsame := ((resolveTarget_eq_ok htarget).1.inline content hcontent).1
      exact List.mem_map.2 ⟨intent, hintent, hsame⟩
    exact hconsistent c (hmem a ha c hc) d (hmem b hb d hd) hkey
  · intro hagree c hc d hd hkey
    obtain ⟨i, hi, rfl⟩ := List.mem_map.1 hc
    obtain ⟨j, hj, rfl⟩ := List.mem_map.1 hd
    obtain ⟨a, ha, hresolvedi⟩ := hintents i hi
    obtain ⟨b, hb, hresolvedj⟩ := hintents j hj
    have htargeti := (resolveIntent_eq_ok hresolvedi).1
    have htargetj := (resolveIntent_eq_ok hresolvedj).1
    by_cases hparent : i.definition.key = parent.snapshot.definition.key
    · -- both are the parent's definition
      have hsamei := (resolveTarget_eq_ok htargeti).1.same hparent
      have hsamej := (resolveTarget_eq_ok htargetj).1.same (hkey ▸ hparent)
      exact hsamei.1.trans hsamej.1.symm
    · obtain ⟨hheldi, hfreei⟩ := resolveTarget_held htargeti hparent
      obtain ⟨hheldj, hfreej⟩ := resolveTarget_held htargetj (hkey ▸ hparent)
      cases hfound : catalog.definitions[i.definition.key]? with
      | some found => exact (hheldi found hfound).symm.trans (hheldj found (hkey ▸ hfound))
      | none => exact hagree a ha b hb _ _ (hfreei hfound) (hfreej (hkey ▸ hfound)) hkey

end Agreement

section Verifying

theorem prepared_count {call : ToolCall} {prepared : PreparedAgentInvocation}
    (h : prepareAgentInvocation codec parent execution catalog host limits call = .ok prepared) :
    prepared.children ≠ [] ∧ prepared.children.length ≤ 8 := by
  obtain ⟨input, -, hintents, -, -, hlimits, hnonempty, hcount⟩ := prepareAgentInvocation_eq_ok h
  have hlength := (resolveIntents_eq_ok hintents).length_eq
  simp only [InvokePrepareLimits.validate, reject_eq_ok, not_or, not_not] at hlimits
  have hmax := hlimits.1.2
  have hpositive := List.length_pos_iff.2 hnonempty
  exact ⟨List.length_pos_iff.1 (by omega), by omega⟩

/-- **What the verification of a preparation comes to**: the definitions of its plan are
registered. -/
theorem verifySaved_iff_registerAll {call : ToolCall} {input : AgentInvokeInput} {prepared : PreparedAgentInvocation}
    (hinput : codec.decodeInput call.arguments = .ok input)
    (hread : codec.ReadsBack (invokePlan codec parent execution limits input prepared.children))
    (h : prepareAgentInvocation codec parent execution catalog host limits call = .ok prepared) :
    verifySavedAgentInvocation codec parent execution host prepared.prepared = .ok prepared ↔
      ∃ catalog next, AgentCatalog.new 8 = .ok catalog ∧ registerAll catalog prepared.children = .ok next := by
  obtain ⟨decoded, hdecoded, hintents, hbound, -, hlimits, hnonempty, hcount⟩ := prepareAgentInvocation_eq_ok h
  obtain rfl := Except.ok.inj (hinput.symm.trans hdecoded)
  obtain ⟨hcall, hbinding⟩ := bindPlan_eq_ok hbound
  simp only [verifySavedAgentInvocation, agentCheck, bind_eq_ok, mapError_eq_ok, reject_eq_ok, pure_eq_ok, hbinding, hcall]
  constructor
  · rintro ⟨plan, hplan, _, -, empty, hempty, next, hnext, -⟩
    obtain rfl := Except.ok.inj (hread.symm.trans hplan)
    exact ⟨empty, next, hempty, hnext⟩
  · rintro ⟨empty, next, hempty, hnext⟩
    have hheld := (registered_new hempty).registerAll hnext
    refine ⟨_, hread, (), ?_, empty, hempty, next, hnext, prepared, ?_, (), ?_, rfl⟩
    · obtain ⟨hnonempty, hcount⟩ := prepared_count h
      exact not_or.2 ⟨hnonempty, hcount.not_gt⟩
    · exact prepareAgentInvocation_again h fun intent hintent =>
        hheld.holds (List.mem_map_of_mem hintent)
    · simp

/-- **A preparation is verified exactly when its inline targets agree**, and whatever
is verified a preparation makes, over the catalog of the saved definitions and within
the saved limits. -/
theorem verifySaved_iff_inlineAgree {call : ToolCall} {input : AgentInvokeInput} {prepared : PreparedAgentInvocation}
    (hinput : codec.decodeInput call.arguments = .ok input)
    (hread : codec.ReadsBack (invokePlan codec parent execution limits input prepared.children))
    (h : prepareAgentInvocation codec parent execution catalog host limits call = .ok prepared) :
    (verifySavedAgentInvocation codec parent execution host prepared.prepared = .ok prepared ↔ InlineAgree input) ∧
      ∀ saved found, verifySavedAgentInvocation codec parent execution host saved = .ok found →
        ∃ plan frozen, codec.decodePlan saved.executionBinding = .ok plan ∧ found.prepared = saved ∧
          prepareAgentInvocation codec parent execution frozen host plan.limits saved.call = .ok found := by
  constructor
  · obtain ⟨decoded, hdecoded, hintents, -⟩ := prepareAgentInvocation_eq_ok h
    obtain rfl := Except.ok.inj (hinput.symm.trans hdecoded)
    rw [verifySaved_iff_registerAll hinput hread h, ← consistent_iff_inlineAgree hintents]
    constructor
    · rintro ⟨empty, next, hempty, hnext⟩
      exact ((registered_new hempty).registerAll hnext).one
    · intro hconsistent
      have hempty : AgentCatalog.new 8 = .ok ⟨∅, 8, by simp⟩ := rfl
      obtain ⟨next, hnext⟩ := (registered_new hempty).registerAll_ok hconsistent (by simpa using (prepared_count h).2)
      exact ⟨_, next, hempty, hnext⟩
  · intro saved found hverify
    simp only [verifySavedAgentInvocation, agentCheck, bind_eq_ok, mapError_eq_ok, reject_eq_ok, pure_eq_ok,
      not_not] at hverify
    obtain ⟨plan, hplan, _, -, _, -, frozen, -, actual, hactual, _, hsame, rfl⟩ := hverify
    exact ⟨plan, frozen, hplan, hsame, hactual⟩

end Verifying

section Twins

/-- `InvocationTarget`. -/
def InvocationTarget.toValue : InvocationTarget → Value
  | selfCall => .object [("kind", .string "self_call")]
  | named key => .object [("kind", .string "named"), ("value", key.toValue)]
  | inline definition => .object [("kind", .string "inline"), ("value", definition.toValue)]

/-- `ChildInvocationInput`. -/
def ChildInvocationInput.toValue (child : ChildInvocationInput) : Value :=
  .object [("target", child.target.toValue), ("input", .string child.input), ("permissions", child.permissions.toValue)]

/-- `AgentInvokeInput`. -/
def AgentInvokeInput.toValue (input : AgentInvokeInput) : Value :=
  .object [("children", .list ChildInvocationInput.toValue input.children), ("parallel", .bool input.parallel)]

def inlineOnly (allowInline : Bool) : AgentPermissions :=
  { tools := ∅, delegation := { namedTargets := ∅, allowInline, allowSelf := false } }

abbrev plainInput (definitionId instructions : String) (allowInline : Bool) : AgentDefinitionInput where
  definitionId := definitionId
  revision := "1"
  displayName := none
  model := ⟨"provider", "model"⟩
  instructions := instructions
  permissions := inlineOnly allowInline

def twinsParent : AgentInvocationBinding fun _ => "digest" where
  taskId := "task"
  invocationId := "invocation"
  logicalSessionId := "session"
  privateSessionId := "session"
  contextKind := .root
  snapshot :=
    { input :=
        { schemaVersion := 1
          definition := ⟨plainInput "planner" "plan" true, by decide +kernel⟩
          identity := ⟨"planner", "1", "planner-1"⟩
          permissions := inlineOnly true
          digest := "digest" }
      valid := by decide +kernel }

def twins : List AgentDefinition :=
  [⟨plainInput "helper" "help" false, by decide +kernel⟩, ⟨plainInput "helper" "harm" false, by decide +kernel⟩]

def twinsInput : AgentInvokeInput where
  children := twins.map fun definition => { target := .inline definition, input := "go", permissions := inlineOnly false }
  parallel := false

def twinsLimits : InvokePrepareLimits where
  maxChildren := 8
  maxParallel := 8
  maxChildInputBytes := 1024
  maxOutputBytes := 1024
  admissionTimeoutMs := 1000

def twinsPlan : InvokePlan where
  schemaVersion := 1
  taskId := "task"
  parentInvocationId := "invocation"
  parentSnapshotDigest := "digest"
  execution := ⟨"session", "turn", "execution"⟩
  limits := twinsLimits
  parallel := false
  children := twins.map fun definition => { definition, permissions := inlineOnly false, input := "go", role := .delegation }

def twinsCodec : InvokeCodec where
  sha256 _ := "digest"
  decodeInput value := if value = twinsInput.toValue then .ok twinsInput else .error "unread"
  decodePlan value := if value = twinsPlan.toValue.canonical then .ok twinsPlan else .error "unread"

def twinsPrepared : PreparedAgentInvocation where
  prepared :=
    { call := ⟨"call", agentInvokeName, twinsInput.toValue⟩
      toolRevision := "kolyan-agent-invoke-v1/digest"
      claim :=
        { toolName := agentInvokeName
          capabilities := [.agentDelegate]
          effects := [.delegate]
          resource := { path := none }
          idempotency := .nonIdempotent }
      requirements := { processSandbox := false, maxOutputBytes := 1024, timeoutMs := 1000 }
      executionBinding := twinsPlan.toValue.canonical
      digest := "digest" }
  children := twinsPlan.children
  parallel := false

theorem twins_prepared : prepareAgentInvocation twinsCodec twinsParent twinsPlan.execution ⟨∅, 1, by simp⟩ (inlineOnly true)
    twinsLimits twinsPrepared.prepared.call = .ok twinsPrepared := by decide +kernel

theorem twins_read : twinsCodec.decodeInput twinsPrepared.prepared.call.arguments = .ok twinsInput := by
  simp [twinsCodec, twinsPrepared]

theorem twins_plan : invokePlan twinsCodec twinsParent twinsPlan.execution twinsLimits twinsInput twinsPrepared.children =
    twinsPlan := rfl

theorem twins_readsBack : twinsCodec.ReadsBack twinsPlan := by simp [InvokeCodec.ReadsBack, twinsCodec]

/-- The twins are verified if and only if they agree. -/
theorem verifySaved_twins :
    verifySavedAgentInvocation twinsCodec twinsParent twinsPlan.execution (inlineOnly true) twinsPrepared.prepared =
      .ok twinsPrepared ↔ InlineAgree twinsInput := by
  have hread := twins_readsBack
  rw [← twins_plan] at hread
  exact (verifySaved_iff_inlineAgree twins_read hread twins_prepared).1

/-- The twins are prepared, and their verification conflicts. -/
theorem verifySaved_conflict :
    prepareAgentInvocation twinsCodec twinsParent twinsPlan.execution ⟨∅, 1, by simp⟩ (inlineOnly true) twinsLimits
        twinsPrepared.prepared.call = .ok twinsPrepared ∧ twinsCodec.ReadsBack twinsPlan ∧
      verifySavedAgentInvocation twinsCodec twinsParent twinsPlan.execution (inlineOnly true) twinsPrepared.prepared =
        .error (.agent .conflict) :=
  ⟨twins_prepared, twins_readsBack, by decide +kernel⟩

end Twins

end Agent
end Kolyan
