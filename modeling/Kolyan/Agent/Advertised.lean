/-
# What is advertised is admitted

Whatever the model asks for that is valid under an advertised schema lies within the
ceilings by which a preparation judges it (`narrowed_le`): the branch that a child is valid
under says which target it has, and the permissions of that branch are narrowed to the
ceiling of the target.  So it is not refused (`advertised_admitted`), unless it is an inline
definition under the parent's own key, which is taken for a self call; and where nothing is
advertised nothing is admitted.
-/

import Kolyan.Agent.Advertisement
import Kolyan.Agent.Verification

namespace Kolyan
namespace Agent

open Checks Value

/-! ### Refusals -/

section Refusals

variable {ε ε' α β : Type} {refused : ε → Prop} {refused' : ε' → Prop}

/-- A computation that fails with no refusal. -/
def Spares (refused : ε → Prop) (x : Except ε α) : Prop := ∀ e, x = .error e → ¬refused e

theorem spares_ok {a : α} : Spares refused (.ok a : Except ε α) := nofun

theorem spares_error {e : ε} (h : ¬refused e) : Spares refused (.error e : Except ε α) := by
  rintro e' he
  rwa [← Except.error.inj he]

theorem spares_bind {x : Except ε α} {f : α → Except ε β} (hx : Spares refused x) (hf : ∀ a, x = .ok a → Spares refused (f a)) :
    Spares refused (x >>= f) := by
  cases x with
  | error e => exact spares_error (hx e rfl)
  | ok a => exact hf a rfl

theorem spares_reject {c : Prop} [Decidable c] {e : ε} (h : c → ¬refused e) : Spares refused (reject c e) := by
  unfold reject
  split_ifs with hc
  · exact spares_error (h hc)
  · exact spares_ok

theorem spares_mapError {f : ε → ε'} {x : Except ε α} (h : ∀ e, x = .error e → ¬refused' (f e)) : Spares refused' (mapError f x) := by
  cases x with
  | error e => exact spares_error (h e rfl)
  | ok a => exact spares_ok

theorem spares_forEach {f : α → Except ε Unit} {as : List α} (h : ∀ a, Spares refused (f a)) : Spares refused (forEach f as) := by
  induction as with
  | nil => exact spares_ok
  | cons a as ih => exact spares_bind (h a) fun _ _ => ih

/-- A refusal of authority. -/
def Refusal (error : AgentError) : Prop := error = .permissionDenied ∨ error = .notFound

theorem not_refusal_invalid {message : String} : ¬Refusal (.invalid message) := by
  rintro (h | h) <;> exact nomatch h

theorem spares_identity {value : String} : Spares Refusal (identity value) := spares_reject fun _ => not_refusal_invalid

theorem spares_keyValidate {key : AgentKey} : Spares Refusal key.validate := spares_bind spares_identity fun _ _ => spares_identity

theorem spares_validate {permissions : AgentPermissions} : Spares Refusal permissions.validate :=
  spares_bind (spares_reject fun _ => not_refusal_invalid) fun _ _ => spares_forEach fun _ => spares_keyValidate

theorem spares_intersection {a b : AgentPermissions} : Spares Refusal (a.intersection b) :=
  spares_bind spares_validate fun _ _ => spares_bind spares_validate fun _ _ => spares_bind
    (spares_bind spares_validate fun _ _ => spares_bind spares_validate fun _ _ => spares_ok) fun _ _ => spares_ok

theorem spares_requireSubsetOf {a ceiling : AgentPermissions} (h : a ≤ ceiling) : Spares Refusal (a.requireSubsetOf ceiling) := by
  refine spares_bind spares_validate fun _ _ => spares_bind spares_validate fun _ _ => spares_reject fun hover => ?_
  rcases hover with htools | hdelegation
  · exact absurd (h.1.symm.trans htools) (by decide)
  · exact absurd (h.2.symm.trans hdelegation) (by decide)

end Refusals

/-! ### What `serde` reads -/

section Reading

/-- A tool is read from its name. -/
def ReadsTool (value : Value) (tool : EnvironmentTool) : Prop := ∀ name, value = .string name → tool.name = name

/-- A key is read from an object. -/
def ReadsKey (value : Value) (key : AgentKey) : Prop :=
  ∀ fields, value = .object fields → value.find "definition_id" = some (.string key.definitionId) ∧
    value.find "revision" = some (.string key.revision)

/-- So is a ceiling of the delegation: each named target from a member of the array. -/
def ReadsDelegation (value : Value) (ceiling : DelegationCeiling) : Prop :=
  ∀ fields, value = .object fields →
    (∃ items, value.find "named_targets" = some (.array items) ∧ ∀ key ∈ ceiling.namedTargets, ∃ item ∈ items, ReadsKey item key) ∧
      value.find "allow_inline" = some (.bool ceiling.allowInline) ∧ value.find "allow_self" = some (.bool ceiling.allowSelf)

/-- So are the permissions: each tool from a member of the array. -/
def ReadsPermissions (value : Value) (permissions : AgentPermissions) : Prop :=
  ∀ fields, value = .object fields →
    (∃ items, value.find "tools" = some (.array items) ∧ ∀ tool ∈ permissions.tools, ∃ item ∈ items, ReadsTool item tool) ∧
      ∃ delegation, value.find "delegation" = some delegation ∧ ReadsDelegation delegation permissions.delegation

/-- A target is read from an object with its kind. -/
def ReadsTarget (value : Value) (target : InvocationTarget) : Prop :=
  ∀ fields, value = .object fields → ∃ kind, value.find "kind" = some kind ∧
    (kind = .string "self_call" → target = .selfCall) ∧
    (kind = .string "named" → ∃ content key, value.find "value" = some content ∧ target = .named key ∧ ReadsKey content key) ∧
    (kind = .string "inline" → ∃ definition, target = .inline definition)

/-- A child is read from an object. -/
def ReadsChild (value : Value) (child : ChildInvocationInput) : Prop :=
  ∀ fields, value = .object fields →
    (∃ target, value.find "target" = some target ∧ ReadsTarget target child.target) ∧
      ∃ permissions, value.find "permissions" = some permissions ∧ ReadsPermissions permissions child.permissions

/-- The whole input is, with its children in their order. -/
def ReadsInput (value : Value) (input : AgentInvokeInput) : Prop :=
  ∀ fields, value = .object fields →
    ∃ items, value.find "children" = some (.array items) ∧ List.Forall₂ ReadsChild items input.children

/-- What is relied on of `serde`: a struct is read from the fields of an object. -/
def InvokeCodec.Reads (codec : InvokeCodec) : Prop := ∀ value input, codec.decodeInput value = .ok input → ReadsInput value input

theorem readsKey_toValue {key : AgentKey} : ReadsKey key.toValue key := fun _ _ => ⟨rfl, rfl⟩

theorem readsPermissions_toValue {permissions : AgentPermissions} : ReadsPermissions permissions.toValue permissions := by
  refine fun _ _ => ⟨⟨_, rfl, fun tool htool => ?_⟩, _, rfl, fun _ _ => ⟨⟨_, rfl, fun key hkey => ?_⟩, rfl, rfl⟩⟩
  · exact ⟨.string tool.name, List.mem_map_of_mem (Std.ExtTreeSet.mem_toList.2 htool), fun _ h => Value.string.inj h⟩
  · exact ⟨key.toValue, List.mem_map_of_mem (Std.ExtTreeSet.mem_toList.2 hkey), readsKey_toValue⟩

theorem readsTarget_toValue {target : InvocationTarget} : ReadsTarget target.toValue target := by
  intro _ _
  cases target with
  | selfCall => exact ⟨_, rfl, fun _ => rfl, fun h => absurd h (by decide), fun h => absurd h (by decide)⟩
  | named key =>
    exact ⟨_, rfl, fun h => absurd h (by decide), fun _ => ⟨_, key, rfl, rfl, readsKey_toValue⟩, fun h => absurd h (by decide)⟩
  | inline definition => exact ⟨_, rfl, fun h => absurd h (by decide), fun h => absurd h (by decide), fun _ => ⟨definition, rfl⟩⟩

/-- **What is written is read**, so that a codec may read what it writes. -/
theorem readsInput_toValue {input : AgentInvokeInput} : ReadsInput input.toValue input := by
  refine fun _ _ => ⟨_, rfl, List.forall₂_map_left_iff.2 (List.forall₂_same.2 fun child _ => ?_)⟩
  exact fun _ _ => ⟨⟨_, rfl, readsTarget_toValue⟩, _, rfl, readsPermissions_toValue⟩

end Reading

namespace Advertisement

/-! ### Narrowed permissions -/

section Narrowing

variable {schema value : Value} {description : String} {path query : List String} {values : List Value} {allowed : Bool}

/-- What the members of a narrowed array may be. -/
def narrowedItems (values : List Value) : Value := if values.isEmpty then .bool false else .object [("enum", .array values)]

theorem mem_of_narrowedItems {item : Value} (h : validates (narrowedItems values) item = true) : item ∈ values := by
  unfold narrowedItems at h
  split_ifs at h with hempty
  · rw [validates] at h
    cases h
  · exact validates_enum h rfl

theorem narrowedItems_ne_null : narrowedItems values ≠ .null := by
  unfold narrowedItems
  split_ifs <;> exact nofun

theorem getAt_narrowItems_items : (narrowItems schema description path values).getAt (path ++ ["items"]) = narrowedItems values := by
  have hapart : ∀ name, ¬name = "items" → Apart (path ++ [name]) (path ++ ["items"]) = true := by
    intro name hname
    induction path with
    | nil => simp [Apart, hname]
    | cons first path ih => simp only [List.cons_append, Apart, ih, Bool.or_true]
  unfold narrowItems narrowedItems
  dsimp only
  split_ifs
  · rw [getAt_setAt_apart (hapart _ (by decide)), getAt_setAt_apart (hapart _ (by decide)), getAt_setAt_self]
  · rw [getAt_setAt_self]

theorem getAt_narrowItems_apart (h : Apart path query = true) :
    (narrowItems schema description path values).getAt query = schema.getAt query := by
  have hapart : ∀ name, Apart (path ++ [name]) query = true := fun name => apart_append h _
  unfold narrowItems
  dsimp only
  split_ifs
  · rw [getAt_setAt_apart (hapart _), getAt_setAt_apart (hapart _), getAt_setAt_apart (hapart _), getAt_setAt_apart (hapart _)]
  · rw [getAt_setAt_apart (hapart _), getAt_setAt_apart (hapart _)]

theorem getAt_narrowSwitch_apart (h : Apart path query = true) : (narrowSwitch schema path allowed).getAt query = schema.getAt query := by
  unfold narrowSwitch
  split_ifs
  · rfl
  · exact getAt_setAt_apart h

theorem getAt_narrowSwitch_const (h : allowed = false) : (narrowSwitch schema path allowed).getAt (path ++ ["const"]) = .bool false := by
  subst h
  rw [narrowSwitch, if_neg Bool.false_ne_true, getAt_setAt_append]
  rfl

variable {ceiling : AgentPermissions} {named : List AgentDefinition}

/-- What the model may ask for is narrowed at four places. -/
structure Narrowed (permissions : Value) (ceiling : AgentPermissions) : Prop where
  type_eq : permissions.get "type" = .string "object"
  delegation_type : permissions.getAt ["properties", "delegation", "type"] = .string "object"
  tools : permissions.getAt ["properties", "tools", "items"] = narrowedItems (ceiling.tools.toList.map fun tool => .string tool.name)
  targets : ∃ keys : List AgentKey, (∀ key ∈ keys, key ∈ ceiling.delegation.namedTargets) ∧
    permissions.getAt ["properties", "delegation", "properties", "named_targets", "items"] = narrowedItems (keys.map AgentKey.toValue)
  allowSelf : ceiling.delegation.allowSelf = false →
    permissions.getAt ["properties", "delegation", "properties", "allow_self", "const"] = .bool false
  allowInline : ceiling.delegation.allowInline = false →
    permissions.getAt ["properties", "delegation", "properties", "allow_inline", "const"] = .bool false

theorem narrowed_narrowPermissions (htype : schema.get "type" = .string "object")
    (hdelegation : schema.getAt ["properties", "delegation", "type"] = .string "object") :
    Narrowed (narrowPermissions schema ceiling named) ceiling := by
  unfold narrowPermissions
  refine ⟨?_, ?_, ?_, ⟨(named.map AgentDefinition.key).filter fun key => ceiling.delegation.namedTargets.contains key,
    fun key hkey => ?_, ?_⟩, fun hself => ?_, fun hinline => ?_⟩
  · show getAt _ ["type"] = _
    rw [getAt_setAt_apart (by decide), getAt_setAt_apart (by decide), getAt_narrowSwitch_apart (by decide),
      getAt_narrowSwitch_apart (by decide), getAt_narrowItems_apart (by decide), getAt_narrowItems_apart (by decide),
      getAt_setAt_apart (by decide)]
    exact htype
  · rw [getAt_setAt_apart (by decide), getAt_setAt_apart (by decide), getAt_narrowSwitch_apart (by decide),
      getAt_narrowSwitch_apart (by decide), getAt_narrowItems_apart (by decide), getAt_narrowItems_apart (by decide),
      getAt_setAt_apart (by decide)]
    exact hdelegation
  · rw [getAt_setAt_apart (by decide), getAt_setAt_apart (by decide), getAt_narrowSwitch_apart (by decide),
      getAt_narrowSwitch_apart (by decide), getAt_narrowItems_apart (by decide)]
    exact getAt_narrowItems_items
  · exact Std.ExtTreeSet.contains_iff_mem.1 (List.mem_filter.1 hkey).2
  · rw [getAt_setAt_apart (by decide), getAt_setAt_apart (by decide), getAt_narrowSwitch_apart (by decide),
      getAt_narrowSwitch_apart (by decide)]
    exact getAt_narrowItems_items
  · rw [getAt_setAt_apart (by decide), getAt_setAt_apart (by decide), getAt_narrowSwitch_apart (by decide)]
    exact getAt_narrowSwitch_const hself
  · rw [getAt_setAt_apart (by decide), getAt_setAt_apart (by decide)]
    exact getAt_narrowSwitch_const hinline

theorem ne_null_of_getAt (h : schema.getAt path = value) (hne : value ≠ .null) : schema ≠ .null := by
  have hnull : ∀ path : List String, Value.null.getAt path = .null := by
    intro path
    induction path with
    | nil => rfl
    | cons name path ih => exact ih
  rintro rfl
  exact hne (h.symm.trans (hnull path))

theorem toolName_injective {a b : EnvironmentTool} (h : a.name = b.name) : a = b := by
  cases a <;> cases b <;> first | rfl | exact absurd h (by decide)

theorem narrowed_le {permissions : AgentPermissions} (hnarrowed : Narrowed schema ceiling) (hvalid : validates schema value = true)
    (hreads : ReadsPermissions value permissions) : permissions ≤ ceiling := by
  obtain ⟨fields, hfields⟩ := validates_object hvalid hnarrowed.type_eq
  obtain ⟨⟨tools, htools, hread⟩, delegation, hdelegation, hreads⟩ := hreads fields hfields
  have hvalid' : validates (schema.getAt ["properties", "delegation"]) delegation = true :=
    validates_property hvalid rfl (ne_null_of_getAt hnarrowed.delegation_type nofun) hdelegation
  obtain ⟨fields', hfields'⟩ := validates_object hvalid' hnarrowed.delegation_type
  obtain ⟨⟨targets, htargets, hread'⟩, hinline, hself⟩ := hreads fields' hfields'
  refine AgentPermissions.le_iff.2 ⟨OrderedSets.isSubset_iff.2 fun tool htool => ?_, OrderedSets.isSubset_iff.2 fun key hkey => ?_,
    fun hasked => ?_, fun hasked => ?_⟩
  · obtain ⟨item, hitem, hname⟩ := hread tool htool
    have hvalids : validates (schema.getAt ["properties", "tools"]) (.array tools) = true :=
      validates_property hvalid rfl (ne_null_of_getAt hnarrowed.tools narrowedItems_ne_null) htools
    have hmem := mem_of_narrowedItems (validates_item hvalids hnarrowed.tools narrowedItems_ne_null hitem)
    obtain ⟨admitted, hadmitted, rfl⟩ := List.mem_map.1 hmem
    rw [toolName_injective (hname _ rfl)]
    exact Std.ExtTreeSet.mem_toList.1 hadmitted
  · obtain ⟨item, hitem, hreadKey⟩ := hread' key hkey
    obtain ⟨keys, hkeys, hitems⟩ := hnarrowed.targets
    have hvalids : validates (schema.getAt ["properties", "delegation", "properties", "named_targets"]) (.array targets) = true :=
      validates_property hvalid' rfl (ne_null_of_getAt hitems narrowedItems_ne_null) htargets
    have hmem := mem_of_narrowedItems (validates_item hvalids hitems narrowedItems_ne_null hitem)
    obtain ⟨admitted, hadmitted, rfl⟩ := List.mem_map.1 hmem
    obtain ⟨hid, hrevision⟩ := hreadKey _ rfl
    obtain ⟨definitionId, revision⟩ := key
    obtain rfl : admitted.definitionId = definitionId := Value.string.inj (Option.some.inj hid)
    obtain rfl : admitted.revision = revision := Value.string.inj (Option.some.inj hrevision)
    exact hkeys admitted hadmitted
  · by_contra hoff
    have hconst := hnarrowed.allowInline (Bool.not_eq_true _ ▸ hoff)
    have hvalids : validates (schema.getAt ["properties", "delegation", "properties", "allow_inline"])
        (.bool permissions.delegation.allowInline) = true :=
      validates_property hvalid' rfl (ne_null_of_getAt hconst nofun) hinline
    exact absurd ((Value.bool.inj (validates_const hvalids hconst nofun)).symm.trans hasked) (by decide)
  · by_contra hoff
    have hconst := hnarrowed.allowSelf (Bool.not_eq_true _ ▸ hoff)
    have hvalids : validates (schema.getAt ["properties", "delegation", "properties", "allow_self"])
        (.bool permissions.delegation.allowSelf) = true :=
      validates_property hvalid' rfl (ne_null_of_getAt hconst nofun) hself
    exact absurd ((Value.bool.inj (validates_const hvalids hconst nofun)).symm.trans hasked) (by decide)

end Narrowing

/-! ### Branches -/

section Branches

variable {template target value : Value} {ceiling : AgentPermissions} {named : List AgentDefinition} {query : List String}

/-- The template of a child. -/
def childTemplate : Value := inputSchema.getAt ["properties", "children", "items"]

theorem getAt_withTarget (h : Apart ["description"] query = true) (h' : Apart ["properties", "value", "description"] query = true) :
    (withTarget template target).getAt (["properties", "target"] ++ query) = target.getAt query := by
  have hbelow : ∀ path, Apart path query = true → Apart (["properties", "target"] ++ path) (["properties", "target"] ++ query) = true := by
    intro path hpath
    simpa [Apart] using hpath
  have hdescription : Apart ["properties", "target", "description"] (["properties", "target"] ++ query) = true := hbelow _ h
  have hvalue : Apart ["properties", "target", "properties", "value", "description"] (["properties", "target"] ++ query) = true :=
    hbelow _ h'
  unfold withTarget
  dsimp only
  split_ifs
  · rw [getAt_setAt_apart hvalue, getAt_setAt_apart hdescription, getAt_setAt_append]
  · rw [getAt_setAt_apart hdescription, getAt_setAt_append]

theorem getAt_withTarget_apart (h : Apart ["properties", "target"] query = true) :
    (withTarget template target).getAt query = template.getAt query := by
  have hdescription : Apart ["properties", "target", "description"] query = true := apart_append h ["description"]
  have hvalue : Apart ["properties", "target", "properties", "value", "description"] query = true :=
    apart_append h ["properties", "value", "description"]
  unfold withTarget
  dsimp only
  split_ifs
  · rw [getAt_setAt_apart hvalue, getAt_setAt_apart hdescription, getAt_setAt_apart h]
  · rw [getAt_setAt_apart hdescription, getAt_setAt_apart h]

/-- What a branch asks of a child: its type, the target and the permissions. -/
structure IsBranch (branch target : Value) (ceiling : AgentPermissions) : Prop where
  type_eq : branch.get "type" = .string "object"
  target_eq : ∀ query, Apart ["description"] query = true → Apart ["properties", "value", "description"] query = true →
    (branch.getAt ["properties", "target"]).getAt query = target.getAt query
  narrowed : Narrowed (branch.getAt ["properties", "permissions"]) ceiling

/-- **`child` makes such a branch.** -/
theorem isBranch_child : IsBranch (child childTemplate target ceiling named) target ceiling := by
  have htemplate : childTemplate.getAt ["type"] = .string "object" := by decide +kernel
  have htype : childTemplate.getAt ["properties", "permissions", "type"] = .string "object" := by decide +kernel
  have hdelegation : childTemplate.getAt ["properties", "permissions", "properties", "delegation", "type"] = .string "object" := by
    decide +kernel
  unfold child
  refine ⟨?_, fun query h h' => ?_, ?_⟩
  · show getAt _ ["type"] = _
    rw [getAt_setAt_apart (by decide), getAt_withTarget_apart (by decide)]
    exact htemplate
  · have happart : Apart ["properties", "permissions"] (["properties", "target"] ++ query) = true := by simp [Apart]
    rw [← getAt_append, getAt_setAt_apart happart, getAt_withTarget h h']
  · dsimp only
    rw [getAt_setAt_self]
    refine narrowed_narrowPermissions ?_ ?_
    · show (withTarget childTemplate target).getAt ["properties", "permissions", "type"] = _
      rw [getAt_withTarget_apart (by decide)]
      exact htype
    · show (withTarget childTemplate target).getAt ["properties", "permissions", "properties", "delegation", "type"] = _
      rw [getAt_withTarget_apart (by decide)]
      exact hdelegation

variable {branch : Value} {input : ChildInvocationInput}

theorem valid_child (hbranch : IsBranch branch target ceiling) (htype : target.get "type" = .string "object")
    (hvalid : validates branch value = true) (hreads : ReadsChild value input) :
    input.permissions ≤ ceiling ∧ ∃ fields, validates (branch.getAt ["properties", "target"]) (.object fields) = true ∧
      ReadsTarget (.object fields) input.target := by
  obtain ⟨fields, hfields⟩ := validates_object hvalid hbranch.type_eq
  obtain ⟨⟨found, hfound, hreadTarget⟩, permissions, hpermissions, hreadPermissions⟩ := hreads fields hfields
  have hpermissionsType : (branch.getAt ["properties", "permissions"]).getAt ["type"] = .string "object" := hbranch.narrowed.type_eq
  have hpermitted : validates (branch.getAt ["properties", "permissions"]) permissions = true :=
    validates_property hvalid rfl (ne_null_of_getAt hpermissionsType nofun) hpermissions
  have htype' : (branch.getAt ["properties", "target"]).getAt ["type"] = .string "object" :=
    (hbranch.target_eq ["type"] (by decide) (by decide)).trans htype
  have htarget : validates (branch.getAt ["properties", "target"]) found = true :=
    validates_property hvalid rfl (ne_null_of_getAt htype' nofun) hfound
  obtain ⟨members, rfl⟩ := validates_object htarget htype'
  exact ⟨narrowed_le hbranch.narrowed hpermitted hreadPermissions, members, htarget, hreadTarget⟩

theorem valid_kind {fields : List (String × Value)} {kind : String} (hbranch : IsBranch branch target ceiling)
    (hkind : target.getAt ["properties", "kind", "const"] = .string kind)
    (hvalid : validates (branch.getAt ["properties", "target"]) (.object fields) = true) {found : Value}
    (hfound : (Value.object fields).find "kind" = some found) : found = .string kind := by
  have hconst := (hbranch.target_eq ["properties", "kind", "const"] (by decide) (by decide)).trans hkind
  have hargument : (branch.getAt ["properties", "target"]).getAt ["properties", "kind"] ≠ .null := ne_null_of_getAt hconst nofun
  exact validates_const (validates_property hvalid rfl hargument hfound) hconst nofun

theorem valid_key {fields : List (String × Value)} {key read : AgentKey} (hbranch : IsBranch branch (namedTarget target key) ceiling)
    (hvalid : validates (branch.getAt ["properties", "target"]) (.object fields) = true) {content : Value}
    (hcontent : (Value.object fields).find "value" = some content) (hreads : ReadsKey content read) : read = key := by
  have htarget : ∀ query, Apart ["properties", "value", "description"] (["properties", "value"] ++ query) = true →
      (branch.getAt ["properties", "target"]).getAt (["properties", "value"] ++ query) =
        (namedTarget .null key).getAt (["properties", "value"] ++ query) := by
    intro query h
    rw [hbranch.target_eq _ rfl h, namedTarget, namedTarget, getAt_setAt_append, getAt_setAt_append]
  have htype := htarget ["type"] (by decide)
  have hid := htarget ["properties", "definition_id", "const"] (by decide)
  have hrevision := htarget ["properties", "revision", "const"] (by decide)
  have hvalue : validates ((branch.getAt ["properties", "target"]).getAt ["properties", "value"]) content = true :=
    validates_property hvalid rfl (ne_null_of_getAt htype nofun) hcontent
  obtain ⟨members, rfl⟩ := validates_object hvalue htype
  obtain ⟨hreadId, hreadRevision⟩ := hreads members rfl
  have hvalidId := validates_property hvalue rfl (ne_null_of_getAt hid nofun) hreadId
  have hvalidRevision := validates_property hvalue rfl (ne_null_of_getAt hrevision nofun) hreadRevision
  obtain ⟨definitionId, revision⟩ := read
  obtain rfl : definitionId = key.definitionId := Value.string.inj (validates_const hvalidId hid nofun)
  obtain rfl : revision = key.revision := Value.string.inj (validates_const hvalidRevision hrevision nofun)
  rfl

end Branches

section Admission

variable {codec : InvokeCodec} {parent : AgentSnapshot codec.sha256} {catalog : AgentCatalog} {host authority : AgentPermissions}
  {named : List AgentDefinition} {permissions : AgentPermissions}

/-- **What is discovered** are the definitions of the named targets that are admitted. -/
theorem mem_admittedNamed (hauthority : parent.permissions.intersection host = .ok authority)
    (h : catalog.admittedNamedDefinitions parent host = .ok named) {definition : AgentDefinition} :
    definition ∈ named ↔ ∃ key ∈ authority.delegation.namedTargets, catalog.definitions.contains key = true ∧
      ∃ ceiling, catalog.childDefinitionCeiling parent (.named key) host = .ok (definition, ceiling) := by
  have hfold : ∀ (keys : List AgentKey) (found : List AgentDefinition),
      keys.foldlM (catalog.admitNamed parent host) found = .ok named → (definition ∈ named ↔ definition ∈ found ∨
        ∃ key ∈ keys, catalog.definitions.contains key = true ∧
          ∃ ceiling, catalog.childDefinitionCeiling parent (.named key) host = .ok (definition, ceiling)) := by
    intro keys
    induction keys with
    | nil =>
      intro found h
      obtain rfl : found = named := Except.ok.inj h
      exact ⟨.inl, fun h => h.elim id fun ⟨_, hkey, _⟩ => nomatch hkey⟩
    | cons key keys ih =>
      intro found h
      rw [List.foldlM_cons, bind_eq_ok] at h
      obtain ⟨next, hnext, h⟩ := h
      have hround : definition ∈ next ↔ definition ∈ found ∨ (catalog.definitions.contains key = true ∧
          ∃ ceiling, catalog.childDefinitionCeiling parent (.named key) host = .ok (definition, ceiling)) := by
        unfold AgentCatalog.admitNamed at hnext
        split at hnext
        · rename_i hcontains
          split at hnext
          · rename_i other ceiling hceiling
            obtain rfl := Except.ok.inj hnext
            rw [List.mem_append, List.mem_singleton, hceiling]
            refine or_congr_right ⟨?_, ?_⟩
            · rintro rfl
              exact ⟨hcontains, ceiling, rfl⟩
            · rintro ⟨-, _, heq⟩
              exact (Prod.mk.inj (Except.ok.inj heq)).1.symm
          · rename_i hdenied
            obtain rfl := Except.ok.inj hnext
            rw [hdenied]
            exact ⟨.inl, fun h => h.elim id fun ⟨_, _, heq⟩ => nomatch heq⟩
          · exact nomatch hnext
        · rename_i hcontains
          obtain rfl := Except.ok.inj hnext
          exact ⟨.inl, fun h => h.elim id fun hmore => absurd hmore.1 hcontains⟩
      rw [ih next h, hround, or_assoc, List.exists_mem_cons_iff]
  rw [AgentCatalog.admittedNamedDefinitions, bind_eq_ok] at h
  obtain ⟨_, hsame, h⟩ := h
  obtain rfl := Except.ok.inj (hsame.symm.trans hauthority)
  rw [hfold _ _ h]
  simp only [List.not_mem_nil, false_or, Std.ExtTreeSet.mem_toList]

theorem keyed_of_ceiling {key : AgentKey} {found : AgentDefinition × AgentPermissions}
    (h : catalog.childDefinitionCeiling parent (.named key) host = .ok found) : found.1.key = key := by
  rw [AgentCatalog.childDefinitionCeiling, bind_eq_ok] at h
  obtain ⟨definition, hdefinition, h⟩ := h
  simp only [bind_eq_ok, pure_eq_ok] at h
  obtain ⟨_, -, _, -, _, -, rfl⟩ := h
  simp only [AgentCatalog.definition, bind_eq_ok, expect_eq_ok] at hdefinition
  obtain ⟨_, -, hfound⟩ := hdefinition
  exact catalog.keyed key definition hfound

theorem spares_resolveSelf (hauthority : parent.permissions.intersection host = .ok authority)
    (hself : authority.delegation.allowSelf = true) (hle : permissions ≤ authority ⊓ parent.definition.permissions) :
    Spares Refusal (resolveSelfDefinition parent host permissions) := by
  have hallowed : (authority ⊓ parent.definition.permissions).delegation.allowSelf = true := by
    have hbelow : authority ≤ parent.definition.permissions :=
      (AgentPermissions.intersection_eq_ok hauthority).le.trans (inf_le_left.trans parent.permissions_le)
    rwa [inf_eq_left.2 hbelow]
  refine spares_bind ?_ ?_
  · refine spares_bind spares_intersection fun _ hsame => ?_
    obtain rfl := Except.ok.inj (hsame.symm.trans hauthority)
    refine spares_bind spares_intersection fun ceiling hceiling => ?_
    obtain rfl := AgentPermissions.intersection_eq_ok hceiling
    exact spares_bind (spares_reject fun hoff => absurd (hallowed.symm.trans hoff) (by decide)) fun _ _ => spares_ok
  · rintro ⟨definition, ceiling⟩ h
    simp only [selfDefinitionCeiling, bind_eq_ok, pure_eq_ok] at h
    obtain ⟨_, hsame, _, hceiling, -, -, h⟩ := h
    obtain rfl := Except.ok.inj (hsame.symm.trans hauthority)
    obtain ⟨rfl, rfl⟩ := Prod.mk.inj h
    obtain rfl := AgentPermissions.intersection_eq_ok hceiling
    exact spares_bind (spares_requireSubsetOf hle) fun _ _ => spares_ok

theorem ceiling_eq (hauthority : parent.permissions.intersection host = .ok authority) {selector : AgentSelector}
    {found : AgentDefinition × AgentPermissions} (h : catalog.childDefinitionCeiling parent selector host = .ok found) :
    admitsChild authority parent.definition selector found.1 = true ∧ found.2 = authority ⊓ found.1.permissions := by
  simp only [AgentCatalog.childDefinitionCeiling, bind_eq_ok, reject_eq_ok, pure_eq_ok] at h
  obtain ⟨definition, -, _, hsame, -, hadmits, _, hceiling, rfl⟩ := h
  obtain rfl := Except.ok.inj (hsame.symm.trans hauthority)
  exact ⟨Bool.not_eq_false _ ▸ hadmits, AgentPermissions.intersection_eq_ok hceiling⟩

theorem spares_resolveNamed (hauthority : parent.permissions.intersection host = .ok authority)
    (hnamed : catalog.admittedNamedDefinitions parent host = .ok named) {definition : AgentDefinition} (hmem : definition ∈ named)
    (hle : permissions ≤ authority ⊓ definition.permissions) :
    Spares Refusal (catalog.resolveChildDefinition parent (.named definition.key) host permissions) := by
  obtain ⟨key, -, -, ceiling, hceiling⟩ := (mem_admittedNamed hauthority hnamed).1 hmem
  obtain rfl : definition.key = key := keyed_of_ceiling hceiling
  have heq := (ceiling_eq hauthority hceiling).2
  dsimp only at heq
  subst heq
  rw [AgentCatalog.resolveChildDefinition, hceiling]
  exact spares_bind spares_ok fun _ h => Except.ok.inj h ▸ spares_bind (spares_requireSubsetOf hle) fun _ _ => spares_ok

/-- **An inline definition is admitted** where the authority allows inline ones, and self calls where it has the key of
the parent. -/
theorem spares_resolveInline (hauthority : parent.permissions.intersection host = .ok authority)
    (hinline : authority.delegation.allowInline = true) {definition : AgentDefinition} (hle : permissions ≤ authority)
    (hwithin : permissions ≤ definition.permissions)
    (hself : definition.key = parent.definition.key → definition = parent.definition ∧ authority.delegation.allowSelf = true) :
    Spares Refusal (catalog.resolveChildDefinition parent (.inline definition) host permissions) := by
  have hadmits : admitsChild authority parent.definition (.inline definition) definition = true := by
    unfold admitsChild
    split_ifs with hkey
    · obtain ⟨hsame, hallowed⟩ := hself hkey
      rw [hallowed, Bool.true_and]
      exact decide_eq_true hsame
    · exact hinline
  refine spares_bind ?_ ?_
  · refine spares_bind ?_ fun found hfound => spares_bind spares_intersection fun _ hsame => ?_
    · exact spares_bind (spares_reject fun _ h => h.elim nofun nofun) fun _ _ => spares_ok
    · obtain rfl := Except.ok.inj (hsame.symm.trans hauthority)
      simp only [AgentCatalog.definition, bind_eq_ok, pure_eq_ok] at hfound
      obtain ⟨-, -, rfl⟩ := hfound
      refine spares_bind (spares_reject fun hoff => ?_) fun _ _ => spares_bind spares_intersection fun _ _ => spares_ok
      exact absurd (hadmits.symm.trans hoff) (by decide)
  · rintro ⟨found, ceiling⟩ h
    have heq := (ceiling_eq hauthority h).2
    simp only [AgentCatalog.childDefinitionCeiling, AgentCatalog.definition, bind_eq_ok, pure_eq_ok] at h
    obtain ⟨_, ⟨-, -, rfl⟩, _, -, -, -, _, -, h⟩ := h
    obtain ⟨rfl, -⟩ := Prod.mk.inj h
    dsimp only at heq
    subst heq
    exact spares_bind (spares_requireSubsetOf (le_inf hle hwithin)) fun _ _ => spares_ok

/-- What a branch advertises: one kind of target that the authority allows. -/
inductive Advertises (authority : AgentPermissions) (parent : AgentDefinition) (named : List AgentDefinition) (branch : Value) : Prop where
  | self (h : authority.delegation.allowSelf = true)
      (hbranch : IsBranch branch (objectSchema ["kind"] [("kind", constSchema (.string "self_call"))]) (authority ⊓ parent.permissions))
  | named (definition : AgentDefinition) (h : definition ∈ named)
      (hbranch : IsBranch branch (namedTarget (objectSchema ["kind", "value"]
        [("kind", constSchema (.string "named")), ("value", keySchema)]) definition.key) (authority ⊓ definition.permissions))
  | inline (h : authority.delegation.allowInline = true)
      (hbranch : IsBranch branch (objectSchema ["kind", "value"]
        [("kind", constSchema (.string "inline")), ("value", definitionSchema)]) authority)

theorem mapM_eq_ok {ε α β : Type} {f : α → Except ε β} {as : List α} {bs : List β} (h : as.mapM f = .ok bs) :
    List.Forall₂ (fun a b => f a = .ok b) as bs := by
  induction as generalizing bs with
  | nil =>
    obtain rfl : [] = bs := Except.ok.inj h
    exact .nil
  | cons a as ih =>
    simp only [List.mapM_cons, bind_eq_ok, pure_eq_ok] at h
    obtain ⟨b, hb, rest, hrest, rfl⟩ := h
    exact .cons hb (ih hrest)

theorem exists_of_forall₂ {α β : Type} {R : α → β → Prop} {as : List α} {bs : List β} (h : List.Forall₂ R as bs) {b : β} (hb : b ∈ bs) :
    ∃ a ∈ as, R a b := by
  induction h with
  | nil => exact nomatch hb
  | cons hfirst _ ih =>
    rcases List.mem_cons.1 hb with rfl | hb
    · exact ⟨_, List.mem_cons_self, hfirst⟩
    · obtain ⟨a, ha, hrelated⟩ := ih hb
      exact ⟨a, List.mem_cons_of_mem _ ha, hrelated⟩

/-- There is one branch for each kind of target, and where there is none no kind is allowed. -/
theorem branches_advertise {children : List Value}
    (h : branches childTemplate (objectSchema ["kind"] [("kind", constSchema (.string "self_call"))],
      objectSchema ["kind", "value"] [("kind", constSchema (.string "named")), ("value", keySchema)],
      objectSchema ["kind", "value"] [("kind", constSchema (.string "inline")), ("value", definitionSchema)])
      parent.definition authority named = .ok children) :
    (∀ branch ∈ children, Advertises authority parent.definition named branch) ∧
      (children = [] → authority.delegation.allowSelf = false ∧ named = [] ∧ authority.delegation.allowInline = false) := by
  simp only [branches, bind_eq_ok, pure_eq_ok] at h
  obtain ⟨self, hself, others, hothers, rfl⟩ := h
  have hnamed := mapM_eq_ok hothers
  refine ⟨fun branch hbranch => ?_, fun hempty => ?_⟩
  · rcases List.mem_append.1 hbranch with hbranch | hbranch
    · rcases List.mem_append.1 hbranch with hbranch | hbranch
      · unfold selfBranch at hself
        split_ifs at hself with hallowed
        · obtain ⟨ceiling, hceiling, hself⟩ := bind_eq_ok.1 hself
          obtain rfl := pure_eq_ok.1 hself
          obtain rfl := List.mem_singleton.1 hbranch
          obtain rfl := AgentPermissions.intersection_eq_ok hceiling
          exact .self hallowed isBranch_child
        · obtain rfl := Except.ok.inj hself
          exact nomatch hbranch
      · obtain ⟨definition, hdefinition, hmade⟩ := exists_of_forall₂ hnamed hbranch
        simp only [namedBranch, bind_eq_ok, pure_eq_ok] at hmade
        obtain ⟨ceiling, hceiling, rfl⟩ := hmade
        obtain rfl := AgentPermissions.intersection_eq_ok hceiling
        exact .named definition hdefinition isBranch_child
    · split_ifs at hbranch with hallowed
      · obtain rfl := List.mem_singleton.1 hbranch
        exact .inline hallowed isBranch_child
      · exact nomatch hbranch
  · obtain ⟨hboth, hinline⟩ := List.append_eq_nil_iff.1 hempty
    obtain ⟨rfl, rfl⟩ := List.append_eq_nil_iff.1 hboth
    refine ⟨?_, ?_, ?_⟩
    · by_contra hallowed
      rw [selfBranch, if_pos (Bool.not_eq_false _ ▸ hallowed), bind_eq_ok] at hself
      obtain ⟨_, -, hself⟩ := hself
      exact nomatch hself
    · exact List.forall₂_nil_right_iff.1 hnamed
    · by_contra hallowed
      rw [if_pos (Bool.not_eq_false _ ▸ hallowed)] at hinline
      exact nomatch hinline

/-- The definition of the tool has the branches for its schema; where it is absent there are none. -/
theorem definition_eq_ok {advertised : Option Requests.ToolDefinition} (h : definition catalog parent host = .ok advertised) :
    ∃ authority named children, parent.permissions.intersection host = .ok authority ∧
      catalog.admittedNamedDefinitions parent host = .ok named ∧
      (∀ branch ∈ children, Advertises authority parent.definition named branch) ∧
      (children = [] → authority.delegation.allowSelf = false ∧ named = [] ∧ authority.delegation.allowInline = false) ∧
      (advertised = none → children = []) ∧
      ∀ tool, advertised = some tool → tool.inputSchema.getAt ["type"] = .string "object" ∧
        tool.inputSchema.getAt ["properties", "children", "items"] = .object [("oneOf", .array children)] := by
  simp only [definition, bind_eq_ok] at h
  obtain ⟨authority, hauthority, named, hnamed, children, hchildren, h⟩ := h
  obtain ⟨hadvertise, hempty⟩ := branches_advertise hchildren
  refine ⟨authority, named, children, hauthority, hnamed, hadvertise, hempty, fun hnone => ?_, fun tool hsome => ?_⟩
  · subst hnone
    split_ifs at h with hchildren
    · exact hchildren
    · exact nomatch pure_eq_ok.1 h
  · subst hsome
    split_ifs at h with hchildren
    · exact nomatch pure_eq_ok.1 h
    · obtain rfl := Option.some.inj (pure_eq_ok.1 h)
      refine ⟨?_, getAt_setAt_self⟩
      rw [getAt_setAt_apart (by decide), getAt_setAt_apart (by decide)]
      rfl

/-- An inline definition permits what is asked of it, and under the key of the parent it is what a self call runs. -/
def InlineFits (parent : AgentSnapshot codec.sha256) (host : AgentPermissions) (child : ChildInvocationInput) : Prop :=
  ∀ definition, child.target = .inline definition → child.permissions ≤ definition.permissions ∧
    (definition.key = parent.definition.key →
      definition = parent.definition ∧ (parent.permissions ⊓ host).delegation.allowSelf = true)

variable {binding : AgentInvocationBinding codec.sha256}

theorem spares_resolveTarget (hauthority : binding.snapshot.permissions.intersection host = .ok authority)
    (hnamed : catalog.admittedNamedDefinitions binding.snapshot host = .ok named) {branch value : Value} {child : ChildInvocationInput}
    (hbranch : Advertises authority binding.snapshot.definition named branch) (hvalid : validates branch value = true)
    (hreads : ReadsChild value child) (hinline : InlineFits binding.snapshot host child) :
    Spares Refusal (resolveTarget codec binding catalog host child.permissions child.target) := by
  cases hbranch with
  | self hallowed hbranch =>
    obtain ⟨hle, fields, hfields, hread⟩ := valid_child hbranch rfl hvalid hreads
    obtain ⟨kind, hkind, hself, -⟩ := hread fields rfl
    rw [hself (valid_kind hbranch rfl hfields hkind)]
    exact spares_resolveSelf hauthority hallowed hle
  | named definition hmem hbranch =>
    obtain ⟨hle, fields, hfields, hread⟩ := valid_child hbranch rfl hvalid hreads
    obtain ⟨kind, hkind, -, hread, -⟩ := hread fields rfl
    obtain ⟨content, key, hcontent, htarget, hkey⟩ := hread (valid_kind hbranch rfl hfields hkind)
    obtain rfl := valid_key hbranch hfields hcontent hkey
    rw [htarget]
    exact spares_resolveNamed hauthority hnamed hmem hle
  | inline hallowed hbranch =>
    obtain ⟨hle, fields, hfields, hread⟩ := valid_child hbranch rfl hvalid hreads
    obtain ⟨kind, hkind, -, -, hread⟩ := hread fields rfl
    obtain ⟨definition, htarget⟩ := hread (valid_kind hbranch rfl hfields hkind)
    obtain ⟨hwithin, hself⟩ := hinline definition htarget
    obtain rfl := AgentPermissions.intersection_eq_ok hauthority
    rw [htarget]
    exact spares_resolveInline hauthority hallowed hle hwithin hself

theorem valid_children {schema value : Value} {children : List Value} {input : AgentInvokeInput}
    (htype : schema.getAt ["type"] = .string "object")
    (hitems : schema.getAt ["properties", "children", "items"] = .object [("oneOf", .array children)])
    (hvalid : validates schema value = true) (hreads : ReadsInput value input) :
    ∀ child ∈ input.children, ∃ item, ReadsChild item child ∧ ∃ branch ∈ children, validates branch item = true := by
  obtain ⟨fields, hfields⟩ := validates_object hvalid htype
  obtain ⟨items, hfound, hread⟩ := hreads fields hfields
  have hchildren : validates (schema.getAt ["properties", "children"]) (.array items) = true :=
    validates_property hvalid rfl (ne_null_of_getAt hitems nofun) hfound
  intro child hchild
  obtain ⟨item, hitem, hreadChild⟩ := exists_of_forall₂ hread hchild
  have hitemValid := validates_item hchildren hitems nofun hitem
  exact ⟨item, hreadChild, validates_oneOf hitemValid rfl⟩

/-- A refusal of authority of a whole preparation. -/
def InvokeRefusal (error : InvokePrepareError) : Prop := ∃ refused, error = .agent refused ∧ Refusal refused

theorem spares_agentCheck {α : Type} {x : Except AgentError α} (h : Spares Refusal x) : Spares InvokeRefusal (agentCheck x) :=
  spares_mapError fun _ he ⟨_, hsame, hrefused⟩ => h _ he (InvokePrepareError.agent.inj hsame ▸ hrefused)

theorem not_invokeRefusal_invalid {message : String} : ¬InvokeRefusal (.invalid message) := fun ⟨_, h, _⟩ => nomatch h

theorem not_invokeRefusal_prepared {error : Policy.PreparedError} : ¬InvokeRefusal (.prepared error) := fun ⟨_, h, _⟩ => nomatch h

variable {execution : ExecutionRef} {limits : InvokePrepareLimits}

theorem spares_resolveIntents {children : List ChildInvocationInput}
    (h : ∀ child ∈ children, Spares Refusal (resolveTarget codec binding catalog host child.permissions child.target)) :
    Spares InvokeRefusal (resolveIntents codec binding catalog host limits children) := by
  induction children with
  | nil => exact spares_ok
  | cons child children ih =>
    obtain ⟨hfirst, hrest⟩ := List.forall_mem_cons.1 h
    refine spares_bind ?_ fun _ _ => spares_bind (ih hrest) fun _ _ => spares_ok
    exact spares_bind (spares_reject fun _ => not_invokeRefusal_invalid) fun _ _ =>
      spares_bind (spares_agentCheck hfirst) fun _ _ => spares_ok

theorem spares_bindPlan {call : ToolCall} {plan : InvokePlan} : Spares InvokeRefusal (bindPlan codec call plan) := by
  have hcheck : ∀ {α : Type} (x : Except Policy.PreparedError α), Spares InvokeRefusal (preparedCheck x) :=
    fun _ => spares_mapError fun _ _ => not_invokeRefusal_prepared
  exact spares_bind (hcheck _) fun _ _ => spares_bind (hcheck _) fun _ _ =>
    spares_bind (spares_reject fun _ => not_invokeRefusal_invalid) fun _ _ => spares_ok

theorem spares_prepare {call : ToolCall}
    (h : ∀ input, codec.decodeInput call.arguments = .ok input → ∀ child ∈ input.children,
      Spares Refusal (resolveTarget codec binding catalog host child.permissions child.target)) :
    Spares InvokeRefusal (prepareAgentInvocation codec binding execution catalog host limits call) := by
  refine spares_bind (spares_reject fun _ => not_invokeRefusal_invalid) fun _ _ => ?_
  refine spares_bind (spares_mapError fun _ _ => not_invokeRefusal_invalid) fun _ _ => ?_
  refine spares_bind (spares_agentCheck (spares_forEach fun _ => spares_identity)) fun _ _ => ?_
  refine spares_bind (spares_reject fun _ => not_invokeRefusal_invalid) fun _ _ => ?_
  refine spares_bind (spares_reject fun _ => not_invokeRefusal_invalid) fun _ _ => ?_
  refine spares_bind (spares_mapError fun _ _ => not_invokeRefusal_invalid) fun input hinput => ?_
  refine spares_bind (spares_reject fun _ => not_invokeRefusal_invalid) fun _ _ => ?_
  refine spares_bind (spares_resolveIntents (h input (mapError_eq_ok.1 hinput))) fun _ _ => ?_
  exact spares_bind spares_bindPlan fun _ _ => spares_ok

theorem resolveTarget_ne_ok (hauthority : binding.snapshot.permissions.intersection host = .ok authority)
    (hnamed : catalog.admittedNamedDefinitions binding.snapshot host = .ok [])
    (hself : authority.delegation.allowSelf = false) (hinline : authority.delegation.allowInline = false)
    {target : InvocationTarget} {definition : AgentDefinition} :
    resolveTarget codec binding catalog host permissions target ≠ .ok definition := by
  have hchild : ∀ selector, catalog.resolveChildDefinition binding.snapshot selector host permissions = .ok definition →
      ∃ ceiling, catalog.childDefinitionCeiling binding.snapshot selector host = .ok (definition, ceiling) ∧
        definition.key ≠ binding.snapshot.definition.key ∧
        admitsChild authority binding.snapshot.definition selector definition = true := by
    intro selector h
    rw [AgentCatalog.resolveChildDefinition, bind_eq_ok] at h
    obtain ⟨⟨found, ceiling⟩, hceiling, h⟩ := h
    simp only [bind_eq_ok, pure_eq_ok] at h
    obtain ⟨_, -, rfl⟩ := h
    have hadmits := (ceiling_eq hauthority hceiling).1
    refine ⟨ceiling, hceiling, fun hkey => ?_, hadmits⟩
    unfold admitsChild at hadmits
    rw [if_pos hkey, hself] at hadmits
    exact absurd hadmits (by simp)
  intro h
  cases target with
  | selfCall =>
    simp only [resolveTarget, resolveSelfDefinition, selfDefinitionCeiling, bind_eq_ok, reject_eq_ok] at h
    obtain ⟨_, ⟨_, hsame, ceiling, hceiling, _, hallowed, -⟩, -⟩ := h
    obtain rfl := Except.ok.inj (hsame.symm.trans hauthority)
    obtain rfl := AgentPermissions.intersection_eq_ok hceiling
    exact hallowed (Bool.eq_false_of_not_eq_true fun hon => absurd (AgentPermissions.allowSelf_of_le inf_le_left hon) (by simp [hself]))
  | named key =>
    obtain ⟨ceiling, hceiling, hkey, hadmits⟩ := hchild _ h
    unfold admitsChild at hadmits
    rw [if_neg hkey] at hadmits
    have hcontains : catalog.definitions.contains key = true := by
      have hfound := hceiling
      simp only [AgentCatalog.childDefinitionCeiling, AgentCatalog.definition, bind_eq_ok, expect_eq_ok] at hfound
      obtain ⟨_, ⟨_, -, hfound⟩, -⟩ := hfound
      rw [Std.ExtTreeMap.contains_eq_isSome_getElem?, hfound]
      rfl
    have hmem := (mem_admittedNamed hauthority hnamed).2
      ⟨key, Std.ExtTreeSet.contains_iff_mem.1 hadmits, hcontains, ceiling, hceiling⟩
    cases hmem
  | inline given =>
    obtain ⟨ceiling, -, hkey, hadmits⟩ := hchild _ h
    unfold admitsChild at hadmits
    rw [if_neg hkey, hinline] at hadmits
    cases hadmits

end Admission

/-- **What is advertised is admitted**, an inline definition under the parent's own key apart that a self call would not
run; and nothing is advertised only where no target is admitted. -/
theorem advertised_admitted (codec : InvokeCodec) (hcodec : codec.Reads) (parent : AgentInvocationBinding codec.sha256)
    (catalog : AgentCatalog) (host : AgentPermissions) :
    (∀ tool, definition catalog parent.snapshot host = .ok (some tool) →
      ∀ (execution : ExecutionRef) (limits : InvokePrepareLimits) (call : ToolCall),
        validates tool.inputSchema call.arguments = true →
        (∀ input, codec.decodeInput call.arguments = .ok input → ∀ child ∈ input.children, InlineFits parent.snapshot host child) →
        Spares InvokeRefusal (prepareAgentInvocation codec parent execution catalog host limits call)) ∧
      (definition catalog parent.snapshot host = .ok none →
        ∀ permissions target found, resolveTarget codec parent catalog host permissions target ≠ .ok found) := by
  refine ⟨fun tool htool execution limits call hvalid hinline => ?_, fun hnone permissions target found => ?_⟩
  · obtain ⟨authority, named, children, hauthority, hnamed, hadvertise, -, -, hschema⟩ := definition_eq_ok htool
    obtain ⟨htype, hitems⟩ := hschema tool rfl
    refine spares_prepare fun input hinput child hchild => ?_
    obtain ⟨item, hread, branch, hbranch, hitem⟩ := valid_children htype hitems hvalid (hcodec _ _ hinput) child hchild
    exact spares_resolveTarget hauthority hnamed (hadvertise branch hbranch) hitem hread (hinline input hinput child hchild)
  · obtain ⟨authority, named, children, hauthority, hnamed, -, hempty, hchildren, -⟩ := definition_eq_ok hnone
    obtain ⟨hself, rfl, hinline⟩ := hempty (hchildren rfl)
    exact resolveTarget_ne_ok hauthority hnamed hself hinline

section Samples

def plannerPermissions : AgentPermissions where
  tools := (∅ : BTreeSet EnvironmentTool).insert .read
  delegation :=
    { namedTargets := (∅ : BTreeSet AgentKey).insert ⟨"helper", "1"⟩
      allowInline := true
      allowSelf := true }

def planner : AgentInvocationBinding fun _ => "digest" where
  taskId := "task"
  invocationId := "invocation"
  logicalSessionId := "session"
  privateSessionId := "session"
  contextKind := .root
  snapshot :=
    { input :=
        { schemaVersion := 1
          definition := ⟨{ plainInput "planner" "plan" true with permissions := plannerPermissions }, by decide +kernel⟩
          identity := ⟨"planner", "1", "planner-1"⟩
          permissions := plannerPermissions
          digest := "digest" }
      valid := by decide +kernel }

theorem helper_valid : (plainInput "helper" "help" false).validate = .ok () := by decide +kernel

def helper : AgentDefinition := ⟨plainInput "helper" "help" false, helper_valid⟩

def helpers : AgentCatalog where
  definitions := (∅ : Std.ExtTreeMap AgentKey AgentDefinition).insert helper.key helper
  capacity := 1
  keyed := fun key found h => by
    rw [OrderedMaps.getElem?_insert] at h
    split_ifs at h with hkey
    · obtain rfl := Option.some.inj h
      exact hkey
    · simp at h

def writer : AgentDefinition := ⟨plainInput "writer" "write" false, by decide +kernel⟩

def inputOf (targets : List InvocationTarget) : AgentInvokeInput where
  children := targets.map fun target => { target, input := "go", permissions := inlineOnly false }
  parallel := false

def readerOf (targets : List InvocationTarget) : InvokeCodec where
  sha256 _ := "digest"
  decodeInput value := if value = (inputOf targets).toValue then .ok (inputOf targets) else .error "unread"
  decodePlan _ := .error "unread"

def callOf (targets : List InvocationTarget) : ToolCall := ⟨"call", agentInvokeName, (inputOf targets).toValue⟩

theorem readerOf_reads {targets : List InvocationTarget} : (readerOf targets).Reads := by
  intro value input h
  dsimp only [readerOf] at h
  split_ifs at h with hvalue
  obtain rfl := Except.ok.inj h
  exact hvalue ▸ readsInput_toValue

theorem readerOf_decode {targets : List InvocationTarget} :
    (readerOf targets).decodeInput (callOf targets).arguments = .ok (inputOf targets) := if_pos rfl

theorem exists_of_any {x : Except AgentError (Option Requests.ToolDefinition)} {p : Requests.ToolDefinition → Bool}
    (h : x.toOption.join.any p = true) : ∃ tool, x = .ok (some tool) ∧ p tool = true := by
  obtain _ | _ | tool := x
  · exact nomatch h
  · exact nomatch h
  · exact ⟨tool, rfl, h⟩

def eachKind : List InvocationTarget := [.selfCall, .named helper.key, .inline writer]

theorem eachKind_valid : ∃ tool, definition helpers planner.snapshot plannerPermissions = .ok (some tool) ∧
    validates tool.inputSchema (callOf eachKind).arguments = true := exists_of_any (by decide +kernel)

/-- It is advertised, and it is not refused. -/
theorem advertised_admitted_eachKind : Spares InvokeRefusal
    (prepareAgentInvocation (readerOf eachKind) planner twinsPlan.execution helpers plannerPermissions twinsLimits (callOf eachKind)) := by
  obtain ⟨tool, htool, hvalid⟩ := eachKind_valid
  refine (advertised_admitted (readerOf eachKind) readerOf_reads planner helpers plannerPermissions).1 tool htool _ _ _ hvalid ?_
  intro input hinput child hchild definition htarget
  obtain rfl := Except.ok.inj (readerOf_decode.symm.trans hinput)
  simp only [inputOf, eachKind, List.map_cons, List.map_nil, List.mem_cons, List.not_mem_nil, or_false] at hchild
  rcases hchild with rfl | rfl | rfl
  · exact nomatch htarget
  · exact nomatch htarget
  · obtain rfl := InvocationTarget.inline.inj htarget
    exact ⟨le_refl (inlineOnly false), fun hkey => absurd hkey (by decide +kernel)⟩

def ownDefinition : List InvocationTarget := [.inline twinsParent.snapshot.definition]

/-- **Not all that is advertised is admitted**: to call its own definition inline is valid under the schema of a parent
that may call inline definitions, but not itself, and is denied. -/
theorem own_denied :
    (readerOf ownDefinition).Reads ∧
      (∃ tool, definition ⟨∅, 1, by simp⟩ twinsParent.snapshot (inlineOnly true) = .ok (some tool) ∧
        validates tool.inputSchema (callOf ownDefinition).arguments = true) ∧
      inlineOnly false ≤ twinsParent.snapshot.definition.permissions ∧
      prepareAgentInvocation (readerOf ownDefinition) twinsParent twinsPlan.execution ⟨∅, 1, by simp⟩ (inlineOnly true) twinsLimits
        (callOf ownDefinition) = .error (.agent .permissionDenied) :=
  ⟨readerOf_reads, exists_of_any (by decide +kernel), AgentPermissions.le_iff.2 (by decide +kernel), by decide +kernel⟩

end Samples

end Advertisement

end Agent
end Kolyan
