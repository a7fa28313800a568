/-
# JSON schemas

A schema is a JSON value that says which values are valid (`validates`), as far as the
repository's schemas go: `type`, `const`, `enum`, `required`, `properties`,
`additionalProperties`, `items`, `minItems`, `maxItems` and `oneOf`; what else it holds, such
as a description, says nothing.  The schemas are made by editing a template in place, as
`serde_json` indexes a value (`Value.setAt`), and an edit is found where it was made and
nowhere else (`getAt_setAt_self`, `getAt_setAt_apart`).
-/

import Kolyan.Value

namespace Kolyan
namespace Value

/-! ### Fields -/

/-- The value under a name. -/
def find (name : String) : Value → Option Value
  | .object fields => fields.lookup name
  | _ => none

/-- `value[name]`: `null` where there is none. -/
def get (value : Value) (name : String) : Value := (value.find name).getD .null

/-- The fields with another value under a name. -/
def setField (name : String) (new : Value) : List (String × Value) → List (String × Value)
  | [] => [(name, new)]
  | (key, old) :: fields => if key = name then (key, new) :: fields else (key, old) :: setField name new fields

/-- `value[name] = new`, which makes an object of `null`. -/
def set (value : Value) (name : String) (new : Value) : Value :=
  match value with
  | .object fields => .object (setField name new fields)
  | _ => .object [(name, new)]

/-- `value[path] = new`. -/
def setAt (value : Value) : List String → Value → Value
  | [], new => new
  | name :: path, new => value.set name ((value.get name).setAt path new)

/-- `value[path]`. -/
def getAt (value : Value) : List String → Value
  | [] => value
  | name :: path => (value.get name).getAt path

/-! ### Validity -/

/-- The members of an array. -/
def items : Value → List Value
  | .array items => items
  | _ => []

/-- The fields of an object. -/
def fields : Value → List (String × Value)
  | .object fields => fields
  | _ => []

/-- The names of the JSON types. -/
def typeName : Value → String
  | .null => "null"
  | .bool _ => "boolean"
  | .number _ => "number"
  | .string _ => "string"
  | .array _ => "array"
  | .object _ => "object"

/-- The names of the properties that a schema describes. -/
def propertyNames (keywords : List (String × Value)) : List String :=
  match keywords.lookup "properties" with
  | some (.object properties) => properties.map (·.1)
  | _ => []

/-- A keyword that holds no schema. -/
def holdsPlain (keyword : String) (argument value : Value) : Bool :=
  if keyword = "type" then argument = .string value.typeName || argument.items.contains (.string value.typeName)
  else if keyword = "const" then value = argument
  else if keyword = "enum" then argument.items.contains value
  else if keyword = "required" then
    value.typeName ≠ "object" || argument.items.all fun name => value.fields.any fun field => Value.string field.1 = name
  else if keyword = "minItems" then
    value.typeName ≠ "array" || (List.range (value.items.length + 1)).any fun n => argument = .nat n
  else if keyword = "maxItems" then
    value.typeName ≠ "array" || (List.range value.items.length).all fun n => argument ≠ .nat n
  else true

mutual

/-- **A value is valid under a schema.** -/
def validates : Value → Value → Bool
  | .bool allowed, _ => allowed
  | .object keywords, value => holdsAll (propertyNames keywords) keywords value
  | _, _ => false
termination_by structural schema => schema

/-- All keywords hold, of a schema that describes the named properties. -/
def holdsAll (described : List String) : List (String × Value) → Value → Bool
  | [], _ => true
  | (keyword, argument) :: keywords, value =>
    holdsPlain keyword argument value &&
      (keyword ≠ "items" || value.items.all fun item => validates argument item) &&
      (keyword ≠ "additionalProperties" || value.fields.all fun field =>
        described.contains field.1 || validates argument field.2) &&
      holdsNested keyword argument value && holdsAll described keywords value
termination_by structural keywords => keywords

/-- A keyword holds that has several schemas. -/
def holdsNested (keyword : String) : Value → Value → Bool
  | .object properties, value => keyword ≠ "properties" || holdsProperties properties value
  | .array branches, value => keyword ≠ "oneOf" || countValid branches value = 1
  | _, _ => true
termination_by structural argument => argument

/-- The properties that a value has are valid. -/
def holdsProperties : List (String × Value) → Value → Bool
  | [], _ => true
  | (name, schema) :: properties, value =>
    (match value.find name with
    | some found => validates schema found
    | none => true) && holdsProperties properties value
termination_by structural properties => properties

/-- How many of some schemas a value is valid under. -/
def countValid : List Value → Value → ℕ
  | [], _ => 0
  | schema :: schemas, value => (if validates schema value then 1 else 0) + countValid schemas value
termination_by structural schemas => schemas

end

/-! ### Edits -/

section Edits

variable {value new schema : Value} {name other : String} {path : List String}

theorem lookup_setField (fields : List (String × Value)) :
    (setField name new fields).lookup other = if other = name then some new else fields.lookup other := by
  induction fields with
  | nil =>
    rw [setField, List.lookup_cons, List.lookup_nil]
    split_ifs with h
    · rw [h, beq_self_eq_true]
    · rw [beq_false_of_ne h]
  | cons field fields ih =>
    obtain ⟨key, old⟩ := field
    rw [setField]
    split_ifs with hkey hother hother
    · rw [List.lookup_cons, hother, hkey, beq_self_eq_true]
    · rw [List.lookup_cons, List.lookup_cons, hkey, beq_false_of_ne hother]
    · have hne : ¬other = key := fun h => hkey (h.symm.trans hother)
      rw [List.lookup_cons, beq_false_of_ne hne]
      exact ih.trans (if_pos hother)
    · rw [List.lookup_cons, List.lookup_cons, ih, if_neg hother]

theorem find_set : (value.set name new).find other = if other = name then some new else value.find other := by
  have hother : ∀ (fields : List (String × Value)), (Value.object (setField name new fields)).find other =
      if other = name then some new else fields.lookup other := lookup_setField
  cases value with
  | object fields => exact hother fields
  | null | bool | number | string | array => exact hother []

theorem get_set : (value.set name new).get other = if other = name then new else value.get other := by
  unfold get
  rw [find_set]
  split_ifs <;> rfl

@[simp] theorem getAt_nil : value.getAt [] = value := rfl

@[simp] theorem setAt_nil : value.setAt [] new = new := rfl

@[simp] theorem getAt_cons : value.getAt (name :: path) = (value.get name).getAt path := rfl

@[simp] theorem get_setAt : (value.setAt (name :: path) new).get other =
    if other = name then (value.get name).setAt path new else value.get other := get_set

/-- Two paths that part somewhere. -/
def Apart : List String → List String → Bool
  | name :: path, other :: path' => name ≠ other || Apart path path'
  | _, _ => false

theorem apart_append {path path' : List String} (h : Apart path path' = true) (more : List String) :
    Apart (path ++ more) path' = true := by
  induction path generalizing path' with
  | nil => exact nomatch h
  | cons name path ih =>
    cases path' with
    | nil => exact nomatch h
    | cons other path' =>
      simp only [Apart, List.cons_append, Bool.or_eq_true] at h ⊢
      exact h.imp_right ih

theorem getAt_setAt_apart {path' : List String} (h : Apart path path' = true) : (value.setAt path new).getAt path' = value.getAt path' := by
  induction path generalizing value path' with
  | nil => exact nomatch h
  | cons name path ih =>
    cases path' with
    | nil => exact nomatch h
    | cons other path' =>
      rw [getAt_cons, getAt_cons, get_setAt]
      split_ifs with hother
      · subst hother
        simp only [Apart, ne_eq, not_true_eq_false, decide_false, Bool.false_or] at h
        exact ih h
      · rfl

theorem getAt_setAt_append (path' : List String) : (value.setAt path new).getAt (path ++ path') = new.getAt path' := by
  induction path generalizing value with
  | nil => rfl
  | cons name path ih =>
    rw [List.cons_append, getAt_cons, get_setAt, if_pos rfl]
    exact ih

theorem getAt_setAt_self : (value.setAt path new).getAt path = new := by
  have h := @getAt_setAt_append value new path []
  rwa [List.append_nil] at h

theorem getAt_append (path' : List String) : value.getAt (path ++ path') = (value.getAt path).getAt path' := by
  induction path generalizing value with
  | nil => rfl
  | cons name path ih => exact ih

theorem find_of_get (h : value.get name = new) (hne : new ≠ .null) : value.find name = some new := by
  unfold get at h
  cases hfind : value.find name with
  | none =>
    rw [hfind] at h
    exact absurd h.symm hne
  | some found =>
    rw [hfind] at h
    rw [show found = new from h]

end Edits

/-! ### What is valid -/

section Valid

variable {schema value argument found : Value} {keyword name : String}

theorem mem_of_lookup {fields : List (String × Value)} (h : fields.lookup name = some found) : (name, found) ∈ fields := by
  induction fields with
  | nil => exact nomatch h
  | cons field fields ih =>
    obtain ⟨key, old⟩ := field
    rw [List.lookup_cons] at h
    split at h
    · rename_i hkey
      obtain rfl := Option.some.inj h
      rw [beq_iff_eq.1 hkey]
      exact List.mem_cons_self
    · exact List.mem_cons_of_mem _ (ih h)

/-- What a keyword asks of a value. -/
structure Asks (keyword : String) (argument value : Value) : Prop where
  plain : holdsPlain keyword argument value = true
  items : keyword = "items" → ∀ items, value = .array items → ∀ item ∈ items, validates argument item = true
  properties : keyword = "properties" → ∀ properties, argument = .object properties → holdsProperties properties value = true
  oneOf : keyword = "oneOf" → ∀ branches, argument = .array branches → countValid branches value = 1

theorem asks_of_validates (h : validates schema value = true) (hfind : schema.find keyword = some argument) :
    Asks keyword argument value := by
  cases schema with
  | null | bool | number | string | array => exact nomatch hfind
  | object keywords =>
    have hall : ∀ (described : List String) keywords, holdsAll described keywords value = true →
        (keyword, argument) ∈ keywords → Asks keyword argument value := by
      intro described keywords hholds hmem
      induction keywords with
      | nil => exact nomatch hmem
      | cons field keywords ih =>
        obtain ⟨key, given⟩ := field
        simp only [holdsAll, Bool.and_eq_true, Bool.or_eq_true, decide_eq_true_eq] at hholds
        obtain ⟨⟨⟨⟨hplain, hitems⟩, -⟩, hnested⟩, hrest⟩ := hholds
        rcases List.mem_cons.1 hmem with heq | hmem
        · obtain ⟨rfl, rfl⟩ := Prod.mk.inj heq
          refine ⟨hplain, ?_, ?_, ?_⟩
          · rintro rfl items rfl item hitem
            exact List.all_eq_true.1 (hitems.resolve_left fun h => h rfl) item hitem
          · rintro rfl properties rfl
            rw [holdsNested, Bool.or_eq_true] at hnested
            exact hnested.resolve_left (by simp)
          · rintro rfl branches rfl
            rw [holdsNested, Bool.or_eq_true] at hnested
            exact of_decide_eq_true (hnested.resolve_left (by simp))
        · exact ih hrest hmem
    rw [validates] at h
    exact hall _ _ h (mem_of_lookup hfind)

theorem validates_property (h : validates schema value = true) (hschema : (schema.get "properties").get name = argument)
    (hne : argument ≠ .null) (hfound : value.find name = some found) : validates argument found = true := by
  have hargument : (schema.get "properties").find name = some argument := find_of_get hschema hne
  cases hproperties : schema.get "properties" with
  | null | bool | number | string | array =>
    rw [hproperties] at hargument
    exact nomatch hargument
  | object properties =>
    rw [hproperties] at hargument
    have hholds := (asks_of_validates h (find_of_get hproperties nofun)).properties rfl properties rfl
    have hall : ∀ properties : List (String × Value), holdsProperties properties value = true →
        (name, argument) ∈ properties → validates argument found = true := by
      intro properties hholds hmem
      induction properties with
      | nil => exact nomatch hmem
      | cons field properties ih =>
        obtain ⟨key, given⟩ := field
        rw [holdsProperties, Bool.and_eq_true] at hholds
        rcases List.mem_cons.1 hmem with heq | hmem
        · obtain ⟨rfl, rfl⟩ := Prod.mk.inj heq
          have hfirst := hholds.1
          rw [hfound] at hfirst
          exact hfirst
        · exact ih hholds.2 hmem
    exact hall properties hholds (mem_of_lookup hargument)

theorem validates_item {items : List Value} (h : validates schema (.array items) = true) (hschema : schema.get "items" = argument)
    (hne : argument ≠ .null) {item : Value} (hitem : item ∈ items) : validates argument item = true :=
  (asks_of_validates h (find_of_get hschema hne)).items rfl items rfl item hitem

theorem validates_oneOf {branches : List Value} (h : validates schema value = true)
    (hschema : schema.get "oneOf" = .array branches) : ∃ branch ∈ branches, validates branch value = true := by
  have hcount := (asks_of_validates h (find_of_get hschema nofun)).oneOf rfl branches rfl
  have hpositive : ∀ branches : List Value, countValid branches value ≠ 0 → ∃ branch ∈ branches, validates branch value = true := by
    intro branches hne
    induction branches with
    | nil => exact absurd (by rw [countValid]) hne
    | cons branch branches ih =>
      rw [countValid] at hne
      by_cases hbranch : validates branch value = true
      · exact ⟨branch, List.mem_cons_self, hbranch⟩
      · rw [if_neg hbranch, zero_add] at hne
        obtain ⟨found, hfound, hvalid⟩ := ih hne
        exact ⟨found, List.mem_cons_of_mem _ hfound, hvalid⟩
  exact hpositive branches (by rw [hcount]; exact one_ne_zero)

theorem validates_const (h : validates schema value = true) (hschema : schema.get "const" = argument) (hne : argument ≠ .null) :
    value = argument := by
  have hplain := (asks_of_validates h (find_of_get hschema hne)).plain
  rw [holdsPlain, if_neg (by decide), if_pos rfl] at hplain
  exact of_decide_eq_true hplain

theorem validates_enum {values : List Value} (h : validates schema value = true) (hschema : schema.get "enum" = .array values) :
    value ∈ values := by
  have hplain := (asks_of_validates h (find_of_get hschema nofun)).plain
  rw [holdsPlain, if_neg (by decide), if_neg (by decide), if_pos rfl] at hplain
  exact List.contains_iff_mem.1 hplain

theorem validates_object (h : validates schema value = true) (hschema : schema.get "type" = .string "object") :
    ∃ fields, value = .object fields := by
  have hplain := (asks_of_validates h (find_of_get hschema nofun)).plain
  rw [holdsPlain, if_pos rfl] at hplain
  cases value with
  | object fields => exact ⟨fields, rfl⟩
  | null | bool | number | string | array => exact absurd hplain (by simp [typeName, items])

end Valid

end Value
end Kolyan
