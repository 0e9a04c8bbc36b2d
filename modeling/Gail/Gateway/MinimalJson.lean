import Gail.Library.JsonSchema
import Gail.Library.Text

/-! The value that stands in for an answer of a given JSON Schema. It is made by choices, each on the first keyword that
settles one, and is right where the choices meet the keywords that were not looked at. -/
namespace Gail.Gateway.MinimalJson
open Gail.Library Schema

/-- What a schema comes to: another schema that a keyword leads to, a value, or an object of its required keys. -/
inductive Choice where
  | follow (keyword : String) (schema : Json ℚ)
  | value (value : Json ℚ)
  | object

section Generator

/-- The declared type, the first of several that is not `null`, or that of a schema with the keywords of objects. -/
def selectedType (schema : Json ℚ) : Option String :=
  let declared := match schema.get "type" with
    | some (.text kind) => some kind
    | some (.array kinds) => (kinds.filterMap Json.asStr).find? fun kind => !(kind == "null")
    | _ => none
  declared.or
    (if (schema.get "properties").isSome || (schema.get "required").isSome then some "object" else none)

def ofSelectedType (kind : String) : Choice :=
  match kind with
  | "object" => .object
  | "array" => .value (.array [])
  | "boolean" => .value (.bool false)
  | "integer" => .value (.integer 0)
  | "number" => .value (.number 0 rfl)
  | "string" => .value (.text "")
  | _ => .value .null

def choose (root schema : Json ℚ) : Choice :=
  match target root schema with
  | some own => .follow "$ref" own
  | none =>
    match ((schema.get "const").or (listOf schema "enum").head?).or (schema.get "default") with
    | some value => .value value
    | none =>
      match (listOf schema "anyOf").head? with
      | some first => .follow "anyOf" first
      | none =>
        match (listOf schema "oneOf").head? with
        | some first => .follow "oneOf" first
        | none =>
          match (listOf schema "allOf").head? with
          | some first => .follow "allOf" first
          | none => ofSelectedType ((selectedType schema).getD "object")

/-- `Map::insert`; what order the members have is left open. -/
def insertMember (key : String) (value : Json ℚ) (members : List (String × Json ℚ)) : List (String × Json ℚ) :=
  (key, value) :: members.filter fun member => !(member.1 == key)

/-- The members of the required keys that have a value. -/
def collectMembers (keys : List String) (valueOf : String → Option (Json ℚ)) : List (String × Json ℚ) :=
  keys.foldl (fun members key =>
    match valueOf key with
    | some value => insertMember key value members
    | none => members) []

/-- A level is left for every depth up to 24. -/
def minimalJsonFromSchemaInner (root : Json ℚ) : Nat → Json ℚ → Option (Json ℚ)
  | 0, _ => some .null
  | left + 1, schema =>
    match choose root schema with
    | .follow _ own => minimalJsonFromSchemaInner root left own
    | .value value => some value
    | .object =>
      some (.object (collectMembers (requiredKeys schema) fun key =>
        match (properties schema).lookup key with
        | some own => minimalJsonFromSchemaInner root left own
        | none => if eqIgnoreAsciiCase key "steps" then some (.array []) else none))

def minimalJsonFromSchema (schema : Json ℚ) : Option (Json ℚ) := minimalJsonFromSchemaInner schema 25 schema

end Generator

section Choices

/-- A value that is given, or what the choices from a schema lead to. -/
inductive Document where
  | given (value : Json ℚ)
  | chosen (left : Nat) (schema : Json ℚ)

/-- Where choices end: in a value, or in a schema whose required keys make an object. -/
inductive End where
  | value (value : Json ℚ)
  | object (left : Nat) (schema : Json ℚ)

variable (root : Json ℚ)

def endOf : Nat → Json ℚ → End
  | 0, _ => .value .null
  | left + 1, schema =>
    match choose root schema with
    | .follow _ own => endOf left own
    | .value value => .value value
    | .object => .object left schema

def Document.endOf : Document → End
  | .given value => .value value
  | .chosen left schema => MinimalJson.endOf root left schema

/-- A required key has a member if there is a schema for it, or if it is for steps. -/
def memberOf (left : Nat) (schema : Json ℚ) (key : String) : Option Document :=
  if key ∈ requiredKeys schema then
    match (properties schema).lookup key with
    | some own => some (.chosen left own)
    | none => if eqIgnoreAsciiCase key "steps" then some (.given (.array [])) else none
  else none

/-- What is settled by the choices alone. -/
def choices : View Document where
  ofType document name :=
    match document.endOf root with
    | .value value => isOfType value name
    | .object _ _ => name == "object"
  member document key :=
    match document.endOf root with
    | .value value => (value.get key).map .given
    | .object left schema => memberOf left schema key
  within document keys :=
    match document.endOf root with
    | .value value => values.within value keys
    | .object left schema =>
      (requiredKeys schema).all fun key => (memberOf left schema key).isNone || keys.contains key
  items document :=
    match document.endOf root with
    | .value value => (itemsOf value).map .given
    | .object _ _ => []
  scalar document value :=
    match document.endOf root with
    | .value own => sameScalar own value
    | .object _ _ => false

/-- The choices from a schema meet what they leave out: beside a keyword that is followed, the others are met by where
it leads; a value meets its schema, as `null` does that of a level too deep; and the required keys of an object have
schemas, which are met in turn. -/
def Suits : Nat → Json ℚ → Prop
  | 0, schema => Meets values root schema .null
  | left + 1, schema =>
    match choose root schema with
    | .value value => Meets values root schema value
    | .object => typeOk values schema (.object []) = true ∧
        ∀ key ∈ requiredKeys schema,
          match (properties schema).lookup key with
          | some own => Suits left own
          | none => eqIgnoreAsciiCase key "steps" = true
    | .follow keyword own =>
      Meets (choices root) root (without schema keyword) (.chosen (left + 1) schema) ∧
        if keyword = "$ref" then Suits left own
        else if keyword = "allOf" then
          ∀ member ∈ listOf schema "allOf", Accepts (choices root) root member (.chosen (left + 1) schema)
        else
          Suits left own ∨
            ∃ other ∈ listOf schema keyword, Meets (choices root) root other (.chosen (left + 1) schema)

end Choices

/-- The value has the declared types and the required keys at every level, and satisfies every `allOf`. -/
def Generates (schema : Json ℚ) : Prop :=
  ∃ value, minimalJsonFromSchema schema = some value ∧ Meets values schema schema value

section Collecting

theorem lookup_insertMember (key : String) (value : Json ℚ) (members : List (String × Json ℚ)) (name : String) :
    (insertMember key value members).lookup name = if name = key then some value else members.lookup name := by
  have hget := get_without (.object members) key name
  change (members.filter fun member => !(member.1 == key)).lookup name = _ at hget
  rw [insertMember, List.lookup_cons, hget]
  by_cases hname : name = key
  · simp [hname]
  · rw [beq_false_of_ne hname, if_neg hname, if_neg hname]
    rfl

theorem lookup_collectMembers (keys : List String) (valueOf : String → Option (Json ℚ)) (name : String) :
    (collectMembers keys valueOf).lookup name = if name ∈ keys then valueOf name else none := by
  induction keys using List.reverseRecOn with
  | nil => rfl
  | append_singleton keys key ih =>
    rw [collectMembers, List.foldl_concat]
    change (match valueOf key with
      | some value => insertMember key value (collectMembers keys valueOf)
      | none => collectMembers keys valueOf).lookup name = _
    by_cases hname : name = key
    · subst hname
      rw [if_pos (List.mem_append_right _ (List.mem_singleton_self _))]
      cases hvalue : valueOf name with
      | none =>
        dsimp only
        rw [ih, hvalue]
        split_ifs <;> rfl
      | some value =>
        dsimp only
        rw [lookup_insertMember, if_pos rfl]
    · have hmem : name ∈ keys ++ [key] ↔ name ∈ keys := by simp [hname]
      simp only [hmem]
      cases valueOf key with
      | none => exact ih
      | some value =>
        dsimp only
        rw [lookup_insertMember, if_neg hname, ih]

theorem mem_keys_iff {members : List (String × Json ℚ)} {key : String} :
    key ∈ members.map Prod.fst ↔ (members.lookup key).isSome = true := by
  rw [List.lookup_isSome_iff, List.mem_map]
  simp only [beq_iff_eq, eq_comm (b := key)]

end Collecting

section Images
variable (root : Json ℚ)

/-- The value that choices come to. -/
def valueOfChoices (left : Nat) (schema : Json ℚ) : Json ℚ := (minimalJsonFromSchemaInner root left schema).getD .null

/-- The document as a value. -/
def Document.toValue : Document → Json ℚ
  | .given value => value
  | .chosen left schema => valueOfChoices root left schema

/-- The value of a required key. -/
def valueOfKey (left : Nat) (schema : Json ℚ) (key : String) : Option (Json ℚ) :=
  match (properties schema).lookup key with
  | some own => minimalJsonFromSchemaInner root left own
  | none => if eqIgnoreAsciiCase key "steps" then some (.array []) else none

def objectOf (left : Nat) (schema : Json ℚ) : Json ℚ :=
  .object (collectMembers (requiredKeys schema) (valueOfKey root left schema))

theorem minimalJsonFromSchemaInner_succ (left : Nat) (schema : Json ℚ) :
    minimalJsonFromSchemaInner root (left + 1) schema =
      match choose root schema with
      | .follow _ own => minimalJsonFromSchemaInner root left own
      | .value value => some value
      | .object => some (objectOf root left schema) := rfl

/-- There always is a value. -/
theorem minimalJsonFromSchemaInner_eq (left : Nat) (schema : Json ℚ) :
    minimalJsonFromSchemaInner root left schema = some (valueOfChoices root left schema) := by
  induction left generalizing schema with
  | zero => rfl
  | succ left ih =>
    rw [valueOfChoices, minimalJsonFromSchemaInner_succ]
    cases choose root schema with
    | follow keyword own => exact ih own
    | value value => rfl
    | object => rfl

theorem valueOfChoices_endOf (left : Nat) (schema : Json ℚ) :
    valueOfChoices root left schema =
      match endOf root left schema with
      | .value value => value
      | .object left schema => objectOf root left schema := by
  induction left generalizing schema with
  | zero => rfl
  | succ left ih =>
    rw [valueOfChoices, minimalJsonFromSchemaInner_succ, endOf]
    cases choose root schema with
    | follow keyword own => exact ih own
    | value value => rfl
    | object => rfl

theorem toValue_endOf (document : Document) :
    document.toValue root =
      match document.endOf root with
      | .value value => value
      | .object left schema => objectOf root left schema := by
  cases document with
  | given value => rfl
  | chosen left schema => exact valueOfChoices_endOf root left schema

theorem get_objectOf (left : Nat) (schema : Json ℚ) (key : String) :
    (objectOf root left schema).get key = (memberOf left schema key).map (Document.toValue root) := by
  change (collectMembers _ _).lookup key = _
  rw [lookup_collectMembers, memberOf]
  by_cases hmem : key ∈ requiredKeys schema
  · rw [if_pos hmem, if_pos hmem, valueOfKey]
    cases (properties schema).lookup key with
    | some own => exact minimalJsonFromSchemaInner_eq root left own
    | none =>
      dsimp only
      split_ifs <;> rfl
  · rw [if_neg hmem, if_neg hmem]
    rfl

/-- A list of keys holds those of an object if it holds those that have a value. -/
theorem within_objectOf (left : Nat) (schema : Json ℚ) (keys : List String) :
    values.within (objectOf root left schema) keys =
      (requiredKeys schema).all fun key => (memberOf left schema key).isNone || keys.contains key := by
  have hkey (key : String) : key ∈ (membersOf (objectOf root left schema)).map Prod.fst ↔
      (memberOf left schema key).isSome = true := by
    rw [mem_keys_iff, ← Option.isSome_map (f := Document.toValue root), ← get_objectOf]
    rfl
  have hrequired (key : String) (h : (memberOf left schema key).isSome = true) : key ∈ requiredKeys schema := by
    by_contra hmem
    rw [memberOf, if_neg hmem] at h
    cases h
  rw [Bool.eq_iff_iff, List.all_eq_true]
  change ((membersOf (objectOf root left schema)).all fun member => keys.contains member.1) = true ↔ _
  rw [List.all_eq_true]
  constructor
  · intro h key _
    cases hmember : (memberOf left schema key).isSome with
    | false => simp [Option.not_isSome_iff_eq_none.mp (by simpa using hmember)]
    | true =>
      obtain ⟨member, hin, rfl⟩ := List.mem_map.mp ((hkey key).mpr hmember)
      rw [h member hin, Bool.or_true]
  · intro h member hin
    have hmember := (hkey member.1).mp (List.mem_map_of_mem hin)
    have hheld := h member.1 (hrequired _ hmember)
    rw [Option.isSome_iff_ne_none] at hmember
    simpa [hmember] using hheld

theorem choices_maps : (choices root).Maps values (Document.toValue root) where
  ofType document name := by
    rw [toValue_endOf]
    change isOfType _ name = match document.endOf root with
      | .value value => isOfType value name
      | .object _ _ => name == "object"
    cases document.endOf root <;> rfl
  member document key := by
    rw [toValue_endOf]
    change Json.get _ key = (match document.endOf root with
      | .value value => (value.get key).map Document.given
      | .object left schema => memberOf left schema key).map _
    cases document.endOf root with
    | value value =>
      dsimp only
      rw [Option.map_map]
      exact Option.map_id'.symm
    | object left schema => exact get_objectOf root left schema key
  within document keys := by
    rw [toValue_endOf]
    change values.within _ keys = match document.endOf root with
      | .value value => values.within value keys
      | .object left schema =>
        (requiredKeys schema).all fun key => (memberOf left schema key).isNone || keys.contains key
    cases document.endOf root with
    | value value => rfl
    | object left schema => exact within_objectOf root left schema keys
  items document := by
    rw [toValue_endOf]
    change itemsOf _ = (match document.endOf root with
      | .value value => (itemsOf value).map Document.given
      | .object _ _ => []).map _
    cases document.endOf root with
    | value value =>
      dsimp only
      rw [List.map_map]
      exact (List.map_id' _).symm
    | object left schema => rfl
  scalar document value := by
    rw [toValue_endOf]
    change sameScalar _ value = match document.endOf root with
      | .value own => sameScalar own value
      | .object _ _ => false
    cases document.endOf root with
    | value own => rfl
    | object left schema => cases value <;> rfl

end Images

section Choosing
variable {root schema : Json ℚ}

theorem of_choose_follow {keyword : String} {own : Json ℚ} (h : choose root schema = .follow keyword own) :
    (keyword = "$ref" ∧ target root schema = some own) ∨
      (keyword = "anyOf" ∨ keyword = "oneOf" ∨ keyword = "allOf") ∧ (listOf schema keyword).head? = some own := by
  unfold choose at h
  split at h
  · next target htarget =>
    obtain ⟨rfl, rfl⟩ := Choice.follow.inj h
    exact .inl ⟨rfl, htarget⟩
  · split at h
    · cases h
    · split at h
      · next first hfirst =>
        obtain ⟨rfl, rfl⟩ := Choice.follow.inj h
        exact .inr ⟨.inl rfl, hfirst⟩
      · split at h
        · next first hfirst =>
          obtain ⟨rfl, rfl⟩ := Choice.follow.inj h
          exact .inr ⟨.inr (.inl rfl), hfirst⟩
        · split at h
          · next first hfirst =>
            obtain ⟨rfl, rfl⟩ := Choice.follow.inj h
            exact .inr ⟨.inr (.inr rfl), hfirst⟩
          · unfold ofSelectedType at h
            split at h <;> cases h

/-- Of an object, there is no keyword to follow. -/
theorem of_choose_object (h : choose root schema = .object) :
    target root schema = none ∧ listOf schema "anyOf" = [] ∧ listOf schema "oneOf" = [] ∧
      listOf schema "allOf" = [] := by
  unfold choose at h
  split at h
  · cases h
  · next htarget =>
    split at h
    · cases h
    · split at h
      · cases h
      · next hany =>
        split at h
        · cases h
        · next hone =>
          split at h
          · cases h
          · next hall =>
            exact ⟨htarget, List.head?_eq_none_iff.mp hany, List.head?_eq_none_iff.mp hone,
              List.head?_eq_none_iff.mp hall⟩

end Choosing

section Results
variable {root : Json ℚ}

/-- An object meets its schema if it may be an object, and every required key has a value that meets its own schema. -/
theorem meets_objectOf_iff {left : Nat} {schema : Json ℚ} (h : choose root schema = .object) :
    Meets values root schema (objectOf root left schema) ↔ typeOk values schema (.object []) = true ∧
      ∀ key ∈ requiredKeys schema,
        match (properties schema).lookup key with
        | some own => Meets values root own (valueOfChoices root left own)
        | none => eqIgnoreAsciiCase key "steps" = true := by
  obtain ⟨htarget, hany, hone, hall⟩ := of_choose_object h
  have hget (key : String) (hkey : key ∈ requiredKeys schema) :
      (objectOf root left schema).get key = valueOfKey root left schema key := by
    change (collectMembers _ _).lookup key = _
    rw [lookup_collectMembers, if_pos hkey]
  have htype : typeOk values schema (objectOf root left schema) = typeOk values schema (.object []) := rfl
  rw [meets_iff, htarget, hany, hone, hall, htype]
  simp only [reduceCtorEq, false_implies, implies_true, true_and, MeetsSome, ne_eq, not_true_eq_false,
    List.not_mem_nil, and_true]
  refine and_congr_right fun _ => ?_
  have hrequired : requiredOk values schema (objectOf root left schema) = true ↔
      ∀ key ∈ requiredKeys schema, ((objectOf root left schema).get key).isSome = true := by
    rw [requiredOk]
    change (!true || (requiredKeys schema).all fun key => ((objectOf root left schema).get key).isSome) = true ↔ _
    rw [Bool.not_true, Bool.false_or, List.all_eq_true]
  rw [hrequired]
  constructor
  · rintro ⟨hkeys, hparts⟩ key hkey
    have hsome := hkeys key hkey
    rw [hget key hkey, valueOfKey] at hsome
    cases hlookup : (properties schema).lookup key with
    | none =>
      rw [hlookup] at hsome
      by_contra hsteps
      simp [hsteps] at hsome
    | some own =>
      refine hparts (own, valueOfChoices root left own) (mem_parts_object_iff.mpr ⟨key, hlookup, ?_⟩)
      have hvalue := hget key hkey
      rw [valueOfKey, hlookup] at hvalue
      exact hvalue.trans (minimalJsonFromSchemaInner_eq root left own)
  · intro hkeys
    refine ⟨fun key hkey => ?_, fun part hpart => ?_⟩
    · have hsuits := hkeys key hkey
      rw [hget key hkey, valueOfKey]
      cases hlookup : (properties schema).lookup key with
      | none =>
        rw [hlookup] at hsuits
        rw [if_pos hsuits]
        rfl
      | some own =>
        dsimp only
        rw [minimalJsonFromSchemaInner_eq]
        rfl
    · obtain ⟨key, hlookup, hvalue⟩ := mem_parts_object_iff.mp hpart
      have hkey : key ∈ requiredKeys schema := by
        by_contra hmem
        have hnone : (collectMembers (requiredKeys schema) (valueOfKey root left schema)).lookup key = none := by
          rw [lookup_collectMembers, if_neg hmem]
        exact absurd (hnone.symm.trans hvalue) (by simp)
      have hsuits := hkeys key hkey
      have hown := hget key hkey
      rw [valueOfKey, hlookup] at hown
      rw [hlookup] at hsuits
      have hpartvalue := Option.some.inj (hvalue.symm.trans (hown.trans (minimalJsonFromSchemaInner_eq root left _)))
      rw [hpartvalue]
      exact hsuits

/-- What the choices from a schema come to meets the schema exactly if the choices suit it. -/
theorem meets_valueOfChoices_iff (left : Nat) (schema : Json ℚ) :
    Meets values root schema (valueOfChoices root left schema) ↔ Suits root left schema := by
  induction left generalizing schema with
  | zero => exact Iff.rfl
  | succ left ih =>
    have hbeside (own : Json ℚ) : Meets values root own (valueOfChoices root (left + 1) schema) ↔
        Meets (choices root) root own (.chosen (left + 1) schema) :=
      meets_map (choices_maps root) root own (.chosen (left + 1) schema)
    have haccepts (own : Json ℚ) : Accepts values root own (valueOfChoices root (left + 1) schema) ↔
        Accepts (choices root) root own (.chosen (left + 1) schema) :=
      accepts_map (choices_maps root) root own (.chosen (left + 1) schema)
    have hvalue : valueOfChoices root (left + 1) schema =
        match choose root schema with
        | .follow _ own => valueOfChoices root left own
        | .value value => value
        | .object => objectOf root left schema := by
      rw [valueOfChoices, minimalJsonFromSchemaInner_succ]
      cases choose root schema <;> rfl
    rw [Suits]
    cases hchoose : choose root schema with
    | value value =>
      rw [hvalue, hchoose]
    | object =>
      rw [hvalue, hchoose]
      dsimp only
      rw [meets_objectOf_iff hchoose]
      simp only [ih]
    | follow keyword own =>
      rw [hchoose] at hvalue
      dsimp only at hvalue ⊢
      have hown : Meets values root own (valueOfChoices root (left + 1) schema) ↔ Suits root left own := by
        rw [hvalue]
        exact ih own
      rcases of_choose_follow hchoose with ⟨rfl, htarget⟩ | ⟨hkeyword, hfirst⟩
      · rw [meets_reference_iff, hbeside, htarget, if_pos rfl]
        simp only [Option.some.injEq, forall_eq', hown]
      · have hmem := List.mem_of_head? hfirst
        have halternatives : MeetsSome values root (listOf schema keyword) (valueOfChoices root (left + 1) schema) ↔
            Suits root left own ∨
              ∃ other ∈ listOf schema keyword, Meets (choices root) root other (.chosen (left + 1) schema) := by
          constructor
          · intro hsome
            obtain ⟨other, hother, hmeets⟩ := hsome (List.ne_nil_of_mem hmem)
            exact .inr ⟨other, hother, (hbeside other).mp hmeets⟩
          · rintro (hsuits | ⟨other, hother, hmeets⟩) _
            · exact ⟨own, hmem, hown.mpr hsuits⟩
            · exact ⟨other, hother, (hbeside other).mpr hmeets⟩
        rcases hkeyword with rfl | rfl | rfl
        · rw [meets_anyOf_iff, hbeside, halternatives]
          rfl
        · rw [meets_oneOf_iff, hbeside, halternatives]
          rfl
        · rw [meets_allOf_iff, hbeside]
          simp only [haccepts]
          rfl

/-- The generated value is right exactly if the choices suit the schema. -/
theorem generates_iff (schema : Json ℚ) : Generates schema ↔ Suits schema 25 schema := by
  rw [Generates, minimalJsonFromSchema, minimalJsonFromSchemaInner_eq]
  simp only [Option.some.injEq, exists_eq_left']
  exact meets_valueOfChoices_iff 25 schema

/-- Objects with one required key, a text. -/
def keySchema (key : String) : Json ℚ :=
  .object [("type", .text "object"), ("required", .array [.text key]),
    ("properties", .object [(key, .object [("type", .text "string")])])]

/-- Objects with two required keys, each of which is required by one member of `allOf`. -/
def bothSchema : Json ℚ := .object [("allOf", .array [keySchema "a", keySchema "b"])]

/-- The first member alone is followed, so the key of the second one is missing. -/
theorem both_not_generated :
    Accepts values bothSchema bothSchema (.object [("a", .text ""), ("b", .text "")]) ∧ ¬ Generates bothSchema := by
  refine ⟨⟨4, by decide +kernel⟩, ?_⟩
  rintro ⟨value, hvalue, hmeets⟩
  have hgenerated : minimalJsonFromSchema bothSchema = some (.object [("a", .text "")]) := rfl
  obtain rfl := Option.some.inj (hgenerated.symm.trans hvalue)
  obtain ⟨-, -, -, -, -, -, hall⟩ := (meets_iff values bothSchema).mp hmeets
  have hsecond := (hall (keySchema "b") (List.mem_cons_of_mem _ (List.mem_singleton_self _))).meets
  have hrequired := ((meets_iff values bothSchema).mp hsecond).2.1
  exact absurd hrequired (by decide +kernel)

end Results

end Gail.Gateway.MinimalJson
