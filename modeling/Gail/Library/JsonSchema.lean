import Gail.Library.JsonRead
import Mathlib.Data.Rat.Defs

/-! The keywords of JSON Schema, and what they accept. A document is judged by what can be seen of it, so that two
documents of which the same can be seen meet the same schemas. A schema that is no object has no keywords. -/
namespace Gail.Library.Schema

/-- Exact numbers, among which are all that JSON can write. -/
scoped instance : JsonNumber ℚ where
  isFinite _ := true
  ofInteger value := value

section Keywords

def itemsOf : Json ℚ → List (Json ℚ)
  | .array items => items
  | _ => []

def membersOf : Json ℚ → List (String × Json ℚ)
  | .object members => members
  | _ => []

/-- The list of a keyword, such as the members of `anyOf`. -/
def listOf (schema : Json ℚ) (keyword : String) : List (Json ℚ) := ((schema.get keyword).map itemsOf).getD []

def requiredKeys (schema : Json ℚ) : List String := (listOf schema "required").filterMap Json.asStr

def properties (schema : Json ℚ) : List (String × Json ℚ) := ((schema.get "properties").map membersOf).getD []

/-- What a local reference stands for in the root. -/
def target (root schema : Json ℚ) : Option (Json ℚ) :=
  ((schema.get "$ref").bind Json.asStr).bind fun reference =>
    if reference.toList.take 2 = ['#', '/'] then root.pointer (String.ofList (reference.toList.drop 1)) else none

/-- The schema with one keyword less. -/
def without (schema : Json ℚ) (keyword : String) : Json ℚ :=
  .object ((membersOf schema).filter fun member => !(member.1 == keyword))

end Keywords

/-- What can be seen of documents of a kind. -/
structure View (D : Type) where
  ofType : D → String → Bool
  member : D → String → Option D
  /-- There are no members but these. -/
  within : D → List String → Bool
  items : D → List D
  /-- A document that has no parts is this value. -/
  scalar : D → Json ℚ → Bool

section Judging
variable {D : Type} (view : View D) (root : Json ℚ)

mutual

/-- The document is the value. -/
def same : Json ℚ → D → Bool
  | .array items, document => view.ofType document "array" && sameItems items (view.items document)
  | .object members, document =>
    view.ofType document "object" && view.within document (members.map Prod.fst) && sameMembers members document
  | value, document => view.scalar document value

def sameItems : List (Json ℚ) → List D → Bool
  | [], [] => true
  | value :: values, document :: documents => same value document && sameItems values documents
  | _, _ => false

def sameMembers : List (String × Json ℚ) → D → Bool
  | [], _ => true
  | (key, value) :: members, document =>
    (match view.member document key with
      | some part => same value part
      | none => false) && sameMembers members document

end

def typeOk (schema : Json ℚ) (document : D) : Bool :=
  match schema.get "type" with
  | some (.text name) => view.ofType document name
  | some (.array names) => (names.filterMap Json.asStr).any (view.ofType document)
  | _ => true

def requiredOk (schema : Json ℚ) (document : D) : Bool :=
  !view.ofType document "object" || (requiredKeys schema).all fun key => (view.member document key).isSome

/-- The value is that of `const` and one of `enum`. -/
def valueOk (schema : Json ℚ) (document : D) : Bool :=
  (match schema.get "const" with
    | some value => same view value document
    | none => true) &&
  match schema.get "enum" with
  | some (.array values) => values.any fun value => same view value document
  | _ => true

/-- The parts of a document with the schemas that are for them. -/
def parts (schema : Json ℚ) (document : D) : List (Json ℚ × D) :=
  ((properties schema).filterMap fun entry =>
    ((properties schema).lookup entry.1).bind fun own => (view.member document entry.1).map fun part => (own, part)) ++
  (schema.get "items").toList.flatMap fun own => (view.items document).map fun part => (own, part)

/-- All are true; a value that is not known leaves it open. -/
def allKnown (values : List (Option Bool)) : Option Bool :=
  if some false ∈ values then some false else if none ∈ values then none else some true

def anyKnown (values : List (Option Bool)) : Option Bool :=
  if some true ∈ values then some true else if none ∈ values then none else some false

/-- Exactly one is true. -/
def oneKnown (values : List (Option Bool)) : Option Bool :=
  if 2 ≤ values.count (some true) then some false
  else if none ∈ values then none
  else some (some true ∈ values)

/-- The verdict of all keywords, unless the fuel runs out, as it does where references only lead to each other. -/
def verdict : Nat → Json ℚ → D → Option Bool
  | 0, _, _ => none
  | fuel + 1, schema, document =>
    let alternatives (keyword : String) (judge : List (Option Bool) → Option Bool) : Option Bool :=
      if (listOf schema keyword).isEmpty then some true
      else judge ((listOf schema keyword).map fun own => verdict fuel own document)
    allKnown ([some (typeOk view schema document && requiredOk view schema document && valueOk view schema document)] ++
      (target root schema).toList.map (fun own => verdict fuel own document) ++
      (parts view schema document).map (fun part => verdict fuel part.1 part.2) ++
      (listOf schema "allOf").map (fun own => verdict fuel own document) ++
      [alternatives "anyOf" anyKnown, alternatives "oneOf" oneKnown])

/-- The document is valid. -/
def Accepts (schema : Json ℚ) (document : D) : Prop := ∃ fuel, verdict view root fuel schema document = some true

/-- At every level the document has the declared type and the required keys, and it is valid for all members of every
`allOf`. Below alternatives, it has that for one of them. -/
inductive Meets : Json ℚ → D → Prop
  | intro {schema : Json ℚ} {document : D} (any one : Json ℚ) (type : typeOk view schema document = true)
    (required : requiredOk view schema document = true)
    (reference : ∀ own, target root schema = some own → Meets own document)
    (parts : ∀ part ∈ parts view schema document, Meets part.1 part.2)
    (any_mem : listOf schema "anyOf" ≠ [] → any ∈ listOf schema "anyOf")
    (any_meets : listOf schema "anyOf" ≠ [] → Meets any document)
    (one_mem : listOf schema "oneOf" ≠ [] → one ∈ listOf schema "oneOf")
    (one_meets : listOf schema "oneOf" ≠ [] → Meets one document)
    (all : ∀ own ∈ listOf schema "allOf", Accepts view root own document) : Meets schema document

/-- Where there are alternatives, one of them is met. -/
def MeetsSome (schemas : List (Json ℚ)) (document : D) : Prop :=
  schemas ≠ [] → ∃ schema ∈ schemas, Meets view root schema document

theorem meets_iff {schema : Json ℚ} {document : D} : Meets view root schema document ↔
    typeOk view schema document = true ∧ requiredOk view schema document = true ∧
      (∀ own, target root schema = some own → Meets view root own document) ∧
      (∀ part ∈ parts view schema document, Meets view root part.1 part.2) ∧
      MeetsSome view root (listOf schema "anyOf") document ∧ MeetsSome view root (listOf schema "oneOf") document ∧
      ∀ own ∈ listOf schema "allOf", Accepts view root own document := by
  have hchoose (schemas : List (Json ℚ)) (h : MeetsSome view root schemas document) :
      ∃ own, (schemas ≠ [] → own ∈ schemas) ∧ (schemas ≠ [] → Meets view root own document) := by
    by_cases hempty : schemas = []
    · exact ⟨.null, fun hne => absurd hempty hne, fun hne => absurd hempty hne⟩
    · obtain ⟨own, hmem, hmeets⟩ := h hempty
      exact ⟨own, fun _ => hmem, fun _ => hmeets⟩
  constructor
  · rintro ⟨any, one, htype, hrequired, hreference, hparts, hany, hanymeets, hone, honemeets, hall⟩
    exact ⟨htype, hrequired, hreference, hparts, fun hne => ⟨any, hany hne, hanymeets hne⟩,
      fun hne => ⟨one, hone hne, honemeets hne⟩, hall⟩
  · rintro ⟨htype, hrequired, hreference, hparts, hany, hone, hall⟩
    obtain ⟨any, hany, hanymeets⟩ := hchoose _ hany
    obtain ⟨one, hone, honemeets⟩ := hchoose _ hone
    exact .intro any one htype hrequired hreference hparts hany hanymeets hone honemeets hall

theorem allKnown_eq_true_iff {values : List (Option Bool)} :
    allKnown values = some true ↔ ∀ value ∈ values, value = some true := by
  unfold allKnown
  constructor
  · intro h value hvalue
    have hfalse : some false ∉ values := by
      intro hmem
      rw [if_pos hmem] at h
      cases h
    have hnone : none ∉ values := by
      intro hmem
      rw [if_neg hfalse, if_pos hmem] at h
      cases h
    cases value with
    | none => exact absurd hvalue hnone
    | some known =>
      cases known with
      | false => exact absurd hvalue hfalse
      | true => rfl
  · intro h
    have hfalse : some false ∉ values := fun hmem => absurd (h _ hmem) (by decide)
    have hnone : none ∉ values := fun hmem => absurd (h _ hmem) (by decide)
    rw [if_neg hfalse, if_neg hnone]

/-- Where exactly one is true, or one at least, there is one that is. -/
theorem mem_of_anyKnown {values : List (Option Bool)} (h : anyKnown values = some true) : some true ∈ values := by
  unfold anyKnown at h
  split_ifs at h with htrue
  · exact htrue
  · cases h

theorem mem_of_oneKnown {values : List (Option Bool)} (h : oneKnown values = some true) : some true ∈ values := by
  unfold oneKnown at h
  split_ifs at h
  · cases h
  · exact of_decide_eq_true (Option.some.inj h)

variable {view root}

/-- What is valid meets the schema. -/
theorem Accepts.meets {schema : Json ℚ} {document : D} (h : Accepts view root schema document) :
    Meets view root schema document := by
  obtain ⟨fuel, h⟩ := h
  induction fuel generalizing schema document with
  | zero => cases h
  | succ fuel ih =>
    have hall := allKnown_eq_true_iff.mp h
    simp only [List.forall_mem_append, List.forall_mem_singleton, List.forall_mem_cons, List.forall_mem_map,
      Option.some.injEq, Bool.and_eq_true, Option.mem_toList] at hall
    obtain ⟨⟨⟨⟨⟨⟨htype, hrequired⟩, -⟩, hreference⟩, hparts⟩, hmembers⟩, hany, hone⟩ := hall
    have hsome {schemas : List (Json ℚ)} {judge : List (Option Bool) → Option Bool}
        (hjudge : ∀ values, judge values = some true → some true ∈ values)
        (htrue : (if schemas.isEmpty then some true
          else judge (schemas.map fun own => verdict view root fuel own document)) = some true) :
        MeetsSome view root schemas document := by
      intro hne
      rw [if_neg fun hempty => hne (List.isEmpty_iff.mp hempty)] at htrue
      obtain ⟨own, hown, hverdict⟩ := List.mem_map.mp (hjudge _ htrue)
      exact ⟨own, hown, ih hverdict⟩
    exact (meets_iff view root).mpr ⟨htype, hrequired, fun own hown => ih (hreference own hown),
      fun part hpart => ih (hparts part hpart), hsome (fun _ => mem_of_anyKnown) hany,
      hsome (fun _ => mem_of_oneKnown) hone, fun own hown => ⟨fuel, hmembers own hown⟩⟩

end Judging

section Seeing
variable {D E : Type}

/-- What can be seen of a document is what can be seen of its image. -/
structure View.Maps (first : View D) (second : View E) (image : D → E) : Prop where
  ofType : ∀ document name, second.ofType (image document) name = first.ofType document name
  member : ∀ document key, second.member (image document) key = (first.member document key).map image
  within : ∀ document keys, second.within (image document) keys = first.within document keys
  items : ∀ document, second.items (image document) = (first.items document).map image
  scalar : ∀ document value, second.scalar (image document) value = first.scalar document value

variable {first : View D} {second : View E} {image : D → E}

mutual

theorem same_map (maps : first.Maps second image) : ∀ (value : Json ℚ) (document : D),
    same second value (image document) = same first value document
  | .array values, document => by
    rw [same, same, maps.ofType, maps.items, sameItems_map maps values]
  | .object members, document => by
    rw [same, same, maps.ofType, maps.within, sameMembers_map maps members]
  | .null, document => maps.scalar document _
  | .bool _, document => maps.scalar document _
  | .integer _, document => maps.scalar document _
  | .number _ _, document => maps.scalar document _
  | .text _, document => maps.scalar document _

theorem sameItems_map (maps : first.Maps second image) : ∀ (values : List (Json ℚ)) (documents : List D),
    sameItems second values (documents.map image) = sameItems first values documents
  | [], [] => rfl
  | [], _ :: _ => rfl
  | _ :: _, [] => rfl
  | value :: values, document :: documents => by
    rw [List.map_cons, sameItems, sameItems, same_map maps value, sameItems_map maps values]

theorem sameMembers_map (maps : first.Maps second image) : ∀ (members : List (String × Json ℚ)) (document : D),
    sameMembers second members (image document) = sameMembers first members document
  | [], _ => rfl
  | (key, value) :: members, document => by
    rw [sameMembers, sameMembers, maps.member, sameMembers_map maps members]
    cases first.member document key with
    | none => rfl
    | some part =>
      rw [Option.map_some]
      dsimp only
      rw [same_map maps value]

end

variable (maps : first.Maps second image)
include maps

theorem typeOk_map (schema : Json ℚ) (document : D) :
    typeOk second schema (image document) = typeOk first schema document := by
  have htype : second.ofType (image document) = first.ofType document := funext (maps.ofType document)
  rw [typeOk, typeOk, htype]

theorem requiredOk_map (schema : Json ℚ) (document : D) :
    requiredOk second schema (image document) = requiredOk first schema document := by
  simp only [requiredOk, maps.ofType, maps.member, Option.isSome_map]

theorem valueOk_map (schema : Json ℚ) (document : D) :
    valueOk second schema (image document) = valueOk first schema document := by
  simp only [valueOk, same_map maps]

theorem parts_map (schema : Json ℚ) (document : D) :
    parts second schema (image document) = (parts first schema document).map (Prod.map id image) := by
  rw [parts, parts, List.map_append, List.map_filterMap, List.map_flatMap, maps.items]
  congr 1
  · congr 1
    funext entry
    rw [maps.member]
    cases (properties schema).lookup entry.1 with
    | none => rfl
    | some own => rw [Option.bind_some, Option.bind_some, Option.map_map, Option.map_map]; rfl
  · congr 1
    funext own
    rw [List.map_map, List.map_map]
    rfl

theorem verdict_map (root : Json ℚ) (fuel : Nat) (schema : Json ℚ) (document : D) :
    verdict second root fuel schema (image document) = verdict first root fuel schema document := by
  induction fuel generalizing schema document with
  | zero => rfl
  | succ fuel ih =>
    simp only [verdict, typeOk_map maps, requiredOk_map maps, valueOk_map maps, parts_map maps, ih, List.map_map,
      Function.comp_def, Prod.map_fst, Prod.map_snd, id_eq]

theorem accepts_map (root schema : Json ℚ) (document : D) :
    Accepts second root schema (image document) ↔ Accepts first root schema document := by
  simp only [Accepts, verdict_map maps]

theorem meets_map (root schema : Json ℚ) (document : D) :
    Meets second root schema (image document) ↔ Meets first root schema document := by
  constructor
  · intro h
    generalize hseen : image document = seen at h
    induction h generalizing document with
    | intro any one htype hrequired _ _ hany _ hone _ hall hreference hparts hanymeets honemeets =>
      subst hseen
      rw [typeOk_map maps] at htype
      rw [requiredOk_map maps] at hrequired
      refine .intro any one htype hrequired (fun own hown => hreference own hown document rfl) ?_ hany
        (fun hne => hanymeets hne document rfl) hone (fun hne => honemeets hne document rfl) ?_
      · intro part hpart
        refine hparts (Prod.map id image part) ?_ part.2 rfl
        rw [parts_map maps]
        exact List.mem_map_of_mem hpart
      · exact fun own hown => (accepts_map maps root own document).mp (hall own hown)
  · intro h
    induction h with
    | @intro schema document any one htype hrequired _ _ hany _ hone _ hall hreference hparts hanymeets honemeets =>
      refine .intro any one ?_ ?_ hreference ?_ hany hanymeets hone honemeets ?_
      · rw [typeOk_map maps, htype]
      · rw [requiredOk_map maps, hrequired]
      · rw [parts_map maps]
        intro part hpart
        obtain ⟨own, hown, rfl⟩ := List.mem_map.mp hpart
        exact hparts own hown
      · exact fun own hown => (accepts_map maps root own document).mpr (hall own hown)

end Seeing

section Values

def isOfType : Json ℚ → String → Bool
  | .null, name => name == "null"
  | .bool _, name => name == "boolean"
  | .integer _, name => name == "integer" || name == "number"
  | .number value _, name => name == "number" || (name == "integer" && value.den == 1)
  | .text _, name => name == "string"
  | .array _, name => name == "array"
  | .object _, name => name == "object"

/-- Equal values without parts; an integer equals a number of its value. -/
def sameScalar : Json ℚ → Json ℚ → Bool
  | .null, .null => true
  | .bool first, .bool second => first == second
  | .integer first, .integer second => first == second
  | .integer first, .number second _ => (first : ℚ) == second
  | .number first _, .integer second => first == (second : ℚ)
  | .number first _, .number second _ => first == second
  | .text first, .text second => first == second
  | _, _ => false

/-- Of a value of JSON, its parts are seen. -/
def values : View (Json ℚ) where
  ofType := isOfType
  member := Json.get
  within document keys := (membersOf document).all fun member => keys.contains member.1
  items := itemsOf
  scalar := sameScalar

/-- The parts of an object are its members that have a schema. -/
theorem mem_parts_object_iff {schema : Json ℚ} {members : List (String × Json ℚ)} {part : Json ℚ × Json ℚ} :
    part ∈ parts values schema (.object members) ↔
      ∃ key, (properties schema).lookup key = some part.1 ∧ (Json.object members).get key = some part.2 := by
  have hitems : (schema.get "items").toList.flatMap (fun own =>
      (values.items (.object members)).map fun part => (own, part)) = [] := by
    rw [List.flatMap_eq_nil_iff]
    exact fun own _ => rfl
  rw [parts, hitems, List.append_nil, List.mem_filterMap]
  constructor
  · rintro ⟨entry, -, hentry⟩
    obtain ⟨own, hown, hpart⟩ := Option.bind_eq_some_iff.mp hentry
    obtain ⟨value, hvalue, rfl⟩ := Option.map_eq_some_iff.mp hpart
    exact ⟨entry.1, hown, hvalue⟩
  · rintro ⟨key, hown, hvalue⟩
    obtain ⟨before, after, hsplit, -⟩ := List.lookup_eq_some_iff.mp hown
    refine ⟨(key, part.1), by rw [hsplit]; simp, ?_⟩
    change (((properties schema).lookup key).bind fun own => ((Json.object members).get key).map fun value =>
      (own, value)) = _
    rw [hown, hvalue]
    rfl

end Values

section Without
variable {D : Type} {view : View D} {root schema : Json ℚ} {document : D}

theorem get_without (schema : Json ℚ) (keyword key : String) :
    (without schema keyword).get key = if key = keyword then none else schema.get key := by
  have hlookup (members : List (String × Json ℚ)) :
      (members.filter fun member => !(member.1 == keyword)).lookup key =
        if key = keyword then none else members.lookup key := by
    induction members with
    | nil => simp
    | cons member members ih =>
      obtain ⟨name, value⟩ := member
      rw [List.filter_cons]
      by_cases hname : name = keyword
      · rw [if_neg (by simp [hname]), ih, List.lookup_cons]
        by_cases hkey : key = keyword
        · rw [if_pos hkey, if_pos hkey]
        · rw [if_neg hkey, if_neg hkey, beq_false_of_ne fun heq => hkey (heq.trans hname)]
      · rw [if_pos (by simp [hname]), List.lookup_cons, List.lookup_cons, ih]
        by_cases hsame : key = name
        · simp [hsame, hname]
        · rw [beq_false_of_ne hsame]
  cases schema with
  | object members => exact hlookup members
  | _ => simp [without, membersOf, Json.get]

/-- A reference is one keyword, and the others are met beside it. -/
theorem meets_reference_iff : Meets view root schema document ↔
    Meets view root (without schema "$ref") document ∧
      ∀ own, target root schema = some own → Meets view root own document := by
  rw [meets_iff, meets_iff]
  simp [typeOk, requiredOk, requiredKeys, parts, properties, listOf, target, get_without]
  tauto

theorem meets_anyOf_iff : Meets view root schema document ↔
    Meets view root (without schema "anyOf") document ∧ MeetsSome view root (listOf schema "anyOf") document := by
  rw [meets_iff, meets_iff]
  simp [typeOk, requiredOk, requiredKeys, parts, properties, listOf, target, get_without, MeetsSome]
  tauto

theorem meets_oneOf_iff : Meets view root schema document ↔
    Meets view root (without schema "oneOf") document ∧ MeetsSome view root (listOf schema "oneOf") document := by
  rw [meets_iff, meets_iff]
  simp [typeOk, requiredOk, requiredKeys, parts, properties, listOf, target, get_without, MeetsSome]
  tauto

theorem meets_allOf_iff : Meets view root schema document ↔
    Meets view root (without schema "allOf") document ∧
      ∀ own ∈ listOf schema "allOf", Accepts view root own document := by
  rw [meets_iff, meets_iff]
  simp [typeOk, requiredOk, requiredKeys, parts, properties, listOf, target, get_without]
  tauto

end Without

end Gail.Library.Schema
