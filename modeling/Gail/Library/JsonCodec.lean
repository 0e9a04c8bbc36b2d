import Mathlib.Data.String.Basic

/-! Values of JSON, and codecs put together along the shape of a type. JSON has finite numbers only, and a
number that is not finite is written as null; the laws say which values survive that. -/
namespace Gail.Library

/-- Numbers of which JSON can hold the finite ones. -/
class JsonNumber (F : Type) where
  isFinite : F → Bool
  ofInteger : Int → F

inductive Json (F : Type) [JsonNumber F] where
  | null
  | bool (value : Bool)
  | integer (value : Int)
  | number (value : F) (finite : JsonNumber.isFinite value = true)
  | text (value : String)
  | array (items : List (Json F))
  | object (members : List (String × Json F))

variable {F : Type} [JsonNumber F] {α β τ κ : Type}

mutual

/-- How deep arrays and objects are nested. -/
def Json.depth : Json F → Nat
  | .array items => depthOfItems items + 1
  | .object members => depthOfMembers members + 1
  | _ => 0

def depthOfItems : List (Json F) → Nat
  | [] => 0
  | json :: items => max json.depth (depthOfItems items)

def depthOfMembers : List (String × Json F) → Nat
  | [] => 0
  | (_, json) :: members => max json.depth (depthOfMembers members)

end

theorem depthOfItems_congr {f g : α → Json F} (h : ∀ a, (f a).depth = (g a).depth) (items : List α) :
    depthOfItems (items.map f) = depthOfItems (items.map g) := by
  induction items with
  | nil => rfl
  | cons a items ih => simp only [List.map_cons, depthOfItems, h, ih]

theorem depthOfMembers_congr {f g : α → String × Json F} (h : ∀ a, (f a).2.depth = (g a).2.depth)
    (items : List α) : depthOfMembers (items.map f) = depthOfMembers (items.map g) := by
  induction items with
  | nil => rfl
  | cons a items ih => simp only [List.map_cons, depthOfMembers, h, ih]

/-- All numbers of a list can be written. -/
def AllFinite (numbers : List F) : Prop := ∀ x ∈ numbers, JsonNumber.isFinite x = true

instance (numbers : List F) : Decidable (AllFinite numbers) :=
  inferInstanceAs (Decidable (∀ x ∈ numbers, JsonNumber.isFinite x = true))

@[simp] theorem allFinite_nil : AllFinite ([] : List F) := nofun

@[simp] theorem allFinite_cons {x : F} {xs : List F} :
    AllFinite (x :: xs) ↔ JsonNumber.isFinite x = true ∧ AllFinite xs :=
  List.forall_mem_cons

@[simp] theorem allFinite_append {xs ys : List F} : AllFinite (xs ++ ys) ↔ AllFinite xs ∧ AllFinite ys :=
  List.forall_mem_append

theorem allFinite_flatMap {f : α → List F} {items : List α} :
    AllFinite (items.flatMap f) ↔ ∀ item ∈ items, AllFinite (f item) := by
  simp only [AllFinite, List.mem_flatMap]
  constructor
  · intro h item hi x hx
    exact h x ⟨item, hi, hx⟩
  · rintro h x ⟨item, hi, hx⟩
    exact h item hi x hx

/-- How the values of a type are written and read. Some of its numbers may be optional. -/
structure Codec (F : Type) [JsonNumber F] (α : Type) where
  encode : α → Json F
  decode : Json F → Option α
  /-- The default of the type. -/
  initial : α
  /-- What is read where the member is missing, of a type without a default there. -/
  missing : Option α
  /-- The numbers without which nothing is read back. -/
  required : α → List F
  /-- The numbers that are read back as missing where they are not finite. -/
  optional : α → List F
  /-- What is read back. -/
  kept : α → α
  decode_encode (a : α) : decode (encode a) = if AllFinite (required a) then some (kept a) else none
  kept_eq_iff (a : α) : kept a = a ↔ AllFinite (optional a)
  kept_kept (a : α) : kept (kept a) = kept a
  required_kept (a : α) : required (kept a) = required a
  depth_kept (a : α) : (encode (kept a)).depth = (encode a).depth

namespace Codec

theorem optional_kept (c : Codec F α) (a : α) : AllFinite (c.optional (c.kept a)) :=
  (c.kept_eq_iff (c.kept a)).mp (c.kept_kept a)

/-- No value is written as null. -/
abbrev Solid (c : Codec F α) : Prop := ∀ a, c.encode a ≠ .null

/-- A type whose values have no numbers of the kind. -/
def lossless (encode : α → Json F) (decode : Json F → Option α) (initial : α)
    (h : ∀ a, decode (encode a) = some a) : Codec F α where
  encode
  decode
  initial
  missing := none
  required _ := []
  optional _ := []
  kept a := a
  decode_encode a := by simp [h]
  kept_eq_iff a := by simp
  kept_kept a := rfl
  required_kept a := rfl
  depth_kept a := rfl

def bool : Codec F Bool :=
  lossless .bool (fun | .bool value => some value | _ => none) false fun _ => rfl

def text : Codec F String :=
  lossless .text (fun | .text value => some value | _ => none) "" fun _ => rfl

/-- Any JSON. -/
def value : Codec F (Json F) := lossless id some .null fun _ => rfl

/-- An unsigned integer. -/
def natural : Codec F Nat :=
  lossless (fun n => .integer n) (fun | .integer value => value.toNat? | _ => none) 0 fun _ => rfl

/-- An enumeration without data, by the names of its values. -/
def choice (all : List α) (name : α → String) (initial : α)
    (h : ∀ a, all.find? (fun b => name b == name a) = some a) : Codec F α :=
  lossless (fun a => .text (name a))
    (fun | .text written => all.find? fun b => name b == written | _ => none) initial h

def ofNumber (x : F) : Json F :=
  if h : JsonNumber.isFinite x = true then .number x h else .null

def toNumber : Json F → Option F
  | .number value _ => some value
  | .integer value => some (JsonNumber.ofInteger value)
  | _ => none

theorem depth_ofNumber (x : F) : (ofNumber x).depth = 0 := by
  unfold ofNumber
  split <;> rfl

theorem toNumber_ofNumber (x : F) :
    toNumber (ofNumber x) = if JsonNumber.isFinite x = true then some x else none := by
  unfold ofNumber
  split <;> rfl

def number (initial : F) : Codec F F where
  encode := ofNumber
  decode := toNumber
  initial
  missing := none
  required x := [x]
  optional _ := []
  kept x := x
  decode_encode x := by simp [toNumber_ofNumber]
  kept_eq_iff x := by simp
  kept_kept x := rfl
  required_kept x := rfl
  depth_kept x := rfl

/-- An optional number, which is written in the same way when it is missing as when it is not finite. -/
def optionalNumber : Codec F (Option F) where
  encode x := x.elim .null ofNumber
  decode
    | .null => some none
    | json => (toNumber json).map some
  initial := none
  missing := some none
  required _ := []
  optional x := x.toList
  kept x := x.filter fun x => JsonNumber.isFinite x
  decode_encode x := by
    cases x with
    | none => rfl
    | some x => by_cases h : JsonNumber.isFinite x = true <;> simp [ofNumber, toNumber, Option.filter, h]
  kept_eq_iff x := by cases x <;> simp
  kept_kept x := by cases x <;> simp
  required_kept x := rfl
  depth_kept x := by
    have hzero : ∀ y : Option F, (y.elim .null ofNumber).depth = 0 := by
      intro y
      cases y with
      | none => rfl
      | some y => exact depth_ofNumber y
    rw [hzero, hzero]

def option (c : Codec F α) (h : c.Solid) : Codec F (Option α) where
  encode a := a.elim .null c.encode
  decode
    | .null => some none
    | json => (c.decode json).map some
  initial := none
  missing := some none
  required a := a.elim [] c.required
  optional a := a.elim [] c.optional
  kept a := a.map c.kept
  decode_encode a := by
    cases a with
    | none => rfl
    | some a =>
      have hd := c.decode_encode a
      simp only [Option.elim_some]
      split
      · exact absurd ‹_› (h a)
      · rw [hd]
        by_cases hr : AllFinite (c.required a) <;> simp [hr]
  kept_eq_iff a := by cases a <;> simp [c.kept_eq_iff]
  kept_kept a := by cases a <;> simp [c.kept_kept]
  required_kept a := by cases a <;> simp [c.required_kept]
  depth_kept a := by cases a <;> simp [c.depth_kept]

theorem mapM_read_write {write : α → β} {read : β → Option α} {required : α → List F} {kept : α → α}
    (h : ∀ a, read (write a) = if AllFinite (required a) then some (kept a) else none) (items : List α) :
    (items.map write).mapM read =
      if AllFinite (items.flatMap required) then some (items.map kept) else none := by
  induction items with
  | nil => rfl
  | cons a items ih =>
    simp only [List.map_cons, List.mapM_cons, ih, h, List.flatMap_cons, allFinite_append]
    by_cases ha : AllFinite (required a)
    · by_cases hi : AllFinite (items.flatMap required)
      · simp [ha, hi]
      · simp [ha, hi]
    · simp [ha]

theorem map_kept_eq_iff {kept : α → α} {optional : α → List F}
    (h : ∀ a, kept a = a ↔ AllFinite (optional a)) (items : List α) :
    items.map kept = items ↔ AllFinite (items.flatMap optional) := by
  induction items with
  | nil => simp
  | cons a items ih =>
    rw [List.map_cons, List.cons.injEq, h, ih, List.flatMap_cons, allFinite_append]

def list (c : Codec F α) : Codec F (List α) where
  encode items := .array (items.map c.encode)
  decode
    | .array items => items.mapM c.decode
    | _ => none
  initial := []
  missing := none
  required items := items.flatMap c.required
  optional items := items.flatMap c.optional
  kept items := items.map c.kept
  decode_encode := mapM_read_write c.decode_encode
  kept_eq_iff := map_kept_eq_iff c.kept_eq_iff
  kept_kept items := by simp [c.kept_kept]
  required_kept items := by simp [List.flatMap_map, c.required_kept]
  depth_kept items := by
    simp only [Json.depth, List.map_map]
    exact congrArg (· + 1) (depthOfItems_congr c.depth_kept items)

theorem solid_list {c : Codec F α} : (list c).Solid := nofun

/-- A map, as its entries in any order, with the texts of its keys. -/
def table (print : κ → String) (parse : String → Option κ) (h : ∀ key, parse (print key) = some key)
    (c : Codec F α) : Codec F (List (κ × α)) where
  encode entries := .object (entries.map fun entry => (print entry.1, c.encode entry.2))
  decode
    | .object members => members.mapM fun member => do
      let key ← parse member.1
      let a ← c.decode member.2
      return (key, a)
    | _ => none
  initial := []
  missing := none
  required entries := entries.flatMap fun entry => c.required entry.2
  optional entries := entries.flatMap fun entry => c.optional entry.2
  kept entries := entries.map fun entry => (entry.1, c.kept entry.2)
  decode_encode := mapM_read_write fun entry => by
    simp only [h, c.decode_encode]
    by_cases ha : AllFinite (c.required entry.2) <;> simp [ha]
  kept_eq_iff := map_kept_eq_iff fun entry => by simp [Prod.ext_iff, c.kept_eq_iff]
  kept_kept entries := by simp [c.kept_kept]
  required_kept entries := by simp [List.flatMap_map, c.required_kept]
  depth_kept entries := by
    simp only [Json.depth, List.map_map]
    exact congrArg (· + 1) (depthOfMembers_congr (fun entry => c.depth_kept entry.2) entries)

/-- A map from texts. -/
def textTable (c : Codec F α) : Codec F (List (String × α)) := table id some (fun _ => rfl) c

/-- A text of digits. -/
def parseNatural (written : String) : Option Nat :=
  if written.toList ≠ [] ∧ written.toList.all Char.isDigit then some (Nat.ofDigitChars 10 written.toList 0)
  else none

theorem parseNatural_repr (n : Nat) : parseNatural n.repr = some n := by
  have hne : Nat.toDigits 10 n ≠ [] := Nat.toDigits_ne_nil
  have hdigits : (Nat.toDigits 10 n).all Char.isDigit = true :=
    List.all_eq_true.mpr fun c hc => Nat.isDigit_of_mem_toDigits (by decide) (by decide) hc
  rw [parseNatural, Nat.toList_repr, if_pos ⟨hne, hdigits⟩, Nat.ofDigitChars_ten_toDigits]

/-- A map from unsigned integers, which are texts in JSON. -/
def naturalTable (c : Codec F α) : Codec F (List (Nat × α)) := table Nat.repr parseNatural parseNatural_repr c

end Codec

/-- Some members of the values of a type, by name, with the tuple that they form. -/
structure Members (F : Type) [JsonNumber F] (names : List String) (α τ : Type) where
  project : α → τ
  encode : α → List (String × Json F)
  /-- Reads the members; where one is missing, that of a default is taken. -/
  decode : Option α → (String → Option (Json F)) → Option τ
  initial : τ
  required : α → List F
  optional : α → List F
  kept : α → τ
  encode_names (a : α) : (encode a).map Prod.fst = names
  decode_encode (default : Option α) (look : String → Option (Json F)) (a : α)
    (h : ∀ member ∈ encode a, look member.1 = some member.2) :
    decode default look = if AllFinite (required a) then some (kept a) else none
  kept_eq_iff (a : α) : kept a = project a ↔ AllFinite (optional a)
  kept_kept (a b : α) (h : project b = kept a) : kept b = kept a
  required_kept (a b : α) (h : project b = kept a) : required b = required a
  depth_kept (a b : α) (h : project b = kept a) : depthOfMembers (encode b) = depthOfMembers (encode a)

namespace Members

variable {names : List String}

def done : Members F [] α Unit where
  project _ := ()
  encode _ := []
  decode _ _ := some ()
  initial := ()
  required _ := []
  optional _ := []
  kept _ := ()
  encode_names _ := rfl
  decode_encode _ _ _ _ := by simp
  kept_eq_iff _ := by simp
  kept_kept _ _ _ := rfl
  required_kept _ _ _ := rfl
  depth_kept _ _ _ := rfl

/-- One more member, and what is read where it is missing and there is no default. -/
def cons (name : String) (get : α → β) (c : Codec F β) (missing : Option β)
    (rest : Members F names α τ) : Members F (name :: names) α (β × τ) where
  project a := (get a, rest.project a)
  encode a := (name, c.encode (get a)) :: rest.encode a
  decode default look := do
    let b ← match look name with
      | some json => c.decode json
      | none => (default.map get).or missing
    let others ← rest.decode default look
    return (b, others)
  initial := (c.initial, rest.initial)
  required a := c.required (get a) ++ rest.required a
  optional a := c.optional (get a) ++ rest.optional a
  kept a := (c.kept (get a), rest.kept a)
  encode_names a := by simp [rest.encode_names]
  decode_encode default look a h := by
    have hname : look name = some (c.encode (get a)) := h (name, c.encode (get a)) List.mem_cons_self
    have hrest := rest.decode_encode default look a fun member hm => h member (List.mem_cons_of_mem _ hm)
    simp only [hname, hrest, c.decode_encode, allFinite_append]
    by_cases hb : AllFinite (c.required (get a))
    · by_cases ho : AllFinite (rest.required a)
      · simp [hb, ho]
      · simp [hb, ho]
    · simp [hb]
  kept_eq_iff a := by simp [c.kept_eq_iff, rest.kept_eq_iff]
  kept_kept a b h := by
    obtain ⟨hb, hrest⟩ := Prod.mk.inj h
    rw [hb, c.kept_kept, rest.kept_kept a b hrest]
  required_kept a b h := by
    obtain ⟨hb, hrest⟩ := Prod.mk.inj h
    rw [hb, c.required_kept, rest.required_kept a b hrest]
  depth_kept a b h := by
    obtain ⟨hb, hrest⟩ := Prod.mk.inj h
    simp only [depthOfMembers, hb, c.depth_kept, rest.depth_kept a b hrest]

/-- A member that has to be there, if its type has no default for that. -/
def member (name : String) (get : α → β) (c : Codec F β) (rest : Members F names α τ) :
    Members F (name :: names) α (β × τ) :=
  cons name get c c.missing rest

/-- A member with the default of its type. -/
def defaulted (name : String) (get : α → β) (c : Codec F β) (rest : Members F names α τ) :
    Members F (name :: names) α (β × τ) :=
  cons name get c (some c.initial) rest

end Members

theorem lookup_of_nodup_keys [DecidableEq κ] {entries : List (κ × α)} {entry : κ × α}
    (h : (entries.map Prod.fst).Nodup) (hm : entry ∈ entries) : entries.lookup entry.1 = some entry.2 := by
  induction entries with
  | nil => cases hm
  | cons first entries ih =>
    obtain ⟨hfirst, hrest⟩ := List.nodup_cons.mp h
    rcases List.mem_cons.mp hm with rfl | hm
    · exact List.lookup_cons_self
    · have hne : entry.1 ≠ first.1 := by
        intro he
        exact hfirst (he ▸ List.mem_map_of_mem hm)
      rw [List.lookup_cons, beq_eq_false_iff_ne.mpr hne, ih hrest hm]

/-- Where the members come from that are missing in an object. -/
inductive Absent (α : Type) where
  /-- From the member alone. -/
  | fromMember
  /-- From the default of each type. -/
  | fromTypes
  | fromValue (a : α)

namespace Codec

/-- The object of all members of a type. Members that the type does not know are passed over. -/
def record {names : List String} (absent : Absent α) (members : Members F names α τ) (build : τ → α)
    (hbuild : ∀ a, build (members.project a) = a) (hproject : ∀ t, members.project (build t) = t)
    (hnames : names.Nodup) : Codec F α where
  encode a := .object (members.encode a)
  decode
    | .object written =>
      (members.decode
        (match absent with
          | .fromMember => none
          | .fromTypes => some (build members.initial)
          | .fromValue a => some a)
        fun name => written.lookup name).map build
    | _ => none
  initial :=
    match absent with
    | .fromMember | .fromTypes => build members.initial
    | .fromValue a => a
  missing := none
  required := members.required
  optional := members.optional
  kept a := build (members.kept a)
  decode_encode a := by
    have hlook : ∀ member ∈ members.encode a, (members.encode a).lookup member.1 = some member.2 :=
      fun member hm => lookup_of_nodup_keys (by rw [members.encode_names]; exact hnames) hm
    simp only [members.decode_encode _ (fun name => (members.encode a).lookup name) a hlook]
    by_cases h : AllFinite (members.required a) <;> simp [h]
  kept_eq_iff a := by
    rw [← members.kept_eq_iff]
    constructor
    · intro h
      rw [← hproject (members.kept a), h]
    · intro h
      rw [h, hbuild]
  kept_kept a := by rw [members.kept_kept a _ (hproject _)]
  required_kept a := members.required_kept a _ (hproject _)
  depth_kept a := by simp only [Json.depth, members.depth_kept a _ (hproject _)]

theorem solid_record {names : List String} {absent : Absent α} {members : Members F names α τ}
    {build : τ → α} {hbuild : ∀ a, build (members.project a) = a}
    {hproject : ∀ t, members.project (build t) = t} {hnames : names.Nodup} :
    (record absent members build hbuild hproject hnames).Solid := nofun

end Codec

end Gail.Library
