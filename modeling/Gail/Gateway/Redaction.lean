import Gail.Library.JsonCodec
import Gail.Library.Text

/-! What an operator is shown of an internal configuration: properties named like a credential are taken out of it at
every depth. -/
namespace Gail.Gateway
open Gail.Library
variable {F : Type} [JsonNumber F]

def sensitiveKeyParts : List String :=
  ["access_token", "api_key", "authorization", "bearer", "credential", "password", "private_key", "secret", "token"]

/-- Whether the last words of the key are those of a credential. -/
def isSensitiveKey (key : String) : Bool :=
  let normalized := (toAsciiLowercase (trim key)).toList.map fun c => if c = '-' then '_' else c
  sensitiveKeyParts.any fun part => normalized == part.toList || ('_' :: part.toList).isSuffixOf normalized

mutual

/-- `redact_sensitive_json`. -/
def redactSensitiveJson : Json F → Json F
  | .object members => .object (redactMembers members)
  | .array items => .array (redactItems items)
  | json => json

def redactMembers : List (String × Json F) → List (String × Json F)
  | [] => []
  | (key, json) :: members =>
    if isSensitiveKey key then redactMembers members else (key, redactSensitiveJson json) :: redactMembers members

def redactItems : List (Json F) → List (Json F)
  | [] => []
  | json :: items => redactSensitiveJson json :: redactItems items

end

/-- One step from a value to a part of it. -/
inductive Place
  | member (key : String)
  | item (index : Nat)

def Place.isSensitive : Place → Bool
  | .member key => isSensitiveKey key
  | .item _ => false

/-- The part of the value at a place. -/
def partAt : Json F → Place → Option (Json F)
  | .object members, .member key => members.lookup key
  | .array items, .item index => items[index]?
  | _, _ => none

theorem lookup_redactMembers (key : String) (members : List (String × Json F)) :
    (redactMembers members).lookup key =
      if isSensitiveKey key then none else (members.lookup key).map redactSensitiveJson := by
  induction members with
  | nil => simp [redactMembers]
  | cons member members ih =>
    obtain ⟨own, json⟩ := member
    rw [redactMembers, List.lookup_cons]
    by_cases hkey : key = own
    · subst hkey
      rw [beq_self_eq_true]
      by_cases hs : isSensitiveKey key = true
      · rw [if_pos hs, ih, if_pos hs, if_pos hs]
      · rw [if_neg hs, if_neg hs, List.lookup_cons, beq_self_eq_true]
        rfl
    · rw [beq_eq_false_iff_ne.mpr hkey]
      by_cases hs : isSensitiveKey own = true
      · rw [if_pos hs, ih]
      · rw [if_neg hs, List.lookup_cons, beq_eq_false_iff_ne.mpr hkey]
        exact ih

theorem redactItems_eq_map (items : List (Json F)) : redactItems items = items.map redactSensitiveJson := by
  induction items with
  | nil => rfl
  | cons json items ih => rw [redactItems, ih, List.map_cons]

theorem partAt_redact (json : Json F) (place : Place) :
    partAt (redactSensitiveJson json) place =
      if place.isSensitive then none else (partAt json place).map redactSensitiveJson := by
  cases json with
  | object members =>
    rw [redactSensitiveJson]
    cases place with
    | member key => exact lookup_redactMembers key members
    | item index => rfl
  | array items =>
    rw [redactSensitiveJson, redactItems_eq_map]
    cases place with
    | member key => simp [partAt]
    | item index => exact List.getElem?_map
  | _ => simp [redactSensitiveJson, partAt]

/-- A value is seen at a path exactly when no property on the way to it is named like a credential, and what is seen
there is its own redaction; the positions in arrays stay. -/
theorem redactSensitiveJson_path (path : List Place) (json : Json F) :
    path.foldlM partAt (redactSensitiveJson json) =
      if path.any Place.isSensitive then none else (path.foldlM partAt json).map redactSensitiveJson := by
  induction path generalizing json with
  | nil => rfl
  | cons place path ih =>
    rw [List.foldlM_cons, List.foldlM_cons, partAt_redact, List.any_cons]
    cases hs : place.isSensitive with
    | true => rfl
    | false =>
      rw [if_neg Bool.false_ne_true, Bool.false_or]
      cases hpart : partAt json place with
      | none => simp
      | some part => exact ih part

/-- The password of the configuration is taken out, and what only speaks of tokens is not. -/
example : ["refiner_api_token", "octobot-password", "token_discovery_enabled"].map isSensitiveKey =
    [true, true, false] := by
  decide +kernel

end Gail.Gateway
