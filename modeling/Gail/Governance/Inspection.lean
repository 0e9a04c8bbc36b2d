import Gail.Governance.Completion
import Gail.Library.JsonRead
import Gail.Library.TextLines
import Gail.Library.TextSearch

/-! What of a body governance can read: the text of all of its JSON, and of a stream the deltas put together too. -/
namespace Gail.Governance
open Gail.Library

/-- The parser of JSON, of bytes and of texts, and how it writes a number that is no integer. -/
structure Serde (F : Type) [JsonNumber F] where
  fromSlice : Bytes → Option (Json F)
  fromStr : String → Option (Json F)
  writeNumber : F → String

section Reading
variable {F : Type} [JsonNumber F]

mutual

/-- Whether nothing of the value is opaque. -/
def sanitise : Json F → Bool
  | .object members =>
    let opaque_ := members.any fun (key, _) => key ∈ ["image_url", "input_audio", "file_data"]
    sanitiseMembers members && !opaque_
  | .array items => sanitiseItems items
  | _ => true

def sanitiseItems : List (Json F) → Bool
  | [] => true
  | item :: items => sanitiseItems items && sanitise item

def sanitiseMembers : List (String × Json F) → Bool
  | [] => true
  | (_, item) :: members => sanitiseMembers members && sanitise item

end

variable (serde : Serde F)

mutual

def appendText : Json F → String → String
  | .text text, output => output ++ text ++ "\n"
  | .array items, output => appendItems items output
  | .object members, output => appendMembers members output
  | .integer value, output => output ++ value.repr ++ "\n"
  | .number value _, output => output ++ serde.writeNumber value ++ "\n"
  | .bool value, output => output ++ toString value ++ "\n"
  | .null, output => output

def appendItems : List (Json F) → String → String
  | [], output => output
  | item :: items, output => appendItems items (appendText item output)

def appendMembers : List (String × Json F) → String → String
  | [], output => output
  | (key, item) :: members, output => appendMembers members (appendText item (output ++ key ++ "\n"))

end

def semanticText (value : Json F) : String := appendText serde value ""

def credentialFields : List String :=
  ["api_key", "access_token", "preferred_api_key", "preferred_access_token", "fallback_api_key",
    "fallback_access_token", "authorization"]

/-- The members of an object without those that hold credentials. -/
def retainMembers : Json F → Json F
  | .object members => .object (members.filter fun (key, _) => !credentialFields.contains (toAsciiLowercase key))
  | value => value

/-- The lines of a stream that hold its events. -/
def dataLines (text : String) : List String :=
  ((lines text.toList).filterMap (stripPrefix "data:".toList)).map fun line => trim (String.ofList line)

structure StreamEvents (F : Type) [JsonNumber F] where
  events : List (Json F)
  deltas : String
  complete : Bool

/-- The delta of the first choice, or a delta of the event itself. -/
def eventDelta (value : Json F) : Option String :=
  ((value.pointer "/choices/0/delta/content").bind Json.asStr).or ((value.get "delta").bind Json.asStr)

def readEvent (stream : StreamEvents F) (line : String) : StreamEvents F :=
  if line = "[DONE]" then stream
  else
    match serde.fromStr line with
    | some value =>
      { events := stream.events ++ [value]
        deltas := stream.deltas ++ (eventDelta value).getD ""
        complete := sanitise value && stream.complete }
    | none => { stream with complete := false }

def readStream (text : String) : StreamEvents F :=
  (dataLines text).foldl (readEvent serde) { events := [], deltas := "", complete := true }

/-- `str::from_utf8`. -/
def fromUtf8 (bytes : Bytes) : Option String := String.fromUTF8? (ByteArray.mk bytes.toArray)

def isJson (contentType : String) : Bool := "application/json".toList.isPrefixOf contentType.toList

def isEventStream (contentType : String) : Bool := "text/event-stream".toList.isPrefixOf contentType.toList

/-- The text of a body, and whether all of the body is in it. -/
def inspectableContent (bytes : Bytes) (contentType : String) (redactTransport : Bool) : String × Bool :=
  if isJson contentType then
    match serde.fromSlice bytes with
    | some value =>
      let value := if redactTransport then retainMembers value else value
      (semanticText serde value, sanitise value)
    | none => ("", false)
  else if isEventStream contentType then
    match fromUtf8 bytes with
    | none => ("", false)
    | some text =>
      let stream := readStream serde text
      (semanticText serde (.object [("events", .array stream.events), ("text", .text stream.deltas)]), stream.complete)
  else ("", false)

end Reading

section Completeness
variable {F : Type} [JsonNumber F] (serde : Serde F)

/-- A text that the value has somewhere: a string, a number, a boolean or the key of an object. -/
inductive Holds : Json F → String → Prop
  | text (text : String) : Holds (.text text) text
  | integer (value : Int) : Holds (.integer value) value.repr
  | number (value : F) (finite : JsonNumber.isFinite value = true) :
      Holds (.number value finite) (serde.writeNumber value)
  | bool (value : Bool) : Holds (.bool value) (toString value)
  | item {items : List (Json F)} {item : Json F} {token : String} (hitem : item ∈ items) (h : Holds item token) :
      Holds (.array items) token
  | key {members : List (String × Json F)} {key : String} {item : Json F} (hmember : (key, item) ∈ members) :
      Holds (.object members) key
  | member {members : List (String × Json F)} {key : String} {item : Json F} {token : String}
      (hmember : (key, item) ∈ members) (h : Holds item token) : Holds (.object members) token

/-- A text that the value of a body has besides the credentials of a request. -/
def HoldsBeside (redactTransport : Bool) (value : Json F) (token : String) : Prop :=
  match redactTransport, value with
  | true, .object members =>
    ∃ key item, (key, item) ∈ members ∧ toAsciiLowercase key ∉ credentialFields ∧
      (token = key ∨ Holds serde item token)
  | _, value => Holds serde value token

/-- What is inspected of a body. -/
structure InspectsAll (bytes : Bytes) (contentType : String) (redactTransport : Bool) (content : String)
    (complete : Bool) : Prop where
  /-- A body is complete only if all of it is read as JSON. -/
  parsed : complete = true → (isJson contentType = true ∧ ∃ value, serde.fromSlice bytes = some value) ∨
    (isEventStream contentType = true ∧ ∃ text, fromUtf8 bytes = some text ∧
      ∀ line ∈ dataLines text, line = "[DONE]" ∨ ∃ value, serde.fromStr line = some value)
  json : isJson contentType = true → complete = true → ∀ value, serde.fromSlice bytes = some value →
    ∀ token, HoldsBeside serde redactTransport value token → containsText content token = true
  events : isEventStream contentType = true → complete = true →
    ∀ text, fromUtf8 bytes = some text → ∀ line ∈ dataLines text, line ≠ "[DONE]" →
      ∀ value, serde.fromStr line = some value → ∀ token, Holds serde value token → containsText content token = true
  /-- However a text is cut into the deltas of the first choice, it is inspected in one piece. -/
  deltas : isEventStream contentType = true →
    ∀ text, fromUtf8 bytes = some text → ∀ pieces : List String,
      List.Forall₂ (fun line piece => ∃ value, serde.fromStr line = some value ∧
        value.pointer "/choices/0/delta/content" = some (.text piece))
        ((dataLines text).filter (· ≠ "[DONE]")) pieces →
      containsText content (String.join pieces) = true

/-- What the lines of a stream leave behind. -/
structure Streamed (before : StreamEvents F) (lines : List String) (after : StreamEvents F) : Prop where
  kept : ∀ value ∈ before.events, value ∈ after.events
  events : ∀ line ∈ lines, line ≠ "[DONE]" → ∀ value, serde.fromStr line = some value → value ∈ after.events
  complete : after.complete = true → before.complete = true ∧
    ∀ line ∈ lines, line = "[DONE]" ∨ ∃ value, serde.fromStr line = some value
  deltas : ∀ pieces : List String, List.Forall₂ (fun line piece => ∃ value, serde.fromStr line = some value ∧
    value.pointer "/choices/0/delta/content" = some (.text piece)) (lines.filter (· ≠ "[DONE]")) pieces →
      after.deltas = before.deltas ++ String.join pieces

mutual

/-- What has been put out stays. -/
theorem prefix_appendText (value : Json F) (output : String) :
    output.toList <+: (appendText serde value output).toList := by
  cases value with
  | null => exact List.prefix_rfl
  | bool value | integer value | number value _ | text value =>
    rw [appendText, String.toList_append, String.toList_append, List.append_assoc]
    exact List.prefix_append _ _
  | array items => exact prefix_appendItems items output
  | object members => exact prefix_appendMembers members output

theorem prefix_appendItems (items : List (Json F)) (output : String) :
    output.toList <+: (appendItems serde items output).toList := by
  cases items with
  | nil => exact List.prefix_rfl
  | cons item items => exact (prefix_appendText item output).trans (prefix_appendItems items _)

theorem prefix_appendMembers (members : List (String × Json F)) (output : String) :
    output.toList <+: (appendMembers serde members output).toList := by
  cases members with
  | nil => exact List.prefix_rfl
  | cons member members =>
    obtain ⟨key, item⟩ := member
    have hkey : output.toList <+: (output ++ key ++ "\n").toList := by
      rw [String.toList_append, String.toList_append, List.append_assoc]
      exact List.prefix_append _ _
    exact (hkey.trans (prefix_appendText item _)).trans (prefix_appendMembers members _)

end

variable {serde}

theorem infix_between (output token : String) : token.toList <:+: (output ++ token ++ "\n").toList := by
  rw [String.toList_append, String.toList_append]
  exact List.infix_append _ _ _

theorem infix_appendItems {items : List (Json F)} {item : Json F} {token : List Char} (hitem : item ∈ items)
    (h : ∀ output, token <:+: (appendText serde item output).toList) (output : String) :
    token <:+: (appendItems serde items output).toList := by
  induction items generalizing output with
  | nil => cases hitem
  | cons first items ih =>
    rcases List.mem_cons.mp hitem with rfl | hitem
    · exact (h output).trans (prefix_appendItems serde items _).isInfix
    · exact ih hitem _

theorem infix_appendMembers {members : List (String × Json F)} {member : String × Json F} {token : List Char}
    (hmember : member ∈ members)
    (h : ∀ output, token <:+: (appendText serde member.2 (output ++ member.1 ++ "\n")).toList) (output : String) :
    token <:+: (appendMembers serde members output).toList := by
  induction members generalizing output with
  | nil => cases hmember
  | cons first members ih =>
    rcases List.mem_cons.mp hmember with rfl | hmember
    · exact (h output).trans (prefix_appendMembers serde members _).isInfix
    · exact ih hmember _

/-- All that a value has is in its text. -/
theorem infix_of_holds {value : Json F} {token : String} (h : Holds serde value token) (output : String) :
    token.toList <:+: (appendText serde value output).toList := by
  induction h generalizing output with
  | text text => exact infix_between output text
  | integer value => exact infix_between output _
  | number value finite => exact infix_between output _
  | bool value => exact infix_between output _
  | item hitem _ ih => exact infix_appendItems hitem ih output
  | @key members key item hmember =>
    exact infix_appendMembers hmember
      (fun output => (infix_between output key).trans (prefix_appendText serde item _).isInfix) output
  | member hmember _ ih => exact infix_appendMembers hmember (fun output => ih _) output

theorem contains_of_holds {value : Json F} {token : String} (h : Holds serde value token) :
    containsText (semanticText serde value) token = true := decide_eq_true (infix_of_holds h "")

/-- The fields that a body loses are those of credentials. -/
theorem holds_of_holdsBeside {redactTransport : Bool} {value : Json F} {token : String}
    (h : HoldsBeside serde redactTransport value token) :
    Holds serde (if redactTransport then retainMembers value else value) token := by
  cases redactTransport with
  | false => exact h
  | true =>
    cases value with
    | object members =>
      obtain ⟨key, item, hmember, hfield, htoken⟩ := h
      have hkept : (key, item) ∈ members.filter fun (key, _) => !credentialFields.contains (toAsciiLowercase key) := by
        have hnot : credentialFields.contains (toAsciiLowercase key) = false := by
          rw [← Bool.not_eq_true, List.contains_iff_mem]
          exact hfield
        exact List.mem_filter.mpr ⟨hmember, congrArg not hnot⟩
      rcases htoken with rfl | htoken
      · exact .key hkept
      · exact .member hkept htoken
    | _ => exact h

theorem eventDelta_of_first {value : Json F} {piece : String}
    (h : value.pointer "/choices/0/delta/content" = some (.text piece)) : eventDelta value = some piece := by
  rw [eventDelta, h]
  rfl

/-- The first line of a stream and what the others leave behind. -/
theorem streamed_cons {line : String} {lines : List String} {before after : StreamEvents F}
    (h : Streamed serde (readEvent serde before line) lines after) : Streamed serde before (line :: lines) after := by
  unfold readEvent at h
  by_cases hdone : line = "[DONE]"
  · rw [if_pos hdone] at h
    refine ⟨h.kept, ?_, fun hcomplete => ⟨(h.complete hcomplete).1, ?_⟩, ?_⟩
    · exact List.forall_mem_cons.mpr ⟨fun hline => absurd hdone hline, h.events⟩
    · exact List.forall_mem_cons.mpr ⟨.inl hdone, (h.complete hcomplete).2⟩
    · rw [List.filter_cons_of_neg (by simpa using hdone)]
      exact h.deltas
  · rw [if_neg hdone] at h
    cases hvalue : serde.fromStr line with
    | none =>
      rw [hvalue] at h
      refine ⟨h.kept, ?_, fun hcomplete => absurd (h.complete hcomplete).1 Bool.false_ne_true, ?_⟩
      · refine List.forall_mem_cons.mpr ⟨fun _ value hread => ?_, h.events⟩
        rw [hvalue] at hread
        cases hread
      · intro pieces hpieces
        rw [List.filter_cons_of_pos (by simpa using hdone)] at hpieces
        cases hpieces with
        | cons hfirst _ =>
          obtain ⟨value, hread, -⟩ := hfirst
          rw [hvalue] at hread
          cases hread
    | some value =>
      rw [hvalue] at h
      dsimp only at h
      have hlast : value ∈ before.events ++ [value] := List.mem_append_right _ List.mem_cons_self
      refine ⟨fun other hother => h.kept other (List.mem_append_left _ hother), ?_, fun hcomplete => ⟨?_, ?_⟩, ?_⟩
      · refine List.forall_mem_cons.mpr ⟨fun _ other hother => ?_, h.events⟩
        rw [hvalue] at hother
        exact Option.some.inj hother ▸ h.kept value hlast
      · exact (Bool.and_eq_true_iff.mp (h.complete hcomplete).1).2
      · exact List.forall_mem_cons.mpr ⟨.inr ⟨value, hvalue⟩, (h.complete hcomplete).2⟩
      · intro pieces hpieces
        rw [List.filter_cons_of_pos (by simpa using hdone)] at hpieces
        cases hpieces with
        | @cons _ piece _ rest hfirst hrest =>
          obtain ⟨other, hread, hpiece⟩ := hfirst
          rw [hvalue] at hread
          rw [h.deltas rest hrest, String.join_cons, Option.some.inj hread, eventDelta_of_first hpiece]
          exact String.append_assoc

theorem streamed (serde : Serde F) (lines : List String) (before : StreamEvents F) :
    Streamed serde before lines (lines.foldl (readEvent serde) before) := by
  induction lines generalizing before with
  | nil =>
    refine ⟨fun value h => h, fun line h => absurd h List.not_mem_nil,
      fun h => ⟨h, fun line h => absurd h List.not_mem_nil⟩, ?_⟩
    rintro _ ⟨⟩
    exact String.append_empty.symm
  | cons line lines ih => exact streamed_cons (ih _)

theorem not_isEventStream_of_isJson {contentType : String} (h : isJson contentType = true) :
    ¬ isEventStream contentType = true := by
  intro hstream
  obtain ⟨rest, hrest⟩ := List.isPrefixOf_iff_prefix.mp h
  obtain ⟨other, hother⟩ := List.isPrefixOf_iff_prefix.mp hstream
  have hsame : some 'a' = some 't' := congrArg List.head? (hrest.trans hother.symm)
  revert hsame
  decide

theorem inspectsAll_json {bytes : Bytes} {contentType : String} {redactTransport : Bool} {value : Json F}
    (hjson : isJson contentType = true) (hvalue : serde.fromSlice bytes = some value) (complete : Bool) :
    InspectsAll serde bytes contentType redactTransport
      (semanticText serde (if redactTransport then retainMembers value else value)) complete where
  parsed _ := .inl ⟨hjson, value, hvalue⟩
  json := by
    intro _ _ other hother token htoken
    rw [hvalue] at hother
    obtain rfl := Option.some.inj hother
    exact contains_of_holds (holds_of_holdsBeside htoken)
  events hstream := absurd hstream (not_isEventStream_of_isJson hjson)
  deltas hstream := absurd hstream (not_isEventStream_of_isJson hjson)

theorem inspectsAll_stream {bytes : Bytes} {contentType : String} {redactTransport : Bool} {text : String}
    (hstream : isEventStream contentType = true) (htext : fromUtf8 bytes = some text) :
    InspectsAll serde bytes contentType redactTransport
      (semanticText serde (.object [("events", .array (readStream serde text).events),
        ("text", .text (readStream serde text).deltas)])) (readStream serde text).complete := by
  have hread := streamed serde (dataLines text) { events := [], deltas := "", complete := true }
  refine ⟨fun hcomplete => .inr ⟨hstream, text, htext, (hread.complete hcomplete).2⟩, ?_, ?_, ?_⟩
  · intro hjson
    exact absurd hstream (not_isEventStream_of_isJson hjson)
  · intro _ _ other hother line hline hdone value hvalue token htoken
    rw [htext] at hother
    obtain rfl := Option.some.inj hother
    have hevent := hread.events line hline hdone value hvalue
    exact contains_of_holds (.member List.mem_cons_self (.item hevent htoken))
  · intro _ other hother pieces hpieces
    rw [htext] at hother
    obtain rfl := Option.some.inj hother
    have hdeltas := hread.deltas pieces hpieces
    rw [String.empty_append] at hdeltas
    rw [← hdeltas]
    exact contains_of_holds (.member (List.mem_cons_of_mem _ List.mem_cons_self) (.text _))

/-- What is reported as inspected has been. -/
theorem inspectableContent_inspectsAll (serde : Serde F) (bytes : Bytes) (contentType : String)
    (redactTransport : Bool) :
    InspectsAll serde bytes contentType redactTransport
      (inspectableContent serde bytes contentType redactTransport).1
      (inspectableContent serde bytes contentType redactTransport).2 := by
  unfold inspectableContent
  by_cases hjson : isJson contentType = true
  · rw [if_pos hjson]
    cases hvalue : serde.fromSlice bytes with
    | some value => exact inspectsAll_json hjson hvalue _
    | none =>
      have hstream := not_isEventStream_of_isJson hjson
      exact ⟨fun h => absurd h Bool.false_ne_true, fun _ h => absurd h Bool.false_ne_true,
        fun h => absurd h hstream, fun h => absurd h hstream⟩
  rw [if_neg hjson]
  by_cases hstream : isEventStream contentType = true
  · rw [if_pos hstream]
    cases htext : fromUtf8 bytes with
    | some text => exact inspectsAll_stream hstream htext
    | none =>
      refine ⟨fun h => absurd h Bool.false_ne_true, fun h => absurd h hjson,
        fun _ h => absurd h Bool.false_ne_true, fun _ text h => ?_⟩
      rw [htext] at h
      cases h
  · rw [if_neg hstream]
    exact ⟨fun h => absurd h Bool.false_ne_true, fun h => absurd h hjson, fun h => absurd h hstream,
      fun h => absurd h hstream⟩

end Completeness

end Gail.Governance
