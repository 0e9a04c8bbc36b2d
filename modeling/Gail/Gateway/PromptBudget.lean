import Gail.Library.Saturating
import Gail.Library.StableSort
import Gail.Library.Text
import Mathlib.Algebra.GroupWithZero.Nat
import Mathlib.Algebra.Order.BigOperators.Group.List
import Mathlib.Data.List.ModifyLast
import Mathlib.Data.String.Basic

/-! The prompt budget: requests that are too long for the context window of a provider are cut down before
they are sent. -/
namespace Gail.Gateway
open Gail.Library

inductive ContentPart where
  | text (text : String)
  | imageUrl (url : String)
  deriving DecidableEq

inductive MessageContent where
  | text (text : String)
  | parts (parts : List ContentPart)
  deriving DecidableEq

structure ChatMessage where
  role : String
  content : MessageContent
  deriving DecidableEq

/-- The part of a provider request that the budget concerns. -/
structure PromptRequest where
  messages : List ChatMessage
  system : Option String
  maxTokens : Option Nat
  deriving DecidableEq

structure PromptCompactionReport where
  contextWindowTokens : Nat
  inputBudgetTokens : Nat
  estimatedTokensBefore : Nat
  estimatedTokensAfter : Nat
  omittedMessages : Nat
  omittedChars : Nat
  deriving DecidableEq

def minContextWindowTokens : Nat := 1024

def minInputBudgetTokens : Nat := 2048

def compactionMarkerBudgetChars : Nat := 512

def minUserQueryChars : Nat := 64

def u32Max : Nat := 2 ^ 32 - 1

def ContentPart.flattenedText : ContentPart → String
  | .text value => value
  | .imageUrl url => url

def MessageContent.flattenedText : MessageContent → String
  | .text value => value
  | .parts list => "\n".intercalate (list.map ContentPart.flattenedText)

def ChatMessage.flattenedText (message : ChatMessage) : String := message.content.flattenedText

/-- A user message whose text is not blank. -/
def ChatMessage.isUserTurn (message : ChatMessage) : Bool :=
  eqIgnoreAsciiCase message.role "user" && !(trim message.flattenedText).isEmpty

def charCount (value : String) : Nat := value.toList.length

def messageCharCount (message : ChatMessage) : Nat := charCount message.flattenedText

def requestCharCount (request : PromptRequest) : Nat :=
  (request.system.map charCount).getD 0 + (request.messages.map messageCharCount).sum

def estimateTokens (chars charsPerToken : Nat) : Nat :=
  (chars + (max charsPerToken 1 - 1)) / max charsPerToken 1

def omissionMarker : String := "\n…[middle omitted by Gail]…\n"

def truncateMiddle (value : String) (maxChars : Nat) : String :=
  if charCount value ≤ maxChars then value
  else if maxChars = 0 then ""
  else if maxChars ≤ charCount omissionMarker + 2 then String.ofList (value.toList.take maxChars)
  else
    let contentBudget := maxChars - charCount omissionMarker
    let headChars := contentBudget / 2
    let tailChars := contentBudget - headChars
    String.ofList (value.toList.take headChars ++ omissionMarker.toList ++
      (value.toList.reverse.take tailChars).reverse)

/-- The parts of a message share the characters that are left; images take none. -/
def compactParts : List ContentPart → Nat → List ContentPart
  | [], _ => []
  | .text text :: parts, remaining =>
    let compacted := truncateMiddle text remaining
    .text compacted :: compactParts parts (remaining - charCount compacted)
  | .imageUrl url :: parts, remaining => .imageUrl url :: compactParts parts remaining

def compactMessage (message : ChatMessage) (maxChars : Nat) : ChatMessage :=
  match message.content with
  | .text text => { message with content := .text (truncateMiddle text maxChars) }
  | .parts parts => { message with content := .parts (compactParts parts maxChars) }

def compactionSummary (omitted : List ChatMessage) (omittedChars charsPerToken : Nat) : String :=
  let roles := omitted.map fun message => toAsciiLowercase message.role
  let counts := (sortByKey id roles.dedup).map fun role => s!"{role}:{roles.count role}"
  let listed := ", ".intercalate counts
  s!"[GAIL CONTEXT COMPACTION] {omitted.length} older message(s) " ++
    s!"(~{estimateTokens omittedChars charsPerToken} tokens) were omitted to fit the provider context " ++
    s!"window. Omitted roles: {listed}. System instructions and the newest context are retained; " ++
    "re-query source data when omitted detail is required."

structure PromptBudget where
  contextWindowTokens : Nat
  inputBudgetTokens : Nat
  inputBudgetChars : Nat
  /-- What is left for the output, when that is less than requested. -/
  maxTokens : Option Nat

def promptBudget (maxTokens : Option Nat) (contextWindowTokens charsPerToken safetyMarginTokens : Nat) :
    PromptBudget :=
  let contextWindowTokens := max contextWindowTokens minContextWindowTokens
  let charsPerToken := max charsPerToken 1
  let requestedOutputTokens := maxTokens.getD 16384
  let effectiveSafetyMargin := min safetyMarginTokens (contextWindowTokens / 4)
  let availableInputTokens := contextWindowTokens - effectiveSafetyMargin
  let inputFloorTokens := max (min minInputBudgetTokens availableInputTokens) 1
  let maximumOutputTokens := max (contextWindowTokens - effectiveSafetyMargin - inputFloorTokens) 1
  let outputTokens := min requestedOutputTokens maximumOutputTokens
  let inputBudgetTokens :=
    min (max (contextWindowTokens - outputTokens - effectiveSafetyMargin) inputFloorTokens)
      (max availableInputTokens 1)
  { contextWindowTokens
    inputBudgetTokens
    inputBudgetChars := saturatingMul inputBudgetTokens charsPerToken
    maxTokens :=
      if maximumOutputTokens < requestedOutputTokens then some (min maximumOutputTokens u32Max)
      else maxTokens }

namespace PromptBudget
variable (budget : PromptBudget)

def systemChars : Nat :=
  min (budget.inputBudgetChars - compactionMarkerBudgetChars - minUserQueryChars) (budget.inputBudgetChars / 3)

def compactSystem (system : Option String) : Option String :=
  system.map fun system =>
    if budget.systemChars < charCount system then truncateMiddle system budget.systemChars else system

def messageChars (system : Option String) : Nat :=
  budget.inputBudgetChars - ((budget.compactSystem system).map charCount).getD 0 - compactionMarkerBudgetChars

end PromptBudget

/-- What has been decided on, from the newest message on. -/
structure Selection where
  /-- The oldest first. -/
  retained : List ChatMessage
  retainedChars : Nat
  /-- The newest first. -/
  omitted : List ChatMessage

namespace Selection

def empty : Selection := { retained := [], retainedChars := 0, omitted := [] }

def take (messageBudget : Nat) (message : ChatMessage) (selection : Selection) : Selection :=
  let remaining := messageBudget - selection.retainedChars
  if messageCharCount message ≤ remaining then
    { selection with
      retained := message :: selection.retained
      retainedChars := saturatingAdd selection.retainedChars (messageCharCount message) }
  else if selection.retained.isEmpty && decide (0 < remaining) then
    { selection with retained := [compactMessage message remaining], retainedChars := messageBudget }
  else { selection with omitted := selection.omitted ++ [message] }

def omittedChars (selection : Selection) : Nat := (selection.omitted.map messageCharCount).sum

/-- The summary of what has been left out. -/
def marker (selection : Selection) (charsPerToken : Nat) : Option ChatMessage :=
  if selection.omitted.isEmpty then none
  else
    some
      { role := "system"
        content := .text (truncateMiddle
          (compactionSummary selection.omitted selection.omittedChars charsPerToken)
          compactionMarkerBudgetChars) }

def messages (selection : Selection) (charsPerToken : Nat) : List ChatMessage :=
  (selection.marker charsPerToken).toList ++ selection.retained

end Selection

def selectMessages (messageBudget : Nat) (messages : List ChatMessage) : Selection :=
  messages.foldr (Selection.take messageBudget) .empty

def newestUserMessage (messages : List ChatMessage) : Option ChatMessage :=
  messages.reverse.find? ChatMessage.isUserTurn

/-- The newest user message comes back where none has been retained. -/
def keepUserTurn (messageBudget : Nat) (newest : Option ChatMessage) (messages : List ChatMessage) :
    List ChatMessage :=
  if messages.any ChatMessage.isUserTurn then messages
  else
    messages ++ newest.toList.map fun message =>
      compactMessage message (min minUserQueryChars (max messageBudget minUserQueryChars))

/-- The last message of a request that is still too long is cut. -/
def capLast (budget : PromptBudget) (request : PromptRequest) : PromptRequest :=
  let overflow := requestCharCount request - budget.inputBudgetChars
  if budget.inputBudgetChars < requestCharCount request then
    { request with
      messages := request.messages.modifyLast fun last =>
        compactMessage last (if eqIgnoreAsciiCase last.role "user" then minUserQueryChars
          else messageCharCount last - overflow) }
  else request

def compactProviderRequest (request : PromptRequest)
    (contextWindowTokens charsPerToken safetyMarginTokens : Nat) :
    PromptRequest × Option PromptCompactionReport :=
  let budget := promptBudget request.maxTokens contextWindowTokens charsPerToken safetyMarginTokens
  let charsPerToken := max charsPerToken 1
  let beforeChars := requestCharCount request
  if beforeChars ≤ budget.inputBudgetChars then ({ request with maxTokens := budget.maxTokens }, none)
  else
    let messageBudget := budget.messageChars request.system
    let selection := selectMessages messageBudget request.messages
    let compacted := capLast budget
      { messages := keepUserTurn messageBudget (newestUserMessage request.messages)
          (selection.messages charsPerToken)
        system := budget.compactSystem request.system
        maxTokens := budget.maxTokens }
    (compacted, some
      { contextWindowTokens := budget.contextWindowTokens
        inputBudgetTokens := budget.inputBudgetTokens
        estimatedTokensBefore := estimateTokens beforeChars charsPerToken
        estimatedTokensAfter := estimateTokens (requestCharCount compacted) charsPerToken
        omittedMessages := selection.omitted.length
        omittedChars := selection.omittedChars })

section Truncation
variable {value : String} {limit : Nat} {parts : List ContentPart} {message : ChatMessage}

/-- A text of white space. -/
def Blank (text : String) : Prop := ∀ c ∈ text.toList, isWhitespace c = true

def ContentPart.textChars : ContentPart → Nat
  | .text value => charCount value
  | .imageUrl _ => 0

def textChars (parts : List ContentPart) : Nat := (parts.map ContentPart.textChars).sum

@[simp] theorem textChars_cons (part : ContentPart) (parts : List ContentPart) :
    textChars (part :: parts) = part.textChars + textChars parts := by
  unfold textChars
  rw [List.map_cons, List.sum_cons]

theorem truncateMiddle_of_le (h : charCount value ≤ limit) : truncateMiddle value limit = value := if_pos h

theorem charCount_truncateMiddle (value : String) (limit : Nat) :
    charCount (truncateMiddle value limit) = min (charCount value) limit := by
  unfold truncateMiddle
  split_ifs with hfits hzero hshort
  · exact (min_eq_left hfits).symm
  · rw [hzero, min_eq_right (Nat.zero_le _)]
    rfl
  · unfold charCount at hfits ⊢
    rw [String.toList_ofList, List.length_take, min_comm]
  · unfold charCount at hfits hshort ⊢
    simp only [String.toList_ofList, List.length_append, List.length_take, List.length_reverse]
    omega

theorem mark_mem_omissionMarker : '[' ∈ omissionMarker.toList := by decide

/-- What is left of a text is blank when it was blank and fits, or when it is cut short without a mark. -/
theorem blank_truncateMiddle_iff :
    Blank (truncateMiddle value limit) ↔
      charCount value ≤ limit ∧ Blank value ∨
        limit < charCount value ∧ limit ≤ charCount omissionMarker + 2 ∧
          ∀ c ∈ value.toList.take limit, isWhitespace c = true := by
  unfold truncateMiddle
  split_ifs with hfits hzero hshort
  · simp [hfits]
  · subst hzero
    refine iff_of_true ?_ (.inr ⟨not_le.mp hfits, Nat.zero_le _, ?_⟩)
    · intro c hc
      simp at hc
    · simp
  · unfold Blank
    rw [String.toList_ofList]
    constructor
    · exact fun h => .inr ⟨not_le.mp hfits, hshort, h⟩
    · rintro (⟨hle, -⟩ | ⟨-, -, h⟩)
      · exact absurd hle hfits
      · exact h
  · refine iff_of_false ?_ ?_
    · intro hblank
      have hwhite := hblank '[' (by
        simp only [String.toList_ofList, List.mem_append]
        exact .inl (.inr mark_mem_omissionMarker))
      revert hwhite
      decide
    · rintro (⟨hle, -⟩ | ⟨-, hle, -⟩)
      · exact hfits hle
      · exact hshort hle

theorem compactParts_of_le (h : textChars parts ≤ limit) : compactParts parts limit = parts := by
  induction parts generalizing limit with
  | nil => rfl
  | cons part parts ih =>
    rw [textChars_cons] at h
    cases part with
    | text value =>
      simp only [ContentPart.textChars] at h
      rw [compactParts, truncateMiddle_of_le (by omega), ih (by omega)]
    | imageUrl url =>
      simp only [ContentPart.textChars] at h
      rw [compactParts, ih (by omega)]

theorem textChars_compactParts_le (parts : List ContentPart) (limit : Nat) :
    textChars (compactParts parts limit) ≤ limit := by
  induction parts generalizing limit with
  | nil => exact Nat.zero_le _
  | cons part parts ih =>
    cases part with
    | text value =>
      have hrest := ih (limit - charCount (truncateMiddle value limit))
      have hfirst := charCount_truncateMiddle value limit
      rw [compactParts, textChars_cons]
      simp only [ContentPart.textChars]
      omega
    | imageUrl url =>
      have hrest := ih limit
      rw [compactParts, textChars_cons]
      simp only [ContentPart.textChars]
      omega

/-- Cutting to the same length again changes nothing. -/
theorem compactMessage_compactMessage (message : ChatMessage) (limit : Nat) :
    compactMessage (compactMessage message limit) limit = compactMessage message limit := by
  obtain ⟨role, content⟩ := message
  cases content with
  | text value =>
    have hle : charCount (truncateMiddle value limit) ≤ limit := by
      rw [charCount_truncateMiddle]
      exact min_le_right _ _
    simp only [compactMessage, truncateMiddle_of_le hle]
  | parts parts => simp only [compactMessage, compactParts_of_le (textChars_compactParts_le parts limit)]

@[simp] theorem compactMessage_role (message : ChatMessage) (limit : Nat) :
    (compactMessage message limit).role = message.role := by
  unfold compactMessage
  split <;> rfl

end Truncation

section Budget
variable {messageBudget : Nat} {message : ChatMessage} {messages : List ChatMessage} {selection : Selection}

/-- Three quarters of the smallest window are left for the input. -/
theorem promptBudget_chars (maxTokens : Option Nat)
    (contextWindowTokens charsPerToken safetyMarginTokens : Nat) :
    768 ≤ (promptBudget maxTokens contextWindowTokens charsPerToken safetyMarginTokens).inputBudgetChars ∧
      (promptBudget maxTokens contextWindowTokens charsPerToken safetyMarginTokens).inputBudgetChars ≤
        u64Max := by
  have htokens : 768 ≤
      (promptBudget maxTokens contextWindowTokens charsPerToken safetyMarginTokens).inputBudgetTokens := by
    simp only [promptBudget, minContextWindowTokens, minInputBudgetTokens]
    omega
  have hmax : 768 ≤ u64Max := by decide
  have hproduct := Nat.le_mul_of_pos_right
    (promptBudget maxTokens contextWindowTokens charsPerToken safetyMarginTokens).inputBudgetTokens
    (Nat.lt_of_lt_of_le Nat.one_pos (le_max_right charsPerToken 1))
  exact ⟨le_min (htokens.trans hproduct) hmax, min_le_right _ _⟩

/-- The system text, the messages and the summary of what is omitted share the budget, and the shortest user
query fits among the messages. -/
theorem messageChars_share (budget : PromptBudget) (h : 768 ≤ budget.inputBudgetChars)
    (system : Option String) :
    ((budget.compactSystem system).map charCount).getD 0 + budget.messageChars system +
        compactionMarkerBudgetChars = budget.inputBudgetChars ∧
      minUserQueryChars ≤ budget.messageChars system := by
  have hsystem : ((budget.compactSystem system).map charCount).getD 0 ≤ budget.systemChars := by
    unfold PromptBudget.compactSystem
    cases system with
    | none => exact Nat.zero_le _
    | some system =>
      simp only [Option.map_some, Option.getD_some]
      split_ifs with hlong
      · rw [charCount_truncateMiddle]
        exact min_le_right _ _
      · exact not_lt.mp hlong
  unfold PromptBudget.systemChars compactionMarkerBudgetChars minUserQueryChars at hsystem
  unfold PromptBudget.messageChars compactionMarkerBudgetChars minUserQueryChars
  omega

/-- What the selection comes to: messages that fit, or the newest one cut to the budget, with empty ones. -/
inductive Selected (messageBudget : Nat) (messages : List ChatMessage) (selection : Selection) : Prop
  | whole (counted : (selection.retained.map messageCharCount).sum = selection.retainedChars)
      (within : selection.retainedChars ≤ messageBudget)
      (none : selection.retained = [] ↔ messages = [])
      (fits : ∀ newest ∈ messages.getLast?, messageCharCount newest ≤ messageBudget)
  | cut (newest : ChatMessage) (empties : List ChatMessage) (last : messages.getLast? = some newest)
      (long : messageBudget < messageCharCount newest)
      (retained : selection.retained = empties ++ [compactMessage newest messageBudget])
      (empty : ∀ other ∈ empties, messageCharCount other = 0)
      (counted : selection.retainedChars = messageBudget)

/-- One more message, the next older one. -/
theorem Selected.take (hpositive : 0 < messageBudget) (hmax : messageBudget ≤ u64Max)
    (h : Selected messageBudget messages selection) (message : ChatMessage) :
    Selected messageBudget (message :: messages) (selection.take messageBudget message) := by
  unfold Selection.take
  dsimp only
  split_ifs with hfits hcut
  · -- The message fits.
    cases h with
    | whole counted within none fits =>
      have hsum : saturatingAdd selection.retainedChars (messageCharCount message) =
          selection.retainedChars + messageCharCount message := min_eq_left (by omega)
      refine .whole ?_ (hsum.le.trans (by omega)) ?_ ?_
      · rw [List.map_cons, List.sum_cons, counted, hsum, Nat.add_comm]
      · exact iff_of_false (List.cons_ne_nil _ _) (List.cons_ne_nil _ _)
      · intro newest hnewest
        cases messages with
        | nil =>
          obtain rfl : message = newest := Option.some.inj hnewest
          omega
        | cons next messages => exact fits newest (List.getLast?_cons_cons ▸ hnewest)
    | cut newest empties last long retained empty counted =>
      have hempty : messageCharCount message = 0 := by omega
      refine .cut newest (message :: empties) ?_ long ?_ ?_ ?_
      · rw [List.getLast?_cons, last, Option.getD_some]
      · rw [retained, List.cons_append]
      · intro other hother
        rcases List.mem_cons.mp hother with rfl | hother
        · exact hempty
        · exact empty other hother
      · rw [hempty, counted]
        exact min_eq_left hmax
  · -- It is too long and the newest one: it is cut.
    obtain ⟨hnone, -⟩ := Bool.and_eq_true_iff.mp hcut
    rw [List.isEmpty_iff] at hnone
    cases h with
    | whole counted within none fits =>
      have hfirst : messages = [] := none.mp hnone
      rw [hnone, List.map_nil, List.sum_nil] at counted
      rw [← counted, Nat.sub_zero] at hfits ⊢
      subst hfirst
      exact .cut message [] rfl (not_le.mp hfits) rfl (fun other hother => by cases hother) rfl
    | cut newest empties last long retained empty counted =>
      rw [retained] at hnone
      exact absurd hnone (List.append_ne_nil_of_right_ne_nil _ (List.cons_ne_nil _ _))
  · -- It is omitted.
    cases h with
    | whole counted within none fits =>
      have hsome : selection.retained ≠ [] := by
        intro hnone
        rw [hnone, List.map_nil, List.sum_nil] at counted
        apply hcut
        rw [Bool.and_eq_true_iff, decide_eq_true_iff, List.isEmpty_iff]
        exact ⟨hnone, by omega⟩
      refine .whole counted within (iff_of_false hsome (List.cons_ne_nil _ _)) ?_
      intro newest hnewest
      cases messages with
      | nil => exact absurd (none.mpr rfl) hsome
      | cons next messages => exact fits newest (List.getLast?_cons_cons ▸ hnewest)
    | cut newest empties last long retained empty counted =>
      refine .cut newest empties ?_ long retained empty counted
      rw [List.getLast?_cons, last, Option.getD_some]

theorem selectMessages_selected (hpositive : 0 < messageBudget) (hmax : messageBudget ≤ u64Max)
    (messages : List ChatMessage) : Selected messageBudget messages (selectMessages messageBudget messages) := by
  induction messages with
  | nil => exact .whole rfl (Nat.zero_le _) (iff_of_true rfl rfl) fun newest h => by cases h
  | cons message messages ih => exact ih.take hpositive hmax message

end Budget

end Gail.Gateway
