import Gail.Gateway.UserTurns

/-! How large a compacted request can still be: the shares of the context window in tokens, and the characters of
its messages, whose text parts are joined by line breaks that no budget counts. -/
namespace Gail.Gateway
open Gail.Library

section Shares

/-- What the provider may answer with, 16384 tokens unless the request says otherwise. -/
def PromptBudget.outputTokens (budget : PromptBudget) : Nat := budget.maxTokens.getD 16384

def PromptBudget.effectiveSafetyMargin (budget : PromptBudget) (safetyMarginTokens : Nat) : Nat :=
  min safetyMarginTokens (budget.contextWindowTokens / 4)

/-- Output, input and margin fit the window together exactly if the window without the margin is larger than the
smallest input budget, or no output is requested. -/
theorem shares_le_window_iff (maxTokens : Option Nat)
    (contextWindowTokens charsPerToken safetyMarginTokens : Nat) :
    (promptBudget maxTokens contextWindowTokens charsPerToken safetyMarginTokens).outputTokens +
        (promptBudget maxTokens contextWindowTokens charsPerToken safetyMarginTokens).inputBudgetTokens +
        (promptBudget maxTokens contextWindowTokens charsPerToken safetyMarginTokens).effectiveSafetyMargin
          safetyMarginTokens ≤
      (promptBudget maxTokens contextWindowTokens charsPerToken safetyMarginTokens).contextWindowTokens ↔
    minInputBudgetTokens < max contextWindowTokens minContextWindowTokens -
        min safetyMarginTokens (max contextWindowTokens minContextWindowTokens / 4) ∨
      maxTokens.getD 16384 = 0 := by
  unfold PromptBudget.outputTokens PromptBudget.effectiveSafetyMargin promptBudget
  dsimp only
  generalize hwindow : max contextWindowTokens minContextWindowTokens = window
  have hleast : 1024 ≤ window := hwindow ▸ le_max_right _ _
  unfold minInputBudgetTokens
  have hu32 : 2048 ≤ u32Max := by decide
  split_ifs with hcapped
  · rw [Option.getD_some]
    omega
  · omega

/-- In the smallest window the input takes all that the margin leaves, and one token of output comes on top. -/
theorem smallest_window_overflows :
    ¬ (promptBudget none 1024 1 256).outputTokens + (promptBudget none 1024 1 256).inputBudgetTokens +
        (promptBudget none 1024 1 256).effectiveSafetyMargin 256 ≤
      (promptBudget none 1024 1 256).contextWindowTokens := by decide

end Shares

section Sizes
variable {message : ChatMessage} {parts : List ContentPart}

def ContentPart.isText : ContentPart → Bool
  | .text _ => true
  | .imageUrl _ => false

def ChatMessage.WithoutImages (message : ChatMessage) : Prop :=
  ∀ parts, message.content = .parts parts → ∀ part ∈ parts, part.isText = true

/-- The characters of the texts of a message. -/
def ChatMessage.textChars (message : ChatMessage) : Nat :=
  match message.content with
  | .text value => charCount value
  | .parts parts => Gateway.textChars parts

/-- The line breaks between the parts of a message. -/
def ChatMessage.separators (message : ChatMessage) : Nat :=
  match message.content with
  | .text _ => 0
  | .parts parts => parts.length - 1

/-- The size of a message whose texts are cut to so many characters. -/
def ChatMessage.cutChars (message : ChatMessage) (limit : Nat) : Nat :=
  min message.textChars limit + message.separators

theorem length_intercalate_singleton {α : Type} (a : α) (lists : List (List α)) :
    ([a].intercalate lists).length = (lists.map List.length).sum + (lists.length - 1) := by
  induction lists with
  | nil => rfl
  | cons list lists ih =>
    match lists, ih with
    | [], _ => simp
    | next :: lists, ih =>
      simp only [List.intercalate_cons_cons, List.length_append, ih, List.map_cons, List.sum_cons,
        List.length_cons, List.length_nil]
      omega

theorem messageCharCount_eq (h : message.WithoutImages) :
    messageCharCount message = message.textChars + message.separators := by
  obtain ⟨role, content⟩ := message
  cases content with
  | text value => rfl
  | parts parts =>
    have htext : ∀ part ∈ parts, charCount part.flattenedText = part.textChars := by
      intro part hpart
      have htext := h parts rfl part hpart
      cases part with
      | text value => rfl
      | imageUrl url => cases htext
    have hbreak : ("\n" : String).toList = ['\n'] := rfl
    simp only [messageCharCount, charCount, ChatMessage.flattenedText, MessageContent.flattenedText,
      String.toList_intercalate, hbreak, length_intercalate_singleton, ChatMessage.textChars,
      ChatMessage.separators, Gateway.textChars, List.map_map, List.length_map]
    congr 2
    exact List.map_congr_left htext

theorem textChars_compactParts (h : ∀ part ∈ parts, part.isText = true) (limit : Nat) :
    textChars (compactParts parts limit) = min (textChars parts) limit ∧
      (compactParts parts limit).length = parts.length ∧
        ∀ part ∈ compactParts parts limit, part.isText = true := by
  induction parts generalizing limit with
  | nil => simp [compactParts, textChars]
  | cons part parts ih =>
    obtain ⟨hfirst, hrest⟩ := List.forall_mem_cons.mp h
    cases part with
    | imageUrl url => cases hfirst
    | text value =>
      have hcut := charCount_truncateMiddle value limit
      obtain ⟨hchars, hlength, htext⟩ := ih hrest (limit - charCount (truncateMiddle value limit))
      rw [compactParts]
      refine ⟨?_, ?_, List.forall_mem_cons.mpr ⟨rfl, htext⟩⟩
      · rw [textChars_cons, textChars_cons, hchars]
        simp only [ContentPart.textChars, hcut]
        omega
      · rw [List.length_cons, List.length_cons, hlength]

/-- Cutting a message keeps its line breaks. -/
theorem compactMessage_spec (h : message.WithoutImages) (limit : Nat) :
    (compactMessage message limit).WithoutImages ∧
      (compactMessage message limit).textChars = min message.textChars limit ∧
        (compactMessage message limit).separators = message.separators := by
  obtain ⟨role, content⟩ := message
  cases content with
  | text value =>
    exact ⟨fun parts hparts => (by cases hparts), charCount_truncateMiddle value limit, rfl⟩
  | parts parts =>
    obtain ⟨hchars, hlength, htext⟩ := textChars_compactParts (h parts rfl) limit
    refine ⟨?_, hchars, ?_⟩
    · intro other hother
      cases hother
      exact htext
    · simp only [compactMessage, ChatMessage.separators, hlength]

theorem messageCharCount_compactMessage (h : message.WithoutImages) (limit : Nat) :
    messageCharCount (compactMessage message limit) = message.cutChars limit := by
  obtain ⟨hkept, hchars, hseparators⟩ := compactMessage_spec h limit
  rw [messageCharCount_eq hkept, hchars, hseparators, ChatMessage.cutChars]

end Sizes

section Requests
variable {request : PromptRequest} {budget : PromptBudget} {selection : Selection}
  {front : List ChatMessage} {last newest user : ChatMessage} {messageBudget charsPerToken : Nat}

def messagesChars (messages : List ChatMessage) : Nat := (messages.map messageCharCount).sum

/-- The characters of the summary of what is omitted. -/
def Selection.summaryChars (selection : Selection) (charsPerToken : Nat) : Nat :=
  messagesChars (selection.marker charsPerToken).toList

/-- The user message that is put back, where the selection retains none. -/
def returnedUser (request : PromptRequest) (selection : Selection) : Option ChatMessage :=
  if selection.retained.any ChatMessage.isUserTurn then none else newestUserMessage request.messages

/-- The line breaks of a message that is cut take too much. That is the user message that is put back; or else the
newest message, when it does not fit the budget by itself. -/
def CutOverfills (budget : PromptBudget) (request : PromptRequest) (charsPerToken : Nat) : Prop :=
  let messageBudget := budget.messageChars request.system
  let selection := selectMessages messageBudget request.messages
  let summary := selection.summaryChars (max charsPerToken 1)
  match returnedUser request selection with
  | some user =>
    budget.inputBudgetChars + 64 <
      summary + messagesChars selection.retained + user.cutChars minUserQueryChars
  | none =>
    ∃ newest ∈ request.messages.getLast?, messageBudget < messageCharCount newest ∧
      budget.inputBudgetChars + 64 <
        summary + newest.cutChars (if eqIgnoreAsciiCase newest.role "user" then minUserQueryChars
          else messageBudget)

/-- A request that is too long stays too long when it is cut. -/
def Overfills (request : PromptRequest) (contextWindowTokens charsPerToken safetyMarginTokens : Nat) : Prop :=
  let budget := promptBudget request.maxTokens contextWindowTokens charsPerToken safetyMarginTokens
  budget.inputBudgetChars < requestCharCount request ∧ CutOverfills budget request charsPerToken

theorem messagesChars_append (front back : List ChatMessage) :
    messagesChars (front ++ back) = messagesChars front + messagesChars back := by
  simp only [messagesChars, List.map_append, List.sum_append]

theorem messagesChars_singleton (message : ChatMessage) : messagesChars [message] = messageCharCount message :=
  List.sum_singleton

theorem messagesChars_of_empty (h : ∀ other ∈ front, messageCharCount other = 0) : messagesChars front = 0 := by
  rw [messagesChars, List.sum_eq_zero_iff]
  simpa using h

theorem messagesChars_messages (selection : Selection) (charsPerToken : Nat) :
    messagesChars (selection.messages charsPerToken) =
      selection.summaryChars charsPerToken + messagesChars selection.retained :=
  messagesChars_append _ _

theorem summaryChars_le (selection : Selection) (charsPerToken : Nat) :
    selection.summaryChars charsPerToken ≤ compactionMarkerBudgetChars := by
  have hle := messages_chars_le selection charsPerToken
  have hsum := messagesChars_messages selection charsPerToken
  unfold messagesChars at hsum
  omega

/-- What becomes of the last message of a request. -/
theorem capLast_messagesChars (hlast : request.messages = front ++ [last]) :
    messagesChars (capLast budget request).messages =
      messagesChars front +
        if budget.inputBudgetChars < requestCharCount request then
          messageCharCount (compactMessage last (if eqIgnoreAsciiCase last.role "user" then minUserQueryChars
            else messageCharCount last - (requestCharCount request - budget.inputBudgetChars)))
        else messageCharCount last := by
  unfold capLast
  dsimp only
  split_ifs with hlong huser
  · simp only [hlast, List.modifyLast_concat, huser, if_true, messagesChars_append, messagesChars_singleton]
  · simp only [hlast, List.modifyLast_concat, huser, if_false, messagesChars_append, messagesChars_singleton,
      Bool.false_eq_true]
  · rw [hlast, messagesChars_append, messagesChars_singleton]

/-- A user message that has been put back is cut but once. -/
theorem capLast_returned_chars (huser : eqIgnoreAsciiCase user.role "user" = true)
    (hlast : request.messages = front ++ [compactMessage user minUserQueryChars]) :
    messagesChars (capLast budget request).messages =
      messagesChars front + messageCharCount (compactMessage user minUserQueryChars) := by
  rw [capLast_messagesChars hlast, compactMessage_role, if_pos huser, compactMessage_compactMessage, ite_self]

theorem cutChars_mono (message : ChatMessage) {low high : Nat} (h : low ≤ high) :
    message.cutChars low ≤ message.cutChars high := by
  unfold ChatMessage.cutChars
  omega

theorem cutChars_cut (h : newest.WithoutImages) (high low : Nat) :
    messageCharCount (compactMessage (compactMessage newest high) low) = newest.cutChars (min high low) := by
  obtain ⟨hkept, hchars, hseparators⟩ := compactMessage_spec h high
  rw [messageCharCount_compactMessage hkept, ChatMessage.cutChars, hchars, hseparators, ChatMessage.cutChars,
    Nat.min_assoc]

/-- A newest message that has been cut to the budget for messages. -/
theorem capLast_cut_chars (h : newest.WithoutImages)
    (hlast : request.messages = front ++ [compactMessage newest messageBudget])
    (hshare : (request.system.map charCount).getD 0 + messageBudget + compactionMarkerBudgetChars =
      budget.inputBudgetChars) (hquery : minUserQueryChars ≤ messageBudget)
    (hfront : messagesChars front ≤ compactionMarkerBudgetChars) :
    messagesChars (capLast budget request).messages ≤ budget.inputBudgetChars + 64 ↔
      messagesChars front + newest.cutChars (if eqIgnoreAsciiCase newest.role "user" then minUserQueryChars
        else messageBudget) ≤ budget.inputBudgetChars + 64 := by
  have hcut := messageCharCount_compactMessage h messageBudget
  have hchars : requestCharCount request = (request.system.map charCount).getD 0 + messagesChars front +
      newest.cutChars messageBudget := by
    have hsum := messagesChars_append front [compactMessage newest messageBudget]
    rw [messagesChars_singleton, hcut, ← hlast] at hsum
    rw [requestCharCount, Nat.add_assoc, ← hsum]
    rfl
  have hless := cutChars_mono newest hquery
  rw [capLast_messagesChars hlast, compactMessage_role, cutChars_cut h, hcut, hchars]
  split_ifs with hlong huser huser
  · rw [min_eq_right hquery]
  · rw [min_eq_left (by omega)]
  · exact iff_of_true (by omega) (by omega)
  · exact Iff.rfl

/-- The messages of a request that is cut. -/
theorem capLast_le_iff (h : ∀ message ∈ request.messages, message.WithoutImages)
    (hfloor : 768 ≤ budget.inputBudgetChars) (hmax : budget.inputBudgetChars ≤ u64Max)
    (maxTokens : Option Nat) :
    messagesChars (capLast budget
        { messages := keepUserTurn (budget.messageChars request.system) (newestUserMessage request.messages)
            ((selectMessages (budget.messageChars request.system) request.messages).messages
              (max charsPerToken 1))
          system := budget.compactSystem request.system
          maxTokens }).messages ≤ budget.inputBudgetChars + 64 ↔
      ¬ CutOverfills budget request charsPerToken := by
  unfold CutOverfills
  dsimp only
  obtain ⟨hshare, hquery⟩ := messageChars_share budget hfloor request.system
  generalize budget.messageChars request.system = messageBudget at hshare hquery ⊢
  have hselected : Selected messageBudget request.messages (selectMessages messageBudget request.messages) :=
    selectMessages_selected (Nat.lt_of_lt_of_le (by decide) hquery) (by omega) request.messages
  generalize selectMessages messageBudget request.messages = selection at hselected ⊢
  have hsummary := summaryChars_le selection (max charsPerToken 1)
  cases hreturned : returnedUser request selection with
  | some user =>
    -- A user message is put back.
    have hnone : selection.retained.any ChatMessage.isUserTurn = false := by
      unfold returnedUser at hreturned
      split_ifs at hreturned with hany
      exact Bool.eq_false_iff.mpr hany
    have hnewest : newestUserMessage request.messages = some user := by
      rwa [returnedUser, hnone, if_neg Bool.false_ne_true] at hreturned
    have huser := List.find?_some hnewest
    have himages := h user (List.mem_reverse.mp (List.mem_of_find?_eq_some hnewest))
    have hkeep : keepUserTurn messageBudget (some user) (selection.messages (max charsPerToken 1)) =
        selection.messages (max charsPerToken 1) ++ [compactMessage user minUserQueryChars] := by
      rw [keepUserTurn, messages_any_isUserTurn, hnone, if_neg Bool.false_ne_true,
        min_eq_left (le_max_right _ _)]
      rfl
    rw [hnewest, capLast_returned_chars (isUserTurn_iff.mp huser).1 hkeep, messagesChars_messages,
      messageCharCount_compactMessage himages, not_lt]
  | none =>
    have hkeep : keepUserTurn messageBudget (newestUserMessage request.messages)
        (selection.messages (max charsPerToken 1)) = selection.messages (max charsPerToken 1) := by
      unfold returnedUser at hreturned
      rw [keepUserTurn, messages_any_isUserTurn]
      split_ifs at hreturned ⊢
      · rfl
      · rw [hreturned]
        exact List.append_nil _
    simp only [hkeep]
    cases hselected with
    | whole counted within none fits =>
      -- What has been retained whole fits.
      have hfits : messagesChars (selection.messages (max charsPerToken 1)) ≤
          compactionMarkerBudgetChars + messageBudget := by
        rw [messagesChars_messages, messagesChars, counted]
        omega
      rw [capLast, if_neg]
      · refine iff_of_true ?_ ?_
        · dsimp only
          omega
        · rintro ⟨newest, hlast, hover, -⟩
          exact absurd (fits newest hlast) (not_le.mpr hover)
      · change ¬ budget.inputBudgetChars < (Option.map charCount (budget.compactSystem request.system)).getD 0 +
          messagesChars (selection.messages (max charsPerToken 1))
        omega
    | cut newest empties last long retained empty counted =>
      have hmessages : selection.messages (max charsPerToken 1) =
          ((selection.marker (max charsPerToken 1)).toList ++ empties) ++
            [compactMessage newest messageBudget] := by
        rw [Selection.messages, retained, List.append_assoc]
      have hfront : messagesChars ((selection.marker (max charsPerToken 1)).toList ++ empties) =
          selection.summaryChars (max charsPerToken 1) := by
        rw [messagesChars_append, messagesChars_of_empty empty]
        rfl
      have himages := h newest (List.mem_of_getLast? last)
      rw [capLast_cut_chars himages hmessages hshare hquery (hfront ▸ hsummary), hfront, ← not_lt, not_iff_not]
      constructor
      · exact fun hover => ⟨newest, last, long, hover⟩
      · rintro ⟨other, hlast, -, hover⟩
        obtain rfl : other = newest := Option.some.inj (hlast.symm.trans last)
        exact hover

end Requests

/-- The messages of a request without images take at most the input budget and sixty-four characters after
compaction, unless the line breaks of a message that is cut take more. -/
theorem messagesChars_compacted_iff (request : PromptRequest)
    (contextWindowTokens charsPerToken safetyMarginTokens : Nat)
    (h : ∀ message ∈ request.messages, message.WithoutImages) :
    messagesChars (compactProviderRequest request contextWindowTokens charsPerToken safetyMarginTokens).1.messages ≤
        (promptBudget request.maxTokens contextWindowTokens charsPerToken safetyMarginTokens).inputBudgetChars +
          64 ↔
      ¬ Overfills request contextWindowTokens charsPerToken safetyMarginTokens := by
  obtain ⟨hfloor, hmax⟩ := promptBudget_chars request.maxTokens contextWindowTokens charsPerToken
    safetyMarginTokens
  unfold compactProviderRequest Overfills
  dsimp only
  split_ifs with hshort
  · refine iff_of_true ?_ fun hover => absurd hover.1 (not_lt.mpr hshort)
    have htotal : requestCharCount request =
        (request.system.map charCount).getD 0 + messagesChars request.messages := rfl
    dsimp only
    omega
  · simp only [not_le.mp hshort, true_and]
    exact capLast_le_iff h hfloor hmax _

/-- A message of one word, repeated in parts of their own. -/
def repeatedWord (count : Nat) : ChatMessage :=
  { role := "user", content := .parts (List.replicate count (.text "hold")) }

def repeatedRequest (count : Nat) : PromptRequest :=
  { messages := [repeatedWord count], system := none, maxTokens := none }

theorem repeatedWord_withoutImages (count : Nat) :
    ∀ message ∈ (repeatedRequest count).messages, message.WithoutImages := by
  intro message hmessage parts hparts part hpart
  rw [List.mem_singleton.mp hmessage] at hparts
  cases hparts
  rw [List.eq_of_mem_replicate hpart]
  rfl

/-- In the smallest window it keeps all of its line breaks. -/
theorem cutOverfills_repeatedRequest {count : Nat} (h : 1000 ≤ count) :
    (promptBudget none 1024 1 256).inputBudgetChars < requestCharCount (repeatedRequest count) ∧
      CutOverfills (promptBudget none 1024 1 256) (repeatedRequest count) 1 := by
  have hbudget : (promptBudget none 1024 1 256).inputBudgetChars = 768 := by decide
  have hbreaks (message : ChatMessage) (hmessage : message ∈ (repeatedRequest count).messages) :
      message.separators = count - 1 := by
    rw [List.mem_singleton.mp hmessage]
    exact congrArg (· - 1) List.length_replicate
  have hcut (message : ChatMessage) (hmessage : message ∈ (repeatedRequest count).messages) (limit : Nat) :
      count - 1 ≤ message.cutChars limit :=
    (hbreaks message hmessage).ge.trans (Nat.le_add_left _ _)
  have hmem : repeatedWord count ∈ (repeatedRequest count).messages := List.mem_singleton_self _
  have hsize : count - 1 ≤ messageCharCount (repeatedWord count) := by
    rw [messageCharCount_eq (repeatedWord_withoutImages count _ hmem)]
    exact (hbreaks _ hmem).ge.trans (Nat.le_add_left _ _)
  have hcount : requestCharCount (repeatedRequest count) = 0 + (messageCharCount (repeatedWord count) + 0) := rfl
  refine ⟨by omega, ?_⟩
  unfold CutOverfills
  dsimp only
  split
  · next user hreturned =>
    unfold returnedUser at hreturned
    split_ifs at hreturned
    have huser := List.mem_reverse.mp (List.mem_of_find?_eq_some hreturned)
    have hless := hcut user huser minUserQueryChars
    omega
  · have hbudget' : (promptBudget none 1024 1 256).messageChars (repeatedRequest count).system = 256 := by
      change (promptBudget none 1024 1 256).messageChars none = 256
      decide
    have hless := hcut _ hmem (if eqIgnoreAsciiCase (repeatedWord count).role "user" then minUserQueryChars
      else (promptBudget none 1024 1 256).messageChars (repeatedRequest count).system)
    exact ⟨repeatedWord count, rfl, by omega, by omega⟩

theorem repeatedRequest_overfills {count : Nat} (h : 1000 ≤ count) :
    ¬ messagesChars (compactProviderRequest (repeatedRequest count) 1024 1 256).1.messages ≤
      (promptBudget (repeatedRequest count).maxTokens 1024 1 256).inputBudgetChars + 64 := by
  obtain ⟨hlong, hover⟩ := cutOverfills_repeatedRequest h
  obtain ⟨hfloor, hmax⟩ := promptBudget_chars none 1024 1 256
  have htokens : (repeatedRequest count).maxTokens = none := rfl
  unfold compactProviderRequest
  dsimp only
  rw [htokens, if_neg (not_le.mpr hlong), capLast_le_iff (repeatedWord_withoutImages count) hfloor hmax, not_not]
  exact hover

/-- A thousand parts are too many for it. -/
theorem many_parts_overfill :
    (∀ message ∈ (repeatedRequest 1000).messages, message.WithoutImages) ∧
      ¬ messagesChars (compactProviderRequest (repeatedRequest 1000) 1024 1 256).1.messages ≤
        (promptBudget (repeatedRequest 1000).maxTokens 1024 1 256).inputBudgetChars + 64 :=
  ⟨repeatedWord_withoutImages 1000, repeatedRequest_overfills (le_refl 1000)⟩

theorem messagesChars_compacted_iff_repeated :
    messagesChars (compactProviderRequest (repeatedRequest 2) 1024 1 256).1.messages ≤
        (promptBudget (repeatedRequest 2).maxTokens 1024 1 256).inputBudgetChars + 64 ↔
      ¬ Overfills (repeatedRequest 2) 1024 1 256 :=
  messagesChars_compacted_iff (repeatedRequest 2) 1024 1 256 (repeatedWord_withoutImages 2)

end Gail.Gateway
