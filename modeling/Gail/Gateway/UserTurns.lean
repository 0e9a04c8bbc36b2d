import Gail.Gateway.PromptBudget

/-! Whether a request that is cut down to its budget still has a user message with some text. -/
namespace Gail.Gateway
open Gail.Library

section Definitions

/-- White space that uses up the characters that are left: the text parts before one of them are white space,
and so is what is left of that part, which is cut to thirty characters or less, without a mark. -/
structure HidesAt (limit : Nat) (before : List ContentPart) (value : String) : Prop where
  blank : ∀ part ∈ before, Blank part.flattenedText
  fits : textChars before ≤ limit
  near : limit ≤ textChars before + (charCount omissionMarker + 2)
  beyond : limit < textChars before + charCount value
  shown : ∀ c ∈ value.toList.take (limit - textChars before), isWhitespace c = true

/-- In a cut to so many characters, nothing but white space is left of the parts; a later image has a blank
address. -/
def Hides (limit : Nat) (parts : List ContentPart) : Prop :=
  ∃ before value after, parts = before ++ .text value :: after ∧ HidesAt limit before value ∧
    ∀ url, .imageUrl url ∈ after → Blank url

/-- The text of a message in parts comes after white space that a cut to so many characters ends in. -/
def ChatMessage.HidesText (limit : Nat) (message : ChatMessage) : Prop :=
  ∃ parts, message.content = .parts parts ∧ Hides limit parts

/-- A request that is too long loses what its users say: the message that is cut to the shortest query hides
its text. That is the newest user message, when the selection retains none; or the newest message of all, cut
to the budget already, when the request is too long even so. -/
def LosesUserTurn (request : PromptRequest) (contextWindowTokens charsPerToken safetyMarginTokens : Nat) :
    Prop :=
  let budget := promptBudget request.maxTokens contextWindowTokens charsPerToken safetyMarginTokens
  let messageBudget := budget.messageChars request.system
  let selection := selectMessages messageBudget request.messages
  budget.inputBudgetChars < requestCharCount request ∧
    (selection.retained.any ChatMessage.isUserTurn = false ∧
        (∃ user ∈ newestUserMessage request.messages, user.HidesText minUserQueryChars) ∨
      ∃ newest ∈ request.messages.getLast?, messageBudget < messageCharCount newest ∧
        (compactMessage newest messageBudget).isUserTurn = true ∧
        budget.inputBudgetChars < requestCharCount
          { request with
            messages := selection.messages (max charsPerToken 1)
            system := budget.compactSystem request.system } ∧
        (compactMessage newest messageBudget).HidesText minUserQueryChars)

end Definitions

section Blanks
variable {parts : List ContentPart} {message : ChatMessage} {limit : Nat}

theorem forall_mem_intercalate {α : Type} {p : α → Prop} {sep : List α} (hsep : ∀ a ∈ sep, p a)
    (lists : List (List α)) :
    (∀ a ∈ sep.intercalate lists, p a) ↔ ∀ list ∈ lists, ∀ a ∈ list, p a := by
  induction lists with
  | nil => simp
  | cons list lists ih =>
    match lists, ih with
    | [], _ => simp
    | next :: lists, ih =>
      rw [List.intercalate_cons_cons, List.forall_mem_append, List.forall_mem_append, ih,
        List.forall_mem_cons (l := next :: lists)]
      exact ⟨fun h => ⟨h.1.1, h.2⟩, fun h => ⟨⟨h.1, hsep⟩, h.2⟩⟩

theorem blank_parts_iff (parts : List ContentPart) :
    Blank (MessageContent.parts parts).flattenedText ↔ ∀ part ∈ parts, Blank part.flattenedText := by
  have hsep : ∀ c ∈ ("\n" : String).toList, isWhitespace c = true := by
    intro c hc
    have hbreak : ("\n" : String).toList = ['\n'] := rfl
    rw [hbreak, List.mem_singleton] at hc
    rw [hc]
    decide
  unfold Blank MessageContent.flattenedText
  rw [String.toList_intercalate, forall_mem_intercalate hsep]
  simp only [List.forall_mem_map]

theorem isUserTurn_iff :
    message.isUserTurn = true ↔
      eqIgnoreAsciiCase message.role "user" = true ∧ ¬ Blank message.flattenedText := by
  unfold ChatMessage.isUserTurn Blank
  rw [Bool.and_eq_true_iff, Bool.not_eq_true', ← Bool.not_eq_true, trim_isEmpty_iff]

/-- What is left of parts when no characters are left. -/
theorem blank_compactParts_zero (parts : List ContentPart) :
    (∀ part ∈ compactParts parts 0, Blank part.flattenedText) ↔ ∀ url, .imageUrl url ∈ parts → Blank url := by
  induction parts with
  | nil => simp [compactParts]
  | cons part parts ih =>
    cases part with
    | text value =>
      have hnone : Blank (truncateMiddle value 0) := by
        rw [blank_truncateMiddle_iff]
        by_cases hfits : charCount value ≤ 0
        · refine .inl ⟨hfits, fun c hc => ?_⟩
          rw [List.length_eq_zero_iff.mp (Nat.le_zero.mp hfits)] at hc
          cases hc
        · refine .inr ⟨not_le.mp hfits, Nat.zero_le _, fun c hc => ?_⟩
          rw [List.take_zero] at hc
          cases hc
      rw [compactParts, List.forall_mem_cons, Nat.zero_sub, ih]
      simp only [ContentPart.flattenedText, hnone, true_and, List.mem_cons, reduceCtorEq, false_or]
    | imageUrl url =>
      rw [compactParts, List.forall_mem_cons, ih]
      simp only [ContentPart.flattenedText, List.mem_cons, ContentPart.imageUrl.injEq]
      exact ⟨fun h other ho => ho.elim (fun he => he ▸ h.1) (h.2 other),
        fun h => ⟨h url (.inl rfl), fun other ho => h other (.inr ho)⟩⟩

/-- A part that fits is passed over. -/
theorem hides_cons_iff {part : ContentPart} (h : part.textChars ≤ limit) :
    Hides limit (part :: parts) ↔
      Blank part.flattenedText ∧ Hides (limit - part.textChars) parts := by
  constructor
  · rintro ⟨before, value, after, hsplit, hat, hafter⟩
    cases before with
    | nil =>
      obtain ⟨rfl, -⟩ := List.cons.inj hsplit
      have hbeyond : limit < 0 + charCount value := hat.beyond
      rw [ContentPart.textChars] at h
      omega
    | cons first before =>
      obtain ⟨rfl, rfl⟩ := List.cons.inj hsplit
      obtain ⟨hblank, hrest⟩ := List.forall_mem_cons.mp hat.blank
      obtain ⟨-, hfits, hnear, hbeyond, hshown⟩ := hat
      rw [textChars_cons] at hfits hnear hbeyond hshown
      refine ⟨hblank, before, value, after, rfl, ⟨hrest, ?_, ?_, ?_, ?_⟩, hafter⟩
      · omega
      · omega
      · omega
      · rwa [Nat.sub_sub]
  · rintro ⟨hblank, before, value, after, rfl, ⟨hrest, hfits, hnear, hbeyond, hshown⟩, hafter⟩
    refine ⟨part :: before, value, after, rfl, ⟨?_, ?_, ?_, ?_, ?_⟩, hafter⟩
    · exact List.forall_mem_cons.mpr ⟨hblank, hrest⟩
    · rw [textChars_cons]
      omega
    · rw [textChars_cons]
      omega
    · rw [textChars_cons]
      omega
    · rwa [textChars_cons, ← Nat.sub_sub]

/-- A text that does not fit hides what comes after it, when it is cut short without a mark and blank. -/
theorem hides_cons_of_lt {value : String} (h : limit < charCount value) :
    Hides limit (.text value :: parts) ↔
      (limit ≤ charCount omissionMarker + 2 ∧ ∀ c ∈ value.toList.take limit, isWhitespace c = true) ∧
        ∀ url, .imageUrl url ∈ parts → Blank url := by
  constructor
  · rintro ⟨before, other, after, hsplit, hat, hafter⟩
    cases before with
    | nil =>
      obtain ⟨hsame, rfl⟩ := List.cons.inj hsplit
      obtain rfl := ContentPart.text.inj hsame
      obtain ⟨-, -, hnear, -, hshown⟩ := hat
      have hzero : textChars [] = 0 := rfl
      rw [hzero, Nat.zero_add] at hnear
      exact ⟨⟨hnear, hshown⟩, hafter⟩
    | cons first before =>
      obtain ⟨rfl, rfl⟩ := List.cons.inj hsplit
      have hfits := hat.fits
      rw [textChars_cons, ContentPart.textChars] at hfits
      omega
  · rintro ⟨⟨hnear, hshown⟩, hafter⟩
    refine ⟨[], value, parts, rfl, ⟨fun part hpart => (by cases hpart), Nat.zero_le _, ?_, ?_, hshown⟩, hafter⟩
    · exact hnear.trans (Nat.le_add_left _ _)
    · exact h.trans_le (Nat.le_add_left _ _)

/-- What is left of the parts is blank when they were and fit, or when their text is hidden. -/
theorem blank_compactParts_iff :
    (∀ part ∈ compactParts parts limit, Blank part.flattenedText) ↔
      textChars parts ≤ limit ∧ (∀ part ∈ parts, Blank part.flattenedText) ∨ Hides limit parts := by
  induction parts generalizing limit with
  | nil =>
    refine iff_of_true (fun part hpart => by cases hpart) (.inl ⟨Nat.zero_le _, fun part hpart => ?_⟩)
    cases hpart
  | cons part parts ih =>
    have hpass : part.textChars ≤ limit →
        ((Blank part.flattenedText ∧
            ∀ other ∈ compactParts parts (limit - part.textChars), Blank other.flattenedText) ↔
          textChars (part :: parts) ≤ limit ∧ (∀ other ∈ part :: parts, Blank other.flattenedText) ∨
            Hides limit (part :: parts)) := by
      intro hfits
      rw [ih, hides_cons_iff hfits, List.forall_mem_cons, textChars_cons]
      have hsum : textChars parts ≤ limit - part.textChars ↔ part.textChars + textChars parts ≤ limit := by
        omega
      rw [hsum]
      tauto
    cases part with
    | imageUrl url => exact List.forall_mem_cons.trans (hpass (Nat.zero_le _))
    | text value =>
      by_cases hfits : charCount value ≤ limit
      · rw [compactParts, truncateMiddle_of_le hfits]
        exact List.forall_mem_cons.trans (hpass hfits)
      · have hlt : limit < charCount value := not_le.mp hfits
        have hnone : limit - charCount (truncateMiddle value limit) = 0 := by
          rw [charCount_truncateMiddle]
          omega
        have hlong : ¬ textChars (.text value :: parts) ≤ limit := by
          rw [textChars_cons, ContentPart.textChars]
          omega
        rw [compactParts, hnone, List.forall_mem_cons, blank_compactParts_zero, hides_cons_of_lt hlt]
        simp only [ContentPart.flattenedText, blank_truncateMiddle_iff, hfits, hlong, hlt, false_and,
          true_and, false_or]

/-- A user message with text is still one when it is cut, unless its text is hidden. -/
theorem isUserTurn_compactMessage_iff (h : message.isUserTurn = true)
    (hlimit : charCount omissionMarker + 2 < limit) :
    (compactMessage message limit).isUserTurn = true ↔ ¬ message.HidesText limit := by
  obtain ⟨hrole, htext⟩ := isUserTurn_iff.mp h
  rw [isUserTurn_iff, compactMessage_role]
  simp only [hrole, true_and]
  refine not_congr ?_
  obtain ⟨role, content⟩ := message
  cases content with
  | text value =>
    have hleft : ¬ Blank (truncateMiddle value limit) := by
      rw [blank_truncateMiddle_iff]
      rintro (⟨-, hblank⟩ | ⟨-, hshort, -⟩)
      · exact htext hblank
      · omega
    refine iff_of_false hleft ?_
    rintro ⟨parts, hcontent, -⟩
    cases hcontent
  | parts parts =>
    have hall : ¬ ∀ part ∈ parts, Blank part.flattenedText := fun hall =>
      htext ((blank_parts_iff parts).mpr hall)
    have hleft : Blank (compactMessage { role, content := .parts parts } limit).flattenedText ↔
        ∀ part ∈ compactParts parts limit, Blank part.flattenedText := blank_parts_iff _
    rw [hleft, blank_compactParts_iff]
    simp only [hall, and_false, false_or]
    constructor
    · exact fun hhides => ⟨parts, rfl, hhides⟩
    · rintro ⟨other, hcontent, hhides⟩
      exact MessageContent.parts.inj hcontent ▸ hhides

end Blanks

section Requests
variable {request : PromptRequest} {budget : PromptBudget} {selection : Selection} {message user : ChatMessage}
  {messages : List ChatMessage} {charsPerToken messageBudget : Nat}

theorem not_isUserTurn_of_empty (h : messageCharCount message = 0) : message.isUserTurn = false := by
  rw [Bool.eq_false_iff, ne_eq, isUserTurn_iff, not_and_not_right]
  intro _ c hc
  rw [List.length_eq_zero_iff.mp h] at hc
  cases hc

theorem any_isUserTurn_of_empty {empties : List ChatMessage}
    (h : ∀ other ∈ empties, messageCharCount other = 0) : empties.any ChatMessage.isUserTurn = false := by
  rw [List.any_eq_false]
  intro other hother
  rw [not_isUserTurn_of_empty (h other hother)]
  exact Bool.false_ne_true

/-- The summary of what is omitted is no user message. -/
theorem messages_any_isUserTurn (selection : Selection) (charsPerToken : Nat) :
    (selection.messages charsPerToken).any ChatMessage.isUserTurn =
      selection.retained.any ChatMessage.isUserTurn := by
  have hmarker : (selection.marker charsPerToken).toList.any ChatMessage.isUserTurn = false := by
    unfold Selection.marker
    split_ifs
    · rfl
    · have hrole : eqIgnoreAsciiCase "system" "user" = false := by decide
      rw [Option.toList_some, List.any_cons, List.any_nil, Bool.or_false, ChatMessage.isUserTurn,
        Bool.and_eq_false_iff]
      exact .inl hrole
  unfold Selection.messages
  rw [List.any_append, hmarker, Bool.false_or]

/-- The summary takes no more than is set aside for it. -/
theorem messages_chars_le (selection : Selection) (charsPerToken : Nat) :
    ((selection.messages charsPerToken).map messageCharCount).sum ≤
      compactionMarkerBudgetChars + (selection.retained.map messageCharCount).sum := by
  have hmarker : ((selection.marker charsPerToken).toList.map messageCharCount).sum ≤
      compactionMarkerBudgetChars := by
    unfold Selection.marker
    split_ifs
    · exact Nat.zero_le _
    · have hchars := charCount_truncateMiddle
        (compactionSummary selection.omitted selection.omittedChars charsPerToken) compactionMarkerBudgetChars
      rw [Option.toList_some, List.map_singleton, List.sum_singleton]
      exact hchars.le.trans (min_le_right _ _)
  unfold Selection.messages
  rw [List.map_append, List.sum_append]
  exact Nat.add_le_add_right hmarker _

theorem exists_newestUserMessage (h : messages.any ChatMessage.isUserTurn = true) :
    ∃ user, newestUserMessage messages = some user ∧ user.isUserTurn = true := by
  have hsome : (messages.reverse.find? ChatMessage.isUserTurn).isSome := by
    rw [List.find?_isSome]
    obtain ⟨message, hmessage, huser⟩ := List.any_eq_true.mp h
    exact ⟨message, List.mem_reverse.mpr hmessage, huser⟩
  obtain ⟨user, huser⟩ := Option.isSome_iff_exists.mp hsome
  exact ⟨user, huser, List.find?_some huser⟩

/-- A last message of a user is cut to the shortest query, in a request that is too long. -/
theorem capLast_concat (huser : eqIgnoreAsciiCase user.role "user" = true)
    (hlast : request.messages = messages ++ [user]) :
    (capLast budget request).messages =
      if budget.inputBudgetChars < requestCharCount request then
        messages ++ [compactMessage user minUserQueryChars]
      else messages ++ [user] := by
  unfold capLast
  dsimp only
  split_ifs
  · simp only [hlast, List.modifyLast_concat, huser, if_true]
  · exact hlast

/-- When no user message is retained, the newest one is put last, and cut but once. -/
theorem capLast_returned (hnone : messages.any ChatMessage.isUserTurn = false)
    (hrequest : request.messages = keepUserTurn messageBudget (some user) messages)
    (huser : user.isUserTurn = true) :
    (capLast budget request).messages.any ChatMessage.isUserTurn = true ↔ ¬ user.HidesText minUserQueryChars := by
  have hlimit : min minUserQueryChars (max messageBudget minUserQueryChars) = minUserQueryChars :=
    min_eq_left (le_max_right _ _)
  have hlast : request.messages = messages ++ [compactMessage user minUserQueryChars] := by
    rw [hrequest, keepUserTurn, hnone, if_neg Bool.false_ne_true, hlimit]
    rfl
  have hrole : eqIgnoreAsciiCase (compactMessage user minUserQueryChars).role "user" = true := by
    rw [compactMessage_role]
    exact (isUserTurn_iff.mp huser).1
  rw [capLast_concat hrole hlast, compactMessage_compactMessage, ite_self, List.any_append, hnone,
    Bool.false_or, List.any_cons, List.any_nil, Bool.or_false]
  exact isUserTurn_compactMessage_iff huser (by decide)

/-- When the newest message has been cut to the budget and is a user's, it is the one that is left. -/
theorem capLast_cut {empties : List ChatMessage} {newest : ChatMessage}
    (hempty : ∀ other ∈ empties, messageCharCount other = 0)
    (hretained : selection.retained = empties ++ [newest]) (hnewest : newest.isUserTurn = true)
    (hmessages : request.messages = selection.messages charsPerToken) :
    (capLast budget request).messages.any ChatMessage.isUserTurn = true ↔
      ¬ (budget.inputBudgetChars < requestCharCount request ∧ newest.HidesText minUserQueryChars) := by
  have hlast : request.messages = ((selection.marker charsPerToken).toList ++ empties) ++ [newest] := by
    rw [hmessages, Selection.messages, hretained, List.append_assoc]
  have hrest : ((selection.marker charsPerToken).toList ++ empties).any ChatMessage.isUserTurn = false := by
    have hsame := messages_any_isUserTurn { selection with retained := empties } charsPerToken
    exact hsame.trans (any_isUserTurn_of_empty hempty)
  rw [capLast_concat (isUserTurn_iff.mp hnewest).1 hlast]
  split_ifs with hlong
  · rw [List.any_append, hrest, Bool.false_or, List.any_cons, List.any_nil, Bool.or_false,
      isUserTurn_compactMessage_iff hnewest (by decide)]
    simp only [hlong, true_and]
  · refine iff_of_true ?_ fun h => hlong h.1
    rw [List.any_append, List.any_cons, hnewest, Bool.true_or, Bool.or_true]

/-- A request of at least one user message with text has one still after it has been cut down to its budget,
unless the message that it comes down to hides its text. -/
theorem compactProviderRequest_isUserTurn_iff (request : PromptRequest)
    (contextWindowTokens charsPerToken safetyMarginTokens : Nat)
    (h : request.messages.any ChatMessage.isUserTurn = true) :
    (compactProviderRequest request contextWindowTokens charsPerToken
        safetyMarginTokens).1.messages.any ChatMessage.isUserTurn = true ↔
      ¬ LosesUserTurn request contextWindowTokens charsPerToken safetyMarginTokens := by
  obtain ⟨hfloor, hmax⟩ := promptBudget_chars request.maxTokens contextWindowTokens charsPerToken
    safetyMarginTokens
  obtain ⟨user, hnewest, huser⟩ := exists_newestUserMessage h
  unfold compactProviderRequest LosesUserTurn
  dsimp only
  generalize promptBudget request.maxTokens contextWindowTokens charsPerToken safetyMarginTokens = budget
    at hfloor hmax ⊢
  obtain ⟨hshare, hquery⟩ := messageChars_share budget hfloor request.system
  generalize budget.messageChars request.system = messageBudget at hshare hquery ⊢
  have hselected : Selected messageBudget request.messages (selectMessages messageBudget request.messages) :=
    selectMessages_selected (Nat.lt_of_lt_of_le (by decide) hquery) (by omega) request.messages
  generalize selectMessages messageBudget request.messages = selection at hselected ⊢
  split_ifs with hshort
  · exact iff_of_true h fun hloses => absurd hloses.1 (not_lt.mpr hshort)
  · have hlong := not_le.mp hshort
    cases hretained : selection.retained.any ChatMessage.isUserTurn with
    | false =>
      have hmessages := (messages_any_isUserTurn selection (max charsPerToken 1)).trans hretained
      -- Were the newest message cut to the budget and a user's, it would have been retained.
      have hcut : ∀ newest ∈ request.messages.getLast?, messageBudget < messageCharCount newest →
          (compactMessage newest messageBudget).isUserTurn = false := by
        intro newest hlast hover
        cases hselected with
        | whole counted within none fits => exact absurd (fits newest hlast) (not_le.mpr hover)
        | cut other empties last long retained empty counted =>
          obtain rfl : newest = other := Option.some.inj (hlast.symm.trans last)
          rw [retained, List.any_append, Bool.or_eq_false_iff, List.any_cons, Bool.or_eq_false_iff] at hretained
          exact hretained.2.1
      rw [hnewest, capLast_returned hmessages rfl huser, not_iff_not]
      constructor
      · exact fun hhides => ⟨hlong, .inl ⟨rfl, user, rfl, hhides⟩⟩
      · rintro ⟨-, ⟨-, other, hother, hhides⟩ | ⟨newest, hlast, hover, hturn, -⟩⟩
        · exact Option.some.inj hother ▸ hhides
        · rw [hcut newest hlast hover] at hturn
          cases hturn
    | true =>
      have hkept := (messages_any_isUserTurn selection (max charsPerToken 1)).trans hretained
      simp only [keepUserTurn, hkept, if_true]
      cases hselected with
      | whole counted within none fits =>
        -- What has been retained whole fits.
        have hchars := messages_chars_le selection (max charsPerToken 1)
        have hfits : ∀ maxTokens, requestCharCount
            { messages := selection.messages (max charsPerToken 1)
              system := budget.compactSystem request.system
              maxTokens } ≤ budget.inputBudgetChars := by
          intro maxTokens
          unfold requestCharCount
          dsimp only
          omega
        rw [capLast, if_neg (not_lt.mpr (hfits _))]
        refine iff_of_true hkept ?_
        rintro ⟨-, ⟨hnone, -⟩ | ⟨newest, hlast, hover, -⟩⟩
        · cases hnone
        · exact absurd (fits newest hlast) (not_le.mpr hover)
      | cut newest empties last long retained empty counted =>
        have hturn : (compactMessage newest messageBudget).isUserTurn = true := by
          rw [retained, List.any_append, any_isUserTurn_of_empty empty, Bool.false_or, List.any_cons,
            List.any_nil, Bool.or_false] at hretained
          exact hretained
        rw [capLast_cut empty retained hturn rfl, not_iff_not]
        constructor
        · exact fun ⟨hover, hhides⟩ => ⟨hlong, .inr ⟨newest, last, long, hturn, hover, hhides⟩⟩
        · rintro ⟨-, ⟨hnone, -⟩ | ⟨other, hlast, -, -, hover, hhides⟩⟩
          · cases hnone
          · obtain rfl : other = newest := Option.some.inj (hlast.symm.trans last)
            exact ⟨hover, hhides⟩

end Requests

/-- A user message and twenty answers, that do not fit together in the smallest budget. -/
def watchedTask (content : MessageContent) : PromptRequest :=
  { messages := { role := "user", content } ::
      List.replicate 20 { role := "assistant", content := .text "The position is being watched, no change" }
    system := none
    maxTokens := none }

/-- A task that comes after sixty-four spaces in a part of their own is lost: the message comes back as
spaces alone. -/
theorem spaces_hide_task :
    (watchedTask (.parts [.text (String.ofList (List.replicate 64 ' ')),
      .text "Sell half of the position."])).messages.any ChatMessage.isUserTurn = true ∧
    (compactProviderRequest (watchedTask (.parts [.text (String.ofList (List.replicate 64 ' ')),
      .text "Sell half of the position."])) 1024 1 256).1.messages.any ChatMessage.isUserTurn = false := by
  set user : ChatMessage := ⟨"user", .parts [.text (String.ofList (List.replicate 64 ' ')),
    .text "Sell half of the position."]⟩ with huser
  set request := watchedTask (.parts [.text (String.ofList (List.replicate 64 ' ')),
    .text "Sell half of the position."]) with hrequest
  set budget := promptBudget request.maxTokens 1024 1 256 with hbudget
  have hturn : user.isUserTurn = true := by decide +kernel
  have hnewest : newestUserMessage request.messages = some user := by decide +kernel
  have hlong : ¬ requestCharCount request ≤ budget.inputBudgetChars := by decide +kernel
  have hretained : (selectMessages (budget.messageChars request.system) request.messages).retained.any
      ChatMessage.isUserTurn = false := by decide +kernel
  have hnone := (messages_any_isUserTurn (selectMessages (budget.messageChars request.system) request.messages)
    (max 1 1)).trans hretained
  have hhides : user.HidesText minUserQueryChars := by
    have hspaces : textChars [.text (String.ofList (List.replicate 64 ' '))] = minUserQueryChars := by
      rw [textChars_cons, ContentPart.textChars, charCount, String.toList_ofList, List.length_replicate]
      rfl
    refine ⟨_, rfl, [.text (String.ofList (List.replicate 64 ' '))], "Sell half of the position.", [], rfl,
      ⟨?_, hspaces.le, ?_, ?_, ?_⟩, fun url hurl => absurd hurl List.not_mem_nil⟩
    · intro part hpart c hc
      rw [List.mem_singleton.mp hpart, ContentPart.flattenedText, String.toList_ofList] at hc
      rw [List.eq_of_mem_replicate hc]
      decide
    · rw [hspaces]
      exact Nat.le_add_right _ _
    · rw [hspaces]
      decide
    · rw [hspaces, Nat.sub_self, List.take_zero]
      exact fun c hc => absurd hc List.not_mem_nil
  refine ⟨List.any_eq_true.mpr ⟨user, List.mem_cons_self, hturn⟩, ?_⟩
  unfold compactProviderRequest
  dsimp only
  rw [← hbudget, if_neg hlong, Bool.eq_false_iff, hnewest]
  generalize selectMessages (budget.messageChars request.system) request.messages = selection at hnone ⊢
  generalize budget.messageChars request.system = messageBudget
  exact fun hleft => (capLast_returned hnone rfl hturn).mp hleft hhides

/-- For the same task as a plain text. -/
theorem compactProviderRequest_isUserTurn_iff_plain :
    (compactProviderRequest (watchedTask (.text "Sell half of the position.")) 1024 1
        256).1.messages.any ChatMessage.isUserTurn = true ↔
      ¬ LosesUserTurn (watchedTask (.text "Sell half of the position.")) 1024 1 256 :=
  compactProviderRequest_isUserTurn_iff (watchedTask (.text "Sell half of the position.")) 1024 1 256
    (by decide +kernel)

end Gail.Gateway
