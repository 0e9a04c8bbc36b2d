import Gail.Gateway.UserTurns
import Gail.Library.FilledList

/-! Whether a request that is cut down to its budget keeps the end of its conversation: the newest messages in their
order, and a report of the others. -/
namespace Gail.Gateway
open Gail.Library

section Definitions

/-- A message of the conversation, and no instructions. -/
def ChatMessage.isConversation (message : ChatMessage) : Bool := !eqIgnoreAsciiCase message.role "system"

/-- The newest message where it alone is too long. -/
def ChatMessage.cutTo (messageBudget : Nat) (message : ChatMessage) : ChatMessage :=
  if messageCharCount message ≤ messageBudget then message else compactMessage message messageBudget

/-- Of the messages, marked as kept or not, those that are kept are shown in their order behind the summary of the
others, the last one as it is or cut; none of the conversation that is not kept is newer than one that is; and the
report counts those that are not kept, and their characters. -/
structure Compacts (messages compacted : List ChatMessage) (report : PromptCompactionReport)
    (marks : List (ChatMessage × Bool)) : Prop where
  all : marks.map Prod.fst = messages
  shown : ∃ (summary : Option ChatMessage) (limits : List Nat),
    summary.isSome = decide (0 < report.omittedMessages) ∧
      compacted = summary.toList ++ (keptOf marks).modifyLast fun newest => limits.foldl compactMessage newest
  newest : KeepsLast ChatMessage.isConversation marks
  omittedMessages : report.omittedMessages = (droppedOf marks).length
  omittedChars : report.omittedChars = ((droppedOf marks).map messageCharCount).sum

/-- Compaction leaves the messages as they are, or keeps the end of the conversation. -/
def KeepsConversation (request : PromptRequest) (contextWindowTokens charsPerToken safetyMarginTokens : Nat) : Prop :=
  let (compacted, report) := compactProviderRequest request contextWindowTokens charsPerToken safetyMarginTokens
  match report with
  | none => compacted.messages = request.messages
  | some report => ∃ marks, Compacts request.messages compacted.messages report marks

/-- There is a user message with text, but the newest message shows none, and no other one has room. -/
def PutsUserBack (messageBudget : Nat) (messages : List ChatMessage) : Prop :=
  messages.any ChatMessage.isUserTurn = true ∧
    (∀ newest ∈ messages.getLast?, (newest.cutTo messageBudget).isUserTurn = false) ∧
    ∀ older user newer, messages = older ++ user :: newer → newer ≠ [] → user.isUserTurn = true →
      room messageCharCount messageBudget newer < messageCharCount user

/-- The request is too long, and a message of the conversation has no room where an older one has, or a user message
comes back behind newer ones. -/
def DisturbsConversation (request : PromptRequest) (contextWindowTokens charsPerToken safetyMarginTokens : Nat) :
    Prop :=
  let budget := promptBudget request.maxTokens contextWindowTokens charsPerToken safetyMarginTokens
  let messageBudget := budget.messageChars request.system
  budget.inputBudgetChars < requestCharCount request ∧
    (LeavesGap messageCharCount messageBudget ChatMessage.isConversation request.messages ∨
      PutsUserBack messageBudget request.messages)

end Definitions

section Selecting
variable {messageBudget : Nat} {message : ChatMessage} {messages newer : List ChatMessage} {selection : Selection}

theorem modifyLast_cons {α : Type} {f : α → α} {item : α} {items : List α} (h : items ≠ []) :
    (item :: items).modifyLast f = item :: items.modifyLast f :=
  List.modifyLast_append_of_right_ne_nil f [item] items h

theorem length_modifyLast {α : Type} (f : α → α) (items : List α) : (items.modifyLast f).length = items.length := by
  rcases List.eq_nil_or_concat items with rfl | ⟨init, last, rfl⟩
  · rfl
  · rw [List.concat_eq_append, List.modifyLast_concat, List.length_append, List.length_append]
    rfl

/-- The selection fills the budget from the newest message on, and cuts that one where it alone is too long. -/
structure Filled (messageBudget : Nat) (messages : List ChatMessage) (selection : Selection) : Prop where
  omitted : selection.omitted = (droppedOf (fill messageCharCount messageBudget messages)).reverse
  left : messageBudget - selection.retainedChars = room messageCharCount messageBudget messages
  within : selection.retainedChars ≤ messageBudget
  retained : selection.retained =
    (keptOf (fill messageCharCount messageBudget messages)).modifyLast (ChatMessage.cutTo messageBudget)

/-- The first message that is decided on is retained. -/
theorem Filled.newest (hpositive : 0 < messageBudget) (hmax : messageBudget ≤ u64Max)
    (h : Filled messageBudget [] selection) (message : ChatMessage) :
    Filled messageBudget [message] (selection.take messageBudget message) := by
  obtain ⟨homitted, hleft, hwithin, hretained⟩ := h
  have hnone : selection.retained = [] := hretained
  have hall : messageBudget - selection.retainedChars = messageBudget := hleft
  have hzero : selection.retainedChars = 0 := by omega
  have hcut : (keptOf (fill messageCharCount messageBudget [message])).modifyLast
      (ChatMessage.cutTo messageBudget) = [message.cutTo messageBudget] := rfl
  have hroom : room messageCharCount messageBudget [message] = messageBudget - messageCharCount message := rfl
  unfold Selection.take
  dsimp only
  rw [hall]
  split_ifs with hfits hlong
  · have hsum : saturatingAdd selection.retainedChars (messageCharCount message) = messageCharCount message := by
      rw [hzero, saturatingAdd, Nat.zero_add]
      exact min_eq_left (hfits.trans hmax)
    refine ⟨homitted, ?_, ?_, ?_⟩
    · rw [hroom]
      exact congrArg (messageBudget - ·) hsum
    · exact hsum.le.trans hfits
    · rw [hcut, ChatMessage.cutTo, if_pos hfits, hnone]
  · refine ⟨homitted, ?_, le_rfl, ?_⟩
    · rw [hroom, Nat.sub_self, Nat.sub_eq_zero_of_le (not_le.mp hfits).le]
    · rw [hcut, ChatMessage.cutTo, if_neg hfits]
  · exact absurd (Bool.and_eq_true_iff.mpr ⟨List.isEmpty_iff.mpr hnone, decide_eq_true hpositive⟩) hlong

/-- An older message is retained where it fits, and omitted otherwise. -/
theorem Filled.older (hmax : messageBudget ≤ u64Max) (h : Filled messageBudget newer selection) (hnewer : newer ≠ [])
    (message : ChatMessage) : Filled messageBudget (message :: newer) (selection.take messageBudget message) := by
  obtain ⟨homitted, hleft, hwithin, hretained⟩ := h
  have hkept := keptOf_fill_ne_nil messageCharCount messageBudget hnewer
  have hempty : newer.isEmpty = false := List.isEmpty_eq_false_iff.mpr hnewer
  have hroom : room messageCharCount messageBudget (message :: newer) =
      if messageCharCount message ≤ room messageCharCount messageBudget newer then
        room messageCharCount messageBudget newer - messageCharCount message
      else room messageCharCount messageBudget newer := by
    rw [room, hempty, if_neg Bool.false_ne_true]
  unfold Selection.take
  dsimp only
  rw [hleft]
  split_ifs with hfits hcut
  · have hsum : saturatingAdd selection.retainedChars (messageCharCount message) =
        selection.retainedChars + messageCharCount message := min_eq_left (by omega)
    have hmark : (newer.isEmpty || decide (messageCharCount message ≤ room messageCharCount messageBudget newer)) =
        true := by rw [decide_eq_true hfits, Bool.or_true]
    refine ⟨?_, ?_, ?_, ?_⟩
    · rw [fill, hmark, droppedOf_cons, if_pos rfl]
      exact homitted
    · dsimp only
      rw [hroom, if_pos hfits, hsum]
      omega
    · dsimp only
      omega
    · rw [fill, hmark, keptOf_cons, if_pos rfl, modifyLast_cons hkept]
      exact congrArg (message :: ·) hretained
  · obtain ⟨hnone, -⟩ := Bool.and_eq_true_iff.mp hcut
    have hlength := length_modifyLast (ChatMessage.cutTo messageBudget)
      (keptOf (fill messageCharCount messageBudget newer))
    rw [← hretained, List.isEmpty_iff.mp hnone] at hlength
    exact absurd (List.length_eq_zero_iff.mp hlength.symm) hkept
  · have hmark : (newer.isEmpty || decide (messageCharCount message ≤ room messageCharCount messageBudget newer)) =
        false := by rw [hempty, decide_eq_false hfits, Bool.or_false]
    refine ⟨?_, ?_, hwithin, ?_⟩
    · rw [fill, hmark, droppedOf_cons, if_neg Bool.false_ne_true, List.reverse_cons]
      exact congrArg (· ++ [message]) homitted
    · rw [hroom, if_neg hfits]
      exact hleft
    · rw [fill, hmark, keptOf_cons, if_neg Bool.false_ne_true]
      exact hretained

theorem selectMessages_filled (hpositive : 0 < messageBudget) (hmax : messageBudget ≤ u64Max)
    (messages : List ChatMessage) : Filled messageBudget messages (selectMessages messageBudget messages) := by
  induction messages with
  | nil => exact ⟨rfl, rfl, Nat.zero_le _, rfl⟩
  | cons message newer ih =>
    by_cases hnewest : newer = []
    · subst hnewest
      exact ih.newest hpositive hmax message
    · exact ih.older hmax hnewest message

/-- What holds behind every item, of the first one and of the others. -/
theorem forall_behind_cons {α : Type} {P : α → List α → Prop} {first : α} {rest : List α} :
    (∀ before item behind, first :: rest = before ++ item :: behind → P item behind) ↔
      P first rest ∧ ∀ before item behind, rest = before ++ item :: behind → P item behind := by
  constructor
  · exact fun h => ⟨h [] first rest rfl, fun before item behind hsplit =>
      h (first :: before) item behind (hsplit ▸ rfl)⟩
  · rintro ⟨hfirst, hrest⟩ before item behind hsplit
    cases before with
    | nil =>
      obtain ⟨rfl, rfl⟩ := List.cons.inj hsplit
      exact hfirst
    | cons other before =>
      obtain ⟨rfl, rfl⟩ := List.cons.inj hsplit
      exact hrest before item behind rfl

/-- No user message is retained. -/
theorem retained_any_isUserTurn (messageBudget : Nat) (messages : List ChatMessage) :
    ((keptOf (fill messageCharCount messageBudget messages)).modifyLast
        (ChatMessage.cutTo messageBudget)).any ChatMessage.isUserTurn = false ↔
      (∀ newest ∈ messages.getLast?, (newest.cutTo messageBudget).isUserTurn = false) ∧
        ∀ older user newer, messages = older ++ user :: newer → newer ≠ [] → user.isUserTurn = true →
          room messageCharCount messageBudget newer < messageCharCount user := by
  induction messages with
  | nil => exact iff_of_true rfl (by simp)
  | cons message newer ih =>
    rw [forall_behind_cons (P := fun user newer => newer ≠ [] → user.isUserTurn = true →
      room messageCharCount messageBudget newer < messageCharCount user)]
    by_cases hnewest : newer = []
    · subst hnewest
      change ((message.cutTo messageBudget).isUserTurn || false) = false ↔ _
      simp
    · have hkept := keptOf_fill_ne_nil messageCharCount messageBudget hnewest
      have hlast : (message :: newer).getLast? = newer.getLast? := by
        obtain ⟨next, newer, rfl⟩ := List.exists_cons_of_ne_nil hnewest
        exact List.getLast?_cons_cons
      rw [hlast, fill, List.isEmpty_eq_false_iff.mpr hnewest, Bool.false_or, keptOf_cons]
      by_cases hfits : messageCharCount message ≤ room messageCharCount messageBudget newer
      · rw [decide_eq_true hfits, if_pos rfl, modifyLast_cons hkept, List.any_cons, Bool.or_eq_false_iff, ih]
        have hnot : ¬ room messageCharCount messageBudget newer < messageCharCount message := not_lt.mpr hfits
        simp only [hnot, hnewest, ne_eq, not_false_eq_true, forall_const, imp_false, Bool.not_eq_true]
        tauto
      · rw [decide_eq_false hfits, if_neg Bool.false_ne_true, ih]
        simp only [not_le.mp hfits, implies_true, true_and]

end Selecting

section Results
variable {messageBudget charsPerToken : Nat} {messages : List ChatMessage} {selection : Selection}
  {budget : PromptBudget} {report : PromptCompactionReport}

theorem foldl_compactMessage_role (limits : List Nat) (message : ChatMessage) :
    (limits.foldl compactMessage message).role = message.role := by
  induction limits generalizing message with
  | nil => rfl
  | cons limit limits ih => rw [List.foldl_cons, ih, compactMessage_role]

theorem cutTo_eq_foldl (messageBudget : Nat) (message : ChatMessage) :
    ∃ limits : List Nat, message.cutTo messageBudget = limits.foldl compactMessage message := by
  unfold ChatMessage.cutTo
  split_ifs
  · exact ⟨[], rfl⟩
  · exact ⟨[messageBudget], rfl⟩

theorem capLast_messages (budget : PromptBudget) (request : PromptRequest) :
    ∃ limits : List Nat, (capLast budget request).messages =
      request.messages.modifyLast fun last => limits.foldl compactMessage last := by
  unfold capLast
  dsimp only
  rcases List.eq_nil_or_concat request.messages with hnil | ⟨front, last, hlast⟩
  · exact ⟨[], by split_ifs <;> simp only [hnil] <;> rfl⟩
  · rw [List.concat_eq_append] at hlast
    split_ifs
    · exact ⟨[_], by simp only [hlast, List.modifyLast_concat]; rfl⟩
    · exact ⟨[], by rw [hlast, List.modifyLast_concat]; rfl⟩

theorem capLast_length (budget : PromptBudget) (request : PromptRequest) :
    (capLast budget request).messages.length = request.messages.length := by
  obtain ⟨limits, hlimits⟩ := capLast_messages budget request
  rw [hlimits, length_modifyLast]

theorem length_toList {α : Type} {item : Option α} {present : Bool} (h : item.isSome = present) :
    item.toList.length = if present then 1 else 0 := by
  subst h
  cases item <;> rfl

theorem marker_isSome (selection : Selection) (charsPerToken : Nat) :
    (selection.marker charsPerToken).isSome = decide (0 < selection.omitted.length) := by
  unfold Selection.marker
  cases selection.omitted with
  | nil => rfl
  | cons message omitted => simp

/-- A user message is put back behind what has been selected, or that is left as it is. -/
theorem Filled.keepUserTurn_eq (h : Filled messageBudget messages selection) (charsPerToken : Nat) :
    (PutsUserBack messageBudget messages →
        ∃ user, keepUserTurn messageBudget (newestUserMessage messages) (selection.messages charsPerToken) =
          selection.messages charsPerToken ++ [user]) ∧
      (¬ PutsUserBack messageBudget messages →
        keepUserTurn messageBudget (newestUserMessage messages) (selection.messages charsPerToken) =
          selection.messages charsPerToken) := by
  have hany := retained_any_isUserTurn messageBudget messages
  rw [← h.retained, ← messages_any_isUserTurn selection charsPerToken] at hany
  unfold keepUserTurn PutsUserBack
  constructor
  · rintro ⟨huser, hnone⟩
    obtain ⟨user, hnewest, -⟩ := exists_newestUserMessage huser
    rw [hany.mpr hnone, hnewest, if_neg Bool.false_ne_true]
    exact ⟨_, rfl⟩
  · intro hstays
    split_ifs with hretained
    · rfl
    · have hnone : newestUserMessage messages = none := by
        refine List.find?_eq_none.mpr fun message hmessage huser => hstays ⟨?_, hany.mp ?_⟩
        · exact List.any_eq_true.mpr ⟨message, List.mem_reverse.mp hmessage, huser⟩
        · exact Bool.eq_false_iff.mpr hretained
      rw [hnone]
      exact List.append_nil _

/-- What has been selected is shown behind its summary, the newest message as it is or cut. -/
theorem Filled.shown (h : Filled messageBudget messages selection) (budget : PromptBudget) (charsPerToken : Nat)
    (system : Option String) (maxTokens : Option Nat) :
    ∃ limits : List Nat,
      (capLast budget { messages := selection.messages charsPerToken, system, maxTokens }).messages =
        (selection.marker charsPerToken).toList ++ (keptOf (fill messageCharCount messageBudget messages)).modifyLast
          fun newest => limits.foldl compactMessage newest := by
  obtain ⟨limits, hlimits⟩ :=
    capLast_messages budget { messages := selection.messages charsPerToken, system, maxTokens }
  rw [hlimits, Selection.messages, h.retained]
  by_cases hnone : messages = []
  · subst hnone
    have hmarker : selection.marker charsPerToken = none := by
      rw [Selection.marker, h.omitted]
      rfl
    rw [hmarker]
    exact ⟨[], rfl⟩
  · obtain ⟨front, newest, hnewest⟩ :=
      (List.eq_nil_or_concat _).resolve_left (keptOf_fill_ne_nil messageCharCount messageBudget hnone)
    obtain ⟨first, hfirst⟩ := cutTo_eq_foldl messageBudget newest
    refine ⟨first ++ limits, ?_⟩
    rw [hnewest, List.concat_eq_append, List.modifyLast_concat, List.modifyLast_concat, ← List.append_assoc,
      List.modifyLast_concat, hfirst, List.foldl_append, List.append_assoc]

/-- What is shown tells which messages of the conversation have been kept. -/
theorem filter_keptOf_of_shown {marks : List (ChatMessage × Bool)} (hall : marks.map Prod.fst = messages)
    (hlast : KeepsLast ChatMessage.isConversation marks) (hsome : messages ≠ []) {first second : List Nat}
    (hshown : (keptOf (fill messageCharCount messageBudget messages)).modifyLast
        (fun newest => first.foldl compactMessage newest) =
      (keptOf marks).modifyLast fun newest => second.foldl compactMessage newest) :
    (keptOf marks).filter ChatMessage.isConversation =
      (keptOf (fill messageCharCount messageBudget messages)).filter ChatMessage.isConversation := by
  have hsize := congrArg List.length hshown
  rw [length_modifyLast, length_modifyLast] at hsize
  have hfilled := keptOf_fill_ne_nil messageCharCount messageBudget hsome
  have hmarks : keptOf marks ≠ [] := fun hnone => hfilled (List.length_eq_zero_iff.mp (by rw [hsize, hnone]; rfl))
  obtain ⟨front, newest, hnewest⟩ := (List.eq_nil_or_concat _).resolve_left hfilled
  obtain ⟨others, last, hothers⟩ := (List.eq_nil_or_concat _).resolve_left hmarks
  rw [List.concat_eq_append] at hnewest hothers
  have hfinal : messages.getLast? = some newest := by
    rw [← getLast?_keptOf_fill messageCharCount messageBudget messages, hnewest,
      List.getLast?_concat]
  rw [hnewest, hothers, List.modifyLast_concat, List.modifyLast_concat] at hshown
  obtain ⟨rfl, hcut⟩ := List.append_inj' hshown rfl
  have hrole : newest.role = last.role := by
    rw [← foldl_compactMessage_role first newest, List.singleton_inj.mp hcut, foldl_compactMessage_role]
  have hconversation : last.isConversation = newest.isConversation := by
    unfold ChatMessage.isConversation
    rw [hrole]
  rw [hnewest, hothers, List.filter_append, List.filter_append]
  cases hcounts : newest.isConversation with
  | false =>
    have hnot : ¬ newest.isConversation = true := Bool.eq_false_iff.mp hcounts
    rw [List.filter_cons_of_neg hnot, List.filter_cons_of_neg (hconversation ▸ hnot)]
  | true =>
    have hlastkept : (keptOf marks).getLast? = some last := by rw [hothers, List.getLast?_concat]
    rw [getLast?_keptOf hlast (hall ▸ hfinal) hcounts hlastkept (hconversation.trans hcounts)]

/-- What is made of a selection keeps the end of the conversation unless there is a gap or a message too many. -/
theorem Filled.compacts_iff (h : Filled messageBudget messages selection) (charsPerToken : Nat) (system : Option String)
    (maxTokens : Option Nat) (homitted : report.omittedMessages = selection.omitted.length)
    (homittedChars : report.omittedChars = selection.omittedChars) :
    (∃ marks, Compacts messages
        (capLast budget
          { messages := keepUserTurn messageBudget (newestUserMessage messages) (selection.messages charsPerToken)
            system
            maxTokens }).messages report marks) ↔
      ¬ (LeavesGap messageCharCount messageBudget ChatMessage.isConversation messages ∨
        PutsUserBack messageBudget messages) := by
  obtain ⟨hback, hstays⟩ := h.keepUserTurn_eq charsPerToken
  have hdropped : report.omittedMessages = (droppedOf (fill messageCharCount messageBudget messages)).length := by
    rw [homitted, h.omitted, List.length_reverse]
  have hmarker : (selection.marker charsPerToken).isSome = decide (0 < report.omittedMessages) := by
    rw [marker_isSome, homitted]
  by_cases hputs : PutsUserBack messageBudget messages
  · -- There is one message more than the report leaves.
    refine iff_of_false ?_ fun h => h (.inr hputs)
    rintro ⟨marks, hall, ⟨summary, limits, hsummary, hshown⟩, -, hcounted, -⟩
    obtain ⟨user, huser⟩ := hback hputs
    have hlength := congrArg List.length hshown
    rw [capLast_length, huser, List.length_append, List.length_append, length_modifyLast, Selection.messages,
      List.length_append, h.retained, length_modifyLast, length_toList hmarker, length_toList hsummary,
      List.length_singleton] at hlength
    have hmarks := length_keptOf_add marks
    have hfill := length_keptOf_add (fill messageCharCount messageBudget messages)
    have hsame := congrArg List.length hall
    have hsame' := congrArg List.length (fill_fst messageCharCount messageBudget messages)
    rw [List.length_map] at hsame hsame'
    omega
  · simp only [hputs, or_false]
    rw [hstays hputs, ← keepsLast_fill_iff]
    obtain ⟨first, hfirst⟩ := h.shown budget charsPerToken system maxTokens
    rw [hfirst]
    constructor
    · rintro ⟨marks, hall, ⟨summary, second, hsummary, hshown⟩, hlast, -, -⟩
      by_cases hsome : messages = []
      · rw [hsome]
        exact .nil
      have hlength : (selection.marker charsPerToken).toList.length = summary.toList.length := by
        rw [length_toList hmarker, length_toList hsummary]
      exact keepsLast_fill_of_kept hall hlast
        (filter_keptOf_of_shown hall hlast hsome (List.append_inj hshown hlength).2)
    · intro hlast
      refine ⟨_, fill_fst _ _ _, ⟨_, first, hmarker, rfl⟩, hlast, hdropped, ?_⟩
      rw [homittedChars, Selection.omittedChars, h.omitted, List.map_reverse, List.sum_reverse]

theorem keepsConversation_iff_of_long {request : PromptRequest} {contextWindowTokens charsPerToken
    safetyMarginTokens : Nat}
    (hlong : (promptBudget request.maxTokens contextWindowTokens charsPerToken safetyMarginTokens).inputBudgetChars <
      requestCharCount request) :
    KeepsConversation request contextWindowTokens charsPerToken safetyMarginTokens ↔
      ¬ DisturbsConversation request contextWindowTokens charsPerToken safetyMarginTokens := by
  obtain ⟨hfloor, hmax⟩ := promptBudget_chars request.maxTokens contextWindowTokens charsPerToken
    safetyMarginTokens
  unfold KeepsConversation DisturbsConversation compactProviderRequest
  dsimp only
  generalize promptBudget request.maxTokens contextWindowTokens charsPerToken safetyMarginTokens = budget
    at hfloor hmax hlong ⊢
  obtain ⟨hshare, hquery⟩ := messageChars_share budget hfloor request.system
  have hfilled := selectMessages_filled (Nat.lt_of_lt_of_le (by decide) hquery) (by omega) request.messages
  rw [if_neg (not_le.mpr hlong)]
  simp only [hlong, true_and]
  exact hfilled.compacts_iff (max charsPerToken 1) _ _ rfl rfl

/-- Compaction keeps the end of the conversation unless it disturbs it. -/
theorem compactProviderRequest_keepsConversation_iff (request : PromptRequest)
    (contextWindowTokens charsPerToken safetyMarginTokens : Nat) :
    KeepsConversation request contextWindowTokens charsPerToken safetyMarginTokens ↔
      ¬ DisturbsConversation request contextWindowTokens charsPerToken safetyMarginTokens := by
  by_cases hlong : (promptBudget request.maxTokens contextWindowTokens charsPerToken
      safetyMarginTokens).inputBudgetChars < requestCharCount request
  · exact keepsConversation_iff_of_long hlong
  · refine iff_of_true ?_ fun hdisturbs => hlong hdisturbs.1
    unfold KeepsConversation compactProviderRequest
    dsimp only
    rw [if_pos (not_lt.mp hlong)]

def question (text : String) : ChatMessage := { role := "user", content := .text text }

def longAnswer : ChatMessage :=
  { role := "assistant", content := .text (String.ofList (List.replicate 1000 'x')) }

/-- An answer between two short questions. -/
def answeredRequest (answer : ChatMessage) : PromptRequest :=
  { messages := [question "Hold?", answer, question "Sell?"], system := none, maxTokens := none }

theorem longAnswer_chars : messageCharCount longAnswer = 1000 := by
  change (String.ofList (List.replicate 1000 'x')).toList.length = 1000
  rw [String.toList_ofList, List.length_replicate]

theorem answeredRequest_budget (answer : ChatMessage) :
    (promptBudget (answeredRequest answer).maxTokens 1024 1 256).inputBudgetChars = 768 ∧
      (promptBudget (answeredRequest answer).maxTokens 1024 1 256).messageChars (answeredRequest answer).system =
        256 := by
  change (promptBudget none 1024 1 256).inputBudgetChars = 768 ∧ (promptBudget none 1024 1 256).messageChars none = 256
  decide

/-- An answer that is too long leaves a gap. -/
theorem answeredRequest_gap {answer : ChatMessage} (hrole : answer.isConversation = true)
    (h : 768 < messageCharCount answer) : ¬ KeepsConversation (answeredRequest answer) 1024 1 256 := by
  obtain ⟨hbudget, hmessages⟩ := answeredRequest_budget answer
  have hroom : room messageCharCount 256 [question "Sell?"] = 251 := rfl
  have hlong : (promptBudget (answeredRequest answer).maxTokens 1024 1 256).inputBudgetChars <
      requestCharCount (answeredRequest answer) := by
    rw [hbudget, requestCharCount, answeredRequest, List.map_cons, List.map_cons, List.sum_cons, List.sum_cons]
    omega
  rw [keepsConversation_iff_of_long hlong, not_not]
  refine ⟨hlong, .inl ?_⟩
  rw [hmessages]
  change LeavesGap messageCharCount 256 _ (question "Hold?" :: [] ++ answer :: [question "Sell?"])
  refine .here (by decide) hrole ?_ (List.cons_ne_nil _ _) ?_
  · rw [List.nil_append, room, hroom, if_neg (by decide), if_neg (by omega)]
    decide
  · rw [hroom]
    omega

/-- The answer has no room, and the first question has. -/
theorem answer_leaves_gap : ¬ KeepsConversation (answeredRequest longAnswer) 1024 1 256 :=
  answeredRequest_gap (by decide) (by rw [longAnswer_chars]; decide)

end Results

end Gail.Gateway
