import Gail.Gateway.ToolCalls

/-! The two encodings of a chat completion: one JSON body, or a stream of chunks that a client puts
together again. -/
namespace Gail.Gateway
open Gail.Library
open Gail.Trading (Json)

structure CostInfo (N : Type) where
  amount : N
  currency : String

structure TokenUsage (N : Type) where
  prompt : Option UInt32
  completion : Option UInt32
  total : Option UInt32
  cached : Option UInt32
  cost : Option (CostInfo N)

structure CompletionResponse (N : Type) where
  requestId : String
  text : String
  provider : String
  model : String
  latencyMs : Nat
  processingTimeEstimateMs : Option Nat
  usage : Option (TokenUsage N)
  /-- The trace, as it is serialized. -/
  trace : Option (Json N)

section Bodies
variable {N : Type} [NatCast N]

def openaiUsageBody : Option (TokenUsage N) → Json N
  | none =>
    .object [("prompt_tokens", .number (0 : Nat)), ("completion_tokens", .number (0 : Nat)),
      ("total_tokens", .number (0 : Nat))]
  | some usage =>
    let prompt := usage.prompt.getD 0
    let completion := usage.completion.getD 0
    .object <|
      [("prompt_tokens", .number prompt.toNat), ("completion_tokens", .number completion.toNat),
        ("total_tokens", .number (usage.total.getD (prompt + completion)).toNat)] ++
      (usage.cached.map fun cached =>
        ("prompt_tokens_details", .object [("cached_tokens", .number cached.toNat)])).toList ++
      (usage.cost.map fun cost =>
        ("cost", .object [("amount", .number cost.amount), ("currency", .string cost.currency)])).toList

def gailResponseBody (response : CompletionResponse N) : Json N :=
  .object <|
    [("provider", .string response.provider), ("resolved_model", .string response.model),
      ("request_id", .string response.requestId), ("latency_ms", .number response.latencyMs)] ++
    (response.processingTimeEstimateMs.map fun estimate =>
      ("processing_time_estimate_ms", .number estimate)).toList ++
    (response.trace.map fun trace => ("trace", trace)).toList

/-- The message of the body, with the reason that it ends for. -/
def assistantMessage (serde : SerdeJson N) (response : CompletionResponse N)
    (toolContext : Option OpenAIToolContext) : Json N × String :=
  match toolContext.bind (synthesizeOpenaiToolCall serde response.requestId response.text) with
  | some toolCall =>
    (.object [("role", .string "assistant"), ("content", .null), ("tool_calls", .array [toolCall])],
      "tool_calls")
  | none =>
    (.object [("role", .string "assistant"), ("content", .string response.text)], "stop")

def openaiChatCompletionBody (serde : SerdeJson N) (publicModel : String) (created : Nat)
    (response : CompletionResponse N) (toolContext : Option OpenAIToolContext) : Json N :=
  let (message, finishReason) := assistantMessage serde response toolContext
  .object
    [("id", .string ("chatcmpl_" ++ response.requestId)),
      ("object", .string "chat.completion"),
      ("created", .number created),
      ("model", .string publicModel),
      ("choices", .array [.object
        [("index", .number (0 : Nat)), ("message", message), ("finish_reason", .string finishReason)]]),
      ("usage", openaiUsageBody response.usage),
      ("gail", gailResponseBody response)]

end Bodies

/-! The stream. -/

/-- The loop of `chunk_text_for_streaming`, with the chunk that is being filled. -/
def fillChunks (chunkSize : Nat) (chunks : List (List Char)) (current : List Char) :
    List Char → List (List Char)
  | [] => if current.isEmpty then chunks else chunks ++ [current]
  | c :: text =>
    let current := current ++ [c]
    if chunkSize ≤ current.length then fillChunks chunkSize (chunks ++ [current]) [] text
    else fillChunks chunkSize chunks current text

def chunkTextForStreaming (text : String) (targetChars : Nat) : List String :=
  (fillChunks (max targetChars 1) [] [] text.toList).map String.ofList

/-- An event of the stream. -/
inductive Event (N : Type) where
  | data (payload : Json N)
  /-- The text `[DONE]`. -/
  | done

section Stream
variable {N : Type} [NatCast N]

/-- A chunk of the stream with its delta; only the last one has more members. -/
def completionChunk (response : CompletionResponse N) (publicModel : String) (created : Nat)
    (delta finishReason : Json N) (more : List (String × Json N)) : Event N :=
  .data <| .object <|
    [("id", .string ("chatcmpl_" ++ response.requestId)),
      ("object", .string "chat.completion.chunk"),
      ("created", .number created),
      ("model", .string publicModel),
      ("choices", .array [.object
        [("index", .number (0 : Nat)), ("delta", delta), ("finish_reason", finishReason)]])] ++ more

def openaiChatCompletionStream (publicModel : String) (created : Nat)
    (response : CompletionResponse N) : List (Event N) :=
  let chunk := completionChunk response publicModel created
  [chunk (.object [("role", .string "assistant")]) .null []] ++
    (chunkTextForStreaming response.text 56).map
      (fun text => chunk (.object [("content", .string text)]) .null []) ++
    [chunk (.object []) (.string "stop")
        [("usage", openaiUsageBody response.usage), ("gail", gailResponseBody response)],
      .done]

end Stream

/-! The handler. -/

/-- The members of a request that choose the encoding. -/
structure ChatCompletionRequest (N : Type) where
  stream : Option Bool
  tools : Option (Json N)

inductive ChatReply (E N : Type) where
  | stream (events : List (Event N))
  | body (payload : Json N)
  | error (error : E)

section Handler
variable {E N : Type} [NatCast N]

/-- The response that is encoded: that of the provider, normalised where the request lists no tools,
or the degraded one for an error upstream. -/
def respond (request : ChatCompletionRequest N) (normalizeResponseText : String → Option String)
    (degraded : E → Option (String × CompletionResponse N)) :
    Except E (String × CompletionResponse N) → Except E (String × CompletionResponse N)
  | .ok (publicModel, response) =>
    match OpenAIToolContext.fromTools request.tools, normalizeResponseText response.text with
    | none, some normalized => .ok (publicModel, { response with text := normalized })
    | _, _ => .ok (publicModel, response)
  | .error error =>
    match degraded error with
    | some fallback => .ok fallback
    | none => .error error

def openaiChatCompletions (serde : SerdeJson N) (request : ChatCompletionRequest N)
    (normalizeResponseText : String → Option String)
    (degraded : E → Option (String × CompletionResponse N)) (created : Nat)
    (dispatched : Except E (String × CompletionResponse N)) : ChatReply E N :=
  match respond request normalizeResponseText degraded dispatched with
  | .ok (publicModel, response) =>
    if request.stream.getD false then
      .stream (openaiChatCompletionStream publicModel created response)
    else
      .body (openaiChatCompletionBody serde publicModel created response
        (OpenAIToolContext.fromTools request.tools))
  | .error error => .error error

end Handler

/-! What a client makes of a reply. -/

/-- The message of the assistant; a content that is absent or null has no text. -/
structure AssistantMessage (N : Type) where
  content : String
  toolCalls : List (Json N)
  finishReason : Option String

section Client
variable {N : Type}

/-- The first of the choices. -/
def firstChoice (payload : Json N) : Option (Json N) :=
  ((member "choices" payload).bind asArray).bind (·.head?)

/-- The text of a message or a delta. -/
def contentOf (message : Json N) : String := ((member "content" message).bind asStr).getD ""

def toolCallsOf (message : Json N) : List (Json N) :=
  ((member "tool_calls" message).bind asArray).getD []

def finishReasonOf (choice : Json N) : Option String := (member "finish_reason" choice).bind asStr

/-- The message of a body. -/
def readBody (payload : Json N) : Option (AssistantMessage N) :=
  (firstChoice payload).map fun choice =>
    let message := (member "message" choice).getD .null
    { content := contentOf message
      toolCalls := toolCallsOf message
      finishReason := finishReasonOf choice }

namespace AssistantMessage

/-- A chunk adds its delta. -/
def receive (message : AssistantMessage N) : Event N → AssistantMessage N
  | .done => message
  | .data payload =>
    match firstChoice payload with
    | none => message
    | some choice =>
      let delta := (member "delta" choice).getD .null
      { content := message.content ++ contentOf delta
        toolCalls := message.toolCalls ++ toolCallsOf delta
        finishReason := (finishReasonOf choice).or message.finishReason }

/-- The message that the deltas of a stream add up to. -/
def accumulate (events : List (Event N)) : AssistantMessage N :=
  events.foldl receive { content := "", toolCalls := [], finishReason := none }

end AssistantMessage

/-- Two replies tell a client the same. -/
def SameMessage {E : Type} : ChatReply E N → ChatReply E N → Prop
  | .stream events, .body payload => readBody payload = some (AssistantMessage.accumulate events)
  | .error error, .error other => error = other
  | _, _ => False

end Client

/-! The results. -/

/-- The chunks put together are the text. -/
theorem fillChunks_flatten (chunkSize : Nat) (chunks : List (List Char)) (current text : List Char) :
    (fillChunks chunkSize chunks current text).flatten = chunks.flatten ++ current ++ text := by
  induction text generalizing chunks current with
  | nil =>
    rw [fillChunks]
    split
    · next he => rw [List.isEmpty_iff.mp he, List.append_nil, List.append_nil]
    · rw [List.flatten_append, List.flatten_singleton, List.append_nil]
  | cons c text ih =>
    rw [fillChunks]
    split
    · rw [ih, List.flatten_append, List.flatten_singleton, List.append_nil, List.append_assoc,
        List.append_assoc, List.append_assoc, List.singleton_append]
    · rw [ih, List.append_assoc, List.append_assoc, List.append_assoc, List.singleton_append]

theorem receive_done {N : Type} (message : AssistantMessage N) : message.receive .done = message := rfl

section Results
variable {E N : Type} [NatCast N] {response : CompletionResponse N} {publicModel : String} {created : Nat}

/-- A chunk has one choice, with its delta and its reason. -/
theorem receive_chunk (message : AssistantMessage N) (delta finishReason : Json N)
    (more : List (String × Json N)) :
    message.receive (completionChunk response publicModel created delta finishReason more) =
      { content := message.content ++ contentOf delta
        toolCalls := message.toolCalls ++ toolCallsOf delta
        finishReason := (asStr finishReason).or message.finishReason } := rfl

/-- A chunk of text adds it to the message, and nothing else. -/
theorem receive_text (message : AssistantMessage N) (text : String) :
    message.receive (completionChunk response publicModel created
        (.object [("content", .string text)]) .null []) =
      { message with content := message.content ++ text } := by
  rw [receive_chunk]
  have hcalls : toolCallsOf (.object [("content", .string text)] : Json N) = [] := rfl
  rw [hcalls, List.append_nil]
  rfl

theorem foldl_receive_texts (texts : List String) (message : AssistantMessage N) :
    (texts.map fun text => completionChunk response publicModel created
        (.object [("content", .string text)]) .null []).foldl AssistantMessage.receive message =
      { message with content := message.content ++ String.join texts } := by
  induction texts generalizing message with
  | nil => simp
  | cons text texts ih =>
    rw [List.map_cons, List.foldl_cons, receive_text, ih]
    simp [String.append_assoc]

/-- The stream always adds up to the text, without a tool call. -/
theorem accumulate_openaiChatCompletionStream :
    AssistantMessage.accumulate (openaiChatCompletionStream publicModel created response) =
      { content := response.text, toolCalls := [], finishReason := some "stop" } := by
  have hjoin : String.join (chunkTextForStreaming response.text 56) = response.text := by
    have hid : (fun chunk => (String.ofList chunk).toList) = id := funext fun _ => String.toList_ofList
    rw [← String.toList_inj, chunkTextForStreaming, String.toList_join, List.flatMap_map, hid,
      List.flatMap_id, fillChunks_flatten]
    rfl
  unfold AssistantMessage.accumulate openaiChatCompletionStream
  rw [List.foldl_append, List.foldl_append, foldl_receive_texts, hjoin]
  have hrole : contentOf (.object [("role", .string "assistant")] : Json N) = "" ∧
      toolCallsOf (.object [("role", .string "assistant")] : Json N) = [] := ⟨rfl, rfl⟩
  have hend : contentOf (.object [] : Json N) = "" ∧ toolCallsOf (.object [] : Json N) = [] :=
    ⟨rfl, rfl⟩
  simp only [List.foldl_cons, List.foldl_nil, receive_chunk, receive_done, hrole, hend,
    String.empty_append, String.append_empty, List.append_nil]
  rfl

/-- The body has the call, when one is read from the text, and else the text. -/
theorem readBody_openaiChatCompletionBody (serde : SerdeJson N) (toolContext : Option OpenAIToolContext) :
    readBody (openaiChatCompletionBody serde publicModel created response toolContext) =
      some (match toolContext.bind
          (synthesizeOpenaiToolCall serde response.requestId response.text) with
        | some toolCall => { content := "", toolCalls := [toolCall], finishReason := some "tool_calls" }
        | none => { content := response.text, toolCalls := [], finishReason := some "stop" }) := by
  unfold openaiChatCompletionBody assistantMessage
  cases toolContext.bind (synthesizeOpenaiToolCall serde response.requestId response.text) <;> rfl

/-- The two encodings of one response tell the same when no call is read from its text. -/
theorem readBody_eq_accumulate_iff (serde : SerdeJson N) (toolContext : Option OpenAIToolContext)
    (later : Nat) :
    readBody (openaiChatCompletionBody serde publicModel later response toolContext) =
        some (AssistantMessage.accumulate (openaiChatCompletionStream publicModel created response)) ↔
      ∀ context, toolContext = some context → ¬ CallsListedTool serde response.text context := by
  rw [readBody_openaiChatCompletionBody, accumulate_openaiChatCompletionStream]
  constructor
  · rintro hsame context rfl hcalls
    obtain ⟨toolCall, hcall⟩ :=
      Option.isSome_iff_exists.mp (synthesizeOpenaiToolCall_isSome_iff.mpr hcalls)
    rw [Option.bind_some, hcall] at hsame
    have htools := congrArg AssistantMessage.toolCalls (Option.some.inj hsame)
    exact List.cons_ne_nil _ _ htools
  · intro hfree
    cases toolContext with
    | none => rfl
    | some context =>
      have hnone : synthesizeOpenaiToolCall serde response.requestId response.text context = none := by
        rw [← Option.not_isSome_iff_eq_none, synthesizeOpenaiToolCall_isSome_iff]
        exact hfree context rfl
      rw [Option.bind_some, hnone]

/-- A streamed and a plain reply tell the same exactly when the text, as it is encoded, calls no tool
that the request lists. -/
theorem streamed_same_iff (serde : SerdeJson N) (request : ChatCompletionRequest N)
    (normalizeResponseText : String → Option String)
    (degraded : E → Option (String × CompletionResponse N)) (created later : Nat)
    (dispatched : Except E (String × CompletionResponse N)) :
    SameMessage
        (openaiChatCompletions serde { request with stream := some true } normalizeResponseText degraded
          created dispatched)
        (openaiChatCompletions serde { request with stream := some false } normalizeResponseText degraded
          later dispatched) ↔
      ∀ publicModel response context,
        respond request normalizeResponseText degraded dispatched = .ok (publicModel, response) →
        OpenAIToolContext.fromTools request.tools = some context →
        ¬ CallsListedTool serde response.text context := by
  unfold openaiChatCompletions
  have hrespond : ∀ flag, respond { request with stream := flag } normalizeResponseText degraded
      dispatched = respond request normalizeResponseText degraded dispatched := fun _ => rfl
  rw [hrespond (some true), hrespond (some false)]
  cases respond request normalizeResponseText degraded dispatched with
  | error error => exact iff_of_true rfl fun _ _ _ h => nomatch h
  | ok answer =>
    obtain ⟨publicModel, response⟩ := answer
    change readBody _ = some (AssistantMessage.accumulate _) ↔ _
    rw [readBody_eq_accumulate_iff]
    constructor
    · rintro hfree _ _ context ⟨⟩ hcontext
      exact hfree context hcontext
    · intro hfree context hcontext
      exact hfree publicModel response context rfl hcontext

end Results

/-- A request that lists one tool. -/
def searchRequest : ChatCompletionRequest Nat :=
  { stream := none
    tools := some (.array [.object
      [("function", .object [("name", .string "search")]), ("type", .string "function")]]) }

/-- An answer that calls it. -/
def searchResponse : CompletionResponse Nat :=
  { requestId := "r1"
    text := "[TOOL_CALL]\x7btool => \"search\"\x7d[/TOOL_CALL]"
    provider := "local"
    model := "m"
    latencyMs := 5
    processingTimeEstimateMs := none
    usage := none
    trace := none }

/-- What `serde_json` does with this text, which is not JSON, and with an empty object. -/
def searchSerde : SerdeJson Nat :=
  { fromStr := fun _ => none
    toString := fun _ => "{}" }

/-- The same answer calls a tool in the one encoding and is plain text in the other. -/
theorem streamed_call_is_text :
    ¬ SameMessage
        (openaiChatCompletions (E := String) searchSerde { searchRequest with stream := some true }
          (fun _ => none) (fun _ => none) 0 (.ok ("m", searchResponse)))
        (openaiChatCompletions searchSerde { searchRequest with stream := some false }
          (fun _ => none) (fun _ => none) 0 (.ok ("m", searchResponse))) := by
  have hcall : (synthesizeOpenaiToolCall searchSerde searchResponse.requestId searchResponse.text
      ⟨["search"]⟩).isSome = true := by decide +kernel
  have hcontext : OpenAIToolContext.fromTools searchRequest.tools = some ⟨["search"]⟩ := by
    decide +kernel
  intro hsame
  exact readBody_eq_accumulate_iff searchSerde _ 0 |>.mp hsame _ hcontext
    (synthesizeOpenaiToolCall_isSome_iff.mp hcall)

end Gail.Gateway
