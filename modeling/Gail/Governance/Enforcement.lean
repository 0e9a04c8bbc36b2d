import Gail.Governance.Completion

/-! The middleware that governs whole HTTP exchanges, whose handlers are marked so that their own calls are not checked
again, and the endpoint with which Aria has content assessed. With enforcement, no completion reaches anyone and no
provider is called unless Aria has passed the phases of that very exchange, wherever the service was called from. -/
namespace Gail.Governance
open Gail.Library
section Middleware
variable {Request ProviderRequest Outside Completion : Type}
  (service : GailService Request ProviderRequest Outside Completion)

def validToken (headers : Headers) (expected : String) : Bool :=
  match (headers.get? "authorization").bind fun value =>
      (value.toList.dropPrefix? "Bearer ".toList).map String.ofList with
  | some token => service.sha256 token = service.sha256 expected
  | none => false

/-- The first configured token that the headers carry and that has the scope. -/
def matchingToken (headers : Headers) (requiredScope : String) : Option ApiTokenConfig := do
  let header ← headers.get? "authorization"
  let token := trim (String.ofList (← header.toList.dropPrefix? "Bearer ".toList))
  if token.isEmpty then none
  else service.apiTokens.find? fun config => config.token = token ∧
    (config.scopes.isEmpty ∨ config.scopes.any fun scope =>
      scope = "*" ∨ eqIgnoreAsciiCase scope requiredScope)

def authorize (headers : Headers) (requiredScope : String) : Except GailError (Option String) :=
  match matchingToken service headers requiredScope with
  | some config => .ok (some config.clientId)
  | none => .error .unauthorized

/-- The only endpoint whose completion is not checked, with its own credential. Its timeout cuts the
completion short, as a caller that goes away does. -/
def assess (scope : Scope) (request : HttpRequest) {Error : Type} :
    Task Request ProviderRequest Outside Completion Error Response := do
  let reject status code := service.rejectionResponse { status, code }
  match service.assessmentInput request with
  | .error response => return response
  | .ok input =>
    if service.config.assessmentToken = "" ∨
        validToken service request.headers service.config.assessmentToken = false then
      return reject 401 "assessment_authentication_required"
    else if (input.phase ≠ "request" ∧ input.phase ≠ "response") ∨
        input.content.utf8ByteSize > 1048576 then
      return reject 400 "invalid_assessment"
    else if ← await .trySlot then
      match service.assessmentCall input with
      | none => return reject 500 "assessment_configuration_error"
      | some call =>
        match ← deliver service { scope with assessment := true } (.complete call) with
        | .error _ => return reject 503 "assessment_unavailable"
        | .ok completion =>
          if service.isDegraded completion then return reject 503 "assessment_degraded"
          else match service.classification completion with
            | none => return reject 502 "invalid_assessment_output"
            | some response => return response
    else return reject 429 "assessment_capacity_exhausted"

def assessPath : String := "/v1/internal/aria/assess"

/-- The rest of the router. -/
def next (scope : Scope) (request : HttpRequest) {Error : Type} :
    Task Request ProviderRequest Outside Completion Error Response :=
  if request.path = assessPath then assess service scope request
  else (service.route request).run service scope

def scopeForPath (path : String) : Option String :=
  if path ∈ ["/v1/chat/completions", "/v1/responses", "/v1/llm/complete",
      "/v1/llm/direct-complete", "/v1/llm/transcribe", "/v1/audio/transcriptions"] then some "llm"
  else if path ∈ ["/v1/neuromorphic/analyze", "/v1/neuromorphic/predict"] then some "neuromorphic"
  else if path ∈ ["/v1/aer/encode", "/v1/aer/decode"] then some "aer"
  else if path ∈ ["/v1/trading/evaluate", "/dashboard/trading/api/pause",
      "/dashboard/trading/api/resume", "/dashboard/trading/api/evaluate"] then some "trading"
  else none

/-- The status that a governed response shows. -/
def combined (requestStatus responseStatus : AriaStatus) : AriaStatus :=
  if requestStatus = .unavailable ∨ responseStatus = .unavailable then .unavailable
  else if requestStatus = .wouldBlock ∨ responseStatus = .wouldBlock then .wouldBlock
  else .checked

def Headers.insert (headers : Headers) (name value : String) : Headers :=
  (headers.filter fun header => header.1 ≠ name) ++ [(name, value)]

/-- The governed part of an HTTP exchange, with nothing let out before both checks. -/
def exchange (request : HttpRequest) (clientId : Option String) :
    Task Request ProviderRequest Outside Completion Response Response := do
  let reject status code := service.rejectionResponse { status, code }
  if ← await .trySlot then
    let requestId ← await .newRequestId
    let source := clientId.getD "unknown"
    match request.body.read service.config.maxBodyBytes with
    | none => throw (reject 413 "governance_body_limit")
    | some bytes =>
      let requestStatus ← (evaluation service (inspection service requestId "request" source
        request.path bytes ((request.headers.get? "content-type").getD "") true)).adapt
          service.rejectionResponse
      let response ← next service { httpGoverned := true } { request with body := .ofBytes bytes }
      match response.body.read service.config.maxBodyBytes with
      | none => throw (reject 502 "governance_response_limit")
      | some bytes =>
        let responseStatus ← (evaluation service (inspection service requestId "response" source
          request.path bytes ((response.headers.get? "content-type").getD "") false)).adapt
            service.rejectionResponse
        let headers := (response.headers.insert "x-aria-status"
          (combined requestStatus responseStatus).text).insert "x-aria-request-id"
            (Uuid.text requestId)
        return { response with headers, body := .ofBytes bytes }
  else throw (reject 429 "governance_capacity_exhausted")

/-- The middleware around every route. -/
def guard (request : HttpRequest) :
    Task Request ProviderRequest Outside Completion Response Response :=
  if request.path = assessPath ∧ (service.config.assessmentToken = "" ∨
      validToken service request.headers service.config.assessmentToken = false) then
    throw (service.rejectionResponse { status := 401, code := "assessment_authentication_required" })
  else match scopeForPath request.path with
  | none => next service {} request
  | some scope =>
    if service.config.mode = .disabled then next service {} request
    else match authorize service request.headers scope with
    | .error error => throw (service.errorResponse error)
    | .ok clientId => exchange service request clientId

/-- What the process runs: an HTTP request, or a user of the service within it. -/
inductive Job (Request ProviderRequest Outside Completion : Type) where
  | http (request : HttpRequest)
  | internal (user : Handler Request ProviderRequest Outside Completion)

def Job.run : Job Request ProviderRequest Outside Completion →
    Interaction (Query Request ProviderRequest Completion) (Query.Answer Outside) Unit
  | .http request => do
    let reply ← (guard service request).run
    Interaction.query (.replied reply : Query Request ProviderRequest Completion)
  | .internal user => do
    let _ ← (user.run service {} : Task Request ProviderRequest Outside Completion Empty _).run

end Middleware

section Enforced
open Interaction
variable {Request ProviderRequest Outside Completion : Type}

abbrev Event (Request ProviderRequest Outside Completion : Type) :=
  Answered (Query Request ProviderRequest Completion) (Query.Answer Outside)

section Law
variable (service : GailService Request ProviderRequest Outside Completion)

/-- Aria was asked about these bytes as a phase of the request, and permitted it. -/
def Passed (during : List (Event Request ProviderRequest Outside Completion)) (id : Uuid)
    (phase : String) (bytes : Bytes) : Prop :=
  ∃ source route contentType redact reply,
    ⟨.evaluate (inspection service id phase source route bytes contentType redact), reply⟩ ∈ during ∧
      Permits service.parseVerdict id phase reply

/-- In the exchange that was opened last, these phases of its request have passed. -/
def Cleared (history : List (Event Request ProviderRequest Outside Completion)) (id : Uuid)
    (phases : List (String × Bytes)) : Prop :=
  ∃ before during, history = before ++ ⟨.newRequestId, id⟩ :: during ∧
    (∀ event ∈ during, event.1 ≠ .newRequestId) ∧
    ∀ phase ∈ phases, Passed service during id phase.1 phase.2

/-- An HTTP request to a route that governance covers. -/
def Job.Governed : Job Request ProviderRequest Outside Completion → Prop
  | .http request => (scopeForPath request.path).isSome
  | .internal _ => False

/-- The body of the HTTP request that the task is about. -/
def Job.body (limit : Nat) : Job Request ProviderRequest Outside Completion → Option Bytes
  | .http request => request.body.read limit
  | .internal _ => none

/-- What may happen in a task, by what has happened in it. Outside an assessment a provider is called
only after the request has passed; a completion reaches a user only after the request and the
completion have passed, unless that user is the handler of a governed route; and no such route answers
with anything that has not passed. -/
def Permitted (job : Job Request ProviderRequest Outside Completion)
    (before : List (Event Request ProviderRequest Outside Completion)) :
    Event Request ProviderRequest Outside Completion → Prop
  | ⟨.callProvider scope, _⟩ => scope.assessment = true ∨
      ∃ id input, Cleared service before id [("request", input)]
  | ⟨.completed scope request completion, _⟩ => scope.assessment = true ∨
      scope.httpGoverned = true ∧ job.Governed ∨
      ∃ id input output, service.callValue request = .ok input ∧
        service.completionBytes completion = .ok output ∧
        Cleared service before id [("response", output), ("request", input)]
  | ⟨.replied (.ok response), _⟩ => job.Governed →
      ∃ id input output, job.body service.config.maxBodyBytes = some input ∧
        response.body = .ofBytes output ∧
        Cleared service before id [("response", output), ("request", input)]
  | _ => True

end Law

section Cleared
variable {service : GailService Request ProviderRequest Outside Completion}
  {history : List (Event Request ProviderRequest Outside Completion)} {id : Uuid}
  {phases : List (String × Bytes)}

theorem cleared_new : Cleared service (history ++ [⟨.newRequestId, id⟩]) id [] :=
  ⟨history, [], rfl, by simp, by simp⟩

theorem Passed.snoc {during : List (Event Request ProviderRequest Outside Completion)}
    {phase : String} {bytes : Bytes} (h : Passed service during id phase bytes)
    (event : Event Request ProviderRequest Outside Completion) :
    Passed service (during ++ [event]) id phase bytes := by
  obtain ⟨source, route, contentType, redact, reply, hm, hp⟩ := h
  exact ⟨source, route, contentType, redact, reply, List.mem_append_left _ hm, hp⟩

/-- An exchange stays as it is until another one is opened. -/
theorem Cleared.snoc (h : Cleared service history id phases)
    {event : Event Request ProviderRequest Outside Completion} (he : event.1 ≠ .newRequestId) :
    Cleared service (history ++ [event]) id phases := by
  obtain ⟨before, during, rfl, hnone, hpassed⟩ := h
  refine ⟨before, during ++ [event], by simp, ?_, fun phase hm => (hpassed phase hm).snoc event⟩
  intro other hm
  rcases List.mem_append.mp hm with hm | hm
  · exact hnone other hm
  · rw [List.mem_singleton.mp hm]
    exact he

/-- A permitted phase is added to those that have passed. -/
theorem Cleared.evaluated (h : Cleared service history id phases) {phase source route : String}
    {bytes : Bytes} {contentType : String} {redact : Bool} {reply : AriaReply}
    (hp : Permits service.parseVerdict id phase reply) :
    Cleared service (history ++ [⟨.evaluate (inspection service id phase source route bytes
      contentType redact), reply⟩]) id ((phase, bytes) :: phases) := by
  obtain ⟨before, during, rfl, hnone, hpassed⟩ := h
  refine ⟨before, during ++ [⟨.evaluate (inspection service id phase source route bytes
    contentType redact), reply⟩], by simp, ?_, ?_⟩
  · intro event hm
    rcases List.mem_append.mp hm with hm | hm
    · exact hnone event hm
    · rw [List.mem_singleton.mp hm]
      exact nofun
  · intro other hm
    rcases List.mem_cons.mp hm with rfl | hm
    · exact ⟨source, route, contentType, redact, reply, by simp, hp⟩
    · exact (hpassed other hm).snoc _

end Cleared

section Enforced
variable {service : GailService Request ProviderRequest Outside Completion}
  {job : Job Request ProviderRequest Outside Completion}
  {history : List (Event Request ProviderRequest Outside Completion)} {id : Uuid}
  {phases : List (String × Bytes)}

theorem ensures_await {α Error : Type} {question : Query Request ProviderRequest Completion}
    {f : question.Answer Outside → Task Request ProviderRequest Outside Completion Error α}
    {post : α → List (Event Request ProviderRequest Outside Completion) → Prop}
    (h : ∀ answer, Permitted service job history ⟨question, answer⟩ ∧
      Ensures (Permitted service job) post (f answer) (history ++ [⟨question, answer⟩])) :
    Ensures (Permitted service job) post (await question >>= f) history :=
  Ensures.bind (ensures_lift h)

/-- One phase, put to Aria within an exchange. -/
theorem evaluation_ensures (he : service.config.mode = .enforce)
    (hf : service.config.failOpen = false) (h : Cleared service history id phases)
    (phase source route : String) (bytes : Bytes) (contentType : String) (redact : Bool) :
    Ensures (Permitted service job)
      (fun _ after => Cleared service after id ((phase, bytes) :: phases))
      (evaluation service (inspection service id phase source route bytes contentType redact))
      history := by
  refine ensures_await fun reply => ⟨trivial, ?_⟩
  exact ensures_result fun status hc => h.evaluated (check_permits he hf hc)

end Enforced

section Within

/-- A question of an operation that runs in the given scope. -/
def Query.Provides (scope : Scope) : Query Request ProviderRequest Completion → Prop
  | .callProvider inner => inner = scope
  | .wait => True
  | _ => False

/-- A question of a handler in the given scope whose calls are not checked. -/
def Query.Within (scope : Scope) : Query Request ProviderRequest Completion → Prop
  | .callProvider inner | .completed inner _ _ => inner = scope
  | .trySlot | .wait => True
  | _ => False

theorem Query.Provides.within {scope : Scope} {question : Query Request ProviderRequest Completion}
    (h : question.Provides scope) : question.Within scope := by
  cases question <;> first | exact h | exact trivial | exact h.elim

theorem Operation.run_provides {scope : Scope} (operation : Operation Outside Completion) :
    Confined (Query.Provides scope) (operation.run scope :
      Task Request ProviderRequest Outside Completion GailError Completion) := by
  induction operation with
  | finish result => exact confined_result
  | callProvider next ih => exact Confined.bind (confined_lift ⟨rfl, fun _ => trivial⟩) ih
  | wait next ih => exact Confined.bind (confined_lift ⟨trivial, fun _ => trivial⟩) ih

variable {service : GailService Request ProviderRequest Outside Completion} {scope : Scope}

/-- In a marked scope the service checks nothing itself. -/
theorem governedCall_within (h : checksCompletion service scope = false)
    (request : Call Request ProviderRequest) :
    Confined (Query.Within scope) (governedCall service scope request) := by
  rw [governedCall, if_pos h]
  exact (service.unguarded request).run_provides.imp fun _ => Query.Provides.within

theorem deliver_within (h : checksCompletion service scope = false)
    (request : Call Request ProviderRequest) {Error : Type} :
    Confined (Query.Within scope) (deliver service scope request :
      Task Request ProviderRequest Outside Completion Error _) := by
  rw [deliver, entryPoint_eq]
  refine Confined.bind (confined_lift (governedCall_within h request)) fun result => ?_
  cases result with
  | error error => exact confined_pure
  | ok completion => exact Confined.bind (confined_lift ⟨rfl, fun _ => trivial⟩) fun _ => trivial

theorem Handler.run_within (h : checksCompletion service scope = false) {Error : Type}
    (handler : Handler Request ProviderRequest Outside Completion) :
    Confined (Query.Within scope) (handler.run service scope :
      Task Request ProviderRequest Outside Completion Error Response) := by
  induction handler with
  | respond response => exact confined_pure
  | call request next ih => exact Confined.bind (deliver_within h request) ih
  | wait next ih => exact Confined.bind (confined_lift ⟨trivial, fun _ => trivial⟩) ih

/-- An assessment only asks what an assessment may. -/
theorem assess_within (request : HttpRequest) {Error : Type} :
    Confined (Query.Within { assessment := true }) (assess service {} request :
      Task Request ProviderRequest Outside Completion Error Response) := by
  have hmarked : checksCompletion service { assessment := true } = false := by
    simp [checksCompletion]
  rw [assess]
  cases service.assessmentInput request with
  | error response => exact confined_pure
  | ok input =>
    dsimp only
    split_ifs
    · exact confined_pure
    · exact confined_pure
    · refine Confined.bind (confined_lift ⟨trivial, fun _ => trivial⟩) fun free => ?_
      cases free with
      | false => exact confined_pure
      | true =>
        cases service.assessmentCall input with
        | none => exact confined_pure
        | some call =>
          refine Confined.bind (deliver_within hmarked (.complete call)) fun result => ?_
          cases result with
          | error error => exact confined_pure
          | ok completion =>
            dsimp only
            split
            · exact confined_pure
            · cases service.classification completion <;> exact confined_pure

end Within

section Enforced
variable {service : GailService Request ProviderRequest Outside Completion}
  {job : Job Request ProviderRequest Outside Completion}
  {history : List (Event Request ProviderRequest Outside Completion)}
  {id : Uuid} {input : Bytes}

/-- What an operation asks keeps the exchange it runs in, and is permitted once the request passed. -/
theorem provides_keeps {scope : Scope} (hc : Cleared service history id [("request", input)])
    {question : Query Request ProviderRequest Completion} (hq : question.Provides scope)
    (answer : question.Answer Outside) :
    Permitted service job history ⟨question, answer⟩ ∧
      Cleared service (history ++ [⟨question, answer⟩]) id [("request", input)] := by
  have hnew : question ≠ .newRequestId := by
    rintro rfl
    exact hq
  refine ⟨?_, hc.snoc hnew⟩
  cases question <;> first | exact .inr ⟨id, input, hc⟩ | exact trivial | exact hq.elim

/-- So does what the handler of a governed route asks. -/
theorem within_keeps {scope : Scope} (hscope : scope.httpGoverned = true) (hj : job.Governed)
    (hc : Cleared service history id [("request", input)])
    {question : Query Request ProviderRequest Completion} (hq : question.Within scope)
    (answer : question.Answer Outside) :
    Permitted service job history ⟨question, answer⟩ ∧
      Cleared service (history ++ [⟨question, answer⟩]) id [("request", input)] := by
  have hnew : question ≠ .newRequestId := by
    rintro rfl
    exact hq
  refine ⟨?_, hc.snoc hnew⟩
  cases question with
  | callProvider inner => exact .inr ⟨id, input, hc⟩
  | completed inner request completion =>
    obtain rfl : inner = scope := hq
    exact .inr (.inl ⟨hscope, hj⟩)
  | _ => first | exact trivial | exact hq.elim

theorem Cleared.operation {scope : Scope} (hc : Cleared service history id [("request", input)])
    (operation : Operation Outside Completion) :
    Ensures (Permitted service job) (fun _ after => Cleared service after id [("request", input)])
      (operation.run scope : Task Request ProviderRequest Outside Completion GailError Completion)
      history :=
  Confined.ensures (fun _ _ answer hi hq => provides_keeps hi hq answer) operation.run_provides hc

theorem Cleared.handler (hc : Cleared service history id [("request", input)]) (hj : job.Governed)
    (handler : Handler Request ProviderRequest Outside Completion) {Error : Type} :
    Ensures (Permitted service job) (fun _ after => Cleared service after id [("request", input)])
      (handler.run service { httpGoverned := true } :
        Task Request ProviderRequest Outside Completion Error Response) history := by
  have hmarked : checksCompletion service { httpGoverned := true } = false := by
    simp [checksCompletion]
  exact Confined.ensures (fun _ _ answer hi hq => within_keeps rfl hj hi hq answer)
    (handler.run_within hmarked) hc

/-- What an assessment asks is permitted at any time. -/
theorem within_assessment {scope : Scope} (hscope : scope.assessment = true)
    {question : Query Request ProviderRequest Completion} (hq : question.Within scope)
    (answer : question.Answer Outside) : Permitted service job history ⟨question, answer⟩ := by
  cases question with
  | callProvider inner | completed inner request completion =>
    obtain rfl : inner = scope := hq
    exact .inl hscope
  | _ => first | exact trivial | exact hq.elim

/-- A call from within the process, outside every scope. -/
theorem governedCall_ensures (he : service.config.mode = .enforce)
    (hf : service.config.failOpen = false) (request : Call Request ProviderRequest) :
    Ensures (Permitted service job) (fun completion after => ∃ id input output,
        service.callValue request = .ok input ∧ service.completionBytes completion = .ok output ∧
        Cleared service after id [("response", output), ("request", input)])
      (governedCall service {} request) history := by
  have hchecks : ¬ checksCompletion service {} = false := by simp [checksCompletion, he]
  rw [governedCall, if_neg hchecks]
  refine Ensures.bind (ensures_result fun input hinput => ?_)
  rw [completion, if_neg hchecks]
  refine ensures_await fun free => ⟨trivial, ?_⟩
  cases free with
  | false => exact ensures_throw
  | true =>
    refine ensures_await fun id => ⟨trivial, ?_⟩
    refine Ensures.bind ((evaluation_ensures he hf cleared_new _ _ _ _ _ _).adapt.imp
      fun _ _ hc => ?_)
    refine Ensures.bind ((hc.operation _).imp fun response _ hc => ?_)
    refine Ensures.bind (ensures_result fun output houtput => ?_)
    refine Ensures.bind ((evaluation_ensures he hf hc _ _ _ _ _ _).adapt.imp fun _ _ hc => ?_)
    exact ensures_pure ⟨id, input, output, hinput, houtput, hc⟩

/-- A handler or user outside every scope: what it calls is checked around each call. -/
theorem Handler.run_ensures (he : service.config.mode = .enforce)
    (hf : service.config.failOpen = false) {Error : Type}
    (handler : Handler Request ProviderRequest Outside Completion) :
    Ensures (Permitted service job) (fun _ _ => True)
      (handler.run service {} : Task Request ProviderRequest Outside Completion Error Response)
      history := by
  induction handler generalizing history with
  | respond response => exact ensures_pure trivial
  | wait next ih => exact ensures_await fun answer => ⟨trivial, ih answer⟩
  | call request next ih =>
    refine Ensures.bind ?_
    rw [deliver, entryPoint_eq]
    refine Ensures.bind (ensures_lift (Keeps.imp (fun result _ hp => ?_)
      (governedCall_ensures he hf request)))
    cases result with
    | error error => exact ensures_pure (ih _)
    | ok completion =>
      exact ensures_await fun _ => ⟨.inr (.inr (hp completion rfl)), ensures_pure (ih _)⟩

/-- The rest of the router, outside every scope. -/
theorem next_ensures (he : service.config.mode = .enforce) (hf : service.config.failOpen = false)
    (request : HttpRequest) {Error : Type} :
    Ensures (Permitted service job) (fun _ _ => True)
      (next service {} request : Task Request ProviderRequest Outside Completion Error Response)
      history := by
  rw [next]
  split
  · exact (assess_within request).ensures
      (fun _ _ answer _ hq => ⟨within_assessment rfl hq answer, trivial⟩) trivial
  · exact (service.route request).run_ensures he hf

theorem ne_assessPath {path : String} (h : (scopeForPath path).isSome) : path ≠ assessPath := by
  rintro rfl
  exact absurd h (by decide)

/-- A governed HTTP exchange. -/
theorem exchange_ensures (he : service.config.mode = .enforce) (hf : service.config.failOpen = false)
    {request : HttpRequest} (hpath : (scopeForPath request.path).isSome)
    (clientId : Option String) :
    Ensures (Permitted service (.http request)) (fun response after => ∃ id input output,
        request.body.read service.config.maxBodyBytes = some input ∧
        response.body = .ofBytes output ∧
        Cleared service after id [("response", output), ("request", input)])
      (exchange service request clientId) history := by
  have hj : (Job.http request : Job Request ProviderRequest Outside Completion).Governed := hpath
  refine ensures_await fun free => ⟨trivial, ?_⟩
  cases free with
  | false => exact ensures_throw
  | true =>
    refine ensures_await fun id => ⟨trivial, ?_⟩
    dsimp only
    cases request.body.read service.config.maxBodyBytes with
    | none => exact ensures_throw
    | some input =>
      refine Ensures.bind ((evaluation_ensures he hf cleared_new _ _ _ _ _ _).adapt.imp
        fun _ _ hc => ?_)
      rw [next, if_neg (ne_assessPath hpath)]
      refine Ensures.bind ((hc.handler hj _).imp fun response _ hc => ?_)
      cases response.body.read service.config.maxBodyBytes with
      | none => exact ensures_throw
      | some output =>
        refine Ensures.bind ((evaluation_ensures he hf hc _ _ _ _ _ _).adapt.imp fun _ _ hc => ?_)
        exact ensures_pure ⟨id, input, output, rfl, rfl, hc⟩

/-- The whole middleware, whatever the route. -/
theorem guard_ensures (he : service.config.mode = .enforce) (hf : service.config.failOpen = false)
    (request : HttpRequest) :
    Ensures (Permitted service (.http request)) (fun response after =>
        Permitted service (.http request) after ⟨.replied (.ok response), ()⟩)
      (guard service request) history := by
  have hmode : ¬ service.config.mode = .disabled := by simp [he]
  rw [guard]
  by_cases hassess : request.path = assessPath ∧ (service.config.assessmentToken = "" ∨
      validToken service request.headers service.config.assessmentToken = false)
  · rw [if_pos hassess]
    exact ensures_throw
  · rw [if_neg hassess]
    cases hs : scopeForPath request.path with
    | none =>
      refine (next_ensures he hf request).imp fun response _ _ hj => ?_
      exact absurd (hs ▸ hj : (none : Option String).isSome) (by simp)
    | some required =>
      have hj : (scopeForPath request.path).isSome := by simp [hs]
      dsimp only
      rw [if_neg hmode]
      cases authorize service request.headers required with
      | error error => exact ensures_throw
      | ok clientId =>
        exact (exchange_ensures he hf hj clientId).imp fun response _ hp _ => hp

/-- Every task of the process, from its start. -/
theorem Job.run_keeps (he : service.config.mode = .enforce) (hf : service.config.failOpen = false)
    (job : Job Request ProviderRequest Outside Completion) :
    Keeps (Permitted service job) (fun _ _ => True) (job.run service) [] := by
  cases job with
  | internal user =>
    exact keeps_bind.mpr (Keeps.imp (fun _ _ _ => trivial) (user.run_ensures he hf))
  | http request =>
    refine keeps_bind.mpr (Keeps.imp (fun reply after hp => ?_) (guard_ensures he hf request))
    cases reply with
    | error response => exact fun _ => ⟨trivial, trivial⟩
    | ok response => exact fun _ => ⟨hp response rfl, trivial⟩

end Enforced

/-- With enforcement and no failing open, whatever Aria and the providers answer and however the tasks
of the process interleave, nothing that governance does not permit happens in any of them. -/
theorem completions_permitted (service : GailService Request ProviderRequest Outside Completion)
    (he : service.config.mode = .enforce) (hf : service.config.failOpen = false)
    (moves : List (SessionMove (Job Request ProviderRequest Outside Completion)
      (Query Request ProviderRequest Completion) (Query.Answer Outside))) :
    ∀ session ∈ run (Session.step (Job.run service)) [] moves, ∀ before event after,
      session.history = before ++ event :: after → Permitted service session.task before event := by
  intro session hm
  exact (Session.run_lawful (Job.run_keeps he hf) moves session hm).1

def textBytes (text : String) : Bytes := text.toUTF8.data.toList

/-- Aria's answer that the request with id 1 is allowed in a phase. -/
def allowText (phase : String) : String :=
  "\x7b\"protocol_version\":1,\"id\":\"00000000-0000-0000-0000-000000000002\",\"request_id\":" ++
    "\"00000000-0000-0000-0000-000000000001\",\"phase\":\"" ++ phase ++ "\",\"action\":\"allow\"\x7d"

def allowVerdict (phase : String) : Verdict :=
  { protocolVersion := 1, id := 2, requestId := 1, phase, action := .allow }

def sampleParse (bytes : Bytes) : Option Verdict :=
  (["request", "response"].find? fun phase => bytes = textBytes (allowText phase)).map allowVerdict

def sampleService : GailService Unit Unit Unit Unit where
  config := { mode := .enforce }
  apiTokens := [{ clientId := "client", token := "token", scopes := [] }]
  sha256 := textBytes
  parseVerdict := sampleParse
  inspectableContent := fun _ _ _ => ("", false)
  callValue := fun _ => .ok (textBytes "null")
  callSource := fun _ => none
  completionBytes := fun _ => .ok (textBytes "null")
  unguarded := fun _ => .callProvider fun _ => .finish (.ok ())
  route := fun _ => .call (.complete ()) fun _ => .respond ⟨200, [], .ofBytes (textBytes "null")⟩
  rejectionResponse := fun rejection => ⟨rejection.status, [], .ofBytes []⟩
  errorResponse := fun _ => ⟨401, [], .ofBytes []⟩
  assessmentInput := fun _ => .error ⟨405, [], .ofBytes []⟩
  assessmentCall := fun _ => none
  isDegraded := fun _ => false
  classification := fun _ => none

def sampleRequest : HttpRequest where
  path := "/v1/llm/complete"
  headers := [("authorization", "Bearer token"), ("content-type", "application/json")]
  body := .ofBytes (textBytes "null")

def allowing : (question : Query Unit Unit Unit) → question.Answer Unit
  | .trySlot => true
  | .newRequestId => (1 : Uuid)
  | .evaluate input => .answered 200 [some (textBytes (allowText input.phase))]
  | .callProvider _ | .wait | .completed _ _ _ | .replied _ => ()

def sampleMoves :
    List (SessionMove (Job Unit Unit Unit Unit) (Query Unit Unit Unit) (Query.Answer Unit)) :=
  .start (.http sampleRequest) :: List.replicate 7 (.answer 0 allowing)

def sampleInspection (phase : String) : Evaluation :=
  inspection sampleService 1 phase "client" "/v1/llm/complete" (textBytes "null")
    "application/json" true

def sampleHistory : List (Event Unit Unit Unit Unit) :=
  [⟨.trySlot, true⟩, ⟨.newRequestId, (1 : Uuid)⟩,
    ⟨.evaluate (sampleInspection "request"),
      .answered 200 [some (textBytes (allowText "request"))]⟩,
    ⟨.callProvider { httpGoverned := true }, ()⟩,
    ⟨.completed { httpGoverned := true } (.complete ()) (), ()⟩,
    ⟨.evaluate (sampleInspection "response"),
      .answered 200 [some (textBytes (allowText "response"))]⟩]

def sampleReply : Response where
  status := 200
  headers := [("x-aria-status", "checked"), ("x-aria-request-id", Uuid.text 1)]
  body := .ofBytes (textBytes "null")

set_option maxRecDepth 8000 in
theorem completions_permitted_reply :
    ∃ session ∈ run (Session.step (Job.run sampleService)) [] sampleMoves,
      session.history = sampleHistory ++ [⟨.replied (.ok sampleReply), ()⟩] ∧
        Permitted sampleService session.task sampleHistory ⟨.replied (.ok sampleReply), ()⟩ := by
  have hrun : run (Session.step (Job.run sampleService)) [] sampleMoves =
      [⟨.http sampleRequest, sampleHistory ++ [⟨.replied (.ok sampleReply), ()⟩], .done ()⟩] := rfl
  have hm := hrun ▸ List.mem_singleton_self _
  exact ⟨_, hm, rfl, completions_permitted sampleService rfl rfl sampleMoves _ hm _ _ [] rfl⟩

end Enforced

end Gail.Governance
