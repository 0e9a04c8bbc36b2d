import Gail.Governance.Aria
import Gail.Library.Interaction

/-! The entry points for completions, the check around one that is asked for within the process, and
the users of the service. -/
namespace Gail.Governance
open Gail.Library

/-- The task-locals `ASSESSMENT` and `HTTP_GOVERNED`, as far as they are set. -/
structure Scope where
  assessment : Bool := false
  httpGoverned : Bool := false
  deriving DecidableEq

abbrev Headers := List (String × String)

def Headers.get? (headers : Headers) (name : String) : Option String :=
  (headers.find? fun header => header.1 = name).map Prod.snd

/-- A body that comes in chunks, of which one may break or never come. -/
structure Body where
  chunks : List (Option Bytes)
  stalls : Bool := false

def Body.ofBytes (bytes : Bytes) : Body := { chunks := [some bytes] }

/-- The whole body, when it came within ten seconds and within the limit. -/
def Body.read (limit : Nat) (body : Body) : Option Bytes :=
  if body.stalls then none else collect limit [] body.chunks

structure HttpRequest where
  path : String
  headers : Headers
  body : Body

structure Response where
  status : Nat
  headers : Headers
  body : Body

inductive GailError where
  | unauthorized
  | upstream (provider : String) (status : Option Nat) (message : String)
  | json (message : String)
  deriving DecidableEq

/-- A request to one of the two entry points for completions. -/
inductive Call (Request ProviderRequest : Type) where
  | complete (request : Request)
  | directComplete (request : ProviderRequest)

/-- What an unchecked completion does: it calls providers and awaits other things as often as it
likes, and goes on with what it gets. -/
inductive Operation (Outside Completion : Type) where
  | finish (result : Except GailError Completion)
  | callProvider (next : Outside → Operation Outside Completion)
  | wait (next : Outside → Operation Outside Completion)

/-- What a handler or another user of the service does: it asks for completions and awaits other
things as often as it likes. What it spawns is another user, without its task-locals. -/
inductive Handler (Request ProviderRequest Outside Completion : Type) where
  | respond (response : Response)
  | call (request : Call Request ProviderRequest)
      (next : Except GailError Completion → Handler Request ProviderRequest Outside Completion)
  | wait (next : Outside → Handler Request ProviderRequest Outside Completion)

structure AssessmentRequest where
  content : String
  phase : String

structure ApiTokenConfig where
  clientId : String
  token : String
  scopes : List String

/-- The service, with the parts of it that governance calls on. -/
structure GailService (Request ProviderRequest Outside Completion : Type) where
  config : GovernanceConfig
  apiTokens : List ApiTokenConfig
  sha256 : String → Bytes
  parseVerdict : Bytes → Option Verdict
  inspectableContent : Bytes → String → Bool → String × Bool
  /-- The request as a JSON text, and its source. -/
  callValue : Call Request ProviderRequest → Except GailError Bytes
  callSource : Call Request ProviderRequest → Option String
  completionBytes : Completion → Except GailError Bytes
  /-- `complete_unguarded` and `direct_complete_unguarded`. -/
  unguarded : Call Request ProviderRequest → Operation Outside Completion
  /-- The handlers of the router, and what it makes of a refusal. -/
  route : HttpRequest → Handler Request ProviderRequest Outside Completion
  rejectionResponse : Rejection → Response
  errorResponse : GailError → Response
  /-- What the extractors make of a request to the assessment endpoint. -/
  assessmentInput : HttpRequest → Except Response AssessmentRequest
  assessmentCall : AssessmentRequest → Option Request
  isDegraded : Completion → Bool
  classification : Completion → Option Response

/-- What a task asks of the world, and what it lets out. -/
inductive Query (Request ProviderRequest Completion : Type) where
  | trySlot
  | newRequestId
  | evaluate (input : Evaluation)
  | callProvider (scope : Scope)
  | wait
  /-- A user of the service has been given a completion. -/
  | completed (scope : Scope) (request : Call Request ProviderRequest) (completion : Completion)
  /-- The HTTP server has answered: with a refusal by governance, or with a response it let pass. -/
  | replied (reply : Except Response Response)

variable {Request ProviderRequest Outside Completion : Type}

abbrev Query.Answer (Outside : Type) : Query Request ProviderRequest Completion → Type
  | .trySlot => Bool
  | .newRequestId => Uuid
  | .evaluate _ => AriaReply
  | .callProvider _ | .wait => Outside
  | .completed _ _ _ | .replied _ => Unit

/-- A task, which may fail with an error. -/
abbrev Task (Request ProviderRequest Outside Completion Error : Type) :=
  ExceptT Error (Interaction (Query Request ProviderRequest Completion) (Query.Answer Outside))

/-- One question as a step of a task. -/
def await {Error : Type} (question : Query Request ProviderRequest Completion) :
    Task Request ProviderRequest Outside Completion Error (question.Answer Outside) :=
  ExceptT.lift (Interaction.query question)

/-- What an operation does in the given scope. -/
def Operation.run (scope : Scope) : Operation Outside Completion →
    Task Request ProviderRequest Outside Completion GailError Completion
  | .finish result => ExceptT.mk (pure result)
  | .callProvider next => do
    let answer ← await (.callProvider scope)
    (next answer).run scope
  | .wait next => do
    let answer ← await .wait
    (next answer).run scope

variable (service : GailService Request ProviderRequest Outside Completion)

/-- What Aria is sent about a body. -/
def inspection (requestId : Uuid) (phase source route : String) (bytes : Bytes)
    (contentType : String) (redactTransport : Bool) : Evaluation :=
  let (content, complete) := service.inspectableContent bytes contentType redactTransport
  { requestId, phase, source, route, content, bodyBytes := bytes.length
    inspectionComplete := complete }

/-- One phase is put to Aria. -/
def evaluation (input : Evaluation) :
    Task Request ProviderRequest Outside Completion Rejection AriaStatus := do
  let reply ← await (.evaluate input)
  ExceptT.mk (pure (check service.parseVerdict service.config input reply))

def checksCompletion (scope : Scope) : Bool :=
  service.config.mode ≠ .disabled ∧ scope.assessment = false ∧ scope.httpGoverned = false

def governanceError (rejection : Rejection) : GailError :=
  .upstream "aria" (some rejection.status) "governance did not permit the operation"

/-- Checks an operation that a user within the process asked for. -/
def completion (scope : Scope) (input : Bytes) (source : Option String)
    (operation : Task Request ProviderRequest Outside Completion GailError Completion) :
    Task Request ProviderRequest Outside Completion GailError Completion := do
  if checksCompletion service scope = false then operation
  else if ← await .trySlot then
    let requestId ← await .newRequestId
    let source := source.getD "gail_internal"
    let _ ← (evaluation service (inspection service requestId "request" source "/v1/llm/internal"
      input "application/json" true)).adapt governanceError
    let response ← operation
    let bytes ← ExceptT.mk (pure (service.completionBytes response))
    let _ ← (evaluation service (inspection service requestId "response" source
      "/v1/llm/internal" bytes "application/json" false)).adapt governanceError
    return response
  else throw (.upstream "aria" (some 429) "governance capacity exhausted")

/-- `GailService::complete` and `GailService::direct_complete`, which differ in the operation. -/
def governedCall (scope : Scope) (request : Call Request ProviderRequest) :
    Task Request ProviderRequest Outside Completion GailError Completion := do
  if checksCompletion service scope = false then (service.unguarded request).run scope
  else
    let input ← ExceptT.mk (pure (service.callValue request))
    completion service scope input (service.callSource request)
      ((service.unguarded request).run scope)

def complete (scope : Scope) (request : Request) :
    Task Request ProviderRequest Outside Completion GailError Completion :=
  governedCall service scope (.complete request)

def directComplete (scope : Scope) (request : ProviderRequest) :
    Task Request ProviderRequest Outside Completion GailError Completion :=
  governedCall service scope (.directComplete request)

/-- The call of the entry point that a request is for. -/
def entryPoint (scope : Scope) : Call Request ProviderRequest →
    Task Request ProviderRequest Outside Completion GailError Completion
  | .complete request => complete service scope request
  | .directComplete request => directComplete service scope request

theorem entryPoint_eq (scope : Scope) (request : Call Request ProviderRequest) :
    entryPoint service scope request = governedCall service scope request := by
  cases request <;> rfl

/-- A completion reaches the user that called for it, or the error does. -/
def deliver (scope : Scope) (request : Call Request ProviderRequest) {Error : Type} :
    Task Request ProviderRequest Outside Completion Error (Except GailError Completion) := do
  match ← ExceptT.lift (entryPoint service scope request).run with
  | .error error => return .error error
  | .ok completion =>
    await (.completed scope request completion)
    return .ok completion

def Handler.run (scope : Scope) {Error : Type} :
    Handler Request ProviderRequest Outside Completion →
    Task Request ProviderRequest Outside Completion Error Response
  | .respond response => pure response
  | .call request next => do
    let result ← deliver service scope request
    (next result).run scope
  | .wait next => do
    let answer ← await .wait
    (next answer).run scope

end Gail.Governance
