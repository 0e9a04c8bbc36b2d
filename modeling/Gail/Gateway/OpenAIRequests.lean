import Gail.Gateway.CompletionCandidates

/-! What Gail sends out for an OpenAI-compatible request: by the selected profile where the request brings
a credential or an address, else by the candidates of the completion. -/
namespace Gail.Gateway
open Gail.Library

structure OpenAIRequest extends Credentials where
  model : String
  provider : Option String
  baseUrl : Option String
  includeConfigured : Option Bool

inductive OpenAIEndpoint where
  | chatCompletions
  | responses
  | audioTranscriptions
  deriving DecidableEq

namespace OpenAIRequest
variable {κ : Type} (request : OpenAIRequest)

/-- `explicit_request_has_provider_override`. -/
def hasProviderOverride : Bool :=
  [request.apiKey, request.accessToken, request.baseUrl].any fun value =>
    value.any fun value => !isBlank value

/-- The credentials of the request, or else those of the selected profile. -/
def credentialsWith (profile : Option (ProviderProfile Credentials)) : Credentials :=
  { apiKey := request.apiKey.or (profile.bind fun item => item.credentials.apiKey)
    accessToken := request.accessToken.or (profile.bind fun item => item.credentials.accessToken) }

def baseWith (profile : Option (ProviderProfile κ)) : Option String :=
  request.baseUrl.or (profile.bind ProviderProfile.baseUrl)

def buildDirectProviderRequest (provider : String) (model : Option String)
    (profile : Option (ProviderProfile Credentials)) : ProviderCompletionRequest :=
  { toCredentials := request.credentialsWith profile, provider
    model := model.or (profile.bind ProviderProfile.model), baseUrl := request.baseWith profile }

def profileModelCompatible (model : Option String) (profile : Option (ProviderProfile κ)) : Bool :=
  model.all fun requested => profile.any fun item => item.hasModel requested

/-- `build_completion_request`, but for the credentials. -/
def completionRouting : OpenAIResolvedRoute κ → CompletionRouting
  | .orchestrated =>
    { preferredProvider := none, preferredModel := none, baseUrl := request.baseUrl
      includeConfigured := request.includeConfigured }
  | .explicit provider model profile =>
    { preferredProvider := some provider
      preferredModel := model.or (profile.bind ProviderProfile.model)
      baseUrl := request.baseUrl.or
        (if profileModelCompatible model profile then profile.bind ProviderProfile.baseUrl else none)
      includeConfigured := some
        (if request.hasProviderOverride then false else request.includeConfigured.getD true) }

def preferredCredentials : OpenAIResolvedRoute Credentials → Credentials
  | .orchestrated => { apiKey := none, accessToken := none }
  | .explicit _ _ profile => request.credentialsWith profile

def buildCompletionRequest (route : OpenAIResolvedRoute Credentials) : CompletionRequest :=
  { toCompletionRouting := request.completionRouting route
    preferredApiKey := (request.preferredCredentials route).apiKey
    preferredAccessToken := (request.preferredCredentials route).accessToken }

end OpenAIRequest

/-- The configured profile that a direct request names with its provider, its model and its address. -/
def namesProfile (request : ProviderCompletionRequest) {κ : Type} (profile : ProviderProfile κ) : Bool :=
  profile.normalizedType == normalizeProviderType request.provider &&
    trim (profile.model.getD "") == trim (request.model.getD "") &&
    trim (profile.baseUrl.getD "") == trim (request.baseUrl.getD "")

def defaultProfile : ProviderProfile Credentials :=
  { name := "", providerType := "", model := none, baseUrl := none, preferred := false
    credentials := { apiKey := none, accessToken := none } }

def directProviderProfile (profiles : List (ProviderProfile Credentials))
    (request : ProviderCompletionRequest) : ProviderProfile Credentials :=
  let profile := (profiles.find? (namesProfile request)).getD defaultProfile
  { name := if isBlank profile.name then request.provider else profile.name
    providerType := request.provider, model := request.model.or profile.model
    baseUrl := request.baseUrl.or profile.baseUrl, preferred := profile.preferred
    credentials :=
      { apiKey := request.apiKey.or profile.credentials.apiKey
        accessToken := request.accessToken.or profile.credentials.accessToken } }

def directComplete (host : Host) (profiles : List (ProviderProfile Credentials))
    (request : ProviderCompletionRequest) : List OutgoingRequest :=
  completionRequests host (directProviderProfile profiles request) request

def providerRequestFromProfile (profile : ProviderProfile Credentials)
    (request : ProviderCompletionRequest) : ProviderCompletionRequest :=
  { provider := normalizeProviderType profile.providerType, model := profile.model.or request.model
    apiKey := request.apiKey.or profile.credentials.apiKey
    accessToken := request.accessToken.or profile.credentials.accessToken
    baseUrl := profile.baseUrl.or request.baseUrl }

namespace CompletionRequest
variable (host : Host) (request : CompletionRequest)

def credentials : Credentials :=
  { apiKey := request.preferredApiKey, accessToken := request.preferredAccessToken }

def providerRequest : ProviderCompletionRequest :=
  { toCredentials := request.credentials, provider := request.preferredProvider.getD "openai"
    model := request.preferredModel, baseUrl := request.baseUrl }

/-- The candidates before the test of their credentials. -/
def candidates (profiles : List (ProviderProfile Credentials)) : List (ProviderProfile Credentials) :=
  buildCandidates host.env profiles request.toCompletionRouting
    (request.includeConfigured.getD host.includeConfiguredCandidates)
    (hasUsableValue request.preferredApiKey || hasUsableValue request.preferredAccessToken)
    request.credentials { apiKey := none, accessToken := none }

/-- What a candidate sends: the probe of its health, and the completion if it is asked. -/
def ask (candidate : ProviderProfile Credentials) : List OutgoingRequest :=
  healthRequests host candidate ++
    if host.asks candidate.strip then
      completionRequests host candidate (providerRequestFromProfile candidate request.providerRequest)
    else []

/-- All that the completion may send; the order and the number of the requests are up to the ranking. -/
def complete (profiles : List (ProviderProfile Credentials)) : List OutgoingRequest :=
  ((request.candidates host profiles).filter (providerProfileIsUsable host.env)).flatMap
    (request.ask host)

end CompletionRequest

def transcribe (host : Host) (provider : String) (model : Option String) (credentials : Credentials)
    (baseUrl : Option String) : List OutgoingRequest :=
  transcriptionRequests host
    { name := provider, providerType := provider, model, baseUrl, preferred := true, credentials }

section Dispatch
variable (host : Host) (profiles : List (ProviderProfile Credentials)) (request : OpenAIRequest)

def dispatchRoute : OpenAIResolvedRoute Credentials → List OutgoingRequest
  | .explicit provider model profile =>
    if request.hasProviderOverride then
      directComplete host profiles (request.buildDirectProviderRequest provider model profile)
    else (request.buildCompletionRequest (.explicit provider model profile)).complete host profiles
  | .orchestrated => (request.buildCompletionRequest .orchestrated).complete host profiles

def transcribeRoute : OpenAIResolvedRoute Credentials → List OutgoingRequest
  | .explicit provider model profile =>
    transcribe host provider (model.or (profile.bind ProviderProfile.model))
      (request.credentialsWith profile) (request.baseWith profile)
  | .orchestrated => []

/-- What goes out on the route of the request. -/
def sentOn (send : OpenAIResolvedRoute Credentials → List OutgoingRequest) : List OutgoingRequest :=
  match resolveOpenaiRoute host.env profiles request.model request.provider with
  | .ok route => send route
  | .error _ => []

def dispatchOpenaiChatCompletion : List OutgoingRequest :=
  sentOn host profiles request (dispatchRoute host profiles request)

def dispatchOpenaiResponses : List OutgoingRequest :=
  sentOn host profiles request (dispatchRoute host profiles request)

def openaiAudioTranscriptions : List OutgoingRequest :=
  sentOn host profiles request (transcribeRoute host request)

/-- The outgoing requests of an endpoint. -/
def OpenAIEndpoint.outgoing : OpenAIEndpoint → List OutgoingRequest
  | .chatCompletions => dispatchOpenaiChatCompletion host profiles request
  | .responses => dispatchOpenaiResponses host profiles request
  | .audioTranscriptions => openaiAudioTranscriptions host profiles request

end Dispatch

end Gail.Gateway
