import Gail.Gateway.ModelRoutes

/-! The requests that the adapters of the providers send: to which address, and with which credential. -/
namespace Gail.Gateway
open Gail.Library

structure Credentials where
  apiKey : Option String
  accessToken : Option String
  deriving DecidableEq

/-- An address up to the blanks around it and the slashes after it. -/
def endpointOf (address : String) : String :=
  String.ofList ((address.toList.dropWhile isWhitespace).rdropWhile fun c => isWhitespace c || c == '/')

/-- The process and its HTTP client. -/
structure Host where
  env : Environment
  /-- The client takes the address. -/
  accepts : String → Bool
  /-- The addresses of the Ollama adapter, for the base of the request and that of the profile. -/
  ollamaAddresses : Option String → Option String → List String
  /-- What holds of requests that do not tell if they include the configured providers. -/
  includeConfiguredCandidates : Bool
  /-- A usable candidate is asked: it has the role, the size and the admission, and its rank and its
  load let it through. -/
  asks : ProviderProfile Unit → Bool
  /-- A relative address is refused. -/
  relative : ∀ address, endpointOf address = "" → accepts address = false

inductive CredentialHeader where
  /-- `authorization: Bearer ..` -/
  | bearer (secret : String)
  /-- `x-goog-api-key: ..` -/
  | googApiKey (secret : String)
  deriving DecidableEq

structure OutgoingRequest where
  address : String
  header : Option CredentialHeader
  deriving DecidableEq

def CredentialHeader.secret : CredentialHeader → String
  | .bearer secret => secret
  | .googApiKey secret => secret

def OutgoingRequest.secret (request : OutgoingRequest) : Option String :=
  request.header.map CredentialHeader.secret

structure ProviderCompletionRequest extends Credentials where
  provider : String
  model : Option String
  baseUrl : Option String

inductive ProviderAdapter where
  | openai (apiKey baseUrl : String) (supportsTranscriptions : Bool)
  | gemini (apiKey accessToken : Option String)
  | ollama (baseUrl : Option String)

def openaiUrl : String := "https://api.openai.com/v1"

def nvidiaUrl : String := "https://integrate.api.nvidia.com/v1"

def geminiUrl : String := "https://generativelanguage.googleapis.com/v1beta"

def isBlank (text : String) : Bool := (trim text).isEmpty

def normalizeBaseUrl (raw : String) : String :=
  String.ofList ((trim raw).toList.rdropWhile fun c => c == '/')

/-- The base of an OpenAI-compatible profile. -/
def openaiBase (defaultBaseUrl : String) (baseUrl : Option String) : String :=
  normalizeBaseUrl ((baseUrl.filter fun value => !isBlank value).getD defaultBaseUrl)

/-- `OpenAIProvider::new_with_settings`. -/
def newWithSettings (host : Host) (profile : ProviderProfile Credentials)
    (apiKeyEnv defaultBaseUrl : String) (supportsTranscriptions : Bool) : Except String ProviderAdapter :=
  match profile.credentials.apiKey.or (host.env apiKeyEnv) with
  | some apiKey => .ok (.openai apiKey (openaiBase defaultBaseUrl profile.baseUrl) supportsTranscriptions)
  | none => .error s!"{apiKeyEnv} not configured"

def newGemini (host : Host) (profile : ProviderProfile Credentials) : Except String ProviderAdapter :=
  let apiKey := profile.credentials.apiKey.or (host.env "GEMINI_API_KEY")
  let accessToken := profile.credentials.accessToken.or
    ((host.env "GEMINI_ACCESS_TOKEN").or (host.env "GOOGLE_ACCESS_TOKEN"))
  if apiKey.isNone && accessToken.isNone then
    .error "GEMINI_API_KEY or GEMINI_ACCESS_TOKEN/GOOGLE_ACCESS_TOKEN must be configured"
  else .ok (.gemini apiKey accessToken)

def buildAdapter (host : Host) (profile : ProviderProfile Credentials) : Except String ProviderAdapter :=
  match normalizeProviderType profile.providerType with
  | "openai" => newWithSettings host profile "OPENAI_API_KEY" openaiUrl true
  | "nvidia" => newWithSettings host profile "NVIDIA_API_KEY" nvidiaUrl false
  | "gemini" => newGemini host profile
  | "ollama" => .ok (.ollama profile.baseUrl)
  | other => .error s!"unsupported provider type: {other}"

def geminiHeaders (apiKey accessToken : Option String) : Option CredentialHeader :=
  (apiKey.map .googApiKey).or (accessToken.map .bearer)

/-- What the client sends out. -/
def post (host : Host) (address : String) (header : Option CredentialHeader) : List OutgoingRequest :=
  if host.accepts address then [{ address, header }] else []

namespace ProviderAdapter

/-- The requests of a completion; those that repeat one are left out. -/
def complete (host : Host) (request : ProviderCompletionRequest) : ProviderAdapter → List OutgoingRequest
  | .openai apiKey baseUrl _ =>
    post host (normalizeBaseUrl (normalizeBaseUrl (request.baseUrl.getD baseUrl)))
      (some (.bearer (request.apiKey.getD apiKey)))
  | .gemini apiKey accessToken =>
    match geminiHeaders (request.apiKey.or apiKey) (request.accessToken.or accessToken) with
    | some header => post host geminiUrl (some header)
    | none => []
  | .ollama baseUrl =>
    (host.ollamaAddresses request.baseUrl baseUrl).flatMap fun address => post host address none

def transcribe (host : Host) : ProviderAdapter → List OutgoingRequest
  | .openai apiKey baseUrl supportsTranscriptions =>
    if supportsTranscriptions then post host (normalizeBaseUrl baseUrl) (some (.bearer apiKey)) else []
  | .gemini apiKey accessToken =>
    complete host { provider := "gemini", model := none, apiKey, accessToken, baseUrl := none }
      (.gemini apiKey accessToken)
  | .ollama _ => []

/-- The probe of the health of a provider. -/
def health (host : Host) : ProviderAdapter → List OutgoingRequest
  | .openai apiKey baseUrl _ => post host (normalizeBaseUrl baseUrl) (some (.bearer apiKey))
  | .gemini apiKey accessToken =>
    match geminiHeaders apiKey accessToken with
    | some header => post host geminiUrl (some header)
    | none => []
  | .ollama baseUrl => (host.ollamaAddresses none baseUrl).flatMap fun address => post host address none

end ProviderAdapter

/-- The requests for a completion by the adapter of a profile. -/
def completionRequests (host : Host) (profile : ProviderProfile Credentials)
    (request : ProviderCompletionRequest) : List OutgoingRequest :=
  match buildAdapter host profile with
  | .ok adapter => adapter.complete host request
  | .error _ => []

def transcriptionRequests (host : Host) (profile : ProviderProfile Credentials) : List OutgoingRequest :=
  match buildAdapter host profile with
  | .ok adapter => adapter.transcribe host
  | .error _ => []

def healthRequests (host : Host) (profile : ProviderProfile Credentials) : List OutgoingRequest :=
  match buildAdapter host profile with
  | .ok adapter => adapter.health host
  | .error _ => []

/-- The address of a provider with credentials. -/
def defaultAddress (providerType : String) : Option String :=
  match normalizeProviderType providerType with
  | "openai" => some openaiUrl
  | "nvidia" => some nvidiaUrl
  | "gemini" => some geminiUrl
  | _ => none

/-- Where the credential of a completion goes. -/
def completionAddress (providerType : String) (profileBase requestBase : Option String) : Option String :=
  if normalizeProviderType providerType = "gemini" then some geminiUrl
  else (defaultAddress providerType).map fun address =>
    normalizeBaseUrl (normalizeBaseUrl (requestBase.getD (openaiBase address profileBase)))

/-- Where the credential of a health probe goes. -/
def healthAddress (providerType : String) (profileBase : Option String) : Option String :=
  if normalizeProviderType providerType = "gemini" then some geminiUrl
  else (defaultAddress providerType).map fun address => normalizeBaseUrl (openaiBase address profileBase)

def transcriptionAddress (providerType : String) (profileBase : Option String) : Option String :=
  if normalizeProviderType providerType = "gemini" then some geminiUrl
  else if normalizeProviderType providerType = "openai" then
    some (normalizeBaseUrl (openaiBase openaiUrl profileBase))
  else none

def credentialHeader (providerType secret : String) : CredentialHeader :=
  if normalizeProviderType providerType = "gemini" then .googApiKey secret else .bearer secret

@[simp] theorem credentialHeader_secret (providerType secret : String) :
    (credentialHeader providerType secret).secret = secret := by
  unfold credentialHeader
  split <;> rfl

/-- The requests without a credential. -/
def plainRequests (host : Host) (providerType : String) (profileBase requestBase : Option String) :
    List OutgoingRequest :=
  if normalizeProviderType providerType = "ollama" then
    (host.ollamaAddresses requestBase profileBase).flatMap fun address => post host address none
  else []

def Credentials.Holds (credentials : Credentials) (secret : String) : Prop :=
  credentials.apiKey = some secret ∨ credentials.accessToken = some secret

def credentialVariables : List String :=
  ["OPENAI_API_KEY", "NVIDIA_API_KEY", "GEMINI_API_KEY", "GEMINI_ACCESS_TOKEN", "GOOGLE_ACCESS_TOKEN"]

def Host.Holds (host : Host) (secret : String) : Prop :=
  ∃ name ∈ credentialVariables, host.env name = some secret

section Adapters
variable {host : Host} {profile : ProviderProfile Credentials} {request : ProviderCompletionRequest}
  {address key : String}

theorem geminiHeaders_eq_some {apiKey accessToken : Option String} {header : CredentialHeader}
    (h : geminiHeaders apiKey accessToken = some header) :
    apiKey = some header.secret ∨ apiKey = none ∧ accessToken = some header.secret := by
  cases apiKey with
  | some key =>
    obtain rfl := Option.some.inj h
    exact Or.inl rfl
  | none =>
    rw [geminiHeaders, Option.map_none, Option.none_or] at h
    obtain ⟨token, rfl, rfl⟩ := Option.map_eq_some_iff.mp h
    exact Or.inr ⟨rfl, rfl⟩

theorem mem_post {sent : OutgoingRequest} {header : Option CredentialHeader}
    (h : sent ∈ post host address header) :
    sent = { address, header } ∧ host.accepts address = true := by
  unfold post at h
  split at h
  · next ha => exact ⟨List.mem_singleton.mp h, ha⟩
  · cases h

/-- The adapter of a profile, with the credentials of the profile or of the process. -/
inductive AdapterOf (host : Host) (profile : ProviderProfile Credentials) : ProviderAdapter → Prop where
  | openai {default apiKey : String} {supports : Bool}
      (hgemini : normalizeProviderType profile.providerType ≠ "gemini")
      (hdefault : defaultAddress profile.providerType = some default)
      (hsupports : supports = true →
        normalizeProviderType profile.providerType = "openai" ∧ default = openaiUrl)
      (hkey : profile.credentials.Holds apiKey ∨ host.Holds apiKey) :
      AdapterOf host profile (.openai apiKey (openaiBase default profile.baseUrl) supports)
  | gemini {apiKey accessToken : Option String}
      (hgemini : normalizeProviderType profile.providerType = "gemini")
      (hkey : ∀ secret, apiKey = some secret ∨ accessToken = some secret →
        profile.credentials.Holds secret ∨ host.Holds secret) :
      AdapterOf host profile (.gemini apiKey accessToken)
  | ollama (hollama : normalizeProviderType profile.providerType = "ollama") :
      AdapterOf host profile (.ollama profile.baseUrl)

theorem newWithSettings_ok {adapter : ProviderAdapter} {apiKeyEnv default : String} {supports : Bool}
    (hname : apiKeyEnv ∈ credentialVariables)
    (h : newWithSettings host profile apiKeyEnv default supports = .ok adapter) :
    ∃ apiKey, adapter = .openai apiKey (openaiBase default profile.baseUrl) supports ∧
      (profile.credentials.Holds apiKey ∨ host.Holds apiKey) := by
  unfold newWithSettings at h
  split at h
  · next apiKey hkey =>
    refine ⟨apiKey, (Except.ok.inj h).symm, ?_⟩
    rcases Option.or_eq_some_iff.mp hkey with hp | ⟨-, he⟩
    · exact Or.inl (Or.inl hp)
    · exact Or.inr ⟨apiKeyEnv, hname, he⟩
  · cases h

theorem newGemini_ok {adapter : ProviderAdapter} (h : newGemini host profile = .ok adapter) :
    ∃ apiKey accessToken, adapter = .gemini apiKey accessToken ∧
      ∀ secret, apiKey = some secret ∨ accessToken = some secret →
        profile.credentials.Holds secret ∨ host.Holds secret := by
  unfold newGemini at h
  dsimp only at h
  split at h
  · cases h
  refine ⟨_, _, (Except.ok.inj h).symm, fun secret hs => ?_⟩
  rcases hs with hs | hs
  · rcases Option.or_eq_some_iff.mp hs with hp | ⟨-, he⟩
    · exact Or.inl (Or.inl hp)
    · exact Or.inr ⟨_, by decide, he⟩
  · rcases Option.or_eq_some_iff.mp hs with hp | ⟨-, he⟩
    · exact Or.inl (Or.inr hp)
    · rcases Option.or_eq_some_iff.mp he with he | ⟨-, he⟩
      · exact Or.inr ⟨_, by decide, he⟩
      · exact Or.inr ⟨_, by decide, he⟩

theorem buildAdapter_ok {adapter : ProviderAdapter} (h : buildAdapter host profile = .ok adapter) :
    AdapterOf host profile adapter := by
  unfold buildAdapter at h
  split at h
  · next hkind =>
    obtain ⟨apiKey, rfl, hkey⟩ := newWithSettings_ok (by decide) h
    refine .openai ?_ ?_ (fun _ => ⟨hkind, rfl⟩) hkey
    · rw [hkind]
      decide
    · rw [defaultAddress, hkind]
      rfl
  · next hkind =>
    obtain ⟨apiKey, rfl, hkey⟩ := newWithSettings_ok (by decide) h
    refine .openai ?_ ?_ (fun hs => nomatch hs) hkey
    · rw [hkind]
      decide
    · rw [defaultAddress, hkind]
      rfl
  · next hkind =>
    obtain ⟨apiKey, accessToken, rfl, hkey⟩ := newGemini_ok h
    exact .gemini hkind hkey
  · next hkind =>
    obtain rfl := Except.ok.inj h
    exact .ollama hkind
  · cases h

/-- The completion of a provider with credentials is one request. -/
theorem completionRequests_eq
    (ha : completionAddress profile.providerType profile.baseUrl request.baseUrl = some address)
    (hkey : profile.credentials.apiKey = some key) :
    completionRequests host profile request =
      post host address (some (credentialHeader profile.providerType (request.apiKey.getD key))) := by
  unfold completionAddress defaultAddress at ha
  unfold completionRequests buildAdapter newWithSettings newGemini credentialHeader
  rw [hkey]
  generalize normalizeProviderType profile.providerType = kind at ha ⊢
  split at ha
  · next hgemini =>
    obtain rfl := Option.some.inj ha
    rw [hgemini]
    cases hr : request.apiKey <;>
      simp [ProviderAdapter.complete, geminiHeaders, hr]
  · next hgemini =>
    split at ha
    · obtain rfl := Option.some.inj ha
      simp [ProviderAdapter.complete]
    · obtain rfl := Option.some.inj ha
      simp [ProviderAdapter.complete]
    · exact absurd rfl hgemini
    · cases ha

/-- A provider without credentials is Ollama, or it is not supported. -/
theorem buildAdapter_plain (hgemini : normalizeProviderType profile.providerType ≠ "gemini")
    (hnone : defaultAddress profile.providerType = none) :
    normalizeProviderType profile.providerType = "ollama" ∧
        buildAdapter host profile = .ok (.ollama profile.baseUrl) ∨
      normalizeProviderType profile.providerType ≠ "ollama" ∧
        ∃ error, buildAdapter host profile = .error error := by
  cases hadapter : buildAdapter host profile with
  | ok adapter =>
    cases buildAdapter_ok hadapter with
    | openai _ hdefault => cases hnone.symm.trans hdefault
    | gemini hkind => exact absurd hkind hgemini
    | ollama hollama => exact Or.inl ⟨hollama, rfl⟩
  | error error =>
    refine Or.inr ⟨fun hollama => ?_, error, rfl⟩
    rw [buildAdapter, hollama] at hadapter
    cases hadapter

theorem completionRequests_plain
    (ha : completionAddress profile.providerType profile.baseUrl request.baseUrl = none) :
    completionRequests host profile request =
      plainRequests host profile.providerType profile.baseUrl request.baseUrl := by
  unfold completionAddress at ha
  split at ha
  · cases ha
  next hgemini =>
  unfold completionRequests plainRequests
  rcases buildAdapter_plain hgemini (Option.map_eq_none_iff.mp ha) with ⟨hollama, hb⟩ | ⟨hother, error, hb⟩
  · rw [hb, if_pos hollama]
    rfl
  · rw [hb, if_neg hother]

/-- A credential goes to the address of the completion. It is that of the request, or where this has no
key, one of the profile or of the process. -/
theorem completionRequests_secret {sent : OutgoingRequest} {secret : String}
    (hs : sent ∈ completionRequests host profile request) (hsecret : sent.secret = some secret) :
    completionAddress profile.providerType profile.baseUrl request.baseUrl = some sent.address ∧
      host.accepts sent.address = true ∧
      (request.apiKey = some secret ∨ request.apiKey = none ∧
        (request.toCredentials.Holds secret ∨ profile.credentials.Holds secret ∨
          host.Holds secret)) := by
  unfold completionRequests at hs
  split at hs
  swap
  · cases hs
  next adapter hadapter =>
  cases buildAdapter_ok hadapter with
  | @openai default apiKey supports hgemini hdefault hsupports hkey =>
    obtain ⟨rfl, haccepts⟩ := mem_post hs
    obtain rfl : request.apiKey.getD apiKey = secret := Option.some.inj hsecret
    refine ⟨?_, haccepts, ?_⟩
    · rw [completionAddress, if_neg hgemini, hdefault]
      rfl
    · cases hr : request.apiKey with
      | some key => exact Or.inl rfl
      | none => exact Or.inr ⟨rfl, Or.inr hkey⟩
  | @gemini apiKey accessToken hgemini hkey =>
    rw [ProviderAdapter.complete] at hs
    split at hs
    swap
    · cases hs
    next header hheader =>
    obtain ⟨rfl, haccepts⟩ := mem_post hs
    obtain rfl : header.secret = secret := Option.some.inj hsecret
    refine ⟨?_, haccepts, ?_⟩
    · rw [completionAddress, if_pos hgemini]
    · rcases geminiHeaders_eq_some hheader with hk | ⟨hnone, ht⟩
      · rcases Option.or_eq_some_iff.mp hk with hr | ⟨hr, ha⟩
        · exact Or.inl hr
        · exact Or.inr ⟨hr, Or.inr (hkey _ (Or.inl ha))⟩
      · refine Or.inr ⟨(Option.or_eq_none_iff.mp hnone).1, ?_⟩
        rcases Option.or_eq_some_iff.mp ht with hr | ⟨-, ha⟩
        · exact Or.inl (Or.inr hr)
        · exact Or.inr (hkey _ (Or.inr ha))
  | ollama hollama =>
    obtain ⟨address, -, hs⟩ := List.mem_flatMap.mp hs
    obtain ⟨rfl, -⟩ := mem_post hs
    cases hsecret

/-- The transcription of a provider with credentials is one request. -/
theorem transcriptionRequests_eq
    (ha : transcriptionAddress profile.providerType profile.baseUrl = some address)
    (hkey : profile.credentials.apiKey = some key) :
    transcriptionRequests host profile =
      post host address (some (credentialHeader profile.providerType key)) := by
  unfold transcriptionAddress at ha
  unfold transcriptionRequests buildAdapter newWithSettings newGemini credentialHeader
  rw [hkey]
  generalize normalizeProviderType profile.providerType = kind at ha ⊢
  split at ha
  · next hgemini =>
    obtain rfl := Option.some.inj ha
    simp [hgemini, ProviderAdapter.transcribe, ProviderAdapter.complete, geminiHeaders]
  · split at ha
    · next hopenai =>
      obtain rfl := Option.some.inj ha
      simp [hopenai, ProviderAdapter.transcribe]
    · cases ha

theorem transcriptionRequests_secret {sent : OutgoingRequest} {secret : String}
    (hs : sent ∈ transcriptionRequests host profile) (hsecret : sent.secret = some secret) :
    transcriptionAddress profile.providerType profile.baseUrl = some sent.address ∧
      host.accepts sent.address = true ∧ (profile.credentials.Holds secret ∨ host.Holds secret) := by
  unfold transcriptionRequests at hs
  split at hs
  swap
  · cases hs
  next adapter hadapter =>
  cases buildAdapter_ok hadapter with
  | @openai default apiKey supports hgemini hdefault hsupports hkey =>
    rw [ProviderAdapter.transcribe] at hs
    split at hs
    swap
    · cases hs
    next hs' =>
    obtain ⟨hopenai, rfl⟩ := hsupports hs'
    obtain ⟨rfl, haccepts⟩ := mem_post hs
    obtain rfl : apiKey = secret := Option.some.inj hsecret
    exact ⟨by rw [transcriptionAddress, if_neg hgemini, if_pos hopenai], haccepts, hkey⟩
  | @gemini apiKey accessToken hgemini hkey =>
    rw [ProviderAdapter.transcribe, ProviderAdapter.complete] at hs
    split at hs
    swap
    · cases hs
    next header hheader =>
    obtain ⟨rfl, haccepts⟩ := mem_post hs
    obtain rfl : header.secret = secret := Option.some.inj hsecret
    refine ⟨by rw [transcriptionAddress, if_pos hgemini], haccepts, hkey _ ?_⟩
    rw [Option.or_self, Option.or_self] at hheader
    exact (geminiHeaders_eq_some hheader).imp_right And.right
  | ollama hollama => cases hs

theorem healthRequests_eq (ha : healthAddress profile.providerType profile.baseUrl = some address)
    (hkey : profile.credentials.apiKey = some key) :
    healthRequests host profile =
      post host address (some (credentialHeader profile.providerType key)) := by
  unfold healthAddress defaultAddress at ha
  unfold healthRequests buildAdapter newWithSettings newGemini credentialHeader
  rw [hkey]
  generalize normalizeProviderType profile.providerType = kind at ha ⊢
  split at ha
  · next hgemini =>
    obtain rfl := Option.some.inj ha
    simp [hgemini, ProviderAdapter.health, geminiHeaders]
  · next hgemini =>
    split at ha
    · obtain rfl := Option.some.inj ha
      simp [ProviderAdapter.health]
    · obtain rfl := Option.some.inj ha
      simp [ProviderAdapter.health]
    · exact absurd rfl hgemini
    · cases ha

theorem healthRequests_plain (ha : healthAddress profile.providerType profile.baseUrl = none) :
    healthRequests host profile = plainRequests host profile.providerType profile.baseUrl none := by
  unfold healthAddress at ha
  split at ha
  · cases ha
  next hgemini =>
  unfold healthRequests plainRequests
  rcases buildAdapter_plain hgemini (Option.map_eq_none_iff.mp ha) with ⟨hollama, hb⟩ | ⟨hother, error, hb⟩
  · rw [hb, if_pos hollama]
    rfl
  · rw [hb, if_neg hother]

theorem healthRequests_secret {sent : OutgoingRequest} {secret : String}
    (hs : sent ∈ healthRequests host profile) (hsecret : sent.secret = some secret) :
    healthAddress profile.providerType profile.baseUrl = some sent.address ∧
      host.accepts sent.address = true ∧ (profile.credentials.Holds secret ∨ host.Holds secret) := by
  unfold healthRequests at hs
  split at hs
  swap
  · cases hs
  next adapter hadapter =>
  cases buildAdapter_ok hadapter with
  | @openai default apiKey supports hgemini hdefault hsupports hkey =>
    obtain ⟨rfl, haccepts⟩ := mem_post hs
    obtain rfl : apiKey = secret := Option.some.inj hsecret
    exact ⟨by rw [healthAddress, if_neg hgemini, hdefault]; rfl, haccepts, hkey⟩
  | @gemini apiKey accessToken hgemini hkey =>
    rw [ProviderAdapter.health] at hs
    split at hs
    swap
    · cases hs
    next header hheader =>
    obtain ⟨rfl, haccepts⟩ := mem_post hs
    obtain rfl : header.secret = secret := Option.some.inj hsecret
    exact ⟨by rw [healthAddress, if_pos hgemini], haccepts,
      hkey _ ((geminiHeaders_eq_some hheader).imp_right And.right)⟩
  | ollama hollama =>
    obtain ⟨address, -, hs⟩ := List.mem_flatMap.mp hs
    obtain ⟨rfl, -⟩ := mem_post hs
    cases hsecret

end Adapters

end Gail.Gateway
