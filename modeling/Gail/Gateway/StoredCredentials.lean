import Gail.Gateway.OpenAIRequests

/-! Where the credentials of the configured profiles go: by their own requests to the addresses of their
profile, and on which routes a request sends them elsewhere. -/
namespace Gail.Gateway
open Gail.Library

section Addresses
variable {κ ι : Type} {profile : ProviderProfile κ} {address : String}

/-- The own base of a profile, and the default of its provider. -/
def ProviderProfile.addresses (profile : ProviderProfile κ) : List String :=
  profile.baseUrl.toList ++ (defaultAddress profile.providerType).toList

def ProviderProfile.Owns (profile : ProviderProfile κ) (address : String) : Prop :=
  ∃ own ∈ profile.addresses, endpointOf own = endpointOf address

instance : Decidable (profile.Owns address) := by
  unfold ProviderProfile.Owns
  infer_instance

@[simp] theorem owns_fill (f : ProviderProfile κ → ι) : (profile.fill f).Owns address ↔ profile.Owns address :=
  Iff.rfl

theorem ProviderProfile.Owns.congr {other : String} (h : profile.Owns address) (he : endpointOf address = endpointOf other) :
    profile.Owns other := by
  obtain ⟨own, hmem, hown⟩ := h
  exact ⟨own, hmem, hown.trans he⟩

theorem owns_base {base : String} (hb : profile.baseUrl = some base)
    (he : endpointOf base = endpointOf address) : profile.Owns address := by
  refine ⟨base, List.mem_append_left _ ?_, he⟩
  rw [hb]
  exact List.mem_singleton_self base

theorem owns_default {default : String} (hd : defaultAddress profile.providerType = some default)
    (he : endpointOf default = endpointOf address) : profile.Owns address := by
  refine ⟨default, List.mem_append_right _ ?_, he⟩
  rw [hd]
  exact List.mem_singleton_self default

theorem endpointOf_trim (raw : String) : endpointOf (trim raw) = endpointOf raw := by
  rw [endpointOf, dropWhile_trim, trim, String.toList_ofList,
    rdropWhile_rdropWhile fun c hc => by rw [hc, Bool.true_or], endpointOf]

@[simp] theorem endpointOf_normalizeBaseUrl (raw : String) :
    endpointOf (normalizeBaseUrl raw) = endpointOf raw := by
  rw [endpointOf, normalizeBaseUrl, String.toList_ofList, dropWhile_rdropWhile (dropWhile_trim raw),
    rdropWhile_rdropWhile fun c hc => by rw [hc, Bool.or_true]]
  rw [← endpointOf_trim raw, endpointOf, dropWhile_trim]

theorem endpointOf_blank {raw : String} (h : isBlank raw = true) : endpointOf raw = "" := by
  rw [isBlank, String.isEmpty_iff] at h
  rw [← endpointOf_trim, h]
  rfl

/-- The base of an adapter is that of its profile, or the default. -/
theorem endpointOf_openaiBase (default : String) (base : Option String) :
    endpointOf (openaiBase default base) = endpointOf default ∨
      ∃ own, base = some own ∧ endpointOf (openaiBase default base) = endpointOf own := by
  rw [openaiBase, endpointOf_normalizeBaseUrl]
  cases hf : base.filter fun value => !isBlank value with
  | none => exact Or.inl rfl
  | some own => exact Or.inr ⟨own, (Option.filter_eq_some_iff.mp hf).1, rfl⟩

theorem owns_openaiBase {default : String} (hd : defaultAddress profile.providerType = some default)
    (he : endpointOf (openaiBase default profile.baseUrl) = endpointOf address) : profile.Owns address := by
  rcases endpointOf_openaiBase default profile.baseUrl with hdefault | ⟨own, hown, hbase⟩
  · exact owns_default hd (hdefault.symm.trans he)
  · exact owns_base hown (hbase.symm.trans he)

theorem defaultAddress_gemini {providerType : String} (h : normalizeProviderType providerType = "gemini") :
    defaultAddress providerType = some geminiUrl := by
  rw [defaultAddress, h]
  rfl

/-- A probe goes to the own addresses of the profile. -/
theorem owns_healthAddress (ha : healthAddress profile.providerType profile.baseUrl = some address) :
    profile.Owns address := by
  unfold healthAddress at ha
  split at ha
  · next hgemini =>
    obtain rfl := Option.some.inj ha
    exact owns_default (defaultAddress_gemini hgemini) rfl
  · obtain ⟨default, hd, rfl⟩ := Option.map_eq_some_iff.mp ha
    exact owns_openaiBase hd (endpointOf_normalizeBaseUrl _).symm

end Addresses

/-- Where a candidate has its credentials from. -/
inductive CandidateSource (κ : Type) where
  | request
  | configured (profile : ProviderProfile κ)
  | fallback

def ProviderProfile.sourced {κ : Type} (profile : ProviderProfile κ) : ProviderProfile (CandidateSource κ) :=
  profile.fill .configured

namespace CandidateSource
variable {κ ι : Type}

def fill (f : ProviderProfile κ → ι) : CandidateSource κ → CandidateSource ι
  | .request => .request
  | .configured profile => .configured (profile.fill f)
  | .fallback => .fallback

abbrev map (g : κ → ι) : CandidateSource κ → CandidateSource ι := fill fun profile => g profile.credentials

/-- The credentials of a candidate, for those of the request. -/
def resolve (credentials : Credentials) : CandidateSource Credentials → Credentials
  | .request => credentials
  | .configured profile => profile.credentials
  | .fallback => { apiKey := none, accessToken := none }

end CandidateSource

/-- The candidates with the sources of their credentials. -/
def sourcedCandidates {κ : Type} (host : Host) (profiles : List (ProviderProfile κ))
    (request : CompletionRouting) (usable : Bool) : List (ProviderProfile (CandidateSource κ)) :=
  buildCandidates host.env (profiles.map ProviderProfile.sourced) request
    (request.includeConfigured.getD host.includeConfiguredCandidates) usable .request .fallback

section Sources
variable {κ ι : Type} {host : Host} {profiles : List (ProviderProfile κ)} {request : CompletionRouting}
  {usable : Bool} {candidate : ProviderProfile (CandidateSource κ)}

theorem sourcedCandidates_fill (f : ProviderProfile κ → ι) :
    sourcedCandidates host (profiles.map (ProviderProfile.fill f)) request usable =
      (sourcedCandidates host profiles request usable).map
        (ProviderProfile.map (CandidateSource.fill f)) := by
  unfold sourcedCandidates
  rw [← buildCandidates_map, List.map_map, List.map_map]
  rfl

theorem mem_sourcedCandidates_strip (h : candidate ∈ sourcedCandidates host profiles request usable) :
    candidate.map (CandidateSource.map fun _ => ()) ∈
      sourcedCandidates host (profiles.map ProviderProfile.strip) request usable := by
  have hmap := List.mem_map_of_mem (f := ProviderProfile.map (CandidateSource.map fun _ => ())) h
  rwa [← sourcedCandidates_fill] at hmap

theorem sourcedCandidates_cases (h : candidate ∈ sourcedCandidates host profiles request usable) :
    (∃ provider, request.preferredProvider = some provider ∧
        candidate = requestCandidate request provider .request) ∨
      (∃ profile ∈ profiles, candidate = profile.sourced) ∨ candidate.normalizedType = "ollama" := by
  rcases buildCandidates_cases h with hrequest | hconfigured | hollama
  · exact Or.inl hrequest
  · obtain ⟨profile, hp, rfl⟩ := List.mem_map.mp hconfigured
    exact Or.inr (Or.inl ⟨profile, hp, rfl⟩)
  · exact Or.inr (Or.inr hollama)

/-- The candidates of a completion. -/
theorem candidates_eq (profiles : List (ProviderProfile Credentials)) (request : CompletionRequest) :
    request.candidates host profiles =
      (sourcedCandidates host profiles request.toCompletionRouting
        (hasUsableValue request.preferredApiKey || hasUsableValue request.preferredAccessToken)).map
        (ProviderProfile.map (CandidateSource.resolve request.credentials)) := by
  unfold sourcedCandidates CompletionRequest.candidates
  rw [← buildCandidates_map, List.map_map]
  have hid : ProviderProfile.map (CandidateSource.resolve request.credentials) ∘ ProviderProfile.sourced =
      id := rfl
  rw [hid, List.map_id]
  rfl

end Sources

section Confined
variable (host : Host) (endpoint : OpenAIEndpoint) (request : OpenAIRequest)
  (shape : List (ProviderProfile Unit))

/-- The secret is of the caller, of the process, or of a profile that owns the address. -/
def AtHome (caller : Credentials) (profiles : List (ProviderProfile Credentials))
    (address secret : String) : Prop :=
  caller.Holds secret ∨ host.Holds secret ∨
    ∃ profile ∈ profiles, profile.credentials.Holds secret ∧ profile.Owns address

/-- No secret goes to an address of others. -/
def SecretsStayHome : Prop :=
  ∀ profiles : List (ProviderProfile Credentials), profiles.map ProviderProfile.strip = shape →
    ∀ sent ∈ endpoint.outgoing host profiles request, ∀ secret, sent.secret = some secret →
      AtHome host request.toCredentials profiles sent.address secret

/-- The same profiles, where they own the address with the same credentials. -/
def SameAt (address : String) : List (ProviderProfile Credentials) → List (ProviderProfile Credentials) → Prop :=
  List.Forall₂ fun profile other =>
    profile.strip = other.strip ∧ (profile.Owns address → profile.credentials = other.credentials)

/-- What goes to the base of the request does not depend on the credentials of profiles elsewhere. -/
def BaseSeesNoSecrets : Prop :=
  ∀ base, request.baseUrl = some base → ∀ profiles others : List (ProviderProfile Credentials),
    profiles.map ProviderProfile.strip = shape → SameAt base profiles others →
      ∀ sent, endpointOf sent.address = endpointOf base →
        (sent ∈ endpoint.outgoing host profiles request ↔ sent ∈ endpoint.outgoing host others request)

def CredentialsConfined : Prop :=
  SecretsStayHome host endpoint request shape ∧ BaseSeesNoSecrets host endpoint request shape

end Confined

section Sheltered
variable (host : Host) (shape : List (ProviderProfile Unit))

/-- The address is one of the profile, if the client takes it at all. -/
def Kept (profile : ProviderProfile Unit) (address : Option String) : Prop :=
  ∀ target, address = some target → host.accepts target = true → profile.Owns target

/-- Where a completion goes that a candidate is asked for. -/
def askedAddress {κ : Type} (base : Option String) (candidate : ProviderProfile κ) : Option String :=
  completionAddress candidate.providerType candidate.baseUrl (candidate.baseUrl.or base)

/-- A candidate is asked at addresses of the selected profile and of its own profile; the candidate of
the request is also probed at addresses of the selected one. -/
structure CandidateKept (selected : Option (ProviderProfile Unit)) (base : Option String)
    (candidate : ProviderProfile (CandidateSource Unit)) : Prop where
  probed : ∀ profile, selected = some profile → candidate.credentials = .request →
    Kept host profile (healthAddress candidate.providerType candidate.baseUrl)
  asked : ∀ profile, selected = some profile → host.asks candidate.strip = true →
    Kept host profile (askedAddress base candidate)
  own : ∀ profile, candidate.credentials = .configured profile → host.asks candidate.strip = true →
    Kept host profile (askedAddress base candidate)

def CandidatesKept (selected : Option (ProviderProfile Unit)) (request : CompletionRouting) : Prop :=
  ∀ candidate ∈ sourcedCandidates host shape request false, CandidateKept host selected request.baseUrl candidate

/-- On the route of the request no stored credential meets an address of others. -/
def RouteSheltered (endpoint : OpenAIEndpoint) (request : OpenAIRequest) : OpenAIResolvedRoute Unit → Prop
  | .orchestrated =>
    endpoint = .audioTranscriptions ∨ CandidatesKept host shape none (request.completionRouting
      (.orchestrated : OpenAIResolvedRoute Unit))
  | .explicit provider model selected =>
    request.apiKey.isSome = true ∨
      if endpoint = .audioTranscriptions then
        ∀ profile, selected = some profile →
          Kept host profile (transcriptionAddress provider (request.baseWith selected))
      else if request.hasProviderOverride then
        ∀ profile, selected = some profile →
          Kept host profile (completionAddress provider none (request.baseWith selected))
      else
        CandidatesKept host shape selected (request.completionRouting (.explicit provider model selected))

def CredentialsSheltered (endpoint : OpenAIEndpoint) (request : OpenAIRequest) : Prop :=
  ∀ route, resolveOpenaiRoute host.env shape request.model request.provider = .ok route →
    RouteSheltered host shape endpoint request route

end Sheltered

end Gail.Gateway
