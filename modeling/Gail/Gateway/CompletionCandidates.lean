import Gail.Gateway.ProviderRequests

/-! The candidates for a completion: the provider that the request names, the configured profiles, and
the local Ollama. Which of them are tried, and when, is up to their ranking. -/
namespace Gail.Gateway
open Gail.Library

/-- A completion request but for its credentials. -/
structure CompletionRouting where
  preferredProvider : Option String
  preferredModel : Option String
  baseUrl : Option String
  includeConfigured : Option Bool

structure CompletionRequest extends CompletionRouting where
  preferredApiKey : Option String
  preferredAccessToken : Option String

def looksLikePlaceholderSecret (value : String) : Bool :=
  let trimmed := trim value
  toAsciiLowercase trimmed ∈
      ["none", "null", "nil", "undefined", "changeme", "replace_me", "redacted", "<redacted>", "***"] ||
    startsWith trimmed "$\x7b" || (startsWith trimmed "$" && 1 < trimmed.toList.length) ||
    (startsWith trimmed "\x7b\x7b" && "\x7d\x7d".toList.isSuffixOf trimmed.toList)

def hasUsableValue (value : Option String) : Bool :=
  ((value.map trim).filter fun value => !value.isEmpty).any fun value =>
    !looksLikePlaceholderSecret value

def parseBool (value : String) (default : Bool) : Bool :=
  let value := toAsciiLowercase (trim value)
  if value ∈ ["1", "true", "yes", "on"] then true
  else if value ∈ ["0", "false", "no", "off"] then false
  else default

def envBoolAny (env : Environment) (names : List String) (default : Bool) : Bool :=
  ((names.findSome? env).map fun value => parseBool value default).getD default

def envStringAny (env : Environment) (names : List String) : Option String :=
  names.findSome? fun name =>
    (env name).bind fun value =>
      let trimmed := trim value
      if trimmed.isEmpty || toAsciiLowercase trimmed ∈ ["none", "null", "nil", "undefined"] then none
      else some (String.ofList (trimmed.toList.rdropWhile fun c => c == '/'))

def envHasUsableValue (env : Environment) (names : List String) : Bool :=
  names.any fun name => hasUsableValue (env name)

def providerProfileIsUsable (env : Environment) (profile : ProviderProfile Credentials) : Bool :=
  let { apiKey, accessToken } := profile.credentials
  match normalizeProviderType profile.providerType with
  | "" => false
  | "openai" => hasUsableValue apiKey || envHasUsableValue env ["OPENAI_API_KEY"]
  | "nvidia" => hasUsableValue apiKey || envHasUsableValue env ["NVIDIA_API_KEY"]
  | "gemini" =>
    hasUsableValue apiKey || hasUsableValue accessToken ||
      envHasUsableValue env ["GEMINI_API_KEY", "GEMINI_ACCESS_TOKEN", "GOOGLE_ACCESS_TOKEN"]
  | other => !(trim other).isEmpty

/-- A model that is named, and not as the default one. -/
def requestedModel (model : Option String) : Option String :=
  (model.map trim).filter fun model => !model.isEmpty && !eqIgnoreAsciiCase model "default"

section Candidates
variable {κ : Type} (env : Environment) (profiles : List (ProviderProfile κ))
  (request : CompletionRouting) (includeConfigured : Bool)

def configuredModelMatchesRequest (provider : String) (model : Option String) : Bool :=
  match requestedModel model with
  | none => false
  | some requested =>
    profiles.any fun profile =>
      profile.normalizedType == normalizeProviderType provider &&
        profile.model.any fun configured => eqIgnoreAsciiCase (trim configured) requested

def requestCandidateModelAllowed (provider : String) (model : Option String) : Bool :=
  if envBoolAny env
      ["GAIL_ALLOW_UNCONFIGURED_OLLAMA_REQUEST_MODELS", "GAIL_ALLOW_UNCONFIGURED_OLLAMA_REQUEST_MODEL",
        "REFINER_AI_ALLOW_UNCONFIGURED_OLLAMA_REQUEST_MODELS"] false then true
  else if normalizeProviderType provider ≠ "ollama" then true
  else
    match requestedModel model with
    | none => true
    | some requested =>
      let requested := toAsciiLowercase
        (((stripPrefix "ollama/".toList requested.toList).map String.ofList).getD requested)
      let configured := ((profiles.filter fun profile => profile.normalizedType == "ollama").filterMap
        fun profile => (profile.model.map trim).filter fun model => !model.isEmpty).map toAsciiLowercase
      configured.isEmpty || configured.contains requested

def shouldIncludeConfiguredCandidates (hasRequestCandidates : Bool) : Bool :=
  includeConfigured || !hasRequestCandidates || request.preferredProvider.isSome

def requestCandidate (provider : String) (credentials : κ) : ProviderProfile κ :=
  { name := trim provider, providerType := trim provider, model := request.preferredModel
    baseUrl := request.baseUrl, preferred := true, credentials }

/-- The request candidate, if it is not skipped; `usable` tells if the request has usable credentials. -/
def requestPrimary (usable : Bool) (credentials : κ) : Option (ProviderProfile κ) :=
  match request.preferredProvider with
  | none => none
  | some provider =>
    let hasRequestEndpointOverride := usable || hasUsableValue request.baseUrl
    let skipConfigured := shouldIncludeConfiguredCandidates request includeConfigured true &&
      !hasUsableValue request.baseUrl &&
      configuredModelMatchesRequest profiles provider request.preferredModel
    let skipOllama := includeConfigured && normalizeProviderType provider == "ollama" &&
      !hasRequestEndpointOverride
    if requestCandidateModelAllowed env profiles provider request.preferredModel && !skipOllama &&
        !skipConfigured then
      some (requestCandidate request provider credentials)
    else none

/-- An explicit request to Ollama for a model that is not configured there. -/
def skipConfiguredOllamaProfiles (usable : Bool) : Bool :=
  match request.preferredProvider with
  | none => false
  | some provider =>
    !requestCandidateModelAllowed env profiles provider request.preferredModel && includeConfigured &&
      normalizeProviderType provider == "ollama" && !(usable || hasUsableValue request.baseUrl)

def configuredCandidates (usable : Bool) : List (ProviderProfile κ) :=
  let exactModelRouting := request.preferredProvider.map normalizeProviderType == some "openai"
  profiles.filter fun profile =>
    !(skipConfiguredOllamaProfiles env profiles request includeConfigured usable &&
        profile.normalizedType == "ollama") &&
      (!exactModelRouting || profile.normalizedType == "openai") &&
      (!exactModelRouting ||
        (requestedModel request.preferredModel).all fun model => profile.hasModel model)

/-- The local Ollama where no other Ollama is a candidate. -/
def localOllamaFallback (candidates : List (ProviderProfile κ)) (bare : κ) :
    Option (ProviderProfile κ) :=
  if envBoolAny env ["GAIL_DISABLE_OLLAMA_FALLBACK", "REFINER_AI_DISABLE_OLLAMA_FALLBACK"] false then none
  else if candidates.any fun candidate => eqIgnoreAsciiCase candidate.normalizedType "ollama" then none
  else
    some
      { name := "OllamaLocalFallback", providerType := "ollama"
        model := some ((envStringAny env
          ["GAIL_OLLAMA_MODEL", "OLLAMA_MODEL", "OLLAMA_DEFAULT_MODEL"]).getD "llama3.2")
        baseUrl := some ((envStringAny env
          ["GAIL_OLLAMA_BASE_URL", "OLLAMA_BASE_URL", "OLLAMA_HOST"]).getD
            "http://ollama.ollama.svc.cluster.local:11434")
        preferred := false, credentials := bare }

/-- `candidate_attempt_key`. -/
def ProviderProfile.attemptKey (candidate : ProviderProfile κ) : String :=
  candidate.normalizedType ++ "::" ++ trim (candidate.model.getD "") ++ "::" ++
    trim (candidate.baseUrl.getD "")

/-- `dedupe_candidates`, with the keys seen so far. -/
def dedupeCandidates : List String → List (ProviderProfile κ) → List (ProviderProfile κ)
  | _, [] => []
  | seen, candidate :: candidates =>
    if candidate.attemptKey ∈ seen then dedupeCandidates seen candidates
    else candidate :: dedupeCandidates (candidate.attemptKey :: seen) candidates

/-- All candidates, in their order. -/
def pooledCandidates (usable : Bool) (credentials bare : κ) : List (ProviderProfile κ) :=
  let primary := (requestPrimary env profiles request includeConfigured usable credentials).toList
  if shouldIncludeConfiguredCandidates request includeConfigured (!primary.isEmpty) then
    let candidates := primary ++ configuredCandidates env profiles request includeConfigured usable
    let appendFallback := request.preferredProvider.isNone ||
      (request.preferredProvider.map normalizeProviderType == some "ollama" && candidates.isEmpty)
    candidates ++ (if appendFallback then (localOllamaFallback env candidates bare).toList else [])
  else primary

/-- `build_candidates`, but for the test of the credentials. -/
def buildCandidates (usable : Bool) (credentials bare : κ) : List (ProviderProfile κ) :=
  dedupeCandidates [] (pooledCandidates env profiles request includeConfigured usable credentials bare)

end Candidates

/-- A profile with its credentials replaced. -/
abbrev ProviderProfile.map {κ ι : Type} (g : κ → ι) (profile : ProviderProfile κ) : ProviderProfile ι :=
  profile.fill fun profile => g profile.credentials

/-- A profile without its credentials. -/
abbrev ProviderProfile.strip {κ : Type} (profile : ProviderProfile κ) : ProviderProfile Unit :=
  profile.map fun _ => ()

section Replaced
variable {κ ι : Type} (g : κ → ι) (env : Environment) (profiles : List (ProviderProfile κ))
  (request : CompletionRouting) (includeConfigured usable : Bool)

theorem configuredModelMatchesRequest_map (provider : String) (model : Option String) :
    configuredModelMatchesRequest (profiles.map (ProviderProfile.map g)) provider model =
      configuredModelMatchesRequest profiles provider model := by
  unfold configuredModelMatchesRequest
  split
  · rfl
  · rw [List.any_map]
    simp only [Function.comp_def, normalizedType_fill, fill_model]

theorem filter_ollama_map :
    (profiles.map (ProviderProfile.map g)).filter (fun profile => profile.normalizedType == "ollama") =
      (profiles.filter fun profile => profile.normalizedType == "ollama").map
        (ProviderProfile.map g) := by
  rw [List.filter_map]
  simp only [Function.comp_def, normalizedType_fill]

theorem requestCandidateModelAllowed_map (provider : String) (model : Option String) :
    requestCandidateModelAllowed env (profiles.map (ProviderProfile.map g)) provider model =
      requestCandidateModelAllowed env profiles provider model := by
  unfold requestCandidateModelAllowed
  rw [filter_ollama_map, List.filterMap_map]
  simp only [Function.comp_def, fill_model]

theorem requestPrimary_map (credentials : κ) :
    requestPrimary env (profiles.map (ProviderProfile.map g)) request includeConfigured usable
        (g credentials) =
      (requestPrimary env profiles request includeConfigured usable credentials).map
        (ProviderProfile.map g) := by
  unfold requestPrimary
  split
  · rfl
  · simp only [requestCandidateModelAllowed_map, configuredModelMatchesRequest_map]
    split <;> rfl

theorem skipConfiguredOllamaProfiles_map :
    skipConfiguredOllamaProfiles env (profiles.map (ProviderProfile.map g)) request includeConfigured
        usable =
      skipConfiguredOllamaProfiles env profiles request includeConfigured usable := by
  unfold skipConfiguredOllamaProfiles
  simp only [requestCandidateModelAllowed_map]

theorem configuredCandidates_map :
    configuredCandidates env (profiles.map (ProviderProfile.map g)) request includeConfigured usable =
      (configuredCandidates env profiles request includeConfigured usable).map
        (ProviderProfile.map g) := by
  unfold configuredCandidates
  rw [List.filter_map, skipConfiguredOllamaProfiles_map]
  simp only [Function.comp_def, normalizedType_fill, hasModel_fill]

theorem localOllamaFallback_map (bare : κ) :
    localOllamaFallback env (profiles.map (ProviderProfile.map g)) (g bare) =
      (localOllamaFallback env profiles bare).map (ProviderProfile.map g) := by
  unfold localOllamaFallback
  rw [List.any_map]
  simp only [Function.comp_def, normalizedType_fill]
  split
  · rfl
  split <;> rfl

theorem attemptKey_map (candidate : ProviderProfile κ) :
    (candidate.map g).attemptKey = candidate.attemptKey := by
  unfold ProviderProfile.attemptKey
  rw [normalizedType_fill, fill_model, fill_baseUrl]

theorem dedupeCandidates_map (seen : List String) (candidates : List (ProviderProfile κ)) :
    dedupeCandidates seen (candidates.map (ProviderProfile.map g)) =
      (dedupeCandidates seen candidates).map (ProviderProfile.map g) := by
  induction candidates generalizing seen with
  | nil => rfl
  | cons candidate candidates ih =>
    rw [List.map_cons, dedupeCandidates, dedupeCandidates, attemptKey_map]
    split
    · exact ih seen
    · rw [List.map_cons, ih]

theorem pooledCandidates_map (credentials bare : κ) :
    pooledCandidates env (profiles.map (ProviderProfile.map g)) request includeConfigured usable
        (g credentials) (g bare) =
      (pooledCandidates env profiles request includeConfigured usable credentials bare).map
        (ProviderProfile.map g) := by
  have hprimary : (requestPrimary env (profiles.map (ProviderProfile.map g)) request includeConfigured
      usable (g credentials)).toList = (requestPrimary env profiles request includeConfigured usable
        credentials).toList.map (ProviderProfile.map g) := by
    rw [requestPrimary_map g env profiles request includeConfigured usable credentials]
    exact Option.toList_map
  unfold pooledCandidates
  dsimp only
  rw [hprimary, configuredCandidates_map, List.isEmpty_map, ← List.map_append, List.isEmpty_map,
    localOllamaFallback_map g env _ bare]
  split
  · split
    · rw [Option.toList_map, ← List.map_append]
    · rw [List.append_nil, List.append_nil]
  · rfl

/-- The candidates do not depend on the credentials. -/
theorem buildCandidates_map (credentials bare : κ) :
    buildCandidates env (profiles.map (ProviderProfile.map g)) request includeConfigured usable
        (g credentials) (g bare) =
      (buildCandidates env profiles request includeConfigured usable credentials bare).map
        (ProviderProfile.map g) := by
  unfold buildCandidates
  rw [pooledCandidates_map g env profiles request includeConfigured usable credentials bare,
    dedupeCandidates_map]

end Replaced

section Members
variable {κ : Type} {env : Environment} {profiles : List (ProviderProfile κ)}
  {request : CompletionRouting} {includeConfigured : Bool} {candidate : ProviderProfile κ}

/-- What the deduplication keeps: the first of each key. -/
theorem mem_dedupeCandidates {seen : List String} {candidates : List (ProviderProfile κ)} :
    candidate ∈ dedupeCandidates seen candidates ↔
      candidate.attemptKey ∉ seen ∧
        candidates.find? (fun other => other.attemptKey == candidate.attemptKey) = some candidate := by
  induction candidates generalizing seen with
  | nil => simp [dedupeCandidates]
  | cons first rest ih =>
    rw [dedupeCandidates, List.find?_cons]
    by_cases hkey : first.attemptKey = candidate.attemptKey
    · rw [hkey, beq_self_eq_true]
      split
      · next hs =>
        rw [ih]
        exact ⟨fun h => absurd hs h.1, fun h => absurd hs h.1⟩
      · next hs =>
        rw [List.mem_cons, ih]
        constructor
        · rintro (rfl | ⟨hnot, -⟩)
          · exact ⟨hs, rfl⟩
          · exact absurd List.mem_cons_self hnot
        · rintro ⟨-, hf⟩
          exact Or.inl (Option.some.inj hf).symm
    · rw [beq_eq_false_iff_ne.mpr hkey]
      split
      · exact ih
      · rw [List.mem_cons, ih, List.mem_cons, not_or]
        constructor
        · rintro (rfl | ⟨⟨-, hnot⟩, hf⟩)
          · exact absurd rfl hkey
          · exact ⟨hnot, hf⟩
        · rintro ⟨hnot, hf⟩
          exact Or.inr ⟨⟨Ne.symm hkey, hnot⟩, hf⟩

theorem requestPrimary_eq_some {usable : Bool} {credentials : κ}
    (h : requestPrimary env profiles request includeConfigured usable credentials = some candidate) :
    ∃ provider, request.preferredProvider = some provider ∧
      candidate = requestCandidate request provider credentials := by
  unfold requestPrimary at h
  split at h
  · cases h
  next provider hprovider =>
  dsimp only at h
  split at h
  · exact ⟨provider, hprovider, (Option.some.inj h).symm⟩
  · cases h

theorem localOllamaFallback_ollama {candidates : List (ProviderProfile κ)} {bare : κ}
    (h : localOllamaFallback env candidates bare = some candidate) :
    candidate.normalizedType = "ollama" := by
  unfold localOllamaFallback at h
  split at h
  · cases h
  split at h
  · cases h
  obtain rfl := Option.some.inj h
  exact normalizeProviderType_supported rfl

/-- A candidate is that of the request, a configured profile, or the local Ollama. -/
theorem buildCandidates_cases {usable : Bool} {credentials bare : κ}
    (h : candidate ∈ buildCandidates env profiles request includeConfigured usable credentials bare) :
    (∃ provider, request.preferredProvider = some provider ∧
        candidate = requestCandidate request provider credentials) ∨
      candidate ∈ profiles ∨ candidate.normalizedType = "ollama" := by
  have hpool := List.mem_of_find?_eq_some (mem_dedupeCandidates.mp h).2
  unfold pooledCandidates at hpool
  dsimp only at hpool
  split at hpool
  · rcases List.mem_append.mp hpool with hpool | hpool
    · rcases List.mem_append.mp hpool with hprimary | hconfigured
      · exact Or.inl (requestPrimary_eq_some (Option.mem_toList.mp hprimary))
      · exact Or.inr (Or.inl (List.mem_of_mem_filter hconfigured))
    · split at hpool
      · exact Or.inr (Or.inr (localOllamaFallback_ollama (Option.mem_toList.mp hpool)))
      · cases hpool
  · exact Or.inl (requestPrimary_eq_some (Option.mem_toList.mp hpool))

/-- The providers with credentials. -/
theorem completionAddress_kind {providerType address : String} {profileBase requestBase : Option String}
    (ha : completionAddress providerType profileBase requestBase = some address) :
    normalizeProviderType providerType ∈ ["openai", "nvidia", "gemini"] := by
  unfold completionAddress defaultAddress at ha
  generalize normalizeProviderType providerType = kind at ha ⊢
  split at ha
  · next hgemini =>
    rw [hgemini]
    decide
  · split at ha
    · decide
    · decide
    · decide
    · cases ha

theorem attemptKey_ne_ollama {other : ProviderProfile κ}
    (hc : candidate.normalizedType ∈ ["openai", "nvidia", "gemini"])
    (ho : other.normalizedType = "ollama") : other.attemptKey ≠ candidate.attemptKey := by
  intro hkey
  have hsecond := congrArg (fun key => key.toList[1]?) hkey
  unfold ProviderProfile.attemptKey at hsecond
  rw [ho] at hsecond
  simp only [List.mem_cons, List.not_mem_nil, or_false] at hc
  rcases hc with hc | hc | hc
  · rw [hc] at hsecond
    simp at hsecond
  · rw [hc] at hsecond
    simp at hsecond
  · rw [hc] at hsecond
    simp at hsecond

/-- Not the local provider. -/
def ProviderProfile.remote (candidate : ProviderProfile κ) : Bool := !(candidate.normalizedType == "ollama")

theorem filter_remote_of_ollama {candidates : List (ProviderProfile κ)}
    (h : ∀ other ∈ candidates, other.normalizedType = "ollama") :
    candidates.filter ProviderProfile.remote = [] := by
  rw [List.filter_eq_nil_iff]
  intro other ho
  rw [ProviderProfile.remote, h other ho]
  decide

theorem requestCandidate_normalizedType (provider : String) (credentials : κ) :
    (requestCandidate request provider credentials).normalizedType = normalizeProviderType provider :=
  normalizeProviderType_trim provider

/-- The credentials of the request decide about local candidates only. -/
theorem pooledCandidates_remote (usable : Bool) (credentials bare : κ) :
    (pooledCandidates env profiles request includeConfigured usable credentials bare).filter
        ProviderProfile.remote =
      (pooledCandidates env profiles request includeConfigured false credentials bare).filter
        ProviderProfile.remote := by
  cases hp : request.preferredProvider with
  | none =>
    have hprimary : ∀ usable, requestPrimary env profiles request includeConfigured usable credentials =
        none := by
      intro usable
      rw [requestPrimary, hp]
    have hskip : ∀ usable, skipConfiguredOllamaProfiles env profiles request includeConfigured usable =
        false := by
      intro usable
      rw [skipConfiguredOllamaProfiles, hp]
    simp only [pooledCandidates, configuredCandidates, hprimary, hskip]
  | some provider =>
    by_cases hollama : normalizeProviderType provider = "ollama"
    · have hpool : ∀ usable, (pooledCandidates env profiles request includeConfigured usable credentials
          bare).filter ProviderProfile.remote = profiles.filter ProviderProfile.remote := by
        intro usable
        have hprimary : (requestPrimary env profiles request includeConfigured usable
            credentials).toList.filter ProviderProfile.remote = [] := by
          apply filter_remote_of_ollama
          intro other ho
          obtain ⟨named, hn, rfl⟩ := requestPrimary_eq_some (Option.mem_toList.mp ho)
          rw [requestCandidate_normalizedType, Option.some.inj (hn.symm.trans hp), hollama]
        have hfallback : ∀ candidates, (localOllamaFallback env candidates bare).toList.filter
            ProviderProfile.remote = [] := fun candidates =>
          filter_remote_of_ollama fun other ho => localOllamaFallback_ollama (Option.mem_toList.mp ho)
        have hconfigured : (configuredCandidates env profiles request includeConfigured usable).filter
            ProviderProfile.remote = profiles.filter ProviderProfile.remote := by
          rw [configuredCandidates, List.filter_filter, hp, Option.map_some, hollama]
          apply List.filter_congr
          intro other _
          rw [ProviderProfile.remote]
          cases other.normalizedType == "ollama" <;> simp
        have hinclude : ∀ has, shouldIncludeConfiguredCandidates request includeConfigured has = true := by
          intro has
          rw [shouldIncludeConfiguredCandidates, hp, Option.isSome_some, Bool.or_true]
        unfold pooledCandidates
        dsimp only
        rw [hinclude, if_pos rfl, List.filter_append, List.filter_append, hprimary, hconfigured,
          List.nil_append]
        split
        · rw [hfallback, List.append_nil]
        · exact List.append_nil _
      rw [hpool, hpool]
    · have hother : (normalizeProviderType provider == "ollama") = false := beq_eq_false_iff_ne.mpr hollama
      have hprimary : ∀ usable, requestPrimary env profiles request includeConfigured usable credentials =
          requestPrimary env profiles request includeConfigured false credentials := by
        intro usable
        simp only [requestPrimary, hp, hother, Bool.and_false, Bool.false_and]
      have hskip : ∀ usable, skipConfiguredOllamaProfiles env profiles request includeConfigured usable =
          false := by
        intro usable
        simp only [skipConfiguredOllamaProfiles, hp, hother, Bool.and_false, Bool.false_and]
      simp only [pooledCandidates, configuredCandidates, hprimary usable, hskip]

theorem buildCandidates_usable {usable : Bool} {credentials bare : κ}
    (hc : candidate.normalizedType ∈ ["openai", "nvidia", "gemini"]) :
    candidate ∈ buildCandidates env profiles request includeConfigured usable credentials bare ↔
      candidate ∈ buildCandidates env profiles request includeConfigured false credentials bare := by
  have hfind : ∀ candidates : List (ProviderProfile κ),
      candidates.find? (fun other => other.attemptKey == candidate.attemptKey) =
        (candidates.filter ProviderProfile.remote).find?
          fun other => other.attemptKey == candidate.attemptKey := by
    intro candidates
    rw [List.find?_filter]
    congr 1
    funext other
    by_cases ho : other.normalizedType = "ollama"
    · simp [beq_eq_false_iff_ne.mpr (attemptKey_ne_ollama hc ho)]
    · have hr : other.remote = true := by simp [ProviderProfile.remote, ho]
      simp only [hr, true_and, Bool.decide_eq_true]
  rw [buildCandidates, buildCandidates, mem_dedupeCandidates, mem_dedupeCandidates, hfind,
    pooledCandidates_remote, ← hfind]

end Members

end Gail.Gateway
