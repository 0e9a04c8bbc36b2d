import Gail.Gateway.StoredCredentials

/-! When the credentials of the configured profiles stay at the addresses of their profiles: exactly on the
sheltered routes. -/
namespace Gail.Gateway
open Gail.Library

section Kinds
variable {κ : Type} {profile : ProviderProfile κ} {address : String}

theorem healthAddress_kind {providerType : String} {profileBase : Option String}
    (ha : healthAddress providerType profileBase = some address) :
    normalizeProviderType providerType ∈ ["openai", "nvidia", "gemini"] := by
  unfold healthAddress defaultAddress at ha
  generalize normalizeProviderType providerType = kind at ha ⊢
  split at ha
  · next hgemini =>
    rw [hgemini]
    decide
  · split at ha
    · decide
    · decide
    · decide
    · cases ha

theorem not_ollama_of_kind {kind : String} (h : kind ∈ ["openai", "nvidia", "gemini"]) : kind ≠ "ollama" := by
  rintro rfl
  revert h
  decide

/-- A candidate with an address for credentials is the same one for every usability of the request. -/
theorem sourcedCandidates_usable {host : Host} {profiles : List (ProviderProfile κ)}
    {request : CompletionRouting} {usable : Bool} {candidate : ProviderProfile (CandidateSource κ)}
    (hkind : normalizeProviderType candidate.providerType ∈ ["openai", "nvidia", "gemini"]) :
    candidate ∈ sourcedCandidates host profiles request usable ↔
      candidate ∈ sourcedCandidates host profiles request false :=
  buildCandidates_usable hkind

end Kinds

section Home
variable {host : Host} {profiles : List (ProviderProfile Credentials)} {sent : OutgoingRequest}
  {secret : String}

theorem holds_or {left right : Credentials} {apiKey accessToken : Option String}
    (hkey : apiKey = left.apiKey.or right.apiKey) (htoken : accessToken = left.accessToken.or right.accessToken)
    (h : Credentials.Holds { apiKey, accessToken } secret) : left.Holds secret ∨ right.Holds secret := by
  subst hkey htoken
  rcases h with h | h
  · rcases Option.or_eq_some_iff.mp h with hl | ⟨-, hr⟩
    · exact Or.inl (Or.inl hl)
    · exact Or.inr (Or.inl hr)
  · rcases Option.or_eq_some_iff.mp h with hl | ⟨-, hr⟩
    · exact Or.inl (Or.inr hl)
    · exact Or.inr (Or.inr hr)

/-- What a candidate sends with a secret: its probe with its own, or the completion with that of the
request or its own. -/
inductive Asked (host : Host) (request : CompletionRequest) (candidate : ProviderProfile Credentials)
    (sent : OutgoingRequest) (secret : String) : Prop where
  | probe (ha : healthAddress candidate.providerType candidate.baseUrl = some sent.address)
      (haccepts : host.accepts sent.address = true)
      (hs : candidate.credentials.Holds secret ∨ host.Holds secret)
      (hkey : ∀ key, candidate.credentials.apiKey = some key → secret = key)
  | completion (hasks : host.asks candidate.strip = true)
      (ha : askedAddress request.baseUrl candidate = some sent.address)
      (haccepts : host.accepts sent.address = true)
      (hs : request.credentials.Holds secret ∨ candidate.credentials.Holds secret ∨ host.Holds secret)
      (hkey : ∀ key, request.preferredApiKey = some key → secret = key)

theorem post_secret {address key providerType : String}
    (hs : sent ∈ post host address (some (credentialHeader providerType key))) : sent.secret = some key := by
  rw [(mem_post hs).1]
  exact congrArg some (credentialHeader_secret _ _)

theorem healthRequests_key {profile : ProviderProfile Credentials} {key : String}
    (hs : sent ∈ healthRequests host profile) (hsecret : sent.secret = some secret)
    (hkey : profile.credentials.apiKey = some key) : secret = key := by
  obtain ⟨ha, -, -⟩ := healthRequests_secret hs hsecret
  rw [healthRequests_eq ha hkey] at hs
  exact Option.some.inj (hsecret.symm.trans (post_secret hs))

theorem asked_of_mem {request : CompletionRequest} {candidate : ProviderProfile Credentials}
    (hs : sent ∈ request.ask host candidate) (hsecret : sent.secret = some secret) :
    Asked host request candidate sent secret := by
  unfold CompletionRequest.ask at hs
  rcases List.mem_append.mp hs with hs | hs
  · obtain ⟨ha, haccepts, hholds⟩ := healthRequests_secret hs hsecret
    exact .probe ha haccepts hholds fun key hkey => healthRequests_key hs hsecret hkey
  · split at hs
    swap
    · cases hs
    next hasks =>
    obtain ⟨ha, haccepts, hholds⟩ := completionRequests_secret hs hsecret
    refine .completion hasks ha haccepts ?_ fun key hkey => ?_
    · rcases hholds with hk | ⟨-, hk | hk | hk⟩
      · exact (holds_or rfl rfl (Or.inl hk)).imp_right Or.inl
      · exact (holds_or rfl rfl hk).imp_right Or.inl
      · exact Or.inr (Or.inl hk)
      · exact Or.inr (Or.inr hk)
    · have hor : (providerRequestFromProfile candidate request.providerRequest).apiKey = some key := by
        change request.preferredApiKey.or candidate.credentials.apiKey = some key
        rw [hkey, Option.some_or]
      rcases hholds with hk | ⟨hnone, -⟩
      · exact Option.some.inj (hk.symm.trans hor)
      · cases hnone.symm.trans hor

/-- A completion keeps the credentials at home where its candidates are kept, and lends those of the
selected profile at most. -/
theorem complete_home {request : CompletionRequest} {caller : Credentials}
    {selected : Option (ProviderProfile Credentials)}
    (hmem : ∀ profile, selected = some profile → profile ∈ profiles)
    (hlent : ∀ secret, request.credentials.Holds secret →
      caller.Holds secret ∨ ∃ profile, selected = some profile ∧ profile.credentials.Holds secret)
    (hkept : CandidatesKept host (profiles.map ProviderProfile.strip) (selected.map ProviderProfile.strip)
      request.toCompletionRouting)
    (hs : sent ∈ request.complete host profiles) (hsecret : sent.secret = some secret) :
    AtHome host caller profiles sent.address secret := by
  obtain ⟨candidate, hc, hs⟩ := List.mem_flatMap.mp hs
  rw [List.mem_filter, candidates_eq] at hc
  obtain ⟨source, hsource, rfl⟩ := List.mem_map.mp hc.1
  -- the candidate as the condition sees it
  have hsheltered : normalizeProviderType source.providerType ∈ ["openai", "nvidia", "gemini"] →
      CandidateKept host (selected.map ProviderProfile.strip) request.baseUrl
        (source.map (CandidateSource.map fun _ => ())) := by
    intro hkind
    exact hkept _ (mem_sourcedCandidates_strip ((sourcedCandidates_usable hkind).mp hsource))
  have hselected : ∀ {profile}, selected = some profile → profile.Owns sent.address →
      profile.credentials.Holds secret → AtHome host caller profiles sent.address secret :=
    fun hp howns hholds => Or.inr (Or.inr ⟨_, hmem _ hp, hholds, howns⟩)
  cases asked_of_mem hs hsecret with
  | probe ha haccepts hholds hkey =>
    rcases hholds with hholds | hhost
    swap
    · exact Or.inr (Or.inl hhost)
    have hkind := healthAddress_kind ha
    rcases sourcedCandidates_cases hsource with ⟨provider, -, rfl⟩ | ⟨profile, hp, rfl⟩ | hollama
    · rcases hlent secret hholds with hcaller | ⟨profile, hp, hprofile⟩
      · exact Or.inl hcaller
      · refine hselected hp ((hsheltered hkind).probed profile.strip ?_ rfl _ ha haccepts) hprofile
        rw [hp, Option.map_some]
    · exact Or.inr (Or.inr ⟨profile, hp, hholds, owns_healthAddress ha⟩)
    · exact absurd hollama (not_ollama_of_kind hkind)
  | completion hasks ha haccepts hholds hkey =>
    have hkind := completionAddress_kind ha
    have hlend : request.credentials.Holds secret → AtHome host caller profiles sent.address secret := by
      intro hrequest
      rcases hlent secret hrequest with hcaller | ⟨profile, hp, hprofile⟩
      · exact Or.inl hcaller
      · refine hselected hp ((hsheltered hkind).asked profile.strip ?_ hasks _ ha haccepts) hprofile
        rw [hp, Option.map_some]
    rcases hholds with hrequest | hholds | hhost
    · exact hlend hrequest
    · rcases sourcedCandidates_cases hsource with ⟨provider, -, rfl⟩ | ⟨profile, hp, rfl⟩ | hollama
      · exact hlend hholds
      · exact Or.inr (Or.inr ⟨profile, hp, hholds,
          (hsheltered hkind).own profile.strip rfl hasks _ ha haccepts⟩)
      · exact absurd hollama (not_ollama_of_kind hkind)
    · exact Or.inr (Or.inl hhost)

/-- So it does where the caller brings a key. -/
theorem complete_home_of_key {request : CompletionRequest} {caller : Credentials} {key : String}
    (hcaller : caller.apiKey = some key) (hkey : request.preferredApiKey = some key)
    (hs : sent ∈ request.complete host profiles) (hsecret : sent.secret = some secret) :
    AtHome host caller profiles sent.address secret := by
  obtain ⟨candidate, hc, hs⟩ := List.mem_flatMap.mp hs
  rw [List.mem_filter, candidates_eq] at hc
  obtain ⟨source, hsource, rfl⟩ := List.mem_map.mp hc.1
  have hown : secret = key → AtHome host caller profiles sent.address secret := by
    rintro rfl
    exact Or.inl (Or.inl hcaller)
  cases asked_of_mem hs hsecret with
  | probe ha haccepts hholds hprobe =>
    rcases sourcedCandidates_cases hsource with ⟨provider, -, rfl⟩ | ⟨profile, hp, rfl⟩ | hollama
    · exact hown (hprobe key hkey)
    · rcases hholds with hholds | hhost
      · exact Or.inr (Or.inr ⟨profile, hp, hholds, owns_healthAddress ha⟩)
      · exact Or.inr (Or.inl hhost)
    · exact absurd hollama (not_ollama_of_kind (healthAddress_kind ha))
  | completion hasks ha haccepts hholds hcompletion => exact hown (hcompletion key hkey)

end Home

section Named
variable {κ : Type} {host : Host} {request : ProviderCompletionRequest} {address : String}

theorem defaultAddress_congr {providerType other : String}
    (h : normalizeProviderType providerType = normalizeProviderType other) :
    defaultAddress providerType = defaultAddress other := by
  rw [defaultAddress, h, defaultAddress]

theorem namesProfile_iff {profile : ProviderProfile κ} :
    namesProfile request profile = true ↔
      (profile.normalizedType = normalizeProviderType request.provider ∧
        trim (profile.model.getD "") = trim (request.model.getD "")) ∧
      trim (profile.baseUrl.getD "") = trim (request.baseUrl.getD "") := by
  rw [namesProfile, Bool.and_eq_true, Bool.and_eq_true, beq_iff_eq, beq_iff_eq, beq_iff_eq]

theorem isBlank_of_trim {text : String} (h : trim text = trim "") : isBlank text = true := by
  have hempty : trim "" = "" := by decide +kernel
  rw [isBlank, h, hempty, String.isEmpty_iff]

theorem openaiBase_blank {default : String} {base : Option String} (h : trim (base.getD "") = trim "") :
    openaiBase default base = openaiBase default none := by
  cases base with
  | none => rfl
  | some base =>
    rw [Option.getD_some] at h
    rw [openaiBase, Option.filter_some, isBlank_of_trim h]
    rfl

/-- With a base of the request, that of the profile does not matter. -/
theorem completionAddress_some (provider base : String) (left right : Option String) :
    completionAddress provider left (some base) = completionAddress provider right (some base) := by
  unfold completionAddress
  simp only [Option.getD_some]

/-- Nor does that of a profile which the request names. -/
theorem completionAddress_named {provider : String} {base other : Option String}
    (h : trim (other.getD "") = trim (base.getD "")) :
    completionAddress provider (base.or other) base = completionAddress provider none base := by
  cases base with
  | some base => exact completionAddress_some provider base _ _
  | none =>
    unfold completionAddress
    simp only [Option.none_or, Option.getD_none, openaiBase_blank h]

/-- The profile that a request names owns the address of the request. -/
theorem owns_named {profile : ProviderProfile κ} (hn : namesProfile request profile = true)
    (ha : completionAddress request.provider none request.baseUrl = some address)
    (haccepts : host.accepts address = true) : profile.Owns address := by
  obtain ⟨⟨htype, -⟩, hbase⟩ := namesProfile_iff.mp hn
  have hdefault := defaultAddress_congr htype
  unfold completionAddress at ha
  split at ha
  · next hgemini =>
    obtain rfl := Option.some.inj ha
    exact owns_default (hdefault.trans (defaultAddress_gemini hgemini)) rfl
  obtain ⟨default, hd, rfl⟩ := Option.map_eq_some_iff.mp ha
  cases hb : request.baseUrl with
  | none =>
    apply owns_default (hdefault.trans hd)
    rw [endpointOf_normalizeBaseUrl, endpointOf_normalizeBaseUrl]
    exact (endpointOf_normalizeBaseUrl default).symm
  | some base =>
    rw [hb, Option.getD_some] at hbase haccepts
    cases hp : profile.baseUrl with
    | some own =>
      apply owns_base hp
      rw [endpointOf_normalizeBaseUrl, endpointOf_normalizeBaseUrl, Option.getD_some,
        ← endpointOf_trim base, ← hbase, hp, Option.getD_some, endpointOf_trim]
    | none =>
      rw [hp] at hbase
      have hblank : endpointOf base = "" := endpointOf_blank (isBlank_of_trim hbase.symm)
      rw [host.relative] at haccepts
      · cases haccepts
      · rw [endpointOf_normalizeBaseUrl, endpointOf_normalizeBaseUrl, hblank]

theorem directProviderProfile_address (profiles : List (ProviderProfile Credentials)) :
    completionAddress (directProviderProfile profiles request).providerType
        (directProviderProfile profiles request).baseUrl request.baseUrl =
      completionAddress request.provider none request.baseUrl := by
  unfold directProviderProfile
  dsimp only
  cases hf : profiles.find? (namesProfile request) with
  | none =>
    change completionAddress request.provider (request.baseUrl.or none) request.baseUrl = _
    rw [Option.or_none]
    cases request.baseUrl with
    | none => rfl
    | some base => exact completionAddress_some request.provider base _ _
  | some profile => exact completionAddress_named (namesProfile_iff.mp (List.find?_some hf)).2

/-- The credentials of a direct request, or else those of the profile that it names. -/
theorem directProviderProfile_holds {profiles : List (ProviderProfile Credentials)} {secret : String}
    (h : (directProviderProfile profiles request).credentials.Holds secret) :
    request.toCredentials.Holds secret ∨
      ∃ profile ∈ profiles, namesProfile request profile = true ∧ profile.credentials.Holds secret := by
  unfold directProviderProfile at h
  dsimp only at h
  cases hf : profiles.find? (namesProfile request) with
  | none =>
    rw [hf] at h
    exact Or.inl ((holds_or rfl rfl h).resolve_right fun hn => by rcases hn with hn | hn <;> cases hn)
  | some profile =>
    rw [hf] at h
    exact (holds_or rfl rfl h).imp_right fun hp =>
      ⟨profile, List.mem_of_find?_eq_some hf, List.find?_some hf, hp⟩

end Named

section Dispatched
variable {host : Host} {profiles : List (ProviderProfile Credentials)} {request : OpenAIRequest}
  {selected : Option (ProviderProfile Credentials)} {provider : String} {sent : OutgoingRequest}
  {secret key : String}

theorem credentialsWith_holds (h : (request.credentialsWith selected).Holds secret) :
    request.toCredentials.Holds secret ∨
      ∃ profile, selected = some profile ∧ profile.credentials.Holds secret := by
  cases selected with
  | none =>
    rcases h with h | h
    · exact Or.inl (Or.inl ((Option.or_none ..).symm.trans h))
    · exact Or.inl (Or.inr ((Option.or_none ..).symm.trans h))
  | some profile => exact (holds_or rfl rfl h).imp_right fun hp => ⟨profile, rfl, hp⟩

theorem credentialsWith_key (h : request.apiKey = some key) :
    (request.credentialsWith selected).apiKey = some key := by
  rw [OpenAIRequest.credentialsWith, h, Option.some_or]

theorem baseWith_fill {κ ι : Type} (f : ProviderProfile κ → ι) (selected : Option (ProviderProfile κ)) :
    request.baseWith (selected.map (ProviderProfile.fill f)) = request.baseWith selected := by
  cases selected <;> rfl

/-- A direct request keeps the credentials at home where it brings a key, or goes to the selected
profile. -/
theorem directComplete_home {model : Option String}
    (hmem : ∀ profile, selected = some profile → profile ∈ profiles)
    (hkept : request.apiKey.isSome = true ∨ ∀ profile, selected = some profile →
      Kept host profile.strip (completionAddress provider none (request.baseWith selected)))
    (hs : sent ∈ directComplete host profiles
      (request.buildDirectProviderRequest provider model selected))
    (hsecret : sent.secret = some secret) :
    AtHome host request.toCredentials profiles sent.address secret := by
  obtain ⟨ha, haccepts, hholds⟩ := completionRequests_secret hs hsecret
  rw [directProviderProfile_address] at ha
  have hlent : (request.credentialsWith selected).Holds secret →
      AtHome host request.toCredentials profiles sent.address secret := by
    intro hrequest
    rcases hkept with hkey | hkept
    · obtain ⟨key, hkey⟩ := Option.isSome_iff_exists.mp hkey
      have hwith : (request.credentialsWith selected).apiKey = some key := credentialsWith_key hkey
      rcases hholds with hsome | ⟨hnone, -⟩
      · exact Or.inl (Or.inl (hkey.trans (hwith.symm.trans hsome)))
      · cases hnone.symm.trans hwith
    · rcases credentialsWith_holds hrequest with hcaller | ⟨profile, hp, hprofile⟩
      · exact Or.inl hcaller
      · exact Or.inr (Or.inr ⟨profile, hmem profile hp, hprofile, hkept profile hp _ ha haccepts⟩)
  rcases hholds with hsome | ⟨-, hrequest | hprofile | hhost⟩
  · exact hlent (Or.inl hsome)
  · exact hlent hrequest
  · rcases directProviderProfile_holds hprofile with hrequest | ⟨profile, hp, hnamed, hprofile⟩
    · exact hlent hrequest
    · exact Or.inr (Or.inr ⟨profile, hp, hprofile, owns_named hnamed ha haccepts⟩)
  · exact Or.inr (Or.inl hhost)

theorem transcribe_home {model : Option String}
    (hmem : ∀ profile, selected = some profile → profile ∈ profiles)
    (hkept : request.apiKey.isSome = true ∨ ∀ profile, selected = some profile →
      Kept host profile.strip (transcriptionAddress provider (request.baseWith selected)))
    (hs : sent ∈ transcribe host provider model (request.credentialsWith selected)
      (request.baseWith selected))
    (hsecret : sent.secret = some secret) :
    AtHome host request.toCredentials profiles sent.address secret := by
  obtain ⟨ha, haccepts, hholds⟩ := transcriptionRequests_secret hs hsecret
  rcases hholds with hrequest | hhost
  swap
  · exact Or.inr (Or.inl hhost)
  rcases hkept with hkey | hkept
  · obtain ⟨key, hkey⟩ := Option.isSome_iff_exists.mp hkey
    unfold transcribe at hs
    rw [transcriptionRequests_eq ha (credentialsWith_key hkey)] at hs
    exact Or.inl (Or.inl (hkey.trans ((post_secret hs).symm.trans hsecret)))
  · rcases credentialsWith_holds hrequest with hcaller | ⟨profile, hp, hprofile⟩
    · exact Or.inl hcaller
    · exact Or.inr (Or.inr ⟨profile, hmem profile hp, hprofile, hkept profile hp _ ha haccepts⟩)

/-- What goes out on the route of a request. -/
theorem outgoing_eq {endpoint : OpenAIEndpoint} {route : OpenAIResolvedRoute Credentials}
    (hroute : resolveOpenaiRoute host.env profiles request.model request.provider = .ok route) :
    endpoint.outgoing host profiles request =
      if endpoint = .audioTranscriptions then transcribeRoute host request route
      else dispatchRoute host profiles request route := by
  cases endpoint with
  | chatCompletions =>
    rw [OpenAIEndpoint.outgoing, dispatchOpenaiChatCompletion, sentOn, hroute]
    rfl
  | responses =>
    rw [OpenAIEndpoint.outgoing, dispatchOpenaiResponses, sentOn, hroute]
    rfl
  | audioTranscriptions =>
    rw [OpenAIEndpoint.outgoing, openaiAudioTranscriptions, sentOn, hroute]
    rfl

theorem outgoing_of_error {endpoint : OpenAIEndpoint} {error : String}
    (hroute : resolveOpenaiRoute host.env profiles request.model request.provider = .error error) :
    endpoint.outgoing host profiles request = [] := by
  cases endpoint with
  | chatCompletions => rw [OpenAIEndpoint.outgoing, dispatchOpenaiChatCompletion, sentOn, hroute]
  | responses => rw [OpenAIEndpoint.outgoing, dispatchOpenaiResponses, sentOn, hroute]
  | audioTranscriptions => rw [OpenAIEndpoint.outgoing, openaiAudioTranscriptions, sentOn, hroute]

theorem completionRouting_fill {κ ι : Type} (request : OpenAIRequest) (f : ProviderProfile κ → ι) (route : OpenAIResolvedRoute κ) :
    request.completionRouting (route.fill f) = request.completionRouting route := by
  cases route with
  | orchestrated => rfl
  | explicit provider model selected => cases selected <;> rfl

theorem secretsStayHome_of_sheltered {endpoint : OpenAIEndpoint} {shape : List (ProviderProfile Unit)}
    (h : CredentialsSheltered host shape endpoint request) :
    SecretsStayHome host endpoint request shape := by
  rintro profiles rfl sent hs secret hsecret
  cases hroute : resolveOpenaiRoute host.env profiles request.model request.provider with
  | error error =>
    rw [outgoing_of_error hroute] at hs
    cases hs
  | ok route =>
    have hsheltered := h (route.fill fun _ => ()) (by
      change resolveOpenaiRoute host.env (profiles.map (ProviderProfile.fill fun _ => ())) _ _ = _
      rw [resolveOpenaiRoute_fill, hroute]
      rfl)
    rw [outgoing_eq hroute] at hs
    cases route with
    | orchestrated =>
      split at hs
      · cases hs
      next hendpoint =>
      have hkept : CandidatesKept host (profiles.map ProviderProfile.strip)
          (Option.map ProviderProfile.strip (none : Option (ProviderProfile Credentials)))
          (request.buildCompletionRequest .orchestrated).toCompletionRouting :=
        hsheltered.resolve_left hendpoint
      refine complete_home (fun _ hp => ?_) (fun _ hn => ?_) hkept hs hsecret
      · cases hp
      · rcases hn with hn | hn <;> cases hn
    | explicit provider model selected =>
      have hmem := (resolveOpenaiRoute_explicit hroute).mem
      rcases hsheltered with hkey | hsheltered
      · split at hs
        · exact transcribe_home hmem (Or.inl hkey) hs hsecret
        rw [dispatchRoute] at hs
        split at hs
        · exact directComplete_home hmem (Or.inl hkey) hs hsecret
        · obtain ⟨key, hkey⟩ := Option.isSome_iff_exists.mp hkey
          exact complete_home_of_key hkey (credentialsWith_key hkey) hs hsecret
      · split at hs
        · next hendpoint =>
          rw [if_pos hendpoint] at hsheltered
          refine transcribe_home hmem (Or.inr fun profile hp => ?_) hs hsecret
          rw [← baseWith_fill fun _ => ()]
          exact hsheltered profile.strip (by rw [hp, Option.map_some])
        next hendpoint =>
        rw [if_neg hendpoint] at hsheltered
        rw [dispatchRoute] at hs
        split at hs
        · next hoverride =>
          rw [if_pos hoverride] at hsheltered
          refine directComplete_home hmem (Or.inr fun profile hp => ?_) hs hsecret
          rw [← baseWith_fill fun _ => ()]
          exact hsheltered profile.strip (by rw [hp, Option.map_some])
        · next hoverride =>
          rw [if_neg hoverride] at hsheltered
          have hrouting := completionRouting_fill request (fun _ => ())
            (.explicit provider model selected)
          rw [OpenAIResolvedRoute.fill] at hrouting
          rw [hrouting] at hsheltered
          have hlent : ∀ secret,
              (request.buildCompletionRequest (.explicit provider model selected)).credentials.Holds secret →
                request.toCredentials.Holds secret ∨
                  ∃ profile, selected = some profile ∧ profile.credentials.Holds secret :=
            fun secret hholds => credentialsWith_holds hholds
          exact complete_home hmem hlent hsheltered hs hsecret

end Dispatched

end Gail.Gateway
