import Gail.Gateway.CredentialConfinement

/-! What goes to the base of a request on a sheltered route is the same for all credentials of the
profiles elsewhere. -/
namespace Gail.Gateway
open Gail.Library

section Keyed
variable {host : Host} {profile candidate other : ProviderProfile Credentials} {sent : OutgoingRequest}
  {address secret : String}

/-- What goes where credentials go has one. -/
theorem completionRequests_keyed {request : ProviderCompletionRequest}
    (ha : completionAddress profile.providerType profile.baseUrl request.baseUrl = some address)
    (hs : sent ∈ completionRequests host profile request) : ∃ secret, sent.secret = some secret := by
  unfold completionRequests at hs
  split at hs
  swap
  · cases hs
  next adapter hadapter =>
  cases buildAdapter_ok hadapter with
  | openai =>
    rw [(mem_post hs).1]
    exact ⟨_, rfl⟩
  | gemini =>
    rw [ProviderAdapter.complete] at hs
    split at hs
    · rw [(mem_post hs).1]
      exact ⟨_, rfl⟩
    · cases hs
  | ollama hollama => exact absurd hollama (not_ollama_of_kind (completionAddress_kind ha))

theorem healthRequests_keyed (ha : healthAddress profile.providerType profile.baseUrl = some address)
    (hs : sent ∈ healthRequests host profile) : ∃ secret, sent.secret = some secret := by
  unfold healthRequests at hs
  split at hs
  swap
  · cases hs
  next adapter hadapter =>
  cases buildAdapter_ok hadapter with
  | openai =>
    rw [(mem_post hs).1]
    exact ⟨_, rfl⟩
  | gemini =>
    rw [ProviderAdapter.health] at hs
    split at hs
    · rw [(mem_post hs).1]
      exact ⟨_, rfl⟩
    · cases hs
  | ollama hollama => exact absurd hollama (not_ollama_of_kind (healthAddress_kind ha))

theorem transcriptionRequests_keyed (hs : sent ∈ transcriptionRequests host profile) :
    ∃ secret, sent.secret = some secret := by
  unfold transcriptionRequests at hs
  split at hs
  swap
  · cases hs
  next adapter hadapter =>
  cases buildAdapter_ok hadapter with
  | openai =>
    rw [ProviderAdapter.transcribe] at hs
    split at hs
    · rw [(mem_post hs).1]
      exact ⟨_, rfl⟩
    · cases hs
  | gemini =>
    rw [ProviderAdapter.transcribe, ProviderAdapter.complete] at hs
    split at hs
    · rw [(mem_post hs).1]
      exact ⟨_, rfl⟩
    · cases hs
  | ollama => cases hs

theorem plainRequests_ollama {providerType : String} {profileBase requestBase : Option String}
    (h : sent ∈ plainRequests host providerType profileBase requestBase) :
    normalizeProviderType providerType = "ollama" ∧ host.accepts sent.address = true := by
  unfold plainRequests at h
  split at h
  · next hollama =>
    obtain ⟨address, -, hs⟩ := List.mem_flatMap.mp h
    obtain ⟨rfl, haccepts⟩ := mem_post hs
    exact ⟨hollama, haccepts⟩
  · cases h

/-- What a candidate sends without a secret: requests to Ollama. -/
theorem ask_plain_iff {request : CompletionRequest} (hsecret : sent.secret = none) :
    sent ∈ request.ask host candidate ↔
      sent ∈ plainRequests host candidate.providerType candidate.baseUrl none ∨
        host.asks candidate.strip = true ∧
          sent ∈ plainRequests host candidate.providerType candidate.baseUrl
            (candidate.baseUrl.or request.baseUrl) := by
  have hhealth : sent ∈ healthRequests host candidate ↔
      sent ∈ plainRequests host candidate.providerType candidate.baseUrl none := by
    cases ha : healthAddress candidate.providerType candidate.baseUrl with
    | none => rw [healthRequests_plain ha]
    | some address =>
      refine ⟨fun hs => ?_, fun hs => ?_⟩
      · obtain ⟨secret, hsome⟩ := healthRequests_keyed ha hs
        cases hsecret.symm.trans hsome
      · exact absurd (plainRequests_ollama hs).1 (not_ollama_of_kind (healthAddress_kind ha))
  have hcompletion : sent ∈ completionRequests host candidate
        (providerRequestFromProfile candidate request.providerRequest) ↔
      sent ∈ plainRequests host candidate.providerType candidate.baseUrl
        (candidate.baseUrl.or request.baseUrl) := by
    cases ha : completionAddress candidate.providerType candidate.baseUrl
        (providerRequestFromProfile candidate request.providerRequest).baseUrl with
    | none =>
      rw [completionRequests_plain ha]
      rfl
    | some address =>
      refine ⟨fun hs => ?_, fun hs => ?_⟩
      · obtain ⟨secret, hsome⟩ := completionRequests_keyed ha hs
        cases hsecret.symm.trans hsome
      · exact absurd (plainRequests_ollama hs).1 (not_ollama_of_kind (completionAddress_kind ha))
  rw [CompletionRequest.ask, List.mem_append, hhealth]
  split
  · next hasks => rw [hcompletion, eq_true hasks, true_and]
  · next hasks => rw [eq_false hasks, false_and]; simp

theorem usable_ollama (h : normalizeProviderType candidate.providerType = "ollama") :
    providerProfileIsUsable host.env candidate = true := by
  have hname : (!(trim "ollama").isEmpty) = true := by decide +kernel
  unfold providerProfileIsUsable
  rw [h]
  exact hname

/-- It does not depend on the credentials of the candidate. -/
theorem ask_plain_same {request : CompletionRequest} (hsame : candidate.strip = other.strip)
    (hsecret : sent.secret = none) (hs : sent ∈ request.ask host candidate) :
    providerProfileIsUsable host.env other = true ∧ sent ∈ request.ask host other := by
  have htype : candidate.providerType = other.providerType :=
    congrArg (fun profile : ProviderProfile Unit => profile.providerType) hsame
  have hbase : candidate.baseUrl = other.baseUrl :=
    congrArg (fun profile : ProviderProfile Unit => profile.baseUrl) hsame
  rw [ask_plain_iff hsecret, hsame, htype, hbase] at hs
  rw [ask_plain_iff hsecret]
  refine ⟨usable_ollama ?_, hs⟩
  rcases hs with hs | ⟨-, hs⟩
  · exact (plainRequests_ollama hs).1
  · exact (plainRequests_ollama hs).1

theorem ask_accepts {request : CompletionRequest} (hs : sent ∈ request.ask host candidate) :
    host.accepts sent.address = true := by
  cases hsecret : sent.secret with
  | none =>
    rcases (ask_plain_iff hsecret).mp hs with hs | ⟨-, hs⟩
    · exact (plainRequests_ollama hs).2
    · exact (plainRequests_ollama hs).2
  | some secret =>
    cases asked_of_mem hs hsecret with
    | probe _ haccepts => exact haccepts
    | completion _ _ haccepts => exact haccepts

end Keyed

section Pairs
variable {host : Host} {address : String} {pairs : List (ProviderProfile (Credentials × Credentials))}

/-- Two configurations as one, with the credentials of both. -/
structure PairsAt (address : String) (pairs : List (ProviderProfile (Credentials × Credentials)))
    (profiles others : List (ProviderProfile Credentials)) : Prop where
  left : profiles = pairs.map (ProviderProfile.map Prod.fst)
  right : others = pairs.map (ProviderProfile.map Prod.snd)
  agree : ∀ pair ∈ pairs, pair.Owns address → pair.map Prod.fst = pair.map Prod.snd

theorem SameAt.pairsAt {profiles others : List (ProviderProfile Credentials)}
    (h : SameAt address profiles others) : ∃ pairs, PairsAt address pairs profiles others := by
  induction h with
  | nil => exact ⟨[], rfl, rfl, fun _ hp => nomatch hp⟩
  | @cons profile other profiles others hsame _ ih =>
    obtain ⟨pairs, hleft, hright, hagree⟩ := ih
    obtain ⟨hstrip, hcredentials⟩ := hsame
    have hother : other = profile.fill fun _ => other.credentials := by
      obtain ⟨⟩ := profile
      obtain ⟨⟩ := other
      injection hstrip with hname htype hmodel hbase hpreferred
      subst hname htype hmodel hbase hpreferred
      rfl
    refine ⟨(profile.fill fun _ => (profile.credentials, other.credentials)) :: pairs, ?_, ?_, ?_⟩
    · rw [List.map_cons, ← hleft]
      rfl
    · rw [List.map_cons, ← hright]
      exact congrArg (· :: others) hother
    · intro pair hp howns
      rcases List.mem_cons.mp hp with rfl | hp
      · have hcred := hcredentials howns
        change profile.fill (fun _ => profile.credentials) = profile.fill fun _ => other.credentials
        rw [hcred]
      · exact hagree pair hp howns

theorem SameAt.symm {profiles others : List (ProviderProfile Credentials)}
    (h : SameAt address profiles others) : SameAt address others profiles := by
  refine h.flip.imp fun other profile hsame => ⟨hsame.1.symm, fun howns => ?_⟩
  have hstrip : other.strip.Owns address := howns
  rw [← hsame.1] at hstrip
  exact (hsame.2 hstrip).symm

theorem PairsAt.shape {profiles others : List (ProviderProfile Credentials)}
    (h : PairsAt address pairs profiles others) :
    profiles.map ProviderProfile.strip = pairs.map ProviderProfile.strip := by
  rw [h.left, List.map_map]
  rfl

/-- A pair of a profile that owns the address is one profile. -/
theorem PairsAt.owned {profiles others : List (ProviderProfile Credentials)}
    (h : PairsAt address pairs profiles others) {pair : ProviderProfile (Credentials × Credentials)}
    {target : String} (hp : pair ∈ pairs) (howns : pair.Owns target)
    (ht : endpointOf target = endpointOf address) : pair.map Prod.fst = pair.map Prod.snd :=
  h.agree pair hp (howns.congr ht)

end Pairs

section Same
variable {host : Host} {address provider : String} {pairs : List (ProviderProfile (Credentials × Credentials))}
  {profiles others : List (ProviderProfile Credentials)} {sent : OutgoingRequest}

/-- A completion of the candidates alone sends the same to the address. -/
theorem complete_same {request : CompletionRequest} (hpairs : PairsAt address pairs profiles others)
    (hprovider : request.preferredProvider = none)
    (hkept : CandidatesKept host (profiles.map ProviderProfile.strip) none request.toCompletionRouting)
    (ht : endpointOf sent.address = endpointOf address) (hs : sent ∈ request.complete host profiles) :
    sent ∈ request.complete host others := by
  obtain ⟨candidate, hc, hs⟩ := List.mem_flatMap.mp hs
  obtain ⟨hc, husable⟩ := List.mem_filter.mp hc
  rw [candidates_eq, hpairs.left, sourcedCandidates_fill, List.map_map] at hc
  obtain ⟨source, hsource, rfl⟩ := List.mem_map.mp hc
  -- the same candidate, with the other credentials
  have hother : (source.map (CandidateSource.map Prod.snd)).map (CandidateSource.resolve request.credentials) ∈
      request.candidates host others := by
    rw [candidates_eq, hpairs.right, sourcedCandidates_fill]
    exact List.mem_map_of_mem (List.mem_map_of_mem hsource)
  rw [CompletionRequest.complete, List.mem_flatMap]
  suffices hsuffices : providerProfileIsUsable host.env
      ((source.map (CandidateSource.map Prod.snd)).map (CandidateSource.resolve request.credentials)) = true ∧
      sent ∈ request.ask host
        ((source.map (CandidateSource.map Prod.snd)).map (CandidateSource.resolve request.credentials)) from
    ⟨_, List.mem_filter.mpr ⟨hother, hsuffices.1⟩, hsuffices.2⟩
  cases hsecret : sent.secret with
  | none =>
    have hplain : sent ∈ request.ask host ((source.map (CandidateSource.map Prod.fst)).map
        (CandidateSource.resolve request.credentials)) := hs
    have hsame : ((source.map (CandidateSource.map Prod.fst)).map
        (CandidateSource.resolve request.credentials)).strip =
          ((source.map (CandidateSource.map Prod.snd)).map
            (CandidateSource.resolve request.credentials)).strip := rfl
    exact ask_plain_same hsame hsecret hplain
  | some secret =>
    have hasked := asked_of_mem hs hsecret
    rcases sourcedCandidates_cases hsource with ⟨named, hn, -⟩ | ⟨pair, hp, rfl⟩ | hollama
    · cases hn.symm.trans hprovider
    · have howns : pair.Owns sent.address := by
        cases hasked with
        | probe ha => exact owns_healthAddress ha
        | completion hasks ha haccepts =>
          have hkind : normalizeProviderType pair.sourced.providerType ∈ ["openai", "nvidia", "gemini"] :=
            completionAddress_kind ha
          have hmem := (sourcedCandidates_usable hkind).mp hsource
          rw [hpairs.shape] at hkept
          exact (hkept _ (mem_sourcedCandidates_strip hmem)).own pair.strip rfl hasks _ ha haccepts
      have hsame := hpairs.owned hp howns ht
      change providerProfileIsUsable host.env (pair.map Prod.snd) = true ∧
        sent ∈ request.ask host (pair.map Prod.snd)
      rw [← hsame]
      exact ⟨husable, hs⟩
    · cases hasked with
      | probe ha => exact absurd hollama (not_ollama_of_kind (healthAddress_kind ha))
      | completion _ ha => exact absurd hollama (not_ollama_of_kind (completionAddress_kind ha))

variable {request : OpenAIRequest} {model : Option String}
  {selected : Option (ProviderProfile (Credentials × Credentials))} {key : String}

theorem find?_namesProfile {κ ι : Type} (request : ProviderCompletionRequest) (g : κ → ι)
    (profiles : List (ProviderProfile κ)) :
    (profiles.map (ProviderProfile.map g)).find? (namesProfile request) =
      (profiles.find? (namesProfile request)).map (ProviderProfile.map g) :=
  List.find?_map ..

/-- The direct request, for the credentials of one of the configurations. -/
abbrev directOf (request : OpenAIRequest) (provider : String) (model : Option String)
    (selected : Option (ProviderProfile (Credentials × Credentials)))
    (g : Credentials × Credentials → Credentials) : ProviderCompletionRequest :=
  request.buildDirectProviderRequest provider model (selected.map (ProviderProfile.map g))

theorem namesProfile_directOf {κ : Type} (g : Credentials × Credentials → Credentials)
    (profile : ProviderProfile κ) :
    namesProfile (directOf request provider model selected g) profile =
      namesProfile (directOf request provider model selected Prod.fst) profile := by
  cases selected <;> rfl

theorem directOf_baseUrl (g : Credentials × Credentials → Credentials) :
    (directOf request provider model selected g).baseUrl = request.baseWith selected := by
  cases selected <;> rfl

theorem directProviderProfile_baseUrl (g : Credentials × Credentials → Credentials) :
    (directProviderProfile (pairs.map (ProviderProfile.map g))
        (directOf request provider model selected g)).baseUrl =
      (request.baseWith selected).or
        ((pairs.find? (namesProfile (directOf request provider model selected Prod.fst))).bind
          ProviderProfile.baseUrl) := by
  have hnames : namesProfile (directOf request provider model selected g) =
      namesProfile (κ := Credentials × Credentials)
        (directOf request provider model selected Prod.fst) :=
    funext fun profile => namesProfile_directOf g profile
  unfold directProviderProfile
  dsimp only
  rw [find?_namesProfile, hnames, directOf_baseUrl]
  cases pairs.find? (namesProfile (directOf request provider model selected Prod.fst)) <;> rfl

theorem directOf_address (g : Credentials × Credentials → Credentials) :
    completionAddress
        (directProviderProfile (pairs.map (ProviderProfile.map g))
          (directOf request provider model selected g)).providerType
        (directProviderProfile (pairs.map (ProviderProfile.map g))
          (directOf request provider model selected g)).baseUrl
        (directOf request provider model selected g).baseUrl =
      completionAddress provider none (request.baseWith selected) := by
  rw [directProviderProfile_address, directOf_baseUrl]
  rfl

/-- A direct request without a credential is the same for all configurations. -/
theorem directComplete_plain (ha : completionAddress provider none (request.baseWith selected) = none)
    (g : Credentials × Credentials → Credentials) :
    directComplete host (pairs.map (ProviderProfile.map g)) (directOf request provider model selected g) =
      plainRequests host provider
        ((request.baseWith selected).or
          ((pairs.find? (namesProfile (directOf request provider model selected Prod.fst))).bind
            ProviderProfile.baseUrl))
        (request.baseWith selected) := by
  unfold directComplete
  rw [completionRequests_plain ((directOf_address g).trans ha), directProviderProfile_baseUrl,
    directOf_baseUrl]
  rfl

/-- So is one with a key of the request. -/
theorem directComplete_of_key
    (ha : completionAddress provider none (request.baseWith selected) = some address)
    (hkey : request.apiKey = some key) (g : Credentials × Credentials → Credentials) :
    directComplete host (pairs.map (ProviderProfile.map g)) (directOf request provider model selected g) =
      post host address (some (credentialHeader provider key)) := by
  have hrequest : (directOf request provider model selected g).apiKey = some key := credentialsWith_key hkey
  have hprofile : (directProviderProfile (pairs.map (ProviderProfile.map g))
      (directOf request provider model selected g)).credentials.apiKey = some key := by
    unfold directProviderProfile
    dsimp only
    rw [hrequest, Option.some_or]
  unfold directComplete
  rw [completionRequests_eq ((directOf_address g).trans ha) hprofile, hrequest]
  rfl

theorem map_selected {profiles others : List (ProviderProfile Credentials)}
    (hpairs : PairsAt address pairs profiles others) {found : Option (ProviderProfile (Credentials × Credentials))}
    (hmem : ∀ pair, found = some pair → pair ∈ pairs ∧ pair.Owns address) :
    found.map (ProviderProfile.map Prod.fst) = found.map (ProviderProfile.map Prod.snd) := by
  cases found with
  | none => rfl
  | some pair =>
    obtain ⟨hp, howns⟩ := hmem pair rfl
    rw [Option.map_some, Option.map_some, hpairs.agree pair hp howns]

/-- A direct request sends the same to the address, with a key of the request or kept by the selected
profile. -/
theorem directComplete_same (hpairs : PairsAt address pairs profiles others)
    (hmem : ∀ pair, selected = some pair → pair ∈ pairs)
    (hkept : request.apiKey.isSome = true ∨ ∀ pair, selected = some pair →
      Kept host pair.strip (completionAddress provider none (request.baseWith selected)))
    (ht : endpointOf sent.address = endpointOf address)
    (hs : sent ∈ directComplete host profiles (directOf request provider model selected Prod.fst)) :
    sent ∈ directComplete host others (directOf request provider model selected Prod.snd) := by
  obtain ⟨rfl, rfl, hagree⟩ := hpairs
  cases ha : completionAddress provider none (request.baseWith selected) with
  | none => rwa [directComplete_plain ha, ← directComplete_plain ha Prod.snd] at hs
  | some target =>
    rcases hkept with hkey | hkept
    · obtain ⟨key, hkey⟩ := Option.isSome_iff_exists.mp hkey
      rwa [directComplete_of_key ha hkey, ← directComplete_of_key ha hkey Prod.snd] at hs
    -- the profiles that the request uses own the address
    obtain ⟨secret, hsecret⟩ := completionRequests_keyed ((directOf_address Prod.fst).trans ha) hs
    obtain ⟨htarget, haccepts, -⟩ := completionRequests_secret hs hsecret
    rw [directOf_address] at htarget
    have hselected := map_selected ⟨rfl, rfl, hagree⟩ fun pair hp =>
      ⟨hmem pair hp, (hkept pair hp _ htarget haccepts : pair.Owns sent.address).congr ht⟩
    have hnamed : ∀ pair,
        pairs.find? (namesProfile (directOf request provider model selected Prod.fst)) = some pair →
          pair ∈ pairs ∧ pair.Owns address := by
      intro pair hp
      refine ⟨List.mem_of_find?_eq_some hp,
        (owns_named (List.find?_some hp) ?_ haccepts : pair.Owns sent.address).congr ht⟩
      rw [directOf_baseUrl]
      exact htarget
    have hfound := map_selected ⟨rfl, rfl, hagree⟩ hnamed
    have hrequest : directOf request provider model selected Prod.snd =
        directOf request provider model selected Prod.fst := by
      rw [directOf, directOf, hselected]
    have hprofile : directProviderProfile (pairs.map (ProviderProfile.map Prod.snd))
          (directOf request provider model selected Prod.fst) =
        directProviderProfile (pairs.map (ProviderProfile.map Prod.fst))
          (directOf request provider model selected Prod.fst) := by
      unfold directProviderProfile
      rw [find?_namesProfile, find?_namesProfile, hfound]
    rw [hrequest, directComplete, hprofile]
    exact hs

theorem transcribe_of_key {credentials : Credentials} {base : Option String}
    (ha : transcriptionAddress provider base = some address) (hkey : credentials.apiKey = some key) :
    transcribe host provider model credentials base =
      post host address (some (credentialHeader provider key)) :=
  transcriptionRequests_eq ha hkey

/-- The transcription likewise. -/
theorem transcribe_same (hpairs : PairsAt address pairs profiles others)
    (hmem : ∀ pair, selected = some pair → pair ∈ pairs)
    (hkept : request.apiKey.isSome = true ∨ ∀ pair, selected = some pair →
      Kept host pair.strip (transcriptionAddress provider (request.baseWith selected)))
    (ht : endpointOf sent.address = endpointOf address)
    (hs : sent ∈ transcribe host provider model
      (request.credentialsWith (selected.map (ProviderProfile.map Prod.fst))) (request.baseWith selected)) :
    sent ∈ transcribe host provider model
      (request.credentialsWith (selected.map (ProviderProfile.map Prod.snd)))
      (request.baseWith selected) := by
  obtain ⟨secret, hsecret⟩ := transcriptionRequests_keyed hs
  obtain ⟨htarget, haccepts, -⟩ := transcriptionRequests_secret hs hsecret
  rcases hkept with hkey | hkept
  · obtain ⟨key, hkey⟩ := Option.isSome_iff_exists.mp hkey
    rw [transcribe_of_key htarget (credentialsWith_key hkey)] at hs
    rw [transcribe_of_key htarget (credentialsWith_key hkey)]
    exact hs
  · have hselected := map_selected hpairs fun pair hp =>
      ⟨hmem pair hp, (hkept pair hp _ htarget haccepts : pair.Owns sent.address).congr ht⟩
    rw [← hselected]
    exact hs

/-- What an endpoint sends to the base of the request, it sends for the other configuration. -/
theorem outgoing_same {endpoint : OpenAIEndpoint} {base : String} (hbase : request.baseUrl = some base)
    (hsame : SameAt base profiles others)
    (h : CredentialsSheltered host (profiles.map ProviderProfile.strip) endpoint request)
    (ht : endpointOf sent.address = endpointOf base) (hs : sent ∈ endpoint.outgoing host profiles request) :
    sent ∈ endpoint.outgoing host others request := by
  obtain ⟨pairs, hpairs⟩ := hsame.pairsAt
  have hresolve : ∀ {ι : Type} (g : Credentials × Credentials → ι), resolveOpenaiRoute host.env
      (pairs.map (ProviderProfile.map g)) request.model request.provider =
        (resolveOpenaiRoute host.env pairs request.model request.provider).map
          (OpenAIResolvedRoute.fill fun pair => g pair.credentials) :=
    fun g => resolveOpenaiRoute_fill _ _ _ _ _
  cases hroute : resolveOpenaiRoute host.env pairs request.model request.provider with
  | error error =>
    rw [hpairs.left, outgoing_of_error (by rw [hresolve, hroute]; rfl)] at hs
    cases hs
  | ok route =>
    rw [hpairs.shape] at h
    have hsheltered := h (route.fill fun _ => ()) (by
      change resolveOpenaiRoute host.env (pairs.map (ProviderProfile.map fun _ => ())) _ _ = _
      rw [hresolve, hroute]
      rfl)
    have hleft : resolveOpenaiRoute host.env profiles request.model request.provider =
        .ok (route.fill fun pair => pair.credentials.1) := by
      rw [hpairs.left, hresolve, hroute]
      rfl
    have hright : resolveOpenaiRoute host.env others request.model request.provider =
        .ok (route.fill fun pair => pair.credentials.2) := by
      rw [hpairs.right, hresolve, hroute]
      rfl
    rw [outgoing_eq hleft] at hs
    rw [outgoing_eq hright]
    cases route with
    | orchestrated =>
      split at hs
      · cases hs
      next hendpoint =>
      rw [if_neg hendpoint]
      refine complete_same hpairs rfl ?_ ht hs
      rw [hpairs.shape]
      exact hsheltered.resolve_left hendpoint
    | explicit provider model selected =>
      have hmem := (resolveOpenaiRoute_explicit hroute).mem
      split at hs
      · next hendpoint =>
        rw [if_pos hendpoint]
        rw [OpenAIResolvedRoute.fill, transcribeRoute, baseWith_fill] at hs ⊢
        have hmodel : ∀ g : ProviderProfile (Credentials × Credentials) → Credentials,
            (selected.map (ProviderProfile.fill g)).bind ProviderProfile.model =
              selected.bind ProviderProfile.model := fun g => by cases selected <;> rfl
        rw [hmodel] at hs ⊢
        refine transcribe_same hpairs hmem (hsheltered.imp_right fun hkept pair hp => ?_) ht hs
        rw [if_pos hendpoint, baseWith_fill] at hkept
        exact hkept pair.strip (by rw [hp]; rfl)
      next hendpoint =>
      rw [if_neg hendpoint]
      rw [OpenAIResolvedRoute.fill, dispatchRoute] at hs ⊢
      split at hs
      · next hoverride =>
        rw [if_pos hoverride]
        refine directComplete_same hpairs hmem (hsheltered.imp_right fun hkept pair hp => ?_) ht hs
        rw [if_neg hendpoint, if_pos hoverride, baseWith_fill] at hkept
        exact hkept pair.strip (by rw [hp]; rfl)
      · next hoverride =>
        -- without an override the base of the request is blank
        exfalso
        obtain ⟨candidate, -, hask⟩ := List.mem_flatMap.mp hs
        have haccepts := ask_accepts hask
        rw [host.relative] at haccepts
        · cases haccepts
        rw [ht]
        apply endpointOf_blank
        by_contra hblank
        apply hoverride
        rw [OpenAIRequest.hasProviderOverride, List.any_eq_true]
        refine ⟨request.baseUrl, by simp, ?_⟩
        rw [hbase, Option.any_some, eq_false_of_ne_true hblank]
        rfl

theorem SameAt.shape (h : SameAt address profiles others) :
    others.map ProviderProfile.strip = profiles.map ProviderProfile.strip := by
  obtain ⟨pairs, hpairs⟩ := h.pairsAt
  rw [hpairs.shape, hpairs.right, List.map_map]
  rfl

theorem baseSeesNoSecrets_of_sheltered {endpoint : OpenAIEndpoint} {shape : List (ProviderProfile Unit)}
    (h : CredentialsSheltered host shape endpoint request) : BaseSeesNoSecrets host endpoint request shape := by
  rintro base hbase profiles others rfl hsame sent ht
  refine ⟨outgoing_same hbase hsame h ht, outgoing_same hbase hsame.symm ?_ ht⟩
  rw [hsame.shape]
  exact h

end Same

end Gail.Gateway
