import Gail.Gateway.CredentialIndifference

/-! On every other route some stored credential goes to an address of others. -/
namespace Gail.Gateway
open Gail.Library

section Fresh

/-- A key that nobody has, for a bound on the length of the keys there are. -/
def spareKey (bound : ℕ) : String := String.ofList (List.replicate (bound + 11) 'k')

theorem spareKey_toList (bound : ℕ) : (spareKey bound).toList = List.replicate (bound + 11) 'k' :=
  String.toList_ofList

theorem spareKey_length (bound : ℕ) : (spareKey bound).toList.length = bound + 11 := by
  rw [spareKey_toList, List.length_replicate]

theorem trim_spareKey (bound : ℕ) : trim (spareKey bound) = spareKey bound := by
  have hk : isWhitespace 'k' = false := by decide
  have hmark : ∀ c ∈ List.replicate (bound + 11) 'k', isWhitespace c = false := by
    intro c hc
    rw [List.eq_of_mem_replicate hc, hk]
  rw [trim, spareKey_toList, List.dropWhile_eq_self_iff.mpr, List.rdropWhile_eq_self_iff.mpr]
  · rfl
  · intro hne
    rw [hmark _ (List.getLast_mem hne)]
    exact Bool.false_ne_true
  · intro hl
    rw [hmark _ (List.getElem_mem hl)]
    exact Bool.false_ne_true

theorem startsWith_spareKey {start : String} {c : Char} (h : start.toList.head? = some c) (hc : c ≠ 'k')
    (bound : ℕ) : startsWith (spareKey bound) start = false := by
  rw [startsWith, spareKey_toList]
  cases hs : start.toList with
  | nil =>
    rw [hs] at h
    cases h
  | cons d rest =>
    rw [hs] at h
    obtain rfl := Option.some.inj h
    rw [List.replicate_succ, List.isPrefixOf_cons_cons, beq_eq_false_iff_ne.mpr hc, Bool.false_and]

theorem hasUsableValue_spareKey (bound : ℕ) : hasUsableValue (some (spareKey bound)) = true := by
  have hne : (spareKey bound).isEmpty = false := by
    rw [Bool.eq_false_iff, Ne, String.isEmpty_iff, ← String.toList_inj, spareKey_toList]
    exact List.cons_ne_nil _ _
  have hnames : toAsciiLowercase (spareKey bound) ∉
      ["none", "null", "nil", "undefined", "changeme", "replace_me", "redacted", "<redacted>", "***"] := by
    intro hmem
    have hlength : (toAsciiLowercase (spareKey bound)).toList.length = bound + 11 := by
      rw [toAsciiLowercase, String.toList_ofList, List.length_map, spareKey_length]
    have hshort : ∀ name ∈ ["none", "null", "nil", "undefined", "changeme", "replace_me", "redacted",
        "<redacted>", "***"], name.toList.length < 11 := by decide
    have := hshort _ hmem
    omega
  rw [hasUsableValue, Option.map_some, trim_spareKey, Option.filter_some, hne, Bool.not_false,
    if_pos rfl, Option.any_some]
  rw [looksLikePlaceholderSecret, trim_spareKey, startsWith_spareKey (c := '$') rfl (by decide),
    startsWith_spareKey (c := '$') rfl (by decide), startsWith_spareKey (c := '\x7b') rfl (by decide)]
  simp [hnames]

theorem exists_length_bound (taken : List String) : ∃ bound, ∀ text ∈ taken, text.toList.length ≤ bound := by
  induction taken with
  | nil => exact ⟨0, fun _ h => nomatch h⟩
  | cons text taken ih =>
    obtain ⟨bound, hb⟩ := ih
    refine ⟨max text.toList.length bound, fun other ho => ?_⟩
    rcases List.mem_cons.mp ho with rfl | ho
    · exact le_max_left _ _
    · exact (hb other ho).trans (le_max_right _ _)

/-- There are usable keys that neither the request nor the process has. -/
theorem exists_spareKey (host : Host) (caller : Credentials) :
    ∃ bound, ∀ more, bound ≤ more → ¬ caller.Holds (spareKey more) ∧ ¬ host.Holds (spareKey more) := by
  obtain ⟨bound, hb⟩ := exists_length_bound
    (caller.apiKey.toList ++ caller.accessToken.toList ++ credentialVariables.filterMap host.env)
  have hspare : ∀ more, bound ≤ more → spareKey more ∉
      caller.apiKey.toList ++ caller.accessToken.toList ++ credentialVariables.filterMap host.env := by
    intro more hmore hmem
    have hlength := hb _ hmem
    rw [spareKey_length] at hlength
    omega
  refine ⟨bound, fun more hmore => ⟨fun hholds => hspare more hmore ?_, fun hholds => hspare more hmore ?_⟩⟩
  · rcases hholds with hkey | htoken
    · exact List.mem_append_left _ (List.mem_append_left _ (Option.mem_toList.mpr hkey))
    · exact List.mem_append_left _ (List.mem_append_right _ (Option.mem_toList.mpr htoken))
  · obtain ⟨name, hname, hs⟩ := hholds
    exact List.mem_append_right _ (List.mem_filterMap.mpr ⟨name, hname, hs⟩)

end Fresh

/-- One profile stores the key, and the others store another one or none. -/
def lendTo (lender : ProviderProfile Unit) (key : String) (other : Option String)
    (profile : ProviderProfile Unit) : Credentials :=
  { apiKey := if profile = lender then some key else other, accessToken := none }

section Leaks
variable {host : Host} {shape : List (ProviderProfile Unit)} {request : OpenAIRequest}
  {endpoint : OpenAIEndpoint} {lender : ProviderProfile Unit} {key address : String} {other : Option String}

theorem lendTo_self : (lendTo lender key other lender).apiKey = some key := by
  rw [lendTo, if_pos rfl]

theorem lendTo_holds {profile : ProviderProfile Unit} (hother : other ≠ some key)
    (h : (lendTo lender key other profile).Holds key) : profile = lender := by
  by_contra hne
  unfold lendTo at h
  rw [if_neg hne] at h
  rcases h with h | h
  · exact hother h
  · cases h

theorem strip_fill (f : ProviderProfile Unit → Credentials) :
    (shape.map (ProviderProfile.fill f)).map ProviderProfile.strip = shape := by
  rw [List.map_map]
  exact List.map_id _

/-- The key of a profile that goes to an address of others is a leak. -/
theorem not_home_of_lent (hcaller : ¬ request.toCredentials.Holds key) (hhost : ¬ host.Holds key)
    (hother : other ≠ some key) (howns : ¬ lender.Owns address) {sent : OutgoingRequest}
    (hs : sent ∈ endpoint.outgoing host (shape.map (ProviderProfile.fill (lendTo lender key other))) request)
    (haddress : sent.address = address) (hsecret : sent.secret = some key) :
    ¬ SecretsStayHome host endpoint request shape := by
  intro h
  rcases h _ (strip_fill _) sent hs key hsecret with hc | hh | ⟨profile, hp, hholds, hown⟩
  · exact hcaller hc
  · exact hhost hh
  · obtain ⟨bare, -, rfl⟩ := List.mem_map.mp hp
    obtain rfl := lendTo_holds hother hholds
    rw [haddress] at hown
    exact howns hown

theorem usable_of_key {candidate : ProviderProfile Credentials}
    (hkind : normalizeProviderType candidate.providerType ∈ ["openai", "nvidia", "gemini"])
    (hkey : hasUsableValue candidate.credentials.apiKey = true) :
    providerProfileIsUsable host.env candidate = true := by
  unfold providerProfileIsUsable
  simp only [List.mem_cons, List.not_mem_nil, or_false] at hkind
  rcases hkind with hkind | hkind | hkind <;> rw [hkind] <;> simp [hkey]

/-- The credentials of a candidate, for those of the request and of the profiles. -/
def CandidateSource.lent (f : ProviderProfile Unit → Credentials) (credentials : Credentials)
    (source : CandidateSource Unit) : Credentials :=
  (source.fill f).resolve credentials

/-- A candidate with a usable key of its own sends what it is asked for. -/
theorem complete_sends {completion : CompletionRequest} {f : ProviderProfile Unit → Credentials}
    {candidate : ProviderProfile (CandidateSource Unit)} {sent : OutgoingRequest}
    (hkind : normalizeProviderType candidate.providerType ∈ ["openai", "nvidia", "gemini"])
    (hmem : candidate ∈ sourcedCandidates host shape completion.toCompletionRouting false)
    (hkey : hasUsableValue (candidate.credentials.lent f completion.credentials).apiKey = true)
    (hs : sent ∈ completion.ask host (candidate.map (CandidateSource.lent f completion.credentials))) :
    sent ∈ completion.complete host (shape.map (ProviderProfile.fill f)) := by
  rw [CompletionRequest.complete, List.mem_flatMap]
  refine ⟨_, List.mem_filter.mpr ⟨?_, usable_of_key hkind hkey⟩, hs⟩
  rw [candidates_eq, sourcedCandidates_fill, List.map_map]
  exact List.mem_map_of_mem ((sourcedCandidates_usable hkind).mpr hmem)

theorem mem_post_self {header : CredentialHeader} (haccepts : host.accepts address = true) :
    { address, header := some header } ∈ post host address (some header) := by
  rw [post, if_pos haccepts]
  exact List.mem_singleton_self _

/-- The request whose header is the key. -/
theorem secret_header (providerType : String) :
    OutgoingRequest.secret { address, header := some (credentialHeader providerType key) } = some key :=
  congrArg some (credentialHeader_secret _ _)

section Completed
variable {completion : CompletionRequest} {f : ProviderProfile Unit → Credentials}
  {candidate : ProviderProfile (CandidateSource Unit)} {own : String}

theorem complete_probes (hmem : candidate ∈ sourcedCandidates host shape completion.toCompletionRouting false)
    (ha : healthAddress candidate.providerType candidate.baseUrl = some address)
    (haccepts : host.accepts address = true)
    (hown : (candidate.credentials.lent f completion.credentials).apiKey = some own)
    (husable : hasUsableValue (some own) = true) :
    { address, header := some (credentialHeader candidate.providerType own) } ∈
      completion.complete host (shape.map (ProviderProfile.fill f)) := by
  have hkey : hasUsableValue (candidate.credentials.lent f completion.credentials).apiKey = true := by
    rw [hown, husable]
  apply complete_sends (healthAddress_kind ha) hmem hkey
  refine List.mem_append_left _ ?_
  have ha' : healthAddress (candidate.map (CandidateSource.lent f completion.credentials)).providerType
      (candidate.map (CandidateSource.lent f completion.credentials)).baseUrl = some address := ha
  rw [healthRequests_eq ha' hown]
  exact mem_post_self haccepts

theorem complete_asks (hmem : candidate ∈ sourcedCandidates host shape completion.toCompletionRouting false)
    (hasks : host.asks candidate.strip = true)
    (ha : askedAddress completion.baseUrl candidate = some address) (haccepts : host.accepts address = true)
    (hown : (candidate.credentials.lent f completion.credentials).apiKey = some own)
    (husable : hasUsableValue (some own) = true) :
    { address, header := some (credentialHeader candidate.providerType (completion.preferredApiKey.getD own)) } ∈
      completion.complete host (shape.map (ProviderProfile.fill f)) := by
  have hkey : hasUsableValue (candidate.credentials.lent f completion.credentials).apiKey = true := by
    rw [hown, husable]
  apply complete_sends (completionAddress_kind ha) hmem hkey
  refine List.mem_append_right _ ?_
  have hasks' : host.asks (candidate.map (CandidateSource.lent f completion.credentials)).strip = true :=
    hasks
  rw [if_pos hasks']
  have ha' : completionAddress (candidate.map (CandidateSource.lent f completion.credentials)).providerType
      (candidate.map (CandidateSource.lent f completion.credentials)).baseUrl
      (providerRequestFromProfile (candidate.map (CandidateSource.lent f completion.credentials))
        completion.providerRequest).baseUrl = some address := ha
  rw [completionRequests_eq ha' hown]
  have hgetD : (providerRequestFromProfile
      (candidate.map (CandidateSource.lent f completion.credentials)) completion.providerRequest).apiKey.getD
        own = completion.preferredApiKey.getD own := by
    change (completion.preferredApiKey.or (candidate.credentials.lent f completion.credentials).apiKey).getD
      own = _
    rw [hown]
    cases completion.preferredApiKey <;> rfl
  rw [hgetD]
  exact mem_post_self haccepts

end Completed

theorem lendTo_own (profile : ProviderProfile Unit) :
    (lendTo lender key other profile).apiKey = some key ∨ (lendTo lender key other profile).apiKey = other := by
  unfold lendTo
  dsimp only
  split
  · exact Or.inl rfl
  · exact Or.inr rfl

/-- A completion that sends the key of the selected profile along, for the credentials of all profiles. -/
structure Lends (host : Host) (shape : List (ProviderProfile Unit)) (endpoint : OpenAIEndpoint)
    (request : OpenAIRequest) (selected : Option (ProviderProfile Unit)) (routing : CompletionRouting)
    (completion : (ProviderProfile Unit → Credentials) → CompletionRequest) : Prop where
  routed : ∀ f, (completion f).toCompletionRouting = routing
  key : ∀ f, (completion f).preferredApiKey = selected.bind fun profile => (f profile).apiKey
  outgoing : ∀ f, endpoint.outgoing host (shape.map (ProviderProfile.fill f)) request =
    (completion f).complete host (shape.map (ProviderProfile.fill f))

theorem candidatesKept_of_home {selected : Option (ProviderProfile Unit)} {routing : CompletionRouting}
    {completion : (ProviderProfile Unit → Credentials) → CompletionRequest}
    (hlends : Lends host shape endpoint request selected routing completion)
    (h : SecretsStayHome host endpoint request shape) : CandidatesKept host shape selected routing := by
  obtain ⟨bound, hspare⟩ := exists_spareKey host request.toCredentials
  obtain ⟨hcaller, hhost⟩ := hspare bound le_rfl
  have hdistinct : some (spareKey (bound + 1)) ≠ some (spareKey bound) := by
    intro he
    have hlength := congrArg (fun text : String => text.toList.length) (Option.some.inj he)
    rw [spareKey_length, spareKey_length] at hlength
    omega
  intro candidate hmem
  have hrouted : ∀ f, candidate ∈ sourcedCandidates host shape (completion f).toCompletionRouting false := by
    intro f
    rw [hlends.routed]
    exact hmem
  have hlentTo : ∀ {profile other}, selected = some profile →
      (completion (lendTo profile (spareKey bound) other)).preferredApiKey = some (spareKey bound) := by
    intro profile other hsel
    rw [hlends.key, hsel, Option.bind_some, lendTo_self]
  refine ⟨fun profile hsel hsource target ha haccepts => ?_, fun profile hsel hasks target ha haccepts => ?_,
    fun profile hsource hasks target ha haccepts => ?_⟩
  · by_contra howns
    refine not_home_of_lent hcaller hhost hdistinct howns ?_ rfl (secret_header candidate.providerType) h
    rw [hlends.outgoing]
    refine complete_probes (hrouted _) ha haccepts ?_ (hasUsableValue_spareKey bound)
    rw [hsource]
    exact hlentTo hsel
  · by_contra howns
    refine not_home_of_lent hcaller hhost hdistinct howns ?_ rfl (secret_header candidate.providerType) h
    rw [hlends.outgoing]
    have hown : ∃ own, (candidate.credentials.lent (lendTo profile (spareKey bound)
          (some (spareKey (bound + 1))))
        (completion (lendTo profile (spareKey bound) (some (spareKey (bound + 1))))).credentials).apiKey =
          some own ∧ hasUsableValue (some own) = true := by
      rcases sourcedCandidates_cases hmem with ⟨provider, -, rfl⟩ | ⟨configured, -, rfl⟩ | hollama
      · exact ⟨_, hlentTo hsel, hasUsableValue_spareKey bound⟩
      · rcases lendTo_own configured with hkey | hkey
        · exact ⟨_, hkey, hasUsableValue_spareKey bound⟩
        · exact ⟨_, hkey, hasUsableValue_spareKey (bound + 1)⟩
      · exact absurd hollama (not_ollama_of_kind (completionAddress_kind ha))
    obtain ⟨own, hown, husable⟩ := hown
    rw [← hlends.routed (lendTo profile (spareKey bound) (some (spareKey (bound + 1))))] at ha
    have hsent := complete_asks (hrouted _) hasks ha haccepts hown husable
    rw [hlentTo hsel, Option.getD_some] at hsent
    exact hsent
  · by_contra howns
    have hnone : (none : Option String) ≠ some (spareKey bound) := fun he => nomatch he
    refine not_home_of_lent hcaller hhost hnone howns ?_ rfl (secret_header candidate.providerType) h
    rw [hlends.outgoing]
    have hown : (candidate.credentials.lent (lendTo profile (spareKey bound) none)
        (completion (lendTo profile (spareKey bound) none)).credentials).apiKey = some (spareKey bound) := by
      rw [hsource]
      exact lendTo_self
    rw [← hlends.routed (lendTo profile (spareKey bound) none)] at ha
    have hsent := complete_asks (hrouted _) hasks ha haccepts hown (hasUsableValue_spareKey bound)
    have hgetD : (completion (lendTo profile (spareKey bound) none)).preferredApiKey.getD (spareKey bound) =
        spareKey bound := by
      rw [hlends.key]
      cases selected with
      | none => rfl
      | some chosen =>
        rw [Option.bind_some]
        rcases lendTo_own chosen with hkey | hkey
        · rw [hkey, Option.getD_some]
        · rw [hkey, Option.getD_none]
    rw [hgetD] at hsent
    exact hsent

theorem resolve_fill {route : OpenAIResolvedRoute Unit} (f : ProviderProfile Unit → Credentials)
    (hroute : resolveOpenaiRoute host.env shape request.model request.provider = .ok route) :
    resolveOpenaiRoute host.env (shape.map (ProviderProfile.fill f)) request.model request.provider =
      .ok (route.fill f) := by
  rw [resolveOpenaiRoute_fill, hroute]
  rfl

theorem keyWith_none {selected : Option (ProviderProfile Unit)} (hkey : request.apiKey = none)
    (f : ProviderProfile Unit → Credentials) :
    (request.credentialsWith (selected.map (ProviderProfile.fill f))).apiKey =
      selected.bind fun profile => (f profile).apiKey := by
  rw [OpenAIRequest.credentialsWith, hkey]
  cases selected <;> rfl

/-- The key of the selected profile goes with a direct request. -/
theorem directKept_of_home {provider : String} {model : Option String}
    {selected : Option (ProviderProfile Unit)}
    (hroute : resolveOpenaiRoute host.env shape request.model request.provider =
      .ok (.explicit provider model selected))
    (hkey : request.apiKey = none) (hendpoint : endpoint ≠ .audioTranscriptions)
    (hoverride : request.hasProviderOverride = true)
    (h : SecretsStayHome host endpoint request shape) {profile : ProviderProfile Unit}
    (hsel : selected = some profile) :
    Kept host profile (completionAddress provider none (request.baseWith selected)) := by
  intro target ha haccepts
  by_contra howns
  obtain ⟨bound, hspare⟩ := exists_spareKey host request.toCredentials
  obtain ⟨hcaller, hhost⟩ := hspare bound le_rfl
  have hnone : (none : Option String) ≠ some (spareKey bound) := fun he => nomatch he
  refine not_home_of_lent hcaller hhost hnone howns ?_ rfl (secret_header provider) h
  rw [outgoing_eq (resolve_fill _ hroute), if_neg hendpoint, OpenAIResolvedRoute.fill, dispatchRoute,
    if_pos hoverride, directComplete]
  have happly : (request.buildDirectProviderRequest provider model
      (selected.map (ProviderProfile.fill (lendTo profile (spareKey bound) none)))).apiKey =
        some (spareKey bound) := by
    change (request.credentialsWith _).apiKey = _
    rw [keyWith_none hkey, hsel, Option.bind_some, lendTo_self]
  have haddress : completionAddress provider none (request.buildDirectProviderRequest provider model
      (selected.map (ProviderProfile.fill (lendTo profile (spareKey bound) none)))).baseUrl =
        some target := by
    change completionAddress provider none (request.baseWith _) = _
    rw [baseWith_fill]
    exact ha
  have hprofile : ∀ profiles, (directProviderProfile profiles (request.buildDirectProviderRequest provider
      model (selected.map (ProviderProfile.fill (lendTo profile (spareKey bound) none))))).credentials.apiKey =
        some (spareKey bound) := by
    intro profiles
    unfold directProviderProfile
    dsimp only
    rw [happly, Option.some_or]
  rw [completionRequests_eq ((directProviderProfile_address _).trans haddress) (hprofile _), happly,
    Option.getD_some]
  exact mem_post_self haccepts

theorem transcriptionKept_of_home {provider : String} {model : Option String}
    {selected : Option (ProviderProfile Unit)}
    (hroute : resolveOpenaiRoute host.env shape request.model request.provider =
      .ok (.explicit provider model selected))
    (hkey : request.apiKey = none) (h : SecretsStayHome host .audioTranscriptions request shape)
    {profile : ProviderProfile Unit} (hsel : selected = some profile) :
    Kept host profile (transcriptionAddress provider (request.baseWith selected)) := by
  intro target ha haccepts
  by_contra howns
  obtain ⟨bound, hspare⟩ := exists_spareKey host request.toCredentials
  obtain ⟨hcaller, hhost⟩ := hspare bound le_rfl
  have hnone : (none : Option String) ≠ some (spareKey bound) := fun he => nomatch he
  refine not_home_of_lent hcaller hhost hnone howns ?_ rfl (secret_header provider) h
  rw [outgoing_eq (resolve_fill _ hroute), if_pos rfl, OpenAIResolvedRoute.fill, transcribeRoute,
    baseWith_fill, transcribe_of_key ha]
  · exact mem_post_self haccepts
  · rw [keyWith_none hkey, hsel, Option.bind_some, lendTo_self]

theorem sheltered_of_home (h : SecretsStayHome host endpoint request shape) :
    CredentialsSheltered host shape endpoint request := by
  intro route hroute
  cases route with
  | orchestrated =>
    by_cases hendpoint : endpoint = .audioTranscriptions
    · exact Or.inl hendpoint
    have hlends : Lends host shape endpoint request none
        (request.completionRouting (.orchestrated : OpenAIResolvedRoute Unit)) fun _ =>
          request.buildCompletionRequest .orchestrated := by
      refine ⟨fun _ => rfl, fun _ => rfl, fun f => ?_⟩
      rw [outgoing_eq (resolve_fill f hroute), if_neg hendpoint]
      rfl
    exact Or.inr (candidatesKept_of_home hlends h)
  | explicit provider model selected =>
    cases hkey : request.apiKey with
    | some key => exact Or.inl (Option.isSome_iff_exists.mpr ⟨key, hkey⟩)
    | none =>
      refine Or.inr ?_
      split
      · next hendpoint =>
        subst hendpoint
        exact fun profile hsel => transcriptionKept_of_home hroute hkey h hsel
      next hendpoint =>
      split
      · next hoverride =>
        exact fun profile hsel => directKept_of_home hroute hkey hendpoint hoverride h hsel
      next hoverride =>
      have hlends : Lends host shape endpoint request selected
          (request.completionRouting (.explicit provider model selected)) fun f =>
            request.buildCompletionRequest ((OpenAIResolvedRoute.explicit provider model selected).fill f) := by
        refine ⟨fun f => completionRouting_fill request f (.explicit provider model selected),
          fun f => keyWith_none hkey f, fun f => ?_⟩
        rw [outgoing_eq (resolve_fill f hroute), if_neg hendpoint, OpenAIResolvedRoute.fill, dispatchRoute,
          if_neg hoverride]
      exact candidatesKept_of_home hlends h

/-- The credentials of the configured profiles are confined exactly on the sheltered routes. -/
theorem credentialsConfined_iff (host : Host) (shape : List (ProviderProfile Unit))
    (endpoint : OpenAIEndpoint) (request : OpenAIRequest) :
    CredentialsConfined host endpoint request shape ↔ CredentialsSheltered host shape endpoint request :=
  ⟨fun h => sheltered_of_home h.1, fun h =>
    ⟨secretsStayHome_of_sheltered h, baseSeesNoSecrets_of_sheltered h⟩⟩

end Leaks

section ForeignBase

def plainHost : Host :=
  { env := fun _ => none, accepts := fun address => !(endpointOf address).isEmpty
    ollamaAddresses := fun _ _ => [], includeConfiguredCandidates := true, asks := fun _ => true
    relative := fun address h => by rw [h]; decide }

def mainProfile {κ : Type} (credentials : κ) : ProviderProfile κ :=
  { name := "main", providerType := "openai", model := none, baseUrl := none, preferred := true
    credentials }

def foreignBaseRequest : OpenAIRequest :=
  { apiKey := none, accessToken := none, model := "openai/gpt-4o", provider := none
    baseUrl := some "https://other.example/v1", includeConfigured := none }

/-- A caller names a base of its own and no key: the stored key goes there. -/
theorem stored_key_sent_to_foreign_base :
    ¬ SecretsStayHome plainHost .chatCompletions foreignBaseRequest [mainProfile ()] ∧
      ¬ BaseSeesNoSecrets plainHost .chatCompletions foreignBaseRequest [mainProfile ()] := by
  have hsent : OpenAIEndpoint.chatCompletions.outgoing plainHost
      [mainProfile { apiKey := some "stored-key", accessToken := none }] foreignBaseRequest =
        [{ address := "https://other.example/v1", header := some (.bearer "stored-key") }] := by
    decide +kernel
  have hother : OpenAIEndpoint.chatCompletions.outgoing plainHost
      [mainProfile { apiKey := some "other-key", accessToken := none }] foreignBaseRequest =
        [{ address := "https://other.example/v1", header := some (.bearer "other-key") }] := by
    decide +kernel
  have howns : ¬ (mainProfile ()).Owns "https://other.example/v1" := by decide +kernel
  constructor
  · intro h
    have hhome := h [mainProfile { apiKey := some "stored-key", accessToken := none }] rfl
      { address := "https://other.example/v1", header := some (.bearer "stored-key") }
      (by rw [hsent]; exact List.mem_singleton_self _) "stored-key" rfl
    rcases hhome with (hkey | htoken) | ⟨name, -, hname⟩ | ⟨profile, hp, -, hown⟩
    · cases hkey
    · cases htoken
    · cases hname
    · obtain rfl := List.mem_singleton.mp hp
      exact howns hown
  · intro h
    have hsame := h "https://other.example/v1" rfl
      [mainProfile { apiKey := some "stored-key", accessToken := none }]
      [mainProfile { apiKey := some "other-key", accessToken := none }] rfl
      (.cons ⟨rfl, fun hown => absurd hown howns⟩ .nil)
      { address := "https://other.example/v1", header := some (.bearer "stored-key") } rfl
    rw [hsent, hother] at hsame
    revert hsame
    decide

end ForeignBase

end Gail.Gateway
