import Gail.Library.TextSearch
import Mathlib.Data.List.Dedup
import Mathlib.Data.List.Sort

/-! The route of an OpenAI-compatible request: which provider and which configured profile its model and
its provider name. No credential is read on the way. -/
namespace Gail.Gateway
open Gail.Library

/-- A configured provider, with its credentials. -/
structure ProviderProfile (κ : Type) where
  name : String
  providerType : String
  model : Option String
  baseUrl : Option String
  preferred : Bool
  credentials : κ
  deriving DecidableEq

inductive OpenAIResolvedRoute (κ : Type) where
  | orchestrated
  | explicit (provider : String) (model : Option String) (profile : Option (ProviderProfile κ))

/-- The variables of the process environment. -/
abbrev Environment := String → Option String

@[irreducible] def normalizeProviderType (raw : String) : String :=
  let cleaned := toAsciiLowercase (trim raw)
  if cleaned = "chatgpt" ∨ cleaned = "gpt" then "openai"
  else if cleaned = "google" then "gemini"
  else if cleaned = "nim" ∨ cleaned = "nvidia_nim" then "nvidia"
  else cleaned

def envFlag (env : Environment) (name : String) (default : Bool) : Bool :=
  match (env name).map fun value => toAsciiLowercase (trim value) with
  | some value =>
    if value ∈ ["1", "true", "yes", "on"] then true
    else if value ∈ ["0", "false", "no", "off"] then false
    else default
  | none => default

def isSupportedProvider (provider : String) : Bool :=
  provider ∈ ["openai", "nvidia", "gemini", "ollama"]

def isSpecialistPrefix (hint : String) : Bool :=
  hint ∈ ["aarnn", "snn", "specialist", "neuromorphic"]

def isGenericSpecialistAlias (model : String) : Bool :=
  model ∈ ["aarnn", "snn", "specialist", "neuromorphic"]

def isKnownRoutePrefix (hint : String) : Bool :=
  isSupportedProvider hint || isSpecialistPrefix hint || hint ∈ ["gail", "gateway"]

def isGailAutoModel (model : String) : Bool := trim model ∈ ["gail-auto", "auto", "orchestrated"]

def localModelNames : List String :=
  ["qwen", "llama", "mistral", "mixtral", "phi", "gemma", "deepseek", "codellama", "dolphin", "orca",
    "nous"]

def startsWith (text start : String) : Bool := start.toList.isPrefixOf text.toList

def isLocalModelName (model : String) : Bool := localModelNames.any (startsWith model)

def inferProviderFromModel (model : String) : Option String :=
  let lowered := toAsciiLowercase (trim model)
  if ["gpt-", "chatgpt", "o1", "o3", "o4", "codex", "whisper"].any (startsWith lowered) then some "openai"
  else if startsWith lowered "gemini" then some "gemini"
  else if localModelNames.any (startsWith lowered) then some "ollama"
  else none

/-- The provider and the model of `provider/model`, or of `provider:model`. -/
def splitRoutedModel (model : String) : Option (String × String) :=
  ['/', ':'].findSome? fun delimiter =>
    match splitOnce [delimiter] model.toList with
    | some (hint, routedModel) =>
      let normalized := toAsciiLowercase (trim (String.ofList hint))
      let routedModel := trim (String.ofList routedModel)
      if isKnownRoutePrefix normalized && !routedModel.isEmpty then some (normalized, routedModel)
      else none
    | none => none

section Selection
variable {κ : Type}

/-- Preferred profiles first, then by name. -/
def ProviderProfile.precedes (left right : ProviderProfile κ) : Prop :=
  if left.preferred = right.preferred then left.name ≤ right.name else left.preferred = true

instance : DecidableRel (ProviderProfile.precedes (κ := κ)) := fun left right => by
  unfold ProviderProfile.precedes
  infer_instance

def ProviderProfile.hasModel (profile : ProviderProfile κ) (model : String) : Bool :=
  profile.model.any fun configured => eqIgnoreAsciiCase configured model

def ProviderProfile.normalizedType (profile : ProviderProfile κ) : String :=
  normalizeProviderType profile.providerType

/-- By its name, or by its provider. -/
def ProviderProfile.answersTo (profile : ProviderProfile κ) (hint normalized : String) : Bool :=
  eqIgnoreAsciiCase profile.name hint || profile.normalizedType == normalized

/-- The profiles with the model, or all of them where none has it. -/
def exactMatches (found : List (ProviderProfile κ)) (modelHint : Option String) :
    List (ProviderProfile κ) :=
  match modelHint.filter fun value =>
      !(trim value).isEmpty && !eqIgnoreAsciiCase value "default" with
  | none => found
  | some model =>
    if (found.filter fun profile => profile.hasModel model).isEmpty then found
    else found.filter fun profile => profile.hasModel model

def selectProviderProfile (profiles : List (ProviderProfile κ)) (providerHint : String)
    (modelHint : Option String) : Option (ProviderProfile κ) :=
  let providerHint := trim providerHint
  if providerHint.isEmpty then none
  else
    let normalized := normalizeProviderType providerHint
    let found := profiles.filter fun profile => profile.answersTo providerHint normalized
    ((exactMatches found modelHint).insertionSort ProviderProfile.precedes).head?

/-- A profile with the model, where all profiles with the model are of one provider. -/
def findProfileForModel (profiles : List (ProviderProfile κ)) (model : String) :
    Option (String × ProviderProfile κ) :=
  match profiles.filter fun profile => profile.hasModel model with
  | [] => none
  | first :: rest =>
    match ((first :: rest).map ProviderProfile.normalizedType).dedup with
    | [provider] => some (provider, (selectProviderProfile profiles provider (some model)).getD first)
    | _ => none

/-- The route to the profile that the hint selects, or to the provider that it names. -/
def hintedRoute (profiles : List (ProviderProfile κ)) (hint : String) (routedModel : String) :
    String × Option (ProviderProfile κ) :=
  let profile := selectProviderProfile profiles hint (some routedModel)
  ((profile.map ProviderProfile.normalizedType).getD (normalizeProviderType hint), profile)

def resolveOpenaiRoute (env : Environment) (profiles : List (ProviderProfile κ))
    (requestedModel : String) (explicitProvider : Option String) :
    Except String (OpenAIResolvedRoute κ) :=
  let model := trim requestedModel
  if model.isEmpty then .error "OpenAI requests require a non-empty `model`"
  else
    let lowered := toAsciiLowercase model
    if isGailAutoModel lowered || isGenericSpecialistAlias lowered then .ok .orchestrated
    else if envFlag env "GAIL_FALLBACK_UNAVAILABLE_LOCAL_MODELS" false && isLocalModelName lowered &&
        (findProfileForModel profiles model).isNone then .ok .orchestrated
    else
      match splitRoutedModel model with
      | some (hint, routedModel) =>
        if hint ∈ ["gail", "gateway"] then
          if isGailAutoModel (toAsciiLowercase routedModel) then .ok .orchestrated
          else
            .error s!"unsupported Gail model route `{model}`. Use `gail-auto` or `provider/model`"
        else if isSpecialistPrefix hint then .ok .orchestrated
        else
          let (provider, profile) := hintedRoute profiles hint routedModel
          .ok (.explicit provider
            (if eqIgnoreAsciiCase routedModel "default" then none else some routedModel) profile)
      | none =>
        match explicitProvider.filter fun value => !(trim value).isEmpty with
        | some providerHint =>
          if isSpecialistPrefix (toAsciiLowercase (trim providerHint)) then .ok .orchestrated
          else
            let (provider, profile) := hintedRoute profiles providerHint model
            if !isSupportedProvider provider then
              .error
                s!"unsupported provider hint `{providerHint}` for OpenAI-compatible routing"
            else .ok (.explicit provider (some model) profile)
        | none =>
          match findProfileForModel profiles model with
          | some (provider, profile) => .ok (.explicit provider (some model) (some profile))
          | none =>
            match inferProviderFromModel model with
            | some provider =>
              .ok (.explicit provider (some model)
                (selectProviderProfile profiles provider (some model)))
            | none =>
              .error s!"unable to route OpenAI model `{model}`. Use `gail-auto` for orchestration or `provider/model` for an explicit backend"

end Selection

section Selected
variable {κ : Type} {profiles : List (ProviderProfile κ)} {profile : ProviderProfile κ}

theorem normalizeProviderType_trim (raw : String) :
    normalizeProviderType (trim raw) = normalizeProviderType raw := by
  unfold normalizeProviderType
  rw [trim_trim]

theorem exactMatches_sublist (found : List (ProviderProfile κ)) (modelHint : Option String) :
    (exactMatches found modelHint).Sublist found := by
  unfold exactMatches
  split
  · exact List.Sublist.refl found
  · split
    · exact List.Sublist.refl found
    · exact List.filter_sublist

theorem exactMatches_eq_nil {found : List (ProviderProfile κ)} {modelHint : Option String}
    (h : exactMatches found modelHint = []) : found = [] := by
  unfold exactMatches at h
  split at h
  · exact h
  · split at h
    · exact h
    · next hne => exact absurd (List.isEmpty_iff.mpr h) hne

theorem selectProviderProfile_mem {hint : String} {modelHint : Option String}
    (h : selectProviderProfile profiles hint modelHint = some profile) : profile ∈ profiles := by
  unfold selectProviderProfile at h
  dsimp only at h
  split at h
  · cases h
  · have hmem := List.mem_of_head? h
    rw [List.mem_insertionSort] at hmem
    exact List.mem_of_mem_filter ((exactMatches_sublist _ _).subset hmem)

/-- Where nothing is selected, no profile is of the provider. -/
theorem selectProviderProfile_eq_none {hint : String} {modelHint : Option String}
    (hhint : (trim hint).isEmpty = false) (h : selectProviderProfile profiles hint modelHint = none) :
    ∀ profile ∈ profiles, profile.normalizedType ≠ normalizeProviderType hint := by
  unfold selectProviderProfile at h
  dsimp only at h
  rw [if_neg (by rw [hhint]; exact Bool.false_ne_true), List.head?_eq_none_iff,
    ← List.length_eq_zero_iff, List.length_insertionSort, List.length_eq_zero_iff] at h
  have hfound := exactMatches_eq_nil h
  rw [List.filter_eq_nil_iff] at hfound
  intro profile hp ht
  apply hfound profile hp
  rw [ProviderProfile.answersTo, ht, normalizeProviderType_trim, beq_self_eq_true, Bool.or_true]

theorem findProfileForModel_mem {model provider : String}
    (h : findProfileForModel profiles model = some (provider, profile)) : profile ∈ profiles := by
  unfold findProfileForModel at h
  split at h
  · cases h
  next first rest hfilter =>
  split at h
  swap
  · cases h
  obtain ⟨-, rfl⟩ := Prod.mk.inj (Option.some.inj h)
  cases hs : selectProviderProfile profiles _ (some model) with
  | some selected => exact selectProviderProfile_mem hs
  | none =>
    have hfirst : first ∈ first :: rest := List.mem_cons_self
    rw [← hfilter] at hfirst
    exact List.mem_of_mem_filter hfirst

theorem hintedRoute_mem {hint model : String} (h : (hintedRoute profiles hint model).2 = some profile) :
    profile ∈ profiles := by
  unfold hintedRoute at h
  dsimp only at h
  exact selectProviderProfile_mem h

theorem hintedRoute_eq_none {hint model : String} (hhint : (trim hint).isEmpty = false)
    (h : (hintedRoute profiles hint model).2 = none) :
    (hintedRoute profiles hint model).1 = normalizeProviderType hint ∧
      ∀ other ∈ profiles, other.normalizedType ≠ normalizeProviderType hint := by
  unfold hintedRoute at h ⊢
  dsimp only at h ⊢
  refine ⟨?_, selectProviderProfile_eq_none hhint h⟩
  rw [h]
  rfl

theorem splitRoutedModel_known {model hint routedModel : String}
    (h : splitRoutedModel model = some (hint, routedModel)) : isKnownRoutePrefix hint = true := by
  unfold splitRoutedModel at h
  obtain ⟨delimiter, -, hd⟩ := List.exists_of_findSome?_eq_some h
  split at hd
  swap
  · cases hd
  dsimp only at hd
  split at hd
  swap
  · cases hd
  next hk =>
  obtain ⟨rfl, rfl⟩ := Prod.mk.inj (Option.some.inj hd)
  exact (Bool.and_eq_true_iff.mp hk).1

theorem inferProviderFromModel_supported {model provider : String}
    (h : inferProviderFromModel model = some provider) : isSupportedProvider provider = true := by
  unfold inferProviderFromModel at h
  dsimp only at h
  repeat' split at h
  all_goals cases h
  all_goals rfl

theorem normalizeProviderType_supported {provider : String} (h : isSupportedProvider provider = true) :
    normalizeProviderType provider = provider := by
  have hnames : ∀ name ∈ ["openai", "nvidia", "gemini", "ollama"],
      normalizeProviderType name = name := by decide +kernel
  exact hnames provider (of_decide_eq_true h)

theorem supported_not_blank {provider : String} (h : isSupportedProvider provider = true) :
    (trim provider).isEmpty = false := by
  have hnames : ∀ name ∈ ["openai", "nvidia", "gemini", "ollama"], (trim name).isEmpty = false := by
    decide +kernel
  exact hnames provider (of_decide_eq_true h)

theorem isSupportedProvider_of_known {hint : String} (hk : isKnownRoutePrefix hint = true)
    (hgail : hint ∉ ["gail", "gateway"]) (hs : ¬ isSpecialistPrefix hint = true) :
    isSupportedProvider hint = true := by
  unfold isKnownRoutePrefix at hk
  rw [Bool.or_eq_true, Bool.or_eq_true, decide_eq_true_eq] at hk
  exact (hk.resolve_right hgail).resolve_right hs

/-- The explicit routes, by the profile that they lead to. -/
structure RouteTo (profiles : List (ProviderProfile κ)) (provider : String)
    (profile : Option (ProviderProfile κ)) : Prop where
  mem : ∀ selected, profile = some selected → selected ∈ profiles
  none : profile = none → normalizeProviderType provider = provider ∧
    ∀ other ∈ profiles, other.normalizedType ≠ provider

theorem resolveOpenaiRoute_explicit {env : Environment} {requested : String} {explicitProvider : Option String}
    {provider : String} {model : Option String} {selected : Option (ProviderProfile κ)}
    (h : resolveOpenaiRoute env profiles requested explicitProvider =
      .ok (.explicit provider model selected)) : RouteTo profiles provider selected := by
  unfold resolveOpenaiRoute at h
  dsimp only at h
  split at h
  · cases h
  split at h
  · cases h
  split at h
  · cases h
  split at h
  · next hint routedModel hsplit =>
    split at h
    · split at h <;> cases h
    next hgail =>
    split at h
    · cases h
    next hspecialist =>
    obtain ⟨rfl, -, rfl⟩ := OpenAIResolvedRoute.explicit.inj (Except.ok.inj h)
    have hsupported :=
      isSupportedProvider_of_known (splitRoutedModel_known hsplit) hgail hspecialist
    refine ⟨fun selected hs => hintedRoute_mem hs, fun hnone => ?_⟩
    have hprovider := normalizeProviderType_supported hsupported
    obtain ⟨hnamed, hother⟩ := hintedRoute_eq_none (supported_not_blank hsupported) hnone
    rw [hnamed, hprovider]
    rw [hprovider] at hother
    exact ⟨hprovider, hother⟩
  · split at h
    · next hint hexplicit =>
      split at h
      · cases h
      split at h
      · cases h
      next hsupported =>
      obtain ⟨rfl, -, rfl⟩ := OpenAIResolvedRoute.explicit.inj (Except.ok.inj h)
      rw [Bool.not_eq_true', Bool.not_eq_false] at hsupported
      refine ⟨fun selected hs => hintedRoute_mem hs, fun hnone => ?_⟩
      have hblank := (Option.filter_eq_some_iff.mp hexplicit).2
      rw [Bool.not_eq_true'] at hblank
      obtain ⟨hnamed, hother⟩ := hintedRoute_eq_none hblank hnone
      rw [← hnamed] at hother
      exact ⟨normalizeProviderType_supported hsupported, hother⟩
    · split at h
      · next hf =>
        cases h
        refine ⟨fun selected hs => ?_, fun hn => nomatch hn⟩
        rw [← Option.some.inj hs]
        exact findProfileForModel_mem hf
      · split at h
        swap
        · cases h
        next provider hinfer =>
        cases h
        have hsupported := inferProviderFromModel_supported hinfer
        have hprovider := normalizeProviderType_supported hsupported
        refine ⟨fun selected hs => selectProviderProfile_mem hs, fun hnone => ⟨hprovider, ?_⟩⟩
        have hother := selectProviderProfile_eq_none (supported_not_blank hsupported) hnone
        rwa [hprovider] at hother

end Selected

section Credentials
variable {κ ι : Type} (f : ProviderProfile κ → ι)

/-- The same profile with other credentials. -/
def ProviderProfile.fill (profile : ProviderProfile κ) : ProviderProfile ι :=
  { name := profile.name, providerType := profile.providerType, model := profile.model
    baseUrl := profile.baseUrl, preferred := profile.preferred, credentials := f profile }

def OpenAIResolvedRoute.fill : OpenAIResolvedRoute κ → OpenAIResolvedRoute ι
  | .orchestrated => .orchestrated
  | .explicit provider model profile => .explicit provider model (profile.map (ProviderProfile.fill f))

@[simp] theorem fill_providerType (profile : ProviderProfile κ) :
    (profile.fill f).providerType = profile.providerType := rfl

@[simp] theorem fill_model (profile : ProviderProfile κ) : (profile.fill f).model = profile.model := rfl

@[simp] theorem fill_baseUrl (profile : ProviderProfile κ) :
    (profile.fill f).baseUrl = profile.baseUrl := rfl

@[simp] theorem fill_credentials (profile : ProviderProfile κ) :
    (profile.fill f).credentials = f profile := rfl

@[simp] theorem hasModel_fill (profile : ProviderProfile κ) (model : String) :
    (profile.fill f).hasModel model = profile.hasModel model := rfl

@[simp] theorem normalizedType_fill (profile : ProviderProfile κ) :
    (profile.fill f).normalizedType = profile.normalizedType := by
  rw [ProviderProfile.normalizedType, fill_providerType, ProviderProfile.normalizedType]

theorem filter_hasModel_fill (profiles : List (ProviderProfile κ)) (model : String) :
    (profiles.map (ProviderProfile.fill f)).filter (fun profile => profile.hasModel model) =
      (profiles.filter fun profile => profile.hasModel model).map (ProviderProfile.fill f) :=
  List.filter_map

theorem filter_answersTo_fill (profiles : List (ProviderProfile κ)) (hint normalized : String) :
    (profiles.map (ProviderProfile.fill f)).filter (fun profile => profile.answersTo hint normalized) =
      (profiles.filter fun profile => profile.answersTo hint normalized).map (ProviderProfile.fill f) :=
  List.filter_map

theorem exactMatches_fill (found : List (ProviderProfile κ)) (modelHint : Option String) :
    exactMatches (found.map (ProviderProfile.fill f)) modelHint =
      (exactMatches found modelHint).map (ProviderProfile.fill f) := by
  unfold exactMatches
  split
  · rfl
  · rw [filter_hasModel_fill, List.isEmpty_map]
    split <;> rfl

theorem sort_fill (profiles : List (ProviderProfile κ)) :
    (profiles.map (ProviderProfile.fill f)).insertionSort ProviderProfile.precedes =
      (profiles.insertionSort ProviderProfile.precedes).map (ProviderProfile.fill f) := by
  symm
  apply List.map_insertionSort
  intro left _ right _
  rfl

/-- The selection does not look at the credentials. -/
theorem selectProviderProfile_fill (profiles : List (ProviderProfile κ)) (hint : String)
    (modelHint : Option String) :
    selectProviderProfile (profiles.map (ProviderProfile.fill f)) hint modelHint =
      (selectProviderProfile profiles hint modelHint).map (ProviderProfile.fill f) := by
  unfold selectProviderProfile
  dsimp only
  split
  · rfl
  · rw [filter_answersTo_fill, exactMatches_fill, sort_fill, List.head?_map]

theorem types_fill (profiles : List (ProviderProfile κ)) :
    (profiles.map (ProviderProfile.fill f)).map ProviderProfile.normalizedType =
      profiles.map ProviderProfile.normalizedType := by
  induction profiles with
  | nil => rfl
  | cons profile profiles ih =>
    rw [List.map_cons, List.map_cons, List.map_cons, ih, normalizedType_fill]

theorem findProfileForModel_fill (profiles : List (ProviderProfile κ)) (model : String) :
    findProfileForModel (profiles.map (ProviderProfile.fill f)) model =
      (findProfileForModel profiles model).map fun found => (found.1, found.2.fill f) := by
  unfold findProfileForModel
  rw [filter_hasModel_fill]
  cases profiles.filter fun profile => profile.hasModel model with
  | nil => rfl
  | cons first rest =>
    rw [List.map_cons]
    dsimp only
    rw [← List.map_cons, types_fill]
    split
    · rw [selectProviderProfile_fill, Option.map_some]
      cases selectProviderProfile profiles _ (some model) <;> rfl
    · rfl

theorem hintedRoute_fill (profiles : List (ProviderProfile κ)) (hint model : String) :
    hintedRoute (profiles.map (ProviderProfile.fill f)) hint model =
      ((hintedRoute profiles hint model).1,
        (hintedRoute profiles hint model).2.map (ProviderProfile.fill f)) := by
  unfold hintedRoute
  rw [selectProviderProfile_fill]
  cases selectProviderProfile profiles hint (some model) with
  | none => rfl
  | some profile =>
    dsimp only
    rw [Option.map_some, Option.map_some, Option.map_some, normalizedType_fill]

/-- Nor does the route. -/
theorem resolveOpenaiRoute_fill (env : Environment) (profiles : List (ProviderProfile κ))
    (model : String) (provider : Option String) :
    resolveOpenaiRoute env (profiles.map (ProviderProfile.fill f)) model provider =
      (resolveOpenaiRoute env profiles model provider).map (OpenAIResolvedRoute.fill f) := by
  unfold resolveOpenaiRoute
  simp only [findProfileForModel_fill, hintedRoute_fill, selectProviderProfile_fill, Option.isNone_map]
  split
  · rfl
  split
  · rfl
  split
  · rfl
  split
  · split
    · split <;> rfl
    · split <;> rfl
  · split
    · split
      · rfl
      · split <;> rfl
    · cases findProfileForModel profiles (trim model) with
      | some found => rfl
      | none =>
        dsimp only [Option.map_none]
        split <;> rfl

end Credentials

end Gail.Gateway
