import Gail.Metrics.MetricsData
import Mathlib.Algebra.Group.Action.Defs
import Mathlib.Algebra.Order.BigOperators.Group.List
import Mathlib.Tactic.FieldSimp
import Mathlib.Tactic.Linarith

/-! What a bucket of response times says of the observations that were merged into it: the counts, the sums and
the means, and the mean of the prompt sizes, which is taken over the requests. -/
namespace Gail.Metrics
open Gail.Trading

structure ResponseObservation where
  now : ℚ
  latencyMs : Nat
  success : Bool
  promptTokensEstimate : Option Nat

def AiResponseTimeStats.observe (bucket : AiResponseTimeStats ℚ) (observation : ResponseObservation) :
    AiResponseTimeStats ℚ :=
  mergeAiResponseTime observation.now bucket observation.latencyMs observation.success
    observation.promptTokensEstimate

/-- The bucket after all observations, in exact arithmetic. -/
def mergedTimes (observations : List ResponseObservation) : AiResponseTimeStats ℚ :=
  observations.foldl AiResponseTimeStats.observe {}

def latencies (observations : List ResponseObservation) : List Nat :=
  observations.map ResponseObservation.latencyMs

/-- The latencies of the successes, or of the failures. -/
def latenciesOf (success : Bool) (observations : List ResponseObservation) : List Nat :=
  latencies (observations.filter fun observation => observation.success == success)

def promptSizes (observations : List ResponseObservation) : List Nat :=
  observations.filterMap ResponseObservation.promptTokensEstimate

def meanOf (samples : List Nat) : Option ℚ :=
  if samples = [] then none else some (samples.sum / samples.length)

/-- The statistics of exactly these samples. -/
structure LatencyStats.Describes (stats : LatencyStats ℚ) (samples : List Nat) : Prop where
  total : stats.totalMs = samples.sum
  average : stats.averageMs = meanOf samples
  least : stats.minMs = samples.min?
  most : stats.maxMs = samples.max?

/-- The average lies between the extremes. -/
def LatencyStats.Between (stats : LatencyStats ℚ) : Prop :=
  ∀ least ∈ stats.minMs, ∀ average ∈ stats.averageMs, ∀ most ∈ stats.maxMs,
    (least : ℚ) ≤ average ∧ average ≤ most

/-- The counts of the bucket, and its statistics of latencies, are those of the observations. -/
structure AccurateLatencies (bucket : AiResponseTimeStats ℚ) (observations : List ResponseObservation) :
    Prop where
  requests : bucket.requests = observations.length
  successes : bucket.successes = (latenciesOf true observations).length
  failures : bucket.failures = (latenciesOf false observations).length
  successSamples : bucket.successfulLatencySamples = bucket.successes
  failureSamples : bucket.failedLatencySamples = bucket.failures
  latency : bucket.latency.Describes (latencies observations)
  successfulLatency : bucket.successfulLatency.Describes (latenciesOf true observations)
  failedLatency : bucket.failedLatency.Describes (latenciesOf false observations)
  promptTotal : bucket.totalPromptTokens = (promptSizes observations).sum

/-- So are all of its averages, which lie between the extremes. -/
structure AccurateTimes (bucket : AiResponseTimeStats ℚ) (observations : List ResponseObservation) : Prop
    extends AccurateLatencies bucket observations where
  outcomes : bucket.requests = bucket.successes + bucket.failures
  between : bucket.latency.Between ∧ bucket.successfulLatency.Between ∧ bucket.failedLatency.Between
  promptAverage : bucket.averagePromptTokens = meanOf (promptSizes observations)

/-- No counter or sum comes to the maximum of its width. -/
structure BelowSaturation (observations : List ResponseObservation) : Prop where
  requests : observations.length ≤ u64Max
  latency : (latencies observations).sum ≤ u64Max
  prompts : (promptSizes observations).sum ≤ u64Max

/-- No observation without an estimate comes before one with an estimate. -/
def EstimatesFirst (observations : List ResponseObservation) : Prop :=
  observations.Pairwise fun earlier later =>
    later.promptTokensEstimate.isSome → earlier.promptTokensEstimate.isSome

section Samples
variable {samples : List Nat} {stats : LatencyStats ℚ} {value : Nat}

theorem meanOf_between {least most : Nat} {average : ℚ} (hleast : least ∈ samples.min?)
    (haverage : average ∈ meanOf samples) (hmost : most ∈ samples.max?) :
    (least : ℚ) ≤ average ∧ average ≤ most := by
  obtain ⟨hmem, hlow⟩ := List.min?_eq_some_iff.mp hleast
  obtain ⟨-, hhigh⟩ := List.max?_eq_some_iff.mp hmost
  have hne : samples ≠ [] := List.ne_nil_of_mem hmem
  have hpos : (0 : ℚ) < samples.length := by exact_mod_cast List.length_pos_iff.mpr hne
  have hsum := List.card_nsmul_le_sum samples least hlow
  have hsum' := List.sum_le_card_nsmul samples most hhigh
  rw [smul_eq_mul] at hsum hsum'
  rw [meanOf, if_neg hne] at haverage
  rw [← Option.some.inj haverage, le_div_iff₀ hpos, div_le_iff₀ hpos]
  constructor
  · rw [mul_comm]
    exact_mod_cast hsum
  · rw [mul_comm]
    exact_mod_cast hsum'

theorem LatencyStats.Describes.between (h : stats.Describes samples) : stats.Between := by
  intro least hleast average haverage most hmost
  exact meanOf_between (h.least ▸ hleast) (h.average ▸ haverage) (h.most ▸ hmost)

theorem min?_concat (samples : List Nat) (value : Nat) :
    (samples ++ [value]).min? = some ((samples.min?.map fun least => min least value).getD value) := by
  cases samples with
  | nil => rfl
  | cons first samples =>
    rw [List.cons_append, List.min?_cons', List.min?_cons', List.foldl_append]
    rfl

theorem max?_concat (samples : List Nat) (value : Nat) :
    (samples ++ [value]).max? = some ((samples.max?.map fun most => max most value).getD value) := by
  cases samples with
  | nil => rfl
  | cons first samples =>
    rw [List.cons_append, List.max?_cons', List.max?_cons', List.foldl_append]
    rfl

/-- One more sample. -/
theorem LatencyStats.Describes.merge (h : stats.Describes samples) {count : Nat}
    (hcount : count = samples.length + 1) (hsum : (samples ++ [value]).sum ≤ u64Max) :
    (stats.merge count value).Describes (samples ++ [value]) := by
  rw [List.sum_append, List.sum_singleton] at hsum
  have htotal : saturatingAdd stats.totalMs value = (samples ++ [value]).sum := by
    rw [h.total, List.sum_append, List.sum_singleton]
    exact min_eq_left hsum
  refine ⟨htotal, ?_, ?_, ?_⟩
  · have hne : samples ++ [value] ≠ [] := List.append_ne_nil_of_right_ne_nil _ (List.cons_ne_nil _ _)
    rw [meanOf, if_neg hne, LatencyStats.merge, htotal, hcount, List.length_append]
    rfl
  · rw [min?_concat, LatencyStats.merge, h.least]
  · rw [max?_concat, LatencyStats.merge, h.most]

end Samples

section Observations
variable {bucket : AiResponseTimeStats ℚ} {observation : ResponseObservation}
  {observations : List ResponseObservation}

theorem latencies_concat (observations : List ResponseObservation) (observation : ResponseObservation) :
    latencies (observations ++ [observation]) = latencies observations ++ [observation.latencyMs] :=
  List.map_append

theorem latenciesOf_concat (success : Bool) (observations : List ResponseObservation)
    (observation : ResponseObservation) :
    latenciesOf success (observations ++ [observation]) = latenciesOf success observations ++
      if observation.success = success then [observation.latencyMs] else [] := by
  unfold latenciesOf
  rw [List.filter_append, List.filter_singleton]
  by_cases h : observation.success = success
  · simp [latencies, h]
  · have hother : (observation.success == success) = false := beq_eq_false_iff_ne.mpr h
    simp [latencies, h, hother]

theorem promptSizes_concat (observations : List ResponseObservation) (observation : ResponseObservation) :
    promptSizes (observations ++ [observation]) =
      promptSizes observations ++ observation.promptTokensEstimate.toList := by
  unfold promptSizes
  rw [List.filterMap_append]
  cases h : observation.promptTokensEstimate with
  | none => simp [h]
  | some size => simp [h]

theorem length_latenciesOf (observations : List ResponseObservation) :
    (latenciesOf true observations).length + (latenciesOf false observations).length = observations.length := by
  induction observations using List.reverseRecOn with
  | nil => rfl
  | append_singleton observations observation ih =>
    rw [latenciesOf_concat, latenciesOf_concat]
    cases observation.success <;> simp <;> omega

theorem sum_latenciesOf (observations : List ResponseObservation) :
    (latenciesOf true observations).sum + (latenciesOf false observations).sum =
      (latencies observations).sum := by
  induction observations using List.reverseRecOn with
  | nil => rfl
  | append_singleton observations observation ih =>
    rw [latenciesOf_concat, latenciesOf_concat, latencies_concat]
    cases observation.success <;> simp <;> omega

theorem BelowSaturation.init (h : BelowSaturation (observations ++ [observation])) :
    BelowSaturation observations := by
  obtain ⟨hrequests, hlatency, hprompts⟩ := h
  rw [List.length_append] at hrequests
  rw [latencies_concat, List.sum_append] at hlatency
  rw [promptSizes_concat, List.sum_append] at hprompts
  exact ⟨by omega, by omega, by omega⟩

theorem observe_requests (bucket : AiResponseTimeStats ℚ) (observation : ResponseObservation) :
    (bucket.observe observation).requests = saturatingSucc bucket.requests ∧
      (bucket.observe observation).latency =
        bucket.latency.merge (max (saturatingSucc bucket.requests) 1) observation.latencyMs := by
  unfold AiResponseTimeStats.observe mergeAiResponseTime
  cases observation.success <;> cases observation.promptTokensEstimate <;> exact ⟨rfl, rfl⟩

theorem observe_success (h : observation.success = true) :
    (bucket.observe observation).successes = saturatingSucc bucket.successes ∧
      (bucket.observe observation).successfulLatencySamples =
        saturatingSucc bucket.successfulLatencySamples ∧
      (bucket.observe observation).successfulLatency = bucket.successfulLatency.merge
        (saturatingSucc bucket.successfulLatencySamples) observation.latencyMs ∧
      (bucket.observe observation).failures = bucket.failures ∧
      (bucket.observe observation).failedLatencySamples = bucket.failedLatencySamples ∧
      (bucket.observe observation).failedLatency = bucket.failedLatency := by
  unfold AiResponseTimeStats.observe mergeAiResponseTime
  rw [h]
  cases observation.promptTokensEstimate <;> exact ⟨rfl, rfl, rfl, rfl, rfl, rfl⟩

theorem observe_failure (h : observation.success = false) :
    (bucket.observe observation).failures = saturatingSucc bucket.failures ∧
      (bucket.observe observation).failedLatencySamples = saturatingSucc bucket.failedLatencySamples ∧
      (bucket.observe observation).failedLatency = bucket.failedLatency.merge
        (saturatingSucc bucket.failedLatencySamples) observation.latencyMs ∧
      (bucket.observe observation).successes = bucket.successes ∧
      (bucket.observe observation).successfulLatencySamples = bucket.successfulLatencySamples ∧
      (bucket.observe observation).successfulLatency = bucket.successfulLatency := by
  unfold AiResponseTimeStats.observe mergeAiResponseTime
  rw [h]
  cases observation.promptTokensEstimate <;> exact ⟨rfl, rfl, rfl, rfl, rfl, rfl⟩

/-- The prompt sizes, whose average is over all requests so far. -/
theorem observe_prompts (bucket : AiResponseTimeStats ℚ) (observation : ResponseObservation) :
    (bucket.observe observation).totalPromptTokens =
        (observation.promptTokensEstimate.map (saturatingAdd bucket.totalPromptTokens)).getD
          bucket.totalPromptTokens ∧
      (bucket.observe observation).averagePromptTokens =
        if observation.promptTokensEstimate.isSome then
          some (((bucket.observe observation).totalPromptTokens : ℚ) /
            (max (saturatingSucc bucket.requests) 1 : Nat))
        else bucket.averagePromptTokens := by
  unfold AiResponseTimeStats.observe mergeAiResponseTime
  cases observation.success <;> cases observation.promptTokensEstimate <;> exact ⟨rfl, rfl⟩

/-- One more observation. -/
theorem AccurateLatencies.observe (h : AccurateLatencies bucket observations)
    (hsat : BelowSaturation (observations ++ [observation])) :
    AccurateLatencies (bucket.observe observation) (observations ++ [observation]) := by
  obtain ⟨hlength, hlatency, hprompts⟩ := hsat
  have hsum := sum_latenciesOf (observations ++ [observation])
  have hcount := length_latenciesOf observations
  rw [List.length_append, List.length_singleton] at hlength
  have hsucc {n : Nat} (hn : n ≤ observations.length) : saturatingSucc n = n + 1 :=
    saturatingSucc_of_lt (by omega)
  obtain ⟨hrequests, hall⟩ := observe_requests bucket observation
  rw [h.requests, hsucc le_rfl] at hrequests hall
  have hlatencies : (bucket.observe observation).latency.Describes
      (latencies (observations ++ [observation])) := by
    rw [latencies_concat] at hlatency ⊢
    rw [hall]
    refine h.latency.merge ?_ hlatency
    rw [latencies, List.length_map, max_eq_left (Nat.le_add_left 1 _)]
  have htotal : (bucket.observe observation).totalPromptTokens =
      (promptSizes (observations ++ [observation])).sum := by
    rw [promptSizes_concat] at hprompts ⊢
    rw [(observe_prompts bucket observation).1, h.promptTotal]
    cases hsize : observation.promptTokensEstimate with
    | none => rw [Option.toList_none, List.append_nil]; rfl
    | some size =>
      rw [hsize, Option.toList_some, List.sum_append, List.sum_singleton] at hprompts
      rw [Option.toList_some, List.sum_append, List.sum_singleton]
      exact min_eq_left hprompts
  cases hsuccess : observation.success with
  | true =>
    obtain ⟨hs, hn, hl, hf, hm, hk⟩ := @observe_success bucket observation hsuccess
    have htrue : latenciesOf true (observations ++ [observation]) =
        latenciesOf true observations ++ [observation.latencyMs] := by
      rw [latenciesOf_concat, if_pos hsuccess]
    have hfalse : latenciesOf false (observations ++ [observation]) = latenciesOf false observations := by
      rw [latenciesOf_concat, hsuccess, if_neg (by decide), List.append_nil]
    rw [htrue, hfalse] at hsum
    rw [h.successSamples, h.successes, hsucc (by omega)] at hn hl
    rw [h.successes, hsucc (by omega)] at hs
    refine ⟨?_, ?_, ?_, ?_, ?_, hlatencies, ?_, ?_, htotal⟩
    · rw [hrequests, List.length_append, List.length_singleton]
    · rw [hs, htrue, List.length_append, List.length_singleton]
    · rw [hf, hfalse, h.failures]
    · rw [hn, hs]
    · rw [hm, hf, h.failureSamples]
    · rw [htrue, hl]
      exact h.successfulLatency.merge rfl (by omega)
    · rw [hfalse, hk]
      exact h.failedLatency
  | false =>
    obtain ⟨hs, hn, hl, hf, hm, hk⟩ := @observe_failure bucket observation hsuccess
    have hfalse : latenciesOf false (observations ++ [observation]) =
        latenciesOf false observations ++ [observation.latencyMs] := by
      rw [latenciesOf_concat, if_pos hsuccess]
    have htrue : latenciesOf true (observations ++ [observation]) = latenciesOf true observations := by
      rw [latenciesOf_concat, hsuccess, if_neg Bool.false_ne_true, List.append_nil]
    rw [htrue, hfalse] at hsum
    rw [h.failureSamples, h.failures, hsucc (by omega)] at hn hl
    rw [h.failures, hsucc (by omega)] at hs
    refine ⟨?_, ?_, ?_, ?_, ?_, hlatencies, ?_, ?_, htotal⟩
    · rw [hrequests, List.length_append, List.length_singleton]
    · rw [hf, htrue, h.successes]
    · rw [hs, hfalse, List.length_append, List.length_singleton]
    · rw [hm, hf, h.successSamples]
    · rw [hn, hs]
    · rw [htrue, hk]
      exact h.successfulLatency
    · rw [hfalse, hl]
      exact h.failedLatency.merge rfl (by omega)

theorem mergedTimes_concat (observations : List ResponseObservation) (observation : ResponseObservation) :
    mergedTimes (observations ++ [observation]) = (mergedTimes observations).observe observation := by
  rw [mergedTimes, List.foldl_append]
  rfl

theorem mergedTimes_accurateLatencies (h : BelowSaturation observations) :
    AccurateLatencies (mergedTimes observations) observations := by
  induction observations using List.reverseRecOn with
  | nil => exact ⟨rfl, rfl, rfl, rfl, rfl, ⟨rfl, rfl, rfl, rfl⟩, ⟨rfl, rfl, rfl, rfl⟩, ⟨rfl, rfl, rfl, rfl⟩, rfl⟩
  | append_singleton observations observation ih =>
    rw [mergedTimes_concat]
    exact (ih h.init).observe h

/-- The observations up to the last one with an estimate. -/
def upToEstimate (observations : List ResponseObservation) : List ResponseObservation :=
  observations.rdropWhile fun observation => observation.promptTokensEstimate.isNone

/-- The average of the prompt sizes is over all observations up to the last one with an estimate. -/
theorem mergedTimes_averagePromptTokens (h : BelowSaturation observations) :
    (mergedTimes observations).averagePromptTokens =
      if promptSizes observations = [] then none
      else some (((promptSizes observations).sum : ℚ) / (upToEstimate observations).length) := by
  induction observations using List.reverseRecOn with
  | nil => rfl
  | append_singleton observations observation ih =>
    have htotal := (mergedTimes_accurateLatencies h).promptTotal
    have hrequests := (mergedTimes_accurateLatencies h.init).requests
    have hlength := h.requests
    rw [List.length_append, List.length_singleton] at hlength
    rw [mergedTimes_concat] at htotal ⊢
    rw [(observe_prompts _ observation).2, htotal, hrequests, saturatingSucc_of_lt (by omega),
      max_eq_left (Nat.le_add_left 1 _), promptSizes_concat]
    cases hsize : observation.promptTokensEstimate with
    | none =>
      have hsame : upToEstimate (observations ++ [observation]) = upToEstimate observations :=
        List.rdropWhile_concat_pos _ _ _ (by rw [hsize]; rfl)
      rw [hsame, Option.toList_none, List.append_nil]
      exact ih h.init
    | some size =>
      have hall : upToEstimate (observations ++ [observation]) = observations ++ [observation] :=
        List.rdropWhile_concat_neg _ _ _ (by rw [hsize]; exact Bool.false_ne_true)
      have hne : promptSizes observations ++ [size] ≠ [] :=
        List.append_ne_nil_of_right_ne_nil _ (List.cons_ne_nil _ _)
      rw [hall, Option.toList_some, if_neg hne, List.length_append]
      rfl

theorem promptSizes_upToEstimate (observations : List ResponseObservation) :
    promptSizes (upToEstimate observations) = promptSizes observations := by
  induction observations using List.reverseRecOn with
  | nil => rfl
  | append_singleton observations observation ih =>
    unfold upToEstimate
    rw [List.rdropWhile_concat]
    split_ifs with hnone
    · rw [promptSizes_concat, Option.isNone_iff_eq_none.mp hnone, Option.toList_none, List.append_nil]
      exact ih
    · rfl

/-- All of them carry an estimate exactly if no observation without one comes before one with one. -/
theorem forall_upToEstimate_iff (observations : List ResponseObservation) :
    (∀ observation ∈ upToEstimate observations, observation.promptTokensEstimate.isSome) ↔
      EstimatesFirst observations := by
  induction observations using List.reverseRecOn with
  | nil => exact iff_of_true (fun observation hm => by cases hm) List.Pairwise.nil
  | append_singleton observations observation ih =>
    unfold upToEstimate EstimatesFirst at *
    rw [List.rdropWhile_concat, List.pairwise_append]
    cases hsize : observation.promptTokensEstimate with
    | none =>
      rw [if_pos Option.isNone_none, ih]
      refine ⟨fun h => ⟨h, List.pairwise_singleton _ _, ?_⟩, fun h => h.1⟩
      intro earlier _ later hlater hsome
      rw [List.mem_singleton.mp hlater, hsize] at hsome
      cases hsome
    | some size =>
      rw [if_neg (by exact Bool.false_ne_true)]
      constructor
      · intro h
        rw [List.forall_mem_append] at h
        refine ⟨List.pairwise_of_forall_mem_list fun earlier hearlier _ _ _ => h.1 earlier hearlier,
          List.pairwise_singleton _ _, fun earlier hearlier _ _ _ => h.1 earlier hearlier⟩
      · rintro ⟨-, -, hcross⟩ other hother
        have hsome : observation.promptTokensEstimate.isSome = true := by rw [hsize]; rfl
        rcases List.mem_append.mp hother with hother | hother
        · exact hcross other hother observation (List.mem_singleton_self _) hsome
        · rwa [List.mem_singleton.mp hother]

/-- Below saturation, the bucket is accurate exactly if no observation without an estimate comes before one with
an estimate, or all estimates are zero. -/
theorem accurateTimes_iff (observations : List ResponseObservation) (h : BelowSaturation observations) :
    AccurateTimes (mergedTimes observations) observations ↔
      EstimatesFirst observations ∨ (promptSizes observations).sum = 0 := by
  have hlatencies := mergedTimes_accurateLatencies h
  have haverage := mergedTimes_averagePromptTokens h
  have houtcomes : (mergedTimes observations).requests =
      (mergedTimes observations).successes + (mergedTimes observations).failures := by
    rw [hlatencies.requests, hlatencies.successes, hlatencies.failures, length_latenciesOf]
  have hbetween := And.intro hlatencies.latency.between
    (And.intro hlatencies.successfulLatency.between hlatencies.failedLatency.between)
  have hmean : (mergedTimes observations).averagePromptTokens = meanOf (promptSizes observations) ↔
      EstimatesFirst observations ∨ (promptSizes observations).sum = 0 := by
    have hcarry : (promptSizes observations).length = (upToEstimate observations).length ↔
        EstimatesFirst observations := by
      rw [← forall_upToEstimate_iff, ← promptSizes_upToEstimate]
      exact List.filterMap_length_eq_length
    rw [haverage, meanOf, ← hcarry]
    by_cases hnone : promptSizes observations = []
    · rw [if_pos hnone, if_pos hnone, hnone]
      exact iff_of_true rfl (.inr rfl)
    · have hpos := List.length_pos_iff.mpr hnone
      have hle : (promptSizes observations).length ≤ (upToEstimate observations).length := by
        rw [← promptSizes_upToEstimate]
        exact List.length_filterMap_le _ _
      have hsizes : ((promptSizes observations).length : ℚ) ≠ 0 := Nat.cast_ne_zero.mpr hpos.ne'
      have hthrough : ((upToEstimate observations).length : ℚ) ≠ 0 :=
        Nat.cast_ne_zero.mpr (hpos.trans_le hle).ne'
      rw [if_neg hnone, if_neg hnone, Option.some.injEq, div_eq_div_iff hthrough hsizes, mul_eq_mul_left_iff,
        Nat.cast_inj, Nat.cast_eq_zero]
  rw [← hmean]
  exact ⟨fun h => h.promptAverage, fun h => ⟨hlatencies, houtcomes, hbetween, h⟩⟩

end Observations

/-- Two successes, the second one with a prompt of a hundred tokens. -/
def latePrompt : List ResponseObservation :=
  [{ now := 0, latencyMs := 10, success := true, promptTokensEstimate := none },
    { now := 1, latencyMs := 20, success := true, promptTokensEstimate := some 100 }]

/-- The average prompt has fifty tokens. -/
theorem late_prompt_halved : BelowSaturation latePrompt ∧ ¬ AccurateTimes (mergedTimes latePrompt) latePrompt := by
  have hbelow : BelowSaturation latePrompt := ⟨by decide, by decide, by decide⟩
  refine ⟨hbelow, fun h => ?_⟩
  have haverage := h.promptAverage
  have hmerged : (mergedTimes latePrompt).averagePromptTokens = some (((100 : Nat) : ℚ) / (2 : Nat)) :=
    mergedTimes_averagePromptTokens hbelow
  have hmean : meanOf (promptSizes latePrompt) = some (((100 : Nat) : ℚ) / (1 : Nat)) := rfl
  rw [hmerged, hmean] at haverage
  norm_num at haverage

theorem accurateTimes_iff_first :
    AccurateTimes (mergedTimes (latePrompt.take 1)) (latePrompt.take 1) ↔
      EstimatesFirst (latePrompt.take 1) ∨ (promptSizes (latePrompt.take 1)).sum = 0 :=
  accurateTimes_iff (latePrompt.take 1) ⟨by decide, by decide, by decide⟩

end Gail.Metrics
