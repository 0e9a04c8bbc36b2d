import Gail.Library.WeightedMean
import Gail.Trading.Consensus
import Gail.Trading.ScalarOrder
import Mathlib.Data.Set.Finite.Lemmas
import Mathlib.Tactic.FieldSimp

/-! The influence of an adviser on the consensus, and what becomes of it when its evidence is split into chunks: the minimum
weights are applied to each answer after the division. The bounds of a consensus: its signal between those of the
answers, its confidence below theirs, and its action on the side of its signal. -/
namespace Gail.Trading.Advisor
open Gail.Library

/-- The answers that count. -/
def parsed {F : Type} (advices : List (AiAdvice F)) : List (AiAdvice F) := advices.filter (·.parsedOk)

theorem parsed_parsed {F : Type} (advices : List (AiAdvice F)) : parsed (parsed advices) = parsed advices := by
  rw [parsed, parsed, List.filter_filter]
  simp only [Bool.and_self]

section Order
variable {F : Type} [Scalar F] {advices others : List (AiAdvice F)}

/-- What the verdict is formed from. -/
theorem verdict_congr (failures : Nat) (hcount : responderCount others = responderCount advices)
    (htally : Tally.ofAdvices others = Tally.ofAdvices advices)
    (hweight : (providerWeightSum others : F) = providerWeightSum advices) :
    (aggregateConsensus others failures).verdict = (aggregateConsensus advices failures).verdict := by
  unfold aggregateConsensus averageRisk baseConfidence
  rw [hcount, htally, hweight]
  dsimp only
  by_cases h : responderCount advices = 0
  · rw [if_pos h, if_pos h]
  · rw [if_neg h, if_neg h]
    rfl

theorem tally_parsed (advices : List (AiAdvice F)) :
    Tally.ofAdvices (parsed advices) = Tally.ofAdvices advices := by
  unfold Tally.ofAdvices parsed
  rw [List.foldl_filter]
  congr 1
  funext tally advice
  cases advice.parsedOk <;> rfl

theorem providerWeightSum_parsed (advices : List (AiAdvice F)) :
    (providerWeightSum (parsed advices) : F) = providerWeightSum advices := by
  unfold providerWeightSum
  exact congrArg (fun items => total (items.map AiAdvice.providerWeight)) (parsed_parsed advices)

/-- Answers that were not understood do not count. -/
theorem verdict_parsed (advices : List (AiAdvice F)) (failures : Nat) :
    (aggregateConsensus (parsed advices) failures).verdict =
      (aggregateConsensus advices failures).verdict := by
  apply verdict_congr
  · exact congrArg List.length (parsed_parsed advices)
  · exact tally_parsed advices
  · exact providerWeightSum_parsed advices

theorem baseConfidence_parsed (advices : List (AiAdvice F)) :
    baseConfidence (parsed advices) = baseConfidence advices := by
  unfold baseConfidence
  rw [providerWeightSum_parsed, tally_parsed]

end Order

section Exact
variable {advice other : AiAdvice ℚ} {advices others : List (AiAdvice ℚ)} {failures n : Nat}

theorem providerWeight_eq (advice : AiAdvice ℚ) : advice.providerWeight = max advice.weight (1 / 20) := by
  rw [AiAdvice.providerWeight, max_eq]
  norm_num

theorem effectiveWeight_eq (advice : AiAdvice ℚ) :
    advice.effectiveWeight =
      max (max advice.weight (1 / 20) * advice.confidence * advice.riskAdjustment) (1 / 100) := by
  rw [AiAdvice.effectiveWeight, max_eq, providerWeight_eq]
  norm_num

theorem effectiveWeight_pos (advice : AiAdvice ℚ) : 0 < advice.effectiveWeight := by
  rw [effectiveWeight_eq]
  exact lt_of_lt_of_le (by norm_num) (le_max_right _ _)

theorem providerWeight_pos (advice : AiAdvice ℚ) : 0 < advice.providerWeight := by
  rw [providerWeight_eq]
  exact lt_of_lt_of_le (by norm_num) (le_max_right _ _)

theorem addEntry_comm {V : Type} [Add V] {zero : V} (h : ∀ x a b : V, x + a + b = x + b + a)
    (map : String → Option V) (first second : String) (a b : V) :
    addEntry zero (addEntry zero map first a) second b =
      addEntry zero (addEntry zero map second b) first a := by
  unfold addEntry
  by_cases he : first = second
  · subst he
    simp only [Function.update_self, Function.update_idem, Option.getD_some, h _ a b]
  · rw [Function.update_of_ne he, Function.update_of_ne (Ne.symm he), Function.update_comm he]

namespace Tally

/-- The order in which two answers are added does not matter. -/
theorem add_comm (tally : Tally ℚ) (first second : AiAdvice ℚ) :
    (tally.add first).add second = (tally.add second).add first := by
  unfold add
  congr 1
  · ring
  · ring
  · ring
  · ring
  · ring
  · exact addEntry_comm (fun x a b => by ring) ..
  · cases hf : first.target <;> cases hs : second.target
    case some.some => exact addEntry_comm (fun x a b => Nat.add_right_comm x a b) ..
    all_goals rfl

/-- A sum of the loop is a sum over the answers that count. -/
theorem foldl_sum {sum : Tally ℚ → ℚ} {term : AiAdvice ℚ → ℚ}
    (hadd : ∀ tally advice, sum (tally.add advice) = sum tally + term advice)
    (hzero : sum Tally.zero = 0) (advices : List (AiAdvice ℚ)) :
    sum (ofAdvices advices) = ((parsed advices).map term).sum := by
  rw [← tally_parsed, ← zero_add ((parsed advices).map term).sum, ← hzero]
  have hall : ∀ advice ∈ parsed advices, advice.parsedOk = true :=
    fun advice hm => (List.mem_filter.mp hm).2
  unfold ofAdvices
  generalize parsed advices = items at hall
  generalize (Tally.zero : Tally ℚ) = start
  induction items generalizing start with
  | nil => rw [List.map_nil, List.sum_nil, add_zero, List.foldl_nil]
  | cons advice items ih =>
    rw [List.foldl_cons, if_pos (hall advice List.mem_cons_self),
      ih (fun other hm => hall other (List.mem_cons_of_mem _ hm)), hadd, List.map_cons, List.sum_cons,
      add_assoc]

end Tally

theorem tally_signal (advices : List (AiAdvice ℚ)) :
    (Tally.ofAdvices advices).signal =
      weightedMean AiAdvice.signal AiAdvice.effectiveWeight (parsed advices) := by
  have htotal : (Tally.ofAdvices advices).totalWeight =
      mass AiAdvice.effectiveWeight (parsed advices) :=
    Tally.foldl_sum (fun _ _ => rfl) (by norm_num [Tally.zero]) advices
  have hsignal : (Tally.ofAdvices advices).weightedSignal =
      moment AiAdvice.signal AiAdvice.effectiveWeight (parsed advices) :=
    Tally.foldl_sum (fun _ _ => rfl) (by norm_num [Tally.zero]) advices
  unfold Tally.signal weightedMean
  rw [htotal, hsignal]
  split_ifs with hpos
  · rfl
  · have hnil : parsed advices = [] := by
      by_contra hne
      exact hpos (lt_of_le_of_lt (by norm_num) (mass_pos (fun item _ => effectiveWeight_pos item) hne))
    rw [hnil]
    norm_num [moment, mass]

/-- The signal is the mean of the answers' own, by their effective weights. -/
theorem signal_eq (advices : List (AiAdvice ℚ)) (failures : Nat) :
    (aggregateConsensus advices failures).signal =
      weightedMean AiAdvice.signal AiAdvice.effectiveWeight (parsed advices) := by
  unfold aggregateConsensus
  dsimp only
  split_ifs with h
  · have hnil : parsed advices = [] := List.eq_nil_of_length_eq_zero h
    rw [hnil]
    norm_num [AiConsensus.uncertain, weightedMean, moment, mass]
  · exact tally_signal advices

/-- The action is read off the signal, also when no answer counts. -/
theorem action_eq (advices : List (AiAdvice ℚ)) (failures : Nat) :
    (aggregateConsensus advices failures).action =
      signalToAction (aggregateConsensus advices failures).signal := by
  unfold aggregateConsensus
  dsimp only
  split_ifs with h
  · norm_num [AiConsensus.uncertain, signalToAction]
  · rfl

/-- The base confidence is the mean of the answers' own, by the weights of their providers. -/
theorem baseConfidence_eq (h : ∀ advice ∈ parsed advices, 0 ≤ advice.confidence ∧ advice.confidence ≤ 1) :
    baseConfidence advices =
      weightedMean AiAdvice.confidence AiAdvice.providerWeight (parsed advices) := by
  have hsum : providerWeightSum advices = mass AiAdvice.providerWeight (parsed advices) := total_eq _
  have hconfidence : (Tally.ofAdvices advices).weightedConfidence =
      moment AiAdvice.confidence AiAdvice.providerWeight (parsed advices) :=
    Tally.foldl_sum (fun _ _ => rfl) (by norm_num [Tally.zero]) advices
  unfold baseConfidence
  rw [hsum, hconfidence]
  by_cases hne : parsed advices = []
  · rw [hne]
    norm_num [weightedMean, moment, mass]
  · have hpos := mass_pos (fun item (_ : item ∈ parsed advices) => providerWeight_pos item) hne
    obtain ⟨hlow, hhigh⟩ := weightedMean_mem (fun item _ => providerWeight_pos item) hne h
    unfold weightedMean at hlow hhigh ⊢
    rw [if_pos (lt_of_le_of_lt (by norm_num) hpos), clamp_eq_max_min (by norm_num)]
    norm_num [hlow, hhigh]

/-- An answer that no minimum weight raises. -/
structure AiAdvice.AboveFloors (advice : AiAdvice ℚ) : Prop where
  provider : 0.05 ≤ advice.weight
  effective : 0.01 ≤ advice.weight * advice.confidence * advice.riskAdjustment

/-- An answer that is above the floors, with a confidence between 0 and 1, when it counts. -/
def AiAdvice.Regular (advice : AiAdvice ℚ) : Prop :=
  advice.parsedOk = true → advice.AboveFloors ∧ 0 ≤ advice.confidence ∧ advice.confidence ≤ 1

/-- Two lists of answers lead to the same signal, action and base confidence. -/
def SameReading (advices others : List (AiAdvice ℚ)) : Prop :=
  ∀ failures,
    (aggregateConsensus others failures).signal = (aggregateConsensus advices failures).signal ∧
    (aggregateConsensus others failures).action = (aggregateConsensus advices failures).action ∧
    baseConfidence others = baseConfidence advices

namespace AiAdvice.AboveFloors

theorem providerWeight_eq (h : advice.AboveFloors) : advice.providerWeight = advice.weight := by
  have hw := h.provider
  norm_num at hw
  rw [Advisor.providerWeight_eq, max_eq_left hw]

theorem effectiveWeight_eq (h : advice.AboveFloors) :
    advice.effectiveWeight = advice.weight * advice.confidence * advice.riskAdjustment := by
  have hw := h.provider
  have he := h.effective
  norm_num at hw he
  rw [Advisor.effectiveWeight_eq, max_eq_left hw, max_eq_left he]

end AiAdvice.AboveFloors

/-- The parts of an answer together weigh as much as the answer only when no floor raises a part. -/
theorem parts_effectiveWeight_iff (h : advice.AboveFloors) (hn : 0 < n) :
    n * (advice.ofChunk n 0).effectiveWeight = advice.effectiveWeight ↔
      (advice.ofChunk n 0).AboveFloors := by
  have hpos : (0 : ℚ) < n := by exact_mod_cast hn
  have hweight : (advice.ofChunk n 0).weight = advice.weight / n := rfl
  have hconfidence : (advice.ofChunk n 0).confidence = advice.confidence := rfl
  have hrisk : (advice.ofChunk n 0).riskAdjustment = advice.riskAdjustment := rfl
  rw [h.effectiveWeight_eq]
  constructor
  · intro he
    -- What each part weighs: its share, so neither maximum was taken by a floor.
    have hshare : (advice.ofChunk n 0).effectiveWeight =
        advice.weight / n * (advice.confidence * advice.riskAdjustment) := by
      field_simp
      linarith
    have hfactor : 0 < advice.confidence * advice.riskAdjustment := by
      have hw : 0 < advice.weight := lt_of_lt_of_le (by norm_num) h.provider
      have heff : 0 < advice.weight * (advice.confidence * advice.riskAdjustment) := by
        rw [← mul_assoc]
        exact lt_of_lt_of_le (by norm_num) h.effective
      exact (mul_pos_iff_of_pos_left hw).mp heff
    rw [Advisor.effectiveWeight_eq, hweight, hconfidence, hrisk] at hshare
    have hbig := (le_max_left _ _).trans hshare.le
    rw [mul_assoc] at hbig
    refine ⟨?_, ?_⟩
    · rw [hweight]
      have hmax := le_of_mul_le_mul_right hbig hfactor
      exact le_trans (by norm_num) ((le_max_right _ _).trans hmax)
    · rw [hweight, hconfidence, hrisk, mul_assoc]
      exact le_trans (by norm_num) ((le_max_right _ _).trans hshare.le)
  · intro hpart
    rw [hpart.effectiveWeight_eq, hweight, hconfidence, hrisk]
    field_simp

/-- Answers at different places of the list count alike. -/
theorem parsed_perm (before parts after : List (AiAdvice ℚ)) :
    (parsed (before ++ parts ++ after)).Perm (parsed parts ++ parsed (before ++ after)) := by
  unfold parsed
  rw [← List.filter_append, List.append_assoc]
  exact (List.perm_append_comm_assoc before parts after).filter _

theorem parsed_chunks (hp : advice.parsedOk = true) : parsed (advice.chunks n) = advice.chunks n := by
  apply List.filter_eq_self.mpr
  intro part hm
  obtain ⟨id, -, rfl⟩ := List.mem_map.mp hm
  exact hp

/-- An answer that was not understood counts neither whole nor in parts. -/
theorem parsed_unparsed_chunks (hp : advice.parsedOk = false) (before after : List (AiAdvice ℚ)) :
    parsed (before ++ advice.chunks n ++ after) = parsed (before ++ advice :: after) := by
  have hnone : (advice.chunks n).filter (·.parsedOk) = [] := by
    apply List.filter_eq_nil_iff.mpr
    intro part hm
    obtain ⟨id, -, rfl⟩ := List.mem_map.mp hm
    exact ne_true_of_eq_false hp
  unfold parsed
  rw [List.filter_append, List.filter_append, hnone, List.append_nil, List.filter_append,
    List.filter_cons_of_neg (ne_true_of_eq_false hp)]

/-- A mean over the answers when one of them comes in parts. -/
theorem weightedMean_chunks {value weight : AiAdvice ℚ → ℚ} (hp : advice.parsedOk = true)
    (hvalue : ∀ id, value (advice.ofChunk n id) = value advice)
    (hweight : ∀ id, weight (advice.ofChunk n id) = weight (advice.ofChunk n 0))
    (before after : List (AiAdvice ℚ)) :
    weightedMean value weight (parsed (before ++ advice.chunks n ++ after)) =
      (value advice * (n * weight (advice.ofChunk n 0)) +
          moment value weight (parsed (before ++ after))) /
        (n * weight (advice.ofChunk n 0) + mass weight (parsed (before ++ after))) := by
  have hparts : ∀ part ∈ advice.chunks n,
      value part = value advice ∧ weight part = weight (advice.ofChunk n 0) := by
    intro part hm
    obtain ⟨id, -, rfl⟩ := List.mem_map.mp hm
    exact ⟨hvalue id, hweight id⟩
  have hlength : (advice.chunks n).length = n := by rw [AiAdvice.chunks, List.length_map, List.length_range]
  rw [weightedMean_perm (parsed_perm before _ after), parsed_chunks hp, weightedMean_parts hparts, hlength]

theorem weightedMean_whole {value weight : AiAdvice ℚ → ℚ} (hp : advice.parsedOk = true)
    (before after : List (AiAdvice ℚ)) :
    weightedMean value weight (parsed (before ++ advice :: after)) =
      (value advice * weight advice + moment value weight (parsed (before ++ after))) /
        (weight advice + mass weight (parsed (before ++ after))) := by
  have hone : parsed [advice] = [advice] := List.filter_eq_self.mpr (by simpa using hp)
  have hsame : ∀ item ∈ [advice], value item = value advice ∧ weight item = weight advice := by
    intro item hm
    rw [List.mem_singleton.mp hm]
    exact ⟨rfl, rfl⟩
  rw [List.append_cons, weightedMean_perm (parsed_perm before [advice] after), hone,
    weightedMean_parts hsame]
  simp only [List.length_singleton, Nat.cast_one, one_mul]

theorem sameReading_iff :
    SameReading advices others ↔
      weightedMean AiAdvice.signal AiAdvice.effectiveWeight (parsed others) =
        weightedMean AiAdvice.signal AiAdvice.effectiveWeight (parsed advices) ∧
      baseConfidence others = baseConfidence advices := by
  constructor
  · intro h
    obtain ⟨hsignal, -, hbase⟩ := h 0
    rw [signal_eq, signal_eq] at hsignal
    exact ⟨hsignal, hbase⟩
  · intro h failures
    obtain ⟨hsignal, hbase⟩ := h
    rw [← signal_eq others failures, ← signal_eq advices failures] at hsignal
    exact ⟨hsignal, by rw [action_eq, action_eq, hsignal], hbase⟩

/-- An answer that differs from the given one in what it recommends. -/
def AiAdvice.opposed (advice : AiAdvice ℚ) : AiAdvice ℚ :=
  { advice with action := if advice.signal = 1 / 2 then "sell" else "buy" }

theorem opposed_signal_ne (advice : AiAdvice ℚ) : advice.signal ≠ advice.opposed.signal := by
  intro h
  unfold AiAdvice.opposed at h
  by_cases he : advice.signal = 1 / 2
  · rw [if_pos he, he] at h
    norm_num [AiAdvice.signal, actionToSignal] at h
  · rw [if_neg he] at h
    apply he
    rw [h]
    norm_num [AiAdvice.signal, actionToSignal]

section Split
variable {before after : List (AiAdvice ℚ)}

theorem confidence_mem (h : ∀ other ∈ advices, other.Regular) :
    ∀ other ∈ parsed advices, 0 ≤ other.confidence ∧ other.confidence ≤ 1 := by
  intro other hm
  obtain ⟨hm, hp⟩ := List.mem_filter.mp hm
  exact (h other hm hp).2

/-- Parts that are above the floors count like the whole. -/
theorem sameReading_chunks (hp : advice.parsedOk = true) (hr : advice.Regular) (hn : 0 < n)
    (hpart : (advice.ofChunk n 0).AboveFloors) (hrest : ∀ other ∈ before ++ after, other.Regular) :
    SameReading (before ++ advice :: after) (before ++ advice.chunks n ++ after) := by
  obtain ⟨hfloors, hconf⟩ := hr hp
  have hpos : (0 : ℚ) < n := by exact_mod_cast hn
  have heff := (parts_effectiveWeight_iff hfloors hn).mpr hpart
  have hprov : n * (advice.ofChunk n 0).providerWeight = advice.providerWeight := by
    rw [hpart.providerWeight_eq, hfloors.providerWeight_eq]
    exact mul_div_cancel₀ advice.weight hpos.ne'
  have hwhole : ∀ other ∈ before ++ advice :: after, other.Regular := by
    intro other hm
    rcases List.mem_append.mp hm with hm | hm
    · exact hrest other (List.mem_append_left _ hm)
    · rcases List.mem_cons.mp hm with rfl | hm
      · exact hr
      · exact hrest other (List.mem_append_right _ hm)
  have hsplit : ∀ other ∈ parsed (before ++ advice.chunks n ++ after),
      0 ≤ other.confidence ∧ other.confidence ≤ 1 := by
    intro other hm
    rcases List.mem_append.mp ((parsed_perm before _ after).mem_iff.mp hm) with hm | hm
    · rw [parsed_chunks hp] at hm
      obtain ⟨id, -, rfl⟩ := List.mem_map.mp hm
      exact hconf
    · exact confidence_mem hrest other hm
  rw [sameReading_iff]
  constructor
  · rw [weightedMean_chunks hp (fun _ => rfl) (fun _ => rfl), weightedMean_whole hp, heff]
  · rw [baseConfidence_eq hsplit, baseConfidence_eq (confidence_mem hwhole),
      weightedMean_chunks hp (fun _ => rfl) (fun _ => rfl), weightedMean_whole hp, hprov]

/-- A floor that raises a part shows next to an answer with another recommendation. -/
theorem aboveFloors_of_sameReading (hp : advice.parsedOk = true) (hfloors : advice.AboveFloors)
    (hn : 0 < n) (h : SameReading ([advice.opposed] ++ [advice]) ([advice.opposed] ++ advice.chunks n ++ [])) :
    (advice.ofChunk n 0).AboveFloors := by
  have hpos : (0 : ℚ) < n := by exact_mod_cast hn
  have hrest : parsed ([advice.opposed] ++ []) = [advice.opposed] :=
    List.filter_eq_self.mpr (by simpa [AiAdvice.opposed] using hp)
  have hmass : mass AiAdvice.effectiveWeight [advice.opposed] = advice.opposed.effectiveWeight :=
    List.sum_singleton
  have hmoment : moment AiAdvice.signal AiAdvice.effectiveWeight [advice.opposed] =
      advice.opposed.signal * advice.opposed.effectiveWeight := List.sum_singleton
  have hmean := (sameReading_iff.mp h).1
  rw [weightedMean_chunks hp (fun _ => rfl) (fun _ => rfl), weightedMean_whole hp, hrest, hmass,
    hmoment] at hmean
  have hopposed := effectiveWeight_pos advice.opposed
  rcases (mean_reweighed_iff (add_pos (effectiveWeight_pos advice) hopposed).ne'
    (add_pos (mul_pos hpos (effectiveWeight_pos _)) hopposed).ne').mp hmean with he | he
  · exact (parts_effectiveWeight_iff hfloors hn).mp he
  · exact absurd (mul_right_cancel₀ hopposed.ne' he) (opposed_signal_ne advice)

end Split

/-- The tally does not depend on the order of the answers. -/
theorem tally_perm (h : advices.Perm others) : Tally.ofAdvices advices = Tally.ofAdvices others := by
  apply h.foldl_eq'
  intro first _ second _ tally
  cases first.parsedOk <;> cases second.parsedOk
  case true.true => exact Tally.add_comm tally first second
  all_goals rfl

theorem verdict_perm (h : advices.Perm others) (failures : Nat) :
    (aggregateConsensus others failures).verdict = (aggregateConsensus advices failures).verdict := by
  apply verdict_congr
  · exact ((h.filter _).length_eq).symm
  · exact (tally_perm h).symm
  · rw [providerWeightSum, providerWeightSum, total_eq, total_eq]
    exact (((h.filter _).map _).sum_eq).symm

theorem baseConfidence_perm (h : advices.Perm others) : baseConfidence others = baseConfidence advices := by
  have hsum : (providerWeightSum others : ℚ) = providerWeightSum advices := by
    rw [providerWeightSum, providerWeightSum, total_eq, total_eq]
    exact (((h.filter _).map _).sum_eq).symm
  unfold baseConfidence
  rw [hsum, tally_perm h]

/-- An adviser with the weight 0.1 and full confidence. -/
def lightAdvice (action : String) : AiAdvice ℚ :=
  { provider := "local"
    model := none
    action
    confidence := 1
    reasoning := ""
    suggestedAmountUsd := none
    riskScore := 0
    riskFlags := []
    targetSymbol := none
    rawResponse := ""
    parsedOk := true
    weight := 1 / 10 }

theorem lightAdvice_regular (action : String) : (lightAdvice action).Regular := by
  intro _
  refine ⟨⟨?_, ?_⟩, ?_, ?_⟩
  · norm_num [lightAdvice]
  · have hrisk : (lightAdvice action).riskAdjustment = 1 := by
      norm_num [AiAdvice.riskAdjustment, AiAdvice.risk, lightAdvice, clamp]
    rw [hrisk]
    norm_num [lightAdvice]
  · norm_num [lightAdvice]
  · norm_num [lightAdvice]

end Exact

/-- What a consensus keeps to, whatever the answers weigh. -/
structure WithinAnswers (advices : List (AiAdvice ℚ)) (consensus : AiConsensus ℚ) : Prop where
  signal : -1 ≤ consensus.signal ∧ consensus.signal ≤ 1
  between : parsed advices ≠ [] → (∃ advice ∈ parsed advices, advice.signal ≤ consensus.signal) ∧
    ∃ advice ∈ parsed advices, consensus.signal ≤ advice.signal
  confidence : 0 ≤ consensus.confidence ∧ consensus.confidence ≤ 1
  mean : consensus.confidence ≤ weightedMean AiAdvice.confidence AiAdvice.providerWeight (parsed advices)
  buys : consensus.action = "buy" ∨ consensus.action = "strong_buy" → 0 < consensus.signal
  sells : consensus.action = "sell" ∨ consensus.action = "strong_sell" → consensus.signal < 0

section Signals
variable {advices : List (AiAdvice ℚ)}

theorem actionToSignal_mem (action : String) :
    -1 ≤ (actionToSignal action : ℚ) ∧ (actionToSignal action : ℚ) ≤ 1 := by
  unfold actionToSignal
  split <;> norm_num

theorem signal_mem (advices : List (AiAdvice ℚ)) (failures : Nat) :
    -1 ≤ (aggregateConsensus advices failures).signal ∧ (aggregateConsensus advices failures).signal ≤ 1 := by
  rw [signal_eq]
  by_cases hne : parsed advices = []
  · rw [hne]
    norm_num [weightedMean, moment, mass]
  · exact weightedMean_mem (fun advice _ => effectiveWeight_pos advice) hne
      fun advice _ => actionToSignal_mem advice.action

theorem exists_signal_le (failures : Nat) (hne : parsed advices ≠ []) :
    ∃ advice ∈ parsed advices, advice.signal ≤ (aggregateConsensus advices failures).signal := by
  obtain ⟨least, hleast, hmin⟩ := Set.exists_min_image {advice | advice ∈ parsed advices} AiAdvice.signal
    (List.finite_toSet _) (List.exists_mem_of_ne_nil _ hne)
  refine ⟨least, hleast, ?_⟩
  rw [signal_eq]
  exact (weightedMean_mem (fun advice _ => effectiveWeight_pos advice) hne
    fun advice hm => ⟨hmin advice hm, (actionToSignal_mem advice.action).2⟩).1

theorem exists_le_signal (failures : Nat) (hne : parsed advices ≠ []) :
    ∃ advice ∈ parsed advices, (aggregateConsensus advices failures).signal ≤ advice.signal := by
  obtain ⟨greatest, hgreatest, hmax⟩ := Set.exists_max_image {advice | advice ∈ parsed advices} AiAdvice.signal
    (List.finite_toSet _) (List.exists_mem_of_ne_nil _ hne)
  refine ⟨greatest, hgreatest, ?_⟩
  rw [signal_eq]
  exact (weightedMean_mem (fun advice _ => effectiveWeight_pos advice) hne
    fun advice hm => ⟨(actionToSignal_mem advice.action).1, hmax advice hm⟩).2

theorem signalToAction_buys {signal : ℚ} (h : signalToAction signal = "buy" ∨ signalToAction signal = "strong_buy") :
    0 < signal := by
  unfold signalToAction at h
  split_ifs at h with hstrong hbuy hdown hsell
  · norm_num at hstrong
    linarith
  · norm_num at hbuy
    linarith
  all_goals simp at h

theorem signalToAction_sells {signal : ℚ}
    (h : signalToAction signal = "sell" ∨ signalToAction signal = "strong_sell") : signal < 0 := by
  unfold signalToAction at h
  split_ifs at h with hstrong hbuy hdown hsell
  · simp at h
  · simp at h
  · norm_num at hdown
    linarith
  · norm_num at hsell
    linarith
  · simp at h

end Signals

section Confidence
variable {advices : List (AiAdvice ℚ)} {failures more : Nat}

/-- What agreement, coverage and risk leave of a confidence. -/
def reducedConfidence (base agreement coverage risk : ℚ) : ℚ :=
  base * (0.55 + 0.45 * agreement) * (0.65 + 0.35 * coverage) * (1.0 - 0.25 * risk)

theorem reducedConfidence_mem {base agreement coverage risk : ℚ} (hbase : 0 ≤ base)
    (hagreement : 0 ≤ agreement ∧ agreement ≤ 1) (hcoverage : 0 ≤ coverage ∧ coverage ≤ 1)
    (hrisk : 0 ≤ risk ∧ risk ≤ 1) :
    0 ≤ reducedConfidence base agreement coverage risk ∧ reducedConfidence base agreement coverage risk ≤ base := by
  have hreduce {x factor : ℚ} (hx : 0 ≤ x ∧ x ≤ base) (hfactor : 0 ≤ factor ∧ factor ≤ 1) :
      0 ≤ x * factor ∧ x * factor ≤ base :=
    ⟨mul_nonneg hx.1 hfactor.1, (mul_le_of_le_one_right hx.1 hfactor.2).trans hx.2⟩
  unfold reducedConfidence
  refine hreduce (hreduce (hreduce ⟨hbase, le_rfl⟩ ?_) ?_) ?_ <;> norm_num <;> constructor <;> linarith

theorem reducedConfidence_mono {base agreement less coverage risk : ℚ} (hbase : 0 ≤ base) (hagreement : 0 ≤ agreement)
    (hle : less ≤ coverage) (hrisk : risk ≤ 1) :
    reducedConfidence base agreement less risk ≤ reducedConfidence base agreement coverage risk := by
  unfold reducedConfidence
  norm_num
  have hfactor : 0 ≤ base * (11 / 20 + 9 / 20 * agreement) := mul_nonneg hbase (by linarith)
  have hcovered : 13 / 20 + 7 / 20 * less ≤ 13 / 20 + 7 / 20 * coverage := by linarith
  exact mul_le_mul_of_nonneg_right (mul_le_mul_of_nonneg_left hcovered hfactor) (by linarith)

/-- The part of the answers that came and were understood. -/
def coverage (responders failures : Nat) : ℚ := (responders : ℚ) / ((max (responders + failures) 1 : Nat) : ℚ)

theorem coverage_mem (responders failures : Nat) : 0 ≤ coverage responders failures ∧ coverage responders failures ≤ 1 := by
  have hpos : (0 : ℚ) < ((max (responders + failures) 1 : Nat) : ℚ) := by
    exact_mod_cast Nat.lt_of_lt_of_le Nat.one_pos (le_max_right _ _)
  refine ⟨div_nonneg (Nat.cast_nonneg _) hpos.le, ?_⟩
  rw [coverage, div_le_one hpos]
  exact_mod_cast (Nat.le_add_right responders failures).trans (le_max_left _ _)

theorem coverage_antitone (responders : Nat) (h : failures ≤ more) :
    coverage responders more ≤ coverage responders failures := by
  have hpos : (0 : ℚ) < ((max (responders + failures) 1 : Nat) : ℚ) := by
    exact_mod_cast Nat.lt_of_lt_of_le Nat.one_pos (le_max_right _ _)
  refine div_le_div_of_nonneg_left (Nat.cast_nonneg _) hpos ?_
  exact_mod_cast max_le_max_right 1 (Nat.add_le_add_left h responders)

theorem agreement_mem (advices : List (AiAdvice ℚ)) :
    0 ≤ (Tally.ofAdvices advices).agreement ∧ (Tally.ofAdvices advices).agreement ≤ 1 := by
  unfold Tally.agreement
  split_ifs
  · exact clamp_unit_mem _
  · norm_num

theorem averageRisk_mem (advices : List (AiAdvice ℚ)) : 0 ≤ averageRisk advices ∧ averageRisk advices ≤ 1 := by
  unfold averageRisk
  split_ifs
  · exact clamp_unit_mem _
  · norm_num

theorem baseConfidence_mem (advices : List (AiAdvice ℚ)) :
    0 ≤ baseConfidence advices ∧ baseConfidence advices ≤ 1 := by
  unfold baseConfidence
  split_ifs
  · exact clamp_unit_mem _
  · norm_num

theorem confidence_eq (advices : List (AiAdvice ℚ)) (failures : Nat) :
    (aggregateConsensus advices failures).confidence =
      if responderCount advices = 0 then 0
      else reducedConfidence (baseConfidence advices) (Tally.ofAdvices advices).agreement
        (coverage (responderCount advices) failures) (averageRisk advices) := by
  unfold aggregateConsensus
  dsimp only
  split_ifs with hnone
  · norm_num [AiConsensus.uncertain]
  · obtain ⟨hlow, hhigh⟩ := reducedConfidence_mem (baseConfidence_mem advices).1 (agreement_mem advices)
      (coverage_mem (responderCount advices) failures) (averageRisk_mem advices)
    have hunit := hhigh.trans (baseConfidence_mem advices).2
    have hzero : (0.0 : ℚ) = 0 := by norm_num
    have hone : (1.0 : ℚ) = 1 := by norm_num
    exact clamp_of_mem (hzero.trans_le hlow) (hunit.trans_eq hone.symm)

theorem confidence_le_base (advices : List (AiAdvice ℚ)) (failures : Nat) :
    0 ≤ (aggregateConsensus advices failures).confidence ∧
      (aggregateConsensus advices failures).confidence ≤ baseConfidence advices := by
  rw [confidence_eq]
  split_ifs
  · exact ⟨le_rfl, (baseConfidence_mem advices).1⟩
  · exact reducedConfidence_mem (baseConfidence_mem advices).1 (agreement_mem advices)
      (coverage_mem (responderCount advices) failures) (averageRisk_mem advices)

theorem confidence_antitone (advices : List (AiAdvice ℚ)) (h : failures ≤ more) :
    (aggregateConsensus advices more).confidence ≤ (aggregateConsensus advices failures).confidence := by
  rw [confidence_eq, confidence_eq]
  split_ifs
  · exact le_rfl
  · exact reducedConfidence_mono (baseConfidence_mem advices).1 (agreement_mem advices).1
      (coverage_antitone (responderCount advices) h) (averageRisk_mem advices).2

end Confidence

end Gail.Trading.Advisor
