import Gail.Library.FirstPerKey
import Gail.Trading.ScalarOrder
import Gail.Trading.QuantState
import Mathlib.Data.String.Basic

/-! What the repair of persisted arms makes sure of, in exact arithmetic. -/
namespace Gail.Trading
open Gail.Library

namespace QuantParameters

def weight (parameters : QuantParameters ℚ) : ℚ :=
  parameters.shortMomentumWeight + parameters.midMomentumWeight + parameters.longMomentumWeight
    + parameters.liveMomentumWeight

/-- Settings that clamping and scaling leave alone. -/
structure Balanced (parameters : QuantParameters ℚ) : Prop where
  short : 0 ≤ parameters.shortMomentumWeight
  mid : 0 ≤ parameters.midMomentumWeight
  long : 0 ≤ parameters.longMomentumWeight
  live : 0 ≤ parameters.liveMomentumWeight
  weight : parameters.weight = 1
  volume : clamp parameters.volumeConfirmationWeight 0.0 0.5 = parameters.volumeConfirmationWeight
  attenuation : clamp parameters.riskAttenuation 0.0 0.95 = parameters.riskAttenuation
  threshold : clamp parameters.entryThreshold 0.08 0.80 = parameters.entryThreshold

end QuantParameters

namespace QuantMigrationState

/-- A state as its repair should leave it. -/
structure Repaired (state : QuantMigrationState ℚ) : Prop where
  nonempty : state.parameterSets ≠ []
  ascending : state.parameterSets.Pairwise fun a b => a.id < b.id
  active : state.activeParameterId ∈ state.parameterIds
  cash : ∃ parameters ∈ state.parameterSets, parameters.kind = .cash
  weights : ∀ parameters ∈ state.parameterSets, parameters.kind = .momentum → parameters.weight = 1
  again : state.normalize = state

/-- The first arm of some id, as repaired, is a cash arm. -/
def FirstCash (sets : List (QuantParameters ℚ)) : Prop :=
  ∃ before cash after, sets = before ++ cash :: after ∧ cash.kind = .cash ∧
    ∀ parameters ∈ before, normalizeId parameters.id ≠ normalizeId cash.id

/-- No cash arm is lost: there are no arms at all, or some cash arm comes before every other arm of its id,
or there is none and no arm has the id of the one that is added. -/
def KeepsCash (sets : List (QuantParameters ℚ)) : Prop :=
  sets = [] ∨ FirstCash sets ∨
    ∀ parameters ∈ sets, parameters.kind ≠ .cash ∧ normalizeId parameters.id ≠ "cash-v1"

end QuantMigrationState

namespace QuantParameters
variable {parameters : QuantParameters ℚ}

/-- Weights that are not negative are scaled to a sum of one. -/
theorem rescale_balanced (hshort : 0 ≤ parameters.shortMomentumWeight) (hmid : 0 ≤ parameters.midMomentumWeight)
    (hlong : 0 ≤ parameters.longMomentumWeight) (hlive : 0 ≤ parameters.liveMomentumWeight)
    (hvolume : clamp parameters.volumeConfirmationWeight 0.0 0.5 = parameters.volumeConfirmationWeight)
    (hattenuation : clamp parameters.riskAttenuation 0.0 0.95 = parameters.riskAttenuation)
    (hthreshold : clamp parameters.entryThreshold 0.08 0.80 = parameters.entryThreshold) :
    parameters.rescale.Balanced := by
  unfold rescale
  dsimp only
  split
  · refine ⟨?_, ?_, ?_, ?_, ?_, hvolume, hattenuation, hthreshold⟩
    all_goals norm_num [weight]
  · rename_i htotal
    have hepsilon : (0 : ℚ) < Scalar.epsilon := by decide +kernel
    set sum := parameters.shortMomentumWeight + parameters.midMomentumWeight
      + parameters.longMomentumWeight + parameters.liveMomentumWeight with hsum
    have hpos : 0 < sum := hepsilon.trans (not_le.mp htotal)
    refine ⟨div_nonneg hshort hpos.le, div_nonneg hmid hpos.le, div_nonneg hlong hpos.le,
      div_nonneg hlive hpos.le, ?_, hvolume, hattenuation, hthreshold⟩
    unfold weight
    dsimp only
    rw [← add_div, ← add_div, ← add_div, ← hsum, div_self hpos.ne']

theorem rescale_kind : parameters.rescale.kind = parameters.kind := by
  unfold rescale
  dsimp only
  split <;> rfl

@[simp] theorem normalize_kind : parameters.normalize.kind = parameters.kind := by
  unfold normalize
  split
  · rename_i hkind
    exact hkind.symm
  · rename_i hkind
    exact rescale_kind.trans hkind.symm

theorem normalize_balanced (h : parameters.kind = .momentum) : parameters.normalize.Balanced := by
  unfold normalize
  rw [h]
  have hunit : (0.0 : ℚ) ≤ 1.0 := by norm_num
  have hzero : (0 : ℚ) = 0.0 := by norm_num
  apply rescale_balanced
  · rw [hzero]
    exact low_le_clamp hunit
  · rw [hzero]
    exact low_le_clamp hunit
  · rw [hzero]
    exact low_le_clamp hunit
  · rw [hzero]
    exact low_le_clamp hunit
  · exact clamp_clamp (by norm_num)
  · exact clamp_clamp (by norm_num)
  · exact clamp_clamp (by norm_num)

/-- Settings in balance under a repaired id are their own repair. -/
theorem Balanced.normalize_eq (h : parameters.Balanced) (hkind : parameters.kind = .momentum)
    (hid : normalizeId parameters.id = parameters.id) : parameters.normalize = parameters := by
  have hsum : parameters.shortMomentumWeight + parameters.midMomentumWeight
      + parameters.longMomentumWeight + parameters.liveMomentumWeight = 1 := h.weight
  have hshort := h.short
  have hmid := h.mid
  have hlong := h.long
  have hlive := h.live
  have hunit : ∀ weight : ℚ, 0 ≤ weight → weight ≤ 1 → clamp weight 0.0 1.0 = weight := by
    intro weight hlow hhigh
    exact clamp_of_mem (by norm_num; exact hlow) (by norm_num; exact hhigh)
  have hepsilon : ¬ (1 : ℚ) ≤ Scalar.epsilon := by decide +kernel
  unfold normalize rescale
  rw [hkind]
  dsimp only
  rw [hunit _ hshort (by linarith), hunit _ hmid (by linarith), hunit _ hlong (by linarith),
    hunit _ hlive (by linarith), h.volume, h.attenuation, h.threshold, hid, hsum, if_neg hepsilon,
    div_one, div_one, div_one, div_one, ← hkind]

/-- Repairing an arm once more changes nothing. -/
theorem normalize_normalize (parameters : QuantParameters ℚ) :
    parameters.normalize.normalize = parameters.normalize := by
  cases hkind : parameters.kind with
  | cash =>
    simp only [normalize, hkind, normalizeId_idem]
  | momentum =>
    have hid : normalizeId parameters.normalize.id = parameters.normalize.id := by
      rw [normalize_id, normalizeId_idem]
    exact (normalize_balanced hkind).normalize_eq (normalize_kind.trans hkind) hid

end QuantParameters

namespace QuantMigrationState
variable {sets : List (QuantParameters ℚ)} {parameters : QuantParameters ℚ}

/-- Repair keeps, for each id, the first arm that has it. -/
theorem normalizedSets_eq (sets : List (QuantParameters ℚ)) : normalizedSets sets =
    firstPerKey QuantParameters.id ((seededSets sets).map QuantParameters.normalize) := rfl

theorem ascending_normalizedSets (sets : List (QuantParameters ℚ)) :
    (normalizedSets sets).Pairwise fun a b => a.id < b.id := pairwise_firstPerKey _ _

theorem mem_normalizedSets (h : parameters ∈ normalizedSets sets) :
    ∃ given ∈ seededSets sets, given.normalize = parameters := by
  rw [normalizedSets_eq, mem_firstPerKey_iff] at h
  exact List.mem_map.mp (List.mem_of_find?_eq_some h)

/-- A cash arm remains exactly when some cash arm is the first of its id. -/
theorem cash_normalizedSets_iff :
    (∃ parameters ∈ normalizedSets sets, parameters.kind = .cash) ↔ FirstCash (seededSets sets) := by
  constructor
  · rintro ⟨parameters, hmem, hkind⟩
    rw [normalizedSets_eq, mem_firstPerKey_iff, List.find?_eq_some_iff_append] at hmem
    obtain ⟨-, as, bs, hsplit, hbefore⟩ := hmem
    obtain ⟨before, rest, hseeded, rfl, hrest⟩ := List.map_eq_append_iff.mp hsplit
    obtain ⟨cash, after, rfl, rfl, -⟩ := List.map_eq_cons_iff.mp hrest
    refine ⟨before, cash, after, hseeded, QuantParameters.normalize_kind.symm.trans hkind, fun other hother => ?_⟩
    have hne := hbefore _ (List.mem_map_of_mem hother)
    simpa using hne
  · rintro ⟨before, cash, after, hseeded, hkind, hbefore⟩
    refine ⟨cash.normalize, ?_, QuantParameters.normalize_kind.trans hkind⟩
    rw [normalizedSets_eq, mem_firstPerKey_iff, List.find?_eq_some_iff_append, hseeded]
    refine ⟨by simp, before.map QuantParameters.normalize, after.map QuantParameters.normalize, by simp, fun other hother => ?_⟩
    obtain ⟨given, hgiven, rfl⟩ := List.mem_map.mp hother
    simpa using hbefore given hgiven

theorem firstCash_default : FirstCash (defaultParameterSets (F := ℚ)) := by
  refine ⟨defaultParameterSets.take 5, defaultParameterSets.getLast (by decide), [], by decide +kernel,
    by decide +kernel, by decide +kernel⟩

theorem any_cash_iff : sets.any (fun parameters => parameters.kind == .cash) = true ↔
    ∃ parameters ∈ sets, parameters.kind = .cash := by
  simp only [List.any_eq_true, beq_iff_eq]

theorem seededSets_nil : seededSets ([] : List (QuantParameters ℚ)) = defaultParameterSets :=
  if_pos (by decide +kernel)

theorem seededSets_of_cash (h : ∃ parameters ∈ sets, parameters.kind = .cash) : seededSets sets = sets := by
  obtain ⟨cash, hmem, hkind⟩ := h
  have hempty : sets.isEmpty = false := List.isEmpty_eq_false_iff.mpr (List.ne_nil_of_mem hmem)
  unfold seededSets
  simp only [hempty, Bool.false_eq_true, if_false]
  exact if_pos (any_cash_iff.mpr ⟨cash, hmem, hkind⟩)

theorem seededSets_of_no_cash (hne : sets ≠ []) (hnone : ∀ parameters ∈ sets, parameters.kind ≠ .cash) :
    ∃ added : QuantParameters ℚ, added.kind = .cash ∧ added.id = "cash-v1" ∧
      seededSets sets = sets ++ [added] := by
  have hempty : sets.isEmpty = false := List.isEmpty_eq_false_iff.mpr hne
  refine ⟨{ QuantParameters.default with id := "cash-v1", kind := .cash }, rfl, rfl, ?_⟩
  unfold seededSets
  simp only [hempty, Bool.false_eq_true, if_false]
  refine if_neg fun hany => ?_
  obtain ⟨cash, hmem, hkind⟩ := any_cash_iff.mp hany
  exact hnone cash hmem hkind

/-- An arm added at the end is the first of its id when no other arm has that id. -/
theorem firstCash_concat_iff {added : QuantParameters ℚ} (hadded : added.kind = .cash)
    (hnone : ∀ parameters ∈ sets, parameters.kind ≠ .cash) :
    FirstCash (sets ++ [added]) ↔ ∀ parameters ∈ sets, normalizeId parameters.id ≠ normalizeId added.id := by
  constructor
  · rintro ⟨before, cash, after, hsplit, hkind, hbefore⟩
    rcases List.eq_nil_or_concat after with rfl | ⟨init, last, rfl⟩
    · obtain ⟨rfl, hlast⟩ := List.append_inj' hsplit rfl
      cases List.head_eq_of_cons_eq hlast
      exact hbefore
    · rw [List.concat_eq_append, ← List.cons_append, ← List.append_assoc] at hsplit
      obtain ⟨rfl, -⟩ := List.append_inj' hsplit rfl
      exact absurd hkind (hnone cash (List.mem_append_right _ List.mem_cons_self))
  · intro h
    exact ⟨sets, added, [], rfl, hadded, h⟩

/-- The seeded arms have such a cash arm exactly when the persisted ones do not lose it. -/
theorem firstCash_seededSets_iff : FirstCash (seededSets sets) ↔ KeepsCash sets := by
  have hcash : normalizeId "cash-v1" = "cash-v1" := by decide +kernel
  by_cases hne : sets = []
  · rw [hne]
    exact iff_of_true (seededSets_nil ▸ firstCash_default) (.inl rfl)
  by_cases hany : ∃ parameters ∈ sets, parameters.kind = .cash
  · rw [seededSets_of_cash hany]
    obtain ⟨cash, hmem, hkind⟩ := hany
    constructor
    · exact fun h => .inr (.inl h)
    · rintro (hnil | hfirst | hnone)
      · exact absurd hnil hne
      · exact hfirst
      · exact absurd hkind (hnone cash hmem).1
  · have hnone : ∀ parameters ∈ sets, parameters.kind ≠ .cash :=
      fun parameters hmem hkind => hany ⟨parameters, hmem, hkind⟩
    obtain ⟨added, hadded, hid, hseeded⟩ := seededSets_of_no_cash hne hnone
    rw [hseeded, firstCash_concat_iff hadded hnone, hid, hcash]
    constructor
    · exact fun h => .inr (.inr fun parameters hmem => ⟨hnone parameters hmem, h parameters hmem⟩)
    · rintro (hnil | ⟨before, cash, after, hsplit, hkind, -⟩ | hall)
      · exact absurd hnil hne
      · refine absurd hkind (hnone cash ?_)
        rw [hsplit]
        exact List.mem_append_right _ List.mem_cons_self
      · exact fun parameters hmem => (hall parameters hmem).2

/-- Repaired arms that have a cash arm are not changed by repairing them again. -/
theorem normalizedSets_normalizedSets (h : ∃ parameters ∈ normalizedSets sets, parameters.kind = .cash) :
    normalizedSets (normalizedSets sets) = normalizedSets sets := by
  set repaired := normalizedSets sets with hrepaired
  obtain ⟨cash, hmem, hkind⟩ := h
  have hseeded : seededSets repaired = repaired := seededSets_of_cash ⟨cash, hmem, hkind⟩
  have hsame : repaired.map QuantParameters.normalize = repaired := by
    conv_rhs => rw [← List.map_id repaired]
    apply List.map_congr_left
    intro parameters hparameters
    obtain ⟨given, -, rfl⟩ := mem_normalizedSets hparameters
    exact QuantParameters.normalize_normalize given
  rw [normalizedSets_eq, hseeded, hsame]
  exact firstPerKey_of_pairwise (ascending_normalizedSets sets)

/-- The repair of a persisted state does all that it should, exactly when it keeps a cash arm. -/
theorem normalize_repaired_iff (state : QuantMigrationState ℚ) :
    state.normalize.Repaired ↔ KeepsCash state.parameterSets := by
  rw [← firstCash_seededSets_iff, ← cash_normalizedSets_iff]
  constructor
  · exact fun h => h.cash
  · intro hcash
    have hactive := (normalize_armed state).active
    have hsettled : state.normalize.Settled := ⟨normalizedSets_normalizedSets hcash, hactive⟩
    refine ⟨?_, ascending_normalizedSets _, hactive, hcash, ?_, ?_⟩
    · obtain ⟨cash, hmem, -⟩ := hcash
      exact List.ne_nil_of_mem hmem
    · intro parameters hmem hkind
      obtain ⟨given, -, rfl⟩ := mem_normalizedSets hmem
      exact (QuantParameters.normalize_balanced (QuantParameters.normalize_kind.symm.trans hkind)).weight
    · rw [hsettled.normalize_eq]
      unfold touch
      have htotal : max state.normalize.totalResolved state.normalize.resolved.length =
          state.normalize.totalResolved := max_eq_left (le_max_right _ _)
      rw [htotal]
      rfl

end QuantMigrationState

section Sample
open QuantMigrationState

/-- A persisted state with one arm, of which only the id was recorded: that of the cash arm. -/
def tradingAsCash : QuantMigrationState ℚ :=
  { QuantMigrationState.default with
    parameterSets := [{ QuantParameters.default with id := "cash-v1" }] }

/-- The cash arm that is added to it is dropped again. -/
theorem cash_arm_dropped :
    tradingAsCash.normalize.parameterSets.map QuantParameters.kind = [.momentum] ∧
      ¬ tradingAsCash.normalize.Repaired := by
  have hkinds : tradingAsCash.normalize.parameterSets.map QuantParameters.kind = [.momentum] := by
    decide +kernel
  refine ⟨hkinds, fun h => ?_⟩
  obtain ⟨cash, hmem, hkind⟩ := h.cash
  have hlisted := List.mem_map_of_mem (f := QuantParameters.kind) hmem
  rw [hkinds, hkind] at hlisted
  exact absurd (List.mem_singleton.mp hlisted) (by decide)

end Sample

end Gail.Trading
