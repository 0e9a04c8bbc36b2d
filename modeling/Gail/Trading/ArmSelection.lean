import Gail.Trading.SettledRuns

/-! Which arm is active after tuning: cash, the best qualified arm, or the one that was. -/
namespace Gail.Trading
variable {F : Type} [Scalar F]

/-- What the rolling window says of a trading arm meets the requirements of tuning. -/
structure ParameterPerformance.Qualified (performance : ParameterPerformance F) (config : TradingConfig F) :
    Prop where
  trading : performance.parameterId ≠ config.selection.cashParameterId
  samples : config.quantTuningMinSamples ≤ performance.samples
  actionableSamples : config.quantTuningMinActionableSamples ≤ performance.actionableSamples
  edge : config.selection.minimumActionableNetEdgeBps < performance.netEdgeLowerBoundBps

/-- The score improves on that of the current arm by the margin, as near as doubles tell. -/
def ParameterPerformance.Outperforms (performance current : ParameterPerformance F) (config : TradingConfig F) :
    Prop :=
  ¬ performance.riskAdjustedScoreBps - current.riskAdjustedScoreBps + Scalar.epsilon <
    config.quantTuningMinOutperformanceBps

/-- Of the qualified arms, none has a higher score. -/
structure ParameterPerformance.Best (performance : ParameterPerformance F) (config : TradingConfig F)
    (performances : List (ParameterPerformance F)) : Prop where
  mem : performance ∈ performances
  qualified : performance.Qualified config
  highest : ∀ other ∈ performances, other.Qualified config →
    ¬ performance.riskAdjustedScoreBps < other.riskAdjustedScoreBps

namespace QuantMigrationState

/-- The performances that tuning compares. -/
def performances (state : QuantMigrationState F) (config : TradingConfig F) : List (ParameterPerformance F) :=
  state.parameterPerformances config.quantMigrationWindowSamples config.selection.confidenceZScore

/-- The first performance under an id. -/
def performanceOf (state : QuantMigrationState F) (config : TradingConfig F) (id : String) :
    Option (ParameterPerformance F) :=
  (state.performances config).find? fun performance => performance.parameterId == id

/-- Tuning is due, and knows the active arm and the cash arm. -/
structure GatesOpen (state : QuantMigrationState F) (config : TradingConfig F) : Prop where
  samples : config.quantTuningMinSamples ≤ state.resolved.length
  interval : config.quantTuningIntervalSamples ≤ state.totalResolved - state.lastTunedResolvedCount
  active : state.activeParameterId ∈ state.parameterIds
  cash : config.selection.cashParameterId ∈ state.parameterIds

/-- What becomes of the active arm when tuning is due. -/
structure Selects (state : QuantMigrationState F) (config : TradingConfig F)
    (current cash : ParameterPerformance F) : Prop where
  atActive : state.performanceOf config state.activeParameterId = some current
  atCash : state.performanceOf config config.selection.cashParameterId = some cash
  /-- No trading arm qualifies, and cash is active already or better by the margin. -/
  idle : (∀ performance ∈ state.performances config, ¬ performance.Qualified config) →
    state.activeParameterId = config.selection.cashParameterId ∨ cash.Outperforms current config →
    (state.maybeRetune config).2.activeParameterId = config.selection.cashParameterId
  trading : (∃ performance ∈ state.performances config, performance.Qualified config) →
    ∃ best : ParameterPerformance F, best.Best config (state.performances config) ∧
      (best.Outperforms current config →
        (state.maybeRetune config).2.activeParameterId = best.parameterId) ∧
      (¬ best.Outperforms current config →
        (state.maybeRetune config).2.activeParameterId = state.activeParameterId)

variable {state : QuantMigrationState F} {config : TradingConfig F}

theorem qualified_iff (performance : ParameterPerformance F) :
    (performance.parameterId != config.selection.cashParameterId &&
      decide (config.quantTuningMinSamples ≤ performance.samples) &&
      decide (config.quantTuningMinActionableSamples ≤ performance.actionableSamples) &&
      decide (config.selection.minimumActionableNetEdgeBps < performance.netEdgeLowerBoundBps)) = true ↔
    performance.Qualified config := by
  simp only [Bool.and_eq_true, bne_iff_ne, decide_eq_true_eq]
  constructor
  · rintro ⟨⟨⟨htrading, hsamples⟩, hactionable⟩, hedge⟩
    exact ⟨htrading, hsamples, hactionable, hedge⟩
  · rintro ⟨htrading, hsamples, hactionable, hedge⟩
    exact ⟨⟨⟨htrading, hsamples⟩, hactionable⟩, hedge⟩

/-- There is no best trading arm exactly when none qualifies. -/
theorem bestTradingArm_eq_none {performances : List (ParameterPerformance F)} :
    bestTradingArm config performances = none ↔
      ∀ performance ∈ performances, ¬ performance.Qualified config := by
  have hnone : ∀ items : List (ParameterPerformance F),
      maxBy ParameterPerformance.riskAdjustedScoreBps items = none ↔ items = [] := by
    intro items
    cases items with
    | nil => exact iff_of_true rfl rfl
    | cons item items => exact iff_of_false (Option.some_ne_none _) (List.cons_ne_nil _ _)
  unfold bestTradingArm
  rw [hnone, List.filter_eq_nil_iff]
  simp only [qualified_iff]

theorem bestTradingArm_best [Scalar.Ordered F] {performances : List (ParameterPerformance F)}
    {best : ParameterPerformance F} (h : bestTradingArm config performances = some best) :
    best.Best config performances := by
  obtain ⟨hmem, hqualified⟩ := List.mem_filter.mp (maxBy_mem h)
  refine ⟨hmem, (qualified_iff best).mp hqualified, fun other hother hq => ?_⟩
  exact maxBy_max h other (List.mem_filter.mpr ⟨hother, (qualified_iff other).mpr hq⟩)

/-- Every arm has a performance under its id. -/
theorem performanceOf_isSome (config : TradingConfig F) {id : String} (h : id ∈ state.parameterIds) :
    ∃ performance, state.performanceOf config id = some performance ∧ performance.parameterId = id := by
  obtain ⟨parameters, hmem, hid⟩ := List.mem_map.mp h
  have hsome : (state.performanceOf config id).isSome := by
    unfold performanceOf
    rw [List.find?_isSome]
    exact ⟨_, List.mem_map_of_mem hmem, beq_iff_eq.mpr hid⟩
  obtain ⟨performance, hfind⟩ := Option.isSome_iff_exists.mp hsome
  have hp := List.find?_some hfind
  exact ⟨performance, hfind, eq_of_beq hp⟩

/-- When tuning is due, the best qualified arm or else cash takes over, unless it falls short of the margin. -/
theorem GatesOpen.activeParameterId (h : state.GatesOpen config) {current cash : ParameterPerformance F}
    (hcurrent : state.performanceOf config state.activeParameterId = some current)
    (hcash : state.performanceOf config config.selection.cashParameterId = some cash) :
    let best := (bestTradingArm config (state.performances config)).getD cash
    (best.parameterId = state.activeParameterId ∨ best.Outperforms current config →
      (state.maybeRetune config).2.activeParameterId = best.parameterId) ∧
    (¬ best.Outperforms current config →
      (state.maybeRetune config).2.activeParameterId = state.activeParameterId) := by
  have hgates : ¬ (state.resolved.length < config.quantTuningMinSamples ∨
      state.totalResolved - state.lastTunedResolvedCount < config.quantTuningIntervalSamples) :=
    not_or.mpr ⟨not_lt.mpr h.samples, not_lt.mpr h.interval⟩
  intro best
  unfold performanceOf performances at hcurrent hcash
  unfold maybeRetune
  rw [if_neg hgates]
  simp only [hcurrent, hcash]
  split
  · rename_i hstays
    refine ⟨fun htaken => ?_, fun _ => rfl⟩
    rcases htaken with hsame | hbetter
    · exact hsame.symm
    · exact (hstays.resolve_right fun hworse => hbetter hworse).symm
  · rename_i hmoves
    refine ⟨fun _ => rfl, fun hworse => ?_⟩
    exact absurd (not_not.mp hworse) (not_or.mp hmoves).2

end QuantMigrationState

section Sample
open QuantMigrationState

/-- A controller whose trading arms have all earned so much on each of three markouts. -/
def controllerEarning (netReturnBps : ℚ) (activeParameterId : String) : QuantMigrationState ℚ :=
  let outcomes := (defaultParameterSets (F := ℚ)).map fun parameters =>
    { parameterId := parameters.id, exchange := "binance", symbol := "BTC/USDT"
      actionable := parameters.kind != .cash
      netReturnBps := if parameters.kind = .cash then 0 else netReturnBps }
  { QuantMigrationState.default with
    activeParameterId
    totalResolved := 3
    resolved := List.replicate 3
      { evaluationId := "evaluation", createdAt := 0, resolvedAt := 60, exchange := "binance"
        symbol := "BTC/USDT", activeParameterId, activeQuantActionable := true
        activeQuantNetReturnBps := netReturnBps, llmActionable := false, llmNetReturnBps := none
        candidateOutcomes := outcomes } }

theorem controllerEarning_gates {netReturnBps : ℚ} {activeParameterId : String}
    (h : activeParameterId ∈ (default : QuantMigrationState ℚ).parameterIds) :
    (controllerEarning netReturnBps activeParameterId).GatesOpen (eagerConfig 3).toTradingConfig where
  samples := le_rfl
  interval := (by decide : 1 ≤ 3 - 0)
  active := h
  cash := (by decide +kernel : "cash-v1" ∈ (default : QuantMigrationState ℚ).parameterIds)

end Sample

end Gail.Trading
