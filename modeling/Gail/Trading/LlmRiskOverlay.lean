import Gail.Trading.Consensus
import Gail.Trading.EdgeCalibration

/-! The risk overlay that an LLM round leaves on the quant signal. -/
namespace Gail.Trading
open Gail.Library Snapshot

structure LlmRiskOverlayConfig (F : Type) where
  enabled : Bool
  timeToLiveSeconds : Nat
  minimumCoverage : F
  minimumAgreement : F
  dampeningRiskScore : F
  vetoRiskScore : F
  minimumMultiplier : F
  deriving DecidableEq

structure LlmOverlayApplication (F : Type) where
  active : Bool
  vetoed : Bool
  multiplier : F
  reason : Option String

section Definitions
variable {F : Type} [Scalar F]

/-- `f64::clamp`, which panics unless its bounds are in order. -/
def checkedClamp (x low high : F) : Option F := if low ≤ high then some (clamp x low high) else none

namespace LlmRiskOverlayConfig

def normalise (config : LlmRiskOverlayConfig F) : Option (LlmRiskOverlayConfig F) := do
  let dampeningRiskScore := clamp config.dampeningRiskScore 0.0 0.99
  let vetoRiskScore ← checkedClamp config.vetoRiskScore dampeningRiskScore 1.0
  pure
    { config with
      timeToLiveSeconds := clampCount config.timeToLiveSeconds 60 (7 * 86400)
      minimumCoverage := clamp config.minimumCoverage 0.0 1.0
      minimumAgreement := clamp config.minimumAgreement 0.0 1.0
      dampeningRiskScore
      vetoRiskScore
      minimumMultiplier := clamp config.minimumMultiplier 0.0 1.0 }

end LlmRiskOverlayConfig

namespace Snapshot.LlmRiskOverlayState

/-- The risk of the answers, by their weights, for a round without an average of its own. -/
def weightedRisk (advices : List (Advisor.AiAdvice F)) : F :=
  let weighted := (advices.filter (·.parsedOk)).map fun advice =>
    (clamp advice.riskScore 0.0 1.0, Scalar.max advice.weight 0.05)
  let totalWeight := total (weighted.map (·.2))
  if totalWeight ≤ Scalar.epsilon then 1.0
  else total (weighted.map fun (risk, weight) => risk * weight) / totalWeight

/-- How many of the advisers asked have answered, as the round says or as it counts. -/
def coverageOf (consensus : Received.AiConsensus F) : F :=
  let roundSize := saturatingAdd consensus.responders consensus.failures
  clamp
    ((consensus.voteDistribution.getF64 "coverage").getD
      (if roundSize = 0 then 0.0 else Scalar.ofCount consensus.responders / Scalar.ofCount roundSize))
    0.0 1.0

def agreementOf (consensus : Received.AiConsensus F) : F :=
  clamp ((consensus.voteDistribution.getF64 "agreement").getD 0.0) 0.0 1.0

def riskScoreOf (consensus : Received.AiConsensus F) : F :=
  clamp ((consensus.voteDistribution.getF64 "average_risk").getD (weightedRisk consensus.advices)) 0.0 1.0

/-- How much of the signal is left at a risk. -/
def confidenceMultiplierFor (config : LlmRiskOverlayConfig F) (riskScore : F) : Option F :=
  if riskScore ≤ config.dampeningRiskScore then some 1.0
  else
    let range := Scalar.max (config.vetoRiskScore - config.dampeningRiskScore) Scalar.epsilon
    let severity := clamp ((riskScore - config.dampeningRiskScore) / range) 0.0 1.0
    checkedClamp (1.0 - severity * (1.0 - config.minimumMultiplier)) config.minimumMultiplier 1.0

/-- The state after the round, and whether the round refreshed it. -/
def updateFromConsensus (state : LlmRiskOverlayState F) (consensus : Received.AiConsensus F) (now : F)
    (config : LlmRiskOverlayConfig F) : Option (LlmRiskOverlayState F × Bool) :=
  if !config.enabled || consensus.responders == 0 then some (state, false)
  else if coverageOf consensus < config.minimumCoverage ∨ agreementOf consensus < config.minimumAgreement then
    some (state, false)
  else
    let riskScore := riskScoreOf consensus
    (confidenceMultiplierFor config riskScore).map fun confidenceMultiplier =>
      ({ updatedAt := some now
         expiresAt := some (now + Scalar.ofCount config.timeToLiveSeconds)
         riskScore
         coverage := coverageOf consensus
         agreement := agreementOf consensus
         confidenceMultiplier
         veto := decide (config.vetoRiskScore ≤ riskScore)
         responders := consensus.responders }, true)

def applyToQuant [NumberText F] (state : LlmRiskOverlayState F) (signal : GatedSignal F) (now : F)
    (config : LlmRiskOverlayConfig F) : GatedSignal F × LlmOverlayApplication F :=
  if !config.enabled || state.expiresAt.all (fun expiresAt => decide (expiresAt < now)) ||
      state.updatedAt.isNone then
    (signal, { active := false, vetoed := false, multiplier := 0.0, reason := none })
  else
    let applied : GatedSignal F :=
      if state.veto && signal.actionable then
        { signal with
          actionable := false
          edgeGateReason := some ("LLM risk overlay veto: risk " ++ NumberText.fixed 2 state.riskScore ++
            " from " ++ toString state.responders ++ " responders") }
      else if signal.actionable then
        let dampened : GatedSignal F :=
          { signal with
            confidence := signal.confidence * state.confidenceMultiplier
            signal := signal.signal * state.confidenceMultiplier
            edgeLowerBoundBps := signal.edgeLowerBoundBps.map (· * state.confidenceMultiplier)
            rationale := signal.rationale ++ "; LLM risk overlay multiplier=" ++
              NumberText.fixed 2 state.confidenceMultiplier ++ " risk=" ++ NumberText.fixed 2 state.riskScore }
        if Scalar.abs dampened.signal < 0.2 then
          { dampened with
            actionable := false
            edgeGateReason :=
              some "LLM risk overlay reduced the signal below the execution threshold" }
        else dampened
      else signal
    (applied,
      { active := true
        vetoed := state.veto && signal.actionable
        multiplier := if state.veto then 0.0 else state.confidenceMultiplier
        reason := if state.veto then applied.edgeGateReason else none })

/-- The states that rounds lead to under normalised configurations. A restart brings back one of them. -/
inductive Reachable : LlmRiskOverlayState F → Prop
  | start : Reachable llmRiskOverlayState.initial
  | update {state next : LlmRiskOverlayState F} {consensus : Received.AiConsensus F} {now : F}
      {raw config : LlmRiskOverlayConfig F} {refreshed : Bool} (h : Reachable state)
      (hconfig : raw.normalise = some config)
      (hnext : state.updateFromConsensus consensus now config = some (next, refreshed)) : Reachable next

/-- Once a round has set it, the multiplier is neither negative nor above one. -/
def Bounded (state : LlmRiskOverlayState F) : Prop :=
  state.updatedAt.isSome = true → ¬ state.confidenceMultiplier < 0.0 ∧ ¬ 1.0 < state.confidenceMultiplier

end Snapshot.LlmRiskOverlayState

/-- Nothing is stronger after than it was before, and no buy has become a sale or the reverse. -/
structure GatedSignal.Dampens (after before : GatedSignal F) : Prop where
  actionable : after.actionable = true → before.actionable = true
  buys : 0.0 < after.signal → 0.0 < before.signal
  sells : after.signal < 0.0 → before.signal < 0.0
  strength : ¬ Scalar.abs before.signal < Scalar.abs after.signal
  confidence : ¬ before.confidence < after.confidence
  edge : ∀ bound ∈ after.edgeLowerBoundBps, ∃ original ∈ before.edgeLowerBoundBps, ¬ original < bound

end Definitions

section Dampening
variable {F : Type} [Scalar F] [Scalar.Ieee F]

theorem GatedSignal.Dampens.ofSame {after before : GatedSignal F}
    (hactionable : after.actionable = true → before.actionable = true) (hsignal : after.signal = before.signal)
    (hconfidence : after.confidence = before.confidence)
    (hedge : after.edgeLowerBoundBps = before.edgeLowerBoundBps) : after.Dampens before := by
  refine ⟨hactionable, ?_, ?_, ?_, ?_, ?_⟩
  · rw [hsignal]
    exact id
  · rw [hsignal]
    exact id
  · rw [hsignal]
    exact Scalar.lt_irrefl _
  · rw [hconfidence]
    exact Scalar.lt_irrefl _
  · rw [hedge]
    exact fun bound hbound => ⟨bound, hbound, Scalar.lt_irrefl bound⟩

variable {state next : LlmRiskOverlayState F}
  {raw config : LlmRiskOverlayConfig F}

omit [Scalar.Ieee F] in
theorem checkedClamp_eq_some {x low high result : F} (h : checkedClamp x low high = some result) :
    low ≤ high ∧ result = clamp x low high := by
  unfold checkedClamp at h
  split at h
  · exact ⟨‹_›, (Option.some.inj h).symm⟩
  · cases h

theorem LlmRiskOverlayConfig.normalise_multiplier (h : raw.normalise = some config) :
    ¬ config.minimumMultiplier < 0.0 := by
  obtain ⟨_, _, hconfig⟩ := Option.bind_eq_some_iff.mp h
  rw [← Option.some.inj hconfig]
  exact Scalar.not_clamp_lt (Scalar.not_lt_of_le Scalar.Comparable.zero_le_one)

namespace Snapshot.LlmRiskOverlayState

theorem confidenceMultiplierFor_bounds {riskScore multiplier : F}
    (hminimum : ¬ config.minimumMultiplier < 0.0)
    (h : confidenceMultiplierFor config riskScore = some multiplier) :
    ¬ multiplier < 0.0 ∧ ¬ 1.0 < multiplier := by
  have hunit : (0.0 : F) ≤ 1.0 := Scalar.Comparable.zero_le_one
  unfold confidenceMultiplierFor at h
  split at h
  · rw [← Option.some.inj h]
    exact ⟨Scalar.not_lt_of_le hunit, Scalar.lt_irrefl _⟩
  · obtain ⟨hbounds, rfl⟩ := checkedClamp_eq_some h
    have hzero : (0.0 : F) ≤ config.minimumMultiplier :=
      Scalar.le_of_not_lt (Scalar.Comparable.numbers hbounds).1 (Scalar.Comparable.numbers hunit).1 hminimum
    exact ⟨Scalar.not_clamp_lt_of_le hzero hbounds, Scalar.not_lt_clamp (Scalar.not_lt_of_le hbounds)⟩

/-- A round either leaves the state as it is or sets a multiplier within its bounds. -/
theorem updateFromConsensus_bounded {consensus : Received.AiConsensus F} {now : F} {refreshed : Bool}
    (hconfig : raw.normalise = some config) (hstate : state.Bounded)
    (h : state.updateFromConsensus consensus now config = some (next, refreshed)) : next.Bounded := by
  have hminimum := LlmRiskOverlayConfig.normalise_multiplier hconfig
  unfold updateFromConsensus at h
  dsimp only at h
  split at h
  · cases h
    exact hstate
  · split at h
    · cases h
      exact hstate
    · obtain ⟨multiplier, hmultiplier, hnext⟩ := Option.map_eq_some_iff.mp h
      cases hnext
      exact fun _ => confidenceMultiplierFor_bounds hminimum hmultiplier

theorem Reachable.bounded (h : state.Reachable) : state.Bounded := by
  induction h with
  | start => exact fun hset => nomatch hset
  | update h hconfig hnext ih => exact updateFromConsensus_bounded hconfig ih hnext

variable [NumberText F]

/-- What a bounded overlay does to a signal. -/
theorem applyToQuant_dampens (hstate : state.Bounded) (signal : GatedSignal F) (now : F)
    (config : LlmRiskOverlayConfig F) (hconfidence : ¬ signal.confidence < 0.0)
    (hedge : ∀ bound ∈ signal.edgeLowerBoundBps, ¬ bound < 0.0) :
    (state.applyToQuant signal now config).1.Dampens signal := by
  unfold applyToQuant
  split
  · exact .ofSame id rfl rfl rfl
  · rename_i hactive
    have hset : state.updatedAt.isSome = true := by
      cases hupdated : state.updatedAt with
      | some updatedAt => rfl
      | none =>
        refine absurd ?_ hactive
        rw [hupdated]
        exact Bool.or_true _
    obtain ⟨hlow, hhigh⟩ := hstate hset
    have hdampened : ∀ after : GatedSignal F, signal.actionable = true →
        after.signal = signal.signal * state.confidenceMultiplier →
        after.confidence = signal.confidence * state.confidenceMultiplier →
        after.edgeLowerBoundBps = signal.edgeLowerBoundBps.map (· * state.confidenceMultiplier) →
        after.Dampens signal := by
      intro after hactionable hsignal hconf hbound
      refine ⟨fun _ => hactionable, ?_, ?_, ?_, ?_, ?_⟩
      · rw [hsignal]
        exact Scalar.Ieee.pos_of_mul hlow
      · rw [hsignal]
        exact Scalar.Ieee.neg_of_mul hlow
      · rw [hsignal]
        exact Scalar.Ieee.abs_mul hlow hhigh
      · rw [hconf]
        exact Scalar.Ieee.mul_le hconfidence hlow hhigh
      · rw [hbound]
        intro bound hmem
        obtain ⟨original, horiginal, rfl⟩ := Option.mem_map.mp hmem
        exact ⟨original, horiginal, Scalar.Ieee.mul_le (hedge original horiginal) hlow hhigh⟩
    dsimp only
    split
    · exact .ofSame (fun h => nomatch h) rfl rfl rfl
    · split
      · rename_i hactionable
        split
        · exact hdampened _ hactionable rfl rfl rfl
        · exact hdampened _ hactionable rfl rfl rfl
      · exact .ofSame id rfl rfl rfl

end Snapshot.LlmRiskOverlayState

/-- Whatever rounds the overlay has seen, malformed ones among them, it only dampens a signal or vetoes it. The
policy clamps the confidence of its signals at zero. -/
theorem overlay_only_dampens [NumberText F] {state : LlmRiskOverlayState F} (h : state.Reachable)
    (signal : GatedSignal F) (now : F) (config : LlmRiskOverlayConfig F)
    (hconfidence : ¬ signal.confidence < 0.0) (hedge : ∀ bound ∈ signal.edgeLowerBoundBps, ¬ bound < 0.0) :
    (state.applyToQuant signal now config).1.Dampens signal :=
  Snapshot.LlmRiskOverlayState.applyToQuant_dampens h.bounded signal now config hconfidence hedge

end Dampening

section Sample

deriving instance DecidableEq for LlmRiskOverlayState

def LlmRiskOverlayConfig.defaults : LlmRiskOverlayConfig ℚ :=
  { enabled := true
    timeToLiveSeconds := 21600
    minimumCoverage := 1 / 2
    minimumAgreement := 1 / 2
    dampeningRiskScore := 11 / 20
    vetoRiskScore := 17 / 20
    minimumMultiplier := 1 / 4 }

/-- Three advisers of whom two answer. -/
def Received.AiConsensus.risky : Received.AiConsensus ℚ :=
  { action := "hold"
    confidence := 1 / 2
    signal := 0
    voteDistribution := .object [("agreement", .integer 1), ("average_risk", .number (7 / 10) rfl)]
    advices := []
    responders := 2
    failures := 1 }

def Snapshot.LlmRiskOverlayState.dampening : LlmRiskOverlayState ℚ :=
  { updatedAt := some 100
    expiresAt := some 21700
    riskScore := 7 / 10
    coverage := 2 / 3
    agreement := 1
    confidenceMultiplier := 5 / 8
    veto := false
    responders := 2 }

theorem overlay_only_dampens_risky :
    (LlmRiskOverlayState.dampening.applyToQuant .buying 200 .defaults).1.Dampens .buying :=
  overlay_only_dampens
    (@LlmRiskOverlayState.Reachable.update _ _ _ _ .risky 100 .defaults .defaults true .start
      (by decide +kernel) (by decide +kernel))
    .buying 200 .defaults (by decide +kernel) nofun

example :
    (LlmRiskOverlayState.dampening.applyToQuant .buying 200 .defaults).1.signal = 1 / 2 := by
  decide +kernel

end Sample
end Gail.Trading
