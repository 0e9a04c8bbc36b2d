import Gail.Library.JsonRead
import Gail.Trading.SnapshotMarkets

/-! The consensus of the advisers: their answers are weighed, summed up and turned into one signal. -/
namespace Gail.Trading.Advisor
open Gail.Library

structure AiAdvice (F : Type) where
  provider : String
  model : Option String
  action : String
  confidence : F
  reasoning : String
  suggestedAmountUsd : Option F
  riskScore : F
  riskFlags : List String
  targetSymbol : Option String
  rawResponse : String
  /-- The answer was understood. -/
  parsedOk : Bool
  weight : F
  deriving DecidableEq

/-- The object under `vote_distribution`; its maps are functions of their keys. -/
structure VoteDistribution (F : Type) where
  votes : String → Option F
  legibleTargets : String → Option Nat
  partialEvidence : Bool
  agreement : F
  coverage : F
  averageRisk : F

structure AiConsensus (F : Type) where
  action : String
  confidence : F
  signal : F
  /-- `none` is the empty object. -/
  voteDistribution : Option (VoteDistribution F)
  advices : List (AiAdvice F)
  responders : Nat
  failures : Nat

section Definitions
variable {F : Type} [Scalar F]

def AiConsensus.uncertain : AiConsensus F :=
  { action := "hold"
    confidence := 0.0
    signal := 0.0
    voteDistribution := none
    advices := []
    responders := 0
    failures := 0 }

def actionToSignal : String → F
  | "strong_buy" => 1.0
  | "buy" => 0.5
  | "hold" => 0.0
  | "sell" => -0.5
  | "strong_sell" => -1.0
  | _ => 0.0

def signalToAction (signal : F) : String :=
  if 0.65 ≤ signal then "strong_buy"
  else if 0.2 ≤ signal then "buy"
  else if signal ≤ -0.65 then "strong_sell"
  else if signal ≤ -0.2 then "sell"
  else "hold"

namespace AiAdvice

/-- What `consult_all` makes of the answer to one of `chunkCount` chunks. -/
def ofChunk (advice : AiAdvice F) (chunkCount chunkId : Nat) : AiAdvice F :=
  { advice with
    weight := advice.weight / Scalar.ofCount chunkCount
    reasoning := "[chunk=" ++ toString chunkId ++ "] " ++ advice.reasoning }

/-- The answers to all chunks, when each chunk gets the same one. -/
def chunks (advice : AiAdvice F) (chunkCount : Nat) : List (AiAdvice F) :=
  (List.range chunkCount).map (advice.ofChunk chunkCount)

def providerWeight (advice : AiAdvice F) : F := Scalar.max advice.weight 0.05

def risk (advice : AiAdvice F) : F := clamp advice.riskScore 0.0 1.0

def riskAdjustment (advice : AiAdvice F) : F := clamp (1.0 - advice.risk * 0.35) 0.55 1.0

def effectiveWeight (advice : AiAdvice F) : F :=
  Scalar.max (advice.providerWeight * advice.confidence * advice.riskAdjustment) 0.01

def signal (advice : AiAdvice F) : F := actionToSignal advice.action

/-- The symbol that the answer names. -/
def target (advice : AiAdvice F) : Option String :=
  (advice.targetSymbol.map fun target => toAsciiUppercase (trim target)).filter (!·.isEmpty)

end AiAdvice

/-- `*map.entry(key).or_insert(zero) += amount`. -/
def addEntry {V : Type} [Add V] (zero : V) (map : String → Option V) (key : String) (amount : V) :
    String → Option V :=
  Function.update map key (some ((map key).getD zero + amount))

/-- The sums that `aggregate_consensus` keeps. -/
structure Tally (F : Type) where
  weightedSignal : F
  weightedAbsSignal : F
  totalWeight : F
  weightedConfidence : F
  weightedRisk : F
  voteMap : String → Option F
  legibleTargets : String → Option Nat

namespace Tally

def zero : Tally F :=
  { weightedSignal := 0.0
    weightedAbsSignal := 0.0
    totalWeight := 0.0
    weightedConfidence := 0.0
    weightedRisk := 0.0
    voteMap := fun _ => none
    legibleTargets := fun _ => none }

def add (tally : Tally F) (advice : AiAdvice F) : Tally F :=
  { weightedSignal := tally.weightedSignal + advice.signal * advice.effectiveWeight
    weightedAbsSignal := tally.weightedAbsSignal + Scalar.abs advice.signal * advice.effectiveWeight
    totalWeight := tally.totalWeight + advice.effectiveWeight
    weightedConfidence := tally.weightedConfidence + advice.confidence * advice.providerWeight
    weightedRisk := tally.weightedRisk + advice.risk * advice.providerWeight
    voteMap := addEntry 0.0 tally.voteMap advice.action advice.effectiveWeight
    legibleTargets :=
      match advice.target with
      | none => tally.legibleTargets
      | some target => addEntry 0 tally.legibleTargets target 1 }

/-- The loop over the advices. -/
def ofAdvices (advices : List (AiAdvice F)) : Tally F :=
  advices.foldl (fun tally advice => if advice.parsedOk then tally.add advice else tally) zero

def signal (tally : Tally F) : F :=
  if 0.0 < tally.totalWeight then tally.weightedSignal / tally.totalWeight else 0.0

def agreement (tally : Tally F) : F :=
  if 0.0 < tally.weightedAbsSignal then
    clamp (Scalar.abs tally.weightedSignal / tally.weightedAbsSignal) 0.0 1.0
  else 1.0

end Tally

def responderCount (advices : List (AiAdvice F)) : Nat := (advices.filter (·.parsedOk)).length

def providerWeightSum (advices : List (AiAdvice F)) : F :=
  total ((advices.filter (·.parsedOk)).map AiAdvice.providerWeight)

/-- The confidence of the advisers, before agreement, coverage and risk reduce it. -/
def baseConfidence (advices : List (AiAdvice F)) : F :=
  if 0.0 < providerWeightSum advices then
    clamp ((Tally.ofAdvices advices).weightedConfidence / providerWeightSum advices) 0.0 1.0
  else 0.0

def averageRisk (advices : List (AiAdvice F)) : F :=
  if 0.0 < providerWeightSum advices then
    clamp ((Tally.ofAdvices advices).weightedRisk / providerWeightSum advices) 0.0 1.0
  else 1.0

def aggregateConsensus (advices : List (AiAdvice F)) (failures : Nat) : AiConsensus F :=
  let responders := responderCount advices
  if responders = 0 then { AiConsensus.uncertain with failures }
  else
    let tally := Tally.ofAdvices advices
    let signal := tally.signal
    let averageRisk := averageRisk advices
    let agreement := tally.agreement
    let coverage := Scalar.ofCount responders / Scalar.ofCount (max (responders + failures) 1)
    let confidence := clamp (baseConfidence advices * (0.55 + 0.45 * agreement) *
      (0.65 + 0.35 * coverage) * (1.0 - 0.25 * averageRisk)) 0.0 1.0
    { action := signalToAction signal
      confidence
      signal
      voteDistribution := some
        { votes := tally.voteMap
          legibleTargets := tally.legibleTargets
          partialEvidence := decide (0 < failures)
          agreement
          coverage
          averageRisk }
      advices
      responders
      failures }

/-- The consensus without the answers it was formed from. -/
def AiConsensus.verdict (consensus : AiConsensus F) : AiConsensus F := { consensus with advices := [] }

end Definitions

end Gail.Trading.Advisor

/-! The consensus of a round as those who use it read it. -/
namespace Gail.Trading.Received
open Gail.Library

structure AiConsensus (F : Type) [Scalar F] where
  action : String
  confidence : F
  signal : F
  /-- Any value of JSON: a reader takes from it what it finds. -/
  voteDistribution : Library.Json F
  advices : List (Advisor.AiAdvice F)
  responders : Nat
  failures : Nat

end Gail.Trading.Received
