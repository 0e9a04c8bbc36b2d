import Gail.Trading.EdgeCalibration
import Gail.Trading.PendingMarkouts

/-! The forward returns of the calibration and of the quant controller, and when the quotes were fetched that
they are measured by. -/
namespace Gail.Trading
open Gail.Library
variable {F : Type} [Scalar F]

structure HorizonResolveSummary where
  resolved : Nat
  expired : Nat
  deriving DecidableEq

/-- What `MultiHorizonCalibrationState::resolve_due` makes of one pending observation. -/
inductive HorizonSettlement (F : Type)
  | waiting
  | expired
  /-- A return that is not finite is neither entered nor counted. -/
  | dropped
  | resolved (observation : Snapshot.ResolvedHorizonObservation F)

def HorizonSettlement.isWaiting : HorizonSettlement F → Bool
  | .waiting => true
  | _ => false

def HorizonSettlement.isExpired : HorizonSettlement F → Bool
  | .expired => true
  | _ => false

def HorizonSettlement.observation : HorizonSettlement F → Option (Snapshot.ResolvedHorizonObservation F)
  | .resolved observation => some observation
  | _ => none

namespace Snapshot.PendingHorizonObservation

def grossReturnBps (pending : PendingHorizonObservation F) (observed : MarketSnapshot F) : F :=
  Scalar.signum pending.signal * ((observed.price / pending.entryPrice - 1.0) * 10000.0)

/-- What is entered for an observation at a quote. -/
def resolvedBy (pending : PendingHorizonObservation F) (observed : MarketSnapshot F) (now : F) :
    ResolvedHorizonObservation F :=
  { observationId := pending.observationId
    createdAt := pending.createdAt
    resolvedAt := now
    horizonSeconds := pending.horizonSeconds
    exchange := pending.exchange
    symbol := pending.symbol
    signal := pending.signal
    confidence := pending.confidence
    regime := pending.regime
    grossReturnBps := pending.grossReturnBps observed
    estimatedRoundTripCostBps := pending.estimatedRoundTripCostBps
    netReturnBps := pending.grossReturnBps observed - pending.estimatedRoundTripCostBps }

/-- A due observation is resolved at the latest quote of its market, whenever that was fetched. Only without a
quote does it wait, and expire. -/
def settle (pending : PendingHorizonObservation F) (snapshots : List (MarketSnapshot F)) (now : F) :
    HorizonSettlement F :=
  if now < pending.dueAt then .waiting
  else
    match exactMarketSnapshot snapshots pending.exchange pending.symbol with
    | none => if now < pending.expiresAt then .waiting else .expired
    | some observed =>
      if Scalar.isFinite (pending.grossReturnBps observed) then .resolved (pending.resolvedBy observed now)
      else .dropped

end Snapshot.PendingHorizonObservation

namespace Snapshot.MultiHorizonCalibrationState

/-- One horizon of `record_signal`, after some were recorded. -/
def recordHorizon (config : MultiHorizonConfig F) (uuids : Nat → String) (signal : GatedSignal F)
    (snapshot : MarketSnapshot F) (regime : String) (estimatedRoundTripCostBps now : F)
    (recorded : Nat × MultiHorizonCalibrationState F) (horizon : Nat) :
    Nat × MultiHorizonCalibrationState F :=
  let (count, state) := recorded
  if (state.lastRecordedByHorizon.lookup horizon).any fun last =>
      decide (now - last + Scalar.epsilon < Scalar.ofCount horizon) then recorded
  else
    let dueAt := now + Scalar.ofCount horizon
    let observation : PendingHorizonObservation F :=
      { observationId := uuids count ++ "-" ++ toString horizon
        createdAt := now
        dueAt
        expiresAt := dueAt + Scalar.ofCount config.expiryGraceSeconds
        horizonSeconds := horizon
        exchange := snapshot.exchange
        symbol := snapshot.symbol
        entryPrice := snapshot.price
        signal := signal.signal
        confidence := signal.confidence
        regime
        estimatedRoundTripCostBps := Scalar.max estimatedRoundTripCostBps 0.0 }
    (count + 1,
      { state with
        pending := state.pending ++ [observation]
        lastRecordedByHorizon :=
          (horizon, now) :: state.lastRecordedByHorizon.filter fun entry => entry.1 != horizon })

/-- `record_signal`, with the ids of the call in the order in which they are drawn. -/
def recordSignal (state : MultiHorizonCalibrationState F) (config : MultiHorizonConfig F)
    (uuids : Nat → String) (signal : GatedSignal F) (snapshot : MarketSnapshot F) (regime : String)
    (estimatedRoundTripCostBps now : F) : Nat × MultiHorizonCalibrationState F :=
  if !config.enabled || !signal.rawActionable || decide (Scalar.abs signal.signal < 0.2) ||
      !Scalar.isFinite snapshot.price || decide (snapshot.price ≤ 0.0) then (0, state)
  else
    let (recorded, state) := config.horizonsSeconds.foldl
      (recordHorizon config uuids signal snapshot regime estimatedRoundTripCostBps now) (0, state)
    (recorded, { state with pending := latest config.ledgerSize state.pending })

def resolveDue (state : MultiHorizonCalibrationState F) (config : MultiHorizonConfig F)
    (snapshots : List (MarketSnapshot F)) (now : F) : HorizonResolveSummary × MultiHorizonCalibrationState F :=
  let resolved := state.pending.filterMap fun pending => (pending.settle snapshots now).observation
  ({ resolved := resolved.length
     expired := state.pending.countP fun pending => (pending.settle snapshots now).isExpired },
    { state with
      pending := state.pending.filter fun pending => (pending.settle snapshots now).isWaiting
      resolved := latest config.ledgerSize (state.resolved ++ resolved) })

end Snapshot.MultiHorizonCalibrationState

/-- The quote was fetched when an observation was due, and not after it had expired. -/
def MarketSnapshot.InWindow (quote : MarketSnapshot F) (dueAt expiresAt : F) : Prop :=
  dueAt ≤ quote.fetchedAt ∧ quote.fetchedAt ≤ expiresAt

instance (quote : MarketSnapshot F) (dueAt expiresAt : F) : Decidable (quote.InWindow dueAt expiresAt) :=
  inferInstanceAs (Decidable (_ ∧ _))

namespace Snapshot.PendingHorizonObservation
variable {pending : PendingHorizonObservation F} {snapshots : List (MarketSnapshot F)} {now : F}
  {observation : ResolvedHorizonObservation F}

/-- The latest usable quote of its market. -/
def quote (pending : PendingHorizonObservation F) (snapshots : List (MarketSnapshot F)) :
    Option (MarketSnapshot F) :=
  exactMarketSnapshot snapshots pending.exchange pending.symbol

/-- What becomes of an observation, by its times and the quote of its market. -/
inductive Settles (pending : PendingHorizonObservation F) (snapshots : List (MarketSnapshot F)) (now : F) :
    HorizonSettlement F → Prop
  | early (hearly : now < pending.dueAt) : Settles pending snapshots now .waiting
  | unquoted (hdue : ¬ now < pending.dueAt) (hquote : pending.quote snapshots = none)
    (hopen : now < pending.expiresAt) : Settles pending snapshots now .waiting
  | expired (hdue : ¬ now < pending.dueAt) (hquote : pending.quote snapshots = none)
    (hexpired : ¬ now < pending.expiresAt) : Settles pending snapshots now .expired
  | dropped (quote : MarketSnapshot F) (hdue : ¬ now < pending.dueAt)
    (hquote : pending.quote snapshots = some quote)
    (hfinite : Scalar.isFinite (pending.grossReturnBps quote) = false) : Settles pending snapshots now .dropped
  | resolved (quote : MarketSnapshot F) (hdue : ¬ now < pending.dueAt)
    (hquote : pending.quote snapshots = some quote)
    (hfinite : Scalar.isFinite (pending.grossReturnBps quote) = true) :
    Settles pending snapshots now (.resolved (pending.resolvedBy quote now))

theorem settle_settles (pending : PendingHorizonObservation F) (snapshots : List (MarketSnapshot F)) (now : F) :
    pending.Settles snapshots now (pending.settle snapshots now) := by
  unfold settle
  split
  · rename_i hearly
    exact .early hearly
  · rename_i hdue
    split
    · rename_i hquote
      split
      · rename_i hopen
        exact .unquoted hdue hquote hopen
      · rename_i hexpired
        exact .expired hdue hquote hexpired
    · rename_i quote hquote
      split
      · rename_i hfinite
        exact .resolved quote hdue hquote hfinite
      · rename_i hfinite
        exact .dropped quote hdue hquote (Bool.eq_false_iff.mpr hfinite)

/-- An observation is resolved at a quote of its window, and expired where it is overdue. -/
structure ResolvesInTime (pending : PendingHorizonObservation F) (snapshots : List (MarketSnapshot F))
    (now : F) : Prop where
  priced : ∀ observation, pending.settle snapshots now = .resolved observation →
    ∃ quote, pending.quote snapshots = some quote ∧ observation = pending.resolvedBy quote now ∧
      quote.InWindow pending.dueAt pending.expiresAt
  overdue : ¬ now < pending.dueAt → pending.expiresAt < now → pending.settle snapshots now = .expired

/-- Where the market of a due observation has a quote, the observation is not overdue, and a finite return is
measured by a quote of its window. -/
def QuotedInTime (pending : PendingHorizonObservation F) (snapshots : List (MarketSnapshot F)) (now : F) :
    Prop :=
  ¬ now < pending.dueAt → ∀ quote ∈ pending.quote snapshots, ¬ pending.expiresAt < now ∧
    (Scalar.isFinite (pending.grossReturnBps quote) = true → quote.InWindow pending.dueAt pending.expiresAt)

instance : Decidable (pending.QuotedInTime snapshots now) := inferInstanceAs (Decidable (_ → _))

theorem quotedInTime_iff [Scalar.Comparable F] :
    pending.QuotedInTime snapshots now ↔ pending.ResolvesInTime snapshots now := by
  have hsettles := settle_settles pending snapshots now
  constructor
  · intro h
    refine ⟨?_, ?_⟩
    · intro observation hsettle
      rw [hsettle] at hsettles
      cases hsettles with
      | resolved quote hdue hquote hfinite => exact ⟨quote, hquote, rfl, (h hdue quote hquote).2 hfinite⟩
    · intro hdue hlate
      generalize pending.settle snapshots now = settlement at hsettles ⊢
      cases hsettles with
      | early hearly => exact absurd hearly hdue
      | unquoted _ _ hopen => exact absurd hopen (Scalar.not_lt_of_le (Scalar.Comparable.lt_iff.mp hlate).1)
      | expired => rfl
      | dropped quote _ hquote => exact absurd hlate (h hdue quote hquote).1
      | resolved quote _ hquote => exact absurd hlate (h hdue quote hquote).1
  · rintro ⟨hpriced, hoverdue⟩ hdue quote hquote
    replace hoverdue := hoverdue hdue
    generalize pending.settle snapshots now = settlement at hsettles hpriced hoverdue
    cases hsettles with
    | early hearly => exact absurd hearly hdue
    | unquoted _ hnone => cases hquote.symm.trans hnone
    | expired _ hnone => cases hquote.symm.trans hnone
    | dropped other _ hother hfinite =>
      cases hquote.symm.trans hother
      refine ⟨fun hlate => ?_, fun h => ?_⟩
      · cases hoverdue hlate
      · rw [hfinite] at h
        cases h
    | resolved other _ hother hfinite =>
      cases hquote.symm.trans hother
      refine ⟨fun hlate => ?_, fun _ => ?_⟩
      · cases hoverdue hlate
      · obtain ⟨used, hused, -, hwindow⟩ := hpriced _ rfl
        cases hquote.symm.trans hused
        exact hwindow

end Snapshot.PendingHorizonObservation

/-- What one policy of an evaluation did: the market it chose, the price it entered at and its signal. -/
structure PolicyEntry (F : Type) where
  exchange : String
  symbol : String
  entryPrice : F
  signal : F
  actionable : Bool

namespace PolicyEntry
variable {policy : PolicyEntry F} {snapshots : List (MarketSnapshot F)}
  {roundTripCostBps dueAt expiresAt : F}

def holds (policy : PolicyEntry F) : Bool := !policy.actionable || decide (Scalar.abs policy.signal < 0.2)

def rawReturnBps (policy : PolicyEntry F) (observed : MarketSnapshot F) : F :=
  (observed.price / policy.entryPrice - 1.0) * 10000.0

/-- The quote that a policy is priced by, of those that do not hold. -/
def quote (policy : PolicyEntry F) (snapshots : List (MarketSnapshot F)) : Option (MarketSnapshot F) :=
  if policy.holds || !Scalar.isFinite policy.entryPrice || decide (policy.entryPrice ≤ 0.0) then none
  else (exactMarketSnapshot snapshots policy.exchange policy.symbol).filter fun observed =>
    Scalar.isFinite (policy.rawReturnBps observed)

/-- A hold needs no quote. -/
def Answered (policy : PolicyEntry F) (snapshots : List (MarketSnapshot F)) : Prop :=
  policy.holds = true ∨ (policy.quote snapshots).isSome = true

instance : Decidable (policy.Answered snapshots) := inferInstanceAs (Decidable (_ ∨ _))

def netReturnBps (policy : PolicyEntry F) (snapshots : List (MarketSnapshot F)) (roundTripCostBps : F) :
    Option F :=
  policyNetReturnBps snapshots policy.exchange policy.symbol policy.entryPrice policy.signal policy.actionable
    roundTripCostBps

theorem netReturnBps_eq (policy : PolicyEntry F) (snapshots : List (MarketSnapshot F)) (roundTripCostBps : F) :
    policy.netReturnBps snapshots roundTripCostBps =
      if policy.holds then some 0.0
      else (policy.quote snapshots).map fun observed => directionalNetReturnBps policy.signal
        policy.actionable (policy.rawReturnBps observed) roundTripCostBps := by
  unfold netReturnBps policyNetReturnBps quote
  change (if policy.holds then _ else _) = _
  cases policy.holds with
  | true => rfl
  | false =>
    simp only [Bool.false_eq_true, if_false, Bool.false_or]
    cases !Scalar.isFinite policy.entryPrice || decide (policy.entryPrice ≤ 0.0) with
    | true => rfl
    | false =>
      cases exactMarketSnapshot snapshots policy.exchange policy.symbol with
      | none => rfl
      | some observed =>
        change (if Scalar.isFinite (policy.rawReturnBps observed) then some _ else none) = _
        rw [if_neg Bool.false_ne_true, Option.filter_some]
        split
        · rfl
        · rfl

/-- A policy has a markout exactly when it holds or its market has a quote for it. -/
theorem netReturnBps_isSome (roundTripCostBps : F) : (policy.netReturnBps snapshots roundTripCostBps).isSome = true ↔
    policy.Answered snapshots := by
  rw [netReturnBps_eq, Answered]
  cases policy.holds with
  | true => simp
  | false => simp

/-- A return is none for a hold, or that at a quote of the window. -/
inductive EarnedIn (policy : PolicyEntry F) (snapshots : List (MarketSnapshot F))
    (roundTripCostBps dueAt expiresAt : F) : F → Prop
  | hold (hholds : policy.holds = true) : EarnedIn policy snapshots roundTripCostBps dueAt expiresAt 0.0
  | quoted (quote : MarketSnapshot F) (hquote : policy.quote snapshots = some quote)
    (hwindow : quote.InWindow dueAt expiresAt) :
    EarnedIn policy snapshots roundTripCostBps dueAt expiresAt
      (directionalNetReturnBps policy.signal policy.actionable (policy.rawReturnBps quote) roundTripCostBps)

theorem holds_eq_false {quote : MarketSnapshot F} (h : policy.quote snapshots = some quote) :
    policy.holds = false := by
  cases hholds : policy.holds with
  | false => rfl
  | true =>
    rw [PolicyEntry.quote, hholds] at h
    cases h

theorem EarnedIn.window {netReturnBps : F} {quote : MarketSnapshot F}
    (h : policy.EarnedIn snapshots roundTripCostBps dueAt expiresAt netReturnBps)
    (hquote : policy.quote snapshots = some quote) : quote.InWindow dueAt expiresAt := by
  cases h with
  | hold hholds => cases hholds.symm.trans (holds_eq_false hquote)
  | quoted other hother hwindow =>
    cases hother.symm.trans hquote
    exact hwindow

/-- Whatever a policy may have earned, it earned in the window exactly when its quote was fetched there. -/
theorem earnedIn_iff (roundTripCostBps : F) :
    (∀ netReturnBps, policy.netReturnBps snapshots roundTripCostBps = some netReturnBps →
      policy.EarnedIn snapshots roundTripCostBps dueAt expiresAt netReturnBps) ↔
    ∀ quote ∈ policy.quote snapshots, quote.InWindow dueAt expiresAt := by
  rw [netReturnBps_eq]
  constructor
  · intro h quote hquote
    rw [holds_eq_false hquote, Option.mem_def.mp hquote] at h
    exact (h _ rfl).window hquote
  · intro h netReturnBps hnet
    cases hholds : policy.holds with
    | true =>
      rw [hholds] at hnet
      cases hnet
      exact .hold hholds
    | false =>
      rw [hholds, if_neg Bool.false_ne_true] at hnet
      obtain ⟨quote, hquote, rfl⟩ := Option.map_eq_some_iff.mp hnet
      exact .quoted quote hquote (h quote hquote)

end PolicyEntry

namespace QuantPendingEvaluation
variable {pending : QuantPendingEvaluation F} {config : TradingConfig F}
  {snapshots : List (MarketSnapshot F)} {now : F}

/-- The policy of an arm, on its own market where it named one. -/
def policy (pending : QuantPendingEvaluation F) (prediction : QuantPrediction F) : PolicyEntry F :=
  { exchange := if prediction.exchange.isEmpty then pending.exchange else prediction.exchange
    symbol := if prediction.symbol.isEmpty then pending.symbol else prediction.symbol
    entryPrice := if 0.0 < prediction.entryPrice then prediction.entryPrice else pending.entryPrice
    signal := prediction.signal
    actionable := prediction.actionable }

def llmPolicy (pending : QuantPendingEvaluation F) : Option (PolicyEntry F) :=
  pending.llmSignal.map fun signal =>
    { exchange := if pending.llmExchange.isEmpty then pending.exchange else pending.llmExchange
      symbol := if pending.llmSymbol.isEmpty then pending.symbol else pending.llmSymbol
      entryPrice := if 0.0 < pending.llmEntryPrice then pending.llmEntryPrice else pending.entryPrice
      signal
      actionable := pending.llmActionable }

/-- The policies that are priced when an evaluation is resolved. -/
def policies (pending : QuantPendingEvaluation F) : List (PolicyEntry F) :=
  pending.predictions.map pending.policy ++ pending.llmPolicy.toList

/-- The active arm can be priced, and the LLM where it was asked. -/
def Answered (pending : QuantPendingEvaluation F) (snapshots : List (MarketSnapshot F)) : Prop :=
  (∃ prediction ∈ pending.predictions, prediction.parameterId = pending.activeParameterId ∧
    (pending.policy prediction).Answered snapshots) ∧
    ∀ policy ∈ pending.llmPolicy, policy.Answered snapshots

/-- `round_trip_cost_bps` of a resolution. -/
def roundTripCostBps (config : TradingConfig F) : F :=
  2.0 * (config.estimatedFeeBps + config.estimatedSlippageBps)

theorem candidateOutcome_eq (pending : QuantPendingEvaluation F) (snapshots : List (MarketSnapshot F))
    (cost : F) (prediction : QuantPrediction F) : pending.candidateOutcome snapshots cost prediction =
      ((pending.policy prediction).netReturnBps snapshots cost).map fun netReturnBps =>
        { parameterId := prediction.parameterId
          exchange := (pending.policy prediction).exchange
          symbol := (pending.policy prediction).symbol
          actionable := prediction.actionable
          netReturnBps } := rfl

theorem llmNetReturnBps_eq (pending : QuantPendingEvaluation F) (snapshots : List (MarketSnapshot F))
    (cost : F) : pending.llmNetReturnBps snapshots cost =
      pending.llmPolicy.bind fun policy => policy.netReturnBps snapshots cost := by
  unfold llmNetReturnBps llmPolicy
  cases pending.llmSignal with
  | none => rfl
  | some signal => rfl

private theorem find?_active_isSome (cost : F) :
    ((pending.predictions.filterMap (pending.candidateOutcome snapshots cost)).find? fun outcome =>
      outcome.parameterId == pending.activeParameterId).isSome = true ↔
    ∃ prediction ∈ pending.predictions, prediction.parameterId = pending.activeParameterId ∧
      (pending.policy prediction).Answered snapshots := by
  simp only [List.find?_isSome, List.mem_filterMap, beq_iff_eq, candidateOutcome_eq, Option.map_eq_some_iff]
  constructor
  · rintro ⟨outcome, ⟨prediction, hprediction, netReturnBps, hnet, rfl⟩, hid⟩
    exact ⟨prediction, hprediction, hid, (PolicyEntry.netReturnBps_isSome cost).mp (Option.isSome_of_eq_some hnet)⟩
  · rintro ⟨prediction, hprediction, hid, hanswered⟩
    obtain ⟨netReturnBps, hnet⟩ := Option.isSome_iff_exists.mp
      ((PolicyEntry.netReturnBps_isSome cost).mpr hanswered)
    exact ⟨_, ⟨prediction, hprediction, netReturnBps, hnet, rfl⟩, hid⟩

private theorem llm_answered_iff {cost : F} :
    (pending.llmSignal.isSome && (pending.llmNetReturnBps snapshots cost).isNone) = false ↔
      ∀ policy ∈ pending.llmPolicy, policy.Answered snapshots := by
  rw [llmNetReturnBps_eq]
  have hasked : pending.llmSignal.isSome = pending.llmPolicy.isSome := by simp [llmPolicy]
  rw [hasked]
  cases pending.llmPolicy with
  | none => simp
  | some policy =>
    simp only [Option.isSome_some, Bool.true_and, Option.bind_some, Option.mem_some_iff, forall_eq']
    rw [← PolicyEntry.netReturnBps_isSome cost]
    cases policy.netReturnBps snapshots cost <;> simp

/-- What becomes of an evaluation, by its times and whether its policies can be priced. -/
inductive Settles (pending : QuantPendingEvaluation F) (config : TradingConfig F)
    (snapshots : List (MarketSnapshot F)) (now : F) : Settlement F → Prop
  | early (hearly : now < pending.dueAt) : Settles pending config snapshots now .waiting
  | unanswered (hdue : ¬ now < pending.dueAt) (hanswered : ¬ pending.Answered snapshots)
    (hopen : now < pending.expiresAt) : Settles pending config snapshots now .waiting
  | expired (hdue : ¬ now < pending.dueAt) (hanswered : ¬ pending.Answered snapshots)
    (hexpired : ¬ now < pending.expiresAt) : Settles pending config snapshots now .expired
  | resolved (evaluation : QuantResolvedEvaluation F) (hdue : ¬ now < pending.dueAt)
    (hanswered : pending.Answered snapshots)
    (houtcomes : evaluation.candidateOutcomes =
      pending.predictions.filterMap (pending.candidateOutcome snapshots (roundTripCostBps config)))
    (hnet : evaluation.llmNetReturnBps = pending.llmNetReturnBps snapshots (roundTripCostBps config)) :
    Settles pending config snapshots now (.resolved evaluation)

private theorem unresolved_settles (hdue : ¬ now < pending.dueAt) (hanswered : ¬ pending.Answered snapshots) :
    pending.Settles config snapshots now (if now < pending.expiresAt then .waiting else .expired) := by
  split
  · rename_i hopen
    exact .unanswered hdue hanswered hopen
  · rename_i hexpired
    exact .expired hdue hanswered hexpired

theorem settle_settles (pending : QuantPendingEvaluation F) (config : TradingConfig F)
    (snapshots : List (MarketSnapshot F)) (now : F) :
    pending.Settles config snapshots now (pending.settle config snapshots now) := by
  unfold settle
  dsimp only
  split
  · rename_i hearly
    exact .early hearly
  · rename_i hdue
    split
    · rename_i hnone
      apply unresolved_settles hdue
      rintro ⟨hactive, -⟩
      have hsome := (find?_active_isSome (roundTripCostBps config)).mpr hactive
      rw [roundTripCostBps, hnone] at hsome
      cases hsome
    · rename_i active hactive
      split
      · rename_i hllm
        apply unresolved_settles hdue
        rintro ⟨-, hanswered⟩
        rw [llm_answered_iff.mpr hanswered] at hllm
        cases hllm
      · rename_i hllm
        refine .resolved _ hdue ⟨?_, ?_⟩ rfl rfl
        · exact (find?_active_isSome _).mp (Option.isSome_of_eq_some hactive)
        · exact llm_answered_iff.mp (Bool.eq_false_iff.mpr hllm)

/-- Every return of a resolved evaluation was earned in the window of the pending one. -/
structure EarnedIn (pending : QuantPendingEvaluation F) (config : TradingConfig F)
    (snapshots : List (MarketSnapshot F)) (evaluation : QuantResolvedEvaluation F) : Prop where
  outcomes : evaluation.candidateOutcomes =
    pending.predictions.filterMap (pending.candidateOutcome snapshots (roundTripCostBps config))
  llmNetReturn : evaluation.llmNetReturnBps = pending.llmNetReturnBps snapshots (roundTripCostBps config)
  arms : ∀ prediction ∈ pending.predictions, ∀ outcome,
    pending.candidateOutcome snapshots (roundTripCostBps config) prediction = some outcome →
      (pending.policy prediction).EarnedIn snapshots (roundTripCostBps config) pending.dueAt pending.expiresAt
        outcome.netReturnBps
  llm : ∀ policy ∈ pending.llmPolicy, ∀ netReturnBps,
    policy.netReturnBps snapshots (roundTripCostBps config) = some netReturnBps →
      policy.EarnedIn snapshots (roundTripCostBps config) pending.dueAt pending.expiresAt netReturnBps

theorem earnedIn_iff {evaluation : QuantResolvedEvaluation F}
    (houtcomes : evaluation.candidateOutcomes =
      pending.predictions.filterMap (pending.candidateOutcome snapshots (roundTripCostBps config)))
    (hnet : evaluation.llmNetReturnBps = pending.llmNetReturnBps snapshots (roundTripCostBps config)) :
    pending.EarnedIn config snapshots evaluation ↔
    ∀ policy ∈ pending.policies, ∀ quote ∈ policy.quote snapshots,
      quote.InWindow pending.dueAt pending.expiresAt := by
  have harms (prediction : QuantPrediction F) : (∀ outcome,
      pending.candidateOutcome snapshots (roundTripCostBps config) prediction = some outcome →
        (pending.policy prediction).EarnedIn snapshots (roundTripCostBps config) pending.dueAt
          pending.expiresAt outcome.netReturnBps) ↔
      ∀ quote ∈ (pending.policy prediction).quote snapshots, quote.InWindow pending.dueAt pending.expiresAt := by
    rw [← PolicyEntry.earnedIn_iff (roundTripCostBps config), candidateOutcome_eq]
    simp only [Option.map_eq_some_iff, forall_exists_index, and_imp, forall_apply_eq_imp_iff₂]
  constructor
  · rintro ⟨-, -, hpredictions, hllm⟩ policy hpolicy
    rcases List.mem_append.mp hpolicy with hpolicy | hpolicy
    · obtain ⟨prediction, hprediction, rfl⟩ := List.mem_map.mp hpolicy
      exact (harms prediction).mp (hpredictions prediction hprediction)
    · exact (PolicyEntry.earnedIn_iff _).mp (hllm policy (Option.mem_toList.mp hpolicy))
  · intro h
    refine ⟨houtcomes, hnet, ?_, ?_⟩
    · intro prediction hprediction
      exact (harms prediction).mpr (h _ (List.mem_append_left _ (List.mem_map_of_mem hprediction)))
    · intro policy hpolicy
      exact (PolicyEntry.earnedIn_iff _).mpr (h policy (List.mem_append_right _ (Option.mem_toList.mpr hpolicy)))

/-- An evaluation is resolved at quotes of its window, and expired where it is overdue. -/
structure ResolvesInTime (pending : QuantPendingEvaluation F) (config : TradingConfig F)
    (snapshots : List (MarketSnapshot F)) (now : F) : Prop where
  priced : ∀ evaluation, pending.settle config snapshots now = .resolved evaluation →
    pending.EarnedIn config snapshots evaluation
  overdue : ¬ now < pending.dueAt → pending.expiresAt < now → pending.settle config snapshots now = .expired

/-- Where a due evaluation can be priced, it is not overdue and its quotes were fetched in its window. -/
def QuotedInTime (pending : QuantPendingEvaluation F) (snapshots : List (MarketSnapshot F)) (now : F) : Prop :=
  ¬ now < pending.dueAt → pending.Answered snapshots → ¬ pending.expiresAt < now ∧
    ∀ policy ∈ pending.policies, ∀ quote ∈ policy.quote snapshots,
      quote.InWindow pending.dueAt pending.expiresAt

instance : Decidable (pending.Answered snapshots) := inferInstanceAs (Decidable (_ ∧ _))

instance : Decidable (pending.QuotedInTime snapshots now) := inferInstanceAs (Decidable (_ → _ → _))

theorem quotedInTime_iff [Scalar.Comparable F] :
    pending.QuotedInTime snapshots now ↔ pending.ResolvesInTime config snapshots now := by
  have hsettles := settle_settles pending config snapshots now
  constructor
  · intro h
    refine ⟨?_, ?_⟩
    · intro evaluation hsettle
      rw [hsettle] at hsettles
      cases hsettles with
      | resolved _ hdue hanswered houtcomes hnet =>
        exact (earnedIn_iff houtcomes hnet).mpr (h hdue hanswered).2
    · intro hdue hlate
      generalize pending.settle config snapshots now = settlement at hsettles ⊢
      cases hsettles with
      | early hearly => exact absurd hearly hdue
      | unanswered _ _ hopen => exact absurd hopen (Scalar.not_lt_of_le (Scalar.Comparable.lt_iff.mp hlate).1)
      | expired => rfl
      | resolved _ _ hanswered => exact absurd hlate (h hdue hanswered).1
  · rintro ⟨hpriced, hoverdue⟩ hdue hanswered
    replace hoverdue := hoverdue hdue
    generalize pending.settle config snapshots now = settlement at hsettles hpriced hoverdue
    cases hsettles with
    | early hearly => exact absurd hearly hdue
    | unanswered _ hnot => exact absurd hanswered hnot
    | expired _ hnot => exact absurd hanswered hnot
    | resolved evaluation _ _ houtcomes hnet =>
      refine ⟨fun hlate => ?_, (earnedIn_iff houtcomes hnet).mp (hpriced evaluation rfl)⟩
      cases hoverdue hlate

end QuantPendingEvaluation

end Gail.Trading
