import Gail.Trading.SettledRuns

/-! What can demote quant: evaluations that carry a return of the LLM, which the engine stops recording
once quant is primary. -/
namespace Gail.Trading
open Gail.Library QuantMigrationState
variable {F : Type} [Scalar F]

/-- `evaluate` asks for the LLM's consensus exactly while quant is not primary. -/
def AsEngine (config : TradingConfig F) (state : QuantMigrationState F) : QuantAction F → Prop
  | .recordEvaluation _ _ context =>
    context.llmConsensus.isNone = (config.quantShadowEnabled && state.isPrimary)
  | _ => True

instance (config : TradingConfig F) (state : QuantMigrationState F) (action : QuantAction F) :
    Decidable (AsEngine config state action) :=
  match action with
  | .recordEvaluation _ _ _ => inferInstanceAs (Decidable (_ = _))
  | .start _ | .restore | .resolveDue _ _ _ | .nativeValidation _ _ _ => isTrue trivial

/-- The migration evaluations of a stretch of actions. -/
def evaluationsFrom (config : TradingConfig F) (state : QuantMigrationState F)
    (stretch : List (QuantAction F)) : List (MigrationEvaluation F) :=
  trace (step config) (evaluated config) state stretch

/-- The engine resolves a window and a streak of evaluations, all of the active arm and at a loss, and
tuning keeps that arm. -/
structure LosingStretch (config : TradingConfig F) (state : QuantMigrationState F)
    (stretch : List (QuantAction F)) : Prop where
  engine : Along (step config) (AsEngine config) state stretch
  oneArm : ∀ evaluation ∈ evaluationsFrom config state stretch, evaluation.adjustment = none
  losing : ∀ evaluation ∈ evaluationsFrom config state stretch, ∀ item ∈ evaluation.resolved,
    item.activeParameterId = state.activeParameterId ∧ item.activeQuantNetReturnBps < 0.0
  enough : config.quantMigrationWindowSamples + config.quantMigrationRequiredStreak ≤
    ((evaluationsFrom config state stretch).flatMap MigrationEvaluation.resolved).length

/-- The evaluations of an arm in the ledger that carry a return of the LLM. -/
def benchmarks (parameterId : String) (state : QuantMigrationState F) : Nat :=
  state.resolved.countP fun item =>
    item.llmNetReturnBps.isSome && item.activeParameterId == parameterId

variable {config : NormalisedConfig F} {state : QuantMigrationState F}

omit [Scalar F] in
private theorem paired_length (config : TradingConfig F) (state : QuantMigrationState F) :
    (state.paired config).length =
      min config.quantMigrationWindowSamples (benchmarks state.activeParameterId state) := by
  rw [paired, List.length_take, List.filter_reverse, List.length_reverse, ← List.countP_eq_length_filter]
  rfl

omit [Scalar F] in
private theorem benchmarked_iff {evaluation : MigrationEvaluation F} :
    evaluation.benchmarked config.toTradingConfig = true ↔
      config.quantMigrationMinSamples ≤ benchmarks evaluation.parameterId evaluation.tuned := by
  have hw := config.minSamples_le_window
  rw [MigrationEvaluation.benchmarked, decide_eq_true_eq, paired_length]
  unfold MigrationEvaluation.parameterId
  omega

private theorem ballot_eq_refute {evaluation : MigrationEvaluation F}
    (hq : evaluation.qualified config.toTradingConfig = false) :
    evaluation.ballot config.toTradingConfig = .refute ↔
      config.quantMigrationMinSamples ≤ benchmarks evaluation.parameterId evaluation.tuned := by
  rw [← benchmarked_iff, MigrationEvaluation.ballot, hq]
  cases evaluation.benchmarked config.toTradingConfig with
  | true => exact iff_of_true rfl rfl
  | false => exact iff_of_false (fun h => by cases h) (fun h => by cases h)

private theorem ballot_eq_abstain {evaluation : MigrationEvaluation F}
    (hb : evaluation.benchmarked config.toTradingConfig ≠ true) :
    evaluation.ballot config.toTradingConfig = .abstain := by
  have hq : evaluation.qualified config.toTradingConfig ≠ true := by
    intro hq
    simp only [MigrationEvaluation.qualified, qualified, Bool.and_eq_true] at hq
    exact hb hq.1.1.1.1.1.1.1
  rw [MigrationEvaluation.ballot, if_neg hq, if_neg hb]

omit [Scalar F] in
/-- Without tuning every evaluation is of the arm at the start. -/
private theorem parameterId_of_untuned {evaluations : List (MigrationEvaluation F)} {parameterId : String}
    (hl : Linked evaluations) (hh : ∀ first ∈ evaluations.head?, first.previousParameterId = parameterId)
    (hc : ∀ evaluation ∈ evaluations, evaluation.Chosen)
    (hn : ∀ evaluation ∈ evaluations, evaluation.adjustment = none) :
    ∀ evaluation ∈ evaluations, evaluation.parameterId = parameterId := by
  induction evaluations with
  | nil => intro evaluation hm; cases hm
  | cons first later ih =>
    have hfirst : first.parameterId = parameterId := by
      rw [(hc first List.mem_cons_self).adjustment_eq_none_iff.mp (hn first List.mem_cons_self)]
      exact hh first rfl
    obtain ⟨hlink, hlater⟩ := List.isChain_cons.mp hl
    intro evaluation hm
    rcases List.mem_cons.mp hm with rfl | hm
    · exact hfirst
    · refine ih hlater (fun next hnext => (hlink next hnext).trans hfirst) ?_ ?_ evaluation hm
      · exact fun a ha => hc a (List.mem_cons_of_mem _ ha)
      · exact fun a ha => hn a (List.mem_cons_of_mem _ ha)

/-- The controller leaves primary within a stretch exactly if its evaluations refute it. -/
theorem demoted_iff_refuted (hc : state.Consistent config) (hp : state.isPrimary = true)
    (stretch : List (QuantAction F)) :
    (∃ front rest, stretch = front ++ rest ∧
        (run (step config.toTradingConfig) state front).isPrimary = false) ↔
      Switch.Refuted config.quantMigrationRequiredStreak
        (MigrationEvaluation.ballot config.toTradingConfig) state.demotionStreak
        (evaluationsFrom config.toTradingConfig state stretch) := by
  refine Iff.trans ?_ (Switch.turned_off_iff config.requiredStreak_pos hc.within hp)
  constructor
  · rintro ⟨front, rest, rfl, ho⟩
    refine ⟨evaluationsFrom config.toTradingConfig state front, _, trace_append _ _ _ _, ?_⟩
    rw [evaluationsFrom, ← run_switch hc]
    exact ho
  · rintro ⟨front, rest, he, ho⟩
    obtain ⟨taken, left, rfl, ht⟩ := trace_split _ he
    refine ⟨taken, left, rfl, ?_⟩
    rw [← ht, ← run_switch hc] at ho
    exact ho

/-- Over a losing stretch of the engine quant is demoted exactly if, in evaluations one after another
that do not pass the guard, the ledger holds enough evaluations of the arm with a return of the LLM as
often as a demotion requires; a streak at the start counts for the evaluations that begin the stretch. -/
theorem losing_stretch_demoted_iff (config : NormalisedConfig F) (before stretch : List (QuantAction F))
    (hp : (reached config.toTradingConfig before).isPrimary = true)
    (hl : LosingStretch config.toTradingConfig (reached config.toTradingConfig before) stretch) :
    (∃ front rest, stretch = front ++ rest ∧
        (run (step config.toTradingConfig) (reached config.toTradingConfig before) front).isPrimary
          = false) ↔
      ∃ front block rest,
        evaluationsFrom config.toTradingConfig (reached config.toTradingConfig before) stretch
          = front ++ block ++ rest ∧
        (∀ evaluation ∈ block, evaluation.qualified config.toTradingConfig = false) ∧
        config.quantMigrationRequiredStreak ≤
          (block.countP fun evaluation => decide (config.quantMigrationMinSamples ≤ benchmarks
            (reached config.toTradingConfig before).activeParameterId evaluation.tuned)) +
          if front = [] then (reached config.toTradingConfig before).demotionStreak else 0 := by
  have hc := reached_consistent config before
  rw [demoted_iff_refuted hc hp]
  obtain ⟨hlinked, hhead⟩ := run_linked hc stretch
  have harm := parameterId_of_untuned hlinked hhead (run_chosen hc stretch) hl.oneArm
  refine exists_congr fun front => exists_congr fun block => exists_congr fun rest =>
    and_congr_right fun he => ?_
  have hvotes : (∀ evaluation ∈ block, evaluation.ballot config.toTradingConfig ≠ .confirm) ↔
      ∀ evaluation ∈ block, evaluation.qualified config.toTradingConfig = false :=
    forall₂_congr fun evaluation _ => by
      rw [ne_eq, MigrationEvaluation.ballot_eq_confirm, Bool.not_eq_true]
  rw [hvotes]
  refine and_congr_right fun hq => ?_
  have hcount : (block.countP fun evaluation =>
        decide (evaluation.ballot config.toTradingConfig = .refute))
      = block.countP fun evaluation => decide (config.quantMigrationMinSamples ≤ benchmarks
        (reached config.toTradingConfig before).activeParameterId evaluation.tuned) := by
    refine List.countP_congr fun evaluation hm => ?_
    have hin : evaluation ∈ evaluationsFrom config.toTradingConfig
        (reached config.toTradingConfig before) stretch := by
      rw [he]
      exact List.mem_append_left _ (List.mem_append_right _ hm)
    rw [decide_eq_true_eq, decide_eq_true_eq, ballot_eq_refute (hq evaluation hm),
      harm evaluation hin]
  rw [hcount]

section Prospects

/-- The evaluations with a return of the LLM that the ledger holds or the queue may still bring. -/
def prospects (state : QuantMigrationState F) : Nat :=
  state.resolved.countP (fun item => item.llmNetReturnBps.isSome) +
    state.pending.countP fun pending => pending.llmSignal.isSome

private theorem settle_asked {pending : QuantPendingEvaluation F} {config : TradingConfig F}
    {snapshots : List (MarketSnapshot F)} {now : F} {item : QuantResolvedEvaluation F}
    (h : pending.settle config snapshots now = .resolved item)
    (hi : item.llmNetReturnBps.isSome = true) : pending.llmSignal.isSome = true := by
  have hreturn : ∀ cost, (pending.llmNetReturnBps snapshots cost).isSome = true →
      pending.llmSignal.isSome = true := by
    intro cost hc
    rw [QuantPendingEvaluation.llmNetReturnBps] at hc
    cases hsignal : pending.llmSignal with
    | none => rw [hsignal] at hc; cases hc
    | some signal => rfl
  unfold QuantPendingEvaluation.settle at h
  dsimp only at h
  repeat' split at h
  all_goals cases h
  exact hreturn _ hi

private theorem settled_le (config : TradingConfig F) (snapshots : List (MarketSnapshot F)) (now : F)
    (queue : List (QuantPendingEvaluation F)) :
    (queue.filterMap fun pending => (pending.settle config snapshots now).evaluation).countP
          (fun item => item.llmNetReturnBps.isSome) +
        (queue.filter fun pending => (pending.settle config snapshots now).isWaiting).countP
          (fun pending => pending.llmSignal.isSome) ≤
      queue.countP fun pending => pending.llmSignal.isSome := by
  induction queue with
  | nil => exact Nat.le_refl 0
  | cons pending queue ih =>
    rw [List.countP_cons]
    cases hs : pending.settle config snapshots now with
    | waiting =>
      rw [List.filterMap_cons_none (by rw [hs]; rfl), List.filter_cons_of_pos (by rw [hs]; rfl),
        List.countP_cons]
      omega
    | expired =>
      rw [List.filterMap_cons_none (by rw [hs]; rfl), List.filter_cons_of_neg (by rw [hs]; exact Bool.false_ne_true)]
      omega
    | resolved item =>
      have hasked := settle_asked hs
      rw [List.filterMap_cons_some (b := item) (by rw [hs]; rfl),
        List.filter_cons_of_neg (by rw [hs]; exact Bool.false_ne_true), List.countP_cons]
      cases hi : item.llmNetReturnBps.isSome with
      | true =>
        rw [hasked hi, if_pos rfl]
        omega
      | false =>
        rw [if_neg Bool.false_ne_true]
        omega

private theorem countP_latest_le {α : Type} (p : α → Bool) (size : Nat) (items : List α) :
    (latest size items).countP p ≤ items.countP p :=
  (List.drop_sublist _ _).countP_le

theorem settleDue_prospects (config : TradingConfig F) (state : QuantMigrationState F)
    (snapshots : List (MarketSnapshot F)) (now : F) :
    prospects (state.settleDue config snapshots now) ≤ prospects state := by
  have hsettled := settled_le config snapshots now state.pending
  have hlatest := countP_latest_le (fun item : QuantResolvedEvaluation F => item.llmNetReturnBps.isSome)
    config.quantShadowLedgerSize (state.resolved ++ state.newlyResolved config snapshots now)
  rw [List.countP_append, newlyResolved] at hlatest
  unfold prospects settleDue newlyResolved
  dsimp only
  omega

omit [Scalar F] in
private theorem prospects_congr {next : QuantMigrationState F} (hr : next.resolved = state.resolved)
    (hp : next.pending = state.pending) : prospects next = prospects state := by
  rw [prospects, prospects, hr, hp]

/-- Resolving brings no new prospects, and the evaluation it makes sees at most those there were. -/
theorem resolveDue_prospects (config : TradingConfig F) (state : QuantMigrationState F)
    (snapshots : List (MarketSnapshot F)) (now : F) :
    prospects (state.resolveDue config snapshots now).2 ≤ prospects state ∧
      ∀ evaluation ∈ state.normalize.migrationEvaluation config snapshots now,
        prospects evaluation.tuned ≤ prospects state := by
  have hn : prospects state.normalize = prospects state := prospects_congr rfl rfl
  have hs := settleDue_prospects config state.normalize snapshots now
  have ht := maybeRetune_spec config (state.normalize.settleDue config snapshots now)
  have htuned := prospects_congr ht.resolved ht.pending
  unfold resolveDue resolveNormalized migrationEvaluation
  dsimp only
  split
  · exact ⟨hn ▸ hs, fun _ h => by cases h⟩
  · obtain ⟨hr, hp⟩ := evaluateMigration_ledgers config
      ((state.normalize.settleDue config snapshots now).maybeRetune config).2 now
    refine ⟨?_, ?_⟩
    · rw [prospects_congr hr hp]
      omega
    · intro evaluation he
      rw [← Option.some.inj he]
      dsimp only
      omega

private theorem recordEvaluation_prospects {config : TradingConfig F} {evaluationId : String}
    {signal : QuantSignal F} {context : QuantEvaluationContext F}
    (hl : context.llmConsensus.isNone = true) :
    prospects (state.recordEvaluation config evaluationId signal context).2 ≤ prospects state := by
  have hnone : context.llmSignal = none := by
    rw [QuantEvaluationContext.llmSignal, Option.isNone_iff_eq_none.mp hl]
    rfl
  unfold recordEvaluation recordNormalized
  dsimp only
  repeat' split
  · exact Nat.le_refl _
  · exact Nat.le_refl _
  · exact Nat.le_refl _
  · refine Nat.add_le_add_left ((countP_latest_le _ _ _).trans ?_) _
    rw [List.countP_append, List.countP_singleton, hnone]
    exact Nat.le_refl _

/-- While quant is primary, the engine brings no new prospects. -/
private theorem step_prospects {action : QuantAction F} {config : TradingConfig F}
    (hp : state.isPrimary = true) (ha : AsEngine config state action) :
    prospects (state.step config action) ≤ prospects state ∧
      ∀ evaluation ∈ state.evaluated config action,
        prospects evaluation.tuned ≤ prospects state := by
  have hn : prospects state.normalize = prospects state := prospects_congr rfl rfl
  cases action with
  | start now =>
    obtain ⟨initializedAt, he⟩ := initializeState_eq state now
    refine ⟨?_, fun _ h => by cases h⟩
    simp only [step]
    split
    · rw [he]
      exact Nat.le_refl _
    · exact Nat.le_refl _
  | restore => exact ⟨hn.le, fun _ h => by cases h⟩
  | resolveDue snapshots now persisted =>
    obtain ⟨hstep, hevaluation⟩ := resolveDue_prospects config state snapshots now
    simp only [step, evaluated, resolveQuantEvaluations]
    refine ⟨?_, ?_⟩
    · split
      · exact Nat.le_refl _
      · rcases afterPersisting_eq state persisted (state.resolveDue config snapshots now)
          with he | he
        · rw [he]
          exact hstep
        · rw [he]
    · split
      · exact hevaluation
      · exact fun _ h => by cases h
  | recordEvaluation evaluationId signal context =>
    refine ⟨?_, fun _ h => by cases h⟩
    simp only [step]
    split
    · exact Nat.le_refl _
    · rename_i hrecords
      refine recordEvaluation_prospects (ha.trans ?_)
      cases he : config.quantShadowEnabled with
      | true => rw [hp]; rfl
      | false => rw [he] at hrecords; exact absurd rfl hrecords
  | nativeValidation promotionQualified selectedParameterId now =>
    obtain ⟨validatedId, validatedAt, he⟩ :=
      recordNativeValidation_eq state promotionQualified selectedParameterId now
    refine ⟨?_, fun _ h => by cases h⟩
    simp only [step]
    rw [he]
    exact Nat.le_refl _

omit [Scalar F] in
private theorem benchmarks_le (parameterId : String) (state : QuantMigrationState F) :
    benchmarks parameterId state ≤ prospects state := by
  refine Nat.le_trans ?_ (Nat.le_add_right _ _)
  exact List.countP_mono_left fun item _ hi => (Bool.and_eq_true_iff.mp hi).1

/-- With fewer prospects than the guard asks for samples the engine keeps quant primary for ever,
whatever it earns. -/
theorem unbenchmarked_stays_primary (hc : state.Consistent config) (hp : state.isPrimary = true)
    (hfew : prospects state < config.quantMigrationMinSamples) {actions : List (QuantAction F)}
    (ha : Along (step config.toTradingConfig) (AsEngine config.toTradingConfig) state actions) :
    (run (step config.toTradingConfig) state actions).isPrimary = true := by
  refine (run_invariant _ (I := fun s : QuantMigrationState F => s.Consistent config ∧
    s.isPrimary = true ∧ prospects s < config.quantMigrationMinSamples) ?_ ⟨hc, hp, hfew⟩ ha).2.1
  rintro state action ⟨hc, hp, hfew⟩ ha
  obtain ⟨hless, hseen⟩ := step_prospects hp ha
  have hswitch := (step_spec hc action).1.switch hc.within
  refine ⟨step_consistent hc action, ?_, Nat.lt_of_le_of_lt hless hfew⟩
  cases he : state.evaluated config.toTradingConfig action with
  | none =>
    rw [he] at hswitch
    exact (congrArg Switch.on hswitch).trans hp
  | some evaluation =>
    rw [he] at hswitch
    have hbenchmarks := benchmarks_le evaluation.parameterId evaluation.tuned
    have hsees := hseen evaluation he
    have habstain : evaluation.ballot config.toTradingConfig = .abstain := by
      refine ballot_eq_abstain fun hb => ?_
      have hmin := benchmarked_iff.mp hb
      omega
    apply (congrArg Switch.on hswitch).trans
    rw [Option.elim_some, habstain]
    exact (congrArg Switch.on (if_pos hp)).trans hp

end Prospects

/-- Bitcoin rises until the balanced arm is promoted; tuning waits for more samples than there are. -/
def risenActions : List (QuantAction ℚ) :=
  .start 0 :: (risingCycles 0 10 ++ sampleCycle false 10 74 64)

/-- Then it falls for as many minutes as the window and the streak ask for. -/
def fallingCycles : List (QuantAction ℚ) :=
  (List.range 11).flatMap fun minute => sampleCycle false (11 + minute) (73 - minute) 64

def evidenceConfig : NormalisedConfig ℚ := eagerConfig 10000

private theorem falling_spec :
    (reached evidenceConfig.toTradingConfig risenActions).isPrimary = true ∧
      (reached evidenceConfig.toTradingConfig risenActions).demotionStreak = 0 ∧
      LosingStretch evidenceConfig.toTradingConfig
        (reached evidenceConfig.toTradingConfig risenActions) fallingCycles ∧
      ∀ evaluation ∈ evaluationsFrom evidenceConfig.toTradingConfig
        (reached evidenceConfig.toTradingConfig risenActions) fallingCycles,
        evaluation.qualified evidenceConfig.toTradingConfig = true := by
  obtain ⟨htrace, halong⟩ := started_stretch evidenceConfig rfl
    (risingCycles 0 10 ++ sampleCycle false 10 74 64) fallingCycles
  obtain ⟨hrun, -⟩ := started_run evidenceConfig rfl
    (risingCycles 0 10 ++ sampleCycle false 10 74 64)
  have hspec : ((reached evidenceConfig.toTradingConfig risenActions).isPrimary = true ∧
      (reached evidenceConfig.toTradingConfig risenActions).demotionStreak = 0 ∧
      (reached evidenceConfig.toTradingConfig risenActions).activeParameterId = "balanced-v1") ∧
      ((∀ evaluation ∈ evaluationsFrom evidenceConfig.toTradingConfig
        (reached evidenceConfig.toTradingConfig risenActions) fallingCycles,
        evaluation.adjustment = none ∧
        evaluation.qualified evidenceConfig.toTradingConfig = true ∧
        ∀ item ∈ evaluation.resolved, item.activeParameterId = "balanced-v1" ∧
          item.activeQuantNetReturnBps < 0.0) ∧
      ((evaluationsFrom evidenceConfig.toTradingConfig
        (reached evidenceConfig.toTradingConfig risenActions) fallingCycles).flatMap
          MigrationEvaluation.resolved).length = 11) ∧
      Along (step evidenceConfig.toTradingConfig) (AsEngine evidenceConfig.toTradingConfig)
        (reached evidenceConfig.toTradingConfig risenActions) fallingCycles := by
    rw [evaluationsFrom, risenActions, htrace, halong, hrun]
    decide +kernel
  obtain ⟨⟨hp, hz, ha⟩, ⟨hall, hl⟩, hengine⟩ := hspec
  refine ⟨hp, hz, ⟨hengine, fun e he => (hall e he).1, ?_, hl.ge⟩, fun e he => (hall e he).2.1⟩
  rw [ha]
  exact fun e he => (hall e he).2.2

theorem losing_stretch_demoted_iff_falling :
    (∃ front rest, fallingCycles = front ++ rest ∧
        (run (step evidenceConfig.toTradingConfig)
          (reached evidenceConfig.toTradingConfig risenActions) front).isPrimary = false) ↔
      ∃ front block rest,
        evaluationsFrom evidenceConfig.toTradingConfig
          (reached evidenceConfig.toTradingConfig risenActions) fallingCycles
          = front ++ block ++ rest ∧
        (∀ evaluation ∈ block, evaluation.qualified evidenceConfig.toTradingConfig = false) ∧
        evidenceConfig.quantMigrationRequiredStreak ≤
          (block.countP fun evaluation => decide (evidenceConfig.quantMigrationMinSamples ≤ benchmarks
            (reached evidenceConfig.toTradingConfig risenActions).activeParameterId
              evaluation.tuned)) +
          if front = [] then (reached evidenceConfig.toTradingConfig risenActions).demotionStreak
          else 0 :=
  losing_stretch_demoted_iff evidenceConfig risenActions fallingCycles falling_spec.1
    falling_spec.2.2.1

/-- Eleven losses in a row leave quant primary: the guard keeps passing on the gains from before. -/
theorem losing_stretch_stays_primary :
    (reached evidenceConfig.toTradingConfig risenActions).isPrimary = true ∧
      LosingStretch evidenceConfig.toTradingConfig
        (reached evidenceConfig.toTradingConfig risenActions) fallingCycles ∧
      ¬ ∃ front rest, fallingCycles = front ++ rest ∧
        (run (step evidenceConfig.toTradingConfig)
          (reached evidenceConfig.toTradingConfig risenActions) front).isPrimary = false := by
  obtain ⟨hp, hz, hl, hq⟩ := falling_spec
  refine ⟨hp, hl, ?_⟩
  rw [demoted_iff_refuted (reached_consistent _ _) hp, hz]
  rintro ⟨front, block, rest, he, hall, hcount⟩
  have hnone : block = [] := by
    refine List.eq_nil_iff_forall_not_mem.mpr fun evaluation hm => hall evaluation hm ?_
    refine MigrationEvaluation.ballot_eq_confirm.mpr (hq evaluation ?_)
    rw [he]
    exact List.mem_append_left _ (List.mem_append_right _ hm)
  rw [hnone, List.countP_nil, ite_self] at hcount
  exact absurd hcount (by decide)

end Gail.Trading
