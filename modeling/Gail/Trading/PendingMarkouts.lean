import Gail.Trading.SettledRuns

/-! What becomes of the pending evaluations of the quant controller when what is due is resolved. -/
namespace Gail.Trading
variable {F : Type} [Scalar F]

/-- The evaluation is the markout of a pending one, made at this time. -/
structure QuantResolvedEvaluation.MarkoutOf (evaluation : QuantResolvedEvaluation F)
    (pending : QuantPendingEvaluation F) (now : F) : Prop where
  evaluationId : evaluation.evaluationId = pending.evaluationId
  createdAt : evaluation.createdAt = pending.createdAt
  resolvedAt : evaluation.resolvedAt = now
  activeParameterId : evaluation.activeParameterId = pending.activeParameterId
  llmActionable : evaluation.llmActionable = pending.llmActionable

/-- A queue divided at a time into what is kept of it, the markouts made of it, and a number of
evaluations that have expired: every evaluation goes one way, and the order of the queue is kept. -/
inductive Divides (now : F) : List (QuantPendingEvaluation F) → List (QuantPendingEvaluation F) →
    List (QuantResolvedEvaluation F) → Nat → Prop
  | nil : Divides now [] [] [] 0
  | keep {pending queue kept resolved expired} (hopen : now < pending.dueAt ∨ now < pending.expiresAt) :
    Divides now queue kept resolved expired →
    Divides now (pending :: queue) (pending :: kept) resolved expired
  | resolve {pending queue kept evaluation resolved expired} (hdue : ¬ now < pending.dueAt)
    (hmarkout : QuantResolvedEvaluation.MarkoutOf evaluation pending now) :
    Divides now queue kept resolved expired →
    Divides now (pending :: queue) kept (evaluation :: resolved) expired
  | expire {pending queue kept resolved expired} (hdue : ¬ now < pending.dueAt)
    (hexpired : ¬ now < pending.expiresAt) : Divides now queue kept resolved expired →
    Divides now (pending :: queue) kept resolved (expired + 1)

/-- Resolving what was due has divided the pending queue and extended the ledger by the markouts. -/
structure QuantMigrationState.Resolves (state : QuantMigrationState F) (config : TradingConfig F) (now : F)
    (outcome : QuantUpdate F × QuantMigrationState F) (resolved : List (QuantResolvedEvaluation F)) :
    Prop where
  divided : Divides now state.pending outcome.2.pending resolved outcome.1.expired
  counted : outcome.1.resolved = resolved.length
  complete : outcome.1.resolved + outcome.1.expired + outcome.2.pending.length = state.pending.length
  /-- Of the old ledger and the markouts after it, the newest. -/
  ledger : outcome.2.resolved = latest config.quantShadowLedgerSize (state.resolved ++ resolved)
  bounded : outcome.2.resolved.length ≤ config.quantShadowLedgerSize
  /-- The counter starts from the length of the ledger at least. -/
  total : max state.totalResolved state.resolved.length + outcome.1.resolved ≤ u64Max →
    outcome.2.totalResolved = max state.totalResolved state.resolved.length + outcome.1.resolved

section
variable {pending : QuantPendingEvaluation F} {config : TradingConfig F}
  {snapshots : List (MarketSnapshot F)} {now : F}

omit [Scalar F] in
theorem length_latest {α : Type} (size : Nat) (items : List α) : (latest size items).length ≤ size := by
  unfold latest
  rw [List.length_drop]
  omega

/-- What may become of a pending evaluation at a time. -/
inductive Fate (pending : QuantPendingEvaluation F) (now : F) : Settlement F → Prop
  | waiting (hopen : now < pending.dueAt ∨ now < pending.expiresAt) : Fate pending now .waiting
  | expired (hdue : ¬ now < pending.dueAt) (hexpired : ¬ now < pending.expiresAt) :
    Fate pending now .expired
  | resolved {evaluation} (hdue : ¬ now < pending.dueAt)
    (hmarkout : QuantResolvedEvaluation.MarkoutOf evaluation pending now) :
    Fate pending now (.resolved evaluation)

private theorem unresolved_fate (hdue : ¬ now < pending.dueAt) :
    Fate pending now (if now < pending.expiresAt then .waiting else .expired) := by
  split
  · rename_i hexpires
    exact .waiting (.inr hexpires)
  · rename_i hexpired
    exact .expired hdue hexpired

theorem settle_fate (pending : QuantPendingEvaluation F) (config : TradingConfig F)
    (snapshots : List (MarketSnapshot F)) (now : F) :
    Fate pending now (pending.settle config snapshots now) := by
  unfold QuantPendingEvaluation.settle
  dsimp only
  split
  · rename_i hopen
    exact .waiting (.inl hopen)
  · rename_i hdue
    split
    · exact unresolved_fate hdue
    · split
      · exact unresolved_fate hdue
      · exact .resolved hdue ⟨rfl, rfl, rfl, rfl, rfl⟩

/-- A queue is divided by what each of its evaluations is settled to. -/
theorem divides_settle (config : TradingConfig F) (snapshots : List (MarketSnapshot F)) (now : F)
    (queue : List (QuantPendingEvaluation F)) :
    Divides now queue (queue.filter fun pending => (pending.settle config snapshots now).isWaiting)
      (queue.filterMap fun pending => (pending.settle config snapshots now).evaluation)
      (queue.countP fun pending => (pending.settle config snapshots now).isExpired) := by
  induction queue with
  | nil => exact .nil
  | cons pending queue ih =>
    have hfate := settle_fate pending config snapshots now
    rw [List.filter_cons, List.filterMap_cons, List.countP_cons]
    generalize pending.settle config snapshots now = settlement at hfate
    cases hfate with
    | waiting hopen => exact .keep hopen ih
    | expired hdue hexpired => exact .expire hdue hexpired ih
    | resolved hdue hmarkout => exact .resolve hdue hmarkout ih

theorem Divides.length_add {queue kept : List (QuantPendingEvaluation F)}
    {resolved : List (QuantResolvedEvaluation F)} {expired : Nat}
    (h : Divides now queue kept resolved expired) :
    resolved.length + expired + kept.length = queue.length := by
  induction h with
  | nil => rfl
  | keep hopen hrest ih =>
    rw [List.length_cons, List.length_cons, ← ih]
    omega
  | resolve hdue hmarkout hrest ih =>
    rw [List.length_cons, List.length_cons, ← ih]
    omega
  | expire hdue hexpired hrest ih =>
    rw [List.length_cons, ← ih]
    omega

omit [Scalar F] in
theorem foldl_saturatingSucc {α : Type} (items : List α) {count : Nat} (h : count + items.length ≤ u64Max) :
    items.foldl (fun count _ => saturatingSucc count) count = count + items.length := by
  induction items generalizing count with
  | nil => rfl
  | cons item items ih =>
    rw [List.length_cons] at h
    rw [List.foldl_cons, saturatingSucc_of_lt (by omega), ih (by omega), List.length_cons]
    omega

theorem maybeRetune_totalResolved (config : TradingConfig F) (state : QuantMigrationState F) :
    (state.maybeRetune config).2.totalResolved = state.totalResolved := by
  unfold QuantMigrationState.maybeRetune
  dsimp only
  repeat' split
  all_goals rfl

theorem evaluateMigration_totalResolved (config : TradingConfig F) (state : QuantMigrationState F) (now : F) :
    (state.evaluateMigration config now).2.totalResolved = state.totalResolved := by
  unfold QuantMigrationState.evaluateMigration
  dsimp only
  repeat' split
  all_goals rfl

/-- Tuning and migration leave the queue, the ledger and the counter as the loop has left them. -/
theorem resolveNormalized_ledgers (state : QuantMigrationState F) (config : TradingConfig F)
    (snapshots : List (MarketSnapshot F)) (now : F) :
    let outcome := state.resolveNormalized config snapshots now
    outcome.2.pending = (state.settleDue config snapshots now).pending ∧
      outcome.2.resolved = (state.settleDue config snapshots now).resolved ∧
      outcome.2.totalResolved = (state.settleDue config snapshots now).totalResolved ∧
      outcome.1.resolved = (state.newlyResolved config snapshots now).length ∧
      outcome.1.expired =
        state.pending.countP fun pending => (pending.settle config snapshots now).isExpired := by
  intro outcome
  have houtcome : outcome = state.resolveNormalized config snapshots now := rfl
  unfold QuantMigrationState.resolveNormalized at houtcome
  dsimp only at houtcome
  split at houtcome
  · rename_i hnone
    rw [houtcome]
    refine ⟨rfl, rfl, rfl, ?_, rfl⟩
    rw [List.isEmpty_iff.mp hnone]
    rfl
  · rw [houtcome]
    have htuned := QuantMigrationState.maybeRetune_spec config (state.settleDue config snapshots now)
    obtain ⟨hresolved, hpending⟩ := QuantMigrationState.evaluateMigration_ledgers config
      ((state.settleDue config snapshots now).maybeRetune config).2 now
    refine ⟨hpending.trans htuned.pending, hresolved.trans htuned.resolved, ?_, rfl, rfl⟩
    exact (evaluateMigration_totalResolved _ _ _).trans (maybeRetune_totalResolved _ _)

/-- Each pending evaluation is kept, resolved or expired, and the counters agree. -/
theorem resolveDue_resolves (state : QuantMigrationState F) (config : TradingConfig F)
    (snapshots : List (MarketSnapshot F)) (now : F) :
    ∃ resolved, state.Resolves config now (state.resolveDue config snapshots now) resolved := by
  obtain ⟨hpending, hresolved, htotal, hcounted, hexpired⟩ :=
    resolveNormalized_ledgers state.normalize config snapshots now
  have hdivided : Divides now state.pending _ _ _ :=
    divides_settle config snapshots now state.pending
  have hlength := hdivided.length_add
  refine ⟨state.normalize.newlyResolved config snapshots now, ?_, hcounted, ?_, hresolved, ?_, ?_⟩
  · unfold QuantMigrationState.resolveDue
    rw [hpending, hexpired]
    exact hdivided
  · unfold QuantMigrationState.resolveDue
    rw [hpending, hexpired, hcounted]
    exact hlength
  · unfold QuantMigrationState.resolveDue
    rw [hresolved]
    exact length_latest _ _
  · unfold QuantMigrationState.resolveDue
    rw [htotal, hcounted]
    exact foldl_saturatingSucc _

end

section Sample

/-- A controller that was persisted before there was a counter. -/
def legacyController : QuantMigrationState ℚ :=
  { QuantMigrationState.default with
    resolved := [
      { evaluationId := "evaluation-1", createdAt := 0, resolvedAt := 60, exchange := "binance"
        symbol := "BTCUSDT", activeParameterId := "balanced-v1", activeQuantActionable := false
        activeQuantNetReturnBps := 0, llmActionable := false, llmNetReturnBps := none
        candidateOutcomes := [] }] }

/-- Nothing is pending, yet the counter rises to the length of the ledger. -/
theorem legacy_total_rises :
    let outcome := legacyController.resolveDue (eagerConfig 3).toTradingConfig [] 100
    outcome.1.resolved = 0 ∧
      outcome.2.totalResolved ≠ legacyController.totalResolved + outcome.1.resolved :=
  ⟨rfl, by decide +kernel⟩

end Sample

end Gail.Trading
