import Gail.Trading.SettledRuns

/-! What a promotion confirms: that the guard passed as often in a row as required, but for the promoted
arm only if tuning did not change arms in between. -/
namespace Gail.Trading
open Gail.Library QuantMigrationState
variable {F : Type} [Scalar F]

/-- The evaluations of a run and of a further call of `resolve_due`. -/
def evaluationsThrough (config : TradingConfig F) (actions : List (QuantAction F))
    (snapshots : List (MarketSnapshot F)) (now : F) : List (MigrationEvaluation F) :=
  evaluations config actions ++
    ((reached config actions).normalize.migrationEvaluation config snapshots now).toList

/-- The last evaluations, as many as given, were of this arm and passed the guard. -/
structure ConfirmedFor (config : TradingConfig F) (count : Nat) (parameterId : String)
    (evaluations : List (MigrationEvaluation F)) : Prop where
  enough : count ≤ evaluations.length
  confirmed : ∀ evaluation ∈ latest count evaluations,
    evaluation.parameterId = parameterId ∧ evaluation.qualified config = true

omit [Scalar F] in
/-- Along linked evaluations the arm is that of the last one exactly if only the first one may have
tuned. -/
private theorem sameArm_iff {first last : MigrationEvaluation F}
    {later : List (MigrationEvaluation F)} (hlinked : Linked (first :: later))
    (hchosen : ∀ evaluation ∈ later, evaluation.Chosen)
    (hlast : (first :: later).getLast? = some last) :
    (∀ evaluation ∈ first :: later, evaluation.parameterId = last.parameterId) ↔
      ∀ evaluation ∈ later, evaluation.adjustment = none := by
  induction later generalizing first with
  | nil =>
    have he : first = last := by simpa using hlast
    subst he
    simp
  | cons next later ih =>
    obtain ⟨hlink, hrest⟩ := List.isChain_cons_cons.mp hlinked
    have hnext := (hchosen next List.mem_cons_self).adjustment_eq_none_iff
    have ih := ih hrest (fun a ha => hchosen a (List.mem_cons_of_mem _ ha))
      (by rwa [List.getLast?_cons_cons] at hlast)
    rw [List.forall_mem_cons, ih, List.forall_mem_cons, hnext, hlink]
    refine and_congr_left fun hlater => ?_
    rw [ih.mpr hlater next List.mem_cons_self, eq_comm]

theorem resolveDue_migration (config : TradingConfig F) (state : QuantMigrationState F)
    (snapshots : List (MarketSnapshot F)) (now : F) :
    (state.resolveDue config snapshots now).1.migration =
      (state.normalize.migrationEvaluation config snapshots now).bind
        (MigrationEvaluation.migration config) := by
  unfold resolveDue resolveNormalized migrationEvaluation
  dsimp only
  split
  · rfl
  · rfl

private theorem latest_append {α : Type} {before recent : List α} {count : Nat}
    (h : count ≤ recent.length) : latest count (before ++ recent) = latest count recent := by
  have hl : (before ++ recent).length - count = before.length + (recent.length - count) := by
    rw [List.length_append]
    omega
  rw [latest, hl, List.drop_append]
  simp [latest]

private theorem latest_succ {α : Type} {items : List α} {count : Nat} (h : count < items.length) :
    ∃ first, latest (count + 1) items = first :: latest count items := by
  have hl : items.length - count = items.length - (count + 1) + 1 := by omega
  refine ⟨items[items.length - (count + 1)], ?_⟩
  rw [latest, latest, hl]
  exact List.drop_eq_getElem_cons (by omega)

private theorem foldl_last {α β : Type} (f : α → β) (items : List α) (b : β) {last : α}
    (h : items.getLast? = some last) : items.foldl (fun _ item => f item) b = f last := by
  induction items using List.reverseRecOn with
  | nil => cases h
  | append_singleton items item ih =>
    rw [List.getLast?_concat] at h
    rw [List.foldl_append, ← Option.some.inj h]
    rfl

/-- The evaluation that a call of `resolve_due` makes on a reached state follows those of the run. -/
private theorem history_linked {config : NormalisedConfig F} {actions : List (QuantAction F)}
    {evaluation : MigrationEvaluation F} (hp : evaluation.previousParameterId
      = (reached config.toTradingConfig actions).activeParameterId) :
    Linked (evaluations config.toTradingConfig actions ++ [evaluation]) := by
  refine List.isChain_append.mpr ⟨(run_linked default_consistent actions).1, List.isChain_singleton _, ?_⟩
  intro last hlast next hnext
  rw [← Option.some.inj hnext, hp]
  apply (run_arm default_consistent actions).trans
  exact foldl_last MigrationEvaluation.parameterId _ _ hlast

section Promotion
variable {config : NormalisedConfig F} {actions : List (QuantAction F)}
  {snapshots : List (MarketSnapshot F)} {now : F} {decision : QuantMigrationDecision F}

/-- The evaluation behind a promotion follows those of the run, names the arm of the decision, and is
the last of as many as required that passed the guard. -/
private theorem promotion_spec
    (hd : ((reached config.toTradingConfig actions).resolveDue config.toTradingConfig snapshots
      now).1.migration = some decision) (hp : decision.transition = .promoted) :
    ∃ evaluation, (reached config.toTradingConfig actions).normalize.migrationEvaluation
        config.toTradingConfig snapshots now = some evaluation ∧
      evaluation.Chosen ∧
      Linked (evaluations config.toTradingConfig actions ++ [evaluation]) ∧
      decision.parameterId = evaluation.parameterId ∧
      ∃ before recent, evaluations config.toTradingConfig actions ++ [evaluation] = before ++ recent ∧
        config.quantMigrationRequiredStreak ≤ recent.length ∧
        ∀ confirming ∈ recent, confirming.qualified config.toTradingConfig = true := by
  have hc := reached_consistent config actions
  obtain ⟨hs, -⟩ := resolveDue_spec hc snapshots now
  rw [resolveDue_migration] at hd
  obtain ⟨evaluation, he, hd⟩ := Option.bind_eq_some_iff.mp hd
  rw [he] at hs
  obtain ⟨hchosen, hprevious, htuned⟩ := hs.of_some
  refine ⟨evaluation, he, hchosen, history_linked hprevious, ?_⟩
  have hon : (reached config.toTradingConfig actions).isPrimary = evaluation.tuned.isPrimary :=
    (congrArg Switch.on htuned).symm
  rcases evaluateMigration_decision config.toTradingConfig evaluation.tuned evaluation.now with
    ⟨hnone, -⟩ | ⟨made, hmade, hid, htransition, hflip⟩
  · rw [MigrationEvaluation.migration, hnone] at hd
    cases hd
  · rw [MigrationEvaluation.migration, hmade] at hd
    cases hd
    have hoff : (Switch.off.poll config.quantMigrationRequiredStreak
        (MigrationEvaluation.ballot config.toTradingConfig)
        (evaluations config.toTradingConfig actions)).on = false := by
      rw [← reached_switch]
      exact hon.trans (htransition.mp hp)
    have hturned : (Switch.off.poll config.quantMigrationRequiredStreak
        (MigrationEvaluation.ballot config.toTradingConfig)
        (evaluations config.toTradingConfig actions ++ [evaluation])).on = true := by
      have hvote := evaluateMigration_switch (htuned ▸ hc.within) evaluation.now
      rw [Switch.poll_concat, ← reached_switch, ← htuned]
      refine (congrArg Switch.on hvote).symm.trans (hflip.trans ?_)
      rw [← hon, hon, htransition.mp hp]
      rfl
    obtain ⟨before, recent, hh, hlength, hall⟩ := Switch.confirmed_of_on _ _ hoff hturned
    exact ⟨hid, before, recent, hh, hlength,
      fun confirming hm => MigrationEvaluation.ballot_eq_confirm.mp (hall confirming hm)⟩

end Promotion

/-- A promotion of an arm comes after the required number of evaluations in a row in which that arm was
active and passed the guard, exactly if only the first of them may have tuned. -/
theorem promotion_confirmed_iff (config : NormalisedConfig F) (actions : List (QuantAction F))
    (snapshots : List (MarketSnapshot F)) (now : F) {decision : QuantMigrationDecision F}
    (hd : ((reached config.toTradingConfig actions).resolveDue config.toTradingConfig snapshots
      now).1.migration = some decision) (hp : decision.transition = .promoted) :
    ConfirmedFor config.toTradingConfig config.quantMigrationRequiredStreak decision.parameterId
        (evaluationsThrough config.toTradingConfig actions snapshots now) ↔
      ∀ evaluation ∈ latest (config.quantMigrationRequiredStreak - 1)
        (evaluationsThrough config.toTradingConfig actions snapshots now),
        evaluation.adjustment = none := by
  obtain ⟨evaluation, he, hchosen, hlinked, hid, before, recent, hhistory, hlength, hall⟩ :=
    promotion_spec hd hp
  rw [evaluationsThrough, he, Option.toList_some]
  have hmem : ∀ confirming ∈ evaluations config.toTradingConfig actions ++ [evaluation],
      confirming.Chosen := by
    intro confirming hm
    rcases List.mem_append.mp hm with hm | hm
    · exact run_chosen default_consistent actions confirming hm
    · rw [List.mem_singleton.mp hm]
      exact hchosen
  have hend : (evaluations config.toTradingConfig actions ++ [evaluation]).getLast? = some evaluation :=
    List.getLast?_concat
  generalize evaluations config.toTradingConfig actions ++ [evaluation] = history at *
  obtain ⟨count, hcount⟩ : ∃ count, config.quantMigrationRequiredStreak = count + 1 :=
    Nat.exists_eq_add_of_le' config.requiredStreak_pos
  rw [hcount] at hlength ⊢
  have hlt : count < history.length := by
    rw [hhistory, List.length_append]
    omega
  obtain ⟨first, hfirst⟩ := latest_succ hlt
  have hlast : (first :: latest count history).getLast? = some evaluation := by
    rw [← hfirst, latest, List.getLast?_drop, if_neg (by omega), hend]
  have hlinks : Linked (first :: latest count history) := hfirst ▸ hlinked.drop _
  have hchosen : ∀ confirming ∈ latest count history, confirming.Chosen :=
    fun confirming hm => hmem confirming (List.mem_of_mem_drop hm)
  have hsame := sameArm_iff hlinks hchosen hlast
  rw [Nat.add_sub_cancel, ← hsame, ← hfirst, hid]
  constructor
  · exact fun h confirming hm => (h.confirmed confirming hm).1
  · refine fun h => ⟨hlt, fun confirming hm => ⟨h confirming hm, hall confirming ?_⟩⟩
    rw [hhistory, latest_append hlength] at hm
    exact List.mem_of_mem_drop hm

def streakConfig : NormalisedConfig ℚ := sampleConfig 10 2 (by decide) (by decide)

/-- The quotes of minute twenty-one, after which the ether of the fast arm is worth the given price. -/
def lastQuotes (ether : ℚ) : List (MarketSnapshot ℚ) :=
  [⟨"binance", "BTC/USDT", 85, 1260⟩, ⟨"binance", "ETH/USDT", ether, 1260⟩]

/-- Both ends of minute twenty-one promote: the fast arm if ether holds, else the balanced arm, right after
an evaluation of the fast one. -/
private theorem risen_spec :
    ((reached streakConfig.toTradingConfig (.start 0 :: risingCycles 2 21)).resolveDue
        streakConfig.toTradingConfig (lastQuotes 106) 1260).1.migration.map
        QuantMigrationDecision.transition = some .promoted ∧
      ((reached streakConfig.toTradingConfig (.start 0 :: risingCycles 2 21)).resolveDue
        streakConfig.toTradingConfig (lastQuotes 53) 1260).1.migration.map
        (fun decision => (decision.transition, decision.parameterId))
          = some (.promoted, "balanced-v1") ∧
      "fast-trend-v1" ∈ (latest 2 (evaluationsThrough streakConfig.toTradingConfig
        (.start 0 :: risingCycles 2 21) (lastQuotes 53) 1260)).map
          MigrationEvaluation.parameterId := by
  obtain ⟨hrun, htrace⟩ := started_run streakConfig rfl (risingCycles 2 21)
  rw [evaluationsThrough, hrun, htrace]
  decide +kernel

theorem promotion_confirmed_iff_rising :
    ∃ decision, ((reached streakConfig.toTradingConfig (.start 0 :: risingCycles 2 21)).resolveDue
        streakConfig.toTradingConfig (lastQuotes 106) 1260).1.migration = some decision ∧
      decision.transition = .promoted ∧
      (ConfirmedFor streakConfig.toTradingConfig streakConfig.quantMigrationRequiredStreak
          decision.parameterId (evaluationsThrough streakConfig.toTradingConfig
            (.start 0 :: risingCycles 2 21) (lastQuotes 106) 1260) ↔
        ∀ evaluation ∈ latest (streakConfig.quantMigrationRequiredStreak - 1)
          (evaluationsThrough streakConfig.toTradingConfig (.start 0 :: risingCycles 2 21)
            (lastQuotes 106) 1260), evaluation.adjustment = none) := by
  obtain ⟨decision, hd, hp⟩ := Option.map_eq_some_iff.mp risen_spec.1
  exact ⟨decision, hd, hp, promotion_confirmed_iff streakConfig _ _ _ hd hp⟩

/-- The fast arm confirms once, ether falls, tuning returns to the balanced arm, and that arm is promoted
on a single evaluation of its own. -/
theorem promotion_after_one_confirmation :
    ((reached streakConfig.toTradingConfig (.start 0 :: risingCycles 2 21)).resolveDue
        streakConfig.toTradingConfig (lastQuotes 53) 1260).1.migration.map
        (fun decision => (decision.transition, decision.parameterId))
          = some (.promoted, "balanced-v1") ∧
      ¬ ConfirmedFor streakConfig.toTradingConfig streakConfig.quantMigrationRequiredStreak
        "balanced-v1" (evaluationsThrough streakConfig.toTradingConfig
          (.start 0 :: risingCycles 2 21) (lastQuotes 53) 1260) := by
  obtain ⟨-, hpromoted, hfast⟩ := risen_spec
  refine ⟨hpromoted, fun h => ?_⟩
  obtain ⟨evaluation, hm, he⟩ := List.mem_map.mp hfast
  have hid := (h.confirmed evaluation hm).1
  rw [he] at hid
  exact absurd hid (by decide)

end Gail.Trading
