import Gail.Library.Saturating
import Gail.Trading.TradingConfig
import Mathlib.Data.List.Destutter
import Mathlib.Data.List.Sort

/-! The persisted state of the quant migration controller: its mode, its arms, the evaluations that wait for their
horizon and the rolling ledger of resolved ones. The active arm is always one of the arms, and repairing the state
again does not change it. -/
namespace Gail.Trading

/-- Which implementation owns the advisory stage. -/
inductive QuantMode
  | shadow
  | primary
  deriving DecidableEq, Repr

structure MarketSnapshot (F : Type) where
  exchange : String
  symbol : String
  price : F
  fetchedAt : F

/-- The policy of one arm over a universe of markets. -/
structure QuantSignal (F : Type) where
  parameterId : String
  exchange : String
  symbol : String
  signal : F
  confidence : F
  riskScore : F
  actionable : Bool

structure QuantPrediction (F : Type) where
  parameterId : String
  exchange : String
  symbol : String
  entryPrice : F
  signal : F
  confidence : F
  riskScore : F
  actionable : Bool

/-- A paired markout that waits for its horizon. The market of the LLM is kept apart from the one that
quant chose. -/
structure QuantPendingEvaluation (F : Type) where
  evaluationId : String
  createdAt : F
  dueAt : F
  expiresAt : F
  exchange : String
  symbol : String
  entryPrice : F
  activeParameterId : String
  llmExchange : String
  llmSymbol : String
  llmEntryPrice : F
  llmSignal : Option F
  llmActionable : Bool
  predictions : List (QuantPrediction F)

structure QuantCandidateOutcome (F : Type) where
  parameterId : String
  exchange : String
  symbol : String
  actionable : Bool
  netReturnBps : F

structure QuantResolvedEvaluation (F : Type) where
  evaluationId : String
  createdAt : F
  resolvedAt : F
  exchange : String
  symbol : String
  activeParameterId : String
  activeQuantActionable : Bool
  activeQuantNetReturnBps : F
  llmActionable : Bool
  llmNetReturnBps : Option F
  candidateOutcomes : List (QuantCandidateOutcome F)

structure QuantMigrationState (F : Type) where
  version : Nat
  mode : QuantMode
  activeParameterId : String
  parameterSets : List (QuantParameters F)
  pending : List (QuantPendingEvaluation F)
  resolved : List (QuantResolvedEvaluation F)
  promotionStreak : Nat
  /-- Consecutive rolling-window failures while quant is primary. -/
  demotionStreak : Nat
  initializedAt : Option F
  promotedAt : Option F
  lastShadowRecordedAt : Option F
  totalResolved : Nat
  lastTunedResolvedCount : Nat
  nativeValidationParameterId : Option String
  nativeValidationAt : Option F

variable {F : Type} [Scalar F]

namespace QuantMigrationState

def default : QuantMigrationState F where
  version := 1
  mode := .shadow
  activeParameterId := (QuantParameters.default : QuantParameters F).id
  parameterSets := defaultParameterSets
  pending := []
  resolved := []
  promotionStreak := 0
  demotionStreak := 0
  initializedAt := none
  promotedAt := none
  lastShadowRecordedAt := none
  totalResolved := 0
  lastTunedResolvedCount := 0
  nativeValidationParameterId := none
  nativeValidationAt := none

/-- The arms that `normalize` repairs: the defaults for none, and a cash arm when there was none. -/
def seededSets (sets : List (QuantParameters F)) : List (QuantParameters F) :=
  let sets := if sets.isEmpty then defaultParameterSets else sets
  if sets.any (fun parameters => parameters.kind == .cash) then sets
  else sets ++ [{ QuantParameters.default with id := "cash-v1", kind := .cash }]

/-- The arms repaired, sorted by id, the first one kept for each id. -/
def normalizedSets (sets : List (QuantParameters F)) : List (QuantParameters F) :=
  let sorted := ((seededSets sets).map QuantParameters.normalize).insertionSort fun a b => a.id ≤ b.id
  sorted.destutter fun a b => a.id ≠ b.id

def normalize (state : QuantMigrationState F) : QuantMigrationState F :=
  let sets := normalizedSets state.parameterSets
  { state with
    version := 1
    parameterSets := sets
    activeParameterId :=
      if sets.any (fun parameters => parameters.id == state.activeParameterId) then
        state.activeParameterId
      else (sets.head?.map QuantParameters.id).getD state.activeParameterId
    totalResolved := max state.totalResolved state.resolved.length }

/-- The arm in use, or the first one. -/
def activeParameters (state : QuantMigrationState F) : Option (QuantParameters F) :=
  (state.parameterSets.find? fun parameters => parameters.id == state.activeParameterId).or
    state.parameterSets.head?

/-- The ids of the arms. -/
def parameterIds (state : QuantMigrationState F) : List String :=
  state.parameterSets.map QuantParameters.id

def isPrimary (state : QuantMigrationState F) : Bool := state.mode == .primary

/-- First initialisation stamps the time; the flag says whether this was the first. -/
def initializeState (state : QuantMigrationState F) (now : F) : Bool × QuantMigrationState F :=
  let state := state.normalize
  match state.initializedAt with
  | none => (true, { state with initializedAt := some now })
  | some _ => (false, state)

end QuantMigrationState

private theorem mem_destutter'_ne {α : Type} [DecidableEq α] {x first : α} {xs : List α}
    (h : x ∈ first :: xs) : x ∈ List.destutter' (· ≠ ·) first xs := by
  induction xs generalizing first with
  | nil => rwa [List.destutter'_nil]
  | cons next xs ih =>
    rw [List.destutter'_cons]
    split
    · rcases List.mem_cons.mp h with rfl | h
      · exact List.mem_cons_self
      · exact List.mem_cons_of_mem _ (ih h)
    · rename_i he
      have he : first = next := not_not.mp he
      apply ih
      rcases List.mem_cons.mp h with rfl | h
      · exact List.mem_cons_self
      · rwa [he]

private theorem mem_destutter_ne {α : Type} [DecidableEq α] {x : α} {xs : List α} :
    x ∈ xs.destutter (· ≠ ·) ↔ x ∈ xs := by
  constructor
  · exact fun h => (List.destutter_sublist _ xs).subset h
  · intro h
    match xs, h with
    | first :: xs, h => exact mem_destutter'_ne h

namespace QuantMigrationState
variable {state : QuantMigrationState F} {sets : List (QuantParameters F)} {id : String}

/-- Repairing the arms repairs their ids and loses none of them. -/
theorem mem_ids_normalizedSets :
    id ∈ (normalizedSets sets).map QuantParameters.id ↔
      ∃ parameters ∈ seededSets sets, normalizeId parameters.id = id := by
  have hmap (sorted : List (QuantParameters F)) :
      (sorted.destutter fun a b => a.id ≠ b.id).map QuantParameters.id
        = (sorted.map QuantParameters.id).destutter (· ≠ ·) :=
    List.map_destutter fun _ _ _ _ => Iff.rfl
  rw [normalizedSets, hmap, mem_destutter_ne]
  simp only [List.mem_map, List.mem_insertionSort, exists_exists_and_eq_and,
    QuantParameters.normalize_id]

private theorem mem_seededSets {parameters : QuantParameters F} (h : parameters ∈ sets) :
    parameters ∈ seededSets sets := by
  have hne : sets.isEmpty = false := by
    cases sets with
    | nil => cases h
    | cons => rfl
  simp only [seededSets, hne, Bool.false_eq_true, if_false]
  split
  · exact h
  · exact List.mem_append_left _ h

private theorem seededSets_ne_nil (sets : List (QuantParameters F)) : seededSets sets ≠ [] := by
  cases sets with
  | nil =>
    apply List.ne_nil_of_mem (a := QuantParameters.default.normalize)
    simp only [seededSets, List.isEmpty_nil, if_true]
    split
    · exact List.mem_cons_self
    · exact List.mem_append_left _ List.mem_cons_self
  | cons parameters sets => exact List.ne_nil_of_mem (mem_seededSets List.mem_cons_self)

private theorem normalizedSets_ne_nil (sets : List (QuantParameters F)) :
    normalizedSets sets ≠ [] := by
  obtain ⟨parameters, hp⟩ := List.exists_mem_of_ne_nil _ (seededSets_ne_nil sets)
  intro he
  have h := mem_ids_normalizedSets.mpr ⟨parameters, hp, rfl⟩
  rw [he] at h
  cases h

/-- The ids are repaired and the active one is among them. -/
structure Armed (state : QuantMigrationState F) : Prop where
  repaired : ∀ id ∈ state.parameterIds, normalizeId id = id
  active : state.activeParameterId ∈ state.parameterIds

omit [Scalar F] in
theorem Armed.of_eq {next : QuantMigrationState F} (h : state.Armed)
    (hs : next.parameterSets = state.parameterSets)
    (ha : next.activeParameterId = state.activeParameterId) : next.Armed := by
  have hids : next.parameterIds = state.parameterIds := by rw [parameterIds, hs, parameterIds]
  constructor
  · rw [hids]
    exact h.repaired
  · rw [hids, ha]
    exact h.active

omit [Scalar F] in
private theorem any_id_iff :
    sets.any (fun parameters => parameters.id == id) = true ↔ id ∈ sets.map QuantParameters.id := by
  simp only [List.any_eq_true, beq_iff_eq, List.mem_map]

/-- Whatever was persisted, the repaired state has its active arm. -/
theorem normalize_armed (state : QuantMigrationState F) : state.normalize.Armed := by
  constructor
  · intro id hid
    obtain ⟨parameters, -, rfl⟩ := mem_ids_normalizedSets.mp hid
    exact normalizeId_idem parameters.id
  · simp only [normalize, parameterIds]
    split
    · rename_i h
      exact any_id_iff.mp h
    · match hs : normalizedSets state.parameterSets with
      | [] => exact absurd hs (normalizedSets_ne_nil _)
      | parameters :: sets => exact List.mem_cons_self

/-- Repairing a state with its active arm keeps that arm. -/
theorem Armed.normalize_activeParameterId (h : state.Armed) :
    state.normalize.activeParameterId = state.activeParameterId := by
  obtain ⟨parameters, hp, he⟩ := List.mem_map.mp h.active
  have hid : state.activeParameterId ∈
      (normalizedSets state.parameterSets).map QuantParameters.id := by
    refine mem_ids_normalizedSets.mpr ⟨parameters, mem_seededSets hp, ?_⟩
    rw [he, h.repaired _ h.active]
  simp only [normalize]
  rw [if_pos (any_id_iff.mpr hid)]

/-- Repairing the arms once more would change nothing. -/
structure Settled (state : QuantMigrationState F) : Prop where
  sets : normalizedSets state.parameterSets = state.parameterSets
  active : state.activeParameterId ∈ state.parameterIds

/-- What repairing does to a settled state. -/
def touch (state : QuantMigrationState F) : QuantMigrationState F :=
  { state with version := 1, totalResolved := max state.totalResolved state.resolved.length }

theorem Settled.normalize_eq (h : state.Settled) : state.normalize = state.touch := by
  simp only [normalize, touch, h.sets]
  rw [if_pos (any_id_iff.mpr h.active)]

theorem Settled.of_eq {next : QuantMigrationState F} (h : state.Settled)
    (hs : next.parameterSets = state.parameterSets)
    (ha : next.activeParameterId ∈ next.parameterIds) : next.Settled :=
  ⟨by rw [hs, h.sets], ha⟩

theorem default_armed : (default : QuantMigrationState F).Armed := by
  constructor
  · intro id hid
    simp only [parameterIds, default, defaultParameterSets, List.map_map, List.mem_map,
      Function.comp_apply, QuantParameters.normalize_id] at hid
    obtain ⟨parameters, -, rfl⟩ := hid
    exact normalizeId_idem parameters.id
  · have hid : normalizeId "balanced-v1" = "balanced-v1" := by decide +kernel
    refine List.mem_map.mpr ⟨QuantParameters.default.normalize, List.mem_cons_self, ?_⟩
    rw [QuantParameters.normalize_id]
    exact hid

end QuantMigrationState

end Gail.Trading
