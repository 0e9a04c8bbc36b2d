import Gail.Ledger.MirrorWorkers
import Gail.Library.ChosenPlaces

/-! The order in which a mirror worker takes the rows of a batch. The advisor scores some of them and lets the scored
ones change places among themselves. -/
namespace Gail.Ledger
open Gail.Library
variable {α κ : Type} [LinearOrder κ] [Inhabited κ]

/-- The scores that are applied, of the first rows up to the bounds; the rows after them have none. -/
def batchScores (maxInferenceQueue : Nat) (scoreEntry : α → Option κ) (entries : List α) : List (Option κ) :=
  let scoredCount := min (min entries.length maxInferenceQueue) 256
  (entries.take scoredCount).map scoreEntry ++ List.replicate (entries.length - scoredCount) none

/-- The score at a place, which is the default where there is none. -/
def scoreAt (scores : List (Option κ)) (index : Nat) : κ := (scores[index]?.join).getD default

/-- The places with a score, the highest score first and of one score the earlier place. -/
def eligiblePositions (scores : List (Option κ)) : List Nat :=
  sortByKey (fun index => toLex (OrderDual.toDual (scoreAt scores index), index))
    ((List.range scores.length).filter fun index => scores[index]?.join.isSome)

/-- `order_batch`, where `off` is the effective mode of the task. -/
def orderBatch (off : Bool) (maxInferenceQueue : Nat) (scoreEntry : α → Option κ) (entries : List α) : List α :=
  if off || entries.length < 2 then entries
  else
    let scores := batchScores maxInferenceQueue scoreEntry entries
    refill (scores.map Option.isSome) entries ((eligiblePositions scores).filterMap fun i : Nat => entries[i]?)

/-- A batch whose rows stay or change places as their scores say. -/
structure AdvisedOrder (scores : List (Option κ)) (entries result : List α) : Prop where
  perm : result.Perm entries
  /-- A row without a score keeps its place. -/
  unscored : ∀ i : Nat, scores[i]? = some none → result[i]? = entries[i]?
  ranked : chosenOf (scores.map Option.isSome) result = (eligiblePositions scores).filterMap fun i : Nat => entries[i]?
  ordered : (eligiblePositions scores).Pairwise fun i j : Nat =>
    scoreAt scores j < scoreAt scores i ∨ (scoreAt scores i = scoreAt scores j ∧ i < j)

section Ordered
variable {scores : List (Option κ)} {entries : List α}

omit [LinearOrder κ] [Inhabited κ] in
theorem batchScores_length (maxInferenceQueue : Nat) (scoreEntry : α → Option κ) (entries : List α) :
    (batchScores maxInferenceQueue scoreEntry entries).length = entries.length := by
  simp only [batchScores, List.length_append, List.length_map, List.length_take, List.length_replicate]
  omega

/-- A place before another one has a higher score, or the same score and comes earlier. -/
theorem eligiblePositions_pairwise (scores : List (Option κ)) :
    (eligiblePositions scores).Pairwise fun i j : Nat =>
      scoreAt scores j < scoreAt scores i ∨ (scoreAt scores i = scoreAt scores j ∧ i < j) := by
  have hsorted := pairwise_sortByKey (fun index => toLex (OrderDual.toDual (scoreAt scores index), index))
    ((List.range scores.length).filter fun index => scores[index]?.join.isSome)
  have hnodup : (eligiblePositions scores).Nodup :=
    (sortByKey_perm _).nodup_iff.mpr (List.nodup_range.filter _)
  refine (hsorted.and hnodup).imp ?_
  rintro i j ⟨hle, hne⟩
  rcases Prod.Lex.toLex_le_toLex.mp hle with hlt | ⟨heq, hij⟩
  · exact .inl hlt
  · exact .inr ⟨heq, Nat.lt_of_le_of_ne hij hne⟩

omit [LinearOrder κ] [Inhabited κ] in
/-- The entries at the places with a score. -/
private theorem filterMap_range_chosen (h : scores.length = entries.length) :
    ((List.range scores.length).filter fun index => scores[index]?.join.isSome).filterMap (fun i : Nat => entries[i]?) =
      chosenOf (scores.map Option.isSome) entries := by
  induction scores generalizing entries with
  | nil => rfl
  | cons score scores ih =>
    match entries, h with
    | entry :: entries, h =>
      have hlen : scores.length = entries.length := by simpa using h
      have hrest := ih hlen
      have htail : (((List.range scores.length).filter fun index =>
          scores[index]?.join.isSome).map Nat.succ).filterMap (fun i : Nat => (entry :: entries)[i]?) =
            chosenOf (scores.map Option.isSome) entries := by
        rw [List.filterMap_map, ← hrest]
        rfl
      rw [List.length_cons, List.range_succ_eq_map, List.filter_cons, List.filter_map, List.map_cons, chosenOf_cons]
      cases score with
      | none => exact htail
      | some score => exact congrArg (entry :: ·) htail

theorem ranked_perm (h : scores.length = entries.length) :
    ((eligiblePositions scores).filterMap fun i : Nat => entries[i]?).Perm
      (chosenOf (scores.map Option.isSome) entries) := by
  rw [← filterMap_range_chosen h]
  exact (sortByKey_perm _).filterMap _

theorem advisedOrder_refill (h : scores.length = entries.length) :
    AdvisedOrder scores entries (refill (scores.map Option.isSome) entries
      ((eligiblePositions scores).filterMap fun i : Nat => entries[i]?)) where
  perm := by
    have hmarks : (scores.map Option.isSome).length = entries.length := by rw [List.length_map, h]
    have hperm := ranked_perm h
    exact ((refill_perm hmarks hperm.length_eq).trans (hperm.append_right _)).trans (chosenOf_perm hmarks)
  unscored i hi := getElem?_refill (by rw [List.getElem?_map, hi]; rfl)
  ranked := chosenOf_refill (by rw [List.length_map, h]) (ranked_perm h).length_eq
  ordered := eligiblePositions_pairwise scores

theorem orderBatch_perm (off : Bool) (maxInferenceQueue : Nat) (scoreEntry : α → Option κ) (entries : List α) :
    (orderBatch off maxInferenceQueue scoreEntry entries).Perm entries := by
  unfold orderBatch
  split
  · exact .refl _
  · exact (advisedOrder_refill (batchScores_length maxInferenceQueue scoreEntry entries)).perm

/-- Nothing changes where there is one row at most, or where no row has a score. -/
theorem advisedOrder_same (h : scores.length = entries.length)
    (hsort : eligiblePositions scores = (List.range scores.length).filter fun index => scores[index]?.join.isSome) :
    AdvisedOrder scores entries entries where
  perm := .refl _
  unscored _ _ := rfl
  ranked := by rw [hsort, filterMap_range_chosen h]
  ordered := eligiblePositions_pairwise scores

/-- Every row of the batch stays in it. A row without a score keeps its place, and the rows with one take the places of
each other in the order of their scores. -/
theorem orderBatch_advised (off : Bool) (maxInferenceQueue : Nat) (scoreEntry : α → Option κ) (entries : List α) :
    AdvisedOrder (if off then List.replicate entries.length none else batchScores maxInferenceQueue scoreEntry entries)
      entries (orderBatch off maxInferenceQueue scoreEntry entries) := by
  have hlen := batchScores_length maxInferenceQueue scoreEntry entries
  unfold orderBatch
  cases off with
  | true =>
    refine advisedOrder_same (List.length_replicate) ?_
    have hnone : ((List.range (List.replicate entries.length (none : Option κ)).length).filter fun index =>
        (List.replicate entries.length (none : Option κ))[index]?.join.isSome) = [] := by
      rw [List.filter_eq_nil_iff]
      intro index _
      rw [List.getElem?_replicate]
      split <;> simp
    rw [eligiblePositions, if_pos rfl, hnone]
    rfl
  | false =>
    rw [if_neg Bool.false_ne_true, Bool.false_or]
    split
    · rename_i hfew
      refine advisedOrder_same hlen (sortByKey_of_pairwise ?_)
      have hshort : ((List.range (batchScores maxInferenceQueue scoreEntry entries).length).filter fun index =>
          (batchScores maxInferenceQueue scoreEntry entries)[index]?.join.isSome).length ≤ 1 := by
        refine (List.length_filter_le _ _).trans ?_
        rw [List.length_range, hlen]
        exact Nat.le_of_lt_succ (of_decide_eq_true hfew)
      match hl : (List.range (batchScores maxInferenceQueue scoreEntry entries).length).filter fun index =>
          (batchScores maxInferenceQueue scoreEntry entries)[index]?.join.isSome with
      | [] => exact .nil
      | [_] => exact List.pairwise_singleton _ _
      | _ :: _ :: _ =>
        rw [hl] at hshort
        simp at hshort
    · exact advisedOrder_refill hlen

end Ordered

/-- The settings of workers that take their batches in the order of the advisor. -/
def MirrorConfig.advised {Value F : Type} (config : MirrorConfig Value F) (off : Bool) (maxInferenceQueue : Nat)
    (scoreEntry : LedgerInteraction Value F → Option κ) : MirrorConfig Value F :=
  { config with
    orderBatch := Ledger.orderBatch off maxInferenceQueue scoreEntry
    orderBatch_perm := Ledger.orderBatch_perm off maxInferenceQueue scoreEntry }

end Gail.Ledger
