import Gail.Datalake.LakeFile
import Gail.Library.Gathered

/-! The samples that the lake keeps in memory: how others are merged into those of one market, and how
old ones leave. -/
namespace Gail.Datalake
open Gail.Library Gail.Trading
variable {F : Type} [LakeScalar F]

/-- The first sample of the bucket gives way to one that is not earlier. -/
def replaceBucket (sample : MarketSample F) : List (MarketSample F) → List (MarketSample F)
  | [] => []
  | existing :: deque =>
    if existing.capturedBucket = sample.capturedBucket then
      (if existing.capturedTs ≤ sample.capturedTs then sample else existing) :: deque
    else existing :: replaceBucket sample deque

/-- The turn of `merge_samples_with_precedence` for one sample, before old samples leave. -/
def placeSample (replaceExistingBucket : Bool) (deque : List (MarketSample F))
    (sample : MarketSample F) : List (MarketSample F) :=
  if deque.any fun item => item.capturedBucket == sample.capturedBucket then
    if replaceExistingBucket then replaceBucket sample deque else deque
  else if deque.getLast?.all fun last => decide (last.capturedBucket < sample.capturedBucket) then
    deque ++ [sample]
  else insertRanked MarketSample.capturedBucket deque sample

/-- Samples leave at the front while they are older than the horizon of the one that came. -/
def evict (cacheHorizonSeconds : F) (deque : List (MarketSample F)) (sample : MarketSample F) :
    List (MarketSample F) :=
  let cutoff := sample.capturedTs - cacheHorizonSeconds
  deque.dropWhile fun front => decide (front.capturedTs + Scalar.epsilon < cutoff)

def mergeSample (cacheHorizonSeconds : F) (replaceExistingBucket : Bool)
    (deque : List (MarketSample F)) (sample : MarketSample F) : List (MarketSample F) :=
  evict cacheHorizonSeconds (placeSample replaceExistingBucket deque sample) sample

/-- `samples_by_symbol`; a market that is not in the map has no samples. -/
abbrev SampleCache (F : Type) [LakeScalar F] := String → List (MarketSample F)

def mergeSamplesWithPrecedence (cacheHorizonSeconds : F) (replaceExistingBucket : Bool)
    (cache : SampleCache F) (samples : List (MarketSample F)) : SampleCache F :=
  samples.foldl (fun cache sample => Function.update cache sample.key
    (mergeSample cacheHorizonSeconds replaceExistingBucket (cache sample.key) sample)) cache

section Deque
variable {horizon : F} {replaceExisting : Bool} {deque : List (MarketSample F)}
  {sample other : MarketSample F}

/-- The samples of a market in the order of their buckets. -/
abbrev InBuckets (deque : List (MarketSample F)) : Prop := Ranked MarketSample.capturedBucket deque

theorem mem_replaceBucket (h : other ∈ replaceBucket sample deque) : other = sample ∨ other ∈ deque := by
  induction deque with
  | nil => cases h
  | cons existing deque ih =>
    rw [replaceBucket] at h
    split_ifs at h
    · rcases List.mem_cons.mp h with rfl | h
      · exact .inl rfl
      · exact .inr (List.mem_cons_of_mem _ h)
    · exact .inr h
    · rcases List.mem_cons.mp h with rfl | h
      · exact .inr List.mem_cons_self
      · exact (ih h).imp id (List.mem_cons_of_mem _)

theorem map_replaceBucket :
    (replaceBucket sample deque).map MarketSample.capturedBucket =
      deque.map MarketSample.capturedBucket := by
  induction deque with
  | nil => rfl
  | cons existing deque ih =>
    rw [replaceBucket]
    split_ifs with hb ht
    · rw [List.map_cons, List.map_cons, hb]
    · rfl
    · rw [List.map_cons, List.map_cons, ih]

theorem mem_placeSample (h : other ∈ placeSample replaceExisting deque sample) :
    other = sample ∨ other ∈ deque := by
  unfold placeSample at h
  split_ifs at h
  · exact mem_replaceBucket h
  · exact .inr h
  · rcases List.mem_append.mp h with h | h
    · exact .inr h
    · exact .inl (List.mem_singleton.mp h)
  · exact mem_insertRanked.mp h

theorem evict_sublist : (evict horizon deque sample).Sublist deque := List.dropWhile_sublist _

theorem mem_mergeSample (h : other ∈ mergeSample horizon replaceExisting deque sample) :
    other = sample ∨ other ∈ deque := mem_placeSample (evict_sublist.mem h)

theorem InBuckets.placeSample (h : InBuckets deque) :
    InBuckets (placeSample replaceExisting deque sample) := by
  unfold Datalake.placeSample
  split_ifs with hany hr hlast
  · rw [InBuckets, Ranked, ← List.pairwise_map, map_replaceBucket]
    exact List.pairwise_map.mpr h
  · exact h
  · refine h.concat fun item hi => ?_
    cases hl : deque.getLast? with
    | none =>
      rw [List.getLast?_eq_none_iff.mp hl] at hi
      cases hi
    | some last =>
      rw [hl, Option.all_some, decide_eq_true_eq] at hlast
      exact (h.le_getLast hl hi).trans_lt hlast
  · refine h.insertRanked fun item hi he => hany ?_
    exact List.any_eq_true.mpr ⟨item, hi, beq_iff_eq.mpr he⟩

/-- Merging a sample keeps the order of the buckets, each bucket once. -/
theorem InBuckets.mergeSample (h : InBuckets deque) :
    InBuckets (mergeSample horizon replaceExisting deque sample) :=
  h.placeSample.sublist evict_sublist

/-- A sample that does not replace only comes in where its bucket was empty. -/
theorem mem_placeSample_mirror (h : other ∈ placeSample false deque sample) :
    other ∈ deque ∨
      other = sample ∧ ∀ item ∈ deque, item.capturedBucket ≠ sample.capturedBucket := by
  by_cases hany : (deque.any fun item => item.capturedBucket == sample.capturedBucket) = true
  · rw [placeSample, if_pos hany, if_neg Bool.false_ne_true] at h
    exact .inl h
  · rcases mem_placeSample h with rfl | h
    · refine .inr ⟨rfl, fun item hi he => hany ?_⟩
      exact List.any_eq_true.mpr ⟨item, hi, beq_iff_eq.mpr he⟩
    · exact .inl h

theorem mem_placeSample_of_mem (h : other ∈ deque) : other ∈ placeSample false deque sample := by
  rw [placeSample, if_neg Bool.false_ne_true]
  split_ifs
  · exact h
  · exact List.mem_append_left _ h
  · exact mem_insertRanked.mpr (.inr h)

/-- What leaves is older than the horizon. -/
theorem mem_evict (h : other ∈ deque) : other ∈ evict horizon deque sample ∨
    other.capturedTs + Scalar.epsilon < sample.capturedTs - horizon := by
  rw [← List.takeWhile_append_dropWhile (l := deque)
    (p := fun front => decide (front.capturedTs + Scalar.epsilon < sample.capturedTs - horizon))] at h
  rcases List.mem_append.mp h with h | h
  · exact .inr (by simpa using List.mem_takeWhile_imp h)
  · exact .inl h

end Deque

section Merge
variable {horizon : F} {replaceExisting : Bool} {cache : SampleCache F}
  {samples : List (MarketSample F)} {sample : MarketSample F} {key : String}

theorem mergeSamplesWithPrecedence_concat :
    mergeSamplesWithPrecedence horizon replaceExisting cache (samples ++ [sample]) =
      Function.update (mergeSamplesWithPrecedence horizon replaceExisting cache samples) sample.key
        (mergeSample horizon replaceExisting
          (mergeSamplesWithPrecedence horizon replaceExisting cache samples sample.key) sample) :=
  List.foldl_concat ..

theorem mem_mergeSamplesWithPrecedence
    (h : sample ∈ mergeSamplesWithPrecedence horizon replaceExisting cache samples key) :
    sample ∈ cache key ∨ sample ∈ samples := by
  induction samples using List.reverseRecOn with
  | nil => exact .inl h
  | append_singleton samples last ih =>
    rw [mergeSamplesWithPrecedence_concat, Function.update_apply] at h
    split_ifs at h with hk
    · rcases mem_mergeSample h with rfl | h
      · exact .inr (List.mem_append_right _ (List.mem_singleton_self _))
      · exact (ih (hk ▸ h)).imp id (List.mem_append_left _)
    · exact (ih h).imp id (List.mem_append_left _)

theorem mergeSamplesWithPrecedence_inBuckets (h : ∀ key, InBuckets (cache key)) (key : String) :
    InBuckets (mergeSamplesWithPrecedence horizon replaceExisting cache samples key) := by
  induction samples using List.reverseRecOn generalizing key with
  | nil => exact h key
  | append_singleton samples last ih =>
    rw [mergeSamplesWithPrecedence_concat, Function.update_apply]
    split_ifs
    · exact (ih last.key).mergeSample
    · exact ih key

/-- A load of the mirror comes in the order of its buckets. -/
def MirrorOrder (samples : List (MarketSample F)) : Prop :=
  samples.Pairwise fun sample other => sample.key = other.key →
    sample.capturedBucket < other.capturedBucket

/-- First by key, then by bucket. -/
def keyOrder (left right : String × Int) : Prop :=
  left.1 < right.1 ∨ left.1 = right.1 ∧ left.2 ≤ right.2

theorem keyOrder_trans {a b c : String × Int} (hab : keyOrder a b) (hbc : keyOrder b c) :
    keyOrder a c := by
  rcases hab with hab | ⟨hab, hle⟩
  · rcases hbc with hbc | ⟨hbc, -⟩
    · exact .inl (String.lt_trans hab hbc)
    · exact .inl (hbc ▸ hab)
  · rcases hbc with hbc | ⟨hbc, hle'⟩
    · exact .inl (hab ▸ hbc)
    · exact .inr ⟨hab.trans hbc, hle.trans hle'⟩

theorem keyOrder_of_not {a b : String × Int} (hk : ¬ a.1 < b.1) (hb : a.1 = b.1 → b.2 ≤ a.2) :
    keyOrder b a := by
  by_cases he : a.1 = b.1
  · exact .inr ⟨he.symm, hb he⟩
  · refine .inl ?_
    by_contra hlt
    exact he (String.le_antisymm (String.not_lt.mp hlt) (String.not_lt.mp hk))

theorem keyOrder.lt {a b : String × Int} (h : keyOrder a b) (hne : a ≠ b) (hk : a.1 = b.1) :
    a.2 < b.2 := by
  rcases h with h | ⟨-, h⟩
  · exact absurd (hk ▸ h) (String.lt_irrefl _)
  · exact lt_of_le_of_ne h fun hb => hne (Prod.ext hk hb)

/-- Market and bucket of a sample. -/
def MarketSample.place (sample : MarketSample F) : String × Int := (sample.key, sample.capturedBucket)

/-- The mirror path deduplicates by market and bucket. -/
theorem dedupeSamplesBySymbol_mirrorOrder (samples : List (MarketSample F)) :
    MirrorOrder (dedupeSamplesBySymbol samples) := by
  have hsorted : (dedupeSamplesBySymbol samples).Pairwise fun left right =>
      keyOrder left.place right.place := by
    apply pairwise_insertionSort_of
    · rintro left right (h | ⟨hk, h | ⟨h, -⟩⟩)
      · exact .inl h
      · exact .inr ⟨hk, h.le⟩
      · exact .inr ⟨hk, h.le⟩
    · intro left right h
      refine keyOrder_of_not (fun hlt => h (.inl hlt)) fun he => ?_
      by_contra hlt
      exact h (.inr ⟨he, .inl (not_le.mp hlt)⟩)
    · intro a b c
      exact keyOrder_trans
  have hnodup : ((dedupeSamplesBySymbol samples).map MarketSample.place).Nodup :=
    ((List.perm_insertionSort _ _).map _).nodup_iff.mpr (nodup_latestByKey samples)
  refine List.Pairwise.imp₂ ?_ hsorted (List.pairwise_map.mp hnodup)
  intro left right h hne hk
  exact h.lt hne hk

variable [LawfulTimes F]

section Mirror
variable {bucketSeconds : Nat} (hs : 0 < bucketSeconds) (hh : (0.0 : F) ≤ horizon)
  (hcache : ∀ key, ∀ sample ∈ cache key, sample.Bucketed bucketSeconds)
  (hin : ∀ key, InBuckets (cache key))
include hs hh hcache hin

/-- What a mirror load has done so far to a sample that it found: it is there or has left as too old,
and nothing else is in its bucket. -/
theorem mirror_keeps_found (hsamples : ∀ sample ∈ samples, sample.Bucketed bucketSeconds)
    (ho : MirrorOrder samples) {old : MarketSample F} (hold : old ∈ cache key) :
    (old ∈ mergeSamplesWithPrecedence horizon false cache samples key ∨
      ∃ sample ∈ samples, sample.key = key ∧
        old.capturedTs + Scalar.epsilon < sample.capturedTs - horizon) ∧
    ∀ new ∈ mergeSamplesWithPrecedence horizon false cache samples key,
      new.capturedBucket = old.capturedBucket → new = old := by
  induction samples using List.reverseRecOn with
  | nil => exact ⟨.inl hold, fun new hn hb => (hin key).inj hn hold hb⟩
  | append_singleton samples last ih =>
    obtain ⟨hfront, -, hlast⟩ := List.pairwise_append.mp ho
    obtain ⟨hstay, honly⟩ := ih (fun sample hm => hsamples sample (List.mem_append_left _ hm)) hfront
    have hmem : last ∈ samples ++ [last] := List.mem_append_right _ (List.mem_singleton_self _)
    rw [mergeSamplesWithPrecedence_concat, Function.update_apply]
    split_ifs with hk
    · subst hk
      constructor
      · rcases hstay with hstay | ⟨sample, hm, hsk, hold⟩
        · have hleft : old ∈ mergeSample horizon false
              (mergeSamplesWithPrecedence horizon false cache samples last.key) last ∨
                old.capturedTs + Scalar.epsilon < last.capturedTs - horizon :=
            mem_evict (mem_placeSample_of_mem hstay)
          exact hleft.imp id fun h => ⟨last, hmem, rfl, h⟩
        · exact .inr ⟨sample, List.mem_append_left _ hm, hsk, hold⟩
      · intro new hn hb
        rcases mem_placeSample_mirror (evict_sublist.mem hn) with hn | ⟨rfl, hempty⟩
        · exact honly new hn hb
        · rcases hstay with hstay | ⟨sample, hm, hsk, hlt⟩
          · exact absurd hb.symm (hempty old hstay)
          · -- It left for an earlier bucket of the load, so its own bucket was not so old.
            have hbefore := hlast sample hm _ (List.mem_singleton_self _) hsk
            rw [hb] at hbefore
            have hle := MarketSample.ts_le_of_bucket_lt hs
              (hsamples sample (List.mem_append_left _ hm)) (hcache _ old hold) hbefore
            exact absurd hle (LawfulTimes.not_le_of_evicted hh hlt)
    · refine ⟨hstay.imp id ?_, honly⟩
      rintro ⟨sample, hm, h⟩
      exact ⟨sample, List.mem_append_left _ hm, h⟩

end Mirror

end Merge

end Gail.Datalake
