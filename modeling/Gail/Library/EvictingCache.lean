import Gail.Library.Run
import Mathlib.Data.List.AList

/-! A map with a limit on its entries, where an entry of any other key makes room for a key that is new. What a run
leaves in it of a key is the latest value of the key. -/
namespace Gail.Library

structure EvictingCache (κ ν : Type) [DecidableEq κ] (limit : Nat) where
  entries : AList fun _ : κ => ν
  bounded : entries.keys.length ≤ limit

namespace EvictingCache
variable {κ ν : Type} [DecidableEq κ] {limit : Nat}

def empty : EvictingCache κ ν limit := ⟨∅, Nat.zero_le _⟩

def get (cache : EvictingCache κ ν limit) (key : κ) : Option ν := cache.entries.lookup key

/-- A full map loses the entry at the place, counted round, for a key that it does not have. -/
def roomFor (cache : EvictingCache κ ν limit) (place : Nat) (key : κ) : AList fun _ : κ => ν :=
  if limit ≤ cache.entries.keys.length ∧ key ∉ cache.entries then
    match cache.entries.keys[place % cache.entries.keys.length]? with
    | some evicted => cache.entries.erase evicted
    | none => cache.entries
  else cache.entries

theorem length_roomFor [Fact (0 < limit)] (cache : EvictingCache κ ν limit) (place : Nat) (key : κ) :
    ((cache.roomFor place key).keys.erase key).length < limit := by
  have hbound := cache.bounded
  have hlimit : 0 < limit := Fact.out
  unfold roomFor
  by_cases hfull : limit ≤ cache.entries.keys.length ∧ key ∉ cache.entries
  · have hplace : place % cache.entries.keys.length < cache.entries.keys.length := Nat.mod_lt _ (by omega)
    rw [if_pos hfull, List.getElem?_eq_getElem hplace]
    have hrest := List.length_erase_of_mem (List.getElem_mem hplace)
    have hle := List.length_erase_le (a := key)
      (l := cache.entries.keys.erase cache.entries.keys[place % cache.entries.keys.length])
    simp only [AList.keys_erase]
    omega
  · rw [if_neg hfull]
    by_cases hroom : limit ≤ cache.entries.keys.length
    · have hkey : key ∈ cache.entries := not_not.mp fun hkey => hfull ⟨hroom, hkey⟩
      rw [List.length_erase_of_mem (AList.mem_keys.mp hkey)]
      omega
    · have hle := List.length_erase_le (a := key) (l := cache.entries.keys)
      omega

/-- The value takes the place of another one of its key. -/
def store [Fact (0 < limit)] (cache : EvictingCache κ ν limit) (place : Nat) (key : κ) (value : ν) :
    EvictingCache κ ν limit where
  entries := (cache.roomFor place key).insert key value
  bounded := by
    rw [AList.keys_insert]
    exact cache.length_roomFor place key

@[simp] theorem get_empty (key : κ) : (empty : EvictingCache κ ν limit).get key = none := AList.lookup_empty key

theorem get_store_self [Fact (0 < limit)] (cache : EvictingCache κ ν limit) (place : Nat) (key : κ) (value : ν) :
    (cache.store place key value).get key = some value :=
  AList.lookup_insert _

/-- Making room takes entries away and changes none. -/
theorem lookup_roomFor {cache : EvictingCache κ ν limit} {place : Nat} {key other : κ} {value : ν}
    (h : (cache.roomFor place key).lookup other = some value) : cache.get other = some value := by
  unfold roomFor at h
  split at h
  · split at h
    · next evicted _ =>
      by_cases hne : other = evicted
      · rw [hne, AList.lookup_erase] at h
        cases h
      · rwa [AList.lookup_erase_ne hne] at h
    · exact h
  · exact h

theorem get_of_get_store [Fact (0 < limit)] {cache : EvictingCache κ ν limit} {place : Nat} {key other : κ}
    {stored value : ν} (hne : other ≠ key) (h : (cache.store place key stored).get other = some value) :
    cache.get other = some value :=
  lookup_roomFor ((AList.lookup_insert_ne hne).symm.trans h)

section Runs
variable {α : Type} [Fact (0 < limit)] (put : α → Option (κ × ν)) (place : α → Nat)

/-- An event stores what it puts. -/
def afterEvent (cache : EvictingCache κ ν limit) (event : α) : EvictingCache κ ν limit :=
  match put event with
  | some (key, value) => cache.store (place event) key value
  | none => cache

/-- The event put the value under the key, and no event after it put another one there. -/
def LatestPut (events : List α) (event : α) (key : κ) (value : ν) : Prop :=
  ∃ earlier later, events = earlier ++ event :: later ∧ put event = some (key, value) ∧
    ∀ next ∈ later, ∀ other, put next ≠ some (key, other)

variable {put}

omit [DecidableEq κ] in
theorem LatestPut.concat {events : List α} {event last : α} {key : κ} {value : ν}
    (h : LatestPut put events event key value) (hlast : ∀ other, put last ≠ some (key, other)) :
    LatestPut put (events ++ [last]) event key value := by
  obtain ⟨earlier, later, rfl, hput, hlater⟩ := h
  refine ⟨earlier, later ++ [last], by rw [List.append_assoc, List.cons_append], hput, ?_⟩
  intro next hnext
  rcases List.mem_append.mp hnext with hold | hnew
  · exact hlater next hold
  · rw [List.mem_singleton.mp hnew]
    exact hlast

/-- What is found after a run is what was put there last. -/
theorem latestPut_of_get {events : List α} {key : κ} {value : ν}
    (h : (run (afterEvent put place) (empty : EvictingCache κ ν limit) events).get key = some value) :
    ∃ event, LatestPut put events event key value := by
  induction events using List.reverseRecOn with
  | nil =>
    rw [run_nil, get_empty] at h
    cases h
  | append_singleton events last ih =>
    rw [run_append, run_cons, run_nil] at h
    cases hput : put last with
    | none =>
      rw [afterEvent, hput] at h
      obtain ⟨event, hevent⟩ := ih h
      refine ⟨event, hevent.concat fun other => ?_⟩
      rw [hput]
      exact Option.some_ne_none _ ∘ Eq.symm
    | some stored =>
      obtain ⟨own, newest⟩ := stored
      rw [afterEvent, hput] at h
      by_cases hkey : key = own
      · subst hkey
        have hvalue : newest = value := Option.some.inj ((get_store_self _ _ _ _).symm.trans h)
        exact ⟨last, events, [], rfl, by rw [hput, hvalue], nofun⟩
      · obtain ⟨event, hevent⟩ := ih (get_of_get_store hkey h)
        refine ⟨event, hevent.concat fun other hother => hkey ?_⟩
        exact (congrArg Prod.fst (Option.some.inj (hput.symm.trans hother))).symm

end Runs

end EvictingCache

end Gail.Library
