import Gail.Alexa.PendingAnswers
import Mathlib.Data.List.Nodup
import Mathlib.Data.List.Perm.Subperm

/-! Who has an answer: each one is with one pending entry or one waiting request at a time, until it is
spoken or its task is aborted. -/
namespace Gail.Alexa
open Gail.Library

section Map
variable {now : Nat} {pending : PendingMap} {session : String} {entry : PendingAnswer}

theorem mem_remove {item : String × PendingAnswer} :
    item ∈ pending.remove session ↔ item ∈ pending ∧ item.1 ≠ session := by
  simp [PendingMap.remove]

/-- The entry of a session in a map whose keys differ. -/
theorem find_of_mem (hk : (pending.map Prod.fst).Nodup) (hm : (session, entry) ∈ pending) :
    (pending.find? fun item => item.1 = session) = some (session, entry) := by
  cases hf : pending.find? fun item => item.1 = session with
  | none => exact absurd (List.find?_eq_none.mp hf _ hm) (by simp)
  | some item =>
    have hkey : item.1 = session := by simpa using List.find?_some hf
    rw [List.inj_on_of_nodup_map hk (List.mem_of_find?_eq_some hf) hm hkey]

theorem nodup_remove (hk : (pending.map Prod.fst).Nodup) :
    ((pending.remove session).map Prod.fst).Nodup :=
  hk.sublist (List.filter_sublist.map Prod.fst)

/-- What is taken, in a map whose keys differ. -/
theorem takePending_mem (hk : (pending.map Prod.fst).Nodup) (hm : (session, entry) ∈ pending) :
    (takePending now pending (some session)).2 = if entry.fresh now then some entry else none := by
  rw [takePending, find_of_mem hk hm]
  rfl

theorem of_takePending {wanted : Option String}
    (h : (takePending now pending wanted).2 = some entry) :
    ∃ session, wanted = some session ∧ (session, entry) ∈ pending := by
  cases wanted with
  | none => exact absurd h (by simp [takePending])
  | some session =>
    obtain ⟨item, hf, rfl⟩ := Option.map_eq_some_iff.mp (Option.filter_eq_some_iff.mp h).1
    have hkey : item.1 = session := by simpa using List.find?_some hf
    exact ⟨session, rfl, hkey ▸ List.mem_of_find?_eq_some hf⟩

theorem takePending_sublist (wanted : Option String) :
    (takePending now pending wanted).1.Sublist pending := by
  cases wanted with
  | none => exact List.Sublist.refl _
  | some session => exact List.filter_sublist

theorem evict_cases (pending : PendingMap) :
    (pending.length < maxPendingAnswers ∧ pending.evict = (pending, [])) ∨
      ∃ oldest ∈ pending, pending.evict = (pending.remove oldest.1, [oldest.2.handle]) := by
  rw [PendingMap.evict]
  split
  · rename_i hfull
    cases hm : pending.argmin fun entry => entry.2.created with
    | none =>
      rw [List.argmin_eq_none.mp hm] at hfull
      exact absurd hfull (by decide)
    | some oldest => exact .inr ⟨oldest, List.argmin_mem hm, rfl⟩
  · exact .inl ⟨by omega, rfl⟩

/-- Before a new entry is put in, the map has room for it. -/
theorem evict_room (h : pending.length ≤ maxPendingAnswers) :
    pending.evict.1.Sublist pending ∧ pending.evict.1.length < maxPendingAnswers := by
  obtain ⟨hlt, he⟩ | ⟨oldest, hm, he⟩ := evict_cases pending
  · rw [he]
    exact ⟨List.Sublist.refl _, hlt⟩
  · rw [he]
    refine ⟨List.filter_sublist, lt_of_lt_of_le ?_ h⟩
    exact List.length_filter_lt_length_iff_exists.mpr ⟨oldest, hm, by simp⟩

/-- An entry that goes is aborted. -/
theorem evict_left (hk : (pending.map Prod.fst).Nodup) (hm : (session, entry) ∈ pending) :
    (session, entry) ∈ pending.evict.1 ∨ entry.handle ∈ pending.evict.2 := by
  obtain ⟨-, he⟩ | ⟨oldest, ho, he⟩ := evict_cases pending
  · rw [he]
    exact .inl hm
  · rw [he]
    by_cases hs : session = oldest.1
    · have hsame : (session, entry) = oldest := List.inj_on_of_nodup_map hk hm ho hs
      exact .inr (by rw [← hsame]; exact List.mem_singleton_self _)
    · exact .inl (mem_remove.mpr ⟨hm, hs⟩)

section Store
variable (now) (pending) (session) (entry)

/-- The entries that have not expired, as far as a full map keeps them. -/
def roomed : PendingMap := (PendingMap.evict (pending.filter fun entry => entry.2.fresh now)).1

theorem storePending_fst : (storePending now pending session entry).1 =
    (roomed now pending).remove session ++ [(session, entry)] := rfl

variable {now} {pending} {session} {entry}

theorem roomed_spec (h : pending.length ≤ maxPendingAnswers) :
    (roomed now pending).Sublist pending ∧ (roomed now pending).length < maxPendingAnswers := by
  have hlen := List.length_filter_le (fun entry => entry.2.fresh now) pending
  obtain ⟨hsub, hlt⟩ := evict_room (hlen.trans h)
  exact ⟨hsub.trans List.filter_sublist, hlt⟩

theorem storePending_length (h : pending.length ≤ maxPendingAnswers) :
    (storePending now pending session entry).1.length ≤ maxPendingAnswers := by
  have hlt : (roomed now pending).length < maxPendingAnswers := (roomed_spec h).2
  have hle : ((roomed now pending).remove session).length ≤ (roomed now pending).length :=
    List.length_filter_le _ _
  rw [storePending_fst, List.length_append, List.length_singleton]
  omega

theorem storePending_nodup (h : pending.length ≤ maxPendingAnswers)
    (hk : (pending.map Prod.fst).Nodup) :
    ((storePending now pending session entry).1.map Prod.fst).Nodup := by
  have hroom : ((roomed now pending).map Prod.fst).Nodup :=
    hk.sublist ((roomed_spec h).1.map Prod.fst)
  rw [storePending_fst, List.map_append, List.map_singleton]
  refine (nodup_remove hroom).append (List.nodup_singleton _) ?_
  intro key hm hs
  obtain ⟨item, hi, rfl⟩ := List.mem_map.mp hm
  exact (mem_remove.mp hi).2 (List.mem_singleton.mp hs)

theorem storePending_mem (h : pending.length ≤ maxPendingAnswers) {item : String × PendingAnswer}
    (hm : item ∈ (storePending now pending session entry).1) :
    item = (session, entry) ∨ item ∈ pending ∧ item.1 ≠ session := by
  rw [storePending_fst] at hm
  rcases List.mem_append.mp hm with hold | hnew
  · obtain ⟨hroom, hne⟩ := mem_remove.mp hold
    exact .inr ⟨(roomed_spec h).1.subset hroom, hne⟩
  · exact .inl (List.mem_singleton.mp hnew)

/-- Every entry that does not stay is aborted: it was superseded, evicted or expired. -/
theorem storePending_left (hk : (pending.map Prod.fst).Nodup) {key : String} {old : PendingAnswer}
    (hm : (key, old) ∈ pending) :
    (key, old) ∈ (storePending now pending session entry).1 ∨
      old.handle ∈ (storePending now pending session entry).2 := by
  have hkept : ((pending.filter fun entry => entry.2.fresh now).map Prod.fst).Nodup :=
    hk.sublist (List.filter_sublist.map Prod.fst)
  have hhandle {list : PendingMap} (hl : (key, old) ∈ list) : old.handle ∈ list.handles :=
    List.mem_map.mpr ⟨(key, old), hl, rfl⟩
  by_cases hf : old.fresh now = true
  · rcases evict_left hkept (List.mem_filter.mpr ⟨hm, hf⟩) with hroom | hgone
    · by_cases hs : key = session
      · have hprevious : old.handle ∈ PendingMap.handles
            ((roomed now pending).filter fun entry => entry.1 = session) :=
          hhandle (List.mem_filter.mpr ⟨hroom, decide_eq_true hs⟩)
        exact .inr (List.mem_append_right _ hprevious)
      · exact .inl (List.mem_append_left _ (mem_remove.mpr ⟨hroom, hs⟩))
    · exact .inr (List.mem_append_left _ (List.mem_append_right _ hgone))
  · have hexpired : old.handle ∈ PendingMap.handles
        (pending.filter fun entry => !entry.2.fresh now) :=
      hhandle (List.mem_filter.mpr ⟨hm, by simpa using hf⟩)
    exact .inr (List.mem_append_left _ (List.mem_append_left _ hexpired))

end Store
end Map

section Abort
variable {handles : List Nat} {task : Nat → TaskState} {handle : Nat}

theorem abortAll_running :
    abortAll handles task handle = .running ↔ handle ∉ handles ∧ task handle = .running := by
  rw [abortAll]
  split
  · rename_i h
    exact iff_of_false (by simp) fun hn => hn.1 h.1
  · rename_i h
    exact ⟨fun hr => ⟨fun hm => h ⟨hm, hr⟩, hr⟩, fun hr => hr.2⟩

end Abort

/-- Where the handle of an answer can be. -/
inductive Place where
  | pending (session : String)
  | request (request : Nat)

namespace AlexaWorld

/-- The place has the answer's handle, on behalf of the session. -/
def Holds (w : AlexaWorld) (answer : Nat) (session : Option String) : Place → Prop
  | .pending key => session = some key ∧ ∃ entry, (key, entry) ∈ w.pending ∧ entry.handle = answer
  | .request request => ∃ query history, w.request request = .waiting session answer query history

/-- What every state keeps to. -/
structure Sound (w : AlexaWorld) : Prop where
  keys : (w.pending.map Prod.fst).Nodup
  bounded : w.pending.length ≤ maxPendingAnswers
  single : ∀ answer session other place place', w.Holds answer session place →
    w.Holds answer other place' → place = place'
  spawned : ∀ answer session place, w.Holds answer session place → answer < w.spawned
  asker : ∀ answer session place, w.Holds answer session place → w.asker answer = session
  parked : ∀ key entry, (key, entry) ∈ w.pending → entry.handle ∈ w.parked
  parked_lt : ∀ answer ∈ w.parked, answer < w.spawned
  spoken_lt : ∀ item ∈ w.spoken, item.1 < w.spawned
  spoken_asker : ∀ item ∈ w.spoken, w.asker item.1 = item.2
  spoken_free : ∀ item ∈ w.spoken, ∀ session place, ¬ w.Holds item.1 session place
  spoken_once : (w.spoken.map Prod.fst).Nodup
  replying : ∀ request answer response, w.request request = .replying (some answer) response →
    answer ∈ w.spoken.map Prod.fst
  accounted : ∀ answer ∈ w.parked, (∃ session place, w.Holds answer session place) ∨
    w.task answer ≠ .running
  undelivered : w.undelivered = none

/-- A step that only lets go of answers, and aborts what it lets go of. -/
structure LetsGo (w after : AlexaWorld) : Prop where
  pending : after.pending.Subperm w.pending
  waiting : ∀ request session answer query history,
    after.request request = .waiting session answer query history →
      w.request request = .waiting session answer query history
  replying : ∀ request answer response, after.request request = .replying (some answer) response →
    w.request request = .replying (some answer) response
  task : ∀ answer, after.task answer = .running → w.task answer = .running
  spawned : after.spawned = w.spawned
  asker : after.asker = w.asker
  parked : after.parked = w.parked
  spoken : after.spoken = w.spoken
  left : ∀ answer ∈ w.parked, ∀ session place, w.Holds answer session place →
    after.Holds answer session place ∨ after.task answer ≠ .running
  undelivered : after.undelivered = none

/-- A step that brings one answer to a place, and aborts the parked answers it lets go of. -/
structure Brings (w after : AlexaWorld) (answer : Nat) (session : Option String) (place : Place) :
    Prop where
  keys : (after.pending.map Prod.fst).Nodup
  bounded : after.pending.length ≤ maxPendingAnswers
  holds : ∀ other session' place', after.Holds other session' place' →
    w.Holds other session' place' ∧ other ≠ answer ∨
      other = answer ∧ session' = session ∧ place' = place
  there : after.Holds answer session place
  spawned : w.spawned ≤ after.spawned ∧ answer < after.spawned
  asker : after.asker answer = session ∧ ∀ other < w.spawned, after.asker other = w.asker other
  pending_parked : ∀ key entry, (key, entry) ∈ after.pending → entry.handle ∈ after.parked
  parked : ∀ other ∈ after.parked, other ∈ w.parked ∨ other = answer
  spoken : after.spoken = w.spoken ∧ answer ∉ w.spoken.map Prod.fst
  replying : ∀ request other response, after.request request = .replying (some other) response →
    w.request request = .replying (some other) response
  task : ∀ other, other ≠ answer → after.task other = .running → w.task other = .running
  left : ∀ other ∈ w.parked, other ≠ answer → ∀ session' place', w.Holds other session' place' →
    after.Holds other session' place' ∨ after.task other ≠ .running
  undelivered : after.undelivered = none

variable {w after : AlexaWorld}

theorem LetsGo.holds (h : w.LetsGo after) {answer : Nat} {session : Option String} {place : Place}
    (hh : after.Holds answer session place) : w.Holds answer session place := by
  cases place with
  | pending key =>
    obtain ⟨rfl, entry, hm, he⟩ := hh
    exact ⟨rfl, entry, h.pending.subset hm, he⟩
  | request request =>
    obtain ⟨query, history, hr⟩ := hh
    exact ⟨query, history, h.waiting _ _ _ _ _ hr⟩

theorem Sound.letsGo (hs : w.Sound) (h : w.LetsGo after) : after.Sound where
  keys := by
    obtain ⟨kept, hp, hsub⟩ := h.pending
    exact (hp.map Prod.fst).nodup_iff.mp (hs.keys.sublist (hsub.map Prod.fst))
  bounded := h.pending.length_le.trans hs.bounded
  single answer session other place place' hp ho := hs.single _ _ _ _ _ (h.holds hp) (h.holds ho)
  spawned answer session place hp := h.spawned ▸ hs.spawned _ _ _ (h.holds hp)
  asker answer session place hp := h.asker ▸ hs.asker _ _ _ (h.holds hp)
  parked key entry hm := h.parked ▸ hs.parked key entry (h.pending.subset hm)
  parked_lt answer hm := h.spawned ▸ hs.parked_lt answer (h.parked ▸ hm)
  spoken_lt item hm := h.spawned ▸ hs.spoken_lt item (h.spoken ▸ hm)
  spoken_asker item hm := h.asker ▸ hs.spoken_asker item (h.spoken ▸ hm)
  spoken_free item hm session place hh := hs.spoken_free item (h.spoken ▸ hm) _ _ (h.holds hh)
  spoken_once := h.spoken ▸ hs.spoken_once
  replying request answer response hr := h.spoken ▸ hs.replying _ _ _ (h.replying _ _ _ hr)
  accounted answer hm := by
    rw [h.parked] at hm
    rcases hs.accounted answer hm with ⟨session, place, hp⟩ | hn
    · exact (h.left answer hm session place hp).imp (fun hh => ⟨session, place, hh⟩) id
    · exact .inr fun hr => hn (h.task answer hr)
  undelivered := h.undelivered

theorem Sound.brings (hs : w.Sound) {answer : Nat} {session : Option String} {place : Place}
    (h : w.Brings after answer session place) : after.Sound where
  keys := h.keys
  bounded := h.bounded
  single a s s' p p' hp hp' := by
    obtain ⟨hold, hne⟩ | ⟨rfl, rfl, rfl⟩ := h.holds _ _ _ hp
    · obtain ⟨hold', -⟩ | ⟨rfl, -, -⟩ := h.holds _ _ _ hp'
      · exact hs.single _ _ _ _ _ hold hold'
      · exact absurd rfl hne
    · obtain ⟨-, hne⟩ | ⟨-, -, rfl⟩ := h.holds _ _ _ hp'
      · exact absurd rfl hne
      · rfl
  spawned a s p hp := by
    obtain ⟨hold, -⟩ | ⟨rfl, -, -⟩ := h.holds _ _ _ hp
    · exact (hs.spawned _ _ _ hold).trans_le h.spawned.1
    · exact h.spawned.2
  asker a s p hp := by
    obtain ⟨hold, -⟩ | ⟨rfl, rfl, -⟩ := h.holds _ _ _ hp
    · exact (h.asker.2 a (hs.spawned _ _ _ hold)).trans (hs.asker _ _ _ hold)
    · exact h.asker.1
  parked := h.pending_parked
  parked_lt a hm := by
    rcases h.parked a hm with hold | rfl
    · exact (hs.parked_lt a hold).trans_le h.spawned.1
    · exact h.spawned.2
  spoken_lt item hm := (hs.spoken_lt item (h.spoken.1 ▸ hm)).trans_le h.spawned.1
  spoken_asker item hm := by
    rw [h.spoken.1] at hm
    exact (h.asker.2 _ (hs.spoken_lt item hm)).trans (hs.spoken_asker item hm)
  spoken_free item hm s p hp := by
    rw [h.spoken.1] at hm
    obtain ⟨hold, -⟩ | ⟨rfl, -, -⟩ := h.holds _ _ _ hp
    · exact hs.spoken_free item hm s p hold
    · exact h.spoken.2 (List.mem_map_of_mem hm)
  spoken_once := h.spoken.1 ▸ hs.spoken_once
  replying request a response hr := h.spoken.1 ▸ hs.replying _ _ _ (h.replying _ _ _ hr)
  accounted a hm := by
    by_cases ha : a = answer
    · exact .inl ⟨session, place, ha ▸ h.there⟩
    · have hold : a ∈ w.parked := (h.parked a hm).resolve_right ha
      rcases hs.accounted a hold with ⟨s, p, hp⟩ | hn
      · exact (h.left a hold ha s p hp).imp (fun hh => ⟨s, p, hh⟩) id
      · exact .inr fun hr => hn (h.task a ha hr)
  undelivered := h.undelivered

section Steps
variable {request other answer : Nat} {session : Option String} {query : String}
  {history : List Turn} {state : RequestState}

@[simp] theorem setRequest_self : (w.setRequest request state).request request = state :=
  Function.update_self ..

theorem setRequest_ne (h : other ≠ request) :
    (w.setRequest request state).request other = w.request other :=
  Function.update_of_ne h ..

/-- A request stops waiting, when it holds no answer that is still being worked on. -/
theorem setRequest_letsGo (hu : w.undelivered = none)
    (hstate : ∀ session answer query history, state ≠ .waiting session answer query history)
    (hreply : ∀ answer response, state ≠ .replying (some answer) response)
    (hended : ∀ answer ∈ w.parked, ∀ session, w.Holds answer session (.request request) →
      w.task answer ≠ .running) :
    w.LetsGo (w.setRequest request state) where
  pending := List.Subperm.refl _
  waiting other session answer query history h := by
    rcases eq_or_ne other request with rfl | ho
    · exact absurd (setRequest_self.symm.trans h) (hstate _ _ _ _)
    · rwa [setRequest_ne ho] at h
  replying other answer response h := by
    rcases eq_or_ne other request with rfl | ho
    · exact absurd (setRequest_self.symm.trans h) (hreply _ _)
    · rwa [setRequest_ne ho] at h
  task answer h := h
  spawned := rfl
  asker := rfl
  parked := rfl
  spoken := rfl
  left answer hm session place hp := by
    cases place with
    | pending key => exact .inl hp
    | request other =>
      rcases eq_or_ne other request with rfl | hne
      · exact .inr (hended answer hm session hp)
      · obtain ⟨query, history, hr⟩ := hp
        exact .inl ⟨query, history, (setRequest_ne hne).trans hr⟩
  undelivered := hu

/-- Time passes, the map is iterated in another order, tasks end. -/
theorem frame_letsGo (hu : w.undelivered = none) {now : Nat} {pending : PendingMap}
    {task : Nat → TaskState} (hp : pending.Perm w.pending)
    (ht : ∀ answer, task answer = .running → w.task answer = .running) :
    w.LetsGo { w with now, pending, task } where
  pending := hp.subperm
  waiting other session answer query history h := h
  replying other answer response h := h
  task := ht
  spawned := rfl
  asker := rfl
  parked := rfl
  spoken := rfl
  left answer hm session place hh := by
    cases place with
    | pending key =>
      obtain ⟨rfl, entry, hmem, he⟩ := hh
      exact .inl ⟨rfl, entry, hp.symm.subset hmem, he⟩
    | request other => exact .inl hh
  undelivered := hu

/-- No entry of the session's that has expired leaves its task running. -/
def Spent (w : AlexaWorld) (session : Option String) : Prop :=
  ∀ key entry, session = some key → (key, entry) ∈ w.pending → ¬ entry.fresh w.now = true →
    w.task entry.handle ≠ .running

/-- The entry of a session leaves the map, and what is not handed over is aborted. -/
theorem take_letsGo (hs : w.Sound) (hspent : w.Spent session) (handles : List Nat)
    (htaken : ∀ entry, (takePending w.now w.pending session).2 = some entry →
      entry.handle ∈ handles) :
    w.LetsGo { w with pending := (takePending w.now w.pending session).1
                      task := abortAll handles w.task } where
  pending := (takePending_sublist session).subperm
  waiting other session answer query history h := h
  replying other answer response h := h
  task answer h := (abortAll_running.mp h).2
  spawned := rfl
  asker := rfl
  parked := rfl
  spoken := rfl
  left answer hm session' place hp := by
    cases place with
    | request other => exact .inl hp
    | pending key =>
      obtain ⟨rfl, entry, hmem, rfl⟩ := hp
      by_cases hk : session = some key
      · subst hk
        refine .inr fun hr => ?_
        obtain ⟨hnot, hrun⟩ := abortAll_running.mp hr
        by_cases hf : entry.fresh w.now = true
        · exact hnot (htaken entry ((takePending_mem hs.keys hmem).trans (if_pos hf)))
        · exact hspent key entry rfl hmem hf hrun
      · cases session with
        | none => exact .inl ⟨rfl, entry, hmem, rfl⟩
        | some wanted =>
          have hne : key ≠ wanted := fun he => hk (congrArg some he.symm)
          exact .inl ⟨rfl, entry, mem_remove.mpr ⟨hmem, hne⟩, rfl⟩
  undelivered := hs.undelivered

theorem clear_sound (hs : w.Sound) (hspent : w.Spent session) : (w.clear session).Sound := by
  have hgo := take_letsGo hs hspent
    ((takePending w.now w.pending session).2.map PendingAnswer.handle).toList
  refine hs.letsGo (hgo fun entry h => ?_)
  rw [h]
  exact List.mem_singleton_self _

theorem reply_sound (hs : w.Sound) {response : AlexaResponse} (hr : w.request request = .absent) :
    (w.setRequest request (.replying none response)).Sound := by
  refine hs.letsGo (setRequest_letsGo hs.undelivered nofun nofun ?_)
  rintro answer - session ⟨query, history, hw⟩
  exact absurd (hr.symm.trans hw) nofun

theorem ask_sound (hs : w.Sound) (hr : w.request request = .absent) :
    (w.ask request session query history).Sound := by
  have hfresh {other : Nat} (h : other < w.spawned) : other ≠ w.spawned := h.ne
  have hbrings : w.Brings (w.ask request session query history) w.spawned session
      (.request request) := {
    keys := hs.keys
    bounded := hs.bounded
    holds := fun other session' place' h => by
      cases place' with
      | pending key => exact .inl ⟨h, hfresh (hs.spawned other session' (.pending key) h)⟩
      | request r =>
        rcases eq_or_ne r request with rfl | hne
        · obtain ⟨query', history', h⟩ := h
          obtain ⟨rfl, rfl, -, -⟩ := RequestState.waiting.inj (setRequest_self.symm.trans h)
          exact .inr ⟨rfl, rfl, rfl⟩
        · obtain ⟨query', history', h⟩ := h
          rw [ask, setRequest_ne hne] at h
          have hold : w.Holds other session' (.request r) := ⟨query', history', h⟩
          exact .inl ⟨hold, hfresh (hs.spawned _ _ _ hold)⟩
    there := ⟨query, history, setRequest_self⟩
    spawned := ⟨Nat.le_succ _, Nat.lt_succ_self _⟩
    asker := ⟨Function.update_self .., fun other h => Function.update_of_ne (hfresh h) ..⟩
    pending_parked := hs.parked
    parked := fun other h => .inl h
    spoken := ⟨rfl, fun h => by
      obtain ⟨item, hm, he⟩ := List.mem_map.mp h
      exact hfresh (hs.spoken_lt item hm) he⟩
    replying := fun r other response h => by
      rcases eq_or_ne r request with rfl | hne
      · exact absurd (setRequest_self.symm.trans h) nofun
      · rwa [ask, setRequest_ne hne] at h
    task := fun other hne h => by
      rwa [← Function.update_of_ne hne TaskState.running w.task]
    left := fun other _ _ session' place' h => by
      cases place' with
      | pending key => exact .inl h
      | request r =>
        obtain ⟨query', history', h⟩ := h
        have hne : r ≠ request := by
          rintro rfl
          exact absurd (hr.symm.trans h) nofun
        exact .inl ⟨query', history', (setRequest_ne hne).trans h⟩
    undelivered := hs.undelivered }
  exact hs.brings hbrings

theorem yes_of_none (ht : (takePending w.now w.pending session).2 = none) :
    w.yes request session history =
      { w with pending := (takePending w.now w.pending session).1 }.setRequest request
        (.replying none (.speech nothingPending (some reprompt) false (some history))) := by
  revert ht
  rw [yes]
  rcases takePending w.now w.pending session with ⟨pending, taken⟩
  rintro rfl
  rfl

theorem yes_of_some {entry : PendingAnswer}
    (ht : (takePending w.now w.pending session).2 = some entry) :
    w.yes request session history =
      { w with pending := (takePending w.now w.pending session).1 }.setRequest request
        (.waiting session entry.handle entry.query entry.history) := by
  revert ht
  rw [yes]
  rcases takePending w.now w.pending session with ⟨pending, taken⟩
  rintro rfl
  rfl

/-- A yes that finds nothing, or only what has expired. -/
theorem yes_none_sound (hs : w.Sound) (hr : w.request request = .absent) (hspent : w.Spent session)
    (ht : (takePending w.now w.pending session).2 = none) :
    (w.yes request session history).Sound := by
  have hgo := take_letsGo hs hspent [] fun entry h => absurd (ht.symm.trans h) nofun
  have hnil : abortAll [] w.task = w.task := by
    funext answer
    simp [abortAll]
  rw [hnil] at hgo
  rw [yes_of_none ht]
  exact reply_sound (hs.letsGo hgo) hr

theorem yes_some_sound (hs : w.Sound) (hr : w.request request = .absent) {entry : PendingAnswer}
    (ht : (takePending w.now w.pending session).2 = some entry) :
    (w.yes request session history).Sound := by
  obtain ⟨key, rfl, hmem⟩ := of_takePending ht
  have hheld : w.Holds entry.handle (some key) (.pending key) := ⟨rfl, entry, hmem, rfl⟩
  have hlen : (w.pending.remove key).length ≤ w.pending.length := List.length_filter_le _ _
  rw [yes_of_some ht]
  have hbrings : w.Brings ({ w with pending := (takePending w.now w.pending (some key)).1 }.setRequest
      request (.waiting (some key) entry.handle entry.query entry.history)) entry.handle (some key)
      (.request request) := {
    keys := nodup_remove hs.keys
    bounded := hlen.trans hs.bounded
    holds := fun other session' place' h => by
      cases place' with
      | pending key' =>
        obtain ⟨rfl, entry', hm, rfl⟩ := h
        obtain ⟨hold, hne⟩ := mem_remove.mp hm
        refine .inl ⟨⟨rfl, entry', hold, rfl⟩, fun he => hne ?_⟩
        have hsame := hs.single _ _ _ (.pending key') _ ⟨rfl, entry', hold, he⟩ hheld
        exact Place.pending.inj hsame
      | request r =>
        obtain ⟨query', history', h⟩ := h
        rcases eq_or_ne r request with rfl | hne
        · obtain ⟨rfl, rfl, -, -⟩ := RequestState.waiting.inj (setRequest_self.symm.trans h)
          exact .inr ⟨rfl, rfl, rfl⟩
        · rw [setRequest_ne hne] at h
          refine .inl ⟨⟨query', history', h⟩, ?_⟩
          rintro rfl
          exact absurd (hs.single _ _ _ (.request r) _ ⟨query', history', h⟩ hheld) nofun
    there := ⟨entry.query, entry.history, setRequest_self⟩
    spawned := ⟨le_rfl, hs.spawned _ _ _ hheld⟩
    asker := ⟨hs.asker _ _ _ hheld, fun _ _ => rfl⟩
    pending_parked := fun key' entry' hm => hs.parked key' entry' (mem_remove.mp hm).1
    parked := fun other h => .inl h
    spoken := ⟨rfl, fun h => by
      obtain ⟨item, hm, he⟩ := List.mem_map.mp h
      exact hs.spoken_free item hm _ _ (he ▸ hheld)⟩
    replying := fun r other response h => by
      rcases eq_or_ne r request with rfl | hne
      · exact absurd (setRequest_self.symm.trans h) nofun
      · rwa [setRequest_ne hne] at h
    task := fun other _ h => h
    left := fun other _ hne session' place' h => by
      cases place' with
      | pending key' =>
        obtain ⟨rfl, entry', hm, rfl⟩ := h
        refine .inl ⟨rfl, entry', mem_remove.mpr ⟨hm, ?_⟩, rfl⟩
        rintro rfl
        exact hne (congrArg (fun item => item.2.handle)
          (List.inj_on_of_nodup_map hs.keys hm hmem rfl))
      | request r =>
        obtain ⟨query', history', h⟩ := h
        have hother : r ≠ request := by
          rintro rfl
          exact absurd (hr.symm.trans h) nofun
        exact .inl ⟨query', history', (setRequest_ne hother).trans h⟩
    undelivered := hs.undelivered }
  exact hs.brings hbrings

theorem park_some_sound (hs : w.Sound) {key : String} {entry : PendingAnswer}
    (hw : w.request request = .waiting (some key) entry.handle query history) :
    (w.park request (some key) entry).Sound := by
  have hheld : w.Holds entry.handle (some key) (.request request) := ⟨query, history, hw⟩
  have hmem : (key, entry) ∈ (storePending w.now w.pending key entry).1 :=
    List.mem_append_right _ (List.mem_singleton_self _)
  have hbrings : w.Brings (w.park request (some key) entry) entry.handle (some key)
      (.pending key) := {
    keys := storePending_nodup hs.bounded hs.keys
    bounded := storePending_length hs.bounded
    holds := fun other session' place' h => by
      cases place' with
      | pending key' =>
        obtain ⟨rfl, entry', hm, rfl⟩ := h
        rcases storePending_mem hs.bounded hm with he | ⟨hold, hne⟩
        · obtain ⟨rfl, rfl⟩ := Prod.mk.inj he
          exact .inr ⟨rfl, rfl, rfl⟩
        · refine .inl ⟨⟨rfl, entry', hold, rfl⟩, fun he => ?_⟩
          exact absurd (hs.single _ _ _ (.pending key') _ ⟨rfl, entry', hold, he⟩ hheld) nofun
      | request r =>
        obtain ⟨query', history', h⟩ := h
        rcases eq_or_ne r request with rfl | hne
        · exact absurd (setRequest_self.symm.trans h) nofun
        · have hold : w.request r = .waiting session' other query' history' :=
            (setRequest_ne hne).symm.trans h
          refine .inl ⟨⟨query', history', hold⟩, ?_⟩
          rintro rfl
          have hsame := hs.single _ _ _ (.request r) _ ⟨query', history', hold⟩ hheld
          exact hne (Place.request.inj hsame)
    there := ⟨rfl, entry, hmem, rfl⟩
    spawned := ⟨le_rfl, hs.spawned _ _ _ hheld⟩
    asker := ⟨hs.asker _ _ _ hheld, fun _ _ => rfl⟩
    pending_parked := fun key' entry' hm => by
      rcases storePending_mem hs.bounded hm with he | ⟨hold, -⟩
      · obtain ⟨rfl, rfl⟩ := Prod.mk.inj he
        exact List.mem_append_right _ (List.mem_singleton_self _)
      · exact List.mem_append_left _ (hs.parked key' entry' hold)
    parked := fun other h => (List.mem_append.mp h).imp id List.mem_singleton.mp
    spoken := ⟨rfl, fun h => by
      obtain ⟨item, hm, he⟩ := List.mem_map.mp h
      exact hs.spoken_free item hm _ _ (he ▸ hheld)⟩
    replying := fun r other response h => by
      rcases eq_or_ne r request with rfl | hne
      · exact absurd (setRequest_self.symm.trans h) nofun
      · exact (setRequest_ne hne).symm.trans h
    task := fun other _ h => (abortAll_running.mp h).2
    left := fun other _ hne session' place' h => by
      cases place' with
      | pending key' =>
        obtain ⟨rfl, entry', hm, rfl⟩ := h
        rcases storePending_left hs.keys hm with hin | hgone
        · exact .inl ⟨rfl, entry', hin, rfl⟩
        · exact .inr fun hrun => (abortAll_running.mp hrun).1 hgone
      | request r =>
        obtain ⟨query', history', h⟩ := h
        have hother : r ≠ request := by
          rintro rfl
          obtain ⟨-, he, -, -⟩ := RequestState.waiting.inj (hw.symm.trans h)
          exact hne he.symm
        exact .inl ⟨query', history', (setRequest_ne hother).trans h⟩
    undelivered := hs.undelivered }
  exact hs.brings hbrings

theorem park_none_sound (hs : w.Sound) {entry : PendingAnswer}
    (hw : w.request request = .waiting none entry.handle query history) :
    (w.park request none entry).Sound := by
  have hframe : w.LetsGo { w with task := abortAll [entry.handle] w.task } :=
    frame_letsGo hs.undelivered (List.Perm.refl w.pending) fun _ h => (abortAll_running.mp h).2
  refine (hs.letsGo hframe).letsGo (setRequest_letsGo hs.undelivered nofun nofun ?_)
  rintro answer - session ⟨query', history', h⟩ hrun
  obtain ⟨-, rfl, -, -⟩ := RequestState.waiting.inj (hw.symm.trans h)
  exact (abortAll_running.mp hrun).1 (List.mem_singleton_self _)

theorem speak_sound (hs : w.Sound) {response : AlexaResponse}
    (hw : w.request request = .waiting session answer query history)
    (hended : w.task answer ≠ .running) : (w.speak request session answer response).Sound := by
  have hheld : w.Holds answer session (.request request) := ⟨query, history, hw⟩
  have hback {other : Nat} {session' : Option String} {place : Place}
      (h : (w.speak request session answer response).Holds other session' place) :
      w.Holds other session' place ∧ other ≠ answer := by
    cases place with
    | pending key =>
      refine ⟨h, ?_⟩
      rintro rfl
      exact absurd (hs.single _ _ _ (.pending key) _ h hheld) nofun
    | request r =>
      obtain ⟨query', history', h⟩ := h
      rcases eq_or_ne r request with rfl | hne
      · exact absurd (setRequest_self.symm.trans h) nofun
      · have hold : w.request r = .waiting session' other query' history' :=
          (setRequest_ne hne).symm.trans h
        refine ⟨⟨query', history', hold⟩, ?_⟩
        rintro rfl
        have hsame := hs.single _ _ _ (.request r) _ ⟨query', history', hold⟩ hheld
        exact hne (Place.request.inj hsame)
  have hnot : answer ∉ w.spoken.map Prod.fst := by
    intro h
    obtain ⟨item, hm, he⟩ := List.mem_map.mp h
    exact hs.spoken_free item hm _ _ (he ▸ hheld)
  exact {
    keys := hs.keys
    bounded := hs.bounded
    single := fun _ _ _ _ _ hp hp' => hs.single _ _ _ _ _ (hback hp).1 (hback hp').1
    spawned := fun _ _ _ hp => hs.spawned _ _ _ (hback hp).1
    asker := fun _ _ _ hp => hs.asker _ _ _ (hback hp).1
    parked := hs.parked
    parked_lt := hs.parked_lt
    spoken_lt := fun item hm => by
      rcases List.mem_append.mp hm with hold | hnew
      · exact hs.spoken_lt item hold
      · rw [List.mem_singleton.mp hnew]
        exact hs.spawned _ _ _ hheld
    spoken_asker := fun item hm => by
      rcases List.mem_append.mp hm with hold | hnew
      · exact hs.spoken_asker item hold
      · rw [List.mem_singleton.mp hnew]
        exact hs.asker _ _ _ hheld
    spoken_free := fun item hm session' place hp => by
      rcases List.mem_append.mp hm with hold | hnew
      · exact hs.spoken_free item hold _ _ (hback hp).1
      · rw [List.mem_singleton.mp hnew] at hp
        exact (hback hp).2 rfl
    spoken_once := by
      have happ : (w.speak request session answer response).spoken.map Prod.fst =
          w.spoken.map Prod.fst ++ [answer] := List.map_append
      rw [happ]
      exact hs.spoken_once.append (List.nodup_singleton _)
        (List.disjoint_singleton.mpr hnot)
    replying := fun r other response' h => by
      rcases eq_or_ne r request with rfl | hne
      · obtain ⟨he, -⟩ := RequestState.replying.inj (setRequest_self.symm.trans h)
        obtain rfl := Option.some.inj he
        exact List.mem_map.mpr ⟨(answer, session),
          List.mem_append_right _ (List.mem_singleton_self _), rfl⟩
      · have hold := hs.replying r other response' ((setRequest_ne hne).symm.trans h)
        exact List.map_subset _ (List.subset_append_left _ _) hold
    accounted := fun other hm => by
      rcases hs.accounted other hm with ⟨session', place, hp⟩ | hn
      · by_cases ho : other = answer
        · exact .inr (ho ▸ hended)
        · refine .inl ⟨session', place, ?_⟩
          cases place with
          | pending key => exact hp
          | request r =>
            obtain ⟨query', history', h⟩ := hp
            have hne : r ≠ request := by
              rintro rfl
              obtain ⟨-, he, -, -⟩ := RequestState.waiting.inj (hw.symm.trans h)
              exact ho he.symm
            exact ⟨query', history', (setRequest_ne hne).trans h⟩
      · exact .inr hn
    undelivered := hs.undelivered }

end Steps
end AlexaWorld
end Gail.Alexa
