import Gail.Library.Run

/-! The readiness cache. The first refresh runs inside the future of the caller that found no value;
later ones run in tasks of their own. Everything between two await points is one step. -/
namespace Gail.Orchestration
open Gail.Library

structure ReadinessResponse where
  ready : Bool
  providersChecked : Nat
  providersReady : Nat
  reason : String
  deriving DecidableEq

structure CachedReadiness where
  response : ReadinessResponse
  refreshedAt : Nat
  deriving DecidableEq

structure ReadinessCacheState where
  value : Option CachedReadiness := none
  refreshInProgress : Bool := false
  deriving DecidableEq

/-- The response of `refresh_readiness` to the health of the providers that it probed. -/
def readinessResponse (orchestrationEnabled : Bool) (healthOk : List Bool) : ReadinessResponse :=
  let providersChecked := healthOk.length
  let providersReady := healthOk.countP id
  { ready := orchestrationEnabled && decide (0 < providersChecked) && decide (0 < providersReady)
    providersChecked
    providersReady
    reason :=
      if !orchestrationEnabled then "orchestration_disabled"
      else if providersChecked = 0 then "no_configured_providers"
      else if providersReady = 0 then "no_application_ready_providers"
      else "application_ready" }

/-- Where the future of one `readiness()` call stands. -/
inductive ReadinessCall where
  | absent
  /-- About to take the mutex of the cache. -/
  | locking
  /-- Registered with `refresh_finished`, the mutex released. -/
  | waiting
  /-- Inside `refresh_readiness`, which this future runs itself. -/
  | refreshing
  | returned (response : ReadinessResponse)
  | cancelled
  deriving DecidableEq

structure ReadinessWorld where
  cache : ReadinessCacheState
  call : Nat → ReadinessCall
  /-- How many spawned refreshes are live. -/
  background : Nat

/-- `notify_waiters` reaches every future that has been created, polled or not. -/
def ReadinessCall.notify : ReadinessCall → ReadinessCall
  | .waiting => .locking
  | call => call

inductive ReadinessAction where
  | start (caller : Nat)
  /-- The caller gets the mutex and runs to its next await point. -/
  | lock (caller : Nat) (now : Nat)
  /-- The refresh of a caller gets the mutex, stores its result and returns. -/
  | finish (caller : Nat) (healthOk : List Bool) (now : Nat)
  | finishBackground (healthOk : List Bool) (now : Nat)
  /-- The future of the caller is dropped. -/
  | cancel (caller : Nat)

namespace ReadinessWorld

def start : ReadinessWorld := { cache := {}, call := fun _ => .absent, background := 0 }

section Steps
variable (orchestrationEnabled : Bool) (ttl : Nat)

/-- The end of `refresh_readiness`: the result is stored and every waiter is notified. -/
def refreshed (w : ReadinessWorld) (response : ReadinessResponse) (now : Nat) : ReadinessWorld :=
  { w with
    cache := { value := some { response, refreshedAt := now }, refreshInProgress := false }
    call := fun caller => (w.call caller).notify }

def setCall (w : ReadinessWorld) (caller : Nat) (call : ReadinessCall) : ReadinessWorld :=
  { w with call := Function.update w.call caller call }

/-- One turn of the loop in `readiness`, under the mutex. -/
def readiness (w : ReadinessWorld) (caller now : Nat) : ReadinessWorld :=
  match w.cache.value with
  | some cached =>
    if now - cached.refreshedAt < ttl then w.setCall caller (.returned cached.response)
    else if !w.cache.refreshInProgress then
      { w.setCall caller (.returned cached.response) with
        cache := { w.cache with refreshInProgress := true }
        background := w.background + 1 }
    else w.setCall caller (.returned cached.response)
  | none =>
    if w.cache.refreshInProgress then w.setCall caller .waiting
    else
      { w.setCall caller .refreshing with cache := { w.cache with refreshInProgress := true } }

/-- An action that does not fit the phase of its caller does nothing. -/
def next (w : ReadinessWorld) : ReadinessAction → ReadinessWorld
  | .start caller => if w.call caller = .absent then w.setCall caller .locking else w
  | .lock caller now => if w.call caller = .locking then w.readiness ttl caller now else w
  | .finish caller healthOk now =>
    if w.call caller = .refreshing then
      let response := readinessResponse orchestrationEnabled healthOk
      (w.refreshed response now).setCall caller (.returned response)
    else w
  | .finishBackground healthOk now =>
    if 0 < w.background then
      { w.refreshed (readinessResponse orchestrationEnabled healthOk) now with
        background := w.background - 1 }
    else w
  | .cancel caller =>
    match w.call caller with
    | .locking | .waiting | .refreshing => w.setCall caller .cancelled
    | _ => w

end Steps

/-- Some run of `refresh_readiness` is still live. -/
def RefreshLive (w : ReadinessWorld) : Prop :=
  (∃ caller, w.call caller = .refreshing) ∨ 0 < w.background

/-- The action drops a future that runs the first refresh itself. -/
def Abandons (w : ReadinessWorld) (action : ReadinessAction) : Prop :=
  ∃ caller, action = .cancel caller ∧ w.call caller = .refreshing

/-- One refresh is live while the flag is up, and none otherwise. -/
structure Coalesced (w : ReadinessWorld) : Prop where
  live : w.cache.refreshInProgress = true → w.RefreshLive
  flag : w.RefreshLive → w.cache.refreshInProgress = true
  alone : ∀ caller, w.call caller = .refreshing →
    w.background = 0 ∧ ∀ other, w.call other = .refreshing → other = caller
  single : w.background ≤ 1
  waits : ∀ caller, w.call caller = .waiting → w.cache.refreshInProgress = true

section Lemmas
variable {orchestrationEnabled : Bool} {ttl : Nat} {w : ReadinessWorld} {caller now : Nat}
  {healthOk : List Bool}

theorem start_coalesced : start.Coalesced where
  live h := by cases h
  flag h := by
    rcases h with ⟨_, h⟩ | h
    · cases h
    · exact absurd h (lt_irrefl 0)
  alone _ h := by cases h
  single := Nat.zero_le 1
  waits _ h := by cases h

@[simp] theorem setCall_cache {call : ReadinessCall} : (w.setCall caller call).cache = w.cache := rfl

@[simp] theorem setCall_background {call : ReadinessCall} :
    (w.setCall caller call).background = w.background := rfl

theorem setCall_call {call : ReadinessCall} {other : Nat} :
    (w.setCall caller call).call other = if other = caller then call else w.call other :=
  Function.update_apply ..

/-- With nothing live and nobody waiting the flag is down. -/
theorem coalesced_of_quiet (hflag : w.cache.refreshInProgress = false) (hb : w.background = 0)
    (hr : ∀ caller, w.call caller ≠ .refreshing) (hw : ∀ caller, w.call caller ≠ .waiting) :
    w.Coalesced where
  live h := by rw [hflag] at h; cases h
  flag h := by
    rcases h with ⟨caller, h⟩ | h
    · exact absurd h (hr caller)
    · omega
  alone caller h := absurd h (hr caller)
  single := by omega
  waits caller h := absurd h (hw caller)

/-- A call that runs no refresh may move on, and wait while the flag is up. -/
theorem Coalesced.setCall (h : w.Coalesced) {call : ReadinessCall}
    (hold : w.call caller ≠ .refreshing) (hnew : call ≠ .refreshing)
    (hwait : call = .waiting → w.cache.refreshInProgress = true) :
    (w.setCall caller call).Coalesced := by
  have hsame : ∀ other, (w.setCall caller call).call other = .refreshing ↔
      w.call other = .refreshing := by
    intro other
    rw [setCall_call]
    split
    · next he => exact iff_of_false hnew (he ▸ hold)
    · rfl
  have hlive : (w.setCall caller call).RefreshLive ↔ w.RefreshLive := by
    simp only [RefreshLive, hsame, setCall_background]
  refine ⟨fun hf => hlive.mpr (h.live hf), fun hl => h.flag (hlive.mp hl), ?_, h.single, ?_⟩
  · intro other ho
    obtain ⟨hb, hu⟩ := h.alone other ((hsame other).mp ho)
    exact ⟨hb, fun another ha => hu another ((hsame another).mp ha)⟩
  · intro other ho
    rw [setCall_call] at ho
    split at ho
    · exact hwait ho
    · exact h.waits other ho

/-- A refresh starts from a state whose flag is down, so it is the only one. -/
theorem Coalesced.idle (h : w.Coalesced) (hf : w.cache.refreshInProgress = false) :
    w.background = 0 ∧ (∀ caller, w.call caller ≠ .refreshing) ∧
      ∀ caller, w.call caller ≠ .waiting := by
  have hquiet : ¬ w.RefreshLive := by
    intro hl
    rw [h.flag hl] at hf
    cases hf
  refine ⟨?_, ?_, ?_⟩
  · exact Nat.eq_zero_of_not_pos fun hb => hquiet (.inr hb)
  · intro caller hc
    exact hquiet (.inl ⟨caller, hc⟩)
  · intro caller hc
    rw [h.waits caller hc] at hf
    cases hf

theorem Coalesced.readiness (h : w.Coalesced) (hc : w.call caller = .locking) :
    (w.readiness ttl caller now).Coalesced := by
  have hold : w.call caller ≠ .refreshing := by rw [hc]; simp
  unfold ReadinessWorld.readiness
  split
  · next cached _ =>
    have hreturn : (w.setCall caller (.returned cached.response)).Coalesced :=
      h.setCall hold (by simp) (by simp)
    split
    · exact hreturn
    split
    · next hflag =>
      -- The refresh is spawned, so the caller returns and cannot take it down.
      obtain ⟨hb, hr, hw⟩ := hreturn.idle (by simpa using hflag)
      exact ⟨fun _ => .inr (Nat.succ_pos _), fun _ => rfl, fun other ho => absurd ho (hr other),
        by simpa using hb.le, fun other ho => absurd ho (hw other)⟩
    · exact hreturn
  · split
    · next hflag => exact h.setCall hold (by simp) fun _ => hflag
    · next hflag =>
      obtain ⟨hb, hr, hw⟩ := h.idle (by simpa using hflag)
      have honly : ∀ other, (w.setCall caller .refreshing).call other = .refreshing →
          other = caller := by
        intro other ho
        rw [setCall_call] at ho
        split at ho
        · assumption
        · exact absurd ho (hr other)
      refine ⟨fun _ => .inl ⟨caller, ?_⟩, fun _ => rfl, ?_, ?_, fun _ _ => rfl⟩
      · exact setCall_call.trans (if_pos rfl)
      · intro other ho
        exact ⟨hb, fun another ha => (honly another ha).trans (honly other ho).symm⟩
      · exact (Nat.le_of_eq hb).trans (Nat.zero_le 1)

/-- Nothing waits once a refresh has stored its result. -/
theorem refreshed_not_waiting (w : ReadinessWorld) (response : ReadinessResponse) (now other : Nat) :
    (w.refreshed response now).call other ≠ .waiting := by
  simp only [refreshed]
  cases w.call other <;> simp [ReadinessCall.notify]

theorem refreshed_refreshing (w : ReadinessWorld) (response : ReadinessResponse) (now other : Nat)
    (h : (w.refreshed response now).call other = .refreshing) : w.call other = .refreshing := by
  simp only [refreshed] at h
  cases hc : w.call other <;> simp_all [ReadinessCall.notify]

/-- Every step but an abandoned refresh keeps one refresh live exactly while the flag is up. -/
theorem Coalesced.next (h : w.Coalesced) {action : ReadinessAction} (ha : ¬ w.Abandons action) :
    (w.next orchestrationEnabled ttl action).Coalesced := by
  cases action with
  | start caller =>
    simp only [ReadinessWorld.next]
    split
    · next hc => exact h.setCall (by rw [hc]; simp) (by simp) (by simp)
    · exact h
  | lock caller now =>
    simp only [ReadinessWorld.next]
    split
    · next hc => exact h.readiness hc
    · exact h
  | finish caller healthOk now =>
    simp only [ReadinessWorld.next]
    split
    · next hc =>
      obtain ⟨hb, hu⟩ := h.alone caller hc
      refine coalesced_of_quiet rfl hb ?_ ?_
      · intro other
        rw [setCall_call]
        split
        · simp
        · next hne => exact fun ho => hne (hu other (refreshed_refreshing w _ now other ho))
      · intro other
        rw [setCall_call]
        split
        · simp
        · exact refreshed_not_waiting w _ now other
    · exact h
  | finishBackground healthOk now =>
    simp only [ReadinessWorld.next]
    split
    · next hb =>
      have hsingle := h.single
      have hr : ∀ other, w.call other ≠ .refreshing := by
        intro other ho
        have := (h.alone other ho).1
        omega
      generalize readinessResponse orchestrationEnabled healthOk = response
      refine coalesced_of_quiet rfl (by simp only; omega) ?_ ?_
      · exact fun other ho => hr other (refreshed_refreshing w response now other ho)
      · exact fun other => refreshed_not_waiting w response now other
    · exact h
  | cancel caller =>
    have hold : w.call caller ≠ .refreshing := fun hc => ha ⟨caller, rfl, hc⟩
    simp only [ReadinessWorld.next]
    split
    · exact h.setCall hold (by simp) (by simp)
    · exact h.setCall hold (by simp) (by simp)
    · next hc => exact absurd hc hold
    · exact h

/-- An abandoned refresh leaves the flag up with nothing live. -/
theorem Coalesced.abandoned (h : w.Coalesced) {action : ReadinessAction} (ha : w.Abandons action) :
    (w.next orchestrationEnabled ttl action).cache.refreshInProgress = true ∧
      ¬ (w.next orchestrationEnabled ttl action).RefreshLive := by
  obtain ⟨caller, rfl, hc⟩ := ha
  obtain ⟨hb, hu⟩ := h.alone caller hc
  have he : w.next orchestrationEnabled ttl (.cancel caller) = w.setCall caller .cancelled := by
    simp only [ReadinessWorld.next, hc]
  rw [he]
  refine ⟨h.flag (.inl ⟨caller, hc⟩), ?_⟩
  rintro (⟨other, ho⟩ | hl)
  · rw [setCall_call] at ho
    split at ho
    · cases ho
    · next hne => exact hne (hu other ho)
  · rw [setCall_background] at hl
    omega

/-- The flag is up, and a caller waits, only while a refresh is live. -/
def Attended (w : ReadinessWorld) : Prop :=
  (w.cache.refreshInProgress = true → w.RefreshLive) ∧
    ∀ caller, w.call caller = .waiting → w.RefreshLive

theorem Coalesced.attended (h : w.Coalesced) : w.Attended :=
  ⟨h.live, fun caller hc => h.live (h.waits caller hc)⟩

end Lemmas

/-- Over any run the refresh flag is attended in every state exactly if no caller is cancelled while
it runs the first refresh itself. -/
theorem refresh_attended_iff (orchestrationEnabled : Bool) (ttl : Nat)
    (actions : List ReadinessAction) :
    (∀ before, before <+: actions →
      (run (next orchestrationEnabled ttl) start before).Attended) ↔
    Along (next orchestrationEnabled ttl) (fun w action => ¬ w.Abandons action) start actions := by
  symm
  refine along_iff_prefixes (I := Coalesced) _ (fun w action hw ha => hw.next ha)
    (fun w hw => hw.attended) ?_ start_coalesced
  intro w action hw ha hattended
  obtain ⟨hflag, hquiet⟩ := hw.abandoned (not_not.mp ha)
  exact hquiet (hattended.1 hflag)

/-- The first caller is dropped during the cold start, and the next one waits for nobody. -/
theorem refresh_abandoned :
    ¬ ∀ before, before <+: [ReadinessAction.start 0, .lock 0 0, .cancel 0, .start 1, .lock 1 1] →
      (run (next true 30) start before).Attended := by
  intro h
  rcases (h _ List.prefix_rfl).2 1 rfl with ⟨caller, hc⟩ | hb
  · match caller with
    | 0 => cases hc
    | 1 => cases hc
    | caller + 2 => cases hc
  · exact absurd hb (lt_irrefl 0)

end ReadinessWorld

end Gail.Orchestration
