import Gail.Alexa.AnswerCustody

/-! What becomes of parked answers over a run: when each is spoken at most once and to its own session,
is aborted where it is given up, and is not lost with a client that goes away. -/
namespace Gail.Alexa
open Gail.Library

/-- Whether a request takes its session's pending answer out of the map. -/
def Wish.takes : Wish → Bool
  | .reply _ => false
  | .clear _ | .ask _ | .yes => true

namespace AlexaWorld

/-- What becomes of the answers up to now is as it should be. -/
structure Kept (w : AlexaWorld) : Prop where
  spoken_once : (w.spoken.map Prod.fst).Nodup
  spoken_to_asker : ∀ item ∈ w.spoken, w.asker item.1 = item.2
  bounded : w.pending.length ≤ maxPendingAnswers
  /-- Nobody works on an answer that was parked and is with nobody any more. -/
  aborted : ∀ answer ∈ w.parked, (∃ session place, w.Holds answer session place) ∨
    w.task answer ≠ .running
  /-- What could not be delivered to a client that went away can be had by the next yes. -/
  available : ∀ answer, w.undelivered = some answer → ∃ key entry, w.asker answer = some key ∧
    (key, entry) ∈ w.pending ∧ entry.handle = answer ∧ entry.fresh w.now = true

/-- The step takes no expired entry whose task still runs, and drops no request that has an answer
which was parked. -/
def Heeds (w : AlexaWorld) : AlexaEvent → Prop
  | .arrive request envelope => w.request request = .absent → (respond envelope).takes = true →
      w.Spent envelope.sessionId
  | .disconnect request => ∀ answer, w.inReach request = some answer → answer ∉ w.parked
  | _ => True

variable {spokenText : String → String} {w after : AlexaWorld}

theorem Sound.kept (hs : w.Sound) : w.Kept where
  spoken_once := hs.spoken_once
  spoken_to_asker := hs.spoken_asker
  bounded := hs.bounded
  aborted := hs.accounted
  available _ h := absurd (hs.undelivered.symm.trans h) nofun

theorem start_holds {answer : Nat} {session : Option String} {place : Place} :
    ¬ start.Holds answer session place := by
  intro h
  cases place with
  | pending key =>
    obtain ⟨-, entry, hm, -⟩ := h
    exact absurd hm List.not_mem_nil
  | request request =>
    obtain ⟨query, history, hw⟩ := h
    exact absurd hw nofun

theorem start_sound : start.Sound where
  keys := List.nodup_nil
  bounded := Nat.zero_le _
  single _ _ _ _ _ h := absurd h start_holds
  spawned _ _ _ h := absurd h start_holds
  asker _ _ _ h := absurd h start_holds
  parked := nofun
  parked_lt := nofun
  spoken_lt := nofun
  spoken_asker := nofun
  spoken_free := nofun
  spoken_once := List.nodup_nil
  replying := nofun
  accounted := nofun
  undelivered := rfl

theorem Sound.next_eq (hs : w.Sound) (event : AlexaEvent) :
    w.next spokenText event = w.act spokenText event := by
  have hsame : { w with undelivered := none } = w := by
    obtain ⟨_, _, _, _, _, _, _, _, _⟩ := w
    obtain rfl := hs.undelivered
    rfl
  rw [next, hsame]

theorem outcome_ended {handle : Nat} {outcome : Outcome} (h : w.outcome handle = some outcome) :
    w.task handle ≠ .running := by
  intro hrun
  rw [AlexaWorld.outcome, hrun] at h
  exact absurd h nofun

theorem arrive_sound (hs : w.Sound) {request : Nat} {envelope : Envelope}
    (hr : w.request request = .absent) (ht : (respond envelope).takes = true → w.Spent envelope.sessionId) :
    (w.arrive request envelope).Sound := by
  rw [arrive]
  cases hwish : respond envelope with
  | reply response => exact reply_sound hs hr
  | clear response => exact reply_sound (clear_sound hs (ht (hwish ▸ rfl))) hr
  | ask query => exact ask_sound (clear_sound hs (ht (hwish ▸ rfl))) hr
  | yes =>
    have hspent := ht (hwish ▸ rfl)
    cases htaken : (takePending w.now w.pending envelope.sessionId).2 with
    | none => exact yes_none_sound hs hr hspent htaken
    | some entry => exact yes_some_sound hs hr htaken

/-- Every step that heeds the condition keeps all answers accounted for. -/
theorem Sound.next (hs : w.Sound) {event : AlexaEvent} (hh : w.Heeds event) :
    (w.next spokenText event).Sound := by
  rw [hs.next_eq]
  cases event with
  | tick elapsed => exact hs.letsGo (frame_letsGo hs.undelivered (List.Perm.refl _) fun _ h => h)
  | reorder order =>
    rw [act]
    split
    · exact hs.letsGo (frame_letsGo hs.undelivered ‹_› fun _ h => h)
    · exact hs
  | finish handle outcome =>
    rw [act]
    split
    · refine hs.letsGo (frame_letsGo hs.undelivered (List.Perm.refl _) fun answer h => ?_)
      rcases eq_or_ne answer handle with rfl | hne
      · exact absurd ((Function.update_self ..).symm.trans h) nofun
      · exact (Function.update_of_ne hne ..).symm.trans h
    · exact hs
  | arrive request envelope =>
    rw [act]
    split
    · exact arrive_sound hs ‹_› (hh ‹_›)
    · exact hs
  | answer request =>
    rw [act]
    split
    · rename_i session handle query history hw
      cases ho : w.outcome handle with
      | none => exact hs
      | some outcome =>
        exact speak_sound hs hw (outcome_ended ho)
    · exact hs
  | deadline request =>
    rw [act]
    split
    · rename_i session handle query history hw
      cases session with
      | none => exact park_none_sound hs hw
      | some key => exact park_some_sound hs hw
    · exact hs
  | deliver request =>
    rw [act]
    split
    · rename_i answer response hw
      refine hs.letsGo (setRequest_letsGo hs.undelivered nofun nofun ?_)
      rintro answer - session ⟨query, history, hwait⟩
      exact absurd (hw.symm.trans hwait) nofun
    · exact hs
  | disconnect request =>
    have hnone : (w.inReach request).filter (fun answer => answer ∈ w.parked) = none := by
      refine Option.filter_eq_none_iff.mpr fun answer hreach => ?_
      rw [decide_eq_true_eq]
      exact hh answer hreach
    have hgone : w.act spokenText (.disconnect request) = w.setRequest request .gone := by
      rw [act, hnone, ← hs.undelivered]
      rfl
    rw [hgone]
    refine hs.letsGo (setRequest_letsGo hs.undelivered nofun nofun ?_)
    rintro answer hm session ⟨query, history, hw⟩
    exact absurd hm (hh answer (by rw [inReach, hw]))

section Failing

/-- Once an entry is out of the map, nobody has its answer. -/
theorem not_holds (hs : w.Sound) {key : String} {entry : PendingAnswer}
    (hm : (key, entry) ∈ w.pending) (hp : after.pending = w.pending.remove key)
    (hr : ∀ request session answer query history,
      after.request request = .waiting session answer query history →
        w.request request = .waiting session answer query history ∨ answer = w.spawned)
    (session : Option String) (place : Place) : ¬ after.Holds entry.handle session place := by
  have hheld : w.Holds entry.handle (some key) (.pending key) := ⟨rfl, entry, hm, rfl⟩
  intro h
  cases place with
  | pending other =>
    obtain ⟨-, entry', hm', he⟩ := h
    obtain ⟨hold, hne⟩ := mem_remove.mp (hp ▸ hm')
    exact hne (Place.pending.inj (hs.single _ _ _ (.pending other) _ ⟨rfl, entry', hold, he⟩ hheld))
  | request request =>
    obtain ⟨query, history, hw⟩ := h
    rcases hr _ _ _ _ _ hw with hold | hnew
    · exact absurd (hs.single _ _ _ (.request request) _ ⟨query, history, hold⟩ hheld) nofun
    · exact absurd (hs.spawned _ _ _ hheld) (hnew ▸ lt_irrefl _)

theorem clear_expired {session : Option String}
    (ht : (takePending w.now w.pending session).2 = none) : (w.clear session).task = w.task := by
  have htask : (w.clear session).task =
      abortAll ((takePending w.now w.pending session).2.map PendingAnswer.handle).toList w.task := rfl
  rw [htask, ht]
  funext answer
  simp [abortAll]

/-- An expired entry that is taken leaves its task running, and nobody has the answer. -/
theorem arrive_abandons (hs : w.Sound) {request : Nat} {envelope : Envelope}
    (ht : (respond envelope).takes = true) {key : String}
    {entry : PendingAnswer} (hkey : envelope.sessionId = some key) (hm : (key, entry) ∈ w.pending)
    (hold : ¬ entry.fresh w.now = true) (hrun : w.task entry.handle = .running) :
    ¬ (w.arrive request envelope).Kept := by
  have htaken : (takePending w.now w.pending envelope.sessionId).2 = none := by
    rw [hkey, takePending_mem hs.keys hm, if_neg hold]
  have hpending : (takePending w.now w.pending envelope.sessionId).1 = w.pending.remove key := by
    rw [hkey]
    rfl
  suffices h : (w.arrive request envelope).pending = w.pending.remove key ∧
      (w.arrive request envelope).task entry.handle = .running ∧
      entry.handle ∈ (w.arrive request envelope).parked ∧
      ∀ r session answer query history,
        (w.arrive request envelope).request r = .waiting session answer query history →
          w.request r = .waiting session answer query history ∨ answer = w.spawned by
    intro hk
    obtain ⟨hp, htask, hparked, hr⟩ := h
    rcases hk.aborted entry.handle hparked with ⟨session, place, hh⟩ | hn
    · exact not_holds hs hm hp hr session place hh
    · exact hn htask
  have hparked := hs.parked key entry hm
  have hclear := congrFun (clear_expired htaken) entry.handle
  rw [arrive]
  cases hwish : respond envelope with
  | reply response => exact absurd (hwish ▸ ht : (Wish.reply response).takes = true) nofun
  | clear response =>
    refine ⟨hpending, hclear.trans hrun, hparked, fun r session answer query history h => ?_⟩
    rcases eq_or_ne r request with rfl | hne
    · exact absurd (setRequest_self.symm.trans h) nofun
    · exact .inl ((setRequest_ne hne).symm.trans h)
  | ask query =>
    have hfresh : entry.handle ≠ w.spawned := (hs.parked_lt _ hparked).ne
    refine ⟨hpending, ?_, hparked, fun r session answer query history h => ?_⟩
    · exact (Function.update_of_ne hfresh ..).trans (hclear.trans hrun)
    · rcases eq_or_ne r request with rfl | hne
      · exact .inr (RequestState.waiting.inj (setRequest_self.symm.trans h)).2.1.symm
      · exact .inl ((setRequest_ne hne).symm.trans h)
  | yes =>
    dsimp only
    rw [yes_of_none htaken]
    refine ⟨hpending, hrun, hparked, fun r session answer query history h => ?_⟩
    rcases eq_or_ne r request with rfl | hne
    · exact absurd (setRequest_self.symm.trans h) nofun
    · exact .inl ((setRequest_ne hne).symm.trans h)

/-- An answer that a client leaves behind is not in the map. -/
theorem disconnect_loses (hs : w.Sound) {request answer : Nat}
    (hreach : w.inReach request = some answer) (hm : answer ∈ w.parked) :
    ¬ (w.act spokenText (.disconnect request)).Kept := by
  intro hk
  have hlost : (w.act spokenText (.disconnect request)).undelivered = some answer := by
    simp [act, hreach, hm]
  obtain ⟨key, entry, -, hpending, he, -⟩ := hk.available answer hlost
  have hheld : w.Holds answer (some key) (.pending key) := ⟨rfl, entry, hpending, he⟩
  cases hw : w.request request with
  | waiting session handle query history =>
    obtain rfl : handle = answer := by simpa [inReach, hw] using hreach
    exact absurd (hs.single _ _ _ (.request request) _ ⟨query, history, hw⟩ hheld) nofun
  | replying spoken response =>
    obtain rfl : spoken = some answer := by simpa [inReach, hw] using hreach
    obtain ⟨item, hitem, rfl⟩ := List.mem_map.mp (hs.replying _ _ _ hw)
    exact hs.spoken_free item hitem _ _ hheld
  | _ => simp [inReach, hw] at hreach

end Failing

/-- A step that does not heed the condition is seen at once. -/
theorem Sound.not_kept (hs : w.Sound) {event : AlexaEvent} (hh : ¬ w.Heeds event) :
    ¬ (w.next spokenText event).Kept := by
  rw [hs.next_eq]
  cases event with
  | arrive request envelope =>
    simp only [Heeds, Classical.not_imp, Spent, not_forall, not_not] at hh
    obtain ⟨hr, ht, key, entry, hkey, hm, hold, hrun⟩ := hh
    rw [act, if_pos hr]
    exact arrive_abandons hs ht hkey hm hold hrun
  | disconnect request =>
    simp only [Heeds, not_forall, not_not] at hh
    obtain ⟨answer, hreach, hm⟩ := hh
    exact disconnect_loses hs hreach hm
  | _ => exact absurd trivial hh

end AlexaWorld

/-- In every run, in any order of requests, answers, deadlines and clients that go away: all answers
are kept as they should be throughout exactly when no request takes an expired entry whose task still
runs and no client goes away before it has the parked answer that its yes took. -/
theorem answers_kept_iff (spokenText : String → String) (events : List AlexaEvent) :
    Along (AlexaWorld.next spokenText) AlexaWorld.Heeds AlexaWorld.start events ↔
      ∀ before, before <+: events →
        (run (AlexaWorld.next spokenText) AlexaWorld.start before).Kept :=
  along_iff_prefixes (AlexaWorld.next spokenText)
    (fun _ _ hs hh => AlexaWorld.Sound.next hs hh) (fun _ hs => hs.kept)
    (fun _ _ hs hh => hs.not_kept hh) AlexaWorld.start_sound

/-- A question of one session. -/
def mountainQuestion : Envelope where
  requestType := "IntentRequest"
  intent := "AskAaronWhatIsIntent"
  query := some "the tallest mountain"
  sessionId := some "session"
  history := []

def yesTurn : Envelope := { mountainQuestion with intent := "AMAZON.YesIntent", query := none }

/-- The question is put and its answer parked, and the client has been told so. -/
def parkedEvents : List AlexaEvent := [.arrive 0 mountainQuestion, .deadline 0, .deliver 0]

theorem parked_sound :
    (run (AlexaWorld.next id) AlexaWorld.start parkedEvents).Sound := by
  have hheeds : Along (AlexaWorld.next id) AlexaWorld.Heeds AlexaWorld.start parkedEvents :=
    ⟨fun _ _ _ _ _ hm => absurd hm List.not_mem_nil, trivial, trivial, trivial⟩
  exact run_invariant (AlexaWorld.next id) (I := AlexaWorld.Sound) (fun _ _ hs hh => AlexaWorld.Sound.next hs hh)
    AlexaWorld.start_sound hheeds

/-- A yes two minutes later finds nothing, and the task of the answer goes on; a yes whose client goes
away takes the answer with it. -/
theorem parked_answer_lost :
    ¬ (run (AlexaWorld.next id) AlexaWorld.start
        (parkedEvents ++ [.tick pendingAnswerTtl, .arrive 1 yesTurn])).Kept ∧
      ¬ (run (AlexaWorld.next id) AlexaWorld.start
        (parkedEvents ++ [.arrive 1 yesTurn, .disconnect 1])).Kept := by
  have hs := parked_sound
  rw [run_append, run_append, run_cons, run_cons, run_nil, run_cons, run_cons, run_nil]
  constructor
  · have ht : (AlexaWorld.next id (run (AlexaWorld.next id) AlexaWorld.start parkedEvents)
        (.tick pendingAnswerTtl)).Sound := hs.next trivial
    refine ht.not_kept fun hh => ?_
    have hspent := hh rfl (by decide)
    exact hspent "session" _ rfl (List.mem_singleton_self _) (by decide) rfl
  · have ht : (AlexaWorld.next id (run (AlexaWorld.next id) AlexaWorld.start parkedEvents)
        (.arrive 1 yesTurn)).Sound := by
      refine hs.next fun _ _ key entry _ hm hold => ?_
      obtain ⟨-, rfl⟩ := Prod.mk.inj (List.mem_singleton.mp hm)
      exact absurd (by decide) hold
    refine ht.not_kept fun hh => ?_
    exact hh 0 rfl (List.mem_singleton_self _)

end Gail.Alexa
