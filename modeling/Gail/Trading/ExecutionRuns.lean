import Gail.Trading.ExecutionIntents
import Mathlib.Tactic.NormNum

/-! What the claims on order intents guard against, over every run of the bridge: an order that may have
been accepted is not placed again while its claim lasts. -/
namespace Gail.Trading
open Gail.Library

/-- What the order of doubles and that of exact numbers have in common. -/
class LawfulClock (F : Type) [Scalar F] : Prop where
  lt_of_le_of_lt {a b c : F} : a ≤ b → b < c → a < c

instance : LawfulClock ℚ where
  lt_of_le_of_lt := lt_of_le_of_lt

section Claims
variable {F : Type} {intent : ExecutionIntent F} {state : TradingState F} {key : String}

/-- The claim of the intent is in the state. -/
def ExecutionIntent.HeldBy (intent : ExecutionIntent F) (state : TradingState F) : Prop :=
  state.inFlightOrderIntents intent.key = some intent.claim

theorem ExecutionIntent.HeldBy.insertClaim {claim : ExecutionIntentClaim F} (h : intent.HeldBy state)
    (hk : state.inFlightOrderIntents key = none) : intent.HeldBy (state.insertClaim key claim) := by
  have hne : intent.key ≠ key := by
    rintro rfl
    cases hk.symm.trans h
  exact (Function.update_of_ne hne _ _).trans h

theorem ExecutionIntent.HeldBy.releaseExecutionIntent (h : intent.HeldBy state) (hk : intent.key ≠ key) :
    intent.HeldBy (state.releaseExecutionIntent key) :=
  (Function.update_of_ne hk _ _).trans h

variable [Scalar F]

theorem ExecutionIntent.HeldBy.retainClaims {now : F} (h : intent.HeldBy state)
    (hn : now < intent.claim.expiresAt) : intent.HeldBy (state.retainClaims now) := by
  change (state.inFlightOrderIntents intent.key).filter _ = some intent.claim
  rw [h]
  exact Option.filter_some_pos (decide_eq_true hn)

/-- An intent is claimed only when no claim on its key is in force and, unless an operator asked for
it, its cooldown is over. -/
theorem claimExecutionIntent_cases (state : TradingState F) (key : String) (config : ExecutionConfig F)
    (operatorOverride : Bool) (now : F) :
    (∃ refusal, claimExecutionIntent state key config operatorOverride now =
        (state.retainClaims now, .error refusal)) ∨
      (state.retainClaims now).inFlightOrderIntents key = none ∧
        (operatorOverride = false → ∀ previous ∈ state.ledger.previousTrade key,
          config.cooldown now previous = none) ∧
        claimExecutionIntent state key config operatorOverride now =
          ((state.retainClaims now).insertClaim key (config.claim now), .ok ()) := by
  unfold claimExecutionIntent
  dsimp only
  cases hk : (state.retainClaims now).inFlightOrderIntents key with
  | some existing => exact .inl ⟨_, rfl⟩
  | none =>
    dsimp only
    split
    · next refusal _ => exact .inl ⟨refusal, rfl⟩
    · next hnone =>
      refine .inr ⟨rfl, ?_, rfl⟩
      rintro rfl previous hp
      exact Option.bind_eq_none_iff.mp hnone previous hp

end Claims

section Guarantees
variable {F : Type} [Scalar F]

/-- The later order was not claimed within the lease of the earlier one, unless that was acknowledged. -/
def Submission.Precedes (earlier later : Submission F) : Prop :=
  earlier.intent.key = later.intent.key →
    later.intent.claim.claimedAt < earlier.intent.claim.expiresAt → earlier.trade ≠ none

/-- The order may have been accepted, and its claim has not expired. -/
def Submission.Uncertain (submission : Submission F) (now : F) : Prop :=
  submission.trade = none ∧ now < submission.intent.claim.expiresAt

namespace ExecutionWorld

/-- No renaming that a dropped future has left behind puts an older state over a newer one, and every
new process can read the file. -/
def Orderly (w : ExecutionWorld F) : ExecutionEvent F → Prop
  | .land index => w.store.InOrder index
  | .restart _ readBack => readBack = true
  | _ => True

/-- What the claims guarantee. -/
structure Safeguarded (w : ExecutionWorld F) : Prop where
  /-- An order is placed while the file has the claim of its execution. -/
  durable : ∀ intent, w.phase = .submitting intent → ∃ written ∈ w.store.file, intent.HeldBy written.2
  /-- An intent is submitted again within a lease only when the first order was acknowledged. -/
  once : w.sent.Pairwise Submission.Precedes
  /-- An order that was not acknowledged keeps its claim until it expires. -/
  kept : ∀ submission ∈ w.sent, submission.Uncertain w.now →
    submission.intent.HeldBy w.store.memory ∧
      ∃ written ∈ w.store.file, submission.intent.HeldBy written.2

/-- The claim of the intent may not be lost: its order is about to be placed, or was placed and may have
been accepted. -/
def Guards (w : ExecutionWorld F) (intent : ExecutionIntent F) : Prop :=
  w.phase = .activating intent ∨ w.phase = .submitting intent ∨
    ∃ submission ∈ w.sent, submission.intent = intent ∧ submission.Uncertain w.now

/-- The orders placed before the one that is being placed. -/
def earlier (w : ExecutionWorld F) : List (Submission F) :=
  match w.phase with
  | .submitting _ => w.sent.dropLast
  | _ => w.sent

/-- The invariant that carries the guarantees. -/
structure Leased (w : ExecutionWorld F) : Prop where
  numbered : w.store.Numbered
  saved : ∀ intent, w.Guards intent → w.store.Saved intent.HeldBy
  held : ∀ intent ∈ w.phase.intent, intent.HeldBy w.store.memory
  copied : ∀ intent, w.phase = .persisting intent → ∃ copy ∈ w.store.writer, intent.HeldBy copy.2
  past : ∀ intent ∈ w.phase.intent, ∀ time, w.now < time → intent.claim.claimedAt < time
  alone : ∀ intent ∈ w.phase.intent, ∀ submission ∈ w.earlier, submission.Precedes { intent, trade := none }
  pending : ∀ intent, w.phase = .submitting intent →
    w.sent = w.sent.dropLast ++ [{ intent, trade := none }]
  once : w.sent.Pairwise Submission.Precedes

variable {w : ExecutionWorld F} {intent : ExecutionIntent F}

theorem Leased.saved_sent (h : w.Leased) {submission : Submission F} (hs : submission ∈ w.sent)
    (hu : submission.Uncertain w.now) : w.store.Saved submission.intent.HeldBy :=
  h.saved _ (.inr (.inr ⟨submission, hs, rfl, hu⟩))

theorem Leased.safeguarded (h : w.Leased) : w.Safeguarded where
  durable intent hp := by
    obtain ⟨written, hf, hheld, -⟩ := (h.saved intent (.inr (.inl hp))).file
    exact ⟨written, hf, hheld⟩
  once := h.once
  kept submission hs hu := by
    have hsaved := h.saved_sent hs hu
    obtain ⟨written, hf, hheld, -⟩ := hsaved.file
    exact ⟨hsaved.memory, written, hf, hheld⟩

/-- While an intent is claimed, no other order of its key has a claim in force. -/
theorem Leased.key_ne (h : w.Leased) (hp : intent ∈ w.phase.intent) {submission : Submission F}
    (hs : submission ∈ w.earlier) (hu : submission.Uncertain w.now) :
    submission.intent.key ≠ intent.key := by
  intro hk
  exact h.alone intent hp submission hs hk (h.past intent hp _ hu.2) hu.1

/-- A step that changes neither the memory nor the copy of the execution. -/
theorem Leased.withStore (h : w.Leased) {store : LockedFile (TradingState F)} (hn : store.Numbered)
    (hm : store.memory = w.store.memory)
    (hs : ∀ intent : ExecutionIntent F, w.store.Saved intent.HeldBy → store.Saved intent.HeldBy)
    (hw : w.phase.writes = true → store.writer = w.store.writer) : ({ w with store }).Leased where
  numbered := hn
  saved intent hg := hs intent (h.saved intent hg)
  held intent hp := by
    rw [hm]
    exact h.held intent hp
  copied intent hp := by
    rw [hw (by rw [hp]; rfl)]
    exact h.copied intent hp
  past := h.past
  alone := h.alone
  pending := h.pending
  once := h.once

/-- A world in which nothing is claimed only has to keep the claims of the orders that were placed. -/
theorem leased_unclaimed (hn : w.store.Numbered) (hphase : w.phase.intent = none)
    (hsaved : ∀ submission ∈ w.sent, submission.Uncertain w.now →
      w.store.Saved submission.intent.HeldBy)
    (honce : w.sent.Pairwise Submission.Precedes) :
    w.Leased where
  numbered := hn
  saved := by
    rintro intent (hp | hp | ⟨submission, hs, rfl, hu⟩)
    · rw [hp] at hphase
      cases hphase
    · rw [hp] at hphase
      cases hphase
    · exact hsaved submission hs hu
  held intent hp := by
    rw [hphase] at hp
    cases hp
  copied intent hp := by
    rw [hp] at hphase
    cases hphase
  past intent hp := by
    rw [hphase] at hp
    cases hp
  alone intent hp := by
    rw [hphase] at hp
    cases hp
  pending intent hp := by
    rw [hp] at hphase
    cases hphase
  once := honce

theorem Leased.tick [LawfulClock F] (h : w.Leased) {later : F} (hle : w.now ≤ later) :
    ({ w with now := later }).Leased where
  numbered := h.numbered
  saved := by
    rintro intent (hp | hp | ⟨submission, hs, hi, ht, hnow⟩)
    · exact h.saved intent (.inl hp)
    · exact h.saved intent (.inr (.inl hp))
    · exact h.saved intent (.inr (.inr ⟨submission, hs, hi, ht, LawfulClock.lt_of_le_of_lt hle hnow⟩))
  held := h.held
  copied := h.copied
  past intent hp time hnow := h.past intent hp time (LawfulClock.lt_of_le_of_lt hle hnow)
  alone := h.alone
  pending := h.pending
  once := h.once

/-- An order that was placed keeps its claim when expired ones are removed. -/
theorem Leased.held_retainClaims (h : w.Leased) {submission : Submission F} (hs : submission ∈ w.sent)
    (hu : submission.Uncertain w.now) :
    submission.intent.HeldBy (w.store.memory.retainClaims w.now) :=
  (h.saved_sent hs hu).memory.retainClaims hu.2

theorem Leased.refused (h : w.Leased) (hp : w.phase = .idle) :
    ({ w with store := w.store.setMemory (w.store.memory.retainClaims w.now) }).Leased := by
  apply leased_unclaimed
  · exact h.numbered.setMemory _
  · exact congrArg ExecutionPhase.intent hp
  · intro submission hs hu
    have hsaved := h.saved_sent hs hu
    exact hsaved.setMemory (h.held_retainClaims hs hu)
  · exact h.once

theorem Leased.granted (h : w.Leased) (intent : ExecutionIntent F)
    (hclaim : intent.claim = w.config.claim w.now)
    (hnone : (w.store.memory.retainClaims w.now).inFlightOrderIntents intent.key = none) :
    ({ w with
      store := w.store.setMemory
        ((w.store.memory.retainClaims w.now).insertClaim intent.key intent.claim)
      phase := .claimed intent }).Leased where
  numbered := h.numbered.setMemory _
  saved := by
    rintro other (hc | hc | ⟨submission, hs, rfl, hu⟩)
    · cases hc
    · cases hc
    · have hsaved := h.saved_sent hs hu
      exact hsaved.setMemory ((h.held_retainClaims hs hu).insertClaim hnone)
  held := by
    rintro _ ⟨⟩
    exact Function.update_self _ _ _
  copied _ hc := nomatch hc
  past := by
    rintro _ ⟨⟩ time hnow
    rw [hclaim]
    exact hnow
  alone := by
    rintro _ ⟨⟩ submission hs hk hlt ht
    rw [hclaim] at hlt
    -- The claim of that order would have been found.
    have hheld := h.held_retainClaims hs ⟨ht, hlt⟩
    unfold ExecutionIntent.HeldBy at hheld
    rw [hk, hnone] at hheld
    cases hheld
  pending _ hc := nomatch hc
  once := h.once

theorem Leased.lockClaimed (h : w.Leased) (hp : w.phase = .claimed intent) (hw : w.store.writer = none) :
    ({ w with store := w.store.copy, phase := .persisting intent }).Leased := by
  have hmem : intent ∈ w.phase.intent := by rw [hp]; rfl
  have hearlier : w.earlier = w.sent := by rw [earlier, hp]
  constructor
  · exact h.numbered.copy
  · rintro other (hc | hc | hsent)
    · cases hc
    · cases hc
    · exact (h.saved other (.inr (.inr hsent))).copy
  · rintro _ ⟨⟩
    rw [LockedFile.copy_memory]
    exact h.held intent hmem
  · rintro _ ⟨⟩
    exact ⟨_, LockedFile.copy_writer hw, h.held intent hmem⟩
  · rintro _ ⟨⟩
    exact h.past intent hmem
  · rintro _ ⟨⟩
    rw [← hearlier]
    exact h.alone intent hmem
  · exact fun _ hc => nomatch hc
  · exact h.once

theorem Leased.persisted (h : w.Leased) (hp : w.phase = .persisting intent) :
    ({ w with store := w.store.finish true, phase := .activating intent }).Leased := by
  have hmem : intent ∈ w.phase.intent := by rw [hp]; rfl
  have hearlier : w.earlier = w.sent := by rw [earlier, hp]
  constructor
  · exact h.numbered.finish true
  · rintro other (hc | hc | hsent)
    · cases hc
      obtain ⟨copy, hw, hheld⟩ := h.copied intent hp
      exact h.numbered.saved hw hheld (h.held intent hmem)
    · cases hc
    · exact (h.saved other (.inr (.inr hsent))).finish h.numbered true
  · rintro _ ⟨⟩
    rw [LockedFile.finish_memory]
    exact h.held intent hmem
  · exact fun _ hc => nomatch hc
  · rintro _ ⟨⟩
    exact h.past intent hmem
  · rintro _ ⟨⟩
    rw [← hearlier]
    exact h.alone intent hmem
  · exact fun _ hc => nomatch hc
  · exact h.once

theorem Leased.submitted (h : w.Leased) (hp : w.phase = .activating intent) :
    ({ w with
      phase := .submitting intent
      sent := w.sent ++ [({ intent, trade := none } : Submission F)] }).Leased := by
  have hmem : intent ∈ w.phase.intent := by rw [hp]; rfl
  have hearlier : w.earlier = w.sent := by rw [earlier, hp]
  have halone := h.alone intent hmem
  rw [hearlier] at halone
  have hdrop : (w.sent ++ [({ intent, trade := none } : Submission F)]).dropLast = w.sent :=
    List.dropLast_concat
  constructor
  · exact h.numbered
  · rintro other (hc | hc | ⟨submission, hs, rfl, hu⟩)
    · cases hc
    · cases hc
      exact h.saved intent (.inl hp)
    · rcases List.mem_append.mp hs with hs | hs
      · exact h.saved_sent hs hu
      · rw [List.mem_singleton.mp hs]
        exact h.saved intent (.inl hp)
  · rintro _ ⟨⟩
    exact h.held intent hmem
  · exact fun _ hc => nomatch hc
  · rintro _ ⟨⟩
    exact h.past intent hmem
  · rintro _ ⟨⟩ submission hs
    exact halone submission (hdrop ▸ hs)
  · rintro _ ⟨⟩
    exact congrArg (· ++ [({ intent, trade := none } : Submission F)]) hdrop.symm
  · refine List.pairwise_append.mpr ⟨h.once, List.pairwise_singleton _ _, ?_⟩
    intro submission hs later hl
    rw [List.mem_singleton.mp hl]
    exact halone submission hs

/-- An execution that gives up before its order is placed, or whose order is accepted, takes its claim
away; no other order that was placed needs that. -/
theorem Leased.released (h : w.Leased) (hp : intent ∈ w.phase.intent) {state : TradingState F}
    {phase : ExecutionPhase F} {sent : List (Submission F)}
    (hstate : state.inFlightOrderIntents =
      (w.store.memory.releaseExecutionIntent intent.key).inFlightOrderIntents)
    (hphase : phase.intent = none)
    (hsent : ∀ submission ∈ sent, submission.trade = none → submission ∈ w.earlier ∧ submission ∈ w.sent)
    (honce : sent.Pairwise Submission.Precedes) :
    ({ w with store := w.store.setMemory state, phase, sent }).Leased := by
  apply leased_unclaimed
  · exact h.numbered.setMemory _
  · exact hphase
  · intro submission hs hu
    obtain ⟨hearlier, hmem⟩ := hsent submission hs hu.1
    have hsaved := h.saved_sent hmem hu
    have hheld := hsaved.memory.releaseExecutionIntent (h.key_ne hp hearlier hu)
    unfold ExecutionIntent.HeldBy at hheld
    rw [← hstate] at hheld
    exact hsaved.setMemory hheld
  · exact honce

theorem Leased.unreleased (h : w.Leased) {phase : ExecutionPhase F} (hphase : phase.intent = none) :
    ({ w with phase }).Leased := by
  apply leased_unclaimed
  · exact h.numbered
  · exact hphase
  · intro submission hs hu
    exact h.saved_sent hs hu
  · exact h.once

theorem Leased.release (h : w.Leased) (hp : intent ∈ w.phase.intent) (hearlier : w.earlier = w.sent)
    {phase : ExecutionPhase F} (hphase : phase.intent = none) : (w.release intent phase).Leased := by
  apply h.released hp rfl hphase
  · intro submission hs _
    exact ⟨hearlier ▸ hs, hs⟩
  · exact h.once

theorem Leased.otherLock (h : w.Leased) : ({ w with store := w.store.copy }).Leased where
  numbered := h.numbered.copy
  saved intent hg := (h.saved intent hg).copy
  held intent hp := by
    rw [LockedFile.copy_memory]
    exact h.held intent hp
  copied intent hp := by
    obtain ⟨copy, hw, hheld⟩ := h.copied intent hp
    rw [LockedFile.copy_eq_self hw]
    exact ⟨copy, hw, hheld⟩
  past := h.past
  alone := h.alone
  pending := h.pending
  once := h.once

/-- The claim could not be saved, and is given up. -/
theorem Leased.unpersisted (h : w.Leased) (hp : w.phase = .persisting intent) :
    (({ w with store := w.store.finish false }).release intent .idle).Leased := by
  have hearlier : w.earlier = w.sent := by rw [earlier, hp]
  apply leased_unclaimed
  · exact (h.numbered.finish false).setMemory _
  · rfl
  · intro submission hs hu
    have hsaved := h.saved_sent hs hu
    apply (hsaved.finish h.numbered false).setMemory
    rw [LockedFile.finish_memory]
    exact hsaved.memory.releaseExecutionIntent
      (h.key_ne (by rw [hp]; rfl) (hearlier ▸ hs) hu)
  · exact h.once

theorem Leased.closed (h : w.Leased) (renamed : Bool) :
    ({ w with store := w.store.finish renamed, phase := .idle }).Leased := by
  apply leased_unclaimed
  · exact h.numbered.finish renamed
  · rfl
  · intro submission hs hu
    exact (h.saved_sent hs hu).finish h.numbered renamed
  · exact h.once

theorem Leased.claim (h : w.Leased) (hp : w.phase = .idle) (order : ExecutionOrder F) :
    (w.claim order).Leased := by
  unfold ExecutionWorld.claim
  split
  · exact h
  next key hk =>
  rcases claimExecutionIntent_cases w.store.memory key w.config order.overrideApplied w.now with
    ⟨refusal, hc⟩ | ⟨hnone, -, hc⟩
  · rw [hc]
    exact h.refused hp
  · rw [hc]
    exact h.granted { order, key, isKey := hk, claim := w.config.claim w.now } rfl hnone

theorem start_leased (now : F) (config : ExecutionConfig F) (file : Option (TradingState F)) :
    (start now config file).Leased :=
  leased_unclaimed (LockedFile.start_numbered _ _) rfl (fun _ h => nomatch h) .nil

variable [NumberText F]

theorem Leased.acknowledge (h : w.Leased) (hp : w.phase = .submitting intent)
    (result : OctobotOrderResult F) : (w.acknowledge intent result).Leased := by
  have hearlier : w.earlier = w.sent.dropLast := by rw [earlier, hp]
  have hsent := h.pending intent hp
  have honce := h.once
  rw [hsent] at honce
  obtain ⟨hbefore, -, hcross⟩ := List.pairwise_append.mp honce
  apply h.released
  · rw [hp]
    rfl
  · rfl
  · rfl
  · intro submission hs ht
    rcases List.mem_append.mp hs with hs | hs
    · exact ⟨hearlier ▸ hs, List.dropLast_subset _ hs⟩
    · rw [List.mem_singleton.mp hs] at ht
      cases ht
  · refine List.pairwise_append.mpr ⟨hbefore, List.pairwise_singleton _ _, ?_⟩
    intro submission hs later hl
    rw [List.mem_singleton.mp hl]
    exact hcross submission hs { intent, trade := none } (List.mem_singleton.mpr rfl)

theorem Leased.imported (h : w.Leased) (hp : w.phase = .idle) (trades : List (ExecutedTrade F)) :
    ({ w with store := w.store.setMemory { w.store.memory with
        ledger := (w.store.memory.ledger.importTradeHistory trades).1 } }).Leased := by
  apply leased_unclaimed
  · exact h.numbered.setMemory _
  · exact congrArg ExecutionPhase.intent hp
  · intro submission hs hu
    have hsaved := h.saved_sent hs hu
    exact hsaved.setMemory hsaved.memory
  · exact h.once

/-- A new process that can read the file finds every claim that is still needed. -/
theorem Leased.restart (h : w.Leased) (config : ExecutionConfig F) :
    (w.step (.restart config true)).Leased := by
  apply leased_unclaimed
  · exact h.numbered.reopen _
  · rfl
  · intro submission hs hu
    apply (h.saved_sent hs hu).reopen
    intro written hw hheld
    rw [Option.mem_def.mp hw]
    exact hheld
  · exact h.once

/-- Every orderly step keeps the claims that are needed. -/
theorem Leased.step [LawfulClock F] (h : w.Leased) {event : ExecutionEvent F} (ho : w.Orderly event) :
    (w.step event).Leased := by
  cases event with
  | tick later =>
    simp only [ExecutionWorld.step]
    split
    · next hle => exact h.tick hle
    · exact h
  | execute order =>
    simp only [ExecutionWorld.step]
    split
    · next hp => exact h.claim hp order
    · exact h
  | lock =>
    simp only [ExecutionWorld.step]
    split
    · next hp hw => exact h.lockClaimed hp hw
    · exact (h.otherLock).unreleased rfl
    · exact h
  | written renamed =>
    simp only [ExecutionWorld.step]
    split
    · next intent hp =>
      cases renamed with
      | true => exact h.persisted hp
      | false => exact h.unpersisted hp
    · exact h.closed renamed
    · exact h
  | activation ready =>
    simp only [ExecutionWorld.step]
    split
    · next intent hp =>
      split
      · exact h.submitted hp
      · exact h.release (by rw [hp]; rfl) (by rw [earlier, hp]) rfl
    · exact h
  | reply result =>
    simp only [ExecutionWorld.step]
    split
    · next intent hp =>
      split
      · next result => exact h.acknowledge hp result
      · exact h.unreleased rfl
    · exact h
  | otherLock => exact h.otherLock
  | otherWritten renamed =>
    simp only [ExecutionWorld.step]
    split
    · exact h
    · next hw =>
      exact h.withStore (h.numbered.finish renamed) LockedFile.finish_memory
        (fun _ hs => hs.finish h.numbered renamed) fun ht => absurd ht hw
  | otherDropped =>
    simp only [ExecutionWorld.step]
    split
    · exact h
    · next hw =>
      exact h.withStore h.numbered.drop LockedFile.drop_memory (fun _ hs => hs.drop) fun ht => absurd ht hw
  | land index =>
    exact h.withStore (h.numbered.land index) LockedFile.land_memory (fun _ hs => hs.land ho)
      fun _ => LockedFile.land_writer
  | importTrades trades =>
    simp only [ExecutionWorld.step]
    split
    · next hp => exact h.imported hp trades
    · exact h
  | restart config readBack =>
    cases ho
    exact h.restart config

/-- A claim is made for no decision of the engine whose latest trade is too recent, and an order that is
accepted becomes the latest trade of its key. -/
structure Cooled (w : ExecutionWorld F) (event : ExecutionEvent F) : Prop where
  claims : ∀ order intent, event = .execute order → order.overrideApplied = false →
    w.phase = .idle → (w.step event).phase = .claimed intent →
      ∀ previous ∈ w.store.memory.ledger.previousTrade intent.key,
        ¬ Scalar.max (w.now - previous.ts) 0.0 < Scalar.ofCount w.config.minTradeIntervalSeconds
  records : ∀ result intent, event = .reply (some result) → w.phase = .submitting intent →
    ∃ trade, trade.ts = w.now ∧
      (w.step event).sent = w.sent.dropLast ++ [{ intent, trade := some trade }] ∧
      (w.step event).store.memory.ledger.previousTrade intent.key = some trade

theorem cooled (w : ExecutionWorld F) (event : ExecutionEvent F) : w.Cooled event where
  claims := by
    rintro order intent rfl hoverride hp hclaimed previous hprevious hlt
    simp only [ExecutionWorld.step, hp] at hclaimed
    unfold ExecutionWorld.claim at hclaimed
    split at hclaimed
    · rw [hp] at hclaimed
      cases hclaimed
    next key hk =>
    rcases claimExecutionIntent_cases w.store.memory key w.config order.overrideApplied w.now with
      ⟨refusal, hc⟩ | ⟨-, hcool, hc⟩
    · rw [hc] at hclaimed
      dsimp only at hclaimed
      rw [hp] at hclaimed
      cases hclaimed
    · rw [hc] at hclaimed
      cases hclaimed
      have hnone := hcool hoverride previous hprevious
      unfold ExecutionConfig.cooldown at hnone
      dsimp only at hnone
      rw [if_pos hlt] at hnone
      cases hnone
  records := by
    rintro result intent rfl hp
    refine ⟨intent.order.executedTrade w.now result, rfl, ?_, ?_⟩
    · simp only [ExecutionWorld.step, hp, ExecutionWorld.acknowledge]
    · simp only [ExecutionWorld.step, hp]
      exact TradeLedger.recordTrade_previousTrade intent.isKey

section Sample

def shortConfig : ExecutionConfig ℚ :=
  { executionAuthority := "gail", executionLeaseSeconds := 180, minTradeIntervalSeconds := 120
    tradeRingSize := 200 }

def buyDecision : ExecutionOrder ℚ :=
  { action := .buy, exchange := "binance", symbol := "BTC/USDT", amountUsd := 10
    referencePrice := some 50000, overrideApplied := false }

/-- A decision up to the request for its order. -/
def submitted : List (ExecutionEvent ℚ) :=
  [.execute buyDecision, .lock, .written true, .activation true]

/-- The reply is lost, and the process is started again ten seconds later. -/
def restarted (readBack : Bool) : List (ExecutionEvent ℚ) :=
  submitted ++ [.reply none, .lock, .written true, .tick 10, .restart shortConfig readBack] ++ submitted

/-- A call of an operator is dropped while it saves, and its renaming is late. -/
def overtaken : List (ExecutionEvent ℚ) := [.otherLock, .otherDropped] ++ submitted ++ [.land 0]

end Sample

end ExecutionWorld

end Guarantees

end Gail.Trading
