import Gail.Library.Run
import Gail.Trading.ScanRequests

/-! Whether the rolling sample comes round to every symbol. An exchange is scanned on from its offset; a
symbol that it passes over is left out only where too many others are unknown. -/
namespace Gail.Trading
open Gail.Library

namespace ScanState

def unknown (state : ScanState) (exchange : ScannedExchange) (symbol : String) : Bool :=
  !state.known exchange symbol

/-- The unknown symbols that a call may probe. -/
def probes (state : ScanState) (exchange : ScannedExchange) : List String :=
  ((state.ring exchange).filter (state.unknown exchange)).take marketSnapshotUnknownProbeLimit

def unknownCount (state : ScanState) (exchange : ScannedExchange) : Nat :=
  exchange.symbols.countP (state.unknown exchange)

/-- How far the symbol at a position is from being requested. -/
def remaining (exchange : ScannedExchange) (position : Nat) (state : ScanState) : Nat :=
  state.unknownCount exchange * exchange.symbols.length +
    ringDistance exchange.symbols.length position (state.baseOffset exchange)

end ScanState

namespace ScanUniverse

/-- Where more symbols are unknown than may be probed, as far as the call can reach from the offset, at
least one of the probes gets its snapshot. -/
def Probing (markets : ScanUniverse) (state : ScanState) (call : ScanCall) : Prop :=
  ∀ exchange ∈ markets.scanned,
    marketSnapshotUnknownProbeLimit <
        ((state.ring exchange).take
          (min call.candidateLimit (state.selected exchange).length)).countP (state.unknown exchange) →
      ∃ symbol ∈ state.probes exchange, call.reply (exchange.target symbol) = .snapshot

/-- Every symbol of every exchange is requested by one of the calls. -/
def Covers (markets : ScanUniverse) (state : ScanState) (calls : List ScanCall) : Prop :=
  ∀ exchange ∈ markets.scanned, ∀ symbol ∈ exchange.symbols, ∃ before call after,
    calls = before ++ call :: after ∧
      exchange.target symbol ∈
        (markets.getAllMarketSnapshots (run markets.step state before) call).2

section Progress
variable {markets : ScanUniverse} {state : ScanState} {call : ScanCall} {exchange : ScannedExchange}

/-- Nothing becomes unknown. -/
theorem unknown_of_step {symbol : String}
    (h : (markets.step state call).unknown exchange symbol = true) :
    state.unknown exchange symbol = true := by
  rw [ScanState.unknown, Bool.not_eq_true'] at h ⊢
  by_contra hk
  rw [step_known (Bool.not_eq_false _ ▸ hk)] at h
  cases h

theorem unknownCount_step_le :
    (markets.step state call).unknownCount exchange ≤ state.unknownCount exchange :=
  List.countP_mono_left fun _ _ => unknown_of_step

/-- A snapshot leaves fewer symbols unknown. -/
theorem unknownCount_step_lt {symbol : String} (hs : symbol ∈ exchange.symbols)
    (hu : state.unknown exchange symbol = true)
    (ht : exchange.target symbol ∈ markets.targets state call)
    (hr : call.reply (exchange.target symbol) = .snapshot) :
    (markets.step state call).unknownCount exchange < state.unknownCount exchange := by
  have hknown : (markets.step state call).unknown exchange symbol = false := by
    rw [ScanState.unknown, step_answered ht hr]
    rfl
  obtain ⟨before, after, hsplit⟩ := List.append_of_mem hs
  have hmono (other : String) (h : (markets.step state call).unknown exchange other = true) :
      state.unknown exchange other = true := unknown_of_step h
  have hbefore := List.countP_mono_left (l := before) fun other _ => hmono other
  have hafter := List.countP_mono_left (l := after) fun other _ => hmono other
  unfold ScanState.unknownCount
  rw [hsplit, List.countP_append, List.countP_append, List.countP_cons_of_neg (by rw [hknown]; simp),
    List.countP_cons_of_pos hu]
  omega

theorem remaining_lt_of_unknown {later : ScanState} {position : Nat}
    (hp : position < exchange.symbols.length)
    (h : later.unknownCount exchange < state.unknownCount exchange) :
    later.remaining exchange position < state.remaining exchange position := by
  have hd : ringDistance exchange.symbols.length position (later.baseOffset exchange) <
      exchange.symbols.length := ringDistance_lt hp
  have hmul := Nat.mul_le_mul_right exchange.symbols.length (Nat.succ_le_of_lt h)
  rw [Nat.succ_mul] at hmul
  unfold ScanState.remaining
  omega

/-- A call requests the symbol, or brings it nearer. -/
theorem step_progress (hcount : markets.scanned.length ≤ call.candidateLimit)
    (hprobing : markets.Probing state call) (he : exchange ∈ markets.scanned) {position : Nat}
    {symbol : String} (hs : exchange.symbols[position]? = some symbol) :
    exchange.target symbol ∈ markets.targets state call ∨
      (markets.step state call).remaining exchange position < state.remaining exchange position := by
  have hp := (List.getElem?_eq_some_iff.mp hs).1
  obtain ⟨hlength, hshares⟩ := markets.targets_spec state call
  obtain ⟨hselected, hrequested⟩ := hshares exchange he
  have hpos := requestedOf_pos state call hcount he
  generalize hq : requestedOf (markets.targets state call) exchange.key = quota at hselected hrequested hpos
  have hcursor : state.baseOffset exchange % exchange.symbols.length = state.baseOffset exchange :=
    Nat.mod_eq_of_lt (baseOffset_lt state exchange)
  rcases Nat.lt_or_ge (ringDistance exchange.symbols.length position (state.baseOffset exchange)) quota with
    hnear | hfar
  · have hring : (state.ring exchange)[ringDistance exchange.symbols.length position
        (state.baseOffset exchange)]? = some symbol := by
      rw [← hs, ← getElem?_rotate_ringDistance hp, hcursor, ScanState.ring]
    have hreached : symbol ∈ (state.selected exchange).take quota ∨
        (∀ probed ∈ state.probes exchange, probed ∈ (state.selected exchange).take quota) ∧
          marketSnapshotUnknownProbeLimit < ((state.ring exchange).take _).countP (state.unknown exchange) :=
      probeSymbols_reach marketSnapshotUnknownProbeLimit hring hnear
    rcases hreached with htaken | ⟨hall, hmany⟩
    · exact Or.inl (hrequested symbol htaken)
    · -- the symbol is left out, and one of the probes before it becomes known
      have hreach : quota ≤ min call.candidateLimit (state.selected exchange).length := by
        refine le_min ?_ hselected
        rw [← hq]
        exact List.countP_le_length.trans hlength
      have hwithin := (List.take_sublist_take_left (l := state.ring exchange)
        (Nat.succ_le_of_lt (hnear.trans_le hreach))).countP_le (p := state.unknown exchange)
      obtain ⟨probed, hprobed, hreply⟩ := hprobing exchange he (hmany.trans_le hwithin)
      obtain ⟨hring, hunknown⟩ := List.mem_filter.mp (List.mem_of_mem_take hprobed)
      refine Or.inr (remaining_lt_of_unknown hp (unknownCount_step_lt ?_ hunknown ?_ hreply))
      · exact List.mem_rotate.mp hring
      · exact hrequested probed (hall probed hprobed)
  · right
    have hoffset := step_baseOffset state call he
    rw [hq] at hoffset
    have hadvance := ringDistance_advance hp hfar
    rw [hcursor, ← hoffset] at hadvance
    have hle : (markets.step state call).unknownCount exchange ≤ state.unknownCount exchange :=
      unknownCount_step_le
    have hmul := Nat.mul_le_mul_right exchange.symbols.length hle
    unfold ScanState.remaining
    omega

end Progress

section Coverage
variable {markets : ScanUniverse} {state : ScanState} {calls : List ScanCall}

/-- The exchanges that are too many for a call are never requested. -/
theorem length_le_of_covers {limit : Nat} (hlimit : ∀ call ∈ calls, call.candidateLimit = limit)
    (h : markets.Covers state calls) : markets.scanned.length ≤ limit := by
  by_contra hlt
  have hi : limit < markets.scanned.length := Nat.not_le.mp hlt
  obtain ⟨symbol, hsymbol⟩ := List.exists_mem_of_ne_nil _ markets.scanned[limit].nonempty
  obtain ⟨before, call, after, rfl, ht⟩ := h _ (List.getElem_mem hi) symbol hsymbol
  have hcall : call.candidateLimit = limit :=
    hlimit call (List.mem_append_right _ List.mem_cons_self)
  have hdrop : markets.scanned[limit] ∈ markets.scanned.drop call.candidateLimit := by
    rw [hcall, List.drop_eq_getElem_cons hi]
    exact List.mem_cons_self
  have hzero := requestedOf_eq_zero (run markets.step state before) hdrop
  rw [getAllMarketSnapshots_requested] at ht
  unfold requestedOf at hzero
  rw [List.countP_eq_zero] at hzero
  exact hzero _ ht (beq_self_eq_true _)

/-- In a run of calls with one limit whose probes are answered, as long as the squares of its exchanges,
every symbol is requested exactly when there are not more exchanges than a call has candidates. -/
theorem covers_iff (markets : ScanUniverse) (limit : Nat) (state : ScanState) (calls : List ScanCall)
    (hlimit : ∀ call ∈ calls, call.limit = limit)
    (hprobing : Along markets.step markets.Probing state calls)
    (hlength : ∀ exchange ∈ markets.scanned,
      exchange.symbols.length * (exchange.symbols.length + 1) ≤ calls.length) :
    markets.Covers state calls ↔
      markets.scanned.length ≤ min (max limit 1) octobotMarketSnapshotHardLimit := by
  have hcandidates (call : ScanCall) (hc : call ∈ calls) :
      call.candidateLimit = min (max limit 1) octobotMarketSnapshotHardLimit := by
    rw [candidateLimit_eq, ScanCall.cappedLimit, hlimit call hc]
  refine ⟨length_le_of_covers hcandidates, fun hcount exchange he symbol hs => ?_⟩
  obtain ⟨position, hp⟩ := List.mem_iff_getElem?.mp hs
  have hroom : Along markets.step (fun _ call => markets.scanned.length ≤ call.candidateLimit) state calls :=
    along_of_forall markets.step fun call hc _ => (hcandidates call hc).symm ▸ hcount
  have hstep (s : ScanState) (call : ScanCall)
      (hg : markets.Probing s call ∧ markets.scanned.length ≤ call.candidateLimit) :
      exchange.target symbol ∈ markets.targets s call ∨
        (markets.step s call).remaining exchange position < s.remaining exchange position :=
    step_progress hg.2 hg.1 he hp
  have hmeasure : state.remaining exchange position < calls.length := by
    have hd : ringDistance exchange.symbols.length position (state.baseOffset exchange) <
        exchange.symbols.length := ringDistance_lt (List.getElem?_eq_some_iff.mp hp).1
    have hu : state.unknownCount exchange ≤ exchange.symbols.length := List.countP_le_length
    have hmul := Nat.mul_le_mul_right exchange.symbols.length hu
    have hbound := hlength exchange he
    rw [Nat.mul_succ] at hbound
    unfold ScanState.remaining
    omega
  obtain ⟨before, call, after, hsplit, ht⟩ :=
    run_shows markets.step hstep (hprobing.and markets.step hroom) hmeasure
  exact ⟨before, call, after, hsplit, by rwa [getAllMarketSnapshots_requested]⟩

end Coverage

instance (markets : ScanUniverse) (state : ScanState) (call : ScanCall) :
    Decidable (markets.Probing state call) :=
  inferInstanceAs (Decidable (∀ exchange ∈ markets.scanned, _ < _ → ∃ symbol ∈ state.probes exchange, _))

def emptyScan : ScanState := { available := [], symbolScanOffsets := fun _ => none }

def twoExchanges : ScanUniverse where
  exchanges :=
    [{ name := "Binance", key := some "binance", enabled := true, marketStatusSymbols := []
       symbols := ["BTC/USDT", "ETH/USDT"] },
     { name := "Kraken", key := some "kraken", enabled := true, marketStatusSymbols := []
       symbols := ["SOL/USDT"] }]
  targetExchanges := []
  targetCurrencies := []
  circuitOpen := fun _ => false
  skipped := fun _ _ => false
  distinct := by decide

def answeringCall (limit : Nat) : ScanCall :=
  { limit, reply := fun _ => .snapshot, choose := fun _ => 0 }

theorem twoExchanges_covered :
    twoExchanges.Covers emptyScan (List.replicate 6 (answeringCall 2)) :=
  (covers_iff twoExchanges 2 emptyScan (List.replicate 6 (answeringCall 2))
    (fun _ hc => congrArg ScanCall.limit (List.eq_of_mem_replicate hc)) (by decide +kernel)
    (by decide +kernel)).mpr (by decide +kernel)

/-- With one symbol a call, the second of two exchanges is never asked, however long the run. -/
theorem second_exchange_starves :
    ¬ ∃ bound, ∀ calls : List ScanCall,
        (∀ call ∈ calls, call.limit = 1 ∧ ∀ target, call.reply target = .snapshot) →
          bound ≤ calls.length → twoExchanges.Covers emptyScan calls := by
  rintro ⟨bound, h⟩
  have hcall (call : ScanCall) (hc : call ∈ List.replicate bound (answeringCall 1)) :
      call = answeringCall 1 := List.eq_of_mem_replicate hc
  have hcovers := h (List.replicate bound (answeringCall 1))
    (fun call hc => hcall call hc ▸ ⟨rfl, fun _ => rfl⟩) List.length_replicate.ge
  have hlimit (call : ScanCall) (hc : call ∈ List.replicate bound (answeringCall 1)) :
      call.candidateLimit = 1 := by
    rw [hcall call hc]
    rfl
  have hlength := length_le_of_covers hlimit hcovers
  exact absurd hlength (by decide +kernel)

section PassedOver

def unlistedSymbols : List String := ["U1", "U2", "U3", "U4", "U5", "U6", "U7", "U8", "U9"]

def listedSymbols : List String := ["K1", "K2", "K3", "K4", "K5", "K6", "K7", "K8", "K9", "KA", "KB"]

def halfListed : ScanUniverse where
  exchanges :=
    [{ name := "Binance", key := some "binance", enabled := true, marketStatusSymbols := listedSymbols
       symbols := unlistedSymbols ++ listedSymbols }]
  targetExchanges := []
  targetCurrencies := []
  circuitOpen := fun _ => false
  skipped := fun _ _ => false
  distinct := by decide

def halfListedExchange : ScannedExchange where
  name := "Binance"
  key := "binance"
  marketStatusSymbols := listedSymbols
  symbols := unlistedSymbols ++ listedSymbols
  nonempty := by decide

theorem halfListed_scanned : halfListed.scanned = [halfListedExchange] := by decide +kernel

/-- The offset is at one of the halves, and the unlisted symbols are unknown. -/
structure Halfway (state : ScanState) : Prop where
  offset : state.baseOffset halfListedExchange = 0 ∨ state.baseOffset halfListedExchange = 10
  known : ∀ symbol ∈ halfListedExchange.symbols,
    state.known halfListedExchange symbol = listedSymbols.contains symbol

/-- From either half, ten requests go to the next, without the last of the unlisted symbols. -/
theorem halfway_targets {state : ScanState} {call : ScanCall} (h : Halfway state)
    (hlimit : call.limit = 10) :
    requestedOf (halfListed.targets state call) "binance" = 10 ∧
      halfListedExchange.target "U9" ∉ halfListed.targets state call := by
  have hselected : state.selected halfListedExchange =
      probeSymbols listedSymbols.contains marketSnapshotUnknownProbeLimit
        (halfListedExchange.symbols.rotate (state.baseOffset halfListedExchange)) :=
    probeSymbols_congr (fun symbol hs => h.known symbol (List.mem_rotate.mp hs)) _
  unfold targets
  rw [targetStates_eq, halfListed_scanned, candidateLimit_eq, ScanCall.cappedLimit, hlimit,
    List.map_singleton, freshState, hselected]
  rcases h.offset with ho | ho
  · rw [ho]
    decide +kernel
  · rw [ho]
    decide +kernel

theorem halfway_step {state : ScanState} {call : ScanCall} (h : Halfway state)
    (hlimit : call.limit = 10)
    (hreply : ∀ target, call.reply target = .snapshot →
      target ∈ listedSymbols.map halfListedExchange.target) : Halfway (halfListed.step state call) := by
  have he : halfListedExchange ∈ halfListed.scanned := by
    rw [halfListed_scanned]
    exact List.mem_singleton_self _
  constructor
  · have hoffset := step_baseOffset state call he
    rw [show halfListedExchange.key = "binance" from rfl, (halfway_targets h hlimit).1] at hoffset
    rcases h.offset with ho | ho
    · exact Or.inr (by rw [hoffset, ho]; rfl)
    · exact Or.inl (by rw [hoffset, ho]; rfl)
  · intro symbol hs
    cases hl : listedSymbols.contains symbol with
    | true => exact step_known ((h.known symbol hs).trans hl)
    | false =>
      have hkeys : ∀ symbol ∈ halfListedExchange.symbols, listedSymbols.contains symbol = false →
          ∀ target ∈ listedSymbols.map halfListedExchange.target,
            marketSnapshotSymbolKey target.exchangeKey target.symbol ≠
              marketSnapshotSymbolKey halfListedExchange.key symbol := by decide +kernel
      refine step_unanswered ((h.known symbol hs).trans hl) fun target ht => ?_
      exact hkeys symbol hs hl target (hreply target ht)

/-- Where only listed symbols get snapshots, the last of nine others is never requested, in runs of any
length: the offset moves on over it. -/
theorem halfListed_not_covers {calls : List ScanCall} (hlimit : ∀ call ∈ calls, call.limit = 10)
    (hreply : ∀ call ∈ calls, ∀ target, call.reply target = .snapshot →
      target ∈ listedSymbols.map halfListedExchange.target) :
    ¬ halfListed.Covers emptyScan calls := by
  intro h
  have he : halfListedExchange ∈ halfListed.scanned := by
    rw [halfListed_scanned]
    exact List.mem_singleton_self _
  obtain ⟨before, call, after, rfl, ht⟩ := h halfListedExchange he "U9" (by decide)
  have hguard : Along halfListed.step (fun _ call => call.limit = 10 ∧ ∀ target,
      call.reply target = .snapshot → target ∈ listedSymbols.map halfListedExchange.target)
      emptyScan before :=
    along_of_forall halfListed.step fun call hc _ =>
      ⟨hlimit call (List.mem_append_left _ hc), hreply call (List.mem_append_left _ hc)⟩
  have hstart : Halfway emptyScan := ⟨Or.inl rfl, by decide +kernel⟩
  have hend := run_invariant halfListed.step
    (fun _ _ hs hg => halfway_step hs hg.1 hg.2) hstart hguard
  rw [getAllMarketSnapshots_requested] at ht
  exact (halfway_targets hend (hlimit call (List.mem_append_right _ List.mem_cons_self))).2 ht

end PassedOver

end ScanUniverse

end Gail.Trading
