import Gail.Trading.MarketScan

/-! What one call of `get_all_market_snapshots` requests of an exchange: the first of its selected
symbols, as many as the rounds over the exchanges give it. -/
namespace Gail.Trading
open Gail.Library

section Probes
variable {known : String → Bool}

theorem probeSymbols_known {probes : Nat} {symbol : String} {symbols : List String}
    (h : known symbol = true) :
    probeSymbols known probes (symbol :: symbols) = symbol :: probeSymbols known probes symbols := by
  cases probes <;> simp [probeSymbols, h]

theorem probeSymbols_exhausted {symbol : String} {symbols : List String} (h : ¬ known symbol = true) :
    probeSymbols known 0 (symbol :: symbols) = probeSymbols known 0 symbols := by
  simp [probeSymbols, h]

theorem probeSymbols_probe {probes : Nat} {symbol : String} {symbols : List String}
    (h : ¬ known symbol = true) :
    probeSymbols known (probes + 1) (symbol :: symbols) = symbol :: probeSymbols known probes symbols := by
  simp [probeSymbols, h]

theorem probeSymbols_congr {known other : String → Bool} {symbols : List String}
    (h : ∀ symbol ∈ symbols, known symbol = other symbol) (probes : Nat) :
    probeSymbols known probes symbols = probeSymbols other probes symbols := by
  induction symbols generalizing probes with
  | nil => cases probes <;> rfl
  | cons symbol symbols ih =>
    obtain ⟨hfirst, hrest⟩ := List.forall_mem_cons.mp h
    cases probes <;> simp only [probeSymbols, hfirst, ih hrest]

theorem probeSymbols_sublist (probes : Nat) (symbols : List String) :
    (probeSymbols known probes symbols).Sublist symbols := by
  induction symbols generalizing probes with
  | nil => cases probes <;> exact List.Sublist.refl []
  | cons symbol symbols ih =>
    by_cases hk : known symbol = true
    · rw [probeSymbols_known hk]
      exact (ih probes).cons_cons symbol
    · match probes with
      | 0 =>
        rw [probeSymbols_exhausted hk]
        exact (ih 0).cons symbol
      | probes + 1 =>
        rw [probeSymbols_probe hk]
        exact (ih probes).cons_cons symbol

theorem probeSymbols_ne_nil {probes : Nat} {symbols : List String} (hs : symbols ≠ []) :
    probeSymbols known (probes + 1) symbols ≠ [] := by
  match symbols, hs with
  | symbol :: symbols, _ =>
    by_cases hk : known symbol = true
    · rw [probeSymbols_known hk]
      exact List.cons_ne_nil _ _
    · rw [probeSymbols_probe hk]
      exact List.cons_ne_nil _ _

/-- A symbol within reach is among the symbols that are taken, or it is left out: then all the probes are
among these, and were used up before it. -/
theorem probeSymbols_reach (probes : Nat) {distance count : Nat} {symbols : List String} {symbol : String}
    (hs : symbols[distance]? = some symbol) (hd : distance < count) :
    symbol ∈ (probeSymbols known probes symbols).take count ∨
      (∀ probed ∈ (symbols.filter fun other => !known other).take probes,
        probed ∈ (probeSymbols known probes symbols).take count) ∧
      probes < (symbols.take (distance + 1)).countP fun other => !known other := by
  induction symbols generalizing probes distance count with
  | nil => cases hs
  | cons first symbols ih =>
    match count, hd with
    | count + 1, hd =>
    by_cases hk : known first = true
    · rw [probeSymbols_known hk, List.take_succ_cons, List.filter_cons_of_neg (by simp [hk]),
        List.take_succ_cons, List.countP_cons_of_neg (by simp [hk])]
      match distance with
      | 0 =>
        obtain rfl := Option.some.inj hs
        exact Or.inl List.mem_cons_self
      | distance + 1 =>
        rcases ih probes hs (Nat.lt_of_succ_lt_succ hd) with h | ⟨hall, hcount⟩
        · exact Or.inl (List.mem_cons_of_mem _ h)
        · exact Or.inr ⟨fun probed hp => List.mem_cons_of_mem _ (hall probed hp), hcount⟩
    · rw [List.filter_cons_of_pos (by simp [hk]), List.take_succ_cons,
        List.countP_cons_of_pos (by simp [hk])]
      match probes with
      | 0 =>
        refine Or.inr ⟨fun probed hp => ?_, Nat.succ_pos _⟩
        rw [List.take_zero] at hp
        cases hp
      | probes + 1 =>
        rw [probeSymbols_probe hk, List.take_succ_cons, List.take_succ_cons]
        match distance with
        | 0 =>
          obtain rfl := Option.some.inj hs
          exact Or.inl List.mem_cons_self
        | distance + 1 =>
          rcases ih probes hs (Nat.lt_of_succ_lt_succ hd) with h | ⟨hall, hcount⟩
          · exact Or.inl (List.mem_cons_of_mem _ h)
          · refine Or.inr ⟨fun probed hp => ?_, Nat.succ_lt_succ hcount⟩
            rcases List.mem_cons.mp hp with rfl | hp
            · exact List.mem_cons_self
            · exact List.mem_cons_of_mem _ (hall probed hp)

end Probes

namespace ExchangeTargetState

/-- The targets that have been taken of the exchange. -/
def taken (state : ExchangeTargetState) : List MarketTarget :=
  (state.symbols.take state.consumed).map state.exchange.target

/-- A later stage of the rounds. -/
structure Grown (state later : ExchangeTargetState) : Prop where
  exchange : later.exchange = state.exchange
  symbols : later.symbols = state.symbols
  baseOffset : later.baseOffset = state.baseOffset
  fits : state.consumed ≤ state.symbols.length → later.consumed ≤ later.symbols.length

theorem Grown.refl (state : ExchangeTargetState) : state.Grown state := ⟨rfl, rfl, rfl, id⟩

theorem Grown.trans {state later last : ExchangeTargetState} (h : state.Grown later)
    (h' : later.Grown last) : state.Grown last :=
  ⟨h'.exchange.trans h.exchange, h'.symbols.trans h.symbols, h'.baseOffset.trans h.baseOffset,
    fun hf => h'.fits (h.fits hf)⟩

theorem grown_trans {states later last : List ExchangeTargetState} (h : List.Forall₂ Grown states later)
    (h' : List.Forall₂ Grown later last) : List.Forall₂ Grown states last := by
  induction h generalizing last with
  | nil => exact h'
  | cons hg _ ih =>
    cases h' with
    | cons hg' hrest => exact .cons (hg.trans hg') (ih hrest)

theorem grown_keys {states later : List ExchangeTargetState} (h : List.Forall₂ Grown states later) :
    (later.map fun state => state.exchange.key) = states.map fun state => state.exchange.key := by
  induction h with
  | nil => rfl
  | cons hg _ ih => rw [List.map_cons, List.map_cons, ih, hg.exchange]

theorem grown_mem {states later : List ExchangeTargetState} (h : List.Forall₂ Grown states later)
    {state : ExchangeTargetState} (hs : state ∈ states) : ∃ grown ∈ later, state.Grown grown := by
  induction h with
  | nil => cases hs
  | cons hg _ ih =>
    rcases List.mem_cons.mp hs with rfl | hs
    · exact ⟨_, List.mem_cons_self, hg⟩
    · obtain ⟨grown, hm, hgrown⟩ := ih hs
      exact ⟨grown, List.mem_cons_of_mem _ hm, hgrown⟩

theorem grown_fits {states later : List ExchangeTargetState} (h : List.Forall₂ Grown states later)
    (hfits : ∀ state ∈ states, state.consumed ≤ state.symbols.length) :
    ∀ state ∈ later, state.consumed ≤ state.symbols.length := by
  induction h with
  | nil => exact fun _ hs => nomatch hs
  | cons hg _ ih =>
    obtain ⟨hfirst, hrest⟩ := List.forall_mem_cons.mp hfits
    exact List.forall_mem_cons.mpr ⟨hg.fits hfirst, ih hrest⟩

theorem taken_next {state : ExchangeTargetState} {symbol : String}
    (h : state.symbols[state.consumed]? = some symbol) :
    ({ state with consumed := state.consumed + 1 } : ExchangeTargetState).taken =
      state.taken ++ [state.exchange.target symbol] := by
  unfold taken
  rw [List.take_add_one, h, List.map_append]
  rfl

end ExchangeTargetState

section Rounds
variable {candidateLimit : Nat} {state : ExchangeTargetState} {states : List ExchangeTargetState}
  {targets : List MarketTarget}

theorem offerRound_take {symbol : String} (h : state.symbols[state.consumed]? = some symbol)
    (hlt : targets.length < candidateLimit) :
    offerRound candidateLimit (state :: states) targets =
      let offered := offerRound candidateLimit states (targets ++ [state.exchange.target symbol])
      ({ state with consumed := state.consumed + 1 } :: offered.1, offered.2.1, true) := by
  rw [offerRound, h]
  exact if_pos hlt

theorem offerRound_skip (h : targets.length < candidateLimit → state.symbols.length ≤ state.consumed) :
    offerRound candidateLimit (state :: states) targets =
      let offered := offerRound candidateLimit states targets
      (state :: offered.1, offered.2.1, offered.2.2) := by
  rw [offerRound]
  cases hs : state.symbols[state.consumed]? with
  | none => rfl
  | some symbol =>
    apply if_neg
    intro hlt
    have hlength := (List.getElem?_eq_some_iff.mp hs).1
    exact absurd (h hlt) (Nat.not_le.mpr hlength)

/-- What a round makes of the exchanges and of the targets. -/
structure OfferSpec (candidateLimit : Nat) (states : List ExchangeTargetState)
    (targets : List MarketTarget)
    (offered : List ExchangeTargetState × List MarketTarget × Bool) : Prop where
  grown : List.Forall₂ ExchangeTargetState.Grown states offered.1
  added : ∃ added, offered.2.1 = targets ++ added ∧ (offered.2.2 = true → added ≠ []) ∧
    (offered.1.flatMap ExchangeTargetState.taken).Perm (states.flatMap ExchangeTargetState.taken ++ added)
  capped : targets.length ≤ candidateLimit → offered.2.1.length ≤ candidateLimit

theorem offerRound_spec (candidateLimit : Nat) (states : List ExchangeTargetState)
    (targets : List MarketTarget) :
    OfferSpec candidateLimit states targets (offerRound candidateLimit states targets) := by
  induction states generalizing targets with
  | nil => exact ⟨.nil, ⟨[], (List.append_nil _).symm, fun h => (nomatch h), List.Perm.refl []⟩, id⟩
  | cons state states ih =>
    by_cases h : targets.length < candidateLimit → state.symbols.length ≤ state.consumed
    · rw [offerRound_skip h]
      obtain ⟨hgrown, ⟨added, htargets, hprogress, hperm⟩, hcap⟩ := ih targets
      refine ⟨.cons (.refl state) hgrown, ⟨added, htargets, hprogress, ?_⟩, hcap⟩
      rw [List.flatMap_cons, List.flatMap_cons, List.append_assoc]
      exact hperm.append_left _
    · obtain ⟨hlt, hlength⟩ := Classical.not_imp.mp h
      have hget := List.getElem?_eq_getElem (Nat.not_le.mp hlength)
      rw [offerRound_take hget hlt]
      obtain ⟨hgrown, ⟨added, htargets, -, hperm⟩, hcap⟩ :=
        ih (targets ++ [state.exchange.target state.symbols[state.consumed]])
      refine ⟨.cons ⟨rfl, rfl, rfl, fun _ => Nat.not_le.mp hlength⟩ hgrown, ?_, fun _ => hcap ?_⟩
      · refine ⟨_, htargets.trans (List.append_assoc _ _ _), fun _ => List.cons_ne_nil _ _, ?_⟩
        rw [List.flatMap_cons, ExchangeTargetState.taken_next hget, List.flatMap_cons]
        simp only [List.append_assoc, List.singleton_append]
        refine List.Perm.append_left _ ?_
        exact (hperm.cons _).trans List.perm_middle.symm
      · rw [List.length_append]
        exact hlt

theorem gatherTargets_prefix (rounds : Nat) (states : List ExchangeTargetState)
    (targets : List MarketTarget) : targets <+: gatherTargets candidateLimit rounds states targets := by
  induction rounds generalizing states targets with
  | zero => exact List.prefix_rfl
  | succ rounds ih =>
    obtain ⟨added, hadded, -, -⟩ := (offerRound_spec candidateLimit states targets).added
    rw [gatherTargets]
    split
    swap
    · exact List.prefix_rfl
    split
    · next ho =>
      rw [ho] at hadded
      obtain rfl := hadded
      exact (List.prefix_append _ _).trans (ih _ _)
    · next ho =>
      rw [ho] at hadded
      obtain rfl := hadded
      exact List.prefix_append _ _

theorem gatherTargets_first {candidateLimit : Nat} (h : 0 < candidateLimit)
    (states : List ExchangeTargetState) :
    (offerRound candidateLimit states []).2.1 <+:
      gatherTargets candidateLimit candidateLimit states [] := by
  obtain ⟨rounds, rfl⟩ := Nat.exists_eq_add_of_lt h
  rw [Nat.zero_add, gatherTargets, if_pos (show ([] : List MarketTarget).length < rounds + 1 from Nat.succ_pos _)]
  split
  · next ho =>
    rw [ho]
    exact gatherTargets_prefix _ _ _
  · next ho =>
    rw [ho]

/-- The targets are what has been taken of the exchanges in the end. -/
theorem gatherTargets_spec (rounds : Nat) {states : List ExchangeTargetState} {targets : List MarketTarget}
    (hperm : (states.flatMap ExchangeTargetState.taken).Perm targets)
    (hcap : targets.length ≤ candidateLimit) :
    (gatherTargets candidateLimit rounds states targets).length ≤ candidateLimit ∧
      ∃ final, List.Forall₂ ExchangeTargetState.Grown states final ∧
        (final.flatMap ExchangeTargetState.taken).Perm
          (gatherTargets candidateLimit rounds states targets) := by
  induction rounds generalizing states targets with
  | zero => exact ⟨hcap, states, List.forall₂_same.mpr fun state _ => .refl state, hperm⟩
  | succ rounds ih =>
    rw [gatherTargets]
    split
    swap
    · exact ⟨hcap, states, List.forall₂_same.mpr fun state _ => .refl state, hperm⟩
    have hspec := offerRound_spec candidateLimit states targets
    split
    · next later offered ho =>
      rw [ho] at hspec
      obtain ⟨hgrown, ⟨added, rfl, -, hadded⟩, hoffered⟩ := hspec
      obtain ⟨hlength, final, hfinal, hf⟩ :=
        ih (hadded.trans (hperm.append_right added)) (hoffered hcap)
      exact ⟨hlength, final, ExchangeTargetState.grown_trans hgrown hfinal, hf⟩
    · next ho =>
      rw [ho] at hspec
      obtain ⟨hgrown, ⟨added, rfl, -, hadded⟩, hoffered⟩ := hspec
      exact ⟨hoffered hcap, _, hgrown, hadded.trans (hperm.append_right added)⟩

/-- The exchanges before anything is taken of them. -/
def Fresh (states : List ExchangeTargetState) : Prop :=
  ∀ state ∈ states, state.consumed = 0 ∧ state.symbols ≠ []

theorem taken_of_fresh (h : Fresh states) : states.flatMap ExchangeTargetState.taken = [] := by
  rw [List.flatMap_eq_nil_iff]
  intro state hs
  rw [ExchangeTargetState.taken, (h state hs).1, List.take_zero, List.map_nil]

/-- The first round takes one target of each exchange, until there are enough. -/
theorem offerRound_fresh (h : Fresh states) (targets : List MarketTarget) :
    (offerRound candidateLimit states targets).2.1.map MarketTarget.exchangeKey =
      targets.map MarketTarget.exchangeKey ++
        (states.take (candidateLimit - targets.length)).map fun state => state.exchange.key := by
  induction states generalizing targets with
  | nil => simp [offerRound]
  | cons state states ih =>
    obtain ⟨hstate, hrest⟩ := List.forall_mem_cons.mp h
    by_cases hlt : targets.length < candidateLimit
    · obtain ⟨first, more, hsymbols⟩ := List.exists_cons_of_ne_nil hstate.2
      have hget : state.symbols[state.consumed]? = some first := by
        rw [hstate.1, hsymbols]
        rfl
      have hroom : candidateLimit - targets.length =
          candidateLimit - (targets ++ [state.exchange.target first]).length + 1 := by
        rw [List.length_append, List.length_singleton]
        omega
      rw [offerRound_take hget hlt, ih hrest, hroom, List.take_succ_cons, List.map_append,
        List.append_assoc]
      rfl
    · have hnone : candidateLimit - targets.length = 0 := by omega
      rw [offerRound_skip fun hc => absurd hc hlt, ih hrest, hnone]
      rfl

end Rounds

section Quota
variable {states : List ExchangeTargetState} {targets : List MarketTarget}

theorem requestedOf_taken (state : ExchangeTargetState) (key : String)
    (hf : state.consumed ≤ state.symbols.length) :
    requestedOf state.taken key = if state.exchange.key = key then state.consumed else 0 := by
  unfold requestedOf ExchangeTargetState.taken
  rw [List.countP_map]
  have hlength : (state.symbols.take state.consumed).length = state.consumed := by
    rw [List.length_take]
    exact min_eq_left hf
  by_cases hk : state.exchange.key = key
  · rw [if_pos hk, List.countP_eq_length.mpr, hlength]
    intro symbol _
    exact beq_iff_eq.mpr hk
  · rw [if_neg hk, List.countP_eq_zero]
    intro symbol _ hc
    exact hk (beq_iff_eq.mp hc)

theorem requestedOf_append (before after : List MarketTarget) (key : String) :
    requestedOf (before ++ after) key = requestedOf before key + requestedOf after key :=
  List.countP_append

theorem requestedOf_of_notMem {key : String} (h : key ∉ targets.map MarketTarget.exchangeKey) :
    requestedOf targets key = 0 := by
  unfold requestedOf
  rw [List.countP_eq_zero]
  intro target ht hc
  exact h (List.mem_map.mpr ⟨target, ht, beq_iff_eq.mp hc⟩)

theorem taken_keys {key : String} (h : key ∉ states.map fun state => state.exchange.key) :
    key ∉ (states.flatMap ExchangeTargetState.taken).map MarketTarget.exchangeKey := by
  intro hm
  obtain ⟨target, ht, rfl⟩ := List.mem_map.mp hm
  obtain ⟨state, hs, hsymbol⟩ := List.mem_flatMap.mp ht
  obtain ⟨symbol, -, rfl⟩ := List.mem_map.mp hsymbol
  exact h (List.mem_map.mpr ⟨state, hs, rfl⟩)

/-- With distinct keys, the targets of an exchange are those taken of it. -/
theorem requestedOf_flatMap (hnodup : (states.map fun state => state.exchange.key).Nodup)
    (hfits : ∀ state ∈ states, state.consumed ≤ state.symbols.length) {state : ExchangeTargetState}
    (hs : state ∈ states) :
    requestedOf (states.flatMap ExchangeTargetState.taken) state.exchange.key = state.consumed := by
  induction states with
  | nil => cases hs
  | cons first rest ih =>
    obtain ⟨hfirst, hrest⟩ := List.nodup_cons.mp hnodup
    rw [List.flatMap_cons, requestedOf_append, requestedOf_taken first _ (hfits first List.mem_cons_self)]
    rcases List.mem_cons.mp hs with rfl | hs
    · rw [if_pos rfl, requestedOf_of_notMem (taken_keys hfirst), Nat.add_zero]
    · have hne : first.exchange.key ≠ state.exchange.key := by
        intro he
        exact hfirst (List.mem_map.mpr ⟨state, hs, he.symm⟩)
      rw [if_neg hne, Nat.zero_add]
      exact ih hrest (fun other ho => hfits other (List.mem_cons_of_mem _ ho)) hs

end Quota

namespace RequestLog
variable {log : RequestLog} {limit : Nat} {reply : MarketTarget → MarketReply} {choose : Nat → Nat}

/-- Nothing waits while nothing is in flight, and what is open has room under the limit. -/
structure Open (log : RequestLog) (limit : Nat) : Prop where
  running : log.pending = [] ∨ log.inFlight ≠ []
  room : log.answered.length + log.inFlight.length + log.pending.length ≤ limit

theorem spawnNext_length (log : RequestLog) :
    log.spawnNext.inFlight.length + log.spawnNext.pending.length =
      log.inFlight.length + log.pending.length := by
  unfold spawnNext
  split
  · rfl
  · next hp =>
    simp only [hp, List.length_append, List.length_cons, List.length_nil]
    omega

theorem spawnNext_running (log : RequestLog) :
    log.spawnNext.pending = [] ∨ log.spawnNext.inFlight ≠ [] := by
  unfold spawnNext
  split
  · next hp => exact Or.inl hp
  · exact Or.inr (by simp)

theorem spawnNext_requested (log : RequestLog) :
    log.spawnNext.requested ++ log.spawnNext.pending = log.requested ++ log.pending := by
  unfold spawnNext
  split
  · rfl
  · next hp => simp [hp]

theorem spawnNext_open (log : RequestLog) {target : MarketTarget} :
    target ∈ log.spawnNext.inFlight ++ log.spawnNext.pending ↔ target ∈ log.inFlight ++ log.pending := by
  unfold spawnNext
  split
  · rfl
  · next hp => simp [hp]

@[simp] theorem spawnNext_answered (log : RequestLog) : log.spawnNext.answered = log.answered := by
  unfold spawnNext
  split <;> rfl

/-- What is open is the target of the reply, or stays open. -/
theorem mem_open {target other : MarketTarget} {index : Nat} (h : log.inFlight[index]? = some target)
    (ho : other ∈ log.inFlight ++ log.pending) :
    other = target ∨ other ∈ log.inFlight.eraseIdx index ++ log.pending := by
  rcases List.mem_append.mp ho with ho | ho
  · obtain ⟨i, hi⟩ := List.mem_iff_getElem?.mp ho
    by_cases he : i = index
    · rw [he, h] at hi
      exact Or.inl (Option.some.inj hi).symm
    · exact Or.inr (List.mem_append_left _ (List.mem_eraseIdx_iff_getElem?.mpr ⟨i, he, hi⟩))
  · exact Or.inr (List.mem_append_right _ ho)

theorem eraseIdx_length {target : MarketTarget} {index : Nat} (h : log.inFlight[index]? = some target) :
    (log.inFlight.eraseIdx index).length + 1 = log.inFlight.length := by
  have hi := (List.getElem?_eq_some_iff.mp h).1
  rw [List.length_eraseIdx_of_lt hi]
  omega

/-- Nothing but snapshots is answered. -/
theorem drain_answered (rounds : Nat) (log : RequestLog) :
    ∀ target ∈ (drain limit reply choose rounds log).answered,
      target ∈ log.answered ∨ reply target = .snapshot := by
  induction rounds generalizing log with
  | zero => exact fun _ h => Or.inl h
  | succ rounds ih =>
    rw [drain]
    dsimp only
    split
    · exact fun _ h => Or.inl h
    next target _ =>
    have hfound : ∀ other ∈ log.answered ++ [target], reply target = .snapshot →
        other ∈ log.answered ∨ reply other = .snapshot := by
      intro other ho hreply
      rcases List.mem_append.mp ho with ho | ho
      · exact Or.inl ho
      · exact Or.inr (List.mem_singleton.mp ho ▸ hreply)
    cases hreply : reply target with
    | failed | panicked =>
      intro other ho
      have h := ih _ other ho
      rwa [spawnNext_answered] at h
    | snapshot =>
      dsimp only
      split
      · exact fun other ho => hfound other ho hreply
      · intro other ho
        have h := ih _ other ho
        rw [spawnNext_answered] at h
        exact h.elim (fun h => hfound other h hreply) Or.inr

variable (reply choose) in
/-- Every target is requested, and every snapshot is taken. -/
theorem drain_spec (rounds : Nat) {log : RequestLog} (ho : log.Open limit)
    (hr : log.inFlight.length + log.pending.length ≤ rounds) :
    (drain limit reply choose rounds log).requested = log.requested ++ log.pending ∧
      log.answered ⊆ (drain limit reply choose rounds log).answered ∧
      ∀ target ∈ log.inFlight ++ log.pending, reply target = .snapshot →
        target ∈ (drain limit reply choose rounds log).answered := by
  induction rounds generalizing log with
  | zero =>
    have hin : log.inFlight = [] := List.length_eq_zero_iff.mp (by omega)
    have hpending : log.pending = [] := List.length_eq_zero_iff.mp (by omega)
    rw [hin, hpending, List.append_nil]
    exact ⟨rfl, fun _ h => h, fun _ h => nomatch h⟩
  | succ rounds ih =>
    rw [drain]
    dsimp only
    split
    · next hnone =>
      have hin : log.inFlight = [] := by
        by_contra hne
        have hlt := Nat.mod_lt (choose rounds) (List.length_pos_iff.mpr hne)
        exact absurd (List.getElem?_eq_none_iff.mp hnone) (Nat.not_le.mpr hlt)
      have hpending : log.pending = [] := ho.running.resolve_right fun hne => hne hin
      rw [hin, hpending, List.append_nil]
      exact ⟨rfl, fun _ h => h, fun _ h => nomatch h⟩
    next target htarget =>
    have hlength := eraseIdx_length htarget
    have hroom := ho.room
    -- after the reply, with the target answered or not
    have hnext (answered : List MarketTarget) (ha : answered.length ≤ log.answered.length + 1) :
        let rest : RequestLog :=
          { log with inFlight := log.inFlight.eraseIdx (choose rounds % log.inFlight.length), answered }
        rest.spawnNext.Open limit ∧
          rest.spawnNext.inFlight.length + rest.spawnNext.pending.length ≤ rounds := by
      intro rest
      have hsame := rest.spawnNext_length
      have herased : rest.inFlight.length + 1 = log.inFlight.length := hlength
      have hpending : rest.pending.length = log.pending.length := rfl
      refine ⟨⟨rest.spawnNext_running, ?_⟩, by omega⟩
      rw [spawnNext_answered]
      have hanswered : rest.answered.length ≤ log.answered.length + 1 := ha
      omega
    have hgoes (answered : List MarketTarget) (ha : answered.length ≤ log.answered.length + 1)
        (hsub : log.answered ⊆ answered) (htaken : reply target = .snapshot → target ∈ answered) :
        let rest : RequestLog :=
          { log with inFlight := log.inFlight.eraseIdx (choose rounds % log.inFlight.length), answered }
        let later := drain limit reply choose rounds rest.spawnNext
        later.requested = log.requested ++ log.pending ∧ log.answered ⊆ later.answered ∧
          ∀ other ∈ log.inFlight ++ log.pending, reply other = .snapshot → other ∈ later.answered := by
      intro rest later
      obtain ⟨hopen, hrounds⟩ := hnext answered ha
      obtain ⟨hrequested, hkept, hall⟩ := ih hopen hrounds
      rw [spawnNext_answered] at hkept
      refine ⟨hrequested.trans rest.spawnNext_requested, fun other h => hkept (hsub h), ?_⟩
      intro other hother hreply
      rcases mem_open htarget hother with rfl | hm
      · exact hkept (htaken hreply)
      · exact hall other (rest.spawnNext_open.mpr hm) hreply
    cases hreply : reply target with
    | failed | panicked =>
      exact hgoes log.answered (Nat.le_succ _) (fun _ h => h) fun hc => nomatch hreply.symm.trans hc
    | snapshot =>
      dsimp only
      split
      · next hlimit =>
        -- the limit is reached by the reply to the last target
        rw [List.length_append, List.length_singleton] at hlimit
        have hpending : log.pending = [] := List.length_eq_zero_iff.mp (by omega)
        have herased := List.length_eq_zero_iff.mp
          (show (log.inFlight.eraseIdx (choose rounds % log.inFlight.length)).length = 0 by omega)
        refine ⟨by rw [hpending, List.append_nil], List.subset_append_left _ _, ?_⟩
        intro other hother _
        rcases mem_open htarget hother with rfl | hm
        · exact List.mem_append_right _ (List.mem_singleton.mpr rfl)
        · rw [herased, hpending] at hm
          cases hm
      · apply hgoes
        · rw [List.length_append, List.length_singleton]
        · exact List.subset_append_left _ _
        · exact fun _ => List.mem_append_right _ (List.mem_singleton.mpr rfl)

/-- What starting some requests leaves as it is. -/
theorem iterate_spawnNext (count : Nat) (log : RequestLog) :
    (spawnNext^[count] log).requested ++ (spawnNext^[count] log).pending = log.requested ++ log.pending ∧
      (spawnNext^[count] log).inFlight.length + (spawnNext^[count] log).pending.length =
        log.inFlight.length + log.pending.length ∧
      (spawnNext^[count] log).answered = log.answered ∧
      ∀ target, target ∈ (spawnNext^[count] log).inFlight ++ (spawnNext^[count] log).pending ↔
        target ∈ log.inFlight ++ log.pending := by
  induction count with
  | zero => exact ⟨rfl, rfl, rfl, fun _ => Iff.rfl⟩
  | succ count ih =>
    obtain ⟨hrequested, hlength, hanswered, hopen⟩ := ih
    rw [Function.iterate_succ_apply']
    exact ⟨(spawnNext_requested _).trans hrequested, (spawnNext_length _).trans hlength,
      (spawnNext_answered _).trans hanswered, fun target => (spawnNext_open _).trans (hopen target)⟩

theorem start_answered (targets : List MarketTarget) : (start targets).answered = [] :=
  (iterate_spawnNext maxParallelMarketSnapshotRequests _).2.2.1

/-- All targets are requested whatever comes back in whatever order, and those with a snapshot are
answered. -/
theorem drain_start {targets : List MarketTarget} (h : targets.length ≤ limit) :
    (drain limit reply choose targets.length (start targets)).requested = targets ∧
      ∀ target ∈ targets, reply target = .snapshot →
        target ∈ (drain limit reply choose targets.length (start targets)).answered := by
  obtain ⟨hrequested, hlength, hanswered, hopen⟩ := iterate_spawnNext maxParallelMarketSnapshotRequests
    { inFlight := [], pending := targets, requested := [], answered := [] }
  have hstart : start targets = spawnNext^[maxParallelMarketSnapshotRequests]
      { inFlight := [], pending := targets, requested := [], answered := [] } := rfl
  rw [← hstart] at hrequested hlength hanswered hopen
  simp only [List.nil_append, List.length_nil, Nat.zero_add] at hrequested hlength hopen
  have hrunning : (start targets).pending = [] ∨ (start targets).inFlight ≠ [] := by
    unfold start maxParallelMarketSnapshotRequests
    rw [Function.iterate_succ_apply']
    exact spawnNext_running _
  have hroom : (start targets).answered.length + (start targets).inFlight.length +
      (start targets).pending.length ≤ limit := by
    rw [hanswered, List.length_nil]
    omega
  obtain ⟨hall, -, hsnapshots⟩ := drain_spec reply choose targets.length
    ⟨hrunning, hroom⟩ hlength.le
  refine ⟨hall.trans hrequested, fun target ht hreply => ?_⟩
  exact hsnapshots target ((hopen target).mpr ht) hreply

end RequestLog

section Offsets
variable {states : List ExchangeTargetState} {requested : List MarketTarget}

theorem advanceOffsets_of_notMem {offsets : String → Option Nat} {key : String}
    (h : key ∉ states.map fun state => state.exchange.key) :
    advanceOffsets states requested offsets key = offsets key := by
  induction states generalizing offsets with
  | nil => rfl
  | cons state states ih =>
    obtain ⟨hne, hrest⟩ := not_or.mp (mt List.mem_cons.mpr h)
    exact (ih hrest).trans (Function.update_of_ne hne _ _)

/-- The offset of an exchange moves on by the requests for it. -/
theorem advanceOffsets_mem (requested : List MarketTarget) (offsets : String → Option Nat)
    (hnodup : (states.map fun state => state.exchange.key).Nodup) {state : ExchangeTargetState}
    (hs : state ∈ states) :
    advanceOffsets states requested offsets state.exchange.key =
      some ((state.baseOffset + min (requestedOf requested state.exchange.key)
        state.exchange.symbols.length) % state.exchange.symbols.length) := by
  induction states generalizing offsets with
  | nil => cases hs
  | cons first rest ih =>
    obtain ⟨hfirst, hrest⟩ := List.nodup_cons.mp hnodup
    rcases List.mem_cons.mp hs with rfl | hs
    · exact (advanceOffsets_of_notMem hfirst).trans (Function.update_self _ _ _)
    · exact ih _ hrest hs

end Offsets

namespace ScanUniverse
variable {markets : ScanUniverse} {state : ScanState} {call : ScanCall} {exchange : ScannedExchange}

theorem scannedExchange_key {given : OctobotExchange} (h : markets.scannedExchange given = some exchange) :
    given.key = some exchange.key := by
  unfold scannedExchange at h
  repeat' split at h
  all_goals cases h
  assumption

theorem scanned_nodup (markets : ScanUniverse) :
    (markets.scanned.map ScannedExchange.key).Nodup := by
  refine List.Nodup.sublist ?_ markets.distinct
  unfold scanned
  induction markets.exchanges with
  | nil => exact List.Sublist.refl []
  | cons given rest ih =>
    cases hs : markets.scannedExchange given with
    | none =>
      rw [List.filterMap_cons_none hs]
      cases hk : given.key with
      | none => rwa [List.filterMap_cons_none hk]
      | some key =>
        rw [List.filterMap_cons_some hk]
        exact ih.cons key
    | some exchange =>
      rw [List.filterMap_cons_some hs, List.filterMap_cons_some (scannedExchange_key hs), List.map_cons]
      exact ih.cons_cons exchange.key

/-- The first unknown symbol is always probed, so that every scanned exchange has a selected symbol. -/
theorem selected_ne_nil (state : ScanState) (exchange : ScannedExchange) :
    state.selected exchange ≠ [] := by
  apply probeSymbols_ne_nil
  rw [ScanState.ring, Ne, List.rotate_eq_nil_iff]
  exact exchange.nonempty

def freshState (state : ScanState) (exchange : ScannedExchange) : ExchangeTargetState :=
  { exchange, symbols := state.selected exchange, baseOffset := state.baseOffset exchange, consumed := 0 }

theorem targetStates_eq (markets : ScanUniverse) (state : ScanState) :
    markets.targetStates state = markets.scanned.map (freshState state) := by
  unfold targetStates
  rw [← List.filterMap_eq_map]
  apply List.filterMap_congr
  intro exchange _
  unfold ScannedExchange.targetState
  rw [if_neg]
  · rfl
  · rw [List.isEmpty_iff]
    exact selected_ne_nil state exchange

theorem targetStates_keys (markets : ScanUniverse) (state : ScanState) :
    (markets.targetStates state).map (fun target => target.exchange.key) =
      markets.scanned.map ScannedExchange.key := by
  rw [targetStates_eq, List.map_map]
  rfl

theorem targetStates_fresh (markets : ScanUniverse) (state : ScanState) :
    Fresh (markets.targetStates state) := by
  rw [targetStates_eq]
  intro target ht
  obtain ⟨exchange, -, rfl⟩ := List.mem_map.mp ht
  exact ⟨rfl, selected_ne_nil state exchange⟩

/-- What a call requests of an exchange: the first of its selected symbols, with distinct counts. -/
structure Share (targets : List MarketTarget) (selected : List String) (exchange : ScannedExchange) :
    Prop where
  le_selected : requestedOf targets exchange.key ≤ selected.length
  requested : ∀ symbol ∈ selected.take (requestedOf targets exchange.key),
    exchange.target symbol ∈ targets

theorem targets_spec (markets : ScanUniverse) (state : ScanState) (call : ScanCall) :
    (markets.targets state call).length ≤ call.candidateLimit ∧
      ∀ exchange ∈ markets.scanned,
        Share (markets.targets state call) (state.selected exchange) exchange := by
  have hfresh := markets.targetStates_fresh state
  have hperm : ((markets.targetStates state).flatMap ExchangeTargetState.taken).Perm [] := by
    rw [taken_of_fresh hfresh]
  obtain ⟨hlength, final, hgrown, hfinal⟩ :=
    gatherTargets_spec call.candidateLimit hperm (Nat.zero_le call.candidateLimit)
  have hmem (exchange : ScannedExchange) (he : exchange ∈ markets.scanned) :
      freshState state exchange ∈ markets.targetStates state := by
    rw [targetStates_eq]
    exact List.mem_map_of_mem he
  have hnodup : (final.map fun later => later.exchange.key).Nodup := by
    rw [ExchangeTargetState.grown_keys hgrown, targetStates_keys]
    exact markets.scanned_nodup
  have hfits := ExchangeTargetState.grown_fits hgrown fun fresh hf => by
    rw [(hfresh fresh hf).1]
    exact Nat.zero_le _
  refine ⟨hlength, fun exchange he => ?_⟩
  obtain ⟨later, hl, hg⟩ := ExchangeTargetState.grown_mem hgrown (hmem exchange he)
  have hexchange : later.exchange = exchange := hg.exchange
  have hsymbols : later.symbols = state.selected exchange := hg.symbols
  have hcount : requestedOf (markets.targets state call) exchange.key = later.consumed := by
    rw [← hexchange, ← requestedOf_flatMap hnodup hfits hl]
    exact (hfinal.countP_eq _).symm
  constructor
  · rw [hcount, ← hsymbols]
    exact hfits later hl
  · intro symbol hs
    rw [hcount, ← hsymbols] at hs
    apply hfinal.subset
    refine List.mem_flatMap.mpr ⟨later, hl, ?_⟩
    rw [ExchangeTargetState.taken, ← hexchange]
    exact List.mem_map_of_mem hs

/-- A call requests something of the first exchanges, of as many as it has candidates. -/
theorem targets_first (markets : ScanUniverse) (state : ScanState) {call : ScanCall}
    (hlimit : 0 < call.candidateLimit) :
    (markets.scanned.take call.candidateLimit).map ScannedExchange.key <+:
      (markets.targets state call).map MarketTarget.exchangeKey := by
  have hround := (gatherTargets_first hlimit (markets.targetStates state)).map MarketTarget.exchangeKey
  rw [offerRound_fresh (markets.targetStates_fresh state), List.length_nil, Nat.sub_zero,
    List.map_nil, List.nil_append, List.map_take, targetStates_keys, ← List.map_take] at hround
  exact hround

theorem candidateLimit_pos (call : ScanCall) : 0 < call.candidateLimit := by
  unfold ScanCall.candidateLimit ScanCall.cappedLimit octobotMarketSnapshotHardLimit
  omega

theorem candidateLimit_eq (call : ScanCall) : call.candidateLimit = call.cappedLimit := by
  rw [ScanCall.candidateLimit, marketSnapshotCandidateMultiplier, Nat.mul_one, max_self]

variable (state call) in
/-- Where there are not more exchanges than candidates, a call requests something of each. -/
theorem requestedOf_pos (hcount : markets.scanned.length ≤ call.candidateLimit)
    (he : exchange ∈ markets.scanned) : 0 < requestedOf (markets.targets state call) exchange.key := by
  have hfirst := markets.targets_first state (candidateLimit_pos call)
  rw [List.take_of_length_le hcount] at hfirst
  obtain ⟨target, ht, hk⟩ := List.mem_map.mp (hfirst.subset (List.mem_map_of_mem he))
  exact List.countP_pos_iff.mpr ⟨target, ht, beq_iff_eq.mpr hk⟩

variable (state) in
/-- Of the exchanges that are too many, no call requests anything. -/
theorem requestedOf_eq_zero (he : exchange ∈ markets.scanned.drop call.candidateLimit) :
    requestedOf (markets.targets state call) exchange.key = 0 := by
  have hlt : call.candidateLimit < markets.scanned.length := by
    have hpos := List.length_pos_of_mem he
    rw [List.length_drop] at hpos
    omega
  have hfirst := markets.targets_first state (candidateLimit_pos call)
  have hall : (markets.scanned.take call.candidateLimit).map ScannedExchange.key =
      (markets.targets state call).map MarketTarget.exchangeKey := by
    apply hfirst.eq_of_length_le
    rw [List.length_map, List.length_map, List.length_take, min_eq_left hlt.le]
    exact (markets.targets_spec state call).1
  apply requestedOf_of_notMem
  rw [← hall]
  intro hk
  have hnodup := markets.scanned_nodup
  rw [← List.take_append_drop call.candidateLimit markets.scanned, List.map_append] at hnodup
  exact (List.nodup_append.mp hnodup).2.2 _ hk _ (List.mem_map_of_mem he) rfl

/-- A call requests all its targets. -/
theorem requests_spec (markets : ScanUniverse) (state : ScanState) (call : ScanCall) :
    (markets.requests state call).requested = markets.targets state call ∧
      ∀ target ∈ markets.targets state call, call.reply target = .snapshot →
        target ∈ (markets.requests state call).answered := by
  apply RequestLog.drain_start
  rw [← candidateLimit_eq]
  exact (markets.targets_spec state call).1

theorem getAllMarketSnapshots_requested (markets : ScanUniverse) (state : ScanState) (call : ScanCall) :
    (markets.getAllMarketSnapshots state call).2 = markets.targets state call := by
  unfold getAllMarketSnapshots
  split
  · next he => exact (List.isEmpty_iff.mp he).symm
  · exact (markets.requests_spec state call).1

theorem baseOffset_lt (state : ScanState) (exchange : ScannedExchange) :
    state.baseOffset exchange < exchange.symbols.length :=
  Nat.mod_lt _ (List.length_pos_iff.mpr exchange.nonempty)

variable (state call) in
/-- The offset moves on by what the call has requested. -/
theorem step_baseOffset (he : exchange ∈ markets.scanned) :
    (markets.step state call).baseOffset exchange =
      (state.baseOffset exchange + requestedOf (markets.targets state call) exchange.key) %
        exchange.symbols.length := by
  have hshare := (markets.targets_spec state call).2 exchange he
  have hcount : requestedOf (markets.targets state call) exchange.key ≤ exchange.symbols.length := by
    refine hshare.le_selected.trans ((probeSymbols_sublist _ _).length_le.trans ?_)
    rw [ScanState.ring, List.length_rotate]
  unfold step getAllMarketSnapshots
  split
  · next hempty =>
    rw [List.isEmpty_iff.mp hempty]
    exact (Nat.mod_eq_of_lt (baseOffset_lt state exchange)).symm
  · have hmem : freshState state exchange ∈ markets.targetStates state := by
      rw [targetStates_eq]
      exact List.mem_map_of_mem he
    have hnodup : ((markets.targetStates state).map fun target => target.exchange.key).Nodup := by
      rw [targetStates_keys]
      exact markets.scanned_nodup
    have hoffset := advanceOffsets_mem (markets.requests state call).requested
      state.symbolScanOffsets hnodup hmem
    dsimp only [freshState] at hoffset
    rw [ScanState.baseOffset]
    dsimp only
    rw [hoffset, Option.getD_some, Nat.mod_mod, (markets.requests_spec state call).1, min_eq_left hcount]

/-- What is known stays known. -/
theorem step_known {symbol : String} (h : state.known exchange symbol = true) :
    (markets.step state call).known exchange symbol = true := by
  unfold step getAllMarketSnapshots
  split
  · exact h
  · simp only [ScanState.known, Bool.or_eq_true, List.contains_iff_mem, List.mem_append] at h ⊢
    exact h.imp_right Or.inl

/-- A symbol stays unknown without a snapshot of its key. -/
theorem step_unanswered {symbol : String} (h : state.known exchange symbol = false)
    (hr : ∀ target, call.reply target = .snapshot →
      marketSnapshotSymbolKey target.exchangeKey target.symbol ≠
        marketSnapshotSymbolKey exchange.key symbol) :
    (markets.step state call).known exchange symbol = false := by
  by_contra hk
  rw [Bool.not_eq_false] at hk
  unfold step getAllMarketSnapshots at hk
  split at hk
  · cases h.symm.trans hk
  · simp only [ScanState.known, Bool.or_eq_true, Bool.or_eq_false_iff, List.contains_iff_mem,
      List.mem_append] at h hk
    rcases hk with hk | hk | hk
    · rw [← List.contains_iff_mem, h.1] at hk
      cases hk
    · rw [← List.contains_iff_mem, h.2] at hk
      cases hk
    · obtain ⟨target, ht, he⟩ := List.mem_map.mp hk
      rcases RequestLog.drain_answered _ _ target ht with ha | ha
      · rw [RequestLog.start_answered] at ha
        cases ha
      · exact hr target ha he

/-- A symbol becomes known by its snapshot. -/
theorem step_answered {symbol : String}
    (ht : exchange.target symbol ∈ markets.targets state call)
    (hr : call.reply (exchange.target symbol) = .snapshot) :
    (markets.step state call).known exchange symbol = true := by
  unfold step getAllMarketSnapshots
  split
  · next he =>
    rw [List.isEmpty_iff.mp he] at ht
    cases ht
  · simp only [ScanState.known, Bool.or_eq_true, List.contains_iff_mem, List.mem_append]
    refine Or.inr (Or.inr (List.mem_map.mpr ⟨exchange.target symbol, ?_, rfl⟩))
    exact (markets.requests_spec state call).2 _ ht hr

end ScanUniverse

end Gail.Trading
