import Gail.Datalake.MarketSample
import Gail.Trading.AdvisoryChunks
import Gail.Trading.QuantState
import Gail.Trading.SnapshotMarkets

/-! The prompt of an advisory: the sections on markets, portfolio and research, the last of which is cut at a byte. -/
namespace Gail.Trading.Advisor
open Gail.Library Gail.Datalake
open Gail.Trading.Snapshot (OctobotPortfolio CurrencyBalance)

/-- A market with the members that the prompt shows. -/
structure PromptMarket (F : Type) extends MarketSnapshot F where
  priceChangePct24h : Option F
  volume24h : Option F

structure RagMatch (F : Type) where
  score : F
  source : Option String
  citation : Option String

/-- The context is the list of its characters. -/
structure ResearchContext (F : Type) where
  context : List Char
  matched : List (RagMatch F)
  source : String

section Building
variable {F : Type} [Scalar F]

def ResearchContext.isEmpty (research : ResearchContext F) : Bool := (trim (String.ofList research.context)).isEmpty

/-- `&text[..end]`, which panics unless a character ends there. -/
def sliceTo (stop : Nat) (text : List Char) : Option (List Char) := (splitAtByte stop text).map Prod.fst

def trendArrow : Option F → String
  | none => "→"
  | some change =>
    if 3.0 < change then "↑↑"
    else if 0.5 < change then "↑"
    else if change < -3.0 then "↓↓"
    else if change < -0.5 then "↓"
    else "→"

/-- The number with as many decimals, as `format!` writes it. -/
abbrev FixedFormat (F : Type) := Nat → F → String

def historicalText (fixed : FixedFormat F) (features : MarketHistoricalFeatures F) : String :=
  ", hist[m_short=" ++ fixed 2 (features.momentumShortPct.getD 0.0) ++
    "% m_mid=" ++ fixed 2 (features.momentumMidPct.getD 0.0) ++
    "% m_long=" ++ fixed 2 (features.momentumLongPct.getD 0.0) ++
    "% vol=" ++ fixed 2 (features.volatilityPct.getD 0.0) ++
    "% dd=" ++ fixed 2 (features.drawdownPct.getD 0.0) ++
    "% v_reg=" ++ fixed 2 (features.volumeRatioShortLong.getD 1.0) ++ "x]"

def marketLine (fixed : FixedFormat F) (historicalFeatures : String → Option (MarketHistoricalFeatures F))
    (market : PromptMarket F) (index : Nat) : String :=
  let historical := ((historicalFeatures (marketFeatureKey market.exchange market.symbol)).map
    (historicalText fixed)).getD ""
  "  rank=" ++ (index + 1).repr ++ ": " ++ market.exchange ++ "/" ++ market.symbol ++
    ": price=" ++ fixed 4 market.price ++ ", 24h_chg=" ++ fixed 2 (market.priceChangePct24h.getD 0.0) ++ "% " ++
    trendArrow market.priceChangePct24h ++ ", vol24h=" ++ fixed 2 (market.volume24h.getD 0.0) ++ historical

def marketSection (fixed : FixedFormat F) (historicalFeatures : String → Option (MarketHistoricalFeatures F))
    (snapshots : List (PromptMarket F)) : String :=
  if snapshots.isEmpty then "No market data available."
  else "\n".intercalate ((snapshots.take 10).zipIdx.map fun (market, index) =>
    marketLine fixed historicalFeatures market index)

/-- The currencies come in the order in which their map is iterated. -/
def portfolioSection (fixed : FixedFormat F) (portfolio : OctobotPortfolio F) : String :=
  let held := portfolio.currencies.filter fun (_, balance) => 0.0 < balance.total
  let total := (portfolio.totalValueUsd.map fun value => "$" ++ fixed 2 value).getD "unknown"
  let top := (held.take 8).map fun (sym, balance) =>
    "  " ++ sym ++ ": " ++ fixed 6 balance.total ++ " ($" ++ fixed 2 (balance.valueUsd.getD 0.0) ++ ")"
  let unvalued := ((held.filter fun (_, balance) => balance.valueUsd.isNone).map Prod.fst).take 12
  let unvaluedLine :=
    if unvalued.isEmpty then "Unvalued holdings: none" else "Unvalued holdings: " ++ ", ".intercalate unvalued
  "Total portfolio value: " ++ total ++ "\n" ++ unvaluedLine ++ "\n" ++ "\n".intercalate top

def citationsBlock (fixed : FixedFormat F) (matched : List (RagMatch F)) : String :=
  let citations := (matched.take 6).map fun m =>
    "  - " ++ fixed 2 m.score ++ " " ++ (m.source.or m.citation).getD "unknown_source"
  if citations.isEmpty then "Top citations: none" else "Top citations:\n" ++ "\n".intercalate citations

def researchContextBytes : Nat := 1800

def researchSection (fixed : FixedFormat F) (research : ResearchContext F) : Option (List Char) :=
  if research.isEmpty then some "No research context available.".toList
  else do
    let shown ← sliceTo (min (byteLength research.context) researchContextBytes) research.context
    some (("Research source: " ++ research.source ++ "\n" ++ citationsBlock fixed research.matched ++
      "\nResearch context:\n").toList ++ shown)

/-- Nothing is what a panic leaves. -/
def buildAdvisoryPrompt (fixed : FixedFormat F) (snapshots : List (PromptMarket F))
    (historicalFeatures : String → Option (MarketHistoricalFeatures F)) (research : ResearchContext F)
    (portfolio : OctobotPortfolio F) : Option (List Char) := do
  let research ← researchSection fixed research
  some (("MARKET DATA:\n" ++ marketSection fixed historicalFeatures snapshots ++ "\n\nPORTFOLIO:\n" ++
    portfolioSection fixed portfolio ++ "\n\nRESEARCH:\n").toList ++ research ++
    "\n\nProvide your trading recommendation as JSON.".toList)

/-- The chunks that `consult_all` sends, under its system prompt. -/
def advisoryChunks (fixed : FixedFormat F) (snapshots : List (PromptMarket F))
    (historicalFeatures : String → Option (MarketHistoricalFeatures F)) (research : ResearchContext F)
    (portfolio : OctobotPortfolio F) (system : List Char) : Option (List AdvisoryPromptChunk) :=
  (buildAdvisoryPrompt fixed snapshots historicalFeatures research portfolio).map fun prompt =>
    splitAdvisoryPrompt prompt system

end Building

section Panics
variable {F : Type} {text : List Char}

theorem sliceTo_isSome_iff {stop : Nat} :
    (sliceTo stop text).isSome ↔ ∃ before after, text = before ++ after ∧ byteLength before = stop := by
  rw [sliceTo, Option.isSome_map, Option.isSome_iff_exists]
  simp only [Prod.exists, splitAtByte_eq_some_iff]

theorem researchSection_isSome_iff (fixed : FixedFormat F) (research : ResearchContext F) :
    (researchSection fixed research).isSome ↔ research.isEmpty ∨ byteLength research.context ≤ researchContextBytes ∨
      ∃ before after, research.context = before ++ after ∧ byteLength before = researchContextBytes := by
  unfold researchSection
  split_ifs with hempty
  · simp [hempty]
  · simp only [hempty, Bool.false_eq_true, false_or, Option.bind_eq_bind, Option.isSome_bind]
    rcases le_or_gt (byteLength research.context) researchContextBytes with hshort | hlong
    · have hwhole : (sliceTo (byteLength research.context) research.context).isSome :=
        sliceTo_isSome_iff.mpr ⟨research.context, [], (List.append_nil _).symm, rfl⟩
      obtain ⟨shown, hshown⟩ := Option.isSome_iff_exists.mp hwhole
      simp [hshort, hshown]
    · rw [min_eq_right hlong.le, ← sliceTo_isSome_iff]
      cases sliceTo researchContextBytes research.context <;> simp [hlong.not_ge]

variable [Scalar F]

/-- Only the text of the research is cut. -/
theorem advisoryChunks_isSome (fixed : FixedFormat F) (snapshots : List (PromptMarket F))
    (historicalFeatures : String → Option (MarketHistoricalFeatures F)) (research : ResearchContext F)
    (portfolio : OctobotPortfolio F) (system : List Char) :
    (advisoryChunks fixed snapshots historicalFeatures research portfolio system).isSome =
      (researchSection fixed research).isSome := by
  rw [advisoryChunks, Option.isSome_map, buildAdvisoryPrompt]
  cases researchSection fixed research <;> rfl

/-- The prompt is built and split exactly if the text of the research is blank, or short enough, or a character ends
where it is cut. -/
theorem advisoryChunks_isSome_iff (fixed : FixedFormat F) (snapshots : List (PromptMarket F))
    (historicalFeatures : String → Option (MarketHistoricalFeatures F)) (research : ResearchContext F)
    (portfolio : OctobotPortfolio F) (system : List Char) :
    (advisoryChunks fixed snapshots historicalFeatures research portfolio system).isSome ↔
      research.isEmpty ∨ byteLength research.context ≤ researchContextBytes ∨
        ∃ before after, research.context = before ++ after ∧ byteLength before = researchContextBytes := by
  rw [advisoryChunks_isSome, researchSection_isSome_iff]

/-- The prompt is cut at its byte 1800, which is the second one of the last character. -/
theorem cut_within_letter :
    ¬ (advisoryChunks (fun _ _ => "0") ([] : List (PromptMarket ℚ)) (fun _ => none)
      { context := List.replicate 1799 'x' ++ ['é'], matched := [], source := "refiner/trading" }
      { currencies := [], totalValueUsd := none, exchangeCurrencies := [] } []).isSome := by
  have hone : 'x'.utf8Size = 1 := by decide
  have hbytes : byteLength (List.replicate 1799 'x') = 1799 := by
    rw [byteLength_replicate, hone]
  rw [advisoryChunks_isSome, researchSection_isSome_iff]
  rintro (hblank | hshort | ⟨before, after, hcut, hlength⟩)
  · rw [ResearchContext.isEmpty, trim_isEmpty_iff, String.toList_ofList] at hblank
    exact absurd (hblank 'é' (List.mem_append_right _ (List.mem_singleton_self _))) (by decide)
  · rw [byteLength_append, hbytes] at hshort
    exact absurd hshort (by decide)
  · have hsplit := splitAtByte_eq_some_iff.mpr ⟨hcut, hlength⟩
    have happend := splitAtByte_append (List.replicate 1799 'x') ['é'] 1
    rw [hbytes] at happend
    have hinside : splitAtByte 1 ['é'] = none := by decide
    rw [show researchContextBytes = 1799 + 1 from rfl, happend, hinside] at hsplit
    cases hsplit

end Panics

end Gail.Trading.Advisor
