import Gail.Library.Text

/-! How the datalake names a market: exchanges and symbols in one spelling, joined to a key. -/
namespace Gail.Datalake
open Gail.Library

/-- What `rfind(" (")` and `truncate` leave, from the end of the text backwards. -/
def beforeLastBracket : List Char → Option (List Char)
  | '(' :: ' ' :: rest => some rest
  | _ :: rest => beforeLastBracket rest
  | [] => none

/-- The loop that takes bracketed suffixes off. Each turn shortens the text, so its length is fuel. -/
def stripBrackets : Nat → String → String
  | 0, text => text
  | fuel + 1, text =>
    match text.toList.reverse with
    | ')' :: rest =>
      match beforeLastBracket (')' :: rest) with
      | none => text
      | some start => stripBrackets fuel (trim (String.ofList start.reverse))
    | _ => text

/-- Letters and digits in single-spaced words. -/
def compactWords (text : String) : List (List Char) :=
  splitWhitespace (text.toList.map fun ch => if ch.isAlphanum then ch else ' ')

/-- Spellings of an exchange that stand for another. -/
def exchangeAlias (compact : String) : String :=
  if compact = "ku coin" then "kucoin"
  else if compact = "bit get" then "bitget"
  else if compact = "x t" then "xt"
  else compact

def normalizeExchange (exchange : String) : String :=
  let normalized := toAsciiLowercase (trim exchange)
  let normalized :=
    if ':' ∈ normalized.toList then
      trim (String.ofList (normalized.toList.takeWhile (· != ':')))
    else normalized
  let normalized := stripBrackets normalized.toList.length normalized
  exchangeAlias (String.ofList (joinWords (compactWords normalized)))

def normalizeSymbol (symbol : String) : String := toAsciiUppercase (trim symbol)

def marketFeatureKey (exchange symbol : String) : String :=
  normalizeExchange exchange ++ "|" ++ normalizeSymbol symbol

example : marketFeatureKey "Bitget : NEUTRAL (Indexing 6 coins)" "doge/usdt" = "bitget|DOGE/USDT" := by
  decide +kernel

/-- A name of small letters, digits and single spaces that is no alias. -/
structure Compact (text : String) : Prop where
  words : ∃ words, Words words ∧ (∀ word ∈ words, ∀ c ∈ word, c.isAlphanum = true) ∧
    text.toList = joinWords words
  lower : ∀ c ∈ text.toList, c.toLower = c
  primary : exchangeAlias text = text

theorem mem_trim {text : String} {c : Char} (h : c ∈ (trim text).toList) : c ∈ text.toList := by
  rw [trim, String.toList_ofList] at h
  exact (List.dropWhile_sublist _).mem ((List.rdropWhile_prefix _ _).mem h)

theorem mem_beforeLastBracket {text start : List Char} (h : beforeLastBracket text = some start)
    {c : Char} (hc : c ∈ start) : c ∈ text := by
  induction text using beforeLastBracket.induct with
  | case1 rest =>
    obtain rfl := Option.some.inj h
    exact List.mem_cons_of_mem _ (List.mem_cons_of_mem _ hc)
  | case2 first rest hne ih =>
    rw [beforeLastBracket.eq_2 _ _ hne] at h
    exact List.mem_cons_of_mem _ (ih h)
  | case3 => cases h

theorem mem_stripBrackets {fuel : Nat} {text : String} {c : Char}
    (h : c ∈ (stripBrackets fuel text).toList) : c ∈ text.toList := by
  induction fuel generalizing text with
  | zero => exact h
  | succ fuel ih =>
    rw [stripBrackets] at h
    split at h
    · next rest hrest =>
      split at h
      · exact h
      · next start hs =>
        have hm := mem_trim (ih h)
        rw [String.toList_ofList, List.mem_reverse] at hm
        rw [← List.mem_reverse, hrest]
        exact mem_beforeLastBracket hs hm
    · exact h

theorem mem_compactWords {text : String} {word : List Char} (h : word ∈ compactWords text) {c : Char}
    (hc : c ∈ word) : c.isAlphanum = true ∧ c ∈ text.toList := by
  obtain ⟨hm, hw⟩ := (mem_splitWhitespace h).2 c hc
  obtain ⟨ch, hch, rfl⟩ := List.mem_map.mp hm
  split at hw
  · next halpha => exact ⟨by rwa [if_pos halpha], by rwa [if_pos halpha]⟩
  · exact absurd hw (by decide)

theorem words_compactWords (text : String) : Words (compactWords text) := fun _ h =>
  ⟨(mem_splitWhitespace h).1, fun c hc => ((mem_splitWhitespace h).2 c hc).2⟩

theorem exchangeAlias_alias (text : String) : exchangeAlias (exchangeAlias text) = exchangeAlias text := by
  simp only [exchangeAlias]
  split_ifs <;> simp_all

theorem compact_exchangeAlias {words : List (List Char)} (hw : Words words)
    (hn : ∀ word ∈ words, ∀ c ∈ word, c.isAlphanum = true ∧ c.toLower = c) :
    Compact (exchangeAlias (String.ofList (joinWords words))) := by
  have hsingle : ∀ name : List Char, name ≠ [] →
      (∀ c ∈ name, isWhitespace c = false ∧ c.isAlphanum = true ∧ c.toLower = c) →
      exchangeAlias (String.ofList name) = String.ofList name → Compact (String.ofList name) := by
    intro name hne hname ha
    refine ⟨⟨[name], ?_, ?_, ?_⟩, ?_, ha⟩
    · intro word hword
      rw [List.mem_singleton.mp hword]
      exact ⟨hne, fun c hc => (hname c hc).1⟩
    · intro word hword
      rw [List.mem_singleton.mp hword]
      exact fun c hc => (hname c hc).2.1
    · rw [String.toList_ofList, joinWords, List.intercalate_singleton]
    · intro c hc
      rw [String.toList_ofList] at hc
      exact (hname c hc).2.2
  have halias := exchangeAlias_alias (String.ofList (joinWords words))
  unfold exchangeAlias at halias ⊢
  split_ifs
  · exact hsingle ['k', 'u', 'c', 'o', 'i', 'n'] (by simp) (by simp [isWhitespace, Char.isAlphanum]) (by decide)
  · exact hsingle ['b', 'i', 't', 'g', 'e', 't'] (by simp) (by simp [isWhitespace, Char.isAlphanum]) (by decide)
  · exact hsingle ['x', 't'] (by simp) (by simp [isWhitespace, Char.isAlphanum]) (by decide)
  · next hku hbit hxt =>
    refine ⟨⟨words, hw, fun word hword c hc => (hn word hword c hc).1, String.toList_ofList⟩, ?_, ?_⟩
    · intro c hc
      rw [String.toList_ofList] at hc
      rcases mem_joinWords hc with rfl | ⟨word, hword, hcw⟩
      · decide
      · exact (hn word hword c hcw).2
    · rw [exchangeAlias, if_neg hku, if_neg hbit, if_neg hxt]

theorem normalizeExchange_compact (exchange : String) : Compact (normalizeExchange exchange) := by
  apply compact_exchangeAlias (words_compactWords _)
  intro word hword c hc
  obtain ⟨halpha, hmem⟩ := mem_compactWords hword hc
  refine ⟨halpha, ?_⟩
  have hlowered : ∀ c ∈ (toAsciiLowercase (trim exchange)).toList, c.toLower = c := by
    intro c hc
    rw [toAsciiLowercase, String.toList_ofList] at hc
    obtain ⟨d, -, rfl⟩ := List.mem_map.mp hc
    exact toLower_toLower d
  have hstripped := mem_stripBrackets hmem
  split at hstripped
  · have hhead := mem_trim hstripped
    rw [String.toList_ofList] at hhead
    exact hlowered c ((List.takeWhile_prefix _).mem hhead)
  · exact hlowered c hstripped

/-- A normalised name is normalised to itself. -/
theorem Compact.normalizeExchange {text : String} (h : Compact text) : normalizeExchange text = text := by
  obtain ⟨words, hw, hn, ht⟩ := h.words
  have hof : text = String.ofList (joinWords words) := by rw [← ht, String.ofList_toList]
  have htrim : trim text = text := by rw [hof, trim_joinWords hw]
  have hlower : toAsciiLowercase text = text := by
    rw [toAsciiLowercase, List.map_congr_left h.lower, List.map_id', String.ofList_toList]
  have hchar : ∀ c ∈ text.toList, c = ' ' ∨ c.isAlphanum = true := by
    intro c hc
    rw [ht] at hc
    rcases mem_joinWords hc with rfl | ⟨word, hword, hcw⟩
    · exact .inl rfl
    · exact .inr (hn word hword c hcw)
  have hcolon : ':' ∉ text.toList := fun hc => by
    rcases hchar _ hc with h | h <;> exact absurd h (by decide)
  have hstrip : stripBrackets text.toList.length text = text := by
    rcases text.toList.length with _ | fuel
    · rfl
    · rw [stripBrackets]
      split
      · next rest hrest =>
        have hbracket : ')' ∈ text.toList := by
          rw [← List.mem_reverse, hrest]
          exact List.mem_cons_self
        rcases hchar _ hbracket with h | h <;> exact absurd h (by decide)
      · rfl
  have hkeep : (text.toList.map fun ch => if ch.isAlphanum then ch else ' ') = text.toList := by
    refine (List.map_congr_left fun c hc => ?_).trans (List.map_id' text.toList)
    rcases hchar c hc with rfl | h
    · rfl
    · rw [if_pos h]
  have hcompact : compactWords text = words := by
    rw [compactWords, hkeep, ht, splitWhitespace_joinWords hw]
  simp only [Datalake.normalizeExchange, htrim, hlower, if_neg hcolon, hstrip, hcompact]
  rw [← hof, h.primary]

theorem normalizeExchange_idempotent (exchange : String) :
    normalizeExchange (normalizeExchange exchange) = normalizeExchange exchange :=
  (normalizeExchange_compact exchange).normalizeExchange

theorem normalizeSymbol_idempotent (symbol : String) :
    normalizeSymbol (normalizeSymbol symbol) = normalizeSymbol symbol := by
  rw [normalizeSymbol, normalizeSymbol, trim_toAsciiUppercase_trim]
  simp only [toAsciiUppercase, String.toList_ofList, List.map_map]
  refine congrArg String.ofList (List.map_congr_left ?_)
  intro c _
  exact toUpper_toUpper c

/-- The key of a normalised market tells its exchange and its symbol. -/
theorem marketFeatureKey_inj {exchange symbol other another : String}
    (h : marketFeatureKey (normalizeExchange exchange) (normalizeSymbol symbol) =
      marketFeatureKey (normalizeExchange other) (normalizeSymbol another)) :
    normalizeExchange exchange = normalizeExchange other ∧
      normalizeSymbol symbol = normalizeSymbol another := by
  have hbar (text : String) : '|' ∉ (normalizeExchange text).toList := by
    obtain ⟨words, -, hn, ht⟩ := (normalizeExchange_compact text).words
    rw [ht]
    intro hc
    rcases mem_joinWords hc with hc | ⟨word, hword, hcw⟩
    · exact absurd hc (by decide)
    · exact absurd (hn word hword _ hcw) (by decide)
  simp only [marketFeatureKey, normalizeExchange_idempotent, normalizeSymbol_idempotent] at h
  have hchars := congrArg String.toList h
  simp only [String.toList_append, List.append_assoc] at hchars
  obtain ⟨he, hs⟩ := append_cons_inj (hbar exchange) (hbar other) hchars
  exact ⟨String.toList_inj.mp he, String.toList_inj.mp hs⟩

end Gail.Datalake
