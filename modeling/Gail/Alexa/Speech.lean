import Gail.Library.TextBytes
import Mathlib.Data.Bool.AllAny

/-! The speech of a response: a text escaped for SSML and cut at a word. -/
namespace Gail.Alexa.Speech
open Gail.Library

section Escaping

/-- `char::is_control`. -/
def isControl (c : Char) : Bool := c.toNat < 0x20 || (0x7F ≤ c.toNat && c.toNat < 0xA0)

def pushEscaped (c : Char) : List Char :=
  match c with
  | '&' => ['&', 'a', 'm', 'p', ';']
  | '<' => ['&', 'l', 't', ';']
  | '>' => ['&', 'g', 't', ';']
  | '"' => ['&', 'q', 'u', 'o', 't', ';']
  | '\'' => ['&', 'a', 'p', 'o', 's', ';']
  | '\n' | '\r' | '\t' => [' ']
  | c => if isControl c then [] else [c]

def escapeSsml (text : List Char) : List Char := text.flatMap pushEscaped

def maxSsmlChars : Nat := 8000
def openTag : List Char := ['<', 's', 'p', 'e', 'a', 'k', '>']
def closeTag : List Char := ['<', '/', 's', 'p', 'e', 'a', 'k', '>']
def ellipsis : List Char := ['.', '.', '.']

def budget : Nat := maxSsmlChars - byteLength openTag - byteLength closeTag
def limit : Nat := budget - byteLength ellipsis

/-- What the loop of `to_ssml` has spoken, the last space as a number of bytes. -/
structure Cut where
  body : List Char
  count : Nat
  lastSpace : Nat

def fill (cut : Cut) : List Char → Cut
  | [] => cut
  | c :: text =>
    let piece := pushEscaped c
    if limit < cut.count + piece.length then cut
    else
      fill { body := cut.body ++ piece
             count := cut.count + piece.length
             lastSpace := if piece = [' '] then byteLength cut.body else cut.lastSpace } text

/-- The body before its last space; there is none where `truncate` panics. -/
def Cut.truncate (cut : Cut) : Option (List Char) :=
  if 0 < cut.lastSpace then (splitAtByte cut.lastSpace cut.body).map Prod.fst else some cut.body

def toSsml (text : List Char) : Option (List Char) :=
  let escaped := escapeSsml text
  if escaped.length ≤ budget then some (openTag ++ escaped ++ closeTag)
  else do
    let body ← (fill { body := [], count := 0, lastSpace := 0 } text).truncate
    some (openTag ++ (body.rdropWhile isWhitespace ++ ellipsis) ++ closeTag)

end Escaping

section Documents

def markup : List Char := ['&', '<', '>', '"', '\'']

def entities : List (List Char) := markup.map pushEscaped

/-- The characters that XML 1.0 allows, of those that are no surrogates. -/
def IsXmlChar (c : Char) : Prop :=
  c = '\t' ∨ c = '\n' ∨ c = '\r' ∨ (0x20 ≤ c.toNat ∧ c.toNat ≤ 0xFFFD) ∨ 0x10000 ≤ c.toNat

instance (c : Char) : Decidable (IsXmlChar c) := inferInstanceAs (Decidable (_ ∨ _))

/-- A text of entities and of characters that are no markup. -/
def IsEscaped (body : List Char) : Prop :=
  ∃ pieces : List (List Char), body = pieces.flatten ∧
    ∀ piece ∈ pieces, piece ∈ entities ∨ ∃ c, piece = [c] ∧ c ∉ markup

/-- The document speaks the text or the beginning of it. -/
structure IsDocument (text ssml : List Char) : Prop where
  short : ssml.length ≤ maxSsmlChars
  allowed : ∀ c ∈ ssml, IsXmlChar c
  speaks : ∃ body, ssml = openTag ++ body ++ closeTag ∧ IsEscaped body ∧
    (body = escapeSsml text ∨ ∃ spoken rest, text = spoken ++ rest ∧ body = escapeSsml spoken ++ ellipsis)

/-- The noncharacters at the end of the first plane, which are no control characters and which XML does not allow. -/
def IsNoncharacter (c : Char) : Prop := c.toNat = 0xFFFE ∨ c.toNat = 0xFFFF

/-- A character that is spoken as a space. -/
def IsBreak (c : Char) : Prop := pushEscaped c = [' ']

/-- The character between these texts is spoken: all of them fit in, or it fits in, and so does a break behind it if
there is a break before it with something to speak in front. -/
def Reaches (before : List Char) (c : Char) (after : List Char) : Prop :=
  (escapeSsml (before ++ c :: after)).length ≤ budget ∨
    (escapeSsml (before ++ [c])).length ≤ limit ∧
      ((∃ head blank rest, before = head ++ blank :: rest ∧ IsBreak blank ∧ escapeSsml head ≠ []) →
        ∃ word blank rest, after = word ++ blank :: rest ∧ IsBreak blank ∧
          (escapeSsml (before ++ c :: (word ++ [blank]))).length ≤ limit)

end Documents

section Pieces
variable {c : Char} {text rest : List Char}

theorem escapeSsml_append (text rest : List Char) : escapeSsml (text ++ rest) = escapeSsml text ++ escapeSsml rest :=
  List.flatMap_append

theorem escapeSsml_singleton (c : Char) : escapeSsml [c] = pushEscaped c := List.append_nil _

theorem pushEscaped_cases (c : Char) :
    (c ∈ markup ∧ pushEscaped c ∈ entities) ∨ (c ∈ ['\n', '\r', '\t'] ∧ pushEscaped c = [' ']) ∨
      (isControl c = true ∧ pushEscaped c = []) ∨ (isControl c = false ∧ c ∉ markup ∧ pushEscaped c = [c]) := by
  by_cases hmarkup : c ∈ markup
  · exact .inl ⟨hmarkup, List.mem_map_of_mem hmarkup⟩
  by_cases hline : c ∈ ['\n', '\r', '\t']
  · have hlines : ∀ c ∈ ['\n', '\r', '\t'], pushEscaped c = [' '] := List.all_iff_forall_prop.mp (by decide)
    exact .inr (.inl ⟨hline, hlines c hline⟩)
  have hplain : pushEscaped c = if isControl c then [] else [c] := by
    unfold pushEscaped
    split
    all_goals first
      | rfl
      | exact absurd (by decide) hmarkup
      | exact absurd (by decide) hline
  rw [hplain]
  split_ifs with hcontrol
  · exact .inr (.inr (.inl ⟨hcontrol, rfl⟩))
  · exact .inr (.inr (.inr ⟨Bool.eq_false_iff.mpr hcontrol, hmarkup, rfl⟩))

/-- Every character is spoken as one of XML, but for the noncharacters. -/
theorem allowed_of_mem_pushEscaped (h : ¬ IsNoncharacter c) {d : Char} (hd : d ∈ pushEscaped c) : IsXmlChar d := by
  have hfixed : ∀ piece ∈ [' '] :: entities, (piece.all fun d => IsXmlChar d) = true := by decide
  rcases pushEscaped_cases c with ⟨-, hentity⟩ | ⟨-, hblank⟩ | ⟨-, hnone⟩ | ⟨hcontrol, -, hplain⟩
  · exact List.all_iff_forall_prop.mp (hfixed _ (List.mem_cons_of_mem _ hentity)) d hd
  · rw [hblank] at hd
    exact List.all_iff_forall_prop.mp (hfixed _ List.mem_cons_self) d hd
  · rw [hnone] at hd
    cases hd
  · rw [hplain] at hd
    obtain rfl := List.mem_singleton.mp hd
    obtain ⟨hlow, hhigh⟩ := Bool.or_eq_false_iff.mp hcontrol
    have hlarge := of_decide_eq_false hlow
    obtain ⟨hfffe, hffff⟩ := not_or.mp h
    unfold IsXmlChar
    omega

theorem not_allowed_of_noncharacter (h : IsNoncharacter c) : ¬ IsXmlChar c := by
  have hlarge : 0xFFFE ≤ c.toNat ∧ c.toNat < 0x10000 := by rcases h with h | h <;> omega
  have hfixed : ∀ d ∈ ['\t', '\n', '\r'], d.toNat < 0xFFFE := List.all_iff_forall_prop.mp (by decide)
  rintro (rfl | rfl | rfl | hrange | hrange)
  · exact absurd (hfixed _ (by decide)) (not_lt.mpr hlarge.1)
  · exact absurd (hfixed _ (by decide)) (not_lt.mpr hlarge.1)
  · exact absurd (hfixed _ (by decide)) (not_lt.mpr hlarge.1)
  · omega
  · omega

theorem pushEscaped_noncharacter (h : IsNoncharacter c) : pushEscaped c = [c] := by
  have hlarge : 0xFFFE ≤ c.toNat := by rcases h with h | h <;> omega
  have hmarkups : ∀ d ∈ markup, d.toNat < 0xFFFE := List.all_iff_forall_prop.mp (by decide)
  have hlines : ∀ d ∈ ['\n', '\r', '\t'], d.toNat < 0xFFFE := List.all_iff_forall_prop.mp (by decide)
  rcases pushEscaped_cases c with ⟨hmarkup, -⟩ | ⟨hline, -⟩ | ⟨hcontrol, -⟩ | ⟨-, -, hplain⟩
  · exact absurd (hmarkups c hmarkup) (not_lt.mpr hlarge)
  · exact absurd (hlines c hline) (not_lt.mpr hlarge)
  · rw [isControl, Bool.or_eq_true, Bool.and_eq_true, decide_eq_true_eq, decide_eq_true_eq, decide_eq_true_eq]
      at hcontrol
    omega
  · exact hplain

theorem not_whitespace_of_noncharacter (h : IsNoncharacter c) : isWhitespace c = false := by
  unfold isWhitespace
  rcases h with h | h <;> rw [h] <;> decide

theorem isEscaped_append (htext : IsEscaped text) (hrest : IsEscaped rest) : IsEscaped (text ++ rest) := by
  obtain ⟨pieces, rfl, hpieces⟩ := htext
  obtain ⟨more, rfl, hmore⟩ := hrest
  refine ⟨pieces ++ more, List.flatten_append.symm, fun piece hpiece => ?_⟩
  exact (List.mem_append.mp hpiece).elim (hpieces piece) (hmore piece)

theorem isEscaped_plain (h : ∀ c ∈ text, c ∉ markup) : IsEscaped text := by
  refine ⟨text.map fun c => [c], by rw [← List.flatMap_def, List.flatMap_singleton'], fun piece hpiece => ?_⟩
  obtain ⟨c, hc, rfl⟩ := List.mem_map.mp hpiece
  exact .inr ⟨c, rfl, h c hc⟩

theorem isEscaped_escapeSsml (text : List Char) : IsEscaped (escapeSsml text) := by
  induction text with
  | nil => exact ⟨[], rfl, fun piece hpiece => absurd hpiece List.not_mem_nil⟩
  | cons c text ih =>
    refine isEscaped_append ?_ ih
    rcases pushEscaped_cases c with ⟨-, hentity⟩ | ⟨-, hblank⟩ | ⟨-, hnone⟩ | ⟨-, hmarkup, hplain⟩
    · refine ⟨[pushEscaped c], (List.append_nil _).symm, fun piece hpiece => .inl ?_⟩
      rwa [List.mem_singleton.mp hpiece]
    · rw [hblank]
      exact isEscaped_plain (List.all_iff_forall_prop.mp (by decide))
    · rw [hnone]
      exact isEscaped_plain fun c hc => absurd hc List.not_mem_nil
    · rw [hplain]
      exact isEscaped_plain fun d hd => by rwa [List.mem_singleton.mp hd]

/-- A piece is white space throughout, or its last character is none. -/
theorem pushEscaped_whitespace (c : Char) :
    (∀ d ∈ pushEscaped c, isWhitespace d = true) ∨
      ∃ front last, pushEscaped c = front ++ [last] ∧ isWhitespace last = false := by
  rcases pushEscaped_cases c with ⟨-, hentity⟩ | ⟨-, hblank⟩ | ⟨-, hnone⟩ | ⟨-, -, hplain⟩
  · have hends : ∀ piece ∈ entities, piece = piece.dropLast ++ [';'] := by decide
    exact .inr ⟨_, ';', hends _ hentity, by decide⟩
  · rw [hblank]
    exact .inl (List.all_iff_forall_prop.mp (by decide))
  · rw [hnone]
    exact .inl fun d hd => absurd hd List.not_mem_nil
  · rw [hplain]
    cases hwhite : isWhitespace c with
    | true => exact .inl fun d hd => by rwa [List.mem_singleton.mp hd]
    | false => exact .inr ⟨[], c, rfl, hwhite⟩

theorem rdropWhile_append_of_pos {text rest : List Char} {p : Char → Bool} (h : ∀ c ∈ rest, p c = true) :
    (text ++ rest).rdropWhile p = text.rdropWhile p := by
  rw [List.rdropWhile, List.reverse_append, List.dropWhile_append_of_pos fun c hc => h c (List.mem_reverse.mp hc),
    List.rdropWhile]

/-- Trimmed, a text is that of some beginning, behind which no noncharacter is lost. -/
theorem rdropWhile_escapeSsml (text : List Char) :
    ∃ spoken rest, text = spoken ++ rest ∧ (escapeSsml text).rdropWhile isWhitespace = escapeSsml spoken ∧
      ∀ c ∈ rest, ¬ IsNoncharacter c := by
  induction text using List.reverseRecOn with
  | nil => exact ⟨[], [], rfl, rfl, fun c hc => absurd hc List.not_mem_nil⟩
  | append_singleton text c ih =>
    rw [escapeSsml_append, escapeSsml_singleton]
    rcases pushEscaped_whitespace c with hwhite | ⟨front, last, hpiece, hlast⟩
    · obtain ⟨spoken, rest, htext, hdrop, hrest⟩ := ih
      refine ⟨spoken, rest ++ [c], by rw [htext, List.append_assoc], ?_, ?_⟩
      · rw [rdropWhile_append_of_pos hwhite, hdrop]
      · intro d hd hnon
        rcases List.mem_append.mp hd with hd | hd
        · exact hrest d hd hnon
        · rw [List.mem_singleton.mp hd] at hnon
          have hc := hwhite c (by rw [pushEscaped_noncharacter hnon]; exact List.mem_cons_self)
          rw [not_whitespace_of_noncharacter hnon] at hc
          cases hc
    · refine ⟨text ++ [c], [], (List.append_nil _).symm, ?_, fun c hc => absurd hc List.not_mem_nil⟩
      rw [hpiece, ← List.append_assoc, List.rdropWhile_concat_neg _ _ _ (by rw [hlast]; exact Bool.false_ne_true),
        List.append_assoc, ← hpiece, escapeSsml_append, escapeSsml_singleton]

end Pieces

section Cutting
variable {text done head : List Char} {cut : Cut}

/-- The head is all that is before the last break, or nothing where there is no break. -/
inductive LastBreak : List Char → List Char → Prop
  | none {done : List Char} (h : ∀ c ∈ done, ¬ IsBreak c) : LastBreak done []
  | last {head rest : List Char} {blank : Char} (hblank : IsBreak blank) (hrest : ∀ c ∈ rest, ¬ IsBreak c) :
      LastBreak (head ++ blank :: rest) head

theorem LastBreak.concat (h : LastBreak done head) (c : Char) :
    LastBreak (done ++ [c]) (if pushEscaped c = [' '] then done else head) := by
  split_ifs with hblank
  · exact .last hblank fun c hc => absurd hc List.not_mem_nil
  · cases h with
    | none h =>
      refine .none fun d hd => ?_
      rcases List.mem_append.mp hd with hd | hd
      · exact h d hd
      · rwa [List.mem_singleton.mp hd]
    | @last head rest blank hbreak hrest =>
      rw [List.append_assoc, List.cons_append]
      refine .last hbreak fun d hd => ?_
      rcases List.mem_append.mp hd with hd | hd
      · exact hrest d hd
      · rwa [List.mem_singleton.mp hd]

theorem LastBreak.isPrefix (h : LastBreak done head) : head <+: done := by
  cases h with
  | none => exact List.nil_prefix
  | last => exact List.prefix_append _ _

theorem LastBreak.exists_blank (h : LastBreak done head) (hne : head ≠ []) :
    ∃ blank rest, IsBreak blank ∧ done = head ++ blank :: rest := by
  cases h with
  | none => exact absurd rfl hne
  | @last head rest blank hblank _ => exact ⟨blank, rest, hblank, rfl⟩

/-- What is before a break is before the last one. -/
theorem LastBreak.prefix_of {before rest : List Char} {blank : Char} (h : LastBreak done head)
    (hdone : done = before ++ blank :: rest) (hblank : IsBreak blank) : before <+: head := by
  cases h with
  | none h => exact absurd hblank (h blank (by rw [hdone]; exact List.mem_append_right _ List.mem_cons_self))
  | @last head more last hlast hmore =>
    rcases List.append_eq_append_iff.mp hdone with ⟨middle, rfl, hmiddle⟩ | ⟨middle, rfl, -⟩
    · cases middle with
      | nil => rw [List.append_nil]
      | cons c middle =>
        obtain ⟨-, rfl⟩ := List.cons.inj hmiddle
        exact absurd hblank (hmore blank (List.mem_append_right _ List.mem_cons_self))
    · exact List.prefix_append _ _

/-- What the loop has taken of a text. -/
structure Filled (done : List Char) (cut : Cut) : Prop where
  body : cut.body = escapeSsml done
  count : cut.count = (escapeSsml done).length
  fits : cut.count ≤ limit
  space : ∃ head, LastBreak done head ∧ cut.lastSpace = byteLength (escapeSsml head)

theorem fill_filled (h : Filled done cut) (text : List Char) :
    ∃ more rest, text = more ++ rest ∧ Filled (done ++ more) (fill cut text) ∧
      ∀ c after, rest = c :: after → limit < (escapeSsml (done ++ more ++ [c])).length := by
  induction text generalizing done cut with
  | nil => exact ⟨[], [], rfl, by rwa [List.append_nil], fun c after hc => absurd hc (List.cons_ne_nil _ _).symm⟩
  | cons c text ih =>
    rw [fill]
    by_cases hlong : limit < cut.count + (pushEscaped c).length
    · rw [if_pos hlong]
      refine ⟨[], c :: text, rfl, by rwa [List.append_nil], ?_⟩
      rintro _ _ ⟨⟩
      rwa [List.append_nil, escapeSsml_append, escapeSsml_singleton, List.length_append, ← h.count]
    · rw [if_neg hlong]
      obtain ⟨head, hhead, hspace⟩ := h.space
      have hstep : Filled (done ++ [c]) { body := cut.body ++ pushEscaped c
                                          count := cut.count + (pushEscaped c).length
                                          lastSpace := if pushEscaped c = [' '] then byteLength cut.body
                                            else cut.lastSpace } := by
        refine ⟨?_, ?_, not_lt.mp hlong, _, hhead.concat c, ?_⟩
        · rw [escapeSsml_append, escapeSsml_singleton, h.body]
        · rw [escapeSsml_append, escapeSsml_singleton, List.length_append, h.count]
        · split_ifs
          · rw [h.body]
          · exact hspace
      obtain ⟨more, rest, rfl, hfilled, hstop⟩ := ih hstep
      rw [List.append_assoc] at hfilled
      refine ⟨c :: more, rest, rfl, hfilled, fun d after hd => ?_⟩
      have hlimit := hstop d after hd
      rwa [List.append_assoc done [c] more] at hlimit

/-- What the cut keeps of what fits in. -/
def keptOf (done head : List Char) : List Char := if escapeSsml head = [] then done else head

/-- The beginning of a text that is spoken where not all of it fits in. -/
structure IsCut (text done rest head spoken lost : List Char) : Prop where
  text_eq : text = done ++ rest
  fits : (escapeSsml done).length ≤ limit
  full : ∀ c after, rest = c :: after → limit < (escapeSsml (done ++ [c])).length
  lastBreak : LastBreak done head
  kept : keptOf done head = spoken ++ lost
  trimmed : ∀ c ∈ lost, ¬ IsNoncharacter c

theorem toSsml_cut (h : ¬ (escapeSsml text).length ≤ budget) :
    ∃ done rest head spoken lost, IsCut text done rest head spoken lost ∧
      toSsml text = some (openTag ++ (escapeSsml spoken ++ ellipsis) ++ closeTag) := by
  have hstart : Filled [] { body := [], count := 0, lastSpace := 0 } :=
    ⟨rfl, rfl, Nat.zero_le _, [], .none fun c hc => absurd hc List.not_mem_nil, rfl⟩
  obtain ⟨done, rest, htext, hfilled, hfull⟩ := fill_filled hstart text
  rw [List.nil_append] at hfilled hfull
  obtain ⟨head, hhead, hspace⟩ := hfilled.space
  obtain ⟨spoken, lost, hkept, htrim, hlost⟩ := rdropWhile_escapeSsml (keptOf done head)
  refine ⟨done, rest, head, spoken, lost, ⟨htext, hfilled.count ▸ hfilled.fits, hfull, hhead, hkept, hlost⟩, ?_⟩
  have hbody : (fill { body := [], count := 0, lastSpace := 0 } text).truncate =
      some (escapeSsml (keptOf done head)) := by
    rw [Cut.truncate, hfilled.body, hspace, keptOf]
    by_cases hempty : escapeSsml head = []
    · rw [if_pos hempty, hempty]
      rfl
    · rw [if_neg hempty, if_pos (byteLength_pos hempty)]
      obtain ⟨tail, rfl⟩ := hhead.isPrefix
      rw [escapeSsml_append, splitAtByte_eq_some_iff.mpr ⟨rfl, rfl⟩, Option.map_some]
  rw [toSsml, if_neg h, hbody, Option.bind_eq_bind, Option.bind_some, htrim]

end Cutting

section Results
variable {text : List Char}

theorem allowed_escapeSsml (h : ∀ c ∈ text, ¬ IsNoncharacter c) : ∀ d ∈ escapeSsml text, IsXmlChar d := by
  intro d hd
  obtain ⟨c, hc, hd⟩ := List.mem_flatMap.mp hd
  exact allowed_of_mem_pushEscaped (h c hc) hd

/-- The tags are of characters of XML. -/
theorem allowed_between {body : List Char} (h : ∀ c ∈ body, IsXmlChar c) :
    ∀ c ∈ openTag ++ body ++ closeTag, IsXmlChar c := by
  have hopen : ∀ c ∈ openTag, IsXmlChar c := List.all_iff_forall_prop.mp (by decide)
  have hclose : ∀ c ∈ closeTag, IsXmlChar c := List.all_iff_forall_prop.mp (by decide)
  intro c hc
  rcases List.mem_append.mp hc with hc | hc
  · exact (List.mem_append.mp hc).elim (hopen c) (h c)
  · exact hclose c hc

theorem isDocument_of_fits (h : (escapeSsml text).length ≤ budget) (hallowed : ∀ c ∈ text, ¬ IsNoncharacter c) :
    IsDocument text (openTag ++ escapeSsml text ++ closeTag) where
  short := by
    have hbudget : openTag.length + budget + closeTag.length = maxSsmlChars := rfl
    rw [List.length_append, List.length_append]
    omega
  allowed := allowed_between (allowed_escapeSsml hallowed)
  speaks := ⟨_, rfl, isEscaped_escapeSsml text, .inl rfl⟩

theorem IsCut.kept_prefix {done rest head spoken lost : List Char} (h : IsCut text done rest head spoken lost) :
    spoken <+: done := by
  have hkept : spoken <+: keptOf done head := h.kept ▸ List.prefix_append _ _
  unfold keptOf at hkept
  split_ifs at hkept
  · exact hkept
  · exact hkept.trans h.lastBreak.isPrefix

theorem length_escapeSsml_le {text rest : List Char} (h : text <+: rest) :
    (escapeSsml text).length ≤ (escapeSsml rest).length := by
  obtain ⟨tail, rfl⟩ := h
  rw [escapeSsml_append, List.length_append]
  exact Nat.le_add_right _ _

theorem isDocument_of_cut {done rest head spoken lost : List Char} (h : IsCut text done rest head spoken lost)
    (hallowed : ∀ c ∈ spoken, ¬ IsNoncharacter c) :
    IsDocument text (openTag ++ (escapeSsml spoken ++ ellipsis) ++ closeTag) where
  short := by
    have hlimit : openTag.length + (limit + ellipsis.length) + closeTag.length = maxSsmlChars := rfl
    have hfits := (length_escapeSsml_le h.kept_prefix).trans h.fits
    rw [List.length_append, List.length_append, List.length_append]
    omega
  allowed := by
    have hdots : ∀ c ∈ ellipsis, IsXmlChar c := List.all_iff_forall_prop.mp (by decide)
    refine allowed_between fun c hc => ?_
    exact (List.mem_append.mp hc).elim (allowed_escapeSsml hallowed c) (hdots c)
  speaks := by
    have hdots : ∀ c ∈ ellipsis, c ∉ markup := List.all_iff_forall_prop.mp (by decide)
    obtain ⟨tail, hdone⟩ := h.kept_prefix
    refine ⟨_, rfl, isEscaped_append (isEscaped_escapeSsml spoken) (isEscaped_plain hdots), .inr ?_⟩
    exact ⟨spoken, tail ++ rest, by rw [h.text_eq, ← hdone, List.append_assoc], rfl⟩

theorem not_isBreak_of_noncharacter {c : Char} (h : IsNoncharacter c) : ¬ IsBreak c := by
  intro hbreak
  rw [IsBreak, pushEscaped_noncharacter h] at hbreak
  have hwhite := not_whitespace_of_noncharacter h
  rw [(List.cons.inj hbreak).1] at hwhite
  revert hwhite
  decide

/-- What fits in is among what the loop takes. -/
theorem IsCut.prefix_done {done rest head spoken lost before after : List Char}
    (h : IsCut text done rest head spoken lost) (htext : text = before ++ after)
    (hfits : (escapeSsml before).length ≤ limit) : before <+: done := by
  rw [h.text_eq] at htext
  rcases List.append_eq_append_iff.mp htext with ⟨middle, rfl, hrest⟩ | ⟨middle, rfl, -⟩
  · cases middle with
    | nil => rw [List.append_nil]
    | cons c middle =>
      have hlong := h.full c _ hrest
      have hshort : done ++ [c] <+: done ++ c :: middle := ⟨middle, by rw [List.append_assoc]; rfl⟩
      have hle := length_escapeSsml_le hshort
      omega
  · exact List.prefix_append _ _

/-- What the cut keeps is reached: it fits in, and where there is a break before it there is one behind it too. -/
theorem IsCut.reaches_of_mem {done rest head spoken lost : List Char} (h : IsCut text done rest head spoken lost)
    {c : Char} (hmem : c ∈ keptOf done head) :
    ∃ before after, text = before ++ c :: after ∧ Reaches before c after := by
  unfold keptOf at hmem
  split_ifs at hmem with hempty
  · obtain ⟨before, middle, hdone⟩ := List.append_of_mem hmem
    have hfits : before ++ [c] <+: done := ⟨middle, by rw [hdone, List.append_assoc]; rfl⟩
    refine ⟨before, middle ++ rest, by rw [h.text_eq, hdone, List.append_assoc]; rfl,
      .inr ⟨(length_escapeSsml_le hfits).trans h.fits, ?_⟩⟩
    rintro ⟨front, blank, behind, rfl, hblank, hspoken⟩
    have hbreak : done = front ++ blank :: (behind ++ c :: middle) := by rw [hdone, List.append_assoc]; rfl
    have hle := length_escapeSsml_le (h.lastBreak.prefix_of hbreak hblank)
    rw [hempty] at hle
    exact absurd (List.eq_nil_of_length_eq_zero (Nat.le_zero.mp hle)) hspoken
  · obtain ⟨blank, behind, hblank, hdone⟩ := h.lastBreak.exists_blank (List.ne_nil_of_mem hmem)
    obtain ⟨before, word, rfl⟩ := List.append_of_mem hmem
    have hfits : before ++ [c] <+: done := by
      rw [hdone]
      exact ⟨word ++ blank :: behind, by simp only [List.append_assoc, List.cons_append, List.nil_append]⟩
    have hword : before ++ c :: (word ++ [blank]) <+: done := by
      rw [hdone]
      exact ⟨behind, by simp only [List.append_assoc, List.cons_append, List.nil_append]⟩
    refine ⟨before, word ++ blank :: (behind ++ rest), ?_, .inr ⟨(length_escapeSsml_le hfits).trans h.fits,
      fun _ => ⟨word, blank, behind ++ rest, rfl, hblank, (length_escapeSsml_le hword).trans h.fits⟩⟩⟩
    rw [h.text_eq, hdone]
    simp only [List.append_assoc, List.cons_append]

theorem IsCut.mem_of_reaches {done rest head spoken lost before after : List Char}
    (h : IsCut text done rest head spoken lost) (hlong : ¬ (escapeSsml text).length ≤ budget) {c : Char}
    (hc : ¬ IsBreak c) (htext : text = before ++ c :: after) (hreaches : Reaches before c after) :
    c ∈ keptOf done head := by
  rcases hreaches with hall | ⟨hfits, hword⟩
  · exact absurd (htext ▸ hall) hlong
  have hdone : before ++ [c] <+: done := h.prefix_done (by rw [htext, List.append_assoc]; rfl) hfits
  unfold keptOf
  split_ifs with hempty
  · exact hdone.subset (List.mem_append_right _ List.mem_cons_self)
  by_cases hbefore : ∃ head blank rest, before = head ++ blank :: rest ∧ IsBreak blank ∧ escapeSsml head ≠ []
  · obtain ⟨word, blank, behind, rfl, hblank, hlimit⟩ := hword hbefore
    have hsplit : text = (before ++ c :: (word ++ [blank])) ++ behind := by
      rw [htext]
      simp only [List.append_assoc, List.cons_append, List.nil_append]
    obtain ⟨tail, htail⟩ := h.prefix_done hsplit hlimit
    have hbreak : done = (before ++ c :: word) ++ blank :: tail := by
      rw [← htail]
      simp only [List.append_assoc, List.cons_append, List.nil_append]
    exact (h.lastBreak.prefix_of hbreak hblank).subset (List.mem_append_right _ List.mem_cons_self)
  -- The last break is not before the character, so that the character is before it.
  · obtain ⟨blank, behind, hblank, hlast⟩ := h.lastBreak.exists_blank fun hnil => hempty (by rw [hnil]; rfl)
    obtain ⟨tail, htail⟩ := hdone
    rw [hlast] at htail
    rcases List.append_eq_append_iff.mp htail with ⟨middle, rfl, -⟩ | ⟨middle, hmiddle, hbehind⟩
    · exact List.mem_append_left _ (List.mem_append_right _ List.mem_cons_self)
    · rcases List.eq_nil_or_concat middle with rfl | ⟨front, last, rfl⟩
      · rw [List.append_nil] at hmiddle
        rw [← hmiddle]
        exact List.mem_append_right _ List.mem_cons_self
      · rw [List.concat_eq_append, ← List.append_assoc] at hmiddle
        obtain ⟨hfront, hchar⟩ := List.append_inj' hmiddle rfl
        cases front with
        | nil =>
          obtain ⟨hsame, -⟩ := List.cons.inj hbehind
          rw [hsame, ← (List.cons.inj hchar).1] at hblank
          exact absurd hblank hc
        | cons first front =>
          obtain ⟨hsame, -⟩ := List.cons.inj hbehind
          exact absurd ⟨head, first, front, hfront, hsame ▸ hblank, hempty⟩ hbefore

/-- The noncharacters that a cut text speaks are those that are reached. -/
theorem mem_spoken_iff {done rest head spoken lost : List Char} (h : IsCut text done rest head spoken lost)
    (hlong : ¬ (escapeSsml text).length ≤ budget) {c : Char} (hc : IsNoncharacter c) :
    c ∈ spoken ↔ ∃ before after, text = before ++ c :: after ∧ Reaches before c after := by
  have hkept : c ∈ spoken ↔ c ∈ keptOf done head := by
    rw [h.kept, List.mem_append]
    exact ⟨.inl, fun hmem => hmem.resolve_right fun hlost => h.trimmed c hlost hc⟩
  rw [hkept]
  refine ⟨h.reaches_of_mem, fun ⟨before, after, htext, hreaches⟩ => ?_⟩
  exact h.mem_of_reaches hlong (not_isBreak_of_noncharacter hc) htext hreaches

theorem mem_escapeSsml {c : Char} (h : c ∈ text) (hc : IsNoncharacter c) : c ∈ escapeSsml text :=
  List.mem_flatMap.mpr ⟨c, h, by rw [pushEscaped_noncharacter hc]; exact List.mem_cons_self⟩

/-- The document is one unless a noncharacter is spoken. -/
theorem toSsml_isDocument_iff (text : List Char) :
    (∃ ssml, toSsml text = some ssml ∧ IsDocument text ssml) ↔
      ∀ before c after, text = before ++ c :: after → IsNoncharacter c → ¬ Reaches before c after := by
  by_cases hfits : (escapeSsml text).length ≤ budget
  · rw [toSsml, if_pos hfits]
    constructor
    · rintro ⟨_, ⟨⟩, hdocument⟩ before c after htext hc -
      have hmem : c ∈ escapeSsml text := mem_escapeSsml (by rw [htext]; simp) hc
      exact not_allowed_of_noncharacter hc
        (hdocument.allowed c (List.mem_append_left _ (List.mem_append_right _ hmem)))
    · intro h
      refine ⟨_, rfl, isDocument_of_fits hfits fun c hmem hc => ?_⟩
      obtain ⟨before, after, htext⟩ := List.append_of_mem hmem
      exact h before c after htext hc (.inl (htext ▸ hfits))
  · obtain ⟨done, rest, head, spoken, lost, hcut, hssml⟩ := toSsml_cut hfits
    rw [hssml]
    constructor
    · rintro ⟨_, ⟨⟩, hdocument⟩ before c after htext hc hreaches
      have hmem := mem_escapeSsml ((mem_spoken_iff hcut hfits hc).mpr ⟨before, after, htext, hreaches⟩) hc
      exact not_allowed_of_noncharacter hc (hdocument.allowed c
        (List.mem_append_left _ (List.mem_append_right _ (List.mem_append_left _ hmem))))
    · intro h
      refine ⟨_, rfl, isDocument_of_cut hcut fun c hmem hc => ?_⟩
      obtain ⟨before, after, htext, hreaches⟩ := (mem_spoken_iff hcut hfits hc).mp hmem
      exact h before c after htext hc hreaches

/-- A noncharacter is spoken as it stands. -/
theorem noncharacter_spoken :
    toSsml ['\uFFFF'] = some (openTag ++ ['\uFFFF'] ++ closeTag) ∧
      ¬ ∃ ssml, toSsml ['\uFFFF'] = some ssml ∧ IsDocument ['\uFFFF'] ssml := by
  have hspoken : toSsml ['\uFFFF'] = some (openTag ++ ['\uFFFF'] ++ closeTag) := by decide +kernel
  refine ⟨hspoken, ?_⟩
  rw [hspoken]
  rintro ⟨_, ⟨⟩, hdocument⟩
  exact absurd (hdocument.allowed '\uFFFF' (by decide)) (by decide)

end Results

end Gail.Alexa.Speech
