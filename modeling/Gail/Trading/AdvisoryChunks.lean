import Gail.Library.TextLines
import Mathlib.Data.List.Range

/-! The chunks of a prompt that is too long for the window of a model: what they carry, how large they are, and the
number of chunks that their headers give. -/
namespace Gail.Trading.Advisor
open Gail.Library

/-- The prompt is the list of its characters. -/
structure AdvisoryPromptChunk where
  id : Nat
  prompt : List Char

def tradingContextWindowTokens : Nat := 16384

def tradingPromptSafetyMarginTokens : Nat := 512

def tradingCharsPerToken : Nat := 3

def tradingChunkOverheadChars : Nat := 1024

def tradingAdvisoryComplexityThresholdTokens : Nat := 2048

def adaptiveAdvisoryOutputTokens (prompt system : List Char) : Nat :=
  if tradingAdvisoryComplexityThresholdTokens ≤ (prompt.length + system.length + 2) / 3 then 4096 else 2048

def maxPromptChars (prompt system : List Char) : Nat :=
  let inputTokens := max (tradingContextWindowTokens - adaptiveAdvisoryOutputTokens prompt system -
    tradingPromptSafetyMarginTokens) 2048
  max (inputTokens * tradingCharsPerToken - system.length - tradingChunkOverheadChars) 1024

/-- The variables of the loop over the lines. -/
structure Splitter where
  chunks : List AdvisoryPromptChunk
  current : List Char
  id : Nat

namespace Splitter

def start : Splitter := { chunks := [], current := [], id := 0 }

def push (splitter : Splitter) (prompt : List Char) : Splitter :=
  { chunks := splitter.chunks ++ [{ id := splitter.id, prompt }], current := [], id := splitter.id + 1 }

def flush (splitter : Splitter) : Splitter :=
  if splitter.current.isEmpty then splitter else splitter.push splitter.current

def addPiece (splitter : Splitter) (piece : List Char) : Splitter := splitter.flush.push piece

/-- One round of the loop. -/
def addLine (maxPromptChars : Nat) (splitter : Splitter) (line : List Char) : Splitter :=
  let lineChars := line.length + 1
  let splitter := if maxPromptChars < splitter.current.length + lineChars then splitter.flush else splitter
  if maxPromptChars < lineChars then (pieces (max (maxPromptChars - 1) 1) line).foldl addPiece splitter
  else { splitter with current := splitter.current ++ (line ++ ['\n']) }

/-- The chunks after the loop: what is left becomes the last one, unless it is blank. -/
def finish (splitter : Splitter) : List AdvisoryPromptChunk :=
  if (trim (String.ofList splitter.current)).isEmpty then splitter.chunks
  else splitter.chunks ++ [{ id := splitter.id, prompt := splitter.current }]

end Splitter

def evidenceChunk (number total : Nat) (prompt : List Char) : List Char :=
  "ADVISORY EVIDENCE CHUNK ".toList ++ number.repr.toList ++ '/' :: total.repr.toList ++ ':' :: '\n' :: prompt ++
    ("\nInterpret only the evidence present in this chunk; return the required JSON advisory.").toList

def splitLines (prompt system : List Char) : Splitter :=
  (lines prompt).foldl (Splitter.addLine (maxPromptChars prompt system)) .start

def splitAdvisoryPrompt (prompt system : List Char) : List AdvisoryPromptChunk :=
  if prompt.length ≤ maxPromptChars prompt system then [{ id := 0, prompt }]
  else
    let splitter := splitLines prompt system
    splitter.finish.map fun chunk =>
      { chunk with prompt := evidenceChunk (chunk.id + 1) (max splitter.id 1) chunk.prompt }

def splitPayloads (prompt system : List Char) : List (List Char) :=
  (splitLines prompt system).finish.map AdvisoryPromptChunk.prompt

/-- The chunks of these payloads in order: a prompt that fits as it is, or with headers that say which chunk of how
many each one is. -/
def headedChunks (prompt system : List Char) (payloads : List (List Char)) : List AdvisoryPromptChunk :=
  if prompt.length ≤ maxPromptChars prompt system then
    payloads.zipIdx.map fun (payload, id) => { id, prompt := payload }
  else
    payloads.zipIdx.map fun (payload, id) =>
      { id, prompt := evidenceChunk (id + 1) payloads.length payload }

/-- The payloads carry everything that can be seen of the prompt, in order, within the budget. -/
structure CarryEvidence (prompt system : List Char) (payloads : List (List Char)) : Prop where
  complete : visible payloads.flatten = visible prompt
  within : ∀ payload ∈ payloads, payload.length ≤ maxPromptChars prompt system

def lineChars (lines : List (List Char)) : Nat := (lines.map fun line => line.length + 1).sum

/-- The lines that share the last chunk: those after the last line that was too long, or did not fit any more. -/
def lastLines (maxPromptChars : Nat) (lines : List (List Char)) : List (List Char) :=
  lines.foldl (fun last line =>
    if maxPromptChars < line.length + 1 then []
    else if maxPromptChars < lineChars last + (line.length + 1) then [line]
    else last ++ [line]) []

section Carrying
variable {limit : Nat} {text line piece : List Char} {splitter : Splitter}

/-- What the splitter has taken of the text is in its chunks and its buffer. -/
structure Splitter.Carries (limit : Nat) (text : List Char) (splitter : Splitter) : Prop where
  ids : splitter.chunks.map AdvisoryPromptChunk.id = List.range splitter.id
  complete : visible ((splitter.chunks.map AdvisoryPromptChunk.prompt).flatten ++ splitter.current) = visible text
  within : ∀ chunk ∈ splitter.chunks, chunk.prompt.length ≤ limit
  currentWithin : splitter.current.length ≤ limit

open Splitter

theorem Splitter.Carries.start (limit : Nat) : Splitter.start.Carries limit [] :=
  ⟨rfl, rfl, fun chunk h => (by cases h), Nat.zero_le _⟩

theorem Splitter.Carries.push (h : splitter.Carries limit text) (hcurrent : splitter.current = [])
    (hpiece : piece.length ≤ limit) : (splitter.push piece).Carries limit (text ++ piece) := by
  refine ⟨?_, ?_, ?_, Nat.zero_le _⟩
  · rw [Splitter.push, List.map_append, h.ids, List.range_succ]
    rfl
  · have hcomplete := h.complete
    rw [hcurrent, List.append_nil] at hcomplete
    rw [Splitter.push, List.map_append, List.flatten_append, List.append_nil, visible_append, hcomplete,
      ← visible_append]
    exact congrArg (fun tail => visible (text ++ tail)) (List.append_nil piece)
  · intro chunk hchunk
    rcases List.mem_append.mp hchunk with hchunk | hchunk
    · exact h.within chunk hchunk
    · rw [List.mem_singleton.mp hchunk]
      exact hpiece

theorem Splitter.flush_current (splitter : Splitter) : splitter.flush.current = [] := by
  unfold Splitter.flush
  split_ifs with hempty
  · exact List.isEmpty_iff.mp hempty
  · rfl

theorem Splitter.Carries.flush (h : splitter.Carries limit text) : splitter.flush.Carries limit text := by
  unfold Splitter.flush
  split_ifs
  · exact h
  · have hempty : Splitter.Carries limit ((splitter.chunks.map AdvisoryPromptChunk.prompt).flatten)
        { splitter with current := [] } :=
      ⟨h.ids, by rw [List.append_nil], h.within, Nat.zero_le _⟩
    obtain ⟨hids, hcomplete, hwithin, hcurrent⟩ := hempty.push rfl h.currentWithin
    exact ⟨hids, hcomplete.trans h.complete, hwithin, hcurrent⟩

theorem Splitter.Carries.addPieces (h : splitter.Carries limit text) {cut : List (List Char)}
    (hcut : ∀ piece ∈ cut, piece.length ≤ limit) :
    (cut.foldl Splitter.addPiece splitter).Carries limit (text ++ cut.flatten) := by
  induction cut generalizing splitter text with
  | nil => rwa [List.flatten_nil, List.append_nil]
  | cons piece cut ih =>
    obtain ⟨hpiece, hcut⟩ := List.forall_mem_cons.mp hcut
    rw [List.foldl_cons, List.flatten_cons, ← List.append_assoc]
    exact ih (h.flush.push splitter.flush_current hpiece) hcut

/-- One more line. -/
theorem Splitter.Carries.addLine (h : splitter.Carries limit text) (hlimit : 0 < limit) (line : List Char) :
    (splitter.addLine limit line).Carries limit (text ++ line) := by
  unfold Splitter.addLine
  dsimp only
  have hbreak : visible ['\n'] = [] := by decide
  have happend {s : Splitter} (hs : s.Carries limit text) (hfits : s.current.length + (line.length + 1) ≤ limit) :
      Splitter.Carries limit (text ++ line) { s with current := s.current ++ (line ++ ['\n']) } := by
    refine ⟨hs.ids, ?_, hs.within, ?_⟩
    · dsimp only
      rw [← List.append_assoc, visible_append, hs.complete, visible_append line, hbreak, List.append_nil,
        visible_append]
    · simp only [List.length_append, List.length_singleton]
      omega
  have hpieces {s : Splitter} (hs : s.Carries limit text) :
      ((pieces (max (limit - 1) 1) line).foldl Splitter.addPiece s).Carries limit (text ++ line) := by
    have hall := hs.addPieces fun piece (hpiece : piece ∈ pieces (max (limit - 1) 1) line) =>
      (length_le_of_mem_pieces (Nat.lt_of_lt_of_le Nat.one_pos (le_max_right _ _)) hpiece).trans (by omega)
    rwa [flatten_pieces] at hall
  by_cases hlong : limit < line.length + 1
  · rw [if_pos hlong]
    split_ifs
    · exact hpieces h.flush
    · exact hpieces h
  · rw [if_neg hlong]
    split_ifs with hfull
    · refine happend h.flush ?_
      rw [splitter.flush_current, List.length_nil]
      omega
    · exact happend h (by omega)

theorem Splitter.Carries.addLines (h : splitter.Carries limit text) (hlimit : 0 < limit)
    (lines : List (List Char)) :
    (lines.foldl (Splitter.addLine limit) splitter).Carries limit (text ++ lines.flatten) := by
  induction lines generalizing splitter text with
  | nil => rwa [List.flatten_nil, List.append_nil]
  | cons line lines ih =>
    rw [List.foldl_cons, List.flatten_cons, ← List.append_assoc]
    exact ih (h.addLine hlimit line)

end Carrying

section Pending
variable {limit : Nat} {line : List Char} {lines : List (List Char)} {splitter : Splitter}

/-- The buffer holds the last lines, and no chunk has been made yet exactly while all lines fit one. -/
structure Splitter.Pending (limit : Nat) (lines : List (List Char)) (splitter : Splitter) : Prop where
  current : splitter.current = (lastLines limit lines).flatMap (· ++ ['\n'])
  first : splitter.id = 0 ∧ splitter.current.length = lineChars lines ∨
    0 < splitter.id ∧ limit < lineChars lines

theorem lineChars_concat (lines : List (List Char)) (line : List Char) :
    lineChars (lines ++ [line]) = lineChars lines + (line.length + 1) := by
  rw [lineChars, List.map_append, List.sum_append]
  rfl

theorem length_flatMap_line (lines : List (List Char)) :
    (lines.flatMap (· ++ ['\n'])).length = lineChars lines := by
  rw [List.length_flatMap, lineChars]
  exact congrArg List.sum (List.map_congr_left fun line _ => List.length_append)

theorem lastLines_concat (limit : Nat) (lines : List (List Char)) (line : List Char) :
    lastLines limit (lines ++ [line]) =
      if limit < line.length + 1 then []
      else if limit < lineChars (lastLines limit lines) + (line.length + 1) then [line]
      else lastLines limit lines ++ [line] := by
  rw [lastLines, List.foldl_append]
  rfl

theorem Splitter.addPieces_pushed (splitter : Splitter) {cut : List (List Char)} (h : cut ≠ []) :
    0 < (cut.foldl Splitter.addPiece splitter).id ∧ (cut.foldl Splitter.addPiece splitter).current = [] := by
  induction cut using List.reverseRecOn with
  | nil => exact absurd rfl h
  | append_singleton cut piece ih =>
    rw [List.foldl_append]
    exact ⟨Nat.succ_pos _, rfl⟩

theorem Splitter.Pending.addLine (h : splitter.Pending limit lines) (hlimit : 0 < limit) (line : List Char) :
    (splitter.addLine limit line).Pending limit (lines ++ [line]) := by
  have hlength : splitter.current.length = lineChars (lastLines limit lines) := by
    rw [h.current, length_flatMap_line]
  have hfirst := h.first
  have hchars := lineChars_concat lines line
  unfold Splitter.addLine
  dsimp only
  by_cases hlong : limit < line.length + 1
  · -- The line is cut: it is too long for a chunk.
    have hne : line ≠ [] := by
      rintro rfl
      rw [List.length_nil] at hlong
      omega
    have hpushed (s : Splitter) := s.addPieces_pushed (pieces_ne_nil (max (limit - 1) 1) hne)
    rw [if_pos hlong]
    refine ⟨?_, .inr ⟨(hpushed _).1, by omega⟩⟩
    rw [lastLines_concat, if_pos hlong, (hpushed _).2]
    rfl
  · rw [if_neg hlong]
    by_cases hfull : limit < splitter.current.length + (line.length + 1)
    · -- The line begins a new chunk.
      have hne : splitter.current.isEmpty = false := by
        rw [List.isEmpty_eq_false_iff]
        intro hempty
        rw [hempty, List.length_nil] at hfull
        omega
      rw [if_pos hfull, Splitter.flush, hne, if_neg Bool.false_ne_true]
      refine ⟨?_, .inr ⟨Nat.succ_pos _, by omega⟩⟩
      rw [lastLines_concat, if_neg hlong, if_pos (hlength ▸ hfull), List.flatMap_singleton]
      rfl
    · rw [if_neg hfull]
      refine ⟨?_, ?_⟩
      · rw [lastLines_concat, if_neg hlong, if_neg (hlength ▸ hfull), List.flatMap_append, ← h.current,
          List.flatMap_singleton]
      · dsimp only
        rw [List.length_append, List.length_append, List.length_singleton, hchars]
        omega

theorem splitLines_pending (limit : Nat) (hlimit : 0 < limit) (lines : List (List Char)) :
    (lines.foldl (Splitter.addLine limit) .start).Pending limit lines := by
  induction lines using List.reverseRecOn with
  | nil => exact ⟨rfl, .inl ⟨rfl, rfl⟩⟩
  | append_singleton lines line ih =>
    rw [List.foldl_append]
    exact ih.addLine hlimit line

end Pending

section Headers
variable {number total other : Nat} {prompt another system : List Char}

theorem colon_not_mem_repr (n : Nat) : ':' ∉ n.repr.toList := by
  rw [Nat.toList_repr]
  intro h
  have hdigit := Nat.isDigit_of_mem_toDigits (by decide) (by decide) h
  revert hdigit
  decide

theorem repr_injective {m n : Nat} (h : m.repr.toList = n.repr.toList) : m = n := by
  have hm := Nat.ofDigitChars_ten_toDigits (n := m)
  rw [Nat.toList_repr, Nat.toList_repr] at h
  rw [h, Nat.ofDigitChars_ten_toDigits] at hm
  exact hm.symm

/-- A header says one total only, whatever it is followed by. -/
theorem evidenceChunk_total (h : evidenceChunk number total prompt = evidenceChunk number other another) :
    total = other := by
  unfold evidenceChunk at h
  simp only [List.append_assoc, List.cons_append] at h
  obtain ⟨-, htail⟩ := List.cons.inj (List.append_cancel_left (List.append_cancel_left h))
  exact repr_injective (append_cons_inj (colon_not_mem_repr total) (colon_not_mem_repr other) htail).1

/-- Chunks whose numbers count up are their prompts with their places. -/
theorem chunks_eq_zipIdx {chunks : List AdvisoryPromptChunk} {count : Nat}
    (h : chunks.map AdvisoryPromptChunk.id = List.range count) :
    chunks = (chunks.map AdvisoryPromptChunk.prompt).zipIdx.map fun (prompt, id) => { id, prompt } := by
  apply List.ext_getElem?
  intro i
  have hid := congrArg (fun ids => ids[i]?) h
  simp only [List.getElem?_map, List.getElem?_zipIdx] at hid ⊢
  cases hchunk : chunks[i]? with
  | none => rfl
  | some chunk =>
    rw [hchunk, Option.map_some] at hid
    have hi : chunk.id = i := by
      obtain ⟨hlt, hget⟩ := List.getElem?_eq_some_iff.mp hid.symm
      rw [← hget, List.getElem_range]
    simp only [Option.map_some, Nat.zero_add, Option.some.injEq]
    rw [← hi]

end Headers

section Splitting
variable {prompt system : List Char}

/-- What is left of the prompt after the loop is visible, or nothing is, in the last lines. -/
theorem trim_flatMap_isEmpty_iff (lines : List (List Char)) :
    (trim (String.ofList (lines.flatMap (· ++ ['\n'])))).isEmpty = true ↔
      ∀ line ∈ lines, ∀ c ∈ line, isWhitespace c = true := by
  have hbreak : isWhitespace '\n' = true := by decide
  rw [trim_isEmpty_iff, String.toList_ofList]
  simp only [List.mem_flatMap, List.mem_append, List.mem_singleton]
  constructor
  · exact fun h line hline c hc => h c ⟨line, hline, .inl hc⟩
  · rintro h c ⟨line, hline, hc | rfl⟩
    · exact h line hline c hc
    · exact hbreak

theorem Splitter.Carries.finish {limit : Nat} {text : List Char} {splitter : Splitter}
    (h : splitter.Carries limit text) :
    splitter.finish.map AdvisoryPromptChunk.id = List.range
        (splitter.id + if (trim (String.ofList splitter.current)).isEmpty then 0 else 1) ∧
      visible (splitter.finish.map AdvisoryPromptChunk.prompt).flatten = visible text ∧
        ∀ chunk ∈ splitter.finish, chunk.prompt.length ≤ limit := by
  have hcomplete := h.complete
  rw [visible_append] at hcomplete
  unfold Splitter.finish
  split_ifs with hblank
  · rw [trim_isEmpty_iff, String.toList_ofList] at hblank
    rw [visible_of_blank hblank, List.append_nil] at hcomplete
    exact ⟨h.ids, hcomplete, h.within⟩
  · refine ⟨?_, ?_, ?_⟩
    · rw [List.map_append, h.ids, List.range_succ]
      rfl
    · rw [List.map_append, List.flatten_append, visible_append, ← hcomplete]
      exact congrArg (fun tail => _ ++ visible tail) (List.append_nil splitter.current)
    · intro chunk hchunk
      rcases List.mem_append.mp hchunk with hchunk | hchunk
      · exact h.within chunk hchunk
      · rw [List.mem_singleton.mp hchunk]
        exact h.currentWithin

/-- Headers that say one total are true for payloads of that number only. -/
theorem headers_eq_iff {payloads : List (List Char)} {total : Nat} :
    (∃ others : List (List Char), (payloads.zipIdx.map fun (payload, id) =>
        AdvisoryPromptChunk.mk id (evidenceChunk (id + 1) total payload)) =
      (others.zipIdx.map fun (payload, id) =>
        AdvisoryPromptChunk.mk id (evidenceChunk (id + 1) others.length payload))) ↔
      payloads = [] ∨ payloads.length = total := by
  constructor
  · rintro ⟨others, he⟩
    have hlength := congrArg List.length he
    simp only [List.length_map, List.length_zipIdx] at hlength
    cases payloads with
    | nil => exact .inl rfl
    | cons payload payloads =>
      cases others with
      | nil => cases hlength
      | cons other others =>
        rw [List.zipIdx_cons, List.zipIdx_cons, List.map_cons, List.map_cons] at he
        obtain ⟨hhead, -⟩ := List.cons.inj he
        have htotal := evidenceChunk_total (AdvisoryPromptChunk.mk.inj hhead).2
        exact .inr (hlength.trans htotal.symm)
  · rintro (rfl | rfl)
    · refine ⟨[], ?_⟩
      rw [List.zipIdx_nil, List.map_nil, List.map_nil]
    · exact ⟨payloads, rfl⟩

theorem maxPromptChars_pos (prompt system : List Char) : 0 < maxPromptChars prompt system :=
  Nat.lt_of_lt_of_le (by decide) (le_max_right _ 1024)

theorem splitLines_carries (prompt system : List Char) :
    (splitLines prompt system).Carries (maxPromptChars prompt system) (lines prompt).flatten := by
  have h := (Splitter.Carries.start (maxPromptChars prompt system)).addLines (maxPromptChars_pos prompt system)
    (lines prompt)
  rwa [List.nil_append] at h

theorem splitPayloads_carry (prompt system : List Char) :
    CarryEvidence prompt system (splitPayloads prompt system) := by
  obtain ⟨-, hvisible, hwithin⟩ := (splitLines_carries prompt system).finish
  refine ⟨hvisible.trans (visible_lines prompt), ?_⟩
  intro payload hpayload
  obtain ⟨chunk, hchunk, rfl⟩ := List.mem_map.mp hpayload
  exact hwithin chunk hchunk

theorem splitAdvisoryPrompt_long (h : maxPromptChars prompt system < prompt.length) :
    splitAdvisoryPrompt prompt system = (splitPayloads prompt system).zipIdx.map fun (payload, id) =>
      AdvisoryPromptChunk.mk id (evidenceChunk (id + 1) (max (splitLines prompt system).id 1) payload) := by
  obtain ⟨hids, -, -⟩ := (splitLines_carries prompt system).finish
  unfold splitAdvisoryPrompt
  rw [if_neg (Nat.not_le.mpr h)]
  dsimp only
  conv_lhs => rw [chunks_eq_zipIdx hids]
  rw [List.map_map]
  rfl

/-- The chunks are as many as the headers say, or none, if nothing but them has been counted. -/
theorem splitPayloads_number (prompt system : List Char) :
    (splitPayloads prompt system = [] ∨ (splitPayloads prompt system).length = max (splitLines prompt system).id 1) ↔
      (lineChars (lines prompt) ≤ maxPromptChars prompt system ∨
        ∀ line ∈ lastLines (maxPromptChars prompt system) (lines prompt), ∀ c ∈ line, isWhitespace c = true) := by
  have hcarries := splitLines_carries prompt system
  have hpending : (splitLines prompt system).Pending (maxPromptChars prompt system) (lines prompt) :=
    splitLines_pending _ (maxPromptChars_pos prompt system) _
  have hcount := congrArg List.length hcarries.finish.1
  have hfirst := hpending.first
  have hcurrent := hcarries.currentWithin
  rw [List.length_map, List.length_range] at hcount
  rw [← trim_flatMap_isEmpty_iff, ← hpending.current, ← List.length_eq_zero_iff, splitPayloads, List.length_map, hcount]
  split_ifs with hempty
  · simp only [hempty, or_true, iff_true]
    omega
  · simp only [hempty, Bool.false_eq_true, or_false, false_or]
    omega

theorem headers_true_iff (h : maxPromptChars prompt system < prompt.length) :
    (∃ payloads, splitAdvisoryPrompt prompt system = headedChunks prompt system payloads) ↔
      (lineChars (lines prompt) ≤ maxPromptChars prompt system ∨
        ∀ line ∈ lastLines (maxPromptChars prompt system) (lines prompt), ∀ c ∈ line, isWhitespace c = true) := by
  rw [splitAdvisoryPrompt_long h, ← splitPayloads_number, ← headers_eq_iff]
  simp only [headedChunks, if_neg (Nat.not_le.mpr h)]

/-- The chunks carry the prompt with true headers exactly if it fits, or all of its lines fit one chunk, or no line
that is not blank is left for the last chunk. -/
theorem splitAdvisoryPrompt_iff (prompt system : List Char) :
    (∃ payloads, splitAdvisoryPrompt prompt system = headedChunks prompt system payloads ∧
        CarryEvidence prompt system payloads) ↔
      prompt.length ≤ maxPromptChars prompt system ∨
        lineChars (lines prompt) ≤ maxPromptChars prompt system ∨
        ∀ line ∈ lastLines (maxPromptChars prompt system) (lines prompt), ∀ c ∈ line, isWhitespace c = true := by
  by_cases hfits : prompt.length ≤ maxPromptChars prompt system
  · simp only [hfits, true_or, iff_true]
    refine ⟨[prompt], ?_, by rw [List.flatten_singleton], ?_⟩
    · rw [splitAdvisoryPrompt, headedChunks, if_pos hfits, if_pos hfits]
      rfl
    · intro payload hpayload
      rwa [List.mem_singleton.mp hpayload]
  have hlong := Nat.not_le.mp hfits
  simp only [hfits, false_or]
  constructor
  · rintro ⟨payloads, he, -⟩
    exact (headers_true_iff hlong).mp ⟨payloads, he⟩
  · intro hlast
    have hcarry := splitPayloads_carry prompt system
    rcases (splitPayloads_number prompt system).mpr hlast with hnil | htotal
    · refine ⟨[], ?_, hnil ▸ hcarry⟩
      rw [splitAdvisoryPrompt_long hlong, hnil, headedChunks, if_neg hfits, List.zipIdx_nil, List.map_nil, List.map_nil]
    · refine ⟨_, ?_, hcarry⟩
      rw [splitAdvisoryPrompt_long hlong, headedChunks, if_neg hfits, htotal]

/-- The length is a variable, so that no text of it is written out. -/
theorem two_long_lines {count : Nat} (hcount : 20000 = count) : ¬∃ payloads, splitAdvisoryPrompt
      (List.replicate count 'x' ++ '\n' :: List.replicate count 'x') [] =
      headedChunks (List.replicate count 'x' ++ '\n' :: List.replicate count 'x') [] payloads := by
  have hbreak : '\n' ∉ List.replicate count 'x' := fun h => absurd (List.eq_of_mem_replicate h) (by decide)
  have hlast : (List.replicate count 'x').getLast? ≠ some '\r' := by
    rw [List.getLast?_replicate, if_neg (by omega)]
    decide
  have hempty : List.replicate count 'x' ≠ [] := fun h => by
    have hlength := congrArg List.length h
    rw [List.length_replicate, List.length_nil] at hlength
    omega
  have hlines := lines_pair hbreak hbreak hlast hempty
  have hlimit : maxPromptChars (List.replicate count 'x' ++ '\n' :: List.replicate count 'x') [] = 34304 := by
    unfold maxPromptChars adaptiveAdvisoryOutputTokens
    rw [List.length_append, List.length_cons, List.length_replicate, List.length_nil, ← hcount]
    decide
  rw [headers_true_iff, hlimit, hlines]
  · rintro (hone | hblank)
    · simp only [lineChars, List.map_cons, List.map_nil, List.sum_cons, List.sum_nil, List.length_replicate] at hone
      omega
    · have hlines : lastLines 34304 [List.replicate count 'x', List.replicate count 'x'] =
          [List.replicate count 'x'] := by
        have hshort : ¬34304 < count + 1 := by omega
        have hsum : 34304 < count + 1 + (count + 1) := by omega
        simp only [lastLines, List.foldl_cons, List.foldl_nil, List.length_replicate, if_neg hshort, lineChars,
          List.map_nil, List.sum_nil, Nat.zero_add, List.nil_append, List.map_cons, List.sum_cons,
          Nat.add_zero, if_pos hsum]
      rw [hlines] at hblank
      exact absurd (hblank _ (List.mem_singleton_self _) 'x' (List.mem_replicate.mpr ⟨by omega, rfl⟩)) (by decide)
  · rw [hlimit, List.length_append, List.length_cons, List.length_replicate]
    omega

/-- Two lines that do not fit one chunk: both chunks say that there is one. -/
theorem last_chunk_not_counted :
    ¬∃ payloads, splitAdvisoryPrompt (List.replicate 20000 'x' ++ '\n' :: List.replicate 20000 'x') [] =
      headedChunks (List.replicate 20000 'x' ++ '\n' :: List.replicate 20000 'x') [] payloads :=
  two_long_lines rfl

end Splitting

end Gail.Trading.Advisor
