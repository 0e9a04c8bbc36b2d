import Gail.Library.Text

/-! Finding, cutting and trimming text by a pattern. -/
namespace Gail.Library

/-- `str::split_once`: the text before the first occurrence of the part, and the text after it. -/
def splitOnce (part : List Char) : List Char → Option (List Char × List Char)
  | [] => if part.isEmpty then some ([], []) else none
  | c :: rest =>
    if part.isPrefixOf (c :: rest) then some ([], (c :: rest).drop part.length)
    else (splitOnce part rest).map fun (before, after) => (c :: before, after)

/-- What stands between the first occurrence of one part and the next occurrence of another. -/
def between (opening closing text : List Char) : Option (List Char × List Char) :=
  (splitOnce opening text).bind fun (_, rest) => splitOnce closing rest

/-- The occurrences are replaced from the left, one for each unit of fuel. -/
def replaceWithin (part replacement : List Char) : Nat → List Char → List Char
  | 0, text => text
  | fuel + 1, text =>
    match splitOnce part text with
    | none => text
    | some (before, after) => before ++ replacement ++ replaceWithin part replacement fuel after

/-- `str::replace` of a part that is not empty, so that there are no more occurrences than characters. -/
def replaceText (part replacement text : List Char) : List Char :=
  replaceWithin part replacement text.length text

/-- The text is split from the left, once for each unit of fuel. -/
def splitWithin (part : List Char) : Nat → List Char → List (List Char)
  | 0, text => [text]
  | fuel + 1, text =>
    match splitOnce part text with
    | none => [text]
    | some (before, after) => before :: splitWithin part fuel after

/-- `str::split` of a part that is not empty. -/
def splitText (part text : List Char) : List (List Char) := splitWithin part text.length text

/-- `str::strip_prefix`. -/
def stripPrefix (part text : List Char) : Option (List Char) :=
  if part.isPrefixOf text then some (text.drop part.length) else none

/-- `str::trim_start`. -/
def trimStart (text : List Char) : List Char := text.dropWhile isWhitespace

/-- `str::trim_matches` of a predicate. -/
def trimMatches (p : Char → Bool) (text : List Char) : List Char :=
  (text.dropWhile p).rdropWhile p

/-- `str::trim`, on characters. -/
def trimChars (text : List Char) : List Char := trimMatches isWhitespace text

/-- The text is put together again from where it was cut. -/
theorem splitOnce_eq {part text before after : List Char} (h : splitOnce part text = some (before, after)) :
    text = before ++ part ++ after := by
  induction text generalizing before with
  | nil =>
    rw [splitOnce] at h
    split at h
    · next he =>
      cases h
      rw [List.isEmpty_iff.mp he]
      rfl
    · cases h
  | cons c rest ih =>
    rw [splitOnce] at h
    split at h
    · next hp =>
      cases h
      obtain ⟨tail, ht⟩ := List.isPrefixOf_iff_prefix.mp hp
      rw [← ht, List.drop_left, List.nil_append]
    · cases hs : splitOnce part rest with
      | none =>
        rw [hs] at h
        cases h
      | some cut =>
        rw [hs] at h
        cases h
        exact congrArg (c :: ·) (ih hs)

/-- What comes after an occurrence is shorter than the text. -/
theorem splitOnce_length {part text before after : List Char}
    (h : splitOnce part text = some (before, after)) : after.length + part.length ≤ text.length := by
  rw [splitOnce_eq h]
  simp only [List.length_append]
  omega

/-- A part whose first character does not come again in it is found behind a text that does not contain it. -/
theorem splitOnce_append {c : Char} {tail before : List Char} (after : List Char) (hc : c ∉ tail)
    (hbefore : ¬ c :: tail <:+: before) :
    splitOnce (c :: tail) (before ++ c :: tail ++ after) = some (before, after) := by
  induction before with
  | nil =>
    rw [List.nil_append, List.cons_append, splitOnce, if_pos (by simp), ← List.cons_append, List.drop_left]
  | cons d before ih =>
    have hnot : ¬ c :: tail <+: d :: (before ++ c :: tail ++ after) := by
      intro hprefix
      obtain ⟨rfl, htail⟩ := List.cons_prefix_cons.mp hprefix
      rw [List.append_assoc] at htail
      rcases List.prefix_or_prefix_of_prefix htail (List.prefix_append _ _) with hshort | ⟨rest, hrest⟩
      · exact hbefore (List.cons_prefix_cons.mpr ⟨rfl, hshort⟩).isInfix
      · rw [← hrest, List.prefix_append_right_inj] at htail
        match rest with
        | [] => exact hbefore (by rw [← hrest, List.append_nil])
        | e :: rest =>
          obtain ⟨rfl, -⟩ := List.cons_prefix_cons.mp htail
          exact hc (by rw [← hrest]; simp)
    rw [List.cons_append, List.cons_append, splitOnce, if_neg (mt List.isPrefixOf_iff_prefix.mp hnot),
      ih fun hin => hbefore (hin.trans (List.suffix_cons d before).isInfix)]
    rfl

end Gail.Library
