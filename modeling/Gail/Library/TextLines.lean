import Gail.Library.Text
import Mathlib.Algebra.Order.BigOperators.Group.List
import Mathlib.Algebra.Order.Ring.Nat

/-! Texts by their lines, texts cut at a byte, lists in pieces of one length, and the characters of a text that are
not white space. -/
namespace Gail.Library

/-- A line without the carriage return that it ends in. -/
def stripReturn (line : List Char) : List Char :=
  if line.getLast? = some '\r' then line.dropLast else line

/-- The lines of a text, the first of which has begun already. -/
def linesFrom (line : List Char) : List Char → List (List Char)
  | [] => if line.isEmpty then [] else [line]
  | c :: text => if c = '\n' then stripReturn line :: linesFrom [] text else linesFrom (line ++ [c]) text

/-- `str::lines`. -/
def lines (text : List Char) : List (List Char) := linesFrom [] text

/-- `slice::chunks`, for a size above zero. -/
def pieces {α : Type*} (size : Nat) (items : List α) : List (List α) :=
  match items with
  | [] => []
  | item :: items => (item :: items.take (size - 1)) :: pieces size (items.drop (size - 1))
termination_by items.length
decreasing_by
  rw [List.length_drop, List.length_cons]
  omega

def visible (text : List Char) : List Char := text.filter fun c => !isWhitespace c

/-- `str::len`. -/
def byteLength (text : List Char) : Nat := (text.map Char.utf8Size).sum

/-- `str::split_at`, which panics inside a character and behind the last one. -/
def splitAtByte : Nat → List Char → Option (List Char × List Char)
  | 0, text => some ([], text)
  | _ + 1, [] => none
  | middle + 1, c :: text =>
    if middle + 1 < c.utf8Size then none
    else (splitAtByte (middle + 1 - c.utf8Size) text).map fun (before, after) => (c :: before, after)

section Visible

theorem visible_append (text other : List Char) : visible (text ++ other) = visible text ++ visible other :=
  List.filter_append _ _

theorem visible_of_blank {text : List Char} (h : ∀ c ∈ text, isWhitespace c = true) : visible text = [] := by
  rw [visible, List.filter_eq_nil_iff]
  intro c hc
  rw [h c hc]
  exact Bool.false_ne_true

theorem visible_stripReturn (line : List Char) : visible (stripReturn line) = visible line := by
  unfold stripReturn
  split_ifs with hreturn
  · have hline : line.dropLast ++ ['\r'] = line := List.dropLast_append_getLast? _ hreturn
    have hblank : visible ['\r'] = [] := by decide
    calc visible line.dropLast = visible (line.dropLast ++ ['\r']) := by
          rw [visible_append, hblank, List.append_nil]
      _ = visible line := by rw [hline]
  · rfl

theorem visible_linesFrom (line text : List Char) :
    visible (linesFrom line text).flatten = visible line ++ visible text := by
  induction text generalizing line with
  | nil =>
    rw [linesFrom]
    split_ifs with hempty
    · rw [List.isEmpty_iff.mp hempty]
      rfl
    · rw [List.flatten_singleton]
      exact (List.append_nil _).symm
  | cons c text ih =>
    rw [linesFrom]
    split_ifs with hbreak
    · have hblank : visible ['\n'] = [] := by decide
      rw [List.flatten_cons, visible_append, visible_stripReturn, ih, hbreak,
        show '\n' :: text = ['\n'] ++ text from rfl, visible_append, hblank]
      rfl
    · rw [ih, visible_append, List.append_assoc, ← visible_append]
      rfl

/-- No character but white space is lost between the lines. -/
theorem visible_lines (text : List Char) : visible (lines text).flatten = visible text := visible_linesFrom [] text

end Visible

section Lines
variable {line text rest other : List Char}

theorem linesFrom_append (h : '\n' ∉ text) (line rest : List Char) :
    linesFrom line (text ++ rest) = linesFrom (line ++ text) rest := by
  induction text generalizing line with
  | nil => rw [List.nil_append, List.append_nil]
  | cons c text ih =>
    obtain ⟨hc, htext⟩ := not_or.mp (List.mem_cons.not.mp h)
    rw [List.cons_append, linesFrom, if_neg (Ne.symm hc), ih htext, List.append_assoc]
    rfl

/-- Two lines, neither of them ended by a carriage return. -/
theorem lines_pair (hline : '\n' ∉ line) (hother : '\n' ∉ other) (hreturn : line.getLast? ≠ some '\r')
    (hempty : other ≠ []) : lines (line ++ '\n' :: other) = [line, other] := by
  have hlast := linesFrom_append hother [] []
  rw [List.append_nil, List.nil_append] at hlast
  rw [lines, linesFrom_append hline, List.nil_append, linesFrom, if_pos rfl, hlast, linesFrom, stripReturn,
    if_neg hreturn, if_neg (by rwa [List.isEmpty_iff])]

end Lines

section Pieces
variable {α : Type*} {size : Nat} {items : List α}

theorem flatten_pieces (size : Nat) (items : List α) : (pieces size items).flatten = items := by
  induction items using pieces.induct size with
  | case1 => simp [pieces]
  | case2 item items ih => rw [pieces, List.flatten_cons, ih, List.cons_append, List.take_append_drop]

theorem length_le_of_mem_pieces (hsize : 0 < size) {piece : List α} (h : piece ∈ pieces size items) :
    piece.length ≤ size := by
  induction items using pieces.induct size with
  | case1 => simp [pieces] at h
  | case2 item items ih =>
    rw [pieces] at h
    rcases List.mem_cons.mp h with rfl | h
    · rw [List.length_cons, List.length_take]
      omega
    · exact ih h

theorem pieces_ne_nil (size : Nat) (h : items ≠ []) : pieces size items ≠ [] := by
  cases items with
  | nil => exact absurd rfl h
  | cons item items =>
    rw [pieces]
    exact List.cons_ne_nil _ _

end Pieces

section Bytes
variable {text : List Char} {c : Char}

theorem byteLength_append (text rest : List Char) : byteLength (text ++ rest) = byteLength text + byteLength rest := by
  rw [byteLength, List.map_append, List.sum_append]
  rfl

theorem byteLength_cons (c : Char) (text : List Char) : byteLength (c :: text) = c.utf8Size + byteLength text := by
  rw [byteLength, List.map_cons, List.sum_cons, byteLength]

theorem byteLength_concat (text : List Char) (c : Char) : byteLength (text ++ [c]) = byteLength text + c.utf8Size :=
  byteLength_append text [c]

theorem byteLength_replicate (n : Nat) (c : Char) : byteLength (List.replicate n c) = n * c.utf8Size := by
  rw [byteLength, List.map_replicate, List.sum_replicate_nat]

theorem splitAtByte_append (text rest : List Char) (middle : Nat) :
    splitAtByte (byteLength text + middle) (text ++ rest) =
      (splitAtByte middle rest).map fun (before, after) => (text ++ before, after) := by
  induction text with
  | nil =>
    rw [byteLength, List.map_nil, List.sum_nil, Nat.zero_add]
    exact Option.map_id'.symm
  | cons c text ih =>
    have hpos := c.utf8Size_pos
    have hlength : byteLength (c :: text) + middle = c.utf8Size - 1 + byteLength text + middle + 1 := by
      rw [byteLength, List.map_cons, List.sum_cons, byteLength]
      omega
    rw [hlength, List.cons_append, splitAtByte, if_neg (by omega),
      show c.utf8Size - 1 + byteLength text + middle + 1 - c.utf8Size = byteLength text + middle by omega, ih,
      Option.map_map]
    rfl

/-- A text is cut between two of its characters or at its ends. -/
theorem splitAtByte_eq_some_iff {middle : Nat} {before after : List Char} :
    splitAtByte middle text = some (before, after) ↔ text = before ++ after ∧ byteLength before = middle := by
  constructor
  · intro h
    induction text generalizing middle before with
    | nil =>
      cases middle with
      | zero =>
        obtain ⟨rfl, rfl⟩ := Prod.mk.inj (Option.some.inj h)
        exact ⟨rfl, rfl⟩
      | succ middle => cases h
    | cons c text ih =>
      cases middle with
      | zero =>
        obtain ⟨rfl, rfl⟩ := Prod.mk.inj (Option.some.inj h)
        exact ⟨rfl, rfl⟩
      | succ middle =>
        rw [splitAtByte] at h
        split_ifs at h with hshort
        obtain ⟨⟨kept, rest⟩, hcut, hpair⟩ := Option.map_eq_some_iff.mp h
        obtain ⟨rfl, rfl⟩ := Prod.mk.inj hpair
        obtain ⟨rfl, hlength⟩ := ih hcut
        refine ⟨rfl, ?_⟩
        rw [byteLength, List.map_cons, List.sum_cons]
        rw [byteLength] at hlength
        omega
  · rintro ⟨rfl, rfl⟩
    have hcut := splitAtByte_append before after 0
    rw [Nat.add_zero, splitAtByte, Option.map_some] at hcut
    rw [hcut]
    dsimp only
    rw [List.append_nil]

/-- Before the last byte, a text is cut if its last character is of one byte. -/
theorem splitAtByte_last (text : List Char) (c : Char) :
    splitAtByte (byteLength (text ++ [c]) - 1) (text ++ [c]) =
      if c.utf8Size = 1 then some (text, [c]) else none := by
  have hpos := c.utf8Size_pos
  rw [byteLength_concat, Nat.add_sub_assoc hpos, splitAtByte_append]
  split_ifs with hone
  · rw [hone, Nat.sub_self, splitAtByte, Option.map_some]
    dsimp only
    rw [List.append_nil]
  · obtain ⟨middle, hmiddle⟩ : ∃ middle, c.utf8Size - 1 = middle + 1 := ⟨c.utf8Size - 2, by omega⟩
    rw [hmiddle, splitAtByte, if_pos (by omega), Option.map_none]

end Bytes

end Gail.Library
