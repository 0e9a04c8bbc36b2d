import Mathlib.Data.List.Infix
import Mathlib.Data.List.DropRight

/-! The operations on text that the source uses: trimming by Unicode white space, ASCII case, and
search for a substring. -/
namespace Gail.Library

/-- The characters of Unicode `White_Space`. -/
def isWhitespace (c : Char) : Bool :=
  c.toNat ∈ [0x20, 0x85, 0xA0, 0x1680, 0x2028, 0x2029, 0x202F, 0x205F, 0x3000] ||
    (0x9 ≤ c.toNat && c.toNat ≤ 0xD) || (0x2000 ≤ c.toNat && c.toNat ≤ 0x200A)

/-- `str::trim`. -/
def trim (text : String) : String :=
  String.ofList ((text.toList.dropWhile isWhitespace).rdropWhile isWhitespace)

/-- `str::to_ascii_lowercase`. -/
def toAsciiLowercase (text : String) : String := String.ofList (text.toList.map Char.toLower)

/-- `str::to_ascii_uppercase`. -/
def toAsciiUppercase (text : String) : String := String.ofList (text.toList.map Char.toUpper)

/-- `str::eq_ignore_ascii_case`. -/
def eqIgnoreAsciiCase (left right : String) : Bool :=
  left.toList.map Char.toLower == right.toList.map Char.toLower

/-- `str::contains` of a string. -/
def containsText (text part : String) : Bool := decide (part.toList <:+: text.toList)

/-- The range of the lowercase letters, as `Char.toUpper` tests it. -/
theorem isLower_iff_range {c : Char} : c.isLower = true ↔ 'a'.val ≤ c.val ∧ c.val ≤ 'z'.val := by
  change (decide ('a'.val ≤ c.val) && decide (c.val ≤ 'z'.val)) = true ↔ _
  rw [Bool.and_eq_true, decide_eq_true_eq, decide_eq_true_eq]

theorem isUpper_iff_range {c : Char} : c.isUpper = true ↔ 'A'.val ≤ c.val ∧ c.val ≤ 'Z'.val :=
  decide_eq_true_iff

theorem isLower_iff {c : Char} : c.isLower = true ↔ 97 ≤ c.toNat ∧ c.toNat ≤ 122 := by
  rw [isLower_iff_range, UInt32.le_iff_toNat_le, UInt32.le_iff_toNat_le]
  rfl

theorem isUpper_iff {c : Char} : c.isUpper = true ↔ 65 ≤ c.toNat ∧ c.toNat ≤ 90 := by
  rw [isUpper_iff_range, UInt32.le_iff_toNat_le, UInt32.le_iff_toNat_le]
  rfl

theorem toUpper_of_not_isLower {c : Char} (h : ¬ c.isLower = true) : c.toUpper = c :=
  dif_neg fun hrange => h (isLower_iff_range.mpr hrange)

theorem toLower_of_not_isUpper {c : Char} (h : ¬ c.isUpper = true) : c.toLower = c :=
  dif_neg fun hrange => h (isUpper_iff_range.mpr hrange)

theorem toNat_toUpper {c : Char} (h : c.isLower = true) : c.toUpper.toNat + 32 = c.toNat := by
  obtain ⟨hlow, hhigh⟩ := isLower_iff.mp h
  have hval : c.val.toNat = c.toNat := rfl
  have hdiff : ('A'.val - 'a'.val).toNat = 2 ^ 32 - 32 := by decide
  have hupper : c.toUpper = ⟨c.val + ('A'.val - 'a'.val), _⟩ := dif_pos (isLower_iff_range.mp h)
  rw [hupper]
  change (c.val + _).toNat + 32 = _
  rw [UInt32.toNat_add, hval, hdiff]
  omega

theorem toNat_toLower {c : Char} (h : c.isUpper = true) : c.toLower.toNat = c.toNat + 32 := by
  obtain ⟨hlow, hhigh⟩ := isUpper_iff.mp h
  have hval : c.val.toNat = c.toNat := rfl
  have hdiff : ('a'.val - 'A'.val).toNat = 32 := by decide
  have hlower : c.toLower = ⟨c.val + ('a'.val - 'A'.val), _⟩ := dif_pos (isUpper_iff_range.mp h)
  rw [hlower]
  change (c.val + _).toNat = _
  rw [UInt32.toNat_add, hval, hdiff]
  omega

theorem toUpper_toUpper (c : Char) : c.toUpper.toUpper = c.toUpper := by
  apply toUpper_of_not_isLower
  by_cases h : c.isLower = true
  · have hbounds := isLower_iff.mp h
    have hnat := toNat_toUpper h
    rw [isLower_iff]
    omega
  · rwa [toUpper_of_not_isLower h]

theorem toLower_toLower (c : Char) : c.toLower.toLower = c.toLower := by
  apply toLower_of_not_isUpper
  by_cases h : c.isUpper = true
  · have hbounds := isUpper_iff.mp h
    have hnat := toNat_toLower h
    rw [isUpper_iff]
    omega
  · rwa [toLower_of_not_isUpper h]

/-- The white space of ASCII comes before the letters. -/
theorem not_isWhitespace_of_ascii {c : Char} (hlow : 65 ≤ c.toNat) (hhigh : c.toNat ≤ 122) :
    isWhitespace c = false := by
  simp only [isWhitespace, Bool.or_eq_false_iff, Bool.and_eq_false_iff, decide_eq_false_iff_not,
    List.mem_cons, List.not_mem_nil, or_false]
  omega

theorem isWhitespace_toUpper (c : Char) : isWhitespace c.toUpper = isWhitespace c := by
  by_cases h : c.isLower = true
  · have hbounds := isLower_iff.mp h
    have hnat := toNat_toUpper h
    rw [not_isWhitespace_of_ascii (c := c), not_isWhitespace_of_ascii]
    all_goals omega
  · rw [toUpper_of_not_isLower h]

theorem isWhitespace_toLower (c : Char) : isWhitespace c.toLower = isWhitespace c := by
  by_cases h : c.isUpper = true
  · have hbounds := isUpper_iff.mp h
    have hnat := toNat_toLower h
    rw [not_isWhitespace_of_ascii (c := c), not_isWhitespace_of_ascii]
    all_goals omega
  · rw [toLower_of_not_isUpper h]

theorem toLower_toUpper (c : Char) : c.toUpper.toLower = c.toLower := by
  by_cases h : c.isLower = true
  · have hbounds := isLower_iff.mp h
    have hnat := toNat_toUpper h
    have hupper : c.toUpper.isUpper = true := isUpper_iff.mpr (by omega)
    have hnot : ¬ c.isUpper = true := by
      rw [isUpper_iff]
      omega
    have hback := toNat_toLower hupper
    rw [toLower_of_not_isUpper hnot]
    exact Char.toNat_inj.mp (by omega)
  · rw [toUpper_of_not_isLower h]

/-- `str::split_whitespace`. -/
def splitWhitespace (text : List Char) : List (List Char) :=
  (text.splitOnP isWhitespace).filter fun word => !word.isEmpty

/-- Words of characters that are not white space. -/
def Words (words : List (List Char)) : Prop :=
  ∀ word ∈ words, word ≠ [] ∧ ∀ c ∈ word, isWhitespace c = false

/-- Words joined by single spaces. -/
def joinWords (words : List (List Char)) : List Char := [' '].intercalate words

theorem mem_joinWords {words : List (List Char)} {c : Char} (h : c ∈ joinWords words) :
    c = ' ' ∨ ∃ word ∈ words, c ∈ word := by
  induction words with
  | nil => simp [joinWords] at h
  | cons word words ih =>
    match words, ih, h with
    | [], _, h => exact .inr ⟨word, List.mem_singleton_self word, by simpa [joinWords] using h⟩
    | next :: words, ih, h =>
      rw [joinWords, List.intercalate_cons_cons] at h
      rcases List.mem_append.mp h with h | h
      · rcases List.mem_append.mp h with h | h
        · exact .inr ⟨word, List.mem_cons_self, h⟩
        · exact .inl (List.mem_singleton.mp h)
      · rcases ih h with h | ⟨other, ho, hc⟩
        · exact .inl h
        · exact .inr ⟨other, List.mem_cons_of_mem _ ho, hc⟩

theorem splitOnP_joinWords {words : List (List Char)} (h : Words words) (hne : words ≠ []) :
    (joinWords words).splitOnP isWhitespace = words := by
  induction words with
  | nil => exact absurd rfl hne
  | cons word words ih =>
    have hword := (h word List.mem_cons_self).2
    match words, ih, h with
    | [], _, _ =>
      rw [joinWords, List.intercalate_singleton]
      exact List.splitOnP_eq_singleton hword
    | next :: words, ih, h =>
      have htail : Words (next :: words) := fun other ho => h other (List.mem_cons_of_mem _ ho)
      have hsep : isWhitespace ' ' = true := by decide
      rw [joinWords, List.intercalate_cons_cons, List.append_assoc, List.singleton_append,
        List.splitOnP_append_cons_of_forall_mem hword ' ' hsep]
      exact congrArg (word :: ·) (ih htail (List.cons_ne_nil _ _))

theorem splitWhitespace_joinWords {words : List (List Char)} (h : Words words) :
    splitWhitespace (joinWords words) = words := by
  rcases words with _ | ⟨word, words⟩
  · rfl
  · rw [splitWhitespace, splitOnP_joinWords h (List.cons_ne_nil _ _), List.filter_eq_self]
    intro other ho
    simpa using (h other ho).1

/-- A part between white space holds characters of the text, none of them white space. -/
theorem mem_splitOnP {text word : List Char} {c : Char} (h : word ∈ text.splitOnP isWhitespace)
    (hc : c ∈ word) : c ∈ text ∧ isWhitespace c = false := by
  induction text generalizing word with
  | nil =>
    rw [List.splitOnP_nil, List.mem_singleton] at h
    exact absurd (h ▸ hc) List.not_mem_nil
  | cons first text ih =>
    rw [List.splitOnP_cons_eq_if_modifyHead] at h
    split at h
    · rcases List.mem_cons.mp h with rfl | h
      · exact absurd hc List.not_mem_nil
      · exact ⟨List.mem_cons_of_mem _ (ih h hc).1, (ih h hc).2⟩
    · next hfirst =>
      obtain ⟨head, tail, hs⟩ := List.exists_cons_of_ne_nil (List.splitOnP_ne_nil isWhitespace text)
      rw [hs, List.modifyHead_cons, List.mem_cons] at h
      rw [hs] at ih
      rcases h with rfl | h
      · rcases List.mem_cons.mp hc with rfl | hc
        · exact ⟨List.mem_cons_self, by simpa using hfirst⟩
        · exact ⟨List.mem_cons_of_mem _ (ih List.mem_cons_self hc).1, (ih List.mem_cons_self hc).2⟩
      · have hrest := ih (List.mem_cons_of_mem _ h) hc
        exact ⟨List.mem_cons_of_mem _ hrest.1, hrest.2⟩

theorem mem_splitWhitespace {text word : List Char} (h : word ∈ splitWhitespace text) :
    word ≠ [] ∧ ∀ c ∈ word, c ∈ text ∧ isWhitespace c = false := by
  obtain ⟨hs, hne⟩ := List.mem_filter.mp h
  exact ⟨by simpa using hne, fun c hc => mem_splitOnP hs hc⟩

theorem joinWords_ne_nil {word : List Char} {words : List (List Char)} (h : word ≠ []) :
    joinWords (word :: words) ≠ [] := by
  obtain ⟨c, rest, rfl⟩ := List.exists_cons_of_ne_nil h
  cases words <;> simp [joinWords, List.intercalate_cons_cons]

theorem dropWhile_joinWords {words : List (List Char)} (h : Words words) :
    (joinWords words).dropWhile isWhitespace = joinWords words := by
  match words, h with
  | [], _ => rfl
  | word :: words, h =>
    obtain ⟨hne, hword⟩ := h word List.mem_cons_self
    obtain ⟨c, rest, rfl⟩ := List.exists_cons_of_ne_nil hne
    have hc : isWhitespace c = false := hword c List.mem_cons_self
    cases words <;> simp [joinWords, List.intercalate_cons_cons, hc]

theorem getLast_joinWords {words : List (List Char)} (h : Words words) (hl : joinWords words ≠ []) :
    isWhitespace ((joinWords words).getLast hl) = false := by
  induction words with
  | nil => exact absurd rfl hl
  | cons word words ih =>
    match words, ih, h, hl with
    | [], _, h, hl =>
      simp only [joinWords, List.intercalate_singleton]
      exact (h word List.mem_cons_self).2 _ (List.getLast_mem _)
    | next :: words, ih, h, hl =>
      have htail : Words (next :: words) := fun other ho => h other (List.mem_cons_of_mem _ ho)
      have hnext : joinWords (next :: words) ≠ [] := joinWords_ne_nil (htail next List.mem_cons_self).1
      have hjoin : joinWords (word :: next :: words) =
          (word ++ [' ']) ++ joinWords (next :: words) := by
        rw [joinWords, List.intercalate_cons_cons]
        rfl
      simp only [hjoin, List.getLast_append_of_ne_nil _ hnext]
      exact ih htail hnext

/-- Joined words have no white space at their ends. -/
theorem trim_joinWords {words : List (List Char)} (h : Words words) :
    trim (String.ofList (joinWords words)) = String.ofList (joinWords words) := by
  rw [trim, String.toList_ofList, dropWhile_joinWords h, List.rdropWhile_eq_self_iff.mpr]
  intro hl
  simp [getLast_joinWords h hl]

theorem dropWhile_dropWhile {p q : Char → Bool} (h : ∀ c, q c = true → p c = true) (text : List Char) :
    (text.dropWhile q).dropWhile p = text.dropWhile p := by
  induction text with
  | nil => rfl
  | cons c text ih =>
    by_cases hq : q c = true
    · rw [List.dropWhile_cons_of_pos hq, ih, List.dropWhile_cons_of_pos (h c hq)]
    · rw [List.dropWhile_cons_of_neg hq]

theorem rdropWhile_rdropWhile {p q : Char → Bool} (h : ∀ c, q c = true → p c = true) (text : List Char) :
    (text.rdropWhile q).rdropWhile p = text.rdropWhile p := by
  rw [List.rdropWhile, List.rdropWhile, List.reverse_reverse, dropWhile_dropWhile h, List.rdropWhile]

/-- What starts with a mark still does when its end is cut. -/
theorem dropWhile_rdropWhile {p q : Char → Bool} {text : List Char} (h : text.dropWhile p = text) :
    (text.rdropWhile q).dropWhile p = text.rdropWhile q := by
  obtain ⟨tail, ht⟩ := List.rdropWhile_prefix q text
  cases hr : text.rdropWhile q with
  | nil => rfl
  | cons c front =>
    rw [hr, List.cons_append] at ht
    have hc := List.dropWhile_eq_self_iff.mp h (by rw [← ht]; exact Nat.succ_pos _)
    simp only [← ht, List.getElem_cons_zero] at hc
    exact List.dropWhile_cons_of_neg hc

theorem dropWhile_trim (text : String) :
    (trim text).toList.dropWhile isWhitespace = (trim text).toList := by
  rw [trim, String.toList_ofList]
  exact dropWhile_rdropWhile (List.dropWhile_idempotent isWhitespace text.toList)

theorem rdropWhile_trim (text : String) :
    (trim text).toList.rdropWhile isWhitespace = (trim text).toList := by
  rw [trim, String.toList_ofList, List.rdropWhile_idempotent]

@[simp] theorem trim_trim (text : String) : trim (trim text) = trim text := by
  rw [trim, dropWhile_trim, rdropWhile_trim, String.ofList_toList]

/-- A text with a mark on it is not blank. -/
theorem trim_not_isEmpty {text : String} {c : Char} (h : c ∈ text.toList)
    (hc : isWhitespace c = false) : (trim text).isEmpty = false := by
  by_contra he
  rw [Bool.not_eq_false, String.isEmpty_iff, ← String.toList_inj, trim, String.toList_ofList] at he
  have hblank := List.rdropWhile_eq_nil_iff.mp he
  rw [← List.takeWhile_append_dropWhile (p := isWhitespace) (l := text.toList)] at h
  rcases List.mem_append.mp h with h | h
  · rw [List.mem_takeWhile_imp h] at hc
    cases hc
  · rw [hblank c h] at hc
    cases hc

theorem trim_isEmpty_iff {text : String} :
    (trim text).isEmpty = true ↔ ∀ c ∈ text.toList, isWhitespace c = true := by
  constructor
  · intro h c hc
    by_contra hmark
    rw [trim_not_isEmpty hc (Bool.eq_false_iff.mpr hmark)] at h
    cases h
  · intro h
    rw [String.isEmpty_iff, ← String.toList_inj, trim, String.toList_ofList,
      List.dropWhile_eq_nil_iff.mpr h]
    rfl

/-- A change of letters that leaves white space alone leaves a trimmed text trimmed. -/
theorem trim_map_trim {f : Char → Char} (hf : ∀ c, isWhitespace (f c) = isWhitespace c) (text : String) :
    trim (String.ofList ((trim text).toList.map f)) = String.ofList ((trim text).toList.map f) := by
  have hsame : isWhitespace ∘ f = isWhitespace := funext hf
  have hreverse : (((trim text).toList.map f).reverse.dropWhile isWhitespace).reverse =
      (trim text).toList.map f := by
    rw [← List.map_reverse, List.dropWhile_map, hsame, ← List.map_reverse]
    exact congrArg (List.map f) (rdropWhile_trim text)
  rw [trim, String.toList_ofList, List.dropWhile_map, hsame, dropWhile_trim]
  exact congrArg String.ofList hreverse

theorem trim_toAsciiUppercase_trim (text : String) :
    trim (toAsciiUppercase (trim text)) = toAsciiUppercase (trim text) := trim_map_trim isWhitespace_toUpper text

theorem trim_toAsciiLowercase_trim (text : String) :
    trim (toAsciiLowercase (trim text)) = toAsciiLowercase (trim text) := trim_map_trim isWhitespace_toLower text

theorem toAsciiUppercase_toAsciiUppercase (text : String) :
    toAsciiUppercase (toAsciiUppercase text) = toAsciiUppercase text := by
  unfold toAsciiUppercase
  rw [String.toList_ofList, List.map_map]
  congr 2
  funext c
  exact toUpper_toUpper c

theorem toAsciiLowercase_toAsciiLowercase (text : String) :
    toAsciiLowercase (toAsciiLowercase text) = toAsciiLowercase text := by
  unfold toAsciiLowercase
  rw [String.toList_ofList, List.map_map]
  congr 2
  funext c
  exact toLower_toLower c

theorem eqIgnoreAsciiCase_toAsciiUppercase (left right : String) :
    eqIgnoreAsciiCase (toAsciiUppercase left) (toAsciiUppercase right) = eqIgnoreAsciiCase left right := by
  have hlower : Char.toLower ∘ Char.toUpper = Char.toLower := funext toLower_toUpper
  unfold eqIgnoreAsciiCase toAsciiUppercase
  rw [String.toList_ofList, String.toList_ofList, List.map_map, List.map_map, hlower]

/-- A text is cut at the first of its marks in one way only. -/
theorem append_cons_inj {mark : Char} {head other tail another : List Char} (hh : mark ∉ head)
    (ho : mark ∉ other) (h : head ++ mark :: tail = other ++ mark :: another) :
    head = other ∧ tail = another := by
  induction head generalizing other with
  | nil =>
    match other with
    | [] => exact ⟨rfl, (List.cons.inj h).2⟩
    | c :: other => exact absurd ((List.cons.inj h).1 ▸ List.mem_cons_self) ho
  | cons c head ih =>
    match other with
    | [] => exact absurd ((List.cons.inj h).1 ▸ List.mem_cons_self) hh
    | d :: other =>
      rw [List.cons_append, List.cons_append] at h
      obtain ⟨rfl, hrest⟩ := List.cons.inj h
      obtain ⟨rfl, rfl⟩ := ih (fun hm => hh (List.mem_cons_of_mem _ hm))
        (fun hm => ho (List.mem_cons_of_mem _ hm)) hrest
      exact ⟨rfl, rfl⟩

end Gail.Library
