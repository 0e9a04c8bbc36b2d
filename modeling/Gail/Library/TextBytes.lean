import Gail.Library.TextLines

/-! The bytes of a text in UTF-8, the texts between two of its bytes, and numbers in decimal digits. -/
namespace Gail.Library

def bytes (text : List Char) : List UInt8 := text.flatMap String.utf8EncodeChar

/-- `u8::is_ascii_digit`. -/
def isAsciiDigit (byte : UInt8) : Bool := 48 ≤ byte && byte ≤ 57

/-- The text from one byte to another, where characters begin at both. -/
def slice (start stop : Nat) (text : List Char) : Option (List Char) := do
  let (_, after) ← splitAtByte start text
  let (part, _) ← splitAtByte (stop - start) after
  some part

/-- A number without a sign, of at least one digit. -/
def parseMagnitude (digits : List Char) : Option ℤ :=
  if digits.isEmpty || !digits.all Char.isDigit then none else some (Nat.ofDigitChars 10 digits 0)

/-- `str::parse::<i64>`. -/
def parseI64 (text : List Char) : Option ℤ :=
  let value :=
    match text with
    | '+' :: digits => parseMagnitude digits
    | '-' :: digits => (parseMagnitude digits).map (-·)
    | digits => parseMagnitude digits
  value.filter fun value => -2 ^ 63 ≤ value ∧ value < 2 ^ 63

/-- So many decimal digits. -/
structure Digits (width : Nat) where
  chars : List Char
  length_eq : chars.length = width
  isDigit : ∀ c ∈ chars, c.isDigit = true

def Digits.value {width : Nat} (digits : Digits width) : Nat := Nat.ofDigitChars 10 digits.chars 0

section Ascii
variable {c d : Char} {text rest : List Char}

theorem isDigit_iff : c.isDigit = true ↔ 48 ≤ c.toNat ∧ c.toNat ≤ 57 := by
  rw [Char.isDigit, Bool.and_eq_true, decide_eq_true_eq, decide_eq_true_eq, ge_iff_le, UInt32.le_iff_toNat_le,
    UInt32.le_iff_toNat_le]
  rfl

theorem byteLength_pos (h : text ≠ []) : 0 < byteLength text := by
  obtain ⟨c, rest, rfl⟩ := List.exists_cons_of_ne_nil h
  rw [byteLength_cons]
  exact Nat.add_pos_left c.utf8Size_pos _

theorem utf8Size_eq_one (h : c.toNat < 128) : c.utf8Size = 1 := by
  rw [Char.utf8Size_eq_one_iff, UInt32.le_iff_toNat_le]
  exact Nat.le_of_lt_succ h

theorem utf8Size_of_isDigit (h : c.isDigit = true) : c.utf8Size = 1 :=
  utf8Size_eq_one (Nat.lt_of_le_of_lt (isDigit_iff.mp h).2 (by decide))

/-- A character is one byte below 128 or several of 128 and above. -/
theorem utf8EncodeChar_cases (c : Char) :
    (c.toNat < 128 ∧ String.utf8EncodeChar c = [c.toUInt8]) ∨
      (128 ≤ c.toNat ∧ ∀ byte ∈ String.utf8EncodeChar c, 128 ≤ byte.toNat) := by
  by_cases hascii : c.toNat < 128
  · exact .inl ⟨hascii, String.utf8EncodeChar_eq_singleton (utf8Size_eq_one hascii)⟩
  · refine .inr ⟨not_lt.mp hascii, ?_⟩
    have hlarge : ¬ c.val.toNat ≤ 127 := fun h => hascii (Nat.lt_succ_of_le h)
    have hbyte : ∀ n : Nat, n < 64 → 128 ≤ (UInt8.ofNat (n + 0x80)).toNat := by
      intro n hn
      rw [UInt8.toNat_ofNat']
      omega
    have hlead : ∀ n base : Nat, 128 ≤ base → n + base < 256 → 128 ≤ (UInt8.ofNat (n + base)).toNat := by
      intro n base hbase hn
      rw [UInt8.toNat_ofNat']
      omega
    unfold String.utf8EncodeChar
    dsimp only
    rw [if_neg hlarge]
    split_ifs <;> simp only [List.forall_mem_cons, List.not_mem_nil, false_imp_iff, implies_true, and_true]
    · exact ⟨hlead _ _ (by decide) (by omega), hbyte _ (by omega)⟩
    · exact ⟨hlead _ _ (by decide) (by omega), hbyte _ (by omega), hbyte _ (by omega)⟩
    · exact ⟨hlead _ _ (by decide) (by omega), hbyte _ (by omega), hbyte _ (by omega), hbyte _ (by omega)⟩

theorem toNat_toUInt8 (h : c.toNat < 128) : c.toUInt8.toNat = c.toNat := by
  change c.val.toUInt8.toNat = c.val.toNat
  rw [UInt32.toNat_toUInt8]
  exact Nat.mod_eq_of_lt (Nat.lt_trans h (by decide))

theorem bytes_append (text rest : List Char) : bytes (text ++ rest) = bytes text ++ bytes rest :=
  List.flatMap_append

theorem bytes_cons (c : Char) (text : List Char) : bytes (c :: text) = String.utf8EncodeChar c ++ bytes text :=
  List.flatMap_cons

theorem length_bytes (text : List Char) : (bytes text).length = byteLength text := by
  rw [bytes, List.length_flatMap, byteLength]
  simp only [String.length_utf8EncodeChar]

/-- The first byte is that of a character of one byte where this character begins the text. -/
theorem head?_bytes_iff (h : c.toNat < 128) :
    (bytes text).head? = some c.toUInt8 ↔ ∃ rest, text = c :: rest := by
  constructor
  · intro hhead
    cases text with
    | nil => cases hhead
    | cons d text =>
      rw [bytes_cons] at hhead
      rcases utf8EncodeChar_cases d with ⟨hascii, hbytes⟩ | ⟨-, hbytes⟩
      · rw [hbytes, List.singleton_append, List.head?_cons, Option.some.injEq] at hhead
        have hvalue := congrArg UInt8.toNat hhead
        rw [toNat_toUInt8 hascii, toNat_toUInt8 h] at hvalue
        exact ⟨text, by rw [Char.toNat_inj.mp hvalue]⟩
      · have hne : String.utf8EncodeChar d ≠ [] := String.utf8EncodeChar_ne_nil
        rw [List.head?_append_of_ne_nil _ hne] at hhead
        have hlow := hbytes _ (List.mem_of_mem_head? hhead)
        rw [toNat_toUInt8 h] at hlow
        omega
  · rintro ⟨rest, rfl⟩
    rw [bytes_cons, String.utf8EncodeChar_eq_singleton (utf8Size_eq_one h)]
    rfl

theorem isAsciiDigit_iff {byte : UInt8} : isAsciiDigit byte = true ↔ 48 ≤ byte.toNat ∧ byte.toNat ≤ 57 := by
  rw [isAsciiDigit, Bool.and_eq_true, decide_eq_true_eq, decide_eq_true_eq, UInt8.le_iff_toNat_le,
    UInt8.le_iff_toNat_le]
  rfl

theorem isAsciiDigit_toUInt8 (h : c.toNat < 128) : isAsciiDigit c.toUInt8 = c.isDigit := by
  rw [Bool.eq_iff_iff, isAsciiDigit_iff, isDigit_iff, toNat_toUInt8 h]

theorem all_bytes_isAsciiDigit : (bytes text).all isAsciiDigit = text.all Char.isDigit := by
  induction text with
  | nil => rfl
  | cons c text ih =>
    rw [bytes_cons, List.all_append, ih, List.all_cons]
    congr 1
    rcases utf8EncodeChar_cases c with ⟨hascii, hbytes⟩ | ⟨hlarge, hbytes⟩
    · rw [hbytes, List.all_cons, List.all_nil, Bool.and_true, isAsciiDigit_toUInt8 hascii]
    · obtain ⟨byte, hbyte⟩ := List.exists_mem_of_ne_nil _ (String.utf8EncodeChar_ne_nil (c := c))
      rw [Bool.eq_iff_iff, List.all_eq_true, isDigit_iff]
      refine iff_of_false (fun h => ?_) (by omega)
      have hdigit := isAsciiDigit_iff.mp (h byte hbyte)
      have hlow := hbytes byte hbyte
      omega

/-- The digits that a text begins with are as many as those that its bytes begin with. -/
theorem length_takeWhile_bytes (text : List Char) :
    ((bytes text).takeWhile isAsciiDigit).length = byteLength (text.takeWhile Char.isDigit) := by
  induction text with
  | nil => rfl
  | cons c text ih =>
    rw [bytes_cons]
    rcases utf8EncodeChar_cases c with ⟨hascii, hbytes⟩ | ⟨hlarge, hbytes⟩
    · rw [hbytes, List.singleton_append, List.takeWhile_cons, isAsciiDigit_toUInt8 hascii, List.takeWhile_cons]
      split_ifs with hdigit
      · rw [List.length_cons, ih, byteLength, byteLength, List.map_cons, List.sum_cons, utf8Size_eq_one hascii,
          Nat.add_comm]
      · rfl
    · have hnot : ¬ c.isDigit = true := fun h => absurd (isDigit_iff.mp h).2 (by omega)
      obtain ⟨byte, others, hcons⟩ := List.exists_cons_of_ne_nil (String.utf8EncodeChar_ne_nil (c := c))
      have hlow := hbytes byte (by rw [hcons]; exact List.mem_cons_self)
      have hbyte : ¬ isAsciiDigit byte = true := fun h => absurd (isAsciiDigit_iff.mp h).2 (by omega)
      rw [hcons, List.cons_append, List.takeWhile_cons_of_neg hbyte, List.takeWhile_cons_of_neg hnot]
      rfl

end Ascii

section Slices
variable {before text : List Char} {start stop : Nat}

/-- Behind a text of so many bytes, a slice is the beginning of what follows. -/
theorem slice_append (h : byteLength before = start) (width : Nat) :
    slice start (start + width) (before ++ text) = (splitAtByte width text).map Prod.fst := by
  have hcut := splitAtByte_append before text 0
  rw [Nat.add_zero, h, splitAtByte, Option.map_some] at hcut
  dsimp only at hcut
  rw [List.append_nil] at hcut
  rw [slice, hcut, Option.bind_eq_bind, Option.bind_some, Nat.add_sub_cancel_left]
  dsimp only
  cases splitAtByte width text <;> rfl

theorem slice_eq_some_iff (h : byteLength before = start) {width : Nat} {part : List Char} :
    slice start (start + width) (before ++ text) = some part ↔
      ∃ rest, text = part ++ rest ∧ byteLength part = width := by
  rw [slice_append h, Option.map_eq_some_iff]
  simp only [Prod.exists, splitAtByte_eq_some_iff, exists_and_right, exists_eq_right]

theorem slice_middle (before part after : List Char) (hstart : byteLength before = start)
    (hstop : start + byteLength part = stop) : slice start stop (before ++ (part ++ after)) = some part := by
  subst hstop
  exact (slice_eq_some_iff hstart).mpr ⟨after, rfl, rfl⟩

end Slices

section Numbers
variable {width : Nat}

theorem byteLength_of_isDigit {digits : List Char} (h : ∀ c ∈ digits, c.isDigit = true) :
    byteLength digits = digits.length := by
  have hsize : ∀ c ∈ digits, c.utf8Size = 1 := fun c hc => utf8Size_of_isDigit (h c hc)
  rw [byteLength, List.map_congr_left hsize, List.map_const', List.sum_replicate_nat, Nat.mul_one]

theorem Digits.byteLength_chars (digits : Digits width) : byteLength digits.chars = width := by
  rw [byteLength_of_isDigit digits.isDigit, digits.length_eq]

theorem ofDigitChars_lt {digits : List Char} (h : ∀ c ∈ digits, c.isDigit = true) :
    Nat.ofDigitChars 10 digits 0 < 10 ^ digits.length := by
  induction digits with
  | nil => decide
  | cons c digits ih =>
    obtain ⟨hc, hdigits⟩ := List.forall_mem_cons.mp h
    have hrest := ih hdigits
    have hrange := isDigit_iff.mp hc
    have hvalue : c.toNat - '0'.toNat ≤ 9 := by
      rw [show '0'.toNat = 48 from rfl]
      omega
    rw [Nat.ofDigitChars_cons, Nat.mul_zero, Nat.zero_add, Nat.ofDigitChars_eq_ofDigitChars_zero, List.length_cons,
      Nat.pow_succ]
    have hfirst := Nat.mul_le_mul_left (10 ^ digits.length) hvalue
    omega

theorem parseMagnitude_of_digits {digits : List Char} (hne : digits ≠ []) (h : ∀ c ∈ digits, c.isDigit = true) :
    parseMagnitude digits = some (Nat.ofDigitChars 10 digits 0 : ℤ) := by
  refine if_neg fun hnot => ?_
  rcases Bool.or_eq_true_iff.mp hnot with hempty | hother
  · exact hne (List.isEmpty_iff.mp hempty)
  · rw [List.all_eq_true.mpr h] at hother
    cases hother

theorem digits_of_parseMagnitude {digits : List Char} {value : ℤ} (h : parseMagnitude digits = some value) :
    digits ≠ [] ∧ ∀ c ∈ digits, c.isDigit = true := by
  unfold parseMagnitude at h
  split_ifs at h with hnot
  rw [Bool.or_eq_true, not_or, List.isEmpty_iff, Bool.not_eq_true, Bool.not_eq_false', List.all_eq_true] at hnot
  exact hnot

/-- A few digits are read as their number. -/
theorem parseI64_of_digits {digits : List Char} (hne : digits ≠ []) (h : ∀ c ∈ digits, c.isDigit = true)
    (hlength : digits.length ≤ 18) : parseI64 digits = some (Nat.ofDigitChars 10 digits 0 : ℤ) := by
  have hlt := ofDigitChars_lt h
  have hpow : 10 ^ digits.length ≤ 10 ^ 18 := Nat.pow_le_pow_right (by decide) hlength
  have hvalue := parseMagnitude_of_digits hne h
  unfold parseI64
  dsimp only
  split
  · exact absurd (h '+' List.mem_cons_self) (by decide)
  · exact absurd (h '-' List.mem_cons_self) (by decide)
  · rw [hvalue, Option.filter_some, if_pos]
    rw [decide_eq_true_eq]
    omega

/-- What is read as a number is digits behind a sign or without one. -/
theorem digits_of_parseI64 {text : List Char} {value : ℤ} (h : parseI64 text = some value) :
    ∃ sign digits, text = sign ++ digits ∧ sign ∈ [[], ['+'], ['-']] ∧ digits ≠ [] ∧
      ∀ c ∈ digits, c.isDigit = true := by
  unfold parseI64 at h
  dsimp only at h
  obtain ⟨hvalue, -⟩ := Option.filter_eq_some_iff.mp h
  split at hvalue
  · exact ⟨['+'], _, rfl, by decide, digits_of_parseMagnitude hvalue⟩
  · obtain ⟨magnitude, hmagnitude, -⟩ := Option.map_eq_some_iff.mp hvalue
    exact ⟨['-'], _, rfl, by decide, digits_of_parseMagnitude hmagnitude⟩
  · exact ⟨[], _, rfl, by decide, digits_of_parseMagnitude hvalue⟩

/-- A few digits are read as a number behind a sign too. -/
theorem parseI64_signed {sign : Char} {digits : List Char} (hsign : sign = '+' ∨ sign = '-') (hne : digits ≠ [])
    (h : ∀ c ∈ digits, c.isDigit = true) (hlength : digits.length ≤ 18) :
    (parseI64 (sign :: digits)).isSome = true := by
  have hlt := ofDigitChars_lt h
  have hpow : 10 ^ digits.length ≤ 10 ^ 18 := Nat.pow_le_pow_right (by decide) hlength
  have hvalue := parseMagnitude_of_digits hne h
  rcases hsign with rfl | rfl
  · rw [parseI64, hvalue, Option.filter_some, if_pos]
    · rfl
    · rw [decide_eq_true_eq]
      omega
  · rw [parseI64, hvalue, Option.map_some, Option.filter_some, if_pos]
    · rfl
    · rw [decide_eq_true_eq]
      omega

theorem Digits.parseI64_chars (digits : Digits width) (hpos : 0 < width) (hwidth : width ≤ 18) :
    parseI64 digits.chars = some (digits.value : ℤ) := by
  have hlength := digits.length_eq
  exact parseI64_of_digits (List.ne_nil_of_length_pos (by omega)) digits.isDigit (by omega)

end Numbers

end Gail.Library
