import Mathlib.Algebra.Group.Nat.Defs
import Mathlib.Data.List.Basic

/-! Numbers of a fixed width as bytes: variable-length ones, seven bits a byte with the lowest first
and the top bit set on all bytes but the last, and little-endian ones of a given length. -/
namespace Gail.Library
variable {w : Nat}

def Varint.write (value : BitVec w) : List (BitVec 8) :=
  if value.toNat < 0x80 then [value.setWidth 8 &&& 0x7f]
  else ((value.setWidth 8 &&& 0x7f) ||| 0x80) :: Varint.write (value >>> 7)
termination_by value.toNat
decreasing_by
  rw [BitVec.toNat_ushiftRight, Nat.shiftRight_eq_div_pow]
  omega

inductive VarintError where
  | overflow
  | truncated
  deriving DecidableEq

/-- Each byte adds its bits to the result, at a shift that grows by seven. -/
def Varint.read (result : BitVec w) (shift : Nat) :
    List (BitVec 8) → Except VarintError (BitVec w × List (BitVec 8))
  | [] => .error .truncated
  | byte :: bytes =>
    let result := result ||| ((byte &&& 0x7f).setWidth w <<< shift)
    if byte &&& 0x80 = 0 then .ok (result, bytes)
    else if w ≤ shift + 7 then .error .overflow
    else Varint.read result (shift + 7) bytes

/-- The number that the bytes start with, however large, if it takes no more bytes than given, and the bytes
after it. -/
def Varint.number : Nat → List (BitVec 8) → Option (Nat × List (BitVec 8))
  | 0, _ => none
  | _ + 1, [] => none
  | limit + 1, byte :: bytes =>
    if byte &&& 0x80 = 0 then some ((byte &&& 0x7f).toNat, bytes)
    else (Varint.number limit bytes).map fun (number, rest) =>
      ((byte &&& 0x7f).toNat + 2 ^ 7 * number, rest)

def toLeBytes : Nat → BitVec w → List (BitVec 8)
  | 0, _ => []
  | n + 1, value => value.setWidth 8 :: toLeBytes n (value >>> 8)

def fromLeBytes (w : Nat) : List (BitVec 8) → BitVec w
  | [] => 0
  | byte :: bytes => byte.setWidth w ||| fromLeBytes w bytes <<< 8

theorem Varint.read_shorter {result value : BitVec w} {shift : Nat} {bytes rest : List (BitVec 8)}
    (h : Varint.read result shift bytes = .ok (value, rest)) : rest.length < bytes.length := by
  induction bytes generalizing result shift with
  | nil => cases h
  | cons byte bytes ih =>
    rw [Varint.read] at h
    split_ifs at h
    · cases h
      exact Nat.lt_succ_self _
    · exact Nat.lt_trans (ih h) (Nat.lt_succ_self _)

theorem lowBits_lt (byte : BitVec 8) : (byte &&& 0x7f).toNat < 2 ^ 7 := by
  rw [BitVec.toNat_and]
  exact Nat.and_lt_two_pow _ (by decide)

/-- Above the bits that are there, the bits of a byte are added. -/
theorem or_shifted_eq {result : BitVec w} {shift : Nat} (h : result.toNat < 2 ^ shift) (byte : BitVec 8) :
    result ||| (byte.setWidth w <<< shift) = BitVec.ofNat w (result.toNat + byte.toNat * 2 ^ shift) := by
  have hshifted : byte.setWidth w <<< shift = BitVec.ofNat w (2 ^ shift * byte.toNat) := by
    apply BitVec.eq_of_toNat_eq
    rw [BitVec.toNat_shiftLeft, BitVec.toNat_setWidth, BitVec.toNat_ofNat, Nat.shiftLeft_eq, Nat.mod_mul_mod,
      Nat.mul_comm]
  have hresult : BitVec.ofNat w result.toNat = result := by rw [BitVec.ofNat_toNat, BitVec.setWidth_eq]
  rw [hshifted, Nat.add_comm, Nat.mul_comm byte.toNat, Nat.two_pow_add_eq_or_of_lt h, BitVec.ofNat_or, hresult,
    BitVec.or_comm]

/-- The reader takes a number of as many bytes as its width has room for, and keeps the bits that fit. -/
theorem Varint.read_ok_iff {result value : BitVec w} {shift limit : Nat} {bytes rest : List (BitVec 8)}
    (hlow : result.toNat < 2 ^ shift) (hlimit : w ≤ shift + 7 * (limit + 1)) (hroom : shift + 7 * limit < w) :
    Varint.read result shift bytes = .ok (value, rest) ↔
      ∃ number, Varint.number (limit + 1) bytes = some (number, rest) ∧
        value = BitVec.ofNat w (result.toNat + number * 2 ^ shift) := by
  induction bytes generalizing result shift limit with
  | nil => simp [Varint.read, Varint.number]
  | cons byte bytes ih =>
    have hbits := or_shifted_eq hlow (byte &&& 0x7f)
    have hbyte := lowBits_lt byte
    rw [Varint.read, Varint.number]
    split_ifs with hlast hfull
    · simp only [hbits, Except.ok.injEq, Prod.mk.injEq, Option.some.injEq]
      grind
    · have hzero : limit = 0 := by omega
      subst hzero
      simp [Varint.number]
    · obtain ⟨later, rfl⟩ : ∃ later, limit = later + 1 := ⟨limit - 1, by omega⟩
      have hpow : 2 ^ (shift + 7) = 2 ^ 7 * 2 ^ shift := by rw [Nat.pow_add, Nat.mul_comm]
      have hsum : result.toNat + (byte &&& 0x7f).toNat * 2 ^ shift < 2 ^ (shift + 7) := by
        have hless : ((byte &&& 0x7f).toNat + 1) * 2 ^ shift ≤ 2 ^ 7 * 2 ^ shift :=
          Nat.mul_le_mul_right _ hbyte
        rw [hpow]
        rw [Nat.add_mul] at hless
        omega
      have hlater : (BitVec.ofNat w (result.toNat + (byte &&& 0x7f).toNat * 2 ^ shift)).toNat <
          2 ^ (shift + 7) := by
        rw [BitVec.toNat_ofNat]
        exact Nat.lt_of_le_of_lt (Nat.mod_le _ _) hsum
      have hsplit (number : Nat) : BitVec.ofNat w ((BitVec.ofNat w (result.toNat +
          (byte &&& 0x7f).toNat * 2 ^ shift)).toNat + number * 2 ^ (shift + 7)) =
            BitVec.ofNat w (result.toNat + ((byte &&& 0x7f).toNat + 2 ^ 7 * number) * 2 ^ shift) := by
        apply BitVec.eq_of_toNat_eq
        rw [BitVec.toNat_ofNat, BitVec.toNat_ofNat, BitVec.toNat_ofNat, Nat.mod_add_mod, hpow, Nat.add_mul,
          Nat.mul_assoc, Nat.mul_left_comm, Nat.add_assoc]
      have hlimit : w ≤ shift + 7 + 7 * (later + 1) := by omega
      rw [hbits, ih hlater hlimit (by omega)]
      simp only [hsplit]
      constructor
      · rintro ⟨number, hnumber, hvalue⟩
        exact ⟨_, by rw [hnumber, Option.map_some], hvalue⟩
      · rintro ⟨number, hnumber, hvalue⟩
        obtain ⟨⟨high, after⟩, hhigh, he⟩ := Option.map_eq_some_iff.mp hnumber
        cases he
        exact ⟨high, hhigh, hvalue⟩

theorem getLsbD_lowMask (i : Nat) : (0x7f : BitVec 8).getLsbD i = decide (i < 7) :=
  Nat.testBit_two_pow_sub_one 7 i

/-- A value is the bits of its first byte and those of the bytes after it. -/
theorem split_bits (value : BitVec w) (shift : Nat) :
    ((value.setWidth 8 &&& 0x7f).setWidth w <<< shift) ||| ((value >>> 7) <<< (shift + 7)) =
      value <<< shift := by
  apply BitVec.eq_of_getLsbD_eq
  intro i hi
  simp only [BitVec.getLsbD_or, BitVec.getLsbD_shiftLeft, BitVec.getLsbD_setWidth, BitVec.getLsbD_and,
    BitVec.getLsbD_ushiftRight, getLsbD_lowMask]
  by_cases hlow : i < shift
  · simp [hlow]
    omega
  · by_cases hnext : i - shift < 7
    · have hbyte : i - shift < 8 := by omega
      have hwidth : i - shift < w := by omega
      have hbelow : i < shift + 7 := by omega
      simp [hlow, hnext, hbyte, hwidth, hbelow, hi]
    · have habove : ¬ i < shift + 7 := by omega
      have hindex : 7 + (i - (shift + 7)) = i - shift := by omega
      simp [hlow, hnext, habove, hindex, hi]

theorem last_byte_ends (byte : BitVec 8) : (byte &&& 0x7f) &&& 0x80 = 0 := by
  rw [BitVec.and_assoc, show (0x7f &&& 0x80 : BitVec 8) = 0#8 from rfl]
  exact BitVec.and_zero

theorem marked_byte_continues (byte : BitVec 8) : ((byte &&& 0x7f) ||| 0x80) &&& 0x80 ≠ 0 := by
  intro h
  have hbit := congrArg (BitVec.getLsbD · 7) h
  simp at hbit

theorem marked_byte_bits (byte : BitVec 8) :
    ((byte &&& 0x7f) ||| 0x80) &&& 0x7f = byte &&& 0x7f := by
  rw [BitVec.and_or_distrib_right, BitVec.and_assoc]
  simp

/-- Reading undoes writing as long as the value fits above the shift. -/
theorem Varint.read_write {value : BitVec w} {shift : Nat} (result : BitVec w)
    (rest : List (BitVec 8)) (h : value.toNat * 2 ^ shift < 2 ^ w) :
    Varint.read result shift (Varint.write value ++ rest) = .ok (result ||| value <<< shift, rest) := by
  induction hn : value.toNat using Nat.strongRecOn generalizing value shift result with
  | ind n ih =>
    have hsplit := split_bits value shift
    have hnext : (value >>> 7).toNat = value.toNat / 2 ^ 7 := by
      rw [BitVec.toNat_ushiftRight, Nat.shiftRight_eq_div_pow]
    rw [Varint.write]
    split_ifs with hlast
    · have hlow : value.toNat < 2 ^ 7 := hlast
      have hzero : value >>> 7 = 0#w := by
        apply BitVec.eq_of_toNat_eq
        rw [hnext, Nat.div_eq_of_lt hlow]
        rfl
      rw [hzero, BitVec.zero_shiftLeft, BitVec.or_zero] at hsplit
      rw [List.singleton_append, Varint.read, if_pos (last_byte_ends _), BitVec.and_assoc,
        BitVec.and_self, hsplit]
    · have hpow : 2 ^ (shift + 7) = 2 ^ shift * 2 ^ 7 := Nat.pow_add 2 shift 7
      have hfits : (value >>> 7).toNat * 2 ^ (shift + 7) < 2 ^ w := by
        calc (value >>> 7).toNat * 2 ^ (shift + 7)
            = value.toNat / 2 ^ 7 * 2 ^ 7 * 2 ^ shift := by
              rw [hnext, hpow, Nat.mul_comm (2 ^ shift), Nat.mul_assoc]
          _ ≤ value.toNat * 2 ^ shift := Nat.mul_le_mul_right _ (Nat.div_mul_le_self _ _)
          _ < 2 ^ w := h
      have hroom : shift + 7 < w := by
        apply (Nat.pow_lt_pow_iff_right (by omega : 1 < 2)).mp
        calc 2 ^ (shift + 7) = 2 ^ 7 * 2 ^ shift := by rw [hpow, Nat.mul_comm]
          _ ≤ value.toNat * 2 ^ shift := Nat.mul_le_mul_right _ (by omega)
          _ < 2 ^ w := h
      have hless : (value >>> 7).toNat < n := by omega
      rw [List.cons_append, Varint.read, if_neg (marked_byte_continues _), if_neg (by omega),
        marked_byte_bits, ih _ hless _ hfits rfl, BitVec.or_assoc, hsplit]

/-- At shift zero every value fits. -/
theorem Varint.read_write_zero (value : BitVec w) (rest : List (BitVec 8)) :
    Varint.read 0 0 (Varint.write value ++ rest) = .ok (value, rest) := by
  have hfits : value.toNat * 2 ^ 0 < 2 ^ w := by simpa using value.isLt
  rw [Varint.read_write 0 rest hfits, BitVec.shiftLeft_zero]
  simp

theorem length_toLeBytes (n : Nat) (value : BitVec w) : (toLeBytes n value).length = n := by
  induction n generalizing value with
  | zero => rfl
  | succ n ih => rw [toLeBytes, List.length_cons, ih]

theorem fromLeBytes_toLeBytes {n : Nat} {value : BitVec w} (h : value.toNat < 2 ^ (8 * n)) :
    fromLeBytes w (toLeBytes n value) = value := by
  induction n generalizing value with
  | zero =>
    apply BitVec.eq_of_toNat_eq
    simp [toLeBytes, fromLeBytes]
    omega
  | succ n ih =>
    have hrest : (value >>> 8).toNat < 2 ^ (8 * n) := by
      rw [BitVec.toNat_ushiftRight, Nat.shiftRight_eq_div_pow]
      apply Nat.div_lt_of_lt_mul
      rw [← Nat.pow_add, Nat.add_comm]
      exact h
    rw [toLeBytes, fromLeBytes, ih hrest]
    apply BitVec.eq_of_getLsbD_eq
    intro i hi
    simp only [BitVec.getLsbD_or, BitVec.getLsbD_shiftLeft, BitVec.getLsbD_setWidth,
      BitVec.getLsbD_ushiftRight]
    by_cases hlow : i < 8
    · simp [hlow, hi]
    · have hindex : 8 + (i - 8) = i := by omega
      simp [hlow, hi, hindex]

end Gail.Library
