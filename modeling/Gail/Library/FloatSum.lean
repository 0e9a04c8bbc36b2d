import Gail.Library.FloatOrder

/-! Rounding does not bring a sum of positive doubles below the first of them, nor make NaN of an integer or of a
quotient of finite numbers. -/
namespace Gail.Library.FloatOrder
open Float.Model Float.Model.UnpackedFloat

section Packing
variable {S : Float.Model.Format} {m : Nat} {e : ℤ}

/-- The mantissa and the exponent of a finite value of a format. -/
structure Canonical (S : Float.Model.Format) (m : Nat) (e : ℤ) : Prop where
  pos : 0 < m
  upper : m < 2 ^ S.mantissaBits
  least : S.minExponent ≤ e
  normal : 2 ^ S.mantissaBitsWithoutImplicit ≤ m ∨ e = S.minExponent

theorem two_pow_mantissaBits : 2 ^ S.mantissaBits = 2 * 2 ^ S.mantissaBitsWithoutImplicit := by
  rw [Format.mantissaBits, pow_add, pow_one]

theorem two_pow_exponentBits : 2 ^ S.exponentBits = 2 * S.exponentBias + 2 := by
  have hbits : S.exponentBits = S.exponentBits - 1 + 1 := (Nat.sub_add_cancel S.he).symm
  have hpos : 0 < 2 ^ (S.exponentBits - 1) := Nat.two_pow_pos _
  rw [hbits, pow_succ, Format.exponentBias]
  omega

theorem minExponent_eq : S.minExponent = 1 - ((S.exponentBias : ℤ) + S.mantissaBitsWithoutImplicit) := by
  have hpos : 0 < 2 ^ (S.exponentBits - 1) := Nat.two_pow_pos _
  have hcast : ((2 ^ (S.exponentBits - 1) : Nat) : ℤ) = 2 ^ (S.exponentBits - 1) := by push_cast; rfl
  unfold Format.minExponent Format.exponentBias Format.mantissaBits
  omega

theorem sign_packComponents {s : Sign} {exponent : BitVec S.exponentBits}
    {mantissa : BitVec S.mantissaBitsWithoutImplicit} :
    Sign.ofBitVec (unpackSign (packComponents S s exponent mantissa)) = s := by
  have hbit : unpackSign (packComponents S s exponent mantissa) = s.toBitVec := by
    ext i hi
    obtain rfl : i = 0 := by omega
    simp [unpackSign, packComponents, BitVec.getLsbD_append, BitVec.getElem_append]
  rw [hbit]
  cases s <;> rfl

theorem ofNat_ne_allOnes {w k : Nat} (h : k + 1 < 2 ^ w) : BitVec.ofNat w k ≠ -1#w := by
  intro heq
  have hnat := congrArg BitVec.toNat heq
  rw [BitVec.toNat_ofNat, Nat.mod_eq_of_lt (by omega), BitVec.neg_one_eq_allOnes, BitVec.toNat_allOnes] at hnat
  omega

theorem ofNat_ne_zero {w k : Nat} (hpos : 0 < k) (h : k < 2 ^ w) : BitVec.ofNat w k ≠ 0#w := by
  intro heq
  have hnat := congrArg BitVec.toNat heq
  rw [BitVec.toNat_ofNat, Nat.mod_eq_of_lt h, BitVec.toNat_zero] at hnat
  omega

theorem toNat_lead {w k : Nat} (hlow : 2 ^ w ≤ k) (hhigh : k < 2 * 2 ^ w) :
    (1#1 ++ BitVec.ofNat w k).toNat = k := by
  have hdiv : k / 2 ^ w = 1 := Nat.div_eq_of_lt_le (by omega) (by omega)
  have hmod := Nat.mod_add_div k (2 ^ w)
  rw [BitVec.toNat_append, ← Nat.shiftLeft_add_eq_or_of_lt (BitVec.isLt _), BitVec.toNat_ofNat,
    BitVec.toNat_ofNat, pow_one, Nat.one_mod, Nat.one_shiftLeft]
  rw [hdiv] at hmod
  omega

theorem unpack_packedInfinity {s : Sign} : UnpackedFloat.unpack S (packedInfinity S s) = .infinity s := by
  unfold UnpackedFloat.unpack packedInfinity
  simp only [unpackExponent_packComponents, unpackMantissa_packComponents, sign_packComponents, if_true]
  rfl

theorem unpack_packedZero {s : Sign} : UnpackedFloat.unpack S (packedZero S s) = .zero s := by
  have hordinary : (0#S.exponentBits) ≠ -1#S.exponentBits := ofNat_ne_allOnes (Nat.one_lt_two_pow S.he.ne')
  unfold UnpackedFloat.unpack packedZero
  simp only [unpackExponent_packComponents, unpackMantissa_packComponents, sign_packComponents, BitVec.ofNat_eq_ofNat,
    hordinary, if_false, if_true, dite_true]

/-- A canonical value is packed as it is, or as infinity if it is too large. -/
theorem unpack_pack {s : Sign} (h : Canonical S m e) :
    UnpackedFloat.unpack S (UnpackedFloat.pack S (.finite s m e h.pos)) =
      if (S.exponentBias : ℤ) < e + S.mantissaBitsWithoutImplicit then .infinity s
      else .finite s m e h.pos := by
  obtain ⟨hpos, hupper, hleast, hnormal⟩ := h
  have hcapacity := two_pow_exponentBits (S := S)
  rw [minExponent_eq] at hleast hnormal
  set biased := (e + S.exponentBias + S.mantissaBitsWithoutImplicit).toNat with hbiased
  have hcast : (biased : ℤ) = e + S.exponentBias + S.mantissaBitsWithoutImplicit := Int.toNat_of_nonneg (by omega)
  unfold UnpackedFloat.pack
  dsimp only
  rw [← hbiased]
  by_cases hlarge : (S.exponentBias : ℤ) < e + S.mantissaBitsWithoutImplicit
  · rw [if_pos (by omega), if_pos hlarge]
    exact unpack_packedInfinity
  · rw [if_neg (by omega), if_neg hlarge]
    by_cases hlead : 2 ^ S.mantissaBitsWithoutImplicit ≤ m
    · have hlog : m.log2 + 1 = S.mantissaBits := by
        have hlow := (Nat.le_log2 hpos.ne').mpr hlead
        have hhigh := (Nat.log2_lt hpos.ne').mpr hupper
        unfold Format.mantissaBits at hhigh ⊢
        omega
      rw [two_pow_mantissaBits] at hupper
      rw [if_pos hlog]
      unfold UnpackedFloat.unpack
      simp only [unpackExponent_packComponents, unpackMantissa_packComponents, sign_packComponents,
        ofNat_ne_allOnes (show biased + 1 < 2 ^ S.exponentBits by omega),
        ofNat_ne_zero (show 0 < biased by omega) (show biased < 2 ^ S.exponentBits by omega),
        toNat_lead hlead hupper, if_false, BitVec.toNat_ofNat,
        Nat.mod_eq_of_lt (show biased < 2 ^ S.exponentBits by omega)]
      congr 1
      omega
    · have hlog : ¬ m.log2 + 1 = S.mantissaBits := by
        have hhigh := (Nat.log2_lt hpos.ne').mpr (not_le.mp hlead)
        unfold Format.mantissaBits
        omega
      have hexponent := hnormal.resolve_left hlead
      have hzero : (0#S.exponentBits) ≠ -1#S.exponentBits :=
        ofNat_ne_allOnes (show 0 + 1 < 2 ^ S.exponentBits by omega)
      rw [if_neg hlog]
      unfold UnpackedFloat.unpack
      simp only [unpackExponent_packComponents, unpackMantissa_packComponents, sign_packComponents, hzero, if_false,
        if_true, ofNat_ne_zero hpos (not_le.mp hlead), BitVec.toNat_ofNat, Nat.mod_eq_of_lt (not_le.mp hlead),
        dite_false]
      congr 1
      simp
      omega

theorem canonical_unpack {bits : BitVec S.numBits} {s : Sign} {hm : 0 < m}
    (h : UnpackedFloat.unpack S bits = .finite s m e hm) : Canonical S m e := by
  have hmantissa := (unpackMantissa bits).isLt
  unfold UnpackedFloat.unpack at h
  dsimp only at h
  split_ifs at h with hspecial hinfinite hsmall hzero
  · injection h with _ hmant hexp
    rw [hsmall, BitVec.toNat_zero] at hexp
    refine ⟨hm, ?_, ?_, .inr ?_⟩
    · rw [two_pow_mantissaBits]
      omega
    all_goals
      rw [minExponent_eq]
      omega
  · injection h with _ hmant hexp
    rw [BitVec.toNat_append, ← Nat.shiftLeft_add_eq_or_of_lt hmantissa, BitVec.toNat_ofNat, pow_one, Nat.one_mod,
      Nat.one_shiftLeft] at hmant
    have hexponent : 0 < (unpackExponent bits).toNat := by
      rw [Nat.pos_iff_ne_zero]
      exact fun hz => hsmall (BitVec.eq_of_toNat_eq hz)
    refine ⟨hm, ?_, ?_, .inl (by omega)⟩
    · rw [two_pow_mantissaBits]
      omega
    · rw [minExponent_eq]
      omega

/-- What was packed is not too large to be packed. -/
theorem exponent_unpack {bits : BitVec S.numBits} {s : Sign} {hm : 0 < m} (hbias : 0 < S.exponentBias)
    (h : UnpackedFloat.unpack S bits = .finite s m e hm) :
    e + S.mantissaBitsWithoutImplicit ≤ S.exponentBias := by
  have hexponent := (unpackExponent bits).isLt
  have hcapacity := two_pow_exponentBits (S := S)
  unfold UnpackedFloat.unpack at h
  dsimp only at h
  split_ifs at h with hspecial hinfinite hsmall hzero
  · injection h with _ _ hexp
    rw [hsmall, BitVec.toNat_zero] at hexp
    omega
  · injection h with _ _ hexp
    have hordinary : (unpackExponent bits).toNat ≠ 2 ^ S.exponentBits - 1 := by
      rw [← BitVec.toNat_allOnes, ← BitVec.neg_one_eq_allOnes]
      exact fun heq => hspecial (BitVec.eq_of_toNat_eq heq)
    omega

end Packing

section Rounding
variable {S : Float.Model.Format} {m : Nat} {e : ℤ}

theorem mantissa_shiftRight (extended : ExtendedMantissa) (k : Nat) :
    (extended >>> k).mantissa = extended.mantissa / 2 ^ k := by
  induction k with
  | zero => exact (Nat.div_one _).symm
  | succ k ih =>
    change (extended >>> k).mantissa / 2 = _
    rw [ih, Nat.div_div_eq_div_mul, pow_succ]

theorem roundedMantissa_mem (extended : ExtendedMantissa) :
    extended.mantissa ≤ extended.roundedMantissa ∧ extended.roundedMantissa ≤ extended.mantissa + 1 := by
  obtain ⟨mantissa, roundBit, stickyBit⟩ := extended
  cases roundBit <;> cases stickyBit <;>
    simp only [ExtendedMantissa.roundedMantissa, ExtendedMantissa.accuracy, Accuracy.roundToNearestEven] <;> omega

/-- A mantissa that fits is not shifted, and one that has just overflowed is halved. -/
theorem shiftToTargetExponent_fits (hleast : S.minExponent ≤ e) (h : m < 2 ^ S.mantissaBits) :
    (shiftToTargetExponent S m e .exact).1.mantissa = m ∧ (shiftToTargetExponent S m e .exact).2 = e := by
  have hlog : m.log2 < S.mantissaBits := by
    rcases Nat.eq_zero_or_pos m with rfl | hpos
    · rw [Nat.log2_zero, Format.mantissaBits]
      omega
    · exact (Nat.log2_lt hpos.ne').mpr h
  have hshift : (S.targetExponent (totalExponent m e) - e).toNat = 0 := by
    unfold Format.targetExponent totalExponent
    omega
  unfold shiftToTargetExponent shiftToExponent
  simp only [hshift, mantissa_shiftRight]
  exact ⟨Nat.div_one m, by omega⟩

theorem shiftToTargetExponent_overflows (hleast : S.minExponent ≤ e) :
    (shiftToTargetExponent S (2 ^ S.mantissaBits) e .exact).1.mantissa = 2 ^ S.mantissaBitsWithoutImplicit ∧
      (shiftToTargetExponent S (2 ^ S.mantissaBits) e .exact).2 = e + 1 := by
  have hshift : (S.targetExponent (totalExponent (2 ^ S.mantissaBits) e) - e).toNat = 1 := by
    unfold Format.targetExponent totalExponent
    rw [Nat.log2_two_pow]
    omega
  unfold shiftToTargetExponent shiftToExponent
  simp only [hshift, mantissa_shiftRight]
  refine ⟨?_, by omega⟩
  change 2 ^ S.mantissaBits / 2 ^ 1 = _
  rw [two_pow_mantissaBits, pow_one, Nat.mul_div_cancel_left _ Nat.two_pos]

/-- A mantissa whose digits past the width are zeros is kept. -/
theorem shiftRight_exact (c k : Nat) : (⟨c * 2 ^ k, false, false⟩ : ExtendedMantissa) >>> k = ⟨c, false, false⟩ := by
  induction k generalizing c with
  | zero => rw [pow_zero, Nat.mul_one]; rfl
  | succ k ih =>
    have hdouble : c * 2 ^ (k + 1) = (2 * c) * 2 ^ k := by rw [pow_succ]; ring
    rw [hdouble]
    change ((⟨2 * c * 2 ^ k, false, false⟩ : ExtendedMantissa) >>> k).shiftRightOne = _
    rw [ih]
    simp [ExtendedMantissa.shiftRightOne]

/-- A mantissa is not rounded above one of the width that it does not exceed. -/
theorem roundedMantissa_le {c k : Nat} (h : m ≤ c * 2 ^ k) :
    ((⟨m, false, false⟩ : ExtendedMantissa) >>> k).roundedMantissa ≤ c := by
  obtain ⟨-, hraised⟩ := roundedMantissa_mem ((⟨m, false, false⟩ : ExtendedMantissa) >>> k)
  rw [mantissa_shiftRight] at hraised
  rcases (Nat.div_le_of_le_mul (Nat.mul_comm c _ ▸ h)).lt_or_eq with hlt | heq
  · exact hraised.trans hlt
  · have hexact : m = c * 2 ^ k := h.antisymm (heq ▸ Nat.div_mul_le_self m _)
    rw [hexact, shiftRight_exact]
    exact le_rfl

theorem roundWithAccuracy_eq {s : Sign} {q : Nat} {t : ℤ} (hq : 0 < q)
    (h : (shiftToTargetExponent S (shiftToTargetExponent S m e .exact).1.roundedMantissa
      (shiftToTargetExponent S m e .exact).2 .exact).1.mantissa = q ∧
      (shiftToTargetExponent S (shiftToTargetExponent S m e .exact).1.roundedMantissa
        (shiftToTargetExponent S m e .exact).2 .exact).2 = t) :
    roundWithAccuracy S s m e .exact = .finite s q t hq := by
  obtain ⟨rfl, rfl⟩ := h
  exact dif_neg hq.ne'

/-- Where a positive value is rounded: its mantissa is cut to the width of the format, and then kept or
increased by one. -/
theorem shiftToTargetExponent_cut (he : e ≤ S.targetExponent (totalExponent m e)) :
    let k := (S.targetExponent (totalExponent m e) - e).toNat
    (shiftToTargetExponent S m e .exact).1.mantissa = m / 2 ^ k ∧
      (shiftToTargetExponent S m e .exact).2 = S.targetExponent (totalExponent m e) ∧
      m / 2 ^ k < 2 ^ S.mantissaBits := by
  intro k
  refine ⟨mantissa_shiftRight _ k, ?_, ?_⟩
  · change e + (k : ℤ) = _
    omega
  · have hwidth : m.log2 + 1 ≤ S.mantissaBits + k := by
      have htarget : (m.log2 : ℤ) + 1 + e - S.mantissaBits ≤ S.targetExponent (totalExponent m e) := le_max_left _ _
      omega
    rw [Nat.div_lt_iff_lt_mul (Nat.two_pow_pos k), ← pow_add]
    exact Nat.lt_log2_self.trans_le (Nat.pow_le_pow_right Nat.two_pos hwidth)

/-- Where one canonical value is not above another. -/
def NotAbove (q : Nat) (t : ℤ) (m : Nat) (e : ℤ) : Prop := t < e ∨ t = e ∧ q ≤ m

theorem mantissaBits_cast : (S.mantissaBits : ℤ) = 1 + S.mantissaBitsWithoutImplicit := by
  rw [Format.mantissaBits]
  push_cast
  rfl

/-- Above the least exponent the target is where the digits fill the width. -/
theorem targetExponent_eq (h : S.targetExponent (totalExponent m e) ≠ S.minExponent) :
    S.targetExponent (totalExponent m e) = (m.log2 : ℤ) + 1 + e - S.mantissaBits :=
  (max_choice ((m.log2 : ℤ) + 1 + e - S.mantissaBits) S.minExponent).resolve_right h

/-- A canonical value does not reach further than what is not below it. -/
theorem le_targetExponent {c : Nat} {x : ℤ} (hm : 0 < m) (hc : Canonical S c x) (hx : e ≤ x)
    (hle : c * 2 ^ (x - e).toNat ≤ m) : x ≤ S.targetExponent (totalExponent m e) := by
  have hwidth : (m.log2 : ℤ) + 1 + e - S.mantissaBits ≤ S.targetExponent (totalExponent m e) := le_max_left _ _
  have hbits := mantissaBits_cast (S := S)
  rcases hc.normal with hnormal | rfl
  · have hpower : 2 ^ (S.mantissaBitsWithoutImplicit + (x - e).toNat) ≤ m := by
      rw [pow_add]
      exact (Nat.mul_le_mul_right _ hnormal).trans hle
    have hlog := (Nat.le_log2 hm.ne').mpr hpower
    omega
  · exact le_max_right _ _

theorem targetExponent_le {c : Nat} {x : ℤ} (hm : 0 < m) (hc : Canonical S c x) (hx : e ≤ x)
    (hle : m ≤ c * 2 ^ (x - e).toNat) : S.targetExponent (totalExponent m e) ≤ x := by
  by_cases h : S.targetExponent (totalExponent m e) = S.minExponent
  · exact h ▸ hc.least
  · have hpower : m < 2 ^ (S.mantissaBits + (x - e).toNat) := by
      rw [pow_add]
      exact hle.trans_lt (Nat.mul_lt_mul_of_pos_right hc.upper (Nat.two_pow_pos _))
    have hlog := (Nat.log2_lt hm.ne').mpr hpower
    have := targetExponent_eq h
    omega

/-- What is left of the mantissa fills the width, unless the exponent is the least. -/
theorem normal_cut (hm : 0 < m) (he : e ≤ S.targetExponent (totalExponent m e)) :
    2 ^ S.mantissaBitsWithoutImplicit ≤ m / 2 ^ (S.targetExponent (totalExponent m e) - e).toNat ∨
      S.targetExponent (totalExponent m e) = S.minExponent := by
  refine (eq_or_ne _ S.minExponent).symm.imp_left fun h => ?_
  have hlog : S.mantissaBitsWithoutImplicit + (S.targetExponent (totalExponent m e) - e).toNat = m.log2 := by
    have := targetExponent_eq h
    have hbits := mantissaBits_cast (S := S)
    omega
  rw [Nat.le_div_iff_mul_le (Nat.two_pow_pos _), ← pow_add, hlog]
  exact Nat.log2_self_le hm.ne'

/-- A value that has no digits past those of its format, or too many, is cut so that it lies on the same side of all
canonical values. -/
theorem roundWithAccuracy_spec (s : Sign) (hm : 0 < m) (hleast : S.minExponent ≤ e)
    (he : e ≤ S.targetExponent (totalExponent m e)) :
    ∃ (q : Nat) (t : ℤ) (hq : Canonical S q t), roundWithAccuracy S s m e .exact = .finite s q t hq.pos ∧
      ∀ {c : Nat} {x : ℤ}, Canonical S c x → e ≤ x →
        (c * 2 ^ (x - e).toNat ≤ m → NotAbove c x q t) ∧ (m ≤ c * 2 ^ (x - e).toNat → NotAbove q t c x) := by
  have hlead := normal_cut hm he
  have hfar {c : Nat} {x : ℤ} := le_targetExponent (S := S) (c := c) (x := x) (e := e) hm
  have hnear {c : Nat} {x : ℤ} := targetExponent_le (S := S) (c := c) (x := x) (e := e) hm
  obtain ⟨hcut, hexponent, hfits⟩ := shiftToTargetExponent_cut he
  set target := S.targetExponent (totalExponent m e)
  have hfloor : S.minExponent ≤ target := le_max_right _ _
  set k := (target - e).toNat
  obtain ⟨hkept, hraised⟩ := roundedMantissa_mem (shiftToTargetExponent S m e .exact).1
  rw [hcut] at hkept hraised
  have hceiling {c : Nat} : m ≤ c * 2 ^ k → (shiftToTargetExponent S m e .exact).1.roundedMantissa ≤ c :=
    roundedMantissa_le
  set rounded := (shiftToTargetExponent S m e .exact).1.roundedMantissa with hrounded
  have hroundedpos : 0 < rounded := by
    rcases hlead with h | h
    · exact (Nat.two_pow_pos _).trans_le (h.trans hkept)
    · have hnone : k = 0 := by omega
      rw [hnone, pow_zero, Nat.div_one] at hkept
      exact hm.trans_le hkept
  have hbelow {c : Nat} {x : ℤ} (hc : Canonical S c x) (hx : e ≤ x) (hle : c * 2 ^ (x - e).toNat ≤ m) :
      x < target ∨ x = target ∧ c ≤ m / 2 ^ k := by
    rcases (hfar hc hx hle).lt_or_eq with hlt | heq
    · exact .inl hlt
    · rw [heq] at hle
      exact .inr ⟨heq, (Nat.le_div_iff_mul_le (Nat.two_pow_pos k)).mpr hle⟩
  have habove {c : Nat} {x : ℤ} (hc : Canonical S c x) (hx : e ≤ x) (hle : m ≤ c * 2 ^ (x - e).toNat) :
      target < x ∧ 2 ^ S.mantissaBitsWithoutImplicit ≤ c ∨ target = x ∧ rounded ≤ c := by
    rcases (hnear hc hx hle).lt_or_eq with hlt | heq
    · exact .inl ⟨hlt, hc.normal.resolve_right fun h => (hfloor.trans_lt hlt).ne' h⟩
    · rw [← heq] at hle
      exact .inr ⟨heq, hceiling hle⟩
  rcases (show rounded ≤ 2 ^ S.mantissaBits by omega).lt_or_eq with hlt | heq
  · have hsecond := shiftToTargetExponent_fits (e := target) hfloor hlt
    refine ⟨rounded, target, ⟨hroundedpos, hlt, hfloor, hlead.imp_left fun h => h.trans hkept⟩,
      roundWithAccuracy_eq hroundedpos ?_, fun hc hx => ⟨fun hle => ?_, fun hle => ?_⟩⟩
    · rw [hexponent]
      exact hsecond
    · exact (hbelow hc hx hle).imp_right fun ⟨h, h'⟩ => ⟨h, h'.trans hkept⟩
    · exact (habove hc hx hle).imp_left And.left
  · have hsecond := shiftToTargetExponent_overflows (S := S) (e := target) hfloor
    refine ⟨2 ^ S.mantissaBitsWithoutImplicit, target + 1,
      ⟨Nat.two_pow_pos _, Nat.pow_lt_pow_right (by decide) (by have := mantissaBits_cast (S := S); omega), by omega,
        .inl le_rfl⟩,
      roundWithAccuracy_eq (Nat.two_pow_pos _) ?_, fun hc hx => ⟨fun hle => ?_, fun hle => ?_⟩⟩
    · rw [← hrounded, heq, hexponent]
      exact hsecond
    · have := hbelow hc hx hle
      exact .inl (by omega)
    · rcases habove hc hx hle with ⟨hlt, hnormal⟩ | ⟨-, hle'⟩
      · exact (Int.add_one_le_iff.mpr hlt).lt_or_eq.imp_right fun h => ⟨h, hnormal⟩
      · exact absurd (heq ▸ hle') (Nat.not_le.mpr hc.upper)

theorem log2_mul_two_pow (hm : m ≠ 0) (k : Nat) : (m * 2 ^ k).log2 = m.log2 + k := by
  have hpos : 0 < 2 ^ k := Nat.two_pow_pos k
  rw [Nat.log2_eq_iff (Nat.mul_ne_zero hm hpos.ne')]
  constructor
  · rw [pow_add]
    exact Nat.mul_le_mul_right _ (Nat.log2_self_le hm)
  · rw [Nat.add_right_comm, pow_add]
    exact Nat.mul_lt_mul_of_pos_right Nat.lt_log2_self hpos

/-- A value is rounded to one that lies on the same side of all canonical values. -/
theorem round_spec (s : Sign) (hm : 0 < m) (hleast : S.minExponent ≤ e) :
    ∃ (q : Nat) (t : ℤ) (hq : Canonical S q t), UnpackedFloat.round S s m e = .finite s q t hq.pos ∧
      ∀ {c : Nat} {x : ℤ}, Canonical S c x → e ≤ x →
        (c * 2 ^ (x - e).toNat ≤ m → NotAbove c x q t) ∧ (m ≤ c * 2 ^ (x - e).toNat → NotAbove q t c x) := by
  set shift := (e - S.targetExponent (totalExponent m e)).toNat with hshift
  have hpos : 0 < m * 2 ^ shift := Nat.mul_pos hm (Nat.two_pow_pos _)
  have htotal : totalExponent (m * 2 ^ shift) (e - shift) = totalExponent m e := by
    unfold totalExponent
    rw [log2_mul_two_pow hm.ne']
    push_cast
    ring
  have hfloor : S.minExponent ≤ S.targetExponent (totalExponent m e) := le_max_right _ _
  obtain ⟨q, t, hq, hround, hsides⟩ := roundWithAccuracy_spec (S := S) (e := e - shift) s hpos (by omega)
    (by rw [htotal]; omega)
  have hsame : UnpackedFloat.round S s m e = roundWithAccuracy S s (m * 2 ^ shift) (e - shift) .exact := by
    unfold UnpackedFloat.round decreaseExponent
    simp only [← hshift, Nat.shiftLeft_eq]
  refine ⟨q, t, hq, hsame.trans hround, fun {c x} hc hx => ?_⟩
  have hexponent : (x - (e - shift)).toNat = (x - e).toNat + shift := by omega
  have hscaled := hsides hc (show e - shift ≤ x by omega)
  rw [hexponent, pow_add, ← Nat.mul_assoc] at hscaled
  exact ⟨fun h => hscaled.1 (Nat.mul_le_mul_right _ h), fun h => hscaled.2 (Nat.mul_le_mul_right _ h)⟩

end Rounding

section Sums
variable {S : Float.Model.Format} {m n : Nat} {e f : ℤ} {hm : 0 < m} {hn : 0 < n}

theorem add_finite : UnpackedFloat.add S (.finite .positive m e hm) (.finite .positive n f hn) =
    UnpackedFloat.round S .positive (m * 2 ^ (e - min e f).toNat + n * 2 ^ (f - min e f).toNat) (min e f) := by
  have hpos : 0 < m * 2 ^ (e - min e f).toNat + n * 2 ^ (f - min e f).toNat :=
    Nat.add_pos_left (Nat.mul_pos hm (Nat.two_pow_pos _)) _
  unfold UnpackedFloat.add decreaseExponent
  simp only [Nat.shiftLeft_eq, Sign.apply]
  unfold UnpackedFloat.normalize
  rw [← Nat.cast_add, Int.compare_eq_gt.mpr (by exact_mod_cast hpos)]
  rfl

theorem unpack_add (a b : Float) : (a + b).toModel.unpack = UnpackedFloat.unpack Format.binary64
    (UnpackedFloat.pack Format.binary64
      (UnpackedFloat.add Format.binary64 a.toModel.unpack b.toModel.unpack)) := rfl

/-- What NaN is added to becomes NaN. -/
theorem number_of_add {a b : Float} (h : a + b ≤ a + b) : a ≤ a := by
  rw [number_iff] at h ⊢
  intro ha
  have hadd : UnpackedFloat.add Format.binary64 .notANumber b.toModel.unpack = .notANumber := by
    cases b.toModel.unpack <;> rfl
  apply h
  rw [unpack_add, ha, hadd]
  rfl

theorem number_of_add_right {a b : Float} (h : a + b ≤ a + b) : b ≤ b := by
  rw [number_iff] at h ⊢
  intro hb
  have hadd : UnpackedFloat.add Format.binary64 a.toModel.unpack .notANumber = .notANumber := by
    cases a.toModel.unpack <;> rfl
  apply h
  rw [unpack_add, hb, hadd]
  rfl

/-- Where a positive double stands. -/
theorem rank_positive {a : Float} (h : 0 < a) : a.toModel.unpack = .infinity .positive ∨
    ∃ (m : Nat) (e : ℤ) (hm : Canonical Format.binary64 m e), a.toModel.unpack = .finite .positive m e hm.pos := by
  obtain ⟨x, y, hx, hy, hlt⟩ := lt_iff.mp h
  have hzero : rankOf 0 = some (toLex (0, toLex (0, 0))) := rfl
  rw [hzero] at hx
  obtain rfl := Option.some.inj hx
  have hbelow : ∀ (kind : ℤ) (place : ℤ ×ₗ ℤ), kind < 0 → y ≠ toLex (kind, place) := by
    rintro kind place hkind rfl
    exact absurd hlt (Prod.Lex.toLex_lt_toLex.mpr (.inl hkind)).not_gt
  unfold rankOf at hy
  cases hunpacked : a.toModel.unpack with
  | notANumber =>
    rw [hunpacked] at hy
    cases hy
  | infinity sign =>
    cases sign with
    | positive => exact .inl rfl
    | negative =>
      rw [hunpacked] at hy
      exact absurd (Option.some.inj hy).symm (hbelow _ _ (by decide))
  | zero sign =>
    rw [hunpacked] at hy
    exact absurd (Option.some.inj hy) hlt.ne
  | finite sign m e hm =>
    cases sign with
    | positive => exact .inr ⟨m, e, canonical_unpack hunpacked, rfl⟩
    | negative =>
      rw [hunpacked] at hy
      exact absurd (Option.some.inj hy).symm (hbelow _ _ (by decide))

theorem add_finite_negative : UnpackedFloat.add S (.finite .negative m e hm) (.finite .positive n f hn) =
    UnpackedFloat.normalize S (-(m * 2 ^ (e - min e f).toNat : Nat) + (n * 2 ^ (f - min e f).toNat : Nat)) (min e f)
      .positive := by
  unfold UnpackedFloat.add decreaseExponent
  simp only [Nat.shiftLeft_eq, Sign.apply]

/-- A packed value stands at a place or after it. -/
def PacksFrom (S : Float.Model.Format) (x : UnpackedFloat) (place : ℤ ×ₗ ℤ ×ₗ ℤ) : Prop :=
  ∃ bound, rank (UnpackedFloat.unpack S (UnpackedFloat.pack S x)) = some bound ∧ place ≤ bound

theorem packsFrom_infinity {s : Sign} {place bound : ℤ ×ₗ ℤ ×ₗ ℤ} (hbound : rank (.infinity s) = some bound)
    (hle : place ≤ bound) : PacksFrom S (.infinity s) place :=
  ⟨bound, (congrArg rank unpack_packedInfinity).trans hbound, hle⟩

/-- What is packed of a positive value is above all values that are not. -/
theorem packsFrom_positive (hm : Canonical S m e) {kind : ℤ} {within : ℤ ×ₗ ℤ} (hkind : kind < 1) :
    PacksFrom S (.finite .positive m e hm.pos) (toLex (kind, within)) := by
  unfold PacksFrom
  rw [unpack_pack hm]
  split_ifs
  · exact ⟨_, rfl, Prod.Lex.toLex_le_toLex.mpr (.inl (hkind.trans one_lt_two))⟩
  · exact ⟨_, rfl, Prod.Lex.toLex_le_toLex.mpr (.inl hkind)⟩

theorem packsFrom_sum (hm : Canonical S m e) (hn : Canonical S n f) :
    PacksFrom S (UnpackedFloat.add S (.finite .positive m e hm.pos) (.finite .positive n f hn.pos))
      (toLex (1, toLex (e, (m : ℤ)))) := by
  obtain ⟨q, t, hq, hround, hsides⟩ := round_spec (S := S) (e := min e f) .positive
    (Nat.add_pos_left (Nat.mul_pos hm.pos (Nat.two_pow_pos _)) _) (le_min hm.least hn.least)
  have habove := (hsides hm (min_le_left _ _)).1
    (Nat.le_add_right (m * 2 ^ (e - min e f).toNat) (n * 2 ^ (f - min e f).toNat))
  unfold PacksFrom
  rw [add_finite, hround, unpack_pack hq]
  split_ifs with hlarge
  · exact ⟨_, rfl, Prod.Lex.toLex_le_toLex.mpr (.inl one_lt_two)⟩
  · refine ⟨_, rfl, Prod.Lex.toLex_le_toLex.mpr (.inr ⟨rfl, Prod.Lex.toLex_le_toLex.mpr ?_⟩)⟩
    exact habove.imp_right fun ⟨h, h'⟩ => ⟨h, Int.ofNat_le.mpr h'⟩

/-- A negative value that something is added to comes nearer to zero, or passes it. -/
theorem packsFrom_difference (hm : Canonical S m e) (hsmall : e + S.mantissaBitsWithoutImplicit ≤ S.exponentBias)
    (hn : Canonical S n f) :
    PacksFrom S (UnpackedFloat.add S (.finite .negative m e hm.pos) (.finite .positive n f hn.pos))
      (toLex (-1, toLex (-e, -(m : ℤ)))) := by
  have hleast : S.minExponent ≤ min e f := le_min hm.least hn.least
  rw [add_finite_negative]
  unfold UnpackedFloat.normalize
  set minuend := n * 2 ^ (f - min e f).toNat
  set subtrahend := m * 2 ^ (e - min e f).toNat
  rcases lt_trichotomy subtrahend minuend with hlt | heq | hgt
  · rw [Int.compare_eq_gt.mpr (by omega)]
    obtain ⟨q, t, hq, hround, -⟩ := round_spec (S := S) .positive
      (show 0 < (-(subtrahend : ℤ) + minuend).toNat by omega) hleast
    dsimp only
    rw [hround]
    exact packsFrom_positive hq (show (-1 : ℤ) < 1 by decide)
  · rw [Int.compare_eq_eq.mpr (by omega)]
    exact ⟨toLex (0, toLex (0, 0)), congrArg rank unpack_packedZero,
      Prod.Lex.toLex_le_toLex.mpr (.inl (show (-1 : ℤ) < 0 by decide))⟩
  · rw [Int.compare_eq_lt.mpr (by omega)]
    obtain ⟨q, t, hq, hround, hsides⟩ := round_spec (S := S) .negative
      (show 0 < (-(-(subtrahend : ℤ) + minuend)).toNat by omega) hleast
    have hbelow := (hsides hm (min_le_left _ _)).2 (by omega)
    dsimp only
    unfold PacksFrom
    rw [hround, unpack_pack hq, if_neg]
    · refine ⟨_, rfl, Prod.Lex.toLex_le_toLex.mpr (.inr ⟨rfl, Prod.Lex.toLex_le_toLex.mpr ?_⟩)⟩
      rcases hbelow with hlt | ⟨heq, hle⟩
      · exact .inl (neg_lt_neg hlt)
      · exact .inr ⟨by rw [heq], neg_le_neg (Int.ofNat_le.mpr hle)⟩
    · rcases hbelow with hlt | ⟨heq, -⟩ <;> omega

/-- Where two doubles stand decides where their sum stands. -/
theorem le_add_of_packsFrom {a b : Float} {x y : UnpackedFloat} (ha : a.toModel.unpack = x)
    (hb : b.toModel.unpack = y) {place : ℤ ×ₗ ℤ ×ₗ ℤ} (hplace : rank x = some place)
    (h : PacksFrom Format.binary64 (UnpackedFloat.add Format.binary64 x y) place) : a ≤ a + b := by
  obtain ⟨bound, hbound, hle⟩ := h
  refine le_iff.mpr ⟨place, bound, (congrArg rank ha).trans hplace, ?_, hle⟩
  unfold rankOf
  rw [unpack_add, ha, hb, hbound]

/-- A sum of positive doubles is not below the first of them. -/
theorem le_add {a b : Float} (ha : 0 < a) (hb : 0 < b) : a ≤ a + b := by
  rcases rank_positive ha with ha | ⟨m, e, hm, ha⟩ <;> rcases rank_positive hb with hb | ⟨n, f, hn, hb⟩
  · exact le_add_of_packsFrom ha hb rfl (packsFrom_infinity rfl le_rfl)
  · exact le_add_of_packsFrom ha hb rfl (packsFrom_infinity rfl le_rfl)
  · exact le_add_of_packsFrom ha hb rfl (packsFrom_infinity rfl (Prod.Lex.toLex_le_toLex.mpr (.inl one_lt_two)))
  · exact le_add_of_packsFrom ha hb rfl (packsFrom_sum hm hn)

/-- A sum with a positive double is not below the other one unless it is NaN. -/
theorem le_add_or_isNaN {a b : Float} (hb : 0 < b) : a ≤ a + b ∨ ¬ a + b ≤ a + b := by
  cases ha : a.toModel.unpack with
  | notANumber => exact .inr fun h => number_iff.mp (number_of_add h) ha
  | infinity s =>
    rcases rank_positive hb with hb | ⟨n, f, hn, hb⟩
    · cases s with
      | positive => exact .inl (le_add_of_packsFrom ha hb rfl (packsFrom_infinity rfl le_rfl))
      | negative =>
        right
        rw [number_iff, unpack_add, ha, hb, not_not]
        rfl
    · cases s with
      | positive => exact .inl (le_add_of_packsFrom ha hb rfl (packsFrom_infinity rfl le_rfl))
      | negative => exact .inl (le_add_of_packsFrom ha hb rfl (packsFrom_infinity rfl le_rfl))
  | zero s =>
    left
    rcases rank_positive hb with hb | ⟨n, f, hn, hb⟩
    · exact le_add_of_packsFrom ha hb rfl (packsFrom_infinity rfl (Prod.Lex.toLex_le_toLex.mpr (.inl two_pos)))
    · exact le_add_of_packsFrom ha hb rfl (packsFrom_positive hn one_pos)
  | finite s m e hm =>
    have hcanonical : Canonical Format.binary64 m e := canonical_unpack ha
    left
    rcases rank_positive hb with hb | ⟨n, f, hn, hb⟩
    · cases s with
      | positive =>
        exact le_add_of_packsFrom ha hb rfl (packsFrom_infinity rfl (Prod.Lex.toLex_le_toLex.mpr (.inl one_lt_two)))
      | negative =>
        exact le_add_of_packsFrom ha hb rfl
          (packsFrom_infinity rfl (Prod.Lex.toLex_le_toLex.mpr (.inl (show (-1 : ℤ) < 2 by decide))))
    · cases s with
      | positive => exact le_add_of_packsFrom ha hb rfl (packsFrom_sum hcanonical hn)
      | negative =>
        exact le_add_of_packsFrom ha hb rfl (packsFrom_difference hcanonical (exponent_unpack (by decide) ha) hn)

/-- What is positive and not above a double is finite, and its exponent is not above that of the double. -/
theorem exponent_le {a c : Float} {k : Nat} {x : ℤ} {hk : 0 < k} (hc : c.toModel.unpack = .finite .positive k x hk)
    (ha : 0 < a) (hle : a ≤ c) : ∃ (m : Nat) (e : ℤ) (hm : Canonical Format.binary64 m e),
      a.toModel.unpack = .finite .positive m e hm.pos ∧ e ≤ x := by
  obtain ⟨place, bound, hplace, hbound, hwithin⟩ := le_iff.mp hle
  unfold rankOf at hplace hbound
  rw [hc] at hbound
  obtain rfl := Option.some.inj hbound
  rcases rank_positive ha with ha | ⟨m, e, hm, ha⟩
  · rw [ha] at hplace
    obtain rfl := Option.some.inj hplace
    rcases Prod.Lex.toLex_le_toLex.mp hwithin with h | ⟨h, -⟩
    · exact absurd h (show ¬(2 : ℤ) < 1 by decide)
    · exact absurd h (show (2 : ℤ) ≠ 1 by decide)
  · rw [ha] at hplace
    obtain rfl := Option.some.inj hplace
    refine ⟨m, e, hm, ha, ?_⟩
    rcases Prod.Lex.toLex_le_toLex.mp hwithin with h | ⟨-, h⟩
    · exact absurd h (lt_irrefl (1 : ℤ))
    · exact (Prod.Lex.toLex_le_toLex.mp h).elim le_of_lt fun h => h.1.le

/-- A sum of two doubles that are well below the largest is finite. -/
theorem add_lt_infinity {a b c : Float} {k : Nat} {x : ℤ} {hk : 0 < k}
    (hc : c.toModel.unpack = .finite .positive k x hk) (hx : x ≤ 969) (ha : 0 < a) (hac : a ≤ c) (hb : 0 < b)
    (hbc : b ≤ c) : ∃ place, rankOf (a + b) = some place ∧ place < toLex (2, toLex (0, 0)) := by
  obtain ⟨m, e, hm, ha, he⟩ := exponent_le hc ha hac
  obtain ⟨n, f, hn, hb, hf⟩ := exponent_le hc hb hbc
  have hlarge : Canonical Format.binary64 (2 ^ 52) 971 := ⟨by decide, by decide, by decide, .inl (by decide)⟩
  obtain ⟨q, t, hq, hround, hsides⟩ := round_spec (S := Format.binary64) (e := min e f) .positive
    (Nat.add_pos_left (Nat.mul_pos hm.pos (Nat.two_pow_pos _)) (n * 2 ^ (f - min e f).toNat)) (le_min hm.least hn.least)
  have hscaled {mantissa : Nat} {exponent : ℤ} (hcanonical : Canonical Format.binary64 mantissa exponent)
      (hleast : min e f ≤ exponent) (hexponent : exponent ≤ 969) :
      mantissa * 2 ^ (exponent - min e f).toNat ≤ 2 ^ 51 * 2 ^ (971 - min e f).toNat := by
    have hpower : (971 - min e f).toNat = 2 + (969 - exponent).toNat + (exponent - min e f).toNat := by omega
    have hone : 1 ≤ 2 ^ (969 - exponent).toNat := Nat.one_le_two_pow
    rw [hpower, pow_add, ← Nat.mul_assoc, pow_add]
    refine Nat.mul_le_mul_right _ (hcanonical.upper.le.trans ?_)
    change 2 ^ 51 * 2 ^ 2 ≤ _
    rw [← Nat.mul_assoc]
    exact Nat.le_mul_of_pos_right _ hone
  have hbelow := (hsides hlarge (by omega)).2 (by
    have hfirst := hscaled hm (min_le_left _ _) (he.trans hx)
    have hsecond := hscaled hn (min_le_right _ _) (hf.trans hx)
    calc _ ≤ 2 ^ 51 * 2 ^ (971 - min e f).toNat + 2 ^ 51 * 2 ^ (971 - min e f).toNat := add_le_add hfirst hsecond
      _ = 2 ^ 52 * 2 ^ (971 - min e f).toNat := by ring)
  refine ⟨toLex (1, toLex (t, (q : ℤ))), ?_, Prod.Lex.toLex_lt_toLex.mpr (.inl one_lt_two)⟩
  unfold rankOf
  rw [unpack_add, ha, hb, add_finite, hround, unpack_pack hq, if_neg]
  · rfl
  · have hbias : Format.binary64.exponentBias = 1023 := by decide
    have hwidth : Format.binary64.mantissaBitsWithoutImplicit = 52 := rfl
    rw [hbias, hwidth]
    rcases hbelow with hlt | ⟨heq, -⟩ <;> omega

end Sums

section Numbers
variable {S : Float.Model.Format} {x : UnpackedFloat}

/-- What is packed is not NaN afterwards unless it was before. -/
theorem unpack_pack_number (h : x ≠ .notANumber) :
    UnpackedFloat.unpack S (UnpackedFloat.pack S x) ≠ .notANumber := by
  have hinfinity (s : Sign) : UnpackedFloat.unpack S (packedInfinity S s) ≠ .notANumber := by
    unfold UnpackedFloat.unpack packedInfinity
    simp only [unpackExponent_packComponents, unpackMantissa_packComponents, if_true]
    exact UnpackedFloat.noConfusion
  have hcomponents (s : Sign) (exponent : BitVec S.exponentBits) (mantissa : BitVec S.mantissaBitsWithoutImplicit)
      (he : exponent ≠ -1#S.exponentBits) :
      UnpackedFloat.unpack S (packComponents S s exponent mantissa) ≠ .notANumber := by
    unfold UnpackedFloat.unpack
    simp only [unpackExponent_packComponents, unpackMantissa_packComponents, if_neg he]
    split_ifs <;> exact UnpackedFloat.noConfusion
  have hcapacity := two_pow_exponentBits (S := S)
  have hbias : 0 + 1 < 2 ^ S.exponentBits := by omega
  cases x with
  | notANumber => exact absurd rfl h
  | infinity s => exact hinfinity s
  | zero s => exact hcomponents s _ _ (ofNat_ne_allOnes hbias)
  | finite s m e hm =>
    unfold UnpackedFloat.pack
    dsimp only
    split_ifs with hlarge hlead
    · exact hinfinity s
    · exact hcomponents s _ _ (ofNat_ne_allOnes (by omega))
    · exact hcomponents s _ _ (ofNat_ne_allOnes hbias)

theorem roundWithAccuracy_number (s : Sign) (m : Nat) (e : ℤ) (accuracy : Accuracy) :
    roundWithAccuracy S s m e accuracy ≠ .notANumber := by
  unfold roundWithAccuracy
  dsimp only
  split_ifs <;> exact UnpackedFloat.noConfusion

theorem mul_number {s : Sign} {m : Nat} {e : ℤ} {hm : 0 < m} (h : x ≠ .notANumber) :
    UnpackedFloat.mul S x (.finite s m e hm) ≠ .notANumber := by
  cases x with
  | notANumber => exact absurd rfl h
  | infinity _ => exact UnpackedFloat.noConfusion
  | zero _ => exact UnpackedFloat.noConfusion
  | finite _ _ _ _ => exact roundWithAccuracy_number _ _ _ _

/-- An unsigned integer is converted to a number. -/
theorem number_ofNat (n : Nat) : Float.ofNat n ≤ Float.ofNat n := by
  rw [number_iff]
  change (Float.ofScientific n false 0).toModel.unpack ≠ _
  unfold Float.ofScientific
  by_cases hsmall : n < 2 ^ 53 ∧ 0 ≤ 22
  · have hinteger : n.toUInt64.toFloat.toModel.unpack ≠ .notANumber := by
      refine unpack_pack_number ?_
      unfold UnpackedFloat.ofUInt64 UnpackedFloat.ofNat UnpackedFloat.ofInt UnpackedFloat.normalize
      split
      · exact roundWithAccuracy_number _ _ _ _
      · exact UnpackedFloat.noConfusion
      · exact roundWithAccuracy_number _ _ _ _
    have hone : (Float.ofBits 0x3FF0000000000000).toModel.unpack =
        .finite .positive (2 ^ 52) (-52) (Nat.two_pow_pos 52) := rfl
    have hproduct : UnpackedFloat.unpack Format.binary64 (UnpackedFloat.pack Format.binary64
        (UnpackedFloat.mul Format.binary64 n.toUInt64.toFloat.toModel.unpack
          (Float.ofBits 0x3FF0000000000000).toModel.unpack)) ≠ .notANumber := by
      rw [hone]
      exact unpack_pack_number (mul_number hinteger)
    rw [dif_pos hsmall]
    exact hproduct
  · rw [dif_neg hsmall]
    change UnpackedFloat.unpack Format.binary64 (UnpackedFloat.pack Format.binary64
      (UnpackedFloat.ofScientific Format.binary64 n 0)) ≠ _
    refine unpack_pack_number ?_
    unfold UnpackedFloat.ofScientific
    split_ifs with _ _ _ hexponent
    · exact UnpackedFloat.noConfusion
    · exact UnpackedFloat.noConfusion
    · exact UnpackedFloat.noConfusion
    · exact mul_number UnpackedFloat.noConfusion
    · exact absurd (Int.le_refl 0) hexponent

theorem normalize_number (m e : ℤ) (s : Sign) : UnpackedFloat.normalize S m e s ≠ .notANumber := by
  unfold UnpackedFloat.normalize
  split
  · exact roundWithAccuracy_number _ _ _ _
  · exact UnpackedFloat.noConfusion
  · exact roundWithAccuracy_number _ _ _ _

theorem sub_number {y : UnpackedFloat} (hx : x.isFinite = true) (hy : y.isFinite = true) :
    UnpackedFloat.sub S x y ≠ .notANumber := by
  rcases x with _ | _ | s | ⟨s, m, e, hm⟩ <;> rcases y with _ | _ | t | ⟨t, n, f, hn⟩ <;>
    first
    | exact absurd hx Bool.false_ne_true
    | exact absurd hy Bool.false_ne_true
    | skip
  · unfold UnpackedFloat.sub
    dsimp only
    split_ifs <;> exact UnpackedFloat.noConfusion
  · exact UnpackedFloat.noConfusion
  · exact UnpackedFloat.noConfusion
  · exact normalize_number _ _ _

theorem div_number {s : Sign} {m : Nat} {e : ℤ} {hm : 0 < m} (h : x ≠ .notANumber) :
    UnpackedFloat.div S x (.finite s m e hm) ≠ .notANumber := by
  cases x with
  | notANumber => exact absurd rfl h
  | infinity _ => exact UnpackedFloat.noConfusion
  | zero _ => exact UnpackedFloat.noConfusion
  | finite _ _ _ _ => exact roundWithAccuracy_number _ _ _ _

theorem isFinite_eq (a : Float) : a.isFinite = a.toModel.unpack.isFinite := rfl

theorem number_of_isFinite {a : Float} (h : a.isFinite = true) : a ≤ a := by
  rw [isFinite_eq] at h
  rw [number_iff]
  intro hnot
  rw [hnot] at h
  cases h

/-- A finite number is still one when a mean is taken from it and a scale divides it. -/
theorem number_sub_div {value mean scale : Float} (hvalue : value.isFinite = true) (hmean : mean.isFinite = true)
    (hscale : scale.isFinite = true) (hpos : 0 < scale) : (value - mean) / scale ≤ (value - mean) / scale := by
  rw [number_iff]
  have hsub : (value - mean).toModel.unpack ≠ .notANumber := unpack_pack_number (sub_number hvalue hmean)
  have hdiv : ((value - mean) / scale).toModel.unpack = UnpackedFloat.unpack Format.binary64
      (UnpackedFloat.pack Format.binary64
        (UnpackedFloat.div Format.binary64 (value - mean).toModel.unpack scale.toModel.unpack)) := rfl
  rcases rank_positive hpos with hinfinity | ⟨m, e, hm, hfinite⟩
  · rw [isFinite_eq, hinfinity] at hscale
    cases hscale
  · rw [hdiv, hfinite]
    exact unpack_pack_number (div_number hsub)

theorem unpack_abs (a : Float) : a.abs.toModel.unpack =
    UnpackedFloat.unpack Format.binary64 (UnpackedFloat.pack Format.binary64 a.toModel.unpack.abs) := rfl

theorem number_abs {a : Float} (h : a ≤ a) : a.abs ≤ a.abs := by
  rw [number_iff] at h ⊢
  rw [unpack_abs]
  refine unpack_pack_number ?_
  cases hunpacked : a.toModel.unpack with
  | notANumber => exact absurd hunpacked h
  | infinity _ => exact UnpackedFloat.noConfusion
  | zero _ => exact UnpackedFloat.noConfusion
  | finite _ _ _ _ => exact UnpackedFloat.noConfusion

/-- What is finite bounds nothing that is not. -/
theorem isFinite_of_abs_le {a b : Float} (hb : b.isFinite = true) (h : a.abs ≤ b) : a.isFinite = true := by
  obtain ⟨x, y, hx, hy, hle⟩ := le_iff.mp h
  rw [rankOf, unpack_abs] at hx
  rw [isFinite_eq] at hb ⊢
  cases hunpacked : a.toModel.unpack with
  | notANumber =>
    rw [hunpacked] at hx
    cases hx
  | infinity sign =>
    rw [hunpacked] at hx
    have hinfinity : x = toLex (2, toLex (0, 0)) := by
      refine (Option.some.inj (hx.symm.trans ?_))
      change rank (UnpackedFloat.unpack Format.binary64 (packedInfinity Format.binary64 .positive)) = _
      rw [unpack_packedInfinity]
      rfl
    have hbelow : ∀ (kind : ℤ) (place : ℤ ×ₗ ℤ), kind < 2 → y ≠ toLex (kind, place) := by
      rintro kind place hkind rfl
      rw [hinfinity] at hle
      exact absurd hle (Prod.Lex.toLex_lt_toLex.mpr (.inl hkind)).not_ge
    rw [rankOf] at hy
    rcases hvalue : b.toModel.unpack with _ | _ | _ | ⟨_ | _, m, e, hm⟩ <;> rw [hvalue] at hy hb
    · cases hb
    · cases hb
    · exact absurd (Option.some.inj hy).symm (hbelow _ _ (by decide))
    · exact absurd (Option.some.inj hy).symm (hbelow _ _ (by decide))
    · exact absurd (Option.some.inj hy).symm (hbelow _ _ (by decide))
  | zero _ => rfl
  | finite _ _ _ _ => rfl

end Numbers
end Gail.Library.FloatOrder
