import Mathlib

set_option autoImplicit false

/-! # What floating-point numbers mean

The core library unpacks the bits of a format into sign, mantissa and exponent. Here is the number that
they stand for. -/

namespace Ieee

open Float.Model Float.Model.UnpackedFloat

/-- The meaning of a floating-point number. -/
inductive Meaning where
  | nan
  | infinite (sign : Sign)
  | number (q : ℚ)

/-- The number with a sign. -/
def signed : Sign → ℚ → ℚ
  | .positive, q => q
  | .negative, q => -q

def meaning : UnpackedFloat → Meaning
  | .notANumber => .nan
  | .infinity s => .infinite s
  | .zero _ => .number 0
  | .finite s m e _ => .number (signed s (m * 2 ^ e))

/-- The meaning of the bits of a format. -/
def ofBits (spec : Format) (b : BitVec spec.numBits) : Meaning := meaning (unpack spec b)

variable {spec : Format}

theorem toNat_unpackMantissa_lt (b : BitVec spec.numBits) :
    (unpackMantissa b).toNat < 2 ^ spec.mantissaBitsWithoutImplicit := BitVec.isLt _

theorem toNat_unpackExponent (b : BitVec spec.numBits) :
    (unpackExponent b).toNat
      = b.toNat / 2 ^ spec.mantissaBitsWithoutImplicit % 2 ^ spec.exponentBits := by
  have he := spec.he
  rw [unpackExponent, BitVec.toNat_cast, BitVec.extractLsb_toNat, Nat.shiftRight_eq_div_pow]
  congr 2
  omega

theorem toNat_unpackSign (b : BitVec spec.numBits) :
    (unpackSign b).toNat
      = b.toNat / 2 ^ (spec.mantissaBitsWithoutImplicit + spec.exponentBits) % 2 := by
  rw [unpackSign, BitVec.toNat_cast, BitVec.extractLsb_toNat, Nat.shiftRight_eq_div_pow, Nat.sub_self]

/-- Bits with the implicit bit. -/
theorem ofBits_of_normal {b : BitVec spec.numBits}
    (hfinite : unpackExponent b ≠ -BitVec.ofNat spec.exponentBits 1)
    (hnormal : unpackExponent b ≠ BitVec.ofNat spec.exponentBits 0) :
    ofBits spec b = .number (signed (Sign.ofBitVec (unpackSign b)) ((1#1 ++ unpackMantissa b).toNat *
      2 ^ ((unpackExponent b).toNat - (spec.exponentBias + spec.mantissaBitsWithoutImplicit) : ℤ))) := by
  rw [ofBits, UnpackedFloat.unpack, if_neg hfinite, if_neg hnormal]
  rfl

theorem two_pow_exponentBits (spec : Format) :
    2 ^ spec.exponentBits = 2 * (spec.exponentBias + 1) := by
  have hpos : 0 < 2 ^ (spec.exponentBits - 1) := by positivity
  rw [Format.exponentBias, Nat.sub_add_cancel hpos, ← pow_succ', Nat.sub_add_cancel spec.he]

theorem mul_two_zpow_lt_one {m k : ℕ} {e : ℤ} (hm : m < 2 ^ k) (he : e + k ≤ 0) :
    (m : ℚ) * 2 ^ e < 1 := by
  calc (m : ℚ) * 2 ^ e < 2 ^ k * 2 ^ e := by
        have hm' : (m : ℚ) < 2 ^ k := by exact_mod_cast hm
        exact mul_lt_mul_of_pos_right hm' (by positivity)
    _ = 2 ^ (e + k) := by rw [zpow_add₀ (by norm_num), zpow_natCast, mul_comm]
    _ ≤ 1 := zpow_le_one_of_nonpos₀ (by norm_num) he

/-- Bits that are small as a number stand for a number between 0 and 1. -/
theorem ofBits_of_lt {b : BitVec spec.numBits}
    (h : b.toNat < spec.exponentBias * 2 ^ spec.mantissaBitsWithoutImplicit) :
    ∃ q : ℚ, ofBits spec b = .number q ∧ 0 ≤ q ∧ q < 1 := by
  have hbias := two_pow_exponentBits spec
  have hlt : b.toNat / 2 ^ spec.mantissaBitsWithoutImplicit < spec.exponentBias :=
    (Nat.div_lt_iff_lt_mul (by positivity)).2 h
  have hexponent : (unpackExponent b).toNat < spec.exponentBias := by
    rw [toNat_unpackExponent]
    exact (Nat.mod_le _ _).trans_lt hlt
  have hsign : Sign.ofBitVec (unpackSign b) = .positive := by
    have hzero : unpackSign b = 0#1 := by
      refine BitVec.eq_of_toNat_eq ?_
      rw [toNat_unpackSign, pow_add, ← Nat.div_div_eq_div_mul, Nat.div_eq_of_lt (by omega)]
      rfl
    rw [hzero, Sign.ofBitVec, if_pos rfl]
  have hfinite : unpackExponent b ≠ -BitVec.ofNat spec.exponentBits 1 := by
    intro heq
    rw [heq, BitVec.neg_one_eq_allOnes, BitVec.toNat_allOnes] at hexponent
    omega
  by_cases hnormal : unpackExponent b = BitVec.ofNat spec.exponentBits 0
  · have hmantissa := toNat_unpackMantissa_lt b
    rw [ofBits, UnpackedFloat.unpack, if_neg hfinite, if_pos hnormal, hsign, hnormal]
    split
    · exact ⟨0, rfl, le_rfl, one_pos⟩
    · refine ⟨_, rfl, ?_, mul_two_zpow_lt_one hmantissa ?_⟩
      · dsimp only [signed]
        positivity
      · rw [BitVec.toNat_ofNat, Nat.zero_mod]
        omega
  · rw [ofBits_of_normal hfinite hnormal, hsign]
    refine ⟨_, rfl, ?_, mul_two_zpow_lt_one (BitVec.isLt _) ?_⟩
    · dsimp only [signed]
      positivity
    · omega

/-! ## Bits of a number -/

/-- The bits of `± m * 2 ^ e`, if the format has this number with the implicit bit. -/
def normalBits (spec : Format) (s : Sign) (m : ℕ) (e : ℤ) : BitVec spec.numBits :=
  packComponents spec s (BitVec.ofNat _ (e + m.log2 + spec.exponentBias).toNat)
    (BitVec.ofNat _ (m * 2 ^ (spec.mantissaBitsWithoutImplicit - m.log2)))

theorem toNat_one_append {w : ℕ} (v : BitVec w) : (1#1 ++ v).toNat = 2 ^ w + v.toNat := by
  have hone : (1#1).toNat = 1 := rfl
  rw [BitVec.toNat_append, ← Nat.shiftLeft_add_eq_or_of_lt v.isLt, hone, Nat.one_shiftLeft]

/-- A number of `k + 1` bits, shifted to `w + 1` bits. -/
theorem mul_two_pow_bounds {m w : ℕ} (hm : m ≠ 0) (hwidth : m.log2 ≤ w) :
    2 ^ w ≤ m * 2 ^ (w - m.log2) ∧ m * 2 ^ (w - m.log2) < 2 * 2 ^ w := by
  have hpow : 2 ^ w = 2 ^ m.log2 * 2 ^ (w - m.log2) := by rw [← pow_add, Nat.add_sub_cancel' hwidth]
  have hlow : 2 ^ m.log2 ≤ m := Nat.log2_self_le hm
  have hhigh : m < 2 * 2 ^ m.log2 := by
    rw [← pow_succ']
    exact Nat.lt_log2_self
  constructor
  · rw [hpow]
    exact Nat.mul_le_mul_right _ hlow
  · rw [hpow, ← Nat.mul_assoc]
    exact Nat.mul_lt_mul_of_pos_right hhigh (by positivity)

theorem ofBits_normalBits {m : ℕ} (s : Sign) (e : ℤ) (hm : m ≠ 0)
    (hwidth : m.log2 ≤ spec.mantissaBitsWithoutImplicit) (hlow : 0 < e + m.log2 + spec.exponentBias)
    (hhigh : e + m.log2 + spec.exponentBias < 2 ^ spec.exponentBits - 1) :
    ofBits spec (normalBits spec s m e) = .number (signed s (m * 2 ^ e)) := by
  have hexponent : (BitVec.ofNat spec.exponentBits (e + m.log2 + spec.exponentBias).toNat).toNat
      = (e + m.log2 + spec.exponentBias).toNat := by
    refine BitVec.toNat_ofNat .. |>.trans (Nat.mod_eq_of_lt ?_)
    have hcast : ((2 ^ spec.exponentBits : ℕ) : ℤ) = 2 ^ spec.exponentBits := by push_cast; rfl
    omega
  have hmantissa : (1#1 ++ BitVec.ofNat spec.mantissaBitsWithoutImplicit
      (m * 2 ^ (spec.mantissaBitsWithoutImplicit - m.log2))).toNat
      = m * 2 ^ (spec.mantissaBitsWithoutImplicit - m.log2) := by
    obtain ⟨hge, hlt⟩ := mul_two_pow_bounds hm hwidth
    rw [toNat_one_append, BitVec.toNat_ofNat, Nat.mod_eq_sub_mod hge, Nat.mod_eq_of_lt (by omega)]
    omega
  have hfinite : unpackExponent (normalBits spec s m e) ≠ -BitVec.ofNat spec.exponentBits 1 := by
    intro heq
    rw [normalBits, unpackExponent_packComponents] at heq
    rw [heq, BitVec.neg_one_eq_allOnes, BitVec.toNat_allOnes] at hexponent
    have hcast : ((2 ^ spec.exponentBits : ℕ) : ℤ) = 2 ^ spec.exponentBits := by push_cast; rfl
    omega
  have hnormal : unpackExponent (normalBits spec s m e) ≠ BitVec.ofNat spec.exponentBits 0 := by
    intro heq
    rw [normalBits, unpackExponent_packComponents] at heq
    rw [heq, BitVec.toNat_ofNat, Nat.zero_mod] at hexponent
    omega
  rw [ofBits_of_normal hfinite hnormal, normalBits, unpackExponent_packComponents,
    unpackMantissa_packComponents, unpackSign_packComponents, Sign.ofBitVec_toBitVec, hexponent,
    hmantissa]
  congr 2
  -- the shift of the mantissa and the exponent cancel
  have hsum : ((e + m.log2 + spec.exponentBias).toNat
        - (spec.exponentBias + spec.mantissaBitsWithoutImplicit) : ℤ)
      = e - ((spec.mantissaBitsWithoutImplicit - m.log2 : ℕ) : ℤ) := by omega
  rw [hsum, zpow_sub₀ (by norm_num), zpow_natCast]
  push_cast
  field_simp

/-! ## Conversions -/

/-- The fields of a finite number are in the range of the format. -/
theorem unpack_finite_bounds {b : BitVec spec.numBits} {s : Sign} {m : ℕ} {e : ℤ} {hpos : 0 < m}
    (h : UnpackedFloat.unpack spec b = .finite s m e hpos) :
    m.log2 ≤ spec.mantissaBitsWithoutImplicit ∧
      0 < e + spec.exponentBias + spec.mantissaBitsWithoutImplicit ∧
      e + m.log2 ≤ spec.exponentBias := by
  have hlog {w : ℕ} (hlt : m < 2 ^ w) : m.log2 < w := (Nat.log2_lt (by omega)).2 hlt
  have hbias := two_pow_exponentBits spec
  rw [UnpackedFloat.unpack] at h
  split_ifs at h with hspecial hinfinite hexponent hmantissa
  · injection h with hs hm he
    have hwidth := hlog (hm ▸ BitVec.isLt _)
    rw [hexponent, BitVec.toNat_ofNat, Nat.zero_mod] at he
    omega
  · injection h with hs hm he
    have hwidth := hlog (hm ▸ BitVec.isLt _)
    have hlt : (unpackExponent b).toNat < 2 ^ spec.exponentBits - 1 := by
      have hne : (unpackExponent b).toNat ≠ 2 ^ spec.exponentBits - 1 := by
        intro heq
        refine hspecial (BitVec.eq_of_toNat_eq ?_)
        rw [heq, BitVec.neg_one_eq_allOnes, BitVec.toNat_allOnes]
      have hle := (unpackExponent b).isLt
      omega
    have hne : (unpackExponent b).toNat ≠ 0 := by
      intro heq
      exact hexponent (BitVec.eq_of_toNat_eq (by rw [heq, BitVec.toNat_ofNat, Nat.zero_mod]))
    omega

/-- The same number in a wider format. -/
def widen (narrow wide : Format) (b : BitVec narrow.numBits) : BitVec wide.numBits :=
  match UnpackedFloat.unpack narrow b with
  | .notANumber => packedNaN wide
  | .infinity s => packedInfinity wide s
  | .zero s => packedZero wide s
  | .finite s m e _ => normalBits wide s m e

theorem unpack_packedInfinity (s : Sign) :
    UnpackedFloat.unpack spec (packedInfinity spec s) = .infinity s := by
  have hmantissa : unpackMantissa (packComponents spec s (-BitVec.ofNat spec.exponentBits 1) 0)
      = BitVec.ofNat spec.mantissaBitsWithoutImplicit 0 := unpackMantissa_packComponents
  rw [UnpackedFloat.unpack, packedInfinity, if_pos unpackExponent_packComponents, if_pos hmantissa,
    unpackSign_packComponents, Sign.ofBitVec_toBitVec]

theorem ofBits_widen {narrow wide : Format}
    (hmantissa : narrow.mantissaBitsWithoutImplicit ≤ wide.mantissaBitsWithoutImplicit)
    (hexponent : narrow.exponentBias + narrow.mantissaBitsWithoutImplicit ≤ wide.exponentBias)
    (b : BitVec narrow.numBits) : ofBits wide (widen narrow wide b) = ofBits narrow b := by
  rw [ofBits.eq_def narrow, widen]
  cases h : UnpackedFloat.unpack narrow b with
  | notANumber => exact congrArg meaning unpack_packedNaN
  | infinity s => exact congrArg meaning (unpack_packedInfinity s)
  | zero s => exact congrArg meaning unpack_packedZero
  | finite s m e hpos =>
    obtain ⟨hwidth, hlow, hhigh⟩ := unpack_finite_bounds h
    have hbias := two_pow_exponentBits wide
    have hcast : ((2 ^ wide.exponentBits : ℕ) : ℤ) = 2 ^ wide.exponentBits := by push_cast; rfl
    exact ofBits_normalBits s e hpos.ne' (hwidth.trans hmantissa) (by omega) (by omega)

end Ieee
