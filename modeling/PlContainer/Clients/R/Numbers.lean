import PlContainer.Clients.R.Objects
import PlContainer.Library.Ieee

set_option autoImplicit false

/-! # Numbers in C

The R client converts between the integers and floating-point numbers of the database and those of R by
assignments and casts. Here is what these numbers mean, and what the language promises about the
conversions. -/

namespace PlContainer

open Float.Model Float.Model.UnpackedFloat

def doubleMeaning (d : BitVec 64) : Ieee.Meaning := Ieee.ofBits .binary64 d

def floatMeaning (f : BitVec 32) : Ieee.Meaning := Ieee.ofBits .binary32 f

/-- How the compiler converts numbers, and what the language promises about it: a number that the new
    type has is kept, and the fraction is dropped on the way to an integer. What becomes of a `double`
    without an integer part in the range is not defined. -/
structure CNumbers where
  doubleToLong : BitVec 64 → BitVec 64
  longToDouble : BitVec 64 → BitVec 64
  floatToDouble : BitVec 32 → BitVec 64
  doubleToLong_trunc : ∀ d q, doubleMeaning d = .number q → |q| < 2 ^ 63 →
    (doubleToLong d).toInt = if 0 ≤ q then ⌊q⌋ else ⌈q⌉
  longToDouble_exact : ∀ n, |n.toInt| ≤ 2 ^ 53 → doubleMeaning (longToDouble n) = .number n.toInt
  floatToDouble_exact : ∀ f, doubleMeaning (floatToDouble f) = floatMeaning f
  /-- the payload of a NaN stays in the upper word -/
  rIsNA_floatToDouble : ∀ f, rIsNA (floatToDouble f) = false

/-- What is `NA` is not a number. -/
theorem doubleMeaning_of_rIsNA {d : BitVec 64} (h : rIsNA d = true) : doubleMeaning d = .nan := by
  have hnan : isNaN d = true := (Bool.and_eq_true_iff.1 h).1
  obtain ⟨hexponent, hmantissa⟩ :
      @unpackExponent .binary64 d = -1#11 ∧ @unpackMantissa .binary64 d ≠ 0#52 := of_decide_eq_true hnan
  rw [doubleMeaning, Ieee.ofBits, UnpackedFloat.unpack, if_pos hexponent, if_neg hmantissa]
  rfl

/-! ## A compiler -/

/-- The integer part of a number, and the least integer where it is not defined. -/
def truncateDouble (d : BitVec 64) : BitVec 64 :=
  match doubleMeaning d with
  | .number q => if |q| < 2 ^ 63 then BitVec.ofInt 64 (if 0 ≤ q then ⌊q⌋ else ⌈q⌉) else BitVec.intMin 64
  | _ => BitVec.intMin 64

theorem toInt_truncateDouble {d : BitVec 64} {q : ℚ} (hd : doubleMeaning d = .number q)
    (hq : |q| < 2 ^ 63) : (truncateDouble d).toInt = if 0 ≤ q then ⌊q⌋ else ⌈q⌉ := by
  obtain ⟨hlow, hhigh⟩ := abs_lt.1 hq
  rw [truncateDouble, hd]
  dsimp only
  rw [if_pos hq]
  refine BitVec.toInt_ofInt_eq_self (by norm_num) ?_ ?_
  · split
    · exact (by norm_num : -2 ^ 63 ≤ (0 : ℤ)).trans (Int.floor_nonneg.2 ‹_›)
    · have hle : ((-2 ^ 63 : ℤ) : ℚ) ≤ ⌈q⌉ := by
        push_cast
        exact hlow.le.trans (Int.le_ceil q)
      exact_mod_cast hle
  · split
    · exact Int.floor_lt.2 (by exact_mod_cast hhigh)
    · next hneg =>
      have hceil : ⌈q⌉ ≤ 0 := Int.ceil_le.2 (by exact_mod_cast (not_le.1 hneg).le)
      exact hceil.trans_lt (by norm_num)

/-- The sign of an integer. -/
def signOf (n : ℤ) : Sign := if n < 0 then .negative else .positive

theorem signed_signOf (n : ℤ) : Ieee.signed (signOf n) n.natAbs = n := by
  rw [signOf]
  split
  · next hneg =>
    rw [Ieee.signed, ← Int.cast_natCast, Int.ofNat_natAbs_of_nonpos hneg.le]
    push_cast
    ring
  · next hnonneg => rw [Ieee.signed, ← Int.cast_natCast, Int.natAbs_of_nonneg (not_lt.1 hnonneg)]

/-- The `double` of an integer of at most 53 bits, or of a power of two above. -/
def exactDouble (n : ℤ) : BitVec 64 :=
  if n = 0 then 0
  else if n.natAbs < 2 ^ 53 then Ieee.normalBits .binary64 (signOf n) n.natAbs 0
  else Ieee.normalBits .binary64 (signOf n) (2 ^ 52) 1

theorem doubleMeaning_exactDouble {n : ℤ} (h : |n| ≤ 2 ^ 53) :
    doubleMeaning (exactDouble n) = .number n := by
  have hbias : Format.exponentBias .binary64 = 1023 := rfl
  have hle : n.natAbs ≤ 2 ^ 53 := by
    rw [Int.abs_eq_natAbs] at h
    exact_mod_cast h
  rw [exactDouble]
  split
  · next hzero =>
    rw [hzero, Int.cast_zero]
    exact congrArg Ieee.meaning (unpack_packedZero : UnpackedFloat.unpack .binary64 _ = .zero .positive)
  split
  · next hzero hlt =>
    have hlog : n.natAbs.log2 < 53 := (Nat.log2_lt (by omega)).2 hlt
    rw [doubleMeaning, Ieee.ofBits_normalBits (signOf n) 0 (by omega) (Nat.le_of_lt_succ hlog) (by omega)
      (by norm_num; omega), zpow_zero, mul_one, signed_signOf]
  · next hzero hge =>
    have hn : n.natAbs = 2 ^ 53 := by omega
    have hlog : (2 ^ 52).log2 = 52 := Nat.log2_two_pow
    rw [doubleMeaning, Ieee.ofBits_normalBits (signOf n) 1 (by norm_num) hlog.le (by omega)
      (by rw [hlog]; norm_num; omega)]
    have hvalue : ((2 ^ 52 : ℕ) : ℚ) * 2 ^ (1 : ℤ) = n.natAbs := by
      rw [hn]
      norm_num
    rw [hvalue, signed_signOf]

theorem doubleMeaning_widen (f : BitVec 32) :
    doubleMeaning (Ieee.widen .binary32 .binary64 f) = floatMeaning f :=
  @Ieee.ofBits_widen .binary32 .binary64 (by decide) (by decide) f

theorem rIsNA_widen (f : BitVec 32) : rIsNA (Ieee.widen .binary32 .binary64 f) = false := by
  rw [Bool.eq_false_iff]
  intro hna
  have hmeaning : Ieee.meaning (UnpackedFloat.unpack .binary32 f) = .nan :=
    (doubleMeaning_widen f).symm.trans (doubleMeaning_of_rIsNA hna)
  have hnan : UnpackedFloat.unpack .binary32 f = .notANumber := by
    cases h : UnpackedFloat.unpack .binary32 f with
    | notANumber => rfl
    | _ =>
      rw [h] at hmeaning
      cases hmeaning
  rw [Ieee.widen, hnan] at hna
  exact absurd hna (by decide)

/-- A compiler as the language has it. -/
def ieeeNumbers : CNumbers where
  doubleToLong := truncateDouble
  longToDouble n := exactDouble n.toInt
  floatToDouble := Ieee.widen .binary32 .binary64
  doubleToLong_trunc _ _ := toInt_truncateDouble
  longToDouble_exact _ := doubleMeaning_exactDouble
  floatToDouble_exact := doubleMeaning_widen
  rIsNA_floatToDouble := rIsNA_widen

end PlContainer
