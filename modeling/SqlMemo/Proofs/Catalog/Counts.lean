import Mathlib

/-!
# Counts as numbers

A count that is not zero stays a number that is not zero when it becomes one in floating point,
whatever its size. Rounding keeps the first 53 bits of a mantissa, so that a number of one or more
remains one, and so does the product of two of them.
-/

set_option autoImplicit false

namespace SqlMemo.Counts

open Float.Model Float.Model.UnpackedFloat

/-- Finite numbers of one or more in magnitude with a full mantissa, and infinity. -/
def AtLeastOne : UnpackedFloat → Prop
  | .infinity _ => True
  | .finite _ mantissa exponent _ => mantissa.log2 = 52 ∧ -52 ≤ exponent
  | .zero _ | .notANumber => False

/-! ## Rounding -/

section

variable {mantissa : Nat} {exponent : Int}

private theorem log2_shiftRight (number count : Nat) :
    (number >>> count).log2 = number.log2 - count := by
  rw [Nat.shiftRight_eq_div_pow, Nat.log2_eq_log_two, Nat.log2_eq_log_two, Nat.log_div_base_pow]

private theorem le_log2_shiftLeft {number : Nat} (positive : number ≠ 0) (count : Nat) :
    number.log2 + count ≤ (number <<< count).log2 := by
  have shifted : number <<< count ≠ 0 := by
    rw [Nat.shiftLeft_eq]
    exact Nat.mul_ne_zero positive (by simp)
  rw [Nat.le_log2 shifted, Nat.pow_add, Nat.shiftLeft_eq]
  exact Nat.mul_le_mul_right _ (Nat.log2_self_le positive)

private theorem mantissa_shiftRight (number : ExtendedMantissa) (count : Nat) :
    (number >>> count).mantissa = number.mantissa >>> count := by
  induction count with
  | zero => rfl
  | succ count ih =>
      have step : (number >>> (count + 1)).mantissa = (number >>> count).mantissa / 2 := rfl
      rw [step, ih, Nat.shiftRight_succ]

private theorem le_roundedMantissa (number : ExtendedMantissa) :
    number.mantissa ≤ number.roundedMantissa := by
  obtain ⟨mantissa, round, sticky⟩ := number
  cases round <;> cases sticky <;>
    simp [ExtendedMantissa.roundedMantissa, ExtendedMantissa.accuracy,
      Accuracy.roundToNearestEven]

private theorem mantissa_ofMantissaAndAccuracy (mantissa : Nat) (accuracy : Accuracy) :
    (ExtendedMantissa.ofMantissaAndAccuracy mantissa accuracy).mantissa = mantissa := by
  cases accuracy with
  | exact => rfl
  | inexact order => cases order <;> rfl

/-- A mantissa of 53 bits or more is cut to 53 bits. -/
private theorem shift_of_long (long : 52 ≤ mantissa.log2)
    (atLeast : 0 ≤ (mantissa.log2 : Int) + exponent) (accuracy : Accuracy) :
    let shifted := shiftToTargetExponent Format.binary64 mantissa exponent accuracy
    shifted.1.mantissa.log2 = 52 ∧ shifted.2 = exponent + (mantissa.log2 - 52 : Nat) := by
  have target : (Format.binary64.targetExponent (totalExponent mantissa exponent) -
      exponent).toNat = mantissa.log2 - 52 := by
    simp only [Format.targetExponent, totalExponent, Format.mantissaBits, Format.minExponent]
    omega
  refine ⟨?_, congrArg (fun count : Nat => exponent + count) target⟩
  simp only [shiftToTargetExponent, shiftToExponent, target, mantissa_shiftRight,
    mantissa_ofMantissaAndAccuracy, log2_shiftRight]
  omega

theorem atLeastOne_roundWithAccuracy (long : 52 ≤ mantissa.log2)
    (atLeast : 0 ≤ (mantissa.log2 : Int) + exponent) (sign : Sign) (accuracy : Accuracy) :
    AtLeastOne (roundWithAccuracy Format.binary64 sign mantissa exponent accuracy) := by
  have first := shift_of_long long atLeast accuracy
  generalize first_eq : shiftToTargetExponent Format.binary64 mantissa exponent accuracy = shifted
    at first
  obtain ⟨cut, cut_exponent⟩ := shifted
  obtain ⟨full, exponent_eq⟩ := first
  -- Rounding up may take the mantissa to 54 bits, and so it is cut once more.
  have rounded : 52 ≤ cut.roundedMantissa.log2 := by
    have positive : cut.mantissa ≠ 0 := by
      intro zero
      rw [zero] at full
      cases full
    have bits := Nat.log2_self_le positive
    have larger := le_roundedMantissa cut
    rw [full] at bits
    exact (Nat.le_log2 (by omega)).mpr (Nat.le_trans bits larger)
  have second := @shift_of_long _ cut_exponent rounded (by omega) .exact
  generalize second_eq : shiftToTargetExponent Format.binary64 cut.roundedMantissa cut_exponent
    .exact = shifted at second
  obtain ⟨final, final_exponent⟩ := shifted
  obtain ⟨full', exponent_eq'⟩ := second
  simp only [roundWithAccuracy, first_eq, second_eq]
  split
  · rename_i zero
    rw [zero] at full'
    cases full'
  · dsimp only at full' exponent_eq exponent_eq'
    exact ⟨full', by omega⟩

/-- The product of two numbers of one or more is one or more. -/
theorem AtLeastOne.mul {first second : UnpackedFloat} (left : AtLeastOne first)
    (right : AtLeastOne second) :
    AtLeastOne (UnpackedFloat.mul Format.binary64 first second) := by
  cases first with
  | notANumber | zero => cases left
  | infinity sign =>
      cases second with
      | notANumber | zero => cases right
      | infinity | finite => trivial
  | finite sign mantissa exponent positive =>
      cases second with
      | notANumber | zero => cases right
      | infinity => trivial
      | finite sign' mantissa' exponent' positive' =>
          have bits := Nat.log2_self_le (Nat.ne_of_gt positive)
          have bits' := Nat.log2_self_le (Nat.ne_of_gt positive')
          rw [left.1] at bits
          rw [right.1] at bits'
          have product := Nat.mul_le_mul bits bits'
          have long : 52 + 52 ≤ (mantissa * mantissa').log2 := by
            rwa [Nat.le_log2 (Nat.mul_ne_zero (Nat.ne_of_gt positive) (Nat.ne_of_gt positive')),
              Nat.pow_add]
          have exponents := And.intro left.2 right.2
          exact atLeastOne_roundWithAccuracy (by omega) (by omega) _ _

/-- A count of one or more is rounded to a number of one or more. -/
theorem atLeastOne_ofNat {count : Nat} (positive : count ≠ 0) :
    AtLeastOne (UnpackedFloat.ofNat Format.binary64 count) := by
  have target : (0 - Format.binary64.targetExponent (totalExponent count 0)).toNat =
      52 - count.log2 := by
    simp only [Format.targetExponent, totalExponent, Format.mantissaBits, Format.minExponent]
    omega
  have long := le_log2_shiftLeft positive (52 - count.log2)
  have greater : compare (count : Int) 0 = .gt := by
    rw [Int.compare_eq_gt]
    omega
  simp only [UnpackedFloat.ofNat, UnpackedFloat.ofInt, UnpackedFloat.normalize, greater,
    UnpackedFloat.round, UnpackedFloat.decreaseExponent, target, Int.toNat_natCast]
  exact atLeastOne_roundWithAccuracy (by omega) (by omega) _ _

end

/-! ## Bits -/

private theorem log2_append (mantissa : BitVec 52) : (1#1 ++ mantissa).toNat.log2 = 52 := by
  have value : (1#1 ++ mantissa).toNat = 2 ^ 52 + mantissa.toNat := by
    rw [BitVec.toNat_append, ← Nat.shiftLeft_add_eq_or_of_lt mantissa.isLt]
    rfl
  have small := mantissa.isLt
  rw [value, Nat.log2_eq_iff (by omega)]
  omega

private theorem atLeastOne_unpack_components {field : BitVec 11} (large : 1023 ≤ field.toNat)
    (small : field.toNat < 2047) (sign : Sign) (mantissa : BitVec 52) :
    AtLeastOne (UnpackedFloat.unpack Format.binary64
      (packComponents Format.binary64 sign field mantissa)) := by
  have notZero : field ≠ 0#11 := by
    rintro rfl
    exact absurd large (by decide)
  have notFull : field ≠ -1#11 := by
    rintro rfl
    exact absurd small (by decide)
  have bias : Format.binary64.exponentBias = 1023 := rfl
  simp only [UnpackedFloat.unpack, unpackMantissa_packComponents, unpackExponent_packComponents,
    notZero, notFull, if_false]
  refine ⟨log2_append mantissa, ?_⟩
  rw [bias]
  omega

/-- A number of one or more is one or more when it is read from its bits. -/
theorem AtLeastOne.unpack_pack {number : UnpackedFloat} (one : AtLeastOne number) :
    AtLeastOne (Float.Model.pack number).unpack := by
  cases number with
  | notANumber | zero => cases one
  | infinity sign => cases sign <;> exact trivial
  | finite sign mantissa exponent positive =>
      obtain ⟨full, large⟩ := one
      have biased : (exponent + Format.binary64.exponentBias +
          Format.binary64.mantissaBitsWithoutImplicit).toNat = (exponent + 1075).toNat := by
        simp only [Format.exponentBias]
        omega
      simp only [Float.Model.unpack, Float.Model.pack, UnpackedFloat.pack, biased, full]
      split
      · cases sign <;> exact trivial
      · rename_i finite
        have field : (BitVec.ofNat 11 (exponent + 1075).toNat).toNat = (exponent + 1075).toNat := by
          rw [BitVec.toNat_ofNat, Nat.mod_eq_of_lt (by omega)]
        have bits : 52 + 1 = Format.binary64.mantissaBits := rfl
        rw [if_pos bits]
        exact atLeastOne_unpack_components (by omega) (by omega) sign _

/-! ## Counts -/

theorem atLeastOne_ofScientific {count : Nat} (positive : count ≠ 0) :
    AtLeastOne (UnpackedFloat.ofScientific Format.binary64 count 0) := by
  have long := le_log2_shiftLeft positive 53
  have scientific : UnpackedFloat.ofScientific Format.binary64 count 0 =
      roundWithAccuracy Format.binary64 (.positive * .positive) (count <<< 53 * 10 ^ 0) (-53 + 0)
        .exact := by
    have bound : (2 : Int) ^ Format.binary64.exponentBits = 2048 := rfl
    rw [UnpackedFloat.ofScientific, dif_neg positive, bound, if_neg (by omega), if_neg (by omega),
      if_pos (Int.le_refl 0)]
    rfl
  rw [scientific, Nat.pow_zero, Nat.mul_one]
  exact atLeastOne_roundWithAccuracy (by omega) (by omega) _ _

theorem atLeastOne_float {count : Nat} (positive : count ≠ 0) :
    AtLeastOne (Float.ofNat count).toModel.unpack := by
  by_cases small : count < 2 ^ 53
  · -- A small count is multiplied with the zeroth power of ten.
    have word : count.toUInt64.toNat = count := by
      rw [Nat.toUInt64_eq, UInt64.toNat_ofNat', Nat.mod_eq_of_lt (by omega)]
    have product : Float.ofNat count =
        count.toUInt64.toFloat * Float.ofBits 4607182418800017408 := by
      change Float.ofScientific count false 0 = _
      rw [Float.ofScientific, dif_pos ⟨small, by decide⟩]
      rfl
    have count_one : AtLeastOne count.toUInt64.toFloat.toModel.unpack := by
      change AtLeastOne (Float.Model.pack (.ofNat Format.binary64 count.toUInt64.toNat)).unpack
      rw [word]
      exact (atLeastOne_ofNat positive).unpack_pack
    have power_one : AtLeastOne (Float.ofBits 4607182418800017408).toModel.unpack :=
      show AtLeastOne (.finite .positive (2 ^ 52) (-52) (by decide)) from
        ⟨Nat.log2_two_pow, Int.le_refl _⟩
    rw [product]
    exact (count_one.mul power_one).unpack_pack
  · have scientific : Float.ofNat count =
        .ofModel (.pack (UnpackedFloat.ofScientific Format.binary64 count 0)) := by
      change Float.ofScientific count false 0 = _
      rw [Float.ofScientific, dif_neg fun within => small within.1]
      rfl
    rw [scientific]
    exact (atLeastOne_ofScientific positive).unpack_pack

/-- No count but zero becomes a zero. -/
theorem ofNat_beq_zero {count : Nat} (positive : count ≠ 0) : (Float.ofNat count == 0) = false := by
  have one := atLeastOne_float positive
  have compared : (Float.ofNat count == 0) =
      (Float.ofNat count).toModel.unpack.beq (.zero .positive) := rfl
  rw [compared]
  cases number : (Float.ofNat count).toModel.unpack with
  | notANumber | zero =>
      rw [number] at one
      cases one
  | infinity sign | finite sign => cases sign <;> rfl

end SqlMemo.Counts
