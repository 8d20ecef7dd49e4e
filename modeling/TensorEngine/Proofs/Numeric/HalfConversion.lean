import TensorEngine.Proofs.Numeric.HalfRounding
import TensorEngine.Proofs.Numeric.SinglePattern

/-!
Contract: conversion between bit patterns of half and single precision.

Owns:
- `Half.value`, the number that a half precision number denotes;
- `Half.Narrows`, correct rounding of a pattern of single precision, and `Half.Widens`, exact
  conversion the other way;
- the theorem that every pattern is converted so, with what follows for the way back and the order.

Does not own: arithmetic.
-/

namespace TensorEngine.Numeric

open Float.Model Float.Model.UnpackedFloat

/-! ## Values of half precision -/

namespace Half

variable {half : Half} {pattern : UInt32}

def unpacked (half : Half) : UnpackedFloat :=
  UnpackedFloat.unpack binary16 half.bits.toBitVec

def sign (half : Half) : Sign := @patternSign binary16 half.bits.toBitVec

/-- The rational number that a half precision number denotes. Infinity counts as the bound of single
precision, what is not a number as zero. -/
def value (half : Half) : ℚ := exactValue half.unpacked

theorem isNaN_iff : half.isNaN = true ↔ half.unpacked.isNaN = true := by
  rw [unpacked, isNaN_unpack_iff, isNaN, decide_eq_true_iff]
  exact Iff.rfl

theorem isFinite_iff : half.unpacked.isFinite = true ↔ half.bits.toNat % 2 ^ 15 < infinityPattern :=
  isFinite_unpack_iff

theorem value_of_finite (finite : half.bits.toNat % 2 ^ 15 < infinityPattern) :
    half.value = signedValue half.sign (magnitude 10 (-24) (half.bits.toNat % 2 ^ 15)) :=
  exactValue_unpack finite

theorem unpacked_of_infinite (infinite : half.bits.toNat % 2 ^ 15 = infinityPattern) :
    half.unpacked = .infinity half.sign :=
  unpack_infinity infinite

/-! ## Narrowing -/

/-- A finite half precision number that is nearest to a number, and even if another one is as
near. -/
structure IsNearest (half : Half) (exact : ℚ) : Prop where
  finite : half.unpacked.isFinite = true
  nearest : ∀ other : Half, other.unpacked.isFinite = true →
    |exact - half.value| ≤ |exact - other.value|
  even : ∀ other : Half, other.unpacked.isFinite = true → other.value ≠ half.value →
    |exact - other.value| = |exact - half.value| → half.bits.toNat % 2 = 0

/-- A half precision number is what a pattern of single precision is rounded to: the nearest number
of the same sign, infinity from half way beyond the greatest one on, and quiet if the pattern is not
a number. -/
structure Narrows (half : Half) (pattern : UInt32) : Prop where
  sign : half.sign = Binary32.signOf pattern
  nearest : (Float32.ofBits pattern).isNaN = false →
    |Binary32.value (Float32.ofBits pattern)| < 65520 →
      half.IsNearest (Binary32.value (Float32.ofBits pattern))
  infinite : (Float32.ofBits pattern).isNaN = false →
    65520 ≤ |Binary32.value (Float32.ofBits pattern)| → half.unpacked = .infinity half.sign
  quiet : (Float32.ofBits pattern).isNaN = true →
    half.unpacked = .notANumber ∧ half.bits.toNat.testBit 9 = true

theorem roundMagnitude_le_quietPattern (bits : ℕ) : roundMagnitude bits ≤ quietPattern := by
  rcases Nat.lt_or_ge 0x7f800000 bits with noNumber | number
  · exact (roundMagnitude_of_isNaN noNumber).le
  · exact (roundMagnitude_le number).trans (by decide)

theorem toNat_ofSinglePattern (pattern : UInt32) :
    (ofSinglePattern pattern).bits.toNat =
      pattern.toNat / 2 ^ 31 * 2 ^ 15 + roundMagnitude (pattern.toNat % 2 ^ 31) := by
  have short : pattern.toNat < 2 ^ 32 := pattern.toBitVec.isLt
  have small := roundMagnitude_le_quietPattern (pattern.toNat % 2 ^ 31)
  unfold quietPattern at small
  refine (UInt16.toNat_ofNat').trans (Nat.mod_eq_of_lt ?_)
  omega

theorem place_ofSinglePattern (pattern : UInt32) :
    (ofSinglePattern pattern).bits.toNat % 2 ^ 15 = roundMagnitude (pattern.toNat % 2 ^ 31) := by
  have small := roundMagnitude_le_quietPattern (pattern.toNat % 2 ^ 31)
  unfold quietPattern at small
  rw [toNat_ofSinglePattern]
  omega

/-- Narrowing keeps the sign. -/
theorem sign_ofSinglePattern (pattern : UInt32) :
    (ofSinglePattern pattern).sign = Binary32.signOf pattern := by
  have small := roundMagnitude_le_quietPattern (pattern.toNat % 2 ^ 31)
  unfold quietPattern at small
  have digit : (ofSinglePattern pattern).bits.toNat / 2 ^ 15 = pattern.toNat / 2 ^ 31 := by
    rw [toNat_ofSinglePattern]
    omega
  show (if (ofSinglePattern pattern).bits.toNat / 2 ^ 15 = 1 then Sign.negative else .positive) =
    if pattern.toNat / 2 ^ 31 = 1 then Sign.negative else .positive
  rw [digit]

theorem distance_signedValue (sign : Sign) (x y : ℚ) :
    |signedValue sign x - signedValue sign y| = |x - y| := by
  cases sign
  · exact (congrArg _ (neg_sub_neg x y)).trans (abs_sub_comm y x)
  · rfl

/-- Numbers of different signs are as far apart as the sum of their magnitudes. -/
theorem distance_signedValue_neg (sign : Sign) {x y : ℚ} (nonneg : 0 ≤ x) (nonnegSecond : 0 ≤ y) :
    |signedValue sign x - signedValue (-sign) y| = x + y := by
  rw [signedValue_neg, sub_neg_eq_add]
  cases sign
  · show |-x + -y| = x + y
    rw [← neg_add, abs_neg, abs_of_nonneg (add_nonneg nonneg nonnegSecond)]
  · exact abs_of_nonneg (add_nonneg nonneg nonnegSecond)

theorem eq_or_eq_neg (sign other : Sign) : other = sign ∨ other = -sign := by
  cases sign <;> cases other
  exacts [.inl rfl, .inr rfl, .inr rfl, .inl rfl]

/-- Numbers lie at least as far apart as their magnitudes. -/
theorem distance_le_signedValue (sign other : Sign) {x y : ℚ} (nonneg : 0 ≤ x)
    (nonnegSecond : 0 ≤ y) : |x - y| ≤ |signedValue sign x - signedValue other y| := by
  rcases eq_or_eq_neg sign other with rfl | rfl
  · exact (distance_signedValue other x y).ge
  · rw [distance_signedValue_neg sign nonneg nonnegSecond]
    exact abs_le.mpr ⟨by linarith, by linarith⟩

/-- A number that is as near as its magnitude, and nearer than zero, has the same sign. -/
theorem signedValue_eq_of_distance {sign other : Sign} {x y : ℚ} (nonneg : 0 ≤ x)
    (nonnegSecond : 0 ≤ y) (near : |x - y| ≤ x)
    (same : |signedValue sign x - signedValue other y| = |x - y|) :
    signedValue other y = signedValue sign y := by
  rcases eq_or_eq_neg sign other with rfl | rfl
  · rfl
  · rw [distance_signedValue_neg sign nonneg nonnegSecond] at same
    have none : y = 0 := by linarith
    rw [none, signedValue_zero, signedValue_zero]

section Numbers

variable (number : (Float32.ofBits pattern).isNaN = false)

include number

theorem place_le_of_number : pattern.toNat % 2 ^ 31 ≤ 0x7f800000 :=
  not_lt.mp fun beyond => by
    rw [(Binary32.isNaN_ofBits pattern).mpr beyond] at number
    cases number

theorem abs_value_ofBits : |Binary32.value (Float32.ofBits pattern)| =
    magnitude 23 (-149) (pattern.toNat % 2 ^ 31) := by
  rw [Binary32.value_ofBits number, abs_signedValue, abs_of_nonneg magnitude_nonneg]

/-- Numbers below half way between the greatest finite number and `2 ^ 16` stay finite. -/
theorem finite_ofSinglePattern_iff :
    (ofSinglePattern pattern).bits.toNat % 2 ^ 15 < infinityPattern ↔
      |Binary32.value (Float32.ofBits pattern)| < 65520 := by
  rw [place_ofSinglePattern, roundMagnitude_lt_iff (place_le_of_number number),
    abs_value_ofBits number]

/-- A finite narrowed number is the nearest one. -/
theorem isNearest_ofSinglePattern (inside : |Binary32.value (Float32.ofBits pattern)| < 65520) :
    (ofSinglePattern pattern).IsNearest (Binary32.value (Float32.ofBits pattern)) := by
  have bound := place_le_of_number number
  have finite := (finite_ofSinglePattern_iff number).mpr inside
  have small : pattern.toNat % 2 ^ 31 < 143 * 2 ^ 23 := by
    by_contra beyond
    rw [place_ofSinglePattern, roundMagnitude_of_beyond (not_lt.mp beyond) bound] at finite
    exact Nat.lt_irrefl _ finite
  have exact_eq := Binary32.value_ofBits number
  have own := value_of_finite finite
  rw [sign_ofSinglePattern, place_ofSinglePattern] at own
  have distance := distance_signedValue (Binary32.signOf pattern)
    (magnitude 23 (-149) (pattern.toNat % 2 ^ 31))
    (magnitude 10 (-24) (roundMagnitude (pattern.toNat % 2 ^ 31)))
  have near := roundMagnitude_nearest small
  rw [← own, ← exact_eq] at distance
  have far : ∀ other : Half, other.unpacked.isFinite = true →
      |magnitude 23 (-149) (pattern.toNat % 2 ^ 31) -
          magnitude 10 (-24) (other.bits.toNat % 2 ^ 15)| ≤
        |Binary32.value (Float32.ofBits pattern) - other.value| := fun other finiteOther => by
    rw [exact_eq, value_of_finite (isFinite_iff.mp finiteOther)]
    exact distance_le_signedValue _ _ magnitude_nonneg magnitude_nonneg
  refine ⟨isFinite_iff.mpr finite, fun other finiteOther => ?_,
    fun other finiteOther different tie => ?_⟩
  · rw [distance]
    exact (near _).1.trans (far other finiteOther)
  · have asNear := (far other finiteOther).trans_eq (tie.trans distance)
    have low : (ofSinglePattern pattern).bits.toNat % 2 =
        roundMagnitude (pattern.toNat % 2 ^ 31) % 2 := by
      rw [toNat_ofSinglePattern]
      omega
    rw [low]
    refine (near (other.bits.toNat % 2 ^ 15)).2 (fun place => different ?_)
      (asNear.antisymm (near _).1)
    -- at the same place, only the sign could differ
    have zero := (near 0).1
    rw [magnitude_zero, sub_zero, abs_of_nonneg magnitude_nonneg] at zero
    have value := value_of_finite (isFinite_iff.mp finiteOther)
    rw [place] at value
    rw [value, own]
    refine signedValue_eq_of_distance magnitude_nonneg magnitude_nonneg zero ?_
    rw [← value, ← exact_eq, tie, distance]

end Numbers

theorem ofSinglePattern_narrows (pattern : UInt32) : (ofSinglePattern pattern).Narrows pattern where
  sign := sign_ofSinglePattern pattern
  nearest := isNearest_ofSinglePattern
  infinite number beyond := by
    refine unpacked_of_infinite (le_antisymm ?_ ?_)
    · rw [place_ofSinglePattern]
      exact roundMagnitude_le (place_le_of_number number)
    · exact not_lt.mp (mt (finite_ofSinglePattern_iff number).mp beyond.not_gt)
  quiet noNumber := by
    have place := (place_ofSinglePattern pattern).trans
      (roundMagnitude_of_isNaN ((Binary32.isNaN_ofBits pattern).mp noNumber))
    refine ⟨?_, ?_⟩
    · rw [← UnpackedFloat.isNaN_iff, ← isNaN_iff, isNaN, place]
      rfl
    · have quiet : ((ofSinglePattern pattern).bits.toNat % 2 ^ 15).testBit 9 = true := by
        rw [place]
        rfl
      rw [Nat.testBit_mod_two_pow] at quiet
      exact (Bool.and_eq_true_iff.mp quiet).2

/-! ## Widening -/

/-- A half precision number denotes the same as a pattern of single precision. -/
structure Widens (half : Half) (pattern : UInt32) : Prop where
  sign : Binary32.signOf pattern = half.sign
  isNaN : (Float32.ofBits pattern).isNaN = half.isNaN
  isFinite : (Float32.ofBits pattern).isFinite = half.unpacked.isFinite
  value : Binary32.value (Float32.ofBits pattern) = half.value

theorem widenMagnitude_lt_two_pow {place : ℕ} (short : place < 2 ^ 15) :
    widenMagnitude place < 2 ^ 31 := by
  rcases Nat.lt_or_ge place infinityPattern with finite | infinite
  · have inside := widenMagnitude_lt finite
    omega
  · rw [widenMagnitude_of_infinityPattern_le infinite short]
    unfold infinityPattern
    omega

theorem toNat_singlePattern (half : Half) :
    half.singlePattern.toNat =
      half.bits.toNat / 2 ^ 15 * 2 ^ 31 + widenMagnitude (half.bits.toNat % 2 ^ 15) := by
  have short : half.bits.toNat < 2 ^ 16 := half.bits.toBitVec.isLt
  have small := widenMagnitude_lt_two_pow (Nat.mod_lt half.bits.toNat (Nat.two_pow_pos 15))
  refine (UInt32.toNat_ofNat').trans (Nat.mod_eq_of_lt ?_)
  omega

theorem fields_singlePattern (half : Half) :
    half.singlePattern.toNat / 2 ^ 31 = half.bits.toNat / 2 ^ 15 ∧
      half.singlePattern.toNat % 2 ^ 31 = widenMagnitude (half.bits.toNat % 2 ^ 15) := by
  have small := widenMagnitude_lt_two_pow (Nat.mod_lt half.bits.toNat (Nat.two_pow_pos 15))
  rw [toNat_singlePattern]
  constructor <;> omega

/-- Widening keeps the sign. -/
theorem signOf_singlePattern (half : Half) : Binary32.signOf half.singlePattern = half.sign := by
  show (if half.singlePattern.toNat / 2 ^ 31 = 1 then Sign.negative else .positive) =
    if half.bits.toNat / 2 ^ 15 = 1 then Sign.negative else .positive
  rw [(fields_singlePattern half).1]

/-- Widening keeps what is not a number. -/
theorem isNaN_singlePattern (half : Half) :
    (Float32.ofBits half.singlePattern).isNaN = half.isNaN := by
  rw [Bool.eq_iff_iff, Binary32.isNaN_ofBits, (fields_singlePattern half).2, isNaN,
    decide_eq_true_iff]
  rcases Nat.lt_or_ge (half.bits.toNat % 2 ^ 15) infinityPattern with finite | infinite
  · have inside := widenMagnitude_lt finite
    exact iff_of_false (by omega) finite.not_gt
  · rw [widenMagnitude_of_infinityPattern_le infinite (Nat.mod_lt _ (Nat.two_pow_pos 15))]
    omega

/-- Widening is exact. -/
theorem value_singlePattern (number : half.isNaN = false) :
    Binary32.value (Float32.ofBits half.singlePattern) = half.value := by
  have kept := isNaN_singlePattern half
  rw [number] at kept
  rw [Binary32.value_ofBits kept, signOf_singlePattern, (fields_singlePattern half).2]
  have inside : half.bits.toNat % 2 ^ 15 ≤ infinityPattern := by
    rw [isNaN, decide_eq_false_iff_not] at number
    exact not_lt.mp number
  rcases inside.lt_or_eq with finite | infinite
  · rw [magnitude_widenMagnitude finite, value_of_finite finite]
  · rw [infinite, value, unpacked_of_infinite infinite]
    show signedValue _ (magnitude 23 (-149) ((254 + 1) * 2 ^ 23)) = signedValue _ overflowBound
    rw [magnitude_binade]
    norm_num [overflowBound]

/-- Every half precision number is widened to what it denotes. -/
theorem singlePattern_widens (half : Half) : half.Widens half.singlePattern where
  sign := signOf_singlePattern half
  isNaN := isNaN_singlePattern half
  isFinite := by
    rw [Bool.eq_iff_iff, Binary32.isFinite_ofBits, (fields_singlePattern half).2, isFinite_iff]
    rcases Nat.lt_or_ge (half.bits.toNat % 2 ^ 15) infinityPattern with finite | infinite
    · have inside := widenMagnitude_lt finite
      exact iff_of_true (by omega) finite
    · rw [widenMagnitude_of_infinityPattern_le infinite (Nat.mod_lt _ (Nat.two_pow_pos 15))]
      omega
  value := by
    rcases Bool.eq_false_or_eq_true half.isNaN with noNumber | number
    · have kept := (isNaN_singlePattern half).trans noNumber
      rw [Binary32.value, Binary32.unpack_of_isNaN kept, value,
        UnpackedFloat.isNaN_iff.mp (isNaN_iff.mp noNumber)]
    · exact value_singlePattern number

/-- Narrowing takes widening back. -/
theorem ofFloat32_toFloat32 (number : half.isNaN = false) : ofFloat32 half.toFloat32 = half := by
  have kept := isNaN_singlePattern half
  rw [number] at kept
  have inside : half.bits.toNat % 2 ^ 15 ≤ infinityPattern := by
    rw [isNaN, decide_eq_false_iff_not] at number
    exact not_lt.mp number
  obtain ⟨negative, place⟩ := fields_singlePattern half
  have bits : (ofSinglePattern half.singlePattern).bits = half.bits := by
    apply UInt16.toNat_inj.mp
    rw [toNat_ofSinglePattern, negative, place, roundMagnitude_widenMagnitude inside]
    exact Nat.div_add_mod' _ _
  unfold ofFloat32 toFloat32
  rw [Binary32.toBits_ofBits kept]
  generalize ofSinglePattern half.singlePattern = narrowed at bits
  cases narrowed
  cases half
  exact congrArg Half.mk bits

/-! ## Order -/

/-- Magnitudes of half precision, with the bound of single precision for infinity. -/
def boundedMagnitude (place : ℕ) : ℚ :=
  if place < infinityPattern then magnitude 10 (-24) place else overflowBound

theorem boundedMagnitude_mono {place other : ℕ} (ordered : place ≤ other) :
    boundedMagnitude place ≤ boundedMagnitude other := by
  unfold boundedMagnitude
  split
  · rename_i finite
    split
    · exact (magnitude_strictMono 10 (-24)).monotone ordered
    · have small := (magnitude_strictMono 10 (-24)).monotone finite.le
      rw [magnitude_infinityPattern] at small
      exact small.trans (by norm_num [overflowBound])
  · rw [if_neg (by omega)]

theorem value_eq (number : half.isNaN = false) :
    half.value = signedValue half.sign (boundedMagnitude (half.bits.toNat % 2 ^ 15)) := by
  unfold boundedMagnitude
  split
  · rename_i finite
    exact value_of_finite finite
  · rename_i infinite
    rw [isNaN, decide_eq_false_iff_not] at number
    rw [value, unpacked_of_infinite (le_antisymm (not_lt.mp number) (not_lt.mp infinite))]
    rfl

theorem isNaN_ofSinglePattern (pattern : UInt32) :
    (ofSinglePattern pattern).isNaN = (Float32.ofBits pattern).isNaN := by
  rw [Bool.eq_iff_iff, Binary32.isNaN_ofBits, isNaN, decide_eq_true_iff, place_ofSinglePattern]
  rcases Nat.lt_or_ge 0x7f800000 (pattern.toNat % 2 ^ 31) with noNumber | number
  · exact iff_of_true (by rw [roundMagnitude_of_isNaN noNumber]; decide) noNumber
  · exact iff_of_false (roundMagnitude_le number).not_gt number.not_gt

/-- A map of magnitudes that keeps their order and zero keeps the order of numbers. -/
theorem signedValue_mono {sign other : Sign} {x y image second : ℚ} (nonneg : 0 ≤ x)
    (nonnegSecond : 0 ≤ y) (mapped : 0 ≤ image) (mappedSecond : 0 ≤ second)
    (up : x ≤ y → image ≤ second) (down : y ≤ x → second ≤ image) (zero : x ≤ 0 → image = 0)
    (zeroSecond : y ≤ 0 → second = 0) (ordered : signedValue sign x ≤ signedValue other y) :
    signedValue sign image ≤ signedValue other second := by
  cases sign <;> cases other
  · exact neg_le_neg (down (neg_le_neg_iff.mp ordered))
  · exact (neg_nonpos.mpr mapped).trans mappedSecond
  · have sum : x ≤ -y := ordered
    rw [zero (by linarith), zeroSecond (by linarith)]
    exact le_of_eq neg_zero.symm
  · exact up ordered

/-- Narrowing keeps the order of numbers. -/
theorem value_ofSinglePattern_mono {pattern greater : UInt32}
    (number : (Float32.ofBits pattern).isNaN = false)
    (numberRight : (Float32.ofBits greater).isNaN = false)
    (ordered : Binary32.value (Float32.ofBits pattern) ≤ Binary32.value (Float32.ofBits greater)) :
    (ofSinglePattern pattern).value ≤ (ofSinglePattern greater).value := by
  have bound := place_le_of_number number
  have boundRight := place_le_of_number numberRight
  have order := magnitude_strictMono 23 (-149)
  have bounded : ∀ place, 0 ≤ boundedMagnitude place := fun place =>
    (boundedMagnitude_mono (Nat.zero_le place)).trans_eq' (by
      rw [boundedMagnitude, if_pos (by decide), magnitude_zero])
  have none : ∀ place, magnitude 23 (-149) place ≤ 0 →
      boundedMagnitude (roundMagnitude place) = 0 := by
    intro place zero
    rw [← @magnitude_zero 23 (-149), order.le_iff_le] at zero
    rw [Nat.le_zero.mp zero]
    exact magnitude_zero
  rw [Binary32.value_ofBits number, Binary32.value_ofBits numberRight] at ordered
  rw [value_eq ((isNaN_ofSinglePattern pattern).trans number),
    value_eq ((isNaN_ofSinglePattern greater).trans numberRight), sign_ofSinglePattern,
    sign_ofSinglePattern, place_ofSinglePattern, place_ofSinglePattern]
  exact signedValue_mono magnitude_nonneg magnitude_nonneg (bounded _) (bounded _)
    (fun less => boundedMagnitude_mono (roundMagnitude_mono (order.le_iff_le.mp less) boundRight))
    (fun less => boundedMagnitude_mono (roundMagnitude_mono (order.le_iff_le.mp less) bound))
    (none _) (none _) ordered

end Half

/-! ## Conversion -/

theorem isNaN_eq_false_of_le {x y : Float32} (ordered : x ≤ y) :
    x.isNaN = false ∧ y.isNaN = false := by
  change decide (x.toModel ≤ y.toModel) = true at ordered
  rw [decide_eq_true_iff] at ordered
  change x.toModel.unpack.le y.toModel.unpack = true at ordered
  show x.toModel.unpack.isNaN = false ∧ y.toModel.unpack.isNaN = false
  generalize x.toModel.unpack = left at ordered
  generalize y.toModel.unpack = right at ordered
  cases left with
  | notANumber => cases ordered
  | infinity sign | zero sign | finite sign mantissa exponent positive =>
      cases right with
      | notANumber => cases ordered
      | infinity | zero | finite => exact ⟨rfl, rfl⟩

/-- Narrowing to half precision rounds every pattern correctly and widening is exact, so that
narrowing takes widening back and keeps the order of numbers. -/
theorem half_conversion_rounds_correctly :
    (∀ pattern : UInt32, (Half.ofSinglePattern pattern).Narrows pattern) ∧
      (∀ half : Half, half.Widens half.singlePattern) ∧
      (∀ half : Half, half.isNaN = false → Half.ofFloat32 half.toFloat32 = half) ∧
      ∀ x y : Float32, x ≤ y → (Half.ofFloat32 x).toFloat32 ≤ (Half.ofFloat32 y).toFloat32 := by
  refine ⟨Half.ofSinglePattern_narrows, Half.singlePattern_widens,
    fun _ => Half.ofFloat32_toFloat32, fun x y ordered => ?_⟩
  obtain ⟨number, numberRight⟩ := isNaN_eq_false_of_le ordered
  rw [Binary32.le_iff number numberRight] at ordered
  rw [← Float32.ofBits_toBits x] at number ordered
  rw [← Float32.ofBits_toBits y] at numberRight ordered
  have kept := Half.singlePattern_widens (Half.ofFloat32 x)
  have keptRight := Half.singlePattern_widens (Half.ofFloat32 y)
  have narrow := (Half.isNaN_ofSinglePattern x.toBits).trans number
  have narrowRight := (Half.isNaN_ofSinglePattern y.toBits).trans numberRight
  unfold Half.toFloat32
  rw [Binary32.le_iff (kept.isNaN.trans narrow) (keptRight.isNaN.trans narrowRight), kept.value,
    keptRight.value]
  exact Half.value_ofSinglePattern_mono number numberRight ordered

theorem half_conversion_at_boundaries :
    (Half.ofSinglePattern 0x477ff000).unpacked = .infinity .positive ∧
      (Half.ofSinglePattern 0x477fefff).IsNearest
        (Binary32.value (Float32.ofBits 0x477fefff)) ∧
      (Half.ofSinglePattern 0xff800001).unpacked = .notANumber ∧
      Half.ofFloat32 (Half.toFloat32 ⟨0x8001⟩) = ⟨0x8001⟩ ∧
      (Half.ofFloat32 (Float32.ofBits 0x33000000)).toFloat32 ≤
        (Half.ofFloat32 (Float32.ofBits 0x33000001)).toFloat32 := by
  obtain ⟨narrows, -, roundTrip, monotone⟩ := half_conversion_rounds_correctly
  have number : ∀ pattern : UInt32, pattern.toNat % 2 ^ 31 ≤ 0x7f800000 →
      (Float32.ofBits pattern).isNaN = false := fun pattern inside =>
    Bool.eq_false_iff.mpr (mt (Binary32.isNaN_ofBits pattern).mp inside.not_gt)
  refine ⟨(narrows 0x477ff000).infinite (number _ (by decide)) ?_,
    (narrows 0x477fefff).nearest (number _ (by decide)) ?_,
    ((narrows 0xff800001).quiet ((Binary32.isNaN_ofBits _).mpr (by decide))).1,
    roundTrip ⟨0x8001⟩ (by decide), monotone _ _ (by decide)⟩
  · rw [Half.abs_value_ofBits (number _ (by decide))]
    show 65520 ≤ magnitude 23 (-149) 0x477ff000
    norm_num [magnitude, digits, gap]
  · rw [Half.abs_value_ofBits (number _ (by decide))]
    show magnitude 23 (-149) 0x477fefff < 65520
    norm_num [magnitude, digits, gap]

end TensorEngine.Numeric
