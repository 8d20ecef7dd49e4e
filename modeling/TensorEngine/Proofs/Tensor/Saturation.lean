import TensorEngine.Proofs.Tensor.CodeConfinement

/-!
Contract: the codes at which quantization saturates between bounds of 32 bits.

Owns:
- `Quantization.roundedBound`, the code at which a bound is met once it has been rounded to single
  precision;
- `Quantization.KeepsBounds`, bounds that rounding does not move outwards;
- the theorem that codes lie between the rounded bounds and meet both of them, so that they lie
  between the bounds themselves exactly if rounding keeps these.

Does not own: the codes of a byte, whose bounds single precision holds exactly.

What is not a number is confined as an integer, and never leaves the bounds.
-/

namespace TensorEngine

open TensorEngine.Numeric

namespace Quantization

/-! ## Rounded bounds -/

/-- The code at which a bound is met: the bound rounded to single precision, as an integer again. -/
def roundedBound (bound : Int32) : Int32 :=
  Binary32.toInt32 (Binary32.ofInt bound.toInt)

/-- Rounding moves neither bound outwards. -/
def KeepsBounds (low high : Int32) : Prop :=
  low ≤ roundedBound low ∧ roundedBound high ≤ high

instance (low high : Int32) : Decidable (KeepsBounds low high) :=
  inferInstanceAs (Decidable (_ ∧ _))

/-- Bounds of at most 24 bits stay as they are. -/
theorem roundedBound_of_short {bound : Int32} (short : |bound.toInt| ≤ 2 ^ 24) :
    roundedBound bound = bound :=
  Int32.toInt_inj.mp
    (Binary32.toInt32_of_value (Binary32.value_ofInt short) bound.le_toInt bound.toInt_lt)

theorem keepsBounds_of_short {low high : Int32} (short : |low.toInt| ≤ 2 ^ 24)
    (shortHigh : |high.toInt| ≤ 2 ^ 24) : KeepsBounds low high :=
  ⟨by rw [roundedBound_of_short short]; exact Int32.le_refl low,
    by rw [roundedBound_of_short shortHigh]; exact Int32.le_refl high⟩

/-- The bounds of every storage type are kept: the greatest code of 32 bits is rounded upwards, and
saturates on its way back. -/
theorem keepsBounds_codeRange (element : ElementType) :
    KeepsBounds element.codeRange.1 element.codeRange.2 := by
  cases element <;> decide +kernel

/-! ## Codes of numbers -/

variable {quantization : Quantization} {low high : Int32}

theorem IsScaled.exists_quantize_rounded (scaled : quantization.IsScaled) {x : Float32}
    (number : x.isNaN = false) (ordered : low ≤ high) :
    ∃ code, quantization.quantize x low high = .ok code ∧
      roundedBound low ≤ code ∧ code ≤ roundedBound high := by
  obtain ⟨confined, ran, value⟩ := scaled.quantize_eq number ordered
  have bounds := ofInt_mono ordered
  refine ⟨_, ran, Int32.le_iff_toInt_le.mpr (Binary32.toInt32_mono ?_),
    Int32.le_iff_toInt_le.mpr (Binary32.toInt32_mono ?_)⟩
  · rw [value]
    exact le_max_left _ _
  · rw [value]
    exact max_le bounds (min_le_right _ _)

/-- What is not a number has a code between the bounds themselves. -/
theorem exists_quantize_of_isNaN {x : Float32} (noNumber : x.isNaN = true) (ordered : low ≤ high) :
    ∃ code, quantization.quantize x low high = .ok code ∧ low ≤ code ∧ code ≤ high := by
  obtain ⟨code, confined⟩ := @exists_confineCode quantization.zeroPoint low high ordered
  rw [quantize_of_isNaN noNumber]
  exact ⟨code, confined, confineCode_inside confined⟩

/-- An infinity is its own unconfined code. -/
theorem IsScaled.unconfined_infinite (scaled : quantization.IsScaled) {x : Float32}
    (number : x.isNaN = false) (extreme : |Binary32.value x| = overflowBound) :
    Binary32.value (quantization.unconfined x) = Binary32.value x := by
  have divided := Binary32.saturating_div scaled.finite scaled.positive
  have shifted := Binary32.saturating_add
    (Binary32.isFinite_ofInt (abs_code_lt quantization.zeroPoint))
  have infinite : ∀ {y : Float32}, Binary32.value y = Binary32.value x → y.isFinite = false := by
    intro y same
    rw [Bool.eq_false_iff, ne_eq, Binary32.isFinite_iff, same, extreme]
    exact fun inside => lt_irrefl _ inside.2
  -- the value of an infinity is integral, so that rounding leaves it as well
  have integral : (halfEven (Binary32.value x) : ℚ) = Binary32.value x := by
    have power : overflowBound = ((2 ^ 128 : ℤ) : ℚ) := by norm_num [overflowBound]
    rcases eq_or_eq_neg_of_abs_eq extreme with top | bottom
    · rw [top, power, halfEven_intCast]
    · rw [bottom, power, ← Int.cast_neg, halfEven_intCast]
  obtain ⟨quotientNumber, quotient⟩ := divided.infinite number (infinite rfl)
  obtain ⟨rounded, roundedNumber⟩ := Binary32.roundEven_spec (x / quantization.scale)
  rw [quotient, integral] at rounded
  exact (shifted.infinite (roundedNumber quotientNumber) (infinite rounded)).2.trans rounded

theorem IsScaled.quantize_infinities (scaled : quantization.IsScaled) (ordered : low ≤ high) :
    quantization.quantize Binary32.negativeInfinity low high = .ok (roundedBound low) ∧
      quantization.quantize Binary32.infinity low high = .ok (roundedBound high) := by
  have congr : ∀ {x y : Float32}, Binary32.value x = Binary32.value y →
      Binary32.toInt32 x = Binary32.toInt32 y := fun same =>
    Int32.toInt_inj.mp (by rw [Binary32.toInt32_eq, Binary32.toInt32_eq, same])
  have bounds := ofInt_mono ordered
  obtain ⟨least, _⟩ := abs_le.mp (Binary32.abs_value_le (Binary32.ofInt low.toInt))
  obtain ⟨_, most⟩ := abs_le.mp (Binary32.abs_value_le (Binary32.ofInt high.toInt))
  have positive : |overflowBound| = overflowBound := abs_of_pos (by norm_num [overflowBound])
  constructor
  · obtain ⟨confined, ran, value⟩ :=
      scaled.quantize_eq Binary32.isNaN_negativeInfinity ordered
    rw [scaled.unconfined_infinite Binary32.isNaN_negativeInfinity
      (by rw [Binary32.value_negativeInfinity, abs_neg, positive]),
      Binary32.value_negativeInfinity, max_eq_left ((min_le_left _ _).trans least)] at value
    rw [ran, roundedBound, congr value]
  · obtain ⟨confined, ran, value⟩ := scaled.quantize_eq Binary32.isNaN_infinity ordered
    rw [scaled.unconfined_infinite Binary32.isNaN_infinity
      (by rw [Binary32.value_infinity, positive]), Binary32.value_infinity, min_eq_right most,
      max_eq_right bounds] at value
    rw [ran, roundedBound, congr value]

/-! ## Saturation -/

/-- Quantization saturates at its bounds as single precision rounds them.

For every finite positive scale, any zero point and any 32-bit bounds in order, everything has a
code. The code of a number lies between the rounded bounds, and the code of what is not a number
between the bounds themselves. All codes lie between the bounds themselves if and only if rounding
keeps these; it does so for bounds of at most 24 bits and for those of every storage type. -/
theorem quantize_saturates_at_rounded_bounds (scaled : quantization.IsScaled)
    (ordered : low ≤ high) :
    (∀ x : Float32, ∃ code, quantization.quantize x low high = .ok code ∧
      (x.isNaN = true → low ≤ code ∧ code ≤ high) ∧
      (x.isNaN = false → roundedBound low ≤ code ∧ code ≤ roundedBound high)) ∧
    ((∀ (x : Float32) (code : Int32), quantization.quantize x low high = .ok code →
      low ≤ code ∧ code ≤ high) ↔ KeepsBounds low high) ∧
    (|low.toInt| ≤ 2 ^ 24 ∧ |high.toInt| ≤ 2 ^ 24 ∨
      (∃ element : ElementType, element.codeRange = (low, high)) → KeepsBounds low high) := by
  have each : ∀ x : Float32, ∃ code, quantization.quantize x low high = .ok code ∧
      (x.isNaN = true → low ≤ code ∧ code ≤ high) ∧
      (x.isNaN = false → roundedBound low ≤ code ∧ code ≤ roundedBound high) := by
    intro x
    cases number : x.isNaN with
    | true =>
        obtain ⟨code, ran, inside⟩ :=
          @exists_quantize_of_isNaN quantization low high x number ordered
        exact ⟨code, ran, fun _ => inside, nofun⟩
    | false =>
        obtain ⟨code, ran, between⟩ := scaled.exists_quantize_rounded number ordered
        exact ⟨code, ran, nofun, fun _ => between⟩
  refine ⟨each, ⟨fun inside => ?_, fun keeps x code ran => ?_⟩, ?_⟩
  · obtain ⟨least, greatest⟩ := scaled.quantize_infinities ordered
    exact ⟨(inside _ _ least).1, (inside _ _ greatest).2⟩
  · obtain ⟨found, same, confined, between⟩ := each x
    cases ran.symm.trans same
    cases number : x.isNaN with
    | true => exact confined number
    | false =>
        obtain ⟨least, most⟩ := between number
        exact ⟨Int32.le_trans keeps.1 least, Int32.le_trans most keeps.2⟩
  · rintro (⟨short, shortHigh⟩ | ⟨element, range⟩)
    · exact keepsBounds_of_short short shortHigh
    · have keeps := keepsBounds_codeRange element
      rwa [range] at keeps

/-- The theorem applies to bounds of 25 bits: rounding moves the upper one outwards, so that some
number has a code beyond it. -/
theorem quantize_saturates_at_rounded_bounds_odd :
    (⟨0, Binary32.one⟩ : Quantization).IsScaled ∧ (-16777217 : Int32) ≤ 16777219 ∧
      ∃ (x : Float32) (code : Int32),
        (⟨0, Binary32.one⟩ : Quantization).quantize x (-16777217) 16777219 = .ok code ∧
          ¬ (-16777217 ≤ code ∧ code ≤ 16777219) := by
  have scaled : (⟨0, Binary32.one⟩ : Quantization).IsScaled := ⟨by decide, by decide +kernel⟩
  have ordered : (-16777217 : Int32) ≤ 16777219 := by decide
  have moved : ¬ KeepsBounds (-16777217) 16777219 := by decide +kernel
  by_contra inside
  push Not at inside
  exact moved ((quantize_saturates_at_rounded_bounds scaled ordered).2.1.mp
    (inside scaled ordered))

/-- Between equal bounds of 25 bits, zero has a code below both. -/
theorem quantize_leaves_odd_bounds :
    (⟨0, Binary32.one⟩ : Quantization).IsScaled ∧
      (⟨0, Binary32.one⟩ : Quantization).quantize Binary32.zero 16777217 16777217 =
        .ok 16777216 ∧
      ¬ (16777217 : Int32) ≤ 16777216 :=
  ⟨⟨by decide, by decide +kernel⟩, by decide +kernel, by decide⟩

end Quantization

end TensorEngine
