import TensorEngine.Proofs.Numeric.Bounded
import TensorEngine.Proofs.Numeric.ScaledIntegers
import TensorEngine.Proofs.Tensor.CodeBounds
import TensorEngine.Proofs.Tensor.Quantization

/-!
Contract: codes of a byte confined between bounds, on their own and through the numbers that they
stand for.

Owns:
- the code of zero and of what is not a number;
- `quantize_dequantize`, by which a code whose number is finite comes back;
- `quantize_bounded`, by which quantization commutes with the confinement of numbers.

Does not own: the monotonicity of quantization, and which kernels quantize.
-/

namespace TensorEngine

open TensorEngine.Numeric

/-- A confined code as maximum and minimum. -/
theorem exists_confineCode_toInt {code low high : Int32} (ordered : low ≤ high) :
    ∃ confined, confineCode code low high = .ok confined ∧
      confined.toInt = max low.toInt (min code.toInt high.toInt) := by
  unfold confineCode
  rw [if_pos ordered]
  rw [Int32.le_iff_toInt_le] at ordered
  refine ⟨_, rfl, ?_⟩
  by_cases below : code < low
  · rw [if_pos below]
    rw [Int32.lt_iff_toInt_lt] at below
    omega
  · rw [if_neg below]
    rw [Int32.lt_iff_toInt_lt] at below
    by_cases above : high < code
    · rw [if_pos above]
      rw [Int32.lt_iff_toInt_lt] at above
      omega
    · rw [if_neg above]
      rw [Int32.lt_iff_toInt_lt] at above
      omega

/-- A code between the bounds stays. -/
theorem confineCode_of_inside {code low high : Int32} (least : low ≤ code) (most : code ≤ high) :
    confineCode code low high = .ok code := by
  rw [Int32.le_iff_toInt_le] at least most
  obtain ⟨confined, ran, value⟩ :=
    @exists_confineCode_toInt code low high (Int32.le_iff_toInt_le.mpr (least.trans most))
  rw [min_eq_left most, max_eq_right least, Int32.toInt_inj] at value
  rw [ran, value]

theorem ElementType.IsByteCode.short {element : ElementType} (coded : element.IsByteCode) :
    |element.codeRange.1.toInt| ≤ 2 ^ 24 ∧ |element.codeRange.2.toInt| ≤ 2 ^ 24 := by
  rcases coded with rfl | rfl <;> decide

theorem ElementType.IsByteCode.short_of_inside {element : ElementType}
    (coded : element.IsByteCode) {code : Int32} (least : element.codeRange.1 ≤ code)
    (most : code ≤ element.codeRange.2) : |code.toInt| ≤ 255 := by
  rw [Int32.le_iff_toInt_le] at least most
  rw [abs_le]
  rcases coded with rfl | rfl
  · change -128 ≤ code.toInt at least
    change code.toInt ≤ 127 at most
    omega
  · change 0 ≤ code.toInt at least
    change code.toInt ≤ 255 at most
    omega

namespace Quantization

variable {quantization : Quantization} {element : ElementType}

theorem zeroPoint_coded (coded : element.IsByteCode)
    (valid : quantization.validate element = .ok ()) :
    element.codeRange.1 ≤ quantization.zeroPoint ∧
      quantization.zeroPoint ≤ element.codeRange.2 := by
  have ranged : element.codeRange? = some element.codeRange := by
    rcases coded with rfl | rfl <;> rfl
  rw [Int32.le_iff_toInt_le, Int32.le_iff_toInt_le]
  exact zeroPoint_inside valid ranged

/-! ## Single numbers -/

theorem quantize_of_isNaN {x : Float32} (noNumber : x.isNaN = true) (low high : Int32) :
    quantization.quantize x low high = confineCode quantization.zeroPoint low high := by
  have divided := Binary32.isNaN_div noNumber quantization.scale
  have rounded := Binary32.roundEven_of_isNaN divided
  unfold quantize
  extract_lets code lowest highest
  refine if_pos ?_
  show (Binary32.roundEven (x / quantization.scale) + _).isNaN = true
  rw [rounded]
  exact Binary32.isNaN_add divided _

theorem IsScaled.quantize_of_integral (scaled : quantization.IsScaled) {x : Float32}
    (number : x.isNaN = false) {low high code : Int32} (ordered : low ≤ high)
    (short : |low.toInt| ≤ 2 ^ 24) (shortHigh : |high.toInt| ≤ 2 ^ 24)
    (integral : Binary32.value (quantization.unconfined x) = code.toInt) :
    quantization.quantize x low high = confineCode code low high := by
  obtain ⟨confined, ran, value⟩ := scaled.quantize_eq number ordered
  obtain ⟨other, confines, same⟩ := @exists_confineCode_toInt code low high ordered
  rw [Binary32.value_ofInt short, Binary32.value_ofInt shortHigh, integral] at value
  have integer : Binary32.value confined = (other.toInt : ℚ) := by
    rw [value, same]
    push_cast
    rfl
  rw [ran, confines, Except.ok.injEq, ← Int32.toInt_inj]
  exact Binary32.toInt32_of_value integer other.le_toInt other.toInt_lt

/-- The unconfined code of a number that is a short integer in scales. -/
theorem IsScaled.unconfined_of_steps (scaled : quantization.IsScaled) {x : Float32}
    (number : x.isNaN = false) {steps : ℤ} (short : |steps| ≤ 2 ^ 23)
    (shortZero : |quantization.zeroPoint.toInt| ≤ 2 ^ 23)
    (rounded : Binary32.value (Binary32.roundEven (x / quantization.scale)) = steps) :
    Binary32.value (quantization.unconfined x) = (steps + quantization.zeroPoint.toInt : ℤ) := by
  have divided := Binary32.saturating_div scaled.finite scaled.positive
  have total : |steps + quantization.zeroPoint.toInt| ≤ 2 ^ 24 := by
    have sum := abs_add_le steps quantization.zeroPoint.toInt
    omega
  have bound : ∀ k : ℤ, |k| ≤ 2 ^ 24 → |(k : ℚ)| < overflowBound := by
    intro k small
    have cast : |(k : ℚ)| ≤ 2 ^ 24 := by exact_mod_cast small
    exact cast.trans_lt (by norm_num [overflowBound])
  have finite : (Binary32.roundEven (x / quantization.scale)).isFinite = true := by
    refine Binary32.isFinite_iff.mpr
      ⟨(Binary32.roundEven_spec _).2 (divided.number number), ?_⟩
    rw [rounded]
    exact bound steps (by omega)
  have sum := Binary32.add_isNearest finite
    (Binary32.isFinite_ofInt (abs_code_lt quantization.zeroPoint))
  rw [rounded, Binary32.value_ofInt (by omega), ← Int.cast_add] at sum
  exact sum.eq_of_nearest (nearest_intCast total) (bound _ total).le

/-- Zero has the code of the zero point, whatever its sign. -/
theorem quantize_of_value_zero (coded : element.IsByteCode)
    (valid : quantization.validate element = .ok ()) {x : Float32} (number : x.isNaN = false)
    (none : Binary32.value x = 0) {low high : Int32} (ordered : low ≤ high)
    (least : element.codeRange.1 ≤ low) (most : high ≤ element.codeRange.2) :
    quantization.quantize x low high = confineCode quantization.zeroPoint low high := by
  have scaled := isScaled_of_validate valid
  obtain ⟨zeroLeast, zeroMost⟩ := zeroPoint_coded coded valid
  have shortZero := coded.short_of_inside zeroLeast zeroMost
  have short := coded.short_of_inside least (Int32.le_trans ordered most)
  have shortHigh := coded.short_of_inside (Int32.le_trans least ordered) most
  have finite : x.isFinite = true := by
    refine Binary32.isFinite_iff.mpr ⟨number, ?_⟩
    rw [none]
    norm_num [overflowBound]
  have quotient := (Binary32.div_isNearest finite scaled.finite scaled.positive.ne').value
  rw [none, zero_div, nearest_zero, saturate_eq_self (by norm_num [overflowBound])] at quotient
  have rounded : Binary32.value (Binary32.roundEven (x / quantization.scale)) = ((0 : ℤ) : ℚ) := by
    rw [(Binary32.roundEven_spec _).1, quotient, halfEven_zero]
  have integral := scaled.unconfined_of_steps number (by decide) (by omega) rounded
  rw [zero_add] at integral
  exact scaled.quantize_of_integral number ordered (by omega) (by omega) integral

/-- A code whose number is finite is the code of its number. -/
theorem quantize_dequantize (coded : element.IsByteCode)
    (valid : quantization.validate element = .ok ()) {code : Int32}
    (least : element.codeRange.1 ≤ code) (most : code ≤ element.codeRange.2) {x : Float32}
    (denoted : quantization.dequantize code = .ok x) (finite : x.isFinite = true) :
    quantization.quantize x element.codeRange.1 element.codeRange.2 = .ok code := by
  have scaled := isScaled_of_validate valid
  obtain ⟨zeroLeast, zeroMost⟩ := zeroPoint_coded coded valid
  have shortZero := coded.short_of_inside zeroLeast zeroMost
  have shortCode := coded.short_of_inside least most
  have distance : |code.toInt - quantization.zeroPoint.toInt| ≤ 510 :=
    (abs_sub _ _).trans (by omega)
  have number := (Binary32.isFinite_iff.mp finite).1
  unfold dequantize at denoted
  dsimp only at denoted
  split at denoted
  · cases denoted
    have rounded :=
      Binary32.value_roundEven_scaled scaled.finite scaled.positive (by omega) finite
    have integral := scaled.unconfined_of_steps number (by omega) (by omega) rounded
    rw [Int.sub_add_cancel] at integral
    rw [scaled.quantize_of_integral number (Int32.le_trans least most) coded.short.1
      coded.short.2 integral]
    exact confineCode_of_inside least most
  · cases denoted

/-! ## Confined numbers -/

/-- Numbers between bounds in order have codes between the codes of the bounds, and the code of a
confined number is the code of the number, confined. -/
theorem IsScaled.quantize_bounded (scaled : quantization.IsScaled) {x low high : Float32}
    (number : x.isNaN = false) (numberLow : low.isNaN = false) (numberHigh : high.isNaN = false)
    (ordered : Binary32.value low ≤ Binary32.value high) {least most : Int32}
    (bounds : least ≤ most) {code lowCode highCode : Int32}
    (quantized : quantization.quantize x least most = .ok code)
    (quantizedLow : quantization.quantize low least most = .ok lowCode)
    (quantizedHigh : quantization.quantize high least most = .ok highCode) :
    quantization.quantize (Binary32.bounded low high x) least most =
      confineCode code lowCode highCode := by
  obtain ⟨confinedNumber, confinedValue⟩ := Binary32.bounded_spec number numberLow numberHigh
  obtain ⟨result, ran⟩ :=
    quantization.exists_quantize_between (Binary32.bounded low high x) bounds
  have between := scaled.quantize_mono numberLow numberHigh ordered bounds quantizedLow
    quantizedHigh
  obtain ⟨confined, confines, same⟩ := @exists_confineCode_toInt code lowCode highCode between
  -- the confined number has the value of a bound or of the number itself, and so has its code
  have mono : ∀ {y z : Float32} {first second : Int32}, y.isNaN = false → z.isNaN = false →
      quantization.quantize y least most = .ok first →
      quantization.quantize z least most = .ok second →
      Binary32.value y ≤ Binary32.value z → first.toInt ≤ second.toInt :=
    fun numberY numberZ small large less => Int32.le_iff_toInt_le.mp
      (scaled.quantize_mono numberY numberZ less bounds small large)
  have congr : ∀ {z : Float32} {other : Int32}, z.isNaN = false →
      quantization.quantize z least most = .ok other →
      Binary32.value (Binary32.bounded low high x) = Binary32.value z →
      result.toInt = other.toInt :=
    fun numberZ given equal => le_antisymm (mono confinedNumber numberZ ran given equal.le)
      (mono numberZ confinedNumber given ran equal.ge)
  rw [Int32.le_iff_toInt_le] at between
  rw [ran, confines, Except.ok.injEq, ← Int32.toInt_inj, same]
  rcases le_total (Binary32.value x) (Binary32.value low) with below | above
  · rw [max_eq_right below, min_eq_left ordered] at confinedValue
    have lowest := congr numberLow quantizedLow confinedValue
    have less := mono number numberLow quantized quantizedLow below
    omega
  · rw [max_eq_left above] at confinedValue
    have more := mono numberLow number quantizedLow quantized above
    rcases le_total (Binary32.value x) (Binary32.value high) with inside | beyond
    · rw [min_eq_left inside] at confinedValue
      have own := congr number quantized confinedValue
      have less := mono number numberHigh quantized quantizedHigh inside
      omega
    · rw [min_eq_right beyond] at confinedValue
      have highest := congr numberHigh quantizedHigh confinedValue
      have greater := mono numberHigh number quantizedHigh quantized beyond
      omega

end Quantization

end TensorEngine
