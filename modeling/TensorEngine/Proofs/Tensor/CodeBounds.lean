import TensorEngine.Graph.Admission
import TensorEngine.Proofs.Checked
import TensorEngine.Proofs.Numeric.Binary32

/-!
Contract: quantization keeps the order of numbers.

Owns:
- the theorems that a number has a code between any bounds that are in order, and that its code
  lies between them;
- the monotonicity of quantization by an accepted scale;
- the theorem that the codes of a checked output range are in order.

Does not own: the real function of a kernel, which need not be monotone.
-/

namespace TensorEngine

open TensorEngine.Numeric

/-- A confined code lies between the bounds. -/
theorem confineCode_inside {code low high confined : Int32}
    (ran : confineCode code low high = .ok confined) : low ≤ confined ∧ confined ≤ high := by
  unfold confineCode at ran
  split at ran
  · rename_i ordered
    cases ran
    rw [Int32.le_iff_toInt_le] at ordered
    rw [Int32.le_iff_toInt_le, Int32.le_iff_toInt_le]
    split
    · omega
    · rename_i above
      rw [Int32.lt_iff_toInt_lt] at above
      split
      · omega
      · rename_i below
        rw [Int32.lt_iff_toInt_lt] at below
        omega
  · cases ran

namespace Quantization

variable {quantization : Quantization}

/-- The code of a number before it is confined. -/
def unconfined (quantization : Quantization) (x : Float32) : Float32 :=
  Binary32.roundEven (x / quantization.scale) + Binary32.ofInt quantization.zeroPoint.toInt

theorem abs_code_lt (code : Int32) : |code.toInt| < 2 ^ 64 := by
  have least := code.le_toInt
  have most := code.toInt_lt
  rw [abs_lt]
  omega

/-- Bounds that are in order stay in order once they have been rounded. -/
theorem ofInt_mono {low high : Int32} (ordered : low ≤ high) :
    Binary32.value (Binary32.ofInt low.toInt) ≤ Binary32.value (Binary32.ofInt high.toInt) :=
  (Binary32.ofInt_isNearest (abs_code_lt low)).mono (Binary32.ofInt_isNearest (abs_code_lt high))
    (by exact_mod_cast Int32.le_iff_toInt_le.mp ordered)

theorem ofInt_number (code : Int32) : (Binary32.ofInt code.toInt).isNaN = false :=
  (Binary32.ofInt_isNearest (abs_code_lt code)).number

theorem ofInt_le_ofInt {low high : Int32} (ordered : low ≤ high) :
    Binary32.ofInt low.toInt ≤ Binary32.ofInt high.toInt :=
  (Binary32.le_iff (ofInt_number low) (ofInt_number high)).mpr (ofInt_mono ordered)

/-- Every number has a code between bounds that are in order. -/
theorem exists_quantize_between (quantization : Quantization) (x : Float32) {low high : Int32}
    (ordered : low ≤ high) : ∃ code, quantization.quantize x low high = .ok code := by
  unfold quantize confineCode
  extract_lets code lowest highest
  rw [if_pos ordered, if_pos (ofInt_le_ofInt ordered)]
  split
  · exact ⟨_, rfl⟩
  · exact ⟨_, rfl⟩

/-- A quantized number has a code between bounds that single precision holds exactly. -/
theorem quantize_inside {x : Float32} {low high code : Int32} (short : |low.toInt| ≤ 2 ^ 24)
    (shortHigh : |high.toInt| ≤ 2 ^ 24) (ran : quantization.quantize x low high = .ok code) :
    low ≤ code ∧ code ≤ high := by
  have exact := Binary32.value_ofInt short
  have exactHigh := Binary32.value_ofInt shortHigh
  have back := Binary32.toInt32_of_value exact low.le_toInt low.toInt_lt
  have backHigh := Binary32.toInt32_of_value exactHigh high.le_toInt high.toInt_lt
  unfold quantize at ran
  extract_lets unconfined lowest highest at ran
  split at ran
  · exact confineCode_inside ran
  · rename_i number
    rw [Bool.not_eq_true] at number
    have below := @Binary32.lt_iff _ _ number (ofInt_number low)
    have above := @Binary32.lt_iff _ _ (ofInt_number high) number
    split at ran
    · rename_i ordered
      rw [Binary32.le_iff (ofInt_number low) (ofInt_number high)] at ordered
      cases ran
      rw [Int32.le_iff_toInt_le, Int32.le_iff_toInt_le, ← back, ← backHigh]
      refine ⟨Binary32.toInt32_mono ?_, Binary32.toInt32_mono ?_⟩
      · split
        · exact le_rfl
        · rename_i large
          split
          · exact ordered
          · exact not_lt.mp (mt below.mpr large)
      · split
        · exact ordered
        · split
          · exact le_rfl
          · rename_i small
            exact not_lt.mp (mt above.mpr small)
    · cases ran

/-! ## Monotonicity -/

/-- A scale that parameters may have. -/
structure IsScaled (quantization : Quantization) : Prop where
  finite : quantization.scale.isFinite = true
  positive : 0 < Binary32.value quantization.scale

/-- Accepted parameters have a finite positive scale. -/
theorem isScaled_of_validate {element : ElementType}
    (valid : quantization.validate element = .ok ()) : quantization.IsScaled := by
  unfold validate at valid
  split at valid
  · cases valid
  · rename_i accepted
    rw [Bool.or_eq_true, not_or, Bool.not_eq_true', Bool.not_eq_false,
      decide_eq_true_iff] at accepted
    obtain ⟨finite, above⟩ := accepted
    have number := (Binary32.isFinite_iff.mp finite).1
    rw [Binary32.le_iff number Binary32.isNaN_zero, Binary32.value_zero, not_le] at above
    exact ⟨finite, above⟩

/-- Codes of 32 bits that are accepted have no zero point. -/
theorem zeroPoint_of_validate (valid : quantization.validate .qint32 = .ok ()) :
    quantization.zeroPoint = 0 := by
  unfold validate at valid
  split at valid
  · cases valid
  · by_contra shifted
    rw [show ElementType.codeRange? .qint32 = some _ from rfl] at valid
    dsimp only at valid
    rw [if_pos ⟨rfl, shifted⟩] at valid
    cases valid

theorem IsScaled.unconfined_number (scaled : quantization.IsScaled) {x : Float32}
    (number : x.isNaN = false) : (quantization.unconfined x).isNaN = false := by
  have divided := Binary32.saturating_div scaled.finite scaled.positive
  have shifted := Binary32.saturating_add
    (Binary32.isFinite_ofInt (abs_code_lt quantization.zeroPoint))
  exact shifted.number ((Binary32.roundEven_spec _).2 (divided.number number))

/-- Numbers in order have unconfined codes in order. -/
theorem IsScaled.unconfined_mono (scaled : quantization.IsScaled) {x y : Float32}
    (number : x.isNaN = false) (numberRight : y.isNaN = false)
    (ordered : Binary32.value x ≤ Binary32.value y) :
    Binary32.value (quantization.unconfined x) ≤ Binary32.value (quantization.unconfined y) := by
  have divided := Binary32.saturating_div scaled.finite scaled.positive
  have shifted := Binary32.saturating_add
    (Binary32.isFinite_ofInt (abs_code_lt quantization.zeroPoint))
  obtain ⟨rounded, roundedNumber⟩ := Binary32.roundEven_spec (x / quantization.scale)
  obtain ⟨roundedRight, roundedNumberRight⟩ := Binary32.roundEven_spec (y / quantization.scale)
  refine shifted.value_mono (roundedNumber (divided.number number))
    (roundedNumberRight (divided.number numberRight)) ?_
  rw [rounded, roundedRight]
  exact_mod_cast halfEven_mono (divided.value_mono number numberRight ordered)

/-- The code of a number is the unconfined one, confined between the rounded bounds. -/
theorem IsScaled.quantize_eq (scaled : quantization.IsScaled) {x : Float32}
    (number : x.isNaN = false) {low high : Int32} (ordered : low ≤ high) :
    ∃ confined, quantization.quantize x low high = .ok (Binary32.toInt32 confined) ∧
      Binary32.value confined = max (Binary32.value (Binary32.ofInt low.toInt))
        (min (Binary32.value (quantization.unconfined x))
          (Binary32.value (Binary32.ofInt high.toInt))) := by
  have codeNumber := scaled.unconfined_number number
  have bounds := ofInt_mono ordered
  have below := @Binary32.lt_iff _ _ codeNumber (ofInt_number low)
  have above := @Binary32.lt_iff _ _ (ofInt_number high) codeNumber
  unfold quantize
  extract_lets code lowest highest
  have some : ¬ code.isNaN = true := Bool.eq_false_iff.mp codeNumber
  rw [if_neg some, if_pos (ofInt_le_ofInt ordered)]
  refine ⟨_, rfl, ?_⟩
  by_cases under : code < lowest
  · have small := below.mp under
    rw [if_pos under, max_eq_left ((min_le_left _ _).trans small.le)]
  · have large := not_lt.mp (mt below.mpr under)
    rw [if_neg under]
    by_cases beyond : highest < code
    · rw [if_pos beyond, min_eq_right (above.mp beyond).le, max_eq_right bounds]
    · rw [if_neg beyond, min_eq_left (not_lt.mp (mt above.mpr beyond)), max_eq_right large]
      rfl

theorem IsScaled.quantize_mono (scaled : quantization.IsScaled) {x y : Float32}
    (number : x.isNaN = false) (numberRight : y.isNaN = false)
    (ordered : Binary32.value x ≤ Binary32.value y) {low high : Int32} (bounds : low ≤ high)
    {code greater : Int32} (small : quantization.quantize x low high = .ok code)
    (large : quantization.quantize y low high = .ok greater) : code ≤ greater := by
  obtain ⟨confined, ran, value⟩ := scaled.quantize_eq number bounds
  obtain ⟨confinedRight, ranRight, valueRight⟩ := scaled.quantize_eq numberRight bounds
  cases ran.symm.trans small
  cases ranRight.symm.trans large
  rw [Int32.le_iff_toInt_le]
  apply Binary32.toInt32_mono
  rw [value, valueRight]
  exact max_le_max_left _ (min_le_min_right _ (scaled.unconfined_mono number numberRight ordered))

/-! ## Output ranges -/

/-- The bounds of a range of numbers have codes in order. -/
theorem IsScaled.codeBounds_ordered (scaled : quantization.IsScaled) {element : ElementType}
    {x y : Float32} (number : x.isNaN = false) (numberRight : y.isNaN = false)
    (ordered : Binary32.value x ≤ Binary32.value y) {codes : Int32 × Int32}
    (bounded : quantization.codeBounds element x y = .ok codes) : codes.1 ≤ codes.2 := by
  have bounds : element.codeRange.1 ≤ element.codeRange.2 := by cases element <;> decide
  obtain ⟨low, ranLow, rest⟩ := bind_eq_ok_iff.mp bounded
  obtain ⟨high, ranHigh, made⟩ := bind_eq_ok_iff.mp rest
  cases made
  exact scaled.quantize_mono number numberRight ordered bounds ranLow ranHigh

end Quantization

/-- A range whose bounds are numbers in order. -/
structure OpParams.IsOrdered (params : OpParams) : Prop where
  low : params.range.1.isNaN = false
  high : params.range.2.isNaN = false
  ordered : Binary32.value params.range.1 ≤ Binary32.value params.range.2

/-- Checked parameters give a range in order, unbounded if they have none. -/
theorem OpKind.isOrdered_of_checkParams {kind : OpKind} {params : OpParams}
    (checked : kind.checkParams params = .ok ()) : params.IsOrdered := by
  have lowest : Binary32.negativeInfinity.isNaN = false := rfl
  have highest : Binary32.infinity.isNaN = false := rfl
  have unbounded : Binary32.value Binary32.negativeInfinity ≤ Binary32.value Binary32.infinity := by
    show -overflowBound ≤ overflowBound
    norm_num [overflowBound]
  cases params with
  | none => exact ⟨lowest, highest, unbounded⟩
  | negativeSlope slope => exact ⟨lowest, highest, unbounded⟩
  | outputRange low high =>
      unfold checkParams at checked
      dsimp only at checked
      split at checked
      · cases checked
      · split at checked
        · cases checked
        · rename_i numbers
          split at checked
          · cases checked
          · rename_i above
            rw [Bool.or_eq_true, not_or, Bool.not_eq_true, Bool.not_eq_true] at numbers
            rw [Binary32.le_iff numbers.2 numbers.1, not_le] at above
            exact ⟨numbers.1, numbers.2, above.le⟩

end TensorEngine
