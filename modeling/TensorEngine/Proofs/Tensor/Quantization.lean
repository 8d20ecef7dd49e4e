import TensorEngine.Kernel.UnaryFunction
import TensorEngine.Proofs.Checked

/-!
Contract: quantization by accepted parameters never breaks a contract.

Owns:
- the order of the bounds of every storage type, as codes and as rounded numbers;
- the theorems that bounds of a real range have codes, that codes can be dequantized, and that
  functions can be tabulated.

Does not own: which code a number gets.
-/

namespace TensorEngine

open TensorEngine.Numeric

namespace ElementType

/-- The least code of a storage type is no greater than the greatest, also once both have been
rounded to single precision. -/
theorem codeRange_ordered (element : ElementType) :
    element.codeRange.1 ≤ element.codeRange.2 ∧
      Binary32.ofInt element.codeRange.1.toInt ≤ Binary32.ofInt element.codeRange.2.toInt := by
  cases element <;> decide +kernel

theorem codeRange_eq {element : ElementType} {low high : Int32}
    (ranged : element.codeRange? = some (low, high)) : element.codeRange = (low, high) := by
  unfold codeRange
  rw [ranged]
  rfl

end ElementType

theorem exists_confineCode {code low high : Int32} (ordered : low ≤ high) :
    ∃ confined, confineCode code low high = .ok confined := by
  unfold confineCode
  rw [if_pos ordered]
  exact ⟨_, rfl⟩

namespace Quantization

variable {quantization : Quantization} {element : ElementType}

/-- Every number has a code between the bounds of a storage type. -/
theorem exists_quantize (quantization : Quantization) (element : ElementType) (value : Float32) :
    ∃ code, quantization.quantize value element.codeRange.1 element.codeRange.2 = .ok code := by
  obtain ⟨ordered, rounded⟩ := element.codeRange_ordered
  unfold quantize
  extract_lets code lowest highest
  by_cases noNumber : code.isNaN = true
  · rw [if_pos noNumber]
    exact exists_confineCode ordered
  · rw [if_neg noNumber, if_pos rounded]
    exact ⟨_, rfl⟩

/-- The bounds of every real range have codes. -/
theorem exists_codeBounds (quantization : Quantization) (element : ElementType)
    (low high : Float32) : ∃ codes, quantization.codeBounds element low high = .ok codes := by
  obtain ⟨lowCode, ranLow⟩ := quantization.exists_quantize element low
  obtain ⟨highCode, ranHigh⟩ := quantization.exists_quantize element high
  refine ⟨(lowCode, highCode), ?_⟩
  unfold codeBounds
  dsimp only
  rw [ranLow, ranHigh]
  rfl

theorem zeroPoint_inside (valid : quantization.validate element = .ok ()) {low high : Int32}
    (ranged : element.codeRange? = some (low, high)) :
    low.toInt ≤ quantization.zeroPoint.toInt ∧ quantization.zeroPoint.toInt ≤ high.toInt := by
  unfold validate at valid
  rw [ranged] at valid
  split at valid
  · cases valid
  · dsimp only at valid
    split at valid
    · cases valid
    · split at valid
      · cases valid
      · rename_i inside
        rw [not_or, Int32.lt_iff_toInt_lt, Int32.lt_iff_toInt_lt] at inside
        omega

/-- A code whose distance from the zero point fits 32 bits denotes a number. -/
theorem exists_dequantize {code : Int32}
    (least : Int32.minValue.toInt ≤ code.toInt - quantization.zeroPoint.toInt)
    (greatest : code.toInt - quantization.zeroPoint.toInt ≤ Int32.maxValue.toInt) :
    ∃ value, quantization.dequantize code = .ok value := by
  unfold dequantize
  rw [if_pos ⟨least, greatest⟩]
  exact ⟨_, rfl⟩

end Quantization

/-! ## Lookup tables -/

/-- The storage types that a byte holds. -/
def ElementType.IsByteCode (element : ElementType) : Prop :=
  element = .qint8 ∨ element = .quint8

namespace UnaryFunction

/-- Every byte denotes a code of a storage type that a byte holds, and both bounds are short. -/
theorem codeOfByte_inside {element : ElementType} (coded : element.IsByteCode) (byte : UInt8) :
    ∃ low high, element.codeRange? = some (low, high) ∧
      low.toInt ≤ (codeOfByte element byte).toInt ∧
      (codeOfByte element byte).toInt ≤ high.toInt ∧ -128 ≤ low.toInt ∧ high.toInt ≤ 255 := by
  unfold codeOfByte
  rcases coded with rfl | rfl
  · refine ⟨-128, 127, rfl, ?_⟩
    have least := byte.toInt8.le_toInt
    have greatest := byte.toInt8.toInt_lt
    rw [if_pos rfl, Int8.toInt_toInt32]
    show -128 ≤ byte.toInt8.toInt ∧ byte.toInt8.toInt ≤ 127 ∧ (-128 : Int) ≤ -128 ∧
      (127 : Int) ≤ 255
    omega
  · refine ⟨0, 255, rfl, ?_⟩
    have short := byte.toNat_lt
    rw [if_neg (by decide), Int32.toInt_ofNat_of_lt (by omega)]
    show 0 ≤ (byte.toNat : Int) ∧ (byte.toNat : Int) ≤ 255 ∧ -128 ≤ (0 : Int) ∧ (255 : Int) ≤ 255
    omega

/-- Every byte has an entry in the table of a function between accepted parameters. -/
theorem exists_tableEntry (function : UnaryFunction) {element : ElementType}
    (coded : element.IsByteCode) {input : Quantization}
    (valid : input.validate element = .ok ()) (output : Quantization) (byte : UInt8) :
    ∃ entry, function.tableEntry element input output element.codeRange.1 element.codeRange.2
      byte = .ok entry := by
  obtain ⟨low, high, ranged, least, greatest, short⟩ := codeOfByte_inside coded byte
  have inside := Quantization.zeroPoint_inside valid ranged
  have smallest : Int32.minValue.toInt = -2147483648 := rfl
  have largest : Int32.maxValue.toInt = 2147483647 := rfl
  obtain ⟨number, denoted⟩ := @Quantization.exists_dequantize input (codeOfByte element byte)
    (by omega) (by omega)
  obtain ⟨code, quantized⟩ := output.exists_quantize element (function.apply number)
  refine ⟨code.toUInt32.toUInt8, ?_⟩
  unfold tableEntry
  rw [denoted]
  show (output.quantize (function.apply number) _ _ >>= fun code =>
    pure code.toUInt32.toUInt8) = _
  rw [quantized]
  rfl

/-- Every function has a table between accepted parameters. -/
theorem exists_tabulate (function : UnaryFunction) {element : ElementType}
    (coded : element.IsByteCode) {input : Quantization}
    (valid : input.validate element = .ok ()) (output : Quantization) :
    ∃ table, function.tabulate element input output = .ok table := by
  obtain ⟨low, high, ranged, _⟩ := codeOfByte_inside coded 0
  have entries := function.exists_tableEntry coded valid output
  rw [ElementType.codeRange_eq ranged] at entries
  obtain ⟨table, filled⟩ := exists_ofFnM fun byte : Fin 256 => entries (UInt8.ofNat byte.val)
  refine ⟨table, ?_⟩
  unfold tabulate
  rw [ranged]
  exact mapError_eq_ok_iff.mpr filled

end UnaryFunction

end TensorEngine
