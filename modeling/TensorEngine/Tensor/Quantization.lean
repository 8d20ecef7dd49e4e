import TensorEngine.Breach
import TensorEngine.Numeric.Binary32
import TensorEngine.Numeric.Decimal
import TensorEngine.Tensor.ElementType

/-!
Contract: affine quantization, `real = (code - zeroPoint) * scale`.

Owns:
- `Quantization` and the check of its parameters against a storage type;
- `quantize` and `dequantize`;
- the bounds of a real range in the domain of codes.

Does not own: which kernels need quantized operands.
-/

namespace TensorEngine

open TensorEngine.Numeric

structure Quantization where
  zeroPoint : Int32
  scale : Float32
deriving BEq, Repr, Inhabited

inductive QuantizationFault where
  | badScale (scale : Float32)
  | notQuantized (element : ElementType)
  | zeroPointNotZero (element : ElementType) (zeroPoint : Int32)
  | zeroPointOutside (element : ElementType) (zeroPoint low high : Int32)
deriving Repr

def QuantizationFault.message : QuantizationFault → String
  | badScale scale => s!"scale {plainText scale} must be finite and positive"
  | notQuantized element => s!"{element.name} does not take quantization parameters"
  | zeroPointNotZero element zeroPoint =>
      s!"{element.name} zero point must be 0, got {zeroPoint.toInt}"
  | zeroPointOutside element zeroPoint low high =>
      s!"zero point {zeroPoint.toInt} outside {element.name} range [{low.toInt}, {high.toInt}]"

/-- Confines a code; the bounds must be in order. -/
def confineCode (code low high : Int32) : Checked Int32 :=
  if low ≤ high then .ok (if code < low then low else if high < code then high else code)
  else .error .emptyRange

namespace Quantization

/-- Checks the parameters against the storage type they describe. -/
def validate (quantization : Quantization) (element : ElementType) :
    Except QuantizationFault Unit :=
  if !quantization.scale.isFinite || decide (quantization.scale ≤ Binary32.zero) then
    .error (.badScale quantization.scale)
  else
    match element.codeRange? with
    | none => .error (.notQuantized element)
    | some (low, high) =>
        if element = .qint32 ∧ quantization.zeroPoint ≠ 0 then
          .error (.zeroPointNotZero element quantization.zeroPoint)
        else if quantization.zeroPoint < low ∨ high < quantization.zeroPoint then
          .error (.zeroPointOutside element quantization.zeroPoint low high)
        else .ok ()

/-- The real number that a code denotes. The distance from the zero point must fit 32 bits. -/
def dequantize (quantization : Quantization) (code : Int32) : Checked Float32 :=
  let distance := code.toInt - quantization.zeroPoint.toInt
  if Int32.minValue.toInt ≤ distance ∧ distance ≤ Int32.maxValue.toInt then
    .ok (Binary32.ofInt distance * quantization.scale)
  else .error .overflow

/-- The code nearest to a real number, ties to even, saturating at the bounds. What is not a
number becomes the zero point, confined to the bounds. -/
def quantize (quantization : Quantization) (value : Float32) (low high : Int32) :
    Checked Int32 :=
  let code :=
    Binary32.roundEven (value / quantization.scale) +
      Binary32.ofInt quantization.zeroPoint.toInt
  if code.isNaN then confineCode quantization.zeroPoint low high
  else
    let lowest := Binary32.ofInt low.toInt
    let highest := Binary32.ofInt high.toInt
    if lowest ≤ highest then
      .ok (Binary32.toInt32
        (if code < lowest then lowest else if highest < code then highest else code))
    else .error .emptyRange

/-- The codes of the bounds of a real range. -/
def codeBounds (quantization : Quantization) (element : ElementType) (low high : Float32) :
    Checked (Int32 × Int32) := do
  let (least, greatest) := element.codeRange
  let lowCode ← quantization.quantize low least greatest
  let highCode ← quantization.quantize high least greatest
  return (lowCode, highCode)

def words (quantization : Quantization) : List UInt32 :=
  [quantization.zeroPoint.toUInt32, quantization.scale.toBits]

def text (quantization : Quantization) : String :=
  "QuantParams \x7b zero_point: " ++ toString quantization.zeroPoint.toInt ++ ", scale: " ++
    structuralText quantization.scale ++ " \x7d"

def optionText : Option Quantization → String
  | none => "None"
  | some quantization => "Some(" ++ quantization.text ++ ")"

end Quantization

end TensorEngine
