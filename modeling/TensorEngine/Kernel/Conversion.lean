import TensorEngine.Kernel.Elementwise
import TensorEngine.Numeric.Binary32

/-!
Contract: operators that convert the elements of an input to another storage type.

Owns: `Conversion`, with a body for every pair of storage types between which one exists, and its
factory.

Does not own: which pairs a graph admits.
-/

namespace TensorEngine

open TensorEngine.Numeric

inductive ConversionBody where
  | narrow
  | widen
  | quantize (signed : Bool) (scale : Quantization)
  | dequantize (signed : Bool) (scale : Quantization)
deriving Repr

/-- An operator that converts one input. It has no elements before it is set up. -/
structure Conversion where
  body : ConversionBody
  tileElements : Nat
  count : Nat
deriving Repr

namespace Conversion

def codeElement (signed : Bool) : ElementType :=
  if signed then .qint8 else .quint8

def toCode [Code α] (signed : Bool) (scale : Quantization) (x : Float32) : Checked α :=
  let (low, high) := (codeElement signed).codeRange
  Code.ofInt32 <$> scale.quantize x low high

def ofCode [Code α] (scale : Quantization) (code : α) : Checked Float32 :=
  scale.dequantize (Code.toInt32 code)

def setup (conversion : Conversion) (inputs : List Shape) (output : Shape) :
    Conversion × Outcome Unit :=
  match sharedCount .convert inputs output with
  | .ok count => ({ conversion with count := count }, .ok ())
  | .error fault => (conversion, .error fault)

def contents (conversion : Conversion) (schedule : Schedule) (inputs : List Buffer)
    (output : Buffer) : Outcome Bytes :=
  let tile := conversion.tileElements
  let count := conversion.count
  match conversion.body with
  | .narrow =>
      mapElements (fun x : Float32 => .ok (Half.ofFloat32 x)) schedule tile 1 count inputs output
  | .widen =>
      mapElements (fun x : Half => .ok x.toFloat32) schedule tile 1 count inputs output
  | .quantize true scale =>
      mapElements (toCode (α := Int8) true scale) schedule tile 1 count inputs output
  | .quantize false scale =>
      mapElements (toCode (α := UInt8) false scale) schedule tile 1 count inputs output
  | .dequantize true scale =>
      mapElements (ofCode (α := Int8) scale) schedule tile 1 count inputs output
  | .dequantize false scale =>
      mapElements (ofCode (α := UInt8) scale) schedule tile 1 count inputs output

instance : Operator Conversion where
  kind _ := .convert
  packed? _ := none
  setup := setup
  run conversion schedule inputs output :=
    RunEnd.ofOutcome output (conversion.contents schedule inputs output)
  run_size _ _ _ _ := RunEnd.ofOutcome_size _ _

def scaleOf (value : Value) (operand : String) : Outcome Quantization :=
  match value.quantization with
  | some scale => .ok scale
  | none => Outcome.invalidParameter (.conversionUnquantized operand)

def makeBody (compute : ComputeType) (input output : Value) : Outcome ConversionBody :=
  match compute with
  | .fp32ToFp16 => .ok .narrow
  | .fp16ToFp32 => .ok .widen
  | .fp32ToQs8 => .quantize true <$> scaleOf output "output"
  | .fp32ToQu8 => .quantize false <$> scaleOf output "output"
  | .qs8ToFp32 => .dequantize true <$> scaleOf input "input"
  | .qu8ToFp32 => .dequantize false <$> scaleOf input "input"
  | _ => Outcome.unsupported (.cannotCompute .convert compute)

def factory (compute : ComputeType) : Factory Conversion where
  name := "cpu.convert"
  create context := do
    let input ← context.input 0
    let output ← context.output
    let body ← makeBody compute input output
    return { body := body, tileElements := context.tileElements, count := 0 }

end Conversion

end TensorEngine
