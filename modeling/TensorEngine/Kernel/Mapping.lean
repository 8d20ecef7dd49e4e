import TensorEngine.Kernel.Elementwise
import TensorEngine.Kernel.UnaryFunction

/-!
Contract: operators that map a function over the elements of one input.

Owns:
- `Mapping`, with a body for each datatype; codes are copied, confined or looked up;
- its factory, for any number of lanes.

Does not own: conversions, whose input and output have different storage types.
-/

namespace TensorEngine

open TensorEngine.Numeric

inductive MappingBody where
  | single (function : UnaryFunction)
  | half (function : UnaryFunction)
  | copyCodes
  | confineCodes (signed : Bool) (low high : Int32)
  | lookUp (table : LookupTable)
deriving Repr

/-- An operator that maps a function over one input. It has no elements before it is set up. -/
structure Mapping where
  kind : OpKind
  body : MappingBody
  lanes : Nat
  tileElements : Nat
  count : Nat
deriving Repr

namespace Mapping

def confined [Code α] (low high : Int32) (code : α) : Checked α :=
  Code.ofInt32 <$> confineCode (Code.toInt32 code) low high

def setup (mapping : Mapping) (inputs : List Shape) (output : Shape) : Mapping × Outcome Unit :=
  match sharedCount mapping.kind inputs output with
  | .ok count => ({ mapping with count := count }, .ok ())
  | .error fault => (mapping, .error fault)

/-- The contents of the output. Only single precision runs in blocks of lanes. -/
def contents (mapping : Mapping) (schedule : Schedule) (inputs : List Buffer) (output : Buffer) :
    Outcome Bytes :=
  let tile := mapping.tileElements
  let count := mapping.count
  match mapping.body with
  | .single function =>
      mapElements (fun x : Float32 => .ok (function.apply x)) schedule tile mapping.lanes count
        inputs output
  | .half function =>
      mapElements (fun x : Half => .ok (Half.ofFloat32 (function.apply x.toFloat32))) schedule
        tile 1 count inputs output
  | .copyCodes => mapElements (fun code : UInt8 => .ok code) schedule tile 1 count inputs output
  | .confineCodes true low high =>
      mapElements (confined (α := Int8) low high) schedule tile 1 count inputs output
  | .confineCodes false low high =>
      mapElements (confined (α := UInt8) low high) schedule tile 1 count inputs output
  | .lookUp table =>
      mapElements (fun code : UInt8 => .ok (table.entry code)) schedule tile 1 count inputs output

instance : Operator Mapping where
  kind := kind
  packed? _ := none
  setup := setup
  run mapping schedule inputs output :=
    RunEnd.ofOutcome output (mapping.contents schedule inputs output)
  run_size _ _ _ _ := RunEnd.ofOutcome_size _ _

/-- The body for codes: copying and clamping keep codes as they are, other functions that have a
kernel for codes are tabulated. -/
def codeBody (context : CreateContext) (compute : ComputeType) (function : UnaryFunction)
    (element : ElementType) (input output : Quantization) : Making MappingBody :=
  match function with
  | .copy => return .copyCodes
  | .clamp low high => do
      let (lowCode, highCode) ← (output.codeBounds element low high : Outcome _)
      return .confineCodes (element == .qint8) lowCode highCode
  | .sigmoid | .tanh | .leakyRelu _ => do
      let key := function.tableKey ⟨context.node.kind, compute⟩ input output context.features
      return .lookUp (← Workshop.table key fun _ => function.tabulate element input output)
  | .abs | .negate =>
      Making.ofOutcome (Outcome.unsupported (.noCodeKernel context.node.kind))

def makeBody (context : CreateContext) (compute : ComputeType) (function : UnaryFunction) :
    Making MappingBody :=
  match compute with
  | .fp32 => return .single function
  | .fp16 => return .half function
  | .qs8 | .qu8 => do
      let input ← context.input 0
      let output ← context.output
      match input.quantization, output.quantization with
      | some inputScale, some outputScale =>
          codeBody context compute function output.element inputScale outputScale
      | _, _ =>
          Making.ofOutcome (Outcome.invalidParameter (.operandsUnquantized context.node.kind))
  | _ => Making.ofOutcome (Outcome.unsupported (.cannotCompute context.node.kind compute))

def factory (compute : ComputeType) (lanes : Nat) : Factory Mapping where
  name := if 1 < lanes then "cpu.unary.f32x8" else "cpu.unary"
  create context := do
    let function ← UnaryFunction.ofNode context.node.kind context.node.params
    let body ← makeBody context compute function
    return { kind := context.node.kind, body := body, lanes := lanes,
             tileElements := context.tileElements, count := 0 }

end Mapping

end TensorEngine
