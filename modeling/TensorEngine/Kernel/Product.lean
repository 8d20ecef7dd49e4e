import TensorEngine.Kernel.Elementwise

/-!
Contract: operators that multiply the rows of an input by packed weights.

Owns:
- `channelProduct`, the fold over the input channels of a row, in their order, from the bias up;
- `multiplyRows`, the tiled loop over whole rows of the output;
- `Product` with a body for each datatype, and its factory, which packs through the cache.

Does not own: the layout of packed weights.
-/

namespace TensorEngine

open TensorEngine.Numeric

/-- Adds the products of a row with the weights of one output channel to its bias. The panel of
the channel must be there as a whole. -/
def channelProduct (inner : Nat) (weights : Array ω) (bias : Array β) (step : β → α → ω → β)
    (row : Array α) (output : Nat) : Checked β := do
  let panel := output / panelWidth
  let lane := output % panelWidth
  let starts ← slice bias (panel * panelWidth) ((panel + 1) * panelWidth)
  let entries ← slice weights (panel * inner * panelWidth) ((panel + 1) * inner * panelWidth)
  let start ← fetch starts lane
  (List.range inner).foldlM
    (fun sum input => do
      let element ← fetch row input
      let weight ← fetch entries (input * panelWidth + lane)
      return step sum element weight)
    start

/-- Writes a row of results for every row of an input, tile by tile of whole rows. -/
def multiplyRows [Storage α] (packed : PackedWeights) (weights : Array ω) (bias : Array β)
    (step : β → α → ω → β) (result : β → Checked α) (schedule : Schedule)
    (rows tileElements : Nat) (inputs : List Buffer) (output : Buffer) : Outcome Bytes := do
  let elements ← Outcome.view α (← operand inputs 0)
  let view ← Outcome.ofParameter .rowExtent (RowView.contiguous elements rows packed.inner)
  let room ← Outcome.view α output
  let canvas ← front room (rows * packed.outputs)
  if packed.outputs = 0 then return encodeAll canvas
  let work := schedule.order (tiles (rows * packed.outputs) (rowTile tileElements packed.outputs))
  let written ← runTiles work canvas fun tile =>
    gather (tile.length / packed.outputs) fun position => do
      let row ← view.row (tile.offset / packed.outputs + position)
      collect packed.outputs fun channel => do
        result (← channelProduct packed.inner weights bias step row channel)
  return encodeAll written

/-- How a product computes a result. The scale of codes is that of a product of two codes. -/
inductive ProductBody where
  | single (low high : Float32)
  | half (low high : Float32)
  | codes (output : Quantization) (scale : Float32) (low high : Int32)
deriving Repr

/-- An operator that multiplies by packed weights. It has no rows before it is set up. -/
structure Product where
  body : ProductBody
  artifact : PackedArtifact
  tileElements : Nat
  rows : Nat
deriving Repr

namespace Product

def codeOfSum (output : Quantization) (scale : Float32) (low high : Int32) (sum : Int32) :
    Checked Int8 := do
  let code ← output.quantize (Binary32.ofInt sum.toInt * scale) low high
  return code.toInt8

def floatContents [Storage α] (product : Product) (load : α → Float32) (store : Float32 → α)
    (low high : Float32) (schedule : Schedule) (inputs : List Buffer) (output : Buffer) :
    Outcome Bytes :=
  match product.artifact.weights.data with
  | .codes _ _ => Outcome.invalidState .packedForCodes
  | .floats weights bias =>
      multiplyRows product.artifact.weights weights bias
        (fun sum element weight => sum + load element * weight)
        (fun sum => .ok (store (Binary32.bounded low high sum)))
        schedule product.rows product.tileElements inputs output

/-- The contents of an output of codes. Sums wrap around. -/
def codeContents (product : Product) (result : Quantization) (scale : Float32)
    (low high : Int32) (schedule : Schedule) (inputs : List Buffer) (output : Buffer) :
    Outcome Bytes :=
  match product.artifact.weights.data with
  | .floats _ _ => Outcome.invalidState .packedForFloats
  | .codes weights bias =>
      multiplyRows product.artifact.weights weights bias
        (fun (sum : Int32) (element : Int8) (weight : Int8) =>
          sum + element.toInt32 * weight.toInt32)
        (codeOfSum result scale low high)
        schedule product.rows product.tileElements inputs output

def contents (product : Product) (schedule : Schedule) (inputs : List Buffer) (output : Buffer) :
    Outcome Bytes :=
  match product.body with
  | .single low high =>
      product.floatContents (fun x : Float32 => x) id low high schedule inputs output
  | .half low high =>
      product.floatContents Half.toFloat32 Half.ofFloat32 low high schedule inputs output
  | .codes result scale low high =>
      product.codeContents result scale low high schedule inputs output

/-- The rows of shapes that an operator with these weights takes. -/
def rowCount (weights : PackedWeights) (inputs : List Shape) (output : Shape) : Outcome Nat := do
  let input ← operand inputs 0
  if input.isEmpty then Outcome.invalidParameter (.shapeRule .scalarInput)
  else if input.channels ≠ weights.inner then
    Outcome.invalidParameter (.channelsChanged .fullyConnected weights.inner input.channels)
  else if output.elementCount ≠ input.batch * weights.outputs then
    Outcome.invalidParameter (.resultCount .fullyConnected output input.batch weights.outputs)
  else return input.batch

def setup (product : Product) (inputs : List Shape) (output : Shape) : Product × Outcome Unit :=
  match rowCount product.artifact.weights inputs output with
  | .ok rows => ({ product with rows := rows }, .ok ())
  | .error fault => (product, .error fault)

instance : Operator Product where
  kind _ := .fullyConnected
  packed? product := some product.artifact
  setup := setup
  run product schedule inputs output :=
    RunEnd.ofOutcome output (product.contents schedule inputs output)
  run_size _ _ _ _ := RunEnd.ofOutcome_size _ _

def codeBody (input filter output : Value) (low high : Float32) :
    Outcome (ProductBody × Int32) :=
  match input.quantization, filter.quantization, output.quantization with
  | some inputScale, some filterScale, some outputScale => do
      let (lowCode, highCode) ← outputScale.codeBounds .qint8 low high
      return (.codes outputScale (inputScale.scale * filterScale.scale) lowCode highCode,
        inputScale.zeroPoint)
  | _, _, _ => Outcome.invalidParameter .productUnquantized

/-- The body for a datatype, with the zero point of the input. What cannot be packed has none. -/
def makeBody (compute : ComputeType) (input filter output : Value) (low high : Float32) :
    Outcome (Option ProductBody × Int32) :=
  match compute with
  | .fp32 => .ok (some (.single low high), 0)
  | .fp16 => .ok (some (.half low high), 0)
  | .qs8 => do
      let (body, zeroPoint) ← codeBody input filter output low high
      return (some body, zeroPoint)
  | _ => .ok (none, 0)

def packingKey (compute : ComputeType) (filter : Value) (bias : Option Value) (flags : UInt32)
    (zeroPoint : Int32) : PackingKey where
  fingerprint := Fingerprint.ofWeights filter bias
  kind := .fullyConnected
  compute := compute
  panelWidth := panelWidth
  transposed := transposedFilter flags
  inputZeroPoint := zeroPoint

def factory (compute : ComputeType) : Factory Product where
  name := "cpu.fully_connected"
  create context := do
    let input ← context.input 0
    let filter ← context.input 1
    let bias ← if 2 < context.node.inputs.length then some <$> context.input 2 else pure none
    let output ← context.output
    let (low, high) := context.node.params.range
    let flags := context.node.flags
    let (body, zeroPoint) ← makeBody compute input filter output low high
    let artifact ← Workshop.packed (packingKey compute filter bias flags zeroPoint) fun _ =>
      PackedWeights.pack compute filter bias flags zeroPoint
    match body with
    | some body =>
        return { body := body, artifact := artifact, tileElements := context.tileElements,
                 rows := 0 }
    | none => Making.ofOutcome (Outcome.unsupported (.cannotPack compute))

end Product

end TensorEngine
