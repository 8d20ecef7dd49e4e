import TensorEngine.Kernel.Elementwise
import TensorEngine.Numeric.Binary32

/-!
Contract: operators that average each channel of an image over all its positions.

Owns:
- `spatialSums`, the sums over the positions of one image, channel by channel, in their order;
- `Pooling` with a body for each datatype, and its factory.

Does not own: the shape of the result.
-/

namespace TensorEngine

open TensorEngine.Numeric

/-- An integer, which must fit a signed word of 64 bits. -/
def signedWord (value : Int) : Checked Int :=
  if Int64.minValue.toInt ≤ value ∧ value ≤ Int64.maxValue.toInt then .ok value
  else .error .overflow

/-- Sums the rows of one image channel by channel, position by position. -/
def spatialSums (view : RowView α) (image positions channels : Nat) (zero : β)
    (add : β → α → Checked β) : Checked (Array β) :=
  (List.range positions).foldlM
    (fun sums position => do
      let row ← view.row (image * positions + position)
      collect channels fun channel => do
        let sum ← fetch sums channel
        add sum (← fetch row channel))
    (Array.replicate channels zero)

/-- Writes one row of results for every image, tile by tile of whole rows. A result follows from
the sum over the positions of its channel by a function that is prepared once for all tiles. -/
def poolImages {α β : Type} [Storage α] (zero : β) (add : β → α → Checked β)
    (prepare : Checked (β → Checked α)) (schedule : Schedule)
    (images positions channels tileElements : Nat) (inputs : List Buffer) (output : Buffer) :
    Outcome Bytes := do
  let elements ← Outcome.view α (← operand inputs 0)
  let view ← Outcome.ofParameter .rowExtent
    (RowView.contiguous elements (images * positions) channels)
  let room ← Outcome.view α output
  let canvas ← front room (images * channels)
  if channels = 0 then return encodeAll canvas
  let result ← prepare
  let work := schedule.order (tiles (images * channels) (rowTile tileElements channels))
  let written ← runTiles work canvas fun tile =>
    gather (tile.length / channels) fun position => do
      let image := tile.offset / channels + position
      let sums ← spatialSums view image positions channels zero add
      collect channels fun channel => do result (← fetch sums channel)
  return encodeAll written

inductive PoolingBody where
  | single (low high : Float32)
  | half (low high : Float32)
  | codes (signed : Bool) (input output : Quantization) (low high : Int32)
deriving Repr

/-- An operator that averages channels. It has no images before it is set up. -/
structure Pooling where
  body : PoolingBody
  channels : Nat
  tileElements : Nat
  images : Nat
  positions : Nat
deriving Repr

namespace Pooling

/-- The divisor of a mean; the mean of no positions is their sum. -/
def divisor (positions : Nat) : Float32 := Binary32.ofNat (max positions 1)

/-- The mean of numbers, confined to a range. -/
def meanOfSum (positions : Nat) (low high sum : Float32) : Float32 :=
  Binary32.bounded low high (sum / divisor positions)

/-- The zero point, summed over all positions; a position count is read as a signed word. -/
def zeroSum (input : Quantization) (positions : Nat) : Checked Int :=
  signedWord (input.zeroPoint.toInt * (Int64.ofNat positions).toInt)

def meanOfCodes [Code α] (positions : Nat) (input output : Quantization) (low high : Int32)
    (zero sum : Int) : Checked α := do
  let mean := Binary32.ofInt (← signedWord (sum - zero)) * (input.scale / divisor positions)
  return Code.ofInt32 (← output.quantize mean low high)

def poolCodes (α : Type) [Code α] (pooling : Pooling) (input output : Quantization)
    (low high : Int32) : Schedule → List Buffer → Buffer → Outcome Bytes :=
  fun schedule inputs room =>
    poolImages (α := α) (0 : Int) (fun sum code => signedWord (sum + (Code.toInt32 code).toInt))
      (meanOfCodes pooling.positions input output low high <$> zeroSum input pooling.positions)
      schedule pooling.images pooling.positions pooling.channels pooling.tileElements inputs room

def contents (pooling : Pooling) (schedule : Schedule) (inputs : List Buffer) (output : Buffer) :
    Outcome Bytes :=
  match pooling.body with
  | .single low high =>
      poolImages Binary32.zero (fun sum (x : Float32) => .ok (sum + x))
        (.ok fun sum => .ok (meanOfSum pooling.positions low high sum)) schedule pooling.images
        pooling.positions pooling.channels pooling.tileElements inputs output
  | .half low high =>
      poolImages Binary32.zero (fun sum (x : Half) => .ok (sum + x.toFloat32))
        (.ok fun sum => .ok (Half.ofFloat32 (meanOfSum pooling.positions low high sum))) schedule
        pooling.images pooling.positions pooling.channels pooling.tileElements inputs output
  | .codes true input result low high =>
      poolCodes Int8 pooling input result low high schedule inputs output
  | .codes false input result low high =>
      poolCodes UInt8 pooling input result low high schedule inputs output

/-- The images and positions of shapes that an operator of these channels takes. -/
def extent (channels : Nat) (inputs : List Shape) (output : Shape) : Outcome (Nat × Nat) := do
  let input ← operand inputs 0
  match input with
  | [images, height, width, found] =>
      if found ≠ channels then
        Outcome.invalidParameter (.channelsChanged .globalAveragePooling2d channels found)
      else if output.elementCount ≠ images * channels then
        Outcome.invalidParameter (.resultCount .globalAveragePooling2d output images channels)
      else return (images, height * width)
  | _ => Outcome.invalidParameter (.needsImageBatch input)

def setup (pooling : Pooling) (inputs : List Shape) (output : Shape) : Pooling × Outcome Unit :=
  match extent pooling.channels inputs output with
  | .ok (images, positions) =>
      ({ pooling with images := images, positions := positions }, .ok ())
  | .error fault => (pooling, .error fault)

instance : Operator Pooling where
  kind _ := .globalAveragePooling2d
  packed? _ := none
  setup := setup
  run pooling schedule inputs output :=
    RunEnd.ofOutcome output (pooling.contents schedule inputs output)
  run_size _ _ _ _ := RunEnd.ofOutcome_size _ _

def codeBody (signed : Bool) (input output : Value) (low high : Float32) :
    Outcome PoolingBody :=
  match input.quantization, output.quantization with
  | some inputScale, some outputScale => do
      let (lowCode, highCode) ← outputScale.codeBounds output.element low high
      return .codes signed inputScale outputScale lowCode highCode
  | _, _ => Outcome.invalidParameter (.operandsUnquantized .globalAveragePooling2d)

def makeBody (compute : ComputeType) (input output : Value) (low high : Float32) :
    Outcome PoolingBody :=
  match compute with
  | .fp32 => .ok (.single low high)
  | .fp16 => .ok (.half low high)
  | .qs8 => codeBody true input output low high
  | .qu8 => codeBody false input output low high
  | _ => Outcome.unsupported (.cannotCompute .globalAveragePooling2d compute)

def imageChannels (shape : Shape) : Outcome Nat :=
  match shape with
  | [_, _, _, channels] => .ok channels
  | _ => Outcome.invalidParameter (.needsImageBatch shape)

def factory (compute : ComputeType) : Factory Pooling where
  name := "cpu.global_average_pooling_2d"
  create context := do
    let input ← context.input 0
    let output ← context.output
    let (low, high) := context.node.params.range
    let body ← makeBody compute input output low high
    let channels ← imageChannels input.shape
    return { body := body, channels := channels, tileElements := context.tileElements,
             images := 0, positions := 0 }

end Pooling

end TensorEngine
