import TensorEngine.Kernel.BroadcastPlan
import TensorEngine.Kernel.Elementwise
import TensorEngine.Numeric.Binary32

/-!
Contract: operators that combine the elements of two inputs, which stretch to a common shape.

Owns:
- `BinaryFunction`, the real function of a kind;
- `combineTiles`, the tiled loops over a flat output and over its rows, and `combineElements`, which
  writes an output by them;
- `Combination` with a body for each datatype, and its factory.

Does not own: the plan by which inputs are read.
-/

namespace TensorEngine

open TensorEngine.Numeric

inductive BinaryFunction where
  | add
  | subtract
  | multiply
  | maximum
  | minimum
deriving DecidableEq, Repr

namespace BinaryFunction

def ofKind (kind : OpKind) : Outcome BinaryFunction :=
  match kind with
  | .add => .ok add
  | .subtract => .ok subtract
  | .multiply => .ok multiply
  | .maximum => .ok maximum
  | .minimum => .ok minimum
  | _ => Outcome.invalidParameter (.notBinary kind)

def apply (function : BinaryFunction) (x y : Float32) : Float32 :=
  match function with
  | add => x + y
  | subtract => x - y
  | multiply => x * y
  | maximum => Binary32.larger x y
  | minimum => Binary32.smaller x y

end BinaryFunction

/-- The elements of a tile of a flat output, in blocks of lanes. -/
def flatTile (function : α → α → Checked α) (lanes : Nat) (left right : Array α) (tile : Tile) :
    Checked (Array α) := do
  let leftPart ← slice left tile.offset (tile.offset + tile.length)
  let rightPart ← slice right tile.offset (tile.offset + tile.length)
  collectAt (blockPositions lanes tile.length) fun position => do
    let x ← fetch leftPart position
    let y ← fetch rightPart position
    function x y

def combinedRow (function : α → α → Checked α) (plan : BroadcastPlan) (left right : Array α)
    (row : Nat) : Checked (Array α) := do
  let leftOffset ← plan.left.rowOffset plan.outer row
  let rightOffset ← plan.right.rowOffset plan.outer row
  collect plan.columns fun column => do
    let x ← fetch left (leftOffset + column * plan.left.columnStride)
    let y ← fetch right (rightOffset + column * plan.right.columnStride)
    function x y

def rowsTile (function : α → α → Checked α) (plan : BroadcastPlan) (left right : Array α)
    (tile : Tile) : Checked (Array α) :=
  gather (tile.length / plan.columns) fun position =>
    combinedRow function plan left right (tile.offset / plan.columns + position)

/-- Combines two inputs tile by tile: whole blocks of lanes when the output is flat, else whole rows.
The elements of every tile are stored. -/
def combineTiles (store : σ → Nat → Array α → σ) (function : α → α → Checked α)
    (schedule : Schedule) (plan : BroadcastPlan) (tileElements lanes : Nat) (left right : Array α)
    (state : σ) : Checked σ :=
  if plan.isFlat then
    let work := schedule.order (tiles plan.count (laneTile tileElements lanes))
    foldTiles store work state (flatTile function lanes left right)
  else if plan.columns = 0 then .ok state
  else
    let work := schedule.order (tiles plan.count (rowTile tileElements plan.columns))
    foldTiles store work state (rowsTile function plan left right)

def combineElements [Storage α] (function : α → α → Checked α) (schedule : Schedule)
    (plan : BroadcastPlan) (tileElements lanes : Nat) (inputs : List Buffer) (output : Buffer) :
    Outcome Bytes := do
  let left ← inputElements α inputs 0 plan.left.count
  let right ← inputElements α inputs 1 plan.right.count
  let room ← Outcome.view α output
  let canvas ← front room plan.count
  let written ← combineTiles writeAt function schedule plan tileElements lanes left right canvas
  return encodeAll written

inductive CombinationBody where
  | single
  | half
  | codes (signed : Bool) (left right output : Quantization) (low high : Int32)
deriving Repr

/-- An operator that combines two inputs. It has no elements before it is set up. -/
structure Combination where
  kind : OpKind
  function : BinaryFunction
  low : Float32
  high : Float32
  body : CombinationBody
  lanes : Nat
  tileElements : Nat
  plan : BroadcastPlan
deriving Repr

namespace Combination

/-- The result of single precision elements. -/
def ofSingles (combination : Combination) (x y : Float32) : Float32 :=
  Binary32.bounded combination.low combination.high (combination.function.apply x y)

/-- The result of half precision elements, computed in single precision. -/
def ofHalves (combination : Combination) (x y : Half) : Half :=
  Half.ofFloat32 (combination.ofSingles x.toFloat32 y.toFloat32)

/-- The result of codes, computed in single precision. -/
def ofCodes [Code α] (function : BinaryFunction) (left right output : Quantization)
    (low high : Int32) (x y : α) : Checked α := do
  let leftNumber ← left.dequantize (Code.toInt32 x)
  let rightNumber ← right.dequantize (Code.toInt32 y)
  let code ← output.quantize (function.apply leftNumber rightNumber) low high
  return Code.ofInt32 code

def setup (combination : Combination) (inputs : List Shape) (output : Shape) :
    Combination × Outcome Unit :=
  let planned : Outcome BroadcastPlan := do
    BroadcastPlan.make (← operand inputs 0) (← operand inputs 1) output
  match planned with
  | .ok plan => ({ combination with plan := plan }, .ok ())
  | .error fault => (combination, .error fault)

/-- Runs a kernel with the function of the elements, in the type and the lanes of the body. -/
def withFunction (combination : Combination)
    (kernel : {α : Type} → [Storage α] → (α → α → Checked α) → Nat → Outcome β) : Outcome β :=
  match combination.body with
  | .single =>
      let lanes := if 1 < combination.lanes then blockLanes else 1
      kernel (fun x y : Float32 => .ok (combination.ofSingles x y)) lanes
  | .half => kernel (fun x y : Half => .ok (combination.ofHalves x y)) 1
  | .codes true left right result low high =>
      kernel (ofCodes (α := Int8) combination.function left right result low high) 1
  | .codes false left right result low high =>
      kernel (ofCodes (α := UInt8) combination.function left right result low high) 1

def contents (combination : Combination) (schedule : Schedule) (inputs : List Buffer)
    (output : Buffer) : Outcome Bytes :=
  combination.withFunction fun function lanes =>
    combineElements function schedule combination.plan combination.tileElements lanes inputs output

instance : Operator Combination where
  kind := kind
  packed? _ := none
  setup := setup
  run combination schedule inputs output :=
    RunEnd.ofOutcome output (combination.contents schedule inputs output)
  run_size _ _ _ _ := RunEnd.ofOutcome_size _ _

def codeBody (context : CreateContext) (signed : Bool) : Outcome CombinationBody := do
  let left ← context.input 0
  let right ← context.input 1
  let output ← context.output
  match left.quantization, right.quantization, output.quantization with
  | some leftScale, some rightScale, some outputScale =>
      let (low, high) := context.node.params.range
      let (lowCode, highCode) ← outputScale.codeBounds output.element low high
      return .codes signed leftScale rightScale outputScale lowCode highCode
  | _, _, _ => Outcome.invalidParameter (.operandsUnquantized context.node.kind)

def makeBody (context : CreateContext) (compute : ComputeType) : Outcome CombinationBody :=
  match compute with
  | .fp32 => .ok .single
  | .fp16 => .ok .half
  | .qs8 => codeBody context true
  | .qu8 => codeBody context false
  | _ => Outcome.unsupported (.cannotCompute context.node.kind compute)

def factory (compute : ComputeType) (lanes : Nat) : Factory Combination where
  name := if 1 < lanes then "cpu.binary.f32x8" else "cpu.binary"
  create context := do
    let function ← BinaryFunction.ofKind context.node.kind
    let body ← makeBody context compute
    let (low, high) := context.node.params.range
    return { kind := context.node.kind, function := function, low := low, high := high,
             body := body, lanes := lanes, tileElements := context.tileElements, plan := {} }

end Combination

end TensorEngine
