import TensorEngine.Kernel.Operator

/-!
Contract: kernels that compute each element of an output from the element of an input at the same
position.

Owns:
- `Code`, the eight-bit codes of quantized tensors, with their exact range;
- `mapElements`, the tiled loop over whole blocks of lanes and a scalar rest;
- the check that input and output hold equally many elements.

Does not own: which function is applied.
-/

namespace TensorEngine

/-- Codes of quantized tensors. A 32-bit integer outside their range becomes the nearest bound. -/
class Code (α : Type) extends Storage α where
  toInt32 : α → Int32
  ofInt32 : Int32 → α

instance : Code Int8 where
  toInt32 code := code.toInt32
  ofInt32 code := Int8.ofInt (max (-128) (min code.toInt 127))

instance : Code UInt8 where
  toInt32 code := Int32.ofNat code.toNat
  ofInt32 code := (min code.toInt 255).toNat.toUInt8

/-- Applies a function to the first `count` elements of an input, tile by tile. Both buffers must
hold elements of their types before their lengths are looked at. -/
def mapElements [Storage α] [Storage β] (function : α → Checked β)
    (schedule : Schedule) (tileElements lanes count : Nat) (inputs : List Buffer)
    (output : Buffer) : Outcome Bytes := do
  let elements ← Outcome.view α (← operand inputs 0)
  let room ← Outcome.view β output
  let source ← front elements count
  let canvas ← front room count
  let work := schedule.order (tiles count (laneTile tileElements (max lanes 1)))
  let written ← runTiles work canvas fun tile => do
    let part ← slice source tile.offset (tile.offset + tile.length)
    collectAt (blockPositions (max lanes 1) tile.length) fun position => do
      function (← fetch part position)
  return encodeAll written

/-- The number of elements of an elementwise operator on one input, which must be the same before
and after. -/
def sharedCount (kind : OpKind) (inputs : List Shape) (output : Shape) : Outcome Nat := do
  let count := (← operand inputs 0).elementCount
  if count = output.elementCount then return count
  else Outcome.invalidParameter (.elementCounts kind count output.elementCount)

end TensorEngine
