import TensorEngine.Fault

/-!
Contract: the weights of a fully connected operator, packed into panels of output channels.

Owns:
- `PackedWeights`, panels of eight output channels, zero-padded, with one bias for each channel;
- `PackedWeights.pack`, which reorders a filter of either layout and folds the zero point of the
  input into the bias of quantized weights;
- the reservation of memory for the panels.

Does not own: caching of packed weights.
-/

namespace TensorEngine

open TensorEngine.Numeric

/-- Output channels of one panel. -/
def panelWidth : Nat := 8

def panelCount (outputs : Nat) : Nat := (outputs + (panelWidth - 1)) / panelWidth

/-- Packed weights and biases; half precision weights are widened. -/
inductive PackedData where
  | floats (weights bias : Array Float32)
  | codes (weights : Array Int8) (bias : Array Int32)
deriving Repr

/-- Weights of `outputs` channels over `inner` input channels, by panel, input channel and lane. -/
structure PackedWeights where
  inner : Nat
  outputs : Nat
  data : PackedData
deriving Repr

namespace PackedWeights

def panels (weights : PackedWeights) : Nat := panelCount weights.outputs

def byteCount (weights : PackedWeights) : Nat :=
  match weights.data with
  | .floats entries bias => (entries.size + bias.size) * 4
  | .codes entries bias => entries.size + bias.size * 4

/-- The greatest number of bytes of one reservation. -/
def capacityLimit : Nat := 2 ^ 63 - 1

/-- Reservations from this number of bytes on are always refused. -/
def memoryLimit : Nat := 2 ^ 58

/-- Reserves room for elements of a width. -/
def reserve (count width : Nat) : Outcome Unit :=
  if 2 ^ 64 ≤ count then .error (.breached .overflow)
  else if capacityLimit < count * width then .error (.refused (.outOfMemory .capacityExceeded))
  else if memoryLimit ≤ count * width then .error (.refused (.outOfMemory .refused))
  else .ok ()

def staticContents (value : Value) : Outcome Buffer :=
  match value.contents with
  | some bytes => .ok (Buffer.fresh bytes)
  | none => Outcome.unsupported (.noStaticData value.id)

/-- The position of a filter entry, by output and input channel. -/
def filterIndex (transposed : Bool) (inner outputs output input : Nat) : Nat :=
  if transposed then input * outputs + output else output * inner + input

/-- The entry at a position of the panels: a filter entry, or zero past the last channel. -/
def panelEntry (filter : Array α) (inner outputs : Nat) (transposed : Bool) (zero : β)
    (convert : α → β) (position : Nat) : Checked β := do
  let lane := position % panelWidth
  let input := position / panelWidth % inner
  let output := position / panelWidth / inner * panelWidth + lane
  if output < outputs then
    return convert (← fetch filter (filterIndex transposed inner outputs output input))
  else return zero

/-- Reorders a filter into panels. -/
def packPanels (filter : Array α) (inner outputs : Nat) (transposed : Bool) (zero : β)
    (convert : α → β) (width : Nat) : Outcome (Array β) := do
  let count := panelCount outputs * inner * panelWidth
  reserve count width
  collect count (panelEntry filter inner outputs transposed zero convert)

/-- Room for one bias in every lane, all zero. -/
def blankBias (outputs : Nat) (zero : β) : Outcome (Array β) := do
  reserve (panelCount outputs * panelWidth) 4
  return Array.replicate (panelCount outputs * panelWidth) zero

/-- The biases of single precision weights: exactly the first `outputs` elements. -/
def singleBias (bias : Option Value) (outputs : Nat) : Outcome (Array Float32) := do
  let blank ← blankBias outputs Binary32.zero
  match bias with
  | none => return blank
  | some value =>
      let elements ← Outcome.view Float32 (← staticContents value)
      return writeFront blank (← front elements outputs)
where
  /-- Replaces the front of an array. -/
  writeFront (blank elements : Array Float32) : Array Float32 :=
    elements ++ blank.extract elements.size blank.size

/-- The biases of half precision weights: as many elements as there are lanes. -/
def halfBias (bias : Option Value) (outputs : Nat) : Outcome (Array Float32) := do
  let blank ← blankBias outputs Binary32.zero
  match bias with
  | none => return blank
  | some value =>
      let elements ← Outcome.view Half (← staticContents value)
      let widened := (elements.extract 0 blank.size).map Half.toFloat32
      return widened ++ blank.extract widened.size blank.size

/-- The sum of the weights of one output channel; every partial sum must fit 32 bits. -/
def channelSum (filter : Array Int8) (inner outputs : Nat) (transposed : Bool) (output : Nat) :
    Checked Int32 := do
  let total ← (List.range inner).foldlM (fun (total : Int) input => do
    let entry ← fetch filter (filterIndex transposed inner outputs output input)
    let total := total + entry.toInt
    if Int32.minValue.toInt ≤ total ∧ total ≤ Int32.maxValue.toInt then pure total
    else throw .overflow) 0
  return Int32.ofInt total

/-- The biases of quantized weights, less the zero point of the input times the sum of the
channel's weights, so that the product can run over the codes of the input. -/
def codeBias (bias : Option Value) (filter : Array Int8) (inner outputs : Nat)
    (transposed : Bool) (zeroPoint : Int32) : Outcome (Array Int32) := do
  let blank ← blankBias outputs (0 : Int32)
  let given ← match bias with
    | none => pure (blank.extract 0 outputs)
    | some value => do
        let elements ← Outcome.view Int32 (← staticContents value)
        (front elements outputs : Checked _)
  let folded ← (collect outputs fun output => do
    let sum ← channelSum filter inner outputs transposed output
    return given.getD output 0 - zeroPoint * sum : Checked _)
  return folded ++ blank.extract outputs blank.size

def pack (compute : ComputeType) (filter : Value) (bias : Option Value) (flags : UInt32)
    (zeroPoint : Int32) : Outcome PackedWeights := do
  let transposed := transposedFilter flags
  let (inner, outputs) ← Outcome.ofParameter .shapeRule (filterChannels filter.shape flags)
  let contents ← staticContents filter
  match compute with
  | .fp32 =>
      let entries ← Outcome.view Float32 contents
      let weights ← packPanels entries inner outputs transposed Binary32.zero id 4
      return ⟨inner, outputs, .floats weights (← singleBias bias outputs)⟩
  | .fp16 =>
      let entries ← Outcome.view Half contents
      let weights ← packPanels entries inner outputs transposed Binary32.zero Half.toFloat32 4
      return ⟨inner, outputs, .floats weights (← halfBias bias outputs)⟩
  | .qs8 =>
      let entries ← Outcome.view Int8 contents
      let weights ← packPanels entries inner outputs transposed (0 : Int8) id 1
      return ⟨inner, outputs,
        .codes weights (← codeBias bias entries inner outputs transposed zeroPoint)⟩
  | _ => Outcome.unsupported (.cannotPack compute)

end PackedWeights

end TensorEngine
