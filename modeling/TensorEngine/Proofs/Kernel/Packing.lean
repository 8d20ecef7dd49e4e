import Mathlib
import TensorEngine.Graph.Admission
import TensorEngine.Proofs.Graph.ShapeRule
import TensorEngine.Proofs.Kernel.Pointwise
import TensorEngine.Proofs.Tensor.MultiIndex

/-!
Contract: the packing of accepted weights fails for want of memory only.

Owns:
- `PackedWeights.Fits`, the sizes that the packing of a filter computes fit their words;
- `PackedWeights.Granted` and `PackedWeights.Refuses`, what comes of asking for its room;
- `PackedWeights.Reserves`, the faults with which room for the panels and the biases is refused, and
  the theorem that packing accepted weights fails with no others;
- the theorems that no entry of a filter or bias is missing, and that the sums of the weights of
  a channel are exact.

Does not own: where the packed weights are used.
-/

namespace TensorEngine

open TensorEngine.Numeric

/-! ## Want of memory -/

def Fault.OutOfMemory (fault : Fault) : Prop :=
  ∃ cause, fault = .refused (.outOfMemory cause)

/-! ## Static weights -/

theorem PackedWeights.staticContents_of_contents {value : Value} {bytes : Bytes}
    (held : value.contents = some bytes) : staticContents value = .ok (Buffer.fresh bytes) := by
  unfold staticContents
  rw [held]

/-- A static tensor of a storage type, with contents that fill its shape. -/
structure Value.Weights (value : Value) (element : ElementType) (bytes : Bytes) : Prop where
  element_eq : value.element = element
  contents_eq : value.contents = some bytes
  filled : bytes.size = value.byteCount

namespace Value.Weights

variable {value : Value} {element : ElementType} {bytes : Bytes}

theorem staticContents_eq (weights : value.Weights element bytes) :
    PackedWeights.staticContents value = .ok (Buffer.fresh bytes) :=
  PackedWeights.staticContents_of_contents weights.contents_eq

/-- The contents are one element for each position of the shape. -/
theorem exists_elements (weights : value.Weights element bytes) {α : Type} [Storage α]
    (width : element.width = Storage.width α) :
    ∃ elements : Array α, Outcome.view α (Buffer.fresh bytes) = .ok elements ∧
      elements.size = value.shape.elementCount := by
  have size : bytes.size = value.shape.elementCount * Storage.width α := by
    rw [weights.filled, Value.byteCount, weights.element_eq, width]
  refine ⟨_, view_eq_ok_iff.mpr ⟨Nat.zero_mod _, ?_, rfl⟩, ?_⟩
  · show bytes.size % _ = 0
    rw [size, Nat.mul_mod_left]
  · show (decodeAll bytes).size = _
    rw [decodeAll_size, size, Nat.mul_div_cancel _ Storage.width_pos]

end Value.Weights

namespace PackedWeights

variable {inner outputs : Nat} {transposed : Bool}

/-- The sizes of packed weights fit their words, and codes are few enough for the sum of those of
a channel to fit as well. -/
structure Fits (compute : ComputeType) (inner outputs : Nat) : Prop where
  panels : panelCount outputs * inner * panelWidth < 2 ^ 64
  lanes : panelCount outputs * panelWidth < 2 ^ 64
  sums : compute = .qs8 → inner ≤ 2 ^ 24

/-- Bytes of a packed weight: codes are kept, and numbers are single precision. -/
def entryWidth : ComputeType → Nat
  | .qs8 => 1
  | _ => 4

/-- Room for packed weights is refused with such faults only, and codes are few enough for the sum
of those of a channel to fit its word. -/
structure Reserves (fails : Fault → Prop) (compute : ComputeType) (inner outputs : Nat) :
    Prop where
  panels : (reserve (panelCount outputs * inner * panelWidth) (entryWidth compute)).FailsOnly fails
  lanes : (reserve (panelCount outputs * panelWidth) 4).FailsOnly fails
  sums : compute = .qs8 → inner ≤ 2 ^ 24

/-- Room for the panels or for the biases is refused with this fault. -/
def Refuses (compute : ComputeType) (inner outputs : Nat) (fault : Fault) : Prop :=
  reserve (panelCount outputs * inner * panelWidth) (entryWidth compute) = .error fault ∨
    reserve (panelCount outputs * panelWidth) 4 = .error fault

/-- Room for the panels and for the starts is granted. -/
structure Granted (compute : ComputeType) (inner outputs : Nat) : Prop where
  panels : reserve (panelCount outputs * inner * panelWidth) (entryWidth compute) = .ok ()
  lanes : reserve (panelCount outputs * panelWidth) 4 = .ok ()

theorem reserves_refuses {compute : ComputeType} (few : compute = .qs8 → inner ≤ 2 ^ 24) :
    Reserves (Refuses compute inner outputs) compute inner outputs :=
  ⟨fun _ => .inl, fun _ => .inr, few⟩

theorem Granted.not_refuses {compute : ComputeType} (granted : Granted compute inner outputs)
    (fault : Fault) : ¬ Refuses compute inner outputs fault := by
  rintro (refused | refused)
  · cases granted.panels.symm.trans refused
  · cases granted.lanes.symm.trans refused

theorem reserve_failsOnly {count : Nat} (fits : count < 2 ^ 64) (width : Nat) :
    (reserve count width).FailsOnly Fault.OutOfMemory := by
  unfold reserve
  rw [if_neg (by omega)]
  intro fault failed
  split at failed
  · cases failed
    exact ⟨_, rfl⟩
  · split at failed
    · cases failed
      exact ⟨_, rfl⟩
    · cases failed

/-- Room of sizes that fit their words is refused for want of memory only. -/
theorem Refuses.outOfMemory {compute : ComputeType} {fault : Fault}
    (refused : Refuses compute inner outputs fault) (fits : Fits compute inner outputs) :
    fault.OutOfMemory :=
  refused.elim (reserve_failsOnly fits.panels _ fault) (reserve_failsOnly fits.lanes _ fault)

variable {fails : Fault → Prop}

/-! ## Panels -/

theorem elementCount_of_channels {filter : Shape} {flags : UInt32}
    (channels : filterChannels filter flags = .ok (inner, outputs)) :
    filter.elementCount = inner * outputs := by
  rw [filterChannels_eq_ok_iff.mp channels]
  split
  · simp only [Shape.elementCount, Nat.mul_one]
  · simp only [Shape.elementCount, Nat.mul_one, Nat.mul_comm]

/-- Every pair of channels has an entry in the filter. -/
theorem filterIndex_lt {output input : Nat} (outputInside : output < outputs)
    (inputInside : input < inner) :
    filterIndex transposed inner outputs output input < inner * outputs := by
  unfold filterIndex
  cases transposed with
  | true =>
      rw [if_pos rfl]
      exact row_column_lt inputInside outputInside
  | false =>
      rw [if_neg Bool.false_ne_true, Nat.mul_comm inner]
      exact row_column_lt outputInside inputInside

section Filter

variable {α β : Type} {filter : Array α}

theorem exists_fetch (whole : filter.size = inner * outputs) {output input : Nat}
    (outputInside : output < outputs) (inputInside : input < inner) :
    ∃ entry, fetch filter (filterIndex transposed inner outputs output input) = .ok entry := by
  have inside := @filterIndex_lt _ _ transposed _ _ outputInside inputInside
  rw [← whole] at inside
  exact ⟨_, fetch_eq_ok_iff.mpr (Array.getElem?_eq_getElem inside)⟩

theorem exists_panelEntry (whole : filter.size = inner * outputs) (zero : β) (convert : α → β)
    {position : Nat} (inside : position < panelCount outputs * inner * panelWidth) :
    ∃ entry, panelEntry filter inner outputs transposed zero convert position = .ok entry := by
  -- a filter without input channels has no positions, so that the remainder by them is in range
  have positive : 0 < inner := by
    rcases Nat.eq_zero_or_pos inner with none | some
    · rw [none, Nat.mul_zero, Nat.zero_mul] at inside
      cases inside
    · exact some
  unfold panelEntry
  extract_lets lane input output
  by_cases channel : output < outputs
  · rw [if_pos channel]
    obtain ⟨entry, found⟩ := @exists_fetch inner outputs transposed _ filter whole output input
      channel (Nat.mod_lt _ positive)
    exact ⟨convert entry, by rw [found]; rfl⟩
  · rw [if_neg channel]
    exact ⟨zero, rfl⟩

theorem packPanels_failsOnly (whole : filter.size = inner * outputs) (zero : β)
    (convert : α → β) {width : Nat}
    (room : (reserve (panelCount outputs * inner * panelWidth) width).FailsOnly fails) :
    (packPanels filter inner outputs transposed zero convert width).FailsOnly fails := by
  unfold packPanels
  apply room.bind
  intro _ _
  obtain ⟨panels, filled⟩ := exists_collect fun position inside =>
    @exists_panelEntry inner outputs transposed α β filter whole zero convert position inside
  exact .of_exists ⟨panels, lift_eq_ok_iff.mpr filled⟩

end Filter

/-! ## Sums of weights -/

/-- The sum of the weights of an output channel over the first input channels. -/
def weightSum (filter : Array Int8) (inner outputs : Nat) (transposed : Bool)
    (output count : Nat) : Int :=
  ((List.range count).map fun input =>
    (filter.getD (filterIndex transposed inner outputs output input) 0).toInt).sum

section Codes

variable {filter : Array Int8}

theorem weightSum_succ {output count : Nat} {entry : Int8}
    (found : fetch filter (filterIndex transposed inner outputs output count) = .ok entry) :
    weightSum filter inner outputs transposed output (count + 1) =
      weightSum filter inner outputs transposed output count + entry.toInt := by
  unfold weightSum
  rw [List.range_succ, List.map_append, List.sum_append, List.map_singleton, List.sum_singleton,
    Array.getD_eq_getD_getElem?, fetch_eq_ok_iff.mp found]
  rfl

/-- The sum over the first input channels is exact while they are few: each weight is at least
`-2 ^ 7`, so that no sum of `2 ^ 24` of them is below `-2 ^ 31`. -/
theorem foldlM_weights_eq (whole : filter.size = inner * outputs) {output : Nat}
    (outputInside : output < outputs) (few : inner ≤ 2 ^ 24) {count : Nat}
    (inside : count ≤ inner) :
    (List.range count).foldlM (fun (total : Int) input => do
        let entry ← fetch filter (filterIndex transposed inner outputs output input)
        let total := total + entry.toInt
        if Int32.minValue.toInt ≤ total ∧ total ≤ Int32.maxValue.toInt then pure total
        else throw Breach.overflow) 0 =
      .ok (weightSum filter inner outputs transposed output count) ∧
    -128 * (count : Int) ≤ weightSum filter inner outputs transposed output count ∧
    weightSum filter inner outputs transposed output count ≤ 127 * (count : Int) := by
  -- the bounds of the sum so far keep the next one inside 32 bits
  induction count with
  | zero => exact ⟨rfl, by simp [weightSum], by simp [weightSum]⟩
  | succ count inductionHypothesis =>
      obtain ⟨ran, least, greatest⟩ := inductionHypothesis (by omega)
      obtain ⟨entry, found⟩ := @exists_fetch inner outputs transposed _ filter whole output count
        outputInside (by omega)
      rw [weightSum_succ found, List.range_succ, List.foldlM_append, ran]
      generalize weightSum filter inner outputs transposed output count = total at least greatest ⊢
      have low := entry.le_toInt
      have high := entry.toInt_lt
      have smallest : Int32.minValue.toInt = -2147483648 := rfl
      have largest : Int32.maxValue.toInt = 2147483647 := rfl
      refine ⟨?_, by push_cast; omega, by push_cast; omega⟩
      simp only [List.foldlM_cons, List.foldlM_nil, found, bind_pure]
      show (if Int32.minValue.toInt ≤ total + entry.toInt ∧
        total + entry.toInt ≤ Int32.maxValue.toInt then pure (total + entry.toInt)
        else throw Breach.overflow : Checked Int) = _
      rw [if_pos (by omega)]
      rfl

/-- The sum of the weights of an output channel is exact when there are few of them. -/
theorem channelSum_eq (whole : filter.size = inner * outputs) {output : Nat}
    (outputInside : output < outputs) (few : inner ≤ 2 ^ 24) :
    channelSum filter inner outputs transposed output =
      .ok (Int32.ofInt (weightSum filter inner outputs transposed output inner)) := by
  unfold channelSum
  rw [(foldlM_weights_eq whole outputInside few (Nat.le_refl inner)).1]
  rfl

end Codes

/-! ## Biases -/

/-- A bias that is left out, or static with one element for each output channel. -/
def IsBias (bias : Option Value) (element : ElementType) (outputs : Nat) : Prop :=
  ∀ value, bias = some value → value.shape = [outputs] ∧ ∃ bytes, value.Weights element bytes

section Bias

variable {bias : Option Value} {element : ElementType}

section Room

variable (room : (reserve (panelCount outputs * panelWidth) 4).FailsOnly fails)

include room

theorem blankBias_failsOnly {β : Type} (zero : β) : (blankBias outputs zero).FailsOnly fails := by
  unfold blankBias
  exact room.bind fun _ _ => .pure _

theorem singleBias_failsOnly (given : IsBias bias element outputs) (width : element.width = 4) :
    (singleBias bias outputs).FailsOnly fails := by
  unfold singleBias
  apply (blankBias_failsOnly room _).bind
  intro blank _
  cases bias with
  | none => exact .pure _
  | some value =>
      obtain ⟨shape, bytes, weights⟩ := given value rfl
      obtain ⟨elements, seen, size⟩ := weights.exists_elements (α := Float32) width
      rw [shape, Shape.elementCount, Shape.elementCount, Nat.mul_one] at size
      obtain ⟨taken, front⟩ := exists_canvas (Nat.le_of_eq size.symm)
      refine .known weights.staticContents_eq ?_
      refine .known seen ?_
      exact .known (lift_eq_ok_iff.mpr front) (.pure _)

theorem halfBias_failsOnly (given : IsBias bias element outputs) (width : element.width = 2) :
    (halfBias bias outputs).FailsOnly fails := by
  unfold halfBias
  apply (blankBias_failsOnly room _).bind
  intro blank _
  cases bias with
  | none => exact .pure _
  | some value =>
      obtain ⟨_, bytes, weights⟩ := given value rfl
      obtain ⟨elements, seen, _⟩ := weights.exists_elements (α := Numeric.Half) width
      refine .known weights.staticContents_eq ?_
      exact .known seen (.pure _)

theorem codeBias_failsOnly {filter : Array Int8} (whole : filter.size = inner * outputs)
    (given : IsBias bias element outputs) (width : element.width = 4) (few : inner ≤ 2 ^ 24)
    (zeroPoint : Int32) :
    (codeBias bias filter inner outputs transposed zeroPoint).FailsOnly fails := by
  unfold codeBias
  apply (blankBias_failsOnly room _).bind
  intro blank _
  extract_lets fold
  have folds : ∀ biases, (fold biases).FailsOnly fails := by
    intro biases
    obtain ⟨folded, ran⟩ := @exists_collect _ outputs (fun output => do
        let sum ← channelSum filter inner outputs transposed output
        return biases.getD output 0 - zeroPoint * sum)
      fun output inside => ⟨_, by rw [channelSum_eq whole inside few]; rfl⟩
    exact .known (lift_eq_ok_iff.mpr ran) (.pure _)
  cases bias with
  | none => exact folds _
  | some value =>
      obtain ⟨shape, bytes, weights⟩ := given value rfl
      obtain ⟨elements, seen, size⟩ := weights.exists_elements (α := Int32) width
      rw [shape, Shape.elementCount, Shape.elementCount, Nat.mul_one] at size
      obtain ⟨taken, front⟩ := exists_canvas (Nat.le_of_eq size.symm)
      refine .known weights.staticContents_eq ?_
      refine .known seen ?_
      exact .known (lift_eq_ok_iff.mpr front) (folds _)

end Room

end Bias

/-! ## Packing -/

section Pack

variable {compute : ComputeType} {filter : Value} {bias : Option Value} {flags : UInt32}
  {element : ElementType} {bytes : Bytes} (packed : element ∈ OpKind.fullyConnected.elements)
  (computed : ComputeType.ofElement? element = some compute)
  (channels : filterChannels filter.shape flags = .ok (inner, outputs))

include packed computed channels

/-- Static weights of accepted shapes are packed unless room for them is refused. -/
theorem pack_failsOnly (room : Reserves fails compute inner outputs)
    (weights : filter.Weights element bytes)
    (given : IsBias bias (OpKind.biasElement element) outputs) (zeroPoint : Int32) :
    (pack compute filter bias flags zeroPoint).FailsOnly fails := by
  have count := elementCount_of_channels channels
  unfold pack
  refine .known (mapError_eq_ok_iff.mpr channels) ?_
  refine .known weights.staticContents_eq ?_
  cases element with
  | float32 =>
      cases computed
      obtain ⟨entries, seen, size⟩ := weights.exists_elements (α := Float32) rfl
      refine .known seen ?_
      refine (packPanels_failsOnly (size.trans count) _ _ room.panels).bind
        fun panels _ => ?_
      exact (singleBias_failsOnly room.lanes given rfl).bind fun _ _ => .pure _
  | float16 =>
      cases computed
      obtain ⟨entries, seen, size⟩ := weights.exists_elements (α := Numeric.Half) rfl
      refine .known seen ?_
      refine (packPanels_failsOnly (size.trans count) _ _ room.panels).bind
        fun panels _ => ?_
      exact (halfBias_failsOnly room.lanes given rfl).bind fun _ _ => .pure _
  | qint8 =>
      cases computed
      obtain ⟨entries, seen, size⟩ := weights.exists_elements (α := Int8) rfl
      refine .known seen ?_
      refine (packPanels_failsOnly (size.trans count) _ _ room.panels).bind
        fun panels _ => ?_
      exact (codeBias_failsOnly room.lanes (size.trans count) given rfl (room.sums rfl)
        zeroPoint).bind fun _ _ => .pure _
  | quint8 => simp [OpKind.elements] at packed
  | qint32 => simp [OpKind.elements] at packed

end Pack

end PackedWeights

end TensorEngine
