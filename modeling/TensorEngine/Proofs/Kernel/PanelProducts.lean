import TensorEngine.Proofs.Kernel.WholeWeights
import TensorEngine.Proofs.Tensor.MultiIndex

/-!
Contract: products by packed panels are products by the filter itself.

Owns:
- `PackedWeights.panelPosition`, where the panels hold the weight of an output and an input channel,
  and the theorem that packing puts the entry of the filter there;
- the theorem that the product of a row and a channel is the fold over the input channels in their
  order, whatever the panels hold beside them;
- the theorem that the loop over rows writes one such product for each row and channel.

Does not own: what a fold means for a storage type.

Weights may be of any type here: nothing depends on how they are added up.
-/

namespace TensorEngine

namespace PackedWeights

/-! ## Panels -/

/-- Where the panels hold the weight of an output and an input channel. -/
def panelPosition (inner output input : Nat) : Nat :=
  (output / panelWidth * inner + input) * panelWidth + output % panelWidth

section Panels

variable {inner outputs output input : Nat}

theorem panel_lt (outputInside : output < outputs) : output / panelWidth < panelCount outputs := by
  unfold panelCount panelWidth
  omega

theorem lane_lt (output : Nat) : output % panelWidth < panelWidth := Nat.mod_lt _ (by decide)

theorem panelPosition_lt (outputInside : output < outputs) (inputInside : input < inner) :
    panelPosition inner output input < panelCount outputs * inner * panelWidth :=
  row_column_lt (row_column_lt (panel_lt outputInside) inputInside) (lane_lt output)

/-- A position of the panels tells its lane, its input channel and its panel. -/
theorem panelPosition_parts (inputInside : input < inner) :
    panelPosition inner output input % panelWidth = output % panelWidth ∧
      panelPosition inner output input / panelWidth % inner = input ∧
      panelPosition inner output input / panelWidth / inner = output / panelWidth := by
  have lane := lane_lt output
  have some : 0 < inner := by omega
  have row :
      panelPosition inner output input / panelWidth = output / panelWidth * inner + input := by
    unfold panelPosition
    rw [Nat.mul_comm, Nat.mul_add_div (by decide), Nat.div_eq_of_lt lane, Nat.add_zero]
  refine ⟨?_, ?_, ?_⟩
  · unfold panelPosition
    rw [Nat.mul_comm, Nat.mul_add_mod, Nat.mod_eq_of_lt lane]
  · rw [row, Nat.mul_comm, Nat.mul_add_mod, Nat.mod_eq_of_lt inputInside]
  · rw [row, Nat.mul_comm, Nat.mul_add_div some, Nat.div_eq_of_lt inputInside, Nat.add_zero]

variable {α ω : Type} {filter : Array α} {transposed : Bool} {zero : ω} {convert : α → ω}

/-- Packed panels hold the entry of every output and input channel, in either layout of the
filter. -/
theorem getElem?_packPanels {width : Nat} {weights : Array ω}
    (packed : packPanels filter inner outputs transposed zero convert width = .ok weights)
    (outputInside : output < outputs) (inputInside : input < inner) :
    ∃ entry, filter[filterIndex transposed inner outputs output input]? = some entry ∧
      weights[panelPosition inner output input]? = some (convert entry) := by
  unfold packPanels at packed
  obtain ⟨_, _, packed⟩ := bind_eq_ok_iff.mp packed
  have computes := collect_eq_ok_iff.mp (lift_eq_ok_iff.mp packed)
  obtain ⟨held, atPosition, computed⟩ :=
    computes.exists_element (panelPosition_lt outputInside inputInside)
  obtain ⟨lane, row, panel⟩ := @panelPosition_parts inner output input inputInside
  unfold panelEntry at computed
  dsimp only at computed
  rw [Nat.zero_add, lane, row, panel, Nat.div_add_mod', if_pos outputInside] at computed
  obtain ⟨entry, found, computed⟩ := bind_eq_ok_iff.mp computed
  cases computed
  exact ⟨entry, fetch_eq_ok_iff.mp found, atPosition⟩

end Panels

end PackedWeights

open PackedWeights

/-! ## Products -/

section Products

variable {α β ω : Type} {inner outputs : Nat} {weights : Array ω} {bias : Array β}

/-- Whole panels that hold these weights, and biases that hold these starts. -/
structure HoldsChannels (weights : Array ω) (bias : Array β) (inner outputs : Nat)
    (weight : Nat → Nat → ω) (start : Nat → β) : Prop where
  panels : weights.size = panelCount outputs * inner * panelWidth
  lanes : bias.size = panelCount outputs * panelWidth
  weight_eq : ∀ output < outputs, ∀ input < inner,
    weights[panelPosition inner output input]? = some (weight output input)
  start_eq : ∀ output < outputs, bias[output]? = some (start output)

variable {weight : Nat → Nat → ω} {start : Nat → β}

/-- The product of a row and a channel, from the start of the channel over the input channels in
their order. -/
def rowProduct (step : β → α → ω → β) (inner : Nat) (weight : Nat → Nat → ω) (start : Nat → β)
    (row : Nat → α) (output : Nat) : β :=
  (List.range inner).foldl (fun sum input => step sum (row input) (weight output input))
    (start output)

/-- What panels hold beside a channel has no part in its product. -/
theorem HoldsChannels.channelProduct_eq
    (holds : HoldsChannels weights bias inner outputs weight start) (step : β → α → ω → β)
    {part : Array α} {row : Nat → α}
    (elements : ∀ input < inner, part[input]? = some (row input)) {output : Nat}
    (inside : output < outputs) :
    channelProduct inner weights bias step part output =
      .ok (rowProduct step inner weight start row output) := by
  have lane := lane_lt output
  have panel := panel_lt inside
  have whole := Nat.div_add_mod' output panelWidth
  have biasEnd : (output / panelWidth + 1) * panelWidth ≤ bias.size := by
    rw [holds.lanes]
    exact Nat.mul_le_mul_right _ panel
  have weightsEnd : (output / panelWidth + 1) * inner * panelWidth ≤ weights.size := by
    rw [holds.panels]
    exact Nat.mul_le_mul_right _ (Nat.mul_le_mul_right _ panel)
  have width : (output / panelWidth + 1) * panelWidth = output / panelWidth * panelWidth +
      panelWidth := Nat.succ_mul _ _
  have length : (output / panelWidth + 1) * inner * panelWidth =
      output / panelWidth * inner * panelWidth + inner * panelWidth := by
    rw [Nat.succ_mul, Nat.add_mul]
  have starts : slice bias (output / panelWidth * panelWidth)
      ((output / panelWidth + 1) * panelWidth) = .ok _ :=
    slice_eq_ok_iff.mpr ⟨by omega, biasEnd, rfl⟩
  have entries : slice weights (output / panelWidth * inner * panelWidth)
      ((output / panelWidth + 1) * inner * panelWidth) = .ok _ :=
    slice_eq_ok_iff.mpr ⟨by omega, weightsEnd, rfl⟩
  have first : fetch _ (output % panelWidth) = .ok (start output) :=
    (fetch_slice starts (by omega)).trans
      (fetch_eq_ok_iff.mpr (by rw [whole]; exact holds.start_eq output inside))
  unfold channelProduct
  refine bind_eq_ok_iff.mpr ⟨_, starts, bind_eq_ok_iff.mpr ⟨_, entries,
    bind_eq_ok_iff.mpr ⟨_, first, ?_⟩⟩⟩
  refine foldlM_range_eq_foldl (fun input within sum => ?_) _
  have bound := row_end_le panelWidth within
  have position : output / panelWidth * inner * panelWidth +
      (input * panelWidth + output % panelWidth) = panelPosition inner output input := by
    unfold panelPosition
    rw [Nat.add_mul, Nat.add_assoc]
  have entry : fetch _ (input * panelWidth + output % panelWidth) = .ok (weight output input) :=
    (fetch_slice entries (by omega)).trans
      (fetch_eq_ok_iff.mpr (by rw [position]; exact holds.weight_eq output inside input within))
  exact bind_eq_ok_iff.mpr ⟨_, fetch_eq_ok_iff.mpr (elements input within),
    bind_eq_ok_iff.mpr ⟨_, entry, rfl⟩⟩

variable [Storage α]

/-- The loop over rows writes the result of the product of every row and channel. -/
theorem HoldsChannels.multiplyRows_writes (packed : PackedWeights)
    (holds : HoldsChannels weights bias packed.inner packed.outputs weight start)
    (step : β → α → ω → β) {result : β → Checked α} (total : ∀ sum, ∃ value, result sum = .ok value)
    (schedule : Schedule) {rows : Nat} (tileElements : Nat) {inputs : List Buffer}
    {output : Buffer} {elements room : Array α} (reads : Reads α inputs 0 elements)
    (viewed : Outcome.view α output = .ok room) (enough : rows * packed.inner ≤ elements.size)
    (short : rows * packed.inner < 2 ^ 64) (fits : rows * packed.outputs ≤ room.size)
    {element : Nat → α} (named : ∀ index < rows * packed.inner,
      elements[index]? = some (element index)) :
    ∃ written, multiplyRows packed weights bias step result schedule rows tileElements inputs
        output = .ok (encodeAll written) ∧ written.size = rows * packed.outputs ∧
      ∀ row < rows, ∀ channel < packed.outputs, ∃ value,
        written[row * packed.outputs + channel]? = some value ∧
        result (rowProduct step packed.inner weight start
          (fun input => element (row * packed.inner + input)) channel) = .ok value := by
  obtain ⟨view, made, viewRows⟩ := RowView.exists_rows enough short
  -- one product of the loop
  have product : ∀ row < rows, ∀ channel < packed.outputs,
      productElement packed weights bias step result view (row * packed.outputs + channel) =
        result (rowProduct step packed.inner weight start
          (fun input => element (row * packed.inner + input)) channel) := by
    intro row rowInside channel inside
    obtain ⟨part, ran, _, columns⟩ := viewRows row rowInside
    have bound := row_end_le packed.inner rowInside
    unfold productElement
    rw [rowElement_eq ran inside]
    unfold productEntry
    rw [holds.channelProduct_eq step (fun input within => ?_) inside]
    · rfl
    · rw [columns input within]
      exact named _ (by omega)
  obtain ⟨written, computes⟩ := exists_computes
    fun index (inside : index < rows * packed.outputs) => by
    have some : 0 < packed.outputs := by
      rcases Nat.eq_zero_or_pos packed.outputs with none | some
      · rw [none, Nat.mul_zero] at inside
        cases inside
      · exact some
    have same := product _ ((Nat.div_lt_iff_lt_mul some).mpr inside) _ (Nat.mod_lt index some)
    obtain ⟨value, valued⟩ := total _
    rw [Nat.div_add_mod'] at same
    exact ⟨value, same.trans valued⟩
  refine ⟨written, multiplyRows_eq_ok_iff.mpr ⟨elements, view, reads, made, room, written, viewed,
    fits, computes, rfl⟩, computes.size_eq, fun row rowInside channel inside => ?_⟩
  have place := row_column_lt rowInside inside
  obtain ⟨value, found, computed⟩ := computes.exists_element place
  rw [Nat.zero_add, product row rowInside channel inside] at computed
  exact ⟨value, found, computed⟩

end Products

end TensorEngine
