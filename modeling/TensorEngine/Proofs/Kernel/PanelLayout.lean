import TensorEngine.Proofs.Kernel.CodeProducts
import TensorEngine.Proofs.Kernel.NumberProducts

/-!
Contract: packed weights are the entries of a filter in another order, with zeros between them.

Owns:
- `PackedWeights.PanelLayout`, panels and starts whose every position is given by its panel, its
  input channel and its lane;
- `PackedWeights.LaysOut`, the layout of a filter and a bias for each compute type, and the theorem
  that packing gives it;
- `PackedWeights.TakesEntry`, which position takes which entry of the filter, and the theorem that
  every entry is taken by one position.

Does not own: products of rows and panels.
-/

namespace TensorEngine

open TensorEngine.Numeric

namespace PackedWeights

/-! ## Positions of panels -/

section Positions

variable {inner outputs panel input lane : Nat}

/-- Every position of the panels belongs to a panel, an input channel and a lane. -/
theorem exists_place {position : Nat} (inside : position < panelCount outputs * inner * panelWidth) :
    ∃ panel < panelCount outputs, ∃ input < inner, ∃ lane < panelWidth,
      position = (panel * inner + input) * panelWidth + lane := by
  obtain ⟨row, rowInside, lane, laneInside, rfl⟩ := exists_row_column inside
  obtain ⟨panel, panelInside, input, inputInside, rfl⟩ := exists_row_column rowInside
  exact ⟨panel, panelInside, input, inputInside, lane, laneInside, rfl⟩

theorem channel_parts (laneInside : lane < panelWidth) :
    (panel * panelWidth + lane) / panelWidth = panel ∧
      (panel * panelWidth + lane) % panelWidth = lane := by
  unfold panelWidth at laneInside ⊢
  omega

theorem panelPosition_of_lane (laneInside : lane < panelWidth) :
    panelPosition inner (panel * panelWidth + lane) input =
      (panel * inner + input) * panelWidth + lane := by
  obtain ⟨row, column⟩ := @channel_parts panel lane laneInside
  rw [panelPosition, row, column]

end Positions

/-! ## Entries of filters -/

section Entries

variable {inner outputs output input : Nat} {transposed : Bool}

/-- Every entry of a filter belongs to an output and an input channel. -/
theorem exists_filterIndex {index : Nat} (inside : index < inner * outputs) :
    ∃ output < outputs, ∃ input < inner,
      index = filterIndex transposed inner outputs output input := by
  unfold filterIndex
  cases transposed with
  | true =>
      obtain ⟨input, inputInside, output, outputInside, rfl⟩ := exists_row_column inside
      exact ⟨output, outputInside, input, inputInside, (if_pos rfl).symm⟩
  | false =>
      rw [Nat.mul_comm] at inside
      obtain ⟨output, outputInside, input, inputInside, rfl⟩ := exists_row_column inside
      exact ⟨output, outputInside, input, inputInside, (if_neg Bool.false_ne_true).symm⟩

/-- Different pairs of channels have different entries. -/
theorem filterIndex_injective {other otherInput : Nat} (outputInside : output < outputs)
    (inputInside : input < inner) (otherInside : other < outputs)
    (otherInputInside : otherInput < inner)
    (same : filterIndex transposed inner outputs output input =
      filterIndex transposed inner outputs other otherInput) :
    output = other ∧ input = otherInput := by
  unfold filterIndex at same
  cases transposed with
  | true =>
      rw [if_pos rfl, if_pos rfl] at same
      exact (row_column_injective outputInside otherInside same).symm
  | false =>
      rw [if_neg Bool.false_ne_true, if_neg Bool.false_ne_true] at same
      exact row_column_injective inputInside otherInputInside same

/-- A position of the panels takes the entry of a filter at an index: both belong to the same output
and input channel. -/
def TakesEntry (transposed : Bool) (inner outputs position index : Nat) : Prop :=
  ∃ panel < panelCount outputs, ∃ input < inner, ∃ lane < panelWidth,
    position = (panel * inner + input) * panelWidth + lane ∧
    panel * panelWidth + lane < outputs ∧
    index = filterIndex transposed inner outputs (panel * panelWidth + lane) input

theorem TakesEntry.of_channels (outputInside : output < outputs) (inputInside : input < inner) :
    TakesEntry transposed inner outputs (panelPosition inner output input)
      (filterIndex transposed inner outputs output input) := by
  have whole := Nat.div_add_mod' output panelWidth
  refine ⟨output / panelWidth, panel_lt outputInside, input, inputInside, output % panelWidth,
    lane_lt output, rfl, ?_, ?_⟩
  · rwa [whole]
  · rw [whole]

/-- Each entry of a filter is taken by one position of the panels. -/
theorem existsUnique_takesEntry {index : Nat} (inside : index < inner * outputs) :
    ∃! position, TakesEntry transposed inner outputs position index := by
  obtain ⟨output, outputInside, input, inputInside, rfl⟩ :=
    @exists_filterIndex inner outputs transposed index inside
  refine ⟨_, .of_channels outputInside inputInside, ?_⟩
  -- another position of the entry has its channels, which leave one panel and one lane
  rintro _ ⟨panel, _, other, otherInside, lane, laneInside, rfl, channel, same⟩
  obtain ⟨rfl, rfl⟩ := filterIndex_injective outputInside inputInside channel otherInside same
  rw [panelPosition_of_lane laneInside]

end Entries

/-! ## Layouts -/

section Layout

variable {ω β : Type} {panels : Array ω} {starts : Array β} {inner outputs : Nat}
  {weight : Nat → Nat → ω} {start : Nat → β} {zero : ω} {blank : β}

/-- Panels of eight output channels, by input channel and lane, and one start for each lane. Lanes
without an output channel have the same padding throughout. -/
structure PanelLayout (panels : Array ω) (starts : Array β) (inner outputs : Nat)
    (weight : Nat → Nat → ω) (start : Nat → β) (zero : ω) (blank : β) : Prop where
  panels_size : panels.size = panelCount outputs * inner * panelWidth
  panels_eq : ∀ panel < panelCount outputs, ∀ input < inner, ∀ lane < panelWidth,
    panels[(panel * inner + input) * panelWidth + lane]? =
      some (if panel * panelWidth + lane < outputs then weight (panel * panelWidth + lane) input
        else zero)
  starts_size : starts.size = panelCount outputs * panelWidth
  starts_eq : ∀ lane < panelCount outputs * panelWidth,
    starts[lane]? = some (if lane < outputs then start lane else blank)

/-- A layout leaves no choice: equal weights and starts have equal panels. -/
theorem PanelLayout.unique (layout : PanelLayout panels starts inner outputs weight start zero blank)
    {otherPanels : Array ω} {otherStarts : Array β} {otherWeight : Nat → Nat → ω}
    {otherStart : Nat → β}
    (other : PanelLayout otherPanels otherStarts inner outputs otherWeight otherStart zero blank)
    (weights : ∀ output < outputs, ∀ input < inner, weight output input = otherWeight output input)
    (begins : ∀ output < outputs, start output = otherStart output) :
    panels = otherPanels ∧ starts = otherStarts := by
  constructor
  · refine Array.ext_getElem? fun position => ?_
    rcases Nat.lt_or_ge position (panelCount outputs * inner * panelWidth) with inside | past
    · obtain ⟨panel, panelInside, input, inputInside, lane, laneInside, rfl⟩ := exists_place inside
      rw [layout.panels_eq panel panelInside input inputInside lane laneInside,
        other.panels_eq panel panelInside input inputInside lane laneInside]
      split
      case isTrue channel => rw [weights _ channel input inputInside]
      case isFalse => rfl
    · rw [Array.getElem?_eq_none (by rw [layout.panels_size]; exact past),
        Array.getElem?_eq_none (by rw [other.panels_size]; exact past)]
  · refine Array.ext_getElem? fun lane => ?_
    rcases Nat.lt_or_ge lane (panelCount outputs * panelWidth) with inside | past
    · rw [layout.starts_eq lane inside, other.starts_eq lane inside]
      split
      case isTrue channel => rw [begins lane channel]
      case isFalse => rfl
    · rw [Array.getElem?_eq_none (by rw [layout.starts_size]; exact past),
        Array.getElem?_eq_none (by rw [other.starts_size]; exact past)]

end Layout

/-! ## Panels of filters -/

section Panels

variable {α ω : Type} {filter : Array α} {inner outputs : Nat} {transposed : Bool} {zero : ω}
  {convert : α → ω} {width : Nat} {panels : Array ω} {panel input lane : Nat}

/-- A lane without an output channel is zero for every input channel. -/
theorem getElem?_packPanels_padding
    (packed : packPanels filter inner outputs transposed zero convert width = .ok panels)
    (panelInside : panel < panelCount outputs) (inputInside : input < inner)
    (laneInside : lane < panelWidth) (past : outputs ≤ panel * panelWidth + lane) :
    panels[(panel * inner + input) * panelWidth + lane]? = some zero := by
  unfold packPanels at packed
  obtain ⟨_, _, packed⟩ := bind_eq_ok_iff.mp packed
  have computes := collect_eq_ok_iff.mp (lift_eq_ok_iff.mp packed)
  obtain ⟨held, atPosition, computed⟩ :=
    computes.exists_element (row_column_lt (row_column_lt panelInside inputInside) laneInside)
  obtain ⟨ofLane, ofInput, ofPanel⟩ :=
    @panelPosition_parts inner (panel * panelWidth + lane) input inputInside
  obtain ⟨row, column⟩ := @channel_parts panel lane laneInside
  rw [panelPosition_of_lane laneInside] at ofLane ofInput ofPanel
  unfold panelEntry at computed
  dsimp only at computed
  rw [Nat.zero_add, ofLane, ofInput, ofPanel, row, column, if_neg (by omega)] at computed
  cases computed
  exact atPosition

end Panels

/-! ## Starts -/

section Starts

variable {β : Type} {inner outputs : Nat} {zero : β} {starts : Array β}

/-- Starts are written at the front of room for them. -/
def WrittenAtFront (outputs : Nat) (zero : β) (starts : Array β) : Prop :=
  ∃ blank front, blankBias outputs zero = .ok blank ∧ front.size ≤ outputs ∧
    starts = front ++ blank.extract front.size blank.size

theorem WrittenAtFront.of_blank (room : blankBias outputs zero = .ok starts) :
    WrittenAtFront outputs zero starts :=
  ⟨starts, #[], room, Nat.zero_le _, by simp⟩

theorem WrittenAtFront.size_eq (written : WrittenAtFront outputs zero starts) :
    starts.size = panelCount outputs * panelWidth := by
  obtain ⟨blank, front, room, few, rfl⟩ := written
  have lanes := outputs_le_lanes outputs
  have size := blankBias_size room
  rw [Array.size_append, Array.size_extract]
  omega

/-- A lane without an output channel starts at zero. -/
theorem WrittenAtFront.getElem?_padding (written : WrittenAtFront outputs zero starts) {lane : Nat}
    (inside : lane < panelCount outputs * panelWidth) (past : outputs ≤ lane) :
    starts[lane]? = some zero := by
  obtain ⟨blank, front, room, few, rfl⟩ := written
  have size := blankBias_size room
  rw [Array.getElem?_append_right (by omega), Array.getElem?_extract, if_pos (by omega),
    Nat.add_sub_cancel' (by omega)]
  exact getElem?_blankBias_lane room inside

variable {bias : Option Value} {element : ElementType}

theorem singleBias_writtenAtFront {starts : Array Float32}
    (made : singleBias bias outputs = .ok starts) :
    WrittenAtFront outputs Binary32.zero starts := by
  unfold singleBias at made
  obtain ⟨blank, room, made⟩ := bind_eq_ok_iff.mp made
  cases bias with
  | none =>
      cases made
      exact .of_blank room
  | some value =>
      obtain ⟨contents, _, made⟩ := bind_eq_ok_iff.mp made
      obtain ⟨elements, _, made⟩ := bind_eq_ok_iff.mp made
      obtain ⟨taken, ran, made⟩ := bind_eq_ok_iff.mp made
      cases made
      exact ⟨blank, taken, room, Nat.le_of_eq (canvas_size (lift_eq_ok_iff.mp ran)), rfl⟩

theorem halfBias_writtenAtFront {starts : Array Float32} (given : IsBias bias .float16 outputs)
    (made : halfBias bias outputs = .ok starts) :
    WrittenAtFront outputs Binary32.zero starts := by
  unfold halfBias at made
  obtain ⟨blank, room, made⟩ := bind_eq_ok_iff.mp made
  cases bias with
  | none =>
      cases made
      exact .of_blank room
  | some value =>
      obtain ⟨shape, bytes, weights⟩ := given value rfl
      obtain ⟨contents, static, made⟩ := bind_eq_ok_iff.mp made
      cases static.symm.trans weights.staticContents_eq
      obtain ⟨elements, viewed, made⟩ := bind_eq_ok_iff.mp made
      cases made
      obtain ⟨_, again, size⟩ := weights.exists_elements (α := Half) rfl
      cases viewed.symm.trans again
      rw [shape, Shape.elementCount, Shape.elementCount, Nat.mul_one] at size
      refine ⟨blank, _, room, ?_, rfl⟩
      rw [Array.size_map, Array.size_extract]
      omega

theorem codeBias_writtenAtFront {filter : Array Int8} {transposed : Bool} {zeroPoint : Int32}
    {starts : Array Int32}
    (made : codeBias bias filter inner outputs transposed zeroPoint = .ok starts) :
    WrittenAtFront outputs 0 starts := by
  unfold codeBias at made
  obtain ⟨blank, room, made⟩ := bind_eq_ok_iff.mp made
  extract_lets withGiven at made
  have folds : ∀ given, withGiven given = .ok starts → WrittenAtFront outputs 0 starts := by
    intro given made
    obtain ⟨folded, ran, made⟩ := bind_eq_ok_iff.mp made
    cases made
    have size := (collect_eq_ok_iff.mp (lift_eq_ok_iff.mp ran)).size_eq
    exact ⟨blank, folded, room, Nat.le_of_eq size, by rw [size]⟩
  cases bias with
  | none =>
      obtain ⟨given, _, made⟩ := bind_eq_ok_iff.mp made
      exact folds given made
  | some value =>
      obtain ⟨contents, _, made⟩ := bind_eq_ok_iff.mp made
      obtain ⟨elements, _, made⟩ := bind_eq_ok_iff.mp made
      obtain ⟨given, _, made⟩ := bind_eq_ok_iff.mp made
      exact folds given made

end Starts

/-- Panels of a filter and starts at the front of their room are laid out. -/
theorem PanelLayout.of_packed {α ω β : Type} [Storage α] {bytes : Bytes} {inner outputs : Nat}
    {transposed : Bool} {zero : ω} {convert : α → ω} {width : Nat} {panels : Array ω}
    (filled : packPanels (decodeAll bytes) inner outputs transposed zero convert width = .ok panels)
    {blank : β} {starts : Array β} (written : WrittenAtFront outputs blank starts)
    {start : Nat → β} (begins : ∀ output < outputs, starts[output]? = some (start output)) :
    PanelLayout panels starts inner outputs
      (fun output input => convert (Storage.decode (elementBytes bytes (Storage.width α)
        (filterIndex transposed inner outputs output input)))) start zero blank := by
  refine ⟨packPanels_size filled, ?_, written.size_eq, ?_⟩
  · intro panel panelInside input inputInside lane laneInside
    split
    case isTrue channel =>
      obtain ⟨entry, found, held⟩ := getElem?_packPanels filled channel inputInside
      have inside := (Array.getElem?_eq_some_iff.mp found).1
      rw [decodeAll_size] at inside
      cases (decodeAll_getElem? inside).symm.trans found
      rwa [panelPosition_of_lane laneInside] at held
    case isFalse past =>
      exact getElem?_packPanels_padding filled panelInside inputInside laneInside (by omega)
  · intro lane inside
    split
    case isTrue channel => exact begins lane channel
    case isFalse past => exact written.getElem?_padding inside (by omega)

/-! ## Packed data -/

/-- What is packed: the contents of a filter over input and output channels, in either layout, and
those of a bias. -/
structure Source where
  inner : Nat
  outputs : Nat
  transposed : Bool
  filter : Bytes
  bias : Option Bytes

namespace Source

variable (source : Source)

def entry (α : Type) [Storage α] (output input : Nat) : α :=
  Storage.decode (elementBytes source.filter (Storage.width α)
    (filterIndex source.transposed source.inner source.outputs output input))

/-- The start of an output channel: the entry of the bias as a number or a code, zero without a
bias. -/
def start {α β : Type} [Storage α] (zero : β) (convert : α → β) (output : Nat) : β :=
  source.bias.elim zero fun bytes =>
    convert (Storage.decode (elementBytes bytes (Storage.width α) output))

/-- The start of a channel of codes: its bias, less the zero point of the input times the sum of its
weights. -/
def codeStart (zeroPoint : Int32) (output : Nat) : Int32 :=
  source.start 0 (fun code : Int32 => code) output - zeroPoint * Int32.ofInt
    ((List.range source.inner).map fun input => (source.entry Int8 output input).toInt).sum

variable {source} {other : Source}

/-- Two filters have the same entries, in whatever layouts they list them. -/
structure SameEntries (width : Nat) (source other : Source) : Prop where
  inner_eq : source.inner = other.inner
  outputs_eq : source.outputs = other.outputs
  bias_eq : source.bias = other.bias
  entry_eq : ∀ output < source.outputs, ∀ input < source.inner,
    elementBytes source.filter width
        (filterIndex source.transposed source.inner source.outputs output input) =
      elementBytes other.filter width
        (filterIndex other.transposed source.inner source.outputs output input)

end Source

/-- Packed data lay out a filter and a bias for a compute type: numbers are widened, and codes are
kept, with the zero point of the input folded into their starts. -/
inductive LaysOut (source : Source) (zeroPoint : Int32) : ComputeType → PackedData → Prop where
  | single {panels starts : Array Float32}
      (layout : PanelLayout panels starts source.inner source.outputs (source.entry Float32)
        (source.start Binary32.zero fun number : Float32 => number) Binary32.zero Binary32.zero) :
      LaysOut source zeroPoint .fp32 (.floats panels starts)
  | half {panels starts : Array Float32}
      (layout : PanelLayout panels starts source.inner source.outputs
        (fun output input => (source.entry Half output input).toFloat32)
        (source.start Binary32.zero Half.toFloat32) Binary32.zero Binary32.zero) :
      LaysOut source zeroPoint .fp16 (.floats panels starts)
  | codes {panels : Array Int8} {starts : Array Int32}
      (layout : PanelLayout panels starts source.inner source.outputs (source.entry Int8)
        (source.codeStart zeroPoint) 0 0) :
      LaysOut source zeroPoint .qs8 (.codes panels starts)

section Pack

variable {source other : Source}

theorem Source.SameEntries.entry_of_width {α : Type} [Storage α]
    (same : source.SameEntries (Storage.width α) other) {output input : Nat}
    (outputInside : output < source.outputs) (inputInside : input < source.inner) :
    source.entry α output input = other.entry α output input := by
  unfold entry
  rw [same.entry_eq output outputInside input inputInside, ← same.inner_eq, ← same.outputs_eq]

theorem Source.SameEntries.start_eq {width : Nat} (same : source.SameEntries width other)
    {α β : Type} [Storage α] (zero : β) (convert : α → β) :
    source.start zero convert = other.start zero convert := by
  unfold start
  rw [same.bias_eq]

/-- Channels of codes with the same weights and biases have the same starts. -/
theorem Source.SameEntries.codeStart_eq (same : source.SameEntries (Storage.width Int8) other)
    (zeroPoint : Int32) {output : Nat} (outputInside : output < source.outputs) :
    source.codeStart zeroPoint output = other.codeStart zeroPoint output := by
  have weights :
      (List.range source.inner).map (fun input => (source.entry Int8 output input).toInt) =
        (List.range source.inner).map fun input => (other.entry Int8 output input).toInt :=
    List.map_congr_left fun input within =>
      congrArg Int8.toInt (same.entry_of_width outputInside (List.mem_range.mp within))
  unfold codeStart
  rw [same.start_eq, weights, same.inner_eq]

/-- The same entries are packed into the same data. -/
theorem LaysOut.unique {zeroPoint : Int32} {element : ElementType} {compute : ComputeType}
    {data otherData : PackedData} (computed : ComputeType.ofElement? element = some compute)
    (laid : LaysOut source zeroPoint compute data)
    (otherLaid : LaysOut other zeroPoint compute otherData)
    (same : source.SameEntries element.width other) : data = otherData := by
  cases laid with
  | single layout =>
      cases otherLaid with
      | single otherLayout =>
          cases element <;> cases computed
          rw [← same.inner_eq, ← same.outputs_eq] at otherLayout
          obtain ⟨rfl, rfl⟩ := layout.unique otherLayout
            (fun _ outputInside _ => same.entry_of_width (α := Float32) outputInside)
            (fun output _ => congrFun (same.start_eq _ _) output)
          rfl
  | half layout =>
      cases otherLaid with
      | half otherLayout =>
          cases element <;> cases computed
          rw [← same.inner_eq, ← same.outputs_eq] at otherLayout
          obtain ⟨rfl, rfl⟩ := layout.unique otherLayout
            (fun _ outputInside _ inputInside =>
              congrArg Half.toFloat32 (same.entry_of_width (α := Half) outputInside inputInside))
            (fun output _ => congrFun (same.start_eq _ _) output)
          rfl
  | codes layout =>
      cases otherLaid with
      | codes otherLayout =>
          cases element <;> cases computed
          rw [← same.inner_eq, ← same.outputs_eq] at otherLayout
          obtain ⟨rfl, rfl⟩ := layout.unique otherLayout
            (fun _ outputInside _ => same.entry_of_width (α := Int8) outputInside)
            (fun output inside => same.codeStart_eq zeroPoint inside)
          rfl

/-! ## Packing -/

theorem IsBias.contents {bias : Option Value} {element : ElementType} {outputs : Nat}
    (given : IsBias bias element outputs) :
    Option.Rel (fun value bytes => value.contents = some bytes) bias
      (bias.bind (·.contents)) := by
  cases bias with
  | none => exact .none
  | some value =>
      obtain ⟨_, bytes, weights⟩ := given value rfl
      rw [Option.bind_some, weights.contents_eq]
      exact .some weights.contents_eq

/-- A bias has an entry for every output channel. -/
theorem IsBias.size_eq {bias : Option Value} {element : ElementType} {outputs : Nat}
    (given : IsBias bias element outputs) {bytes : Bytes}
    (held : bias.bind (·.contents) = some bytes) : outputs * element.width = bytes.size := by
  obtain ⟨value, rfl, held⟩ := Option.bind_eq_some_iff.mp held
  obtain ⟨shape, _, weights⟩ := given value rfl
  cases held.symm.trans weights.contents_eq
  rw [weights.filled, Value.byteCount, weights.element_eq, shape, Shape.elementCount,
    Shape.elementCount, Nat.mul_one]

variable {compute : ComputeType} {element : ElementType} {filter : Value} {bias : Option Value}
  {flags : UInt32} {bytes : Bytes} {inner outputs : Nat} {zeroPoint : Int32}

theorem getD_decodeAll {α : Type} [Storage α] {bytes : Bytes} {place : Nat}
    (inside : place < (decodeAll bytes : Array α).size) (fallback : α) :
    (decodeAll bytes : Array α).getD place fallback =
      Storage.decode (elementBytes bytes (Storage.width α) place) := by
  rw [decodeAll_size] at inside
  rw [Array.getD_eq_getD_getElem?, decodeAll_getElem? inside, Option.getD_some]

def sourceOf (filter : Bytes) (bias : Option Value) (flags : UInt32) (inner outputs : Nat) :
    Source where
  inner := inner
  outputs := outputs
  transposed := transposedFilter flags
  filter := filter
  bias := bias.bind (·.contents)

/-- The start that is made from the codes of a filter and a bias is that of their entries. -/
theorem codeStart_sourceOf (whole : (decodeAll bytes : Array Int8).size = inner * outputs)
    (given : IsBias bias .qint32 outputs) {output : Nat} (inside : output < outputs) :
    ((bias.bind (·.contents)).elim #[] decodeAll).getD output 0 - zeroPoint * Int32.ofInt
        (weightSum (decodeAll bytes) inner outputs (transposedFilter flags) output inner) =
      (sourceOf bytes bias flags inner outputs).codeStart zeroPoint output := by
  have weights : weightSum (decodeAll bytes) inner outputs (transposedFilter flags) output inner =
      ((List.range inner).map fun input =>
        ((sourceOf bytes bias flags inner outputs).entry Int8 output input).toInt).sum := by
    refine congrArg List.sum (List.map_congr_left fun input within => congrArg Int8.toInt ?_)
    refine getD_decodeAll ?_ 0
    rw [whole]
    exact filterIndex_lt inside (List.mem_range.mp within)
  have begins : ((bias.bind (·.contents)).elim #[] decodeAll).getD output (0 : Int32) =
      (sourceOf bytes bias flags inner outputs).start 0 (fun code : Int32 => code) output := by
    unfold Source.start sourceOf
    cases held : bias.bind (·.contents) with
    | none => rfl
    | some contents =>
        refine getD_decodeAll ?_ 0
        rw [decodeAll_size, ← given.size_eq held]
        exact Nat.lt_of_lt_of_le inside (Nat.le_of_eq (Nat.mul_div_cancel _ (by decide)).symm)
  rw [weights, begins]
  rfl

/-- Packed weights lay out the filter and the bias that they are packed from. -/
theorem laysOut_of_pack (listed : element ∈ OpKind.fullyConnected.elements)
    (computed : ComputeType.ofElement? element = some compute)
    (channels : filterChannels filter.shape flags = .ok (inner, outputs))
    (weights : filter.Weights element bytes)
    (given : IsBias bias (OpKind.biasElement element) outputs) {packed : PackedWeights}
    (ran : pack compute filter bias flags zeroPoint = .ok packed) :
    ∃ data, packed = ⟨inner, outputs, data⟩ ∧
      LaysOut (sourceOf bytes bias flags inner outputs) zeroPoint compute data := by
  cases element with
  | float32 =>
      cases computed
      obtain ⟨panels, starts, rfl, filled, made⟩ :=
        exists_of_pack_single ran channels weights.contents_eq
      exact ⟨_, rfl, .single (.of_packed filled (singleBias_writtenAtFront made)
        fun _ inside => getElem?_singleBias given.contents made inside)⟩
  | float16 =>
      cases computed
      obtain ⟨panels, starts, rfl, filled, made⟩ :=
        exists_of_pack_half ran channels weights.contents_eq
      have enough : ∀ bytes, bias.bind (·.contents) = some bytes →
          outputs * Storage.width Half ≤ bytes.size :=
        fun _ held => Nat.le_of_eq (given.size_eq held)
      exact ⟨_, rfl, .half (.of_packed filled (halfBias_writtenAtFront given made)
        fun _ inside => getElem?_halfBias given.contents enough made inside)⟩
  | qint8 =>
      cases computed
      obtain ⟨panels, starts, rfl, filled, made⟩ :=
        exists_of_pack_codes ran channels weights.contents_eq
      refine ⟨_, rfl, .codes (.of_packed filled (codeBias_writtenAtFront made) fun _ inside => ?_)⟩
      rw [getElem?_codeBias_of_contents given.contents made inside,
        codeStart_sourceOf ((weights.decodeAll_size rfl).trans (elementCount_of_channels channels))
          given inside]
  | quint8 => simp [OpKind.elements] at listed
  | qint32 => cases computed

theorem Granted.exists_pack (granted : Granted compute inner outputs)
    (few : compute = .qs8 → inner ≤ 2 ^ 24) (listed : element ∈ OpKind.fullyConnected.elements)
    (computed : ComputeType.ofElement? element = some compute)
    (channels : filterChannels filter.shape flags = .ok (inner, outputs))
    (weights : filter.Weights element bytes)
    (given : IsBias bias (OpKind.biasElement element) outputs) (zeroPoint : Int32) :
    ∃ packed, pack compute filter bias flags zeroPoint = .ok packed := by
  have never : (pack compute filter bias flags zeroPoint).FailsOnly fun _ => False :=
    pack_failsOnly listed computed channels
      ⟨.of_exists ⟨_, granted.panels⟩, .of_exists ⟨_, granted.lanes⟩, few⟩ weights given zeroPoint
  cases ran : pack compute filter bias flags zeroPoint with
  | ok packed => exact ⟨packed, rfl⟩
  | error fault => exact (never fault ran).elim

/-- Packing is a padded permutation of the filter. A filter and a bias of the elements of a compute
type, with contents that fill their shapes, are packed when room is granted, and codes are few
enough for their sums to fit. The packed data lay out the entries of the filter with zeros in the
lanes past the last channel, every entry of the filter is taken by one position, and a filter that
lists the same entries in the other layout is packed into the same weights. -/
theorem pack_takes_each_entry_once (listed : element ∈ OpKind.fullyConnected.elements)
    (computed : ComputeType.ofElement? element = some compute)
    (shape : filter.shape =
      if transposedFilter flags then [inner, outputs] else [outputs, inner])
    (weights : filter.Weights element bytes)
    (given : IsBias bias (OpKind.biasElement element) outputs)
    (granted : Granted compute inner outputs) (few : compute = .qs8 → inner ≤ 2 ^ 24)
    (zeroPoint : Int32) :
    ∃ data, pack compute filter bias flags zeroPoint = .ok ⟨inner, outputs, data⟩ ∧
      LaysOut (sourceOf bytes bias flags inner outputs) zeroPoint compute data ∧
      (∀ index < inner * outputs,
        ∃! position, TakesEntry (transposedFilter flags) inner outputs position index) ∧
      ∀ (other : Value) (otherFlags : UInt32) (otherBytes : Bytes),
        other.shape =
          (if transposedFilter otherFlags then [inner, outputs] else [outputs, inner]) →
        other.Weights element otherBytes →
        (sourceOf bytes bias flags inner outputs).SameEntries element.width
          (sourceOf otherBytes bias otherFlags inner outputs) →
        pack compute other bias otherFlags zeroPoint = .ok ⟨inner, outputs, data⟩ := by
  have channels := filterChannels_eq_ok_iff.mpr shape
  obtain ⟨packed, ran⟩ := granted.exists_pack few listed computed channels weights given zeroPoint
  obtain ⟨data, rfl, laid⟩ := laysOut_of_pack listed computed channels weights given ran
  refine ⟨data, ran, laid, fun index inside => existsUnique_takesEntry inside, ?_⟩
  intro other otherFlags otherBytes otherShape otherWeights same
  have otherChannels := filterChannels_eq_ok_iff.mpr otherShape
  obtain ⟨again, otherRan⟩ :=
    granted.exists_pack few listed computed otherChannels otherWeights given zeroPoint
  obtain ⟨otherData, rfl, otherLaid⟩ :=
    laysOut_of_pack listed computed otherChannels otherWeights given otherRan
  rw [otherRan, laid.unique computed otherLaid same]

def staticCodes (element : ElementType) (shape : Shape) (contents : Bytes) : Value :=
  { Value.placeholder 0 with element := element, shape := shape, contents := some contents }

/-- The theorem applies to three output channels over two input channels: a transposed filter is
packed as the other one is, into one panel with five lanes of padding, less twice the sums of the
weights. -/
theorem pack_takes_each_entry_once_codes :
    pack .qs8 (staticCodes .qint8 [2, 3] #[1, 3, 5, 2, 4, 6])
        (some (staticCodes .qint32 [3] #[10, 0, 0, 0, 20, 0, 0, 0, 30, 0, 0, 0])) 1 2 =
      .ok ⟨2, 3, .codes #[1, 3, 5, 0, 0, 0, 0, 0, 2, 4, 6, 0, 0, 0, 0, 0]
        #[4, 6, 8, 0, 0, 0, 0, 0]⟩ ∧
      ∃! position, TakesEntry false 2 3 position 3 := by
  have weights : (staticCodes .qint8 [3, 2] #[1, 2, 3, 4, 5, 6]).Weights .qint8 _ :=
    ⟨rfl, rfl, rfl⟩
  have given : IsBias
      (some (staticCodes .qint32 [3] #[10, 0, 0, 0, 20, 0, 0, 0, 30, 0, 0, 0])) .qint32 3 := by
    rintro _ ⟨⟩
    exact ⟨rfl, _, rfl, rfl, rfl⟩
  obtain ⟨data, packed, _, once, same⟩ :=
    pack_takes_each_entry_once (show ElementType.qint8 ∈ _ by decide) rfl
      (show _ = if transposedFilter 0 then [2, 3] else [3, 2] from rfl) weights given ⟨rfl, rfl⟩
      (by decide) 2
  cases packed.symm.trans (show pack .qs8 _ _ 0 2 = .ok _ from rfl)
  exact ⟨same _ _ _ rfl ⟨rfl, rfl, rfl⟩ ⟨rfl, rfl, rfl, by decide⟩, once 3 (by decide)⟩

end Pack

end PackedWeights

end TensorEngine
