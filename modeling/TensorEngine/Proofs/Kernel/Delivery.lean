import TensorEngine.Proofs.Kernel.Strides
import TensorEngine.Proofs.Tensor.MultiIndex
import TensorEngine.Proofs.Tensor.RowAccess

/-!
Contract: kernels on buffers of the right sizes end without a breach.

Owns:
- `Fault.misaligned` and `Outcome.UnlessMisaligned`, the one fault that is left;
- `Buffer.Lends`, a buffer that holds exactly a number of elements;
- one theorem for each tiled loop, from the totality of what it computes for an element.

Does not own: that the functions of an operator are total on what they are applied to.
-/

namespace TensorEngine

/-! ## Misaligned buffers -/

/-- The fault of a view of a buffer that is not aligned. -/
def Fault.misaligned : Fault := .refused (.invalidParameter (.cast .misaligned))

/-- A computation that has a result unless buffers are not aligned. -/
abbrev Outcome.UnlessMisaligned {α : Type} (aligned : Prop) (outcome : Outcome α) : Prop :=
  outcome.FailsOnly fun fault => fault = .misaligned ∧ ¬ aligned

/-- A buffer that holds `count` elements of a width, at their alignment if buffers are aligned. -/
structure Buffer.Lends (buffer : Buffer) (aligned : Prop) (width count : Nat) : Prop where
  size_eq : buffer.size = count * width
  placed : aligned → buffer.address % width = 0

section Loops

variable {aligned : Prop}

section Views

variable {α : Type} [Storage α] {buffer : Buffer} {count : Nat}

/-- A buffer of whole elements can be viewed unless it is not aligned. -/
theorem Buffer.Lends.view (lends : buffer.Lends aligned (Storage.width α) count) :
    (Outcome.view α buffer).UnlessMisaligned aligned := by
  intro fault failed
  have whole : buffer.size % Storage.width α = 0 := by rw [lends.size_eq, Nat.mul_mod_left]
  unfold Outcome.view Outcome.ofParameter Buffer.view at failed
  split at failed
  · rename_i misplaced
    cases failed
    exact ⟨rfl, fun given => misplaced (lends.placed given)⟩
  · rw [if_neg (not_not.mpr whole)] at failed
    cases failed

theorem Buffer.Lends.elements_size (lends : buffer.Lends aligned (Storage.width α) count)
    {elements : Array α} (viewed : Outcome.view α buffer = .ok elements) :
    elements.size = count := by
  obtain ⟨_, _, rfl⟩ := view_eq_ok_iff.mp viewed
  rw [decodeAll_size]
  show buffer.size / Storage.width α = count
  rw [lends.size_eq, Nat.mul_div_cancel _ Storage.width_pos]

theorem Buffer.Lends.front (lends : buffer.Lends aligned (Storage.width α) count)
    {elements : Array α} (viewed : Outcome.view α buffer = .ok elements) :
    ∃ taken, TensorEngine.front elements count = .ok taken ∧ taken.size = count := by
  obtain ⟨taken, ran⟩ := exists_canvas (Nat.le_of_eq (lends.elements_size viewed).symm)
  exact ⟨taken, ran, canvas_size ran⟩

end Views

theorem exists_computes {α : Type} {element : Nat → Checked α} {count : Nat}
    (each : ∀ index < count, ∃ value, element index = .ok value) :
    ∃ chunk, Computes element 0 count chunk := by
  obtain ⟨chunk, ran⟩ := exists_collect each
  exact ⟨chunk, collect_eq_ok_iff.mp ran⟩

theorem exists_fetch_lt {α : Type} {data : Array α} {index : Nat} (inside : index < data.size) :
    ∃ element, fetch data index = .ok element :=
  ⟨data[index], fetch_eq_ok_iff.mpr (Array.getElem?_eq_getElem inside)⟩

/-! ## Mapped elements -/

/-- A total function is mapped over an input of as many elements as the output. -/
theorem mapElements_delivers {α β : Type} [Storage α] [Storage β] {function : α → Checked β}
    (total : ∀ x, ∃ y, function x = .ok y) (schedule : Schedule) (tileElements lanes : Nat)
    {count : Nat} {inputs : List Buffer} {input output : Buffer}
    (first : inputs[0]? = some input) (lends : input.Lends aligned (Storage.width α) count)
    (lendsOutput : output.Lends aligned (Storage.width β) count) :
    (mapElements function schedule tileElements lanes count inputs output).UnlessMisaligned
      aligned := by
  unfold mapElements
  refine .known (operand_eq_ok_iff.mpr first) (lends.view.bind fun elements viewed => ?_)
  refine lendsOutput.view.bind fun room viewedRoom => ?_
  obtain ⟨source, taken, size⟩ := lends.front viewed
  obtain ⟨canvas, takenRoom, sizeRoom⟩ := lendsOutput.front viewedRoom
  obtain ⟨written, computes⟩ := @exists_computes _ (mappedElement function elements) count
    (fun index inside => by
      obtain ⟨x, found⟩ :=
        exists_fetch_lt (Nat.lt_of_lt_of_eq inside (lends.elements_size viewed).symm)
      obtain ⟨y, value⟩ := total x
      exact ⟨y, bind_eq_ok_iff.mpr ⟨x, found, value⟩⟩)
  refine .known (lift_eq_ok_iff.mpr taken) (.known (lift_eq_ok_iff.mpr takenRoom) ?_)
  refine .known (lift_eq_ok_iff.mpr ((runSchedule_eq_ok_iff sizeRoom fun tile listed chunk =>
    mappedTile_eq_ok_iff taken ((covers_tiles count _).inside tile listed)).mpr computes)) ?_
  exact .pure _

/-! ## Combined elements -/

/-- A plan that stays inside its inputs gives every element of its output. -/
theorem BroadcastPlan.Inside.exists_element {α : Type} {plan : BroadcastPlan}
    (inside : plan.Inside) {function : α → α → Checked α}
    (total : ∀ x y, ∃ z, function x y = .ok z) {left right : Array α}
    (leftSize : left.size = plan.left.count) (rightSize : right.size = plan.right.count)
    {index : Nat} (within : index < plan.count) :
    ∃ value, combinedElement function plan left right index = .ok value := by
  unfold combinedElement
  split
  · rename_i flat
    obtain ⟨ofLeft, ofRight⟩ := inside.flat flat
    obtain ⟨x, foundLeft⟩ := @exists_fetch_lt _ left index (by omega)
    obtain ⟨y, foundRight⟩ := @exists_fetch_lt _ right index (by omega)
    obtain ⟨z, value⟩ := total x y
    exact ⟨z, bind_eq_ok_iff.mpr ⟨x, foundLeft, bind_eq_ok_iff.mpr ⟨y, foundRight, value⟩⟩⟩
  · have columns : 0 < plan.columns := by
      refine Nat.pos_of_ne_zero fun none => ?_
      unfold count at within
      rw [none, Nat.mul_zero] at within
      exact Nat.not_lt_zero _ within
    obtain ⟨leftOffset, rightOffset, ran, reads⟩ :=
      inside.rows (Nat.zero_lt_of_lt within) (index / plan.columns)
    obtain ⟨readLeft, readRight⟩ := reads _ (Nat.mod_lt index columns)
    obtain ⟨x, foundLeft⟩ := exists_fetch_lt (Nat.lt_of_lt_of_eq readLeft leftSize.symm)
    obtain ⟨y, foundRight⟩ := exists_fetch_lt (Nat.lt_of_lt_of_eq readRight rightSize.symm)
    obtain ⟨z, value⟩ := total x y
    exact ⟨z, bind_eq_ok_iff.mpr ⟨_, ran, bind_eq_ok_iff.mpr ⟨x, foundLeft,
      bind_eq_ok_iff.mpr ⟨y, foundRight, value⟩⟩⟩⟩

theorem inputElements_delivers {α : Type} [Storage α] {inputs : List Buffer} {index count : Nat}
    {input : Buffer} (given : inputs[index]? = some input)
    (lends : input.Lends aligned (Storage.width α) count) :
    (inputElements α inputs index count).UnlessMisaligned aligned := by
  unfold inputElements
  refine .known (operand_eq_ok_iff.mpr given) (lends.view.bind fun elements viewed => ?_)
  obtain ⟨taken, ran, _⟩ := lends.front viewed
  exact .of_exists ⟨taken, lift_eq_ok_iff.mpr ran⟩

theorem inputElements_size {α : Type} [Storage α] {inputs : List Buffer} {index count : Nat}
    {taken : Array α} (ran : inputElements α inputs index count = .ok taken) :
    taken.size = count := by
  obtain ⟨elements, _, front⟩ := inputElements_eq_ok_iff.mp ran
  exact canvas_size front

theorem combineElements_delivers {α : Type} [Storage α] {function : α → α → Checked α}
    (total : ∀ x y, ∃ z, function x y = .ok z) (schedule : Schedule) {plan : BroadcastPlan}
    (inside : plan.Inside) (tileElements lanes : Nat) {inputs : List Buffer}
    {left right output : Buffer} (first : inputs[0]? = some left)
    (second : inputs[1]? = some right)
    (lendsLeft : left.Lends aligned (Storage.width α) plan.left.count)
    (lendsRight : right.Lends aligned (Storage.width α) plan.right.count)
    (lendsOutput : output.Lends aligned (Storage.width α) plan.count) :
    (combineElements function schedule plan tileElements lanes inputs output).UnlessMisaligned
      aligned := by
  rw [combineElements_eq]
  refine (inputElements_delivers first lendsLeft).bind fun leftElements readLeft => ?_
  refine (inputElements_delivers second lendsRight).bind fun rightElements readRight => ?_
  refine lendsOutput.view.bind fun room viewed => ?_
  obtain ⟨canvas, taken, size⟩ := lendsOutput.front viewed
  obtain ⟨written, computes⟩ := @exists_computes _
    (combinedElement function plan leftElements rightElements) plan.count
    (fun index within => inside.exists_element total (inputElements_size readLeft)
      (inputElements_size readRight) within)
  have ran := (@runCombination_eq_ok_iff _ function plan schedule tileElements lanes leftElements
    rightElements canvas written size).mpr computes
  exact .known (lift_eq_ok_iff.mpr taken) (.known (lift_eq_ok_iff.mpr ran) (.pure _))

/-! ## Rows -/

/-- An array of enough elements is read as rows, column by column. -/
theorem RowView.exists_rows {α : Type} {base : Array α} {rows rowLength : Nat}
    (enough : rows * rowLength ≤ base.size) (short : rows * rowLength < 2 ^ 64) :
    ∃ view, contiguous base rows rowLength = .ok view ∧
      ∀ index < rows, ∃ part, view.row index = .ok part ∧ part.size = rowLength ∧
        ∀ column < rowLength, part[column]? = base[index * rowLength + column]? := by
  have checked : checkExtent base.size rows rowLength rowLength = .ok () := by
    refine checkExtent_eq_ok_iff.mpr ?_
    rcases Nat.eq_zero_or_pos rows with none | some
    · exact .inl none
    · have whole : (rows - 1) * rowLength + rowLength = rows * rowLength := by
        rw [← Nat.succ_mul, Nat.succ_eq_add_one, Nat.sub_add_cancel some]
      rw [whole]
      exact .inr (.inr ⟨Nat.le_refl _, enough, short⟩)
  refine ⟨⟨base, rows, rowLength, rowLength⟩, make_eq_ok_iff.mpr ⟨checked, rfl⟩,
    fun index inside => ?_⟩
  have bound := row_end_le rowLength inside
  exact (Reaches.of_stop inside
    (Nat.le_trans bound enough) (Nat.lt_of_le_of_lt bound short)).exists_part

/-- An array of exactly so many elements is read as rows. -/
theorem RowView.exists_contiguous {α : Type} {base : Array α} {rows rowLength : Nat}
    (size : base.size = rows * rowLength) (short : rows * rowLength < 2 ^ 64) :
    ∃ view, contiguous base rows rowLength = .ok view ∧
      ∀ index < rows, ∃ part, view.row index = .ok part ∧ part.size = rowLength := by
  obtain ⟨view, made, rows⟩ := exists_rows (Nat.le_of_eq size.symm) short
  refine ⟨view, made, fun index inside => ?_⟩
  obtain ⟨part, ran, length, _⟩ := rows index inside
  exact ⟨part, ran, length⟩

/-! ## Averaged elements -/

/-- A function that adds elements to sums for a number of positions, and a result for the last
sum. The invariant says what a sum of so many positions can be. -/
structure SumsUp {α β : Type} (positions : Nat) (zero : β) (add : β → α → Checked β)
    (result : β → Checked α) (holds : Nat → β → Prop) : Prop where
  zero : holds 0 zero
  add : ∀ position < positions, ∀ sum element, holds position sum →
    ∃ next, add sum element = .ok next ∧ holds (position + 1) next
  result : ∀ sum, holds positions sum → ∃ value, result sum = .ok value

section Pool

variable {α β : Type} {zero : β} {add : β → α → Checked β} {result : β → Checked α}
  {holds : Nat → β → Prop} {positions : Nat}

/-- Sums over the positions of an image that is there. The invariant may say something else for each
channel; the induction is over the positions. -/
theorem exists_spatialSums {view : RowView α} {image channels : Nat}
    {holds : (channel position : Nat) → β → Prop} (first : ∀ channel, holds channel 0 zero)
    (rows : ∀ position < positions, ∃ part, view.row (image * positions + position) = .ok part ∧
      ∀ channel < channels, ∃ element, fetch part channel = .ok element ∧
        ∀ sum, holds channel position sum →
          ∃ next, add sum element = .ok next ∧ holds channel (position + 1) next) :
    ∃ totals, spatialSums view image positions channels zero add = .ok totals ∧
      ∀ channel < channels, ∃ total, fetch totals channel = .ok total ∧
        holds channel positions total := by
  obtain ⟨totals, ran, size, held⟩ := @exists_foldlM_range Breach (Array β) positions
    (fun totals position => do
      let row ← view.row (image * positions + position)
      collect channels fun channel => do
        let total ← fetch totals channel
        add total (← fetch row channel))
    (fun position totals => totals.size = channels ∧ ∀ channel < channels,
      ∃ total, fetch totals channel = .ok total ∧ holds channel position total)
    (Array.replicate channels zero)
    ⟨Array.size_replicate, fun channel inside =>
      ⟨zero, fetch_eq_ok_iff.mpr (by rw [Array.getElem?_replicate, if_pos inside]),
        first channel⟩⟩
    (by
      intro position within totals state
      obtain ⟨part, row, elements⟩ := rows position within
      -- the entry of a channel after this position
      have entry : ∀ channel < channels, ∃ next, (do
          let total ← fetch totals channel
          add total (← fetch part channel)) = .ok next ∧ holds channel (position + 1) next := by
        intro channel inside
        obtain ⟨total, found, held⟩ := state.2 channel inside
        obtain ⟨element, foundElement, adds⟩ := elements channel inside
        obtain ⟨next, added, heldNext⟩ := adds total held
        exact ⟨next, bind_eq_ok_iff.mpr ⟨total, found,
          bind_eq_ok_iff.mpr ⟨element, foundElement, added⟩⟩, heldNext⟩
      obtain ⟨nexts, ran⟩ := exists_collect fun channel inside =>
        (entry channel inside).imp fun _ parts => parts.1
      have computes := collect_eq_ok_iff.mp ran
      refine ⟨nexts, bind_eq_ok_iff.mpr ⟨part, row, ran⟩, computes.size_eq,
        fun channel inside => ?_⟩
      obtain ⟨next, found, computed⟩ := computes.exists_element inside
      obtain ⟨other, ranOther, held⟩ := entry channel inside
      rw [Nat.zero_add] at computed
      cases computed.symm.trans ranOther
      exact ⟨next, fetch_eq_ok_iff.mpr found, held⟩)
  exact ⟨totals, ran, held⟩

/-- Sums over the positions of an image that is there keep the invariant. -/
theorem SumsUp.exists_spatialSums (sums : SumsUp positions zero add result holds)
    {view : RowView α} {image channels : Nat}
    (rows : ∀ position < positions, ∃ part, view.row (image * positions + position) = .ok part ∧
      part.size = channels) :
    ∃ totals, spatialSums view image positions channels zero add = .ok totals ∧
      ∀ channel < channels, ∃ total, fetch totals channel = .ok total ∧ holds positions total := by
  refine TensorEngine.exists_spatialSums (fun _ => sums.zero) fun position within => ?_
  obtain ⟨part, row, partSize⟩ := rows position within
  refine ⟨part, row, fun channel inside => ?_⟩
  obtain ⟨element, found⟩ := exists_fetch_lt (Nat.lt_of_lt_of_eq inside partSize.symm)
  exact ⟨element, found, fun sum held => sums.add position within sum element held⟩

/-- Sums over the positions of an image that is there are, channel by channel, the sums of the
elements of that channel in the order of the positions. -/
theorem SumsUp.exists_channelSums (sums : SumsUp positions zero add result holds)
    {view : RowView α} {image channels : Nat} {element : (position channel : Nat) → α}
    (rows : ∀ position < positions, ∃ part, view.row (image * positions + position) = .ok part ∧
      ∀ channel < channels, fetch part channel = .ok (element position channel)) :
    ∃ totals, spatialSums view image positions channels zero add = .ok totals ∧
      ∀ channel < channels, ∃ total, fetch totals channel = .ok total ∧ holds positions total ∧
        (List.range positions).foldlM
          (fun sum position => add sum (element position channel)) zero = .ok total := by
  obtain ⟨totals, ran, held⟩ := @TensorEngine.exists_spatialSums _ _ zero add positions view image
    channels
    (fun channel position total => holds position total ∧
      (List.range position).foldlM (fun sum position => add sum (element position channel)) zero =
        .ok total)
    (fun _ => ⟨sums.zero, rfl⟩)
    (fun position within => by
      obtain ⟨part, row, elements⟩ := rows position within
      refine ⟨part, row, fun channel inside => ⟨_, elements channel inside, ?_⟩⟩
      rintro sum ⟨held, ran⟩
      obtain ⟨next, added, heldNext⟩ := sums.add position within sum (element position channel) held
      refine ⟨next, added, heldNext, ?_⟩
      rw [List.range_succ, List.foldlM_append, ran]
      show (add sum (element position channel) >>= fun after => List.foldlM _ after []) = _
      rw [added]
      rfl)
  exact ⟨totals, ran, held⟩

/-- Images are averaged when the sums and their result are total. -/
theorem SumsUp.delivers [Storage α] (sums : SumsUp positions zero add result holds)
    {prepare : Checked (β → Checked α)} (prepared : prepare = .ok result) (schedule : Schedule)
    {images channels : Nat} (tileElements : Nat) {inputs : List Buffer} {input output : Buffer}
    (first : inputs[0]? = some input)
    (lends : input.Lends aligned (Storage.width α) (images * positions * channels))
    (short : images * positions * channels < 2 ^ 64)
    (lendsOutput : output.Lends aligned (Storage.width α) (images * channels)) :
    (poolImages zero add prepare schedule images positions channels tileElements inputs
      output).UnlessMisaligned aligned := by
  unfold poolImages
  refine .known (operand_eq_ok_iff.mpr first) (lends.view.bind fun elements viewed => ?_)
  obtain ⟨view, made, rows⟩ :=
    RowView.exists_contiguous (lends.elements_size viewed) short
  refine .known (mapError_eq_ok_iff.mpr made) (lendsOutput.view.bind fun room viewedRoom => ?_)
  obtain ⟨canvas, taken, size⟩ := lendsOutput.front viewedRoom
  refine .known (lift_eq_ok_iff.mpr taken) ?_
  by_cases none : channels = 0
  · rw [if_pos none]
    exact .pure _
  · rw [if_neg none]
    have channels_pos := Nat.pos_of_ne_zero none
    obtain ⟨written, computes⟩ := @exists_computes _
      (pooledElement zero add result view positions channels) (images * channels)
      (fun index inside => by
        have image : index / channels < images := (Nat.div_lt_iff_lt_mul channels_pos).mpr inside
        obtain ⟨totals, ran, held⟩ := @SumsUp.exists_spatialSums _ _ _ _ _ _ _ sums view
          (index / channels) channels (fun position within => rows _ (by
            have bound := row_end_le positions image
            omega))
        obtain ⟨total, found, ofTotal⟩ := held _ (Nat.mod_lt index channels_pos)
        obtain ⟨value, valued⟩ := sums.result total ofTotal
        exact ⟨value, bind_eq_ok_iff.mpr ⟨totals, ran, bind_eq_ok_iff.mpr ⟨total, found, valued⟩⟩⟩)
    refine .known (lift_eq_ok_iff.mpr prepared) ?_
    exact .known (lift_eq_ok_iff.mpr ((runRows_eq_ok_iff channels_pos size).mpr computes)) (.pure _)

end Pool

/-! ## Multiplied elements -/

section Multiply

variable {α β ω : Type} {inner outputs : Nat} {weights : Array ω} {bias : Array β}

/-- Whole panels of weights give a product for every row of the input and every channel. -/
theorem exists_channelProduct (weightsSize : weights.size = panelCount outputs * inner * panelWidth)
    (biasSize : bias.size = panelCount outputs * panelWidth) (step : β → α → ω → β)
    {row : Array α} (rowSize : row.size = inner) {output : Nat} (inside : output < outputs) :
    ∃ product, channelProduct inner weights bias step row output = .ok product := by
  have lane : output % panelWidth < panelWidth := Nat.mod_lt _ (by decide)
  have panel : output / panelWidth + 1 ≤ panelCount outputs := by
    unfold panelCount panelWidth
    omega
  have biasEnd : (output / panelWidth + 1) * panelWidth ≤ bias.size := by
    rw [biasSize]
    exact Nat.mul_le_mul_right _ panel
  have weightsEnd : (output / panelWidth + 1) * inner * panelWidth ≤ weights.size := by
    rw [weightsSize]
    exact Nat.mul_le_mul_right _ (Nat.mul_le_mul_right _ panel)
  have width : (output / panelWidth + 1) * panelWidth = output / panelWidth * panelWidth +
      panelWidth := Nat.succ_mul _ _
  have length : (output / panelWidth + 1) * inner * panelWidth =
      output / panelWidth * inner * panelWidth + inner * panelWidth := by
    rw [Nat.succ_mul, Nat.add_mul]
  obtain ⟨start, foundStart⟩ := @exists_fetch_lt _ (bias.extract (output / panelWidth * panelWidth)
    ((output / panelWidth + 1) * panelWidth)) (output % panelWidth) (by
      rw [Array.size_extract]
      omega)
  obtain ⟨sum, ran, _⟩ := @exists_foldlM_range Breach β inner
    (fun sum input => do
      let element ← fetch row input
      let weight ← fetch (weights.extract (output / panelWidth * inner * panelWidth)
        ((output / panelWidth + 1) * inner * panelWidth)) (input * panelWidth + output % panelWidth)
      return step sum element weight)
    (fun _ _ => True) start trivial
    (by
      intro input within sum _
      obtain ⟨element, found⟩ := exists_fetch_lt (Nat.lt_of_lt_of_eq within rowSize.symm)
      obtain ⟨weight, foundWeight⟩ := @exists_fetch_lt _
        (weights.extract (output / panelWidth * inner * panelWidth)
          ((output / panelWidth + 1) * inner * panelWidth))
        (input * panelWidth + output % panelWidth) (by
          have bound := row_end_le panelWidth within
          rw [Array.size_extract]
          omega)
      exact ⟨_, bind_eq_ok_iff.mpr ⟨element, found,
        bind_eq_ok_iff.mpr ⟨weight, foundWeight, rfl⟩⟩, trivial⟩)
  refine ⟨sum, ?_⟩
  unfold channelProduct
  exact bind_eq_ok_iff.mpr ⟨_, slice_eq_ok_iff.mpr ⟨by omega, biasEnd, rfl⟩,
    bind_eq_ok_iff.mpr ⟨_, slice_eq_ok_iff.mpr ⟨by omega, weightsEnd, rfl⟩,
      bind_eq_ok_iff.mpr ⟨start, foundStart, ran⟩⟩⟩

theorem multiplyRows_delivers [Storage α] {packed : PackedWeights}
    (weightsSize : weights.size = packed.panels * packed.inner * panelWidth)
    (biasSize : bias.size = packed.panels * panelWidth) (step : β → α → ω → β)
    {result : β → Checked α} (total : ∀ sum, ∃ value, result sum = .ok value)
    (schedule : Schedule) {rows : Nat} (tileElements : Nat) {inputs : List Buffer}
    {input output : Buffer} (first : inputs[0]? = some input)
    (lends : input.Lends aligned (Storage.width α) (rows * packed.inner))
    (short : rows * packed.inner < 2 ^ 64)
    (lendsOutput : output.Lends aligned (Storage.width α) (rows * packed.outputs)) :
    (multiplyRows packed weights bias step result schedule rows tileElements inputs
      output).UnlessMisaligned aligned := by
  unfold multiplyRows
  refine .known (operand_eq_ok_iff.mpr first) (lends.view.bind fun elements viewed => ?_)
  obtain ⟨view, made, viewRows⟩ :=
    RowView.exists_contiguous (lends.elements_size viewed) short
  refine .known (mapError_eq_ok_iff.mpr made) (lendsOutput.view.bind fun room viewedRoom => ?_)
  obtain ⟨canvas, taken, size⟩ := lendsOutput.front viewedRoom
  refine .known (lift_eq_ok_iff.mpr taken) ?_
  by_cases none : packed.outputs = 0
  · rw [if_pos none]
    exact .pure _
  · rw [if_neg none]
    have outputs_pos := Nat.pos_of_ne_zero none
    obtain ⟨written, computes⟩ := @exists_computes _
      (productElement packed weights bias step result view) (rows * packed.outputs)
      (fun index inside => by
        obtain ⟨row, ran, rowSize⟩ :=
          viewRows _ ((Nat.div_lt_iff_lt_mul outputs_pos).mpr inside)
        obtain ⟨sum, multiplied⟩ := exists_channelProduct weightsSize biasSize step rowSize
          (Nat.mod_lt index outputs_pos)
        obtain ⟨value, valued⟩ := total sum
        exact ⟨value, bind_eq_ok_iff.mpr ⟨row, ran,
          bind_eq_ok_iff.mpr ⟨sum, multiplied, valued⟩⟩⟩)
    exact .known (lift_eq_ok_iff.mpr ((runRows_eq_ok_iff outputs_pos size).mpr computes)) (.pure _)

end Multiply

end Loops

end TensorEngine
