import TensorEngine.Proofs.Kernel.Delivery
import TensorEngine.Proofs.Tensor.MultiIndex

/-!
Contract: combinations read their inputs at the multi-indices that broadcasting defines.

Owns:
- the exact offset of the position of a multi-index, by induction over the dimensions;
- `BroadcastPlan.Follows`, a plan whose rows and whose flat traversal read both inputs there, and
  the theorem that every plan does;
- the element of a combined output at the position of a multi-index.

Does not own: the order in which elements are written.
-/

namespace TensorEngine

namespace Shape

/-- Strides are exact as long as the elements can be counted in a word. -/
theorem saturatedCount_eq {shape : Shape} (positive : 0 < shape.elementCount)
    (short : shape.elementCount < 2 ^ 64) : shape.saturatedCount = shape.elementCount := by
  induction shape with
  | nil => rfl
  | cons extent inner inductionHypothesis =>
      obtain ⟨extent_pos, inner_pos⟩ := elementCount_cons_pos.mp positive
      change extent * elementCount inner < 2 ^ 64 at short
      have exact := inductionHypothesis inner_pos
        (Nat.lt_of_le_of_lt (Nat.le_mul_of_pos_left _ extent_pos) short)
      show min (extent * saturatedCount inner) maxStride = extent * elementCount inner
      rw [exact]
      unfold maxStride
      omega

theorem elementCount_reverse (shape : Shape) : elementCount shape.reverse = shape.elementCount := by
  induction shape with
  | nil => rfl
  | cons extent inner inductionHypothesis =>
      rw [List.reverse_cons, elementCount_append, inductionHypothesis, Nat.mul_comm]
      show extent * 1 * elementCount inner = extent * elementCount inner
      rw [Nat.mul_one]

theorem Stretches.elementCount_pos {shape output : Shape} (stretches : shape.Stretches output)
    (positive : 0 < output.elementCount) : 0 < shape.elementCount := by
  obtain ⟨_, _, bounded⟩ := InputWalk.exists_offset stretches positive 0
  exact Nat.zero_lt_of_lt bounded

end Shape

namespace InputWalk

open Shape

/-- A leading digit adds its stride to the offset of the remaining digits. -/
theorem offsetInner_digit {pairs : List (Nat × Nat)} {rest offset : Nat}
    (ran : offsetInner pairs rest = .ok offset)
    (below : rest < elementCount (pairs.map Prod.fst)) {digit extent : Nat}
    (short : digit < extent) (stride : Nat) :
    offsetInner (pairs ++ [(extent, stride)])
      (digit * elementCount (pairs.map Prod.fst) + rest) = .ok (offset + digit * stride) := by
  induction pairs generalizing rest offset with
  | nil =>
      obtain rfl : rest = 0 := Nat.lt_one_iff.mp below
      cases ran
      show offsetInner [(extent, stride)] (digit * 1 + 0) = _
      unfold offsetInner
      rw [if_neg (by omega), Nat.mul_one, Nat.add_zero, Nat.mod_eq_of_lt short, Nat.zero_add]
      rfl
  | cons pair pairs inductionHypothesis =>
      obtain ⟨width, step⟩ := pair
      change rest < width * elementCount (pairs.map Prod.fst) at below
      unfold offsetInner at ran
      split at ran
      · cases ran
      · rename_i some
        obtain ⟨inner, ranInner, total⟩ := bind_eq_ok_iff.mp ran
        cases total
        have split : digit * (width * elementCount (pairs.map Prod.fst)) + rest =
            width * (digit * elementCount (pairs.map Prod.fst)) + rest := by rw [Nat.mul_left_comm]
        have outer := inductionHypothesis ranInner (Nat.div_lt_of_lt_mul below)
        show offsetInner ((width, step) :: (pairs ++ [(extent, stride)]))
          (digit * (width * elementCount (pairs.map Prod.fst)) + rest) = _
        unfold offsetInner
        rw [if_neg some, split, Nat.mul_add_div (Nat.pos_of_ne_zero some), outer, Nat.mul_add_mod,
          Nat.add_assoc]
        rfl

/-- A leading coordinate of an output adds its stride to the offset of the inner dimensions. -/
theorem offsetInner_cons {output : Shape} {steps : List Nat}
    (sameLength : steps.length = output.length) {index : List Nat} (valid : output.IsIndex index)
    {offset : Nat}
    (ran : offsetInner (output.zip steps).reverse (output.position index) = .ok offset)
    {coordinate extent : Nat} (below : coordinate < extent) (stride : Nat) :
    offsetInner (List.zip (extent :: output) (stride :: steps)).reverse
      (position (extent :: output) (coordinate :: index)) = .ok (offset + coordinate * stride) := by
  have extents : elementCount ((output.zip steps).reverse.map Prod.fst) = output.elementCount := by
    rw [List.map_reverse, List.map_fst_zip (Nat.le_of_eq sameLength.symm), elementCount_reverse]
  have outer := offsetInner_digit ran (by rw [extents]; exact valid.position_lt) below stride
  rw [extents] at outer
  rw [List.zip_cons_cons, List.reverse_cons]
  exact outer

/-- The offset of the position of a multi-index is the position at which the operand is read. The
induction is over the dimensions from the outermost inwards. -/
theorem offsetInner_position {shape output : Shape} (stretches : shape.Stretches output)
    (short : shape.elementCount < 2 ^ 64) {index : List Nat} (valid : output.IsIndex index) :
    offsetInner (output.zip shape.stretchedStrides).reverse (output.position index) =
      .ok (shape.position (shape.indexWithin index)) := by
  induction stretches generalizing index with
  | nil =>
      cases valid
      rfl
  | @cons extent wide inner outputInner fits innerStretches inductionHypothesis =>
      cases valid with
      | @cons coordinate _ index _ below rest =>
          have innerPositive := Stretches.elementCount_pos innerStretches
            (Nat.zero_lt_of_lt (IsIndex.position_lt rest))
          have positive : 0 < extent := by omega
          have innerShort : elementCount inner < 2 ^ 64 :=
            Nat.lt_of_le_of_lt (Nat.le_mul_of_pos_left _ positive) short
          have exact := saturatedCount_eq innerPositive innerShort
          have whole := offsetInner_cons
            ((stretchedStrides_length inner).trans innerStretches.length_eq) rest
            (inductionHypothesis innerShort rest) below
            (if extent = 1 then 0 else saturatedCount inner)
          rw [stretchedStrides_cons, whole,
            indexWithin_cons (rest.length_eq.trans innerStretches.length_eq.symm)]
          show Except.ok (_ + coordinate * _) = Except.ok (_ * elementCount inner + _)
          rw [exact, Nat.add_comm]
          split
          · rw [Nat.mul_zero, Nat.zero_mul]
          · rfl

/-- Coordinates of missing outer dimensions do not move the offset. -/
theorem offsetInner_position_padded {outer core shape : Shape} (stretches : shape.Stretches core)
    (short : shape.elementCount < 2 ^ 64) {index : List Nat}
    (valid : (outer ++ core).IsIndex index) :
    offsetInner ((outer ++ core).zip
        (List.replicate outer.length 0 ++ shape.stretchedStrides)).reverse
      ((outer ++ core).position index) = .ok (shape.position (shape.indexWithin index)) := by
  induction outer generalizing index with
  | nil => exact offsetInner_position stretches short valid
  | cons extent outer inductionHypothesis =>
      cases valid with
      | @cons coordinate _ index _ below rest =>
          have whole := offsetInner_cons (length_paddedStrides stretches) rest
            (inductionHypothesis rest) below 0
          have outside : shape.length ≤ index.length := by
            rw [stretches.length_eq, rest.length_eq]
            exact Nat.le_trans (Nat.le_add_left _ _) (Nat.le_of_eq List.length_append.symm)
          rw [indexWithin_of_length_le outside]
          exact whole

/-- The row and the column of the position of a multi-index lead to the position at which the
operand is read. -/
theorem rowOffset_position {shape output : Shape}
    (stretches : ∃ outer core, output = outer ++ core ∧ shape.Stretches core)
    (short : shape.elementCount < 2 ^ 64) {index : List Nat} (valid : output.IsIndex index) :
    let walk := InputWalk.make shape output.length
    ∃ offset, walk.rowOffset (output.take (output.length - 1))
        (output.position index / output.channels) = .ok offset ∧
      offset + output.position index % output.channels * walk.columnStride =
        shape.position (shape.indexWithin index) := by
  obtain ⟨outer, core, rfl, fits⟩ := stretches
  have channels : 0 < (outer ++ core).channels := by
    have positive := Nat.zero_lt_of_lt valid.position_lt
    rw [← batch_mul_channels] at positive
    exact Nat.pos_of_mul_pos_left positive
  unfold rowOffset InputWalk.make
  dsimp only
  rw [fits.stridesWithin_eq]
  have whole := offsetInner_position_padded fits short valid
  rw [← Nat.div_add_mod' ((outer ++ core).position index) (outer ++ core).channels] at whole
  exact rowOffset_of_offsetInner (length_paddedStrides fits) (Nat.mod_lt _ channels) whole

end InputWalk

namespace BroadcastPlan

variable {plan : BroadcastPlan} {left right output : Shape}

/-- A plan that reads both inputs at the multi-indices of the output, whether in rows or flat. -/
structure Follows (plan : BroadcastPlan) (left right output : Shape) : Prop where
  count_eq : plan.count = output.elementCount
  rows : ∀ index, output.IsIndex index → ∃ leftOffset rightOffset,
    rowOffsets plan (output.position index / plan.columns) = .ok (leftOffset, rightOffset) ∧
      leftOffset + output.position index % plan.columns * plan.left.columnStride =
        left.position (left.indexWithin index) ∧
      rightOffset + output.position index % plan.columns * plan.right.columnStride =
        right.position (right.indexWithin index)
  flat : plan.isFlat = true → ∀ index, output.IsIndex index →
    left.position (left.indexWithin index) = output.position index ∧
      right.position (right.indexWithin index) = output.position index

/-- Every plan follows the definition of broadcasting. -/
theorem follows_of_make (made : make left right output = .ok plan)
    (short : left.elementCount < 2 ^ 64) (shortRight : right.elementCount < 2 ^ 64) :
    plan.Follows left right output := by
  have whole := count_of_make made
  unfold make at made
  split at made
  · cases made
  · rename_i expected joined
    split at made
    · cases made
    · rename_i same
      obtain rfl := not_not.mp same
      cases made
      obtain ⟨stretches, stretchesRight⟩ := Shape.broadcast?_stretches joined
      refine ⟨whole, fun index valid => ?_, fun flat index valid => ?_⟩
      · obtain ⟨leftOffset, ran, reads⟩ := InputWalk.rowOffset_position stretches short valid
        obtain ⟨rightOffset, ranRight, readsRight⟩ :=
          InputWalk.rowOffset_position stretchesRight shortRight valid
        refine ⟨leftOffset, rightOffset, ?_, reads, readsRight⟩
        exact bind_eq_ok_iff.mpr ⟨leftOffset, ran,
          bind_eq_ok_iff.mpr ⟨rightOffset, ranRight, rfl⟩⟩
      · simp only [Bool.and_eq_true, beq_iff_eq] at flat
        rw [flat.1, flat.2, valid.indexWithin_self]
        exact ⟨rfl, rfl⟩

/-- The element at the position of a multi-index comes of the elements at the multi-indices of both
inputs. -/
theorem Follows.combinedElement_position {α : Type} (follows : plan.Follows left right output)
    (function : α → α → Checked α) (lefts rights : Array α) {index : List Nat}
    (valid : output.IsIndex index) :
    combinedElement function plan lefts rights (output.position index) = (do
      let x ← fetch lefts (left.position (left.indexWithin index))
      let y ← fetch rights (right.position (right.indexWithin index))
      function x y) := by
  unfold combinedElement
  split
  · rename_i flat
    obtain ⟨sameLeft, sameRight⟩ := follows.flat flat index valid
    rw [sameLeft, sameRight]
    rfl
  · obtain ⟨leftOffset, rightOffset, ran, reads, readsRight⟩ := follows.rows index valid
    unfold rowElement combinedEntry
    rw [ran]
    show (do
      let x ← fetch lefts (leftOffset + _)
      let y ← fetch rights (rightOffset + _)
      function x y) = _
    rw [reads, readsRight]

end BroadcastPlan

end TensorEngine
