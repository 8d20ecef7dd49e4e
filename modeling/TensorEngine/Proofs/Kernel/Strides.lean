import TensorEngine.Proofs.Kernel.Contents
import TensorEngine.Proofs.Tensor.Broadcast

/-!
Contract: the offsets at which a combination reads its inputs lie inside them.

Owns:
- the bound on the offset of any index, by induction over the dimensions;
- `BroadcastPlan.Inside`, a plan all of whose reads are inside its inputs, and the theorem that
  every plan is.

Does not own: what is computed from the elements.
-/

namespace TensorEngine

namespace Shape

theorem elementCount_cons_pos {extent : Nat} {inner : Shape} :
    0 < elementCount (extent :: inner) ↔ 0 < extent ∧ 0 < inner.elementCount := by
  simp only [elementCount, Nat.pos_iff_ne_zero, ne_eq, Nat.mul_eq_zero, not_or]

/-- Saturation makes no stride longer. -/
theorem saturatedCount_le (shape : Shape) : shape.saturatedCount ≤ shape.elementCount := by
  induction shape with
  | nil => exact Nat.le_refl 1
  | cons extent inner inductionHypothesis =>
      exact Nat.le_trans (Nat.min_le_left _ _) (Nat.mul_le_mul_left extent inductionHypothesis)

/-- The strides of a shape, zero along its stretched dimensions. -/
def stretchedStrides (shape : Shape) : List Nat :=
  List.zipWith (fun extent stride => if extent = 1 then 0 else stride) shape shape.strides

theorem stretchedStrides_cons (extent : Nat) (inner : Shape) :
    stretchedStrides (extent :: inner) =
      (if extent = 1 then 0 else inner.saturatedCount) :: inner.stretchedStrides := rfl

theorem stretchedStrides_length (shape : Shape) : shape.stretchedStrides.length = shape.length := by
  unfold stretchedStrides
  rw [List.length_zipWith, strides_length, Nat.min_self]

/-- Strides within a larger rank are padded for the outer dimensions. -/
theorem Stretches.stridesWithin_eq {outer core shape : Shape} (stretches : shape.Stretches core) :
    shape.stridesWithin (outer ++ core).length =
      List.replicate outer.length 0 ++ shape.stretchedStrides := by
  have padding : (outer ++ core).length - shape.length = outer.length := by
    rw [List.length_append, stretches.length_eq, Nat.add_sub_cancel]
  unfold stridesWithin
  rw [padding]
  rfl

end Shape

namespace InputWalk

open Shape

/-- The digit of an outermost dimension adds to the offset of the inner dimensions. -/
theorem offsetInner_concat {pairs : List (Nat × Nat)} {index offset : Nat}
    (ran : offsetInner pairs index = .ok offset) {extent : Nat} (positive : 0 < extent)
    (stride : Nat) :
    ∃ digit < extent,
      offsetInner (pairs ++ [(extent, stride)]) index = .ok (offset + digit * stride) := by
  induction pairs generalizing index offset with
  | nil =>
      cases ran
      refine ⟨index % extent, Nat.mod_lt _ positive, ?_⟩
      show offsetInner [(extent, stride)] index = _
      unfold offsetInner
      rw [if_neg (Nat.ne_of_gt positive), Nat.zero_add]
      rfl
  | cons pair pairs inductionHypothesis =>
      obtain ⟨width, step⟩ := pair
      unfold offsetInner at ran
      split at ran
      · cases ran
      · rename_i some
        obtain ⟨rest, ranRest, total⟩ := bind_eq_ok_iff.mp ran
        cases total
        obtain ⟨digit, short, ranAll⟩ := inductionHypothesis ranRest
        refine ⟨digit, short, ?_⟩
        show offsetInner ((width, step) :: (pairs ++ [(extent, stride)])) index = _
        unfold offsetInner
        rw [if_neg some, ranAll, Nat.add_assoc]
        rfl

/-- Every index has an offset inside the input, whose dimensions stretch to those of the output.
The induction is over the dimensions from the outermost inwards, as the strides are computed. -/
theorem exists_offset {shape output : Shape} (stretches : shape.Stretches output)
    (positive : 0 < output.elementCount) (index : Nat) :
    ∃ offset, offsetInner (output.zip shape.stretchedStrides).reverse index = .ok offset ∧
      offset < shape.elementCount := by
  induction stretches with
  | nil => exact ⟨0, rfl, Nat.one_pos⟩
  | @cons extent wide inner outputInner fits _ inductionHypothesis =>
      obtain ⟨wide_pos, inner_pos⟩ := elementCount_cons_pos.mp positive
      obtain ⟨rest, ran, bounded⟩ := inductionHypothesis inner_pos
      obtain ⟨digit, short, ranAll⟩ := offsetInner_concat ran wide_pos
        (if extent = 1 then 0 else saturatedCount inner)
      refine ⟨_, by rw [stretchedStrides_cons, List.zip_cons_cons, List.reverse_cons, ranAll], ?_⟩
      show _ < extent * elementCount inner
      split
      · rename_i one
        rw [one, Nat.one_mul, Nat.mul_zero, Nat.add_zero]
        exact bounded
      · rename_i notOne
        obtain rfl := fits.resolve_right notOne
        calc rest + digit * saturatedCount inner
            < elementCount inner + digit * elementCount inner :=
              Nat.add_lt_add_of_lt_of_le bounded (Nat.mul_le_mul_left _ (saturatedCount_le inner))
          _ = (digit + 1) * elementCount inner := by rw [Nat.succ_mul, Nat.add_comm]
          _ ≤ extent * elementCount inner := Nat.mul_le_mul_right _ short

/-- Missing outer dimensions do not move the offset. -/
theorem exists_offset_padded {outer shape core : Shape} (stretches : shape.Stretches core)
    (positive : 0 < (outer ++ core).elementCount) (index : Nat) :
    ∃ offset, offsetInner ((outer ++ core).zip
        (List.replicate outer.length 0 ++ shape.stretchedStrides)).reverse index = .ok offset ∧
      offset < shape.elementCount := by
  induction outer with
  | nil => exact exists_offset stretches positive index
  | cons extent outer inductionHypothesis =>
      obtain ⟨extent_pos, inner_pos⟩ := elementCount_cons_pos.mp positive
      obtain ⟨offset, ran, bounded⟩ := inductionHypothesis inner_pos
      obtain ⟨digit, _, ranAll⟩ := offsetInner_concat ran extent_pos 0
      refine ⟨offset, ?_, bounded⟩
      rw [List.length_cons, List.replicate_succ, List.cons_append, List.cons_append,
        List.zip_cons_cons, List.reverse_cons, ranAll, Nat.mul_zero, Nat.add_zero]

/-- The innermost dimension is read as columns: the offset of an index is that of its row and the
way to its column. -/
theorem rowOffset_of_offsetInner {output : Shape} {steps : List Nat}
    (sameLength : steps.length = output.length) {row column total : Nat}
    (inside : column < output.channels)
    (ran : offsetInner (output.zip steps).reverse (row * output.channels + column) = .ok total) :
    ∃ offset, offsetInner ((output.take (output.length - 1)).zip
        (steps.take (output.length - 1))).reverse row = .ok offset ∧
      offset + column * steps.getLast?.getD 0 = total := by
  rcases List.eq_nil_or_concat output with rfl | ⟨front, columns, rfl⟩
  · obtain rfl := List.eq_nil_of_length_eq_zero sameLength
    cases ran
    exact ⟨0, rfl, by rw [List.getLast?_nil, Option.getD_none, Nat.mul_zero]⟩
  · rcases List.eq_nil_or_concat steps with rfl | ⟨frontSteps, step, rfl⟩
    · simp at sameLength
    · rw [List.concat_eq_append, List.concat_eq_append, List.length_append, List.length_append,
        List.length_singleton, List.length_singleton, Nat.add_right_cancel_iff] at sameLength
      unfold channels at ran inside
      rw [List.concat_eq_append, List.getLast?_concat, Option.getD_some] at ran inside
      rw [List.concat_eq_append, List.zip_append sameLength.symm, List.reverse_append] at ran
      change offsetInner ((columns, step) :: (front.zip frontSteps).reverse) _ = _ at ran
      unfold offsetInner at ran
      rw [if_neg (by omega)] at ran
      obtain ⟨rest, ranRest, whole⟩ := bind_eq_ok_iff.mp ran
      cases whole
      rw [Nat.mul_comm row, Nat.mul_add_div (by omega), Nat.div_eq_of_lt inside,
        Nat.add_zero] at ranRest
      refine ⟨rest, ?_, ?_⟩
      · simp only [List.concat_eq_append, List.length_append, List.length_singleton,
          Nat.add_sub_cancel, List.take_left]
        rw [← sameLength, List.take_left]
        exact ranRest
      · rw [List.concat_eq_append, List.getLast?_concat, Option.getD_some, Nat.mul_comm row,
          Nat.mul_add_mod, Nat.mod_eq_of_lt inside, Nat.add_comm]

/-- As many strides as dimensions, for an input that stretches. -/
theorem length_paddedStrides {outer core shape : Shape} (stretches : shape.Stretches core) :
    (List.replicate outer.length 0 ++ shape.stretchedStrides).length = (outer ++ core).length := by
  rw [List.length_append, List.length_replicate, stretchedStrides_length, stretches.length_eq,
    List.length_append]

/-- A column of a row of an output is read inside an input that stretches to the output. -/
theorem exists_rowOffset_at {outer core shape : Shape} (stretches : shape.Stretches core)
    (positive : 0 < (outer ++ core).elementCount) (row : Nat) {column : Nat}
    (inside : column < (outer ++ core).channels) :
    let walk := InputWalk.make shape (outer ++ core).length
    ∃ offset, walk.rowOffset ((outer ++ core).take ((outer ++ core).length - 1)) row = .ok offset ∧
      offset + column * walk.columnStride < shape.elementCount := by
  unfold rowOffset InputWalk.make
  dsimp only
  rw [stretches.stridesWithin_eq]
  obtain ⟨total, ran, bounded⟩ := exists_offset_padded stretches positive
    (row * (outer ++ core).channels + column)
  obtain ⟨offset, ranRow, rfl⟩ :=
    rowOffset_of_offsetInner (length_paddedStrides stretches) inside ran
  exact ⟨offset, ranRow, bounded⟩

/-- The walk over an input that stretches to the output stays inside the input. -/
theorem exists_rowOffset {shape output : Shape}
    (stretches : ∃ outer core, output = outer ++ core ∧ shape.Stretches core)
    (positive : 0 < output.elementCount) (row : Nat) :
    let walk := InputWalk.make shape output.length
    ∃ offset, walk.rowOffset (output.take (output.length - 1)) row = .ok offset ∧
      ∀ column < output.channels, offset + column * walk.columnStride < walk.count := by
  intro walk
  obtain ⟨outer, core, rfl, fits⟩ := stretches
  have channels : 0 < (outer ++ core).channels := by
    rw [← batch_mul_channels] at positive
    exact Nat.pos_of_mul_pos_left positive
  obtain ⟨offset, ran, _⟩ := exists_rowOffset_at fits positive row channels
  refine ⟨offset, ran, fun column inside => ?_⟩
  obtain ⟨other, ranOther, bounded⟩ := exists_rowOffset_at fits positive row inside
  cases ran.symm.trans ranOther
  exact bounded

end InputWalk

namespace BroadcastPlan

/-- A plan by which every element of the output is computed from elements of both inputs. -/
structure Inside (plan : BroadcastPlan) : Prop where
  flat : plan.isFlat = true → plan.count = plan.left.count ∧ plan.count = plan.right.count
  rows : 0 < plan.count → ∀ row : Nat,
    ∃ leftOffset rightOffset, rowOffsets plan row = .ok (leftOffset, rightOffset) ∧
      ∀ column < plan.columns, leftOffset + column * plan.left.columnStride < plan.left.count ∧
        rightOffset + column * plan.right.columnStride < plan.right.count

/-- Every plan reads inside its inputs, whose sizes are those of their shapes. -/
theorem inside_of_make {left right output : Shape} {plan : BroadcastPlan}
    (made : make left right output = .ok plan) :
    plan.Inside ∧ plan.left.count = left.elementCount ∧ plan.right.count = right.elementCount := by
  have whole := count_of_make made
  unfold make at made
  split at made
  · cases made
  · rename_i expected joined
    split at made
    · cases made
    · rename_i same
      obtain rfl := not_not.mp same
      cases made
      refine ⟨⟨fun flat => ?_, fun positive row => ?_⟩, rfl, rfl⟩
      · simp only [Bool.and_eq_true, beq_iff_eq] at flat
        exact ⟨whole.trans (congrArg Shape.elementCount flat.1.symm),
          whole.trans (congrArg Shape.elementCount flat.2.symm)⟩
      · obtain ⟨stretches, stretchesRight⟩ := Shape.broadcast?_stretches joined
        have size : 0 < expected.elementCount := by
          rw [← whole]
          exact positive
        obtain ⟨leftOffset, ran, inside⟩ := InputWalk.exists_rowOffset stretches size row
        obtain ⟨rightOffset, ranRight, insideRight⟩ :=
          InputWalk.exists_rowOffset stretchesRight size row
        refine ⟨leftOffset, rightOffset, ?_, fun column within =>
          ⟨inside column within, insideRight column within⟩⟩
        exact bind_eq_ok_iff.mpr ⟨leftOffset, ran,
          bind_eq_ok_iff.mpr ⟨rightOffset, ranRight, rfl⟩⟩

end BroadcastPlan

end TensorEngine
