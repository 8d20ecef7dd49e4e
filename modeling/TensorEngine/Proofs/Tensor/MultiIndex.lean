import Mathlib.Data.List.Forall2
import TensorEngine.Tensor.Shape

/-!
Contract: multi-indices of shapes and their positions in row-major order.

Owns:
- the theorems that the places of rows number their columns without gaps;
- `Shape.IsIndex`, one coordinate below each extent, and `Shape.position`, the place of its element;
- the theorems that positions number the multi-indices of a shape without gaps;
- `Shape.indexWithin`, the multi-index at which an operand is read that stretches to a shape.

Does not own: how a kernel finds the element.
-/

namespace TensorEngine

/-! ## Rows and columns -/

section Rows

variable {rows columns row column : Nat}

/-- A row ends inside the places of all rows. -/
theorem row_end_le (columns : Nat) (rowInside : row < rows) :
    row * columns + columns ≤ rows * columns := by
  rw [← Nat.succ_mul]
  exact Nat.mul_le_mul_right columns rowInside

/-- A column of a row lies inside the places of all rows. -/
theorem row_column_lt (rowInside : row < rows) (inside : column < columns) :
    row * columns + column < rows * columns :=
  Nat.lt_of_lt_of_le (Nat.add_lt_add_left inside _) (row_end_le columns rowInside)

theorem exists_row_column {place : Nat} (inside : place < rows * columns) :
    ∃ row < rows, ∃ column < columns, row * columns + column = place := by
  have some : 0 < columns := Nat.pos_of_mul_pos_left (Nat.zero_lt_of_lt inside)
  exact ⟨_, (Nat.div_lt_iff_lt_mul some).mpr inside, _, Nat.mod_lt place some,
    Nat.div_add_mod' place columns⟩

/-- Places of rows are different for different rows and columns. -/
theorem row_column_injective {other another : Nat} (inside : column < columns)
    (insideOther : another < columns) (same : row * columns + column = other * columns + another) :
    row = other ∧ column = another := by
  have positive : 0 < columns := Nat.zero_lt_of_lt inside
  have rows := congrArg (· / columns) same
  have rest := congrArg (· % columns) same
  simp only [Nat.mul_comm _ columns, Nat.mul_add_div positive, Nat.mul_add_mod,
    Nat.div_eq_of_lt inside, Nat.div_eq_of_lt insideOther, Nat.mod_eq_of_lt inside,
    Nat.mod_eq_of_lt insideOther, Nat.add_zero] at rows rest
  exact ⟨rows, rest⟩

end Rows

namespace Shape

/-- A multi-index of a shape: one coordinate below each extent, outermost first. -/
def IsIndex (shape : Shape) (index : List Nat) : Prop :=
  List.Forall₂ (· < ·) index shape

instance (shape : Shape) (index : List Nat) : Decidable (shape.IsIndex index) :=
  inferInstanceAs (Decidable (List.Forall₂ _ _ _))

/-- The position of a multi-index in row-major order. -/
def position : Shape → List Nat → Nat
  | _ :: inner, coordinate :: index => coordinate * elementCount inner + position inner index
  | _, _ => 0

/-- The multi-index of an operand that stretches: dimensions that the operand lacks are dropped, and
along its dimensions of one every coordinate becomes zero. -/
def indexWithin (shape : Shape) (index : List Nat) : List Nat :=
  List.zipWith (fun extent coordinate => if extent = 1 then 0 else coordinate) shape
    (index.drop (index.length - shape.length))

variable {shape : Shape} {index other : List Nat}

/-! ## Positions -/

/-- Positions lie inside the elements. -/
theorem IsIndex.position_lt (valid : shape.IsIndex index) :
    shape.position index < shape.elementCount := by
  induction valid with
  | nil => exact Nat.one_pos
  | cons below _ inductionHypothesis => exact row_column_lt below inductionHypothesis

/-- Different multi-indices have different positions. -/
theorem IsIndex.position_injective (valid : shape.IsIndex index) (validOther : shape.IsIndex other)
    (same : shape.position index = shape.position other) : index = other := by
  induction valid generalizing other with
  | nil =>
      cases validOther
      rfl
  | cons _ rest inductionHypothesis =>
      cases validOther with
      | cons _ restOther =>
          have bound := IsIndex.position_lt rest
          have boundOther := IsIndex.position_lt restOther
          obtain ⟨digits, rests⟩ := row_column_injective bound boundOther same
          rw [digits, inductionHypothesis restOther rests]

/-- Every place of a tensor is the position of a multi-index. -/
theorem exists_isIndex {place : Nat} (inside : place < shape.elementCount) :
    ∃ index, shape.IsIndex index ∧ shape.position index = place := by
  induction shape generalizing place with
  | nil =>
      obtain rfl : place = 0 := Nat.lt_one_iff.mp inside
      exact ⟨[], .nil, rfl⟩
  | cons extent inner inductionHypothesis =>
      obtain ⟨coordinate, below, rest, restInside, rfl⟩ := exists_row_column inside
      obtain ⟨index, valid, rfl⟩ := inductionHypothesis restInside
      exact ⟨coordinate :: index, .cons below valid, rfl⟩

/-! ## Indices of operands -/

theorem indexWithin_cons {extent coordinate : Nat} {inner : Shape}
    (sameLength : index.length = inner.length) :
    indexWithin (extent :: inner) (coordinate :: index) =
      (if extent = 1 then 0 else coordinate) :: indexWithin inner index := by
  unfold indexWithin
  rw [List.length_cons, List.length_cons, sameLength, Nat.sub_self, Nat.sub_self, List.drop_zero,
    List.drop_zero, List.zipWith_cons_cons]

/-- The coordinate of a dimension that an operand lacks is dropped. -/
theorem indexWithin_of_length_le {coordinate : Nat} (outside : shape.length ≤ index.length) :
    shape.indexWithin (coordinate :: index) = shape.indexWithin index := by
  unfold indexWithin
  rw [List.length_cons, Nat.succ_sub outside, List.drop_succ_cons]

/-- An operand of the same shape is read at the same index. -/
theorem IsIndex.indexWithin_self (valid : shape.IsIndex index) :
    shape.indexWithin index = index := by
  induction valid with
  | nil => rfl
  | @cons coordinate extent index inner below rest inductionHypothesis =>
      rw [indexWithin_cons rest.length_eq, inductionHypothesis]
      split
      · rw [show coordinate = 0 by omega]
      · rfl

end Shape

end TensorEngine
