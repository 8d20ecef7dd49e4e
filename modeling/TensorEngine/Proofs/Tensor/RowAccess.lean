import TensorEngine.Proofs.Checked
import TensorEngine.Tensor.RowView

/-!
Contract: the extent that is checked when rows are made covers the access to every row.

Owns:
- `RowView.checkExtent_eq_ok_iff` and `RowView.make_eq_ok_iff`, what an accepted extent says;
- `RowView.Reaches`, a row whose range lies inside its array and below `2 ^ 64`, so that reading it
  without a check is reading its elements;
- the theorem that accepted rows with elements are all reached, whatever their stride, and that no
  two of them have a position in common.

Does not own: rows without elements that start behind their array. The extent of rows without
elements is not checked, and a stride may carry their start anywhere.
-/

namespace TensorEngine

namespace RowView

variable {α : Type} {base : Array α} {length rows rowLength stride : Nat} {view : RowView α}

/-! ## Accepted extents -/

/-- An extent is accepted when there is nothing in it, or when its rows are apart and the last one
ends inside the array, at a position of 64 bits. -/
theorem checkExtent_eq_ok_iff :
    checkExtent length rows rowLength stride = .ok () ↔
      rows = 0 ∨ rowLength = 0 ∨ rowLength ≤ stride ∧
        (rows - 1) * stride + rowLength ≤ length ∧ (rows - 1) * stride + rowLength < 2 ^ 64 := by
  unfold checkExtent
  dsimp only
  split
  case isTrue empty => exact ⟨fun _ => by tauto, fun _ => rfl⟩
  case isFalse some =>
    obtain ⟨someRow, someElement⟩ := not_or.mp some
    simp only [someRow, someElement, false_or]
    split
    case isTrue overlapping => simp [Nat.not_le.mpr overlapping]
    case isFalse apart =>
      split
      case isTrue long => simp [Nat.not_lt.mpr long]
      case isFalse short =>
        split
        case isTrue outside => simp [Nat.not_le.mpr outside]
        case isFalse inside => simp only [true_iff]; omega

theorem make_eq_ok_iff :
    make base rows rowLength stride = .ok view ↔
      checkExtent base.size rows rowLength stride = .ok () ∧
        view = ⟨base, rows, rowLength, stride⟩ := by
  unfold make
  rw [bind_eq_ok_iff]
  constructor
  · rintro ⟨_, checked, same⟩
    cases same
    exact ⟨checked, rfl⟩
  · rintro ⟨checked, rfl⟩
    exact ⟨(), checked, rfl⟩

/-! ## Rows -/

def start (view : RowView α) (index : Nat) : Nat :=
  index * view.stride

def stop (view : RowView α) (index : Nat) : Nat :=
  view.start index + view.rowLength

/-- A row can be read unchecked: its range lies inside the array, at positions of 64 bits, and
reading it gives the elements there. -/
structure Reaches (view : RowView α) (index : Nat) : Prop where
  inside : view.stop index ≤ view.base.size
  short : view.stop index < 2 ^ 64
  reads : view.row index = .ok (view.base.extract (view.start index) (view.stop index))

/-- A row is reached as soon as it ends inside the array. -/
theorem Reaches.of_stop {index : Nat} (listed : index < view.rows)
    (inside : view.stop index ≤ view.base.size) (short : view.stop index < 2 ^ 64) :
    view.Reaches index := by
  refine ⟨inside, short, ?_⟩
  unfold row
  rw [if_pos listed]
  exact slice_eq_ok_iff.mpr ⟨Nat.le_add_right _ _, inside, rfl⟩

/-- A row that is reached has its elements, column by column. -/
theorem Reaches.exists_part {index : Nat} (reached : view.Reaches index) :
    ∃ part, view.row index = .ok part ∧ part.size = view.rowLength ∧
      ∀ column < view.rowLength, part[column]? = view.base[view.start index + column]? := by
  have inside : view.start index + view.rowLength ≤ view.base.size := reached.inside
  refine ⟨_, reached.reads, ?_, fun column within => ?_⟩
  · rw [Array.size_extract, stop]
    omega
  · rw [Array.getElem?_extract, stop, if_pos (by omega)]

/-- The last row bounds the ends of all rows. -/
theorem stop_le_last (view : RowView α) {index : Nat} (listed : index < view.rows) :
    view.stop index ≤ (view.rows - 1) * view.stride + view.rowLength :=
  Nat.add_le_add_right (Nat.mul_le_mul_right _ (by omega)) _

/-- Rows that are apart end before the next one starts. -/
theorem stop_le_start (apart : view.rowLength ≤ view.stride) {index other : Nat}
    (before : index < other) : view.stop index ≤ view.start other := by
  calc
    view.stop index ≤ index * view.stride + view.stride := Nat.add_le_add_left apart _
    _ = (index + 1) * view.stride := (Nat.succ_mul _ _).symm
    _ ≤ view.start other := Nat.mul_le_mul_right _ before

/-- Accepted rows are reached exactly if they have elements, or start inside the array all the same.
Rows without a gap are always reached, and rows that are apart have no position in common. -/
theorem reaches_rows_of_make (made : make base rows rowLength stride = .ok view) :
    view = ⟨base, rows, rowLength, stride⟩ ∧
      (∀ index < rows, view.Reaches index ↔
        0 < rowLength ∨ index * stride ≤ base.size ∧ index * stride < 2 ^ 64) ∧
      (stride = rowLength → ∀ index < rows, view.Reaches index) ∧
      (rowLength ≤ stride → ∀ index < rows, ∀ other < rows, index ≠ other →
        view.stop index ≤ view.start other ∨ view.stop other ≤ view.start index) := by
  obtain ⟨checked, rfl⟩ := make_eq_ok_iff.mp made
  have reached : ∀ index < rows, Reaches ⟨base, rows, rowLength, stride⟩ index ↔
      0 < rowLength ∨ index * stride ≤ base.size ∧ index * stride < 2 ^ 64 := by
    intro index listed
    have last := stop_le_last ⟨base, rows, rowLength, stride⟩ listed
    rcases Nat.eq_zero_or_pos rowLength with rfl | some
    -- nothing is known of the extent of rows without elements, and their ends are their starts
    · simp only [Nat.lt_irrefl, false_or]
      exact ⟨fun reaches => ⟨reaches.inside, reaches.short⟩,
        fun starts => .of_stop listed starts.1 starts.2⟩
    · refine ⟨fun _ => .inl some, fun _ => ?_⟩
      obtain none | none | ⟨_, inside, short⟩ := checkExtent_eq_ok_iff.mp checked
      · omega
      · omega
      · exact .of_stop listed (Nat.le_trans last inside) (Nat.lt_of_le_of_lt last short)
  refine ⟨rfl, reached, fun same index listed => (reached index listed).mpr ?_, ?_⟩
  · subst same
    rcases Nat.eq_zero_or_pos stride with rfl | some
    · exact .inr ⟨Nat.zero_le _, Nat.two_pow_pos 64⟩
    · exact .inl some
  · intro apart index _ other _ different
    rcases Nat.lt_or_gt_of_ne different with before | after
    · exact .inl (stop_le_start apart before)
    · exact .inr (stop_le_start apart after)

/-- The theorem applies to two rows of two elements with one between them. -/
theorem reaches_rows_of_make_gap :
    ∃ view, make #[1, 2, 0, 3, 4] 2 2 3 = .ok view ∧ view.row 1 = .ok #[3, 4] ∧
      view.Reaches 1 ∧ view.stop 0 ≤ view.start 1 := by
  obtain ⟨_, reached, _, _⟩ :=
    reaches_rows_of_make (show make #[1, 2, 0, 3, 4] 2 2 3 = .ok _ from rfl)
  have last := (reached 1 (by decide)).mpr (.inl (by decide))
  exact ⟨_, rfl, last.reads, last, by decide⟩

/-- Rows without elements may start behind their array: five positions apart, the second of two such
rows of an empty array is not reached, and reading it fails. -/
theorem empty_rows_leave_array :
    ∃ view, make (#[] : Array UInt8) 2 0 5 = .ok view ∧ 1 < view.rows ∧ ¬ view.Reaches 1 ∧
      view.row 1 = .error .outOfRange :=
  ⟨_, rfl, by decide, fun reached => absurd reached.inside (by decide), rfl⟩

end RowView

end TensorEngine
