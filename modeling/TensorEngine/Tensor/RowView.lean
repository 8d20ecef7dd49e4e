import TensorEngine.Arithmetic
import TensorEngine.Breach

/-!
Contract: arrays read as rows.

Owns: `RowView`, whose extent is checked when it is made, and the access to one row.

Does not own: which rows a kernel reads.
-/

namespace TensorEngine

/-- Rows of `rowLength` elements, `stride` elements apart, in an array. -/
structure RowView (α : Type) where
  base : Array α
  rows : Nat
  rowLength : Nat
  stride : Nat
deriving Repr

inductive RowFault where
  | overlapping (stride rowLength : Nat)
  | extentOverflow
  | tooShort (required found : Nat)
deriving DecidableEq, Repr

def RowFault.message : RowFault → String
  | overlapping stride rowLength =>
      s!"row stride {stride} smaller than row length {rowLength}"
  | extentOverflow => "row view extent overflows"
  | tooShort required found => s!"row view needs {required} elements, buffer holds {found}"

namespace RowView

/-- Checks that rows lie inside an array of `length` elements, with positions below `2 ^ 64`. -/
def checkExtent (length rows rowLength stride : Nat) : Except RowFault Unit :=
  if rows = 0 ∨ rowLength = 0 then .ok ()
  else if stride < rowLength then .error (.overlapping stride rowLength)
  else
    let required := (rows - 1) * stride + rowLength
    if 2 ^ 64 ≤ required then .error .extentOverflow
    else if length < required then .error (.tooShort required length)
    else .ok ()

/-- Reads an array as rows. -/
def make (base : Array α) (rows rowLength stride : Nat) : Except RowFault (RowView α) := do
  checkExtent base.size rows rowLength stride
  return ⟨base, rows, rowLength, stride⟩

/-- Reads an array as rows that follow each other without a gap. -/
def contiguous (base : Array α) (rows rowLength : Nat) : Except RowFault (RowView α) :=
  make base rows rowLength rowLength

/-- The elements of one row, which must be one of the rows that were checked. -/
def row (view : RowView α) (index : Nat) : Checked (Array α) :=
  if index < view.rows then
    slice view.base (index * view.stride) (index * view.stride + view.rowLength)
  else .error .outOfRange

end RowView

end TensorEngine
