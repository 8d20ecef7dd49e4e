import TensorEngine.Arithmetic

/-!
Contract: division of natural numbers by a power of two, rounded to the nearest integer with ties
to the even neighbour.

Owns:
- `shiftRoundEven`, the one rounding rule shared by the half and single precision formats;
- the law that its result is at most half a unit too large.

Does not own: signs, exponents or bit fields.
-/

namespace TensorEngine.Numeric

/-- The integer nearest to `value / 2 ^ shift`; exactly half a unit goes to the even neighbour. -/
def shiftRoundEven (value shift : Nat) : Nat :=
  let kept := value / 2 ^ shift
  let dropped := value % 2 ^ shift
  if 2 ^ shift < 2 * dropped ∨ (2 * dropped = 2 ^ shift ∧ kept % 2 = 1) then kept + 1 else kept

/-- The rounded quotient lies at most half a unit above the exact one. -/
theorem two_mul_shiftRoundEven_le (value shift : Nat) :
    2 * (shiftRoundEven value shift * 2 ^ shift) ≤ 2 * value + 2 ^ shift := by
  have split := Nat.div_add_mod value (2 ^ shift)
  unfold shiftRoundEven
  dsimp only
  split
  · rename_i above
    rw [Nat.add_mul, Nat.mul_comm (value / 2 ^ shift)]
    have : 2 ^ shift ≤ 2 * (value % 2 ^ shift) := by omega
    omega
  · rw [Nat.mul_comm (value / 2 ^ shift)]
    omega

end TensorEngine.Numeric
