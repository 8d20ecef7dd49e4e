import TensorEngine.Proofs.Numeric.Binary32

/-!
Contract: the confinement of a number between bounds.

Owns:
- the larger, the smaller and the confined number as maximum and minimum of values;
- what becomes of an operand that is not a number;
- `orLeast`, and the theorem that a range without bounds is not the identity.

Does not own: the confinement of codes.
-/

namespace TensorEngine.Numeric.Binary32

variable {x y low high : Float32}

/-! ## Numbers -/

theorem larger_spec (number : x.isNaN = false) (numberRight : y.isNaN = false) :
    (larger x y).isNaN = false ∧ value (larger x y) = max (value x) (value y) := by
  unfold larger
  rw [if_neg (Bool.eq_false_iff.mp number), if_neg (Bool.eq_false_iff.mp numberRight)]
  by_cases less : x < y
  · rw [if_pos less, max_eq_right ((lt_iff number numberRight).mp less).le]
    exact ⟨numberRight, rfl⟩
  · rw [if_neg less, max_eq_left (not_lt.mp (mt (lt_iff number numberRight).mpr less))]
    exact ⟨number, rfl⟩

theorem smaller_spec (number : x.isNaN = false) (numberRight : y.isNaN = false) :
    (smaller x y).isNaN = false ∧ value (smaller x y) = min (value x) (value y) := by
  unfold smaller
  rw [if_neg (Bool.eq_false_iff.mp number), if_neg (Bool.eq_false_iff.mp numberRight)]
  by_cases less : y < x
  · rw [if_pos less, min_eq_right ((lt_iff numberRight number).mp less).le]
    exact ⟨numberRight, rfl⟩
  · rw [if_neg less, min_eq_left (not_lt.mp (mt (lt_iff numberRight number).mpr less))]
    exact ⟨number, rfl⟩

/-- A confined number is a number, with the confined value. -/
theorem bounded_spec (number : x.isNaN = false) (numberLow : low.isNaN = false)
    (numberHigh : high.isNaN = false) :
    (bounded low high x).isNaN = false ∧
      value (bounded low high x) = min (max (value x) (value low)) (value high) := by
  obtain ⟨raised, raisedValue⟩ := larger_spec number numberLow
  obtain ⟨lowered, loweredValue⟩ := smaller_spec raised numberHigh
  exact ⟨lowered, loweredValue.trans (by rw [raisedValue])⟩

/-! ## What is not a number -/

/-- What is not a number is confined to the lower bound. -/
theorem bounded_of_isNaN (noNumber : x.isNaN = true) (numberLow : low.isNaN = false)
    (numberHigh : high.isNaN = false) (ordered : value low ≤ value high) :
    bounded low high x = low := by
  have raised : larger x low = low := if_pos noNumber
  unfold bounded
  rw [raised]
  unfold smaller
  rw [if_neg (Bool.eq_false_iff.mp numberLow), if_neg (Bool.eq_false_iff.mp numberHigh),
    if_neg (mt (lt_iff numberHigh numberLow).mp (not_lt.mpr ordered))]

/-- A number, or the least one in place of what is not a number. -/
def orLeast (x : Float32) : Float32 :=
  if x.isNaN then negativeInfinity else x

theorem value_infinity : value infinity = overflowBound := rfl

theorem value_negativeInfinity : value negativeInfinity = -overflowBound := rfl

theorem isNaN_infinity : infinity.isNaN = false := rfl

theorem isNaN_negativeInfinity : negativeInfinity.isNaN = false := rfl

/-- No number lies outside the infinities. -/
theorem abs_value_le (x : Float32) : |value x| ≤ overflowBound := by
  have most := saturate_le (value x)
  have least := le_saturate (value x)
  rw [saturate_value] at most least
  exact abs_le.mpr ⟨least, most⟩

/-- A range without bounds leaves numbers as they are, and makes the least number of what is not
one. -/
theorem bounded_unbounded (x : Float32) : bounded negativeInfinity infinity x = orLeast x := by
  unfold orLeast
  by_cases noNumber : x.isNaN = true
  · rw [if_pos noNumber]
    refine bounded_of_isNaN noNumber isNaN_negativeInfinity isNaN_infinity ?_
    rw [value_infinity, value_negativeInfinity]
    norm_num [overflowBound]
  · have number := Bool.eq_false_iff.mpr noNumber
    obtain ⟨least, most⟩ := abs_le.mp (abs_value_le x)
    have raised : larger x negativeInfinity = x := by
      unfold larger
      rw [if_neg noNumber, if_neg (by decide),
        if_neg (mt (lt_iff number isNaN_negativeInfinity).mp (not_lt.mpr least))]
    rw [if_neg noNumber]
    unfold bounded smaller
    rw [raised, if_neg noNumber, if_neg (by decide),
      if_neg (mt (lt_iff isNaN_infinity number).mp (not_lt.mpr most))]

end TensorEngine.Numeric.Binary32
