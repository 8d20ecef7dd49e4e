import TensorEngine.Proofs.Numeric.Binary32

/-!
Contract: short integers survive a scale, whatever rounding does in between.

Owns:
- how far rounding moves a number, in last places and relative to the number;
- `abs_nearest_multiple`, by which multiples of the least positive number are never moved by more
  than one part in `2 ^ 24`, also below the normal range;
- the theorem that an integer that is multiplied by a scale and divided by it again rounds to
  itself.

Does not own: codes and their zero points.
-/

namespace TensorEngine.Numeric

open Float.Model Float.Model.UnpackedFloat

/-! ## The error of rounding -/

/-- Rounding moves a number by at most half of its last place. -/
theorem abs_nearest_sub_le (x : ℚ) : |nearest x - x| ≤ 2 ^ lastPlace x / 2 := by
  have unit : (0 : ℚ) < 2 ^ lastPlace x := by positivity
  have near := (halfEven_spec (x / 2 ^ lastPlace x)).1
  have scaled : nearest x - x =
      (halfEven (x / 2 ^ lastPlace x) - x / 2 ^ lastPlace x) * 2 ^ lastPlace x := by
    rw [sub_mul, div_mul_cancel₀ _ unit.ne']
    rfl
  rw [scaled, abs_mul, abs_of_pos unit, abs_sub_comm]
  linarith [mul_le_mul_of_nonneg_right near unit.le]

/-- A multiple of the least positive number moves by at most one part in `2 ^ 24`. -/
theorem abs_nearest_multiple {x : ℚ} {k : ℤ} (multiple : x = k * 2 ^ (-149 : ℤ)) :
    |nearest x - x| ≤ |x| / 2 ^ 24 := by
  by_cases normal : -149 < lastPlace x
  · have large := lastPlace_le_abs normal
    rw [zpow_add₀ (by norm_num)] at large
    have half := abs_nearest_sub_le x
    norm_num at large ⊢
    linarith
  · -- the last place is the least one, of which the number is a multiple
    have least : lastPlace x = -149 := le_antisymm (not_lt.mp normal) (least_le_lastPlace x)
    have kept : nearest x = x := by
      unfold nearest significand
      rw [least, multiple, mul_div_cancel_right₀ _ (by positivity), halfEven_intCast]
    rw [kept, sub_self, abs_zero]
    positivity

/-- Canonical floats denote multiples of the least positive number. -/
theorem Canonical.exists_multiple {float : UnpackedFloat} (canonical : Canonical float) :
    ∃ k : ℤ, exactValue float = k * 2 ^ (-149 : ℤ) := by
  cases float with
  | infinity sign => cases canonical
  | notANumber => cases canonical
  | zero sign => exact ⟨0, by rw [Int.cast_zero, zero_mul]; rfl⟩
  | finite sign mantissa exponent positive =>
      obtain ⟨_, least, _⟩ := canonical
      obtain ⟨gap, above⟩ := Int.eq_ofNat_of_zero_le (Int.sub_nonneg.mpr least)
      refine ⟨sign.apply mantissa * 2 ^ gap, ?_⟩
      show signedValue sign _ = _
      rw [signedValue_natCast, Int.cast_mul, Int.cast_pow, Int.cast_ofNat, mul_assoc,
        ← zpow_natCast, ← zpow_add₀ (by norm_num)]
      congr 2
      omega

/-- Close to a short integer, the nearest number is close to it. -/
theorem halfEven_nearest {x : ℚ} {k : ℤ} (short : |k| < 2 ^ 22) (near : |x - k| ≤ 1 / 4) :
    halfEven (nearest x) = k := by
  -- a quarter on either side of the integer there is a number of the format
  have quarter : ∀ m : ℤ, |m| < 2 ^ 24 → nearest (m / 4) = m / 4 := by
    intro m bits
    have kept := nearest_eq_self bits (by decide : (-149 : ℤ) ≤ -2)
    rwa [show (2 : ℚ) ^ (-2 : ℤ) = 4⁻¹ by norm_num, ← div_eq_mul_inv] at kept
  have size := abs_lt.mp short
  obtain ⟨least, most⟩ := abs_le.mp near
  have low := quarter (4 * k - 1) (abs_lt.mpr (by omega))
  have high := quarter (4 * k + 1) (abs_lt.mpr (by omega))
  push_cast at low high
  have above := nearest_mono (show (4 * k - 1 : ℚ) / 4 ≤ x by linarith)
  have below := nearest_mono (show x ≤ (4 * k + 1 : ℚ) / 4 by linarith)
  rw [low] at above
  rw [high] at below
  have close : |nearest x - k| ≤ 1 / 4 := abs_le.mpr ⟨by linarith, by linarith⟩
  refine halfEven_eq (close.trans (by norm_num)) fun half => ?_
  rw [half] at close
  norm_num at close

namespace Binary32

/-! ## Scaling and scaling back -/

/-- A finite result is the nearest number itself. -/
theorem IsNearest.value_of_isFinite {x : Float32} {exact : ℚ} (isNearest : IsNearest x exact)
    (finite : x.isFinite = true) : Binary32.value x = nearest exact := by
  have inside := (isFinite_iff.mp finite).2
  have bound : (0 : ℚ) < overflowBound := by norm_num [overflowBound]
  rw [isNearest.value] at inside ⊢
  obtain ⟨least, most⟩ := abs_lt.mp inside
  unfold saturate at least most ⊢
  rcases max_choice (-overflowBound) (min (nearest exact) overflowBound) with low | kept
  · rw [low] at least
    exact absurd least (lt_irrefl _)
  · rw [kept] at most ⊢
    rcases min_choice (nearest exact) overflowBound with same | top
    · exact same
    · rw [top] at most
      exact absurd most (lt_irrefl _)

/-- An integer that is multiplied by a scale and divided by it again rounds to itself, unless the
product overflows. -/
theorem value_roundEven_scaled {scale : Float32} (finite : scale.isFinite = true)
    (positive : 0 < value scale) {k : ℤ} (short : |k| < 2 ^ 22)
    (inside : (ofInt k * scale).isFinite = true) :
    value (roundEven (ofInt k * scale / scale)) = k := by
  have integer := value_ofInt (k := k) (by omega)
  have product := (mul_isNearest (isFinite_ofInt (k := k) (by omega)) finite).value_of_isFinite
    inside
  rw [integer] at product
  -- the product is off by at most one part in `2 ^ 24`
  obtain ⟨steps, multiple⟩ := (canonical finite).exists_multiple
  have whole : (k : ℚ) * value scale = ((k * steps : ℤ) : ℚ) * 2 ^ (-149 : ℤ) := by
    rw [show value scale = _ from multiple, Int.cast_mul, mul_assoc]
  have error := abs_nearest_multiple whole
  rw [← product] at error
  have size : |(k : ℚ)| ≤ 2 ^ 22 := by exact_mod_cast short.le
  have near : |value (ofInt k * scale) / value scale - k| ≤ 1 / 4 := by
    have quotient : value (ofInt k * scale) / value scale - k =
        (value (ofInt k * scale) - k * value scale) / value scale := by
      rw [sub_div, mul_div_cancel_right₀ _ positive.ne']
    rw [quotient, abs_div, abs_of_pos positive, div_le_iff₀ positive]
    calc |value (ofInt k * scale) - k * value scale| ≤ |k * value scale| / 2 ^ 24 := error
      _ = |(k : ℚ)| / 2 ^ 24 * value scale := by
          rw [abs_mul, abs_of_pos positive, mul_div_right_comm]
      _ ≤ 1 / 4 * value scale := by
          refine mul_le_mul_of_nonneg_right ?_ positive.le
          norm_num at size ⊢
          linarith
  have divided := div_isNearest inside finite positive.ne'
  have back := halfEven_nearest short near
  -- so close to the integer, the quotient does not overflow
  have saturated : halfEven (saturate (nearest (value (ofInt k * scale) / value scale))) = k := by
    rw [saturate_eq_self, back]
    have distance := (halfEven_spec (nearest (value (ofInt k * scale) / value scale))).1
    rw [back] at distance
    have through := abs_add_le (nearest (value (ofInt k * scale) / value scale) - k) k
    rw [sub_add_cancel] at through
    refine through.trans ((add_le_add distance size).trans ?_)
    norm_num [overflowBound]
  rw [(roundEven_spec _).1, divided.value, saturated]

end Binary32

end TensorEngine.Numeric
