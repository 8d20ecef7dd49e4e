import TensorEngine.Numeric.Half
import TensorEngine.Proofs.Numeric.Places

/-!
Contract: magnitudes of single precision narrowed to half precision, and widened.

Owns:
- `Between`, a number between two neighbouring places of a format, and `roundedPlace`, the one that
  it is rounded to, with the theorem that no place is nearer;
- `Half.exists_between`, that narrowing rounds in this sense in each of its branches, and from it
  where narrowing overflows and that it keeps the order;
- the theorem that widening keeps the number at a place.

Does not own: signs and patterns that are not numbers.
-/

namespace TensorEngine.Numeric

open Float.Model Float.Model.UnpackedFloat

abbrev binary16 : Format := { mantissaBitsWithoutImplicit := 10, exponentBits := 5 }

/-! ## Between two places -/

/-- The place that a number between a place and the next one is rounded to, by its part of the gap:
the nearer one, and the even one half way. -/
def roundedPlace (place : ℕ) (part : ℚ) : ℕ :=
  if 1 < 2 * part ∨ (2 * part = 1 ∧ place % 2 = 1) then place + 1 else place

/-- A number lies at a place of a format or between it and the next one, by this part of the gap. -/
structure Between (width : ℕ) (least : ℤ) (x : ℚ) (place : ℕ) (part : ℚ) : Prop where
  nonneg : 0 ≤ part
  less : part < 1
  value : x = magnitude width least place + part * gap width least place

namespace Between

variable {width : ℕ} {least : ℤ} {x y : ℚ} {place other : ℕ} {part second : ℚ}

theorem lower (between : Between width least x place part) : magnitude width least place ≤ x := by
  rw [between.value]
  exact le_add_of_nonneg_right (mul_nonneg between.nonneg gap_pos.le)

theorem upper (between : Between width least x place part) :
    x < magnitude width least (place + 1) := by
  rw [between.value, magnitude_succ]
  exact add_lt_add_of_le_of_lt le_rfl (mul_lt_of_lt_one_left gap_pos between.less)

/-- The place is known from the number. -/
theorem le_place (between : Between width least x place part)
    (reached : magnitude width least other ≤ x) : other ≤ place := by
  have below := reached.trans_lt between.upper
  rw [(magnitude_strictMono width least).lt_iff_lt] at below
  omega

theorem place_lt (between : Between width least x place part)
    (below : x < magnitude width least other) : place < other := by
  have below := between.lower.trans_lt below
  rwa [(magnitude_strictMono width least).lt_iff_lt] at below

/-- Every place is at least as far away as the neighbour on its side, and farther if it is not that
neighbour. -/
theorem distance (between : Between width least x place part) (other : ℕ) :
    (part * gap width least place ≤ |x - magnitude width least other| ∧
        (other ≠ place → part * gap width least place < |x - magnitude width least other|)) ∧
      other ≤ place ∨
    ((1 - part) * gap width least place ≤ |x - magnitude width least other| ∧
        (other ≠ place + 1 →
          (1 - part) * gap width least place < |x - magnitude width least other|)) ∧
      place + 1 ≤ other := by
  have strict := magnitude_strictMono width least
  have next := magnitude_succ width least place
  rcases Nat.lt_or_ge place other with above | below
  · have far := strict.monotone above
    have size := neg_abs_le (x - magnitude width least other)
    refine .inr ⟨⟨?_, fun different => ?_⟩, above⟩
    · linarith [between.value]
    · have farther := strict (Nat.lt_of_le_of_ne above (Ne.symm different))
      linarith [between.value]
  · have far := strict.monotone below
    have size := le_abs_self (x - magnitude width least other)
    refine .inl ⟨⟨?_, fun different => ?_⟩, below⟩
    · linarith [between.value]
    · have farther := strict (Nat.lt_of_le_of_ne below different)
      linarith [between.value]

/-- The rounded place is nearest, and even if another one is as near. -/
theorem nearest (between : Between width least x place part) (other : ℕ) :
    |x - magnitude width least (roundedPlace place part)| ≤ |x - magnitude width least other| ∧
      (other ≠ roundedPlace place part →
        |x - magnitude width least other| =
          |x - magnitude width least (roundedPlace place part)| →
        roundedPlace place part % 2 = 0) := by
  have unit : 0 < gap width least place := gap_pos
  have low := between.lower
  have high := between.upper
  have here : |x - magnitude width least place| = part * gap width least place := by
    rw [abs_of_nonneg (by linarith)]
    linarith [between.value]
  have there : |x - magnitude width least (place + 1)| = (1 - part) * gap width least place := by
    rw [abs_of_neg (by linarith)]
    linarith [between.value, magnitude_succ width least place]
  have compare := between.distance other
  unfold roundedPlace
  split
  · rename_i up
    have half : 1 ≤ 2 * part := up.elim le_of_lt fun tie => tie.1.ge
    rw [there]
    rcases compare with ⟨⟨far, -⟩, -⟩ | ⟨⟨far, farther⟩, -⟩
    · refine ⟨by nlinarith, fun _ same => ?_⟩
      have tie : 2 * part = 1 := by nlinarith
      have odd := (up.resolve_left (by linarith)).2
      omega
    · exact ⟨far, fun different same => absurd same (farther different).ne'⟩
  · rename_i down
    obtain ⟨half, even⟩ := not_or.mp down
    rw [here]
    rcases compare with ⟨⟨far, farther⟩, -⟩ | ⟨⟨far, -⟩, -⟩
    · exact ⟨far, fun different same => absurd same (farther different).ne'⟩
    · refine ⟨by nlinarith, fun _ same => ?_⟩
      have tie : 2 * part = 1 := by nlinarith
      have notOdd := not_and.mp even tie
      omega

theorem roundedPlace_mono (between : Between width least x place part)
    (greater : Between width least y other second) (ordered : x ≤ y) :
    roundedPlace place part ≤ roundedPlace other second := by
  rcases (greater.le_place (between.lower.trans ordered)).lt_or_eq with less | rfl
  · unfold roundedPlace
    split <;> split <;> omega
  · have parts : part ≤ second := by
      have unit : 0 < gap width least place := gap_pos
      rw [between.value, greater.value] at ordered
      exact le_of_mul_le_mul_right (by linarith) unit
    unfold roundedPlace
    split
    · rename_i up
      rw [if_pos]
      rcases up with far | ⟨half, odd⟩
      · exact .inl (by linarith)
      · rcases parts.lt_or_eq with less | same
        · exact .inl (by linarith)
        · exact .inr ⟨by rw [← same]; exact half, odd⟩
    · split <;> omega

theorem roundedPlace_eq (between : Between width least (magnitude width least other) place part) :
    roundedPlace place part = other := by
  have same : place = other := by
    have above := between.le_place le_rfl
    have below := between.place_lt (magnitude_strictMono width least (Nat.lt_succ_self other))
    omega
  subst same
  have none : part = 0 := by
    have rest := left_eq_add.mp between.value
    exact (mul_eq_zero.mp rest).resolve_right gap_pos.ne'
  rw [roundedPlace, none]
  norm_num

end Between

/-! ## Places of half precision -/

namespace Half

/-- A shift rounds between the quotient and its successor, by the remainder. -/
theorem shiftRoundEven_eq (value shift : ℕ) :
    shiftRoundEven value shift =
      roundedPlace (value / 2 ^ shift) ((value % 2 ^ shift : ℕ) / 2 ^ shift : ℚ) := by
  have positive : (0 : ℚ) < 2 ^ shift := by positivity
  have above : 1 < 2 * ((value % 2 ^ shift : ℕ) / 2 ^ shift : ℚ) ↔
      2 ^ shift < 2 * (value % 2 ^ shift) := by
    rw [← mul_div_assoc, lt_div_iff₀ positive, one_mul]
    exact_mod_cast Iff.rfl
  have half : 2 * ((value % 2 ^ shift : ℕ) / 2 ^ shift : ℚ) = 1 ↔
      2 * (value % 2 ^ shift) = 2 ^ shift := by
    rw [← mul_div_assoc, div_eq_iff positive.ne', one_mul]
    exact_mod_cast Iff.rfl
  unfold shiftRoundEven roundedPlace
  simp only [above, half]

/-- A number whose digits have been cut off lies between the place that is left and the next one. -/
theorem between_of_shift {width value shift place : ℕ} {least : ℤ} {x : ℚ}
    (kept : digits width place = value / 2 ^ shift)
    (scaled : x = value / 2 ^ shift * gap width least place) :
    Between width least x place ((value % 2 ^ shift : ℕ) / 2 ^ shift : ℚ) := by
  have positive : (0 : ℚ) < 2 ^ shift := by positivity
  have short : ((value % 2 ^ shift : ℕ) : ℚ) < 2 ^ shift := by
    exact_mod_cast Nat.mod_lt value (Nat.two_pow_pos shift)
  have whole : (value : ℚ) = (value / 2 ^ shift : ℕ) * 2 ^ shift + (value % 2 ^ shift : ℕ) := by
    exact_mod_cast (Nat.div_add_mod' value (2 ^ shift)).symm
  refine ⟨by positivity, (div_lt_one positive).mpr short, ?_⟩
  unfold magnitude
  rw [scaled, kept, ← add_mul]
  congr 1
  rw [div_eq_iff positive.ne', add_mul, div_mul_cancel₀ _ positive.ne']
  exact whole

/-- Narrowing the magnitude of a number below `2 ^ 16` rounds it to a place of half precision. -/
theorem exists_between {bits : ℕ} (below : bits < 143 * 2 ^ 23) :
    ∃ place part, Between 10 (-24) (magnitude 23 (-149) bits) place part ∧
      roundMagnitude bits = roundedPlace place part := by
  unfold roundMagnitude biasGap infinityPattern
  dsimp only
  rw [if_neg (by omega), if_neg (by omega)]
  by_cases subnormal : bits / 2 ^ 23 ≤ 112
  · rw [if_pos subnormal]
    generalize shiftEq : 112 + 14 - bits / 2 ^ 23 = shift
    by_cases underflow : 24 < shift
    · -- less than half the least place
      have tiny : magnitude 23 (-149) bits < 2 ^ (-25 : ℤ) := by
        have smaller : bits < 102 * 2 ^ 23 := by omega
        exact (magnitude_strictMono 23 (-149) smaller).trans_eq (magnitude_binade 101)
      have positive := @magnitude_nonneg 23 bits (-149)
      have unit : gap 10 (-24) 0 = 2 ^ (-24 : ℤ) := rfl
      rw [if_pos underflow]
      generalize magnitude 23 (-149) bits = x at tiny positive
      norm_num at tiny
      refine ⟨0, x * 2 ^ 24, ⟨by positivity, by linarith, ?_⟩, (if_neg ?_).symm⟩
      · rw [unit, magnitude_zero]
        norm_num
        ring
      · rintro (above | ⟨half, _⟩) <;> linarith
    · rw [if_neg underflow, shiftRoundEven_eq]
      have some : bits / 2 ^ 23 ≠ 0 := by omega
      have fraction := Nat.mod_lt bits (Nat.two_pow_pos 23)
      have small : (bits % 2 ^ 23 + 2 ^ 23) / 2 ^ shift < 2 ^ 10 := by
        rw [Nat.div_lt_iff_lt_mul (Nat.two_pow_pos shift)]
        calc bits % 2 ^ 23 + 2 ^ 23 < 2 ^ 24 := by omega
          _ = 2 ^ 10 * 2 ^ 14 := by norm_num
          _ ≤ 2 ^ 10 * 2 ^ shift :=
            Nat.mul_le_mul_left _ (Nat.pow_le_pow_right (by decide) (by omega))
      have first := Nat.div_eq_of_lt small
      refine ⟨_, _, between_of_shift ?_ ?_, rfl⟩
      · unfold digits
        rw [if_pos first, Nat.mod_eq_of_lt small]
      · unfold magnitude digits gap
        rw [if_neg some, first, Nat.add_comm (2 ^ 23), div_mul_eq_mul_div, mul_div_assoc,
          ← zpow_natCast, ← zpow_sub₀ (by norm_num)]
        congr 2
        omega
  · rw [if_neg subnormal, shiftRoundEven_eq]
    have rest : (bits - 112 * 2 ^ 23) % 2 ^ 13 = (2 ^ 23 + bits % 2 ^ 23) % 2 ^ 13 := by omega
    rw [rest]
    refine ⟨_, _, between_of_shift ?_ ?_, rfl⟩
    · unfold digits
      rw [if_neg (by omega)]
      omega
    · unfold magnitude digits gap
      rw [if_neg (by omega)]
      have exponent : (bits - 112 * 2 ^ 23) / 2 ^ 13 / 2 ^ 10 - 1 = bits / 2 ^ 23 - 113 := by omega
      have unit : (2 : ℚ) ^ ((-149 : ℤ) + (bits / 2 ^ 23 - 1 : ℕ)) =
          2 ^ ((-24 : ℤ) + (bits / 2 ^ 23 - 113 : ℕ)) / 2 ^ 13 := by
        rw [← zpow_natCast, ← zpow_sub₀ two_ne_zero, zpow_right_inj₀ two_pos (by norm_num)]
        omega
      rw [exponent, unit]
      ring

/-! ## Narrowed magnitudes -/

variable {bits greater place : ℕ}

/-- From `2 ^ 16` on, numbers are narrowed to infinity. -/
theorem roundMagnitude_of_beyond (beyond : 143 * 2 ^ 23 ≤ bits) (number : bits ≤ 0x7f800000) :
    roundMagnitude bits = infinityPattern := by
  unfold roundMagnitude biasGap
  dsimp only
  rw [if_neg (by omega), if_pos (by omega)]

theorem roundMagnitude_of_isNaN (noNumber : 0x7f800000 < bits) :
    roundMagnitude bits = quietPattern := if_pos noNumber

/-- The place of infinity in half precision stands for `2 ^ 16`. -/
theorem magnitude_infinityPattern : magnitude 10 (-24) infinityPattern = 2 ^ 16 :=
  magnitude_binade 30

theorem magnitude_of_beyond : magnitude 23 (-149) (143 * 2 ^ 23) = 2 ^ 16 :=
  magnitude_binade 142

/-- The greatest finite number of half precision. -/
theorem magnitude_greatest : magnitude 10 (-24) 0x7bff = 65504 := by
  norm_num [magnitude, digits, gap]

theorem gap_greatest : gap 10 (-24) 0x7bff = 32 := by
  norm_num [gap]

/-- Numbers below `2 ^ 16` lie below the place of infinity. -/
theorem place_lt_infinityPattern {part : ℚ} (below : bits < 143 * 2 ^ 23)
    (between : Between 10 (-24) (magnitude 23 (-149) bits) place part) :
    place < infinityPattern := by
  apply between.place_lt
  rw [magnitude_infinityPattern, ← magnitude_of_beyond]
  exact magnitude_strictMono 23 (-149) below

theorem roundMagnitude_le (number : bits ≤ 0x7f800000) : roundMagnitude bits ≤ infinityPattern := by
  rcases Nat.lt_or_ge bits (143 * 2 ^ 23) with below | beyond
  · obtain ⟨place, part, between, rounded⟩ := exists_between below
    have inside := place_lt_infinityPattern below between
    rw [rounded]
    unfold roundedPlace
    split <;> omega
  · rw [roundMagnitude_of_beyond beyond number]

/-- The order of numbers is kept. -/
theorem roundMagnitude_mono (ordered : bits ≤ greater) (number : greater ≤ 0x7f800000) :
    roundMagnitude bits ≤ roundMagnitude greater := by
  rcases Nat.lt_or_ge greater (143 * 2 ^ 23) with below | beyond
  · obtain ⟨place, part, between, rounded⟩ := exists_between (ordered.trans_lt below)
    obtain ⟨other, second, betweenOther, roundedOther⟩ := exists_between below
    rw [rounded, roundedOther]
    exact between.roundedPlace_mono betweenOther ((magnitude_strictMono 23 (-149)).monotone ordered)
  · rw [roundMagnitude_of_beyond beyond number]
    exact roundMagnitude_le (ordered.trans number)

/-- Numbers are finite in half precision below half way between the greatest finite number and
`2 ^ 16`. -/
theorem roundMagnitude_lt_iff (number : bits ≤ 0x7f800000) :
    roundMagnitude bits < infinityPattern ↔ magnitude 23 (-149) bits < 65520 := by
  rcases Nat.lt_or_ge bits (143 * 2 ^ 23) with below | beyond
  · obtain ⟨place, part, between, rounded⟩ := exists_between below
    have inside := place_lt_infinityPattern below between
    rw [rounded]
    rcases (show place ≤ 0x7bff from Nat.le_pred_of_lt inside).lt_or_eq with early | rfl
    · refine iff_of_true ?_ ?_
      · unfold roundedPlace infinityPattern
        split <;> omega
      · refine between.upper.trans_le ?_
        calc magnitude 10 (-24) (place + 1) ≤ magnitude 10 (-24) 0x7bff :=
              (magnitude_strictMono 10 (-24)).monotone early
          _ ≤ 65520 := by norm_num [magnitude_greatest]
    · have value := between.value
      rw [magnitude_greatest, gap_greatest] at value
      rw [value]
      unfold roundedPlace infinityPattern
      split
      · rename_i up
        have half : 1 ≤ 2 * part := up.elim le_of_lt fun tie => tie.1.ge
        exact iff_of_false (by decide) (by linarith)
      · rename_i down
        obtain ⟨half, even⟩ := not_or.mp down
        have less : 2 * part < 1 :=
          lt_of_le_of_ne (not_lt.mp half) fun tie => even ⟨tie, by decide⟩
        exact iff_of_true (by decide) (by linarith)
  · refine iff_of_false ?_ ?_
    · rw [roundMagnitude_of_beyond beyond number]
      exact Nat.lt_irrefl _
    · have large := (magnitude_strictMono 23 (-149)).monotone beyond
      rw [magnitude_of_beyond] at large
      norm_num at large
      linarith

/-- A narrowed finite number is at the nearest place, at the even one of two. -/
theorem roundMagnitude_nearest (below : bits < 143 * 2 ^ 23) (other : ℕ) :
    |magnitude 23 (-149) bits - magnitude 10 (-24) (roundMagnitude bits)| ≤
        |magnitude 23 (-149) bits - magnitude 10 (-24) other| ∧
      (other ≠ roundMagnitude bits →
        |magnitude 23 (-149) bits - magnitude 10 (-24) other| =
          |magnitude 23 (-149) bits - magnitude 10 (-24) (roundMagnitude bits)| →
        roundMagnitude bits % 2 = 0) := by
  obtain ⟨place, part, between, rounded⟩ := exists_between below
  rw [rounded]
  exact between.nearest other

/-! ## Widened magnitudes -/

/-- A number below the normal ones gets its leading digit as implicit one. -/
theorem magnitude_widenMagnitude_of_subnormal (some : place ≠ 0) (few : place < 2 ^ 10) :
    magnitude 23 (-149) (widenMagnitude place) = place * 2 ^ (-24 : ℤ) := by
  have quotient : place / 2 ^ 10 = 0 := Nat.div_eq_of_lt few
  have rest : place % 2 ^ 10 = place := Nat.mod_eq_of_lt few
  have lower := Nat.log2_self_le some
  have upper := @Nat.lt_log2_self place
  have short : place.log2 < 10 := (Nat.log2_lt some).mpr few
  unfold widenMagnitude
  dsimp only
  rw [quotient, rest, if_neg (by decide), if_pos rfl, if_neg some]
  generalize place.log2 = lead at lower upper short
  obtain ⟨fraction, rfl⟩ := Nat.exists_eq_add_of_le lower
  have scale : 2 ^ lead * 2 ^ (23 - lead) = 2 ^ 23 := by
    rw [← pow_add]
    congr 1
    omega
  have inside : fraction * 2 ^ (23 - lead) < 2 ^ 23 := by
    rw [← scale]
    exact Nat.mul_lt_mul_of_pos_right (by omega) (Nat.two_pow_pos _)
  have unit : (2 : ℚ) ^ (23 - lead) * 2 ^ ((-149 : ℤ) + (lead + 102 : ℕ)) = 2 ^ (-24 : ℤ) := by
    rw [← zpow_natCast, ← zpow_add₀ two_ne_zero, zpow_right_inj₀ two_pos (by norm_num)]
    omega
  have scaleCast : (2 : ℚ) ^ 23 = 2 ^ lead * 2 ^ (23 - lead) := by exact_mod_cast scale.symm
  rw [Nat.add_sub_cancel_left, magnitude_normal (lead + 102) inside, scaleCast, ← unit]
  push_cast
  ring

/-- Widening keeps the number at a place. -/
theorem magnitude_widenMagnitude (finite : place < infinityPattern) :
    magnitude 23 (-149) (widenMagnitude place) = magnitude 10 (-24) place := by
  unfold infinityPattern at finite
  rcases Nat.lt_or_ge place (2 ^ 10) with subnormal | normal
  · rw [magnitude_subnormal subnormal]
    rcases eq_or_ne place 0 with rfl | some
    · rw [Nat.cast_zero, zero_mul]
      exact magnitude_zero
    · exact magnitude_widenMagnitude_of_subnormal some subnormal
  · obtain ⟨exponent, fraction, rfl, short⟩ : ∃ exponent fraction,
        (exponent + 1) * 2 ^ 10 + fraction = place ∧ fraction < 2 ^ 10 :=
      ⟨place / 2 ^ 10 - 1, place % 2 ^ 10, by omega, Nat.mod_lt place (by decide)⟩
    have quotient : ((exponent + 1) * 2 ^ 10 + fraction) / 2 ^ 10 = exponent + 1 := by omega
    have rest : ((exponent + 1) * 2 ^ 10 + fraction) % 2 ^ 10 = fraction := by omega
    have inside : fraction * 2 ^ 13 < 2 ^ 23 := by
      calc fraction * 2 ^ 13 < 2 ^ 10 * 2 ^ 13 := Nat.mul_lt_mul_of_pos_right short (by decide)
        _ = 2 ^ 23 := by norm_num
    have unit : (2 : ℚ) ^ 13 * 2 ^ ((-149 : ℤ) + (exponent + 112 : ℕ)) =
        2 ^ ((-24 : ℤ) + exponent) := by
      rw [← zpow_natCast, ← zpow_add₀ two_ne_zero, zpow_right_inj₀ two_pos (by norm_num)]
      push_cast
      ring
    have kept : widenMagnitude ((exponent + 1) * 2 ^ 10 + fraction) =
        (exponent + 112 + 1) * 2 ^ 23 + fraction * 2 ^ 13 := by
      unfold widenMagnitude biasGap
      dsimp only
      rw [quotient, rest, if_neg (by omega), if_neg (Nat.succ_ne_zero _), Nat.add_right_comm]
    rw [kept, magnitude_normal _ short, magnitude_normal _ inside, ← unit]
    push_cast
    ring

/-- Numbers that are not finite keep their fraction. -/
theorem widenMagnitude_of_infinityPattern_le (infinite : infinityPattern ≤ place)
    (short : place < 2 ^ 15) :
    widenMagnitude place = 0x7f800000 + (place - infinityPattern) * 2 ^ 13 := by
  unfold infinityPattern at infinite ⊢
  unfold widenMagnitude
  dsimp only
  rw [if_pos (by omega)]
  omega

/-- Finite numbers stay below `2 ^ 16`. -/
theorem widenMagnitude_lt (finite : place < infinityPattern) :
    widenMagnitude place < 143 * 2 ^ 23 := by
  rw [← (magnitude_strictMono 23 (-149)).lt_iff_lt, magnitude_widenMagnitude finite,
    magnitude_of_beyond, ← magnitude_infinityPattern]
  exact magnitude_strictMono 10 (-24) finite

/-- What has been widened is narrowed to itself. -/
theorem roundMagnitude_widenMagnitude (number : place ≤ infinityPattern) :
    roundMagnitude (widenMagnitude place) = place := by
  rcases number.lt_or_eq with finite | rfl
  · obtain ⟨_, _, between, rounded⟩ := exists_between (widenMagnitude_lt finite)
    rw [magnitude_widenMagnitude finite] at between
    rw [rounded, between.roundedPlace_eq]
  · decide

end Half

end TensorEngine.Numeric
