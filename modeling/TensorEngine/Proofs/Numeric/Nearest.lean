import Mathlib
import TensorEngine.Numeric.RoundEven

/-!
Contract: the rounding of rational numbers to single precision.

Owns:
- `halfEven`, the integer nearest to a rational number, ties to even;
- `nearest`, the nearest number with 24 significant bits and a last place of at least `2 ^ (-149)`;
- the theorems that both keep the order and leave what they can represent.

Does not own: the operations that round, and their overflow.
-/

namespace TensorEngine.Numeric

/-! ## Integers -/

/-- The integer nearest to a rational number; exactly half way goes to the even neighbour. -/
def halfEven (x : ℚ) : ℤ :=
  if 1 < 2 * Int.fract x ∨ (2 * Int.fract x = 1 ∧ ⌊x⌋ % 2 = 1) then ⌊x⌋ + 1 else ⌊x⌋

/-- The rounded number is at most half away, and even when it is exactly half away. -/
theorem halfEven_spec (x : ℚ) :
    |x - halfEven x| ≤ 1 / 2 ∧ (|x - halfEven x| = 1 / 2 → halfEven x % 2 = 0) := by
  have split := Int.floor_add_fract x
  have least := Int.fract_nonneg x
  have most := Int.fract_lt_one x
  unfold halfEven
  split_ifs with above
  · have distance : |x - ((⌊x⌋ + 1 : ℤ) : ℚ)| = 1 - Int.fract x := by
      rw [abs_of_neg (by push_cast; linarith)]
      push_cast
      linarith
    rw [distance]
    refine ⟨by rcases above with far | ⟨half, _⟩ <;> linarith, fun half => ?_⟩
    have odd : ⌊x⌋ % 2 = 1 := above.elim (fun far => by linarith) (·.2)
    omega
  · have distance : |x - ⌊x⌋| = Int.fract x := by
      rw [abs_of_nonneg (by linarith)]
      linarith
    rw [distance]
    refine ⟨by linarith [not_lt.mp fun far => above (.inl far)], fun half => ?_⟩
    have even : ⌊x⌋ % 2 ≠ 1 := fun odd => above (.inr ⟨by linarith, odd⟩)
    omega

/-- Rounding keeps the order. -/
theorem halfEven_mono : Monotone halfEven := by
  intro x y ordered
  obtain ⟨nearX, evenX⟩ := halfEven_spec x
  obtain ⟨nearY, evenY⟩ := halfEven_spec y
  by_contra crossed
  have apart : halfEven y + 1 ≤ halfEven x := by omega
  have apartCast : (halfEven y : ℚ) + 1 ≤ halfEven x := by exact_mod_cast apart
  rw [abs_le] at nearX nearY
  -- both numbers lie half way between neighbours, of which only one is even
  have below : x - halfEven x = -(1 / 2) := by linarith
  have above : y - halfEven y = 1 / 2 := by linarith
  have neighbours : (halfEven x : ℚ) = halfEven y + 1 := by linarith
  have next : halfEven x = halfEven y + 1 := by exact_mod_cast neighbours
  have first := evenX (by rw [below]; norm_num)
  have second := evenY (by rw [above]; norm_num)
  omega

/-- The nearest integer is the only one at most half away that is even if it is half away. -/
theorem halfEven_eq {x : ℚ} {k : ℤ} (near : |x - k| ≤ 1 / 2)
    (even : |x - k| = 1 / 2 → k % 2 = 0) : halfEven x = k := by
  obtain ⟨nearX, evenX⟩ := halfEven_spec x
  by_contra different
  have apart : (1 : ℚ) ≤ |(halfEven x : ℚ) - k| := by
    rw [← Int.cast_sub, ← Int.cast_abs]
    exact_mod_cast Int.one_le_abs (sub_ne_zero.mpr different)
  have through := abs_sub_le (halfEven x : ℚ) x k
  rw [abs_sub_comm (halfEven x : ℚ) x] at through
  have first := evenX (by linarith)
  have second := even (by linarith)
  have neighbours : |(halfEven x : ℚ) - k| = 1 := by linarith
  rw [← Int.cast_sub, ← Int.cast_abs] at neighbours
  have next : |halfEven x - k| = 1 := by exact_mod_cast neighbours
  rcases abs_eq (by decide : (0 : ℤ) ≤ 1) |>.mp next with up | down <;> omega

@[simp] theorem halfEven_intCast (k : ℤ) : halfEven k = k := by
  apply halfEven_eq <;> norm_num

@[simp] theorem halfEven_zero : halfEven 0 = 0 :=
  halfEven_intCast 0

/-- Rounding is symmetric. -/
theorem halfEven_neg (x : ℚ) : halfEven (-x) = -halfEven x := by
  obtain ⟨near, even⟩ := halfEven_spec x
  have mirrored : |-x - ((-halfEven x : ℤ) : ℚ)| = |x - halfEven x| := by
    rw [← abs_neg]
    push_cast
    ring_nf
  apply halfEven_eq
  · rw [mirrored]
    exact near
  · rw [mirrored]
    intro half
    have := even half
    omega

theorem halfEven_natCast (k : ℕ) : halfEven k = k :=
  halfEven_intCast k

/-- The rounding of a shifted natural number. -/
theorem halfEven_shift (value shift : ℕ) :
    halfEven ((value : ℚ) / 2 ^ shift) = shiftRoundEven value shift := by
  have positive : (0 : ℚ) < 2 ^ shift := by positivity
  unfold shiftRoundEven
  dsimp only
  have whole := Nat.div_add_mod' value (2 ^ shift)
  have short := Nat.mod_lt value (Nat.two_pow_pos shift)
  generalize value / 2 ^ shift = kept at whole
  generalize value % 2 ^ shift = dropped at whole short
  have wholeCast : (value : ℚ) = kept * 2 ^ shift + dropped := by exact_mod_cast whole.symm
  have shortCast : (dropped : ℚ) < 2 ^ shift := by exact_mod_cast short
  have floor : ⌊(value : ℚ) / 2 ^ shift⌋ = kept := by
    rw [Int.floor_eq_iff, le_div_iff₀ positive, div_lt_iff₀ positive, Int.cast_natCast]
    constructor
    · linarith [Nat.cast_nonneg (α := ℚ) dropped]
    · linarith
  have fraction : Int.fract ((value : ℚ) / 2 ^ shift) * 2 ^ shift = dropped := by
    rw [Int.fract, floor, sub_mul, div_mul_cancel₀ _ positive.ne', Int.cast_natCast]
    linarith
  have above : 1 < 2 * Int.fract ((value : ℚ) / 2 ^ shift) ↔ 2 ^ shift < 2 * dropped := by
    rw [← mul_lt_mul_iff_left₀ positive, mul_assoc, fraction, one_mul]
    exact_mod_cast Iff.rfl
  have half : 2 * Int.fract ((value : ℚ) / 2 ^ shift) = 1 ↔ 2 * dropped = 2 ^ shift := by
    rw [← mul_left_inj' positive.ne', mul_assoc, fraction, one_mul]
    exact_mod_cast Iff.rfl
  have odd : (kept : ℤ) % 2 = 1 ↔ kept % 2 = 1 := by omega
  unfold halfEven
  simp only [above, half, floor, odd]
  split <;> rfl

/-! ## Single precision -/

/-- The exponent of the last of 24 significant bits, at least that of the least positive number. -/
def lastPlace (x : ℚ) : ℤ := if x = 0 then -149 else max (Int.log 2 |x| - 23) (-149)

/-- The number of last places in a number, rounded. -/
def significand (x : ℚ) : ℤ := halfEven (x / 2 ^ lastPlace x)

/-- The nearest number in single precision, as if there were no greatest one. -/
def nearest (x : ℚ) : ℚ := significand x * 2 ^ lastPlace x

theorem lastPlace_neg (x : ℚ) : lastPlace (-x) = lastPlace x := by
  simp only [lastPlace, abs_neg, neg_eq_zero]

theorem nearest_neg (x : ℚ) : nearest (-x) = -nearest x := by
  unfold nearest significand
  rw [lastPlace_neg, neg_div, halfEven_neg]
  push_cast
  ring

@[simp] theorem nearest_zero : nearest 0 = 0 := by
  simp [nearest, significand]

theorem least_le_lastPlace (x : ℚ) : -149 ≤ lastPlace x := by
  unfold lastPlace
  split <;> omega

/-- A number has at most 24 bits above its last place. -/
theorem abs_lt_lastPlace (x : ℚ) : |x| < 2 ^ (lastPlace x + 24) := by
  unfold lastPlace
  split
  · rename_i none
    rw [none, abs_zero]
    positivity
  · refine (Int.lt_zpow_succ_log_self (by decide : 1 < 2) |x|).trans_le ?_
    exact zpow_le_zpow_right₀ (by norm_num) (by omega)

/-- A number has exactly 24 bits above its last place, unless that is the least one. -/
theorem lastPlace_le_abs {x : ℚ} (normal : -149 < lastPlace x) :
    2 ^ (lastPlace x + 23) ≤ |x| := by
  unfold lastPlace at normal ⊢
  split at normal
  · omega
  · rename_i some
    have self := Int.zpow_log_le_self (by decide : 1 < 2) (abs_pos.mpr some)
    rw [if_neg some, show max (Int.log 2 |x| - 23) (-149) + 23 = Int.log 2 |x| by omega]
    exact_mod_cast self

/-- The last place is known from a bound on the number. -/
theorem lastPlace_le {x : ℚ} {place : ℤ} (least : -149 ≤ place) (below : |x| < 2 ^ (place + 24)) :
    lastPlace x ≤ place := by
  by_contra beyond
  have above := lastPlace_le_abs (x := x) (by omega)
  have grows : (2 : ℚ) ^ (place + 24) ≤ 2 ^ (lastPlace x + 23) :=
    zpow_le_zpow_right₀ (by norm_num) (by omega)
  linarith

theorem lastPlace_eq {x : ℚ} {place : ℤ} (least : -149 ≤ place) (below : |x| < 2 ^ (place + 24))
    (above : place = -149 ∨ 2 ^ (place + 23) ≤ |x|) : lastPlace x = place := by
  have upper := lastPlace_le least below
  have lower := least_le_lastPlace x
  rcases above with first | above
  · omega
  · by_contra different
    have bound := abs_lt_lastPlace x
    have grows : (2 : ℚ) ^ (lastPlace x + 24) ≤ 2 ^ (place + 23) :=
      zpow_le_zpow_right₀ (by norm_num) (by omega)
    linarith

theorem significand_nonneg {x : ℚ} (positive : 0 ≤ x) : 0 ≤ significand x := by
  have rounded : halfEven 0 ≤ significand x := halfEven_mono (by positivity)
  rwa [halfEven_zero] at rounded

/-- A rounded number has at most 24 bits, or is the next power of two. -/
theorem significand_le {x : ℚ} (positive : 0 ≤ x) : significand x ≤ 2 ^ 24 := by
  have below := abs_lt_lastPlace x
  rw [abs_of_nonneg positive, zpow_add₀ (by norm_num)] at below
  have bound : x / 2 ^ lastPlace x ≤ ((2 ^ 24 : ℤ) : ℚ) := by
    rw [div_le_iff₀ (by positivity)]
    push_cast
    linarith
  have rounded := halfEven_mono bound
  rwa [halfEven_intCast] at rounded

/-- A rounded number has at least 24 bits, unless its last place is the least one. -/
theorem le_significand {x : ℚ} (positive : 0 ≤ x) (normal : -149 < lastPlace x) :
    2 ^ 23 ≤ significand x := by
  have above := lastPlace_le_abs normal
  rw [abs_of_nonneg positive, zpow_add₀ (by norm_num)] at above
  have bound : ((2 ^ 23 : ℤ) : ℚ) ≤ x / 2 ^ lastPlace x := by
    rw [le_div_iff₀ (by positivity)]
    push_cast
    linarith
  have rounded := halfEven_mono bound
  rwa [halfEven_intCast] at rounded

theorem nearest_nonneg {x : ℚ} (positive : 0 ≤ x) : 0 ≤ nearest x := by
  have rounded : (0 : ℚ) ≤ significand x := by exact_mod_cast significand_nonneg positive
  unfold nearest
  positivity

/-- Rounding keeps the order of numbers of one sign. Numbers with the same last place are rounded
to multiples of it; otherwise a power of two lies between the rounded numbers. -/
theorem nearest_le_of_nonneg {x y : ℚ} (positive : 0 ≤ x) (ordered : x ≤ y) :
    nearest x ≤ nearest y := by
  have size : |x| ≤ |y| := abs_le_abs_of_nonneg positive ordered
  rcases (lastPlace_le (least_le_lastPlace y) (size.trans_lt (abs_lt_lastPlace y))).lt_or_eq with
    smaller | same
  · have least := least_le_lastPlace x
    have top : (significand x : ℚ) ≤ 2 ^ 24 := by exact_mod_cast significand_le positive
    have bottom : (2 : ℚ) ^ 23 ≤ significand y := by
      exact_mod_cast le_significand (positive.trans ordered) (by omega)
    calc nearest x ≤ 2 ^ 24 * 2 ^ lastPlace x := mul_le_mul_of_nonneg_right top (by positivity)
      _ = 2 ^ 23 * 2 ^ (lastPlace x + 1) := by
          rw [zpow_add₀ (by norm_num)]
          ring
      _ ≤ 2 ^ 23 * 2 ^ lastPlace y := by
          exact mul_le_mul_of_nonneg_left (zpow_le_zpow_right₀ (by norm_num) smaller) (by norm_num)
      _ ≤ nearest y := mul_le_mul_of_nonneg_right bottom (by positivity)
  · have rounded : significand x ≤ significand y := by
      unfold significand
      rw [same]
      exact halfEven_mono (div_le_div_of_nonneg_right ordered (by positivity))
    unfold nearest
    rw [same]
    exact mul_le_mul_of_nonneg_right (by exact_mod_cast rounded) (by positivity)

/-- Rounding keeps the order. -/
theorem nearest_mono : Monotone nearest := by
  intro x y ordered
  rcases le_total 0 x with positive | negative
  · exact nearest_le_of_nonneg positive ordered
  · have mirrorX := nearest_neg x
    rcases le_total 0 y with positive | small
    · have low := nearest_nonneg (neg_nonneg.mpr negative)
      have high := nearest_nonneg positive
      linarith
    · have mirrorY := nearest_neg y
      have mirrored := nearest_le_of_nonneg (neg_nonneg.mpr small) (neg_le_neg ordered)
      linarith

/-- A multiple of a possible last place with at most 24 bits is left as it is. -/
theorem nearest_eq_self {m e : ℤ} (short : |m| < 2 ^ 24) (least : -149 ≤ e) :
    nearest (m * 2 ^ e) = m * 2 ^ e := by
  have unit : (0 : ℚ) < 2 ^ e := by positivity
  have shortCast : |(m : ℚ)| < 2 ^ 24 := by
    rw [← Int.cast_abs]
    exact_mod_cast short
  have place : lastPlace (m * 2 ^ e) ≤ e := by
    apply lastPlace_le least
    rw [abs_mul, abs_of_pos unit, zpow_add₀ (by norm_num), mul_comm]
    exact (mul_lt_mul_iff_right₀ unit).mpr (by exact_mod_cast shortCast)
  obtain ⟨gap, rest⟩ := Int.eq_ofNat_of_zero_le (Int.sub_nonneg.mpr place)
  have multiple : (m : ℚ) * 2 ^ e / 2 ^ lastPlace (m * 2 ^ e) = ((m * 2 ^ gap : ℤ) : ℚ) := by
    rw [mul_div_assoc, ← zpow_sub₀ (by norm_num), rest]
    push_cast
    rw [zpow_natCast]
  unfold nearest significand
  rw [multiple, halfEven_intCast, ← multiple, div_mul_cancel₀ _ (by positivity)]

/-- Integers of up to 24 bits are left as they are. -/
theorem nearest_intCast {k : ℤ} (short : |k| ≤ 2 ^ 24) : nearest k = k := by
  rcases short.lt_or_eq with less | most
  · have exact := nearest_eq_self less (e := 0) (by decide)
    simpa using exact
  · rcases abs_eq (by decide : (0 : ℤ) ≤ 2 ^ 24) |>.mp most with rfl | rfl
    · have exact := nearest_eq_self (m := 2 ^ 23) (e := 1) (by norm_num) (by decide)
      norm_num at exact ⊢
      exact exact
    · have exact := nearest_eq_self (m := -2 ^ 23) (e := 1) (by norm_num) (by decide)
      norm_num at exact ⊢
      exact exact

/-- Powers of two from the least positive number on are left as they are. -/
theorem nearest_two_zpow {e : ℤ} (least : -149 ≤ e) : nearest (2 ^ e) = 2 ^ e := by
  have exact := nearest_eq_self (m := 1) (by norm_num) least
  simpa using exact

/-! ## Overflow -/

/-- What takes the place of infinity: the least power of two without a finite representation. -/
def overflowBound : ℚ := 2 ^ 128

/-- Confines a number to the range of finite numbers and infinities. -/
def saturate (x : ℚ) : ℚ := max (-overflowBound) (min x overflowBound)

theorem saturate_mono : Monotone saturate := by
  intro x y ordered
  exact max_le_max_left _ (min_le_min_right _ ordered)

theorem saturate_le (x : ℚ) : saturate x ≤ overflowBound := by
  unfold saturate overflowBound
  exact max_le (by norm_num) (min_le_right _ _)

theorem le_saturate (x : ℚ) : -overflowBound ≤ saturate x :=
  le_max_left _ _

theorem saturate_eq_self {x : ℚ} (bounded : |x| ≤ overflowBound) : saturate x = x := by
  obtain ⟨least, most⟩ := abs_le.mp bounded
  unfold saturate
  rw [min_eq_left most, max_eq_right least]

theorem saturate_neg (x : ℚ) : saturate (-x) = -saturate x := by
  unfold saturate overflowBound
  rcases le_total x (2 ^ 128) with below | above <;>
    rcases le_total (-(2 ^ 128)) x with least | less
  all_goals simp only [min_def, max_def]
  all_goals split_ifs <;> linarith

end TensorEngine.Numeric
