import TensorEngine.Proofs.Numeric.Nearest

/-!
Contract: unpacked floating point numbers as rational numbers.

Owns:
- `exactValue`, the rational number of an unpacked float, with a bound in place of infinity;
- `Represents`, a mantissa with its rest, and the theorem that shifts keep what it represents;
- `RoundsTo`, a canonical result that is the nearest number, for rounding, sums, quotients and
  products;
- packing and unpacking, which saturate;
- the order of unpacked floats.

Does not own: the operations on packed numbers.

Everything is about single precision: a mantissa of 24 bits and exponents from -149 to 104.
-/

namespace TensorEngine.Numeric

open Float.Model Float.Model.UnpackedFloat

/-! ## Values -/

def signedValue (sign : Sign) (magnitude : ℚ) : ℚ :=
  match sign with
  | .negative => -magnitude
  | .positive => magnitude

/-- The number that an unpacked float denotes. What is not a number counts as zero. -/
def exactValue : UnpackedFloat → ℚ
  | .notANumber => 0
  | .infinity sign => signedValue sign overflowBound
  | .zero _ => 0
  | .finite sign mantissa exponent _ => signedValue sign (mantissa * 2 ^ exponent)

/-- A finite float whose mantissa fills 24 bits, unless its exponent is the least one. -/
def Canonical : UnpackedFloat → Prop
  | .finite _ mantissa exponent _ =>
      mantissa < 2 ^ 24 ∧ -149 ≤ exponent ∧ (2 ^ 23 ≤ mantissa ∨ exponent = -149)
  | .zero _ => True
  | .infinity _ | .notANumber => False

theorem signedValue_neg (sign : Sign) (magnitude : ℚ) :
    signedValue (-sign) magnitude = -signedValue sign magnitude := by
  cases sign
  · exact (neg_neg magnitude).symm
  · rfl

theorem signedValue_zero (sign : Sign) : signedValue sign 0 = 0 := by
  cases sign
  · exact neg_zero
  · rfl

theorem abs_signedValue (sign : Sign) (magnitude : ℚ) :
    |signedValue sign magnitude| = |magnitude| := by
  cases sign
  · exact abs_neg magnitude
  · rfl

theorem nearest_signedValue (sign : Sign) (magnitude : ℚ) :
    nearest (signedValue sign magnitude) = signedValue sign (nearest magnitude) := by
  cases sign
  · exact nearest_neg magnitude
  · rfl

theorem signedValue_natCast (sign : Sign) (mantissa : ℕ) (exponent : ℤ) :
    signedValue sign (mantissa * 2 ^ exponent) = (sign.apply mantissa : ℤ) * 2 ^ exponent := by
  cases sign
  · simp [signedValue, Sign.apply]
  · simp [signedValue, Sign.apply]

/-! ## Mantissas with a rest -/

/-- The number that a mantissa with a round bit and a sticky bit stands for, up to a rest that
does not matter to rounding. -/
def Represents (extended : ExtendedMantissa) (x : ℚ) : Prop :=
  match extended.roundBit, extended.stickyBit with
  | false, false => x = extended.mantissa
  | false, true => (extended.mantissa : ℚ) < x ∧ x < extended.mantissa + 1 / 2
  | true, false => x = extended.mantissa + 1 / 2
  | true, true => (extended.mantissa : ℚ) + 1 / 2 < x ∧ x < extended.mantissa + 1

namespace Represents

variable {extended : ExtendedMantissa} {x : ℚ}

/-- A mantissa is the integral part of what it represents. -/
theorem bounds (represents : Represents extended x) :
    (extended.mantissa : ℚ) ≤ x ∧ x < extended.mantissa + 1 := by
  obtain ⟨mantissa, round, sticky⟩ := extended
  cases round <;> cases sticky <;> simp only [Represents] at represents ⊢ <;>
    constructor <;> linarith

/-- A mantissa without rest represents itself. -/
theorem exact (mantissa : ℕ) :
    Represents (ExtendedMantissa.ofMantissaAndAccuracy mantissa .exact) mantissa := rfl

/-- The rest of a quotient decides its accuracy. -/
theorem quotient (dividend : ℕ) {divisor : ℕ} (positive : 0 < divisor) :
    Represents (ExtendedMantissa.ofMantissaAndAccuracy (dividend / divisor)
      (accuracyOfFraction (dividend % divisor) divisor)) ((dividend : ℚ) / divisor) := by
  have whole := Nat.div_add_mod' dividend divisor
  have short := Nat.mod_lt dividend positive
  generalize dividend / divisor = kept at whole
  generalize dividend % divisor = rest at whole short
  have positiveCast : (0 : ℚ) < divisor := by exact_mod_cast positive
  have split : (dividend : ℚ) / divisor = kept + rest / divisor := by
    rw [← whole]
    push_cast
    rw [add_div, mul_div_cancel_right₀ _ positiveCast.ne']
  have below : (rest : ℚ) / divisor < 1 := by
    rw [div_lt_one positiveCast]
    exact_mod_cast short
  unfold accuracyOfFraction
  rw [split]
  by_cases none : rest = 0
  · rw [if_pos none, none]
    simp [Represents, ExtendedMantissa.ofMantissaAndAccuracy]
  · rw [if_neg none]
    have some : (0 : ℚ) < rest / divisor :=
      div_pos (by exact_mod_cast Nat.pos_of_ne_zero none) positiveCast
    rcases lt_trichotomy (2 * rest) divisor with less | half | more
    · have small : (rest : ℚ) / divisor < 1 / 2 := by
        rw [div_lt_iff₀ positiveCast]
        have cast : (2 : ℚ) * rest < divisor := by exact_mod_cast less
        linarith
      rw [Nat.compare_eq_lt.mpr less]
      show (kept : ℚ) < kept + rest / divisor ∧ (kept : ℚ) + rest / divisor < kept + 1 / 2
      exact ⟨by linarith, by linarith⟩
    · have middle : (rest : ℚ) / divisor = 1 / 2 := by
        rw [div_eq_iff positiveCast.ne']
        have cast : (2 : ℚ) * rest = divisor := by exact_mod_cast half
        linarith
      rw [Nat.compare_eq_eq.mpr half, middle]
      rfl
    · have large : 1 / 2 < (rest : ℚ) / divisor := by
        rw [lt_div_iff₀ positiveCast]
        have cast : (divisor : ℚ) < 2 * rest := by exact_mod_cast more
        linarith
      rw [Nat.compare_eq_gt.mpr more]
      show (kept : ℚ) + 1 / 2 < kept + rest / divisor ∧ (kept : ℚ) + rest / divisor < kept + 1
      exact ⟨by linarith, by linarith⟩

/-- A shift by one place represents half the number. -/
theorem shiftRightOne (represents : Represents extended x) :
    Represents extended.shiftRightOne (x / 2) := by
  obtain ⟨mantissa, round, sticky⟩ := extended
  have split : (mantissa : ℚ) = 2 * ((mantissa / 2 : ℕ) : ℚ) + ((mantissa % 2 : ℕ) : ℚ) := by
    exact_mod_cast (Nat.div_add_mod mantissa 2).symm
  rcases Nat.mod_two_eq_zero_or_one mantissa with even | odd
  · rw [even] at split
    have half : ((mantissa / 2 : ℕ) : ℚ) = mantissa / 2 := by
      push_cast at split
      linarith
    cases round <;> cases sticky <;>
      simp only [Represents, ExtendedMantissa.shiftRightOne, even, bne_self_eq_false,
        Bool.or_false, Bool.or_true, half] at represents ⊢ <;>
      (try constructor) <;> linarith
  · rw [odd] at split
    have half : ((mantissa / 2 : ℕ) : ℚ) = (mantissa - 1) / 2 := by
      push_cast at split
      linarith
    have set : (mantissa % 2 != 0) = true := by simp [odd]
    cases round <;> cases sticky <;>
      simp only [Represents, ExtendedMantissa.shiftRightOne, set,
        Bool.or_false, Bool.or_true, half] at represents ⊢ <;>
      (try constructor) <;> linarith

theorem shiftRight (represents : Represents extended x) (places : ℕ) :
    Represents (extended >>> places) (x / 2 ^ places) := by
  induction places with
  | zero =>
      rw [pow_zero, div_one]
      exact represents
  | succ places inductionHypothesis =>
      have next := inductionHypothesis.shiftRightOne
      rw [div_div, ← pow_succ] at next
      exact next

/-- The bits decide how the number is rounded. -/
theorem roundedMantissa (represents : Represents extended x) :
    (extended.roundedMantissa : ℤ) = halfEven x := by
  obtain ⟨mantissa, round, sticky⟩ := extended
  symm
  cases round <;> cases sticky <;>
    simp only [Represents, ExtendedMantissa.roundedMantissa, ExtendedMantissa.accuracy,
      Accuracy.roundToNearestEven] at represents ⊢
  · rw [represents, halfEven_natCast]
  · have distance : |x - (mantissa : ℤ)| = x - mantissa := abs_of_pos (by simpa using represents.1)
    apply halfEven_eq
    · rw [distance]
      linarith
    · rw [distance]
      intro half
      linarith
  · rcases Nat.mod_two_eq_zero_or_one mantissa with even | odd
    · have distance : |x - ((mantissa + mantissa % 2 : ℕ) : ℤ)| = 1 / 2 := by
        rw [even, represents]
        norm_num
      exact halfEven_eq distance.le fun _ => by omega
    · have distance : |x - ((mantissa + mantissa % 2 : ℕ) : ℤ)| = 1 / 2 := by
        rw [odd, represents]
        norm_num
      exact halfEven_eq distance.le fun _ => by omega
  · have distance : |x - ((mantissa + 1 : ℕ) : ℤ)| = mantissa + 1 - x := by
      rw [abs_of_neg (by push_cast; linarith)]
      push_cast
      ring
    apply halfEven_eq
    · rw [distance]
      linarith
    · rw [distance]
      intro half
      linarith

end Represents

/-! ## Rounding -/

/-- The last place that the mantissa and the exponent of a float ask for. -/
theorem targetExponent_eq (mantissa : ℕ) (exponent : ℤ) :
    Format.binary32.targetExponent (totalExponent mantissa exponent) =
      max (mantissa.log2 + exponent - 23) (-149) := by
  unfold Format.targetExponent totalExponent
  show max ((mantissa.log2 : ℤ) + 1 + exponent - 24) (-149) = _
  omega

theorem shiftToTargetExponent_eq (mantissa : ℕ) (exponent : ℤ) (accuracy : Accuracy) :
    shiftToTargetExponent Format.binary32 mantissa exponent accuracy =
      let places := (max (mantissa.log2 + exponent - 23) (-149) - exponent).toNat
      (ExtendedMantissa.ofMantissaAndAccuracy mantissa accuracy >>> places, exponent + places) := by
  unfold shiftToTargetExponent
  rw [targetExponent_eq]
  rfl

/-- The last place of a number is the one that its integral part asks for, if it has been split
there or below. -/
theorem lastPlace_eq_target {mantissa : ℕ} {x : ℚ} {exponent : ℤ}
    (least : (mantissa : ℚ) ≤ x) (most : x < mantissa + 1)
    (enough : exponent ≤ max (mantissa.log2 + exponent - 23) (-149)) :
    lastPlace (x * 2 ^ exponent) = max (mantissa.log2 + exponent - 23) (-149) := by
  have unit : (0 : ℚ) < 2 ^ exponent := by positivity
  have positive : 0 ≤ x * 2 ^ exponent :=
    mul_nonneg ((Nat.cast_nonneg mantissa).trans least) unit.le
  apply lastPlace_eq (le_max_right _ _)
  · have bound : x < 2 ^ (mantissa.log2 + 1) := by
      refine most.trans_le ?_
      exact_mod_cast Nat.lt_log2_self
    calc |x * 2 ^ exponent| = x * 2 ^ exponent := abs_of_nonneg positive
      _ < 2 ^ (mantissa.log2 + 1) * 2 ^ exponent := (mul_lt_mul_iff_left₀ unit).mpr bound
      _ = 2 ^ ((mantissa.log2 + 1 : ℕ) + exponent) := by
          rw [zpow_add₀ (by norm_num), zpow_natCast]
      _ ≤ _ := zpow_le_zpow_right₀ (by norm_num) (by push_cast; omega)
  · by_cases normal : max ((mantissa.log2 : ℤ) + exponent - 23) (-149) = -149
    · exact .inl normal
    · right
      -- without an integral part, the number would have been split too high
      have some : mantissa ≠ 0 := by
        rintro rfl
        rw [Nat.log2_zero] at enough normal
        omega
      have bound : (2 : ℚ) ^ mantissa.log2 ≤ x := by
        refine le_trans ?_ least
        exact_mod_cast Nat.log2_self_le some
      calc (2 : ℚ) ^ (max ((mantissa.log2 : ℤ) + exponent - 23) (-149) + 23) =
            2 ^ ((mantissa.log2 : ℤ) + exponent) := by
              congr 1
              omega
        _ = 2 ^ mantissa.log2 * 2 ^ exponent := by
            rw [zpow_add₀ (by norm_num), zpow_natCast]
        _ ≤ x * 2 ^ exponent := mul_le_mul_of_nonneg_right bound unit.le
        _ = |x * 2 ^ exponent| := (abs_of_nonneg positive).symm

/-- A float that is the nearest number, with a full mantissa. -/
structure RoundsTo (float : UnpackedFloat) (x : ℚ) : Prop where
  value : exactValue float = nearest x
  canonical : Canonical float

/-- A mantissa that has been rounded up to 25 bits is shifted by one place. -/
theorem carry_spec {mantissa : ℕ} {exponent : ℤ} (short : mantissa ≤ 2 ^ 24)
    (least : -149 ≤ exponent) (full : 2 ^ 23 ≤ mantissa ∨ exponent = -149) :
    ∃ (last : ℕ) (place : ℤ),
      (shiftToTargetExponent Format.binary32 mantissa exponent .exact).1.mantissa = last ∧
      (shiftToTargetExponent Format.binary32 mantissa exponent .exact).2 = place ∧
      (last : ℚ) * 2 ^ place = mantissa * 2 ^ exponent ∧
      last < 2 ^ 24 ∧ -149 ≤ place ∧ (2 ^ 23 ≤ last ∨ place = -149) := by
  rw [shiftToTargetExponent_eq]
  dsimp only
  rcases short.lt_or_eq with less | carry
  · have bits : mantissa.log2 < 24 := by
      by_cases none : mantissa = 0
      · rw [none, Nat.log2_zero]
        decide
      · exact (Nat.log2_lt none).mpr less
    have stay : (max ((mantissa.log2 : ℤ) + exponent - 23) (-149) - exponent).toNat = 0 := by
      omega
    rw [stay]
    exact ⟨mantissa, exponent, rfl, by simp, rfl, less, least, full⟩
  · have next : (max ((mantissa.log2 : ℤ) + exponent - 23) (-149) - exponent).toNat = 1 := by
      rw [carry, Nat.log2_two_pow]
      omega
    rw [next, carry]
    refine ⟨2 ^ 23, exponent + 1, rfl, rfl, ?_, by norm_num, by omega, .inl le_rfl⟩
    rw [zpow_add₀ (by norm_num)]
    norm_num
    ring

/-- Rounding gives the nearest number, if enough bits are there. -/
theorem roundWithAccuracy_roundsTo (sign : Sign) {mantissa : ℕ} {exponent : ℤ}
    {accuracy : Accuracy} {x : ℚ}
    (represents : Represents (ExtendedMantissa.ofMantissaAndAccuracy mantissa accuracy) x)
    (enough : exponent ≤ max (mantissa.log2 + exponent - 23) (-149)) :
    RoundsTo (roundWithAccuracy Format.binary32 sign mantissa exponent accuracy)
      (signedValue sign (x * 2 ^ exponent)) := by
  have same : (ExtendedMantissa.ofMantissaAndAccuracy mantissa accuracy).mantissa = mantissa := by
    cases accuracy with
    | exact => rfl
    | inexact order => cases order <;> rfl
  obtain ⟨low, high⟩ := represents.bounds
  rw [same] at low high
  have positive : 0 ≤ x * 2 ^ exponent :=
    mul_nonneg ((Nat.cast_nonneg mantissa).trans low) (by positivity)
  have place := lastPlace_eq_target low high enough
  generalize unit : lastPlace (x * 2 ^ exponent) = last at place
  have first := shiftToTargetExponent_eq mantissa exponent accuracy
  rw [← place] at first enough
  -- the mantissa is rounded as the nearest number is
  have rounded := (represents.shiftRight (last - exponent).toNat).roundedMantissa
  have scaled : x / 2 ^ (last - exponent).toNat = x * 2 ^ exponent / 2 ^ last := by
    rw [← zpow_natCast, Int.toNat_of_nonneg (by omega), zpow_sub₀ (by norm_num), div_div_eq_mul_div]
  have whole : ((ExtendedMantissa.ofMantissaAndAccuracy mantissa accuracy >>>
      (last - exponent).toNat).roundedMantissa : ℤ) = significand (x * 2 ^ exponent) := by
    unfold significand
    rw [rounded, scaled, unit]
  have nearestValue : nearest (x * 2 ^ exponent) =
      ((ExtendedMantissa.ofMantissaAndAccuracy mantissa accuracy >>>
        (last - exponent).toNat).roundedMantissa : ℚ) * 2 ^ last := by
    unfold nearest
    rw [unit, ← whole, Int.cast_natCast]
  have short := significand_le positive
  have full : -149 < last → 2 ^ 23 ≤ significand (x * 2 ^ exponent) := fun normal =>
    le_significand positive (by rw [unit]; exact normal)
  rw [← whole] at short full
  unfold roundWithAccuracy
  rw [first]
  dsimp only
  rw [show exponent + ((last - exponent).toNat : ℤ) = last by omega]
  obtain ⟨kept, final, keptEq, finalEq, value, bits, least, filled⟩ :=
    @carry_spec _ last (by exact_mod_cast short) (by omega)
      (or_iff_not_imp_right.mpr fun normal => by exact_mod_cast full (by omega))
  rw [keptEq, finalEq]
  rw [← value] at nearestValue
  split
  · rename_i none
    rw [none, Nat.cast_zero, zero_mul] at nearestValue
    exact ⟨by rw [nearest_signedValue, nearestValue, signedValue_zero]; rfl, trivial⟩
  · exact ⟨by rw [nearest_signedValue, nearestValue]; rfl, bits, least, filled⟩

/-! ## Operations -/

theorem log2_mul_two_pow {mantissa : ℕ} (positive : 0 < mantissa) (places : ℕ) :
    (mantissa * 2 ^ places).log2 = mantissa.log2 + places := by
  have scale : 0 < 2 ^ places := Nat.two_pow_pos places
  rw [Nat.log2_eq_iff (Nat.mul_pos positive scale).ne', pow_add,
    show mantissa.log2 + places + 1 = (mantissa.log2 + 1) + places by omega, pow_add]
  exact ⟨Nat.mul_le_mul_right _ (Nat.log2_self_le positive.ne'),
    Nat.mul_lt_mul_of_pos_right Nat.lt_log2_self scale⟩

theorem round_roundsTo (sign : Sign) {mantissa : ℕ} (positive : 0 < mantissa) (exponent : ℤ) :
    RoundsTo (Float.Model.UnpackedFloat.round Format.binary32 sign mantissa exponent)
      (signedValue sign (mantissa * 2 ^ exponent)) := by
  unfold Float.Model.UnpackedFloat.round
  rw [targetExponent_eq]
  unfold decreaseExponent
  dsimp only
  generalize placesEq :
    (exponent - max ((mantissa.log2 : ℤ) + exponent - 23) (-149)).toNat = places
  rw [Nat.shiftLeft_eq]
  have bits := log2_mul_two_pow positive places
  have enough : exponent - places ≤
      max (((mantissa * 2 ^ places).log2 : ℤ) + (exponent - places) - 23) (-149) := by
    rw [bits]
    omega
  have rounds := roundWithAccuracy_roundsTo sign (Represents.exact (mantissa * 2 ^ places)) enough
  have same : ((mantissa * 2 ^ places : ℕ) : ℚ) * 2 ^ (exponent - places) =
      mantissa * 2 ^ exponent := by
    push_cast
    rw [mul_assoc, ← zpow_natCast, ← zpow_add₀ (by norm_num), add_sub_cancel]
  rwa [same] at rounds

theorem normalize_roundsTo (mantissa : ℤ) (exponent : ℤ) (zeroSign : Sign) :
    RoundsTo (UnpackedFloat.normalize Format.binary32 mantissa exponent zeroSign)
      (mantissa * 2 ^ exponent) := by
  unfold UnpackedFloat.normalize
  rcases lt_trichotomy mantissa 0 with negative | rfl | positive
  · rw [Int.compare_eq_lt.mpr negative]
    have some : 0 < (-mantissa).toNat := by omega
    have rounds := round_roundsTo .negative some exponent
    rwa [signedValue_natCast, Int.toNat_of_nonneg (by omega),
      show Sign.negative.apply (-mantissa) = mantissa from neg_neg mantissa] at rounds
  · refine ⟨?_, trivial⟩
    rw [Int.cast_zero, zero_mul, nearest_zero]
    rfl
  · rw [Int.compare_eq_gt.mpr positive]
    have some : 0 < mantissa.toNat := by omega
    have rounds := round_roundsTo .positive some exponent
    rwa [signedValue_natCast, Int.toNat_of_nonneg (by omega)] at rounds

/-- A canonical float denotes a number of the format. -/
theorem Canonical.nearest_eq {float : UnpackedFloat} (canonical : Canonical float) :
    nearest (exactValue float) = exactValue float := by
  cases float with
  | finite sign mantissa exponent positive =>
      obtain ⟨short, least, _⟩ := canonical
      have exact := nearest_eq_self (m := mantissa) (by rw [Nat.abs_cast]; exact_mod_cast short)
        least
      rw [Int.cast_natCast] at exact
      show nearest (signedValue sign _) = signedValue sign _
      rw [nearest_signedValue, exact]
  | zero sign => exact nearest_zero
  | infinity sign => cases canonical
  | notANumber => cases canonical

theorem Canonical.roundsTo {float : UnpackedFloat} (canonical : Canonical float) :
    RoundsTo float (exactValue float) :=
  ⟨canonical.nearest_eq.symm, canonical⟩

/-- A mantissa for a smaller exponent denotes the same number. -/
theorem decreaseExponent_value (sign : Sign) (mantissa : ℕ) {exponent smaller : ℤ}
    (below : smaller ≤ exponent) :
    (sign.apply ((decreaseExponent mantissa exponent smaller).1 : ℤ) : ℚ) * 2 ^ smaller =
      signedValue sign (mantissa * 2 ^ exponent) := by
  rw [← signedValue_natCast]
  unfold decreaseExponent
  dsimp only
  rw [Nat.shiftLeft_eq]
  push_cast
  rw [mul_assoc, ← zpow_natCast, ← zpow_add₀ (by norm_num), Int.toNat_of_nonneg (by omega),
    sub_add_cancel]

/-- The sum of finite floats is the number nearest to the sum. -/
theorem add_roundsTo {left right : UnpackedFloat} (canonicalLeft : Canonical left)
    (canonicalRight : Canonical right) :
    RoundsTo (UnpackedFloat.add Format.binary32 left right)
      (exactValue left + exactValue right) := by
  cases left with
  | zero sign =>
      rw [show exactValue (.zero sign) = 0 from rfl, zero_add]
      cases right with
      | zero other =>
          show RoundsTo (if sign == other then _ else _) 0
          split <;> exact ⟨nearest_zero.symm, trivial⟩
      | finite other mantissa exponent positive => exact canonicalRight.roundsTo
      | infinity other => cases canonicalRight
      | notANumber => cases canonicalRight
  | finite sign mantissa exponent positive =>
      cases right with
      | zero other =>
          rw [show exactValue (.zero other) = 0 from rfl, add_zero]
          exact canonicalLeft.roundsTo
      | finite other second place positiveSecond =>
          have rounds := normalize_roundsTo
            (sign.apply (decreaseExponent mantissa exponent (min exponent place)).1 +
              other.apply (decreaseExponent second place (min exponent place)).1)
            (min exponent place) .positive
          rw [Int.cast_add, add_mul, decreaseExponent_value _ _ (min_le_left _ _),
            decreaseExponent_value _ _ (min_le_right _ _)] at rounds
          exact rounds
      | infinity other => cases canonicalRight
      | notANumber => cases canonicalRight
  | infinity sign => cases canonicalLeft
  | notANumber => cases canonicalLeft

theorem signedValue_div (first second : Sign) (dividend divisor : ℚ) :
    signedValue first dividend / signedValue second divisor =
      signedValue (first / second) (dividend / divisor) := by
  cases first <;> cases second
  · exact neg_div_neg_eq _ _
  · exact neg_div _ _
  · exact div_neg _
  · rfl

/-- Enough bits of a quotient are computed before it is rounded. -/
theorem quotient_enough {dividend divisor : ℕ} (positive : 0 < dividend) (divides : 0 < divisor)
    {gap target : ℤ} (least : target ≤ gap)
    (below : target ≤ max (((dividend.log2 : ℤ) - divisor.log2) + gap - 24) (-149)) :
    target ≤ max (((dividend * 2 ^ (gap - target).toNat / divisor).log2 : ℤ) + target - 23)
      (-149) := by
  by_cases last : target ≤ -149
  · omega
  · generalize placesEq : (gap - target).toNat = places
    have bits : divisor.log2 + 24 ≤ dividend.log2 + places := by omega
    have large : 2 ^ 23 ≤ dividend * 2 ^ places / divisor := by
      rw [Nat.le_div_iff_mul_le divides]
      calc 2 ^ 23 * divisor ≤ 2 ^ 23 * 2 ^ (divisor.log2 + 1) :=
            Nat.mul_le_mul_left _ Nat.lt_log2_self.le
        _ = 2 ^ (divisor.log2 + 24) := by rw [← pow_add]; congr 1; omega
        _ ≤ 2 ^ (dividend.log2 + places) := Nat.pow_le_pow_right (by decide) bits
        _ = 2 ^ dividend.log2 * 2 ^ places := pow_add _ _ _
        _ ≤ dividend * 2 ^ places := Nat.mul_le_mul_right _ (Nat.log2_self_le positive.ne')
    have filled := (Nat.le_log2 (by omega)).mpr large
    omega

/-- The quotient of finite floats is the number nearest to the quotient, unless the divisor is
zero. -/
theorem div_roundsTo {left right : UnpackedFloat} (canonicalLeft : Canonical left)
    (canonicalRight : Canonical right) (divides : exactValue right ≠ 0) :
    RoundsTo (UnpackedFloat.div Format.binary32 left right)
      (exactValue left / exactValue right) := by
  cases right with
  | zero other => exact absurd rfl divides
  | infinity other => cases canonicalRight
  | notANumber => cases canonicalRight
  | finite other divisor place positiveDivisor =>
      cases left with
      | infinity sign => cases canonicalLeft
      | notANumber => cases canonicalLeft
      | zero sign =>
          refine ⟨?_, trivial⟩
          rw [show exactValue (.zero sign) = 0 from rfl, zero_div, nearest_zero]
          rfl
      | finite sign dividend exponent positive =>
          have target : Format.binary32.targetExponent
              (totalExponent dividend exponent - totalExponent divisor place) =
              max (((dividend.log2 : ℤ) - divisor.log2) + (exponent - place) - 24) (-149) := by
            unfold Format.targetExponent totalExponent
            show max (_ - 24) (-149) = _
            omega
          show RoundsTo (roundWithAccuracy Format.binary32 (sign / other) _ _ _)
            (signedValue sign _ / signedValue other _)
          rw [signedValue_div, target, Nat.shiftLeft_eq]
          generalize lowest : min (exponent - place)
            (max (((dividend.log2 : ℤ) - divisor.log2) + (exponent - place) - 24) (-149)) = last
          have enough := @quotient_enough dividend divisor positive positiveDivisor
            (exponent - place) last (by omega) (by omega)
          have rounds := roundWithAccuracy_roundsTo (sign / other)
            (Represents.quotient (dividend * 2 ^ (exponent - place - last).toNat) positiveDivisor)
            enough
          have value : ((dividend * 2 ^ (exponent - place - last).toNat : ℕ) : ℚ) / divisor *
              2 ^ last = dividend * 2 ^ exponent / (divisor * 2 ^ place) := by
            push_cast
            rw [← zpow_natCast, Int.toNat_of_nonneg (by omega), div_mul_eq_mul_div, mul_assoc,
              ← zpow_add₀ (by norm_num), sub_add_cancel, zpow_sub₀ (by norm_num)]
            field_simp
          rwa [value] at rounds

theorem signedValue_mul (first second : Sign) (left right : ℚ) :
    signedValue first left * signedValue second right =
      signedValue (first * second) (left * right) := by
  cases first <;> cases second
  · exact neg_mul_neg _ _
  · exact neg_mul _ _
  · exact mul_neg _ _
  · rfl

/-- The exact product of two full mantissas has bits enough to be rounded. -/
theorem product_enough {left right : ℕ} {exponent place : ℤ} (positive : 0 < left)
    (positiveRight : 0 < right) (full : 2 ^ 23 ≤ left ∨ exponent = -149)
    (fullRight : 2 ^ 23 ≤ right ∨ place = -149) :
    exponent + place ≤ max ((left * right).log2 + (exponent + place) - 23) (-149) := by
  by_cases least : exponent = -149 ∧ place = -149
  · omega
  · have large : 2 ^ 23 ≤ left * right := by
      rcases not_and_or.mp least with above | above
      · exact (full.resolve_right above).trans (Nat.le_mul_of_pos_right left positiveRight)
      · exact (fullRight.resolve_right above).trans (Nat.le_mul_of_pos_left right positive)
    have filled := (Nat.le_log2 (by omega)).mpr large
    omega

/-- The product of finite floats is the number nearest to the product. -/
theorem mul_roundsTo {left right : UnpackedFloat} (canonicalLeft : Canonical left)
    (canonicalRight : Canonical right) :
    RoundsTo (UnpackedFloat.mul Format.binary32 left right)
      (exactValue left * exactValue right) := by
  have none : ∀ sign : Sign, RoundsTo (.zero sign) 0 := fun _ => ⟨nearest_zero.symm, trivial⟩
  cases left with
  | infinity sign => cases canonicalLeft
  | notANumber => cases canonicalLeft
  | zero sign =>
      rw [show exactValue (.zero sign) = 0 from rfl, zero_mul]
      cases right with
      | infinity other => cases canonicalRight
      | notANumber => cases canonicalRight
      | zero other => exact none _
      | finite other factor place positiveRight => exact none _
  | finite sign mantissa exponent positive =>
      cases right with
      | infinity other => cases canonicalRight
      | notANumber => cases canonicalRight
      | zero other =>
          rw [show exactValue (.zero other) = 0 from rfl, mul_zero]
          exact none _
      | finite other factor place positiveRight =>
          have rounds := roundWithAccuracy_roundsTo (sign * other)
            (Represents.exact (mantissa * factor))
            (product_enough positive positiveRight canonicalLeft.2.2 canonicalRight.2.2)
          have value : ((mantissa * factor : ℕ) : ℚ) * 2 ^ (exponent + place) =
              mantissa * 2 ^ exponent * (factor * 2 ^ place) := by
            rw [zpow_add₀ (by norm_num)]
            push_cast
            ring
          rw [value, ← signedValue_mul] at rounds
          exact rounds

/-- Conversion to an integer truncates the magnitude. -/
theorem roundToInt_eq (sign : Sign) (mantissa : ℕ) (exponent : ℤ) :
    roundToInt sign mantissa exponent = sign.apply ⌊(mantissa : ℚ) * 2 ^ exponent⌋₊ := by
  unfold roundToInt decreaseExponent shiftToExponent
  dsimp only
  rw [Nat.shiftLeft_eq]
  have represents := (Represents.exact (mantissa * 2 ^ (exponent - 0).toNat)).shiftRight
    (0 - (exponent - ((exponent - 0).toNat : ℤ))).toNat
  have same : ((mantissa * 2 ^ (exponent - 0).toNat : ℕ) : ℚ) /
      2 ^ (0 - (exponent - ((exponent - 0).toNat : ℤ))).toNat = mantissa * 2 ^ exponent := by
    push_cast
    rw [mul_div_assoc, ← zpow_natCast, ← zpow_natCast, ← zpow_sub₀ (by norm_num)]
    congr 2
    omega
  rw [same] at represents
  rw [(Nat.floor_eq_iff (by positivity)).mpr represents.bounds]

end TensorEngine.Numeric
