import TensorEngine.Proofs.Numeric.Places

/-!
Contract: floats as bit patterns.

Owns:
- `Storable`, what a bit pattern can hold, and the theorem that every pattern holds such a float;
- `saturated`, a float as it is after it has been packed and unpacked;
- the order of storable floats.

Does not own: operations.
-/

namespace TensorEngine.Numeric

open Float.Model Float.Model.UnpackedFloat

/-! ## Packing -/

/-- A float that a pattern can hold: if it is finite, it has a full mantissa and lies in the
range. -/
def Storable (float : UnpackedFloat) : Prop :=
  float.isFinite = true → Canonical float ∧ |exactValue float| < overflowBound

/-- A canonical float lies in the range exactly when its exponent does. -/
theorem abs_exactValue_lt {sign : Sign} {mantissa : ℕ} {exponent : ℤ} {positive : 0 < mantissa}
    (canonical : Canonical (.finite sign mantissa exponent positive)) :
    |exactValue (.finite sign mantissa exponent positive)| < overflowBound ↔ exponent ≤ 104 := by
  obtain ⟨short, least, full⟩ := canonical
  have size : |exactValue (.finite sign mantissa exponent positive)| = mantissa * 2 ^ exponent := by
    show |signedValue sign _| = _
    rw [abs_signedValue, abs_of_nonneg (by positivity)]
  rw [size]
  unfold overflowBound
  constructor
  · intro below
    by_contra beyond
    have filled : (2 : ℚ) ^ 23 ≤ mantissa := by
      exact_mod_cast full.resolve_right (by omega)
    have grows : (2 : ℚ) ^ (105 : ℤ) ≤ 2 ^ exponent := zpow_le_zpow_right₀ (by norm_num) (by omega)
    have product : (2 : ℚ) ^ 23 * 2 ^ (105 : ℤ) ≤ mantissa * 2 ^ exponent :=
      mul_le_mul filled grows (by positivity) (by positivity)
    norm_num at product below
    linarith
  · intro inside
    have bits : (mantissa : ℚ) < 2 ^ 24 := by exact_mod_cast short
    have grows : (2 : ℚ) ^ exponent ≤ 2 ^ (104 : ℤ) := zpow_le_zpow_right₀ (by norm_num) inside
    calc (mantissa : ℚ) * 2 ^ exponent < 2 ^ 24 * 2 ^ exponent :=
          (mul_lt_mul_iff_left₀ (by positivity)).mpr bits
      _ ≤ 2 ^ 24 * 2 ^ (104 : ℤ) := mul_le_mul_of_nonneg_left grows (by norm_num)
      _ = 2 ^ 128 := by norm_num

def ofFields (sign : Sign) (exponent : BitVec 8) (fraction : BitVec 23) : UnpackedFloat :=
  if exponent = -1#8 then if fraction = 0#23 then .infinity sign else .notANumber
  else if exponent = 0#8 then
    if some : 0 < fraction.toNat then .finite sign fraction.toNat (-149) some else .zero sign
  else .finite sign (2 ^ 23 + fraction.toNat) (exponent.toNat - 150) (by omega)

theorem unpack_eq (pattern : BitVec 32) :
    UnpackedFloat.unpack Format.binary32 pattern =
      ofFields (Sign.ofBitVec (@unpackSign Format.binary32 pattern))
        (@unpackExponent Format.binary32 pattern)
        (@unpackMantissa Format.binary32 pattern) := by
  have implicit : ∀ fraction : BitVec 23, (1#1 ++ fraction).toNat = 2 ^ 23 + fraction.toNat := by
    intro fraction
    rw [BitVec.toNat_append, ← Nat.shiftLeft_add_eq_or_of_lt fraction.isLt]
    rfl
  unfold UnpackedFloat.unpack ofFields
  dsimp only
  split
  · rfl
  · split
    · rename_i first
      by_cases none : @unpackMantissa Format.binary32 pattern = 0#23
      · rw [dif_pos none, dif_neg (by rw [none]; decide)]
      · rw [dif_neg none, dif_pos (BitVec.toNat_pos_of_ne_zero none)]
        congr 1
        rw [first]
        rfl
    · congr 1
      exact implicit _

/-- The fields of a pattern as digits of its number. -/
theorem unpackExponent_toNat (pattern : BitVec 32) :
    (@unpackExponent Format.binary32 pattern).toNat = pattern.toNat % 2 ^ 31 / 2 ^ 23 :=
  @unpackExponent_eq Format.binary32 pattern

theorem unpackMantissa_toNat (pattern : BitVec 32) :
    (@unpackMantissa Format.binary32 pattern).toNat = pattern.toNat % 2 ^ 31 % 2 ^ 23 :=
  @unpackMantissa_eq Format.binary32 pattern

theorem unpackSign_eq (pattern : BitVec 32) :
    Sign.ofBitVec (@unpackSign Format.binary32 pattern) =
      if pattern.toNat / 2 ^ 31 = 1 then .negative else .positive :=
  @unpackSign_eq_patternSign Format.binary32 pattern

theorem storable_unpack (pattern : BitVec 32) :
    Storable (UnpackedFloat.unpack Format.binary32 pattern) := by
  rw [unpack_eq]
  generalize Sign.ofBitVec _ = sign
  generalize @unpackExponent Format.binary32 pattern = exponent
  generalize @unpackMantissa Format.binary32 pattern = fraction
  have short : fraction.toNat < 2 ^ 23 := fraction.isLt
  have small : exponent.toNat < 2 ^ 8 := exponent.isLt
  have canonical : ∀ {mantissa : ℕ} {exponent : ℤ} (positive : 0 < mantissa),
      mantissa < 2 ^ 24 → -149 ≤ exponent → (2 ^ 23 ≤ mantissa ∨ exponent = -149) →
      exponent ≤ 104 → Storable (.finite sign mantissa exponent positive) :=
    fun positive short least full inside _ =>
      ⟨⟨short, least, full⟩, (abs_exactValue_lt ⟨short, least, full⟩).mpr inside⟩
  unfold ofFields
  split
  · split <;> exact fun finite => (nomatch finite)
  · rename_i notLast
    have below : exponent.toNat ≠ 255 := fun last => notLast (BitVec.eq_of_toNat_eq last)
    split
    · split
      · exact canonical _ (by omega) le_rfl (.inr rfl) (by decide)
      · exact fun _ => ⟨trivial, by norm_num [exactValue, overflowBound]⟩
    · rename_i notFirst
      have above : exponent.toNat ≠ 0 := fun first => notFirst (BitVec.eq_of_toNat_eq first)
      exact canonical _ (by omega) (by omega) (.inl (by omega)) (by omega)

/-- A float after it has been packed and unpacked: beyond the range it is infinite. -/
def saturated : UnpackedFloat → UnpackedFloat
  | .finite sign mantissa exponent positive =>
      if 104 < exponent then .infinity sign else .finite sign mantissa exponent positive
  | .zero sign => .zero sign
  | .infinity sign => .infinity sign
  | .notANumber => .notANumber

/-- The value of a float beyond the range is the bound that stands for infinity. -/
theorem exactValue_saturated {float : UnpackedFloat} (canonical : Canonical float) :
    exactValue (saturated float) = saturate (exactValue float) := by
  cases float with
  | finite sign mantissa exponent positive =>
      have range := abs_exactValue_lt canonical
      by_cases inside : exponent ≤ 104
      · rw [saturate_eq_self (range.mpr inside).le, saturated, if_neg (by omega)]
      · have beyond : overflowBound ≤ (mantissa : ℚ) * 2 ^ exponent := by
          have large := not_lt.mp (mt range.mp inside)
          rwa [exactValue, abs_signedValue, abs_of_nonneg (by positivity)] at large
        have top : saturate ((mantissa : ℚ) * 2 ^ exponent) = overflowBound := by
          unfold saturate
          rw [min_eq_right beyond, max_eq_right (by norm_num [overflowBound])]
        rw [saturated, if_pos (by omega)]
        cases sign
        · exact (congrArg Neg.neg top.symm).trans (saturate_neg _).symm
        · exact top.symm
  | zero sign => exact (saturate_eq_self (by norm_num [saturated, exactValue, overflowBound])).symm
  | infinity sign => cases canonical
  | notANumber => cases canonical

theorem ofFields_eq (sign : Sign) (exponent : BitVec 8) (fraction : BitVec 23) :
    UnpackedFloat.unpack Format.binary32 (packComponents Format.binary32 sign exponent fraction) =
      ofFields sign exponent fraction := by
  have signed : @unpackSign Format.binary32
      (packComponents Format.binary32 sign exponent fraction) = sign.toBitVec := by
    change (sign.toBitVec ++ exponent ++ fraction).extractLsb' 31 1 = sign.toBitVec
    rw [BitVec.extractLsb'_append_eq_of_le (by decide),
      BitVec.extractLsb'_append_eq_of_le (by decide)]
    cases sign <;> rfl
  rw [unpack_eq, unpackExponent_packComponents, unpackMantissa_packComponents, signed]
  cases sign <;> rfl

/-- The leading bit of a full mantissa is not stored. -/
theorem ofFields_full (sign : Sign) {mantissa : ℕ} {exponent : ℤ} (positive : 0 < mantissa)
    (full : 2 ^ 23 ≤ mantissa) (short : mantissa < 2 ^ 24) (least : -149 ≤ exponent)
    (most : exponent ≤ 104) :
    ofFields sign (BitVec.ofNat 8 (exponent + 150).toNat) (BitVec.ofNat 23 mantissa) =
      .finite sign mantissa exponent positive := by
  have place : (BitVec.ofNat 8 (exponent + 150).toNat).toNat = (exponent + 150).toNat := by
    rw [BitVec.toNat_ofNat]
    omega
  have fraction : (BitVec.ofNat 23 mantissa).toNat = mantissa - 2 ^ 23 := by
    rw [BitVec.toNat_ofNat]
    omega
  have notFirst : BitVec.ofNat 8 (exponent + 150).toNat ≠ 0#8 := by
    intro first
    have none := congrArg BitVec.toNat first
    rw [place] at none
    change _ = 0 at none
    omega
  have notLast : BitVec.ofNat 8 (exponent + 150).toNat ≠ -1#8 := by
    intro last
    have all := congrArg BitVec.toNat last
    rw [place] at all
    change _ = 255 at all
    omega
  unfold ofFields
  rw [if_neg notLast, if_neg notFirst]
  congr 1
  · rw [fraction]
    omega
  · rw [place]
    omega

/-- The least exponent is stored as zero for a mantissa that is not full. -/
theorem ofFields_partial (sign : Sign) {mantissa : ℕ} (positive : 0 < mantissa)
    (few : mantissa < 2 ^ 23) :
    ofFields sign 0#8 (BitVec.ofNat 23 mantissa) = .finite sign mantissa (-149) positive := by
  have fraction : (BitVec.ofNat 23 mantissa).toNat = mantissa := by
    rw [BitVec.toNat_ofNat]
    omega
  unfold ofFields
  rw [if_neg (by decide), if_pos rfl, dif_pos (by rw [fraction]; exact positive)]
  congr 1

/-- A canonical float is packed and unpacked without loss, but beyond the range. -/
theorem unpack_pack {float : UnpackedFloat} (canonical : Canonical float) :
    UnpackedFloat.unpack Format.binary32 (UnpackedFloat.pack Format.binary32 float) =
      saturated float := by
  cases float with
  | zero sign => exact ofFields_eq sign 0 0
  | infinity sign => cases canonical
  | notANumber => cases canonical
  | finite sign mantissa exponent positive =>
      obtain ⟨short, least, full⟩ := canonical
      have biased : (exponent + (Format.binary32.exponentBias : ℕ) + (23 : ℕ)).toNat =
          (exponent + 150).toNat := by
        show (exponent + 127 + 23).toNat = _
        omega
      unfold UnpackedFloat.pack saturated
      dsimp only
      rw [biased]
      show UnpackedFloat.unpack Format.binary32 (if 256 ≤ (exponent + 150).toNat + 1 then _ else
        if mantissa.log2 + 1 = 24 then _ else _) = _
      by_cases beyond : 104 < exponent
      · rw [if_pos (by omega), if_pos beyond]
        exact ofFields_eq sign _ _
      · rw [if_neg (by omega), if_neg beyond]
        by_cases normal : 2 ^ 23 ≤ mantissa
        · have bits : mantissa.log2 + 1 = 24 := by
            rw [Nat.add_right_cancel_iff, Nat.log2_eq_iff positive.ne']
            exact ⟨normal, short⟩
          rw [if_pos bits]
          exact (ofFields_eq sign _ _).trans
            (ofFields_full sign positive normal short least (not_lt.mp beyond))
        · have bits : mantissa.log2 + 1 ≠ 24 := by
            have := (Nat.log2_lt positive.ne').mpr (not_le.mp normal)
            omega
          rw [if_neg bits]
          cases full.resolve_left normal
          exact (ofFields_eq sign _ _).trans (ofFields_partial sign positive (not_le.mp normal))

theorem unpack_pack_notANumber :
    UnpackedFloat.unpack Format.binary32 (UnpackedFloat.pack Format.binary32 .notANumber) =
      .notANumber :=
  ofFields_eq .positive _ _

theorem unpack_pack_infinity (sign : Sign) :
    UnpackedFloat.unpack Format.binary32 (UnpackedFloat.pack Format.binary32 (.infinity sign)) =
      .infinity sign :=
  ofFields_eq sign _ _

/-! ## Order -/

/-- Canonical magnitudes are ordered by exponent first. -/
theorem magnitude_lt {mantissa second : ℕ} {exponent place : ℤ} (short : mantissa < 2 ^ 24)
    (least : -149 ≤ exponent) (full : 2 ^ 23 ≤ second ∨ place = -149) (below : exponent < place) :
    (mantissa : ℚ) * 2 ^ exponent < second * 2 ^ place := by
  have bits : (mantissa : ℚ) < 2 ^ 24 := by exact_mod_cast short
  have filled : (2 : ℚ) ^ 23 ≤ second := by exact_mod_cast full.resolve_right (by omega)
  calc (mantissa : ℚ) * 2 ^ exponent < 2 ^ 24 * 2 ^ exponent :=
        (mul_lt_mul_iff_left₀ (by positivity)).mpr bits
    _ = 2 ^ 23 * 2 ^ (exponent + 1) := by
        rw [zpow_add₀ (by norm_num)]
        ring
    _ ≤ 2 ^ 23 * 2 ^ place :=
        mul_le_mul_of_nonneg_left (zpow_le_zpow_right₀ (by norm_num) below) (by norm_num)
    _ ≤ second * 2 ^ place := mul_le_mul_of_nonneg_right filled (by positivity)

theorem compare_magnitudes {sign other : Sign} {mantissa second : ℕ} {exponent place : ℤ}
    {positive : 0 < mantissa} {positiveSecond : 0 < second}
    (canonical : Canonical (.finite sign mantissa exponent positive))
    (canonicalSecond : Canonical (.finite other second place positiveSecond)) :
    (compare exponent place).then (compare mantissa second) =
      compare ((mantissa : ℚ) * 2 ^ exponent) (second * 2 ^ place) := by
  obtain ⟨short, least, full⟩ := canonical
  obtain ⟨shortSecond, leastSecond, fullSecond⟩ := canonicalSecond
  rcases lt_trichotomy exponent place with below | rfl | above
  · rw [Int.compare_eq_lt.mpr below,
      compare_lt_iff_lt.mpr (magnitude_lt short least fullSecond below)]
    rfl
  · have unit : (0 : ℚ) < 2 ^ exponent := by positivity
    rw [Int.compare_eq_eq.mpr rfl]
    show compare mantissa second = _
    rcases lt_trichotomy mantissa second with below | rfl | above
    · rw [Nat.compare_eq_lt.mpr below, compare_lt_iff_lt.mpr]
      exact (mul_lt_mul_iff_left₀ unit).mpr (by exact_mod_cast below)
    · rw [Nat.compare_eq_eq.mpr rfl, compare_eq_iff_eq.mpr rfl]
    · rw [Nat.compare_eq_gt.mpr above, compare_gt_iff_gt.mpr]
      exact (mul_lt_mul_iff_left₀ unit).mpr (by exact_mod_cast above)
  · rw [Int.compare_eq_gt.mpr above,
      compare_gt_iff_gt.mpr (magnitude_lt shortSecond leastSecond full above)]
    rfl

theorem some_lt_eq_compare {x y : ℚ} (below : x < y) : some .lt = some (compare x y) :=
  congrArg some (compare_lt_iff_lt.mpr below).symm

theorem some_gt_eq_compare {x y : ℚ} (above : y < x) : some .gt = some (compare x y) :=
  congrArg some (compare_gt_iff_gt.mpr above).symm

theorem some_eq_eq_compare (x : ℚ) : some .eq = some (compare x x) :=
  congrArg some (compare_eq_iff_eq.mpr rfl).symm

/-- Negation turns the order around. -/
theorem compare_neg_neg (x y : ℚ) : compare (-x) (-y) = (compare x y).swap := by
  rcases lt_trichotomy x y with below | rfl | above
  · rw [compare_lt_iff_lt.mpr below, compare_gt_iff_gt.mpr (neg_lt_neg below)]
    rfl
  · rw [compare_eq_iff_eq.mpr rfl, compare_eq_iff_eq.mpr rfl]
    rfl
  · rw [compare_gt_iff_gt.mpr above, compare_lt_iff_lt.mpr (neg_lt_neg above)]
    rfl

/-- Storable floats compare as their values do, unless one is not a number. -/
theorem compare_eq {left right : UnpackedFloat} (storable : Storable left)
    (storableRight : Storable right) (number : left.isNaN = false)
    (numberRight : right.isNaN = false) :
    left.compare right = some (compare (exactValue left) (exactValue right)) := by
  have bound : -overflowBound < overflowBound := by norm_num [overflowBound]
  have inside : ∀ {float : UnpackedFloat}, Storable float → float.isFinite = true →
      -overflowBound < exactValue float ∧ exactValue float < overflowBound :=
    fun storable finite => abs_lt.mp (storable finite).2
  have magnitude : ∀ {mantissa : ℕ} (exponent : ℤ), 0 < mantissa →
      (0 : ℚ) < mantissa * 2 ^ exponent := fun exponent positive =>
    mul_pos (by exact_mod_cast positive) (by positivity)
  cases left with
  | notANumber => cases number
  | infinity sign =>
      cases right with
      | notANumber => cases numberRight
      | infinity other =>
          cases sign <;> cases other
          · exact some_eq_eq_compare _
          · exact some_lt_eq_compare bound
          · exact some_gt_eq_compare bound
          · exact some_eq_eq_compare _
      | zero other =>
          have range := inside storableRight rfl
          cases sign
          · exact some_lt_eq_compare range.1
          · exact some_gt_eq_compare range.2
      | finite other second place positiveSecond =>
          have range := inside storableRight rfl
          cases sign
          · exact some_lt_eq_compare range.1
          · exact some_gt_eq_compare range.2
  | zero sign =>
      have range := inside storable rfl
      cases right with
      | notANumber => cases numberRight
      | infinity other =>
          cases other
          · exact some_gt_eq_compare range.1
          · exact some_lt_eq_compare range.2
      | zero other => exact some_eq_eq_compare 0
      | finite other second place positiveSecond =>
          cases other
          · exact some_gt_eq_compare (neg_neg_of_pos (magnitude place positiveSecond))
          · exact some_lt_eq_compare (magnitude place positiveSecond)
  | finite sign mantissa exponent positive =>
      have range := inside storable rfl
      have size := magnitude exponent positive
      cases right with
      | notANumber => cases numberRight
      | infinity other =>
          cases other
          · exact some_gt_eq_compare range.1
          · exact some_lt_eq_compare range.2
      | zero other =>
          cases sign
          · exact some_lt_eq_compare (neg_neg_of_pos size)
          · exact some_gt_eq_compare size
      | finite other second place positiveSecond =>
          have sizeSecond := magnitude place positiveSecond
          have magnitudes := compare_magnitudes (storable rfl).1 (storableRight rfl).1
          cases sign <;> cases other
          · show some (Ordering.swap _) = some (compare (-_) (-_))
            rw [magnitudes, ← compare_neg_neg]
          · exact some_lt_eq_compare ((neg_neg_of_pos size).trans sizeSecond)
          · exact some_gt_eq_compare ((neg_neg_of_pos sizeSecond).trans size)
          · exact congrArg some magnitudes

theorem lt_iff_exactValue {left right : UnpackedFloat} (storable : Storable left)
    (storableRight : Storable right) (number : left.isNaN = false)
    (numberRight : right.isNaN = false) :
    left.lt right = true ↔ exactValue left < exactValue right := by
  unfold UnpackedFloat.lt
  rw [compare_eq storable storableRight number numberRight, ← compare_lt_iff_lt]
  simp

theorem le_iff_exactValue {left right : UnpackedFloat} (storable : Storable left)
    (storableRight : Storable right) (number : left.isNaN = false)
    (numberRight : right.isNaN = false) :
    left.le right = true ↔ exactValue left ≤ exactValue right := by
  unfold UnpackedFloat.le
  rw [compare_eq storable storableRight number numberRight, ← compare_le_iff_le]
  cases compare (exactValue left) (exactValue right) <;> decide

end TensorEngine.Numeric
