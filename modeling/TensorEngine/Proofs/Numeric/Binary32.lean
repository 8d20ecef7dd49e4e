import TensorEngine.Numeric.Binary32
import TensorEngine.Proofs.Numeric.Packed

/-!
Contract: operations on single precision numbers as operations on the rational numbers that they
denote.

Owns:
- `value`, the number that is denoted, and the order by values;
- `IsNearest`, a result that is the nearest number of the format, for sums, quotients, products and
  integers;
- the theorems that rounding to an integral value and conversion to an integer do so exactly.

Does not own: quantization.
-/

namespace TensorEngine.Numeric.Binary32

open Float.Model Float.Model.UnpackedFloat

/-! ## Values -/

/-- The rational number that a single precision number denotes. Infinity counts as the bound of
the range, what is not a number as zero. -/
def value (x : Float32) : ℚ := exactValue x.toModel.unpack

theorem storable (x : Float32) : Storable x.toModel.unpack :=
  storable_unpack _

/-- The order of numbers is that of their values. -/
theorem lt_iff {x y : Float32} (number : x.isNaN = false) (numberRight : y.isNaN = false) :
    x < y ↔ value x < value y := by
  show decide (x.toModel < y.toModel) = true ↔ _
  rw [decide_eq_true_iff]
  exact lt_iff_exactValue (storable x) (storable y) number numberRight

theorem le_iff {x y : Float32} (number : x.isNaN = false) (numberRight : y.isNaN = false) :
    x ≤ y ↔ value x ≤ value y := by
  show decide (x.toModel ≤ y.toModel) = true ↔ _
  rw [decide_eq_true_iff]
  exact le_iff_exactValue (storable x) (storable y) number numberRight

/-- A finite number lies strictly within the range. -/
theorem isFinite_iff {x : Float32} :
    x.isFinite = true ↔ x.isNaN = false ∧ |value x| < overflowBound := by
  have range := storable x
  show x.toModel.unpack.isFinite = true ↔ x.toModel.unpack.isNaN = false ∧ |exactValue _| < _
  generalize x.toModel.unpack = float at range
  have bound : ¬ |overflowBound| < overflowBound := by norm_num [overflowBound]
  cases float with
  | notANumber =>
      exact ⟨fun finite => absurd finite Bool.false_ne_true,
        fun number => absurd number.1.symm Bool.false_ne_true⟩
  | infinity sign =>
      refine ⟨fun finite => absurd finite Bool.false_ne_true, fun number => absurd number.2 ?_⟩
      show ¬ |signedValue sign overflowBound| < overflowBound
      rw [abs_signedValue]
      exact bound
  | zero sign => exact ⟨fun finite => ⟨rfl, (range finite).2⟩, fun _ => rfl⟩
  | finite sign mantissa exponent positive =>
      exact ⟨fun finite => ⟨rfl, (range finite).2⟩, fun _ => rfl⟩

/-- A finite number has a full mantissa. -/
theorem canonical {x : Float32} (finite : x.isFinite = true) : Canonical x.toModel.unpack :=
  (storable x finite).1

/-- The values of the format are rounded to themselves. -/
theorem saturate_value (x : Float32) : saturate (value x) = value x := by
  have range := storable x
  refine saturate_eq_self ?_
  unfold value
  generalize x.toModel.unpack = float at range ⊢
  cases float with
  | notANumber => norm_num [exactValue, overflowBound]
  | infinity sign =>
      show |signedValue sign overflowBound| ≤ _
      rw [abs_signedValue]
      norm_num [overflowBound]
  | zero sign => norm_num [exactValue, overflowBound]
  | finite sign mantissa exponent positive => exact (range rfl).2.le

/-! ## Results that are the nearest number -/

/-- A number that is the nearest one of the format, infinite beyond the range. -/
structure IsNearest (x : Float32) (exact : ℚ) : Prop where
  number : x.isNaN = false
  value : value x = saturate (nearest exact)

namespace IsNearest

variable {x y : Float32} {exact greater : ℚ}

theorem ofRoundsTo {float : UnpackedFloat} (rounds : RoundsTo float exact) :
    IsNearest (.ofModel (.pack float)) exact := by
  have packed := unpack_pack rounds.canonical
  constructor
  · show (UnpackedFloat.unpack Format.binary32 (UnpackedFloat.pack Format.binary32 float)).isNaN = _
    rw [packed]
    have full := rounds.canonical
    cases float with
    | finite sign mantissa exponent positive =>
        show (if 104 < exponent then _ else _ : UnpackedFloat).isNaN = _
        split <;> rfl
    | zero sign => rfl
    | infinity sign => cases full
    | notANumber => cases full
  · rw [← rounds.value, ← exactValue_saturated rounds.canonical, ← packed]
    rfl

theorem mono (small : IsNearest x exact) (large : IsNearest y greater) (ordered : exact ≤ greater) :
    Binary32.value x ≤ Binary32.value y := by
  rw [small.value, large.value]
  exact saturate_mono (nearest_mono ordered)

/-- A number of the format within the range is met exactly. -/
theorem eq_of_nearest (isNearest : IsNearest x exact) (kept : nearest exact = exact)
    (inside : |exact| ≤ overflowBound) : Binary32.value x = exact := by
  rw [isNearest.value, kept, saturate_eq_self inside]

end IsNearest

/-- The sum of finite numbers is the number nearest to the sum. -/
theorem add_isNearest {x y : Float32} (finite : x.isFinite = true)
    (finiteRight : y.isFinite = true) : IsNearest (x + y) (value x + value y) :=
  .ofRoundsTo (add_roundsTo (canonical finite) (canonical finiteRight))

/-- The quotient of finite numbers is the number nearest to the quotient. -/
theorem div_isNearest {x y : Float32} (finite : x.isFinite = true)
    (finiteRight : y.isFinite = true) (divides : value y ≠ 0) :
    IsNearest (x / y) (value x / value y) :=
  .ofRoundsTo (div_roundsTo (canonical finite) (canonical finiteRight) divides)

/-- The product of finite numbers is the number nearest to the product. -/
theorem mul_isNearest {x y : Float32} (finite : x.isFinite = true)
    (finiteRight : y.isFinite = true) : IsNearest (x * y) (value x * value y) :=
  .ofRoundsTo (mul_roundsTo (canonical finite) (canonical finiteRight))

theorem neg_unpack (x : Float32) : (-x).toModel.unpack = x.toModel.unpack.neg := by
  have range := storable x
  show UnpackedFloat.unpack Format.binary32 (UnpackedFloat.pack Format.binary32
    x.toModel.unpack.neg) = _
  generalize x.toModel.unpack = float at range
  cases float with
  | notANumber => exact unpack_pack_notANumber
  | infinity sign => exact unpack_pack_infinity _
  | zero sign => exact @unpack_pack (.zero (-sign)) trivial
  | finite sign mantissa exponent positive =>
      have full := (range rfl).1
      have inside := (abs_exactValue_lt full).mp (range rfl).2
      refine (@unpack_pack (.finite (-sign) mantissa exponent positive) full).trans ?_
      exact if_neg (by omega)

@[simp]
theorem value_neg (x : Float32) : value (-x) = -value x := by
  unfold value
  rw [neg_unpack]
  cases x.toModel.unpack with
  | notANumber => exact neg_zero.symm
  | infinity sign => exact signedValue_neg sign _
  | zero sign => exact neg_zero.symm
  | finite sign mantissa exponent positive => exact signedValue_neg sign _

@[simp]
theorem isNaN_neg (x : Float32) : (-x).isNaN = x.isNaN := by
  show (-x).toModel.unpack.isNaN = x.toModel.unpack.isNaN
  rw [neg_unpack]
  cases x.toModel.unpack <;> rfl

/-! ## Integers -/

theorem ofNat_isNearest {k : ℕ} (short : k < 2 ^ 64) : IsNearest (ofNat k) k := by
  have rounds : IsNearest (ofNat k) ((k.toUInt64.toNat : ℤ) * 2 ^ (0 : ℤ)) :=
    .ofRoundsTo (normalize_roundsTo _ 0 .positive)
  rwa [Nat.toUInt64, UInt64.toNat_ofNat_of_lt' short, Int.cast_natCast, zpow_zero,
    mul_one] at rounds

theorem ofInt_isNearest {k : ℤ} (short : |k| < 2 ^ 64) : IsNearest (ofInt k) k := by
  rw [Int.abs_eq_natAbs] at short
  have positive := @ofNat_isNearest k.natAbs (by omega)
  unfold ofInt
  split
  · rename_i negative
    have size : (k.natAbs : ℚ) = -(k : ℚ) := by
      rw [← Int.cast_natCast, ← Int.cast_neg]
      exact congrArg Int.cast (by omega)
    refine ⟨(isNaN_neg _).trans positive.number, ?_⟩
    rw [value_neg, positive.value, size, nearest_neg, saturate_neg, neg_neg]
  · have size : (k.natAbs : ℚ) = (k : ℚ) := by
      rw [← Int.cast_natCast]
      exact congrArg Int.cast (by omega)
    rwa [size] at positive

theorem isFinite_ofInt {k : ℤ} (short : |k| < 2 ^ 64) : (ofInt k).isFinite = true := by
  have isNearest := ofInt_isNearest short
  obtain ⟨least, most⟩ := abs_lt.mp short
  have top : nearest (2 ^ 64) = 2 ^ 64 := @nearest_two_zpow 64 (by decide)
  have upper : nearest k ≤ 2 ^ 64 := by
    rw [← top]
    exact nearest_mono (by exact_mod_cast most.le)
  have lower : -2 ^ 64 ≤ nearest k := by
    rw [← top, ← nearest_neg]
    exact nearest_mono (by exact_mod_cast least.le)
  have inside : |nearest k| ≤ 2 ^ 64 := abs_le.mpr ⟨lower, upper⟩
  have small : (2 : ℚ) ^ 64 < overflowBound := by norm_num [overflowBound]
  refine isFinite_iff.mpr ⟨isNearest.number, ?_⟩
  rw [isNearest.value, saturate_eq_self (inside.trans small.le)]
  exact inside.trans_lt small

/-- Integers of at most 24 bits are numbers of the format. -/
theorem value_ofInt {k : ℤ} (short : |k| ≤ 2 ^ 24) : value (ofInt k) = k := by
  refine (ofInt_isNearest (by omega)).eq_of_nearest (nearest_intCast short) ?_
  have cast : |(k : ℚ)| ≤ 2 ^ 24 := by exact_mod_cast short
  exact cast.trans (by norm_num [overflowBound])

theorem value_ofNat {k : ℕ} (short : k ≤ 2 ^ 24) : value (ofNat k) = k := by
  have exact := @value_ofInt k (by rw [Int.abs_eq_natAbs]; omega)
  unfold ofInt at exact
  rwa [if_neg (by omega), Int.natAbs_natCast, Int.cast_natCast] at exact

/-! ## Operations that keep infinity -/

/-- An operation that gives the number nearest to a monotone function of its operand, and keeps
infinity as it is. -/
structure Saturating (operation : Float32 → Float32) (exact : ℚ → ℚ) : Prop where
  mono : Monotone exact
  finite : ∀ {x}, x.isFinite = true → IsNearest (operation x) (exact (value x))
  infinite : ∀ {x}, x.isNaN = false → x.isFinite = false →
    (operation x).isNaN = false ∧ value (operation x) = value x

namespace Saturating

variable {operation : Float32 → Float32} {exact : ℚ → ℚ} {x y : Float32}

theorem number (saturating : Saturating operation exact) (number : x.isNaN = false) :
    (operation x).isNaN = false := by
  by_cases finite : x.isFinite = true
  · exact (saturating.finite finite).number
  · exact (saturating.infinite number (Bool.eq_false_iff.mpr finite)).1

theorem value_mono (saturating : Saturating operation exact) (number : x.isNaN = false)
    (numberRight : y.isNaN = false) (ordered : value x ≤ value y) :
    value (operation x) ≤ value (operation y) := by
  have least := le_saturate (value (operation y))
  have most := saturate_le (value (operation x))
  rw [saturate_value] at least most
  by_cases finite : x.isFinite = true
  · by_cases finiteRight : y.isFinite = true
    · exact (saturating.finite finite).mono (saturating.finite finiteRight)
        (saturating.mono ordered)
    · have beyond := mt (fun inside => isFinite_iff.mpr ⟨numberRight, inside⟩) finiteRight
      have inside := abs_lt.mp (isFinite_iff.mp finite).2
      have top : overflowBound ≤ value y := by
        rcases le_abs.mp (not_lt.mp beyond) with above | below <;> linarith
      rw [(saturating.infinite numberRight (Bool.eq_false_iff.mpr finiteRight)).2]
      exact most.trans top
  · have beyond := mt (fun inside => isFinite_iff.mpr ⟨number, inside⟩) finite
    rw [(saturating.infinite number (Bool.eq_false_iff.mpr finite)).2]
    rcases le_abs.mp (not_lt.mp beyond) with above | below
    · by_cases finiteRight : y.isFinite = true
      · have inside := abs_lt.mp (isFinite_iff.mp finiteRight).2
        linarith
      · rwa [(saturating.infinite numberRight (Bool.eq_false_iff.mpr finiteRight)).2]
    · linarith

end Saturating

theorem exists_infinity {x : Float32} (number : x.isNaN = false) (infinite : x.isFinite = false) :
    ∃ sign, x.toModel.unpack = .infinity sign := by
  change x.toModel.unpack.isFinite = false at infinite
  change x.toModel.unpack.isNaN = false at number
  generalize x.toModel.unpack = float at number infinite
  cases float with
  | notANumber => cases number
  | zero sign => cases infinite
  | finite sign mantissa exponent positive => cases infinite
  | infinity sign => exact ⟨sign, rfl⟩

/-- A packed infinity denotes what infinity denotes. -/
theorem packed_infinity {x y : Float32} {sign : Sign} (infinite : x.toModel.unpack = .infinity sign)
    (packed : y.toModel = .pack (.infinity sign)) : y.isNaN = false ∧ value y = value x := by
  have same : y.toModel.unpack = .infinity sign := by
    rw [packed]
    exact unpack_pack_infinity sign
  refine ⟨?_, ?_⟩
  · show y.toModel.unpack.isNaN = false
    rw [same]
    rfl
  · unfold value
    rw [same, infinite]

theorem div_infinity (sign : Sign) {divisor : UnpackedFloat} (finite : divisor.isFinite = true)
    (positive : 0 < exactValue divisor) :
    UnpackedFloat.div Format.binary32 (.infinity sign) divisor = .infinity sign := by
  cases divisor with
  | notANumber => cases finite
  | infinity other => cases finite
  | zero other => exact absurd positive (lt_irrefl _)
  | finite other mantissa exponent some =>
      cases other with
      | negative =>
          have size : (0 : ℚ) ≤ mantissa * 2 ^ exponent := by positivity
          exact absurd positive (not_lt.mpr (neg_nonpos.mpr size))
      | positive => cases sign <;> rfl

theorem add_infinity (sign : Sign) {summand : UnpackedFloat} (finite : summand.isFinite = true) :
    UnpackedFloat.add Format.binary32 (.infinity sign) summand = .infinity sign := by
  cases summand with
  | notANumber => cases finite
  | infinity other => cases finite
  | zero other => rfl
  | finite other mantissa exponent positive => rfl

/-- Division by a positive finite number. -/
theorem saturating_div {y : Float32} (finite : y.isFinite = true) (positive : 0 < value y) :
    Saturating (· / y) (· / value y) where
  mono := fun _ _ ordered => div_le_div_of_nonneg_right ordered positive.le
  finite := fun finiteLeft => div_isNearest finiteLeft finite positive.ne'
  infinite := by
    intro x number infinite
    obtain ⟨sign, unpacked⟩ := exists_infinity number infinite
    refine packed_infinity unpacked ?_
    rw [← div_infinity sign finite positive, ← unpacked]
    rfl

/-- Addition of a finite number. -/
theorem saturating_add {y : Float32} (finite : y.isFinite = true) :
    Saturating (· + y) (· + value y) where
  mono := fun _ _ ordered => add_le_add_left ordered _
  finite := fun finiteLeft => add_isNearest finiteLeft finite
  infinite := by
    intro x number infinite
    obtain ⟨sign, unpacked⟩ := exists_infinity number infinite
    refine packed_infinity unpacked ?_
    rw [← add_infinity sign finite, ← unpacked]
    rfl

/-! ## Conversion to integers -/

theorem value_zero : value zero = 0 := rfl

theorem isNaN_zero : zero.isNaN = false := rfl

theorem unpack_of_isNaN {x : Float32} (noNumber : x.isNaN = true) :
    x.toModel.unpack = .notANumber := by
  change x.toModel.unpack.isNaN = true at noNumber
  generalize x.toModel.unpack = float at noNumber
  cases float with
  | notANumber => rfl
  | zero sign => cases noNumber
  | infinity sign => cases noNumber
  | finite sign mantissa exponent positive => cases noNumber

/-- A number is below zero when its value is negative. What is not a number is not. -/
theorem lt_zero_iff (x : Float32) : x < zero ↔ value x < 0 := by
  by_cases number : x.isNaN = true
  · have unpacked := unpack_of_isNaN number
    have unordered : ¬ x < zero := by
      intro below
      change decide (x.toModel < zero.toModel) = true at below
      rw [decide_eq_true_iff] at below
      change x.toModel.unpack.lt _ = true at below
      rw [unpacked] at below
      cases below
    unfold value
    rw [unpacked]
    exact iff_of_false unordered (lt_irrefl _)
  · rw [lt_iff (Bool.eq_false_iff.mpr number) isNaN_zero, value_zero]

/-- Conversion to a natural number truncates and saturates. -/
theorem toUInt64_eq (x : Float32) : x.toUInt64.toNat = min ⌊value x⌋₊ (2 ^ 64 - 1) := by
  have clamped : ∀ k : ℕ, (UInt64.ofNatClamp k).toNat = min k (2 ^ 64 - 1) := by
    intro k
    unfold UInt64.ofNatClamp
    split
    · rename_i short
      show k = _
      change k < 2 ^ 64 at short
      omega
    · rename_i long
      show 2 ^ 64 - 1 = _
      change ¬ k < 2 ^ 64 at long
      omega
  show (UInt64.ofNatClamp (x.toModel.unpack.toInt 0 (UInt64.size - 1)).toNat).toNat =
    min ⌊exactValue x.toModel.unpack⌋₊ _
  rw [clamped]
  cases x.toModel.unpack with
  | notANumber => rfl
  | zero sign => rfl
  | infinity sign =>
      cases sign with
      | negative =>
          have none : ⌊exactValue (.infinity .negative)⌋₊ = 0 :=
            Nat.floor_of_nonpos (by norm_num [exactValue, signedValue, overflowBound])
          rw [none]
          rfl
      | positive =>
          have top : ⌊exactValue (.infinity .positive)⌋₊ = 2 ^ 128 := by
            show ⌊overflowBound⌋₊ = _
            have whole : overflowBound = ((2 ^ 128 : ℕ) : ℚ) := by norm_num [overflowBound]
            rw [whole, Nat.floor_natCast]
          rw [top]
          rfl
  | finite sign mantissa exponent positive =>
      show min (roundToInt sign mantissa exponent).toNat _ = min ⌊signedValue sign _⌋₊ _
      rw [roundToInt_eq]
      cases sign with
      | negative =>
          have size : (0 : ℚ) ≤ mantissa * 2 ^ exponent := by positivity
          have none : ⌊signedValue .negative ((mantissa : ℚ) * 2 ^ exponent)⌋₊ = 0 :=
            Nat.floor_of_nonpos (neg_nonpos.mpr size)
          rw [none]
          show min (-((_ : ℕ) : ℤ)).toNat _ = _
          omega
      | positive => rfl

/-- Conversion to a 32-bit integer truncates and saturates. -/
theorem toInt32_eq (x : Float32) :
    (toInt32 x).toInt =
      if value x < 0 then -((min ⌊-value x⌋₊ (2 ^ 31) : ℕ) : ℤ)
      else (min ⌊value x⌋₊ (2 ^ 31 - 1) : ℕ) := by
  unfold toInt32
  by_cases negative : value x < 0
  · rw [if_pos ((lt_zero_iff x).mpr negative), if_pos negative, toUInt64_eq, value_neg,
      Int32.toInt_ofInt_of_le (by omega) (by omega)]
    omega
  · rw [if_neg (mt (lt_zero_iff x).mp negative), if_neg negative, toUInt64_eq,
      Int32.toInt_ofInt_of_le (by omega) (by omega)]
    omega

theorem toInt32_mono {x y : Float32} (ordered : value x ≤ value y) :
    (toInt32 x).toInt ≤ (toInt32 y).toInt := by
  have upper := Nat.floor_mono ordered
  have lower := Nat.floor_mono (neg_le_neg ordered)
  rw [toInt32_eq, toInt32_eq]
  by_cases negative : value y < 0
  · rw [if_pos (ordered.trans_lt negative), if_pos negative]
    omega
  · rw [if_neg negative]
    split <;> omega

theorem toInt32_of_value {x : Float32} {k : ℤ} (integral : value x = k) (least : -2 ^ 31 ≤ k)
    (most : k < 2 ^ 31) : (toInt32 x).toInt = k := by
  rw [toInt32_eq, integral]
  by_cases negative : k < 0
  · have size : -(k : ℚ) = ((-k).toNat : ℕ) := by
      rw [← Int.cast_natCast, Int.toNat_of_nonneg (by omega), Int.cast_neg]
    rw [if_pos (by exact_mod_cast negative), size, Nat.floor_natCast]
    omega
  · have size : (k : ℚ) = (k.toNat : ℕ) := by
      rw [← Int.cast_natCast, Int.toNat_of_nonneg (by omega)]
    rw [if_neg (by exact_mod_cast negative), size, Nat.floor_natCast]
    omega

/-! ## Rounding to an integral value -/

theorem shiftRoundEven_le (significand shift : ℕ) :
    shiftRoundEven significand shift ≤ significand + 1 := by
  have near := two_mul_shiftRoundEven_le significand shift
  have unit := Nat.two_pow_pos shift
  by_contra beyond
  have large := Nat.mul_le_mul_right (2 ^ shift) (not_le.mp beyond)
  have grows := Nat.le_mul_of_pos_right significand unit
  rw [Nat.succ_mul, Nat.add_mul] at large
  omega

theorem halfEven_signedValue (sign : Sign) (magnitude : ℚ) :
    (halfEven (signedValue sign magnitude) : ℚ) = signedValue sign (halfEven magnitude) := by
  cases sign with
  | negative =>
      show (halfEven (-magnitude) : ℚ) = -_
      rw [halfEven_neg, Int.cast_neg]
  | positive => rfl

/-- The fields of a pattern below the first integral exponent. -/
theorem exactValue_ofFields (sign : Sign) {exponent : BitVec 8} (fraction : BitVec 23)
    (small : exponent.toNat < 150) :
    exactValue (ofFields sign exponent fraction) =
      signedValue sign (((if exponent.toNat = 0 then fraction.toNat
        else fraction.toNat + 2 ^ 23 : ℕ) : ℚ) / 2 ^ (150 - max exponent.toNat 1)) := by
  have notLast : exponent ≠ -1#8 := by
    rintro rfl
    exact absurd small (by decide)
  unfold ofFields
  rw [if_neg notLast]
  by_cases first : exponent = 0#8
  · have none : exponent.toNat = 0 := congrArg BitVec.toNat first
    rw [if_pos first, if_pos none, none]
    split
    · show signedValue sign (_ * 2 ^ (-149 : ℤ)) = _
      rw [zpow_neg, ← div_eq_mul_inv]
      rfl
    · rename_i empty
      rw [Nat.eq_zero_of_not_pos empty, Nat.cast_zero, zero_div, signedValue_zero]
      rfl
  · have some : exponent.toNat ≠ 0 := fun none => first (BitVec.eq_of_toNat_eq none)
    rw [if_neg first, if_neg some, max_eq_left (by omega)]
    show signedValue sign (_ * 2 ^ ((exponent.toNat : ℤ) - 150)) = _
    have place : (exponent.toNat : ℤ) - 150 = -((150 - exponent.toNat : ℕ) : ℤ) := by omega
    rw [place, zpow_neg, zpow_natCast, ← div_eq_mul_inv, Nat.add_comm]

/-- From the first integral exponent on, values are integers. -/
theorem exists_integer (sign : Sign) {exponent : BitVec 8} (fraction : BitVec 23)
    (large : 150 ≤ exponent.toNat) :
    ∃ k : ℤ, exactValue (ofFields sign exponent fraction) = k := by
  have signed : ∀ k : ℕ, ∃ whole : ℤ, signedValue sign k = whole := by
    intro k
    cases sign with
    | negative => exact ⟨-k, by simp [signedValue]⟩
    | positive => exact ⟨k, by simp [signedValue]⟩
  unfold ofFields
  split
  · split
    · obtain ⟨whole, same⟩ := signed (2 ^ 128)
      refine ⟨whole, ?_⟩
      rw [← same]
      norm_num [exactValue, overflowBound]
    · exact ⟨0, rfl⟩
  · rw [if_neg (by rintro rfl; exact absurd large (by decide))]
    obtain ⟨whole, same⟩ := signed ((2 ^ 23 + fraction.toNat) * 2 ^ (exponent.toNat - 150))
    refine ⟨whole, ?_⟩
    have place : (exponent.toNat : ℤ) - 150 = ((exponent.toNat - 150 : ℕ) : ℤ) := by omega
    rw [← same]
    show signedValue sign (_ * 2 ^ ((exponent.toNat : ℤ) - 150)) = _
    rw [place, zpow_natCast]
    push_cast
    rfl

/-- Rounding to an integral value gives the nearest integer, and a number only of a number. -/
theorem roundEven_spec (x : Float32) :
    value (roundEven x) = halfEven (value x) ∧ (x.isNaN = false → (roundEven x).isNaN = false) := by
  have exponentField := unpackExponent_toNat x.toBits.toBitVec
  have mantissaField := unpackMantissa_toNat x.toBits.toBitVec
  have signField := unpackSign_eq x.toBits.toBitVec
  have fields : value x = exactValue (ofFields _ _ _) :=
    congrArg exactValue (unpack_eq x.toBits.toBitVec)
  change _ = x.toBits.toNat % 2 ^ 31 / 2 ^ 23 at exponentField
  change _ = x.toBits.toNat % 2 ^ 31 % 2 ^ 23 at mantissaField
  change _ = (if x.toBits.toNat / 2 ^ 31 = 1 then Sign.negative else .positive) at signField
  unfold roundEven
  extract_lets magnitude exponent significand rounded
  by_cases large : 150 ≤ exponent
  · rw [if_pos large]
    obtain ⟨k, integral⟩ := exists_integer
      (Sign.ofBitVec (@unpackSign Format.binary32 x.toBits.toBitVec))
      (@unpackMantissa Format.binary32 x.toBits.toBitVec) (exponentField.ge.trans' large)
    rw [fields, integral, halfEven_intCast]
    exact ⟨rfl, id⟩
  · rw [if_neg large]
    have shifted := exactValue_ofFields
      (Sign.ofBitVec (@unpackSign Format.binary32 x.toBits.toBitVec))
      (@unpackMantissa Format.binary32 x.toBits.toBitVec)
      (exponentField.trans_lt (not_le.mp large))
    rw [exponentField, mantissaField] at shifted
    -- without the implicit bit the fraction is the whole magnitude
    have digits : magnitude / 2 ^ 23 = exponent := rfl
    have same : (if exponent = 0 then magnitude % 2 ^ 23 else magnitude % 2 ^ 23 + 2 ^ 23) =
        significand := by
      show _ = if exponent = 0 then magnitude else _
      split <;> omega
    change _ = signedValue _ (((if exponent = 0 then magnitude % 2 ^ 23
      else magnitude % 2 ^ 23 + 2 ^ 23 : ℕ) : ℚ) / 2 ^ (150 - max exponent 1)) at shifted
    rw [same] at shifted
    have short : significand < 2 ^ 24 := by
      rw [← same]
      split <;> omega
    have bounded := shiftRoundEven_le significand (150 - max exponent 1)
    have integral := @ofNat_isNearest (shiftRoundEven significand (150 - max exponent 1)) (by omega)
    have exact := @value_ofNat (shiftRoundEven significand (150 - max exponent 1)) (by omega)
    rw [fields, shifted, halfEven_signedValue, halfEven_shift, signField, Int.cast_natCast,
      ← exact]
    split
    · exact ⟨value_neg _, fun _ => (isNaN_neg _).trans integral.number⟩
    · exact ⟨rfl, fun _ => integral.number⟩

/-! ## What is not a number -/

/-- A packed result that is not a number. -/
theorem isNaN_of_pack {x : Float32} (packed : x.toModel = .pack .notANumber) : x.isNaN = true := by
  show x.toModel.unpack.isNaN = true
  rw [packed]
  show (UnpackedFloat.unpack Format.binary32 (UnpackedFloat.pack Format.binary32
    .notANumber)).isNaN = true
  rw [unpack_pack_notANumber]
  rfl

theorem isNaN_div {x : Float32} (noNumber : x.isNaN = true) (y : Float32) :
    (x / y).isNaN = true := by
  refine isNaN_of_pack ?_
  show Float32.Model.pack (UnpackedFloat.div Format.binary32 x.toModel.unpack y.toModel.unpack) = _
  rw [unpack_of_isNaN noNumber]
  cases y.toModel.unpack <;> rfl

theorem isNaN_add {x : Float32} (noNumber : x.isNaN = true) (y : Float32) :
    (x + y).isNaN = true := by
  refine isNaN_of_pack ?_
  show Float32.Model.pack (UnpackedFloat.add Format.binary32 x.toModel.unpack y.toModel.unpack) = _
  rw [unpack_of_isNaN noNumber]
  cases y.toModel.unpack <;> rfl

theorem roundEven_of_isNaN {x : Float32} (noNumber : x.isNaN = true) : roundEven x = x := by
  have exponentField := unpackExponent_toNat x.toBits.toBitVec
  have fields := unpack_eq x.toBits.toBitVec
  change x.toModel.unpack = _ at fields
  rw [unpack_of_isNaN noNumber] at fields
  change _ = x.toBits.toNat % 2 ^ 31 / 2 ^ 23 at exponentField
  -- only the last exponent has patterns of what is not a number
  have last : @unpackExponent Format.binary32 x.toBits.toBitVec = -1#8 := by
    by_contra other
    unfold ofFields at fields
    rw [if_neg other] at fields
    split at fields
    · split at fields <;> cases fields
    · cases fields
  rw [last] at exponentField
  unfold roundEven
  exact if_pos (exponentField ▸ by decide)

end TensorEngine.Numeric.Binary32
