import TensorEngine.Proofs.Numeric.Unpacked

/-!
Contract: the numbers of a binary floating point format in the order of their bit patterns.

Owns:
- `magnitude`, the number at a place of a format, where a place is a pattern without its sign; it
  grows by `gap` from each place to the next one;
- `unpack_eq_ofPlace`, which reads a pattern of any format by its sign and its place, and from it
  the numbers that patterns denote.

Does not own: the operations of a format, or patterns of one format in particular.
-/

namespace TensorEngine.Numeric

open Float.Model Float.Model.UnpackedFloat

/-! ## Magnitudes -/

/-- The distance from a place of a format to the next one. -/
def gap (width : ℕ) (least : ℤ) (place : ℕ) : ℚ :=
  2 ^ (least + (place / 2 ^ width - 1 : ℕ))

/-- The number at a place of a format, in units of its distance to the next one. -/
def digits (width place : ℕ) : ℕ :=
  if place / 2 ^ width = 0 then place % 2 ^ width else 2 ^ width + place % 2 ^ width

def magnitude (width : ℕ) (least : ℤ) (place : ℕ) : ℚ :=
  digits width place * gap width least place

section Places

variable {width place : ℕ} {least : ℤ}

theorem gap_pos : 0 < gap width least place := by
  unfold gap
  positivity

@[simp] theorem magnitude_zero : magnitude width least 0 = 0 := by
  simp [magnitude, digits]

theorem magnitude_succ (width : ℕ) (least : ℤ) (place : ℕ) :
    magnitude width least (place + 1) = magnitude width least place + gap width least place := by
  have unit : 0 < 2 ^ width := Nat.two_pow_pos width
  have whole := Nat.div_add_mod place (2 ^ width)
  have short := Nat.mod_lt place unit
  have next : ∀ exponent fraction, fraction + 2 ^ width * exponent = place + 1 →
      fraction < 2 ^ width →
      (place + 1) / 2 ^ width = exponent ∧ (place + 1) % 2 ^ width = fraction :=
    fun _ _ same inside => (Nat.div_mod_unique unit).mpr ⟨same, inside⟩
  rcases Nat.lt_or_ge (place % 2 ^ width + 1) (2 ^ width) with inside | carry
  · obtain ⟨exponent, fraction⟩ := next (place / 2 ^ width) _ (by omega) inside
    unfold magnitude gap digits
    rw [exponent, fraction]
    split <;> push_cast <;> ring
  · obtain ⟨exponent, fraction⟩ :=
      next (place / 2 ^ width + 1) 0 (by rw [Nat.mul_succ]; omega) unit
    have full : ((place % 2 ^ width : ℕ) : ℚ) = 2 ^ width - 1 := by
      rw [eq_sub_iff_add_eq]
      exact_mod_cast (by omega : place % 2 ^ width + 1 = 2 ^ width)
    unfold magnitude gap digits
    rw [exponent, fraction, if_neg (Nat.succ_ne_zero _), Nat.add_sub_cancel]
    split
    · rename_i first
      rw [first]
      push_cast
      rw [full]
      ring
    · rename_i later
      obtain ⟨earlier, same⟩ := Nat.exists_eq_succ_of_ne_zero later
      rw [same, Nat.succ_sub_one, Nat.cast_succ, ← add_assoc, zpow_add_one₀ (by norm_num)]
      push_cast
      rw [full]
      ring

theorem magnitude_strictMono (width : ℕ) (least : ℤ) : StrictMono (magnitude width least) :=
  strictMono_nat_of_lt_succ fun place => by
    rw [magnitude_succ]
    exact lt_add_of_pos_right _ gap_pos

/-- Below the first power of two, places are multiples of the least number. -/
theorem magnitude_subnormal (few : place < 2 ^ width) :
    magnitude width least place = place * 2 ^ least := by
  have quotient : place / 2 ^ width = 0 := Nat.div_eq_of_lt few
  rw [magnitude, digits, gap, quotient, if_pos rfl, Nat.mod_eq_of_lt few, Nat.zero_sub,
    Nat.cast_zero, add_zero]

/-- From there on, the leading digit is left out of the fraction. -/
theorem magnitude_normal (exponent : ℕ) {fraction : ℕ} (short : fraction < 2 ^ width) :
    magnitude width least ((exponent + 1) * 2 ^ width + fraction) =
      (2 ^ width + fraction) * 2 ^ (least + exponent) := by
  have whole : fraction + 2 ^ width * (exponent + 1) = (exponent + 1) * 2 ^ width + fraction := by
    ring
  obtain ⟨quotient, rest⟩ :=
    (Nat.div_mod_unique (Nat.two_pow_pos width)).mpr ⟨whole, short⟩
  rw [magnitude, digits, gap, quotient, rest, if_neg (Nat.succ_ne_zero _), Nat.add_sub_cancel,
    Nat.cast_add, Nat.cast_pow, Nat.cast_two]

/-- The first number of each exponent is a power of two. -/
theorem magnitude_binade (exponent : ℕ) :
    magnitude width least ((exponent + 1) * 2 ^ width) = 2 ^ (least + (width + exponent : ℕ)) := by
  have first := @magnitude_normal width least exponent 0 (Nat.two_pow_pos width)
  rw [Nat.add_zero, Nat.cast_zero, add_zero, ← zpow_natCast, ← zpow_add₀ two_ne_zero] at first
  rw [first]
  congr 1
  push_cast
  ring

theorem magnitude_nonneg : 0 ≤ magnitude width least place := by
  unfold magnitude gap
  positivity

end Places

/-! ## Patterns -/

section Patterns

variable {format : Format}

def patternPlace (pattern : BitVec format.numBits) : ℕ :=
  pattern.toNat % 2 ^ (format.mantissaBitsWithoutImplicit + format.exponentBits)

def patternSign (pattern : BitVec format.numBits) : Sign :=
  if pattern.toNat / 2 ^ (format.mantissaBitsWithoutImplicit + format.exponentBits) = 1 then
    .negative
  else .positive

def infinityPlace (format : Format) : ℕ :=
  (2 ^ format.exponentBits - 1) * 2 ^ format.mantissaBitsWithoutImplicit

/-- The exponent of the last place of the least numbers. -/
def leastExponent (format : Format) : ℤ :=
  1 - (format.exponentBias + format.mantissaBitsWithoutImplicit : ℕ)

theorem unpackExponent_eq (pattern : BitVec format.numBits) :
    (unpackExponent pattern).toNat =
      patternPlace pattern / 2 ^ format.mantissaBitsWithoutImplicit := by
  rw [unpackExponent_def, BitVec.extractLsb'_toNat, Nat.shiftRight_eq_div_pow]
  unfold patternPlace
  rw [pow_add, Nat.mod_mul_right_div_self]

theorem unpackMantissa_eq (pattern : BitVec format.numBits) :
    (unpackMantissa pattern).toNat =
      patternPlace pattern % 2 ^ format.mantissaBitsWithoutImplicit := by
  rw [unpackMantissa_def, BitVec.extractLsb'_toNat, Nat.shiftRight_zero]
  unfold patternPlace
  rw [pow_add, Nat.mod_mul_right_mod]

theorem unpackSign_eq_patternSign (pattern : BitVec format.numBits) :
    Sign.ofBitVec (unpackSign pattern) = patternSign pattern := by
  have digit : (unpackSign pattern).toNat =
      pattern.toNat / 2 ^ (format.mantissaBitsWithoutImplicit + format.exponentBits) := by
    rw [unpackSign_def, BitVec.extractLsb'_toNat, Nat.shiftRight_eq_div_pow]
    refine Nat.mod_eq_of_lt ((Nat.div_lt_iff_lt_mul (Nat.two_pow_pos _)).mpr ?_)
    have short := pattern.isLt
    unfold Format.numBits at short
    rw [← pow_add]
    convert short using 2
    omega
  unfold Sign.ofBitVec patternSign
  rw [← digit]
  generalize unpackSign pattern = sign
  by_cases clear : sign = 0#1
  · rw [if_pos clear, clear]
    rfl
  · have set : sign.toNat = 1 := by
      have short := sign.isLt
      have some : sign.toNat ≠ 0 := fun none => clear (BitVec.eq_of_toNat_eq none)
      omega
    rw [if_neg clear, if_pos set]

def ofPlace (format : Format) (sign : Sign) (place : ℕ) : UnpackedFloat :=
  if infinityPlace format < place then .notANumber
  else if place = infinityPlace format then .infinity sign
  else if positive : 0 < digits format.mantissaBitsWithoutImplicit place then
    .finite sign (digits format.mantissaBitsWithoutImplicit place)
      (leastExponent format + (place / 2 ^ format.mantissaBitsWithoutImplicit - 1 : ℕ)) positive
  else .zero sign

theorem unpack_eq_ofPlace (pattern : BitVec format.numBits) :
    UnpackedFloat.unpack format pattern =
      ofPlace format (patternSign pattern) (patternPlace pattern) := by
  have exponent := unpackExponent_eq pattern
  have mantissa := unpackMantissa_eq pattern
  have short := (unpackExponent pattern).isLt
  have last : unpackExponent pattern = -BitVec.ofNat format.exponentBits 1 ↔
      patternPlace pattern / 2 ^ format.mantissaBitsWithoutImplicit =
        2 ^ format.exponentBits - 1 := by
    rw [← BitVec.toNat_inj, exponent, BitVec.neg_one_eq_allOnes, BitVec.toNat_allOnes]
  have first : unpackExponent pattern = BitVec.ofNat format.exponentBits 0 ↔
      patternPlace pattern / 2 ^ format.mantissaBitsWithoutImplicit = 0 := by
    rw [← BitVec.toNat_inj, exponent, BitVec.toNat_ofNat, Nat.zero_mod]
  have none : unpackMantissa pattern = BitVec.ofNat format.mantissaBitsWithoutImplicit 0 ↔
      patternPlace pattern % 2 ^ format.mantissaBitsWithoutImplicit = 0 := by
    rw [← BitVec.toNat_inj, mantissa, BitVec.toNat_ofNat, Nat.zero_mod]
  have implicit : (1#1 ++ unpackMantissa pattern).toNat =
      2 ^ format.mantissaBitsWithoutImplicit +
        patternPlace pattern % 2 ^ format.mantissaBitsWithoutImplicit := by
    rw [BitVec.toNat_append, ← Nat.shiftLeft_add_eq_or_of_lt (unpackMantissa pattern).isLt,
      mantissa, Nat.shiftLeft_eq]
    simp
  have unit := Nat.two_pow_pos format.mantissaBitsWithoutImplicit
  have whole := Nat.div_add_mod' (patternPlace pattern) (2 ^ format.mantissaBitsWithoutImplicit)
  have bias : leastExponent format =
      1 - (format.exponentBias + format.mantissaBitsWithoutImplicit : ℤ) := by
    unfold leastExponent
    push_cast
    rfl
  rw [exponent] at short
  unfold UnpackedFloat.unpack ofPlace infinityPlace
  dsimp only
  rw [unpackSign_eq_patternSign]
  by_cases isLast : unpackExponent pattern = -BitVec.ofNat format.exponentBits 1
  · have top := last.mp isLast
    rw [top] at whole
    rw [if_pos isLast]
    by_cases isNone : unpackMantissa pattern = BitVec.ofNat format.mantissaBitsWithoutImplicit 0
    · rw [none.mp isNone, Nat.add_zero] at whole
      rw [if_pos isNone, if_neg (by omega), if_pos whole.symm]
    · have some := Nat.pos_of_ne_zero (mt none.mpr isNone)
      rw [if_neg isNone, if_pos (by omega)]
  · have below : patternPlace pattern <
        (2 ^ format.exponentBits - 1) * 2 ^ format.mantissaBitsWithoutImplicit := by
      rw [← Nat.div_lt_iff_lt_mul unit]
      have other := mt last.mpr isLast
      omega
    rw [if_neg isLast, if_neg below.not_gt, if_neg below.ne]
    by_cases isFirst : unpackExponent pattern = BitVec.ofNat format.exponentBits 0
    · rw [if_pos isFirst]
      have zero := first.mp isFirst
      by_cases isNone : unpackMantissa pattern = BitVec.ofNat format.mantissaBitsWithoutImplicit 0
      · rw [dif_pos isNone, dif_neg]
        rw [digits, if_pos zero, none.mp isNone]
        exact Nat.lt_irrefl 0
      · have some := Nat.pos_of_ne_zero (mt none.mpr isNone)
        rw [dif_neg isNone, dif_pos (by rwa [digits, if_pos zero])]
        congr 1
        · rw [digits, if_pos zero, mantissa]
        · rw [exponent, zero, bias]
          push_cast
          ring
    · have later := mt first.mpr isFirst
      rw [if_neg isFirst, dif_pos (by rw [digits, if_neg later]; omega)]
      congr 1
      · rw [digits, if_neg later, implicit]
      · rw [exponent, bias, Nat.cast_sub (by omega)]
        push_cast
        ring

/-- What is not a number lies beyond the place of infinity. -/
theorem isNaN_unpack_iff {pattern : BitVec format.numBits} :
    (UnpackedFloat.unpack format pattern).isNaN = true ↔
      infinityPlace format < patternPlace pattern := by
  rw [unpack_eq_ofPlace]
  unfold ofPlace
  split
  · rename_i beyond
    exact iff_of_true rfl beyond
  · rename_i inside
    refine iff_of_false ?_ inside
    split
    · exact Bool.false_ne_true
    · split <;> exact Bool.false_ne_true

theorem isFinite_unpack_iff {pattern : BitVec format.numBits} :
    (UnpackedFloat.unpack format pattern).isFinite = true ↔
      patternPlace pattern < infinityPlace format := by
  rw [unpack_eq_ofPlace]
  unfold ofPlace
  split
  · rename_i beyond
    exact iff_of_false Bool.false_ne_true beyond.not_gt
  · split
    · rename_i same
      exact iff_of_false Bool.false_ne_true same.not_lt
    · have below : patternPlace pattern < infinityPlace format := by omega
      split <;> exact iff_of_true rfl below

/-- A finite pattern denotes the number at its place, with its sign. -/
theorem exactValue_unpack {pattern : BitVec format.numBits}
    (finite : patternPlace pattern < infinityPlace format) :
    exactValue (UnpackedFloat.unpack format pattern) = signedValue (patternSign pattern)
      (magnitude format.mantissaBitsWithoutImplicit (leastExponent format)
        (patternPlace pattern)) := by
  rw [unpack_eq_ofPlace]
  unfold ofPlace magnitude gap
  rw [if_neg finite.not_gt, if_neg finite.ne]
  split
  · rfl
  · rename_i none
    rw [Nat.eq_zero_of_not_pos none, Nat.cast_zero, zero_mul, signedValue_zero]
    rfl

theorem unpack_infinity {pattern : BitVec format.numBits}
    (infinite : patternPlace pattern = infinityPlace format) :
    UnpackedFloat.unpack format pattern = .infinity (patternSign pattern) := by
  rw [unpack_eq_ofPlace]
  unfold ofPlace
  rw [if_neg (by omega), if_pos infinite]

end Patterns

end TensorEngine.Numeric
