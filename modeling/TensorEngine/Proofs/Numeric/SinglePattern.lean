import TensorEngine.Proofs.Numeric.Binary32

/-!
Contract: single precision numbers by their bit patterns.

Owns:
- `unpack_ofBits`, that a number is what its pattern holds, and the pattern of a number;
- the number that a pattern denotes, by its sign and its place;
- the theorem that positive numbers are equal when they compare equal.

Does not own: the order and the operations of single precision.
-/

namespace TensorEngine.Numeric.Binary32

open Float.Model Float.Model.UnpackedFloat

theorem unpack_of_isNaNBits {pattern : BitVec Format.binary32.numBits}
    (noNumber : isNaNBits pattern = true) :
    UnpackedFloat.unpack Format.binary32 pattern = .notANumber := by
  obtain ⟨last, some⟩ := of_decide_eq_true noNumber
  unfold UnpackedFloat.unpack
  dsimp only
  rw [if_pos last, if_neg some]

theorem unpack_ofBits (pattern : UInt32) :
    (Float32.ofBits pattern).toModel.unpack =
      UnpackedFloat.unpack Format.binary32 pattern.toBitVec := by
  show UnpackedFloat.unpack Format.binary32
    (UnpackedFloat.pack Format.binary32
      (UnpackedFloat.unpack Format.binary32 pattern.toBitVec)) = _
  rw [pack_unpack]
  split
  · rename_i noNumber
    rw [unpack_packedNaN]
    exact (unpack_of_isNaNBits noNumber).symm
  · rfl

theorem toBits_ofBits {pattern : UInt32} (number : (Float32.ofBits pattern).isNaN = false) :
    (Float32.ofBits pattern).toBits = pattern := by
  change (Float32.ofBits pattern).toModel.unpack.isNaN = false at number
  rw [unpack_ofBits] at number
  apply UInt32.toBitVec_inj.mp
  show UnpackedFloat.pack Format.binary32
      (UnpackedFloat.unpack Format.binary32 pattern.toBitVec) = _
  rw [pack_unpack, if_neg]
  intro noNumber
  rw [unpack_of_isNaNBits noNumber] at number
  cases number

/-- Patterns beyond the one of infinity are not numbers. -/
theorem isNaN_ofBits (pattern : UInt32) :
    (Float32.ofBits pattern).isNaN = true ↔ 0x7f800000 < pattern.toNat % 2 ^ 31 := by
  show (Float32.ofBits pattern).toModel.unpack.isNaN = true ↔ _
  rw [unpack_ofBits]
  exact isNaN_unpack_iff

theorem isFinite_ofBits (pattern : UInt32) :
    (Float32.ofBits pattern).isFinite = true ↔ pattern.toNat % 2 ^ 31 < 0x7f800000 := by
  show (Float32.ofBits pattern).toModel.unpack.isFinite = true ↔ _
  rw [unpack_ofBits]
  exact isFinite_unpack_iff

def signOf (pattern : UInt32) : Sign := @patternSign Format.binary32 pattern.toBitVec

/-- A number has the magnitude of its place, infinity that of the place after the finite ones. -/
theorem value_ofBits {pattern : UInt32} (number : (Float32.ofBits pattern).isNaN = false) :
    value (Float32.ofBits pattern) =
      signedValue (signOf pattern) (magnitude 23 (-149) (pattern.toNat % 2 ^ 31)) := by
  have inside : pattern.toNat % 2 ^ 31 ≤ 0x7f800000 :=
    not_lt.mp fun beyond => by
      rw [(isNaN_ofBits pattern).mpr beyond] at number
      cases number
  unfold value
  rw [unpack_ofBits]
  rcases inside.lt_or_eq with finite | infinite
  · exact exactValue_unpack finite
  · rw [infinite, @unpack_infinity Format.binary32 pattern.toBitVec infinite]
    show signedValue _ overflowBound = _
    rw [show 0x7f800000 = (254 + 1) * 2 ^ 23 from rfl, magnitude_binade]
    norm_num [overflowBound, signOf]

/-- A positive number is its magnitude, and its place is its whole pattern. -/
theorem value_of_pos {x : Float32} (number : x.isNaN = false) (positive : 0 < value x) :
    value x = magnitude 23 (-149) x.toBits.toNat := by
  have short : x.toBits.toNat < 2 ^ 32 := x.toBits.toBitVec.isLt
  rw [← Float32.ofBits_toBits x] at number positive
  have denoted := value_ofBits number
  rw [denoted] at positive
  rw [Float32.ofBits_toBits] at denoted
  rw [denoted]
  unfold signOf patternSign at positive ⊢
  split at positive
  · have size := @magnitude_nonneg 23 (x.toBits.toNat % 2 ^ 31) (-149)
    change 0 < -magnitude 23 (-149) (x.toBits.toNat % 2 ^ 31) at positive
    linarith
  · rename_i clear
    rw [if_neg clear]
    change ¬ x.toBits.toNat / 2 ^ 31 = 1 at clear
    rw [Nat.mod_eq_of_lt (by omega)]
    rfl

/-- Positive numbers compare equal only if they are the same. -/
theorem beq_iff_eq_of_pos {x y : Float32} (number : x.isNaN = false) (numberRight : y.isNaN = false)
    (positive : 0 < value x) (positiveRight : 0 < value y) : (x == y) = true ↔ x = y := by
  have compared : (x == y) = true ↔ value x = value y := by
    show (x.toModel.unpack.compare y.toModel.unpack == some .eq) = true ↔ _
    rw [compare_eq (storable x) (storable y) number numberRight, beq_iff_eq, Option.some.injEq,
      compare_eq_iff_eq]
    rfl
  rw [compared]
  refine ⟨fun same => ?_, fun same => congrArg value same⟩
  rw [value_of_pos number positive, value_of_pos numberRight positiveRight] at same
  have bits := UInt32.toNat_inj.mp ((magnitude_strictMono 23 (-149)).injective same)
  rw [← Float32.ofBits_toBits x, bits, Float32.ofBits_toBits]

end TensorEngine.Numeric.Binary32
