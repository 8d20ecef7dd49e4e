import TensorEngine.Numeric.RoundEven

/-!
Contract: the scalar operations on binary32 numbers that the kernels use beside the four
arithmetic operations.

Owns:
- conversion from and to integers, with saturation;
- rounding to an integral value with ties to even;
- the maximum and minimum that prefer an operand that is a number.

Does not own: the arithmetic operations and comparisons themselves.
-/

namespace TensorEngine.Numeric.Binary32

def zero : Float32 := Float32.ofBits 0x00000000

def one : Float32 := Float32.ofBits 0x3f800000

def infinity : Float32 := Float32.ofBits 0x7f800000

def negativeInfinity : Float32 := Float32.ofBits 0xff800000

/-- The number nearest to a natural number below `2 ^ 64`. -/
def ofNat (value : Nat) : Float32 :=
  value.toUInt64.toFloat32

/-- The number nearest to an integer of magnitude below `2 ^ 64`. -/
def ofInt (value : Int) : Float32 :=
  if value < 0 then -(ofNat value.natAbs) else ofNat value.natAbs

/-- Truncates toward zero, saturating at the bounds of a 32-bit integer; no number becomes zero. -/
def toInt32 (value : Float32) : Int32 :=
  if value < zero then Int32.ofInt (-(min (-value).toUInt64.toNat (2 ^ 31) : Nat))
  else Int32.ofInt (min value.toUInt64.toNat (2 ^ 31 - 1) : Nat)

/-- The larger operand; an operand that is not a number is ignored. -/
def larger (left right : Float32) : Float32 :=
  if left.isNaN then right
  else if right.isNaN then left
  else if left < right then right else left

/-- The smaller operand; an operand that is not a number is ignored. -/
def smaller (left right : Float32) : Float32 :=
  if left.isNaN then right
  else if right.isNaN then left
  else if right < left then right else left

/-- Raises to the lower bound, then lowers to the upper bound. -/
def bounded (low high value : Float32) : Float32 :=
  smaller (larger value low) high

/-- The nearest integral value, ties to even. Numbers from `2 ^ 23` on are integral already. -/
def roundEven (value : Float32) : Float32 :=
  let magnitude := value.toBits.toNat % 2 ^ 31
  let exponent := magnitude / 2 ^ 23
  if 150 ≤ exponent then value
  else
    let significand := if exponent = 0 then magnitude else magnitude % 2 ^ 23 + 2 ^ 23
    let rounded := ofNat (shiftRoundEven significand (150 - max exponent 1))
    if value.toBits.toNat / 2 ^ 31 = 1 then -rounded else rounded

end TensorEngine.Numeric.Binary32
