import TensorEngine.Numeric.RoundEven

/-!
Contract: exact reading of binary floating point patterns, and correctly rounded conversion of a
fraction of natural numbers into a binary format.

Owns:
- `Reading`, the number a pattern denotes, as an integer times a power of two;
- `BinaryFormat.nearest`, rounding of a fraction to a format, ties to even;
- the single precision pattern of a rounded number.

Does not own: decimal digits.
-/

namespace TensorEngine.Numeric

/-- What a floating point pattern denotes: `± significand * 2 ^ exponent` when it is finite.

`atBinade` holds when the next smaller number of the format lies only half a unit away. -/
inductive Reading where
  | notANumber
  | infinite (negative : Bool)
  | finite (negative : Bool) (significand : Nat) (exponent : Int) (atBinade : Bool)
deriving DecidableEq, Repr

namespace Reading

def ofSinglePattern (pattern : UInt32) : Reading :=
  let negative : Bool := pattern.toNat / 2 ^ 31 == 1
  let exponent : Nat := pattern.toNat / 2 ^ 23 % 2 ^ 8
  let fraction : Nat := pattern.toNat % 2 ^ 23
  if exponent = 255 then
    if fraction = 0 then .infinite negative else .notANumber
  else if exponent = 0 then .finite negative fraction (-149) false
  else .finite negative (fraction + 2 ^ 23) ((exponent : Int) - 150) (fraction == 0 && 1 < exponent)

def ofFloat32 (value : Float32) : Reading :=
  ofSinglePattern value.toBits

/-- The same number read as a double, whose significand has 53 bits. -/
def inDouble : Reading → Reading
  | .finite negative significand exponent _ =>
      if significand = 0 then .finite negative 0 exponent false
      else
        let shift := 52 - significand.log2
        .finite negative (significand * 2 ^ shift) (exponent - shift)
          (significand * 2 ^ shift == 2 ^ 52)
  | other => other

end Reading

/-- A binary floating point format: significand width, and the least and greatest exponent of the
last place. -/
structure BinaryFormat where
  precision : Nat
  minExponent : Int
  maxExponent : Int
deriving DecidableEq, Repr

namespace BinaryFormat

def single : BinaryFormat := ⟨24, -149, 104⟩

def double : BinaryFormat := ⟨53, -1074, 971⟩

/-- The integer nearest to a fraction, ties to even. -/
def divRoundEven (numerator denominator : Nat) : Nat :=
  let quotient := numerator / denominator
  let remainder := numerator % denominator
  if denominator < 2 * remainder ∨ (2 * remainder = denominator ∧ quotient % 2 = 1) then
    quotient + 1
  else quotient

/-- The number of the format nearest to `numerator / denominator`, as a significand and an
exponent; `none` when it rounds past the greatest finite number. -/
def nearest (format : BinaryFormat) (numerator denominator : Nat) : Option (Nat × Int) :=
  if numerator = 0 then some (0, format.minExponent)
  else
    let scaled (exponent : Int) : Nat × Nat :=
      (numerator * 2 ^ (-exponent).toNat, denominator * 2 ^ exponent.toNat)
    let low : Int := (numerator.log2 : Int) - denominator.log2 - format.precision
    let fits :=
      let (top, bottom) := scaled low
      decide (top < bottom * 2 ^ format.precision)
    let exponent := max (if fits then low else low + 1) format.minExponent
    let (top, bottom) := scaled exponent
    let rounded := divRoundEven top bottom
    let (significand, exponent) :=
      if rounded = 2 ^ format.precision then (2 ^ (format.precision - 1), exponent + 1)
      else (rounded, exponent)
    if format.maxExponent < exponent then none else some (significand, exponent)

/-- The single precision number with this sign nearest to a fraction; too large becomes infinite. -/
def toFloat32 (negative : Bool) (numerator denominator : Nat) : Float32 :=
  let magnitude : Nat :=
    match single.nearest numerator denominator with
    | none => 0x7f800000
    | some (significand, exponent) =>
        if significand < 2 ^ 23 then significand
        else (exponent + 150).toNat * 2 ^ 23 + (significand - 2 ^ 23)
  Float32.ofBits (magnitude + (if negative then 2 ^ 31 else 0)).toUInt32

end BinaryFormat

end TensorEngine.Numeric
