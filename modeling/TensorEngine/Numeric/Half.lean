import TensorEngine.Numeric.RoundEven

/-!
Contract: binary16 values kept as bit patterns, and their conversion from and to binary32.

Owns:
- `Half`, the storage form of a half precision number;
- `Half.ofSinglePattern`, correctly rounded narrowing of a binary32 bit pattern;
- `Half.singlePattern`, the binary32 bit pattern of the same value.

Does not own: arithmetic, which goes through binary32.
-/

namespace TensorEngine.Numeric

/-- A binary16 number as its bit pattern: sign, five exponent bits, ten fraction bits. -/
structure Half where
  bits : UInt16
deriving DecidableEq, Repr, Inhabited

namespace Half

def infinityPattern : Nat := 0x7c00

/-- The pattern of the positive quiet number that is not a number. -/
def quietPattern : Nat := 0x7e00

/-- How far the binary32 exponent bias lies above the binary16 bias. -/
def biasGap : Nat := 112

/-- Rounds the magnitude bits of a binary32 pattern to magnitude bits of binary16.

Below the least normal exponent the significand is shifted to units of the least subnormal; a
rounding carry moves into the exponent field by itself, up to infinity. -/
def roundMagnitude (magnitude : Nat) : Nat :=
  if 0x7f800000 < magnitude then quietPattern
  else
    let exponent := magnitude / 2 ^ 23
    if biasGap + 31 ≤ exponent then infinityPattern
    else if exponent ≤ biasGap then
      let shift := biasGap + 14 - exponent
      if 24 < shift then 0 else shiftRoundEven (magnitude % 2 ^ 23 + 2 ^ 23) shift
    else shiftRoundEven (magnitude - biasGap * 2 ^ 23) 13

/-- The binary16 number nearest to the binary32 number with this bit pattern, of the same sign. -/
def ofSinglePattern (pattern : UInt32) : Half :=
  let negative := pattern.toNat / 2 ^ 31
  ⟨(negative * 2 ^ 15 + roundMagnitude (pattern.toNat % 2 ^ 31)).toUInt16⟩

/-- Magnitude bits of binary32 for magnitude bits of binary16; exact for every number. -/
def widenMagnitude (magnitude : Nat) : Nat :=
  let exponent := magnitude / 2 ^ 10
  let fraction := magnitude % 2 ^ 10
  if exponent = 31 then 0x7f800000 + fraction * 2 ^ 13
  else if exponent = 0 then
    if fraction = 0 then 0
    else
      let lead := fraction.log2
      (lead + 103) * 2 ^ 23 + (fraction - 2 ^ lead) * 2 ^ (23 - lead)
  else (exponent + biasGap) * 2 ^ 23 + fraction * 2 ^ 13

/-- The binary32 bit pattern of the value that a binary16 number denotes. -/
def singlePattern (half : Half) : UInt32 :=
  let negative := half.bits.toNat / 2 ^ 15
  (negative * 2 ^ 31 + widenMagnitude (half.bits.toNat % 2 ^ 15)).toUInt32

def ofFloat32 (value : Float32) : Half :=
  ofSinglePattern value.toBits

def toFloat32 (half : Half) : Float32 :=
  Float32.ofBits half.singlePattern

def isNaN (half : Half) : Bool :=
  infinityPattern < half.bits.toNat % 2 ^ 15

end Half

end TensorEngine.Numeric
