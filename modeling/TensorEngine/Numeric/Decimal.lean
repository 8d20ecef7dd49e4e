import TensorEngine.Numeric.Dyadic

/-!
Contract: the shortest decimal that reads back as a given binary number, and its written layouts.

Owns:
- `Decimal.shortest`, the fewest digits that identify a number, nearest to it among those;
- `DecimalLayout`, the decisions of a written form, and the layouts the library writes:
  plain text, structural text and document text;
- `Decimal.toFraction`, the exact value of a decimal.

Does not own: which message uses which layout.
-/

namespace TensorEngine.Numeric

/-- The number `coefficient * 10 ^ exponent`. -/
structure Decimal where
  coefficient : Nat
  exponent : Int
deriving DecidableEq, Repr

namespace Decimal

def toFraction (decimal : Decimal) : Nat × Nat :=
  (decimal.coefficient * 10 ^ decimal.exponent.toNat, 10 ^ (-decimal.exponent).toNat)

/-- Whether `left * 10 ^ tens ≤ right * 2 ^ twos`. -/
def scaledLe (left : Nat) (tens : Int) (right : Nat) (twos : Int) : Bool :=
  left * 10 ^ tens.toNat * 2 ^ (-twos).toNat ≤ right * 2 ^ twos.toNat * 10 ^ (-tens).toNat

/-- Whether `right * 2 ^ twos ≤ left * 10 ^ tens`. -/
def scaledGe (left : Nat) (tens : Int) (right : Nat) (twos : Int) : Bool :=
  right * 2 ^ twos.toNat * 10 ^ (-tens).toNat ≤ left * 10 ^ tens.toNat * 2 ^ (-twos).toNat

/-- Raises `point` until the number `quarters * 2 ^ twos` lies below `10 ^ point`. -/
def raisePoint (quarters : Nat) (twos : Int) : Nat → Int → Int
  | 0, point => point
  | fuel + 1, point =>
      if scaledLe 1 point quarters twos then raisePoint quarters twos fuel (point + 1) else point

def trimmed : Nat → Decimal → Decimal
  | 0, decimal => decimal
  | fuel + 1, decimal =>
      if decimal.coefficient ≠ 0 ∧ decimal.coefficient % 10 = 0 then
        trimmed fuel ⟨decimal.coefficient / 10, decimal.exponent + 1⟩
      else decimal

/-- The decimal on the grid of `10 ^ tens` that reads back as the number, if there is one.

The number is `quarters * 2 ^ twos`; the numbers that read back as it lie between `lower` and
`upper` quarters, the ends included when `closed`. Of two hits the nearer one is taken, of two
equally near ones the larger. -/
def onGrid (quarters lower upper : Nat) (twos : Int) (closed : Bool) (tens : Int) :
    Option Decimal :=
  let below :=
    quarters * 2 ^ twos.toNat * 10 ^ (-tens).toNat / (10 ^ tens.toNat * 2 ^ (-twos).toNat)
  let readsBack (candidate : Nat) : Bool :=
    if closed then scaledGe candidate tens lower twos && scaledLe candidate tens upper twos
    else !scaledLe candidate tens lower twos && !scaledGe candidate tens upper twos
  let nearerBelow := !scaledLe (2 * below + 1) tens (2 * quarters) twos
  if readsBack below && (nearerBelow || !readsBack (below + 1)) then some ⟨below, tens⟩
  else if readsBack (below + 1) then some ⟨below + 1, tens⟩
  else none

/-- The shortest decimal that reads back as `significand * 2 ^ exponent`, for a positive
significand. Seventeen digits always suffice for a double. -/
def shortest (significand : Nat) (exponent : Int) (atBinade : Bool) : Decimal :=
  let quarters := 4 * significand
  let twos := exponent - 2
  let lower := if atBinade then quarters - 1 else quarters - 2
  let upper := quarters + 2
  let closed := significand % 2 == 0
  let start := ((significand.log2 : Int) + exponent) * 30103 / 100000 - 1
  let point := raisePoint quarters twos 8 start
  let hit := (List.range 17).findSome? fun digits : Nat =>
    onGrid quarters lower upper twos closed (point - (digits : Int) - 1)
  trimmed 20 (hit.getD ⟨quarters * 5 ^ (-twos).toNat * 2 ^ twos.toNat, min twos 0⟩)

end Decimal

/-- The decisions of a written form of numbers.

With the decimal point after `point` digits, positional notation is used while
`leastPoint ≤ point ≤ greatestPoint`; outside, the form is `d.ddde±x`. `keepPoint` writes `.0`
after integers in positional notation. -/
structure DecimalLayout where
  leastPoint : Option Int
  greatestPoint : Option Int
  keepPoint : Bool
deriving DecidableEq, Repr

namespace DecimalLayout

/-- Numbers in messages are always positional, and integers have no point. -/
def plain : DecimalLayout := ⟨none, none, false⟩

/-- Numbers inside a written structure keep a point, and leave positional notation below
`0.0001` and from `10 ^ 16` on. -/
def structural : DecimalLayout := ⟨some (-3), some 16, true⟩

/-- Numbers in documents keep a point, and leave positional notation below `0.00001` and from
`10 ^ 16` on. -/
def document : DecimalLayout := ⟨some (-4), some 16, true⟩

/-- Whether a number with this decimal point is written positionally. -/
def positional (layout : DecimalLayout) (point : Int) : Bool :=
  (layout.leastPoint.all fun least => decide (least ≤ point)) &&
    (layout.greatestPoint.all fun greatest => decide (point ≤ greatest))

def magnitude (layout : DecimalLayout) (decimal : Decimal) : String :=
  let digits := Nat.toDigits 10 decimal.coefficient
  let point : Int := digits.length + decimal.exponent
  let zeros (count : Nat) : List Char := List.replicate count '0'
  let text : List Char :=
    if layout.positional point then
      if point ≤ 0 then '0' :: '.' :: zeros (-point).toNat ++ digits
      else if digits.length ≤ point.toNat then
        digits ++ zeros (point.toNat - digits.length) ++
          (if layout.keepPoint then ['.', '0'] else [])
      else digits.take point.toNat ++ '.' :: digits.drop point.toNat
    else
      digits.take 1 ++ (if digits.length ≤ 1 then [] else '.' :: digits.drop 1) ++
        'e' :: (toString (point - 1)).toList
  String.ofList text

def write (layout : DecimalLayout) : Reading → String
  | .notANumber => "NaN"
  | .infinite negative => if negative then "-inf" else "inf"
  | .finite negative significand exponent atBinade =>
      let sign := if negative then "-" else ""
      if significand = 0 then sign ++ (if layout.keepPoint then "0.0" else "0")
      else sign ++ layout.magnitude (Decimal.shortest significand exponent atBinade)

end DecimalLayout

def plainText (value : Float32) : String :=
  DecimalLayout.plain.write (.ofFloat32 value)

def structuralText (value : Float32) : String :=
  DecimalLayout.structural.write (.ofFloat32 value)

end TensorEngine.Numeric
