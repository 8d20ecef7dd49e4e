import TensorEngine.Json.Reader
import TensorEngine.Json.Writer

/-!
Contract: natural numbers and bytes in hexadecimal digits.

Owns: the writing with a fixed number of digits, and the reading of numbers and of pairs of
digits.

Does not own: what a number is the pattern of.
-/

namespace TensorEngine.Text

def hexadecimal (width value : Nat) : String :=
  String.ofList ((List.range width).reverse.map fun place =>
    Json.hexDigit (value / 16 ^ place % 16))

def ofHexadecimal? (digits : List Char) : Option Nat :=
  digits.foldlM (fun total digit => (total * 16 + ·) <$> Json.hexDigit? digit) 0

def bytesOfHexadecimal? : List Char → Option (List UInt8)
  | [] => some []
  | high :: low :: rest => do
      let byte ← ofHexadecimal? [high, low]
      return byte.toUInt8 :: (← bytesOfHexadecimal? rest)
  | [_] => none

end TensorEngine.Text
