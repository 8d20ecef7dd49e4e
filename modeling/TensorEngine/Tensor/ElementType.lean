/-!
Contract: the storage types of tensor elements.

Owns: their names, widths and integer ranges, and the reading of names.

Does not own: the meaning of quantized codes.
-/

namespace TensorEngine

/-- Storage type of the elements of a tensor. A `qint32` holds biases of quantized products. -/
inductive ElementType where
  | float32
  | float16
  | qint8
  | quint8
  | qint32
deriving DecidableEq, Repr, Inhabited

namespace ElementType

def all : List ElementType := [float32, float16, qint8, quint8, qint32]

def name : ElementType → String
  | float32 => "f32"
  | float16 => "f16"
  | qint8 => "qint8"
  | quint8 => "quint8"
  | qint32 => "qint32"

/-- The other name that is understood. -/
def alias? : ElementType → Option String
  | qint8 => some "qs8"
  | quint8 => some "qu8"
  | qint32 => some "qs32"
  | _ => none

def ofName? (text : String) : Option ElementType :=
  all.find? fun element => element.name == text || element.alias? == some text

/-- Bytes of one element; also its alignment. -/
def width : ElementType → Nat
  | float32 | qint32 => 4
  | float16 => 2
  | qint8 | quint8 => 1

/-- Whether elements are codes of an affine quantization. -/
def isQuantized : ElementType → Bool
  | qint8 | quint8 | qint32 => true
  | float32 | float16 => false

def codeRange? : ElementType → Option (Int32 × Int32)
  | qint8 => some (-128, 127)
  | quint8 => some (0, 255)
  | qint32 => some (Int32.minValue, Int32.maxValue)
  | float32 | float16 => none

/-- Least and greatest code, the whole 32-bit range for types without codes. -/
def codeRange (element : ElementType) : Int32 × Int32 :=
  element.codeRange?.getD (Int32.minValue, Int32.maxValue)

theorem width_pos (element : ElementType) : 0 < element.width := by
  cases element <;> decide

end ElementType

end TensorEngine
