import TensorEngine.Breach
import TensorEngine.Numeric.Half

/-!
Contract: byte buffers and their typed views.

Owns:
- `Storage`, the little-endian layout of an element;
- `Buffer`, bytes at an address, and `Buffer.view`, its elements;
- `Buffer.overlay`, new contents for the front of a buffer.

Does not own: which storage type a tensor has.
-/

namespace TensorEngine

open TensorEngine.Numeric

/-- The natural number with these bytes, least significant first. -/
def ofLittleEndian (bytes : List UInt8) : Nat :=
  bytes.foldr (fun byte total => byte.toNat + 256 * total) 0

/-- The `width` low bytes of a natural number, least significant first. -/
def toLittleEndian : (width : Nat) → (value : Nat) → List UInt8
  | 0, _ => []
  | width + 1, value => value.toUInt8 :: toLittleEndian width (value / 256)

theorem toLittleEndian_length (width value : Nat) :
    (toLittleEndian width value).length = width := by
  induction width generalizing value with
  | zero => rfl
  | succ width inductionHypothesis => simp [toLittleEndian, inductionHypothesis]

/-- Elements that are stored in a fixed number of bytes, aligned to that number. -/
class Storage (α : Type) where
  width : Nat
  encode : α → List UInt8
  decode : List UInt8 → α
  width_pos : 0 < width
  encode_length : ∀ element, (encode element).length = width

instance : Storage UInt8 where
  width := 1
  encode byte := [byte]
  decode bytes := bytes.headD 0
  width_pos := by decide
  encode_length _ := rfl

instance : Storage Int8 where
  width := 1
  encode code := [code.toUInt8]
  decode bytes := (bytes.headD 0).toInt8
  width_pos := by decide
  encode_length _ := rfl

instance : Storage Half where
  width := 2
  encode half := toLittleEndian 2 half.bits.toNat
  decode bytes := ⟨(ofLittleEndian bytes).toUInt16⟩
  width_pos := by decide
  encode_length _ := toLittleEndian_length _ _

instance : Storage Int32 where
  width := 4
  encode code := toLittleEndian 4 code.toUInt32.toNat
  decode bytes := (ofLittleEndian bytes).toUInt32.toInt32
  width_pos := by decide
  encode_length _ := toLittleEndian_length _ _

instance : Storage Float32 where
  width := 4
  encode value := toLittleEndian 4 value.toBits.toNat
  decode bytes := Float32.ofBits (ofLittleEndian bytes).toUInt32
  width_pos := by decide
  encode_length _ := toLittleEndian_length _ _

abbrev Bytes := Array UInt8

def encodeAll [Storage α] (elements : Array α) : Bytes :=
  (elements.toList.flatMap Storage.encode).toArray

/-- The elements in a sequence of bytes; a trailing partial element is left out. -/
def decodeAll [Storage α] (bytes : Bytes) : Array α :=
  Array.ofFn fun index : Fin (bytes.size / Storage.width α) =>
    let start := index.val * Storage.width α
    Storage.decode (bytes.extract start (start + Storage.width α)).toList

/-- Bytes that start at an address. Only the address modulo the greatest alignment matters. -/
structure Buffer where
  bytes : Bytes
  address : Nat
deriving DecidableEq, Repr, Inhabited

inductive CastFault where
  | misaligned
  | partialElement
deriving DecidableEq, Repr

def CastFault.message : CastFault → String
  | misaligned => "TargetAlignmentGreaterAndInputNotAligned"
  | partialElement => "OutputSliceWouldHaveSlop"

namespace Buffer

def size (buffer : Buffer) : Nat := buffer.bytes.size

/-- A buffer of a fresh allocation, which is aligned for every storage type. -/
def fresh (bytes : Bytes) : Buffer := ⟨bytes, 0⟩

def front (buffer : Buffer) (count : Nat) : Checked Buffer := do
  return { buffer with bytes := ← TensorEngine.front buffer.bytes count }

/-- The elements of a buffer. The address is checked first, also for an empty buffer. -/
def view (α : Type) [Storage α] (buffer : Buffer) : Except CastFault (Array α) :=
  if buffer.address % Storage.width α ≠ 0 then .error .misaligned
  else if buffer.size % Storage.width α ≠ 0 then .error .partialElement
  else .ok (decodeAll buffer.bytes)

end Buffer

/-- New contents for the front of a sequence of bytes; what lies past them stays, and what does
not fit is dropped. -/
def overlay (bytes written : Bytes) : Bytes :=
  written.extract 0 bytes.size ++ bytes.extract written.size bytes.size

theorem overlay_size (bytes written : Bytes) : (overlay bytes written).size = bytes.size := by
  simp only [overlay, Array.size_append, Array.size_extract]
  omega

end TensorEngine
