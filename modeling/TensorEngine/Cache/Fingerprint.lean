import TensorEngine.Cache.Sha256
import TensorEngine.Graph.Node

/-!
Contract: the fingerprint that identifies the weights of a fully connected operator.

Owns:
- the byte stream of a value: type, shape, quantization and contents;
- `Fingerprint.ofWeights`, the digest of the streams of filter and bias.

Does not own: what else the packed form depends on.
-/

namespace TensorEngine

abbrev Fingerprint := Vector UInt8 32

namespace Fingerprint

def valueStream (value : Value) : List UInt8 :=
  value.element.name.toUTF8.toList ++ [0x00] ++
    value.shape.flatMap (toLittleEndian 8) ++
    (match value.quantization with
      | none => []
      | some quantization =>
          quantization.words.flatMap fun word => toLittleEndian 4 word.toNat) ++
    [0x00] ++ (value.contents.getD #[]).toList ++ [0xff]

def weightStream (filter : Value) (bias : Option Value) : List UInt8 :=
  valueStream filter ++ (bias.map valueStream).getD []

def ofWeights (filter : Value) (bias : Option Value) : Fingerprint :=
  Sha256.digest (weightStream filter bias).toArray

end Fingerprint

end TensorEngine
