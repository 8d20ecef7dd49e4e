import TensorEngine.Graph.OpKind
import TensorEngine.Tensor.ElementType

/-!
Contract: names of kinds and storage types, read from requests.

Owns: the readings, and the faults for names that denote nothing.

Does not own: the names in documents.
-/

namespace TensorEngine

inductive NameFault where
  | kind (text : String)
  | element (text : String)
deriving DecidableEq, Repr

def NameFault.message : NameFault → String
  | kind text => s!"unknown op kind: {text}"
  | element text => s!"unsupported dtype: {text}"

def OpKind.ofName (text : String) : Except NameFault OpKind :=
  match OpKind.ofName? text with
  | some kind => .ok kind
  | none => .error (.kind text)

def ElementType.ofName (text : String) : Except NameFault ElementType :=
  match ElementType.ofName? text with
  | some element => .ok element
  | none => .error (.element text)

end TensorEngine
