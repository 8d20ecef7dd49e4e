import TensorEngine.Graph.Node
import TensorEngine.Json.Value
import TensorEngine.Settings.Basic

/-!
Contract: the forms of the library's values in documents.

Owns:
- `Interchange`, the reading and the writing of a type;
- the names of kinds, storage types and compute types in documents;
- the structures: features, keys, flags, parameters, quantizations and settings. A structure is a
  record, where other fields are ignored, or a list of its fields in their order.

Does not own: the syntax of documents.
-/

namespace TensorEngine

open TensorEngine.Numeric

class Interchange (α : Type) where
  read? : Json → Option α
  write : α → Json

namespace Interchange

def required [Interchange α] (found : Option Json) : Option α :=
  found.bind read?

/-- A member of a structure with a value for its absence. -/
def defaulted [Interchange α] (found : Option Json) (absent : α) : Option α :=
  match found with
  | none => some absent
  | some value => read? value

/-- One of several values by its name, as a text or as the only field of a record. -/
def named? (values : List α) (name : α → String) (value : Json) : Option α :=
  match value with
  | .text found => values.find? fun candidate => name candidate == found
  | .record [(found, .null)] => values.find? fun candidate => name candidate == found
  | _ => none

end Interchange

instance : Interchange Bool where
  read? := Json.asBool?
  write := .bool

instance : Interchange Float32 where
  read? := Json.asFloat32?
  write := Json.ofFloat32

instance : Interchange Int32 where
  read? value :=
    (value.asIntegerIn? Int32.minValue.toInt Int32.maxValue.toInt).map Int32.ofInt
  write code := .integer code.toInt

/-- Counts take 64 bits. -/
instance : Interchange Nat where
  read? := Json.asNatural? 64
  write := Json.natural

instance : Interchange Half where
  read? value := (value.asNatural? 16).map fun bits => ⟨bits.toUInt16⟩
  write half := .natural half.bits.toNat

instance : Interchange ValueFlags where
  read? value := (value.asNatural? 32).map fun bits => ⟨bits.toUInt32⟩
  write flags := .natural flags.bits.toNat

/-- An optional value is `null` when there is none. -/
instance [Interchange α] : Interchange (Option α) where
  read?
    | .null => some none
    | value => (Interchange.read? value).map some
  write := Json.orNull Interchange.write

def OpKind.documentName : OpKind → String
  | .globalAveragePooling2d => "global_average_pooling2d"
  | kind => kind.name

def ElementType.documentName : ElementType → String
  | .qint8 => "q_int8"
  | .quint8 => "q_uint8"
  | .qint32 => "q_int32"
  | element => element.name

instance : Interchange OpKind where
  read? := Interchange.named? OpKind.all OpKind.documentName
  write kind := .text kind.documentName

instance : Interchange ElementType where
  read? := Interchange.named? ElementType.all ElementType.documentName
  write element := .text element.documentName

instance : Interchange ComputeType where
  read? := Interchange.named? ComputeType.all ComputeType.name
  write compute := .text compute.name

instance : Interchange Features where
  read? value := do
    match ← value.members? Features.names with
    | [avx, avx2, fma, f16c, neon] =>
        return { avx := ← Interchange.defaulted avx false
                 avx2 := ← Interchange.defaulted avx2 false
                 fma := ← Interchange.defaulted fma false
                 f16c := ← Interchange.defaulted f16c false
                 neon := ← Interchange.defaulted neon false }
    | _ => none
  write features := .record (features.named.map fun feature => (feature.1, .bool feature.2))

instance : Interchange OpKey where
  read? value := do
    match ← value.members? ["kind", "compute"] with
    | [kind, compute] =>
        return ⟨← Interchange.required kind, ← Interchange.required compute⟩
    | _ => none
  write key :=
    .record [("kind", Interchange.write key.kind), ("compute", Interchange.write key.compute)]

instance : Interchange Quantization where
  read? value := do
    match ← value.members? ["zero_point", "scale"] with
    | [zeroPoint, scale] =>
        return ⟨← Interchange.required zeroPoint, ← Interchange.required scale⟩
    | _ => none
  write quantization :=
    .record [("zero_point", Interchange.write quantization.zeroPoint),
      ("scale", Interchange.write quantization.scale)]

/-- Parameters are a record of one field, named for their variant; no parameters are a name. The
members of a variant are always a record. -/
instance : Interchange OpParams where
  read?
    | .text "None" | .record [("None", .null)] => some .none
    | .record [("MinMax", .record members)] => do
        let value := Json.record members
        return .outputRange (← Interchange.required (value.field? "output_min"))
          (← Interchange.required (value.field? "output_max"))
    | .record [("LeakyRelu", .record members)] => do
        let value := Json.record members
        return .negativeSlope (← Interchange.required (value.field? "negative_slope"))
    | _ => none
  write
    | .none => .text "None"
    | .outputRange low high =>
        .record [("MinMax", .record [("output_min", Interchange.write low),
          ("output_max", Interchange.write high)])]
    | .negativeSlope slope =>
        .record [("LeakyRelu", .record [("negative_slope", Interchange.write slope)])]

instance : Interchange Settings where
  read? value := do
    let absent : Settings := {}
    let names := ["trace", "trace_limit", "timer", "tile_elements", "features"]
    match ← value.members? names with
    | [trace, traceLimit, timer, tileElements, features] =>
        return { trace := ← Interchange.defaulted trace absent.trace
                 traceLimit := ← Interchange.defaulted traceLimit absent.traceLimit
                 timer := ← Interchange.defaulted timer absent.timer
                 tileElements := ← Interchange.defaulted tileElements absent.tileElements
                 features := ← Interchange.defaulted features absent.features }
    | _ => none
  write settings :=
    .record [("trace", .bool settings.trace), ("trace_limit", .natural settings.traceLimit),
      ("timer", .bool settings.timer), ("tile_elements", .natural settings.tileElements),
      ("features", Interchange.write settings.features)]

end TensorEngine
