import TensorEngine.Numeric.Decimal

/-!
Contract: JSON documents as values.

Owns:
- `Json`, where integers and decimals stay apart and a record keeps one entry per name;
- access to the members of records and lists;
- the decimal of a single precision number, as documents write it.

Does not own: reading and writing texts.
-/

namespace TensorEngine

open TensorEngine.Numeric

/-- A JSON value. An integer has neither fraction nor exponent in its text. -/
inductive Json where
  | null
  | bool (value : Bool)
  | integer (value : Int)
  | decimal (negative : Bool) (magnitude : Decimal)
  | text (value : String)
  | list (items : List Json)
  | record (fields : List (String × Json))
deriving Repr, Inhabited

namespace Json

/-- Sets a field; an entry of the same name gives way. -/
def setField (fields : List (String × Json)) (name : String) (value : Json) :
    List (String × Json) :=
  if fields.any (·.1 == name) then
    fields.map fun field => if field.1 == name then (name, value) else field
  else fields ++ [(name, value)]

def field? (name : String) : Json → Option Json
  | record fields => (fields.find? (·.1 == name)).map (·.2)
  | _ => none

/-- The field of a record with this name, where `null` counts as absent. -/
def present? (name : String) (value : Json) : Option Json :=
  match value.field? name with
  | some null => none
  | other => other

/-- The members of a structure with these field names: a record by name, where other names are
ignored, or a list in this order, which may be shorter but not longer. -/
def members? (names : List String) (value : Json) : Option (List (Option Json)) :=
  match value with
  | record _ => some (names.map fun name => value.field? name)
  | list items =>
      if names.length < items.length then none
      else some ((List.range names.length).map fun position => items[position]?)
  | _ => none

def asText? : Json → Option String
  | text value => some value
  | _ => none

def asBool? : Json → Option Bool
  | bool value => some value
  | _ => none

def asIntegerIn? (low high : Int) : Json → Option Int
  | integer value => if low ≤ value ∧ value ≤ high then some value else none
  | _ => none

/-- A natural number below a power of two. -/
def asNatural? (width : Nat) (value : Json) : Option Nat :=
  (value.asIntegerIn? 0 (2 ^ width - 1)).map Int.toNat

def asList? : Json → Option (List Json)
  | list items => some items
  | _ => none

/-- The single precision number nearest to a number of a document. A decimal is read as a double
first; what is too large becomes infinite. -/
def asFloat32? : Json → Option Float32
  | integer value => some (BinaryFormat.toFloat32 (value < 0) value.natAbs 1)
  | decimal negative magnitude =>
      let (numerator, denominator) := magnitude.toFraction
      match BinaryFormat.double.nearest numerator denominator with
      | none => some (BinaryFormat.toFloat32 negative (10 ^ 400) 1)
      | some (significand, exponent) =>
          some (BinaryFormat.toFloat32 negative (significand * 2 ^ exponent.toNat)
            (2 ^ (-exponent).toNat))
  | _ => none

/-- A single precision number as documents hold it: the shortest decimal that reads back as the
same double, or `null` when it is not finite. -/
def ofFloat32 (value : Float32) : Json :=
  match (Reading.ofFloat32 value).inDouble with
  | .finite negative significand exponent atBinade =>
      if significand = 0 then decimal negative ⟨0, 0⟩
      else decimal negative (Decimal.shortest significand exponent atBinade)
  | _ => null

def natural (value : Nat) : Json := integer value

def texts (values : List String) : Json := list (values.map text)

def naturals (values : List Nat) : Json := list (values.map natural)

def orNull (encode : α → Json) : Option α → Json
  | none => null
  | some value => encode value

end Json

end TensorEngine
