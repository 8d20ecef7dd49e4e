import TensorEngine.Json.Value

/-!
Contract: writing JSON values as compact texts, the fields of a record in the order of their names.

Owns: `Json.write` and the escapes of texts.

Does not own: which fields a record has.
-/

namespace TensorEngine.Json

open TensorEngine.Numeric

def hexDigit (value : Nat) : Char :=
  Char.ofNat (if value < 10 then 48 + value else 87 + value)

def escaped (character : Char) : List Char :=
  if character = '"' then ['\\', '"']
  else if character = '\\' then ['\\', '\\']
  else if character = '\n' then ['\\', 'n']
  else if character = '\r' then ['\\', 'r']
  else if character = '\t' then ['\\', 't']
  else if character = '\x08' then ['\\', 'b']
  else if character = '\x0c' then ['\\', 'f']
  else if character.toNat < 0x20 then
    ['\\', 'u', '0', '0', hexDigit (character.toNat / 16), hexDigit (character.toNat % 16)]
  else [character]

def writeText (value : String) : String :=
  "\"" ++ String.ofList (value.toList.flatMap escaped) ++ "\""

/-- A decimal; zero keeps its sign. -/
def writeDecimal (negative : Bool) (magnitude : Decimal) : String :=
  (if negative then "-" else "") ++
    (if magnitude.coefficient = 0 then "0.0" else DecimalLayout.document.magnitude magnitude)

mutual

def write : Json → String
  | .null => "null"
  | .bool value => if value then "true" else "false"
  | .integer value => toString value
  | .decimal negative magnitude => writeDecimal negative magnitude
  | .text value => writeText value
  | .list items => "[" ++ ",".intercalate (writeItems items) ++ "]"
  | .record fields =>
      let entries := (writeFields fields).mergeSort fun left right => left.1 ≤ right.1
      "\x7b" ++ ",".intercalate (entries.map fun entry => writeText entry.1 ++ ":" ++ entry.2) ++
        "\x7d"

def writeItems : List Json → List String
  | [] => []
  | item :: items => write item :: writeItems items

def writeFields : List (String × Json) → List (String × String)
  | [] => []
  | field :: fields => (field.1, write field.2) :: writeFields fields

end

end TensorEngine.Json
