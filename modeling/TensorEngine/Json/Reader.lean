import TensorEngine.Json.Value

/-!
Contract: reading JSON texts.

Owns:
- `Json.read`, the whole grammar, with nesting up to 127 levels;
- `Trouble`, which tells a text that ended too early from one that is malformed.

Does not own: what a document means. Recursion is bounded by the length of the text.
-/

namespace TensorEngine.Json

open TensorEngine.Numeric

inductive Trouble where
  | malformed
  | endedEarly
deriving DecidableEq, Repr

/-- Drops the blanks allowed between tokens. -/
def skipBlanks (rest : List Char) : List Char :=
  rest.dropWhile fun character =>
    character = ' ' || character = '\n' || character = '\t' || character = '\r'

def hexDigit? (character : Char) : Option Nat :=
  if '0' ≤ character ∧ character ≤ '9' then some (character.toNat - 48)
  else if 'a' ≤ character ∧ character ≤ 'f' then some (character.toNat - 87)
  else if 'A' ≤ character ∧ character ≤ 'F' then some (character.toNat - 55)
  else none

/-- Reads the four hexadecimal digits of an escape. The text has ended early when fewer than four
bytes are left. -/
def readUnit (rest : List Char) : Except Trouble (Nat × List Char) :=
  if (rest.take 4).foldl (fun total character => total + character.utf8Size) 0 < 4 then
    .error .endedEarly
  else
    match rest with
    | a :: b :: c :: d :: rest =>
        match hexDigit? a, hexDigit? b, hexDigit? c, hexDigit? d with
        | some a, some b, some c, some d => .ok (((a * 16 + b) * 16 + c) * 16 + d, rest)
        | _, _, _, _ => .error .malformed
    | _ => .error .malformed

/-- Reads the code point of an escape, after its letter: one unit, or a pair of surrogates. -/
def readCodePoint (rest : List Char) : Except Trouble (Char × List Char) := do
  let (unit, rest) ← readUnit rest
  if 0xdc00 ≤ unit ∧ unit ≤ 0xdfff then .error .malformed
  else if 0xd800 ≤ unit ∧ unit ≤ 0xdbff then
    match rest with
    | [] => .error .endedEarly
    | '\\' :: [] => .error .endedEarly
    | '\\' :: 'u' :: rest =>
        let (second, rest) ← readUnit rest
        if 0xdc00 ≤ second ∧ second ≤ 0xdfff then
          .ok (Char.ofNat (0x10000 + (unit - 0xd800) * 0x400 + (second - 0xdc00)), rest)
        else .error .malformed
    | _ => .error .malformed
  else .ok (Char.ofNat unit, rest)

/-- Reads a string after its opening quote; `seen` holds the characters so far, last first. -/
def readString : Nat → List Char → List Char → Except Trouble (String × List Char)
  | 0, _, _ => .error .endedEarly
  | _ + 1, _, [] => .error .endedEarly
  | fuel + 1, seen, character :: rest =>
      if character = '"' then .ok (String.ofList seen.reverse, rest)
      else if character = '\\' then
        match rest with
        | [] => .error .endedEarly
        | '"' :: rest => readString fuel ('"' :: seen) rest
        | '\\' :: rest => readString fuel ('\\' :: seen) rest
        | '/' :: rest => readString fuel ('/' :: seen) rest
        | 'b' :: rest => readString fuel ('\x08' :: seen) rest
        | 'f' :: rest => readString fuel ('\x0c' :: seen) rest
        | 'n' :: rest => readString fuel ('\n' :: seen) rest
        | 'r' :: rest => readString fuel ('\r' :: seen) rest
        | 't' :: rest => readString fuel ('\t' :: seen) rest
        | 'u' :: rest =>
            match readCodePoint rest with
            | .ok (decoded, rest) => readString fuel (decoded :: seen) rest
            | .error trouble => .error trouble
        | _ => .error .malformed
      else if character.toNat < 0x20 then .error .malformed
      else readString fuel (character :: seen) rest

def digitsValue (digits : List Char) : Nat :=
  digits.foldl (fun total digit => total * 10 + (digit.toNat - 48)) 0

/-- A decimal, unless it lies beyond the greatest double. One that is far below the least double
is zero. -/
def boundedDecimal (negative : Bool) (magnitude : Decimal) : Except Trouble Json :=
  if magnitude.coefficient = 0 then .ok (.decimal negative ⟨0, 0⟩)
  else
    let point : Int := (Nat.toDigits 10 magnitude.coefficient).length + magnitude.exponent
    if 400 < point then .error .malformed
    else if point < -400 then .ok (.decimal negative ⟨0, 0⟩)
    else
      let (numerator, denominator) := magnitude.toFraction
      match BinaryFormat.double.nearest numerator denominator with
      | none => .error .malformed
      | some _ => .ok (.decimal negative magnitude)

/-- Reads the digits after a point or an exponent mark, of which there is at least one. -/
def readDigits (rest : List Char) : Except Trouble (List Char × List Char) :=
  match rest with
  | [] => .error .endedEarly
  | first :: _ =>
      if first.isDigit then .ok (rest.takeWhile Char.isDigit, rest.dropWhile Char.isDigit)
      else .error .malformed

/-- Reads the exponent of a number, zero when there is none. -/
def readExponent (rest : List Char) : Except Trouble (Option Int × List Char) := do
  match rest with
  | mark :: rest' =>
      if mark = 'e' ∨ mark = 'E' then
        match rest' with
        | '-' :: rest' =>
            let (digits, rest) ← readDigits rest'
            .ok (some (-(digitsValue digits : Int)), rest)
        | '+' :: rest' =>
            let (digits, rest) ← readDigits rest'
            .ok (some (digitsValue digits), rest)
        | _ =>
            let (digits, rest) ← readDigits rest'
            .ok (some (digitsValue digits), rest)
      else .ok (none, rest)
  | [] => .ok (none, rest)

/-- Reads a number after its sign. Integers outside 64 bits, and a negative zero, are decimals. -/
def readNumber (negative : Bool) (rest : List Char) : Except Trouble (Json × List Char) := do
  let (whole, rest) ← readDigits rest
  if whole.head? = some '0' ∧ 1 < whole.length then .error .malformed
  else
    let (fraction, rest) ← match rest with
      | '.' :: rest => do
          let (digits, rest) ← readDigits rest
          pure (some digits, rest)
      | _ => pure (none, rest)
    let (exponent, rest) ← readExponent rest
    let magnitude := digitsValue whole
    match fraction, exponent with
    | none, none =>
        if !negative && decide (magnitude < 2 ^ 64) then .ok (.integer magnitude, rest)
        else if negative && decide (0 < magnitude ∧ magnitude ≤ 2 ^ 63) then
          .ok (.integer (-(magnitude : Int)), rest)
        else do
          let value ← boundedDecimal negative ⟨magnitude, 0⟩
          .ok (value, rest)
    | fraction, exponent => do
        let digits := fraction.getD []
        let value ← boundedDecimal negative
          ⟨digitsValue (whole ++ digits), exponent.getD 0 - digits.length⟩
        .ok (value, rest)

def readWord (word : List Char) (value : Json) (rest : List Char) :
    Except Trouble (Json × List Char) :=
  match word, rest with
  | [], rest => .ok (value, rest)
  | _ :: _, [] => .error .endedEarly
  | expected :: word, found :: rest =>
      if expected = found then readWord word value rest else .error .malformed

mutual

/-- Reads a value; `depth` is the number of containers that may still be opened. -/
def readValue : Nat → Nat → List Char → Except Trouble (Json × List Char)
  | 0, _, _ => .error .endedEarly
  | fuel + 1, depth, rest =>
      match skipBlanks rest with
      | [] => .error .endedEarly
      | 'n' :: rest => readWord ['u', 'l', 'l'] .null rest
      | 't' :: rest => readWord ['r', 'u', 'e'] (.bool true) rest
      | 'f' :: rest => readWord ['a', 'l', 's', 'e'] (.bool false) rest
      | '-' :: rest => readNumber true rest
      | '"' :: rest => do
          let (value, rest) ← readString fuel [] rest
          .ok (.text value, rest)
      | '[' :: rest =>
          match depth with
          | 0 => .error .malformed
          | depth + 1 => readItems fuel depth true [] rest
      | '\x7b' :: rest =>
          match depth with
          | 0 => .error .malformed
          | depth + 1 => readFields fuel depth true [] rest
      | first :: rest =>
          if first.isDigit then readNumber false (first :: rest) else .error .malformed

/-- Reads the items of a list up to its closing bracket; `seen` holds them last first. -/
def readItems : Nat → Nat → Bool → List Json → List Char → Except Trouble (Json × List Char)
  | 0, _, _, _, _ => .error .endedEarly
  | fuel + 1, depth, first, seen, rest =>
      match skipBlanks rest with
      | [] => .error .endedEarly
      | ']' :: rest => .ok (.list seen.reverse, rest)
      | ',' :: rest =>
          if first then .error .malformed
          else
            match skipBlanks rest with
            | ']' :: _ => .error .malformed
            | rest =>
                match readValue fuel depth rest with
                | .ok (item, rest) => readItems fuel depth false (item :: seen) rest
                | .error trouble => .error trouble
      | rest =>
          if first then
            match readValue fuel depth rest with
            | .ok (item, rest) => readItems fuel depth false (item :: seen) rest
            | .error trouble => .error trouble
          else .error .malformed

/-- Reads the fields of a record up to its closing brace. -/
def readFields :
    Nat → Nat → Bool → List (String × Json) → List Char → Except Trouble (Json × List Char)
  | 0, _, _, _, _ => .error .endedEarly
  | fuel + 1, depth, first, seen, rest =>
      match skipBlanks rest with
      | [] => .error .endedEarly
      | '\x7d' :: rest => .ok (.record seen, rest)
      | ',' :: rest =>
          if first then .error .malformed else readField fuel depth seen (skipBlanks rest)
      | rest => if first then readField fuel depth seen rest else .error .malformed

/-- Reads one field, from its name on, and the fields after it. -/
def readField :
    Nat → Nat → List (String × Json) → List Char → Except Trouble (Json × List Char)
  | 0, _, _, _ => .error .endedEarly
  | fuel + 1, depth, seen, rest =>
      match rest with
      | [] => .error .endedEarly
      | '"' :: rest =>
          match readString fuel [] rest with
          | .error trouble => .error trouble
          | .ok (name, rest) =>
              match skipBlanks rest with
              | [] => .error .endedEarly
              | ':' :: rest =>
                  match readValue fuel depth rest with
                  | .ok (value, rest) => readFields fuel depth false (setField seen name value) rest
                  | .error trouble => .error trouble
              | _ => .error .malformed
      | _ => .error .malformed

end

def depthLimit : Nat := 127

def read (document : String) : Except Trouble Json := do
  let characters := document.toList
  let (value, rest) ← readValue (3 * characters.length + 3) depthLimit characters
  match skipBlanks rest with
  | [] => .ok value
  | _ => .error .malformed

end TensorEngine.Json
