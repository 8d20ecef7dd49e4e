import TensorEngine.Journal
import TensorEngine.Settings.Basic

/-!
Contract: settings that are overlaid with named variables.

Owns:
- the words for flags and the reading of counts;
- `Settings.overlay`, which takes the variables in a fixed order.

Does not own: where variables come from.
-/

namespace TensorEngine

/-- The flag that a value denotes; blanks around it and its case do not matter. -/
def readFlag (variableName value : String) : Except SettingsFault Bool :=
  let word := Text.lowered (Text.trimmed value)
  if ["1", "true", "on", "basic", "full"].contains word then .ok true
  else if ["0", "false", "off", ""].contains word then .ok false
  else .error (.notFlag variableName word)

def countLimit : Nat := 2 ^ 64 - 1

/-- Reads digits from the left after a count so far. A wrong digit is seen before the count gets
too large at the same place. -/
def readDigits (count : Nat) : List Char → Except CountFault Nat
  | [] => .ok count
  | digit :: rest =>
      if !digit.isDigit then .error .invalidDigit
      else
        let next := count * 10 + (digit.toNat - '0'.toNat)
        if countLimit < next then .error .tooLarge else readDigits next rest

/-- Reads a count, which may have a plus sign. A sign needs digits. -/
def readCount (text : String) : Except CountFault Nat :=
  match text.toList with
  | [] => .error .noDigits
  | ['+'] => .error .invalidDigit
  | '+' :: digits => readDigits 0 digits
  | digits => readDigits 0 digits

namespace Settings

def timerVariable : String := "OPENXNN_TIMER"

def tileVariable : String := "OPENXNN_TILE_ELEMENTS"

def overlay (settings : Settings) (variableValue : String → Option String) :
    Except SettingsFault Settings := do
  let trace ← match variableValue Verbosity.variableName with
    | some value => readFlag Verbosity.variableName value
    | none => pure settings.trace
  let timer ← match variableValue timerVariable with
    | some value => readFlag timerVariable value
    | none => pure settings.timer
  let tileElements ← match variableValue tileVariable with
    | some value =>
        (readCount (Text.trimmed value)).mapError (SettingsFault.notCount tileVariable value)
    | none => pure settings.tileElements
  let overlaid :=
    { settings with trace := trace, timer := timer, tileElements := tileElements }
  overlaid.validate
  return overlaid

end Settings

end TensorEngine
