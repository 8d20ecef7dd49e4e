import TensorEngine.Catalog.Features
import TensorEngine.Json.Reader
import TensorEngine.Text.Quoted

/-!
Contract: the settings of compiled graphs.

Owns:
- `Settings`, with their defaults and their check;
- `SettingsFault`, why settings cannot be taken from a document, a file or variables.

Does not own: the reading of documents, files and variables.
-/

namespace TensorEngine

structure Settings where
  /-- Whether every phase of an operator is recorded. -/
  trace : Bool := false
  /-- Number of records that are kept. -/
  traceLimit : Nat := 4096
  /-- Whether every phase is timed. -/
  timer : Bool := false
  /-- Number of output elements of one tile. -/
  tileElements : Nat := 4096
  /-- Features that are assumed instead of those of the host. -/
  features : Option Features := none
deriving DecidableEq, Repr, Inhabited

inductive CountFault where
  | noDigits
  | invalidDigit
  | tooLarge
deriving DecidableEq, Repr

def CountFault.message : CountFault → String
  | noDigits => "cannot parse integer from empty string"
  | invalidDigit => "invalid digit found in string"
  | tooLarge => "number too large to fit in target type"

inductive FileFault where
  | notFound
  | notText
  | isDirectory
  | notDirectory
deriving DecidableEq, Repr

def FileFault.name : FileFault → String
  | notFound => "NotFound"
  | notText => "InvalidData"
  | isDirectory => "IsADirectory"
  | notDirectory => "NotADirectory"

inductive SettingsFault where
  | malformed (cause : Json.Trouble)
  | badSection
  | noTileElements
  | noTraceLimit
  | notFlag (variableName found : String)
  | notCount (variableName found : String) (cause : CountFault)
  | unreadable (path : String) (cause : FileFault)
  | unloadable (path : String) (cause : SettingsFault)
deriving Repr

def sectionName : String := "openxnn"

namespace SettingsFault

def troubleName : Json.Trouble → String
  | .malformed => "Syntax"
  | .endedEarly => "Eof"

/-- The text of a fault, from the outermost context to the cause. -/
def message : SettingsFault → String
  | malformed cause => s!"failed to parse settings json: <json {troubleName cause}>"
  | badSection => "invalid " ++ Text.quoted sectionName ++ " settings section: <json Data>"
  | noTileElements => "tile_elements must be positive"
  | noTraceLimit => "trace_limit must be positive"
  | notFlag variableName found =>
      s!"{variableName} must be a boolean flag, got {Text.quoted found}"
  | notCount variableName found cause =>
      s!"{variableName} must be a positive integer, got {Text.quoted found}: {cause.message}"
  | unreadable path cause => s!"failed to read settings at {path}: <io {cause.name}>"
  | unloadable path cause => s!"failed to load settings at {path}: {cause.message}"

end SettingsFault

namespace Settings

/-- Tiles and the trace must have room. -/
def validate (settings : Settings) : Except SettingsFault Unit :=
  if settings.tileElements = 0 then .error .noTileElements
  else if settings.traceLimit = 0 then .error .noTraceLimit
  else .ok ()

/-- Other room for the trace, at least one record. -/
def withTraceLimit (settings : Settings) (limit : Nat) : Settings :=
  { settings with traceLimit := max limit 1 }

/-- Another size of tiles, at least one element. -/
def withTileElements (settings : Settings) (elements : Nat) : Settings :=
  { settings with tileElements := max elements 1 }

end Settings

end TensorEngine
