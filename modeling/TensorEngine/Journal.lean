import TensorEngine.Catalog.Features
import TensorEngine.Fault
import TensorEngine.Text.Blank

/-!
Contract: the diagnostics of the library, as a list of notices that operations hand back.

Owns:
- `Notice`, what an operation reports, with its level and its text;
- `Verbosity`, which levels are written, and the setting that selects it;
- the written line of a notice.

Does not own: the clock and the stream that lines go to.
-/

namespace TensorEngine

inductive Level where
  | trace
  | warning
  | error
  | critical
deriving DecidableEq, Repr

inductive Verbosity where
  | off
  | basic
  | full
deriving DecidableEq, Repr

namespace Verbosity

def rank : Verbosity → Nat
  | off => 0
  | basic => 1
  | full => 2

def name : Verbosity → String
  | off => "Off"
  | basic => "Basic"
  | full => "Full"

def ofSetting (setting : String) : Verbosity :=
  let word := Text.lowered (Text.trimmed setting)
  if word == "1" || word == "basic" then basic
  else if word == "full" then full
  else off

def variableName : String := "OPENXNN_TRACE"

end Verbosity

namespace Level

def label : Level → String
  | trace => "TRACE"
  | warning => "WARNING"
  | error => "ERROR"
  | critical => "CRITICAL"

def colour : Level → String
  | trace => "34"
  | warning => "33"
  | error => "91"
  | critical => "31"

def required : Level → Verbosity
  | trace | error => .basic
  | warning => .full
  | critical => .off

def enabled (level : Level) (verbosity : Verbosity) : Bool :=
  decide (level.required.rank ≤ verbosity.rank)

end Level

inductive Notice where
  | nodeDefined (node : Node)
  | packingCacheUsed (hit : Bool) (key : OpKey) (bytes : Nat)
  | codeCacheUsed (hit : Bool) (key : OpKey)
  | keyUnregistered (key : OpKey)
  | kernelMissing (node : Node) (features : Features) (cause : EngineError)
  | operatorCreating (node : Node) (factory : String) (features : Features)
  | operatorRefused (node : Node) (cause : EngineError)
  | compiled (nodes values : Nat) (features : Features)
  | operatorSetUp (node : Node) (inputs : List Shape) (output : Shape)
  | operatorSetupFailed (node : Node) (cause : EngineError)
  | setupFailed (cause : EngineError)
  | operatorRan (node : Node)
  | operatorRunFailed (node : Node) (cause : EngineError)
  | reshaped (id : ValueId) (shape : Shape)
  | catalogReady (features : Features)
  | catalogKept (installed requested : Features)
  | told (level : Level) (message : String)
deriving Repr

namespace Notice

def level : Notice → Level
  | kernelMissing _ _ _ | operatorRefused _ _ | operatorSetupFailed _ _ | setupFailed _
  | operatorRunFailed _ _ => .error
  | keyUnregistered _ => .critical
  | catalogKept _ _ => .warning
  | told level _ => level
  | _ => .trace

def accessWord (hit : Bool) : String := if hit then "hit" else "miss"

/-- The text of a notice. Measured times are written as `N`. -/
def message : Notice → String
  | nodeDefined node => s!"define {node.description}"
  | packingCacheUsed hit key bytes =>
      s!"packing cache {accessWord hit} for {key.kind.name} ({key.compute.name}) {bytes} bytes"
  | codeCacheUsed hit key =>
      s!"code cache {accessWord hit} for {key.kind.name} ({key.compute.name})"
  | keyUnregistered key => s!"no catalog entry registered for {key.text}"
  | kernelMissing node features cause =>
      s!"no kernel for {node.description} on {features.text}: {cause.message}"
  | operatorCreating node factory features =>
      s!"create {node.description} with {factory} on {features.text}"
  | operatorRefused node cause => s!"create {node.description} failed: {cause.message}"
  | compiled nodes values features =>
      s!"compiled {nodes} nodes over {values} values on {features.text}"
  | operatorSetUp node inputs output =>
      "setup " ++ node.description ++ " inputs=[" ++ ", ".intercalate (inputs.map Shape.text) ++
        "] output=" ++ output.text
  | operatorSetupFailed node cause => s!"setup {node.description} failed: {cause.message}"
  | setupFailed cause => s!"setup failed: {cause.message}"
  | operatorRan node => s!"run {node.description} in Nus"
  | operatorRunFailed node cause => s!"run {node.description} failed: {cause.message}"
  | reshaped id shape => s!"reshaped value {id} to {shape.text}"
  | catalogReady features => s!"capability catalog ready on {features.text}"
  | catalogKept installed requested =>
      s!"capability catalog already installed for {installed.text}, ignoring {requested.text}"
  | told _ message => message

/-- The written line of a notice, its time of day as a pattern. -/
def line (notice : Notice) : String :=
  "HH:MM:SS [\x1b[" ++ notice.level.colour ++ "m" ++ notice.level.label ++ "\x1b[0m] -- " ++
    notice.message

/-- The lines of the notices that a verbosity lets through, in order. A text of several lines
stays as it is. -/
def lines (verbosity : Verbosity) (notices : List Notice) : List String :=
  (notices.filter fun notice => notice.level.enabled verbosity).flatMap fun notice =>
    notice.line.splitOn "\n"

end Notice

/-- A result with the notices reported on the way, oldest first. -/
structure Journaled (α : Type) where
  notices : List Notice
  result : α

end TensorEngine
