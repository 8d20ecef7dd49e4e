import TensorEngine.Interchange
import TensorEngine.Settings.Basic

/-!
Contract: the bounded record of the phases of operators.

Owns:
- `TraceEvent`, a phase of an operator, its text and its form in documents;
- `pushBounded`, which keeps the newest events;
- `Settings.record`, which records only when the settings say so.

Does not own: the clock. An elapsed time is given to the texts.
-/

namespace TensorEngine

inductive Phase where
  | create
  | setup
  | execute
deriving DecidableEq, Repr

namespace Phase

def name : Phase → String
  | create => "create"
  | setup => "setup"
  | execute => "execute"

def documentName : Phase → String
  | create => "OpCreate"
  | setup => "OpSetup"
  | execute => "OpExecute"

end Phase

structure TraceEvent where
  phase : Phase
  node : NodeId
  key : OpKey
  summary : String
  timed : Bool
deriving DecidableEq, Repr

namespace TraceEvent

def ofNode (phase : Phase) (node : Node) (timed : Bool) : TraceEvent where
  phase := phase
  node := node.id
  key := node.key
  summary := node.description
  timed := timed

/-- An elapsed time in microseconds with three places. -/
def elapsedText (nanoseconds : Nat) : String :=
  let places := toString (1000 + nanoseconds % 1000)
  s!"{nanoseconds / 1000}.{places.drop 1}us"

def text (event : TraceEvent) (elapsed : Option Nat) : String :=
  s!"[{event.phase.name}] node {event.node} {event.summary}" ++
    match elapsed with
    | some nanoseconds => s!" ({elapsedText nanoseconds})"
    | none => ""

def toJson (event : TraceEvent) (elapsed : Option Nat) : Json :=
  .record [("kind", .text event.phase.documentName), ("node_index", .natural event.node),
    ("op", Interchange.write event.key.kind), ("compute", Interchange.write event.key.compute),
    ("elapsed_ns", Json.orNull Json.natural elapsed)]

end TraceEvent

/-- Appends an event, dropping the oldest ones past the limit. At least one event is kept. -/
def pushBounded (limit : Nat) (trace : List TraceEvent) (event : TraceEvent) : List TraceEvent :=
  trace.drop (trace.length + 1 - max limit 1) ++ [event]

/-- Appends an event to a trace when events are recorded. -/
def Settings.record (settings : Settings) (trace : List TraceEvent) (event : TraceEvent) :
    List TraceEvent :=
  if settings.trace then pushBounded settings.traceLimit trace event else trace

end TensorEngine
