import TensorEngine.Catalog.Selection
import TensorEngine.Execution.Executable
import TensorEngine.Graph.Table

/-!
Contract: the compilation of a graph.

Owns:
- `compileStep`, which has a factory of the catalog make the operator of a node;
- `compile`, which compiles every node in order and closes the graph.

Does not own: the choice among factories. A failed compilation leaves the graph open; what it put
into the caches stays there.
-/

namespace TensorEngine

/-- The factory for a node; a missing one is reported. -/
def factoryFor (catalog : Catalog Op) (node : Node) : Making (Factory Op) := do
  let found := catalog.lookup node.key
  for notice in Catalog.lookupNotices found do Making.report notice
  Making.reporting (.kernelMissing node catalog.features) (Making.ofOutcome found)

def compileStep (catalog : Catalog Op) (settings : Settings) (values : List Value) (node : Node) :
    Making (Step Op) := do
  let factory ← factoryFor catalog node
  Making.report (.operatorCreating node factory.name catalog.features)
  let operator ← Making.reporting (.operatorRefused node) <| factory.create
    { node := node, values := values, features := catalog.features,
      tileElements := settings.tileElements }
  return ⟨node, operator⟩

def creationTrace (settings : Settings) (nodes : List Node) : List TraceEvent :=
  nodes.foldl
    (fun trace node => settings.record trace (.ofNode .create node settings.timer)) []

def compile (catalog : Catalog Op) (graph : Graph) (settings : Settings) :
    Making (Executable Op × Graph) := do
  if settings.tileElements = 0 then
    Making.ofOutcome (Outcome.invalidParameter .tileSize)
  let steps ← graph.nodes.mapM (compileStep catalog settings graph.values)
  Making.report (.compiled graph.nodes.length graph.values.length catalog.features)
  let workshop ← (get : Making Workshop)
  let executable : Executable Op :=
    { values := graph.values, steps := steps, state := .compiled, settings := settings,
      sharesPacked := workshop.packing.isSome, sharesTables := workshop.code.isSome,
      trace := creationTrace settings graph.nodes }
  return (executable, graph.closed)

end TensorEngine
