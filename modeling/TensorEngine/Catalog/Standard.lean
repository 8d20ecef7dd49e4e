import TensorEngine.Catalog.Selection
import TensorEngine.Graph.Typing
import TensorEngine.Kernel.StandardOperator

/-!
Contract: the catalog of the library's own operators, and its installation.

Owns:
- `Catalog.standard`, a portable entry for every key that a graph can hold, and an entry with
  lanes where a host has wide registers;
- `installCatalog`, by which the first installed catalog stays.

Does not own: the detection of the features of a host.
-/

namespace TensorEngine

namespace Catalog

def laneFeatures : Features := { avx := true }

/-- Kernels with lanes are preferred to portable ones. -/
def lanePriority : Nat := 10

/-- The entries of a key: a portable one, then one with lanes if there is such a kernel. -/
def standardEntries (key : OpKey) : List (CatalogEntry StandardOperator) :=
  ⟨key, .portable, 0, StandardOperator.portableFactory key⟩ ::
    ((StandardOperator.laneFactory? key blockLanes).map fun factory =>
      CatalogEntry.mk key laneFeatures lanePriority factory).toList

/-- The catalog of the library's own operators. -/
def standard (features : Features) : Catalog StandardOperator where
  features := features
  entries := OpKey.admitted.flatMap standardEntries

/-- The same catalog, its operators seen as operators of another type. -/
def map (embed : Left → Right) (catalog : Catalog Left) : Catalog Right where
  features := catalog.features
  entries := catalog.entries.map fun entry =>
    ⟨entry.key, entry.requires, entry.priority, entry.factory.map embed⟩

end Catalog

/-- The catalog that is installed when one is asked for: the first one stays. -/
def installCatalog (installed : Option (Catalog StandardOperator)) (requested : Features) :
    Catalog StandardOperator :=
  installed.getD (Catalog.standard requested)

def installationNotices (catalog : Catalog Op) (requested : Features) : List Notice :=
  (if catalog.features = requested then []
    else [.catalogKept catalog.features requested]) ++
    [.catalogReady catalog.features]

def installedCatalog (installed : Option (Catalog Op)) : Outcome (Catalog Op) :=
  match installed with
  | some catalog => .ok catalog
  | none => .error (.refused .uninitialized)

end TensorEngine
