import TensorEngine.Kernel.Operator

/-!
Contract: the catalog of operator factories, and the choice among them.

Owns:
- `Catalog`, the entries in their order of registration, and the features of the host;
- `Catalog.lookup`, the factory for a key on that host;
- the keys of a catalog in the order of their names.

Does not own: which factories exist.
-/

namespace TensorEngine

/-- A factory that a catalog offers for a key to hosts with the required features. -/
structure CatalogEntry (Op : Type) where
  key : OpKey
  requires : Features
  priority : Nat
  factory : Factory Op

/-- Factories for the operators of a host, in their order of registration. -/
structure Catalog (Op : Type) where
  features : Features
  entries : List (CatalogEntry Op)

namespace OpKey

/-- The order of keys by the names of kind and compute type. -/
def nameLe (left right : OpKey) : Bool :=
  if left.kind.name = right.kind.name then decide (left.compute.name ≤ right.compute.name)
  else decide (left.kind.name ≤ right.kind.name)

end OpKey

namespace CatalogEntry

/-- The order of entries by falling priority. -/
def priorityLe (left right : CatalogEntry Op) : Bool :=
  decide (right.priority ≤ left.priority)

end CatalogEntry

namespace Catalog

def empty (features : Features) : Catalog Op := ⟨features, []⟩

def register (catalog : Catalog Op) (entry : CatalogEntry Op) : Catalog Op :=
  { catalog with entries := catalog.entries ++ [entry] }

/-- The entries of a key, the preferred ones first. Entries of one priority stay in their order of
registration. -/
def candidates (catalog : Catalog Op) (key : OpKey) : List (CatalogEntry Op) :=
  (catalog.entries.filter fun entry => entry.key = key).mergeSort CatalogEntry.priorityLe

def contains (catalog : Catalog Op) (key : OpKey) : Bool :=
  catalog.entries.any fun entry => entry.key = key

/-- The preferred factory for a key among those that the host can run. -/
def lookup (catalog : Catalog Op) (key : OpKey) : Outcome (Factory Op) :=
  match catalog.candidates key with
  | [] => .error (.unregistered key)
  | candidates =>
      match candidates.find? fun entry => catalog.features.satisfies entry.requires with
      | some entry => .ok entry.factory
      | none => .error (.refused (.unsupportedHardware key))

/-- What a look-up reports: only a key that was never registered. -/
def lookupNotices (found : Outcome α) : List Notice :=
  match found with
  | .error (.unregistered key) => [.keyUnregistered key]
  | _ => []

/-- Every registered key once, in the order of names. -/
def keys (catalog : Catalog Op) : List OpKey :=
  (catalog.entries.map (·.key)).eraseDups.mergeSort OpKey.nameLe

end Catalog

end TensorEngine
