/-!
Contract: a cache whose entries are prepared at most once for every key and never change.

Owns:
- `PublishOnce`, the entries with the counts of hits and misses;
- `getOrPublish`, where a failed preparation publishes and counts nothing;
- `peek?`, which counts nothing.

Does not own: what is cached.
-/

namespace TensorEngine

/-- Published entries in the order of their publication, and how often a look-up found one. -/
structure PublishOnce (K V : Type) where
  entries : List (K × V) := []
  hits : Nat := 0
  misses : Nat := 0
deriving Repr, Inhabited

namespace PublishOnce

variable {K V : Type} [DecidableEq K]

def peek? (cache : PublishOnce K V) (key : K) : Option V :=
  (cache.entries.find? fun entry => entry.1 = key).map (·.2)

/-- Whether a look-up of the key has to prepare the entry. -/
def mustPrepare (cache : PublishOnce K V) (key : K) : Bool :=
  (cache.peek? key).isNone

/-- The entry of a key, which is prepared and published when there is none yet. -/
def getOrPublish (cache : PublishOnce K V) (key : K) (prepare : Unit → Except ε V) :
    Except ε V × PublishOnce K V :=
  match cache.peek? key with
  | some value => (.ok value, { cache with hits := cache.hits + 1 })
  | none =>
      match prepare () with
      | .ok value =>
          (.ok value,
            { cache with entries := cache.entries ++ [(key, value)], misses := cache.misses + 1 })
      | .error cause => (.error cause, cache)

def size (cache : PublishOnce K V) : Nat := cache.entries.length

end PublishOnce

end TensorEngine
