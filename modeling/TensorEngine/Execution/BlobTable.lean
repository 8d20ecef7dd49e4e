import TensorEngine.Graph.Node

/-!
Contract: the buffers that a caller binds to values.

Owns:
- `Blob`, a buffer that may be written or only read;
- `BlobTable`, one blob at most for every value, with the laws of its operations.

Does not own: which values need a blob.
-/

namespace TensorEngine

structure Blob where
  buffer : Buffer
  writable : Bool
deriving DecidableEq, Repr, Inhabited

/-- Blobs by the values they are bound to. -/
structure BlobTable where
  entries : List (ValueId × Blob)
deriving DecidableEq, Repr, Inhabited

namespace BlobTable

def empty : BlobTable := ⟨[]⟩

def get? (table : BlobTable) (id : ValueId) : Option Blob :=
  (table.entries.find? fun entry => entry.1 = id).map (·.2)

def erase (table : BlobTable) (id : ValueId) : BlobTable :=
  ⟨table.entries.filter fun entry => entry.1 ≠ id⟩

/-- Binds a blob to a value; an earlier one gives way. -/
def insert (table : BlobTable) (id : ValueId) (blob : Blob) : BlobTable :=
  ⟨(id, blob) :: (table.erase id).entries⟩

def size (table : BlobTable) : Nat := table.entries.length

/-- The bound blobs in the order of their values. -/
def listing (table : BlobTable) : List (ValueId × Blob) :=
  table.entries.mergeSort fun left right => decide (left.1 ≤ right.1)

theorem get?_erase (table : BlobTable) (erased id : ValueId) :
    (table.erase erased).get? id = if id = erased then none else table.get? id := by
  obtain ⟨entries⟩ := table
  simp only [get?, erase]
  induction entries with
  | nil => simp
  | cons entry entries inductionHypothesis =>
      by_cases sameKey : entry.1 = erased
      · rw [List.filter_cons_of_neg (by simp [sameKey]), inductionHypothesis]
        by_cases sameId : id = erased
        · simp [sameId]
        · rw [if_neg sameId, if_neg sameId, List.find?_cons_of_neg]
          simpa [sameKey] using fun equal => sameId equal.symm
      · rw [List.filter_cons_of_pos (by simp [sameKey])]
        by_cases hit : entry.1 = id
        · have other : id ≠ erased := fun equal => sameKey (hit.trans equal)
          simp [hit, other]
        · rw [List.find?_cons_of_neg (by simpa using hit), inductionHypothesis,
            List.find?_cons_of_neg (by simpa using hit)]

theorem get?_insert (table : BlobTable) (inserted id : ValueId) (blob : Blob) :
    (table.insert inserted blob).get? id = if id = inserted then some blob else table.get? id := by
  by_cases same : id = inserted
  · subst same
    simp [get?, insert]
  · have erased := get?_erase table inserted id
    rw [if_neg same] at erased
    rw [if_neg same, ← erased]
    have miss : ¬ inserted = id := fun equal => same equal.symm
    simp [get?, insert, miss]

end BlobTable

end TensorEngine
