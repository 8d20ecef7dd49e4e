import TensorEngine.Cache.Fingerprint
import TensorEngine.Cache.PublishOnce
import TensorEngine.Journal
import TensorEngine.Kernel.PackedWeights

/-!
Contract: what the making of operators shares: the caches of packed weights and of lookup tables,
and the journal.

Owns:
- the keys of both caches;
- `PackedArtifact`, packed weights with the serial number of their making, by which one artifact
  is told from an equal one;
- `Making`, computations that use the workshop and may fail.

Does not own: how weights are packed and tables are filled.
-/

namespace TensorEngine

structure PackingKey where
  fingerprint : Fingerprint
  kind : OpKind
  compute : ComputeType
  panelWidth : Nat
  transposed : Bool
  inputZeroPoint : Int32
deriving DecidableEq, Repr

/-- Packed weights with the serial number of their making. -/
structure PackedArtifact where
  serial : Nat
  weights : PackedWeights
deriving Repr

abbrev PackingCache := PublishOnce PackingKey PackedArtifact

abbrev LookupTable := Vector UInt8 256

def LookupTable.entry (table : LookupTable) (code : UInt8) : UInt8 :=
  table.get ⟨code.toNat, UInt8.toNat_lt code⟩

/-- What identifies a lookup table: the kind, the datatype, every parameter as a word, and the
hardware. -/
structure TableKey where
  kind : OpKind
  compute : ComputeType
  params : List UInt32
  features : Features
deriving DecidableEq, Repr

abbrev CodeCache := PublishOnce TableKey LookupTable

/-- The caches in use, the next serial number, and the notices so far, oldest first. -/
structure Workshop where
  packing : Option PackingCache := none
  code : Option CodeCache := none
  nextSerial : Nat := 0
  notices : List Notice := []

/-- A computation in the workshop. What it did before a failure stays done. -/
abbrev Making := ExceptT Fault (StateM Workshop)

namespace Making

/-- A computation that leaves the workshop alone. -/
def ofOutcome (outcome : Outcome α) : Making α :=
  fun workshop => (outcome, workshop)

def report (notice : Notice) : Making Unit :=
  fun workshop => (.ok (), { workshop with notices := workshop.notices ++ [notice] })

def reporting (notice : EngineError → Notice) (making : Making α) : Making α :=
  fun workshop =>
    match making workshop with
    | (.error (.refused cause), workshop) =>
        (.error (.refused cause),
          { workshop with notices := workshop.notices ++ [notice cause] })
    | other => other

instance : MonadLift Outcome Making := ⟨ofOutcome⟩

end Making

namespace Workshop

/-- Packed weights from the cache, or packed now. -/
def packed (key : PackingKey) (pack : Unit → Outcome PackedWeights) : Making PackedArtifact :=
  fun workshop =>
    let stamped (_ : Unit) : Outcome PackedArtifact :=
      PackedArtifact.mk workshop.nextSerial <$> pack ()
    match workshop.packing with
    | none => (stamped (), { workshop with nextSerial := workshop.nextSerial + 1 })
    | some cache =>
        let hit := !cache.mustPrepare key
        let (result, cache) := cache.getOrPublish key stamped
        let used : Workshop :=
          { workshop with packing := some cache, nextSerial := workshop.nextSerial + 1 }
        match result with
        | .ok artifact =>
            (.ok artifact,
              { used with
                notices := used.notices ++
                  [.packingCacheUsed hit ⟨key.kind, key.compute⟩ artifact.weights.byteCount] })
        | .error fault => (.error fault, used)

/-- A lookup table from the cache, or filled now. -/
def table (key : TableKey) (fill : Unit → Outcome LookupTable) : Making LookupTable :=
  fun workshop =>
    match workshop.code with
    | none => (fill (), workshop)
    | some cache =>
        let hit := !cache.mustPrepare key
        let (result, cache) := cache.getOrPublish key fill
        let used : Workshop := { workshop with code := some cache }
        match result with
        | .ok table =>
            (.ok table,
              { used with
                notices := used.notices ++ [.codeCacheUsed hit ⟨key.kind, key.compute⟩] })
        | .error fault => (.error fault, used)

end Workshop

end TensorEngine
