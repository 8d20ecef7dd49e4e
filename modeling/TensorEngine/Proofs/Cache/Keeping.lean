import TensorEngine.Proofs.Cache.Making

/-!
Contract: what computations in the workshop keep of its caches.

Owns:
- `Making.Keeps`, an invariant of both caches with a postcondition;
- its rules, by construct.

Does not own: what the entries of the caches are.
-/

namespace TensorEngine.Making

variable {α β : Type} {invariant : Option PackingCache → Option CodeCache → Prop}

/-- From caches with an invariant, a computation ends with such caches, and a result satisfies a
postcondition. -/
def Keeps (making : Making α) (invariant : Option PackingCache → Option CodeCache → Prop)
    (post : α → Prop) : Prop :=
  ∀ before : Workshop, invariant before.packing before.code →
    invariant (making before).2.packing (making before).2.code ∧
      ∀ result, (making before).1 = .ok result → post result

namespace Keeps

variable {post : α → Prop} {making : Making α}

theorem pure {result : α} (holds : post result) : Keeps (Pure.pure result) invariant post := by
  refine fun before kept => ⟨kept, fun other given => ?_⟩
  cases given
  exact holds

theorem ofOutcome {outcome : Outcome α} (holds : ∀ result, outcome = .ok result → post result) :
    Keeps (liftM outcome) invariant post :=
  fun _ kept => ⟨kept, holds⟩

/-- What a computation ensures in any workshop, it ensures beside the invariant of nothing. -/
theorem of_ends (ends : making.Ends post (fun _ => True)) :
    Keeps making (fun _ _ => True) post := by
  refine fun before _ => ⟨trivial, fun result ran => ?_⟩
  have ended := ends before
  rw [ran] at ended
  exact ended

/-- What a computation ensures beside the invariant of nothing, it ensures in any workshop. -/
theorem to_ends (keeps : making.Keeps (fun _ _ => True) post) :
    making.Ends post (fun _ => True) := by
  intro before
  have given := (keeps before trivial).2
  cases ran : (making before).1 with
  | ok result => exact given result ran
  | error fault => exact trivial

theorem mono {later : α → Prop} (first : making.Keeps invariant post)
    (holds : ∀ result, post result → later result) : making.Keeps invariant later :=
  fun before kept => ⟨(first before kept).1, fun result ran =>
    holds result ((first before kept).2 result ran)⟩

theorem bind {next : α → Making β} {later : β → Prop} (first : making.Keeps invariant post)
    (rest : ∀ result, post result → (next result).Keeps invariant later) :
    (making >>= next).Keeps invariant later := by
  intro before kept
  have start := first before kept
  rw [bind_apply]
  cases ran : making before with
  | mk result after =>
      rw [ran] at start
      cases result with
      | ok result => exact rest result (start.2 result rfl) after start.1
      | error fault => exact ⟨start.1, fun _ failed => (nomatch failed)⟩

theorem map {function : α → β} {later : β → Prop} (first : making.Keeps invariant post)
    (holds : ∀ result, post result → later (function result)) :
    (function <$> making).Keeps invariant later := by
  rw [map_eq_pure_bind]
  exact first.bind fun result given => pure (holds result given)

theorem report (notice : Notice) : (Making.report notice).Keeps invariant (fun _ => True) :=
  fun _ kept => ⟨kept, fun _ _ => trivial⟩

theorem reporting (notice : EngineError → Notice) (first : making.Keeps invariant post) :
    (Making.reporting notice making).Keeps invariant post := by
  intro before kept
  have start := first before kept
  unfold Making.reporting
  cases ran : making before with
  | mk result after =>
      rw [ran] at start
      cases result with
      | ok result => exact start
      | error fault => cases fault <;> exact ⟨start.1, fun _ failed => (nomatch failed)⟩

/-- A computation for each element of a list, in order. -/
theorem mapM {elements : List α} {step : α → Making β} {each : α → β → Prop}
    (steps : ∀ element ∈ elements, (step element).Keeps invariant (each element)) :
    (elements.mapM step).Keeps invariant (List.Forall₂ each elements) := by
  induction elements with
  | nil =>
      rw [List.mapM_nil]
      exact pure .nil
  | cons element elements inductionHypothesis =>
      rw [List.mapM_cons]
      apply (steps element List.mem_cons_self).bind
      intro result given
      refine (inductionHypothesis fun other listed =>
        steps other (List.mem_cons_of_mem _ listed)).bind fun results givenRest => ?_
      exact pure (.cons given givenRest)

/-- What a computation ensures in any workshop, it ensures beside any invariant that it keeps. -/
theorem ends {also : α → Prop} (first : making.Keeps invariant post)
    (second : making.Ends also (fun _ => True)) : making.Keeps invariant also :=
  fun before kept => ⟨(first before kept).1, ((of_ends second) before trivial).2⟩

/-- A table that is found in the cache or filled now satisfies a postcondition when every entry
that could be found does, and when entries that are filled now keep the invariant. -/
theorem table {key : TableKey} {fill : Unit → Outcome LookupTable} {post : LookupTable → Prop}
    (hit : ∀ packing cache table, invariant packing (some cache) → cache.peek? key = some table →
      invariant packing (some { cache with hits := cache.hits + 1 }) ∧ post table)
    (miss : ∀ packing cache table, invariant packing (some cache) → fill () = .ok table →
      invariant packing (some { cache with
        entries := cache.entries ++ [(key, table)], misses := cache.misses + 1 }))
    (made : ∀ table, fill () = .ok table → post table) :
    (Workshop.table key fill).Keeps invariant post := by
  intro before kept
  unfold Workshop.table
  cases caches : before.code with
  | none =>
      rw [caches] at kept
      dsimp only
      rw [caches]
      exact ⟨kept, made⟩
  | some cache =>
      rw [caches] at kept
      dsimp only
      unfold PublishOnce.getOrPublish
      cases found : cache.peek? key with
      | some table =>
          obtain ⟨keeps, holds⟩ := hit before.packing cache table kept found
          refine ⟨keeps, fun result given => ?_⟩
          cases given
          exact holds
      | none =>
          dsimp only
          cases given : fill () with
          | error fault => exact ⟨kept, fun _ failed => (nomatch failed)⟩
          | ok table =>
              refine ⟨miss before.packing cache table kept given, fun result same => ?_⟩
              cases same
              exact made table given

/-- Tables have a cache of their own. -/
theorem table_apart {invariant : Option PackingCache → Prop} (key : TableKey)
    (fill : Unit → Outcome LookupTable) :
    (Workshop.table key fill).Keeps (fun packing _ => invariant packing) (fun _ => True) :=
  table (fun _ _ _ kept _ => ⟨kept, trivial⟩) (fun _ _ _ kept _ => kept) (fun _ _ => trivial)

/-- Packed weights that are found in the cache or packed now satisfy a postcondition when every
entry that could be found does, and when entries that are packed now keep the invariant. -/
theorem packed {key : PackingKey} {pack : Unit → Outcome PackedWeights}
    {post : PackedArtifact → Prop}
    (hit : ∀ cache code artifact, invariant (some cache) code →
      cache.peek? key = some artifact →
      invariant (some { cache with hits := cache.hits + 1 }) code ∧ post artifact)
    (miss : ∀ cache code artifact, invariant (some cache) code →
      pack () = .ok artifact.weights →
      invariant (some { cache with
        entries := cache.entries ++ [(key, artifact)], misses := cache.misses + 1 }) code)
    (made : ∀ artifact, pack () = .ok artifact.weights → post artifact) :
    (Workshop.packed key pack).Keeps invariant post := by
  have stamped : ∀ {serial artifact}, PackedArtifact.mk serial <$> pack () = .ok artifact →
      pack () = .ok artifact.weights := by
    intro serial artifact given
    obtain ⟨weights, packed, rfl⟩ := map_eq_ok_iff.mp given
    exact packed
  intro before kept
  unfold Workshop.packed
  cases caches : before.packing with
  | none =>
      rw [caches] at kept
      exact ⟨kept, fun artifact given => made artifact (stamped given)⟩
  | some cache =>
      rw [caches] at kept
      dsimp only
      unfold PublishOnce.getOrPublish
      cases found : cache.peek? key with
      | some artifact =>
          obtain ⟨keeps, holds⟩ := hit cache before.code artifact kept found
          refine ⟨keeps, fun result given => ?_⟩
          cases given
          exact holds
      | none =>
          dsimp only
          cases given : PackedArtifact.mk before.nextSerial <$> pack () with
          | error fault => exact ⟨kept, fun _ failed => (nomatch failed)⟩
          | ok artifact =>
              refine ⟨miss cache before.code artifact kept (stamped given), fun result same => ?_⟩
              cases same
              exact made artifact (stamped given)

/-- Packed weights have a cache of their own. -/
theorem packed_apart {invariant : Option CodeCache → Prop} (key : PackingKey)
    (pack : Unit → Outcome PackedWeights) :
    (Workshop.packed key pack).Keeps (fun _ code => invariant code) (fun _ => True) :=
  packed (fun _ _ _ kept _ => ⟨kept, trivial⟩) (fun _ _ _ kept _ => kept) (fun _ _ => trivial)

end Keeps

end TensorEngine.Making
