import TensorEngine.Proofs.Kernel.Contents

/-!
Contract: neither tiles nor lanes nor serial numbers change what an operator does.

Owns:
- `StandardOperator.plain`, an operator without the choices of its host;
- `StandardOperator.Interchangeable`, operators that no caller can tell apart;
- the theorem that operators with one plain form are interchangeable.

Does not own: which operators a host makes.
-/

namespace TensorEngine

/-! ## Outcomes that agree -/

namespace Outcome.Agrees

variable {α : Type} {first second : Outcome α}

theorem refl (outcome : Outcome α) : outcome.Agrees outcome := .inl rfl

end Outcome.Agrees

/-- Contents that agree are written alike. -/
theorem RunEnd.ofOutcome_agrees {first second : Outcome Bytes} (agree : first.Agrees second)
    (room : Buffer) :
    (RunEnd.ofOutcome room first).written = (RunEnd.ofOutcome room second).written ∧
      (RunEnd.ofOutcome room first).outcome.Agrees (RunEnd.ofOutcome room second).outcome := by
  rcases agree with rfl | ⟨breach, other, rfl, rfl⟩
  · exact ⟨rfl, .refl _⟩
  · exact ⟨rfl, .inr ⟨breach, other, rfl, rfl⟩⟩

/-! ## The plain form of an operator -/

namespace StandardOperator

variable {first second : StandardOperator}

/-- An operator that works its output off element by element, with weights that carry no serial
number. -/
def plain (operator : StandardOperator) : StandardOperator := (operator.tiled 1 1).unstamped

theorem tiled_setup (operator : StandardOperator) (tileElements lanes : Nat) (inputs : List Shape)
    (output : Shape) :
    (operator.tiled tileElements lanes).setup inputs output =
      ((operator.setup inputs output).1.tiled tileElements lanes,
        (operator.setup inputs output).2) := by
  cases operator with
  | mapping operator =>
      simp only [setup, tiled, Mapping.setup]
      cases sharedCount operator.kind inputs output <;> rfl
  | conversion operator =>
      simp only [setup, tiled, Conversion.setup]
      cases sharedCount .convert inputs output <;> rfl
  | combination operator =>
      simp only [setup, tiled, Combination.setup]
      generalize (do BroadcastPlan.make (← operand inputs 0) (← operand inputs 1) output :
        Outcome BroadcastPlan) = planned
      cases planned <;> rfl
  | pooling operator =>
      simp only [setup, tiled, Pooling.setup]
      cases Pooling.extent operator.channels inputs output <;> rfl
  | product operator =>
      simp only [setup, tiled, Product.setup]
      cases Product.rowCount operator.artifact.weights inputs output <;> rfl

/-- The plain form is set up as the operator itself. -/
theorem plain_setup (operator : StandardOperator) (inputs : List Shape) (output : Shape) :
    operator.plain.setup inputs output =
      ((operator.setup inputs output).1.plain, (operator.setup inputs output).2) := by
  unfold plain
  rw [unstamped_setup, tiled_setup]

theorem tiled_plain (operator : StandardOperator) (tileElements lanes : Nat) :
    operator.plain.tiled tileElements lanes = (operator.tiled tileElements lanes).unstamped := by
  cases operator <;> rfl

theorem plain_tiled (operator : StandardOperator) (tileElements lanes : Nat) :
    (operator.tiled tileElements lanes).plain = operator.plain := by
  cases operator <;> rfl

/-- A set-up keeps operators with one plain form alike, and takes both or neither. -/
theorem setup_of_plain (same : first.plain = second.plain) (inputs : List Shape)
    (output : Shape) :
    (first.setup inputs output).1.plain = (second.setup inputs output).1.plain ∧
      (first.setup inputs output).2 = (second.setup inputs output).2 := by
  have setUp := first.plain_setup inputs output
  rw [same, second.plain_setup inputs output] at setUp
  obtain ⟨ready, outcome⟩ := Prod.mk.inj setUp
  exact ⟨ready.symm, outcome.symm⟩

/-- The contents of operators with one plain form agree, in whatever tiles, blocks and order each
of them works its output off. -/
theorem contents_of_plain (same : first.plain = second.plain) (schedule other : Schedule)
    (inputs : List Buffer) (output : Buffer) :
    (first.contents schedule inputs output).Agrees (second.contents other inputs output) := by
  obtain ⟨tileElements, lanes, sameFirst⟩ := first.exists_tiled
  obtain ⟨otherTile, otherLanes, sameSecond⟩ := second.exists_tiled
  have agree := first.determined_tiled.agrees ⟨schedule, tileElements, lanes⟩
    ⟨other, otherTile, otherLanes⟩ inputs output
  have moved : (first.tiled otherTile otherLanes).contents = second.contents := by
    rw [← unstamped_contents, ← tiled_plain, same, tiled_plain, sameSecond, unstamped_contents]
  dsimp only at agree
  rw [sameFirst, moved] at agree
  exact agree

/-! ## Operators that no caller can tell apart -/

/-- Two operators take the same shapes. Set up for shapes, they write the same bytes from the same
inputs to the same room, in any orders of their tiles, and their outcomes agree. -/
structure Interchangeable (first second : StandardOperator) : Prop where
  setUp : ∀ inputs output,
    (Operator.setup first inputs output).2 = (Operator.setup second inputs output).2
  written : ∀ inputs output schedule other buffers room,
    (Operator.run (Operator.setup first inputs output).1 schedule buffers room).written =
      (Operator.run (Operator.setup second inputs output).1 other buffers room).written
  outcome : ∀ inputs output schedule other buffers room,
    (Operator.run (Operator.setup first inputs output).1 schedule buffers room).outcome.Agrees
      (Operator.run (Operator.setup second inputs output).1 other buffers room).outcome

theorem interchangeable_of_plain (same : first.plain = second.plain) :
    first.Interchangeable second where
  setUp inputs output := (setup_of_plain same inputs output).2
  written inputs output schedule other buffers room :=
    (RunEnd.ofOutcome_agrees (contents_of_plain (setup_of_plain same inputs output).1 schedule
      other buffers room) room).1
  outcome inputs output schedule other buffers room :=
    (RunEnd.ofOutcome_agrees (contents_of_plain (setup_of_plain same inputs output).1 schedule
      other buffers room) room).2

end StandardOperator

end TensorEngine
