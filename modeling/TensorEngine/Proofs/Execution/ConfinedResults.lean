import TensorEngine.Proofs.Execution.CombinedElements

/-!
Contract: the kinds of nodes whose results are confined, and what their runs read.

Owns:
- `OpKind.Confines`, the kinds whose results are confined to a range, if only to that of all
  numbers;
- `FitsOperands`, buffers that hold the operands which a run reads;
- what an operator that is set up has been given: a combination two operands, which its runs read,
  and a product rows of its own channels.

Does not own: to what the results are confined.
-/

namespace TensorEngine

namespace OpKind

/-- A kind that confines its results: to a range, or to that of all numbers if it takes none. -/
def Confines (kind : OpKind) : Prop :=
  kind = .clamp ∨ kind.isBinary = true ∨ kind = .globalAveragePooling2d ∨ kind = .fullyConnected

/-- How many of its operands a node reads in a run: both if it is of a binary kind, else the first
one, as weights are packed. -/
def operandsRead (kind : OpKind) : Nat := if kind.isBinary then 2 else 1

theorem operandsRead_le (kind : OpKind) : kind.operandsRead ≤ 2 := by
  unfold operandsRead
  split <;> decide

end OpKind

/-- Buffers of whole elements of a width that hold the operands of these shapes which a run reads.
-/
def FitsOperands (kind : OpKind) (width : Nat) (shapes : List Shape) (inputs : List Buffer) :
    Prop :=
  ∀ index < kind.operandsRead, ∀ shape, shapes[index]? = some shape →
    ∃ buffer, inputs[index]? = some buffer ∧ buffer.Fits width shape.elementCount

instance (kind : OpKind) (width : Nat) (shapes : List Shape) (inputs : List Buffer) :
    Decidable (FitsOperands kind width shapes inputs) :=
  inferInstanceAs (Decidable (∀ index < kind.operandsRead, ∀ shape, shapes[index]? = some shape →
    ∃ buffer, inputs[index]? = some buffer ∧ buffer.Fits width shape.elementCount))

namespace FitsOperands

variable {kind : OpKind} {width : Nat} {shapes : List Shape} {inputs : List Buffer}

/-- Every run reads its first operand. -/
theorem exists_first (fits : FitsOperands kind width shapes inputs) {shape : Shape}
    (first : shapes[0]? = some shape) :
    ∃ buffer, inputs[0]? = some buffer ∧ buffer.Fits width shape.elementCount := by
  refine fits 0 ?_ shape first
  unfold OpKind.operandsRead
  split <;> decide

/-- A run of a binary kind reads its second operand. -/
theorem exists_second (fits : FitsOperands kind width shapes inputs) (binary : kind.isBinary = true)
    {shape : Shape} (second : shapes[1]? = some shape) :
    ∃ buffer, inputs[1]? = some buffer ∧ buffer.Fits width shape.elementCount := by
  refine fits 1 ?_ shape second
  rw [OpKind.operandsRead, if_pos binary]
  decide

end FitsOperands

namespace Combination

theorem exists_of_setup {combination : Combination} {shapes : List Shape} {output : Shape}
    (taken : (Operator.setup (StandardOperator.combination combination) shapes output).2 = .ok ()) :
    ∃ left right plan, shapes[0]? = some left ∧ shapes[1]? = some right ∧
      BroadcastPlan.make left right output = .ok plan ∧
      (Operator.setup (StandardOperator.combination combination) shapes output).1 =
        .combination { combination with plan := plan } := by
  have done : Operator.setup (StandardOperator.combination combination) shapes output =
      (combination.setup shapes output).map .combination id := rfl
  rw [done] at taken ⊢
  unfold setup at taken ⊢
  dsimp only at taken ⊢
  split at taken
  · rename_i plan planned
    obtain ⟨left, shape, planned⟩ := bind_eq_ok_iff.mp planned
    obtain ⟨right, shapeRight, planned⟩ := bind_eq_ok_iff.mp planned
    exact ⟨left, right, plan, operand_eq_ok_iff.mp shape, operand_eq_ok_iff.mp shapeRight, planned,
      rfl⟩
  · cases taken

/-- A combination reads its first two inputs only. -/
theorem contents_eq_of_operands (combination : Combination) (schedule : Schedule)
    {inputs : List Buffer} {first second room : Buffer} (given : inputs[0]? = some first)
    (givenRight : inputs[1]? = some second) :
    combination.contents schedule inputs room =
      combination.contents schedule [first, second] room := by
  match inputs, given, givenRight with
  | _ :: _ :: rest, rfl, rfl => rfl

/-- A sound combination that is set up runs on buffers that hold both operands, and gives its output
what broadcasting defines. -/
theorem run_broadcasts {combination : Combination} (sound : combination.body.Sound) {kind : OpKind}
    (binary : kind.isBinary = true) {shapes : List Shape} {output : Shape}
    (taken : (Operator.setup (StandardOperator.combination combination) shapes output).2 = .ok ())
    (schedule : Schedule) {inputs : List Buffer} {room : Buffer}
    (fits : FitsOperands kind combination.scalar.width shapes inputs)
    (fitsRoom : room.Fits combination.scalar.width output.elementCount) :
    ∃ left right first second writes, shapes[0]? = some left ∧ shapes[1]? = some right ∧
      inputs[0]? = some first ∧ inputs[1]? = some second ∧
      let done := Operator.run
        (Operator.setup (StandardOperator.combination combination) shapes output).1 schedule inputs
        room
      done.outcome = .ok () ∧ combination.scalar.Broadcasts left right output first second room
        writes done.written := by
  obtain ⟨left, right, plan, shape, shapeRight, made, ready⟩ := exists_of_setup taken
  obtain ⟨first, given, fitsLeft⟩ := fits.exists_first shape
  obtain ⟨second, givenRight, fitsRight⟩ := fits.exists_second binary shapeRight
  obtain ⟨inside, leftCount, rightCount⟩ := BroadcastPlan.inside_of_make made
  have positive := combination.scalar_width_pos
  have follows := BroadcastPlan.follows_of_make made (fitsLeft.count_lt positive)
    (fitsRight.count_lt positive)
  rw [← leftCount] at fitsLeft
  rw [← rightCount] at fitsRight
  rw [← BroadcastPlan.count_of_make made] at fitsRoom
  obtain ⟨bytes, writes, ran, _, broadcasts⟩ :=
    contents_broadcasts { combination with plan := plan } sound inside follows schedule fitsLeft
      fitsRight fitsRoom
  rw [← contents_eq_of_operands _ schedule given givenRight] at ran
  refine ⟨left, right, first, second, writes, shape, shapeRight, given, givenRight, ?_⟩
  rw [ready]
  intro done
  rw [show done = _ from StandardOperator.run_eq_of_contents ran]
  exact ⟨rfl, broadcasts⟩

end Combination

/-- A product that is set up takes rows with the channels of its weights. -/
theorem Product.exists_of_setup {product : Product} {shapes : List Shape} {output : Shape}
    (taken : (Operator.setup (StandardOperator.product product) shapes output).2 = .ok ()) :
    ∃ input : Shape, shapes[0]? = some input ∧ input ≠ [] ∧
      input.channels = product.artifact.weights.inner ∧
      output.elementCount = input.batch * product.artifact.weights.outputs := by
  have done : Operator.setup (StandardOperator.product product) shapes output =
      (product.setup shapes output).map .product id := rfl
  rw [done] at taken
  unfold setup at taken
  cases counted : rowCount product.artifact.weights shapes output with
  | ok rows =>
      obtain ⟨input, shape, filled, channels, count, _⟩ := rowCount_eq_ok_iff.mp counted
      exact ⟨input, shape, filled, channels, count⟩
  | error fault =>
      rw [counted] at taken
      cases taken

end TensorEngine
