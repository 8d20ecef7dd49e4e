import TensorEngine.Proofs.Execution.Reshape
import TensorEngine.Proofs.Kernel.Acceptance
import TensorEngine.Proofs.Kernel.SharedWeights

/-!
Contract: which shapes the set-up of an operator takes.

Owns:
- `StandardOperator.Serves`, an operator of the family that its node belongs to, and the theorem
  that every factory that a catalog offers makes only such operators;
- `Node.KeepsChannels`, a pooling whose input has as many channels as at its creation;
- the theorem that the set-up of an operator takes the shapes of its admitted node exactly then.

Does not own: the blobs of the values.

Shapes are checked twice by different rules, first when a node is defined or its shapes are
propagated, and then by the operator. No operator but a pooling refuses what the first check has
let through.
-/

namespace TensorEngine

open Making

/-! ## Families of operators -/

/-- An operator of the family that computes nodes of a kind. -/
def StandardOperator.Serves (operator : StandardOperator) (kind : OpKind) : Prop :=
  match operator with
  | mapping _ => kind.isUnary = true
  | conversion _ => kind = .convert
  | combination _ => kind.isBinary = true
  | pooling _ => kind = .globalAveragePooling2d
  | product _ => kind = .fullyConnected

/-- Every factory that the library offers for a key makes operators of the family of its kind. -/
theorem Catalog.Offers.serves {key : OpKey} {factory : Factory StandardOperator}
    (offers : Catalog.Offers key factory) (context : CreateContext) :
    (factory.create context).Ends (fun operator => operator.Serves key.kind) (fun _ => True) := by
  have embedded : ∀ {Made : Type} {embed : Made → StandardOperator} (made : Making Made),
      (∀ result, (embed result).Serves key.kind) →
      (embed <$> made).Ends (fun operator => operator.Serves key.kind) (fun _ => True) :=
    fun made serves => (Ends.somehow made).map fun result _ => serves result
  cases offers.family with
  | conversion convert => exact embedded _ fun _ => convert
  | pooling pool => exact embedded _ fun _ => pool
  | product multiply => exact embedded _ fun _ => multiply
  | combination binary _ => exact embedded _ fun _ => binary
  | mapping unary _ _ => exact embedded _ fun _ => unary

/-! ## Shapes of each family -/

theorem sharedCount_self (kind : OpKind) (shape : Shape) (rest : List Shape) :
    sharedCount kind (shape :: rest) shape = .ok shape.elementCount := by
  unfold sharedCount
  show (if shape.elementCount = shape.elementCount then _ else _ : Outcome Nat) = _
  rw [if_pos rfl]
  rfl

theorem BroadcastPlan.exists_make {left right output : Shape}
    (joined : Shape.broadcast? left right = some output) :
    ∃ plan, BroadcastPlan.make left right output = .ok plan := by
  unfold BroadcastPlan.make
  rw [joined]
  dsimp only
  rw [if_neg (not_not.mpr rfl)]
  exact ⟨_, rfl⟩

theorem PackedWeights.filterChannels_of_pack {compute : ComputeType} {filter : Value}
    {bias : Option Value} {flags : UInt32} {zeroPoint : Int32} {packed : PackedWeights}
    (made : pack compute filter bias flags zeroPoint = .ok packed) :
    filterChannels filter.shape flags = .ok (packed.inner, packed.outputs) := by
  unfold pack at made
  obtain ⟨channels, found, made⟩ := bind_eq_ok_iff.mp made
  rw [mapError_eq_ok_iff.mp found]
  obtain ⟨contents, _, made⟩ := bind_eq_ok_iff.mp made
  cases compute
  case fp32 =>
    obtain ⟨_, _, made⟩ := bind_eq_ok_iff.mp made
    obtain ⟨_, _, made⟩ := bind_eq_ok_iff.mp made
    obtain ⟨_, _, made⟩ := bind_eq_ok_iff.mp made
    cases made
    rfl
  case fp16 =>
    obtain ⟨_, _, made⟩ := bind_eq_ok_iff.mp made
    obtain ⟨_, _, made⟩ := bind_eq_ok_iff.mp made
    obtain ⟨_, _, made⟩ := bind_eq_ok_iff.mp made
    cases made
    rfl
  case qs8 =>
    obtain ⟨_, _, made⟩ := bind_eq_ok_iff.mp made
    obtain ⟨_, _, made⟩ := bind_eq_ok_iff.mp made
    obtain ⟨_, _, made⟩ := bind_eq_ok_iff.mp made
    cases made
    rfl
  all_goals cases made

/-- A product takes every shape of which its filter makes the shape of the output. -/
theorem Product.rowCount_eq {weights : PackedWeights} {input filter output : Shape}
    {bias : Option Shape} {flags : UInt32} {rank : Nat} (rest : List Shape)
    (shape : OpKind.productShape input filter bias flags rank = .ok output)
    (channels : filterChannels filter flags = .ok (weights.inner, weights.outputs)) :
    Product.rowCount weights (input :: rest) output = .ok input.batch := by
  obtain ⟨inner, outputs, same, last, _, follows⟩ := OpKind.productShape_eq_ok_iff.mp shape
  cases channels.symm.trans same
  have count : output.elementCount = input.batch * weights.outputs := by
    rw [follows]
    split
    · simp [Shape.elementCount, Shape.batch]
    · rw [Shape.elementCount_append]
      simp [Shape.elementCount, Shape.batch]
  have filled : input ≠ [] := by
    rintro rfl
    cases last
  have matching : input.channels = weights.inner := by
    unfold Shape.channels
    rw [last]
    rfl
  exact rowCount_eq_ok_iff.mpr ⟨input, rfl, filled, matching, count, rfl⟩

/-- A pooling takes every image batch of its channels. -/
theorem Pooling.extent_eq {images height width found rank : Nat} {output : Shape}
    (shape : OpKind.pooledShape [images, height, width, found] rank = .ok output)
    (channels : Nat) (rest : List Shape) :
    Pooling.extent channels ([images, height, width, found] :: rest) output =
      if found = channels then .ok (images, height * width)
      else Outcome.invalidParameter (.channelsChanged .globalAveragePooling2d channels found) := by
  obtain ⟨_, _, _, _, same, follows⟩ := OpKind.pooledShape_eq_ok_iff.mp shape
  cases same
  have count : output.elementCount = images * found := by
    rw [follows]
    split <;> simp [Shape.elementCount]
  show (if found ≠ channels then _ else _ : Outcome (Nat × Nat)) = _
  by_cases kept : found = channels
  · rw [if_neg (not_not.mpr kept), if_pos kept, if_neg (not_not.mpr (by rw [count, kept]))]
    rfl
  · rw [if_pos kept, if_neg kept]

/-! ## Shapes of admitted nodes -/

/-- A pooling has as many channels in its input as the table gave it at its creation. Other nodes
may have any shapes. -/
def Node.KeepsChannels (node : Node) (olds values : List Value) : Prop :=
  node.kind = .globalAveragePooling2d →
    (node.operand? values 0).map (·.shape.channels) =
      (node.operand? olds 0).map (·.shape.channels)

instance (node : Node) (olds values : List Value) : Decidable (node.KeepsChannels olds values) :=
  inferInstanceAs (Decidable (_ → _))

section Table

variable {olds values operands : List Value} {node : Node} {output : Value}

/-- The filter of a product keeps its shape. -/
theorem ReshapedTable.filter_shape (table : ReshapedTable olds values)
    (admitted : node.Admitted values operands output) (multiply : node.kind = .fullyConnected)
    {old filter : Value} (was : node.operand? olds 1 = some old)
    (now : node.operand? values 1 = some filter) : filter.shape = old.shape := by
  obtain ⟨id, read, foundOld⟩ := Option.bind_eq_some_iff.mp was
  obtain ⟨again, readAgain, found⟩ := Option.bind_eq_some_iff.mp now
  cases read.symm.trans readAgain
  have reshaped := table.value foundOld found
  refine reshaped.fixed (.inl ?_)
  rw [← reshaped.isStatic_eq]
  exact admitted.isStatic_weight multiply (by decide) read found

/-- A pooling keeps its channels when its current input has those that it was made for. -/
theorem Node.Admitted.keepsChannels_iff {first : Value} {rest : List Value}
    (admitted : node.Admitted values (first :: rest) output)
    (pool : node.kind = .globalAveragePooling2d) {pooling : Pooling}
    (madeFor : (StandardOperator.pooling pooling).MadeFor node olds) :
    node.KeepsChannels olds values ↔ first.shape.channels = pooling.channels := by
  obtain ⟨id, input, read, foundInput, channels⟩ := madeFor.channels_eq pooling rfl
  have made : input.shape.channels = pooling.channels := by
    unfold Pooling.imageChannels at channels
    split at channels
    · rename_i same
      rw [same]
      exact Except.ok.inj channels
    · cases channels
  have old : node.operand? olds 0 = some input :=
    Option.bind_eq_some_iff.mpr ⟨id, read, foundInput⟩
  have now : node.operand? values 0 = some first := admitted.operand?_eq 0
  unfold Node.KeepsChannels
  rw [old, now, Option.map_some, Option.map_some, Option.some.injEq, made]
  exact ⟨fun kept => kept pool, fun same _ => same⟩

/-- A made operator takes the current shapes of its node exactly when a pooling has kept its
channels. It refuses others as invalid parameters. -/
theorem StandardOperator.setup_outcome (table : ReshapedTable olds values)
    (admitted : node.Admitted values operands output) {operator : StandardOperator}
    (madeFor : operator.MadeFor node olds) (serves : operator.Serves node.kind)
    (holds : operator.HoldsWeightsOf node olds) :
    match (operator.setup (operands.map (·.shape)) output.shape).2 with
    | .ok () => node.KeepsChannels olds values
    | .error fault => ¬ node.KeepsChannels olds values ∧
        ∃ cause, fault = .refused (.invalidParameter cause) := by
  have shape := admitted.shape
  obtain ⟨first, rest, rfl⟩ := admitted.exists_operand
  rw [List.map_cons] at shape ⊢
  unfold OpKind.outputShape at shape
  have other : node.kind ≠ .globalAveragePooling2d → node.KeepsChannels olds values :=
    fun different pool => absurd pool different
  cases operator with
  | mapping mapping =>
      change node.kind.isUnary = true at serves
      rw [if_pos serves, Except.ok.injEq] at shape
      simp only [setup, Mapping.setup, ← shape, sharedCount_self]
      exact other (by rintro same; rw [same] at serves; cases serves)
  | conversion conversion =>
      change node.kind = .convert at serves
      rw [if_pos (by rw [serves]; rfl), Except.ok.injEq] at shape
      simp only [setup, Conversion.setup, ← shape, sharedCount_self]
      exact other (by rw [serves]; decide)
  | combination combination =>
      change node.kind.isBinary = true at serves
      have notUnary : ¬ node.kind.isUnary = true := by
        revert serves
        cases node.kind <;> decide
      rw [if_neg notUnary, if_pos serves] at shape
      cases rest with
      | nil => cases shape
      | cons second rest =>
          obtain ⟨plan, made⟩ :=
            BroadcastPlan.exists_make (OpKind.combinedShape_eq_ok_iff.mp shape)
          have planned : (do
              BroadcastPlan.make (← operand (first.shape :: (second :: rest).map (·.shape)) 0)
                (← operand (first.shape :: (second :: rest).map (·.shape)) 1) output.shape :
              Outcome BroadcastPlan) = .ok plan := made
          simp only [setup, Combination.setup, planned]
          exact other (by rintro same; rw [same] at serves; cases serves)
  | pooling pooling =>
      change node.kind = .globalAveragePooling2d at serves
      rw [serves, if_neg (by decide), if_neg (by decide), if_pos rfl] at shape
      obtain ⟨images, height, width, found, batch, _⟩ := OpKind.pooledShape_eq_ok_iff.mp shape
      rw [batch] at shape ⊢
      have keeps : node.KeepsChannels olds values ↔ found = pooling.channels := by
        rw [admitted.keepsChannels_iff serves madeFor, batch]
        rfl
      simp only [setup, Pooling.setup, Pooling.extent_eq shape, keeps]
      by_cases kept : found = pooling.channels
      · rw [if_pos kept]
        exact kept
      · rw [if_neg kept]
        exact ⟨kept, _, rfl⟩
  | product product =>
      change node.kind = .fullyConnected at serves
      obtain ⟨filter, bias, weights, packed⟩ := holds
      unfold Node.productWeights? at weights
      rw [if_pos serves] at weights
      obtain ⟨old, was, same⟩ := Option.map_eq_some_iff.mp weights
      cases same
      rw [serves, if_neg (by decide), if_neg (by decide), if_neg (by decide)] at shape
      cases rest with
      | nil => cases shape
      | cons second rest =>
          have channels := PackedWeights.filterChannels_of_pack packed
          rw [← table.filter_shape admitted serves was (admitted.operand?_eq 1)] at channels
          simp only [setup, Product.setup, Product.rowCount_eq _ shape channels]
          exact other (by rw [serves]; decide)

end Table

end TensorEngine
