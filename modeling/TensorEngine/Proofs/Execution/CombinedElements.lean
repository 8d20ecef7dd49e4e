import TensorEngine.Proofs.Execution.Binding
import TensorEngine.Proofs.Execution.Dataflow
import TensorEngine.Proofs.Kernel.Combining
import TensorEngine.Proofs.Kernel.SoundCreation

/-!
Contract: compiled combinations compute the broadcasting of the functions of their nodes.

Owns:
- `Node.Combines`, the function of two elements that a node of a binary kind declares;
- the theorem that every such operator of a compiled graph has the function of its own node;
- the theorem on the results of its runs.

Does not own: how elements are found and written.
-/

namespace TensorEngine

open Making TensorEngine.Numeric

/-! ## Functions of nodes -/

/-- The parameters by which a node reads and makes codes: those of both operands, those of its
result, and the bounds of its codes. -/
structure Node.CombinesCodes (node : Node) (values : List Value) (left right output : Quantization)
    (low high : Int32) : Prop where
  left : ∃ value, node.operand? values 0 = some value ∧ value.quantization = some left
  right : ∃ value, node.operand? values 1 = some value ∧ value.quantization = some right
  output : ∃ value, node.result? values = some value ∧ value.quantization = some output ∧
    output.codeBounds value.element node.params.range.1 node.params.range.2 = .ok (low, high)

/-- The function of two elements that a node declares for each type that it can compute in: numbers
are combined and confined to the range of the node, and codes are combined through the numbers that
they stand for. -/
inductive Node.Combines (node : Node) (values : List Value) (function : BinaryFunction) :
    ComputeType → ElementFunction → Prop where
  | single : Combines node values function .fp32 (.of fun x y : Float32 =>
      .ok (Binary32.bounded node.params.range.1 node.params.range.2 (function.apply x y)))
  | half : Combines node values function .fp16 (.of fun x y : Half =>
      .ok (Half.ofFloat32 (Binary32.bounded node.params.range.1 node.params.range.2
        (function.apply x.toFloat32 y.toFloat32))))
  | signed {left right output : Quantization} {low high : Int32}
      (codes : node.CombinesCodes values left right output low high) :
      Combines node values function .qs8
        (.of (Combination.ofCodes (α := Int8) function left right output low high))
  | unsigned {left right output : Quantization} {low high : Int32}
      (codes : node.CombinesCodes values left right output low high) :
      Combines node values function .qu8
        (.of (Combination.ofCodes (α := UInt8) function left right output low high))

def Combination.ServesFor (combination : Combination) (node : Node) (values : List Value) : Prop :=
  ∃ function, BinaryFunction.ofKind node.kind = .ok function ∧
    node.Combines values function node.compute combination.scalar

theorem OpKind.not_isUnary_of_isBinary {kind : OpKind} (binary : kind.isBinary = true) :
    ¬ kind.isUnary = true := by
  revert binary
  cases kind <;> decide

section Families

variable {context : CreateContext}

theorem Combination.codeBody_declared {signed : Bool} {body : CombinationBody}
    (made : codeBody context signed = .ok body) :
    ∃ left right output low high, body = .codes signed left right output low high ∧
      context.node.CombinesCodes context.values left right output low high := by
  unfold codeBody at made
  obtain ⟨left, readLeft, made⟩ := bind_eq_ok_iff.mp made
  obtain ⟨right, readRight, made⟩ := bind_eq_ok_iff.mp made
  obtain ⟨output, readOutput, made⟩ := bind_eq_ok_iff.mp made
  split at made
  · rename_i foundLeft foundRight found
    obtain ⟨codes, bounded, made⟩ := bind_eq_ok_iff.mp made
    cases made
    exact ⟨_, _, _, _, _, rfl, ⟨left, CreateContext.input_eq_operand?.mp readLeft, foundLeft⟩,
      ⟨right, CreateContext.input_eq_operand?.mp readRight, foundRight⟩,
      output, CreateContext.output_eq_result?.mp readOutput, found, lift_eq_ok_iff.mp bounded⟩
  · cases made

theorem Combination.factory_serves (lanes : Nat) :
    ((factory context.node.compute lanes).create context).Ends
      (fun combination => combination.ServesFor context.node context.values)
      (fun _ => True) := by
  refine (Ends.of_outcome_ok fun function chosen => chosen).bind fun function chosen => ?_
  refine (Ends.of_outcome_ok fun body made => made).bind fun body made => ?_
  refine Ends.pure ⟨function, chosen, ?_⟩
  unfold makeBody at made
  generalize context.node.compute = compute at made
  cases compute with
  | fp32 =>
      cases made
      exact .single
  | fp16 =>
      cases made
      exact .half
  | qs8 =>
      obtain ⟨_, _, _, _, _, rfl, codes⟩ := codeBody_declared made
      exact .signed codes
  | qu8 =>
      obtain ⟨_, _, _, _, _, rfl, codes⟩ := codeBody_declared made
      exact .unsigned codes
  | _ => cases made

/-- Every factory that the library offers for a binary kind makes a combination for the function of
its node. -/
theorem Catalog.Offers.combines {factory : Factory StandardOperator}
    (offers : Catalog.Offers context.node.key factory) :
    (factory.create context).Ends (fun operator => context.node.kind.isBinary = true →
      ∃ combination, operator = .combination combination ∧
        combination.ServesFor context.node context.values) (fun _ => True) := by
  cases offers.family with
  | combination _ lanes =>
      exact (Combination.factory_serves lanes).map fun combination serves _ =>
        ⟨combination, rfl, serves⟩
  | conversion convert =>
      exact (Ends.somehow _).map fun _ _ binary =>
        absurd convert (OpKind.ne_of_isBinary binary).1
  | product multiply =>
      exact (Ends.somehow _).map fun _ _ binary =>
        absurd multiply (OpKind.ne_of_isBinary binary).2
  | pooling pool =>
      refine (Ends.somehow _).map fun _ _ binary => ?_
      rw [show context.node.kind = .globalAveragePooling2d from pool] at binary
      cases binary
  | mapping unary =>
      exact (Ends.somehow _).map fun _ _ binary =>
        absurd unary (OpKind.not_isUnary_of_isBinary binary)

end Families

/-- In a compiled graph, the operator of every node of a binary kind is a sound combination for the
function of its own node, whatever calls have been made. -/
theorem CompileJob.combines {job : CompileJob} {workshop : Workshop}
    {executable : Executable StandardOperator} {closed : Graph}
    (ran : (job.run workshop).1 = .ok (executable, closed)) (history : List SessionCall)
    {step : Step StandardOperator}
    (listed : step ∈ ((Session.start executable).afterCalls history).executable.steps)
    (binary : step.node.kind.isBinary = true) :
    ∃ combination, step.operator = .combination combination ∧ combination.body.Sound ∧
      combination.ServesFor step.node job.graph.values := by
  obtain ⟨before, among, _, stays⟩ := exists_made ran history listed
  rw [stays.node_eq] at binary ⊢
  have sound := ensures ran (fun _ _ _ _ admits offers => offers.sound admits) before among
  obtain ⟨combination, same, serves⟩ :=
    ensures ran (fun _ _ _ _ _ offers => offers.combines) before among binary
  have body := sound.body
  have blank := stays.blank_eq
  rw [same] at body blank
  cases found : step.operator with
  | combination after =>
      rw [found] at blank
      injection blank with blank
      have sameBody := congrArg Combination.body blank
      have sameScalar := congrArg Combination.scalar blank
      change after.body = combination.body at sameBody
      change after.scalar = combination.scalar at sameScalar
      refine ⟨after, rfl, by rw [sameBody]; exact body, ?_⟩
      unfold Combination.ServesFor
      rw [sameScalar]
      exact serves
  | _ =>
      rw [found] at blank
      cases blank

/-! ## Results of runs -/

theorem Combination.exists_setup (combination : Combination) {left right output : Shape}
    (joined : Shape.broadcast? left right = some output) :
    ∃ plan, BroadcastPlan.make left right output = .ok plan ∧
      Operator.setup (StandardOperator.combination combination) [left, right] output =
        (.combination { combination with plan := plan }, .ok ()) := by
  obtain ⟨plan, made⟩ := BroadcastPlan.exists_make joined
  have done : combination.setup [left, right] output =
      ({ combination with plan := plan }, .ok ()) := by
    have planned : (do
        BroadcastPlan.make (← operand [left, right] 0) (← operand [left, right] 1) output) =
          .ok plan := made
    unfold Combination.setup
    rw [planned]
  refine ⟨plan, made, ?_⟩
  show (combination.setup [left, right] output).map StandardOperator.combination id = _
  rw [done]
  rfl

/-- Broadcasting is exact.

A constructed graph has been compiled on a host with any features and any settings, the size of
tiles included. Take any node of a binary kind, in whatever type it computes, after any calls on the
compiled graph. Its operator takes any two shapes that broadcast, with the shape that they broadcast
to. It reads both inputs by a plan whose rows, whose strides and whose flat traversal lead to the
elements that broadcasting defines. Every run succeeds on aligned buffers of whole elements that are
large enough, in any order of its tiles. It consists of one write for each place of the output and
changes nothing else. The element at the position of any multi-index is then the function of the
node at two elements, of which each is at the position of its own multi-index: the coordinates of
dimensions that its input lacks are dropped, and those along its dimensions of one are zero. -/
theorem broadcasting_is_exact (job : CompileJob) (workshop : Workshop)
    (executable : Executable StandardOperator) (closed : Graph)
    (ran : (job.run workshop).1 = .ok (executable, closed)) (history : List SessionCall) :
    ∀ step ∈ ((Session.start executable).afterCalls history).executable.steps,
      step.node.kind.isBinary = true →
      ∃ function scalar, BinaryFunction.ofKind step.node.kind = .ok function ∧
        step.node.Combines job.graph.values function step.node.compute scalar ∧
        ∀ left right output, Shape.broadcast? left right = some output →
          ∃ ready : Combination,
            Operator.setup step.operator [left, right] output = (.combination ready, .ok ()) ∧
            (left.elementCount < 2 ^ 64 → right.elementCount < 2 ^ 64 →
              ready.plan.Follows left right output) ∧
            ∀ schedule first second room, first.Fits scalar.width left.elementCount →
              second.Fits scalar.width right.elementCount →
              room.Fits scalar.width output.elementCount →
              let done := Operator.run (StandardOperator.combination ready) schedule [first, second]
                room
              done.outcome = .ok () ∧ ∃ writes, ready.writes schedule [first, second] = .ok writes ∧
                scalar.Broadcasts left right output first second room writes done.written := by
  intro step listed binary
  obtain ⟨combination, same, sound, function, chosen, combines⟩ :=
    CompileJob.combines ran history listed binary
  rw [same]
  refine ⟨function, combination.scalar, chosen, combines, fun left right output joined => ?_⟩
  obtain ⟨plan, made, done⟩ := combination.exists_setup joined
  obtain ⟨inside, leftCount, rightCount⟩ := BroadcastPlan.inside_of_make made
  have count := BroadcastPlan.count_of_make made
  refine ⟨{ combination with plan := plan }, done,
    fun short shortRight => BroadcastPlan.follows_of_make made short shortRight, ?_⟩
  intro schedule first second room fits fitsRight fitsRoom
  have positive := combination.scalar_width_pos
  have follows := BroadcastPlan.follows_of_make made (fits.count_lt positive)
    (fitsRight.count_lt positive)
  rw [← leftCount] at fits
  rw [← rightCount] at fitsRight
  rw [← count] at fitsRoom
  obtain ⟨bytes, writes, ranContents, ranWrites, broadcasts⟩ :=
    Combination.contents_broadcasts { combination with plan := plan } sound inside follows schedule
      fits fitsRight fitsRoom
  intro done
  rw [show done = _ from StandardOperator.run_eq_of_contents ranContents]
  exact ⟨rfl, writes, ranWrites, broadcasts⟩

/-- A column of two numbers, from which a row of three numbers is subtracted. -/
def columnGraph : List BuildCall :=
  [.tensor ⟨.float32, [2, 1], none, some 0, .externalInput⟩,
    .tensor ⟨.float32, [3], none, some 1, .externalInput⟩,
    .tensor ⟨.float32, [2, 3], none, some 2, .externalOutput⟩,
    .node .subtract [0, 1] [2] (.outputRange Binary32.negativeInfinity Binary32.infinity) 0]

def columnJob : CompileJob := ⟨.portable, 3, columnGraph, { tileElements := 2 }, none⟩

/-- The theorem applies to the column of 10 and 20 and the row of 1, 2 and 3: the last of six
differences is 17. -/
theorem broadcasting_is_exact_column :
    ∃ executable closed, (columnJob.run {}).1 = .ok (executable, closed) ∧
      ∀ step ∈ executable.steps, ∃ ready : Combination,
        Operator.setup step.operator [[2, 1], [3]] [2, 3] = (.combination ready, .ok ()) ∧
          let done := Operator.run (StandardOperator.combination ready) .backwards
            [Buffer.fresh #[0, 0, 32, 65, 0, 0, 160, 65],
              Buffer.fresh #[0, 0, 128, 63, 0, 0, 0, 64, 0, 0, 64, 64]]
            (Buffer.fresh (Array.replicate 24 0))
          done.outcome = .ok () ∧ elementBytes done.written 4 5 = [0, 0, 136, 65] := by
  have graphNodes : columnJob.graph.nodes = [⟨0, .subtract, .fp32, [0, 1], [2],
      .outputRange Binary32.negativeInfinity Binary32.infinity, 0⟩] := rfl
  obtain ⟨executable, closed, ran, nodes⟩ :=
    CompileJob.exists_of_isSome columnJob {} (by cbv)
  refine ⟨executable, closed, ran, fun step listed => ?_⟩
  have node : step.node ∈ executable.steps.map (·.node) := List.mem_map_of_mem listed
  rw [nodes, graphNodes, List.mem_singleton] at node
  obtain ⟨function, scalar, chosen, combines, broadcasts⟩ :=
    broadcasting_is_exact columnJob {} executable closed ran [] step listed (by rw [node]; rfl)
  rw [node] at chosen combines
  cases chosen
  cases combines
  obtain ⟨ready, done, _, runs⟩ := broadcasts [2, 1] [3] [2, 3] (by decide)
  obtain ⟨ended, writes, _, exact⟩ := runs .backwards
    (Buffer.fresh #[0, 0, 32, 65, 0, 0, 160, 65])
    (Buffer.fresh #[0, 0, 128, 63, 0, 0, 0, 64, 0, 0, 64, 64]) (Buffer.fresh (Array.replicate 24 0))
    (by decide) (by decide) (by decide)
  refine ⟨ready, done, ended, ?_⟩
  refine Except.ok.inj ((exact.element [1, 2] (by decide)).symm.trans ?_)
  decide +kernel

end TensorEngine
