import TensorEngine.Proofs.Kernel.Acceptance
import TensorEngine.Proofs.Kernel.SharedTables
import TensorEngine.Proofs.Kernel.SharedWeights
import TensorEngine.Proofs.Kernel.TileFreedom

/-!
Contract: what a factory makes depends on the node alone.

Owns:
- `CreateContext.alone`, a node without the choices of a host, and
  `StandardOperator.MadeAlone`, an operator that is, up to those choices, what the portable factory
  makes for its node without any cache;
- the theorems that every factory that a catalog offers makes only such operators, on any host:
  mappings from a cache of tables whose entries are those of their keys, and products from a cache
  of weights whose entries are.

Does not own: sequences of compilations.
-/

namespace TensorEngine

open Making

/-- A node on a portable host that works element by element. -/
def CreateContext.alone (context : CreateContext) : CreateContext :=
  { context with features := .portable, tileElements := 1 }

/-- An operator is what the portable factory makes for a node without any cache, apart from its
tiles, its lanes and the serial number of its weights. -/
def StandardOperator.MadeAlone (operator : StandardOperator) (node : Node) (values : List Value) :
    Prop :=
  ∃ alone after, (portableFactory node.key).create ⟨node, values, .portable, 1⟩ {} =
    (.ok alone, after) ∧ operator.plain = alone.plain

/-- A node alone determines the plain form of its operator. -/
theorem StandardOperator.MadeAlone.plain_eq {first second : StandardOperator} {node : Node}
    {values : List Value} (made : first.MadeAlone node values)
    (other : second.MadeAlone node values) : first.plain = second.plain := by
  obtain ⟨alone, _, ran, same⟩ := made
  obtain ⟨again, _, ranAgain, sameAgain⟩ := other
  cases ran.symm.trans ranAgain
  exact same.trans sameAgain.symm

section Families

variable {context : CreateContext}

/-! ## Mappings -/

section Mappings

variable {function : UnaryFunction}
  (chosen : UnaryFunction.ofNode context.node.kind context.node.params = .ok function)

include chosen

theorem Mapping.codeBody_alone {element : ElementType} {input output : Quantization}
    (computed : ComputeType.ofElement? element = some context.node.compute) :
    (Mapping.codeBody context context.node.compute function element input output).Keeps
      (fun _ code => TabulatedByKey code)
      (fun body => Mapping.codeBody context.alone context.node.compute function element input
        output {} = (.ok body, {})) := by
  -- all functions with a table go through the cache alike
  have tabulated : ∀ (notClamp : context.node.kind ≠ .clamp),
      (Workshop.table (function.tableKey ⟨context.node.kind, context.node.compute⟩ input output
          context.features) fun _ => function.tabulate element input output).Keeps
        (fun _ code => TabulatedByKey code)
        (fun table => (Workshop.table (function.tableKey
          ⟨context.node.kind, context.node.compute⟩ input output .portable) fun _ =>
            function.tabulate element input output) {} = (.ok table, {})) :=
    fun notClamp => (table_keeps ⟨⟨_, chosen⟩, notClamp, computed, rfl⟩).mono fun table filled =>
      Prod.ext filled rfl
  cases function with
  | copy => exact Keeps.pure rfl
  | clamp low high =>
      refine (Keeps.ofOutcome fun _ given => given).bind fun codes given => Keeps.pure ?_
      exact bind_of_ok (lift_of_ok given {}) _
  | sigmoid =>
      refine (tabulated ?_).bind fun table filled => Keeps.pure (bind_of_ok filled _)
      intro clamp
      rw [clamp] at chosen
      cases chosen
  | tanh =>
      refine (tabulated ?_).bind fun table filled => Keeps.pure (bind_of_ok filled _)
      intro clamp
      rw [clamp] at chosen
      cases chosen
  | leakyRelu slope =>
      refine (tabulated ?_).bind fun table filled => Keeps.pure (bind_of_ok filled _)
      intro clamp
      rw [clamp] at chosen
      cases chosen
  | abs => exact Keeps.ofOutcome fun _ failed => (nomatch failed)
  | negate => exact Keeps.ofOutcome fun _ failed => (nomatch failed)

theorem Mapping.scaledBody_alone {output : Value} (found : context.output = .ok output)
    (computed : ComputeType.ofElement? output.element = some context.node.compute) :
    (Mapping.scaledBody context context.node.compute function).Keeps
      (fun _ code => TabulatedByKey code)
      (fun body => Mapping.scaledBody context.alone context.node.compute function {} =
        (.ok body, {})) := by
  refine (Keeps.ofOutcome fun input given => given).bind fun input foundInput => ?_
  refine (Keeps.ofOutcome fun output given => given).bind fun result foundOutput => ?_
  cases found.symm.trans foundOutput
  have unfolded : Mapping.scaledBody context.alone context.node.compute function {} = _ :=
    (bind_of_ok (lift_of_ok foundInput {}) _).trans (bind_of_ok (lift_of_ok found {}) _)
  rw [unfolded]
  cases input.quantization with
  | none => exact Keeps.ofOutcome fun _ failed => (nomatch failed)
  | some scale =>
      cases output.quantization with
      | none => exact Keeps.ofOutcome fun _ failed => (nomatch failed)
      | some resultScale => exact Mapping.codeBody_alone chosen computed

theorem Mapping.makeBody_alone {output : Value} (found : context.output = .ok output)
    (computed : ComputeType.ofElement? output.element = some context.node.compute) :
    (Mapping.makeBody context context.node.compute function).Keeps
      (fun _ code => TabulatedByKey code)
      (fun body => Mapping.makeBody context.alone context.node.compute function {} =
        (.ok body, {})) := by
  have scaled := Mapping.scaledBody_alone chosen found computed
  cases compute : context.node.compute
  case fp32 => exact Keeps.pure rfl
  case fp16 => exact Keeps.pure rfl
  case qs8 =>
    rw [compute] at scaled
    rw [makeBody_qs8, makeBody_qs8]
    exact scaled
  case qu8 =>
    rw [compute] at scaled
    rw [makeBody_qu8, makeBody_qu8]
    exact scaled
  all_goals exact Keeps.ofOutcome fun _ failed => (nomatch failed)

end Mappings

/-- A mapping is that of its node alone, in its own tiles and blocks. -/
theorem Mapping.factory_alone {output : Value} (found : context.output = .ok output)
    (computed : ComputeType.ofElement? output.element = some context.node.compute) (lanes : Nat) :
    ((Mapping.factory context.node.compute lanes).create context).Keeps
      (fun _ code => TabulatedByKey code)
      (fun mapping => ∃ alone, (Mapping.factory context.node.compute 1).create context.alone {} =
          (.ok alone, {}) ∧
        mapping = { alone with lanes := lanes, tileElements := context.tileElements }) := by
  refine (Keeps.ofOutcome fun function chosen => chosen).bind fun function chosen => ?_
  refine (Mapping.makeBody_alone chosen found computed).bind fun body made => Keeps.pure ?_
  exact ⟨_, (bind_of_ok (lift_of_ok chosen {}) _).trans (bind_of_ok made _), rfl⟩

/-! ## Other families -/

theorem Conversion.factory_alone (context : CreateContext) :
    ((Conversion.factory context.node.compute).create context).Ends
      (fun conversion => ∃ alone, (Conversion.factory context.node.compute).create context.alone
          {} = (.ok alone, {}) ∧
        conversion = { alone with tileElements := context.tileElements }) (fun _ => True) := by
  refine (Ends.of_outcome_ok fun input given => given).bind fun input foundInput => ?_
  refine (Ends.of_outcome_ok fun output given => given).bind fun output foundOutput => ?_
  refine (Ends.of_outcome_ok fun body given => given).bind fun body made => Ends.pure ?_
  refine ⟨{ body := body, tileElements := 1, count := 0 },
    (bind_of_ok (lift_of_ok foundInput {}) _).trans ?_, rfl⟩
  exact (bind_of_ok (lift_of_ok foundOutput {}) _).trans (bind_of_ok (lift_of_ok made {}) _)

theorem Combination.factory_alone (context : CreateContext) (lanes : Nat) :
    ((Combination.factory context.node.compute lanes).create context).Ends
      (fun combination => ∃ alone, (Combination.factory context.node.compute 1).create
          context.alone {} = (.ok alone, {}) ∧
        combination = { alone with lanes := lanes, tileElements := context.tileElements })
      (fun _ => True) := by
  refine (Ends.of_outcome_ok fun function given => given).bind fun function chosen => ?_
  refine (Ends.of_outcome_ok fun body given => given).bind fun body made => Ends.pure ?_
  exact ⟨_, (bind_of_ok (lift_of_ok chosen {}) _).trans (bind_of_ok (lift_of_ok made {}) _), rfl⟩

theorem Pooling.factory_alone (context : CreateContext) :
    ((Pooling.factory context.node.compute).create context).Ends
      (fun pooling => ∃ alone, (Pooling.factory context.node.compute).create context.alone {} =
          (.ok alone, {}) ∧
        pooling = { alone with tileElements := context.tileElements }) (fun _ => True) := by
  refine (Ends.of_outcome_ok fun input given => given).bind fun input foundInput => ?_
  refine (Ends.of_outcome_ok fun output given => given).bind fun output foundOutput => ?_
  refine (Ends.of_outcome_ok fun body given => given).bind fun body made => ?_
  refine (Ends.of_outcome_ok fun channels given => given).bind fun channels given => Ends.pure ?_
  refine ⟨{ body := body, channels := channels, tileElements := 1, images := 0, positions := 0 },
    (bind_of_ok (lift_of_ok foundInput {}) _).trans ?_, rfl⟩
  refine (bind_of_ok (lift_of_ok foundOutput {}) _).trans ?_
  exact (bind_of_ok (lift_of_ok made {}) _).trans (bind_of_ok (lift_of_ok given {}) _)

/-- A product made from its operands is that of its node alone, in its own tiles, and with the
serial number of its weights. -/
theorem Product.MadeOf.alone {product : Product} {input filter output : Value} {zeroPoint : Int32}
    (made : product.MadeOf context input filter output zeroPoint)
    (packed : PackedWeights.pack context.node.compute filter
      (context.node.operand? context.values 2) context.node.flags zeroPoint =
        .ok product.artifact.weights) :
    (Product.factory context.node.compute).create context.alone {} =
      (.ok ⟨product.body, ⟨0, product.artifact.weights⟩, 1, 0⟩, { nextSerial := 1 }) := by
  have operand : ∀ {index value}, context.node.operand? context.values index = some value →
      (liftM (context.alone.input index) : Making Value) {} = (.ok value, {}) :=
    fun found => lift_of_ok (CreateContext.input_eq_operand?.mpr found) {}
  have readBias : (if 2 < context.node.inputs.length then
        some <$> (liftM (context.alone.input 2) : Making Value) else pure none) {} =
      (.ok (context.node.operand? context.values 2), {}) := by
    split
    · rename_i long
      obtain ⟨bias, found⟩ := Option.isSome_iff_exists.mp (made.foundBias long)
      rw [found]
      exact map_of_ok (operand found) some
    · rename_i short
      unfold Node.operand?
      rw [List.getElem?_eq_none (Nat.le_of_not_lt short)]
      rfl
  have stamped : (Workshop.packed (Product.packingKey context.node.compute filter
        (context.node.operand? context.values 2) context.node.flags zeroPoint) fun _ =>
      PackedWeights.pack context.node.compute filter (context.node.operand? context.values 2)
        context.node.flags zeroPoint) {} =
      (.ok ⟨0, product.artifact.weights⟩, { nextSerial := 1 }) :=
    Prod.ext (map_eq_ok_iff.mpr ⟨_, packed, rfl⟩) rfl
  refine (bind_of_ok (operand made.found) _).trans ?_
  refine (bind_of_ok (operand made.foundFilter) _).trans ?_
  refine (ite_bind_of_ok readBias _).trans ?_
  refine (bind_of_ok (lift_of_ok made.foundOutput {}) _).trans ?_
  refine (bind_of_ok (lift_of_ok made.body {}) _).trans ?_
  exact bind_of_ok stamped _

end Families

/-! ## All families -/

namespace StandardOperator

theorem portableFactory_combination {key : OpKey} (binary : key.kind.isBinary = true) :
    portableFactory key = (Combination.factory key.compute 1).map combination := by
  obtain ⟨notConvert, notProduct⟩ := OpKind.ne_of_isBinary binary
  have notPool : key.kind ≠ .globalAveragePooling2d := by
    intro pool
    rw [pool] at binary
    cases binary
  unfold portableFactory
  rw [if_neg notConvert, if_neg notPool, if_neg notProduct, if_pos binary]

theorem portableFactory_mapping {key : OpKey} (unary : key.kind.isUnary = true)
    (notConvert : key.kind ≠ .convert) :
    portableFactory key = (Mapping.factory key.compute 1).map mapping := by
  unfold portableFactory
  cases kind : key.kind with
  | convert => exact absurd kind notConvert
  | _ => first | rfl | (rw [kind] at unary; cases unary)

end StandardOperator

/-- Whether a kind applies a function to each element by itself. Only such operators use tables. -/
def OpKind.MapsElements (kind : OpKind) : Prop := kind.isUnary = true ∧ kind ≠ .convert

instance (kind : OpKind) : Decidable kind.MapsElements :=
  inferInstanceAs (Decidable (kind.isUnary = true ∧ kind ≠ .convert))

theorem OpKind.not_mapsElements_of_isBinary {kind : OpKind} (binary : kind.isBinary = true) :
    ¬ kind.MapsElements := by
  revert binary
  cases kind <;> decide

namespace Catalog.Offers

variable {context : CreateContext} {factory : Factory StandardOperator}

/-- Every factory that the library offers keeps a cache of tables by key. A mapping is that of its
node alone. -/
theorem tabulates {operands : List Value} {output : Value}
    (admits : context.Admits operands output)
    (offers : Catalog.Offers context.node.key factory) :
    (factory.create context).Keeps (fun _ code => TabulatedByKey code)
      (fun operator => context.node.kind.MapsElements →
        operator.MadeAlone context.node context.values) := by
  cases offers.family with
  | conversion convert =>
      exact (Conversion.factory_keeps _ context).map fun _ _ maps => absurd convert maps.2
  | pooling pool =>
      refine (Pooling.factory_keeps _ context).map fun _ _ maps => absurd pool ?_
      intro same
      exact absurd maps (by rw [show context.node.kind = _ from same]; decide)
  | product multiply =>
      refine (Product.factory_keeps fun _ _ _ => Keeps.packed_apart _ _).map
        fun _ _ maps => absurd maps ?_
      rw [show context.node.kind = _ from multiply]
      decide
  | combination binary lanes =>
      exact (Combination.factory_keeps _ lanes context).map fun _ _ maps =>
        absurd maps (OpKind.not_mapsElements_of_isBinary binary)
  | mapping unary notConvert lanes =>
      have tables := Mapping.factory_alone admits.output_eq (admits.node.computed notConvert).2
        lanes
      refine tables.map ?_
      rintro _ ⟨alone, ran, rfl⟩ _
      refine ⟨.mapping alone, {}, ?_, rfl⟩
      rw [StandardOperator.portableFactory_mapping unary notConvert]
      exact map_of_ok ran _

/-- Every factory that the library offers keeps a cache of known weights. What it makes, unless it
is a mapping, is that of its node alone. -/
theorem packsAlone {known : List (Value × Option Value)}
    (listed : ∀ weights, context.node.productWeights? context.values = some weights →
      weights ∈ known)
    (offers : Catalog.Offers context.node.key factory) :
    (factory.create context).Keeps (fun packing _ => PackedFrom known packing)
      (fun operator => ¬ context.node.kind.MapsElements →
        operator.MadeAlone context.node context.values) := by
  cases offers.family with
  | conversion convert =>
      refine ((Conversion.factory_keeps _ context).ends (Conversion.factory_alone context)).map ?_
      rintro _ ⟨alone, ran, rfl⟩ _
      refine ⟨.conversion alone, {}, ?_, rfl⟩
      unfold StandardOperator.portableFactory
      rw [if_pos convert]
      exact map_of_ok ran _
  | pooling pool =>
      refine ((Pooling.factory_keeps _ context).ends (Pooling.factory_alone context)).map ?_
      rintro _ ⟨alone, ran, rfl⟩ _
      refine ⟨.pooling alone, {}, ?_, rfl⟩
      unfold StandardOperator.portableFactory
      rw [if_neg (by rw [pool]; decide), if_pos pool]
      exact map_of_ok ran _
  | product multiply =>
      have packs := Product.factory_keeps fun filter zeroPoint found =>
        packed_keeps (listed _ (Node.productWeights?_of_operand multiply found))
          context.node.compute context.node.flags zeroPoint
      refine packs.map ?_
      rintro product ⟨input, filter, output, zeroPoint, made, packed⟩ _
      refine ⟨.product ⟨product.body, ⟨0, product.artifact.weights⟩, 1, 0⟩,
        { nextSerial := 1 }, ?_, ?_⟩
      · unfold StandardOperator.portableFactory
        rw [if_neg (by rw [multiply]; decide), if_neg (by rw [multiply]; decide), if_pos multiply]
        exact map_of_ok (made.alone packed) _
      · show StandardOperator.product ⟨_, _, _, product.rows⟩ = _
        rw [made.rows_eq]
        rfl
  | combination binary lanes =>
      refine ((Combination.factory_keeps _ lanes context).ends
        (Combination.factory_alone context lanes)).map ?_
      rintro _ ⟨alone, ran, rfl⟩ _
      refine ⟨.combination alone, {}, ?_, rfl⟩
      rw [StandardOperator.portableFactory_combination binary]
      exact map_of_ok ran _
  | mapping unary notConvert lanes =>
      exact (Mapping.factory_keeps _ lanes context).map fun _ _ others =>
        absurd ⟨unary, notConvert⟩ others

end Catalog.Offers

end TensorEngine
