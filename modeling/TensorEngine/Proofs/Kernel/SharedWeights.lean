import TensorEngine.Proofs.Cache.Fingerprint
import TensorEngine.Proofs.Kernel.Creation

/-!
Contract: a shared cache of packed weights gives each product the weights of its own node.

Owns:
- the weights of a product in a table of values, and `Node.PackedAlone`, packed weights that are
  those of their own node;
- `PackedFrom`, a cache whose entries are packed from known weights;
- the theorem that every factory keeps such a cache, and makes products with their own weights.

Does not own: which graphs are compiled with one cache.

The key of an entry holds the digest of the weights and everything else that packing reads. As long
as no two streams of known weights share a digest, an entry that is found is what would be packed.
-/

namespace TensorEngine

open Making

/-! ## Packing reads the weights and the layout only -/

namespace PackedWeights

variable {filter other : Value} {bias otherBias : Option Value}

theorem staticContents_congr (same : filter.SameTensor other) (static : filter.isStatic = true) :
    staticContents filter = staticContents other := by
  obtain ⟨bytes, found⟩ := Option.isSome_iff_exists.mp static
  unfold staticContents
  rw [← same.contents_eq, found]

section Bias

variable (same : Option.Rel Value.SameTensor bias otherBias)
  (static : ∀ given, bias = some given → given.isStatic = true) (outputs : Nat)

include same static

theorem singleBias_congr : singleBias bias outputs = singleBias otherBias outputs := by
  cases same with
  | none => rfl
  | some same =>
      unfold singleBias
      simp only [staticContents_congr same (static _ rfl)]

theorem halfBias_congr : halfBias bias outputs = halfBias otherBias outputs := by
  cases same with
  | none => rfl
  | some same =>
      unfold halfBias
      simp only [staticContents_congr same (static _ rfl)]

theorem codeBias_congr (entries : Array Int8) (inner : Nat) (transposed : Bool)
    (zeroPoint : Int32) :
    codeBias bias entries inner outputs transposed zeroPoint =
      codeBias otherBias entries inner outputs transposed zeroPoint := by
  cases same with
  | none => rfl
  | some same =>
      unfold codeBias
      simp only [staticContents_congr same (static _ rfl)]

end Bias

/-- Equal weights of one layout are packed alike. -/
theorem pack_congr (sameFilter : filter.SameTensor other) (static : filter.isStatic = true)
    (sameBias : Option.Rel Value.SameTensor bias otherBias)
    (staticBias : ∀ given, bias = some given → given.isStatic = true) {flags otherFlags : UInt32}
    (layout : transposedFilter flags = transposedFilter otherFlags) (compute : ComputeType)
    (zeroPoint : Int32) :
    pack compute filter bias flags zeroPoint =
      pack compute other otherBias otherFlags zeroPoint := by
  have channels : filterChannels filter.shape flags = filterChannels other.shape otherFlags := by
    unfold filterChannels
    rw [sameFilter.shape_eq, layout]
  unfold pack
  rw [channels, staticContents_congr sameFilter static, layout]
  simp only [singleBias_congr sameBias staticBias, halfBias_congr sameBias staticBias,
    codeBias_congr sameBias staticBias]

/-- Only the packing of codes reads the zero point of the input. -/
theorem pack_zeroPoint {compute : ComputeType} (notCodes : compute ≠ .qs8) (filter : Value)
    (bias : Option Value) (flags : UInt32) (zeroPoint another : Int32) :
    pack compute filter bias flags zeroPoint = pack compute filter bias flags another := by
  unfold pack
  cases compute with
  | qs8 => exact absurd rfl notCodes
  | _ => rfl

end PackedWeights

/-! ## Weights of products -/

namespace Node

/-- The zero point of the first operand, zero for an operand without quantization. -/
def inputZeroPoint (node : Node) (values : List Value) : Int32 :=
  ((node.operand? values 0).bind (·.quantization)).elim 0 (·.zeroPoint)

def productWeights? (node : Node) (values : List Value) : Option (Value × Option Value) :=
  if node.kind = .fullyConnected then
    (node.operand? values 1).map fun filter => (filter, node.operand? values 2)
  else none

theorem productWeights?_of_operand {node : Node} {values : List Value} {filter : Value}
    (multiply : node.kind = .fullyConnected) (found : node.operand? values 1 = some filter) :
    node.productWeights? values = some (filter, node.operand? values 2) := by
  unfold productWeights?
  rw [if_pos multiply, found]
  rfl

/-- Packed weights are those that come of packing the filter and the bias of a node directly. -/
def PackedAlone (node : Node) (values : List Value) (packed : PackedWeights) : Prop :=
  ∃ filter bias, node.productWeights? values = some (filter, bias) ∧
    PackedWeights.pack node.compute filter bias node.flags (node.inputZeroPoint values) =
      .ok packed

end Node

/-- An operator has the packed weights of its own node, or the node is no product. -/
def StandardOperator.HoldsWeightsOf (operator : StandardOperator) (node : Node)
    (values : List Value) : Prop :=
  match operator.packed? with
  | some artifact => node.PackedAlone values artifact.weights
  | none => node.kind ≠ .fullyConnected

/-- Filters and biases as graphs admit them, of which no two have streams with one digest. -/
structure DistinctWeights (known : List (Value × Option Value)) : Prop where
  filter : ∀ weights ∈ known, weights.1.IsWeight 2
  bias : ∀ weights ∈ known, ∀ given, weights.2 = some given → given.IsWeight 1
  stream_eq : ∀ weights ∈ known, ∀ others ∈ known,
    Fingerprint.ofWeights weights.1 weights.2 = Fingerprint.ofWeights others.1 others.2 →
      Fingerprint.weightStream weights.1 weights.2 = Fingerprint.weightStream others.1 others.2

theorem DistinctWeights.pack_eq {known : List (Value × Option Value)}
    (distinct : DistinctWeights known) {weights others : Value × Option Value}
    (listed : weights ∈ known) (listedOthers : others ∈ known) {compute otherCompute : ComputeType}
    {flags otherFlags : UInt32} {zeroPoint otherZeroPoint : Int32}
    (sameKey : Product.packingKey compute weights.1 weights.2 flags zeroPoint =
      Product.packingKey otherCompute others.1 others.2 otherFlags otherZeroPoint) :
    PackedWeights.pack compute weights.1 weights.2 flags zeroPoint =
      PackedWeights.pack otherCompute others.1 others.2 otherFlags otherZeroPoint := by
  simp only [Product.packingKey, PackingKey.mk.injEq, true_and] at sameKey
  obtain ⟨sameDigest, rfl, sameLayout, rfl⟩ := sameKey
  obtain ⟨sameFilter, sameBias⟩ := Fingerprint.weightStream_injective
    (distinct.filter weights listed) (distinct.filter others listedOthers)
    (distinct.bias weights listed) (distinct.bias others listedOthers)
    (distinct.stream_eq weights listed others listedOthers sameDigest)
  exact PackedWeights.pack_congr sameFilter (distinct.filter weights listed).static sameBias
    (fun given found => (distinct.bias weights listed given found).static) sameLayout _ _

/-! ## Caches of known weights -/

/-- Every entry of a cache is packed from known weights, under the key of that packing, and known
weights have different digests. Without a cache there is nothing to tell apart. -/
def PackedFrom (known : List (Value × Option Value)) (cache : Option PackingCache) : Prop :=
  ∀ packing, cache = some packing → DistinctWeights known ∧
    ∀ key artifact, packing.peek? key = some artifact →
      ∃ weights ∈ known, ∃ compute flags zeroPoint,
        key = Product.packingKey compute weights.1 weights.2 flags zeroPoint ∧
          PackedWeights.pack compute weights.1 weights.2 flags zeroPoint = .ok artifact.weights

section Known

variable {known : List (Value × Option Value)} {context : CreateContext}

/-- What a cache of known weights gives for known weights is what is packed directly. -/
theorem packed_keeps {weights : Value × Option Value} (listed : weights ∈ known)
    (compute : ComputeType) (flags : UInt32) (zeroPoint : Int32) :
    (Workshop.packed (Product.packingKey compute weights.1 weights.2 flags zeroPoint) fun _ =>
      PackedWeights.pack compute weights.1 weights.2 flags zeroPoint).Keeps
      (fun packing _ => PackedFrom known packing)
      (fun artifact => PackedWeights.pack compute weights.1 weights.2 flags zeroPoint =
        .ok artifact.weights) := by
  apply Keeps.packed
  case hit =>
    intro cache _ artifact from_known found
    constructor
    · intro packing same
      cases same
      exact from_known cache rfl
    · obtain ⟨distinct, entries⟩ := from_known cache rfl
      obtain ⟨others, listedOthers, otherCompute, otherFlags, otherZeroPoint, sameKey, packed⟩ :=
        entries _ artifact found
      rw [distinct.pack_eq listed listedOthers sameKey]
      exact packed
  case miss =>
    intro cache _ artifact from_known packed grown same
    cases same
    obtain ⟨distinct, entries⟩ := from_known cache rfl
    refine ⟨distinct, fun key other found => ?_⟩
    rw [PublishOnce.peek?_append, Option.or_eq_some_iff] at found
    rcases found with before | ⟨_, now⟩
    · exact entries key other before
    · obtain ⟨rfl, stored⟩ := Option.ite_none_right_eq_some.mp now
      rw [← Option.some.inj stored]
      exact ⟨weights, listed, compute, flags, zeroPoint, rfl, packed⟩
  case made => exact fun _ packed => packed

/-! ## Factories -/

theorem Product.makeBody_zeroPoint {compute : ComputeType} {input filter output : Value}
    {low high : Float32} {body : Option ProductBody} {zeroPoint : Int32}
    (made : Product.makeBody compute input filter output low high = .ok (body, zeroPoint)) :
    compute ≠ .qs8 ∨ input.quantization.elim 0 (·.zeroPoint) = zeroPoint := by
  by_cases codes : compute = .qs8
  · subst codes
    right
    obtain ⟨⟨coded, zero⟩, codes, same⟩ := bind_eq_ok_iff.mp made
    cases same
    unfold Product.codeBody at codes
    split at codes
    · rename_i scale _ _ found _ _
      obtain ⟨bounds, _, codes⟩ := bind_eq_ok_iff.mp codes
      cases codes
      rw [found]
      rfl
    · cases codes
  · exact .inl codes

theorem Product.factory_packs (multiply : context.node.kind = .fullyConnected)
    (listed : ∀ weights, context.node.productWeights? context.values = some weights →
      weights ∈ known) :
    ((Product.factory context.node.compute).create context).Keeps
      (fun packing _ => PackedFrom known packing)
      (fun product => context.node.PackedAlone context.values product.artifact.weights) := by
  refine (Product.factory_keeps fun filter zeroPoint found =>
    packed_keeps (listed _ (Node.productWeights?_of_operand multiply found)) _ _ zeroPoint).mono ?_
  rintro product ⟨input, filter, output, zeroPoint, made, packed⟩
  refine ⟨filter, _, Node.productWeights?_of_operand multiply made.foundFilter, ?_⟩
  rcases Product.makeBody_zeroPoint made.body with notCodes | same
  · rw [PackedWeights.pack_zeroPoint notCodes _ _ _ _ zeroPoint]
    exact packed
  · unfold Node.inputZeroPoint
    rw [made.found, Option.bind_some, same]
    exact packed

/-- Mappings touch no cache but that of tables. -/
theorem Mapping.factory_keeps {invariant : Option PackingCache → Prop} (compute : ComputeType)
    (lanes : Nat) (context : CreateContext) :
    ((Mapping.factory compute lanes).create context).Keeps (fun packing _ => invariant packing)
      (fun _ => True) := by
  have codes : ∀ function element scale result,
      (Mapping.codeBody context compute function element scale result).Keeps
        (fun packing _ => invariant packing) (fun _ => True) := by
    intro function element scale result
    unfold Mapping.codeBody
    cases function with
    | copy => exact Keeps.pure trivial
    | clamp low high =>
        exact (Keeps.ofOutcome fun _ given => given).bind fun _ _ => Keeps.pure trivial
    | sigmoid => exact (Keeps.table_apart _ _).bind fun _ _ => Keeps.pure trivial
    | tanh => exact (Keeps.table_apart _ _).bind fun _ _ => Keeps.pure trivial
    | leakyRelu slope => exact (Keeps.table_apart _ _).bind fun _ _ => Keeps.pure trivial
    | abs => exact Keeps.ofOutcome fun _ _ => trivial
    | negate => exact Keeps.ofOutcome fun _ _ => trivial
  have coded : ∀ function,
      (Mapping.scaledBody context compute function).Keeps (fun packing _ => invariant packing)
        (fun _ => True) := by
    intro function
    refine (Keeps.ofOutcome fun _ given => given).bind fun input _ => ?_
    refine (Keeps.ofOutcome fun _ given => given).bind fun output _ => ?_
    split
    · exact codes _ _ _ _
    · exact Keeps.ofOutcome fun _ _ => trivial
  have bodies : ∀ function, (Mapping.makeBody context compute function).Keeps
      (fun packing _ => invariant packing) (fun _ => True) := by
    intro function
    cases compute
    case fp32 => exact Keeps.pure trivial
    case fp16 => exact Keeps.pure trivial
    case qs8 => rw [makeBody_qs8]; exact coded function
    case qu8 => rw [makeBody_qu8]; exact coded function
    all_goals exact Keeps.ofOutcome fun _ _ => trivial
  refine (Keeps.ofOutcome fun _ given => given).bind fun function _ => ?_
  exact (bodies function).bind fun _ _ => Keeps.pure trivial

/-- Conversions, combinations and poolings touch no cache at all. -/
theorem Conversion.factory_keeps {invariant : Option PackingCache → Option CodeCache → Prop}
    (compute : ComputeType) (context : CreateContext) :
    ((Conversion.factory compute).create context).Keeps invariant (fun _ => True) := by
  refine (Keeps.ofOutcome fun _ given => given).bind fun input _ => ?_
  refine (Keeps.ofOutcome fun _ given => given).bind fun output _ => ?_
  exact (Keeps.ofOutcome fun _ given => given).bind fun _ _ => Keeps.pure trivial

theorem Combination.factory_keeps {invariant : Option PackingCache → Option CodeCache → Prop}
    (compute : ComputeType) (lanes : Nat) (context : CreateContext) :
    ((Combination.factory compute lanes).create context).Keeps invariant (fun _ => True) := by
  refine (Keeps.ofOutcome fun _ given => given).bind fun function _ => ?_
  exact (Keeps.ofOutcome fun _ given => given).bind fun _ _ => Keeps.pure trivial

theorem Pooling.factory_keeps {invariant : Option PackingCache → Option CodeCache → Prop}
    (compute : ComputeType) (context : CreateContext) :
    ((Pooling.factory compute).create context).Keeps invariant (fun _ => True) := by
  refine (Keeps.ofOutcome fun _ given => given).bind fun input _ => ?_
  refine (Keeps.ofOutcome fun _ given => given).bind fun output _ => ?_
  refine (Keeps.ofOutcome fun _ given => given).bind fun body _ => ?_
  exact (Keeps.ofOutcome fun _ given => given).bind fun _ _ => Keeps.pure trivial

end Known

/-- Only the factory of products can change a cache of packed weights. What it ensures of products,
and what holds of every operator without packed weights, each offered factory ensures. -/
theorem Catalog.Offers.keeps {invariant : Option PackingCache → Prop}
    {ensured : StandardOperator → Prop} {context : CreateContext}
    {factory : Factory StandardOperator} (offers : Catalog.Offers context.node.key factory)
    (products : context.node.kind = .fullyConnected →
      ((Product.factory context.node.compute).create context).Keeps
        (fun packing _ => invariant packing) (fun product => ensured (.product product)))
    (unpacked : context.node.kind ≠ .fullyConnected →
      ∀ operator : StandardOperator, operator.packed? = none → ensured operator) :
    (factory.create context).Keeps (fun packing _ => invariant packing) ensured := by
  have others : ∀ {Made : Type} {embed : Made → StandardOperator} {made : Making Made},
      context.node.kind ≠ .fullyConnected →
      made.Keeps (fun packing _ => invariant packing) (fun _ => True) →
      (∀ result, (embed result).packed? = none) →
      (embed <$> made).Keeps (fun packing _ => invariant packing) ensured :=
    fun kind keeps none => keeps.map fun result _ => unpacked kind _ (none result)
  cases offers.family with
  | conversion convert =>
      refine others (fun multiply => ?_) (Conversion.factory_keeps _ context) fun _ => rfl
      exact nomatch convert.symm.trans multiply
  | pooling pool =>
      refine others (fun multiply => ?_) (Pooling.factory_keeps _ context) fun _ => rfl
      exact nomatch pool.symm.trans multiply
  | product multiply => exact (products multiply).map fun _ holds => holds
  | combination binary lanes =>
      have notProduct := (OpKind.ne_of_isBinary binary).2
      exact others notProduct (Combination.factory_keeps _ lanes context) fun _ => rfl
  | mapping unary _ lanes =>
      refine others (fun multiply => ?_) (Mapping.factory_keeps _ lanes context) fun _ => rfl
      rw [Node.key, multiply] at unary
      cases unary

/-- Every factory that the library offers for a node keeps a cache of known weights, and makes
products with the weights of their own node. -/
theorem Catalog.Offers.holdsWeights {known : List (Value × Option Value)}
    {context : CreateContext}
    (listed : ∀ weights, context.node.productWeights? context.values = some weights →
      weights ∈ known) {factory : Factory StandardOperator}
    (offers : Catalog.Offers context.node.key factory) :
    (factory.create context).Keeps (fun packing _ => PackedFrom known packing)
      (fun operator => operator.HoldsWeightsOf context.node context.values) := by
  refine offers.keeps (fun multiply => Product.factory_packs multiply listed)
    fun kind operator none => ?_
  unfold StandardOperator.HoldsWeightsOf
  rw [none]
  exact kind

end TensorEngine
