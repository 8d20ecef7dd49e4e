import TensorEngine.Proofs.Kernel.Pointwise

/-!
Contract: what an operator of the library computes depends on its inputs alone.

Owns:
- `Determined`, contents that neither the way to work the tiles off, nor addresses, nor what the
  output held before can change, and that have a known size;
- `Traversal` and `StandardOperator.tiled`, an operator that works its output off in other tiles
  and blocks, and the theorem that its contents are determined in all traversals alike;
- `StandardOperator.blank`, an operator before its set-up, and the theorem that a set-up depends
  on nothing else;
- `StandardOperator.unstamped`, an operator without the serial number of its weights.

Does not own: runs over the blobs of a graph.
-/

namespace TensorEngine

open TensorEngine.Numeric

/-- A computation that is refused in every way to work the tiles off, if it is refused in one. -/
def Steady {Way α : Type} (computation : Way → Outcome α) : Prop :=
  ∀ way fault, computation way = .error fault → (∀ breach, fault ≠ .breached breach) →
    ∀ other, computation other = .error fault

namespace Steady

variable {Way α β : Type}

/-- A checked computation is never refused. -/
theorem checked (computation : Way → Checked α) (encode : α → β) :
    Steady fun way => do
      let result ← (liftM (computation way) : Outcome α)
      return encode result := by
  intro way fault failed refused
  dsimp only at failed
  cases ran : computation way with
  | ok result =>
      rw [ran] at failed
      cases failed
  | error breach =>
      rw [ran] at failed
      cases failed
      exact absurd rfl (refused breach)

theorem const (outcome : Outcome α) : Steady fun _ : Way => outcome :=
  fun _ _ failed _ _ => failed

theorem bind {first : Outcome α} {next : Way → α → Outcome β}
    (rest : ∀ result, first = .ok result → Steady fun way => next way result) :
    Steady fun way => first >>= next way := by
  intro way fault failed refused other
  cases first with
  | ok result => exact rest result rfl way fault failed refused other
  | error cause => exact failed

end Steady

/-- Outcomes that are equal, or that both break an internal contract. -/
def Outcome.Agrees {α : Type} (first second : Outcome α) : Prop :=
  first = second ∨
    ∃ breach other, first = .error (.breached breach) ∧ second = .error (.breached other)

/-- Contents that follow from the bytes of the inputs. A successful run gives the same contents in
any other way to work the tiles off, from copies of the inputs, and whatever the output held
before. A refused one is refused in any way. -/
structure Determined {Way : Type} (contents : Way → List Buffer → Buffer → Outcome Bytes)
    (size : Nat) : Prop where
  transfer : ∀ {way inputs output bytes}, contents way inputs output = .ok bytes →
    ∀ {copies room}, List.Forall₂ Buffer.Copies copies inputs → room.Matches output →
      ∀ other, contents other copies room = .ok bytes
  size_eq : ∀ {way inputs output bytes}, contents way inputs output = .ok bytes →
    bytes.size = size
  steady : ∀ inputs output, Steady fun way => contents way inputs output

theorem Determined.comp {Way Other : Type} {contents : Way → List Buffer → Buffer → Outcome Bytes}
    {size : Nat} (determined : Determined contents size) (ways : Other → Way) :
    Determined (fun other => contents (ways other)) size where
  transfer ran _ _ same sameRoom other := determined.transfer ran same sameRoom (ways other)
  size_eq := determined.size_eq
  steady inputs output way fault failed refused other :=
    determined.steady inputs output (ways way) fault failed refused (ways other)

/-- The way to work the tiles off decides at most which contract is broken. -/
theorem Determined.agrees {Way : Type} {contents : Way → List Buffer → Buffer → Outcome Bytes}
    {size : Nat} (determined : Determined contents size) (way other : Way)
    (inputs : List Buffer) (output : Buffer) :
    (contents way inputs output).Agrees (contents other inputs output) := by
  have copies : List.Forall₂ Buffer.Copies inputs inputs :=
    List.forall₂_same.mpr fun _ _ => ⟨rfl, .inl rfl⟩
  have transfer : ∀ {way other bytes}, contents way inputs output = .ok bytes →
      contents other inputs output = .ok bytes :=
    fun ran => determined.transfer ran copies ⟨rfl, .inl rfl⟩ _
  cases first : contents way inputs output with
  | ok bytes =>
      left
      exact (transfer first).symm
  | error fault =>
      cases second : contents other inputs output with
      | ok bytes =>
          rw [transfer second] at first
          cases first
      | error cause =>
          have same : ∀ {way other fault cause},
              contents way inputs output = .error fault →
              contents other inputs output = .error cause →
              (∀ breach, fault ≠ .breached breach) → cause = fault := by
            intro way other fault cause first second refused
            have again := determined.steady inputs output way fault first refused other
            exact Except.error.inj (second.symm.trans again)
          cases fault with
          | breached breach =>
              cases cause with
              | breached another => exact .inr ⟨breach, another, rfl, rfl⟩
              | refused error => exact .inl (congrArg _ (same second first (by simp)))
              | unregistered key => exact .inl (congrArg _ (same second first (by simp)))
          | refused error => exact .inl (congrArg _ (same first second (by simp)).symm)
          | unregistered key => exact .inl (congrArg _ (same first second (by simp)).symm)

/-! ## Loops -/

section Loops

variable {Way α β ω : Type} [Storage α] (schedule : Way → Schedule) (tileElements lanes : Way → Nat)

theorem mapElements_determined [Storage β] (function : α → Checked β) (count : Nat) :
    Determined (fun way => mapElements function (schedule way) (tileElements way) (lanes way) count)
      (count * Storage.width β) where
  transfer := by
    intro way inputs output bytes ran copies room same sameRoom other
    rw [mapElements_eq_ok_iff] at ran ⊢
    obtain ⟨elements, reads, enough, writes⟩ := ran
    exact ⟨elements, reads.copies same, enough, writes.matches sameRoom⟩
  size_eq := by
    intro way inputs output bytes ran
    obtain ⟨elements, reads, enough, writes⟩ := mapElements_eq_ok_iff.mp ran
    exact writes.size
  steady := by
    intro inputs output
    unfold mapElements
    refine Steady.bind fun buffer _ => Steady.bind fun elements _ => Steady.bind fun room _ =>
      Steady.bind fun source _ => Steady.bind fun canvas _ => ?_
    exact Steady.checked _ encodeAll

theorem inputElements_copies {inputs copies : List Buffer}
    (same : List.Forall₂ Buffer.Copies copies inputs) {index count : Nat} {taken : Array α}
    (ran : inputElements α inputs index count = .ok taken) :
    inputElements α copies index count = .ok taken := by
  rw [inputElements_eq_ok_iff] at ran ⊢
  obtain ⟨elements, reads, front⟩ := ran
  exact ⟨elements, reads.copies same, front⟩

theorem combineElements_determined (function : α → α → Checked α) (plan : BroadcastPlan) :
    Determined (fun way =>
        combineElements function (schedule way) plan (tileElements way) (lanes way))
      (plan.count * Storage.width α) where
  transfer := by
    intro way inputs output bytes ran copies room same sameRoom other
    rw [combineElements_eq_ok_iff] at ran ⊢
    obtain ⟨left, right, readLeft, readRight, writes⟩ := ran
    exact ⟨left, right, inputElements_copies same readLeft, inputElements_copies same readRight,
      writes.matches sameRoom⟩
  size_eq := by
    intro way inputs output bytes ran
    obtain ⟨left, right, readLeft, readRight, writes⟩ := combineElements_eq_ok_iff.mp ran
    exact writes.size
  steady := by
    intro inputs output
    simp only [combineElements_eq]
    refine Steady.bind fun left _ => Steady.bind fun right _ => Steady.bind fun room _ =>
      Steady.bind fun canvas _ => ?_
    exact Steady.checked _ encodeAll

theorem poolImages_determined (zero : β) (add : β → α → Checked β)
    (prepare : Checked (β → Checked α)) (images positions channels : Nat) :
    Determined (fun way => poolImages zero add prepare (schedule way) images positions channels
        (tileElements way))
      (images * channels * Storage.width α) where
  transfer := by
    intro way inputs output bytes ran copies room same sameRoom other
    rw [poolImages_eq_ok_iff] at ran ⊢
    obtain ⟨elements, view, result, reads, rows, prepared, writes⟩ := ran
    exact ⟨elements, view, result, reads.copies same, rows, prepared, writes.matches sameRoom⟩
  size_eq := by
    intro way inputs output bytes ran
    obtain ⟨elements, view, result, reads, rows, prepared, writes⟩ := poolImages_eq_ok_iff.mp ran
    exact writes.size
  steady := by
    intro inputs output
    unfold poolImages
    refine Steady.bind fun buffer _ => Steady.bind fun elements _ => Steady.bind fun view _ =>
      Steady.bind fun room _ => Steady.bind fun canvas _ => ?_
    split
    · exact Steady.const _
    · exact Steady.bind fun result _ => Steady.checked _ encodeAll

theorem multiplyRows_determined (packed : PackedWeights) (weights : Array ω) (bias : Array β)
    (step : β → α → ω → β) (result : β → Checked α) (rows : Nat) :
    Determined (fun way => multiplyRows packed weights bias step result (schedule way) rows
        (tileElements way))
      (rows * packed.outputs * Storage.width α) where
  transfer := by
    intro way inputs output bytes ran copies room same sameRoom other
    rw [multiplyRows_eq_ok_iff] at ran ⊢
    obtain ⟨elements, view, reads, made, writes⟩ := ran
    exact ⟨elements, view, reads.copies same, made, writes.matches sameRoom⟩
  size_eq := by
    intro way inputs output bytes ran
    obtain ⟨elements, view, reads, made, writes⟩ := multiplyRows_eq_ok_iff.mp ran
    exact writes.size
  steady := by
    intro inputs output
    unfold multiplyRows
    refine Steady.bind fun buffer _ => Steady.bind fun elements _ => Steady.bind fun view _ =>
      Steady.bind fun room _ => Steady.bind fun canvas _ => ?_
    split
    · exact Steady.const _
    · exact Steady.checked _ encodeAll

end Loops

/-! ## Operators -/

def MappingBody.width : MappingBody → Nat
  | single _ => 4
  | half _ => 2
  | copyCodes | confineCodes _ _ _ | lookUp _ => 1

def ConversionBody.width : ConversionBody → Nat
  | narrow => 2
  | widen | dequantize _ _ => 4
  | quantize _ _ => 1

def CombinationBody.width : CombinationBody → Nat
  | single => 4
  | half => 2
  | codes _ _ _ _ _ _ => 1

def PoolingBody.width : PoolingBody → Nat
  | single _ _ => 4
  | half _ _ => 2
  | codes _ _ _ _ _ => 1

def ProductBody.width : ProductBody → Nat
  | single _ _ => 4
  | half _ _ => 2
  | codes _ _ _ _ => 1

/-- A way to work an output off: the order of its tiles, their size, and the lanes of a block. -/
structure Traversal where
  schedule : Schedule
  tileElements : Nat
  lanes : Nat

/-- A loop in blocks of one lane is determined in any order of its tiles, of whatever size. -/
theorem oneLane_determined {α β : Type} [Storage α] [Storage β] (function : α → Checked β)
    (count : Nat) :
    Determined (fun way : Traversal =>
        mapElements function way.schedule way.tileElements 1 count)
      (count * Storage.width β) :=
  mapElements_determined Traversal.schedule Traversal.tileElements (fun _ => 1) function count

theorem Mapping.determined (mapping : Mapping) :
    Determined (fun way : Traversal =>
        { mapping with tileElements := way.tileElements, lanes := way.lanes }.contents way.schedule)
      (mapping.count * mapping.body.width) := by
  obtain ⟨kind, body, _, _, count⟩ := mapping
  unfold Mapping.contents
  cases body with
  | single function =>
      exact mapElements_determined Traversal.schedule Traversal.tileElements Traversal.lanes _ _
  | half function => exact oneLane_determined _ _
  | copyCodes => exact oneLane_determined _ _
  | lookUp table => exact oneLane_determined _ _
  | confineCodes signed low high =>
      cases signed with
      | true => exact oneLane_determined _ _
      | false => exact oneLane_determined _ _

theorem Conversion.determined (conversion : Conversion) :
    Determined (fun way : Traversal =>
        { conversion with tileElements := way.tileElements }.contents way.schedule)
      (conversion.count * conversion.body.width) := by
  obtain ⟨body, _, count⟩ := conversion
  unfold Conversion.contents
  cases body with
  | narrow => exact oneLane_determined _ _
  | widen => exact oneLane_determined _ _
  | quantize signed scale =>
      cases signed with
      | true => exact oneLane_determined _ _
      | false => exact oneLane_determined _ _
  | dequantize signed scale =>
      cases signed with
      | true => exact oneLane_determined _ _
      | false => exact oneLane_determined _ _

theorem Combination.determined (combination : Combination) :
    Determined (fun way : Traversal =>
        { combination with tileElements := way.tileElements, lanes := way.lanes }.contents
          way.schedule)
      (combination.plan.count * combination.body.width) := by
  unfold Combination.contents Combination.withFunction
  cases combination.body with
  | single =>
      exact combineElements_determined Traversal.schedule Traversal.tileElements
        (fun way => if 1 < way.lanes then blockLanes else 1)
        (fun x y => .ok (combination.ofSingles x y)) combination.plan
  | half =>
      exact combineElements_determined Traversal.schedule Traversal.tileElements (fun _ => 1)
        (fun x y => .ok (combination.ofHalves x y)) combination.plan
  | codes signed left right result least greatest =>
      cases signed with
      | true =>
          exact combineElements_determined Traversal.schedule Traversal.tileElements (fun _ => 1)
            (Combination.ofCodes (α := Int8) _ _ _ _ _ _) _
      | false =>
          exact combineElements_determined Traversal.schedule Traversal.tileElements (fun _ => 1)
            (Combination.ofCodes (α := UInt8) _ _ _ _ _ _) _

theorem Pooling.determined (pooling : Pooling) :
    Determined (fun way : Traversal =>
        { pooling with tileElements := way.tileElements }.contents way.schedule)
      (pooling.images * pooling.channels * pooling.body.width) := by
  unfold Pooling.contents
  cases pooling.body with
  | single low high =>
      dsimp only
      exact poolImages_determined Traversal.schedule Traversal.tileElements _ _ _ _ _ _
  | half low high =>
      dsimp only
      exact poolImages_determined Traversal.schedule Traversal.tileElements _ _ _ _ _ _
  | codes signed input result low high =>
      cases signed with
      | true =>
          simp only [Pooling.poolCodes]
          exact poolImages_determined Traversal.schedule Traversal.tileElements _ _ _ _ _ _
      | false =>
          simp only [Pooling.poolCodes]
          exact poolImages_determined Traversal.schedule Traversal.tileElements _ _ _ _ _ _

/-- Contents that always fail are determined. -/
theorem determined_of_error {Way : Type} {fault : Fault} {size : Nat} :
    Determined (fun (_ : Way) _ _ => .error fault) size :=
  ⟨fun ran => (nomatch ran), fun ran => (nomatch ran), fun _ _ => Steady.const _⟩

theorem Product.determined (product : Product) :
    Determined (fun way : Traversal =>
        { product with tileElements := way.tileElements }.contents way.schedule)
      (product.rows * product.artifact.weights.outputs * product.body.width) := by
  obtain ⟨body, ⟨serial, inner, outputs, data⟩, _, rows⟩ := product
  unfold Product.contents
  cases body with
  | single low high =>
      cases data with
      | floats weights bias =>
          exact multiplyRows_determined Traversal.schedule Traversal.tileElements _ _ _ _ _ _
      | codes weights bias => exact determined_of_error
  | half low high =>
      cases data with
      | floats weights bias =>
          exact multiplyRows_determined Traversal.schedule Traversal.tileElements _ _ _ _ _ _
      | codes weights bias => exact determined_of_error
  | codes result scale low high =>
      cases data with
      | floats weights bias => exact determined_of_error
      | codes weights bias =>
          exact multiplyRows_determined Traversal.schedule Traversal.tileElements _ _ _ _ _ _

namespace StandardOperator

def elementWidth : StandardOperator → Nat
  | mapping operator => operator.body.width
  | conversion operator => operator.body.width
  | combination operator => operator.body.width
  | pooling operator => operator.body.width
  | product operator => operator.body.width

/-- Number of elements that an operator computes for the shapes of its last set-up. -/
def elementCount : StandardOperator → Nat
  | mapping operator => operator.count
  | conversion operator => operator.count
  | combination operator => operator.plan.count
  | pooling operator => operator.images * operator.channels
  | product operator => operator.rows * operator.artifact.weights.outputs

/-- An operator that works its output off in other tiles, and in other blocks of lanes if it works
in blocks at all. -/
def tiled (tileElements lanes : Nat) : StandardOperator → StandardOperator
  | mapping operator => mapping { operator with tileElements := tileElements, lanes := lanes }
  | conversion operator => conversion { operator with tileElements := tileElements }
  | combination operator =>
      combination { operator with tileElements := tileElements, lanes := lanes }
  | pooling operator => pooling { operator with tileElements := tileElements }
  | product operator => product { operator with tileElements := tileElements }

/-- The contents of every operator follow from the bytes of its inputs, in whatever tiles and
blocks it works its output off. -/
theorem determined_tiled (operator : StandardOperator) :
    Determined (fun way : Traversal =>
        (operator.tiled way.tileElements way.lanes).contents way.schedule)
      (operator.elementCount * operator.elementWidth) := by
  cases operator with
  | mapping operator => exact operator.determined
  | conversion operator => exact operator.determined
  | combination operator => exact operator.determined
  | pooling operator => exact operator.determined
  | product operator => exact operator.determined

/-- Every operator works its output off in some tiles and blocks. -/
theorem exists_tiled (operator : StandardOperator) :
    ∃ tileElements lanes, operator.tiled tileElements lanes = operator := by
  cases operator with
  | mapping operator => exact ⟨operator.tileElements, operator.lanes, rfl⟩
  | conversion operator => exact ⟨operator.tileElements, 1, rfl⟩
  | combination operator => exact ⟨operator.tileElements, operator.lanes, rfl⟩
  | pooling operator => exact ⟨operator.tileElements, 1, rfl⟩
  | product operator => exact ⟨operator.tileElements, 1, rfl⟩

/-- The contents of every operator follow from the bytes of its inputs. -/
theorem determined (operator : StandardOperator) :
    Determined operator.contents (operator.elementCount * operator.elementWidth) := by
  obtain ⟨tileElements, lanes, same⟩ := operator.exists_tiled
  have own := operator.determined_tiled.comp fun schedule => ⟨schedule, tileElements, lanes⟩
  dsimp only at own
  rw [same] at own
  exact own

/-- The kernel of an operator: the contents for these inputs, tile by tile, on a blank output. -/
def kernel (operator : StandardOperator) (inputs : List Bytes) : Outcome Bytes :=
  operator.contents .sequential (inputs.map Buffer.fresh)
    (Buffer.fresh (Array.replicate (operator.elementCount * operator.elementWidth) 0))

/-- What an operator writes over the whole of an output is what its kernel computes from the bytes
of the inputs. -/
theorem kernel_of_contents {operator : StandardOperator} {schedule : Schedule}
    {inputs : List Buffer} {output : Buffer} {bytes : Bytes}
    (ran : operator.contents schedule inputs output = .ok bytes)
    (whole : output.size = operator.elementCount * operator.elementWidth) :
    operator.kernel (inputs.map (·.bytes)) = .ok bytes := by
  refine operator.determined.transfer ran ?_ ⟨?_, .inr rfl⟩ .sequential
  · rw [List.map_map, List.forall₂_map_left_iff, List.forall₂_same]
    exact fun buffer _ => ⟨rfl, .inr rfl⟩
  · rw [whole]
    exact Array.size_replicate

end StandardOperator

/-! ## Set-up -/

namespace Shape

theorem elementCount_append (outer inner : Shape) :
    elementCount (outer ++ inner) = elementCount outer * elementCount inner := by
  induction outer with
  | nil => simp [elementCount]
  | cons extent outer inductionHypothesis =>
      simp only [List.cons_append, elementCount, inductionHypothesis, Nat.mul_assoc]

/-- A shape holds its channels as often as its batch says. -/
theorem batch_mul_channels (shape : Shape) : shape.batch * shape.channels = shape.elementCount := by
  unfold batch channels
  rcases List.eq_nil_or_concat shape with rfl | ⟨outer, extent, rfl⟩
  · rfl
  · rw [List.concat_eq_append, List.dropLast_concat, List.getLast?_concat, elementCount_append]
    simp [elementCount]

end Shape

theorem sharedCount_eq {kind : OpKind} {inputs : List Shape} {output : Shape} {count : Nat}
    (shared : sharedCount kind inputs output = .ok count) : count = output.elementCount := by
  unfold sharedCount at shared
  obtain ⟨input, _, shared⟩ := bind_eq_ok_iff.mp shared
  dsimp only at shared
  split at shared
  · rename_i same
    cases shared
    exact same
  · cases shared

theorem BroadcastPlan.count_of_make {left right output : Shape} {plan : BroadcastPlan}
    (made : BroadcastPlan.make left right output = .ok plan) :
    plan.count = output.elementCount := by
  unfold BroadcastPlan.make at made
  split at made
  · cases made
  · split at made
    · cases made
    · cases made
      exact output.batch_mul_channels

/-- A pooling takes exactly the image batches of its channels, with one result for each image and
channel. -/
theorem Pooling.extent_eq_ok_iff {channels images positions : Nat} {inputs : List Shape}
    {output : Shape} :
    Pooling.extent channels inputs output = .ok (images, positions) ↔
      ∃ height width, inputs[0]? = some [images, height, width, channels] ∧
        positions = height * width ∧ output.elementCount = images * channels := by
  unfold Pooling.extent
  rw [bind_eq_ok_iff]
  constructor
  · rintro ⟨input, given, found⟩
    split at found
    · rename_i first height width last
      split at found
      · cases found
      · rename_i same
        split at found
        · cases found
        · rename_i count
          cases found
          cases not_not.mp same
          exact ⟨height, width, operand_eq_ok_iff.mp given, rfl, not_not.mp count⟩
    · cases found
  · rintro ⟨height, width, given, rfl, count⟩
    refine ⟨_, operand_eq_ok_iff.mpr given, ?_⟩
    show (if channels ≠ channels then _ else _ : Outcome (Nat × Nat)) = _
    rw [if_neg (not_not.mpr rfl), if_neg (not_not.mpr count)]
    rfl

/-- A product takes exactly the shapes whose rows have its input channels, with one result for each
row and output channel. -/
theorem Product.rowCount_eq_ok_iff {weights : PackedWeights} {rows : Nat} {inputs : List Shape}
    {output : Shape} :
    Product.rowCount weights inputs output = .ok rows ↔
      ∃ input : Shape, inputs[0]? = some input ∧ input ≠ [] ∧ input.channels = weights.inner ∧
        output.elementCount = input.batch * weights.outputs ∧ rows = input.batch := by
  unfold Product.rowCount
  rw [bind_eq_ok_iff]
  constructor
  · rintro ⟨input, given, found⟩
    split at found
    · cases found
    · rename_i filled
      split at found
      · cases found
      · rename_i channels
        split at found
        · cases found
        · rename_i count
          cases found
          rw [List.isEmpty_iff] at filled
          exact ⟨input, operand_eq_ok_iff.mp given, filled, not_not.mp channels,
            not_not.mp count, rfl⟩
  · rintro ⟨input, given, filled, channels, count, rfl⟩
    refine ⟨input, operand_eq_ok_iff.mpr given, ?_⟩
    rw [ne_eq, ← List.isEmpty_iff] at filled
    rw [if_neg filled, if_neg (not_not.mpr channels), if_neg (not_not.mpr count)]
    rfl

namespace StandardOperator

/-- An operator as it was before any set-up. -/
def blank : StandardOperator → StandardOperator
  | mapping operator => mapping { operator with count := 0 }
  | conversion operator => conversion { operator with count := 0 }
  | combination operator => combination { operator with plan := {} }
  | pooling operator => pooling { operator with images := 0, positions := 0 }
  | product operator => product { operator with rows := 0 }

/-- A set-up gives an operator its state for the shapes, from its blank form alone. What an earlier
set-up left behind has no influence, and one that failed has left it as it was. -/
theorem setup_blank (operator : StandardOperator) (inputs : List Shape) (output : Shape) :
    (operator.setup inputs output).1.blank = operator.blank ∧
      (operator.blank.setup inputs output).2 = (operator.setup inputs output).2 ∧
      ((operator.setup inputs output).2 = .ok () →
        (operator.blank.setup inputs output).1 = (operator.setup inputs output).1) := by
  cases operator with
  | mapping operator =>
      simp only [setup, blank, Mapping.setup, Prod.map_fst, Prod.map_snd, id]
      cases sharedCount operator.kind inputs output <;> simp
  | conversion operator =>
      simp only [setup, blank, Conversion.setup, Prod.map_fst, Prod.map_snd, id]
      cases sharedCount .convert inputs output <;> simp
  | combination operator =>
      simp only [setup, blank, Combination.setup, Prod.map_fst, Prod.map_snd, id]
      generalize (do BroadcastPlan.make (← operand inputs 0) (← operand inputs 1) output :
        Outcome BroadcastPlan) = planned
      cases planned <;> simp
  | pooling operator =>
      simp only [setup, blank, Pooling.setup, Prod.map_fst, Prod.map_snd, id]
      rcases Pooling.extent operator.channels inputs output with fault | ⟨images, positions⟩
      · simp
      · simp
  | product operator =>
      simp only [setup, blank, Product.setup, Prod.map_fst, Prod.map_snd, id]
      cases Product.rowCount operator.artifact.weights inputs output <;> simp

theorem elementWidth_blank (operator : StandardOperator) :
    operator.blank.elementWidth = operator.elementWidth := by
  cases operator <;> rfl

/-- An operator that is set up computes as many elements as the output has. -/
theorem elementCount_setup {operator ready : StandardOperator} {inputs : List Shape}
    {output : Shape} (done : operator.setup inputs output = (ready, .ok ())) :
    ready.elementCount = output.elementCount := by
  cases operator with
  | mapping operator =>
      simp only [setup, Mapping.setup] at done
      cases shared : sharedCount operator.kind inputs output with
      | error fault => simp [shared] at done
      | ok count =>
          simp only [shared, Prod.map_apply, id, Prod.mk.injEq, and_true] at done
          rw [← done]
          exact sharedCount_eq shared
  | conversion operator =>
      simp only [setup, Conversion.setup] at done
      cases shared : sharedCount .convert inputs output with
      | error fault => simp [shared] at done
      | ok count =>
          simp only [shared, Prod.map_apply, id, Prod.mk.injEq, and_true] at done
          rw [← done]
          exact sharedCount_eq shared
  | combination operator =>
      simp only [setup, Combination.setup] at done
      generalize planned : (do BroadcastPlan.make (← operand inputs 0) (← operand inputs 1) output :
        Outcome BroadcastPlan) = plan at done
      cases plan with
      | error fault => simp at done
      | ok plan =>
          simp only [Prod.map_apply, id, Prod.mk.injEq, and_true] at done
          rw [← done]
          obtain ⟨_, _, planned⟩ := bind_eq_ok_iff.mp planned
          obtain ⟨_, _, planned⟩ := bind_eq_ok_iff.mp planned
          exact BroadcastPlan.count_of_make planned
  | pooling operator =>
      simp only [setup, Pooling.setup] at done
      cases found : Pooling.extent operator.channels inputs output with
      | error fault => simp [found] at done
      | ok extent =>
          simp only [found, Prod.map_apply, id, Prod.mk.injEq, and_true] at done
          rw [← done]
          obtain ⟨_, _, _, _, count⟩ := Pooling.extent_eq_ok_iff.mp found
          exact count.symm
  | product operator =>
      simp only [setup, Product.setup] at done
      cases found : Product.rowCount operator.artifact.weights inputs output with
      | error fault => simp [found] at done
      | ok rows =>
          simp only [found, Prod.map_apply, id, Prod.mk.injEq, and_true] at done
          rw [← done]
          obtain ⟨_, _, _, _, count, rfl⟩ := Product.rowCount_eq_ok_iff.mp found
          exact count.symm

/-- An operator with weights that carry no serial number. -/
def unstamped : StandardOperator → StandardOperator
  | product operator => product { operator with artifact := { operator.artifact with serial := 0 } }
  | operator => operator

theorem unstamped_contents (operator : StandardOperator) :
    operator.unstamped.contents = operator.contents := by
  cases operator <;> rfl

theorem unstamped_setup (operator : StandardOperator) (inputs : List Shape) (output : Shape) :
    operator.unstamped.setup inputs output =
      ((operator.setup inputs output).1.unstamped, (operator.setup inputs output).2) := by
  cases operator with
  | product operator =>
      simp only [setup, unstamped, Product.setup]
      cases Product.rowCount operator.artifact.weights inputs output <;> rfl
  | mapping operator => rfl
  | conversion operator => rfl
  | combination operator => rfl
  | pooling operator => rfl

end StandardOperator

end TensorEngine
