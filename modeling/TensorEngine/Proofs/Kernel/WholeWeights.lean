import TensorEngine.Proofs.Kernel.SharedWeights
import TensorEngine.Proofs.Kernel.Soundness

/-!
Contract: packed weights are whole, whichever cache they come from.

Owns:
- `PackedWeights.PackedFor`, whole weights of the kind that a compute type packs, and the theorem
  that packing gives such weights;
- `PackedByKey`, a cache whose entries fit their keys, and the theorem that every offered factory
  keeps such a cache and makes products with sound weights.

Does not own: whose weights they are. Weights that share a digest are packed as soundly as others.
-/

namespace TensorEngine

open Making TensorEngine.Numeric

/-! ## Packing -/

namespace PackedWeights

variable {inner outputs : Nat}

theorem outputs_le_lanes (outputs : Nat) : outputs ≤ panelCount outputs * panelWidth := by
  unfold panelCount panelWidth
  omega

theorem packPanels_size {α β : Type} {filter : Array α} {transposed : Bool} {zero : β}
    {convert : α → β} {width : Nat} {weights : Array β}
    (packed : packPanels filter inner outputs transposed zero convert width = .ok weights) :
    weights.size = panelCount outputs * inner * panelWidth := by
  unfold packPanels at packed
  obtain ⟨_, _, packed⟩ := bind_eq_ok_iff.mp packed
  exact (collect_eq_ok_iff.mp (lift_eq_ok_iff.mp packed)).size_eq

theorem blankBias_size {β : Type} {zero : β} {blank : Array β}
    (made : blankBias outputs zero = .ok blank) :
    blank.size = panelCount outputs * panelWidth := by
  unfold blankBias at made
  obtain ⟨_, _, made⟩ := bind_eq_ok_iff.mp made
  cases made
  exact Array.size_replicate

/-- Without a bias, every lane starts at zero. -/
theorem getElem?_blankBias_lane {β : Type} {zero : β} {blank : Array β}
    (room : blankBias outputs zero = .ok blank) {lane : Nat}
    (inside : lane < panelCount outputs * panelWidth) : blank[lane]? = some zero := by
  unfold blankBias at room
  obtain ⟨_, _, room⟩ := bind_eq_ok_iff.mp room
  cases room
  rw [Array.getElem?_replicate, if_pos inside]

/-- Without a bias, every output channel starts at zero. -/
theorem getElem?_blankBias {β : Type} {zero : β} {blank : Array β}
    (room : blankBias outputs zero = .ok blank) {output : Nat} (inside : output < outputs) :
    blank[output]? = some zero :=
  getElem?_blankBias_lane room (Nat.lt_of_lt_of_le inside (outputs_le_lanes outputs))

variable {bias : Option Value}

theorem singleBias_size {starts : Array Float32} (made : singleBias bias outputs = .ok starts) :
    starts.size = panelCount outputs * panelWidth := by
  have lanes := outputs_le_lanes outputs
  unfold singleBias at made
  obtain ⟨blank, room, made⟩ := bind_eq_ok_iff.mp made
  have size := blankBias_size room
  cases bias with
  | none =>
      cases made
      exact size
  | some value =>
      obtain ⟨contents, _, made⟩ := bind_eq_ok_iff.mp made
      obtain ⟨elements, _, made⟩ := bind_eq_ok_iff.mp made
      obtain ⟨taken, ran, made⟩ := bind_eq_ok_iff.mp made
      cases made
      have front := canvas_size (lift_eq_ok_iff.mp ran)
      rw [singleBias.writeFront, Array.size_append, Array.size_extract]
      omega

theorem halfBias_size {starts : Array Float32} (made : halfBias bias outputs = .ok starts) :
    starts.size = panelCount outputs * panelWidth := by
  unfold halfBias at made
  obtain ⟨blank, room, made⟩ := bind_eq_ok_iff.mp made
  have size := blankBias_size room
  cases bias with
  | none =>
      cases made
      exact size
  | some value =>
      obtain ⟨contents, _, made⟩ := bind_eq_ok_iff.mp made
      obtain ⟨elements, _, made⟩ := bind_eq_ok_iff.mp made
      cases made
      simp only [Array.size_append, Array.size_extract, Array.size_map]
      omega

theorem codeBias_size {filter : Array Int8} {transposed : Bool} {zeroPoint : Int32}
    {starts : Array Int32}
    (made : codeBias bias filter inner outputs transposed zeroPoint = .ok starts) :
    starts.size = panelCount outputs * panelWidth := by
  have lanes := outputs_le_lanes outputs
  unfold codeBias at made
  obtain ⟨blank, room, made⟩ := bind_eq_ok_iff.mp made
  extract_lets withGiven at made
  have folds : ∀ given, withGiven given = .ok starts →
      starts.size = panelCount outputs * panelWidth := by
    intro given made
    obtain ⟨folded, ran, made⟩ := bind_eq_ok_iff.mp made
    cases made
    have size := blankBias_size room
    have channels := (collect_eq_ok_iff.mp (lift_eq_ok_iff.mp ran)).size_eq
    rw [Array.size_append, Array.size_extract]
    omega
  cases bias with
  | none =>
      obtain ⟨given, _, made⟩ := bind_eq_ok_iff.mp made
      exact folds given made
  | some value =>
      obtain ⟨contents, _, made⟩ := bind_eq_ok_iff.mp made
      obtain ⟨elements, _, made⟩ := bind_eq_ok_iff.mp made
      obtain ⟨given, _, made⟩ := bind_eq_ok_iff.mp made
      exact folds given made

/-- Whole weights of the kind that a compute type packs. -/
structure PackedFor (weights : PackedWeights) (compute : ComputeType) : Prop where
  whole : weights.Whole
  kind : match weights.data with
    | .floats _ _ => compute = .fp32 ∨ compute = .fp16
    | .codes _ _ => compute = .qs8

theorem packedFor_of_pack {compute : ComputeType} {filter : Value} {flags : UInt32}
    {zeroPoint : Int32} {weights : PackedWeights}
    (packed : pack compute filter bias flags zeroPoint = .ok weights) :
    weights.PackedFor compute := by
  unfold pack at packed
  obtain ⟨⟨inner, outputs⟩, _, packed⟩ := bind_eq_ok_iff.mp packed
  obtain ⟨contents, _, packed⟩ := bind_eq_ok_iff.mp packed
  cases compute <;> dsimp only at packed
  case fp32 =>
    obtain ⟨elements, _, packed⟩ := bind_eq_ok_iff.mp packed
    obtain ⟨entries, panels, packed⟩ := bind_eq_ok_iff.mp packed
    obtain ⟨starts, biases, packed⟩ := bind_eq_ok_iff.mp packed
    cases packed
    exact ⟨⟨packPanels_size panels, singleBias_size biases⟩, .inl rfl⟩
  case fp16 =>
    obtain ⟨elements, _, packed⟩ := bind_eq_ok_iff.mp packed
    obtain ⟨entries, panels, packed⟩ := bind_eq_ok_iff.mp packed
    obtain ⟨starts, biases, packed⟩ := bind_eq_ok_iff.mp packed
    cases packed
    exact ⟨⟨packPanels_size panels, halfBias_size biases⟩, .inr rfl⟩
  case qs8 =>
    obtain ⟨elements, _, packed⟩ := bind_eq_ok_iff.mp packed
    obtain ⟨entries, panels, packed⟩ := bind_eq_ok_iff.mp packed
    obtain ⟨starts, biases, packed⟩ := bind_eq_ok_iff.mp packed
    cases packed
    exact ⟨⟨packPanels_size panels, codeBias_size biases⟩, rfl⟩
  all_goals cases packed

theorem PackedFor.takes {compute : ComputeType} {weights : PackedWeights}
    (packed : weights.PackedFor compute) {input filter output : Value} {low high : Float32}
    {body : ProductBody} {zeroPoint : Int32}
    (made : Product.makeBody compute input filter output low high = .ok (some body, zeroPoint)) :
    body.Takes weights.data := by
  have kind := packed.kind
  cases same : weights.data with
  | floats entries starts =>
      rw [same] at kind
      rcases kind with rfl | rfl
      · cases made
        exact trivial
      · cases made
        exact trivial
  | codes entries starts =>
      rw [same] at kind
      subst kind
      obtain ⟨⟨coded, zero⟩, codes, made⟩ := bind_eq_ok_iff.mp made
      cases made
      unfold Product.codeBody at codes
      split at codes
      · obtain ⟨bounds, _, codes⟩ := bind_eq_ok_iff.mp codes
        cases codes
        exact trivial
      · cases codes

end PackedWeights

/-! ## Caches -/

/-- Every entry of a cache is packed for the compute type of its key. -/
def PackedByKey (cache : Option PackingCache) : Prop :=
  ∀ packing, cache = some packing → ∀ key artifact, packing.peek? key = some artifact →
    artifact.weights.PackedFor key.compute

theorem packed_keeps_key (compute : ComputeType) (filter : Value) (bias : Option Value)
    (flags : UInt32) (zeroPoint : Int32) :
    (Workshop.packed (Product.packingKey compute filter bias flags zeroPoint) fun _ =>
      PackedWeights.pack compute filter bias flags zeroPoint).Keeps
      (fun packing _ => PackedByKey packing)
      (fun artifact => artifact.weights.PackedFor compute) := by
  apply Keeps.packed
  case hit =>
    intro cache _ artifact byKey found
    refine ⟨fun packing same => ?_, byKey cache rfl _ artifact found⟩
    cases same
    exact byKey cache rfl
  case miss =>
    intro cache _ artifact byKey packed grown same key other found
    cases same
    rw [PublishOnce.peek?_append, Option.or_eq_some_iff] at found
    rcases found with before | ⟨_, now⟩
    · exact byKey cache rfl key other before
    · obtain ⟨rfl, stored⟩ := Option.ite_none_right_eq_some.mp now
      rw [← Option.some.inj stored]
      exact PackedWeights.packedFor_of_pack packed
  case made => exact fun _ packed => PackedWeights.packedFor_of_pack packed

theorem Product.factory_keeps_key (context : CreateContext) :
    ((Product.factory context.node.compute).create context).Keeps
      (fun packing _ => PackedByKey packing)
      (fun product => (StandardOperator.product product).SoundWeights) := by
  refine (Product.factory_keeps fun filter zeroPoint _ =>
    packed_keeps_key _ filter _ _ zeroPoint).mono ?_
  rintro product ⟨input, filter, output, zeroPoint, made, packed⟩
  exact ⟨packed.takes made.body, packed.whole⟩

/-- Every factory that the library offers for a node keeps a cache by key, and makes operators with
sound weights. -/
theorem Catalog.Offers.soundWeights {context : CreateContext} {factory : Factory StandardOperator}
    (offers : Catalog.Offers context.node.key factory) :
    (factory.create context).Keeps (fun packing _ => PackedByKey packing)
      StandardOperator.SoundWeights := by
  refine offers.keeps (fun _ => Product.factory_keeps_key context) fun _ operator none => ?_
  cases operator with
  | product product => cases none
  | _ => exact trivial

end TensorEngine
