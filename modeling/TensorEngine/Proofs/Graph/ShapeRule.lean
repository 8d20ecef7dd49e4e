import TensorEngine.Graph.ShapeRule
import TensorEngine.Proofs.Checked
import TensorEngine.Proofs.Tensor.Broadcast

/-!
Contract: what an output shape says about the input shapes.

Owns:
- the shapes of pooling and of products, solved for their inputs;
- the theorem that the rank of an output follows from the ranks of the inputs.

Does not own: the check of a node.
-/

namespace TensorEngine

theorem filterChannels_eq_ok_iff {filter : Shape} {flags : UInt32} {inner outputs : Nat} :
    filterChannels filter flags = .ok (inner, outputs) ↔
      filter = if transposedFilter flags then [inner, outputs] else [outputs, inner] := by
  unfold filterChannels
  split
  · by_cases transposed : transposedFilter flags = true
    · simp [transposed]
    · simp [transposed, and_comm]
  · rename_i notMatrix
    constructor
    · intro impossible
      cases impossible
    · intro matrix
      split at matrix
      · exact absurd matrix (notMatrix _ _)
      · exact absurd matrix (notMatrix _ _)

namespace OpKind

theorem pooledShape_eq_ok_iff {input shape : Shape} {rank : Nat} :
    pooledShape input rank = .ok shape ↔
      ∃ images height width channels, input = [images, height, width, channels] ∧
        shape = if rank = 2 then [images, channels] else [images, 1, 1, channels] := by
  unfold pooledShape
  split
  · by_cases flat : rank = 2
    · simp [flat, eq_comm]
    · simp [flat, eq_comm]
  · rename_i notImages
    constructor
    · intro impossible
      cases impossible
    · rintro ⟨images, height, width, channels, same, _⟩
      exact absurd same (notImages images height width channels)

theorem productShape_eq_ok_iff {input filter shape : Shape} {bias : Option Shape}
    {flags : UInt32} {rank : Nat} :
    productShape input filter bias flags rank = .ok shape ↔
      ∃ inner outputs, filterChannels filter flags = .ok (inner, outputs) ∧
        input.getLast? = some inner ∧ (∀ given, bias = some given → given = [outputs]) ∧
        shape = if rank = 2 ∧ input.dropLast.length ≠ 1 then
            [Shape.elementCount input.dropLast, outputs]
          else input.dropLast ++ [outputs] := by
  have chosen : ∀ outputs : Nat,
      (if rank = 2 ∧ input.dropLast.length ≠ 1 then
        .ok [Shape.elementCount input.dropLast, outputs]
      else .ok (input.dropLast ++ [outputs]) : Except ShapeFault Shape) = .ok shape ↔
      shape = if rank = 2 ∧ input.dropLast.length ≠ 1 then
          [Shape.elementCount input.dropLast, outputs]
        else input.dropLast ++ [outputs] := by
    intro outputs
    split <;> simp [eq_comm]
  unfold productShape
  rw [bind_eq_ok_iff, Prod.exists]
  refine exists_congr fun inner => exists_congr fun outputs => and_congr_right fun _ => ?_
  cases input.getLast? with
  | none => simp
  | some found =>
      by_cases same : found = inner
      · cases bias with
        | none =>
            simp only [same, ne_eq, not_true_eq_false, if_false, reduceCtorEq, false_implies,
              implies_true, true_and]
            exact chosen outputs
        | some given =>
            by_cases fits : given = [outputs]
            · simp only [same, ne_eq, not_true_eq_false, if_false, fits, Option.some.injEq,
                forall_eq', true_and]
              exact chosen outputs
            · simp [same, fits, throw, throwThe, MonadExceptOf.throw, bind, Except.bind]
      · simp [same]

theorem combinedShape_eq_ok_iff {left right shape : Shape} :
    combinedShape left right = .ok shape ↔ Shape.broadcast? left right = some shape := by
  unfold combinedShape
  cases Shape.broadcast? left right <;> simp

theorem combinedShape_refuses {left right : Shape} :
    combinedShape left right ≠ .error .missingOperand := by
  unfold combinedShape
  split <;> simp

theorem productShape_refuses {input filter : Shape} {bias : Option Shape} {flags : UInt32}
    {rank : Nat} : productShape input filter bias flags rank ≠ .error .missingOperand := by
  unfold productShape
  cases channels : filterChannels filter flags with
  | error cause =>
      unfold filterChannels at channels
      split at channels
      · split at channels <;> cases channels
      · cases channels
        simp [bind, Except.bind]
  | ok found =>
      simp only [bind, Except.bind]
      split
      · simp
      · split
        · simp
        · cases bias with
          | none => dsimp only; split <;> simp
          | some given =>
              by_cases fits : given = [found.2]
              · simp only [fits, ne_eq, not_true_eq_false, if_false]
                split <;> simp
              · simp [fits, throw, throwThe, MonadExceptOf.throw]

/-- The rank of an output follows from the ranks of the inputs and from the rank asked for. -/
theorem outputShape_length {kind : OpKind} {flags : UInt32} {before inputs : List Shape}
    {rank : Nat} {shape other : Shape}
    (sameRanks : inputs.map List.length = before.map List.length)
    (was : kind.outputShape flags before rank = .ok shape)
    (now : kind.outputShape flags inputs rank = .ok other) :
    other.length = shape.length := by
  unfold outputShape at was now
  cases before with
  | nil =>
      split at was
      · cases was
      · split at was
        · cases was
        · split at was <;> cases was
  | cons first before =>
      cases inputs with
      | nil => cases sameRanks
      | cons input inputs =>
          simp only [List.map_cons, List.cons.injEq] at sameRanks
          obtain ⟨sameFirst, sameRest⟩ := sameRanks
          by_cases unary : kind.isUnary = true
          · rw [if_pos unary, Except.ok.injEq] at was now
            rw [← was, ← now, sameFirst]
          · rw [if_neg unary] at was now
            by_cases pool : kind = .globalAveragePooling2d
            · subst pool
              simp only [isBinary, Bool.false_eq_true, if_false, if_true] at was now
              obtain ⟨_, _, _, _, _, rfl⟩ := pooledShape_eq_ok_iff.mp was
              obtain ⟨_, _, _, _, _, rfl⟩ := pooledShape_eq_ok_iff.mp now
              split <;> rfl
            · rw [if_neg pool] at was now
              cases before with
              | nil => split at was <;> cases was
              | cons second before =>
                  cases inputs with
                  | nil => cases sameRest
                  | cons other inputs =>
                      simp only [List.map_cons, List.cons.injEq] at sameRest
                      by_cases binary : kind.isBinary = true
                      · rw [if_pos binary] at was now
                        rw [Shape.broadcast?_length (combinedShape_eq_ok_iff.mp was),
                          Shape.broadcast?_length (combinedShape_eq_ok_iff.mp now), sameFirst,
                          sameRest.1]
                      · rw [if_neg binary] at was now
                        obtain ⟨_, _, _, _, _, rfl⟩ := productShape_eq_ok_iff.mp was
                        obtain ⟨_, _, _, _, _, rfl⟩ := productShape_eq_ok_iff.mp now
                        rw [List.length_dropLast, List.length_dropLast, sameFirst]
                        split
                        · rfl
                        · simp [sameFirst]

/-- An operator that had enough inputs once is refused for their shapes, never for their number. -/
theorem outputShape_refuses {kind : OpKind} {flags : UInt32} {before inputs : List Shape}
    {rank otherRank : Nat} {shape : Shape} {cause : ShapeFault}
    (sameCount : inputs.length = before.length)
    (was : kind.outputShape flags before rank = .ok shape)
    (now : kind.outputShape flags inputs otherRank = .error cause) : cause ≠ .missingOperand := by
  rintro rfl
  unfold outputShape at was now
  cases before with
  | nil =>
      split at was
      · cases was
      · split at was
        · cases was
        · split at was <;> cases was
  | cons first before =>
      cases inputs with
      | nil => cases sameCount
      | cons input inputs =>
          by_cases unary : kind.isUnary = true
          · rw [if_pos unary] at now
            cases now
          rw [if_neg unary] at was now
          by_cases pool : kind = .globalAveragePooling2d
          · subst pool
            simp only [isBinary, Bool.false_eq_true, if_false, if_true, pooledShape] at now
            split at now
            · split at now <;> cases now
            · cases now
          rw [if_neg pool] at was now
          cases before with
          | nil => split at was <;> cases was
          | cons second before =>
              cases inputs with
              | nil => cases sameCount
              | cons other inputs =>
                  by_cases binary : kind.isBinary = true
                  · rw [if_pos binary] at now
                    exact combinedShape_refuses now
                  · rw [if_neg binary] at now
                    exact productShape_refuses now

end OpKind

end TensorEngine
