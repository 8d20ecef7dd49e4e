import Mathlib.Data.List.Forall2
import TensorEngine.Tensor.Broadcast

/-!
Contract: broadcasting as a partial join of shapes.

Owns:
- `Shape.Stretches`, an operand shape that stretches to a shape of the same rank;
- `Shape.Fits`, the order of shapes in which one stretches to the inner dimensions of another;
- `Shape.IsJoin`, the least shape that some operands fit, which is what broadcasting finds, and
  which it finds whenever there is a shape that the operands fit;
- the laws of broadcasting, derived from that order.

Does not own: the offsets at which a stretched operand is read.
-/

namespace TensorEngine.Shape

/-- A shape whose dimensions each equal those of another shape or are stretched to them. -/
def Stretches (shape output : Shape) : Prop :=
  List.Forall₂ (fun extent wide => extent = wide ∨ extent = 1) shape output

/-! ## The order, innermost dimension first -/

/-- A shape that stretches to the first dimensions of another, both written innermost first. -/
inductive FitsInner : Shape → Shape → Prop where
  | nil (output : Shape) : FitsInner [] output
  | cons {extent wide : Nat} {inner output : Shape} (stretches : extent = wide ∨ extent = 1)
      (rest : FitsInner inner output) : FitsInner (extent :: inner) (wide :: output)

namespace FitsInner

theorem refl (shape : Shape) : FitsInner shape shape := by
  induction shape with
  | nil => exact .nil []
  | cons extent inner inductionHypothesis => exact .cons (.inl rfl) inductionHypothesis

theorem trans {first second third : Shape} (early : FitsInner first second)
    (late : FitsInner second third) : FitsInner first third := by
  induction early generalizing third with
  | nil => exact .nil third
  | cons stretches _ inductionHypothesis =>
      cases late with
      | cons stretchesLate late =>
          have both : _ ∨ _ := stretches.elim (fun same => same ▸ stretchesLate) .inr
          exact .cons both (inductionHypothesis late)

theorem antisymm {first second : Shape} (early : FitsInner first second)
    (late : FitsInner second first) : first = second := by
  induction early with
  | nil =>
      cases late
      rfl
  | cons stretches _ inductionHypothesis =>
      cases late with
      | cons stretchesBack back =>
          rw [inductionHypothesis back]
          congr 1
          omega

theorem exists_core {shape output : Shape} (fits : FitsInner shape output) :
    ∃ core rest, output = core ++ rest ∧ shape.Stretches core := by
  induction fits with
  | nil output => exact ⟨[], output, rfl, .nil⟩
  | @cons extent wide inner output stretches _ inductionHypothesis =>
      obtain ⟨core, rest, rfl, stretchesInner⟩ := inductionHypothesis
      exact ⟨wide :: core, rest, rfl, .cons stretches stretchesInner⟩

theorem of_stretches {shape core : Shape} (stretches : shape.Stretches core) (rest : Shape) :
    FitsInner shape (core ++ rest) := by
  induction stretches with
  | nil => exact .nil rest
  | cons stretchesHead _ inductionHypothesis => exact .cons stretchesHead inductionHypothesis

end FitsInner

theorem joinExtent?_stretches {left right extent : Nat}
    (joined : joinExtent? left right = some extent) :
    (left = extent ∨ left = 1) ∧ (right = extent ∨ right = 1) := by
  unfold joinExtent? at joined
  split_ifs at joined <;> grind

/-- Two extents that stretch to one have a common extent, which stretches to it. -/
theorem exists_joinExtent? {left right wide : Nat} (ofLeft : left = wide ∨ left = 1)
    (ofRight : right = wide ∨ right = 1) :
    ∃ extent, joinExtent? left right = some extent ∧ (extent = wide ∨ extent = 1) := by
  unfold joinExtent?
  split_ifs with same leftOne rightOne
  · exact ⟨left, rfl, ofLeft⟩
  · exact ⟨right, rfl, ofRight⟩
  · exact ⟨left, rfl, ofLeft⟩
  · omega

theorem joinInner?_cons_eq_some_iff {extent other : Nat} {left right output : Shape} :
    joinInner? (extent :: left) (other :: right) = some output ↔
      ∃ joined inner, output = joined :: inner ∧ joinExtent? extent other = some joined ∧
        joinInner? left right = some inner := by
  rw [joinInner?]
  cases joinExtent? extent other with
  | none => simp
  | some joined => cases joinInner? left right <;> simp [eq_comm]

/-- Both operands fit their common shape. -/
theorem joinInner?_fits {left right joined : Shape} (found : joinInner? left right = some joined) :
    FitsInner left joined ∧ FitsInner right joined := by
  induction left generalizing right joined with
  | nil =>
      cases found
      exact ⟨.nil right, .refl right⟩
  | cons leftExtent left inductionHypothesis =>
      cases right with
      | nil =>
          cases found
          exact ⟨.refl _, .nil _⟩
      | cons rightExtent right =>
          obtain ⟨extent, inner, rfl, foundExtent, foundInner⟩ :=
            joinInner?_cons_eq_some_iff.mp found
          obtain ⟨ofLeft, ofRight⟩ := joinExtent?_stretches foundExtent
          obtain ⟨fitsLeft, fitsRight⟩ := inductionHypothesis foundInner
          exact ⟨.cons ofLeft fitsLeft, .cons ofRight fitsRight⟩

/-- Operands that fit one shape have a common shape, which fits it. The induction is over the
dimensions of the left operand; the right one and the shape lose theirs with it. -/
theorem FitsInner.exists_joinInner? {left right upper : Shape} (ofLeft : FitsInner left upper)
    (ofRight : FitsInner right upper) :
    ∃ joined, joinInner? left right = some joined ∧ FitsInner joined upper := by
  induction ofLeft generalizing right with
  | nil => exact ⟨right, rfl, ofRight⟩
  | cons stretches fits inductionHypothesis =>
      cases ofRight with
      | nil => exact ⟨_, rfl, .cons stretches fits⟩
      | cons stretchesRight fitsRight =>
          obtain ⟨extent, foundExtent, stretchesJoined⟩ :=
            exists_joinExtent? stretches stretchesRight
          obtain ⟨inner, foundInner, fitsJoined⟩ := inductionHypothesis fitsRight
          exact ⟨extent :: inner,
            joinInner?_cons_eq_some_iff.mpr ⟨extent, inner, rfl, foundExtent, foundInner⟩,
            .cons stretchesJoined fitsJoined⟩

theorem joinInner?_length {left right joined : Shape}
    (found : joinInner? left right = some joined) :
    joined.length = max left.length right.length := by
  induction left generalizing right joined with
  | nil =>
      cases found
      simp
  | cons leftExtent left inductionHypothesis =>
      cases right with
      | nil =>
          cases found
          simp
      | cons rightExtent right =>
          obtain ⟨extent, inner, rfl, _, foundInner⟩ := joinInner?_cons_eq_some_iff.mp found
          simp only [List.length_cons, inductionHypothesis foundInner]
          omega

/-! ## The order of shapes -/

/-- A shape that stretches to the inner dimensions of another. -/
def Fits (shape output : Shape) : Prop := FitsInner shape.reverse output.reverse

namespace Fits

variable {first second third : Shape}

theorem refl (shape : Shape) : shape.Fits shape := FitsInner.refl _

theorem trans (early : first.Fits second) (late : second.Fits third) : first.Fits third :=
  FitsInner.trans early late

theorem antisymm (early : first.Fits second) (late : second.Fits first) : first = second :=
  List.reverse_injective (FitsInner.antisymm early late)

theorem scalar (shape : Shape) : Fits [] shape := FitsInner.nil _

end Fits

theorem fits_iff {shape output : Shape} :
    shape.Fits output ↔ ∃ outer core, output = outer ++ core ∧ shape.Stretches core := by
  constructor
  · intro fits
    obtain ⟨core, rest, whole, stretches⟩ := FitsInner.exists_core fits
    refine ⟨rest.reverse, core.reverse, ?_, List.forall₂_reverse_iff.mp ?_⟩
    · rw [← List.reverse_append, ← whole, List.reverse_reverse]
    · rwa [List.reverse_reverse]
  · rintro ⟨outer, core, rfl, stretches⟩
    unfold Fits
    rw [List.reverse_append]
    exact .of_stretches (List.forall₂_reverse_iff.mpr stretches) outer.reverse

/-! ## Common shapes -/

theorem broadcast?_eq_some_iff_inner {left right joined : Shape} :
    broadcast? left right = some joined ↔
      joinInner? left.reverse right.reverse = some joined.reverse := by
  unfold broadcast?
  rw [Option.map_eq_some_iff]
  constructor
  · rintro ⟨inner, found, rfl⟩
    rwa [List.reverse_reverse]
  · exact fun found => ⟨joined.reverse, found, List.reverse_reverse joined⟩

/-- A common shape has the greater rank of both operands. -/
theorem broadcast?_length {left right joined : Shape}
    (found : broadcast? left right = some joined) :
    joined.length = max left.length right.length := by
  have lengths := joinInner?_length (broadcast?_eq_some_iff_inner.mp found)
  simpa only [List.length_reverse] using lengths

theorem broadcast?_fits {left right joined : Shape} (found : broadcast? left right = some joined) :
    left.Fits joined ∧ right.Fits joined :=
  joinInner?_fits (broadcast?_eq_some_iff_inner.mp found)

/-- Both operands stretch to the inner dimensions of the shape that they are broadcast to. -/
theorem broadcast?_stretches {left right output : Shape}
    (found : broadcast? left right = some output) :
    (∃ outer core, output = outer ++ core ∧ left.Stretches core) ∧
      ∃ outer core, output = outer ++ core ∧ right.Stretches core :=
  (broadcast?_fits found).imp fits_iff.mp fits_iff.mp

/-- Operands that fit one shape have a common shape, which fits it. -/
theorem Fits.exists_broadcast? {left right upper : Shape} (ofLeft : left.Fits upper)
    (ofRight : right.Fits upper) :
    ∃ joined, broadcast? left right = some joined ∧ joined.Fits upper := by
  obtain ⟨inner, found, fits⟩ := FitsInner.exists_joinInner? ofLeft ofRight
  refine ⟨inner.reverse, broadcast?_eq_some_iff_inner.mpr ?_, ?_⟩
  · rwa [List.reverse_reverse]
  · unfold Fits
    rwa [List.reverse_reverse]

/-- The least shape that all operands fit. -/
structure IsJoin (operands : List Shape) (joined : Shape) : Prop where
  above : ∀ operand ∈ operands, operand.Fits joined
  least : ∀ upper : Shape, (∀ operand ∈ operands, operand.Fits upper) → joined.Fits upper

namespace IsJoin

variable {operands others : List Shape} {joined other : Shape}

theorem unique (first : IsJoin operands joined) (second : IsJoin operands other) :
    joined = other :=
  (first.least other second.above).antisymm (second.least joined first.above)

/-- The order of the operands does not matter. -/
theorem congr (same : ∀ operand, operand ∈ operands ↔ operand ∈ others) :
    IsJoin operands joined ↔ IsJoin others joined := by
  have reordered : ∀ upper : Shape, (∀ operand ∈ operands, operand.Fits upper) ↔
      ∀ operand ∈ others, operand.Fits upper := fun upper =>
    forall_congr' fun operand => imp_congr_left (same operand)
  constructor
  · intro join
    exact ⟨(reordered joined).mp join.above, fun upper fit =>
      join.least upper ((reordered upper).mpr fit)⟩
  · intro join
    exact ⟨(reordered joined).mpr join.above, fun upper fit =>
      join.least upper ((reordered upper).mp fit)⟩

end IsJoin

theorem both_fit_iff {left right upper : Shape} :
    (∀ operand ∈ [left, right], Fits operand upper) ↔ left.Fits upper ∧ right.Fits upper := by
  simp

/-- Broadcasting finds the least shape that both operands fit, if they fit any. -/
theorem broadcast?_isJoin_iff {left right joined : Shape} :
    broadcast? left right = some joined ↔ IsJoin [left, right] joined := by
  have joins : ∀ {found}, broadcast? left right = some found → IsJoin [left, right] found := by
    intro found ran
    refine ⟨both_fit_iff.mpr (broadcast?_fits ran), fun upper fit => ?_⟩
    obtain ⟨ofLeft, ofRight⟩ := both_fit_iff.mp fit
    obtain ⟨other, ranOther, below⟩ := ofLeft.exists_broadcast? ofRight
    cases ran.symm.trans ranOther
    exact below
  refine ⟨joins, fun join => ?_⟩
  obtain ⟨ofLeft, ofRight⟩ := both_fit_iff.mp join.above
  obtain ⟨found, ran, _⟩ := ofLeft.exists_broadcast? ofRight
  rw [ran, (joins ran).unique join]

/-- Broadcasting to a shape leaves it unchanged exactly for the operands that fit it. -/
theorem broadcast?_eq_right_iff {shape output : Shape} :
    broadcast? shape output = some output ↔ shape.Fits output := by
  rw [broadcast?_isJoin_iff]
  constructor
  · intro join
    exact join.above shape (by simp)
  · intro fits
    exact ⟨both_fit_iff.mpr ⟨fits, .refl output⟩, fun upper fit => (both_fit_iff.mp fit).2⟩

/-- Two broadcasts in a row find the least shape that three operands fit. -/
theorem bind_broadcast?_isJoin_iff {first second third joined : Shape} :
    (broadcast? first second).bind (broadcast? · third) = some joined ↔
      IsJoin [first, second, third] joined := by
  rw [Option.bind_eq_some_iff]
  constructor
  · rintro ⟨pair, foundPair, found⟩
    have joinPair := broadcast?_isJoin_iff.mp foundPair
    have join := broadcast?_isJoin_iff.mp found
    obtain ⟨pairFits, thirdFits⟩ := both_fit_iff.mp join.above
    obtain ⟨firstFits, secondFits⟩ := both_fit_iff.mp joinPair.above
    refine ⟨?_, fun upper fit => ?_⟩
    · simp only [List.forall_mem_cons]
      exact ⟨firstFits.trans pairFits, secondFits.trans pairFits, thirdFits, by simp⟩
    · simp only [List.forall_mem_cons] at fit
      obtain ⟨firstBelow, secondBelow, thirdBelow, _⟩ := fit
      have pairBelow := joinPair.least upper (both_fit_iff.mpr ⟨firstBelow, secondBelow⟩)
      exact join.least upper (both_fit_iff.mpr ⟨pairBelow, thirdBelow⟩)
  · intro join
    have above := join.above
    simp only [List.forall_mem_cons] at above
    obtain ⟨firstFits, secondFits, thirdFits, _⟩ := above
    obtain ⟨pair, foundPair, pairFits⟩ := firstFits.exists_broadcast? secondFits
    refine ⟨pair, foundPair, broadcast?_isJoin_iff.mpr
      ⟨both_fit_iff.mpr ⟨pairFits, thirdFits⟩, fun upper fit => ?_⟩⟩
    obtain ⟨pairBelow, thirdBelow⟩ := both_fit_iff.mp fit
    obtain ⟨firstBelow, secondBelow⟩ := broadcast?_fits foundPair
    apply join.least
    simp only [List.forall_mem_cons]
    exact ⟨firstBelow.trans pairBelow, secondBelow.trans pairBelow, thirdBelow, by simp⟩

theorem broadcast?_comm (left right : Shape) : left.broadcast? right = right.broadcast? left := by
  apply Option.ext
  intro joined
  rw [broadcast?_isJoin_iff, broadcast?_isJoin_iff]
  exact IsJoin.congr fun operand => by simp [or_comm]

theorem broadcast?_assoc (first second third : Shape) :
    (first.broadcast? second).bind (·.broadcast? third) =
      (second.broadcast? third).bind (first.broadcast? ·) := by
  have turned : (second.broadcast? third).bind (first.broadcast? ·) =
      (second.broadcast? third).bind (·.broadcast? first) :=
    congrArg _ (funext fun pair => broadcast?_comm first pair)
  apply Option.ext
  intro joined
  rw [turned, bind_broadcast?_isJoin_iff, bind_broadcast?_isJoin_iff]
  exact IsJoin.congr fun operand => by simp [or_comm, or_left_comm]

/-- There is no common shape exactly when the operands fit no shape together. -/
theorem broadcast?_eq_none_iff {left right : Shape} :
    broadcast? left right = none ↔ ∀ upper, ¬ (left.Fits upper ∧ right.Fits upper) := by
  constructor
  · rintro missing upper ⟨ofLeft, ofRight⟩
    obtain ⟨joined, found, _⟩ := ofLeft.exists_broadcast? ofRight
    exact nomatch missing.symm.trans found
  · intro apart
    refine Option.eq_none_iff_forall_ne_some.mpr fun joined found => ?_
    exact apart joined (broadcast?_fits found)

/-- Broadcasting is a partial join of shapes of any rank.

It is commutative, associative also where it fails, and idempotent, and the empty shape is neutral.
A shape broadcasts unchanged to the shapes to whose inner dimensions it stretches, each extent equal
or one. The common shape of two operands is the least shape to which both broadcast unchanged, and
there is none exactly when they broadcast unchanged to no shape together. -/
theorem broadcasting_is_partial_join (first second third : Shape) :
    first.broadcast? second = second.broadcast? first ∧
    (first.broadcast? second).bind (·.broadcast? third) =
      (second.broadcast? third).bind (first.broadcast? ·) ∧
    first.broadcast? first = some first ∧
    (broadcast? [] first = some first ∧ first.broadcast? [] = some first) ∧
    (∀ output : Shape, first.broadcast? output = some output ↔
      ∃ outer core, output = outer ++ core ∧ first.Stretches core) ∧
    (∀ joined : Shape, first.broadcast? second = some joined ↔
      first.broadcast? joined = some joined ∧ second.broadcast? joined = some joined ∧
        ∀ upper : Shape, first.broadcast? upper = some upper →
          second.broadcast? upper = some upper → joined.broadcast? upper = some upper) ∧
    (first.broadcast? second = none ↔ ∀ upper : Shape,
      ¬ (first.broadcast? upper = some upper ∧ second.broadcast? upper = some upper)) := by
  have neutral : broadcast? [] first = some first := broadcast?_eq_right_iff.mpr (.scalar first)
  refine ⟨broadcast?_comm first second, broadcast?_assoc first second third,
    broadcast?_eq_right_iff.mpr (.refl first), ⟨neutral, ?_⟩, fun output => ?_,
    fun joined => ?_, ?_⟩
  · rw [broadcast?_comm]
    exact neutral
  · rw [broadcast?_eq_right_iff, fits_iff]
  · simp only [broadcast?_eq_right_iff, broadcast?_isJoin_iff]
    constructor
    · intro join
      obtain ⟨ofFirst, ofSecond⟩ := both_fit_iff.mp join.above
      exact ⟨ofFirst, ofSecond, fun upper firstBelow secondBelow =>
        join.least upper (both_fit_iff.mpr ⟨firstBelow, secondBelow⟩)⟩
    · rintro ⟨ofFirst, ofSecond, least⟩
      exact ⟨both_fit_iff.mpr ⟨ofFirst, ofSecond⟩, fun upper fit =>
        least upper (both_fit_iff.mp fit).1 (both_fit_iff.mp fit).2⟩
  · simp only [broadcast?_eq_right_iff, broadcast?_eq_none_iff]

/-- An extent of one gives way to an extent of zero, and where both operands broadcast unchanged, to
a shape of higher rank, so does their common shape. -/
theorem broadcasting_is_partial_join_empty :
    broadcast? [2, 1] [0] = some [2, 0] ∧
      broadcast? [2, 0] [5, 2, 0] = some [5, 2, 0] := by
  have laws := broadcasting_is_partial_join [2, 1] [0] []
  have common : broadcast? [2, 1] [0] = some [2, 0] := by decide
  obtain ⟨_, _, least⟩ := (laws.2.2.2.2.2.1 [2, 0]).mp common
  exact ⟨common, least [5, 2, 0] (by decide) (by decide)⟩

end TensorEngine.Shape
