import TensorEngine.Proofs.Graph.Construction

/-!
Contract: the size products of described tensors on words of 64 bits.

Owns:
- `Shape.wordCount` and `Shape.wordSize`, elements and bytes as products of words;
- `BuildCall.SizesFit`, no size product of what a call describes overflows;
- the theorem that the sizes of all values of a graph fit when those of the calls do.

Does not own: the checks of sizes. They are made on natural numbers, which are the products of words
as long as none of these overflows.
-/

namespace TensorEngine

/-- A product of words. One that is no word is a breach. -/
def wordProduct (left right : Nat) : Checked Nat :=
  if left * right < 2 ^ 64 then .ok (left * right) else .error .overflow

theorem wordProduct_eq_ok_iff {left right product : Nat} :
    wordProduct left right = .ok product ↔ left * right < 2 ^ 64 ∧ left * right = product := by
  unfold wordProduct
  by_cases isWord : left * right < 2 ^ 64
  · rw [if_pos isWord, Except.ok.injEq, and_iff_right isWord]
  · rw [if_neg isWord]
    exact ⟨nofun, fun both => absurd both.1 isWord⟩

namespace Shape

/-- Number of elements. The extents are multiplied from the outermost one on. -/
def wordCount (shape : Shape) : Checked Nat := shape.foldlM wordProduct 1

def wordSize (shape : Shape) (element : ElementType) : Checked Nat := do
  wordProduct (← shape.wordCount) element.width

variable {shape : Shape} {count : Nat}

theorem eq_of_foldlM_wordProduct {start : Nat}
    (counted : shape.foldlM wordProduct start = .ok count) :
    count = start * shape.elementCount := by
  induction shape generalizing start with
  | nil =>
      rw [List.foldlM_nil, pure_eq_ok_iff] at counted
      rw [← counted]
      exact (Nat.mul_one start).symm
  | cons extent inner inductionHypothesis =>
      rw [List.foldlM_cons, bind_eq_ok_iff] at counted
      obtain ⟨product, multiplied, rest⟩ := counted
      obtain ⟨_, rfl⟩ := wordProduct_eq_ok_iff.mp multiplied
      rw [inductionHypothesis rest, Nat.mul_assoc]
      rfl

theorem wordCount_eq (counted : shape.wordCount = .ok count) : count = shape.elementCount :=
  (eq_of_foldlM_wordProduct counted).trans (Nat.one_mul _)

theorem wordSize_eq {element : ElementType} {size : Nat}
    (sized : shape.wordSize element = .ok size) :
    size = shape.elementCount * element.width := by
  obtain ⟨count, counted, multiplied⟩ := bind_eq_ok_iff.mp sized
  obtain ⟨_, rfl⟩ := wordProduct_eq_ok_iff.mp multiplied
  rw [wordCount_eq counted]

/-- The outer dimensions of a shape are counted on the way to its elements. -/
theorem wordCount_of_append {outer inner : Shape}
    (counted : (outer ++ inner).wordCount = .ok count) :
    outer.wordCount = .ok outer.elementCount := by
  unfold wordCount at counted
  rw [List.foldlM_append, bind_eq_ok_iff] at counted
  obtain ⟨product, countedOuter, _⟩ := counted
  rw [← wordCount_eq countedOuter]
  exact countedOuter

/-- No size product of a tensor overflows: neither the number of its elements nor, if it has
contents, the number of their bytes. -/
structure SizesFit (shape : Shape) (element : ElementType) (contents : Option Bytes) : Prop where
  count : ∃ count, shape.wordCount = .ok count
  size : contents.isSome = true → ∃ size, shape.wordSize element = .ok size

instance (shape : Shape) (element : ElementType) (contents : Option Bytes) :
    Decidable (shape.SizesFit element contents) :=
  decidable_of_iff ((∃ count, shape.wordCount = .ok count) ∧
    (contents.isSome = true → ∃ size, shape.wordSize element = .ok size))
    ⟨fun ⟨count, size⟩ => ⟨count, size⟩, fun fits => ⟨fits.count, fits.size⟩⟩

theorem SizesFit.size_eq {element : ElementType} {contents : Bytes}
    (fits : shape.SizesFit element (some contents))
    (filled : contents.size = shape.elementCount * element.width) :
    shape.wordSize element = .ok contents.size := by
  obtain ⟨size, sized⟩ := fits.size rfl
  rw [sized, wordSize_eq sized, filled]

end Shape

/-! ## Values of a construction -/

/-- No size product of the tensor that a call describes overflows, if it describes one. -/
def BuildCall.SizesFit (call : BuildCall) : Prop :=
  ∀ spec ∈ call.spec?, spec.shape.SizesFit spec.element spec.contents

instance (call : BuildCall) : Decidable call.SizesFit :=
  inferInstanceAs (Decidable (∀ spec ∈ call.spec?,
    spec.shape.SizesFit spec.element spec.contents))

namespace Graph

/-- No size product of a value overflows. -/
def SizesFit (graph : Graph) : Prop :=
  ∀ value ∈ graph.values, value.shape.SizesFit value.element value.contents

variable {graph after : Graph}

theorem SizesFit.placed (fits : graph.SizesFit) {spec : TensorSpec}
    {quantization : Option Quantization} {id : Nat}
    (placed : Placed graph spec quantization id after)
    (fit : spec.shape.SizesFit spec.element spec.contents) : after.SizesFit := by
  intro value listed
  rw [placed.changed] at listed
  dsimp only at listed
  split at listed
  · rcases List.mem_or_eq_of_mem_set listed with old | rfl
    · exact fits value old
    · exact fit
  · rcases List.mem_append.mp listed with old | new
    · exact fits value old
    · rw [List.mem_singleton.mp new]
      exact fit

theorem SizesFit.appended (fits : graph.SizesFit) {node : Node}
    (appended : Appended graph node after) : after.SizesFit := by
  intro value listed
  obtain ⟨id, found⟩ := List.mem_iff_getElem?.mp listed
  obtain ⟨old, foundOld, rfl⟩ := appended.exists_tied found
  exact fits old (List.mem_of_getElem? foundOld)

/-- The sizes of all values of a constructed graph fit words when those of the calls do. -/
theorem sizesFit_afterCalls (count : Nat) {calls : List BuildCall}
    (sized : ∀ call ∈ calls, call.SizesFit) :
    ((withExternalValues count).afterCalls calls).SizesFit := by
  have start : (withExternalValues count).SizesFit := by
    intro value listed
    obtain ⟨id, _, rfl⟩ := List.mem_map.mp listed
    exact ⟨⟨1, rfl⟩, nofun⟩
  refine afterCalls_induction start ?_
  intro current call made reply after fits answered
  rcases answer_cases answered with
    ⟨spec, quantization, id, _, placed, described⟩ | ⟨node, _, appended⟩ | ⟨_, rfl⟩
  · exact fits.placed placed (sized call made spec described.2.2.2)
  · exact fits.appended appended
  · exact fits

end Graph

end TensorEngine
