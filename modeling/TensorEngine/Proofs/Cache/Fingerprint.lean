import TensorEngine.Cache.Fingerprint
import TensorEngine.Proofs.Graph.WellFormed

/-!
Contract: the byte stream of weights determines them.

Owns:
- `Value.SameTensor`, agreement of two tensors in all that a computation reads of them;
- `Value.IsWeight`, a sound static tensor of a known rank, with extents of 64 bits;
- the theorem that equal streams are streams of equal weights.

Does not own: the digest of a stream.

A stream has neither a rank nor lengths. It can be read back only because the rank is known, the
storage type tells whether there are parameters, and the contents fill the shape.
-/

namespace TensorEngine

/-! ## Words and bytes -/

theorem toLittleEndian_injective {width first second : Nat} (firstFits : first < 256 ^ width)
    (secondFits : second < 256 ^ width)
    (same : toLittleEndian width first = toLittleEndian width second) : first = second := by
  induction width generalizing first second with
  | zero => omega
  | succ width inductionHypothesis =>
      simp only [toLittleEndian, List.cons.injEq] at same
      obtain ⟨low, high⟩ := same
      have lowByte : first % 256 = second % 256 := by
        simpa using congrArg UInt8.toNat low
      have rest := inductionHypothesis (by omega) (by omega) high
      omega

/-- A number in single precision is its bits. -/
theorem toBits_injective {first second : Float32} (same : first.toBits = second.toBits) :
    first = second := by
  obtain ⟨⟨bits, valid⟩⟩ := first
  obtain ⟨⟨other, validOther⟩⟩ := second
  change bits = other at same
  subst same
  rfl

/-- As many entries of a fixed width are read back from the front of a stream. -/
theorem flatMap_append_injective {α : Type} {encode : α → List UInt8} {width : Nat}
    (sized : ∀ entry, (encode entry).length = width) {firsts seconds : List α}
    {rest other : List UInt8} (sameCount : firsts.length = seconds.length)
    (injective : ∀ first ∈ firsts, ∀ second ∈ seconds, encode first = encode second →
      first = second)
    (same : firsts.flatMap encode ++ rest = seconds.flatMap encode ++ other) :
    firsts = seconds ∧ rest = other := by
  induction firsts generalizing seconds with
  | nil =>
      rw [List.eq_nil_of_length_eq_zero sameCount.symm] at same ⊢
      exact ⟨rfl, same⟩
  | cons first firsts inductionHypothesis =>
      cases seconds with
      | nil => cases sameCount
      | cons second seconds =>
          rw [List.flatMap_cons, List.flatMap_cons, List.append_assoc, List.append_assoc] at same
          obtain ⟨sameHead, sameTail⟩ :=
            List.append_inj same ((sized first).trans (sized second).symm)
          obtain ⟨sameRest, sameEnd⟩ := inductionHypothesis (Nat.succ.inj sameCount)
            (fun entry listed another given =>
              injective entry (List.mem_cons_of_mem _ listed) another
                (List.mem_cons_of_mem _ given)) sameTail
          have sameEntry :=
            injective first List.mem_cons_self second List.mem_cons_self sameHead
          exact ⟨by rw [sameEntry, sameRest], sameEnd⟩

def ElementType.nameBytes : ElementType → List UInt8
  | float32 => [102, 51, 50]
  | float16 => [102, 49, 54]
  | qint8 => [113, 105, 110, 116, 56]
  | quint8 => [113, 117, 105, 110, 116, 56]
  | qint32 => [113, 105, 110, 116, 51, 50]

theorem ElementType.name_bytes (element : ElementType) :
    element.name.toUTF8.toList = element.nameBytes := by
  cases element <;> decide +kernel

/-- The names of storage types, each ended by a zero byte, begin no other. -/
theorem ElementType.name_append_injective {first second : ElementType}
    {rest other : List UInt8}
    (same : first.name.toUTF8.toList ++ 0 :: rest = second.name.toUTF8.toList ++ 0 :: other) :
    first = second ∧ rest = other := by
  rw [name_bytes, name_bytes] at same
  cases first <;> cases second <;> simp_all [nameBytes]

/-- Parameters are read back from their words. -/
theorem Quantization.words_injective {first second : Quantization}
    (same : first.words = second.words) : first = second := by
  simp only [words, List.cons.injEq, and_true] at same
  obtain ⟨zeroPoint, scale⟩ := same
  obtain ⟨⟨code⟩, number⟩ := first
  obtain ⟨⟨other⟩, another⟩ := second
  cases zeroPoint
  cases toBits_injective scale
  rfl

/-- Parameters are read back from the front of a stream. -/
theorem Quantization.words_append_injective {first second : Quantization}
    {rest other : List UInt8}
    (same : first.words.flatMap (fun word => toLittleEndian 4 word.toNat) ++ rest =
      second.words.flatMap (fun word => toLittleEndian 4 word.toNat) ++ other) :
    first = second ∧ rest = other := by
  have sameCount : first.words.length = second.words.length := rfl
  obtain ⟨words, rest⟩ := flatMap_append_injective
    (fun word : UInt32 => toLittleEndian_length 4 word.toNat) sameCount
    (fun word _ another _ same => UInt32.toNat.inj
      (toLittleEndian_injective word.toNat_lt another.toNat_lt same)) same
  exact ⟨words_injective words, rest⟩

/-! ## Weights -/

namespace Value

/-- Two tensors agree in all that a computation reads of them. -/
structure SameTensor (first second : Value) : Prop where
  element_eq : first.element = second.element
  shape_eq : first.shape = second.shape
  quantization_eq : first.quantization = second.quantization
  contents_eq : first.contents = second.contents

/-- A sound static tensor of a rank, whose extents are words of 64 bits. -/
structure IsWeight (value : Value) (rank : Nat) : Prop where
  sound : value.Sound
  static : value.isStatic = true
  rank_eq : value.shape.length = rank
  words : ∀ extent ∈ value.shape, extent < 2 ^ 64

end Value

namespace Fingerprint

variable {first second : Value} {rank : Nat}

/-- A weight is read back from the front of a stream. -/
theorem valueStream_append_injective (firstWeight : first.IsWeight rank)
    (secondWeight : second.IsWeight rank) {rest other : List UInt8}
    (same : valueStream first ++ rest = valueStream second ++ other) :
    first.SameTensor second ∧ rest = other := by
  simp only [valueStream, List.append_assoc, List.singleton_append] at same
  obtain ⟨sameElement, same⟩ := ElementType.name_append_injective same
  obtain ⟨sameShape, same⟩ := flatMap_append_injective (toLittleEndian_length 8)
    (firstWeight.rank_eq.trans secondWeight.rank_eq.symm)
    (fun extent listed another given => toLittleEndian_injective
      (firstWeight.words extent listed) (secondWeight.words another given)) same
  -- both have parameters or neither has, by the storage type
  have sameQuantization : first.quantization = second.quantization ∧
      (0 : UInt8) :: ((first.contents.getD #[]).toList ++ 0xff :: rest) =
        0 :: ((second.contents.getD #[]).toList ++ 0xff :: other) := by
    have present : first.quantization.isSome = second.quantization.isSome := by
      rw [firstWeight.sound.quantized, secondWeight.sound.quantized, sameElement]
    cases given : first.quantization with
    | none =>
        rw [given, Option.isSome_none] at present
        have none := Option.isNone_iff_eq_none.mp (Option.isSome_eq_false_iff.mp present.symm)
        rw [given, none] at same
        exact ⟨none.symm, same⟩
    | some quantization =>
        rw [given, Option.isSome_some] at present
        obtain ⟨another, found⟩ := Option.isSome_iff_exists.mp present.symm
        rw [given, found] at same
        obtain ⟨sameWords, same⟩ := Quantization.words_append_injective same
        exact ⟨by rw [found, sameWords], same⟩
  obtain ⟨sameQuantization, same⟩ := sameQuantization
  obtain ⟨bytes, given⟩ := Option.isSome_iff_exists.mp firstWeight.static
  obtain ⟨others, found⟩ := Option.isSome_iff_exists.mp secondWeight.static
  have size : bytes.toList.length = others.toList.length := by
    rw [Array.length_toList, Array.length_toList, firstWeight.sound.filled bytes given,
      secondWeight.sound.filled others found]
    unfold Value.byteCount
    rw [sameShape, sameElement]
  rw [given, found, Option.getD_some, Option.getD_some, List.cons.injEq] at same
  obtain ⟨sameBytes, same⟩ := List.append_inj same.2 size
  exact ⟨⟨sameElement, sameShape, sameQuantization,
    by rw [given, found, Array.toList_inj.mp sameBytes]⟩, (List.cons.inj same).2⟩

theorem valueStream_ne_nil (value : Value) : valueStream value ≠ [] := by
  simp [valueStream]

/-- Equal streams are streams of equal filters and equal biases. -/
theorem weightStream_injective {bias otherBias : Option Value}
    (firstWeight : first.IsWeight 2) (secondWeight : second.IsWeight 2)
    (biasWeight : ∀ given, bias = some given → given.IsWeight 1)
    (otherWeight : ∀ given, otherBias = some given → given.IsWeight 1)
    (same : weightStream first bias = weightStream second otherBias) :
    first.SameTensor second ∧ Option.Rel Value.SameTensor bias otherBias := by
  unfold weightStream at same
  obtain ⟨sameFilter, sameBias⟩ := valueStream_append_injective firstWeight secondWeight same
  refine ⟨sameFilter, ?_⟩
  cases bias with
  | none =>
      cases otherBias with
      | none => exact .none
      | some other => exact absurd sameBias.symm (valueStream_ne_nil other)
  | some given =>
      cases otherBias with
      | none => exact absurd sameBias (valueStream_ne_nil given)
      | some other =>
          have ended : valueStream given ++ [] = valueStream other ++ [] := by
            simpa using sameBias
          exact .some (valueStream_append_injective (biasWeight given rfl)
            (otherWeight other rfl) ended).1

end Fingerprint

end TensorEngine
