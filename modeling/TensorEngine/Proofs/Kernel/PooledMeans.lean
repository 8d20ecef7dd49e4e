import TensorEngine.Proofs.Kernel.Combining

/-!
Contract: a pooling writes, for every image and channel, the mean of the elements at all positions
of that image and channel.

Owns:
- `PooledMean`, a mean of elements given as bytes, and `Pooling.mean`, the one of a pooling: of
  numbers by a sum in the order of the positions, of codes by the exact sum of their distances from
  the zero point;
- the theorem on the contents that a pooling gives for its output.

Does not own: which pooling is made for a node.
-/

namespace TensorEngine

open TensorEngine.Numeric

/-! ## Means -/

/-- A mean of elements of one width, given and left as bytes. -/
structure PooledMean where
  width : Nat
  apply : List (List UInt8) → Checked (List UInt8)

def PooledMean.of {α : Type} [Storage α] (mean : List α → Checked α) : PooledMean where
  width := Storage.width α
  apply elements := Storage.encode <$> mean (elements.map Storage.decode)

namespace Pooling

/-- The mean of numbers: their sum in order, from zero on, divided by how many there are, confined
to a range. The mean of no numbers is their sum. -/
def meanOfNumbers {α : Type} (load : α → Float32) (store : Float32 → α) (low high : Float32)
    (elements : List α) : Checked α :=
  let sum := elements.foldl (fun sum x => sum + load x) Binary32.zero
  .ok (store (Binary32.bounded low high (sum / Binary32.ofNat (max elements.length 1))))

/-- The mean of codes: the exact sum of their distances from the zero point, multiplied by the scale
over their number, as a code of the output. -/
def meanOfDistances {α : Type} [Code α] (input output : Quantization) (low high : Int32)
    (codes : List α) : Checked α := do
  let distances := codes.map fun code => (Code.toInt32 code).toInt - input.zeroPoint.toInt
  let mean := Binary32.ofInt distances.sum *
    (input.scale / Binary32.ofNat (max codes.length 1))
  return Code.ofInt32 (← output.quantize mean low high)

def mean (pooling : Pooling) : PooledMean :=
  match pooling.body with
  | .single low high => .of (meanOfNumbers (fun x : Float32 => x) (fun x => x) low high)
  | .half low high => .of (meanOfNumbers Half.toFloat32 Half.ofFloat32 low high)
  | .codes true input output low high => .of (@meanOfDistances Int8 _ input output low high)
  | .codes false input output low high => .of (@meanOfDistances UInt8 _ input output low high)

end Pooling

/-! ## Images -/

section Pool

variable {α β : Type} [Storage α] {zero : β} {add : β → α → Checked β} {result : β → Checked α}
  {holds : Nat → β → Prop} {images positions channels : Nat} {inputs : List Buffer}
  {source room : Buffer}

/-- The elements of a channel of an image, position by position. -/
def pooledElements (source : Buffer) (width positions channels image channel : Nat) :
    List (List UInt8) :=
  (List.range positions).map fun position =>
    elementBytes source.bytes width ((image * positions + position) * channels + channel)

/-- The elements of a channel of an image in a batch, row by row. -/
def channelElements (source : Buffer) (size images height width channels image channel : Nat) :
    List (List UInt8) :=
  (List.range height).flatMap fun row => (List.range width).map fun column =>
    elementBytes source.bytes size
      (Shape.position [images, height, width, channels] [image, row, column, channel])

/-- Rows of places that follow each other are one row. -/
theorem flatMap_rows {α : Type} (height width : Nat) (element : Nat → α) :
    ((List.range height).flatMap fun row =>
      (List.range width).map fun column => element (row * width + column)) =
        (List.range (height * width)).map element := by
  induction height with
  | zero => rw [Nat.zero_mul]; rfl
  | succ height inductionHypothesis =>
      rw [List.range_succ, List.flatMap_append, inductionHypothesis, List.flatMap_singleton,
        Nat.succ_mul, List.range_add, List.map_append, List.map_map]
      rfl

/-- The positions of an image are numbered row by row. -/
theorem channelElements_eq (source : Buffer)
    (size images height width channels image channel : Nat) :
    channelElements source size images height width channels image channel =
      pooledElements source size (height * width) channels image channel := by
  unfold channelElements pooledElements
  rw [← flatMap_rows]
  simp only [Shape.position, Shape.elementCount]
  refine List.flatMap_congr fun row _ => List.map_congr_left fun column _ => ?_
  congr 1
  ring

/-- The sums of an image in a buffer are those of its elements, channel by channel. -/
theorem SumsUp.exists_pooledSums (sums : SumsUp positions zero add result holds)
    {view : RowView α}
    (rows : ∀ row < images * positions, ∃ part, view.row row = .ok part ∧
      part.size = channels ∧ ∀ column < channels, fetch part column = .ok (Storage.decode
        (elementBytes source.bytes (Storage.width α) (row * channels + column))))
    {image : Nat} (inside : image < images) :
    ∃ totals, spatialSums view image positions channels zero add = .ok totals ∧
      ∀ channel < channels, ∃ total, fetch totals channel = .ok total ∧ holds positions total ∧
        (pooledElements source (Storage.width α) positions channels image channel).foldlM
          (fun sum element => add sum (Storage.decode element)) zero = .ok total := by
  unfold pooledElements
  simp only [List.foldlM_map]
  refine sums.exists_channelSums fun position within => ?_
  have place : positions * image + position < images * positions :=
    Nat.mul_add_lt_mul_of_lt_of_lt inside within
  rw [Nat.mul_comm positions] at place
  obtain ⟨part, row, _, elements⟩ := rows _ place
  exact ⟨part, row, elements⟩

/-- Total sums are averaged for every image and channel: an element follows from the sum of the
elements of that channel. -/
theorem SumsUp.contents (sums : SumsUp positions zero add result holds)
    {prepare : Checked (β → Checked α)} (prepared : prepare = .ok result) (schedule : Schedule)
    (tileElements : Nat) (given : inputs[0]? = some source)
    (fits : source.Fits (Storage.width α) (images * positions * channels))
    (fitsRoom : room.Fits (Storage.width α) (images * channels)) :
    ∃ written : Array α,
      poolImages zero add prepare schedule images positions channels tileElements inputs room =
        .ok (encodeAll written) ∧ written.size = images * channels ∧
      ∀ image < images, ∀ channel < channels, ∃ total value,
        (pooledElements source (Storage.width α) positions channels image channel).foldlM
          (fun sum element => add sum (Storage.decode element)) zero = .ok total ∧
        result total = .ok value ∧ written[image * channels + channel]? = some value := by
  obtain ⟨_, viewed, _⟩ := fits.exists_front
  obtain ⟨canvas, viewedRoom, taken, -⟩ := fitsRoom.exists_front
  obtain ⟨view, made, rows⟩ := fits.exists_rows
  -- the element of an image and channel, by the sum of that channel
  have entry : ∀ image < images, ∀ channel < channels, ∃ total value,
      pooledElement zero add result view positions channels (image * channels + channel) =
        .ok value ∧ result total = .ok value ∧
      (pooledElements source (Storage.width α) positions channels image channel).foldlM
        (fun sum element => add sum (Storage.decode element)) zero = .ok total := by
    intro image inside channel among
    obtain ⟨totals, ran, held⟩ := sums.exists_pooledSums rows inside
    obtain ⟨total, found, ofTotal, folded⟩ := held channel among
    obtain ⟨value, valued⟩ := sums.result total ofTotal
    refine ⟨total, value, ?_, valued, folded⟩
    exact (rowElement_eq ran among).trans (bind_eq_ok_iff.mpr ⟨total, found, valued⟩)
  obtain ⟨written, computes⟩ := @exists_computes _
    (pooledElement zero add result view positions channels) (images * channels)
    (fun index inside => by
      have some : 0 < channels := Nat.pos_of_mul_pos_left (Nat.zero_lt_of_lt inside)
      obtain ⟨_, value, computed, _⟩ := entry (index / channels)
        ((Nat.div_lt_iff_lt_mul some).mpr inside) _ (Nat.mod_lt index some)
      rw [Nat.div_add_mod'] at computed
      exact ⟨value, computed⟩)
  refine ⟨written, poolImages_eq_ok_iff.mpr ⟨_, view, result, ⟨source, given, viewed⟩, made,
    .inr prepared, _, written, viewedRoom, (front_eq_ok_iff.mp taken).1, computes, rfl⟩,
    computes.size_eq, fun image inside channel among => ?_⟩
  obtain ⟨total, value, computed, valued, folded⟩ := entry image inside channel among
  have place : channels * image + channel < images * channels :=
    Nat.mul_add_lt_mul_of_lt_of_lt inside among
  rw [Nat.mul_comm channels] at place
  obtain ⟨other, found, computedOther⟩ := computes.exists_element place
  rw [Nat.zero_add] at computedOther
  cases computed.symm.trans computedOther
  exact ⟨total, value, folded, valued, found⟩

/-- A mean that reads off the result of the total sum is written for every image and channel. -/
theorem SumsUp.means (sums : SumsUp positions zero add result holds)
    {prepare : Checked (β → Checked α)} (prepared : prepare = .ok result)
    {mean : List α → Checked α}
    (reduces : ∀ elements total value, elements.length = positions →
      elements.foldlM add zero = .ok total → result total = .ok value →
        mean elements = .ok value)
    (schedule : Schedule) (tileElements : Nat) (given : inputs[0]? = some source)
    (fits : source.Fits (Storage.width α) (images * positions * channels))
    (fitsRoom : room.Fits (Storage.width α) (images * channels)) :
    ∃ bytes,
      poolImages zero add prepare schedule images positions channels tileElements inputs room =
        .ok bytes ∧ bytes.size = images * channels * Storage.width α ∧
      ∀ image < images, ∀ channel < channels,
        (PooledMean.of mean).apply
          (pooledElements source (Storage.width α) positions channels image channel) =
            .ok (elementBytes (overlay room.bytes bytes) (Storage.width α)
              (image * channels + channel)) := by
  obtain ⟨written, ran, size, found⟩ :=
    sums.contents prepared schedule tileElements given fits fitsRoom
  refine ⟨encodeAll written, ran, by rw [encodeAll_size, size], ?_⟩
  intro image inside channel among
  obtain ⟨total, value, folded, valued, there⟩ := found image inside channel among
  rw [elementBytes_overlay (by rw [size]; exact fitsRoom.enough) there]
  rw [← List.foldlM_map] at folded
  have length : ((pooledElements source (Storage.width α) positions channels image channel).map
      (Storage.decode : List UInt8 → α)).length = positions := by
    unfold pooledElements
    rw [List.length_map, List.length_map, List.length_range]
  have computed := reduces _ total value length folded valued
  show Storage.encode <$> mean _ = _
  rw [computed]
  rfl

end Pool

namespace Pooling

/-! ## Means of numbers -/

theorem meanOfNumbers_reduces {α : Type} (load : α → Float32) (store : Float32 → α)
    (low high : Float32) {elements : List α} {total : Float32} {value : α}
    (folded : elements.foldlM (fun sum x => (.ok (sum + load x) : Checked Float32)) Binary32.zero =
      .ok total)
    (valued : (.ok (store (meanOfSum elements.length low high total)) : Checked α) = .ok value) :
    meanOfNumbers load store low high elements = .ok value := by
  rw [← valued]
  have pureFold := @List.foldlM_pure Checked _ _ _ _ (fun sum x => sum + load x) Binary32.zero
    elements
  cases pureFold.symm.trans folded
  rfl

/-! ## Means of codes -/

section Codes

variable {α : Type} [Code α]

theorem signedWord_eq_ok {value word : Int} (ran : signedWord value = .ok word) : word = value := by
  unfold signedWord at ran
  split at ran
  · exact (Except.ok.inj ran).symm
  · cases ran

/-- The zero point of all positions at once is that of each of them. -/
theorem sum_distances (zeroPoint : Int) {codes : List α} {start total : Int}
    (folded : codes.foldlM (fun sum code => signedWord (sum + (Code.toInt32 code).toInt)) start =
      .ok total) :
    (codes.map fun code => (Code.toInt32 code).toInt - zeroPoint).sum =
      total - start - zeroPoint * codes.length := by
  induction codes generalizing start with
  | nil =>
      cases folded
      simp
  | cons code codes inductionHypothesis =>
      rw [List.foldlM_cons] at folded
      obtain ⟨next, added, folded⟩ := bind_eq_ok_iff.mp folded
      rw [List.map_cons, List.sum_cons, inductionHypothesis folded, signedWord_eq_ok added,
        List.length_cons]
      push_cast
      ring

theorem meanOfDistances_reduces {scale result : Quantization} {low high : Int32}
    {codes : List α} (short : codes.length < 2 ^ 63) {zero total : Int} {value : α}
    (zeroPoints : zeroSum scale codes.length = .ok zero)
    (folded : codes.foldlM (fun sum code => signedWord (sum + (Code.toInt32 code).toInt)) 0 =
      .ok total)
    (valued : meanOfCodes codes.length scale result low high zero total = .ok value) :
    meanOfDistances scale result low high codes = .ok value := by
  unfold zeroSum at zeroPoints
  rw [Int64.toInt_ofNat_of_lt short] at zeroPoints
  unfold meanOfCodes at valued
  obtain ⟨distance, ran, valued⟩ := bind_eq_ok_iff.mp valued
  unfold meanOfDistances
  dsimp only
  rw [sum_distances scale.zeroPoint.toInt folded, Int.sub_zero, ← signedWord_eq_ok zeroPoints,
    ← signedWord_eq_ok ran]
  exact valued

end Codes

/-! ## Contents -/

section Bodies

variable {images positions channels : Nat} {inputs : List Buffer} {source room : Buffer}

theorem poolNumbers_means {α : Type} [Storage α] (load : α → Float32) (store : Float32 → α)
    (low high : Float32) (schedule : Schedule) (tileElements : Nat)
    (given : inputs[0]? = some source)
    (fits : source.Fits (Storage.width α) (images * positions * channels))
    (fitsRoom : room.Fits (Storage.width α) (images * channels)) :
    ∃ bytes, poolImages Binary32.zero (fun sum x => .ok (sum + load x))
        (.ok fun sum => .ok (store (meanOfSum positions low high sum))) schedule images positions
        channels tileElements inputs room = .ok bytes ∧
      bytes.size = images * channels * Storage.width α ∧
      ∀ image < images, ∀ channel < channels,
        (PooledMean.of (meanOfNumbers load store low high)).apply
          (pooledElements source (Storage.width α) positions channels image channel) =
            .ok (elementBytes (overlay room.bytes bytes) (Storage.width α)
              (image * channels + channel)) := by
  have sums : SumsUp positions Binary32.zero (fun sum x => .ok (sum + load x))
      (fun sum => .ok (store (meanOfSum positions low high sum))) (fun _ _ => True) :=
    ⟨trivial, fun _ _ _ _ _ => ⟨_, rfl, trivial⟩, fun _ _ => ⟨_, rfl⟩⟩
  refine sums.means rfl (fun elements total value length folded valued => ?_) schedule
    tileElements given fits fitsRoom
  rw [← length] at valued
  exact meanOfNumbers_reduces load store low high folded valued

/-- Sums of codes give the means of their distances from the zero point, if all sums fit a word. -/
theorem poolCodes_means {α : Type} [Code α] {element : ElementType}
    (within : Code.Within α element) {scale : Quantization}
    (valid : scale.validate element = .ok ()) {low high : Int32} (ordered : low ≤ high)
    (result : Quantization) {pooling : Pooling} (area : 255 * pooling.positions < 2 ^ 63)
    (schedule : Schedule) (given : inputs[0]? = some source)
    (fits : source.Fits (Storage.width α)
      (pooling.images * pooling.positions * pooling.channels))
    (fitsRoom : room.Fits (Storage.width α) (pooling.images * pooling.channels)) :
    ∃ bytes, poolCodes α pooling scale result low high schedule inputs room = .ok bytes ∧
      bytes.size = pooling.images * pooling.channels * Storage.width α ∧
      ∀ image < pooling.images, ∀ channel < pooling.channels,
        (PooledMean.of (@meanOfDistances α _ scale result low high)).apply
          (pooledElements source (Storage.width α) pooling.positions pooling.channels image
            channel) =
          .ok (elementBytes (overlay room.bytes bytes) (Storage.width α)
            (image * pooling.channels + channel)) := by
  obtain ⟨mean, prepared, sums⟩ := sumsUp_codes within valid ordered result area
  obtain ⟨zero, zeroPoints, rfl⟩ := map_eq_ok_iff.mp prepared
  refine sums.means prepared (fun elements total value length folded valued => ?_) schedule
    pooling.tileElements given fits fitsRoom
  rw [← length] at zeroPoints valued
  exact meanOfDistances_reduces (by omega) zeroPoints folded valued

end Bodies

/-- A sound pooling writes the mean of the elements of every image and channel. Sums of codes must
fit a word. -/
theorem contents_means {pooling : Pooling} (sound : pooling.body.Sound)
    (area : ∀ signed input output low high, pooling.body = .codes signed input output low high →
      255 * pooling.positions < 2 ^ 63)
    (schedule : Schedule) {inputs : List Buffer} {source room : Buffer}
    (given : inputs[0]? = some source)
    (fits : source.Fits pooling.mean.width (pooling.images * pooling.positions * pooling.channels))
    (fitsRoom : room.Fits pooling.mean.width (pooling.images * pooling.channels)) :
    ∃ bytes, pooling.contents schedule inputs room = .ok bytes ∧
      bytes.size = pooling.images * pooling.channels * pooling.mean.width ∧
      ∀ image < pooling.images, ∀ channel < pooling.channels,
        pooling.mean.apply
          (pooledElements source pooling.mean.width pooling.positions pooling.channels image
            channel) =
          .ok (elementBytes (overlay room.bytes bytes) pooling.mean.width
            (image * pooling.channels + channel)) := by
  unfold mean at fits fitsRoom ⊢
  unfold contents
  cases same : pooling.body with
  | single low high =>
      rw [same] at fits fitsRoom
      exact poolNumbers_means (fun x : Float32 => x) (fun x => x) low high schedule _ given fits
        fitsRoom
  | half low high =>
      rw [same] at fits fitsRoom
      exact poolNumbers_means Half.toFloat32 Half.ofFloat32 low high schedule _ given fits fitsRoom
  | codes signed scale result low high =>
      rw [same] at fits fitsRoom sound
      obtain ⟨valid, ordered⟩ := sound
      have area := area _ _ _ _ _ same
      cases signed with
      | true =>
          exact poolCodes_means Code.within_signed valid ordered result area schedule given fits
            fitsRoom
      | false =>
          exact poolCodes_means Code.within_unsigned valid ordered result area schedule given fits
            fitsRoom

end Pooling

end TensorEngine
