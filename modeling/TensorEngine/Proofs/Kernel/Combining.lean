import TensorEngine.Proofs.Kernel.Broadcasting
import TensorEngine.Proofs.Kernel.ElementWrites
import TensorEngine.Proofs.Kernel.Soundness

/-!
Contract: a combination writes every element of its output once, as broadcasting defines it.

Owns:
- `ElementFunction`, a function of two elements given as bytes, and `Combination.scalar`, the one of
  a combination;
- `Combination.writes`, the writes of a run in their order, as its own loops note them;
- `Buffer.Fits`, a buffer of whole elements that are enough for a shape;
- the theorem on the contents that a combination gives for its output.

Does not own: which combination is made for a node.
-/

namespace TensorEngine

open TensorEngine.Numeric

/-! ## Functions of elements -/

/-- A function of two elements of one width, given and left as bytes. -/
structure ElementFunction where
  width : Nat
  apply : List UInt8 → List UInt8 → Checked (List UInt8)

def ElementFunction.of {α : Type} [Storage α] (function : α → α → Checked α) :
    ElementFunction where
  width := Storage.width α
  apply x y := Storage.encode <$> function (Storage.decode x) (Storage.decode y)

def Combination.scalar (combination : Combination) : ElementFunction :=
  match combination.body with
  | .single => .of fun x y : Float32 => .ok (combination.ofSingles x y)
  | .half => .of fun x y : Half => .ok (combination.ofHalves x y)
  | .codes true left right result low high =>
      .of (ofCodes (α := Int8) combination.function left right result low high)
  | .codes false left right result low high =>
      .of (ofCodes (α := UInt8) combination.function left right result low high)

theorem Combination.scalar_width_pos (combination : Combination) :
    0 < combination.scalar.width := by
  unfold scalar
  split
  · exact Storage.width_pos (α := Float32)
  · exact Storage.width_pos (α := Half)
  · exact Storage.width_pos (α := Int8)
  · exact Storage.width_pos (α := UInt8)

/-! ## Writes of a combination -/

section Combine

variable {α : Type} {function : α → α → Checked α} {plan : BroadcastPlan}
  {schedule : Schedule} {tileElements lanes : Nat}

/-- The tiles of a combined output have each of its places once. -/
theorem BroadcastPlan.places_work :
    ((plan.work schedule tileElements lanes).flatMap Tile.places).Perm (List.range plan.count) := by
  unfold work
  split
  · exact schedule.places_perm _ _
  · split
    · rename_i none
      unfold count
      rw [none, Nat.mul_zero]
      exact .refl _
    · exact schedule.places_perm _ _

variable [Storage α]

/-- The writes of a combination of two inputs, which its loops note in their order. -/
def combinedWrites (function : α → α → Checked α) (schedule : Schedule) (plan : BroadcastPlan)
    (tileElements lanes : Nat) (inputs : List Buffer) : Outcome (List (Write α)) := do
  let left ← inputElements α inputs 0 plan.left.count
  let right ← inputElements α inputs 1 plan.right.count
  combineTiles noteWrites function schedule plan tileElements lanes left right []

/-- The contents of a combined output are what its writes leave of a canvas of its size. -/
theorem combineElements_of_writes {inputs : List Buffer} {output : Buffer} {room canvas : Array α}
    (viewed : Outcome.view α output = .ok room) (taken : front room plan.count = .ok canvas)
    {writes : List (Write α)}
    (ran : combinedWrites function schedule plan tileElements lanes inputs = .ok writes) :
    combineElements function schedule plan tileElements lanes inputs output =
      .ok (encodeAll (writes.foldl Write.applyTo canvas)) := by
  obtain ⟨left, readLeft, ran⟩ := bind_eq_ok_iff.mp ran
  obtain ⟨right, readRight, ran⟩ := bind_eq_ok_iff.mp ran
  have noted := lift_eq_ok_iff.mp ran
  have loop : combineTiles writeAt function schedule plan tileElements lanes left right canvas =
      .ok (writes.foldl Write.applyTo canvas) := by
    rw [combineTiles_eq] at noted ⊢
    have written := foldTiles_writeAt (plan.work schedule tileElements lanes) canvas []
      (combinedTile function plan lanes left right)
    rw [noted] at written
    exact written
  exact bind_eq_ok_iff.mpr ⟨left, readLeft, bind_eq_ok_iff.mpr ⟨right, readRight,
    bind_eq_ok_iff.mpr ⟨room, viewed, bind_eq_ok_iff.mpr ⟨canvas, lift_eq_ok_iff.mpr taken,
      bind_eq_ok_iff.mpr ⟨_, lift_eq_ok_iff.mpr loop, rfl⟩⟩⟩⟩⟩

/-- A total function is written element by element, each place once. -/
theorem BroadcastPlan.Inside.exists_writes (inside : plan.Inside) (schedule : Schedule)
    (tileElements lanes : Nat) (total : ∀ x y, ∃ z, function x y = .ok z) {inputs : List Buffer}
    {left right : Array α}
    (readLeft : inputElements α inputs 0 plan.left.count = .ok left)
    (readRight : inputElements α inputs 1 plan.right.count = .ok right) :
    ∃ writes, combinedWrites function schedule plan tileElements lanes inputs = .ok writes ∧
      (writes.map (·.place)).Perm (List.range plan.count) ∧
      ∀ write ∈ writes,
        combinedElement function plan left right write.place = .ok write.element := by
  obtain ⟨whole, computes⟩ := exists_computes fun index within =>
    inside.exists_element total (inputElements_size readLeft) (inputElements_size readRight) within
  have bodies : ∀ tile ∈ plan.work schedule tileElements lanes, ∃ chunk,
      combinedTile function plan lanes left right tile = .ok chunk ∧
        Computes (combinedElement function plan left right) tile.offset tile.length chunk := by
    intro tile listed
    have part := computes.extract (covers_work.inside tile listed)
    rw [Nat.zero_add] at part
    exact ⟨_, (combinedTile_eq_ok_iff listed).mpr part, part⟩
  obtain ⟨writes, ran, places, elements⟩ := exists_foldTiles_noteWrites bodies []
  rw [← combineTiles_eq] at ran
  refine ⟨writes, ?_, ?_, elements⟩
  · exact bind_eq_ok_iff.mpr ⟨left, readLeft,
      bind_eq_ok_iff.mpr ⟨right, readRight, lift_eq_ok_iff.mpr ran⟩⟩
  · rw [places]
    exact places_work

end Combine

/-! ## Buffers that are large enough -/

/-- A buffer of whole elements at their alignment, which are enough for a tensor. Its size is a
word. -/
structure Buffer.Fits (buffer : Buffer) (width count : Nat) : Prop where
  aligned : buffer.address % width = 0
  whole : buffer.size % width = 0
  enough : count * width ≤ buffer.size
  short : buffer.size < 2 ^ 64

instance (buffer : Buffer) (width count : Nat) : Decidable (buffer.Fits width count) :=
  decidable_of_iff (buffer.address % width = 0 ∧ buffer.size % width = 0 ∧
    count * width ≤ buffer.size ∧ buffer.size < 2 ^ 64)
    ⟨fun given => ⟨given.1, given.2.1, given.2.2.1, given.2.2.2⟩,
      fun fits => ⟨fits.aligned, fits.whole, fits.enough, fits.short⟩⟩

namespace Buffer.Fits

variable {α : Type} [Storage α] {buffer : Buffer} {count : Nat}

theorem count_lt {width : Nat} (fits : buffer.Fits width count) (positive : 0 < width) :
    count < 2 ^ 64 :=
  Nat.lt_of_le_of_lt (Nat.le_trans (Nat.le_mul_of_pos_right _ positive) fits.enough) fits.short

/-- As many elements as fit can be taken. -/
theorem exists_front (fits : buffer.Fits (Storage.width α) count) :
    ∃ taken, Outcome.view α buffer = .ok (decodeAll buffer.bytes) ∧
      TensorEngine.front (decodeAll buffer.bytes : Array α) count = .ok taken ∧
      taken.size = count ∧
      ∀ place < count, fetch taken place =
        .ok (Storage.decode (elementBytes buffer.bytes (Storage.width α) place)) := by
  have enough : count ≤ buffer.bytes.size / Storage.width α :=
    (Nat.le_div_iff_mul_le Storage.width_pos).mpr fits.enough
  obtain ⟨taken, ran⟩ := exists_canvas
    (show count ≤ (decodeAll buffer.bytes : Array α).size by rw [decodeAll_size]; exact enough)
  refine ⟨taken, view_eq_ok_iff.mpr ⟨fits.aligned, fits.whole, rfl⟩, ran, canvas_size ran,
    fun place inside => ?_⟩
  rw [fetch_front ran inside]
  exact fetch_eq_ok_iff.mpr (decodeAll_getElem? (Nat.lt_of_lt_of_le inside enough))

/-- As many rows as fit can be read, with their elements. -/
theorem exists_rows {rows columns : Nat} (fits : buffer.Fits (Storage.width α) (rows * columns)) :
    ∃ view, RowView.contiguous (decodeAll buffer.bytes : Array α) rows columns = .ok view ∧
      ∀ row < rows, ∃ part, view.row row = .ok part ∧ part.size = columns ∧
        ∀ column < columns, fetch part column = .ok (Storage.decode
          (elementBytes buffer.bytes (Storage.width α) (row * columns + column))) := by
  have enough : rows * columns ≤ buffer.bytes.size / Storage.width α :=
    (Nat.le_div_iff_mul_le Storage.width_pos).mpr fits.enough
  obtain ⟨view, made, parts⟩ :=
    RowView.exists_rows (show rows * columns ≤ (decodeAll buffer.bytes : Array α).size by
      rw [decodeAll_size]; exact enough) (fits.count_lt (Storage.width_pos (α := α)))
  refine ⟨view, made, fun row inside => ?_⟩
  obtain ⟨part, read, size, elements⟩ := parts row inside
  refine ⟨part, read, size, fun column within => ?_⟩
  have place : columns * row + column < rows * columns :=
    Nat.mul_add_lt_mul_of_lt_of_lt inside within
  rw [Nat.mul_comm columns] at place
  rw [fetch_eq_ok_iff, elements column within]
  exact decodeAll_getElem? (Nat.lt_of_lt_of_le place enough)

end Buffer.Fits

/-! ## Contents of a combined output -/

/-- Writes by which an output gets what broadcasting defines: they are all that changes the buffer,
each place of the output is written once, and the element at the position of a multi-index is that
of the elements of both inputs at the positions of their own multi-indices. -/
structure ElementFunction.Broadcasts (scalar : ElementFunction) (left right output : Shape)
    (first second room : Buffer) (writes : List (Write (List UInt8))) (written : Bytes) : Prop where
  effect : written = putElements room.bytes writes
  once : (writes.map (·.place)).Perm (List.range output.elementCount)
  element : ∀ index, output.IsIndex index →
    scalar.apply
      (elementBytes first.bytes scalar.width (left.position (left.indexWithin index)))
      (elementBytes second.bytes scalar.width (right.position (right.indexWithin index))) =
        .ok (elementBytes written scalar.width (output.position index))

section Contents

variable {plan : BroadcastPlan} {left right output : Shape} {first second room : Buffer}

theorem exists_inputElements {α : Type} [Storage α] {inputs : List Buffer} {index count : Nat}
    {buffer : Buffer} (given : inputs[index]? = some buffer)
    (fits : buffer.Fits (Storage.width α) count) :
    ∃ taken, inputElements α inputs index count = .ok taken ∧ ∀ place value,
      fetch taken place = .ok value →
        value = Storage.decode (elementBytes buffer.bytes (Storage.width α) place) := by
  obtain ⟨taken, viewed, ran, size, fetches⟩ := fits.exists_front
  refine ⟨taken, inputElements_eq_ok_iff.mpr ⟨_, ⟨buffer, given, viewed⟩, ran⟩,
    fun place value found => ?_⟩
  have inside := (Array.getElem?_eq_some_iff.mp (fetch_eq_ok_iff.mp found)).1
  rw [size] at inside
  exact Except.ok.inj (found.symm.trans (fetches place inside))

/-- A total function that is combined by a plan gives its output what broadcasting defines. -/
theorem combineElements_broadcasts {α : Type} [Storage α] {function : α → α → Checked α}
    (total : ∀ x y, ∃ z, function x y = .ok z) (inside : plan.Inside)
    (follows : plan.Follows left right output) (schedule : Schedule) (tileElements lanes : Nat)
    (fits : first.Fits (Storage.width α) plan.left.count)
    (fitsRight : second.Fits (Storage.width α) plan.right.count)
    (fitsRoom : room.Fits (Storage.width α) plan.count) :
    ∃ bytes writes,
      combineElements function schedule plan tileElements lanes [first, second] room = .ok bytes ∧
      combinedWrites function schedule plan tileElements lanes [first, second] = .ok writes ∧
      (ElementFunction.of function).Broadcasts left right output first second room
        (writes.map Write.encoded) (overlay room.bytes bytes) := by
  have given : [first, second][0]? = some first := rfl
  have givenRight : [first, second][1]? = some second := rfl
  obtain ⟨lefts, readLeft, ofLeft⟩ := exists_inputElements given fits
  obtain ⟨rights, readRight, ofRight⟩ := exists_inputElements givenRight fitsRight
  obtain ⟨canvas, viewed, taken, size, -⟩ := fitsRoom.exists_front
  obtain ⟨writes, ran, places, elements⟩ := inside.exists_writes schedule tileElements lanes total
    readLeft readRight
  have contents := combineElements_of_writes viewed taken ran
  have once : (writes.map (·.place)).Nodup := places.nodup_iff.mpr List.nodup_range
  have onCanvas : ∀ write ∈ writes, write.place < canvas.size := by
    intro write listed
    rw [size, ← List.mem_range, ← places.mem_iff]
    exact List.mem_map_of_mem listed
  have effect : overlay room.bytes (encodeAll (writes.foldl Write.applyTo canvas)) =
      putElements room.bytes (writes.map Write.encoded) := by
    refine overlay_encodeAll ?_ fun write listed =>
      foldl_applyTo_getElem? once listed (onCanvas write listed)
    rw [foldl_applyTo_size, size]
    exact places
  refine ⟨_, writes, contents, ran, effect, ?_, ?_⟩
  · rw [encoded_places, ← follows.count_eq]
    exact places
  · intro index valid
    have bound := valid.position_lt
    rw [← follows.count_eq] at bound
    obtain ⟨write, listed, place⟩ :=
      List.mem_map.mp (places.mem_iff.mpr (List.mem_range.mpr bound))
    have computed := elements write listed
    rw [place, follows.combinedElement_position function lefts rights valid] at computed
    obtain ⟨x, foundLeft, computed⟩ := bind_eq_ok_iff.mp computed
    obtain ⟨y, foundRight, computed⟩ := bind_eq_ok_iff.mp computed
    have roomEnough : write.place * Storage.width α + Storage.width α ≤ room.bytes.size := by
      rw [place]
      exact Nat.le_trans (row_end_le (Storage.width α) bound) fitsRoom.enough
    have put := elementBytes_putElements encoded_length
      (by rw [encoded_places]; exact once) (List.mem_map_of_mem listed) roomEnough
    rw [effect, ← place]
    show Storage.encode <$> function (Storage.decode (elementBytes _ (Storage.width α) _))
      (Storage.decode (elementBytes _ (Storage.width α) _)) =
        .ok (elementBytes _ (Storage.width α) write.encoded.place)
    rw [← ofLeft _ x foundLeft, ← ofRight _ y foundRight, computed, put]
    rfl

end Contents

namespace Combination

/-- The writes of a combination in their order, as bytes. -/
def writes (combination : Combination) (schedule : Schedule) (inputs : List Buffer) :
    Outcome (List (Write (List UInt8))) :=
  combination.withFunction fun function lanes => do
    let writes ← combinedWrites function schedule combination.plan combination.tileElements lanes
      inputs
    return writes.map Write.encoded

variable {left right output : Shape} {first second room : Buffer}

/-- A sound combination gives its output what broadcasting defines. -/
theorem contents_broadcasts (combination : Combination) (sound : combination.body.Sound)
    (inside : combination.plan.Inside) (follows : combination.plan.Follows left right output)
    (schedule : Schedule)
    (fits : first.Fits combination.scalar.width combination.plan.left.count)
    (fitsRight : second.Fits combination.scalar.width combination.plan.right.count)
    (fitsRoom : room.Fits combination.scalar.width combination.plan.count) :
    ∃ bytes writes, combination.contents schedule [first, second] room = .ok bytes ∧
      combination.writes schedule [first, second] = .ok writes ∧
      combination.scalar.Broadcasts left right output first second room writes
        (overlay room.bytes bytes) := by
  unfold scalar at fits fitsRight fitsRoom ⊢
  unfold contents Combination.writes withFunction
  dsimp only
  cases same : combination.body with
  | single =>
      rw [same] at fits fitsRight fitsRoom
      obtain ⟨bytes, writes, ran, ranWrites, broadcasts⟩ := combineElements_broadcasts
        (fun _ _ => ⟨_, rfl⟩) inside follows schedule combination.tileElements
        (if 1 < combination.lanes then blockLanes else 1) fits fitsRight fitsRoom
      exact ⟨bytes, _, ran, bind_eq_ok_iff.mpr ⟨writes, ranWrites, rfl⟩, broadcasts⟩
  | half =>
      rw [same] at fits fitsRight fitsRoom
      obtain ⟨bytes, writes, ran, ranWrites, broadcasts⟩ := combineElements_broadcasts
        (fun _ _ => ⟨_, rfl⟩) inside follows schedule combination.tileElements 1 fits fitsRight
        fitsRoom
      exact ⟨bytes, _, ran, bind_eq_ok_iff.mpr ⟨writes, ranWrites, rfl⟩, broadcasts⟩
  | codes signed leftScale rightScale result low high =>
      rw [same] at fits fitsRight fitsRoom sound
      obtain ⟨valid, validRight, ordered⟩ := sound
      cases signed with
      | true =>
          obtain ⟨bytes, writes, ran, ranWrites, broadcasts⟩ := combineElements_broadcasts
            (exists_ofCodes Code.within_signed valid validRight ordered combination.function result)
            inside follows schedule combination.tileElements 1 fits fitsRight fitsRoom
          exact ⟨bytes, _, ran, bind_eq_ok_iff.mpr ⟨writes, ranWrites, rfl⟩, broadcasts⟩
      | false =>
          obtain ⟨bytes, writes, ran, ranWrites, broadcasts⟩ := combineElements_broadcasts
            (exists_ofCodes Code.within_unsigned valid validRight ordered combination.function
              result)
            inside follows schedule combination.tileElements 1 fits fitsRight fitsRoom
          exact ⟨bytes, _, ran, bind_eq_ok_iff.mpr ⟨writes, ranWrites, rfl⟩, broadcasts⟩

end Combination

end TensorEngine
