import TensorEngine.Kernel.StandardOperator
import TensorEngine.Proofs.Kernel.Tiling

/-!
Contract: each loop of the kernels gives its output element by element.

Owns:
- the typed views of buffers, and when they exist;
- `Writes`, an output that holds given elements;
- one element of every loop: mapped, combined, averaged and multiplied;
- the theorem for each loop that it succeeds exactly when every element does.

Does not own: which functions operators apply.

A loop without columns returns before any tile. Its output then has no elements, so that the
theorems need no exception for it.
-/

namespace TensorEngine

/-! ## Views -/

section View

variable {α : Type} [Storage α]

theorem view_eq_ok_iff {buffer : Buffer} {elements : Array α} :
    Outcome.view α buffer = .ok elements ↔
      buffer.address % Storage.width α = 0 ∧ buffer.size % Storage.width α = 0 ∧
        decodeAll buffer.bytes = elements := by
  unfold Outcome.view Outcome.ofParameter Buffer.view
  rw [mapError_eq_ok_iff]
  by_cases aligned : buffer.address % Storage.width α = 0
  · by_cases whole : buffer.size % Storage.width α = 0
    · simp [aligned, whole]
    · simp [aligned, whole]
  · simp [aligned]

theorem decodeAll_size (bytes : Bytes) :
    (decodeAll bytes : Array α).size = bytes.size / Storage.width α := by
  unfold decodeAll
  exact Array.size_ofFn

theorem encodeAll_size (elements : Array α) :
    (encodeAll elements).size = elements.size * Storage.width α := by
  unfold encodeAll
  rw [List.size_toArray, List.length_flatMap, List.map_congr_left
    fun element _ => Storage.encode_length element]
  simp

/-- A buffer with the bytes of another one, where that one is or at the start of memory. -/
structure Buffer.Copies (copy original : Buffer) : Prop where
  bytes : copy.bytes = original.bytes
  address : copy.address = original.address ∨ copy.address = 0

/-- A buffer with room for what another one holds, where that one is or at the start of memory. -/
structure Buffer.Matches (room original : Buffer) : Prop where
  size : room.size = original.size
  address : room.address = original.address ∨ room.address = 0

theorem Buffer.Copies.view {copy original : Buffer} (copies : copy.Copies original)
    {elements : Array α} (viewed : Outcome.view α original = .ok elements) :
    Outcome.view α copy = .ok elements := by
  obtain ⟨aligned, whole, decoded⟩ := view_eq_ok_iff.mp viewed
  refine view_eq_ok_iff.mpr ⟨?_, ?_, ?_⟩
  · rcases copies.address with same | start
    · rw [same]
      exact aligned
    · rw [start, Nat.zero_mod]
  · unfold Buffer.size
    rw [copies.bytes]
    exact whole
  · rw [copies.bytes]
    exact decoded

theorem Buffer.Matches.view {room original : Buffer} (sameRoom : room.Matches original)
    {elements : Array α} (viewed : Outcome.view α original = .ok elements) :
    ∃ others, Outcome.view α room = .ok others ∧ others.size = elements.size := by
  obtain ⟨aligned, whole, decoded⟩ := view_eq_ok_iff.mp viewed
  refine ⟨_, view_eq_ok_iff.mpr ⟨?_, ?_, rfl⟩, ?_⟩
  · rcases sameRoom.address with same | start
    · rw [same]
      exact aligned
    · rw [start, Nat.zero_mod]
  · rw [sameRoom.size]
    exact whole
  · have sameSize := sameRoom.size
    unfold Buffer.size at sameSize
    rw [← decoded, decodeAll_size, decodeAll_size, sameSize]

end View

/-- The elements of a buffer of bytes are its bytes. -/
theorem decodeAll_bytes (bytes : Bytes) : (decodeAll bytes : Array UInt8) = bytes := by
  have size : (decodeAll bytes : Array UInt8).size = bytes.size :=
    (decodeAll_size bytes).trans (Nat.div_one _)
  refine Array.ext size fun index inside insideToo => ?_
  have decoded : (decodeAll bytes : Array UInt8)[index] =
      (bytes.extract (index * 1) (index * 1 + 1)).toList.headD 0 := Array.getElem_ofFn inside
  rw [decoded, Array.toList_extract, List.headD_eq_head?_getD, Nat.mul_one,
    List.extract_eq_take_drop, List.head?_take, List.head?_drop]
  simp [insideToo]

theorem encodeAll_bytes (bytes : Bytes) : encodeAll bytes = bytes := by
  unfold encodeAll
  simp [Storage.encode]

theorem view_bytes (buffer : Buffer) : Outcome.view UInt8 buffer = .ok buffer.bytes :=
  view_eq_ok_iff.mpr ⟨Nat.mod_one _, Nat.mod_one _, decodeAll_bytes _⟩

/-- The elements of a buffer of codes are its bytes, read as signed. -/
theorem decodeAll_codes (bytes : Bytes) :
    (decodeAll bytes : Array Int8) = bytes.map UInt8.toInt8 := by
  have decoded : (decodeAll bytes : Array Int8) =
      (decodeAll bytes : Array UInt8).map UInt8.toInt8 := by
    unfold decodeAll
    rw [Array.map_ofFn]
    rfl
  rw [decoded, decodeAll_bytes]

theorem encodeAll_codes (codes : Array Int8) : encodeAll codes = codes.map Int8.toUInt8 := by
  unfold encodeAll
  apply Array.toList_inj.mp
  rw [Array.toList_map]
  exact List.flatMap_pure_eq_map _ _

theorem view_codes (buffer : Buffer) :
    Outcome.view Int8 buffer = .ok (buffer.bytes.map UInt8.toInt8) :=
  view_eq_ok_iff.mpr ⟨Nat.mod_one _, Nat.mod_one _, decodeAll_codes _⟩

/-! ## Inputs and outputs -/

/-- An input is there and holds these elements of a type. -/
def Reads (α : Type) [Storage α] (inputs : List Buffer) (index : Nat) (elements : Array α) :
    Prop :=
  ∃ buffer, inputs[index]? = some buffer ∧ Outcome.view α buffer = .ok elements

/-- An output has room for the elements, and gets them as bytes. -/
def Writes {α : Type} [Storage α] (output : Buffer) (count : Nat) (element : Nat → Checked α)
    (bytes : Bytes) : Prop :=
  ∃ room written, Outcome.view α output = .ok room ∧ count ≤ room.size ∧
    Computes element 0 count written ∧ encodeAll written = bytes

section Access

variable {α : Type} [Storage α]

theorem Reads.copies {copies originals : List Buffer}
    (same : List.Forall₂ Buffer.Copies copies originals) {index : Nat} {elements : Array α}
    (reads : Reads α originals index elements) : Reads α copies index elements := by
  obtain ⟨buffer, found, viewed⟩ := reads
  obtain ⟨inside, atIndex⟩ := List.getElem?_eq_some_iff.mp found
  have sameLength := same.length_eq
  have copied := (List.forall₂_iff_get.mp same).2 index (by omega) inside
  simp only [List.get_eq_getElem, atIndex] at copied
  exact ⟨_, List.getElem?_eq_getElem (by omega), copied.view viewed⟩

/-- What an output held before does not matter. -/
theorem Writes.matches {output room : Buffer} (sameRoom : room.Matches output) {count : Nat}
    {element : Nat → Checked α} {bytes : Bytes} (writes : Writes output count element bytes) :
    Writes room count element bytes := by
  obtain ⟨before, written, viewed, enough, computes, encoded⟩ := writes
  obtain ⟨others, viewedOther, sameSize⟩ := sameRoom.view viewed
  exact ⟨others, written, viewedOther, by omega, computes, encoded⟩

theorem Writes.size {output : Buffer} {count : Nat} {element : Nat → Checked α} {bytes : Bytes}
    (writes : Writes output count element bytes) : bytes.size = count * Storage.width α := by
  obtain ⟨_, written, _, _, computes, encoded⟩ := writes
  rw [← encoded, encodeAll_size, computes.size_eq]

end Access

/-! ## Checked computations in outcomes -/

theorem lift_eq_ok_iff {α : Type} {computation : Checked α} {result : α} :
    (liftM computation : Outcome α) = .ok result ↔ computation = .ok result :=
  mapError_eq_ok_iff

/-- The front of a room is a canvas of that many elements. -/
theorem canvas_size {α : Type} {room canvas : Array α} {count : Nat}
    (taken : front room count = .ok canvas) : canvas.size = count := by
  obtain ⟨enough, rfl⟩ := front_eq_ok_iff.mp taken
  rw [Array.size_extract]
  omega

theorem exists_canvas {α : Type} {room : Array α} {count : Nat} (enough : count ≤ room.size) :
    ∃ canvas, front room count = .ok canvas :=
  ⟨_, front_eq_ok_iff.mpr ⟨enough, rfl⟩⟩

theorem fetch_front {α : Type} {elements source : Array α} {count index : Nat}
    (taken : front elements count = .ok source) (inside : index < count) :
    fetch source index = fetch elements index := by
  obtain ⟨enough, rfl⟩ := front_eq_ok_iff.mp taken
  unfold fetch
  rw [Array.getElem?_extract, if_pos (by omega), Nat.zero_add]

theorem fetch_slice {α : Type} {elements part : Array α} {start stop index : Nat}
    (taken : slice elements start stop = .ok part) (inside : start + index < stop) :
    fetch part index = fetch elements (start + index) := by
  obtain ⟨_, bound, rfl⟩ := slice_eq_ok_iff.mp taken
  unfold fetch
  rw [Array.getElem?_extract, if_pos (by omega)]

/-! ## Mapped elements -/

section Map

variable {α β : Type}

def mappedElement (function : α → Checked β) (elements : Array α) (index : Nat) : Checked β := do
  function (← fetch elements index)

/-- A tile of a mapped output, once the input is there. -/
theorem mappedTile_eq_ok_iff {function : α → Checked β} {elements source : Array α}
    {lanes count : Nat} (taken : front elements count = .ok source) {tile : Tile}
    (inside : tile.offset + tile.length ≤ count) {chunk : Array β} :
    (do
      let part ← slice source tile.offset (tile.offset + tile.length)
      collectAt (blockPositions lanes tile.length) fun position => do
        function (← fetch part position)) = .ok chunk ↔
      Computes (mappedElement function elements) tile.offset tile.length chunk := by
  have bound := canvas_size taken
  obtain ⟨part, sliced⟩ :
      ∃ part, slice source tile.offset (tile.offset + tile.length) = .ok part :=
    ⟨_, slice_eq_ok_iff.mpr ⟨by omega, by omega, rfl⟩⟩
  rw [sliced]
  show collectAt (blockPositions lanes tile.length)
    (fun position => do function (← fetch part position)) = .ok chunk ↔ _
  rw [collectBlocks_eq_ok_iff]
  apply computes_renumber_iff
  intro index within
  unfold mappedElement
  rw [fetch_slice sliced (by omega), fetch_front taken (by omega)]

variable [Storage α] [Storage β]

/-- A mapped output is written exactly when the function has a value at every element. -/
theorem mapElements_eq_ok_iff {function : α → Checked β} {schedule : Schedule}
    {tileElements lanes count : Nat} {inputs : List Buffer} {output : Buffer} {bytes : Bytes} :
    mapElements function schedule tileElements lanes count inputs output = .ok bytes ↔
      ∃ elements, Reads α inputs 0 elements ∧ count ≤ elements.size ∧
        Writes output count (mappedElement function elements) bytes := by
  have run : ∀ {elements source : Array α} {room canvas : Array β},
      front elements count = .ok source → front room count = .ok canvas → ∀ written,
        runTiles (schedule.order (tiles count (laneTile tileElements (max lanes 1)))) canvas
          (fun tile => do
            let part ← slice source tile.offset (tile.offset + tile.length)
            collectAt (blockPositions (max lanes 1) tile.length) fun position => do
              function (← fetch part position)) = .ok written ↔
          Computes (mappedElement function elements) 0 count written := by
    intro elements source room canvas taken takenRoom written
    exact runSchedule_eq_ok_iff (canvas_size takenRoom) fun tile listed chunk =>
      mappedTile_eq_ok_iff taken ((covers_tiles count _).inside tile listed)
  unfold mapElements
  simp only [bind_eq_ok_iff, lift_eq_ok_iff, pure_eq_ok_iff, operand_eq_ok_iff]
  constructor
  · rintro ⟨buffer, found, elements, viewed, room, viewedRoom, source, taken, canvas, takenRoom,
      written, ran, encoded⟩
    exact ⟨elements, ⟨buffer, found, viewed⟩, (front_eq_ok_iff.mp taken).1, room, written,
      viewedRoom, (front_eq_ok_iff.mp takenRoom).1, (run taken takenRoom written).mp ran, encoded⟩
  · rintro ⟨elements, ⟨buffer, found, viewed⟩, enough, room, written, viewedRoom, enoughRoom,
      computes, encoded⟩
    obtain ⟨source, taken⟩ := exists_canvas enough
    obtain ⟨canvas, takenRoom⟩ := exists_canvas enoughRoom
    exact ⟨buffer, found, elements, viewed, room, viewedRoom, source, taken, canvas, takenRoom,
      written, (run taken takenRoom written).mpr computes, encoded⟩

end Map

theorem mapElements_bytes (function : UInt8 → UInt8) (schedule : Schedule)
    (tileElements lanes : Nat) {count : Nat} {inputs : List Buffer} {input output : Buffer}
    (first : inputs[0]? = some input)
    (enough : count ≤ input.size) (room : count ≤ output.size) :
    mapElements (fun byte : UInt8 => .ok (function byte)) schedule tileElements lanes count inputs
      output = .ok ((input.bytes.extract 0 count).map function) := by
  refine mapElements_eq_ok_iff.mpr ⟨input.bytes, ⟨input, first, view_bytes input⟩, enough,
    output.bytes, _, view_bytes output, room, ⟨?_, ?_⟩, encodeAll_bytes _⟩
  · rw [Array.size_map, Array.size_extract]
    exact Nat.min_eq_left enough
  · intro index value found
    rw [Array.getElem?_map, Option.map_eq_some_iff] at found
    obtain ⟨byte, found, rfl⟩ := found
    rw [Array.getElem?_extract] at found
    split at found
    · exact bind_eq_ok_iff.mpr ⟨byte, fetch_eq_ok_iff.mpr found, rfl⟩
    · cases found

/-! ## Combined elements -/

section Combine

variable {α : Type}

/-- Where a row of the output starts in both inputs. -/
def rowOffsets (plan : BroadcastPlan) (row : Nat) : Checked (Nat × Nat) := do
  let leftOffset ← plan.left.rowOffset plan.outer row
  let rightOffset ← plan.right.rowOffset plan.outer row
  return (leftOffset, rightOffset)

/-- An entry of a row from the entries of both inputs. -/
def combinedEntry (function : α → α → Checked α) (plan : BroadcastPlan) (left right : Array α)
    (offsets : Nat × Nat) (column : Nat) : Checked α := do
  let x ← fetch left (offsets.1 + column * plan.left.columnStride)
  let y ← fetch right (offsets.2 + column * plan.right.columnStride)
  function x y

def flatElement (function : α → α → Checked α) (left right : Array α) (index : Nat) :
    Checked α := do
  let x ← fetch left index
  let y ← fetch right index
  function x y

def combinedElement (function : α → α → Checked α) (plan : BroadcastPlan)
    (left right : Array α) : Nat → Checked α :=
  if plan.isFlat then flatElement function left right
  else rowElement (rowOffsets plan) (combinedEntry function plan left right) plan.columns

theorem combinedRow_eq (function : α → α → Checked α) (plan : BroadcastPlan)
    (left right : Array α) (row : Nat) :
    combinedRow function plan left right row =
      (do collect plan.columns (combinedEntry function plan left right
        (← rowOffsets plan row))) := by
  unfold combinedRow rowOffsets
  cases plan.left.rowOffset plan.outer row with
  | error breach => rfl
  | ok leftOffset =>
      cases plan.right.rowOffset plan.outer row with
      | error breach => rfl
      | ok rightOffset => rfl

theorem flatTile_eq_ok_iff {function : α → α → Checked α} {left right : Array α} {lanes : Nat}
    {tile : Tile} (positive : 0 < tile.length) {chunk : Array α} :
    flatTile function lanes left right tile = .ok chunk ↔
      Computes (flatElement function left right) tile.offset tile.length chunk := by
  have collected : ∀ {leftPart rightPart : Array α},
      slice left tile.offset (tile.offset + tile.length) = .ok leftPart →
      slice right tile.offset (tile.offset + tile.length) = .ok rightPart →
      (collectAt (blockPositions lanes tile.length) (flatElement function leftPart rightPart) =
        .ok chunk ↔ Computes (flatElement function left right) tile.offset tile.length chunk) := by
    intro leftPart rightPart slicedLeft slicedRight
    rw [collectBlocks_eq_ok_iff]
    apply computes_renumber_iff
    intro index within
    unfold flatElement
    rw [fetch_slice slicedLeft (by omega), fetch_slice slicedRight (by omega)]
  unfold flatTile
  simp only [bind_eq_ok_iff]
  constructor
  · rintro ⟨leftPart, slicedLeft, rightPart, slicedRight, ran⟩
    exact (collected slicedLeft slicedRight).mp ran
  · intro computes
    -- the last element of the tile is there, and so are the slices
    have last : tile.length - 1 < tile.length := by omega
    obtain ⟨value, _, computed⟩ := computes.exists_element last
    obtain ⟨x, foundLeft, computed⟩ := bind_eq_ok_iff.mp computed
    obtain ⟨y, foundRight, _⟩ := bind_eq_ok_iff.mp computed
    have boundLeft := (Array.getElem?_eq_some_iff.mp (fetch_eq_ok_iff.mp foundLeft)).1
    have boundRight := (Array.getElem?_eq_some_iff.mp (fetch_eq_ok_iff.mp foundRight)).1
    have slicedLeft : slice left tile.offset (tile.offset + tile.length) = .ok _ :=
      slice_eq_ok_iff.mpr ⟨by omega, by omega, rfl⟩
    have slicedRight : slice right tile.offset (tile.offset + tile.length) = .ok _ :=
      slice_eq_ok_iff.mpr ⟨by omega, by omega, rfl⟩
    exact ⟨_, slicedLeft, _, slicedRight, (collected slicedLeft slicedRight).mpr computes⟩

theorem rowsTile_eq_ok_iff {function : α → α → Checked α} {plan : BroadcastPlan}
    (positive : 0 < plan.columns) {left right : Array α} {tileElements : Nat} {tile : Tile}
    (listed : tile ∈ tiles plan.count (rowTile tileElements plan.columns)) {chunk : Array α} :
    rowsTile function plan left right tile = .ok chunk ↔
      Computes (rowElement (rowOffsets plan) (combinedEntry function plan left right) plan.columns)
        tile.offset tile.length chunk := by
  unfold rowsTile
  simp only [combinedRow_eq]
  exact gatherRows_eq_ok_iff positive listed

/-- The tiles of a combined output in the order in which they are worked off: of a flat one whole
blocks of lanes, else whole rows. Without columns there are none. -/
def BroadcastPlan.work (plan : BroadcastPlan) (schedule : Schedule) (tileElements lanes : Nat) :
    List Tile :=
  if plan.isFlat then schedule.order (tiles plan.count (laneTile tileElements lanes))
  else if plan.columns = 0 then []
  else schedule.order (tiles plan.count (rowTile tileElements plan.columns))

def combinedTile (function : α → α → Checked α) (plan : BroadcastPlan) (lanes : Nat)
    (left right : Array α) : Tile → Checked (Array α) :=
  if plan.isFlat then flatTile function lanes left right else rowsTile function plan left right

section Tiles

variable {function : α → α → Checked α} {plan : BroadcastPlan} {schedule : Schedule}
  {tileElements lanes : Nat}

theorem BroadcastPlan.covers_work : Covers (plan.work schedule tileElements lanes) plan.count := by
  unfold work
  split
  · exact (covers_tiles _ _).order schedule
  · split
    · rename_i none
      have empty : plan.count = 0 := by
        unfold count
        rw [none, Nat.mul_zero]
      exact ⟨by simp, fun index inside => by omega⟩
    · exact (covers_tiles _ _).order schedule

theorem combinedTile_eq_ok_iff {left right : Array α} {tile : Tile}
    (listed : tile ∈ plan.work schedule tileElements lanes) {chunk : Array α} :
    combinedTile function plan lanes left right tile = .ok chunk ↔
      Computes (combinedElement function plan left right) tile.offset tile.length chunk := by
  unfold BroadcastPlan.work at listed
  unfold combinedTile combinedElement
  split at listed
  · rename_i flat
    rw [if_pos flat, if_pos flat]
    exact flatTile_eq_ok_iff (length_pos_of_mem_tiles ((schedule.perm _).mem_iff.mp listed))
  · rename_i rows
    rw [if_neg rows, if_neg rows]
    split at listed
    · cases listed
    · rename_i some
      exact rowsTile_eq_ok_iff (Nat.pos_of_ne_zero some) ((schedule.perm _).mem_iff.mp listed)

/-- A combination is one loop over the tiles of its output. -/
theorem combineTiles_eq {σ : Type} (store : σ → Nat → Array α → σ) (left right : Array α)
    (state : σ) :
    combineTiles store function schedule plan tileElements lanes left right state =
      foldTiles store (plan.work schedule tileElements lanes) state
        (combinedTile function plan lanes left right) := by
  unfold combineTiles BroadcastPlan.work combinedTile
  by_cases flat : plan.isFlat = true
  · rw [if_pos flat, if_pos flat, if_pos flat]
  · rw [if_neg flat, if_neg flat, if_neg flat]
    by_cases none : plan.columns = 0
    · rw [if_pos none, if_pos none]
      rfl
    · rw [if_neg none, if_neg none]

/-- The elements of a combined output, flat or in rows. -/
theorem runCombination_eq_ok_iff {left right canvas written : Array α}
    (sameSize : canvas.size = plan.count) :
    runTiles (plan.work schedule tileElements lanes) canvas
        (combinedTile function plan lanes left right) = .ok written ↔
      Computes (combinedElement function plan left right) 0 plan.count written := by
  have covers := @BroadcastPlan.covers_work plan schedule tileElements lanes
  rw [← sameSize] at covers ⊢
  exact runTiles_eq_ok_iff covers fun tile listed chunk => combinedTile_eq_ok_iff listed

end Tiles

variable [Storage α]

theorem inputElements_eq_ok_iff {inputs : List Buffer} {index count : Nat} {taken : Array α} :
    inputElements α inputs index count = .ok taken ↔
      ∃ elements, Reads α inputs index elements ∧ front elements count = .ok taken := by
  unfold inputElements Reads
  simp only [bind_eq_ok_iff, lift_eq_ok_iff, operand_eq_ok_iff]
  constructor
  · rintro ⟨buffer, found, elements, viewed, ran⟩
    exact ⟨elements, ⟨buffer, found, viewed⟩, ran⟩
  · rintro ⟨elements, ⟨buffer, found, viewed⟩, ran⟩
    exact ⟨buffer, found, elements, viewed, ran⟩

theorem combineElements_eq (function : α → α → Checked α) (schedule : Schedule)
    (plan : BroadcastPlan) (tileElements lanes : Nat) (inputs : List Buffer) (output : Buffer) :
    combineElements function schedule plan tileElements lanes inputs output = (do
      let left ← inputElements α inputs 0 plan.left.count
      let right ← inputElements α inputs 1 plan.right.count
      let room ← Outcome.view α output
      let canvas ← front room plan.count
      let written ← runTiles (plan.work schedule tileElements lanes) canvas
        (combinedTile function plan lanes left right)
      return encodeAll written) := by
  unfold combineElements
  simp only [combineTiles_eq]
  rfl

/-- A combined output is written exactly when the function has a value at every pair of
elements. -/
theorem combineElements_eq_ok_iff {function : α → α → Checked α} {schedule : Schedule}
    {plan : BroadcastPlan} {tileElements lanes : Nat} {inputs : List Buffer} {output : Buffer}
    {bytes : Bytes} :
    combineElements function schedule plan tileElements lanes inputs output = .ok bytes ↔
      ∃ left right, inputElements α inputs 0 plan.left.count = .ok left ∧
        inputElements α inputs 1 plan.right.count = .ok right ∧
        Writes output plan.count (combinedElement function plan left right) bytes := by
  rw [combineElements_eq]
  simp only [bind_eq_ok_iff, lift_eq_ok_iff, pure_eq_ok_iff]
  constructor
  · rintro ⟨left, readLeft, right, readRight, room, viewed, canvas, taken, written, ran, encoded⟩
    exact ⟨left, right, readLeft, readRight, room, written, viewed, (front_eq_ok_iff.mp taken).1,
      (runCombination_eq_ok_iff (canvas_size taken)).mp ran, encoded⟩
  · rintro ⟨left, right, readLeft, readRight, room, written, viewed, enough, computes, encoded⟩
    obtain ⟨canvas, taken⟩ := exists_canvas enough
    exact ⟨left, readLeft, right, readRight, room, viewed, canvas, taken, written,
      (runCombination_eq_ok_iff (canvas_size taken)).mpr computes, encoded⟩

end Combine

/-! ## Averaged elements -/

section Pool

variable {α β : Type} [Storage α]

/-- An entry of an image in a pooled output, from the sums over the positions of the image. -/
def pooledEntry (result : β → Checked α) (sums : Array β) (channel : Nat) : Checked α := do
  result (← fetch sums channel)

def pooledElement (zero : β) (add : β → α → Checked β) (result : β → Checked α) (view : RowView α)
    (positions channels : Nat) : Nat → Checked α :=
  rowElement (fun image => spatialSums view image positions channels zero add)
    (pooledEntry result) channels

/-- A pooled output is written exactly when every mean has a value. Without channels the means
need not even be prepared. -/
theorem poolImages_eq_ok_iff {zero : β} {add : β → α → Checked β}
    {prepare : Checked (β → Checked α)} {schedule : Schedule}
    {images positions channels tileElements : Nat} {inputs : List Buffer} {output : Buffer}
    {bytes : Bytes} :
    poolImages zero add prepare schedule images positions channels tileElements inputs output =
        .ok bytes ↔
      ∃ elements view result, Reads α inputs 0 elements ∧
        RowView.contiguous elements (images * positions) channels = .ok view ∧
        (channels = 0 ∨ prepare = .ok result) ∧
        Writes output (images * channels)
          (pooledElement zero add result view positions channels) bytes := by
  unfold poolImages
  simp only [bind_eq_ok_iff, lift_eq_ok_iff, operand_eq_ok_iff]
  by_cases none : channels = 0
  · subst none
    simp only [if_true, pure_eq_ok_iff]
    constructor
    · rintro ⟨buffer, found, elements, viewed, view, rows, room, viewedRoom, canvas, taken, encoded⟩
      have size := canvas_size taken
      rw [Nat.mul_zero] at size
      exact ⟨elements, view, fun _ => throw .outOfRange, ⟨buffer, found, viewed⟩,
        mapError_eq_ok_iff.mp rows, .inl trivial, room, canvas, viewedRoom,
        (front_eq_ok_iff.mp taken).1,
        Computes.empty_iff.mpr (Array.eq_empty_of_size_eq_zero size), encoded⟩
    · rintro ⟨elements, view, result, ⟨buffer, found, viewed⟩, rows, _, room, written, viewedRoom,
        enough, computes, encoded⟩
      obtain ⟨canvas, taken⟩ := exists_canvas enough
      have size := canvas_size taken
      rw [Nat.mul_zero] at size
      rw [Nat.mul_zero, Computes.empty_iff] at computes
      refine ⟨buffer, found, elements, viewed, view, mapError_eq_ok_iff.mpr rows, room,
        viewedRoom, canvas, taken, ?_⟩
      rw [← encoded, computes, Array.eq_empty_of_size_eq_zero size]
  · simp only [none, if_false, false_or, bind_eq_ok_iff, lift_eq_ok_iff, pure_eq_ok_iff]
    constructor
    · rintro ⟨buffer, found, elements, viewed, view, rows, room, viewedRoom, canvas, taken, result,
        prepared, written, ran, encoded⟩
      exact ⟨elements, view, result, ⟨buffer, found, viewed⟩, mapError_eq_ok_iff.mp rows, prepared,
        room, written, viewedRoom, (front_eq_ok_iff.mp taken).1,
        (runRows_eq_ok_iff (Nat.pos_of_ne_zero none) (canvas_size taken)).mp ran, encoded⟩
    · rintro ⟨elements, view, result, ⟨buffer, found, viewed⟩, rows, prepared, room, written,
        viewedRoom, enough, computes, encoded⟩
      obtain ⟨canvas, taken⟩ := exists_canvas enough
      exact ⟨buffer, found, elements, viewed, view, mapError_eq_ok_iff.mpr rows, room, viewedRoom,
        canvas, taken, result, prepared, written,
        (runRows_eq_ok_iff (Nat.pos_of_ne_zero none) (canvas_size taken)).mpr computes, encoded⟩

end Pool

/-! ## Multiplied elements -/

section Multiply

variable {α β ω : Type} [Storage α]

def productEntry (inner : Nat) (weights : Array ω) (bias : Array β) (step : β → α → ω → β)
    (result : β → Checked α) (row : Array α) (channel : Nat) : Checked α := do
  result (← channelProduct inner weights bias step row channel)

def productElement (packed : PackedWeights) (weights : Array ω) (bias : Array β)
    (step : β → α → ω → β) (result : β → Checked α) (view : RowView α) : Nat → Checked α :=
  rowElement view.row (productEntry packed.inner weights bias step result) packed.outputs

/-- An output of products is written exactly when every product has a value. -/
theorem multiplyRows_eq_ok_iff {packed : PackedWeights} {weights : Array ω} {bias : Array β}
    {step : β → α → ω → β} {result : β → Checked α} {schedule : Schedule}
    {rows tileElements : Nat} {inputs : List Buffer} {output : Buffer} {bytes : Bytes} :
    multiplyRows packed weights bias step result schedule rows tileElements inputs output =
        .ok bytes ↔
      ∃ elements view, Reads α inputs 0 elements ∧
        RowView.contiguous elements rows packed.inner = .ok view ∧
        Writes output (rows * packed.outputs)
          (productElement packed weights bias step result view) bytes := by
  unfold multiplyRows
  simp only [bind_eq_ok_iff, lift_eq_ok_iff, operand_eq_ok_iff]
  by_cases none : packed.outputs = 0
  · simp only [none, if_true, pure_eq_ok_iff, Nat.mul_zero]
    constructor
    · rintro ⟨buffer, found, elements, viewed, view, made, room, viewedRoom, canvas, taken, encoded⟩
      exact ⟨elements, view, ⟨buffer, found, viewed⟩, mapError_eq_ok_iff.mp made, room, canvas,
        viewedRoom, (front_eq_ok_iff.mp taken).1,
        Computes.empty_iff.mpr (Array.eq_empty_of_size_eq_zero (canvas_size taken)), encoded⟩
    · rintro ⟨elements, view, ⟨buffer, found, viewed⟩, made, room, written, viewedRoom, enough,
        computes, encoded⟩
      obtain ⟨canvas, taken⟩ := exists_canvas enough
      refine ⟨buffer, found, elements, viewed, view, mapError_eq_ok_iff.mpr made, room,
        viewedRoom, canvas, taken, ?_⟩
      rw [← encoded, Computes.empty_iff.mp computes,
        Array.eq_empty_of_size_eq_zero (canvas_size taken)]
  · simp only [none, if_false, bind_eq_ok_iff, lift_eq_ok_iff, pure_eq_ok_iff]
    constructor
    · rintro ⟨buffer, found, elements, viewed, view, made, room, viewedRoom, canvas, taken, written,
        ran, encoded⟩
      exact ⟨elements, view, ⟨buffer, found, viewed⟩, mapError_eq_ok_iff.mp made, room, written,
        viewedRoom, (front_eq_ok_iff.mp taken).1,
        (runRows_eq_ok_iff (Nat.pos_of_ne_zero none) (canvas_size taken)).mp ran, encoded⟩
    · rintro ⟨elements, view, ⟨buffer, found, viewed⟩, made, room, written, viewedRoom, enough,
        computes, encoded⟩
      obtain ⟨canvas, taken⟩ := exists_canvas enough
      exact ⟨buffer, found, elements, viewed, view, mapError_eq_ok_iff.mpr made, room, viewedRoom,
        canvas, taken, written,
        (runRows_eq_ok_iff (Nat.pos_of_ne_zero none) (canvas_size taken)).mpr computes, encoded⟩

end Multiply

end TensorEngine
