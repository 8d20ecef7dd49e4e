import TensorEngine.Kernel.Tiling
import TensorEngine.Proofs.Checked

/-!
Contract: an output that is worked off in tiles holds its elements, whatever the tiles and their
order are.

Owns:
- `Computes`, the elements of a stretch of an output, one by one;
- the collection of elements in blocks, in order and by rows;
- the cover of an output by its tiles;
- `runTiles_eq_ok_iff`, a whole run over tiles.

Does not own: which elements a kernel computes.

Nothing here needs tiles to be disjoint: what is written to a place is the element of that place.
-/

namespace TensorEngine

variable {α : Type}

/-- A chunk holds `element start` up to `element (start + count - 1)`. -/
structure Computes (element : Nat → Checked α) (start count : Nat) (chunk : Array α) : Prop where
  size_eq : chunk.size = count
  element_eq : ∀ (index : Nat) (value : α), chunk[index]? = some value →
    element (start + index) = .ok value

namespace Computes

variable {element : Nat → Checked α} {start count : Nat} {chunk : Array α}

theorem exists_element (computes : Computes element start count chunk) {index : Nat}
    (inside : index < count) :
    ∃ value, chunk[index]? = some value ∧ element (start + index) = .ok value := by
  have bound : index < chunk.size := by
    rw [computes.size_eq]
    exact inside
  have found := Array.getElem?_eq_getElem bound
  exact ⟨_, found, computes.element_eq index _ found⟩

theorem unique (computes : Computes element start count chunk) {other : Array α}
    (computesOther : Computes element start count other) : chunk = other := by
  apply Array.ext (computes.size_eq.trans computesOther.size_eq.symm)
  intro index inside insideOther
  have first := computes.element_eq index _ (Array.getElem?_eq_getElem inside)
  have second := computesOther.element_eq index _ (Array.getElem?_eq_getElem insideOther)
  exact Except.ok.inj (first.symm.trans second)

/-- A stretch without elements is computed by the empty chunk alone. -/
theorem empty_iff : Computes element start 0 chunk ↔ chunk = #[] := by
  constructor
  · intro computes
    exact Array.eq_empty_of_size_eq_zero computes.size_eq
  · rintro rfl
    exact ⟨rfl, by simp⟩

/-- A part of a computed stretch is computed. -/
theorem extract (computes : Computes element start count chunk) {first length : Nat}
    (inside : first + length ≤ count) :
    Computes element (start + first) length (chunk.extract first (first + length)) where
  size_eq := by
    rw [Array.size_extract, computes.size_eq]
    omega
  element_eq := by
    intro index value found
    have bound := (Array.getElem?_eq_some_iff.mp found).1
    rw [Array.size_extract, computes.size_eq] at bound
    rw [Array.getElem?_extract, if_pos (by rw [computes.size_eq]; omega)] at found
    rw [Nat.add_assoc]
    exact computes.element_eq _ value found

theorem append (computes : Computes element start count chunk) {length : Nat} {rest : Array α}
    (computesRest : Computes element (start + count) length rest) :
    Computes element start (count + length) (chunk ++ rest) where
  size_eq := by rw [Array.size_append, computes.size_eq, computesRest.size_eq]
  element_eq := by
    intro index value found
    rw [Array.getElem?_append, computes.size_eq] at found
    split at found
    · exact computes.element_eq index value found
    · have placed := computesRest.element_eq _ value found
      rw [show start + index = start + count + (index - count) by omega]
      exact placed

end Computes

/-! ## Collected elements -/

/-- Collecting after what has been seen. -/
theorem foldlM_push_eq_ok_iff {positions : List Nat} {element : Nat → Checked α}
    {seen result : Array α} :
    positions.foldlM (fun seen position => seen.push <$> element position) seen = .ok result ↔
      ∃ values : List α, List.Forall₂ (fun position value => element position = .ok value)
        positions values ∧ result = seen ++ values.toArray := by
  induction positions generalizing seen with
  | nil =>
      rw [List.foldlM_nil, pure_eq_ok_iff]
      simp [eq_comm]
  | cons position positions inductionHypothesis =>
      rw [List.foldlM_cons, bind_eq_ok_iff]
      simp only [map_eq_ok_iff, inductionHypothesis]
      constructor
      · rintro ⟨_, ⟨value, found, rfl⟩, values, foundRest, rfl⟩
        exact ⟨value :: values, .cons found foundRest, by simp⟩
      · rintro ⟨_, found, rfl⟩
        cases found with
        | cons found foundRest => exact ⟨_, ⟨_, found, rfl⟩, _, foundRest, by simp⟩

theorem collect_eq_ok_iff {count : Nat} {element : Nat → Checked α} {chunk : Array α} :
    collect count element = .ok chunk ↔ Computes element 0 count chunk := by
  unfold collect collectAt
  rw [foldlM_push_eq_ok_iff]
  constructor
  · rintro ⟨values, found, rfl⟩
    rw [List.forall₂_iff_get] at found
    obtain ⟨sameLength, each⟩ := found
    rw [List.length_range] at sameLength
    refine ⟨by simp [sameLength], ?_⟩
    intro index value given
    simp only [Array.empty_append, List.getElem?_toArray] at given
    obtain ⟨inside, same⟩ := List.getElem?_eq_some_iff.mp given
    have computed := each index (by simp [sameLength, inside]) inside
    simp only [List.get_eq_getElem, List.getElem_range, same] at computed
    rw [Nat.zero_add]
    exact computed
  · intro computes
    refine ⟨chunk.toList, ?_, by simp⟩
    rw [List.forall₂_iff_get]
    refine ⟨by simp [computes.size_eq], ?_⟩
    intro index inside insideChunk
    have computed := computes.element_eq index _
      (Array.getElem?_eq_getElem (by simpa using insideChunk))
    simpa using computed

theorem exists_collect {count : Nat} {element : Nat → Checked α}
    (each : ∀ index < count, ∃ value, element index = .ok value) :
    ∃ chunk, collect count element = .ok chunk := by
  choose value computed using fun index : Fin count => each index index.isLt
  refine ⟨Array.ofFn value, collect_eq_ok_iff.mpr ⟨Array.size_ofFn, ?_⟩⟩
  intro index given found
  obtain ⟨inside, rfl⟩ := Array.getElem?_eq_some_iff.mp found
  rw [Array.size_ofFn] at inside
  rw [Array.getElem_ofFn, Nat.zero_add]
  exact computed ⟨index, inside⟩

/-- The positions in blocks of lanes, with the scalar rest, are all positions in order. -/
theorem blockPositions_eq_range (lanes length : Nat) :
    blockPositions lanes length = List.range length := by
  have blocks : ∀ count : Nat, ((List.range count).flatMap fun block =>
      (List.range lanes).map fun lane => block * lanes + lane) = List.range (count * lanes) := by
    intro count
    induction count with
    | zero => simp
    | succ count inductionHypothesis =>
        rw [List.range_succ, List.flatMap_append, inductionHypothesis, Nat.succ_mul,
          List.range_add]
        simp
  unfold blockPositions
  rw [blocks]
  conv_rhs => rw [← Nat.div_add_mod' length lanes, List.range_add]

/-- Elements collected in blocks of lanes. -/
theorem collectBlocks_eq_ok_iff {lanes length : Nat} {element : Nat → Checked α}
    {chunk : Array α} :
    collectAt (blockPositions lanes length) element = .ok chunk ↔
      Computes element 0 length chunk := by
  rw [blockPositions_eq_range]
  exact collect_eq_ok_iff

/-- A stretch whose elements are numbered from another start. -/
theorem computes_renumber_iff {element other : Nat → Checked α} {start count : Nat}
    {chunk : Array α} (same : ∀ index, index < count → element index = other (start + index)) :
    Computes element 0 count chunk ↔ Computes other start count chunk := by
  have inside : ∀ {index value}, chunk.size = count → chunk[index]? = some value →
      index < count := by
    intro index value size found
    rw [← size]
    exact (Array.getElem?_eq_some_iff.mp found).1
  constructor
  · intro computes
    refine ⟨computes.size_eq, fun index value found => ?_⟩
    have computed := computes.element_eq index value found
    rwa [Nat.zero_add, same index (inside computes.size_eq found)] at computed
  · intro computes
    refine ⟨computes.size_eq, fun index value found => ?_⟩
    rw [Nat.zero_add, same index (inside computes.size_eq found)]
    exact computes.element_eq index value found

theorem gather_eq_ok_iff {element : Nat → Checked α} {start width count : Nat}
    {row : Nat → Checked (Array α)} {chunk : Array α}
    (rows : ∀ position, position < count → ∀ part, row position = .ok part ↔
      Computes element (start + position * width) width part) :
    gather count row = .ok chunk ↔ Computes element start (count * width) chunk := by
  unfold gather
  induction count generalizing chunk with
  | zero =>
      rw [List.range_zero, List.foldlM_nil, pure_eq_ok_iff, Nat.zero_mul, Computes.empty_iff,
        eq_comm]
  | succ count inductionHypothesis =>
      have before := fun (part : Array α) => @inductionHypothesis part
        fun position inside => rows position (by omega)
      rw [List.range_succ, List.foldlM_append, bind_eq_ok_iff]
      simp only [before, List.foldlM_cons, List.foldlM_nil, bind_pure, map_eq_ok_iff,
        rows count (Nat.lt_succ_self count), Nat.succ_mul]
      constructor
      · rintro ⟨seen, computesSeen, part, computesPart, rfl⟩
        exact computesSeen.append computesPart
      · intro computes
        refine ⟨chunk.extract 0 (count * width), ?_, chunk.extract (count * width)
          (count * width + width), computes.extract (Nat.le_refl _), ?_⟩
        · have part : Computes element (start + 0) (count * width)
              (chunk.extract 0 (0 + count * width)) := computes.extract (by omega)
          rwa [Nat.zero_add, Nat.add_zero] at part
        · rw [Array.extract_append_extract, ← computes.size_eq]
          have most := Nat.le_max_right (count * width) chunk.size
          simp [most]

/-! ## Tiles -/

theorem foldl_setIfInBounds (canvas : Array α) (offset : Nat) (chunk : Array α) {count : Nat}
    (inside : count ≤ chunk.size) :
    let written := (List.range count).foldl (fun canvas index =>
      match chunk[index]? with
      | some element => canvas.setIfInBounds (offset + index) element
      | none => canvas) canvas
    written.size = canvas.size ∧ ∀ index : Nat, written[index]? =
      if offset ≤ index ∧ index < offset + count ∧ index < canvas.size then
        chunk[index - offset]?
      else canvas[index]? := by
  induction count with
  | zero =>
      refine ⟨rfl, fun index => ?_⟩
      rw [if_neg (by omega)]
      rfl
  | succ count inductionHypothesis =>
      obtain ⟨sameSize, before⟩ := inductionHypothesis (by omega)
      have given := Array.getElem?_eq_getElem (show count < chunk.size by omega)
      rw [List.range_succ, List.foldl_append]
      simp only [List.foldl_cons, List.foldl_nil, given]
      refine ⟨by rw [Array.size_setIfInBounds, sameSize], fun index => ?_⟩
      rw [Array.getElem?_setIfInBounds, before, sameSize]
      by_cases here : offset + count = index
      · rw [if_pos here]
        by_cases bound : offset + count < canvas.size
        · rw [if_pos bound, if_pos (by omega), ← here, Nat.add_sub_cancel_left, given]
        · rw [if_neg bound, if_neg (by omega), Array.getElem?_eq_none (by omega)]
      · rw [if_neg here]
        by_cases earlier : offset ≤ index ∧ index < offset + count ∧ index < canvas.size
        · rw [if_pos earlier, if_pos (by omega)]
        · rw [if_neg earlier, if_neg (by omega)]

theorem writeAt_size (canvas : Array α) (offset : Nat) (chunk : Array α) :
    (writeAt canvas offset chunk).size = canvas.size :=
  (foldl_setIfInBounds canvas offset chunk (Nat.le_refl _)).1

/-- What a chunk writes, place by place. -/
theorem writeAt_getElem? (canvas : Array α) (offset : Nat) (chunk : Array α) (index : Nat) :
    (writeAt canvas offset chunk)[index]? =
      if offset ≤ index ∧ index < offset + chunk.size ∧ index < canvas.size then
        chunk[index - offset]?
      else canvas[index]? :=
  (foldl_setIfInBounds canvas offset chunk (Nat.le_refl _)).2 index

def Tile.Holds (tile : Tile) (index : Nat) : Prop :=
  tile.offset ≤ index ∧ index < tile.offset + tile.length

/-- After tiles have been worked off, every element is in its place or the tiles left it out. -/
theorem runTiles_elements {work : List Tile} {canvas written : Array α}
    {body : Tile → Checked (Array α)} {element : Nat → Checked α}
    (bodies : ∀ tile ∈ work, ∀ chunk, body tile = .ok chunk →
      Computes element tile.offset tile.length chunk)
    (ran : runTiles work canvas body = .ok written) :
    written.size = canvas.size ∧ ∀ (index : Nat) (value : α), written[index]? = some value →
      element index = .ok value ∨
        canvas[index]? = some value ∧ ∀ tile ∈ work, ¬ tile.Holds index := by
  unfold runTiles foldTiles at ran
  induction work generalizing canvas with
  | nil =>
      rw [List.foldlM_nil, pure_eq_ok_iff] at ran
      rw [← ran]
      exact ⟨rfl, fun index value found => .inr ⟨found, by simp⟩⟩
  | cons tile work inductionHypothesis =>
      rw [List.foldlM_cons, bind_eq_ok_iff] at ran
      obtain ⟨middle, ranTile, ranRest⟩ := ran
      obtain ⟨chunk, ranBody, rfl⟩ := map_eq_ok_iff.mp ranTile
      have computes := bodies tile List.mem_cons_self chunk ranBody
      obtain ⟨sameSize, elements⟩ := inductionHypothesis
        (fun other listed => bodies other (List.mem_cons_of_mem _ listed)) ranRest
      refine ⟨by rw [sameSize, writeAt_size], fun index value found => ?_⟩
      rcases elements index value found with computed | ⟨kept, outside⟩
      · exact .inl computed
      · rw [writeAt_getElem?, computes.size_eq] at kept
        split at kept
        · rename_i inside
          left
          have computed := computes.element_eq _ value kept
          rwa [Nat.add_sub_cancel' inside.1] at computed
        · rename_i notInside
          right
          refine ⟨kept, List.forall_mem_cons.mpr ⟨?_, outside⟩⟩
          rintro ⟨least, most⟩
          exact notInside ⟨least, most, (Array.getElem?_eq_some_iff.mp kept).1⟩

theorem exists_runTiles {work : List Tile} {canvas : Array α} {body : Tile → Checked (Array α)}
    (bodies : ∀ tile ∈ work, ∃ chunk, body tile = .ok chunk) :
    ∃ written, runTiles work canvas body = .ok written := by
  unfold runTiles foldTiles
  induction work generalizing canvas with
  | nil => exact ⟨canvas, rfl⟩
  | cons tile work inductionHypothesis =>
      obtain ⟨chunk, ranBody⟩ := bodies tile List.mem_cons_self
      obtain ⟨written, ran⟩ := @inductionHypothesis (writeAt canvas tile.offset chunk)
        fun other listed => bodies other (List.mem_cons_of_mem _ listed)
      refine ⟨written, ?_⟩
      rw [List.foldlM_cons, ranBody]
      exact ran

/-- Tiles that lie in an output and cover it. -/
structure Covers (work : List Tile) (total : Nat) : Prop where
  inside : ∀ tile ∈ work, tile.offset + tile.length ≤ total
  covered : ∀ index, index < total → ∃ tile ∈ work, tile.Holds index

/-- Tiles that cover an output give exactly its elements, in whatever order. -/
theorem runTiles_eq_ok_iff {work : List Tile} {canvas written : Array α}
    {body : Tile → Checked (Array α)} {element : Nat → Checked α}
    (covers : Covers work canvas.size)
    (bodies : ∀ tile ∈ work, ∀ chunk, body tile = .ok chunk ↔
      Computes element tile.offset tile.length chunk) :
    runTiles work canvas body = .ok written ↔ Computes element 0 canvas.size written := by
  have forward : ∀ {result}, runTiles work canvas body = .ok result →
      Computes element 0 canvas.size result := by
    intro result ran
    obtain ⟨sameSize, elements⟩ :=
      runTiles_elements (fun tile listed chunk => (bodies tile listed chunk).mp) ran
    refine ⟨sameSize, fun index value found => ?_⟩
    rw [Nat.zero_add]
    rcases elements index value found with computed | ⟨kept, outside⟩
    · exact computed
    · obtain ⟨tile, listed, holds⟩ :=
        covers.covered index (Array.getElem?_eq_some_iff.mp kept).1
      exact absurd holds (outside tile listed)
  refine ⟨forward, fun computes => ?_⟩
  have succeed : ∀ tile ∈ work, ∃ chunk, body tile = .ok chunk := by
    intro tile listed
    have part := computes.extract (covers.inside tile listed)
    rw [Nat.zero_add] at part
    exact ⟨_, (bodies tile listed _).mpr part⟩
  obtain ⟨result, ran⟩ := @exists_runTiles α work canvas body succeed
  rw [computes.unique (forward ran)]
  exact ran

/-! ## The cover of an output -/

theorem mem_tiles {total size : Nat} {tile : Tile} (listed : tile ∈ tiles total size) :
    ∃ index : Nat, tile.offset = index * max size 1 ∧ tile.offset < total ∧
      tile.length = min (max size 1) (total - index * max size 1) := by
  unfold tiles at listed
  simp only [List.mem_map, List.mem_range] at listed
  obtain ⟨index, inside, rfl⟩ := listed
  refine ⟨index, rfl, ?_, rfl⟩
  have bound := (Nat.lt_div_iff_mul_lt (show 0 < max size 1 by omega)).mp inside
  dsimp only
  omega

theorem length_pos_of_mem_tiles {total size : Nat} {tile : Tile}
    (listed : tile ∈ tiles total size) : 0 < tile.length := by
  obtain ⟨index, offset, inside, length⟩ := mem_tiles listed
  omega

theorem covers_tiles (total size : Nat) : Covers (tiles total size) total where
  inside := by
    intro tile listed
    obtain ⟨index, offset, inside, length⟩ := mem_tiles listed
    omega
  covered := by
    intro index inside
    have positive : 0 < max size 1 := by omega
    have start := Nat.div_mul_le_self index (max size 1)
    have stop := @Nat.lt_div_mul_add index _ positive
    refine ⟨⟨index / max size 1 * max size 1,
      min (max size 1) (total - index / max size 1 * max size 1)⟩, ?_, start, ?_⟩
    · unfold tiles
      simp only [List.mem_map, List.mem_range]
      refine ⟨index / max size 1, ?_, rfl⟩
      rw [Nat.lt_div_iff_mul_lt positive]
      omega
    · dsimp only
      omega

/-- Any order of tiles covers what the tiles cover. -/
theorem Covers.order {work : List Tile} {total : Nat} (covers : Covers work total)
    (schedule : Schedule) : Covers (schedule.order work) total where
  inside := fun tile listed => covers.inside tile ((schedule.perm work).mem_iff.mp listed)
  covered := by
    intro index inside
    obtain ⟨tile, listed, holds⟩ := covers.covered index inside
    exact ⟨tile, (schedule.perm work).mem_iff.mpr listed, holds⟩

/-- A whole run in any order gives exactly the elements of the output. -/
theorem runSchedule_eq_ok_iff {schedule : Schedule} {total size : Nat} {canvas written : Array α}
    {body : Tile → Checked (Array α)} {element : Nat → Checked α}
    (sameSize : canvas.size = total)
    (bodies : ∀ tile ∈ tiles total size, ∀ chunk, body tile = .ok chunk ↔
      Computes element tile.offset tile.length chunk) :
    runTiles (schedule.order (tiles total size)) canvas body = .ok written ↔
      Computes element 0 total written := by
  subst sameSize
  exact runTiles_eq_ok_iff ((covers_tiles canvas.size size).order schedule)
    fun tile listed => bodies tile ((schedule.perm _).mem_iff.mp listed)

/-- A tile in whole rows of an output that consists of whole rows. -/
theorem rowTile_rows {rows width size : Nat} (positive : 0 < width) {tile : Tile}
    (listed : tile ∈ tiles (rows * width) (rowTile size width)) :
    tile.offset / width * width = tile.offset ∧ tile.length / width * width = tile.length := by
  obtain ⟨index, offset, _, length⟩ := mem_tiles listed
  have whole : max (rowTile size width) 1 = max (size / width) 1 * width := by
    unfold rowTile
    rw [if_neg (by omega)]
    have least : 1 ≤ max (size / width) 1 * width :=
      Nat.mul_pos (by omega) positive
    omega
  rw [whole] at offset length
  constructor
  · rw [offset, ← Nat.mul_assoc, Nat.mul_div_cancel _ positive]
  · rw [← Nat.mul_assoc, ← Nat.sub_mul, Nat.mul_min_mul_right] at length
    rw [length, Nat.mul_div_cancel _ positive]

/-! ## Whole rows -/

variable {β : Type}

/-- The element of an output in rows: what is prepared once for a row gives each of its entries. -/
def rowElement (prepare : Nat → Checked β) (entry : β → Nat → Checked α) (width index : Nat) :
    Checked α := do
  entry (← prepare (index / width)) (index % width)

theorem rowElement_eq {prepare : Nat → Checked β} {entry : β → Nat → Checked α} {width row : Nat}
    {prepared : β} (ran : prepare row = .ok prepared) {column : Nat} (inside : column < width) :
    rowElement prepare entry width (row * width + column) = entry prepared column := by
  have positive : 0 < width := by omega
  unfold rowElement
  rw [Nat.mul_comm row width, Nat.mul_add_div positive, Nat.div_eq_of_lt inside, Nat.add_zero,
    Nat.mul_add_mod, Nat.mod_eq_of_lt inside, ran]
  rfl

theorem collectRow_eq_ok_iff {prepare : Nat → Checked β} {entry : β → Nat → Checked α}
    {width : Nat} (positive : 0 < width) (row : Nat) {part : Array α} :
    (do collect width (entry (← prepare row))) = .ok part ↔
      Computes (rowElement prepare entry width) (row * width) width part := by
  rw [bind_eq_ok_iff]
  simp only [collect_eq_ok_iff]
  constructor
  · rintro ⟨prepared, ran, computes⟩
    exact (computes_renumber_iff fun column inside => (rowElement_eq ran inside).symm).mp computes
  · intro computes
    obtain ⟨value, _, first⟩ := computes.exists_element positive
    have ready : ∃ prepared, prepare row = .ok prepared := by
      unfold rowElement at first
      rw [Nat.add_zero, Nat.mul_div_cancel _ positive] at first
      obtain ⟨prepared, ran, _⟩ := bind_eq_ok_iff.mp first
      exact ⟨prepared, ran⟩
    obtain ⟨prepared, ran⟩ := ready
    exact ⟨prepared, ran,
      (computes_renumber_iff fun column inside => (rowElement_eq ran inside).symm).mpr computes⟩

/-- A tile of whole rows gives exactly the elements of its rows. -/
theorem gatherRows_eq_ok_iff {rows width size : Nat} (positive : 0 < width) {tile : Tile}
    (listed : tile ∈ tiles (rows * width) (rowTile size width)) {prepare : Nat → Checked β}
    {entry : β → Nat → Checked α} {chunk : Array α} :
    (gather (tile.length / width) fun position => do
      collect width (entry (← prepare (tile.offset / width + position)))) = .ok chunk ↔
      Computes (rowElement prepare entry width) tile.offset tile.length chunk := by
  obtain ⟨wholeOffset, wholeLength⟩ := rowTile_rows positive listed
  have gathered := @gather_eq_ok_iff α (rowElement prepare entry width) tile.offset width
    (tile.length / width)
    (fun position => do collect width (entry (← prepare (tile.offset / width + position)))) chunk
    (fun position _ part => by
      rw [collectRow_eq_ok_iff positive, Nat.add_mul, wholeOffset])
  rw [gathered, wholeLength]

/-- A whole run over rows, in any order of the tiles, gives exactly the elements of the rows. -/
theorem runRows_eq_ok_iff {schedule : Schedule} {rows width size : Nat} (positive : 0 < width)
    {canvas written : Array α} (sameSize : canvas.size = rows * width)
    {prepare : Nat → Checked β} {entry : β → Nat → Checked α} :
    runTiles (schedule.order (tiles (rows * width) (rowTile size width))) canvas
      (fun tile => gather (tile.length / width) fun position => do
        collect width (entry (← prepare (tile.offset / width + position)))) = .ok written ↔
      Computes (rowElement prepare entry width) 0 (rows * width) written :=
  runSchedule_eq_ok_iff sameSize fun _ listed _ => gatherRows_eq_ok_iff positive listed

end TensorEngine
