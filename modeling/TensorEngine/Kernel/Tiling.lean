import TensorEngine.Breach

/-!
Contract: the division of an output into tiles, and the order in which tiles are worked off.

Owns:
- `tiles`, consecutive tiles of one size with a shorter last one;
- `Schedule`, any order of the tiles, as a pool of workers may choose it;
- `foldTiles`, which stores the elements of every tile, and `runTiles`, which writes them to their
  place;
- `blockPositions`, the positions of a tile in blocks of lanes and a scalar rest.

Does not own: what a tile holds.
-/

namespace TensorEngine

/-- Consecutive elements of an output. -/
structure Tile where
  offset : Nat
  length : Nat
deriving DecidableEq, Repr

/-- Tiles of `size` elements that cover `total` elements; the last one may be shorter. -/
def tiles (total size : Nat) : List Tile :=
  let step := max size 1
  (List.range ((total + step - 1) / step)).map fun index =>
    ⟨index * step, min step (total - index * step)⟩

/-- A tile size in whole rows. -/
def rowTile (size rowLength : Nat) : Nat :=
  if rowLength = 0 then max size 1 else max (size / rowLength) 1 * rowLength

/-- Elements of one block in the kernels with lanes. -/
def blockLanes : Nat := 8

/-- A tile size in whole blocks of lanes. -/
def laneTile (size lanes : Nat) : Nat :=
  max size lanes / lanes * lanes

/-- An order in which tiles are worked off. -/
structure Schedule where
  order : List Tile → List Tile
  perm : ∀ work, (order work).Perm work

namespace Schedule

def sequential : Schedule := ⟨id, fun work => List.Perm.refl work⟩

/-- The last tile first, as one order that a pool of workers may come to. -/
def backwards : Schedule := ⟨List.reverse, List.reverse_perm⟩

end Schedule

/-- Writes a chunk at an offset; what does not fit is dropped. -/
def writeAt (canvas : Array α) (offset : Nat) (chunk : Array α) : Array α :=
  (List.range chunk.size).foldl
    (fun canvas index =>
      match chunk[index]? with
      | some element => canvas.setIfInBounds (offset + index) element
      | none => canvas)
    canvas

/-- Works off tiles in this order. The elements that a tile gives are stored from its offset on. -/
def foldTiles (store : σ → Nat → Array α → σ) (work : List Tile) (state : σ)
    (body : Tile → Checked (Array α)) : Checked σ :=
  work.foldlM (fun state tile => store state tile.offset <$> body tile) state

/-- Works off tiles in this order, each of which gives the elements of its place. -/
def runTiles (work : List Tile) (canvas : Array α) (body : Tile → Checked (Array α)) :
    Checked (Array α) :=
  foldTiles writeAt work canvas body

/-- The positions of a tile: whole blocks of lanes first, then the rest one by one. -/
def blockPositions (lanes length : Nat) : List Nat :=
  (List.range (length / lanes)).flatMap
      (fun block => (List.range lanes).map fun lane => block * lanes + lane) ++
    (List.range (length % lanes)).map fun rest => length / lanes * lanes + rest

end TensorEngine
