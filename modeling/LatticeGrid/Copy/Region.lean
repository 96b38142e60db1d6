import LatticeGrid.Copy.Overlap
import LatticeGrid.Grid.Access
import LatticeGrid.Layout.Rows

/-!
# Copying the overlap of two grids

Every read or write of a chunked array comes down to one copy per chunk that the requested window
touches. `Grid.copyFrom` copies the overlap of a source into a target, one contiguous row at a time,
and leaves every other element of the target alone.

The direction is only a matter of which grid is the target. With `origin`, the place of the origin of
a window in the local coordinates of a chunk, `Grid.readChunk` copies the chunk into the window and
`Grid.writeWindow` copies the window into the chunk.
-/

set_option autoImplicit false

namespace LatticeGrid.Grid

variable {α : Type}

/-- A range of positions, given by its start and its end, has to lie in the store. The rows of an overlap
always do. -/
def checkRange (g : Grid α) (range : Nat × Nat) : Except Failure Unit :=
  if range.2 ≤ g.values.size then .ok () else .error (.positionOutOfRange g.values.size range.2)

/-- Copies `length` values of a source, from the position `start` on, to the positions of the grid
from `target` on. Both ranges are checked before the first value is copied. -/
def copyRow (g : Grid α) (target : Nat) (source : Grid α) (start length : Nat) :
    Except (Failure × Grid α) (Grid α) := do
  leaving g (span target length >>= g.checkRange)
  leaving g (span start length >>= source.checkRange)
  (List.range length).foldlM
    (fun g i => do g.setAt (target + i) (← leaving g (source.getAt (start + i)))) g

/-- Copies the rows of an overlap from a source into the grid. -/
def copyOverlap (g : Grid α) (source : Grid α) (o : Overlap) : Except (Failure × Grid α) (Grid α) := do
  let walk ← leaving g (RowPairs.ofOrigins o.shape source.strides o.sourceMin g.strides o.targetMin)
  walk.fold (fun g row => g.copyRow row.2 source row.1 walk.rowLength) g

/-- Copies the overlap of a source into the grid, where `offset` is the origin of the source in the
local coordinates of the grid. Elements outside of the overlap are left alone. -/
def copyFrom (g : Grid α) (offset : Point) (source : Grid α) : Except (Failure × Grid α) (Grid α) := do
  match ← leaving g (Overlap.between offset source.shape g.shape) with
  | none => return g
  | some o => g.copyOverlap source o

/-- Copies the part of a chunk that lies in the window into the window, where `origin` is the origin
of the window in the local coordinates of the chunk. Negating the origin at the edge of the lattice
is harmless: a window that far away meets no chunk. -/
def readChunk (window : Grid α) (origin : Point) (chunk : Grid α) : Except (Failure × Grid α) (Grid α) :=
  window.copyFrom origin.saturatingNeg chunk

/-- Copies the part of a window that lies in the chunk into the chunk, where `origin` is the origin of
the window in the local coordinates of the chunk. -/
def writeWindow (chunk : Grid α) (origin : Point) (window : Grid α) : Except (Failure × Grid α) (Grid α) :=
  chunk.copyFrom origin window

end LatticeGrid.Grid
