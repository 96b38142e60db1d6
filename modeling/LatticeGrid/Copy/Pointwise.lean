import LatticeGrid.Grid.Access
import LatticeGrid.Lattice.Box.Points

/-!
# Copying point by point

The obvious, slow way to copy the overlap of two grids: go through every point that the source covers
and test it against both grids. It serves to check `Grid.copyFrom`.

Ranks are not checked here. What the source covers has to be expressible on the lattice, and the
source has to have an element at every point of the target that it covers; both are faults otherwise.
-/

set_option autoImplicit false

namespace LatticeGrid.Grid

variable {α : Type}

/-- The shape of the source as a lattice point. -/
def sourceSides (source : Grid α) : Except Failure Point :=
  match source.shape.toPoint with
  | .error (.axisTooLong axis length) => .error (.sourceAxisTooLong axis length)
  | sides => sides

/-- Copies one point that the source covers, given in the local coordinates of the grid. -/
def copyPoint (g : Grid α) (offset : Point) (source : Grid α) (p : Point) :
    Except (Failure × Grid α) (Grid α) := do
  let fromSource ← leaving g (p.sub offset)
  -- a point before the near edge of the target
  if p.hasNegative then
    return g
  if p.toIndex ∈ g.shape then
    match ← leaving g (source.lookup fromSource.toIndex) with
    | some value => g.set p.toIndex value
    | none => .error (.sourceElementMissing, g)
  else
    return g

/-- Copies the overlap of a source into the grid point by point, where `offset` is the origin of the
source in the local coordinates of the grid. -/
def copyPointwise (g : Grid α) (offset : Point) (source : Grid α) : Except (Failure × Grid α) (Grid α) := do
  let covered : Box := ⟨offset, ← leaving g source.sourceSides⟩
  let points ← leaving g covered.points
  points.foldlM (fun g p => g.copyPoint offset source p) g

end LatticeGrid.Grid
