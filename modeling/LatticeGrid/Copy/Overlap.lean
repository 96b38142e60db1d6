import LatticeGrid.Lattice.Box.Basic

/-!
# Where two grids overlap

A source grid whose origin is placed at an offset in the local coordinates of a target grid overlaps
the target in a box. On each axis the box covers the target indices from `max 0 offset` up to
`min target (offset + source)`, and the same range shifted by the offset in source indices.

`Overlap.between` computes that box with checked differences. An axis on which the grids do not meet
ends the computation, so that no difference is taken that could leave the lattice.
-/

set_option autoImplicit false

namespace LatticeGrid

/-- The box in which a source and a target overlap. -/
@[ext] structure Overlap where
  /-- The least multi-index of the box in the target. -/
  targetMin : Index
  /-- The least multi-index of the box in the source. -/
  sourceMin : Index
  /-- The length of the box on each axis. -/
  shape : Shape
deriving DecidableEq, Repr

/-- The overlap on one axis. -/
structure AxisOverlap where
  targetMin : Nat
  sourceMin : Nat
  length : Nat
deriving DecidableEq, Repr

/-- The overlap on one axis of a source of length `source`, placed at `offset`, with a target of
length `target`. The end of the source is held at the edge of the lattice, which no target reaches
past. -/
def AxisOverlap.between (offset source target : Coord) : Except Failure (Option AxisOverlap) :=
  let start := max offset Coord.zero
  let stop := min (offset.saturatingAdd source) target
  if start < stop then do
    -- here the offset is less than one source length below zero, so neither difference can fail
    let fromSource ← start.sub offset
    let length ← stop.sub start
    return some ⟨start.toNat, fromSource.toNat, length.toNat⟩
  else
    return none

namespace Overlap

/-- The overlap of all axes. -/
def ofAxes (axes : List AxisOverlap) : Overlap :=
  ⟨axes.map (·.targetMin), axes.map (·.sourceMin), ⟨axes.map (·.length)⟩⟩

/-- The overlap on each axis, given its offset and both lengths, up to the first axis that has
none. -/
def axesBetween : List (Coord × Coord × Coord) → Except Failure (Option (List AxisOverlap))
  | [] => return some []
  | q :: rest => do
      match ← AxisOverlap.between q.1 q.2.1 q.2.2 with
      | none => return none
      | some axis => return (← axesBetween rest).map (axis :: ·)

/-- The overlap of a source with a target, the origin of the source lying at `offset` in the target.
There is none when the grids do not meet on some axis, which includes every empty grid. The ranks
have to agree, and no axis of a grid with elements may be too long for the lattice. -/
def between (offset : Point) (source target : Shape) : Except Failure (Option Overlap) := do
  checkRank source.rank offset.rank
  checkRank target.rank offset.rank
  -- an empty grid overlaps nothing, however long its other axes are
  if source.isEmpty || target.isEmpty then
    return none
  let source ← source.toPoint
  let target ← target.toPoint
  let axes ← axesBetween (offset.coords.zip (source.coords.zip target.coords))
  return axes.map ofAxes

/-- The number of elements in the box. -/
def pointCount (o : Overlap) : Except Failure Nat := o.shape.pointCount

/-- The number of contiguous elements in each row of the box. -/
def rowLength (o : Overlap) : Nat := o.shape.rowLength

/-- The box with this corner and shape on the lattice. -/
def boxAt (corner : Index) (shape : Shape) : Box :=
  ⟨⟨corner.map fun (n : Nat) => Coord.clamp n⟩, ⟨shape.lengths.map fun (n : Nat) => Coord.clamp n⟩⟩

/-- The overlap as a box in the target. -/
def targetBox (o : Overlap) : Box := boxAt o.targetMin o.shape

/-- The overlap as a box in the source. -/
def sourceBox (o : Overlap) : Box := boxAt o.sourceMin o.shape

end Overlap

end LatticeGrid
