import LatticeGrid.Lattice.Box.Basic

/-!
# The points of a box

The points of a `Box` in row-major order, the last axis varying fastest. A box of rank 0 has a
single point, whatever its lengths are; every other box has, on each axis, the coordinates from its
corner up to `Box.upper`.

`Box.points` lists them all. `Box.firstPoints` lists at most a given number of them without visiting
the others, so it answers for boxes of astronomic size too.
-/

set_option autoImplicit false

namespace LatticeGrid

/-- A run of consecutive coordinates on one axis. -/
structure Run where
  /-- The first coordinate. -/
  first : Coord
  /-- The number of coordinates. -/
  count : Nat
deriving DecidableEq, Repr

namespace Run

/-- The coordinates from `lower` up to, and without, `upper`. -/
def between (lower upper : Coord) : Run := ⟨lower, (upper.val - lower.val).toNat⟩

/-- The first coordinates of a run, at most `limit` of them. -/
def firstValues (r : Run) (limit : Nat) : List Coord :=
  (List.range (min r.count limit)).map fun (i : Nat) => Coord.clamp (r.first.val + i)

/-- The coordinates of a run in ascending order. -/
def values (r : Run) : List Coord :=
  (List.range r.count).map fun (i : Nat) => Coord.clamp (r.first.val + i)

/-- All ways to take one coordinate of each run, the last run varying fastest. -/
def product : List Run → List (List Coord)
  | [] => [[]]
  | r :: rest =>
      let inner := product rest
      r.values.flatMap fun c => inner.map (c :: ·)

/-- The first members of `product`, at most `limit` of them. An outer run gives no more coordinates
than it takes to reach the limit with the members that the inner runs have. -/
def firstOfProduct (limit : Nat) : List Run → List (List Coord)
  | [] => [[]].take limit
  | r :: rest =>
      match firstOfProduct limit rest with
      | [] => []
      | inner =>
          ((r.firstValues (limit / inner.length + 1)).flatMap fun c => inner.map (c :: ·)).take limit

end Run

namespace Box

/-- The runs of coordinates that the box covers, one per axis. -/
def runs (b : Box) : Except Failure (List Run) :=
  if b.rank = 0 then
    return []
  else do
    let upper ← b.upper
    return List.zipWith Run.between b.corner.coords upper.coords

/-- The points of the box in row-major order. -/
def points (b : Box) : Except Failure (List Point) := do
  let runs ← b.runs
  -- a box with an empty axis has no point, however long its other axes are
  if runs.any (·.count == 0) then
    return []
  else
    return (Run.product runs).map Point.mk

/-- The first points of the box, at most `limit` of them, and whether these are all. -/
def firstPoints (b : Box) (limit : Nat) : Except Failure (List Point × Bool) := do
  let runs ← b.runs
  let total := (runs.map (·.count)).foldr (· * ·) 1
  if runs.any (·.count == 0) then
    return ([], true)
  else
    return ((Run.firstOfProduct limit runs).map Point.mk, decide (total ≤ limit))

end Box

end LatticeGrid
