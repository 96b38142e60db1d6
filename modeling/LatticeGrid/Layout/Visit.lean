import LatticeGrid.Layout.Strides
import LatticeGrid.Lattice.Box.Basic

/-!
# Visiting a box of an array

A `Visit` is a box of local multi-indices inside a row-major array. `Visit.fold` calls a function at
every multi-index of the box, in row-major order, with the multi-index and its flat position.

The flat position is not computed afresh at every call. It is carried along: a step on an axis adds
the stride of that axis, and at the end of the axis the whole way is taken back before the next outer
axis makes its step. All of these steps are checked, also those after the last call, so a visit can
fail although every position it hands out fits a word.
-/

set_option autoImplicit false

namespace LatticeGrid

/-- One axis of a visit. -/
structure VisitAxis where
  /-- The first coordinate. -/
  start : Nat
  /-- The number of coordinates. -/
  length : Nat
  /-- What one step adds to the flat position. -/
  stride : Nat
deriving DecidableEq, Repr

namespace VisitAxis

/-- One step on the axis: the next coordinate and its position, or, past the end, no coordinate and the
position at which the axis began. -/
def step (axis : VisitAxis) (coord pos : Nat) : Except Failure (Option Nat × Nat) := do
  let coord ← Word.add coord 1
  let pos ← Word.add pos axis.stride
  let stop ← Word.add axis.start axis.length
  if coord < stop then
    return (some coord, pos)
  else
    -- past the end: take the whole axis back, so that the next outer axis can step
    let back ← Word.mul axis.stride axis.length
    return (none, ← Word.sub pos back)

/-- Runs the inner axes once for each of the `remaining` coordinates from `coord` on. The position
comes back to where the axis began. -/
def sweep {σ : Type} (axis : VisitAxis) (inner : Nat → Nat → σ → Except (Failure × σ) (Nat × σ)) :
    (remaining coord pos : Nat) → σ → Except (Failure × σ) (Nat × σ)
  | 0, _, pos, state => .ok (pos, state)
  | remaining + 1, coord, pos, state => do
      let (pos, state) ← inner coord pos state
      -- the step is made also after the last coordinate
      match ← leaving state (axis.step coord pos) with
      | (some coord, pos) => sweep axis inner remaining coord pos state
      | (none, pos) => .ok (pos, state)

/-- Visits the box spanned by the axes, with the coordinates of the outer axes fixed to `outer`. -/
def walk {σ : Type} (visit : σ → Index → Nat → σ) :
    List VisitAxis → (outer : Index) → (pos : Nat) → σ → Except (Failure × σ) (Nat × σ)
  | [], outer, pos, state => .ok (pos, visit state outer pos)
  | axis :: rest, outer, pos, state =>
      sweep axis (fun coord => walk visit rest (outer ++ [coord])) axis.length axis.start pos state

end VisitAxis

/-- A box of local multi-indices inside a row-major array. -/
structure Visit where
  /-- The strides of the array. -/
  strides : List Nat
  /-- The first multi-index. -/
  origin : Index
  /-- The length of the box on each axis. -/
  lengths : List Nat
deriving DecidableEq, Repr

namespace Visit

/-- The visit of the box with this origin and shape. It may lie outside of the array. -/
def ofOrigin (array : Shape) (origin : Index) (box : Shape) : Except Failure Visit :=
  if array.rank = origin.length ∧ array.rank = box.rank then
    .ok ⟨array.strides, origin, box.lengths⟩
  else
    .error .layoutRank

/-- The visit of the part of a box that lies in the array. -/
def clipped (array : Shape) (box : Box) : Except Failure Visit := do
  let whole ← Box.ofShape array
  -- the corner of the part is not negative, since the corner of the array is the origin
  let part ← box.inter whole
  ofOrigin array part.corner.toIndex part.unsignedShape

/-- The axes of a visit, outermost first. -/
def axes (v : Visit) : List VisitAxis :=
  (v.origin.zip (v.lengths.zip v.strides)).map fun q => ⟨q.1, q.2.1, q.2.2⟩

/-- Calls a function at every multi-index of the box, in row-major order, with its flat position,
and threads a state through the calls. A box with an empty axis is not visited at all. -/
def fold {σ : Type} (v : Visit) (visit : σ → Index → Nat → σ) (state : σ) : Except (Failure × σ) σ :=
  if v.lengths.any (· == 0) then
    .ok state
  else do
    let start ← leaving state (position v.strides v.origin)
    let (_, state) ← VisitAxis.walk visit v.axes [] start state
    return state

/-- The multi-indices of the box and their flat positions, in the order of the visit. -/
def toList (v : Visit) : Except Failure (List (Index × Nat)) :=
  Array.toList <$> forget (v.fold (fun seen p pos => seen.push (p, pos)) #[])

end Visit

end LatticeGrid
