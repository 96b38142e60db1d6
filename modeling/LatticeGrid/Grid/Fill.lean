import LatticeGrid.Grid.Access
import LatticeGrid.Layout.Visit

/-!
# Filling grids

Grids filled with one value, by a function of the multi-index, or by counting; and the filling of
the part of a box that lies in a grid. How many elements a new store can have depends on the bytes that one
of them takes.
-/

set_option autoImplicit false

namespace LatticeGrid.Grid

variable {α : Type}

/-- The number of bytes from which on a store cannot be allocated, `2^63`. -/
def byteBound : Nat := 9223372036854775808

/-- The number of elements of a new store for a shape, of which each takes `width` bytes. -/
def storeSize (width : Nat) (shape : Shape) : Except Failure Nat := do
  let count ← shape.pointCount
  if count * width < byteBound then
    return count
  else
    .error .capacity

/-- The grid of a shape with the same value everywhere. -/
def fill (width : Nat) (shape : Shape) (value : α) : Except Failure (Grid α) := do
  let count ← storeSize width shape
  ofValues shape (Array.replicate count value)

/-- The values that a function computes for the multi-indices of a shape, one after the other in
row-major order, and the state that the function carries from call to call. -/
def valuesOf {σ : Type} (shape : Shape) (filler : σ → Index → α × σ) (state : σ) :
    Except Failure (Array α × σ) := do
  let visit ← Visit.ofOrigin shape (List.replicate shape.rank 0) shape
  forget <| visit.fold
    (fun (acc : Array α × σ) p _ =>
      let (value, next) := filler acc.2 p
      (acc.1.push value, next))
    (#[], state)

/-- The grid of a shape whose values a function computes. It is called once for every multi-index, in
row-major order, and may carry a state from call to call. -/
def fillWith {σ : Type} (width : Nat) (shape : Shape) (filler : σ → Index → α × σ) (state : σ) :
    Except Failure (Grid α) := do
  -- the store is allocated before the first call
  let _ ← storeSize width shape
  let (values, _) ← valuesOf shape filler state
  ofValues shape values

/-- The grid of the values that a grid of outcomes holds; of several failures in it the first one in
row-major order counts. -/
def collect (g : Grid (Except Failure α)) : Except Failure (Grid α) := do
  ofValues g.shape (← g.values.toList.mapM id).toArray

/-- Writes a value to every element that is visited in the part of a box that lies in the grid. -/
def fillClipped (g : Grid α) (box : Box) (value : α) : Except (Failure × Grid α) (Grid α) := do
  let visit ← leaving g (Visit.clipped g.shape box)
  match visit.fold (fun filled _ position => do (← filled).setAt position value) (.ok g) with
  | .ok filled => filled
  | .error (e, filled) => do
      -- a write that has failed before the step of the visit stands
      let left ← filled
      .error (e, left)

/-- Writes a value to every element of the grid that lies in a box. Points of the box outside of the
grid are ignored. -/
def fillRegion (g : Grid α) (box : Box) (value : α) : Except (Failure × Grid α) (Grid α) := do
  leaving g (checkRank box.rank g.rank)
  if box.isEmpty || g.shape.isEmpty then
    return g
  if box.corner.isZero && box.unsignedShape == g.shape then
    -- the box is the whole grid
    return g.reset value
  else
    g.fillClipped box value

/-! ## Counting -/

/-- A count as a signed 32-bit number: its residue modulo `2^32` from `-2^31` to `2^31 - 1`. -/
def narrowCount (count : Nat) : Int := Int.bmod count 4294967296

/-- The grid of a shape that holds 0, 1, 2, … in row-major order, so that every value tells its own
place. The count of elements is narrowed to 32 bits first; a count that does not survive that is a
fault. -/
def counting (shape : Shape) : Except Failure (Grid Int) := do
  let count ← shape.pointCount
  let values := (List.range (narrowCount count).toNat).map Int.ofNat
  match ofValues shape values.toArray with
  | .error (.valueCount shape expected actual) => .error (.countMismatch shape expected actual)
  | made => made

end LatticeGrid.Grid
