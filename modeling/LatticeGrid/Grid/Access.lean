import LatticeGrid.Grid.Basic

/-!
# Element access

Reading and writing single elements of a grid, by flat position or by multi-index. `get` and `set`
fail outside of the grid; `lookup` and `exchange` answer `none` there instead.
-/

set_option autoImplicit false

namespace LatticeGrid.Grid

variable {α : Type}

/-! ## By flat position -/

/-- The value at a flat position. -/
def getAt (g : Grid α) (position : Nat) : Except Failure α :=
  match g.values[position]? with
  | some value => .ok value
  | none => .error (.positionOutOfRange g.values.size position)

/-- Writes a flat position. -/
def setAt (g : Grid α) (position : Nat) (value : α) : Except (Failure × Grid α) (Grid α) :=
  if position < g.values.size then
    .ok (g.put position value)
  else
    .error (.positionOutOfRange g.values.size position, g)

/-! ## By multi-index -/

/-- The flat position of a multi-index of the grid. -/
def positionOf (g : Grid α) (p : Index) : Except Failure Nat :=
  if p ∈ g.shape then position g.strides p else .error (.indexOutOfBounds p g.shape)

/-- The value at a multi-index. -/
def get (g : Grid α) (p : Index) : Except Failure α := do
  g.getAt (← g.positionOf p)

/-- Writes a multi-index. -/
def set (g : Grid α) (p : Index) (value : α) : Except (Failure × Grid α) (Grid α) := do
  g.setAt (← leaving g (g.positionOf p)) value

/-- The value at a multi-index, or `none` outside of the grid. -/
def lookup (g : Grid α) (p : Index) : Except Failure (Option α) :=
  if p ∈ g.shape then some <$> g.get p else .ok none

/-- Writes a multi-index and answers the value that was there; outside of the grid nothing is
written. -/
def exchange (g : Grid α) (p : Index) (value : α) : Except (Failure × Grid α) (Option α × Grid α) :=
  if p ∈ g.shape then do
    let old ← leaving g (g.get p)
    return (some old, ← g.set p value)
  else
    .ok (none, g)

end LatticeGrid.Grid
