import LatticeGrid.Record.Lattice

/-!
# Fillers

What a grid of plain data can be filled with: each element its own multi-index, the elements counted
in the order in which they are made, or each element a weighted sum of its coordinates. The weights
are lattice coordinates and so is the sum; every step towards it has to stay on the lattice.
-/

set_option autoImplicit false

namespace LatticeGrid

/-- A rule that gives each element of a grid its value. -/
inductive Filler where
  /-- The multi-index of the element. -/
  | index
  /-- The number of elements made before. -/
  | count
  /-- The sum of the coordinates times their weights. -/
  | weighted (weights : List Coord)
deriving DecidableEq, Repr

namespace Filler

/-- The filler that a piece of data stands for: a name, or the list of the weights. -/
def ofDatum? : Datum → Option Filler
  | .text "index" => some index
  | .text "count" => some count
  | .list weights => weighted <$> weights.mapM Coord.ofDatum?
  | _ => none

/-- Adds a coordinate times its weight to a sum. -/
def addTerm (sum : Coord) (q : Nat × Coord) : Except Failure Coord := do
  sum.add (← Coord.checked .mul ((q.1 : Int) * q.2.val))

/-- The sum of the coordinates times their weights, from the outermost axis on. Axes without a weight
and weights without an axis do not count. -/
def weightedSum (weights : List Coord) (p : Index) : Except Failure Coord :=
  (p.zip weights).foldlM addTerm Coord.zero

/-- The value of the element at a multi-index, with `made` elements made before it. -/
def value : Filler → (made : Nat) → Index → Except Failure Datum
  | index, _, p => .ok (Datum.ofNats p)
  | count, made, _ => .ok (.int made)
  | weighted weights, _, p => do return .int (← weightedSum weights p).val

end Filler

end LatticeGrid
