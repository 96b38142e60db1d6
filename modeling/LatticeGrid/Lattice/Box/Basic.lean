import LatticeGrid.Shape.Measure

/-!
# Lattice boxes

A `Box` is an axis-aligned box of lattice points: a least corner and a signed length per axis. A
length that is not positive makes the box empty. Boxes are made without any check, so the corner and
the lengths of a box may differ in rank; the operations that need both then fail with
`Failure.unequalRanks`.

The lattice ends at `2^63 - 1`. `Box.upper`, the bound just past the last point, is held there, so a
box that reaches past the edge has fewer points than its lengths say. `Box.Covers` is the box
without that edge, in unbounded integers.
-/

set_option autoImplicit false

namespace LatticeGrid

/-- An axis-aligned box of lattice points. -/
@[ext] structure Box where
  /-- The least point of the box. -/
  corner : Point
  /-- The length of each axis; lengths below zero count as zero. -/
  sides : Point
deriving DecidableEq, Repr

namespace Box

/-- The number of axes. -/
def rank (b : Box) : Nat := b.corner.rank

/-- The box of a grid of this shape with its origin at the origin of the lattice. -/
def ofShape (s : Shape) : Except Failure Box :=
  Box.mk (Point.zero s.rank) <$> s.toPoint

/-- The box between a least corner and an upper bound; crossed bounds give length 0. -/
def ofBounds (corner upper : Point) : Except Failure Box := do
  let sides ← upper.saturatingSub corner
  return ⟨corner, sides.clampNegative⟩

/-- The least point that lies past the box on every axis, held at the edge of the lattice. -/
def upper (b : Box) : Except Failure Point := b.corner.saturatingAdd b.sides.clampNegative

/-- The lengths of the axes as a shape, with lengths below zero taken as zero. -/
def unsignedShape (b : Box) : Shape := ⟨b.sides.toIndex⟩

/-- The number of points that the lengths ask for; every step of the product has to fit a word. -/
def pointCount (b : Box) : Except Failure Nat := b.unsignedShape.pointCount

/-- Whether some length is not positive. -/
def isEmpty (b : Box) : Bool := b.sides.coords.any fun c => decide (c.val ≤ 0)

/-- Whether a point lies in the box. The upper bound is only computed for a point that the corner
does not already exclude. -/
def contains (b : Box) (p : Point) : Except Failure Bool :=
  if b.corner.AllLE p then do
    let upper ← b.upper
    return decide (p.AllLT upper)
  else
    return false

/-- A point lies between the corner and the corner plus the lengths, in unbounded integers. -/
def Covers (b : Box) (p : List Int) : Prop :=
  p.length = b.corner.rank ∧ p.length = b.sides.rank ∧
    ∀ q ∈ (b.corner.coords.zip b.sides.coords).zip p,
      q.1.1.val ≤ q.2 ∧ q.2 < q.1.1.val + q.1.2.val

instance (b : Box) (p : List Int) : Decidable (b.Covers p) :=
  inferInstanceAs (Decidable (p.length = b.corner.rank ∧ p.length = b.sides.rank ∧
    ∀ q ∈ (b.corner.coords.zip b.sides.coords).zip p,
      q.1.1.val ≤ q.2 ∧ q.2 < q.1.1.val + q.1.2.val))

/-! ## Intersection and inclusion -/

/-- The box of the points that lie in both boxes. -/
def inter (a b : Box) : Except Failure Box := do
  checkRank b.rank a.rank
  let corner ← a.corner.join b.corner
  -- the bounds are those on the lattice, not corner plus length
  let upperA ← a.upper
  let upperB ← b.upper
  ofBounds corner (← upperA.meet upperB)

/-- Whether the first box lies in the second one: the intersection is the first box itself, or both
are empty. Boxes of different rank never include each other. -/
def isSubsetOf (a b : Box) : Except Failure Bool :=
  if b.rank = a.rank then do
    let both ← a.inter b
    return decide (both = a) || (a.isEmpty && both.isEmpty)
  else
    return false

/-! ## Moving a box -/

/-- The box moved by a vector. -/
def shift (b : Box) (v : Point) : Except Failure Box := do
  return ⟨← b.corner.add v, b.sides⟩

/-- The box moved against a vector. -/
def shiftBack (b : Box) (v : Point) : Except Failure Box := do
  return ⟨← b.corner.sub v, b.sides⟩

@[simp] theorem rank_mk (corner sides : Point) : (Box.mk corner sides).rank = corner.rank := rfl

end Box

end LatticeGrid
