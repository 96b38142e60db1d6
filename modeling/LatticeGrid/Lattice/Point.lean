import LatticeGrid.Lattice.Coord

/-!
# Lattice points

A `Point` has one coordinate per axis; the number of axes is only known at run time. Component-wise
operations on two points need equal ranks and fail with `Failure.unequalRanks` otherwise; the two
component-wise orders hold of no two points of different rank.

Main statements: `zipWith_eq_ok_iff` for the operations that clamp, `allLE_cons` and `allLT_cons`
for the orders.
-/

set_option autoImplicit false

namespace LatticeGrid

/-- A point of the signed lattice: one coordinate per axis, outermost axis first. -/
@[ext] structure Point where
  /-- The coordinates. -/
  coords : List Coord
deriving DecidableEq, Repr

namespace Point

/-- The number of axes. -/
def rank (p : Point) : Nat := p.coords.length

/-- The point whose coordinates all have one value. -/
def fill (rank : Nat) (c : Coord) : Point := ⟨List.replicate rank c⟩

/-- The number of axes from which on the coordinates of a point cannot be stored, `2^60`. -/
def rankBound : Nat := 1152921504606846976

/-- The point whose coordinates all have one value, if a point can have so many of them. -/
def constant (rank : Nat) (c : Coord) : Except Failure Point :=
  if rank < rankBound then .ok (fill rank c) else .error .capacity

/-- The origin of the lattice of this rank. -/
def zero (rank : Nat) : Point := fill rank Coord.zero

/-- Whether every coordinate is zero. -/
def isZero (p : Point) : Bool := p.coords.all fun c => c.val == 0

/-- The coordinate on an axis. -/
def coordAt (p : Point) (axis : Nat) : Except Failure Coord :=
  match p.coords[axis]? with
  | some c => .ok c
  | none => .error (.positionOutOfRange p.rank axis)

/-- The point as a multi-index; negative coordinates give 0. -/
def toIndex (p : Point) : Index := p.coords.map Coord.toNat

/-- Whether some coordinate is negative. -/
def hasNegative (p : Point) : Bool := p.coords.any fun c => decide (c.val < 0)

/-! ## Component-wise operations -/

/-- Applies a function to every coordinate. -/
def map (f : Coord → Coord) (p : Point) : Point := ⟨p.coords.map f⟩

/-- Combines two points of equal rank coordinate by coordinate. -/
def zipWith (f : Coord → Coord → Coord) (a b : Point) : Except Failure Point :=
  if a.rank = b.rank then .ok ⟨List.zipWith f a.coords b.coords⟩ else .error .unequalRanks

/-- Combines two points of equal rank by an operation that can fail, first axis first. -/
def zipWithM (f : Coord → Coord → Except Failure Coord) (a b : Point) : Except Failure Point :=
  if a.rank = b.rank then
    Point.mk <$> (a.coords.zip b.coords).mapM fun q => f q.1 q.2
  else
    .error .unequalRanks

/-- The exact sum, if it lies on the lattice. -/
def add (a b : Point) : Except Failure Point := zipWithM Coord.add a b

/-- The exact difference, if it lies on the lattice. -/
def sub (a b : Point) : Except Failure Point := zipWithM Coord.sub a b

/-- The exact negation, if it lies on the lattice. -/
def neg (p : Point) : Except Failure Point := Point.mk <$> p.coords.mapM Coord.neg

/-- The sum, held at the edge of the lattice. -/
def saturatingAdd (a b : Point) : Except Failure Point := zipWith Coord.saturatingAdd a b

/-- The difference, held at the edge of the lattice. -/
def saturatingSub (a b : Point) : Except Failure Point := zipWith Coord.saturatingSub a b

/-- The negation, held at the edge of the lattice. -/
def saturatingNeg (p : Point) : Point := p.map Coord.saturatingNeg

/-- The component-wise maximum. -/
def join (a b : Point) : Except Failure Point := zipWith max a b

/-- The component-wise minimum. -/
def meet (a b : Point) : Except Failure Point := zipWith min a b

/-- The point with its negative coordinates raised to zero. -/
def clampNegative (p : Point) : Point := p.map (max Coord.zero)

theorem zipWith_eq_ok_iff {f : Coord → Coord → Coord} {a b c : Point} :
    zipWith f a b = .ok c ↔ a.rank = b.rank ∧ c = ⟨List.zipWith f a.coords b.coords⟩ := by
  unfold zipWith
  split
  · next h => simp [h, eq_comm]
  · next h => simp [h]

/-- An operation that can fail goes axis by axis. -/
theorem zipWithM_cons_eq_ok {f : Coord → Coord → Except Failure Coord} {x y z : Coord}
    {a b c : List Coord} (hhead : f x y = .ok z) (hrest : zipWithM f ⟨a⟩ ⟨b⟩ = .ok ⟨c⟩) :
    zipWithM f ⟨x :: a⟩ ⟨y :: b⟩ = .ok ⟨z :: c⟩ := by
  rw [zipWithM] at hrest
  split at hrest
  · next hrank =>
      have hcons : (Point.mk (x :: a)).rank = (Point.mk (y :: b)).rank := congrArg Nat.succ hrank
      cases hmap : (a.zip b).mapM fun q => f q.1 q.2 with
      | error e =>
          rw [hmap] at hrest
          cases hrest
      | ok d =>
          rw [hmap] at hrest
          obtain rfl : d = c := Point.mk.inj (Except.ok.inj hrest)
          rw [zipWithM, if_pos hcons, List.zip_cons_cons, List.mapM_cons, hmap]
          simp only [hhead, bind, Except.bind]
          rfl
  · cases hrest

theorem constant_eq_ok_iff {n : Nat} {c : Coord} {p : Point} :
    constant n c = .ok p ↔ n < rankBound ∧ p = fill n c := by
  unfold constant
  split
  · next h => simp [h, eq_comm]
  · next h => simp [h]

@[simp] theorem rank_map (f : Coord → Coord) (p : Point) : (p.map f).rank = p.rank := by
  simp [map, rank]

@[simp] theorem rank_fill (n : Nat) (c : Coord) : (fill n c).rank = n := by
  simp [fill, rank]

/-! ## Component-wise orders -/

/-- Every coordinate of the first point is at most that of the second one. -/
def AllLE (a b : Point) : Prop :=
  a.rank = b.rank ∧ ∀ q ∈ a.coords.zip b.coords, q.1 ≤ q.2

/-- Every coordinate of the first point is below that of the second one. -/
def AllLT (a b : Point) : Prop :=
  a.rank = b.rank ∧ ∀ q ∈ a.coords.zip b.coords, q.1 < q.2

instance (a b : Point) : Decidable (a.AllLE b) :=
  inferInstanceAs (Decidable (a.rank = b.rank ∧ ∀ q ∈ a.coords.zip b.coords, q.1 ≤ q.2))

instance (a b : Point) : Decidable (a.AllLT b) :=
  inferInstanceAs (Decidable (a.rank = b.rank ∧ ∀ q ∈ a.coords.zip b.coords, q.1 < q.2))

theorem allLE_cons {x y : Coord} {p q : List Coord} :
    AllLE ⟨x :: p⟩ ⟨y :: q⟩ ↔ x ≤ y ∧ AllLE ⟨p⟩ ⟨q⟩ := by
  simp only [AllLE, rank, List.length_cons, List.zip_cons_cons, List.forall_mem_cons]
  constructor
  · rintro ⟨hlen, hxy, hall⟩
    exact ⟨hxy, by omega, hall⟩
  · rintro ⟨hxy, hlen, hall⟩
    exact ⟨by omega, hxy, hall⟩

theorem allLT_cons {x y : Coord} {p q : List Coord} :
    AllLT ⟨x :: p⟩ ⟨y :: q⟩ ↔ x < y ∧ AllLT ⟨p⟩ ⟨q⟩ := by
  simp only [AllLT, rank, List.length_cons, List.zip_cons_cons, List.forall_mem_cons]
  constructor
  · rintro ⟨hlen, hxy, hall⟩
    exact ⟨hxy, by omega, hall⟩
  · rintro ⟨hxy, hlen, hall⟩
    exact ⟨by omega, hxy, hall⟩

end Point

end LatticeGrid
