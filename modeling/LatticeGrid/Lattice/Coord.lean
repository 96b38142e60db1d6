import LatticeGrid.Word

/-!
# Lattice coordinates

A `Coord` is a coordinate on one axis of the signed lattice: an integer from `-2^63` to `2^63 - 1`,
with the proof that it lies there. Arithmetic comes in two kinds. The checked operations fail when
the exact result leaves the lattice; the saturating ones answer the nearest coordinate.

Main statements: `val_clamp` and `checked_eq_ok_iff`, to which every operation reduces.
-/

set_option autoImplicit false

namespace LatticeGrid

/-- A coordinate on one axis of the signed lattice. -/
@[ext] structure Coord where
  /-- The coordinate as an unbounded integer. -/
  val : Int
  /-- No coordinate lies before the near edge of the lattice. -/
  lower : -9223372036854775808 ≤ val := by decide
  /-- No coordinate lies past the far edge of the lattice. -/
  upper : val < 9223372036854775808 := by decide
deriving DecidableEq, Repr

namespace Coord

instance : LE Coord := ⟨fun a b => a.val ≤ b.val⟩
instance : LT Coord := ⟨fun a b => a.val < b.val⟩

instance (a b : Coord) : Decidable (a ≤ b) := inferInstanceAs (Decidable (a.val ≤ b.val))
instance (a b : Coord) : Decidable (a < b) := inferInstanceAs (Decidable (a.val < b.val))

instance : Max Coord := ⟨fun a b => if a ≤ b then b else a⟩
instance : Min Coord := ⟨fun a b => if a ≤ b then a else b⟩

/-- The origin of an axis. -/
def zero : Coord := { val := 0 }

instance : Inhabited Coord := ⟨zero⟩

/-! ## From integers -/

/-- The coordinate with this value, if it lies on the lattice. -/
def ofInt? (n : Int) : Option Coord :=
  if h : -9223372036854775808 ≤ n ∧ n < 9223372036854775808 then some ⟨n, h.1, h.2⟩ else none

/-- The coordinate nearest to an integer. -/
def clamp (n : Int) : Coord :=
  ⟨max (-9223372036854775808) (min n 9223372036854775807), by omega, by omega⟩

/-- The coordinate with this value; off the lattice, the arithmetic step that computed it failed. -/
def checked (step : Arithmetic) (n : Int) : Except Failure Coord :=
  match ofInt? n with
  | some c => .ok c
  | none => .error (.overflow step)

/-- The coordinate as a length or array index; negative coordinates give 0. -/
def toNat (c : Coord) : Nat := c.val.toNat

/-! ## Arithmetic -/

/-- The exact sum, if it lies on the lattice. -/
def add (a b : Coord) : Except Failure Coord := checked .add (a.val + b.val)

/-- The exact difference, if it lies on the lattice. -/
def sub (a b : Coord) : Except Failure Coord := checked .sub (a.val - b.val)

/-- The exact negation, if it lies on the lattice. -/
def neg (a : Coord) : Except Failure Coord := checked .neg (-a.val)

/-- The sum, held at the edge of the lattice. -/
def saturatingAdd (a b : Coord) : Coord := clamp (a.val + b.val)

/-- The difference, held at the edge of the lattice. -/
def saturatingSub (a b : Coord) : Coord := clamp (a.val - b.val)

/-- The negation, held at the edge of the lattice. -/
def saturatingNeg (a : Coord) : Coord := clamp (-a.val)

/-! ## Values -/

theorem le_def {a b : Coord} : a ≤ b ↔ a.val ≤ b.val := Iff.rfl

theorem lt_def {a b : Coord} : a < b ↔ a.val < b.val := Iff.rfl

theorem val_clamp (n : Int) :
    (clamp n).val = max (-9223372036854775808) (min n 9223372036854775807) := rfl

@[simp] theorem val_zero : zero.val = 0 := rfl

theorem val_max (a b : Coord) : (max a b).val = max a.val b.val := by
  show (if a ≤ b then b else a).val = _
  split
  · next h => exact (Int.max_eq_right h).symm
  · next h => exact (Int.max_eq_left (by have := Int.not_le.1 h; omega)).symm

theorem val_min (a b : Coord) : (min a b).val = min a.val b.val := by
  show (if a ≤ b then a else b).val = _
  split
  · next h => exact (Int.min_eq_left h).symm
  · next h => exact (Int.min_eq_right (by have := Int.not_le.1 h; omega)).symm

theorem ofInt?_eq_some_iff {n : Int} {c : Coord} : ofInt? n = some c ↔ c.val = n := by
  unfold ofInt?
  split
  · simp [Coord.ext_iff, eq_comm]
  · next h =>
      have := c.lower
      have := c.upper
      simp only [reduceCtorEq, false_iff]
      omega

theorem ofInt?_eq_none_iff {n : Int} :
    ofInt? n = none ↔ n < -9223372036854775808 ∨ 9223372036854775808 ≤ n := by
  unfold ofInt?
  split
  · simp only [reduceCtorEq, false_iff]; omega
  · simp only [true_iff]; omega

theorem checked_eq_ok_iff {step : Arithmetic} {n : Int} {c : Coord} :
    checked step n = .ok c ↔ c.val = n := by
  unfold checked
  cases h : ofInt? n with
  | some d => simp [← ofInt?_eq_some_iff, h]
  | none => simp [← ofInt?_eq_some_iff, h]

end Coord

end LatticeGrid
