import LatticeGrid.Lattice.Point

/-!
# Measuring shapes

The measures of a `Shape` that have to fit a machine word or the signed lattice, and so can fail:
the number of elements, the length of one axis, and the shape as a lattice point.

Main statement: `pointCount_eq_ok`, the checked count is the exact one whenever it succeeds, and
then it is a word. The converse fails: `[2^63, 2, 0]` has no element at all, but its count already
leaves the word at the second axis.
-/

set_option autoImplicit false

namespace LatticeGrid.Shape

/-- The number of elements, multiplied up from the outermost axis; every step has to fit a word. -/
def pointCount (s : Shape) : Except Failure Nat := Word.product s.lengths

/-- The number of elements, or `none` when a step of the product leaves the word. -/
def pointCount? (s : Shape) : Option Nat := s.pointCount.toOption

/-- The length of an axis. -/
def lengthAt (s : Shape) (axis : Nat) : Except Failure Nat :=
  match s.lengths[axis]? with
  | some n => .ok n
  | none => .error (.positionOutOfRange s.rank axis)

/-- The length of an axis as a lattice coordinate. -/
def signedLength (axis length : Nat) : Except Failure Coord :=
  if h : length < 9223372036854775808 then
    .ok ⟨length, by omega, by omega⟩
  else
    .error (.axisTooLong axis length)

/-- The length of an axis, looked up by its number, as a lattice coordinate. -/
def signedLengthAt (s : Shape) (axis : Nat) : Except Failure Coord := do
  signedLength axis (← s.lengthAt axis)

/-- The shape as a lattice point; the first axis that is too long is reported. -/
def toPoint (s : Shape) : Except Failure Point :=
  Point.mk <$> s.lengths.zipIdx.mapM fun q => signedLength q.2 q.1

/-! ## The checked count is exact -/

/-- A checked product that succeeds is the exact product, whatever it started from. -/
theorem foldlM_mul_eq_ok {ls : List Nat} {start n : Nat}
    (h : ls.foldlM Word.mul start = .ok n) : n = start * Shape.size ⟨ls⟩ := by
  induction ls generalizing start with
  | nil =>
      simp only [List.foldlM_nil] at h
      cases h
      simp
  | cons l ls ih =>
      rw [List.foldlM_cons] at h
      cases hm : Word.mul start l with
      | error e => rw [hm] at h; cases h
      | ok m =>
          rw [hm] at h
          obtain ⟨-, rfl⟩ := Word.mul_eq_ok_iff.1 hm
          rw [ih h, size_cons, Nat.mul_assoc]

theorem pointCount_eq_ok {s : Shape} {n : Nat} (h : s.pointCount = .ok n) : n = s.size := by
  have hmul := foldlM_mul_eq_ok h
  simpa using hmul

theorem pointCount?_eq_some_iff_eq_ok {s : Shape} {n : Nat} :
    s.pointCount? = some n ↔ s.pointCount = .ok n := by
  rw [pointCount?]
  cases s.pointCount with
  | error e => simp [Except.toOption]
  | ok m => simp [Except.toOption]

theorem pointCount?_eq_some {s : Shape} {n : Nat} (h : s.pointCount? = some n) : n = s.size :=
  pointCount_eq_ok (pointCount?_eq_some_iff_eq_ok.1 h)

/-- A checked product that starts from a word ends with a word. -/
theorem foldlM_mul_lt {ls : List Nat} {start n : Nat} (hstart : start < Word.bound)
    (h : ls.foldlM Word.mul start = .ok n) : n < Word.bound := by
  induction ls generalizing start with
  | nil =>
      cases h
      exact hstart
  | cons l ls ih =>
      rw [List.foldlM_cons, bind_eq_ok_iff] at h
      obtain ⟨m, hm, h⟩ := h
      obtain ⟨hfit, rfl⟩ := Word.mul_eq_ok_iff.1 hm
      exact ih hfit h

/-- The size of a shape whose elements can be counted is a word. -/
theorem size_lt_of_pointCount_eq_ok {s : Shape} {n : Nat} (h : s.pointCount = .ok n) :
    s.size < Word.bound := by
  rw [← pointCount_eq_ok h]
  exact foldlM_mul_lt (by decide) h

end LatticeGrid.Shape
