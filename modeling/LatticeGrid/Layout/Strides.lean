import LatticeGrid.Word

/-!
# Row-major strides

The elements of a dense grid lie in one flat store, row after row. The stride of an axis is the
number of elements that one step on it passes over: the size of the axes inside it, so the innermost
axis has stride 1. `position` turns a multi-index into a flat position with these strides.

A stride is held at the greatest word. `innerStride_eq_size` says that it is exact when no inner axis
is empty and the size of the inner axes fits a word.
-/

set_option autoImplicit false

namespace LatticeGrid

/-- The stride of an axis with these axes inside it: their size, multiplied up from the innermost
axis and held at the greatest word at every step. -/
def innerStride : List Nat → Nat
  | [] => 1
  | n :: rest => Word.saturatingMul (innerStride rest) n

/-- The stride of each axis. -/
def stridesOf : List Nat → List Nat
  | [] => []
  | _ :: rest => innerStride rest :: stridesOf rest

/-- The stride of each axis of a shape. -/
def Shape.strides (s : Shape) : List Nat := stridesOf s.lengths

/-- The flat position of a multi-index: the sum of its coordinates times the strides. Whether the
multi-index lies in a shape is not checked. -/
def position (strides : List Nat) (p : Index) : Except Failure Nat :=
  if p.length = strides.length then Word.dot (p.zip strides) else .error .layoutRank

/-- The half-open range of `length` positions from `start`. -/
def span (start length : Nat) : Except Failure (Nat × Nat) := do
  return (start, ← Word.add start length)

/-- The stride is the exact size of the inner axes when none of them is empty and the size fits a
word. -/
theorem innerStride_eq_size {ls : List Nat} (hpos : ∀ n ∈ ls, 0 < n)
    (hfit : Shape.size ⟨ls⟩ < Word.bound) : innerStride ls = Shape.size ⟨ls⟩ := by
  induction ls with
  | nil => rfl
  | cons n ls ih =>
      have hn : 0 < n := hpos n (by simp)
      -- the inner size is at most the whole one, so it fits too
      have hle : Shape.size ⟨ls⟩ ≤ n * Shape.size ⟨ls⟩ := Nat.le_mul_of_pos_left _ hn
      rw [Shape.size_cons] at hfit
      have hinner := ih (fun m hm => hpos m (by simp [hm])) (Nat.lt_of_le_of_lt hle hfit)
      rw [innerStride, hinner, Word.saturatingMul_eq (by rwa [Nat.mul_comm]), Shape.size_cons,
        Nat.mul_comm]

theorem length_stridesOf (ls : List Nat) : (stridesOf ls).length = ls.length := by
  induction ls with
  | nil => rfl
  | cons n ls ih => simp [stridesOf, ih]

@[simp] theorem Shape.length_strides (s : Shape) : s.strides.length = s.rank :=
  length_stridesOf s.lengths

end LatticeGrid
