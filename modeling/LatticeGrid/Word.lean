import LatticeGrid.Failure

/-!
# Word arithmetic

Lengths, positions and strides are natural numbers that have to fit in a machine word. `Word.add`,
`Word.sub` and `Word.mul` are the exact operations that fail when the result leaves the word;
`Word.product` and `Word.dot` chain them from the left, so that the first step that leaves the word
is the one that fails.

Main statements: `add_eq_ok_iff`, `sub_eq_ok_iff` and `mul_eq_ok_iff` say when a step succeeds, and
that its answer is then exact.
-/

set_option autoImplicit false

namespace LatticeGrid.Word

/-- One more than the greatest word, `2^64`. -/
def bound : Nat := 18446744073709551616

/-- The greatest word. -/
def greatest : Nat := bound - 1

/-- The sum, if it fits a word. -/
def add (a b : Nat) : Except Failure Nat :=
  if a + b < bound then .ok (a + b) else .error (.overflow .add)

/-- The difference, if it is not negative. -/
def sub (a b : Nat) : Except Failure Nat :=
  if b ≤ a then .ok (a - b) else .error (.overflow .sub)

/-- The product, if it fits a word. -/
def mul (a b : Nat) : Except Failure Nat :=
  if a * b < bound then .ok (a * b) else .error (.overflow .mul)

/-- The product, or the greatest word if it does not fit. -/
def saturatingMul (a b : Nat) : Nat := min (a * b) greatest

/-- The product of a list, from the left and starting at 1; every step has to fit a word. -/
def product (l : List Nat) : Except Failure Nat := l.foldlM mul 1

/-- The sum of the products of pairs, from the left and starting at 0; every step has to fit a
word. -/
def dot (l : List (Nat × Nat)) : Except Failure Nat :=
  l.foldlM (fun acc q => do add acc (← mul q.1 q.2)) 0

theorem add_eq_ok_iff {a b c : Nat} : add a b = .ok c ↔ a + b < bound ∧ c = a + b := by
  unfold add
  split
  · next h => simp [h, eq_comm]
  · next h => simp [h]

/-- What begins with an addition fails by it, or goes on with the exact sum. -/
theorem add_bind_eq_error {β : Type} {a b : Nat} {f : Nat → Except Failure β} {e : Failure}
    (h : add a b >>= f = .error e) : e = .overflow .add ∨ a + b < bound ∧ f (a + b) = .error e := by
  unfold add at h
  split at h
  · next hfit => exact Or.inr ⟨hfit, h⟩
  · cases h
    exact Or.inl rfl

theorem sub_eq_ok_iff {a b c : Nat} : sub a b = .ok c ↔ b ≤ a ∧ c = a - b := by
  unfold sub
  split
  · next h => simp [h, eq_comm]
  · next h => simp [h]

theorem mul_eq_ok_iff {a b c : Nat} : mul a b = .ok c ↔ a * b < bound ∧ c = a * b := by
  unfold mul
  split
  · next h => simp [h, eq_comm]
  · next h => simp [h]

theorem saturatingMul_eq {a b : Nat} (h : a * b < bound) : saturatingMul a b = a * b := by
  unfold saturatingMul greatest
  omega

end LatticeGrid.Word
