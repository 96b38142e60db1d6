import LatticeGrid.Shape.Basic

/-!
# Failures

Every way in which an operation of this library can fail, and the text of each. A failure is either
*reported*, an answer about the geometry that a caller is expected to handle, or it is a *fault*: a
precondition of the operation was broken, or a number left the machine word that holds it.

`Failure.message` is the only place where the wording lives.

An operation that changes a state may fail after it has begun to change it. Its failure therefore comes with
the state as the operation has left it. What cannot change the state is marked by `leaving`.
-/

set_option autoImplicit false

namespace LatticeGrid

/-- The arithmetic steps that are checked for overflow. -/
inductive Arithmetic where
  | add
  | sub
  | mul
  | neg
deriving DecidableEq, Repr

/-- Why an operation failed. -/
inductive Failure where
  /-- A geometry has another number of axes than the grid it is used with. -/
  | rankMismatch (found expected : Nat)
  /-- The axis is too long for a signed lattice coordinate. -/
  | axisTooLong (axis length : Nat)
  /-- A store does not hold as many values as its shape has elements. -/
  | valueCount (shape : Shape) (expected actual : Nat)
  /-- The result of an arithmetic step does not fit its word. -/
  | overflow (step : Arithmetic)
  /-- A byte string is cut into elements of no bytes. -/
  | divisionByZero
  /-- A position past the end of a sequence. -/
  | positionOutOfRange (size position : Nat)
  /-- A multi-index outside the grid that it addresses. -/
  | indexOutOfBounds (index : Index) (shape : Shape)
  /-- Two points of different rank met in a component-wise operation. -/
  | unequalRanks
  /-- A multi-index or shape does not have the rank of the layout that it is used with. -/
  | layoutRank
  /-- More elements, or more axes of a point, are asked for than a store can hold. -/
  | capacity
  /-- The values counted for a grid do not match its shape. -/
  | countMismatch (shape : Shape) (expected actual : Nat)
  /-- The source of a pointwise copy has an axis too long for a signed lattice coordinate. -/
  | sourceAxisTooLong (axis length : Nat)
  /-- The source of a pointwise copy has no element at a point that it covers. -/
  | sourceElementMissing
  /-- No grid has this name. -/
  | unknownGrid (name : String)
  /-- A new grid is to be kept, but has no name. -/
  | unnamedGrid
deriving DecidableEq, Repr

namespace Failure

/-- Whether the failure is an answer about the geometry, and not a broken precondition. -/
def isReported : Failure → Bool
  | rankMismatch .. | axisTooLong .. | valueCount .. => true
  | _ => false

/-- The verb of an arithmetic step. -/
def verb : Arithmetic → String
  | .add => "add"
  | .sub => "subtract"
  | .mul => "multiply"
  | .neg => "negate"

/-- The text of a failure, or `none` for those that carry no text of their own. -/
def message : Failure → Option String
  | rankMismatch found expected =>
      some s!"incompatible dimensionality {found}, expected {expected}"
  | axisTooLong axis length =>
      some s!"extent {length} of axis {axis} does not fit in signed lattice coordinates"
  | valueCount shape expected actual =>
      some s!"buffer of length {actual} does not match shape {shape.text}, expected length {expected}"
  | overflow step => some s!"attempt to {verb step} with overflow"
  | divisionByZero => some "attempt to divide by zero"
  | positionOutOfRange size position =>
      some s!"index out of bounds: the len is {size} but the index is {position}"
  | indexOutOfBounds index shape =>
      some s!"{Index.text index} is out of bounds of {shape.text}"
  | unequalRanks => some "points have different ranks"
  | layoutRank => none
  | capacity => some "capacity overflow"
  | countMismatch shape expected actual =>
      some <| "sequential values match the shape: InvalidBufferLengthError \x7b shape: " ++ shape.text
        ++ s!", expected: {expected}, actual: {actual} \x7d"
  | sourceAxisTooLong axis length =>
      some <| "called `Result::unwrap()` on an `Err` value: ShapeOverflowError \x7b axis: "
        ++ s!"{axis}, extent: {length} \x7d"
  | sourceElementMissing => some "called `Option::unwrap()` on a `None` value"
  | unknownGrid _ => none
  | unnamedGrid => none

end Failure

/-- Reports a rank that differs from the expected one. -/
def checkRank (found expected : Nat) : Except Failure Unit :=
  if found = expected then .ok () else .error (.rankMismatch found expected)

/-! ## One step after the other -/

section Steps

variable {ε α β : Type} {x : Except ε α} {f : α → Except ε β}

/-- Two steps succeed when the second one succeeds on what the first one answers. -/
theorem bind_eq_ok_iff {b : β} : x >>= f = .ok b ↔ ∃ a, x = .ok a ∧ f a = .ok b := by
  cases x with
  | error e => simp [bind, Except.bind]
  | ok a => simp [bind, Except.bind]

/-- Two steps fail when one of them does. -/
theorem bind_eq_error_iff {e : ε} :
    x >>= f = .error e ↔ x = .error e ∨ ∃ a, x = .ok a ∧ f a = .error e := by
  cases x with
  | error e' => simp [bind, Except.bind]
  | ok a => simp [bind, Except.bind]

/-- A step fails when it has no answer. -/
theorem exists_eq_error_iff : (∃ e, x = .error e) ↔ ¬ ∃ a, x = .ok a := by
  cases x with
  | error e => simp
  | ok a => simp

end Steps

/-! ## Steps that change a state -/

section States

variable {σ β γ : Type}

/-- A step that does not touch the state: if it fails, it leaves the state as it is. -/
def leaving (state : σ) (x : Except Failure β) : Except (Failure × σ) β :=
  x.mapError fun e => (e, state)

/-- The outcome of a step without the state that a failure has left. -/
def forget (x : Except (Failure × σ) β) : Except Failure β := x.mapError Prod.fst

@[simp] theorem leaving_ok (state : σ) (b : β) : leaving state (.ok b) = .ok b := rfl

@[simp] theorem leaving_error (state : σ) (e : Failure) :
    leaving state (.error e : Except Failure β) = .error (e, state) := rfl

theorem leaving_eq_ok_iff {state : σ} {x : Except Failure β} {b : β} :
    leaving state x = .ok b ↔ x = .ok b := by
  cases x with
  | error e => simp
  | ok a => simp

theorem leaving_eq_error_iff {state left : σ} {x : Except Failure β} {e : Failure} :
    leaving state x = .error (e, left) ↔ x = .error e ∧ left = state := by
  cases x with
  | error e' => simp [eq_comm]
  | ok a => simp

@[simp] theorem forget_ok (b : β) : forget (.ok b : Except (Failure × σ) β) = .ok b := rfl

@[simp] theorem forget_error (e : Failure) (left : σ) :
    forget (.error (e, left) : Except (Failure × σ) β) = .error e := rfl

theorem forget_eq_ok_iff {x : Except (Failure × σ) β} {b : β} : forget x = .ok b ↔ x = .ok b := by
  cases x with
  | error f => obtain ⟨e, left⟩ := f; simp
  | ok a => simp

theorem forget_eq_error_iff {x : Except (Failure × σ) β} {e : Failure} :
    forget x = .error e ↔ ∃ left, x = .error (e, left) := by
  cases x with
  | error f => obtain ⟨e', left⟩ := f; simp
  | ok a => simp

end States

theorem checkRank_eq_ok_iff {found expected : Nat} :
    checkRank found expected = .ok () ↔ found = expected := by
  unfold checkRank
  split <;> simp_all

end LatticeGrid
