import LatticeGrid.Layout.Strides

/-!
# Rows of one box in two arrays

A box has the same shape in two row-major arrays, though each may place it elsewhere. Its rows are
contiguous in both. `RowPairs` walks them in row-major order: each item is the pair of flat positions
where one row starts in the first and in the second array.

The positions are carried along as in a visit: a step on an outer axis adds its two strides, and at
the end of the axis the way is taken back. `RowPairs.next` computes the position *after* the row that
it answers, so it fails already when the next position leaves the word.
-/

set_option autoImplicit false

namespace LatticeGrid

/-- An outer axis of a walk over rows, and where the walk stands on it. -/
structure RowAxis where
  /-- The number of steps on the axis. -/
  length : Nat
  /-- What one step adds to the position in the first array. -/
  strideA : Nat
  /-- What one step adds to the position in the second array. -/
  strideB : Nat
  /-- The steps made so far. -/
  row : Nat
deriving DecidableEq, Repr

/-- The outcome of advancing some axes: where they stand, both positions, and whether they are back
at their start, so that the next outer axis has to step. -/
structure RowStep where
  axes : List RowAxis
  posA : Nat
  posB : Nat
  wrapped : Bool
deriving DecidableEq, Repr

/-- Advances the innermost axis by one step and carries into the outer ones. -/
def RowAxis.advance : List RowAxis → (posA posB : Nat) → Except Failure RowStep
  | [], posA, posB => .ok ⟨[], posA, posB, true⟩
  | axis :: rest, posA, posB => do
      let inner ← advance rest posA posB
      -- this axis only steps when every axis inside it has come round
      if inner.wrapped then
        let row ← Word.add axis.row 1
        let posA ← Word.add inner.posA axis.strideA
        let posB ← Word.add inner.posB axis.strideB
        if row < axis.length then
          .ok ⟨{ axis with row } :: inner.axes, posA, posB, false⟩
        else
          let posA ← Word.sub posA (← Word.mul axis.strideA axis.length)
          let posB ← Word.sub posB (← Word.mul axis.strideB axis.length)
          .ok ⟨{ axis with row := 0 } :: inner.axes, posA, posB, true⟩
      else
        .ok { inner with axes := axis :: inner.axes }

/-- A walk over the rows of one box in two arrays. -/
structure RowPairs where
  /-- The axes that separate the rows, outermost first. -/
  axes : List RowAxis
  /-- The number of elements in each row. -/
  rowLength : Nat
  /-- Where the next row starts in both arrays, or `none` after the last row. -/
  pending : Option (Nat × Nat)
deriving DecidableEq, Repr

namespace RowPairs

/-- The walk over a box of this shape, with its origin in each array. -/
def ofOrigins (box : Shape) (stridesA : List Nat) (originA : Index) (stridesB : List Nat)
    (originB : Index) : Except Failure RowPairs :=
  if box.rank = stridesA.length ∧ box.rank = stridesB.length then do
    let axes := (box.outer.zip (stridesA.zip stridesB)).map fun q => ⟨q.1, q.2.1, q.2.2, 0⟩
    if box.isEmpty then
      -- an empty box has no row, and its origins need not fit the arrays
      return ⟨axes, box.rowLength, none⟩
    else
      let startA ← position stridesA originA
      let startB ← position stridesB originB
      return ⟨axes, box.rowLength, some (startA, startB)⟩
  else
    .error .layoutRank

/-- The next row, if there is one, and the walk after it. -/
def next (w : RowPairs) : Except Failure (Option (Nat × Nat) × RowPairs) :=
  match w.pending with
  | none => .ok (none, w)
  | some (posA, posB) => do
      let step ← RowAxis.advance w.axes posA posB
      let pending := if step.wrapped then none else some (step.posA, step.posB)
      .ok (some (posA, posB), { w with axes := step.axes, pending })

/-- The outcomes of `calls` calls of `next`, one after the other; a failure ends them. -/
def outcomes : (calls : Nat) → RowPairs → List (Except Failure (Option (Nat × Nat)))
  | 0, _ => []
  | calls + 1, w =>
      match w.next with
      | .error e => [.error e]
      | .ok (row, rest) => .ok row :: outcomes calls rest

/-- The rows that `calls` calls of `next` give, up to the end of the walk. -/
def take : (calls : Nat) → RowPairs → Except Failure (List (Nat × Nat))
  | 0, _ => .ok []
  | calls + 1, w => do
      match ← w.next with
      | (none, _) => .ok []
      | (some row, rest) => return row :: (← take calls rest)

/-- The number of rows of a box that has any: the product of the outer axes. -/
def count (w : RowPairs) : Nat := (w.axes.map RowAxis.length).foldr (· * ·) 1

/-- All rows of the walk. One call per row of the box is enough to reach the end. -/
def toList (w : RowPairs) : Except Failure (List (Nat × Nat)) := w.take w.count

/-- Changes a state by each of the rows that `calls` calls of `next` give, up to the end of the walk. -/
def foldRows {σ : Type} (change : σ → Nat × Nat → Except (Failure × σ) σ) :
    (calls : Nat) → RowPairs → σ → Except (Failure × σ) σ
  | 0, _, state => .ok state
  | calls + 1, w, state => do
      match ← leaving state w.next with
      | (none, _) => .ok state
      | (some row, rest) => foldRows change calls rest (← change state row)

/-- Changes a state by each row of the walk, before the next row is asked for. -/
def fold {σ : Type} (w : RowPairs) (change : σ → Nat × Nat → Except (Failure × σ) σ) (state : σ) :
    Except (Failure × σ) σ :=
  foldRows change w.count w state

end RowPairs

end LatticeGrid
