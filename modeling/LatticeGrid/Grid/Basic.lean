import LatticeGrid.Shape.Measure
import LatticeGrid.Layout.Strides

/-!
# Dense grids

A `Grid` holds one value for each multi-index of a shape, in a flat store in row-major order, and the
strides that lead to it. The strides are computed once, when the grid is made, and stored. That they are
those of the shape, and that the store has the size of the shape, is part of the type: whoever makes a grid
shows it, and no later operation has to check it.

`Grid.ofValues` is the one way to make a grid from a store; it refuses a store of another size. Of a
grid one can see its shape, its strides, its flat values, and `Grid.element?`, the value at a multi-index in
exact arithmetic. A shape and values determine the strides (`Grid.ext`), so equality of grids is equality of
shapes and values (`Grid.beq_iff`).
-/

set_option autoImplicit false

namespace LatticeGrid

/-- A dense grid: one value for each multi-index of a shape. -/
structure Grid (α : Type) where
  /-- The shape of the grid. -/
  shape : Shape
  /-- The stride of each axis of the flat store. -/
  strides : List Nat
  /-- The values in row-major order. -/
  values : Array α
  /-- The strides are those of the shape. -/
  strides_eq : strides = shape.strides
  /-- There is exactly one value for each multi-index. -/
  size_values : values.size = shape.size
deriving DecidableEq

namespace Grid

variable {α : Type}

/-- The number of axes. -/
def rank (g : Grid α) : Nat := g.shape.rank

/-- Grids are compared by their values, their shapes and their stored strides. -/
instance [BEq α] : BEq (Grid α) :=
  ⟨fun a b => a.values == b.values && a.shape == b.shape && a.strides == b.strides⟩

/-- A grid is determined by its shape and its values, since the shape gives the strides. -/
@[ext] theorem ext {a b : Grid α} (hshape : a.shape = b.shape) (hvalues : a.values = b.values) :
    a = b := by
  obtain ⟨shape, strides, values, rfl, hsize⟩ := a
  obtain ⟨shape', strides', values', rfl, hsize'⟩ := b
  obtain rfl : shape = shape' := hshape
  obtain rfl : values = values' := hvalues
  rfl

/-- The value at a multi-index, if the grid has one there. -/
def element? (g : Grid α) (p : Index) : Option α :=
  if p ∈ g.shape then g.values[g.shape.offset p]? else none

/-! ## Construction -/

/-- The grid with this shape and these values. The store has to hold exactly as many values as the
shape has elements, and the count of elements has to fit a word. -/
def ofValues (shape : Shape) (values : Array α) : Except Failure (Grid α) :=
  match h : shape.pointCount? with
  -- a count that leaves the word is reported as the greatest word
  | none => .error (.valueCount shape Word.greatest values.size)
  | some count =>
      if hc : count = values.size then
        .ok ⟨shape, shape.strides, values, rfl, by rw [← hc, Shape.pointCount?_eq_some h]⟩
      else
        .error (.valueCount shape count values.size)

/-! ## Writing to the store -/

/-- Writes one position of the store; a position past the end is ignored. -/
def put (g : Grid α) (position : Nat) (value : α) : Grid α where
  shape := g.shape
  strides := g.strides
  values := g.values.setIfInBounds position value
  strides_eq := g.strides_eq
  size_values := by rw [Array.size_setIfInBounds, g.size_values]

/-- Writes the same value to every position. -/
def reset (g : Grid α) (value : α) : Grid α where
  shape := g.shape
  strides := g.strides
  values := Array.replicate g.values.size value
  strides_eq := g.strides_eq
  size_values := by rw [Array.size_replicate, g.size_values]

@[simp] theorem strides_put (g : Grid α) (i : Nat) (v : α) : (g.put i v).strides = g.strides := rfl

@[simp] theorem shape_put (g : Grid α) (i : Nat) (v : α) : (g.put i v).shape = g.shape := rfl

@[simp] theorem values_put (g : Grid α) (i : Nat) (v : α) :
    (g.put i v).values = g.values.setIfInBounds i v := rfl

@[simp] theorem strides_reset (g : Grid α) (v : α) : (g.reset v).strides = g.strides := rfl

@[simp] theorem shape_reset (g : Grid α) (v : α) : (g.reset v).shape = g.shape := rfl

@[simp] theorem values_reset (g : Grid α) (v : α) :
    (g.reset v).values = Array.replicate g.values.size v := rfl

/-- Grids are equal exactly when their shapes and their values are: equal shapes have stored equal
strides. -/
theorem beq_iff [BEq α] {a b : Grid α} :
    (a == b) = true ↔ a.shape = b.shape ∧ (a.values == b.values) = true := by
  show (a.values == b.values && a.shape == b.shape && a.strides == b.strides) = true ↔ _
  rw [Bool.and_eq_true, Bool.and_eq_true]
  constructor
  · rintro ⟨⟨hvalues, hshape⟩, -⟩
    exact ⟨eq_of_beq hshape, hvalues⟩
  · rintro ⟨hshape, hvalues⟩
    have hstrides : a.strides = b.strides := by rw [a.strides_eq, b.strides_eq, hshape]
    exact ⟨⟨hvalues, beq_iff_eq.2 hshape⟩, beq_iff_eq.2 hstrides⟩

/-- A store that is accepted becomes the values of the grid, unchanged. -/
theorem ofValues_eq_ok {shape : Shape} {values : Array α} {g : Grid α}
    (h : ofValues shape values = .ok g) : g.shape = shape ∧ g.values = values := by
  unfold ofValues at h
  split at h
  · cases h
  · split at h
    · cases h
      exact ⟨rfl, rfl⟩
    · cases h

end Grid

end LatticeGrid
