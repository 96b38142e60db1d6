import LatticeGrid.Grid.Access
import LatticeGrid.Proofs.Layout.Position

/-!
# The elements of a grid

A grid is determined by its shape and by `Grid.element?`, the value at each multi-index. Reading and
writing, whether by flat position or by multi-index, are described here by what they do to the
elements: a write changes the element at its own multi-index and no other.

Main statements: `Grid.ext_element?` and `Grid.element?_put_offset`.
-/

set_option autoImplicit false

namespace LatticeGrid.Grid

variable {α : Type} {g : Grid α} {p : Index}

/-! ## Elements and members -/

theorem element?_of_mem (h : p ∈ g.shape) : g.element? p = g.values[g.shape.offset p]? := if_pos h

theorem element?_of_not_mem (h : p ∉ g.shape) : g.element? p = none := if_neg h

/-- The flat position of a member lies in the store. -/
theorem offset_lt_size_values (h : p ∈ g.shape) : g.shape.offset p < g.values.size := by
  rw [g.size_values]
  exact Shape.offset_lt_size h

/-- A grid has an element at every member of its shape. -/
theorem exists_element?_eq_some (h : p ∈ g.shape) : ∃ v, g.element? p = some v := by
  rw [element?_of_mem h, Array.getElem?_eq_getElem (offset_lt_size_values h)]
  exact ⟨_, rfl⟩

/-- A grid has an element at no other multi-index. -/
theorem mem_of_element?_eq_some {v : α} (h : g.element? p = some v) : p ∈ g.shape := by
  by_cases hp : p ∈ g.shape
  · exact hp
  · rw [element?_of_not_mem hp] at h
    cases h

/-- Grids of one shape have stores of one size. -/
theorem size_values_congr {a b : Grid α} (h : a.shape = b.shape) :
    a.values.size = b.values.size := by
  rw [a.size_values, h, ← b.size_values]

/-- Two grids of one shape with the same elements are the same grid. -/
theorem ext_element? {a b : Grid α} (hshape : a.shape = b.shape)
    (h : ∀ p ∈ a.shape, a.element? p = b.element? p) : a = b := by
  apply Grid.ext hshape
  apply Array.ext_getElem?
  intro i
  by_cases hi : i < a.shape.size
  · -- every position of the store belongs to a member
    obtain ⟨p, hp, hoff⟩ := Shape.exists_offset_eq hi
    have helem := h p hp
    rw [element?_of_mem hp, element?_of_mem (hshape ▸ hp), ← hshape, hoff] at helem
    exact helem
  · have ha : a.values.size ≤ i := by rw [a.size_values]; exact Nat.le_of_not_lt hi
    have hb : b.values.size ≤ i := by rw [b.size_values, ← hshape]; exact Nat.le_of_not_lt hi
    rw [Array.getElem?_eq_none ha, Array.getElem?_eq_none hb]

/-! ## By flat position -/

theorem getAt_offset {v : α} (h : g.element? p = some v) : g.getAt (g.shape.offset p) = .ok v := by
  rw [element?_of_mem (mem_of_element?_eq_some h)] at h
  rw [getAt, h]

theorem setAt_offset (h : p ∈ g.shape) (v : α) :
    g.setAt (g.shape.offset p) v = .ok (g.put (g.shape.offset p) v) :=
  if_pos (offset_lt_size_values h)

/-- A write at the position of a multi-index changes the element there and no other. -/
theorem element?_put_offset (h : p ∈ g.shape) (v : α) (t : Index) :
    (g.put (g.shape.offset p) v).element? t = if t = p then some v else g.element? t := by
  by_cases ht : t ∈ g.shape
  · have ht' : t ∈ (g.put (g.shape.offset p) v).shape := ht
    rw [element?_of_mem ht', element?_of_mem ht, shape_put, values_put,
      Array.getElem?_setIfInBounds]
    by_cases htp : t = p
    · rw [if_pos htp, htp, if_pos rfl, if_pos (offset_lt_size_values h)]
    · have hne : g.shape.offset p ≠ g.shape.offset t :=
        fun heq => htp (Shape.offset_injective ht h heq.symm)
      rw [if_neg htp, if_neg hne]
  · have ht' : t ∉ (g.put (g.shape.offset p) v).shape := ht
    have htp : t ≠ p := by
      rintro rfl
      exact ht h
    rw [element?_of_not_mem ht', element?_of_not_mem ht, if_neg htp]

/-! ## By multi-index -/

section Fits

variable (hfit : g.shape.size < Word.bound)

include hfit

theorem positionOf_eq_ok (h : p ∈ g.shape) : g.positionOf p = .ok (g.shape.offset p) := by
  rw [positionOf, if_pos h, g.strides_eq]
  exact position_strides_eq_offset h hfit

theorem get_eq_ok {v : α} (h : g.element? p = some v) : g.get p = .ok v := by
  rw [get, positionOf_eq_ok hfit (mem_of_element?_eq_some h)]
  exact getAt_offset h

/-- The safe reading is the element in exact arithmetic. -/
theorem lookup_eq_ok (p : Index) : g.lookup p = .ok (g.element? p) := by
  by_cases hp : p ∈ g.shape
  · obtain ⟨v, hv⟩ := exists_element?_eq_some hp
    rw [lookup, if_pos hp, get_eq_ok hfit hv, hv]
    rfl
  · rw [lookup, if_neg hp, element?_of_not_mem hp]

theorem set_eq_ok (h : p ∈ g.shape) (v : α) : g.set p v = .ok (g.put (g.shape.offset p) v) := by
  rw [set, positionOf_eq_ok hfit h]
  exact setAt_offset h v

end Fits

end LatticeGrid.Grid
