import LatticeGrid.Proofs.Grid.Element
import Mathlib.Data.List.Forall2

/-!
# Reading and writing single elements

A multi-index of a grid is turned into a flat position, and the store is read or written there. The sum
that gives the position never leaves its word, since the position lies in a store whose own length is a
word; and no two multi-indices share a position, so a write at one of them shows at no other. Both hold
because the strides are exact where a grid has elements at all. Outside of the grid the failing kind of
access fails before any position is computed, and the other kind answers that there is nothing.

Main statement: `Grid.access_laws`.
-/

set_option autoImplicit false

namespace LatticeGrid

/-- A multi-index lies in a shape when each of its coordinates lies below the length of its axis. -/
theorem Shape.mem_iff_forall₂ {s : Shape} {p : Index} : p ∈ s ↔ List.Forall₂ (· < ·) p s.lengths := by
  rw [List.forall₂_iff_zip]
  constructor
  · rintro ⟨hlen, hall⟩
    exact ⟨hlen, fun h => hall _ h⟩
  · rintro ⟨hlen, hall⟩
    exact ⟨hlen, fun q hq => hall hq⟩

namespace Grid

variable {α : Type} {g : Grid α} {p : Index}

/-! ## Outside of the grid -/

section Outside

variable (h : p ∉ g.shape)

include h

theorem positionOf_of_not_mem : g.positionOf p = .error (.indexOutOfBounds p g.shape) := if_neg h

theorem get_of_not_mem : g.get p = .error (.indexOutOfBounds p g.shape) := by
  rw [get, positionOf_of_not_mem h]
  rfl

theorem set_of_not_mem (x : α) : g.set p x = .error (.indexOutOfBounds p g.shape, g) := by
  rw [set, positionOf_of_not_mem h]
  rfl

/-- What is not there is not written either. -/
theorem exchange_of_not_mem (x : α) : g.exchange p x = .ok (none, g) := if_neg h

end Outside

/-! ## Inside of the grid -/

section Fits

variable (hfit : g.shape.size < Word.bound)

include hfit

/-- The flat position of a member is the sum of its coordinates times the strides, and the element is
stored there. -/
theorem getAt_exactPosition {v : α} (h : g.element? p = some v) :
    position g.strides p = .ok (exactPosition g.strides p) ∧
      g.getAt (exactPosition g.strides p) = .ok v := by
  have hp := mem_of_element?_eq_some h
  have hexact : exactPosition g.shape.strides p = g.shape.offset p :=
    exactPosition_stridesOf (Shape.pos_of_mem hp) hfit
  rw [g.strides_eq, hexact]
  exact ⟨position_strides_eq_offset hp hfit, getAt_offset h⟩

/-- The safe writing answers the element that was there. -/
theorem exchange_eq_ok {v : α} (h : g.element? p = some v) (x : α) :
    g.exchange p x = .ok (some v, g.put (g.shape.offset p) x) := by
  have hp := mem_of_element?_eq_some h
  rw [exchange, if_pos hp, get_eq_ok hfit h, set_eq_ok hfit hp]
  rfl

/-- Reading depends on the shape and on the element and on nothing else. -/
theorem get_congr {b : Grid α} (hshape : b.shape = g.shape) (h : b.element? p = g.element? p) :
    b.get p = g.get p := by
  by_cases hp : p ∈ g.shape
  · obtain ⟨v, hv⟩ := exists_element?_eq_some hp
    rw [get_eq_ok hfit hv, get_eq_ok (hshape ▸ hfit) (h.trans hv)]
  · have hpb : p ∉ b.shape := hshape ▸ hp
    rw [get_of_not_mem hp, get_of_not_mem hpb, hshape]

/-- After a write the multi-index that was written reads as the new value, and every other multi-index
reads as before. -/
theorem read_put_offset (h : p ∈ g.shape) (x : α) :
    (g.put (g.shape.offset p) x).get p = .ok x ∧
      (g.put (g.shape.offset p) x).lookup p = .ok (some x) ∧
      ∀ q, q ≠ p → (g.put (g.shape.offset p) x).get q = g.get q ∧
        (g.put (g.shape.offset p) x).lookup q = g.lookup q := by
  have helement := element?_put_offset h x
  have hput : (g.put (g.shape.offset p) x).shape.size < Word.bound := hfit
  have hself : (g.put (g.shape.offset p) x).element? p = some x := (helement p).trans (if_pos rfl)
  refine ⟨get_eq_ok hput hself, (lookup_eq_ok hput p).trans (congrArg Except.ok hself), ?_⟩
  intro q hq
  have hother : (g.put (g.shape.offset p) x).element? q = g.element? q :=
    (helement q).trans (if_neg hq)
  refine ⟨get_congr hfit rfl hother, ?_⟩
  rw [lookup_eq_ok hput, lookup_eq_ok hfit, hother]

end Fits

/-! ## The laws -/

/-- In a grid whose store has a length that is a word, safe reading and writing never fail, and they find
something exactly at the multi-indices that have one coordinate for each axis, below its length. Everywhere
else direct reading and writing fail, and say which multi-index is out of bounds of which shape. Where
there is an element, all ways to read give it, also the one by the sum of coordinates times strides, and
both ways to write make the same grid: it reads as the new value at the multi-index that was written and as
before at every other one. -/
theorem access_laws (g : Grid α) (hstore : g.values.size < Word.bound) (p : Index) :
    (¬ List.Forall₂ (· < ·) p g.shape.lengths →
      g.lookup p = .ok none ∧ g.get p = .error (.indexOutOfBounds p g.shape) ∧
      ∀ x, g.exchange p x = .ok (none, g) ∧ g.set p x = .error (.indexOutOfBounds p g.shape, g)) ∧
    (List.Forall₂ (· < ·) p g.shape.lengths →
      ∃ v, g.lookup p = .ok (some v) ∧ g.get p = .ok v ∧
        position g.strides p = .ok (exactPosition g.strides p) ∧
        g.getAt (exactPosition g.strides p) = .ok v ∧
        ∀ x, ∃ next, g.exchange p x = .ok (some v, next) ∧ g.set p x = .ok next ∧
          next.shape = g.shape ∧ next.get p = .ok x ∧ next.lookup p = .ok (some x) ∧
          ∀ q, q ≠ p → next.get q = g.get q ∧ next.lookup q = g.lookup q) := by
  rw [← Shape.mem_iff_forall₂]
  have hfit : g.shape.size < Word.bound := g.size_values ▸ hstore
  constructor
  · intro hp
    refine ⟨?_, get_of_not_mem hp, fun x => ⟨exchange_of_not_mem hp x, set_of_not_mem hp x⟩⟩
    rw [lookup_eq_ok hfit, element?_of_not_mem hp]
  · intro hp
    obtain ⟨v, hv⟩ := exists_element?_eq_some hp
    obtain ⟨hposition, hgetAt⟩ := getAt_exactPosition hfit hv
    refine ⟨v, (lookup_eq_ok hfit p).trans (congrArg Except.ok hv), get_eq_ok hfit hv, hposition,
      hgetAt, ?_⟩
    intro x
    exact ⟨_, exchange_eq_ok hfit hv x, set_eq_ok hfit hp x, rfl, read_put_offset hfit hp x⟩

/-- Two rows of three elements, where the flat positions of `[1, 0]` and `[0, 3]` would be the same. -/
theorem access_laws_two_rows :
    (∃ next, (⟨⟨[2, 3]⟩, [3, 1], #[10, 11, 12, 13, 14, 15], rfl, rfl⟩ : Grid Nat).set [1, 0] 7 = .ok next ∧
      next.get [1, 0] = .ok 7 ∧ next.get [0, 2] = .ok 12 ∧ next.lookup [0, 3] = .ok none) ∧
    (⟨⟨[2, 3]⟩, [3, 1], #[10, 11, 12, 13, 14, 15], rfl, rfl⟩ : Grid Nat).get [0, 3] =
      .error (.indexOutOfBounds [0, 3] ⟨[2, 3]⟩) := by
  constructor
  · obtain ⟨v, -, -, -, -, hwrite⟩ :=
      (access_laws (⟨⟨[2, 3]⟩, [3, 1], #[10, 11, 12, 13, 14, 15], rfl, rfl⟩ : Grid Nat) (by decide) [1, 0]).2
        (Shape.mem_iff_forall₂.1 (by decide : [1, 0] ∈ (⟨[2, 3]⟩ : Shape)))
    obtain ⟨next, -, hset, -, hself, -, hother⟩ := hwrite 7
    exact ⟨next, hset, hself, (hother [0, 2] (by decide)).1, (hother [0, 3] (by decide)).2⟩
  · have houtside : [0, 3] ∉ (⟨[2, 3]⟩ : Shape) := by decide
    exact ((access_laws (⟨⟨[2, 3]⟩, [3, 1], #[10, 11, 12, 13, 14, 15], rfl, rfl⟩ : Grid Nat) (by decide) [0, 3]).1
      fun h => houtside (Shape.mem_iff_forall₂.2 h)).2.1

end Grid

end LatticeGrid
