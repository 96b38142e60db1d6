import LatticeGrid.Grid.Basic
import LatticeGrid.Lattice.Point

/-!
# Placed grids

A source grid is placed in the local coordinates of a target by the offset of its origin. This file
says which multi-index of the source lies at a multi-index of the target, and which value the source
brings there, in unbounded integers and one multi-index at a time. It is what a copy is to do, without
the rows, the clipping and the words with which a copy does it.

Main statement: `placedIndex?_eq_some_iff`, the answer is the one multi-index that the offset carries
to the multi-index of the target.
-/

set_option autoImplicit false

namespace LatticeGrid

/-- The multi-index that an offset carries to `t`: `t` minus the offset, if no coordinate of it is
negative. -/
def placedIndex? : (offset : List Coord) → (t : Index) → Option Index
  | [], [] => some []
  | o :: offset, n :: t =>
      if o.val ≤ n then (placedIndex? offset t).map ((n - o.val).toNat :: ·) else none
  | _, _ => none

/-- The value that a source, placed at an offset, has at a multi-index of the target. -/
def Grid.placed? {α : Type} (source : Grid α) (offset : Point) (t : Index) : Option α :=
  (placedIndex? offset.coords t).bind source.element?

/-- The multi-index found is the one whose sum with the offset is the multi-index of the target. -/
theorem placedIndex?_eq_some_iff {offset : List Coord} {t s : Index} :
    placedIndex? offset t = some s ↔
      s.length = offset.length ∧
        List.zipWith (fun (o : Coord) (m : Nat) => o.val + m) offset s = t.map Int.ofNat := by
  induction offset generalizing t s with
  | nil =>
      cases t with
      | nil => cases s <;> simp [placedIndex?]
      | cons n t => simp [placedIndex?]
  | cons o offset ih =>
      cases t with
      | nil => cases s <;> simp [placedIndex?]
      | cons n t =>
          cases s with
          | nil => simp [placedIndex?]
          | cons m s =>
              have hhead : o.val ≤ n ∧ (n - o.val).toNat = m ↔ o.val + m = Int.ofNat n := by
                rw [Int.ofNat_eq_natCast]
                omega
              simp only [placedIndex?, List.length_cons, List.zipWith_cons_cons, List.map_cons,
                List.cons.injEq, Nat.add_right_cancel_iff]
              split
              · next h =>
                  simp only [Option.map_eq_some_iff, List.cons.injEq, ih, ← hhead, h, true_and]
                  constructor
                  · rintro ⟨s', ⟨hlen, hsum⟩, hm, rfl⟩
                    exact ⟨hlen, hm, hsum⟩
                  · rintro ⟨hlen, hm, hsum⟩
                    exact ⟨s, ⟨hlen, hsum⟩, hm, rfl⟩
              · next h =>
                  simp only [reduceCtorEq, false_iff]
                  rintro ⟨-, hm, -⟩
                  exact h (hhead.2 hm).1

end LatticeGrid
