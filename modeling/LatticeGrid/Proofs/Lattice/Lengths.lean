import LatticeGrid.Lattice.Box.Basic
import Mathlib.Algebra.Group.Nat.Defs

/-!
# Lengths as coordinates

A length or an index below `2^63` is a coordinate of the lattice. `coordsOf` takes a list of them to the
lattice; a shape is such a point exactly as long as none of its axes is longer.

Main statements: `Shape.toPoint_eq_ok` and `Shape.exists_toPoint_eq_error`.
-/

set_option autoImplicit false

namespace LatticeGrid

theorem Coord.val_clamp_natCast {n : Nat} (h : n < 2 ^ 63) : (Coord.clamp n).val = n := by
  have hval := Coord.val_clamp (n : Int)
  omega

theorem Shape.signedLength_eq_ok {n : Nat} (axis : Nat) (h : n < 2 ^ 63) :
    Shape.signedLength axis n = .ok (Coord.clamp n) := by
  have hlt : n < 9223372036854775808 := h
  rw [Shape.signedLength, dif_pos hlt]
  exact congrArg Except.ok (Coord.ext (Coord.val_clamp_natCast h).symm)

/-- The point of a list of lengths. -/
def coordsOf (ls : List Nat) : List Coord := ls.map fun (n : Nat) => Coord.clamp n

/-- A shape whose axes fit the lattice is a lattice point. -/
theorem Shape.toPoint_eq_ok {s : Shape} (h : ∀ n ∈ s.lengths, n < 2 ^ 63) :
    s.toPoint = .ok ⟨coordsOf s.lengths⟩ := by
  have hmapM : ∀ (ls : List Nat) (start : Nat), (∀ n ∈ ls, n < 2 ^ 63) →
      (ls.zipIdx start).mapM (fun q => Shape.signedLength q.2 q.1) = .ok (coordsOf ls) := by
    intro ls
    induction ls with
    | nil => exact fun _ _ => rfl
    | cons n ls ih =>
        intro start hls
        simp only [List.mem_cons, forall_eq_or_imp] at hls
        rw [List.zipIdx_cons, List.mapM_cons, Shape.signedLength_eq_ok start hls.1,
          ih (start + 1) hls.2]
        rfl
  rw [Shape.toPoint, hmapM s.lengths 0 h]
  rfl

/-- A shape with an axis that is too long for the lattice is no point of it. -/
theorem Shape.exists_toPoint_eq_error {s : Shape} (h : ∃ n ∈ s.lengths, 2 ^ 63 ≤ n) :
    ∃ axis length, s.toPoint = .error (.axisTooLong axis length) := by
  have hmapM : ∀ (ls : List Nat) (start : Nat), (∃ n ∈ ls, 2 ^ 63 ≤ n) →
      ∃ axis length, (ls.zipIdx start).mapM (fun q => Shape.signedLength q.2 q.1) =
        .error (.axisTooLong axis length) := by
    intro ls
    induction ls with
    | nil => simp
    | cons n ls ih =>
        intro start hlong
        rw [List.zipIdx_cons, List.mapM_cons]
        by_cases hn : n < 2 ^ 63
        · -- this axis fits, so it is an inner one that does not
          rcases hlong with ⟨m, hm, hle⟩
          rcases List.mem_cons.1 hm with rfl | hm
          · exact absurd hn (Nat.not_lt.2 hle)
          · obtain ⟨axis, length, herror⟩ := ih (start + 1) ⟨m, hm, hle⟩
            refine ⟨axis, length, ?_⟩
            rw [Shape.signedLength_eq_ok start hn, herror]
            rfl
        · refine ⟨start, n, ?_⟩
          have herror : Shape.signedLength start n = .error (.axisTooLong start n) := dif_neg hn
          exact herror ▸ rfl
  obtain ⟨axis, length, herror⟩ := hmapM s.lengths 0 h
  refine ⟨axis, length, ?_⟩
  rw [Shape.toPoint, herror]
  rfl

/-! ## Multi-indices as points -/

theorem toIndex_coordsOf {t : Index} (ht : ∀ n ∈ t, n < 2 ^ 63) :
    (Point.mk (coordsOf t)).toIndex = t := by
  show (t.map _).map _ = t
  rw [List.map_map]
  refine (List.map_congr_left fun n hn => ?_).trans (List.map_id t)
  show (Coord.clamp n).val.toNat = n
  rw [Coord.val_clamp_natCast (ht n hn), Int.toNat_natCast]

theorem hasNegative_coordsOf {t : Index} (ht : ∀ n ∈ t, n < 2 ^ 63) :
    (Point.mk (coordsOf t)).hasNegative = false := by
  rw [Point.hasNegative, coordsOf, List.any_map, List.any_eq_false]
  intro n hn
  show ¬ decide ((Coord.clamp n).val < 0) = true
  rw [Coord.val_clamp_natCast (ht n hn), decide_eq_true_eq]
  omega

/-- Lengths are not negative. -/
theorem clampNegative_coordsOf (ls : List Nat) :
    (Point.mk (coordsOf ls)).clampNegative = ⟨coordsOf ls⟩ := by
  rw [Point.clampNegative, Point.map, coordsOf, List.map_map]
  apply congrArg Point.mk
  apply List.map_congr_left
  intro n _
  apply Coord.ext
  show (max Coord.zero (Coord.clamp n)).val = (Coord.clamp n).val
  rw [Coord.val_max, Coord.val_zero, Coord.val_clamp]
  omega

end LatticeGrid
