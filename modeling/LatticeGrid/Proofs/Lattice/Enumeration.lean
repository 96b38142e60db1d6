import LatticeGrid.Proofs.Lattice.IntersectionLaws
import Mathlib.Data.List.Basic

/-!
# The points of a box in order

A box is described in four ways: by the points that it contains, by the points that it lists, by their
number and by whether it is empty. The first two agree for every box whose corner and lengths have one rank,
since both go up to the bound that is held at the edge of the lattice; the points come in lexicographic
order, so no point comes twice. The other two look at the lengths alone, and they agree with the first two
as long as the box ends on the lattice (`Box.map_count_run`).

A product of runs is a copy of the multi-indices below the counts of the runs, moved to where each run
begins (`Run.product_eq_map_indicesOf`); what is known of multi-indices carries over. Listing the first
points alone gives a front part of the same list (`Run.firstOfProduct_eq_take`).

Main statement: `Box.points_enumerates`.
-/

set_option autoImplicit false

namespace LatticeGrid

namespace Run

/-! ## The product of runs -/

/-- The list of coordinates with the given numbers in the runs. -/
def coordsAt (runs : List Run) (q : Index) : List Coord :=
  List.zipWith (fun r (i : Nat) => Coord.clamp (r.first.val + i)) runs q

/-- The product of runs is in the order of the multi-indices below their counts. -/
theorem product_eq_map_indicesOf (runs : List Run) :
    product runs = (Shape.indicesOf (runs.map (·.count))).map (coordsAt runs) := by
  induction runs with
  | nil => rfl
  | cons r runs ih =>
      rw [product, values, ih, List.map_cons, Shape.indicesOf, List.flatMap_map, List.map_flatMap]
      simp only [List.map_map]
      rfl

theorem length_product (runs : List Run) :
    (product runs).length = Shape.size ⟨runs.map (·.count)⟩ := by
  rw [product_eq_map_indicesOf, List.length_map]
  exact Shape.length_indices ⟨runs.map (·.count)⟩

/-- The coordinates of a run grow: none of them is held at the edge of the lattice. -/
theorem pairwise_lt_values_between (lower upper : Coord) :
    (between lower upper).values.Pairwise (· < ·) := by
  have hlower := lower.lower
  have hupper := upper.upper
  rw [values, List.pairwise_map]
  refine List.pairwise_lt_range.imp_of_mem ?_
  intro i j _ hj hij
  have hj : j < (upper.val - lower.val).toNat := List.mem_range.1 hj
  rw [Coord.lt_def, Coord.val_clamp, Coord.val_clamp]
  show max (-9223372036854775808) (min (lower.val + i) 9223372036854775807) <
    max (-9223372036854775808) (min (lower.val + j) 9223372036854775807)
  omega

theorem pairwise_lt_product {runs : List Run} (h : ∀ r ∈ runs, r.values.Pairwise (· < ·)) :
    (product runs).Pairwise (· < ·) := by
  induction runs with
  | nil => exact List.pairwise_singleton _ _
  | cons r runs ih =>
      simp only [List.mem_cons, forall_eq_or_imp] at h
      exact pairwise_lt_flatMap_cons h.1 (ih h.2)

/-! ## The first members of a product -/

theorem firstValues_eq_take (r : Run) (limit : Nat) : r.firstValues limit = r.values.take limit := by
  rw [firstValues, values, ← List.map_take, List.take_range, Nat.min_comm]

/-- Blocks of one size are cut off as a whole. -/
theorem take_mul_flatMap {α β : Type} {f : α → List β} {size : Nat} (hf : ∀ a, (f a).length = size)
    (l : List α) (k : Nat) : (l.flatMap f).take (k * size) = (l.take k).flatMap f := by
  induction k generalizing l with
  | zero => simp
  | succ k ih =>
      cases l with
      | nil => simp
      | cons a l =>
          rw [List.flatMap_cons, List.take_succ_cons, List.flatMap_cons, ← ih l, Nat.succ_mul,
            Nat.add_comm, ← hf a, List.take_length_add_append]

/-- Blocks that begin alike, up to the limit, give the same first members up to the limit. -/
theorem take_flatMap_cons_take {limit : Nat} (heads : List Coord) (rows : List (List Coord)) :
    (heads.flatMap fun c => (rows.take limit).map (c :: ·)).take limit =
      (heads.flatMap fun c => rows.map (c :: ·)).take limit := by
  cases heads with
  | nil => rfl
  | cons c heads =>
      rcases Nat.le_total limit rows.length with hle | hle
      · -- the first block is long enough
        have hlen : ((rows.take limit).map (c :: ·)).length = limit := by
          rw [List.length_map, List.length_take, Nat.min_eq_left hle]
        rw [List.flatMap_cons, List.flatMap_cons, List.take_append_of_le_length (Nat.le_of_eq hlen.symm),
          List.take_append_of_le_length (by rwa [List.length_map]), List.take_of_length_le
          (Nat.le_of_eq hlen), List.map_take]
      · rw [List.take_of_length_le hle]

/-- What is listed up to a limit is a front part of the whole product. -/
theorem firstOfProduct_eq_take (limit : Nat) (runs : List Run) :
    firstOfProduct limit runs = (product runs).take limit := by
  induction runs with
  | nil => rfl
  | cons r runs ih =>
      rw [firstOfProduct, ih, product, ← take_flatMap_cons_take]
      cases hinner : (product runs).take limit with
      | nil => simp
      | cons p inner =>
          -- enough blocks to reach the limit
          have hblocks : limit ≤ (limit / (p :: inner).length + 1) * (p :: inner).length := by
            have hdiv := Nat.div_add_mod limit (p :: inner).length
            have hmod := Nat.mod_lt limit (List.length_pos_of_ne_nil (List.cons_ne_nil p inner))
            rw [Nat.succ_mul, Nat.mul_comm]
            omega
          dsimp only
          rw [firstValues_eq_take, ← take_mul_flatMap (fun c => List.length_map _), List.take_take,
            Nat.min_eq_left hblocks]

end Run

instance : Std.Irrefl fun a b : Coord => a < b := ⟨fun c => Int.lt_irrefl c.val⟩

namespace Interval

/-- The coordinates of an interval. -/
def run (i : Interval) : Run := Run.between i.corner i.upper

/-- An interval that ends on the lattice has as many coordinates as its length says. -/
theorem count_run {i : Interval} (h : i.corner.val + max i.side.val 0 ≤ 9223372036854775807) :
    i.run.count = i.side.toNat := by
  show (i.upper.val - i.corner.val).toNat = i.side.val.toNat
  rw [val_upper]
  omega

end Interval

namespace Box

/-! ## What a box lists -/

section Axes

variable (axes : List Interval)

theorem runs_ofIntervals : (ofIntervals axes).runs = .ok (axes.map Interval.run) := by
  rw [runs_eq_ok (upper_ofIntervals axes)]
  exact congrArg Except.ok (List.zipWith_map.trans List.zipWith_self)

theorem points_ofIntervals :
    (ofIntervals axes).points = .ok ((Run.product (axes.map Interval.run)).map Point.mk) := by
  rw [points_eq_ok (upper_ofIntervals axes)]
  exact congrArg (fun runs => Except.ok ((Run.product runs).map Point.mk))
    (List.zipWith_map.trans List.zipWith_self)

/-- The points up to a limit are a front part of the points, and they are all of them when the limit is
not exceeded. -/
theorem firstPoints_ofIntervals (limit : Nat) :
    (ofIntervals axes).firstPoints limit =
      .ok (((Run.product (axes.map Interval.run)).map Point.mk).take limit,
        decide (((Run.product (axes.map Interval.run)).map Point.mk).length ≤ limit)) := by
  rw [firstPoints, runs_ofIntervals]
  simp only [bind, Except.bind]
  split
  · next hempty =>
      rw [Run.product_eq_nil hempty, List.map_nil, List.take_nil, List.length_nil,
        decide_eq_true (Nat.zero_le limit)]
      rfl
  · rw [List.length_map, Run.length_product, Run.firstOfProduct_eq_take, List.map_take]
    rfl

/-- The points come in lexicographic order. -/
theorem pairwise_lt_points :
    ((Run.product (axes.map Interval.run)).map Point.mk).Pairwise fun p q => p.coords < q.coords := by
  rw [List.pairwise_map]
  apply Run.pairwise_lt_product
  rw [List.forall_mem_map]
  exact fun i _ => Run.pairwise_lt_values_between i.corner i.upper

end Axes

/-- The lengths below zero count as zero, for the shape of a box as for the question whether it is
empty. -/
theorem isEmpty_unsignedShape (b : Box) : b.unsignedShape.isEmpty = b.isEmpty := by
  rw [Shape.isEmpty, unsignedShape, Point.toIndex, List.any_map, isEmpty]
  refine List.any_congr rfl fun c => ?_
  rw [Bool.eq_iff_iff]
  simp only [Function.comp_apply, beq_iff_eq, decide_eq_true_eq, Coord.toNat]
  omega

/-- A box that ends on the lattice has as many coordinates on each axis as its lengths say. -/
theorem map_count_run {axes : List Interval} (h : (ofIntervals axes).EndsOnLattice) :
    (axes.map Interval.run).map (·.count) = (ofIntervals axes).unsignedShape.lengths := by
  rw [endsOnLattice_ofIntervals_iff] at h
  show _ = (axes.map (·.side)).map Coord.toNat
  rw [List.map_map, List.map_map]
  exact List.map_congr_left fun i hi => Interval.count_run (h i hi)

/-- A box whose corner and lengths have one rank lists exactly the points that it contains, each once and
in lexicographic order, and the first of them up to any limit. If it ends on the lattice, it is empty
exactly when it lists nothing, and the number of points that its lengths ask for is the number of points
listed, whenever it fits a word. -/
theorem points_enumerates (b : Box) (h : b.corner.rank = b.sides.rank) :
    ∃ ps, b.points = .ok ps ∧ (∀ p, b.contains p = .ok (decide (p ∈ ps))) ∧ ps.Nodup ∧
      (ps.Pairwise fun p q => p.coords < q.coords) ∧
      (∀ limit, b.firstPoints limit = .ok (ps.take limit, decide (ps.length ≤ limit))) ∧
      (b.EndsOnLattice →
        (b.isEmpty = true ↔ ps = []) ∧ ∀ n, b.pointCount = .ok n → n = ps.length) := by
  obtain ⟨ps, hps, hmem⟩ := exists_points_eq_ok h
  obtain ⟨axes, -, rfl⟩ := exists_eq_ofIntervals h
  obtain rfl := Except.ok.inj ((points_ofIntervals axes).symm.trans hps)
  have hordered := pairwise_lt_points axes
  refine ⟨_, hps, ?_, ?_, hordered, firstPoints_ofIntervals axes, ?_⟩
  · intro p
    obtain ⟨answer, hanswer, -⟩ := exists_contains_eq_ok axes p
    have hlisted := hmem p
    rw [hanswer, Except.ok.injEq] at hlisted ⊢
    rw [Bool.eq_iff_iff, decide_eq_true_iff]
    exact hlisted.symm
  · -- a point that came twice would come before itself
    apply hordered.imp
    rintro p q hlt rfl
    exact List.lt_irrefl p.coords hlt
  · intro hends
    have hlength : ((Run.product (axes.map Interval.run)).map Point.mk).length =
        (ofIntervals axes).unsignedShape.size := by
      rw [List.length_map, Run.length_product, map_count_run hends]
    constructor
    · rw [← isEmpty_unsignedShape, Shape.isEmpty_iff_size_eq_zero, ← hlength, List.length_eq_zero_iff]
    · intro n hn
      exact (Shape.pointCount_eq_ok hn).trans hlength.symm

/-- A box that reaches past the far edge of the lattice on its outer axis, where only two of nine coordinates
are left; and a box that ends on the lattice, with the number of its points. -/
theorem points_enumerates_at_edge :
    (∃ ps, (Box.mk ⟨[Coord.clamp 9223372036854775805, Coord.clamp (-1)]⟩
        ⟨[Coord.clamp 9, Coord.clamp 2]⟩).points = .ok ps ∧
      Point.mk [Coord.clamp 9223372036854775806, Coord.clamp 0] ∈ ps ∧
      Point.mk [Coord.clamp 9223372036854775807, Coord.clamp 0] ∉ ps ∧ ps.Nodup) ∧
    ∃ ps, (Box.mk ⟨[Coord.clamp (-1), Coord.clamp 0]⟩ ⟨[Coord.clamp 2, Coord.clamp 3]⟩).points =
      .ok ps ∧ ps ≠ [] ∧ 6 = ps.length := by
  constructor
  · obtain ⟨ps, hps, hcontains, hnodup, -⟩ :=
      points_enumerates ⟨⟨[Coord.clamp 9223372036854775805, Coord.clamp (-1)]⟩,
        ⟨[Coord.clamp 9, Coord.clamp 2]⟩⟩ rfl
    refine ⟨ps, hps, ?_, ?_, hnodup⟩
    · exact of_decide_eq_true (Except.ok.inj ((hcontains _).symm.trans rfl))
    · exact of_decide_eq_false (Except.ok.inj ((hcontains _).symm.trans rfl))
  · obtain ⟨ps, hps, -, -, -, -, hends⟩ :=
      points_enumerates ⟨⟨[Coord.clamp (-1), Coord.clamp 0]⟩, ⟨[Coord.clamp 2, Coord.clamp 3]⟩⟩ rfl
    obtain ⟨hempty, hcount⟩ := hends (by decide)
    exact ⟨ps, hps, fun hnil => Bool.noConfusion (hempty.2 hnil), hcount 6 rfl⟩

end Box

end LatticeGrid
