import LatticeGrid.Proofs.Lattice.Enumeration
import LatticeGrid.Proofs.Layout.Visit

/-!
# Visiting the part of a box in an array

A box of any place in the lattice is visited where it lies in an array. The part that is visited is an
intersection of boxes, and its corner, which is never negative, is read as a multi-index. Two enumerations
meet here: the points of the part on the lattice, a product of runs of signed coordinates, and the calls of
the visit, which steps over multi-indices and carries a position along. They are the same list
(`Box.points_inter_ofShape`), also where the part is empty and its corner lies far outside the array.

Main statement: `Visit.calls_clipped_eq_points`.
-/

set_option autoImplicit false

namespace LatticeGrid

/-! ## The points of the part -/

theorem map_val_coordsOf {t : Index} (ht : ∀ n ∈ t, n < 2 ^ 63) :
    (coordsOf t).map Coord.val = t.map Int.ofNat := by
  rw [coordsOf, List.map_map]
  exact List.map_congr_left fun n hn => Coord.val_clamp_natCast (ht n hn)

namespace Box

variable {axes : List Interval}

/-- From a corner that is not negative on, numbers in the runs are steps of multi-indices. -/
theorem coordsAt_runs (hcorner : ∀ i ∈ axes, 0 ≤ i.corner.val) (q : Index) :
    Run.coordsAt (axes.map Interval.run) q =
      coordsOf (addIndex (ofIntervals axes).corner.toIndex q) := by
  induction axes generalizing q with
  | nil => rfl
  | cons i axes ih =>
      cases q with
      | nil => rfl
      | cons c q =>
          simp only [List.mem_cons, forall_eq_or_imp] at hcorner
          have hsum : i.corner.val + (c : Int) = ((i.corner.toNat + c : Nat) : Int) := by
            have hnonneg := hcorner.1
            rw [Coord.toNat]
            omega
          exact congrArg₂ List.cons (congrArg Coord.clamp hsum) (ih hcorner.2 q)

/-- A box that begins at a multi-index and ends on the lattice has its places as points. -/
theorem points_eq_map_places (hcorner : ∀ i ∈ axes, 0 ≤ i.corner.val)
    (hends : (ofIntervals axes).EndsOnLattice) :
    (ofIntervals axes).points = .ok ((ofIntervals axes).places.map fun t => ⟨coordsOf t⟩) := by
  rw [points_ofIntervals, Run.product_eq_map_indicesOf, map_count_run hends, places, List.map_map,
    List.map_map]
  refine congrArg Except.ok (List.map_congr_left fun q _ => ?_)
  exact congrArg Point.mk (coordsAt_runs hcorner q)

/-! ## The points of an array -/

/-- The box of a shape contains the multi-indices of the shape. -/
theorem forall₂_contains_whole_iff {lengths : List Nat} (hfit : ∀ n ∈ lengths, n < 2 ^ 63)
    {p : List Coord} :
    List.Forall₂ Interval.Contains (lengths.map Interval.whole) p ↔
      ∃ t ∈ (⟨lengths⟩ : Shape), p.map Coord.val = t.map Int.ofNat := by
  induction lengths generalizing p with
  | nil =>
      rw [List.map_nil, List.forall₂_nil_left_iff]
      constructor
      · rintro rfl
        exact ⟨[], Shape.nil_mem_nil, rfl⟩
      · rintro ⟨t, ht, heq⟩
        rw [List.eq_nil_of_length_eq_zero ht.1] at heq
        exact List.map_eq_nil_iff.1 heq
  | cons n lengths ih =>
      simp only [List.mem_cons, forall_eq_or_imp] at hfit
      cases p with
      | nil =>
          constructor
          · intro h
            cases h
          · rintro ⟨t, ht, heq⟩
            rw [List.map_eq_nil_iff.1 heq.symm] at ht
            exact absurd ht (Shape.not_nil_mem_cons n lengths)
      | cons c p =>
          rw [List.map_cons, List.forall₂_cons, ih hfit.2, Interval.Contains, Coord.le_def, Coord.lt_def,
            Interval.val_upper_whole hfit.1]
          constructor
          · rintro ⟨⟨hlow, hupp⟩, t, ht, heq⟩
            have hlow : 0 ≤ c.val := hlow
            refine ⟨c.toNat :: t, Shape.cons_mem_cons.2 ⟨?_, ht⟩, ?_⟩
            · rw [Coord.toNat]
              omega
            · rw [List.map_cons, List.map_cons, heq, Coord.toNat, Int.ofNat_eq_natCast,
                Int.toNat_of_nonneg hlow]
          · rintro ⟨t, ht, heq⟩
            cases t with
            | nil => cases heq
            | cons m t =>
                rcases Shape.cons_mem_cons.1 ht with ⟨hm, ht⟩
                rcases List.cons_eq_cons.1 heq with ⟨hc, heq⟩
                rw [hc]
                exact ⟨⟨Int.natCast_nonneg m, Int.ofNat_lt.2 hm⟩, t, ht, heq⟩

/-- The points of the part of a box are its places, and these are the points of the box that are
multi-indices of the shape. -/
theorem points_inter_ofShape {b whole part : Box} {s : Shape} (hcorner : b.corner.rank = s.rank)
    (hsides : b.sides.rank = s.rank) (hfit : ∀ n ∈ s.lengths, n < 2 ^ 63)
    (hwhole : ofShape s = .ok whole) (hpart : b.inter whole = .ok part) :
    part.points = .ok (part.places.map fun t => ⟨coordsOf t⟩) ∧
      ∀ p, part.contains p = .ok true ↔
        b.contains p = .ok true ∧ ∃ t ∈ s, p.coords.map Coord.val = t.map Int.ofNat := by
  obtain ⟨axes, haxes, rfl⟩ := exists_eq_ofIntervals (hcorner.trans hsides.symm)
  have hlen : axes.length = (s.lengths.map Interval.whole).length :=
    (haxes.trans hcorner).trans (List.length_map _).symm
  obtain rfl := Except.ok.inj ((ofShape_eq_ok hfit).symm.trans hwhole)
  obtain rfl := Except.ok.inj ((inter_ofIntervals hlen).symm.trans hpart)
  constructor
  · refine points_eq_map_places (forall_mem_zipWith_inter ?_) (inter_bounds _ _).2
    -- the corner of the shape is the origin
    intro a _ w hw
    obtain ⟨n, -, rfl⟩ := List.mem_map.1 hw
    rw [Interval.val_corner_inter]
    exact Int.le_max_right ..
  · intro p
    obtain ⟨inA, inB, hinA, hinB, hboth⟩ := exists_contains_inter_eq_ok hlen p
    obtain ⟨answer, hanswer, hmem⟩ := exists_contains_eq_ok (s.lengths.map Interval.whole) p
    obtain rfl := Except.ok.inj (hinB.symm.trans hanswer)
    rw [hinA, hboth, Except.ok.injEq, Except.ok.injEq, Bool.and_eq_true, hmem,
      forall₂_contains_whole_iff hfit]

end Box

/-! ## The visit of the part -/

namespace Visit

theorem clipped_eq_ok {s : Shape} {box whole part : Box} (hwhole : Box.ofShape s = .ok whole)
    (hinter : box.inter whole = .ok part) (hpart : box.IsPart s part) :
    clipped s box = .ok ⟨s.strides, part.corner.toIndex, part.unsignedShape.lengths⟩ := by
  have hranks : s.rank = part.corner.toIndex.length ∧ s.rank = part.unsignedShape.rank :=
    ⟨hpart.rank_corner.symm.trans (List.length_map _).symm,
      hpart.rank_sides.symm.trans (List.length_map _).symm⟩
  rw [clipped, hwhole]
  simp only [bind, Except.bind, hinter]
  exact if_pos hranks

/-- The visit of a box of any place in a shape whose axes fit the lattice is the visit of its part. -/
theorem exists_clipped_eq_ok {s : Shape} {box : Box} (hcorner : box.corner.rank = s.rank)
    (hsides : box.sides.rank = s.rank) (hfit : ∀ n ∈ s.lengths, n < 2 ^ 63) :
    ∃ part : Box, box.IsPart s part ∧
      clipped s box = .ok ⟨s.strides, part.corner.toIndex, part.unsignedShape.lengths⟩ := by
  obtain ⟨whole, part, hwhole, hinter, hpart⟩ := Box.exists_inter_ofShape_eq_ok hcorner hsides hfit
  exact ⟨part, hpart, clipped_eq_ok hwhole hinter hpart⟩

/-- In an array of fewer than `2^63` elements, and of no axis that is too long for the lattice, the part of a
box of its rank can be visited, wherever the box lies and however far it reaches. The calls of the visit are
the points of the intersection of the box with the box of the array, in the same order, each with its flat
position in the array. The points of that intersection are the points of the box that are multi-indices of
the array. -/
theorem calls_clipped_eq_points (array : Shape) (box : Box) (hsize : array.size < 2 ^ 63)
    (hfit : ∀ n ∈ array.lengths, n < 2 ^ 63) (hcorner : box.corner.rank = array.rank)
    (hsides : box.sides.rank = array.rank) :
    ∃ whole part points v calls, Box.ofShape array = .ok whole ∧ box.inter whole = .ok part ∧
      part.points = .ok points ∧ clipped array box = .ok v ∧ v.Calls calls ∧
      (points.map fun p => p.coords.map Coord.val) = (calls.map fun call => call.1.map Int.ofNat) ∧
      (∀ call ∈ calls, call.1 ∈ array ∧ position array.strides call.1 = .ok call.2 ∧
        call.2 = array.offset call.1) ∧
      ∀ p, p ∈ points ↔ box.contains p = .ok true ∧
        ∃ t ∈ array, p.coords.map Coord.val = t.map Int.ofNat := by
  obtain ⟨whole, part, hwhole, hinter, hpart⟩ := Box.exists_inter_ofShape_eq_ok hcorner hsides hfit
  obtain ⟨hpoints, hcontains⟩ := Box.points_inter_ofShape hcorner hsides hfit hwhole hinter
  obtain ⟨listed, hlisted, hmem⟩ :=
    Box.exists_points_eq_ok (hpart.rank_corner.trans hpart.rank_sides.symm)
  obtain rfl := Except.ok.inj (hpoints.symm.trans hlisted)
  have hbound : 2 * array.size ≤ Word.bound := by
    rw [Word.bound]
    omega
  refine ⟨whole, part, _, _, part.places.map fun t => (t, array.offset t), hwhole, hinter, hpoints,
    clipped_eq_ok hwhole hinter hpart, ?_, ?_, ?_, ?_⟩
  · intro σ visit state
    rw [fold_of_holdsBox hpart.holds hbound, Box.places, List.foldl_map, List.foldl_map]
  · rw [List.map_map, List.map_map]
    apply List.map_congr_left
    intro t ht
    apply map_val_coordsOf
    intro n hn
    exact Nat.lt_trans (Shape.coord_lt_size (hpart.mem_places_iff.1 ht).1 n hn) hsize
  · rw [List.forall_mem_map]
    intro t ht
    have ht := (hpart.mem_places_iff.1 ht).1
    exact ⟨ht, position_strides_eq_offset ht (Nat.lt_trans hsize (by decide)), rfl⟩
  · intro p
    rw [hmem, hcontains]

/-- A box that begins before the first row and reaches past the end of the rows, and one that lies at the far
edge of the lattice. -/
theorem calls_clipped_eq_points_at_edges :
    (∃ v calls, clipped ⟨[3, 4]⟩ ⟨⟨[Coord.clamp (-1), Coord.clamp 2]⟩,
        ⟨[Coord.clamp 3, Coord.clamp 10]⟩⟩ = .ok v ∧ v.Calls calls ∧
      (calls.map fun call => call.1.map Int.ofNat) = [[0, 2], [0, 3], [1, 2], [1, 3]]) ∧
    ∃ v, clipped ⟨[3, 4]⟩ ⟨⟨[Coord.clamp 9223372036854775807, Coord.clamp 0]⟩,
        ⟨[Coord.clamp 2, Coord.clamp 4]⟩⟩ = .ok v ∧ v.Calls [] := by
  constructor
  · obtain ⟨whole, part, points, v, calls, hwhole, hpart, hpoints, hv, hcalls, hsame, -⟩ :=
      calls_clipped_eq_points ⟨[3, 4]⟩ ⟨⟨[Coord.clamp (-1), Coord.clamp 2]⟩,
        ⟨[Coord.clamp 3, Coord.clamp 10]⟩⟩ (by decide) (by decide) rfl rfl
    cases hwhole
    cases hpart
    cases hpoints
    exact ⟨v, calls, hv, hcalls, hsame.symm⟩
  · obtain ⟨whole, part, points, v, calls, hwhole, hpart, hpoints, hv, hcalls, hsame, -⟩ :=
      calls_clipped_eq_points ⟨[3, 4]⟩ ⟨⟨[Coord.clamp 9223372036854775807, Coord.clamp 0]⟩,
        ⟨[Coord.clamp 2, Coord.clamp 4]⟩⟩ (by decide) (by decide) rfl rfl
    cases hwhole
    cases hpart
    cases hpoints
    obtain rfl := List.map_eq_nil_iff.1 hsame.symm
    exact ⟨v, hv, hcalls⟩

end Visit

end LatticeGrid
