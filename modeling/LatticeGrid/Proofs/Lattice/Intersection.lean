import LatticeGrid.Proofs.Lattice.Lengths
import LatticeGrid.Proofs.Layout.Boxes

/-!
# Boxes axis by axis

A box whose corner and lengths have one rank is a list of intervals, one for each axis, and the
operations on boxes work on each interval on its own (`Box.upper_ofIntervals`,
`Box.inter_ofIntervals`). So what there is to say about an intersection is said about intervals, where it
is arithmetic with numbers that are held at the edges of the lattice.

The part of a box that lies in a shape is its intersection with the box of the shape. The edge of the
lattice does not show in it: the part has the multi-indices of the shape that the box covers in unbounded
integers.

Main statement: `Box.exists_inter_ofShape_eq_ok`.
-/

set_option autoImplicit false

namespace LatticeGrid

/-- Points with one coordinate for each member of a list are combined member by member. -/
theorem Point.zipWith_map {ι : Type} (f : Coord → Coord → Coord) (a b : ι → Coord) (axes : List ι) :
    zipWith f ⟨axes.map a⟩ ⟨axes.map b⟩ = .ok ⟨axes.map fun q => f (a q) (b q)⟩ := by
  refine zipWith_eq_ok_iff.2 ⟨by simp [rank], ?_⟩
  rw [List.zipWith_map, List.zipWith_self]

/-- Two lists of one length are read off one list of pairs. -/
theorem exists_eq_map_of_length_eq {α β : Type} {as : List α} {bs : List β}
    (h : as.length = bs.length) :
    ∃ axes : List (α × β), as = axes.map Prod.fst ∧ bs = axes.map Prod.snd :=
  ⟨as.zip bs, (List.map_fst_zip (Nat.le_of_eq h)).symm, (List.map_snd_zip (Nat.le_of_eq h.symm)).symm⟩

theorem Coord.max_comm (a b : Coord) : max a b = max b a := by
  apply Coord.ext
  rw [Coord.val_max, Coord.val_max, Int.max_comm]

theorem Coord.min_comm (a b : Coord) : min a b = min b a := by
  apply Coord.ext
  rw [Coord.val_min, Coord.val_min, Int.min_comm]

/-- One axis of a box. -/
structure Interval where
  /-- The least coordinate. -/
  corner : Coord
  /-- The length; below zero it counts as zero. -/
  side : Coord

namespace Interval

/-- The coordinate past the last one, held at the edge of the lattice. -/
def upper (i : Interval) : Coord := i.corner.saturatingAdd (max Coord.zero i.side)

/-- The coordinates from one bound up to and without another; crossed bounds give length 0. -/
def ofBounds (lower upper : Coord) : Interval := ⟨lower, max Coord.zero (upper.saturatingSub lower)⟩

/-- The coordinates of both intervals. -/
def inter (a b : Interval) : Interval where
  corner := max a.corner b.corner
  side := max Coord.zero ((min a.upper b.upper).saturatingSub (max a.corner b.corner))

/-- An axis of a grid, from the origin of the lattice on. -/
def whole (n : Nat) : Interval := ⟨Coord.zero, Coord.clamp n⟩

/-- A coordinate lies in the interval, in unbounded integers. -/
def Covers (i : Interval) (x : Int) : Prop := i.corner.val ≤ x ∧ x < i.corner.val + i.side.val

theorem val_upper (i : Interval) :
    i.upper.val = min (i.corner.val + max 0 i.side.val) 9223372036854775807 := by
  have hlow := i.corner.lower
  rw [upper, Coord.saturatingAdd, Coord.val_clamp, Coord.val_max, Coord.val_zero]
  omega

/-- The length between two bounds, held at the greatest coordinate. -/
theorem val_side_ofBounds (lower upper : Coord) :
    (ofBounds lower upper).side.val = max 0 (min (upper.val - lower.val) 9223372036854775807) := by
  rw [ofBounds, Coord.val_max, Coord.saturatingSub, Coord.val_clamp, Coord.val_zero]
  omega

theorem val_corner_inter (a b : Interval) :
    (a.inter b).corner.val = max a.corner.val b.corner.val := Coord.val_max ..

/-- The length of an intersection is not held at the edge of the lattice unless it is zero: neither interval
is longer than the greatest coordinate. -/
theorem val_side_inter (a b : Interval) :
    (a.inter b).side.val =
      max 0 (min a.upper.val b.upper.val - max a.corner.val b.corner.val) := by
  have hside := a.side.upper
  have hupper := val_upper a
  show (ofBounds (max a.corner b.corner) (min a.upper b.upper)).side.val = _
  rw [val_side_ofBounds, Coord.val_min, Coord.val_max]
  omega

theorem inter_comm (a b : Interval) : a.inter b = b.inter a := by
  rw [inter, inter, Coord.max_comm a.corner, Coord.min_comm a.upper]

theorem val_upper_whole {n : Nat} (hn : n < 2 ^ 63) : (whole n).upper.val = n := by
  rw [val_upper]
  show min (0 + max 0 (Coord.clamp n).val) 9223372036854775807 = n
  rw [Coord.val_clamp_natCast hn]
  omega

/-! ## The part of an axis -/

section Whole

variable (i : Interval) {n : Nat} (hn : n < 2 ^ 63)

include hn

/-- The part of an interval that lies in an axis, as numbers. -/
theorem inter_whole_eq :
    (i.inter (whole n)).corner.val = max i.corner.val 0 ∧
      (i.inter (whole n)).side.val =
        max 0 (min (i.corner.val + max 0 i.side.val) n - max i.corner.val 0) := by
  have hcorner : (i.inter (whole n)).corner.val = max i.corner.val 0 := val_corner_inter ..
  have hside := val_side_inter i (whole n)
  rw [val_upper_whole hn, val_upper] at hside
  refine ⟨hcorner, hside.trans ?_⟩
  show max 0 (min (min (i.corner.val + max 0 i.side.val) 9223372036854775807) ↑n -
    max i.corner.val 0) = _
  omega

theorem inter_whole_le (hpos : 0 < (i.inter (whole n)).side.toNat) :
    (i.inter (whole n)).corner.toNat + (i.inter (whole n)).side.toNat ≤ n := by
  obtain ⟨hcorner, hside⟩ := inter_whole_eq i hn
  rw [Coord.toNat] at hpos ⊢
  rw [Coord.toNat]
  omega

theorem covers_iff_inter_whole {c : Nat} (hc : c < n) :
    i.Covers c ↔ (i.inter (whole n)).corner.toNat ≤ c ∧
      c < (i.inter (whole n)).corner.toNat + (i.inter (whole n)).side.toNat := by
  obtain ⟨hcorner, hside⟩ := inter_whole_eq i hn
  rw [Covers, Coord.toNat, Coord.toNat]
  omega

end Whole

end Interval

namespace Box

/-! ## Boxes as lists of intervals -/

/-- The box with these axes. -/
def ofIntervals (axes : List Interval) : Box := ⟨⟨axes.map (·.corner)⟩, ⟨axes.map (·.side)⟩⟩

theorem rank_ofIntervals (axes : List Interval) : (ofIntervals axes).rank = axes.length :=
  List.length_map _

theorem exists_eq_ofIntervals {b : Box} (h : b.corner.rank = b.sides.rank) :
    ∃ axes : List Interval, axes.length = b.rank ∧ b = ofIntervals axes := by
  have hlen : b.corner.coords.length = b.sides.coords.length := h
  refine ⟨(b.corner.coords.zip b.sides.coords).map fun q => ⟨q.1, q.2⟩, ?_, ?_⟩
  · rw [List.length_map, List.length_zip, ← hlen, Nat.min_self]
    rfl
  · have hcorner := List.map_fst_zip (Nat.le_of_eq hlen)
    have hsides := List.map_snd_zip (Nat.le_of_eq hlen.symm)
    simp only [ofIntervals, List.map_map, Function.comp_def]
    rw [hcorner, hsides]

theorem isEmpty_ofIntervals_iff {axes : List Interval} :
    (ofIntervals axes).isEmpty = true ↔ ∃ i ∈ axes, i.side.val ≤ 0 := by
  simp [isEmpty, ofIntervals]

theorem upper_ofIntervals (axes : List Interval) :
    (ofIntervals axes).upper = .ok ⟨axes.map Interval.upper⟩ := by
  rw [upper, ofIntervals, Point.clampNegative, Point.map, List.map_map]
  exact Point.zipWith_map ..

/-- The box between two points is spanned axis by axis. -/
theorem ofBounds_map_eq_ok {ι : Type} (axes : List ι) (lower upper : ι → Coord) :
    ofBounds ⟨axes.map lower⟩ ⟨axes.map upper⟩ =
      .ok (ofIntervals (axes.map fun t => Interval.ofBounds (lower t) (upper t))) := by
  rw [ofBounds, Point.saturatingSub, Point.zipWith_map]
  simp only [ofIntervals, List.map_map, Function.comp_def, bind, Except.bind, Point.clampNegative,
    Point.map]
  rfl

/-- The intersection is taken axis by axis. -/
theorem inter_map {ι : Type} (axes : List ι) (f g : ι → Interval) :
    (ofIntervals (axes.map f)).inter (ofIntervals (axes.map g)) =
      .ok (ofIntervals (axes.map fun t => (f t).inter (g t))) := by
  have hrank : (ofIntervals (axes.map g)).rank = (ofIntervals (axes.map f)).rank := by
    simp [rank_ofIntervals]
  have hjoin := Point.zipWith_map max (fun t => (f t).corner) (fun t => (g t).corner) axes
  have hmeet := Point.zipWith_map min (fun t => (f t).upper) (fun t => (g t).upper) axes
  have hbounds := ofBounds_map_eq_ok axes (fun t => max (f t).corner (g t).corner)
    (fun t => min (f t).upper (g t).upper)
  rw [inter, checkRank_eq_ok_iff.2 hrank, upper_ofIntervals, upper_ofIntervals]
  simp only [ofIntervals, List.map_map, Function.comp_def, Point.join, Point.meet, hjoin, hmeet, bind,
    Except.bind, hbounds]
  rfl

theorem inter_ofIntervals {as bs : List Interval} (h : as.length = bs.length) :
    (ofIntervals as).inter (ofIntervals bs) = .ok (ofIntervals (List.zipWith Interval.inter as bs)) := by
  -- both boxes are images of one list of pairs of intervals
  obtain ⟨axes, rfl, rfl⟩ := exists_eq_map_of_length_eq h
  rw [inter_map, List.zipWith_map, List.zipWith_self]

/-- The box of a shape whose axes fit the lattice. -/
theorem ofShape_eq_ok {s : Shape} (h : ∀ n ∈ s.lengths, n < 2 ^ 63) :
    ofShape s = .ok (ofIntervals (s.lengths.map Interval.whole)) := by
  rw [ofShape, Shape.toPoint_eq_ok h, ofIntervals, List.map_map, List.map_map]
  show Except.ok (Box.mk ⟨List.replicate s.lengths.length Coord.zero⟩ _) = _
  rw [← List.map_const']
  rfl

/-! ## What a box covers -/

theorem covers_cons (i : Interval) (axes : List Interval) (x : Int) (p : List Int) :
    (ofIntervals (i :: axes)).Covers (x :: p) ↔ i.Covers x ∧ (ofIntervals axes).Covers p := by
  simp only [Covers, ofIntervals, Point.rank, List.map_cons, List.length_cons, List.zip_cons_cons,
    List.forall_mem_cons, Nat.add_right_cancel_iff]
  constructor
  · rintro ⟨hcorner, hsides, hx, hp⟩
    exact ⟨hx, hcorner, hsides, hp⟩
  · rintro ⟨hx, hcorner, hsides, hp⟩
    exact ⟨hcorner, hsides, hx, hp⟩

/-! ## The part of a box in a shape -/

/-- The part of the axes of a box that lies in a shape. -/
def partOf (axes : List Interval) (lengths : List Nat) : List Interval :=
  List.zipWith (fun i n => i.inter (Interval.whole n)) axes lengths

section PartOf

variable {axes : List Interval} {lengths : List Nat}

theorem holdsBox_partOf (hlen : axes.length = lengths.length) (hfit : ∀ n ∈ lengths, n < 2 ^ 63)
    (hpos : ∀ m ∈ (ofIntervals (partOf axes lengths)).unsignedShape.lengths, 0 < m) :
    HoldsBox lengths (ofIntervals (partOf axes lengths)).corner.toIndex
      (ofIntervals (partOf axes lengths)).unsignedShape.lengths := by
  induction axes generalizing lengths with
  | nil =>
      obtain rfl := List.eq_nil_of_length_eq_zero hlen.symm
      exact .nil
  | cons i axes ih =>
      obtain ⟨n, lengths, rfl⟩ := List.exists_cons_of_length_eq_add_one hlen.symm
      simp only [List.mem_cons, forall_eq_or_imp] at hfit
      have hpos' := List.forall_mem_cons.1 hpos
      exact .cons (Interval.inter_whole_le i hfit.1 hpos'.1) (ih (Nat.succ.inj hlen) hfit.2 hpos'.2)

/-- A multi-index of the shape that the box covers is one of its part. -/
theorem covers_iff_inBox_partOf (hlen : axes.length = lengths.length)
    (hfit : ∀ n ∈ lengths, n < 2 ^ 63) {p : Index} (hp : p ∈ (⟨lengths⟩ : Shape)) :
    (ofIntervals axes).Covers (p.map Int.ofNat) ↔
      InBox (ofIntervals (partOf axes lengths)).corner.toIndex
        (ofIntervals (partOf axes lengths)).unsignedShape.lengths p := by
  induction axes generalizing lengths p with
  | nil =>
      obtain rfl := List.eq_nil_of_length_eq_zero hlen.symm
      obtain rfl := List.eq_nil_of_length_eq_zero hp.1
      decide
  | cons i axes ih =>
      obtain ⟨n, lengths, rfl⟩ := List.exists_cons_of_length_eq_add_one hlen.symm
      cases p with
      | nil => exact absurd hp (Shape.not_nil_mem_cons n lengths)
      | cons c p =>
          simp only [List.mem_cons, forall_eq_or_imp] at hfit
          rcases Shape.cons_mem_cons.1 hp with ⟨hc, hp⟩
          rw [List.map_cons, covers_cons, ih (Nat.succ.inj hlen) hfit.2 hp]
          exact (and_congr_left' (Interval.covers_iff_inter_whole i hfit.1 hc)).trans
            inBox_cons.symm

end PartOf

/-- The part of a box that lies in a shape, as the intersection computes it: if it has elements it is a
box inside of the shape, and it has the multi-indices of the shape that the box covers. -/
structure IsPart (b : Box) (s : Shape) (part : Box) : Prop where
  rank_corner : part.corner.rank = s.rank
  rank_sides : part.sides.rank = s.rank
  holds : part.unsignedShape.isEmpty = false →
    HoldsBox s.lengths part.corner.toIndex part.unsignedShape.lengths
  covers_iff : ∀ p ∈ s, b.Covers (p.map Int.ofNat) ↔
    InBox part.corner.toIndex part.unsignedShape.lengths p

/-- The multi-indices of a box of lengths, moved to its corner. -/
def places (part : Box) : List Index :=
  part.unsignedShape.indices.map (addIndex part.corner.toIndex)

/-- The places of the part are the multi-indices of the shape that the box covers. -/
theorem IsPart.mem_places_iff {b : Box} {s : Shape} {part : Box} (h : b.IsPart s part) {t : Index} :
    t ∈ part.places ↔ t ∈ s ∧ b.Covers (t.map Int.ofNat) := by
  have hlen : part.corner.toIndex.length = part.unsignedShape.lengths.length := by
    rw [Point.toIndex, List.length_map, unsignedShape, Point.toIndex, List.length_map]
    exact h.rank_corner.trans h.rank_sides.symm
  rw [places, List.mem_map]
  constructor
  · rintro ⟨q, hq, rfl⟩
    have hq := Shape.mem_indices.1 hq
    have hmem : addIndex part.corner.toIndex q ∈ s :=
      (h.holds (Shape.isEmpty_eq_false_iff.2 (Shape.pos_of_mem hq))).add_mem hq
    refine ⟨hmem, (h.covers_iff _ hmem).2 ?_⟩
    exact (inBox_iff_exists_addIndex hlen).2 ⟨q, hq, rfl⟩
  · rintro ⟨hmem, hcovers⟩
    obtain ⟨q, hq, rfl⟩ := (inBox_iff_exists_addIndex hlen).1 ((h.covers_iff t hmem).1 hcovers)
    exact ⟨q, Shape.mem_indices.2 hq, rfl⟩

/-- Any box can be intersected with the box of a shape whose axes fit the lattice. -/
theorem exists_inter_ofShape_eq_ok {b : Box} {s : Shape} (hcorner : b.corner.rank = s.rank)
    (hsides : b.sides.rank = s.rank) (hfit : ∀ n ∈ s.lengths, n < 2 ^ 63) :
    ∃ whole part, ofShape s = .ok whole ∧ b.inter whole = .ok part ∧ b.IsPart s part := by
  obtain ⟨axes, haxes, rfl⟩ := exists_eq_ofIntervals (hcorner.trans hsides.symm)
  have hlen : axes.length = s.lengths.length := haxes.trans hcorner
  refine ⟨_, ofIntervals (partOf axes s.lengths), ofShape_eq_ok hfit, ?_, ?_⟩
  · rw [inter_ofIntervals (hlen.trans (List.length_map _).symm), List.zipWith_map_right]
    rfl
  · have hpart : (partOf axes s.lengths).length = s.rank := by
      rw [partOf, List.length_zipWith, hlen, Nat.min_self]
      rfl
    constructor
    · exact (List.length_map _).trans hpart
    · exact (List.length_map _).trans hpart
    · intro hempty
      exact holdsBox_partOf hlen hfit (Shape.isEmpty_eq_false_iff.1 hempty)
    · intro p hp
      exact covers_iff_inBox_partOf hlen hfit hp

end Box

end LatticeGrid
