import LatticeGrid.Proofs.Lattice.Inclusion

/-!
# Moving boxes

A vector moves the corner of a box and leaves its lengths. The bounds of a box are held at the edges of the
lattice, and a bound that is held somewhere does not move with the box: so moving respects the other
operations only as long as no bound meets an edge, neither where the box stands nor where it goes to
(`Box.Movable`). There the upper bound moves by the vector (`Interval.Movable.val_upper_shift`), and the
intersection, inclusion and membership are comparisons of bounds that all move alike. In an empty
intersection the crossed bounds move alike too, so its corner is the moved one and its lengths are still
zero.

Main statement: `Box.shift_homomorphism`.
-/

set_option autoImplicit false

namespace LatticeGrid

/-! ## Sums on the lattice -/

namespace Coord

/-- The exact sum of two coordinates is a coordinate. -/
def SumFits (c d : Coord) : Prop :=
  -9223372036854775808 ≤ c.val + d.val ∧ c.val + d.val < 9223372036854775808

instance (c d : Coord) : Decidable (c.SumFits d) :=
  inferInstanceAs (Decidable (-9223372036854775808 ≤ c.val + d.val ∧
    c.val + d.val < 9223372036854775808))

namespace SumFits

variable {c d : Coord} (h : c.SumFits d)

include h

theorem val_clamp_add : (clamp (c.val + d.val)).val = c.val + d.val := by
  obtain ⟨hlower, hupper⟩ := h
  rw [val_clamp]
  omega

theorem add_eq_ok : c.add d = .ok (clamp (c.val + d.val)) := checked_eq_ok_iff.2 h.val_clamp_add

/-- The sum less the second summand is the first one. -/
theorem sub_eq_ok : (clamp (c.val + d.val)).sub d = .ok c := by
  refine checked_eq_ok_iff.2 ?_
  rw [h.val_clamp_add]
  omega

end SumFits

end Coord

namespace Point

/-- The points have one rank, and their exact sum is a point of the lattice. -/
def SumFits (p v : Point) : Prop :=
  p.rank = v.rank ∧ ∀ q ∈ p.coords.zip v.coords, q.1.SumFits q.2

instance (p v : Point) : Decidable (p.SumFits v) :=
  inferInstanceAs (Decidable (p.rank = v.rank ∧ ∀ q ∈ p.coords.zip v.coords, q.1.SumFits q.2))

section Axes

variable {ι : Type} {axes : List ι} {a b c : ι → Coord}

/-- Points with one coordinate for each member of a list are combined member by member, also by an operation
that can fail. -/
theorem zipWithM_map_eq_ok {f : Coord → Coord → Except Failure Coord}
    (h : ∀ t ∈ axes, f (a t) (b t) = .ok (c t)) :
    zipWithM f ⟨axes.map a⟩ ⟨axes.map b⟩ = .ok ⟨axes.map c⟩ := by
  induction axes with
  | nil => rfl
  | cons t axes ih =>
      rw [List.forall_mem_cons] at h
      exact zipWithM_cons_eq_ok h.1 (ih h.2)

theorem sumFits_map_iff :
    SumFits ⟨axes.map a⟩ ⟨axes.map b⟩ ↔ ∀ t ∈ axes, (a t).SumFits (b t) := by
  rw [SumFits, List.zip_map', List.forall_mem_map]
  exact and_iff_right ((List.length_map _).trans (List.length_map _).symm)

variable (h : ∀ t ∈ axes, (a t).SumFits (b t))

include h

theorem add_map_eq_ok : add ⟨axes.map a⟩ ⟨axes.map b⟩ =
    .ok ⟨axes.map fun t => Coord.clamp ((a t).val + (b t).val)⟩ :=
  zipWithM_map_eq_ok fun t ht => (h t ht).add_eq_ok

theorem sub_map_eq_ok :
    sub ⟨axes.map fun t => Coord.clamp ((a t).val + (b t).val)⟩ ⟨axes.map b⟩ = .ok ⟨axes.map a⟩ :=
  zipWithM_map_eq_ok fun t ht => (h t ht).sub_eq_ok

end Axes

end Point

/-! ## One axis -/

namespace Interval

/-- The interval moved by a distance. -/
def shift (i : Interval) (d : Coord) : Interval := ⟨Coord.clamp (i.corner.val + d.val), i.side⟩

/-- The interval has its ends on the lattice, where it stands and moved by a distance. -/
structure Movable (i : Interval) (d : Coord) : Prop where
  fits : i.corner.SumFits d
  ends : i.corner.val + max i.side.val 0 ≤ 9223372036854775807
  ends_shifted : i.corner.val + d.val + max i.side.val 0 ≤ 9223372036854775807

variable {a b : Interval} {c d : Coord}

theorem shift_inj (ha : a.corner.SumFits d) (hb : b.corner.SumFits d) :
    a.shift d = b.shift d ↔ a = b := by
  constructor
  · intro h
    obtain ⟨hcorner, hside⟩ := Interval.mk.inj h
    have hval := congrArg Coord.val hcorner
    rw [ha.val_clamp_add, hb.val_clamp_add, Int.add_left_inj] at hval
    exact congrArg₂ mk (Coord.ext hval) hside
  · rintro rfl
    rfl

/-- The corner of an intersection is the corner of one of the intervals. -/
theorem sumFits_corner_inter (ha : a.corner.SumFits d) (hb : b.corner.SumFits d) :
    (a.inter b).corner.SumFits d := by
  obtain ⟨haLower, haUpper⟩ := ha
  obtain ⟨hbLower, hbUpper⟩ := hb
  rw [Coord.SumFits, val_corner_inter]
  omega

namespace Movable

theorem val_corner_shift (h : a.Movable d) : (a.shift d).corner.val = a.corner.val + d.val :=
  h.fits.val_clamp_add

theorem val_upper_shift (h : a.Movable d) : (a.shift d).upper.val = a.upper.val + d.val := by
  have hends := h.ends
  have hshifted := h.ends_shifted
  rw [val_upper, val_upper, h.val_corner_shift]
  show min (a.corner.val + d.val + max 0 a.side.val) 9223372036854775807 = _
  omega

/-- The intersection moves with the intervals, also if there is nothing in it. -/
theorem inter_shift (ha : a.Movable d) (hb : b.Movable d) :
    (a.shift d).inter (b.shift d) = (a.inter b).shift d := by
  have hcorner : ((a.shift d).inter (b.shift d)).corner = ((a.inter b).shift d).corner := by
    apply Coord.ext
    show _ = (Coord.clamp ((a.inter b).corner.val + d.val)).val
    rw [(sumFits_corner_inter ha.fits hb.fits).val_clamp_add, val_corner_inter, val_corner_inter,
      ha.val_corner_shift, hb.val_corner_shift, Int.max_add_right]
  have hside : ((a.shift d).inter (b.shift d)).side = ((a.inter b).shift d).side := by
    apply Coord.ext
    show _ = (a.inter b).side.val
    -- the length is a difference, and the distance drops out of it
    rw [val_side_inter, val_side_inter, ha.val_upper_shift, hb.val_upper_shift, ha.val_corner_shift,
      hb.val_corner_shift, Int.min_add_right, Int.max_add_right, Int.add_sub_add_right]
  exact congrArg₂ Interval.mk hcorner hside

/-- Moved intervals are included in each other as the intervals are. -/
theorem inter_shift_eq_left_iff (ha : a.Movable d) (hb : b.Movable d) :
    (a.shift d).inter (b.shift d) = a.shift d ↔ a.inter b = a := by
  rw [ha.inter_shift hb, shift_inj (sumFits_corner_inter ha.fits hb.fits) ha.fits]

theorem contains_shift_iff (h : a.Movable d) (hc : c.SumFits d) :
    (a.shift d).Contains (Coord.clamp (c.val + d.val)) ↔ a.Contains c := by
  simp only [Contains, Coord.le_def, Coord.lt_def, h.val_corner_shift, h.val_upper_shift,
    hc.val_clamp_add, Int.add_le_add_iff_right, Int.add_lt_add_iff_right]

end Movable

end Interval

/-! ## All axes -/

namespace Box

/-- A box that a vector moves without meeting an edge of the lattice: the moved corner is a point, and neither
the box nor the moved one reaches past the far edge on any axis. -/
structure Movable (b : Box) (v : Point) : Prop where
  rank_eq : b.corner.rank = b.sides.rank
  fits : b.corner.SumFits v
  ends : b.EndsOnLattice
  ends_shifted : ∀ q ∈ (b.corner.coords.zip b.sides.coords).zip v.coords,
    q.1.1.val + q.2.val + max q.1.2.val 0 ≤ 9223372036854775807

section Axes

variable {ι : Type} {axes : List ι} {f g : ι → Interval} {c d : ι → Coord}

theorem movable_map_iff : (ofIntervals (axes.map f)).Movable ⟨axes.map d⟩ ↔
    ∀ t ∈ axes, (f t).Movable (d t) := by
  have hcoords : (ofIntervals (axes.map f)).corner = ⟨axes.map fun t => (f t).corner⟩ :=
    congrArg Point.mk List.map_map
  constructor
  · rintro ⟨-, hfits, hends, hshifted⟩ t ht
    rw [hcoords, Point.sumFits_map_iff] at hfits
    rw [endsOnLattice_ofIntervals_iff, List.forall_mem_map] at hends
    rw [ofIntervals, List.map_map, List.map_map, List.zip_map', List.zip_map',
      List.forall_mem_map] at hshifted
    exact ⟨hfits t ht, hends t ht, hshifted t ht⟩
  · intro h
    refine ⟨(List.length_map _).trans (List.length_map _).symm, ?_, ?_, ?_⟩
    · rw [hcoords, Point.sumFits_map_iff]
      exact fun t ht => (h t ht).fits
    · rw [endsOnLattice_ofIntervals_iff, List.forall_mem_map]
      exact fun t ht => (h t ht).ends
    · rw [ofIntervals, List.map_map, List.map_map, List.zip_map', List.zip_map', List.forall_mem_map]
      exact fun t ht => (h t ht).ends_shifted

theorem shift_map_eq_ok (h : ∀ t ∈ axes, (f t).corner.SumFits (d t)) :
    (ofIntervals (axes.map f)).shift ⟨axes.map d⟩ =
      .ok (ofIntervals (axes.map fun t => (f t).shift (d t))) := by
  simp only [shift, ofIntervals, List.map_map, Function.comp_def, Point.add_map_eq_ok h]
  rfl

theorem shiftBack_map_eq_ok (h : ∀ t ∈ axes, (f t).corner.SumFits (d t)) :
    (ofIntervals (axes.map fun t => (f t).shift (d t))).shiftBack ⟨axes.map d⟩ =
      .ok (ofIntervals (axes.map f)) := by
  simp only [shiftBack, ofIntervals, List.map_map, Function.comp_def, Interval.shift,
    Point.sub_map_eq_ok h]
  rfl

variable (hf : ∀ t ∈ axes, (f t).Movable (d t))

include hf

theorem exists_contains_shift_map_eq_ok (hc : ∀ t ∈ axes, (c t).SumFits (d t)) :
    ∃ answer, (ofIntervals (axes.map f)).contains ⟨axes.map c⟩ = .ok answer ∧
      (ofIntervals (axes.map fun t => (f t).shift (d t))).contains
        ⟨axes.map fun t => Coord.clamp ((c t).val + (d t).val)⟩ = .ok answer := by
  obtain ⟨answer, hanswer, hiff⟩ := exists_contains_eq_ok (axes.map f) ⟨axes.map c⟩
  obtain ⟨answer', hanswer', hiff'⟩ := exists_contains_eq_ok
    (axes.map fun t => (f t).shift (d t)) ⟨axes.map fun t => Coord.clamp ((c t).val + (d t).val)⟩
  have heq : answer' = answer := by
    rw [Bool.eq_iff_iff, hiff, hiff']
    simp only [List.forall₂_map_left_iff, List.forall₂_map_right_iff, List.forall₂_same]
    exact forall₂_congr fun t ht => (hf t ht).contains_shift_iff (hc t ht)
  exact ⟨answer, hanswer, heq ▸ hanswer'⟩

variable (hg : ∀ t ∈ axes, (g t).Movable (d t))

include hg

theorem inter_shift_map_eq_ok :
    (ofIntervals (axes.map fun t => (f t).shift (d t))).inter
        (ofIntervals (axes.map fun t => (g t).shift (d t))) =
      .ok (ofIntervals (axes.map fun t => ((f t).inter (g t)).shift (d t))) := by
  rw [inter_map, List.map_congr_left fun t ht => (hf t ht).inter_shift (hg t ht)]

theorem exists_isSubsetOf_shift_map_eq_ok :
    ∃ answer, (ofIntervals (axes.map f)).isSubsetOf (ofIntervals (axes.map g)) = .ok answer ∧
      (ofIntervals (axes.map fun t => (f t).shift (d t))).isSubsetOf
        (ofIntervals (axes.map fun t => (g t).shift (d t))) = .ok answer := by
  obtain ⟨answer, hanswer, hiff⟩ := exists_isSubsetOf_map_eq_ok axes f g
  obtain ⟨answer', hanswer', hiff'⟩ := exists_isSubsetOf_map_eq_ok axes
    (fun t => (f t).shift (d t)) (fun t => (g t).shift (d t))
  have heq : answer' = answer := by
    rw [Bool.eq_iff_iff, hiff, hiff']
    -- the lengths have not changed, so the same axes are empty
    refine or_congr Iff.rfl ?_
    exact forall₂_congr fun t ht => (hf t ht).inter_shift_eq_left_iff (hg t ht)
  exact ⟨answer, hanswer, heq ▸ hanswer'⟩

end Axes

variable {a b : Box} {v q : Point}

/-- A moved box contains a moved point when the box contains the point. -/
theorem Movable.exists_contains_shift_eq_ok (hb : b.Movable v) (hq : q.SumFits v) :
    ∃ b' q' answer, b.shift v = .ok b' ∧ q.add v = .ok q' ∧
      b.contains q = .ok answer ∧ b'.contains q' = .ok answer := by
  obtain ⟨intervals, hintervals, rfl⟩ := exists_eq_ofIntervals hb.rank_eq
  obtain ⟨ds⟩ := v
  obtain ⟨cs⟩ := q
  -- box, point and vector are read off one list of axes
  have hlen : intervals.length = cs.length := hintervals.trans (hb.fits.1.trans hq.1.symm)
  obtain ⟨pairs, rfl, rfl⟩ := exists_eq_map_of_length_eq hlen
  have hlen' : pairs.length = ds.length := (List.length_map _).symm.trans hq.1
  obtain ⟨axes, rfl, rfl⟩ := exists_eq_map_of_length_eq hlen'
  rw [List.map_map] at hb hq ⊢
  rw [List.map_map]
  have hmoves := movable_map_iff.1 hb
  have hsums := Point.sumFits_map_iff.1 hq
  obtain ⟨answer, hbefore, hafter⟩ := exists_contains_shift_map_eq_ok hmoves hsums
  exact ⟨_, _, answer, shift_map_eq_ok fun t ht => (hmoves t ht).fits, Point.add_map_eq_ok hsums,
    hbefore, hafter⟩

/-- Two boxes and a vector of one rank are taken, such that the moved corners are points and neither box
reaches past the far edge of the lattice, before the move or after it. Then both boxes can be moved, and
every operation answers alike before and after: the intersection of the moved boxes is the moved intersection,
with its corner and its lengths, also when it is empty; moving back gives the box again; the moved boxes are
included in each other as the boxes are; and a moved point, if it is one, lies in the moved box as the point
lies in the box. -/
theorem shift_homomorphism (a b : Box) (v : Point) (ha : a.Movable v) (hb : b.Movable v) :
    ∃ a' b', a.shift v = .ok a' ∧ b.shift v = .ok b' ∧
      (∃ both both', a.inter b = .ok both ∧ a'.inter b' = .ok both' ∧ both.shift v = .ok both') ∧
      a'.shiftBack v = .ok a ∧
      (∃ answer, a.isSubsetOf b = .ok answer ∧ a'.isSubsetOf b' = .ok answer) ∧
      ∀ q, q.SumFits v → ∃ q' answer, q.add v = .ok q' ∧
        a.contains q = .ok answer ∧ a'.contains q' = .ok answer := by
  have hcontains := fun q => ha.exists_contains_shift_eq_ok (q := q)
  obtain ⟨pairs, rfl, rfl⟩ := exists_pairs ha.rank_eq hb.rank_eq (hb.fits.1.trans ha.fits.1.symm)
  obtain ⟨ds⟩ := v
  -- the boxes and the vector are read off one list of axes
  have hrank : (ofIntervals (pairs.map Prod.fst)).rank = pairs.length :=
    (rank_ofIntervals _).trans (List.length_map _)
  obtain ⟨axes, rfl, rfl⟩ := exists_eq_map_of_length_eq (hrank.symm.trans ha.fits.1)
  rw [List.map_map] at ha hcontains
  rw [List.map_map] at hb
  rw [List.map_map, List.map_map]
  have hmovesA := movable_map_iff.1 ha
  have hmovesB := movable_map_iff.1 hb
  have hshift := shift_map_eq_ok fun t ht => (hmovesA t ht).fits
  refine ⟨_, _, hshift, shift_map_eq_ok fun t ht => (hmovesB t ht).fits, ?_, ?_, ?_, ?_⟩
  · refine ⟨_, _, inter_map .., inter_shift_map_eq_ok hmovesA hmovesB, shift_map_eq_ok ?_⟩
    intro t ht
    exact Interval.sumFits_corner_inter (hmovesA t ht).fits (hmovesB t ht).fits
  · exact shiftBack_map_eq_ok fun t ht => (hmovesA t ht).fits
  · exact exists_isSubsetOf_shift_map_eq_ok hmovesA hmovesB
  · intro q hq
    obtain ⟨a', q', answer, hshift', hadd, hbefore, hafter⟩ := hcontains q hq
    -- the box that contains the moved point is the moved first box
    obtain rfl := Except.ok.inj (hshift.symm.trans hshift')
    exact ⟨q', answer, hadd, hbefore, hafter⟩

/-- Two boxes that do not meet on the second axis, where the second one has a negative length, are moved up to
the far edge of the lattice on the first axis. -/
theorem shift_homomorphism_to_edge :
    (∃ both both',
      (Box.mk ⟨[Coord.clamp 9223372036854775797, Coord.clamp (-5)]⟩
          ⟨[Coord.clamp 3, Coord.clamp 4]⟩).inter
        ⟨⟨[Coord.clamp 9223372036854775790, Coord.clamp 70]⟩, ⟨[Coord.clamp 9, Coord.clamp (-2)]⟩⟩ =
          .ok both ∧
      (Box.mk ⟨[Coord.clamp 9223372036854775804, Coord.clamp (-8)]⟩
          ⟨[Coord.clamp 3, Coord.clamp 4]⟩).inter
        ⟨⟨[Coord.clamp 9223372036854775797, Coord.clamp 67]⟩, ⟨[Coord.clamp 9, Coord.clamp (-2)]⟩⟩ =
          .ok both' ∧
      both.shift ⟨[Coord.clamp 7, Coord.clamp (-3)]⟩ = .ok both') ∧
    (Box.mk ⟨[Coord.clamp 9223372036854775804, Coord.clamp (-8)]⟩
        ⟨[Coord.clamp 3, Coord.clamp 4]⟩).contains
      ⟨[Coord.clamp 9223372036854775806, Coord.clamp (-5)]⟩ = .ok true := by
  obtain ⟨a', b', ha', hb', hinter, -, -, hcontains⟩ := shift_homomorphism
    ⟨⟨[Coord.clamp 9223372036854775797, Coord.clamp (-5)]⟩, ⟨[Coord.clamp 3, Coord.clamp 4]⟩⟩
    ⟨⟨[Coord.clamp 9223372036854775790, Coord.clamp 70]⟩, ⟨[Coord.clamp 9, Coord.clamp (-2)]⟩⟩
    ⟨[Coord.clamp 7, Coord.clamp (-3)]⟩
    ⟨rfl, by decide, by decide, by decide⟩ ⟨rfl, by decide, by decide, by decide⟩
  cases ha'
  cases hb'
  refine ⟨hinter, ?_⟩
  obtain ⟨q', answer, hadd, hbefore, hafter⟩ :=
    hcontains ⟨[Coord.clamp 9223372036854775799, Coord.clamp (-2)]⟩ (by decide)
  cases hadd
  cases hbefore
  exact hafter

end Box

end LatticeGrid
