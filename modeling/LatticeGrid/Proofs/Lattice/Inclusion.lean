import LatticeGrid.Proofs.Lattice.IntersectionLaws

/-!
# Inclusion of boxes

`Box.isSubsetOf` compares the intersection of two boxes with the first of them, as data: corner against
corner and length against length. On one axis this says that the coordinates of the first interval lie in the
second one, and besides that the first interval is written as an intersection would write it, so that its
length is not cut at the edge of the lattice (`Interval.inter_eq_left_iff`). A box with an axis of no length
is included in every box, however it is written. So inclusion of boxes is inclusion of their points for every
box that has no points by its lengths or ends on the lattice, and a box that reaches past the edge is
included in no box, not even in itself.

Main statement: `Box.isSubsetOf_decides_inclusion`.
-/

set_option autoImplicit false

namespace LatticeGrid

/-! ## Products -/

section Products

variable {ι γ : Type} {R S : ι → γ → Prop} {axes : List ι}

/-- A product has a member when each of its sets has one. -/
theorem exists_forall₂_iff : (∃ p, List.Forall₂ R axes p) ↔ ∀ t ∈ axes, ∃ c, R t c := by
  induction axes with
  | nil => exact iff_of_true ⟨[], .nil⟩ (List.forall_mem_nil _)
  | cons t axes ih =>
      rw [List.forall_mem_cons, ← ih]
      constructor
      · rintro ⟨p, hp⟩
        cases hp with
        | cons hc hp => exact ⟨⟨_, hc⟩, _, hp⟩
      · rintro ⟨⟨c, hc⟩, p, hp⟩
        exact ⟨c :: p, .cons hc hp⟩

/-- A product of inhabited sets lies in another product exactly when each of the sets lies in its
counterpart. -/
theorem forall₂_imp_iff (h : ∀ t ∈ axes, ∃ c, R t c) :
    (∀ p, List.Forall₂ R axes p → List.Forall₂ S axes p) ↔ ∀ t ∈ axes, ∀ c, R t c → S t c := by
  induction axes with
  | nil => simp
  | cons t axes ih =>
      rw [List.forall_mem_cons] at h ⊢
      obtain ⟨c, hc⟩ := h.1
      obtain ⟨p, hp⟩ := exists_forall₂_iff.2 h.2
      rw [← ih h.2]
      constructor
      · -- each set is tested by members of all the others
        intro hall
        constructor
        · intro d hd
          exact (List.forall₂_cons.1 (hall (d :: p) (.cons hd hp))).1
        · intro q hq
          exact (List.forall₂_cons.1 (hall (c :: q) (.cons hc hq))).2
      · rintro ⟨hhead, hrest⟩ q hq
        cases hq with
        | cons hd hq => exact .cons (hhead _ hd) (hrest _ hq)

end Products

/-! ## One axis -/

namespace Interval

variable {a b : Interval}

/-- An interval without length has no coordinate. -/
theorem not_contains_of_side_le_zero (h : a.side.val ≤ 0) (c : Coord) : ¬ a.Contains c := by
  have hlower := a.corner.lower
  rw [Contains, Coord.le_def, Coord.lt_def, val_upper]
  omega

/-- Nothing is left of an interval without length. -/
theorem side_inter_of_side_le_zero (h : a.side.val ≤ 0) : (a.inter b).side.val ≤ 0 := by
  have hupper := val_upper a
  rw [val_side_inter]
  omega

section Positive

variable (hpos : 0 < a.side.val)
  (hends : a.corner.val + max a.side.val 0 ≤ 9223372036854775807)

include hpos hends

theorem contains_corner : a.Contains a.corner := by
  rw [Contains, Coord.le_def, Coord.lt_def, val_upper]
  omega

/-- The last coordinate is one before the end. -/
theorem contains_last : a.Contains (Coord.clamp (a.corner.val + a.side.val - 1)) := by
  have hlower := a.corner.lower
  rw [Contains, Coord.le_def, Coord.lt_def, val_upper, Coord.val_clamp]
  omega

end Positive

/-- The intersection with another interval is the interval itself when its coordinates lie in the other one
and its length does not reach past the edge of the lattice. -/
theorem inter_eq_left_iff (hpos : 0 < a.side.val) :
    a.inter b = a ↔ a.corner.val + max a.side.val 0 ≤ 9223372036854775807 ∧
      ∀ c, a.Contains c → b.Contains c := by
  constructor
  · intro h
    obtain ⟨hside, hends⟩ := side_inter_bounds a b
    rw [h] at hside hends
    rw [Int.max_eq_left hside]
    refine ⟨hends, fun c hc => ?_⟩
    rw [← h, contains_inter_iff] at hc
    exact hc.2
  · rintro ⟨hends, hsub⟩
    -- the other interval is tested at the first and at the last coordinate
    obtain ⟨hfirst, -⟩ := hsub _ (contains_corner hpos hends)
    obtain ⟨-, hlast⟩ := hsub _ (contains_last hpos hends)
    have hlower := a.corner.lower
    have hupper := val_upper a
    rw [Coord.le_def] at hfirst
    rw [Coord.lt_def, Coord.val_clamp] at hlast
    have hcorner : (a.inter b).corner = a.corner := by
      apply Coord.ext
      rw [val_corner_inter]
      omega
    have hside : (a.inter b).side = a.side := by
      apply Coord.ext
      rw [val_side_inter]
      omega
    exact congrArg₂ mk hcorner hside

end Interval

namespace Box

/-! ## All axes -/

/-- The corner and the lengths of a box determine its intervals. -/
theorem ofIntervals_inj {as bs : List Interval} : ofIntervals as = ofIntervals bs ↔ as = bs := by
  constructor
  · intro h
    have hzip : ∀ l : List Interval, List.zipWith Interval.mk (l.map (·.corner)) (l.map (·.side)) = l := by
      intro l
      rw [List.zipWith_map, List.zipWith_self]
      exact List.map_id l
    obtain ⟨hcorner, hsides⟩ := Box.mk.inj h
    rw [← hzip as, ← hzip bs, Point.mk.inj hcorner, Point.mk.inj hsides]
  · rintro rfl
    rfl

section Axes

variable {ι : Type} (axes : List ι) (f g : ι → Interval)

theorem isEmpty_map_iff :
    (ofIntervals (axes.map f)).isEmpty = true ↔ ∃ t ∈ axes, (f t).side.val ≤ 0 := by
  simp [isEmpty_ofIntervals_iff]

/-- The answer is given axis by axis: some axis of the first box has no length, or the intersection is the
first box on every axis. -/
theorem exists_isSubsetOf_map_eq_ok :
    ∃ answer, (ofIntervals (axes.map f)).isSubsetOf (ofIntervals (axes.map g)) = .ok answer ∧
      (answer = true ↔
        (∃ t ∈ axes, (f t).side.val ≤ 0) ∨ ∀ t ∈ axes, (f t).inter (g t) = f t) := by
  have hrank : (ofIntervals (axes.map g)).rank = (ofIntervals (axes.map f)).rank := by
    simp [rank_ofIntervals]
  have hanswer : (ofIntervals (axes.map f)).isSubsetOf (ofIntervals (axes.map g)) =
      .ok (decide (ofIntervals (axes.map fun t => (f t).inter (g t)) = ofIntervals (axes.map f)) ||
        ((ofIntervals (axes.map f)).isEmpty &&
          (ofIntervals (axes.map fun t => (f t).inter (g t))).isEmpty)) := by
    rw [isSubsetOf, if_pos hrank, inter_map]
    rfl
  refine ⟨_, hanswer, ?_⟩
  rw [Bool.or_eq_true, Bool.and_eq_true, decide_eq_true_iff, ofIntervals_inj, List.map_inj_left,
    isEmpty_map_iff, isEmpty_map_iff, or_comm]
  refine or_congr_left (and_iff_left_of_imp ?_)
  -- an empty first box leaves an empty intersection
  rintro ⟨t, ht, hside⟩
  exact ⟨t, ht, Interval.side_inter_of_side_le_zero hside⟩

end Axes

/-- Two boxes of one rank are read off one list of pairs of intervals. -/
theorem exists_pairs {a b : Box} (ha : a.corner.rank = a.sides.rank) (hb : b.corner.rank = b.sides.rank)
    (hab : b.rank = a.rank) :
    ∃ axes : List (Interval × Interval),
      a = ofIntervals (axes.map Prod.fst) ∧ b = ofIntervals (axes.map Prod.snd) := by
  obtain ⟨as, has, rfl⟩ := exists_eq_ofIntervals ha
  obtain ⟨bs, hbs, rfl⟩ := exists_eq_ofIntervals hb
  obtain ⟨axes, rfl, rfl⟩ := exists_eq_map_of_length_eq (has.trans (hab.symm.trans hbs.symm))
  exact ⟨axes, rfl, rfl⟩

theorem contains_eq_ok_true_iff_forall₂ {axes : List Interval} {p : Point} :
    (ofIntervals axes).contains p = .ok true ↔ List.Forall₂ Interval.Contains axes p.coords := by
  obtain ⟨answer, hanswer, hiff⟩ := exists_contains_eq_ok axes p
  rw [hanswer, Except.ok.injEq, hiff]

/-- Inclusion of the points of two boxes is inclusion on every axis, once no axis of the first box is without
coordinates. -/
theorem points_included_iff {axes : List (Interval × Interval)}
    (h : ∀ t ∈ axes, ∃ c, t.1.Contains c) :
    (∀ p, (ofIntervals (axes.map Prod.fst)).contains p = .ok true →
        (ofIntervals (axes.map Prod.snd)).contains p = .ok true) ↔
      ∀ t ∈ axes, ∀ c, t.1.Contains c → t.2.Contains c := by
  rw [← forall₂_imp_iff h]
  simp only [contains_eq_ok_true_iff_forall₂, List.forall₂_map_left_iff]
  constructor
  · intro hall p hp
    exact hall ⟨p⟩ hp
  · intro hall p hp
    exact hall p.coords hp

/-- With a length on every axis, the intersection is the first box exactly when that box ends on the lattice
and its points lie in the second one. -/
theorem forall_inter_eq_left_iff {axes : List (Interval × Interval)}
    (hpos : ∀ t ∈ axes, 0 < t.1.side.val) :
    (∀ t ∈ axes, t.1.inter t.2 = t.1) ↔
      (∀ p, (ofIntervals (axes.map Prod.fst)).contains p = .ok true →
        (ofIntervals (axes.map Prod.snd)).contains p = .ok true) ∧
      (ofIntervals (axes.map Prod.fst)).EndsOnLattice := by
  rw [endsOnLattice_ofIntervals_iff, List.forall_mem_map]
  have hpoint (hends : ∀ t ∈ axes, t.1.corner.val + max t.1.side.val 0 ≤ 9223372036854775807) :
      ∀ t ∈ axes, ∃ c, t.1.Contains c := by
    intro t ht
    exact ⟨_, Interval.contains_corner (hpos t ht) (hends t ht)⟩
  constructor
  · intro hinter
    have hboth t ht := (Interval.inter_eq_left_iff (hpos t ht)).1 (hinter t ht)
    have hends : ∀ t ∈ axes, t.1.corner.val + max t.1.side.val 0 ≤ 9223372036854775807 :=
      fun t ht => (hboth t ht).1
    exact ⟨(points_included_iff (hpoint hends)).2 fun t ht => (hboth t ht).2, hends⟩
  · rintro ⟨hincluded, hends⟩ t ht
    refine (Interval.inter_eq_left_iff (hpos t ht)).2 ⟨hends t ht, ?_⟩
    exact (points_included_iff (hpoint hends)).1 hincluded t ht

/-- A box with an axis of no length contains no point. -/
theorem contains_ne_true_of_isEmpty {axes : List Interval} (h : (ofIntervals axes).isEmpty = true)
    (p : Point) : (ofIntervals axes).contains p ≠ .ok true := by
  intro hp
  obtain ⟨i, hi, hside⟩ := isEmpty_ofIntervals_iff.1 h
  -- a point would have a coordinate on the axis that has none
  obtain ⟨c, hc⟩ := exists_forall₂_iff.1 ⟨_, contains_eq_ok_true_iff_forall₂.1 hp⟩ i hi
  exact Interval.not_contains_of_side_le_zero hside c hc

/-! ## The decision -/

section Decision

variable {a b : Box} (ha : a.corner.rank = a.sides.rank) (hb : b.corner.rank = b.sides.rank)

include ha hb

theorem exists_isSubsetOf_eq_ok :
    ∃ answer, a.isSubsetOf b = .ok answer ∧
      (answer = true ↔ b.rank = a.rank ∧
        (∀ p, a.contains p = .ok true → b.contains p = .ok true) ∧
        (a.isEmpty = true ∨ a.EndsOnLattice)) := by
  by_cases hab : b.rank = a.rank
  · obtain ⟨axes, rfl, rfl⟩ := exists_pairs ha hb hab
    obtain ⟨answer, hanswer, hiff⟩ := exists_isSubsetOf_map_eq_ok axes Prod.fst Prod.snd
    refine ⟨answer, hanswer, hiff.trans ?_⟩
    rw [← isEmpty_map_iff, and_iff_right hab]
    cases hempty : (ofIntervals (axes.map Prod.fst)).isEmpty with
    | true =>
        -- without a point in the first box there is nothing to include
        have hnone := contains_ne_true_of_isEmpty hempty
        exact iff_of_true (Or.inl rfl) ⟨fun p hp => absurd hp (hnone p), Or.inl rfl⟩
    | false =>
        have hpos : ∀ t ∈ axes, 0 < t.1.side.val := by
          intro t ht
          apply Int.not_le.1
          intro hside
          rw [(isEmpty_map_iff axes Prod.fst).2 ⟨t, ht, hside⟩] at hempty
          cases hempty
        rw [or_iff_right Bool.false_ne_true, or_iff_right Bool.false_ne_true]
        exact forall_inter_eq_left_iff hpos
  · exact ⟨false, if_neg hab, iff_of_false Bool.false_ne_true fun h => hab h.1⟩

theorem isSubsetOf_eq_ok_true_iff :
    a.isSubsetOf b = .ok true ↔ b.rank = a.rank ∧
      (∀ p, a.contains p = .ok true → b.contains p = .ok true) ∧
      (a.isEmpty = true ∨ a.EndsOnLattice) := by
  obtain ⟨answer, hanswer, hiff⟩ := exists_isSubsetOf_eq_ok ha hb
  rw [hanswer, Except.ok.injEq, hiff]

end Decision

/-- Between boxes with a corner and lengths of one rank, the question whether the first is included in the
second is always answered. The answer is that it is, exactly when the boxes have the same rank, every point
of the first is one of the second, and the first box has an axis of no length or ends on the lattice. So a
box is included in itself exactly in these two cases, and inclusion goes on from box to box. -/
theorem isSubsetOf_decides_inclusion (a b c : Box) (ha : a.corner.rank = a.sides.rank)
    (hb : b.corner.rank = b.sides.rank) (hc : c.corner.rank = c.sides.rank) :
    (∃ answer, a.isSubsetOf b = .ok answer ∧
      (answer = true ↔ b.rank = a.rank ∧
        (∀ p, a.contains p = .ok true → b.contains p = .ok true) ∧
        (a.isEmpty = true ∨ a.EndsOnLattice))) ∧
    (a.isSubsetOf a = .ok true ↔ a.isEmpty = true ∨ a.EndsOnLattice) ∧
    (a.isSubsetOf b = .ok true → b.isSubsetOf c = .ok true → a.isSubsetOf c = .ok true) := by
  refine ⟨exists_isSubsetOf_eq_ok ha hb, ?_, ?_⟩
  · rw [isSubsetOf_eq_ok_true_iff ha ha]
    constructor
    · intro h
      exact h.2.2
    · intro h
      exact ⟨rfl, fun p hp => hp, h⟩
  · rw [isSubsetOf_eq_ok_true_iff ha hb, isSubsetOf_eq_ok_true_iff hb hc, isSubsetOf_eq_ok_true_iff ha hc]
    rintro ⟨hab, hsubB, hends⟩ ⟨hbc, hsubC, -⟩
    exact ⟨hbc.trans hab, fun p hp => hsubC p (hsubB p hp), hends⟩

/-- A box inside a box inside a larger one that reaches past the far edge of the lattice. -/
theorem isSubsetOf_decides_inclusion_nested :
    (∀ p, (Box.mk ⟨[Coord.clamp 9223372036854775800, Coord.clamp (-1)]⟩
        ⟨[Coord.clamp 2, Coord.clamp 3]⟩).contains p = .ok true →
      (Box.mk ⟨[Coord.clamp 9223372036854775799, Coord.clamp (-2)]⟩
        ⟨[Coord.clamp 8, Coord.clamp 9]⟩).contains p = .ok true) ∧
    (Box.mk ⟨[Coord.clamp 9223372036854775800, Coord.clamp (-1)]⟩
        ⟨[Coord.clamp 2, Coord.clamp 3]⟩).isSubsetOf
      ⟨⟨[Coord.clamp 9223372036854775790, Coord.clamp (-5)]⟩, ⟨[Coord.clamp 90, Coord.clamp 90]⟩⟩ =
        .ok true := by
  obtain ⟨⟨answer, hanswer, hiff⟩, -, htrans⟩ := isSubsetOf_decides_inclusion
    ⟨⟨[Coord.clamp 9223372036854775800, Coord.clamp (-1)]⟩, ⟨[Coord.clamp 2, Coord.clamp 3]⟩⟩
    ⟨⟨[Coord.clamp 9223372036854775799, Coord.clamp (-2)]⟩, ⟨[Coord.clamp 8, Coord.clamp 9]⟩⟩
    ⟨⟨[Coord.clamp 9223372036854775790, Coord.clamp (-5)]⟩, ⟨[Coord.clamp 90, Coord.clamp 90]⟩⟩
    rfl rfl rfl
  cases hanswer
  exact ⟨(hiff.1 rfl).2.1, htrans rfl rfl⟩

/-- A row that begins two places before the greatest coordinate and asks for nine has only two points. It is not
included in itself, nor in the row of just these two points. -/
theorem isSubsetOf_past_edge :
    (Box.mk ⟨[Coord.clamp 9223372036854775805]⟩ ⟨[Coord.clamp 9]⟩).isSubsetOf
        ⟨⟨[Coord.clamp 9223372036854775805]⟩, ⟨[Coord.clamp 9]⟩⟩ = .ok false ∧
      (∀ p, (Box.mk ⟨[Coord.clamp 9223372036854775805]⟩ ⟨[Coord.clamp 9]⟩).contains p = .ok true →
        (Box.mk ⟨[Coord.clamp 9223372036854775805]⟩ ⟨[Coord.clamp 2]⟩).contains p = .ok true) ∧
      (Box.mk ⟨[Coord.clamp 9223372036854775805]⟩ ⟨[Coord.clamp 9]⟩).isSubsetOf
        ⟨⟨[Coord.clamp 9223372036854775805]⟩, ⟨[Coord.clamp 2]⟩⟩ = .ok false := by
  refine ⟨rfl, ?_, rfl⟩
  -- both rows end at the edge
  intro p hp
  rw [contains_eq_ok_true_iff rfl] at hp ⊢
  exact hp

end Box

end LatticeGrid
