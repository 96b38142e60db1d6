import LatticeGrid.Proofs.Lattice.Inclusion

/-!
# Boxes between two bounds

`Box.ofBounds` makes a box from a corner and an upper bound. The bounds can be up to `2^64 - 1` apart, but
the length of an axis is itself a coordinate and so at most `2^63 - 1`: a longer axis is cut at the greatest
length after its corner (`Interval.val_upper_ofBounds`). Up to that length the box has just the points
between the bounds, also where bounds are crossed and no point is between them, and it gives its upper bound
back.

Main statement: `Box.contains_ofBounds`.
-/

set_option autoImplicit false

namespace LatticeGrid

/-! ## One axis -/

namespace Interval

variable {lower upper : Coord}

/-- Crossed bounds end where they begin, and far bounds end one greatest length after the first. -/
theorem val_upper_ofBounds (lower upper : Coord) :
    (ofBounds lower upper).upper.val =
      max lower.val (min upper.val (lower.val + 9223372036854775807)) := by
  have hlower := lower.upper
  have hupper := upper.upper
  rw [val_upper, val_side_ofBounds]
  show min (lower.val + max 0 (max 0 (min (upper.val - lower.val) 9223372036854775807)))
    9223372036854775807 = _
  omega

theorem contains_ofBounds_iff {c : Coord} :
    (ofBounds lower upper).Contains c ↔
      (lower ≤ c ∧ c < upper) ∧ c.val < lower.val + 9223372036854775807 := by
  rw [Contains, Coord.lt_def, val_upper_ofBounds]
  show lower ≤ c ∧ _ ↔ _
  rw [Coord.le_def, Coord.lt_def]
  omega

/-- No coordinate between the bounds is lost as long as they are not too far apart. -/
theorem between_imp_contains_iff :
    (∀ c, lower ≤ c ∧ c < upper → (ofBounds lower upper).Contains c) ↔
      upper.val - lower.val ≤ 9223372036854775807 := by
  simp only [contains_ofBounds_iff]
  constructor
  · intro hall
    -- the bounds are tested at the last coordinate before the upper one
    have hlower := lower.lower
    have hupper := upper.upper
    have hlast := hall (Coord.clamp (upper.val - 1))
    rw [Coord.le_def, Coord.lt_def, Coord.val_clamp] at hlast
    omega
  · intro hlong c hc
    refine ⟨hc, ?_⟩
    obtain ⟨-, hupp⟩ := hc
    rw [Coord.lt_def] at hupp
    omega

theorem upper_ofBounds_eq_iff :
    (ofBounds lower upper).upper = upper ↔
      lower ≤ upper ∧ upper.val - lower.val ≤ 9223372036854775807 := by
  rw [Coord.ext_iff, val_upper_ofBounds, Coord.le_def]
  omega

end Interval

namespace Box

/-! ## All axes -/

section Axes

variable {axes : List (Coord × Coord)}

/-- The box of the bounds on each axis. -/
def spanOf (axes : List (Coord × Coord)) : Box :=
  ofIntervals (axes.map fun t => Interval.ofBounds t.1 t.2)

theorem contains_spanOf_iff {p : Point} :
    (spanOf axes).contains p = .ok true ↔
      List.Forall₂ (fun t c => (Interval.ofBounds t.1 t.2).Contains c) axes p.coords :=
  contains_eq_ok_true_iff_forall₂.trans List.forall₂_map_left_iff

/-- A box has the points between its bounds that are less than the greatest length past the corner. -/
theorem forall₂_contains_ofBounds_iff {p : List Coord} :
    List.Forall₂ (fun t c => (Interval.ofBounds t.1 t.2).Contains c) axes p ↔
      List.Forall₂ (fun t c => t.1 ≤ c ∧ c < t.2) axes p ∧
        ∀ q ∈ (axes.map Prod.fst).zip p, q.2.val < q.1.val + 9223372036854775807 := by
  induction axes generalizing p with
  | nil => simp
  | cons t axes ih =>
      cases p with
      | nil => simp
      | cons c p =>
          rw [List.forall₂_cons, List.forall₂_cons, ih, Interval.contains_ofBounds_iff, List.map_cons,
            List.zip_cons_cons, List.forall_mem_cons, and_and_and_comm]

/-- The box has all points between its bounds exactly when there is no such point or no axis is too
long. -/
theorem contains_spanOf_iff_between :
    (∀ p, (spanOf axes).contains p = .ok true ↔
        List.Forall₂ (fun t c => t.1 ≤ c ∧ c < t.2) axes p.coords) ↔
      (∃ t ∈ axes, t.2 ≤ t.1) ∨ ∀ t ∈ axes, t.2.val - t.1.val ≤ 9223372036854775807 := by
  simp only [contains_spanOf_iff]
  by_cases hcrossed : ∃ t ∈ axes, t.2 ≤ t.1
  · -- neither side has a point
    obtain ⟨t, ht, hle⟩ := hcrossed
    have hnone (p : List Coord) : ¬ List.Forall₂ (fun t c => t.1 ≤ c ∧ c < t.2) axes p := by
      intro hp
      obtain ⟨c, hlow, hupp⟩ := exists_forall₂_iff.1 ⟨p, hp⟩ t ht
      rw [Coord.le_def] at hle hlow
      rw [Coord.lt_def] at hupp
      omega
    refine iff_of_true (fun p => iff_of_false ?_ (hnone p.coords)) (Or.inl ⟨t, ht, hle⟩)
    rw [forall₂_contains_ofBounds_iff]
    exact fun hp => hnone p.coords hp.1
  · have hlt : ∀ t ∈ axes, t.1 < t.2 := by
      intro t ht
      rw [Coord.lt_def]
      have hle : ¬ t.2 ≤ t.1 := fun hle => hcrossed ⟨t, ht, hle⟩
      rw [Coord.le_def] at hle
      omega
    have hpoint : ∀ t ∈ axes, ∃ c, t.1 ≤ c ∧ c < t.2 :=
      fun t ht => ⟨t.1, Int.le_refl _, hlt t ht⟩
    rw [or_iff_right hcrossed]
    calc (∀ p : Point, List.Forall₂ _ axes p.coords ↔ List.Forall₂ _ axes p.coords)
        ↔ ∀ p, List.Forall₂ (fun t c => t.1 ≤ c ∧ c < t.2) axes p →
            List.Forall₂ (fun t c => (Interval.ofBounds t.1 t.2).Contains c) axes p := by
          constructor
          · intro hall p hp
            exact (hall ⟨p⟩).2 hp
          · intro hall p
            exact ⟨fun hp => (forall₂_contains_ofBounds_iff.1 hp).1, hall p.coords⟩
      _ ↔ ∀ t ∈ axes, ∀ c, t.1 ≤ c ∧ c < t.2 → (Interval.ofBounds t.1 t.2).Contains c :=
          forall₂_imp_iff hpoint
      _ ↔ ∀ t ∈ axes, t.2.val - t.1.val ≤ 9223372036854775807 :=
          forall₂_congr fun _ _ => Interval.between_imp_contains_iff

end Axes

/-- Between any two points of one rank there is a box, and it answers for every point whether it lies in the
box: on every axis from the corner on, before the upper bound, and less than the greatest length, `2^63 - 1`,
past the corner. So the box has all the points between the bounds, and no others, exactly when some axis has
crossed bounds or no axis is longer than the greatest length. It ends at the upper bound exactly when no axis
has its bounds crossed or is longer than that. -/
theorem contains_ofBounds (corner upper : Point) (hrank : corner.rank = upper.rank) :
    ∃ box last, ofBounds corner upper = .ok box ∧ box.upper = .ok last ∧
      (∀ p, ∃ answer, box.contains p = .ok answer ∧
        (answer = true ↔ (corner.AllLE p ∧ p.AllLT upper) ∧
          ∀ q ∈ corner.coords.zip p.coords, q.2.val < q.1.val + 9223372036854775807)) ∧
      ((∀ p, box.contains p = .ok true ↔ corner.AllLE p ∧ p.AllLT upper) ↔
        (∃ q ∈ corner.coords.zip upper.coords, q.2 ≤ q.1) ∨
          ∀ q ∈ corner.coords.zip upper.coords, q.2.val - q.1.val ≤ 9223372036854775807) ∧
      (last = upper ↔ ∀ q ∈ corner.coords.zip upper.coords,
        q.1 ≤ q.2 ∧ q.2.val - q.1.val ≤ 9223372036854775807) := by
  obtain ⟨corner⟩ := corner
  obtain ⟨upper⟩ := upper
  obtain ⟨axes, rfl, rfl⟩ := exists_eq_map_of_length_eq hrank
  have hzip : (axes.map Prod.fst).zip (axes.map Prod.snd) = axes := by
    rw [List.zip_map']
    exact List.map_id axes
  refine ⟨spanOf axes, _, ofBounds_map_eq_ok axes Prod.fst Prod.snd, upper_ofIntervals _, ?_, ?_, ?_⟩
  · intro p
    obtain ⟨answer, hanswer, hiff⟩ :=
      exists_contains_eq_ok (axes.map fun t => Interval.ofBounds t.1 t.2) p
    refine ⟨answer, hanswer, ?_⟩
    rw [hiff, List.forall₂_map_left_iff, forall₂_contains_ofBounds_iff, allLE_and_allLT_map_iff]
  · simp only [allLE_and_allLT_map_iff, hzip]
    exact contains_spanOf_iff_between
  · rw [hzip, Point.mk.injEq, List.map_map, List.map_inj_left]
    exact forall₂_congr fun _ _ => Interval.upper_ofBounds_eq_iff

/-- Bounds at the two ends of the lattice on one axis and crossed ones on the other, with no point between
them; and a row as long as a row can be, which ends at its upper bound. -/
theorem contains_ofBounds_at_edges :
    (∃ box, ofBounds ⟨[Coord.clamp (-9223372036854775808), Coord.clamp 3]⟩
        ⟨[Coord.clamp 9223372036854775807, Coord.clamp 1]⟩ = .ok box ∧
      ∀ p, box.contains p = .ok true ↔
        (Point.mk [Coord.clamp (-9223372036854775808), Coord.clamp 3]).AllLE p ∧
          p.AllLT ⟨[Coord.clamp 9223372036854775807, Coord.clamp 1]⟩) ∧
    ∃ box, ofBounds ⟨[Coord.clamp (-9223372036854775808)]⟩ ⟨[Coord.clamp (-1)]⟩ = .ok box ∧
      box.upper = .ok ⟨[Coord.clamp (-1)]⟩ ∧ box.contains ⟨[Coord.clamp (-2)]⟩ = .ok true := by
  constructor
  · obtain ⟨box, last, hbox, -, -, hpoints, -⟩ :=
      contains_ofBounds ⟨[Coord.clamp (-9223372036854775808), Coord.clamp 3]⟩
        ⟨[Coord.clamp 9223372036854775807, Coord.clamp 1]⟩ rfl
    exact ⟨box, hbox, hpoints.2 (Or.inl (by decide))⟩
  · obtain ⟨box, last, hbox, hlast, hcontains, -, hend⟩ :=
      contains_ofBounds ⟨[Coord.clamp (-9223372036854775808)]⟩ ⟨[Coord.clamp (-1)]⟩ rfl
    obtain ⟨answer, hanswer, hiff⟩ := hcontains ⟨[Coord.clamp (-2)]⟩
    obtain rfl := hend.2 (by decide)
    exact ⟨box, hbox, hlast, hanswer.trans (congrArg Except.ok (hiff.2 (by decide)))⟩

/-- From the near edge of the lattice up to the origin there are `2^63` coordinates, one more than a box can
have on an axis. The last of them is lost, and the box ends there. -/
theorem contains_ofBounds_one_too_long :
    ∃ box, ofBounds ⟨[Coord.clamp (-9223372036854775808)]⟩ ⟨[Coord.clamp 0]⟩ = .ok box ∧
      (Point.mk [Coord.clamp (-9223372036854775808)]).AllLE ⟨[Coord.clamp (-1)]⟩ ∧
      (Point.mk [Coord.clamp (-1)]).AllLT ⟨[Coord.clamp 0]⟩ ∧
      box.contains ⟨[Coord.clamp (-1)]⟩ = .ok false ∧
      (Point.mk [Coord.clamp (-9223372036854775808)]).AllLE ⟨[Coord.clamp 0]⟩ ∧
      box.upper = .ok ⟨[Coord.clamp (-1)]⟩ ∧ Coord.clamp (-1) ≠ Coord.clamp 0 :=
  ⟨_, rfl, by decide, by decide, rfl, by decide, rfl, by decide⟩

end Box

end LatticeGrid
