import LatticeGrid.Proofs.Lattice.Intersection
import LatticeGrid.Proofs.Lattice.Points
import Mathlib.Data.List.Forall2
import Mathlib.Data.List.Zip

/-!
# Laws of the intersection

The bounds of a box are held at the edge of the lattice before they are compared, and the length of an
intersection is a difference of such bounds, raised to zero where they cross. Neither loses anything. On one
axis the intersection begins at the greater corner and ends at the lesser upper bound, or at its own corner
if the intervals do not meet (`Interval.val_upper_inter`); both are symmetric in the intervals, and both go
through another intersection unchanged. So the points of an intersection are those of both boxes, and the
order in which boxes are intersected does not show in the answer, not even in the corner of an empty one.

Main statement: `Box.contains_inter`.
-/

set_option autoImplicit false

namespace LatticeGrid

/-! ## One axis -/

namespace Interval

/-- A coordinate of the lattice lies in the interval, up to and without an end that may be held at the
edge. -/
def Contains (i : Interval) (c : Coord) : Prop := i.corner ≤ c ∧ c < i.upper

/-- An intersection ends at the lesser end, or where it begins if the intervals do not meet. -/
theorem val_upper_inter (a b : Interval) :
    (a.inter b).upper.val = max (min a.upper.val b.upper.val) (max a.corner.val b.corner.val) := by
  have hupper := a.upper.upper
  have ha := a.corner.upper
  have hb := b.corner.upper
  rw [val_upper, val_corner_inter, val_side_inter]
  omega

/-- An end that is lost where two intervals do not meet does not matter to a third one: the length is
then zero either way. -/
theorem val_side_inter_inter (a b c : Interval) :
    ((a.inter b).inter c).side.val =
      max 0 (min (min a.upper.val b.upper.val) c.upper.val -
        max (max a.corner.val b.corner.val) c.corner.val) := by
  rw [val_side_inter, val_upper_inter, val_corner_inter]
  generalize min a.upper.val b.upper.val = upper
  generalize max a.corner.val b.corner.val = corner
  omega

theorem inter_assoc (a b c : Interval) : (a.inter b).inter c = a.inter (b.inter c) := by
  have hcorner : ((a.inter b).inter c).corner = (a.inter (b.inter c)).corner := by
    apply Coord.ext
    simp only [val_corner_inter, Int.max_assoc]
  have hside : ((a.inter b).inter c).side = (a.inter (b.inter c)).side := by
    apply Coord.ext
    rw [a.inter_comm (b.inter c), val_side_inter_inter, val_side_inter_inter, Int.min_assoc,
      Int.min_comm a.upper.val, Int.max_assoc, Int.max_comm a.corner.val]
  exact congrArg₂ mk hcorner hside

theorem contains_inter_iff {a b : Interval} {c : Coord} :
    (a.inter b).Contains c ↔ a.Contains c ∧ b.Contains c := by
  simp only [Contains, Coord.le_def, Coord.lt_def, val_corner_inter, val_upper_inter]
  omega

/-- An intersection has no negative length and does not reach past the far edge of the lattice. -/
theorem side_inter_bounds (a b : Interval) :
    0 ≤ (a.inter b).side.val ∧
      (a.inter b).corner.val + (a.inter b).side.val ≤ 9223372036854775807 := by
  have hupper := a.upper.upper
  have ha := a.corner.upper
  have hb := b.corner.upper
  rw [val_corner_inter, val_side_inter]
  omega

end Interval

namespace Box

/-! ## What a box contains -/

/-- A point lies between two points when each of its coordinates lies between theirs. -/
theorem allLE_and_allLT_map_iff {ι : Type} {lower upper : ι → Coord} {axes : List ι} {p : Point} :
    Point.AllLE ⟨axes.map lower⟩ p ∧ p.AllLT ⟨axes.map upper⟩ ↔
      List.Forall₂ (fun t c => lower t ≤ c ∧ c < upper t) axes p.coords := by
  obtain ⟨p⟩ := p
  induction axes generalizing p with
  | nil =>
      rw [List.forall₂_nil_left_iff]
      constructor
      · intro h
        exact List.eq_nil_of_length_eq_zero h.1.1.symm
      · rintro rfl
        exact ⟨⟨rfl, List.forall_mem_nil _⟩, rfl, List.forall_mem_nil _⟩
  | cons t axes ih =>
      cases p with
      | nil =>
          constructor
          · intro h
            cases h.1.1
          · intro h
            cases h
      | cons c p =>
          rw [List.map_cons, List.map_cons, Point.allLE_cons, Point.allLT_cons, List.forall₂_cons, ← ih,
            and_and_and_comm]

/-- A box answers for every point whether it lies in the box, axis by axis. A point of another rank does
not. -/
theorem exists_contains_eq_ok (axes : List Interval) (p : Point) :
    ∃ answer, (ofIntervals axes).contains p = .ok answer ∧
      (answer = true ↔ List.Forall₂ Interval.Contains axes p.coords) :=
  ⟨_, contains_eq_ok (upper_ofIntervals axes) p, decide_eq_true_iff.trans allLE_and_allLT_map_iff⟩

theorem forall₂_contains_inter_iff {as bs : List Interval} {p : List Coord} (h : as.length = bs.length) :
    List.Forall₂ Interval.Contains (List.zipWith Interval.inter as bs) p ↔
      List.Forall₂ Interval.Contains as p ∧ List.Forall₂ Interval.Contains bs p := by
  induction as generalizing bs p with
  | nil =>
      obtain rfl := List.eq_nil_of_length_eq_zero h.symm
      simp
  | cons a as ih =>
      obtain ⟨b, bs, rfl⟩ := List.exists_cons_of_length_eq_add_one h.symm
      cases p with
      | nil => simp
      | cons c p =>
          rw [List.zipWith_cons_cons, List.forall₂_cons, List.forall₂_cons, List.forall₂_cons,
            Interval.contains_inter_iff, ih (Nat.succ.inj h), and_and_and_comm]

/-- The intersection of two boxes contains a point exactly when both of them do. -/
theorem exists_contains_inter_eq_ok {as bs : List Interval} (h : as.length = bs.length) (p : Point) :
    ∃ inA inB, (ofIntervals as).contains p = .ok inA ∧ (ofIntervals bs).contains p = .ok inB ∧
      (ofIntervals (List.zipWith Interval.inter as bs)).contains p = .ok (inA && inB) := by
  obtain ⟨inA, hinA, hA⟩ := exists_contains_eq_ok as p
  obtain ⟨inB, hinB, hB⟩ := exists_contains_eq_ok bs p
  obtain ⟨inBoth, hinBoth, hBoth⟩ := exists_contains_eq_ok (List.zipWith Interval.inter as bs) p
  have hand : inBoth = (inA && inB) := by
    rw [Bool.eq_iff_iff, Bool.and_eq_true, hA, hB, hBoth, forall₂_contains_inter_iff h]
  exact ⟨inA, inB, hinA, hinB, hand ▸ hinBoth⟩

/-! ## Boxes that end on the lattice -/

/-- No axis of the box reaches past the far edge of the lattice. -/
def EndsOnLattice (b : Box) : Prop :=
  ∀ q ∈ b.corner.coords.zip b.sides.coords, q.1.val + max q.2.val 0 ≤ 9223372036854775807

instance (b : Box) : Decidable b.EndsOnLattice :=
  inferInstanceAs (Decidable (∀ q ∈ b.corner.coords.zip b.sides.coords,
    q.1.val + max q.2.val 0 ≤ 9223372036854775807))

theorem endsOnLattice_ofIntervals_iff {axes : List Interval} :
    (ofIntervals axes).EndsOnLattice ↔
      ∀ i ∈ axes, i.corner.val + max i.side.val 0 ≤ 9223372036854775807 := by
  rw [EndsOnLattice, ofIntervals, List.zip_map', List.forall_mem_map]

/-! ## The laws -/

/-- What holds of the intersection of any two axes of two boxes holds of the axes of their intersection. -/
theorem forall_mem_zipWith_inter {P : Interval → Prop} {as bs : List Interval}
    (h : ∀ a ∈ as, ∀ b ∈ bs, P (a.inter b)) : ∀ i ∈ List.zipWith Interval.inter as bs, P i := by
  rw [← List.map_uncurry_zip_eq_zipWith, List.forall_mem_map]
  intro q hq
  exact h q.1 (List.of_mem_zip hq).1 q.2 (List.of_mem_zip hq).2

theorem inter_bounds (as bs : List Interval) :
    (∀ side ∈ (ofIntervals (List.zipWith Interval.inter as bs)).sides.coords, 0 ≤ side.val) ∧
      (ofIntervals (List.zipWith Interval.inter as bs)).EndsOnLattice := by
  rw [endsOnLattice_ofIntervals_iff, ofIntervals, List.forall_mem_map]
  constructor
  · exact forall_mem_zipWith_inter fun a _ b _ => (Interval.side_inter_bounds a b).1
  · apply forall_mem_zipWith_inter
    intro a _ b _
    obtain ⟨hside, hends⟩ := Interval.side_inter_bounds a b
    rwa [Int.max_eq_left hside]

theorem zipWith_inter_assoc (as bs cs : List Interval) :
    List.zipWith Interval.inter (List.zipWith Interval.inter as bs) cs =
      List.zipWith Interval.inter as (List.zipWith Interval.inter bs cs) := by
  rw [List.zipWith_zipWith_left, List.zipWith_zipWith_right]
  simp only [Interval.inter_assoc]

/-- Two boxes, each with a corner and lengths of one rank, the same for both, have an intersection, however
far they reach and also where their lengths are negative. It contains a point exactly when both boxes do,
it has no negative length, and it ends on the lattice. The intersection does not depend on the order of the
two boxes, and with a third box it does not depend on which two are intersected first, whether or not any of
the intersections is empty. -/
theorem contains_inter (a b c : Box) (ha : a.corner.rank = a.sides.rank)
    (hb : b.corner.rank = b.sides.rank) (hc : c.corner.rank = c.sides.rank) (hab : b.rank = a.rank)
    (hac : c.rank = a.rank) :
    (∃ both, a.inter b = .ok both ∧ b.inter a = .ok both ∧
      both.corner.rank = a.rank ∧ both.sides.rank = a.rank ∧
      (∀ p, ∃ inA inB, a.contains p = .ok inA ∧ b.contains p = .ok inB ∧
        both.contains p = .ok (inA && inB)) ∧
      (∀ side ∈ both.sides.coords, 0 ≤ side.val) ∧ both.EndsOnLattice) ∧
    ∃ ab bc all, a.inter b = .ok ab ∧ b.inter c = .ok bc ∧
      ab.inter c = .ok all ∧ a.inter bc = .ok all := by
  obtain ⟨as, has, rfl⟩ := exists_eq_ofIntervals ha
  obtain ⟨bs, hbs, rfl⟩ := exists_eq_ofIntervals hb
  obtain ⟨cs, hcs, rfl⟩ := exists_eq_ofIntervals hc
  have hlenB : as.length = bs.length := has.trans (hab.symm.trans hbs.symm)
  have hlenC : bs.length = cs.length := hlenB.symm.trans (has.trans (hac.symm.trans hcs.symm))
  have hlen : (List.zipWith Interval.inter as bs).length = as.length := by
    rw [List.length_zipWith, ← hlenB, Nat.min_self]
  have hlen' : as.length = (List.zipWith Interval.inter bs cs).length := by
    rw [List.length_zipWith, ← hlenC, Nat.min_self, hlenB]
  have hcomm : List.zipWith Interval.inter bs as = List.zipWith Interval.inter as bs :=
    List.zipWith_comm_of_comm Interval.inter_comm
  obtain ⟨hsides, hends⟩ := inter_bounds as bs
  refine ⟨⟨_, inter_ofIntervals hlenB, ?_, ?_, ?_, exists_contains_inter_eq_ok hlenB, hsides, hends⟩,
    _, _, _, inter_ofIntervals hlenB, inter_ofIntervals hlenC,
    inter_ofIntervals (hlen.trans (hlenB.trans hlenC)), ?_⟩
  · rw [inter_ofIntervals hlenB.symm, hcomm]
  · exact (List.length_map _).trans (hlen.trans has)
  · exact (List.length_map _).trans (hlen.trans has)
  · rw [inter_ofIntervals hlen', zipWith_inter_assoc]

/-- A row from the near edge of the lattice on, as long as a row can be, and a short one that reaches past
its end; and three rows of which the first two lie at opposite ends of the lattice, the last with a negative
length. -/
theorem contains_inter_at_edges :
    (∃ both, (Box.mk ⟨[Coord.clamp (-9223372036854775808)]⟩ ⟨[Coord.clamp 9223372036854775807]⟩).inter
        ⟨⟨[Coord.clamp (-3)]⟩, ⟨[Coord.clamp 5]⟩⟩ = .ok both ∧
      both.contains ⟨[Coord.clamp (-2)]⟩ = .ok true ∧
      both.contains ⟨[Coord.clamp (-1)]⟩ = .ok false ∧ both.EndsOnLattice) ∧
    ∃ ab bc all, (Box.mk ⟨[Coord.clamp (-9223372036854775808)]⟩ ⟨[Coord.clamp 1]⟩).inter
        ⟨⟨[Coord.clamp 9223372036854775806]⟩, ⟨[Coord.clamp 5]⟩⟩ = .ok ab ∧
      (Box.mk ⟨[Coord.clamp 9223372036854775806]⟩ ⟨[Coord.clamp 5]⟩).inter
        ⟨⟨[Coord.clamp 0]⟩, ⟨[Coord.clamp (-4)]⟩⟩ = .ok bc ∧
      ab.inter ⟨⟨[Coord.clamp 0]⟩, ⟨[Coord.clamp (-4)]⟩⟩ = .ok all ∧
      (Box.mk ⟨[Coord.clamp (-9223372036854775808)]⟩ ⟨[Coord.clamp 1]⟩).inter bc = .ok all := by
  constructor
  · obtain ⟨⟨both, hboth, -, -, -, hpoints, -, hends⟩, -⟩ :=
      contains_inter ⟨⟨[Coord.clamp (-9223372036854775808)]⟩, ⟨[Coord.clamp 9223372036854775807]⟩⟩
        ⟨⟨[Coord.clamp (-3)]⟩, ⟨[Coord.clamp 5]⟩⟩ ⟨⟨[Coord.clamp 0]⟩, ⟨[Coord.clamp 1]⟩⟩
        rfl rfl rfl rfl rfl
    refine ⟨both, hboth, ?_, ?_, hends⟩
    · obtain ⟨inA, inB, hA, hB, hin⟩ := hpoints ⟨[Coord.clamp (-2)]⟩
      cases hA
      cases hB
      exact hin
    · obtain ⟨inA, inB, hA, hB, hin⟩ := hpoints ⟨[Coord.clamp (-1)]⟩
      cases hA
      cases hB
      exact hin
  · exact (contains_inter ⟨⟨[Coord.clamp (-9223372036854775808)]⟩, ⟨[Coord.clamp 1]⟩⟩
      ⟨⟨[Coord.clamp 9223372036854775806]⟩, ⟨[Coord.clamp 5]⟩⟩
      ⟨⟨[Coord.clamp 0]⟩, ⟨[Coord.clamp (-4)]⟩⟩ rfl rfl rfl rfl rfl).2

end Box

end LatticeGrid
