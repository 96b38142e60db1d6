import LatticeGrid.Proofs.Copy.Overlap
import LatticeGrid.Proofs.Lattice.Intersection

/-!
# The overlap is an intersection of boxes

A source that is placed at an offset and a target are two boxes of the lattice, and the box in which they
overlap is the intersection of the two. `Overlap.between` computes it with differences, up to the first
axis without an overlap; `Box.inter` computes it with bounds that are held at the edge of the lattice, on
all axes, and raises negative lengths to zero. Both come to the same corner and the same lengths, and the
one finds no overlap exactly where the other finds an empty box.

The same box, seen from the source, is carried to the box in the target by the offset, and no sum leaves
the lattice on the way.

Main statement: `Overlap.between_eq_inter`.
-/

set_option autoImplicit false

namespace LatticeGrid

/-! ## One axis -/

namespace AxisOverlap

/-- The coordinates of the target that an overlap covers. -/
def toInterval (a : AxisOverlap) : Interval := ⟨Coord.clamp a.targetMin, Coord.clamp a.length⟩

section Axis

variable {o : Coord} {n m : Nat} {a : AxisOverlap}

theorem toInterval_side_pos (h : a.Exact o n m) : 0 < a.toInterval.side.val := by
  have hpos := h.length_pos
  show 0 < (Coord.clamp a.length).val
  rw [Coord.val_clamp]
  omega

variable (hn : n < 2 ^ 63) (hm : m < 2 ^ 63)

include hn hm

/-- The intersection of an axis of the target with the axis of a placed source, as numbers. -/
theorem inter_placed_eq :
    ((Interval.whole m).inter ⟨o, Coord.clamp n⟩).corner.val = max o.val 0 ∧
      ((Interval.whole m).inter ⟨o, Coord.clamp n⟩).side.val =
        max 0 (min (o.val + n) m - max o.val 0) := by
  obtain ⟨hcorner, hside⟩ := Interval.inter_whole_eq ⟨o, Coord.clamp n⟩ hm
  dsimp only at hcorner hside
  rw [Coord.val_clamp_natCast hn] at hside
  rw [Interval.inter_comm]
  exact ⟨hcorner, by omega⟩

/-- An exact overlap is the intersection. -/
theorem Exact.inter_eq_toInterval (h : a.Exact o n m) :
    (Interval.whole m).inter ⟨o, Coord.clamp n⟩ = a.toInterval := by
  obtain ⟨hcorner, hside⟩ := inter_placed_eq (o := o) hn hm
  obtain ⟨hstart, hstop⟩ := h.bounds
  have htarget := h.target_le
  have hlength := h.length_pos
  have hcorner' : ((Interval.whole m).inter ⟨o, Coord.clamp n⟩).corner = Coord.clamp a.targetMin := by
    apply Coord.ext
    rw [hcorner, Coord.val_clamp_natCast (by omega), hstart]
  have hside' : ((Interval.whole m).inter ⟨o, Coord.clamp n⟩).side = Coord.clamp a.length := by
    apply Coord.ext
    rw [hside, Coord.val_clamp_natCast (by omega)]
    omega
  exact congrArg₂ Interval.mk hcorner' hside'

/-- Where source and target do not meet, the intersection is empty. -/
theorem side_inter_le_zero (h : Apart o n m) :
    ((Interval.whole m).inter ⟨o, Coord.clamp n⟩).side.val ≤ 0 := by
  obtain ⟨-, hside⟩ := inter_placed_eq (o := o) hn hm
  -- otherwise they would meet at the corner
  have hcorner := h (max o.val 0).toNat (max o.val 0 - o.val).toNat
  omega

/-- The offset carries the start of an exact overlap in the source to its start in the target. -/
theorem Exact.add_offset (h : a.Exact o n m) :
    (Coord.clamp a.sourceMin).add o = .ok (Coord.clamp a.targetMin) := by
  have hplace := h.targetMin_eq
  have hsource := h.source_le
  have htarget := h.target_le
  apply Coord.checked_eq_ok_iff.2
  rw [Coord.val_clamp_natCast (by omega), Coord.val_clamp_natCast (by omega)]
  omega

end Axis

end AxisOverlap

/-! ## All axes -/

/-- The axes of the box that a source covers when it is placed at an offset. -/
def placedAxes (offset : List Coord) (source : List Nat) : List Interval :=
  List.zipWith (fun (o : Coord) (n : Nat) => ⟨o, Coord.clamp n⟩) offset source

/-- The axes of the intersection of the box of a target with the box of a placed source. -/
def sharedAxes (offset : List Coord) (source target : List Nat) : List Interval :=
  List.zipWith Interval.inter (target.map Interval.whole) (placedAxes offset source)

theorem placedBox_eq_ofIntervals {offset : List Coord} {source : List Nat}
    (h : source.length = offset.length) :
    Box.mk ⟨offset⟩ ⟨coordsOf source⟩ = Box.ofIntervals (placedAxes offset source) := by
  rw [Box.ofIntervals, placedAxes, List.map_zipWith, List.map_zipWith]
  induction offset generalizing source with
  | nil =>
      obtain rfl := List.eq_nil_of_length_eq_zero h
      rfl
  | cons o offset ih =>
      obtain ⟨n, source, rfl⟩ := List.exists_cons_of_length_eq_add_one h
      have hrest := Box.mk.inj (ih (Nat.succ.inj h))
      have hcorner := congrArg (List.cons o) (Point.mk.inj hrest.1)
      have hsides := congrArg (List.cons (Coord.clamp n)) (Point.mk.inj hrest.2)
      exact congrArg₂ Box.mk (congrArg Point.mk hcorner) (congrArg Point.mk hsides)

/-- Where an axis is left without an overlap, the intersection is empty on that axis. -/
theorem Clips.exists_side_le_zero {offset : List Coord} {source target : List Nat}
    {answer : Option (List AxisOverlap)} (h : Clips offset source target answer)
    (hnone : answer = none) (hsource : ∀ n ∈ source, n < 2 ^ 63) (htarget : ∀ m ∈ target, m < 2 ^ 63) :
    ∃ i ∈ sharedAxes offset source target, i.side.val ≤ 0 := by
  induction h with
  | nil => cases hnone
  | apart hapart =>
      simp only [List.mem_cons, forall_eq_or_imp] at hsource htarget
      have hside := AxisOverlap.side_inter_le_zero hsource.1 htarget.1 hapart
      exact ⟨_, List.mem_cons_self, hside⟩
  | meet _ _ ih =>
      simp only [List.mem_cons, forall_eq_or_imp] at hsource htarget
      obtain ⟨i, hi, hside⟩ := ih (Option.map_eq_none_iff.1 hnone) hsource.2 htarget.2
      exact ⟨i, List.mem_cons_of_mem _ hi, hside⟩

namespace Clipped

variable {offset : List Coord} {source target : List Nat} {axes : List AxisOverlap}

/-- The axes of the overlap are those of the intersection. -/
theorem sharedAxes_eq (h : Clipped offset source target axes) (hsource : ∀ n ∈ source, n < 2 ^ 63)
    (htarget : ∀ m ∈ target, m < 2 ^ 63) :
    sharedAxes offset source target = axes.map AxisOverlap.toInterval := by
  induction h with
  | nil => rfl
  | cons ha _ ih =>
      simp only [List.mem_cons, forall_eq_or_imp] at hsource htarget
      have hhead := ha.inter_eq_toInterval hsource.1 htarget.1
      exact congrArg₂ List.cons hhead (ih hsource.2 htarget.2)

theorem side_pos (h : Clipped offset source target axes) :
    ∀ i ∈ axes.map AxisOverlap.toInterval, 0 < i.side.val := by
  induction h with
  | nil => simp
  | cons ha _ ih =>
      rw [List.map_cons, List.forall_mem_cons]
      exact ⟨AxisOverlap.toInterval_side_pos ha, ih⟩

theorem add_offset (h : Clipped offset source target axes) (hsource : ∀ n ∈ source, n < 2 ^ 63)
    (htarget : ∀ m ∈ target, m < 2 ^ 63) :
    (Point.mk (coordsOf (axes.map (·.sourceMin)))).add ⟨offset⟩ =
      .ok ⟨coordsOf (axes.map (·.targetMin))⟩ := by
  induction h with
  | nil => rfl
  | cons ha _ ih =>
      simp only [List.mem_cons, forall_eq_or_imp] at hsource htarget
      exact Point.zipWithM_cons_eq_ok (ha.add_offset hsource.1 htarget.1) (ih hsource.2 htarget.2)

end Clipped

/-! ## The two boxes -/

/-- The intersection of the box of a target with the box of a placed source. -/
theorem Box.inter_placedBox_eq_ok {offset : Point} {source target : Shape}
    (hs : source.rank = offset.rank) (ht : target.rank = offset.rank) :
    (Box.ofIntervals (target.lengths.map Interval.whole)).inter ⟨offset, ⟨coordsOf source.lengths⟩⟩ =
      .ok (Box.ofIntervals (sharedAxes offset.coords source.lengths target.lengths)) := by
  have hlen : (target.lengths.map Interval.whole).length =
      (placedAxes offset.coords source.lengths).length := by
    have hs : source.lengths.length = offset.coords.length := hs
    have ht : target.lengths.length = offset.coords.length := ht
    rw [placedAxes, List.length_map, List.length_zipWith, hs, ht, Nat.min_self]
  have hbox : Box.mk offset ⟨coordsOf source.lengths⟩ =
      Box.ofIntervals (placedAxes offset.coords source.lengths) := placedBox_eq_ofIntervals hs
  rw [hbox, Box.inter_ofIntervals hlen]
  rfl

namespace Overlap

theorem targetBox_ofAxes (axes : List AxisOverlap) :
    (ofAxes axes).targetBox = Box.ofIntervals (axes.map AxisOverlap.toInterval) := by
  simp only [targetBox, boxAt, ofAxes, Box.ofIntervals, List.map_map]
  rfl

/-- The offset carries the box in the source to the box in the target. -/
theorem shift_sourceBox_ofAxes {offset : Point} {source target : List Nat} {axes : List AxisOverlap}
    (h : Clipped offset.coords source target axes) (hsource : ∀ n ∈ source, n < 2 ^ 63)
    (htarget : ∀ m ∈ target, m < 2 ^ 63) :
    (ofAxes axes).sourceBox.shift offset = .ok (ofAxes axes).targetBox :=
  bind_eq_ok_iff.2 ⟨_, h.add_offset hsource htarget, rfl⟩

/-- Between grids of equal rank, without an empty axis and with axes that fit the lattice, the overlap is
the intersection of the box of the target with the box of the placed source: there is none exactly when
that box is empty, and otherwise it has the same corner and the same lengths. The box of the overlap in
the source, moved by the offset, is the box in the target; the sum does not leave the lattice. -/
theorem between_eq_inter (offset : Point) (source target : Shape) (hs : source.rank = offset.rank)
    (ht : target.rank = offset.rank) (hsource : ∀ n ∈ source.lengths, 0 < n ∧ n < 2 ^ 63)
    (htarget : ∀ m ∈ target.lengths, 0 < m ∧ m < 2 ^ 63) :
    ∃ sides whole part answer, source.toPoint = .ok sides ∧ Box.ofShape target = .ok whole ∧
      whole.inter ⟨offset, sides⟩ = .ok part ∧ between offset source target = .ok answer ∧
      (answer = none ↔ part.isEmpty = true) ∧
      ∀ o, answer = some o → o.targetBox = part ∧ o.sourceBox.shift offset = .ok o.targetBox := by
  have hsource' : ∀ n ∈ source.lengths, n < 2 ^ 63 := fun n hn => (hsource n hn).2
  have htarget' : ∀ m ∈ target.lengths, m < 2 ^ 63 := fun m hm => (htarget m hm).2
  have hempty : (source.isEmpty || target.isEmpty) = false := by
    rw [Bool.or_eq_false_iff, Shape.isEmpty_eq_false_iff, Shape.isEmpty_eq_false_iff]
    exact ⟨fun n hn => (hsource n hn).1, fun m hm => (htarget m hm).1⟩
  obtain ⟨axes, hclip, hclips⟩ := exists_clip_eq_ok hs ht hsource' htarget'
  refine ⟨_, _, _, axes.map ofAxes, Shape.toPoint_eq_ok hsource', Box.ofShape_eq_ok htarget',
    Box.inter_placedBox_eq_ok hs ht,
    between_of_isEmpty_eq_false hs ht hempty hsource' htarget' hclip, ?_⟩
  cases axes with
  | none =>
      constructor
      · have hside := hclips.exists_side_le_zero rfl hsource' htarget'
        exact iff_of_true rfl (Box.isEmpty_ofIntervals_iff.2 hside)
      · intro o ho
        cases ho
  | some axes =>
      have hclipped := hclips.clipped rfl
      have hshared := hclipped.sharedAxes_eq hsource' htarget'
      constructor
      · -- every axis of the overlap has a positive length
        refine iff_of_false (Option.some_ne_none _) fun hpart => ?_
        obtain ⟨i, hi, hside⟩ := Box.isEmpty_ofIntervals_iff.1 hpart
        have hpos := hclipped.side_pos i (hshared ▸ hi)
        omega
      · intro o ho
        obtain rfl := Option.some.inj ho
        exact ⟨(targetBox_ofAxes axes).trans (congrArg Box.ofIntervals hshared.symm),
          shift_sourceBox_ofAxes hclipped hsource' htarget'⟩

/-- A rectangle placed across the near edge of the outer axis, and one placed so far out that its end is
held at the edge of the lattice. -/
theorem between_eq_inter_at_edges :
    (∃ part, (Box.mk (Point.zero 2) ⟨[Coord.clamp 2, Coord.clamp 6]⟩).inter
        ⟨⟨[Coord.clamp (-1), Coord.clamp 3]⟩, ⟨[Coord.clamp 4, Coord.clamp 5]⟩⟩ = .ok part ∧
      (Overlap.mk [0, 3] [1, 0] ⟨[2, 3]⟩).targetBox = part ∧
      (Overlap.mk [0, 3] [1, 0] ⟨[2, 3]⟩).sourceBox.shift ⟨[Coord.clamp (-1), Coord.clamp 3]⟩ =
        .ok part) ∧
    ∃ part, (Box.mk (Point.zero 1) ⟨[Coord.clamp 3]⟩).inter
        ⟨⟨[Coord.clamp 9223372036854775807]⟩, ⟨[Coord.clamp 2]⟩⟩ = .ok part ∧
      part.isEmpty = true := by
  constructor
  · obtain ⟨sides, whole, part, answer, hsides, hwhole, hpart, hanswer, -, hbox⟩ :=
      between_eq_inter ⟨[Coord.clamp (-1), Coord.clamp 3]⟩ ⟨[4, 5]⟩ ⟨[2, 6]⟩ rfl rfl (by decide)
        (by decide)
    cases hsides
    cases hwhole
    cases hanswer
    obtain ⟨htarget, hshift⟩ := hbox _ rfl
    exact ⟨part, hpart, htarget, hshift.trans (congrArg Except.ok htarget)⟩
  · obtain ⟨sides, whole, part, answer, hsides, hwhole, hpart, hanswer, hnone, -⟩ :=
      between_eq_inter ⟨[Coord.clamp 9223372036854775807]⟩ ⟨[2]⟩ ⟨[3]⟩ rfl rfl (by decide)
        (by decide)
    cases hsides
    cases hwhole
    cases hanswer
    exact ⟨part, hpart, hnone.1 rfl⟩

end Overlap

end LatticeGrid
