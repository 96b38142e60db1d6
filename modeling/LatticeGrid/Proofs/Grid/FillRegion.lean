import LatticeGrid.Grid.Fill
import LatticeGrid.Proofs.Grid.Element
import LatticeGrid.Proofs.Layout.Clipping

/-!
# Filling a box

`Grid.fillRegion` takes one of three ways: it leaves the grid alone if the box or the grid is empty, it
writes the whole store if the box is the whole grid, and else it visits the part of the box that lies in
the grid. Each way leaves the value at the multi-indices of the grid that the box covers in unbounded
integers, and the old elements elsewhere (`Grid.IsFilled`), so all three come to the same.

The visit of the part writes one multi-index after the other (`Grid.exists_foldl_setAt_eq_ok`).

Main statement: `Grid.element?_fillRegion`.
-/

set_option autoImplicit false

namespace LatticeGrid

/-! ## Boxes that cover nothing, and boxes that cover everything -/

namespace Box

theorem not_covers_of_isEmpty {axes : List Interval} (h : (ofIntervals axes).isEmpty = true)
    (p : List Int) : ¬ (ofIntervals axes).Covers p := by
  induction axes generalizing p with
  | nil => cases h
  | cons i axes ih =>
      cases p with
      | nil =>
          intro hp
          cases hp.1
      | cons x p =>
          rw [covers_cons]
          rintro ⟨hx, hp⟩
          have hempty : (decide (i.side.val ≤ 0) || (ofIntervals axes).isEmpty) = true := h
          rw [Bool.or_eq_true, decide_eq_true_eq] at hempty
          rcases hempty with hside | hrest
          · have hlow := hx.1
            have hupp := hx.2
            omega
          · exact ih hrest p hp

/-- A box at the origin covers the multi-indices of its lengths. -/
theorem covers_of_isZero {axes : List Interval} (h : (ofIntervals axes).corner.isZero = true)
    {p : Index} (hp : p ∈ (ofIntervals axes).unsignedShape) :
    (ofIntervals axes).Covers (p.map Int.ofNat) := by
  induction axes generalizing p with
  | nil =>
      obtain rfl := List.eq_nil_of_length_eq_zero hp.1
      decide
  | cons i axes ih =>
      cases p with
      | nil => exact absurd hp (Shape.not_nil_mem_cons _ _)
      | cons c p =>
          have hzero : (i.corner.val == 0 && (ofIntervals axes).corner.isZero) = true := h
          rw [Bool.and_eq_true, beq_iff_eq] at hzero
          have hmem : c < i.side.toNat ∧ p ∈ (ofIntervals axes).unsignedShape :=
            Shape.cons_mem_cons.1 hp
          have hc := hmem.1
          rw [Coord.toNat] at hc
          rw [List.map_cons, covers_cons]
          refine ⟨?_, ih hzero.2 hmem.2⟩
          rw [Interval.Covers, hzero.1, Int.ofNat_eq_natCast]
          omega

end Box

namespace Grid

variable {α : Type} {g : Grid α} {box : Box} {value : α}

/-! ## Writing one value to many places -/

/-- Writing the same value at some multi-indices, one after the other. -/
theorem exists_foldl_setAt_eq_ok {s : Shape} {ts : List Index} (hshape : g.shape = s)
    (hts : ∀ t ∈ ts, t ∈ s) :
    ∃ result : Grid α,
      ts.foldl (fun (filled : Except (Failure × Grid α) (Grid α)) t => do
          (← filled).setAt (s.offset t) value) (.ok g) = .ok result ∧
        result.shape = s ∧
        ∀ t, result.element? t = if t ∈ ts then some value else g.element? t := by
  induction ts generalizing g with
  | nil => exact ⟨g, rfl, hshape, fun t => (if_neg List.not_mem_nil).symm⟩
  | cons t ts ih =>
      simp only [List.mem_cons, forall_eq_or_imp] at hts
      subst hshape
      obtain ⟨result, hresult, hshape, helem⟩ := ih (shape_put g (g.shape.offset t) value) hts.2
      refine ⟨result, ?_, hshape, ?_⟩
      · rw [List.foldl_cons]
        show List.foldl _ (g.setAt (g.shape.offset t) value) ts = _
        rw [setAt_offset hts.1]
        exact hresult
      · intro p
        rw [helem, element?_put_offset hts.1]
        by_cases hp : p ∈ ts
        · rw [if_pos hp, if_pos (List.mem_cons_of_mem t hp)]
        · by_cases hpt : p = t
          · rw [if_neg hp, if_pos hpt, if_pos (hpt ▸ List.mem_cons_self)]
          · rw [if_neg hp, if_neg hpt, if_neg (by simp [hp, hpt])]

/-- The grid `g` is `old` with the value at the multi-indices that a box covers. -/
structure IsFilled (box : Box) (value : α) (old g : Grid α) : Prop where
  shape_eq : g.shape = old.shape
  element?_eq : ∀ p ∈ old.shape,
    g.element? p = if box.Covers (p.map Int.ofNat) then some value else old.element? p

theorem IsFilled.unique {old a b : Grid α} (ha : IsFilled box value old a)
    (hb : IsFilled box value old b) : a = b := by
  apply ext_element? (ha.shape_eq.trans hb.shape_eq.symm)
  intro p hp
  rw [ha.shape_eq] at hp
  rw [ha.element?_eq p hp, hb.element?_eq p hp]

/-! ## The three ways -/

/-- A grid is left alone by a box that covers nothing of it. -/
theorem isFilled_self (h : ∀ p ∈ g.shape, ¬ box.Covers (p.map Int.ofNat)) :
    IsFilled box value g g :=
  ⟨rfl, fun p hp => (if_neg (h p hp)).symm⟩

theorem element?_reset {p : Index} (hp : p ∈ g.shape) : (g.reset value).element? p = some value := by
  have hlt := offset_lt_size_values hp
  have hp' : p ∈ (g.reset value).shape := hp
  rw [element?_of_mem hp', values_reset, shape_reset, Array.getElem?_replicate, if_pos hlt]

theorem isFilled_reset (h : ∀ p ∈ g.shape, box.Covers (p.map Int.ofNat)) :
    IsFilled box value g (g.reset value) :=
  ⟨rfl, fun p hp => (element?_reset hp).trans (if_pos (h p hp)).symm⟩

/-- An empty box, or an empty grid, ends the operation before anything is computed. -/
theorem fillRegion_of_isEmpty (hrank : box.rank = g.rank)
    (h : (box.isEmpty || g.shape.isEmpty) = true) : g.fillRegion box value = .ok g := by
  rw [fillRegion, checkRank_eq_ok_iff.2 hrank]
  exact if_pos h

/-- A grid with elements has no axis that is too long for the lattice. -/
theorem length_lt_of_isEmpty_eq_false (hempty : g.shape.isEmpty = false) (hsize : g.values.size < 2 ^ 63) :
    ∀ n ∈ g.shape.lengths, n < 2 ^ 63 := by
  apply Shape.length_lt_of_size_lt (Shape.isEmpty_eq_false_iff.1 hempty)
  rw [← g.size_values]
  exact hsize

section Ranks

variable (hcorner : box.corner.rank = g.rank) (hsides : box.sides.rank = g.rank)

include hcorner hsides

/-- The visit of the part fills the box, also where one of the short ways would do. -/
theorem exists_fillClipped_eq_ok (hfit : ∀ n ∈ g.shape.lengths, n < 2 ^ 63)
    (hsize : g.values.size < 2 ^ 63) :
    ∃ result, g.fillClipped box value = .ok result ∧ IsFilled box value g result := by
  obtain ⟨part, hpart, hclipped⟩ := Visit.exists_clipped_eq_ok hcorner hsides hfit
  have hbound : 2 * g.shape.size ≤ Word.bound := by
    rw [← g.size_values, Word.bound]
    omega
  obtain ⟨result, hresult, hshape, helem⟩ :=
    exists_foldl_setAt_eq_ok rfl fun t ht => (hpart.mem_places_iff.1 ht).1
  refine ⟨result, ?_, hshape, ?_⟩
  · rw [fillClipped, hclipped]
    simp only [leaving_ok, bind, Except.bind, Visit.fold_of_holdsBox hpart.holds hbound]
    rw [Box.places, List.foldl_map] at hresult
    exact hresult
  · intro p hp
    rw [helem]
    exact if_congr (hpart.mem_places_iff.trans (and_iff_right hp)) rfl rfl

/-- The box is filled whichever way is taken. -/
theorem exists_fillRegion_eq_ok (hsize : g.values.size < 2 ^ 63) :
    ∃ result, g.fillRegion box value = .ok result ∧ IsFilled box value g result := by
  by_cases hempty : (box.isEmpty || g.shape.isEmpty) = true
  · refine ⟨g, fillRegion_of_isEmpty hcorner hempty, isFilled_self ?_⟩
    intro p hp
    rcases Bool.or_eq_true_iff.1 hempty with hbox | hgrid
    · obtain ⟨axes, -, rfl⟩ := Box.exists_eq_ofIntervals (hcorner.trans hsides.symm)
      exact Box.not_covers_of_isEmpty hbox _
    · exact absurd hp (Shape.not_mem_of_isEmpty hgrid p)
  · have hrank : box.rank = g.rank := hcorner
    rw [fillRegion, checkRank_eq_ok_iff.2 hrank]
    simp only [leaving_ok, bind, Except.bind, if_neg hempty]
    by_cases hwhole : (box.corner.isZero && box.unsignedShape == g.shape) = true
    · refine ⟨g.reset value, if_pos hwhole, isFilled_reset ?_⟩
      intro p hp
      rw [Bool.and_eq_true, beq_iff_eq] at hwhole
      obtain ⟨axes, -, rfl⟩ := Box.exists_eq_ofIntervals (hcorner.trans hsides.symm)
      exact Box.covers_of_isZero hwhole.1 (hwhole.2 ▸ hp)
    · rw [if_neg hwhole]
      have hgrid : g.shape.isEmpty = false :=
        (Bool.or_eq_false_iff.1 (Bool.eq_false_iff.2 hempty)).2
      exact exists_fillClipped_eq_ok hcorner hsides (length_lt_of_isEmpty_eq_false hgrid hsize) hsize

end Ranks

/-- A grid of fewer than `2^63` elements can be filled with any box of its rank, at any place of the
lattice and with lengths of any sign. It keeps its shape, its elements are the value at the multi-indices
that the box covers in unbounded integers, and the old elements elsewhere. If all axes fit the lattice the
visit of the part gives the same answer, also where the box is the whole grid and the store is written in
one piece. An empty grid is left alone, however long its other axes are. -/
theorem element?_fillRegion (g : Grid α) (box : Box) (value : α) (hsize : g.values.size < 2 ^ 63)
    (hcorner : box.corner.rank = g.rank) (hsides : box.sides.rank = g.rank) :
    (∃ result, g.fillRegion box value = .ok result ∧ result.shape = g.shape ∧
      ∀ p ∈ g.shape, result.element? p =
        if box.Covers (p.map Int.ofNat) then some value else g.element? p) ∧
    ((∀ n ∈ g.shape.lengths, n < 2 ^ 63) →
      g.fillClipped box value = g.fillRegion box value ∧
      (box.corner.isZero = true → box.unsignedShape = g.shape →
        g.fillClipped box value = .ok (g.reset value))) ∧
    (0 ∈ g.shape.lengths → g.fillRegion box value = .ok g) := by
  obtain ⟨result, hresult, hfilled⟩ :
      ∃ result, g.fillRegion box value = .ok result ∧ IsFilled box value g result :=
    exists_fillRegion_eq_ok hcorner hsides hsize
  refine ⟨⟨result, hresult, hfilled.shape_eq, hfilled.element?_eq⟩, ?_, ?_⟩
  · intro hfit
    obtain ⟨clipped, hclipped, hfilled'⟩ :
        ∃ clipped, g.fillClipped box value = .ok clipped ∧ IsFilled box value g clipped :=
      exists_fillClipped_eq_ok hcorner hsides hfit hsize
    refine ⟨?_, ?_⟩
    · rw [hclipped, hresult, hfilled'.unique hfilled]
    · intro hzero hshape
      obtain ⟨axes, -, rfl⟩ := Box.exists_eq_ofIntervals (hcorner.trans hsides.symm)
      have hreset : IsFilled _ value g (g.reset value) :=
        isFilled_reset fun p hp => Box.covers_of_isZero hzero (hshape ▸ hp)
      rw [hclipped, hfilled'.unique hreset]
  · intro hzero
    apply fillRegion_of_isEmpty hcorner
    rw [Shape.isEmpty_iff_zero_mem.2 hzero, Bool.or_true]

/-- A box that begins before the first row and reaches past the far edge of the lattice on the other
axis; the visit of a whole grid; and an empty grid with an axis too long for the lattice. -/
theorem element?_fillRegion_at_edges :
    (∃ result, (⟨⟨[2, 3]⟩, [3, 1], #[0, 1, 2, 3, 4, 5], rfl, rfl⟩ : Grid Nat).fillRegion
        ⟨⟨[Coord.clamp (-1), Coord.clamp 1]⟩,
          ⟨[Coord.clamp 2, Coord.clamp 9223372036854775807]⟩⟩ 7 = .ok result ∧
      result.element? [0, 2] = some 7 ∧ result.element? [0, 0] = some 0 ∧
      result.element? [1, 2] = some 5) ∧
    (⟨⟨[2]⟩, [1], #[0, 1], rfl, rfl⟩ : Grid Nat).fillClipped ⟨⟨[Coord.clamp 0]⟩, ⟨[Coord.clamp 2]⟩⟩ 7 =
      .ok ⟨⟨[2]⟩, [1], #[7, 7], rfl, rfl⟩ ∧
    (⟨⟨[18446744073709551615, 0]⟩, [0, 1], #[], rfl, rfl⟩ : Grid Nat).fillRegion
        ⟨⟨[Coord.clamp 0, Coord.clamp 0]⟩, ⟨[Coord.clamp 1, Coord.clamp (-4)]⟩⟩ 7 =
      .ok ⟨⟨[18446744073709551615, 0]⟩, [0, 1], #[], rfl, rfl⟩ := by
  refine ⟨?_, ?_, ?_⟩
  · obtain ⟨⟨result, hresult, -, helem⟩, -⟩ :=
      element?_fillRegion (⟨⟨[2, 3]⟩, [3, 1], #[0, 1, 2, 3, 4, 5], rfl, rfl⟩ : Grid Nat)
        ⟨⟨[Coord.clamp (-1), Coord.clamp 1]⟩,
          ⟨[Coord.clamp 2, Coord.clamp 9223372036854775807]⟩⟩ 7 (by decide) rfl rfl
    exact ⟨result, hresult, (helem [0, 2] (by decide)).trans (if_pos (by decide)),
      (helem [0, 0] (by decide)).trans (if_neg (by decide)),
      (helem [1, 2] (by decide)).trans (if_neg (by decide))⟩
  · obtain ⟨-, hclipped, -⟩ := element?_fillRegion (⟨⟨[2]⟩, [1], #[0, 1], rfl, rfl⟩ : Grid Nat)
      ⟨⟨[Coord.clamp 0]⟩, ⟨[Coord.clamp 2]⟩⟩ 7 (by decide) rfl rfl
    exact (hclipped (by decide)).2 rfl rfl
  · exact (element?_fillRegion (⟨⟨[18446744073709551615, 0]⟩, [0, 1], #[], rfl, rfl⟩ : Grid Nat)
      ⟨⟨[Coord.clamp 0, Coord.clamp 0]⟩, ⟨[Coord.clamp 1, Coord.clamp (-4)]⟩⟩ 7 (by decide) rfl
      rfl).2.2 (by decide)

end Grid

end LatticeGrid
