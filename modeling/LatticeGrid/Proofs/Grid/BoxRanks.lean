import LatticeGrid.Proofs.Grid.FillRegion
import LatticeGrid.Proofs.Faults
import LatticeGrid.Workspace

/-!
# Boxes of any ranks

A box is made without any check, so its corner and its lengths can have different ranks. Whether a box fits a
grid is checked by the rank of its corner alone. A box that passes this check with lengths of another rank is
ragged in the grid (`Box.Ragged`): its upper bound cannot be computed, which is a fault and not a report. An
operation that looks at the lengths before, and finds an empty box or an empty grid, never gets that far.

Everything that fails here fails before the first write.

Main statement: `Grid.fillRegion_reports`.
-/

set_option autoImplicit false

namespace LatticeGrid

/-! ## Boxes that do not fit -/

theorem checkRank_eq_error {found expected : Nat} (h : found ≠ expected) :
    checkRank found expected = .error (.rankMismatch found expected) := if_neg h

theorem Shape.isReported_of_toPoint_eq_error {s : Shape} {e : Failure} (h : s.toPoint = .error e) :
    e.isReported = true := by
  by_cases hlong : ∃ n ∈ s.lengths, 2 ^ 63 ≤ n
  · obtain ⟨axis, length, herror⟩ := exists_toPoint_eq_error hlong
    cases herror.symm.trans h
    rfl
  · simp only [not_exists, not_and, Nat.not_le] at hlong
    cases (toPoint_eq_ok hlong).symm.trans h

namespace Box

variable {a b : Box} {s : Shape}

/-- The corner has the rank of a shape, but the lengths have another one. -/
def Ragged (b : Box) (s : Shape) : Prop := b.corner.rank = s.rank ∧ b.sides.rank ≠ s.rank

instance (b : Box) (s : Shape) : Decidable (b.Ragged s) :=
  inferInstanceAs (Decidable (b.corner.rank = s.rank ∧ b.sides.rank ≠ s.rank))

/-- Without lengths of its own rank a box has no upper bound. -/
theorem upper_eq_error (h : b.corner.rank ≠ b.sides.rank) : b.upper = .error .unequalRanks := by
  refine if_neg ?_
  rw [Point.clampNegative, Point.rank_map]
  exact h

theorem inter_eq_rankMismatch (h : b.rank ≠ a.rank) :
    a.inter b = .error (.rankMismatch b.rank a.rank) := by
  rw [inter, checkRank_eq_error h]
  rfl

/-- The corners are compared before any lengths are looked at. -/
theorem inter_eq_unequalRanks (hrank : b.rank = a.rank) (h : a.corner.rank ≠ a.sides.rank) :
    a.inter b = .error .unequalRanks := by
  have hjoin : a.corner.join b.corner = .ok ⟨List.zipWith max a.corner.coords b.corner.coords⟩ :=
    Point.zipWith_eq_ok_iff.2 ⟨hrank.symm, rfl⟩
  rw [inter, checkRank_eq_ok_iff.2 hrank, hjoin, upper_eq_error h]
  rfl

end Box

/-! ## Visits -/

namespace Visit

variable {s : Shape} {box : Box} {e : Failure}

theorem clipped_of_toPoint_eq_error (h : s.toPoint = .error e) : clipped s box = .error e := by
  rw [clipped, Box.ofShape, h]
  rfl

/-- The part of a box in an array is refused if the array has an axis that is too long for the lattice, or
else by the rank of its corner; it is a fault for a ragged box. -/
theorem clipped_eq_error_iff :
    clipped s box = .error e ↔
      s.toPoint = .error e ∨ (∀ n ∈ s.lengths, n < 2 ^ 63) ∧
        (box.rank ≠ s.rank ∧ e = .rankMismatch s.rank box.rank ∨
          box.Ragged s ∧ e = .unequalRanks) := by
  by_cases hfit : ∀ n ∈ s.lengths, n < 2 ^ 63
  · have hwhole := Box.ofShape_eq_ok hfit
    have hrankWhole : (Box.ofIntervals (s.lengths.map Interval.whole)).rank = s.rank :=
      (Box.rank_ofIntervals _).trans (List.length_map _)
    rw [Shape.toPoint_eq_ok hfit, and_iff_right hfit, or_iff_right nofun]
    by_cases hrank : box.rank = s.rank
    · rw [or_iff_right fun h => h.1 hrank]
      by_cases hsides : box.sides.rank = s.rank
      · obtain ⟨part, -, hclipped⟩ := exists_clipped_eq_ok hrank hsides hfit
        rw [hclipped]
        exact iff_of_false nofun fun h => h.1.2 hsides
      · have hinter := Box.inter_eq_unequalRanks (hrankWhole.trans hrank.symm)
          fun h => hsides (h.symm.trans hrank)
        rw [clipped, hwhole, and_iff_right ⟨hrank, hsides⟩]
        simp only [bind, Except.bind, hinter, Except.error.injEq]
        exact eq_comm
    · have hinter := Box.inter_eq_rankMismatch (a := box) fun h => hrank (h.symm.trans hrankWhole)
      rw [clipped, hwhole, and_iff_right hrank, or_iff_left fun h => hrank h.1.1]
      simp only [bind, Except.bind, hinter, hrankWhole, Except.error.injEq]
      exact eq_comm
  · rw [or_iff_left fun h => hfit h.1]
    have hlong : ∃ n ∈ s.lengths, 2 ^ 63 ≤ n := by
      simpa only [not_forall, Nat.not_lt, exists_prop] using hfit
    obtain ⟨axis, length, herror⟩ := Shape.exists_toPoint_eq_error hlong
    rw [clipped_of_toPoint_eq_error herror, herror, Except.error.injEq, Except.error.injEq]

theorem onlyReports_clipped_iff :
    OnlyReports (clipped s box) ↔ ¬ (box.Ragged s ∧ ∀ n ∈ s.lengths, n < 2 ^ 63) := by
  constructor
  · rintro h ⟨hragged, hfit⟩
    have hfault : clipped s box = .error .unequalRanks :=
      clipped_eq_error_iff.2 (Or.inr ⟨hfit, Or.inr ⟨hragged, rfl⟩⟩)
    cases h _ hfault
  · intro h e he
    rcases clipped_eq_error_iff.1 he with hlong | ⟨hfit, ⟨-, rfl⟩ | ⟨hragged, -⟩⟩
    · exact Shape.isReported_of_toPoint_eq_error hlong
    · rfl
    · exact absurd ⟨hragged, hfit⟩ h

end Visit

/-! ## Filling -/

namespace Grid

variable {α : Type} {g left : Grid α} {box : Box} {value : α} {e : Failure}

/-- The box is ragged in the grid, and neither the box nor the grid is empty, so that the lengths are needed. -/
def Misfit (g : Grid α) (box : Box) : Prop :=
  box.Ragged g.shape ∧ box.isEmpty = false ∧ g.shape.isEmpty = false

instance (g : Grid α) (box : Box) : Decidable (g.Misfit box) :=
  inferInstanceAs (Decidable (box.Ragged g.shape ∧ box.isEmpty = false ∧ g.shape.isEmpty = false))

theorem fillRegion_eq_rankMismatch (h : box.rank ≠ g.rank) :
    g.fillRegion box value = .error (.rankMismatch box.rank g.rank, g) := by
  rw [fillRegion, checkRank_eq_error h]
  rfl

/-- A ragged box is never the whole grid, so its part has to be computed. -/
theorem fillRegion_eq_fillClipped (h : g.Misfit box) :
    g.fillRegion box value = g.fillClipped box value := by
  obtain ⟨⟨hrank, hsides⟩, hbox, hgrid⟩ := h
  have hshape : box.unsignedShape ≠ g.shape := by
    intro hshape
    apply hsides
    rw [← hshape]
    exact (List.length_map _).symm
  have hempty : (box.isEmpty || g.shape.isEmpty) = false := by rw [hbox, hgrid, Bool.or_false]
  have hwhole : (box.corner.isZero && box.unsignedShape == g.shape) = false := by
    rw [beq_eq_false_iff_ne.2 hshape, Bool.and_false]
  have hrank : checkRank box.rank g.rank = .ok () := checkRank_eq_ok_iff.2 hrank
  rw [fillRegion, hrank]
  simp only [leaving_ok, bind, Except.bind, hempty, hwhole, Bool.false_eq_true, if_false]

section Size

variable (hsize : g.values.size < 2 ^ 63)

include hsize

/-- The fault comes from the part of the box, and so before the first write. -/
theorem clipped_of_misfit (h : g.Misfit box) : Visit.clipped g.shape box = .error .unequalRanks := by
  obtain ⟨hragged, -, hgrid⟩ := h
  have hfit := length_lt_of_isEmpty_eq_false hgrid hsize
  exact Visit.clipped_eq_error_iff.2 (Or.inr ⟨hfit, Or.inr ⟨hragged, rfl⟩⟩)

theorem fillRegion_eq_unequalRanks (h : g.Misfit box) :
    g.fillRegion box value = .error (.unequalRanks, g) := by
  rw [fillRegion_eq_fillClipped h, fillClipped, clipped_of_misfit hsize h]
  rfl

/-- There are two failures, and both leave the grid as it was. -/
theorem fillRegion_eq_error_iff :
    g.fillRegion box value = .error (e, left) ↔ left = g ∧
      (box.rank ≠ g.rank ∧ e = .rankMismatch box.rank g.rank ∨ g.Misfit box ∧ e = .unequalRanks) := by
  by_cases hrank : box.rank = g.rank
  · rw [or_iff_right fun h => h.1 hrank]
    by_cases hmisfit : g.Misfit box
    · rw [fillRegion_eq_unequalRanks hsize hmisfit, and_iff_right hmisfit, Except.error.injEq,
        Prod.mk.injEq, and_comm, eq_comm, @eq_comm _ e]
    · have hok : ∃ result, g.fillRegion box value = .ok result := by
        by_cases hsides : box.sides.rank = g.rank
        · obtain ⟨result, hresult, -⟩ : ∃ result, g.fillRegion box value = .ok result ∧
              IsFilled box value g result := exists_fillRegion_eq_ok hrank hsides hsize
          exact ⟨result, hresult⟩
        · refine ⟨g, fillRegion_of_isEmpty hrank ?_⟩
          by_contra hempty
          rw [Bool.not_eq_true, Bool.or_eq_false_iff] at hempty
          exact hmisfit ⟨⟨hrank, hsides⟩, hempty⟩
      obtain ⟨result, hresult⟩ := hok
      rw [hresult]
      exact iff_of_false nofun fun h => hmisfit h.2.1
  · rw [fillRegion_eq_rankMismatch hrank, and_iff_right hrank, or_iff_left fun h => hrank h.1.1.1,
      Except.error.injEq, Prod.mk.injEq, and_comm, eq_comm, @eq_comm _ e]

end Size

/-- A grid of fewer than `2^63` elements reports a box that does not fit it, whatever the ranks of the box, with
one exception: a box with a corner of the right rank and lengths of another one, in which no length is empty,
is a fault, unless the grid is empty. Every failure comes from the check of the rank or from the part of the
box in the grid, both before the first write, and leaves the grid as it was. The part alone is a fault for
every box with a corner of the right rank and lengths of another one, also an empty box, as long as the axes of
the grid fit the lattice; all other failures are reported. -/
theorem fillRegion_reports (g : Grid α) (box : Box) (value : α) (hsize : g.values.size < 2 ^ 63) :
    (OnlyReports (forget (g.fillRegion box value)) ↔ ¬ g.Misfit box) ∧
    (∀ e left, g.fillRegion box value = .error (e, left) ↔ left = g ∧
      (box.rank ≠ g.rank ∧ e = .rankMismatch box.rank g.rank ∨ g.Misfit box ∧ e = .unequalRanks)) ∧
    (∀ e left, g.fillRegion box value = .error (e, left) →
      (checkRank box.rank g.rank = .error e ∨ Visit.clipped g.shape box = .error e) ∧
      ∀ [BEq α] (w : Workspace α) (name : String), w.get? name = some g →
        w.attempt (.fillRegion name box value) = (.error e, w)) ∧
    (OnlyReports (Visit.clipped g.shape box) ↔
      ¬ (box.Ragged g.shape ∧ ∀ n ∈ g.shape.lengths, n < 2 ^ 63)) ∧
    ∀ e, Visit.clipped g.shape box = .error e ↔
      g.shape.toPoint = .error e ∨ (∀ n ∈ g.shape.lengths, n < 2 ^ 63) ∧
        (box.rank ≠ g.rank ∧ e = .rankMismatch g.rank box.rank ∨
          box.Ragged g.shape ∧ e = .unequalRanks) := by
  refine ⟨?_, fun e left => fillRegion_eq_error_iff hsize, ?_, Visit.onlyReports_clipped_iff,
    fun e => Visit.clipped_eq_error_iff⟩
  · constructor
    · intro h hmisfit
      cases h _ (forget_eq_error_iff.2 ⟨g, fillRegion_eq_unequalRanks hsize hmisfit⟩)
    · intro h e he
      obtain ⟨left, he⟩ := forget_eq_error_iff.1 he
      rcases (fillRegion_eq_error_iff hsize).1 he with ⟨-, ⟨-, rfl⟩ | ⟨hmisfit, -⟩⟩
      · rfl
      · exact absurd hmisfit h
  · intro e left he
    obtain ⟨rfl, hwhy⟩ := (fillRegion_eq_error_iff hsize).1 he
    refine ⟨?_, ?_⟩
    · rcases hwhy with ⟨hrank, rfl⟩ | ⟨hmisfit, rfl⟩
      · exact Or.inl (checkRank_eq_error hrank)
      · exact Or.inr (clipped_of_misfit hsize hmisfit)
    · intro _ w name hg
      exact Workspace.attempt_of_run_eq_error (Workspace.update_eq_error hg he)

/-- A box whose lengths have one axis too many is left alone where its first length is 0, though its part in the
row is a fault; and a box of another rank is reported, and the row is not written. -/
theorem fillRegion_reports_beside_fault :
    OnlyReports (forget ((⟨⟨[2]⟩, [1], #[0, 1], rfl, rfl⟩ : Grid Nat).fillRegion
      ⟨⟨[Coord.clamp 0]⟩, ⟨[Coord.clamp 0, Coord.clamp 1]⟩⟩ 7)) ∧
    ¬ OnlyReports (Visit.clipped ⟨[2]⟩ ⟨⟨[Coord.clamp 0]⟩, ⟨[Coord.clamp 0, Coord.clamp 1]⟩⟩) ∧
    (⟨[("row", ⟨⟨[2]⟩, [1], #[0, 1], rfl, rfl⟩)], 8⟩ : Workspace Nat).attempt
        (.fillRegion "row" ⟨⟨[]⟩, ⟨[Coord.clamp 1]⟩⟩ 7) =
      (.error (.rankMismatch 0 1), ⟨[("row", ⟨⟨[2]⟩, [1], #[0, 1], rfl, rfl⟩)], 8⟩) := by
  obtain ⟨hfill, -, -, hclipped, -⟩ := fillRegion_reports (⟨⟨[2]⟩, [1], #[0, 1], rfl, rfl⟩ : Grid Nat)
    ⟨⟨[Coord.clamp 0]⟩, ⟨[Coord.clamp 0, Coord.clamp 1]⟩⟩ 7 (by decide)
  obtain ⟨-, herror, hkept, -, -⟩ := fillRegion_reports (⟨⟨[2]⟩, [1], #[0, 1], rfl, rfl⟩ : Grid Nat)
    ⟨⟨[]⟩, ⟨[Coord.clamp 1]⟩⟩ 7 (by decide)
  refine ⟨hfill.2 (by decide), fun h => hclipped.1 h (by decide), ?_⟩
  exact (hkept _ _ ((herror _ _).2 ⟨rfl, by decide⟩)).2 _ "row" rfl

/-- A box at the first element of a row, with a second length that the row has no axis for, is not reported but
a fault. So is its part. -/
theorem fillRegion_ragged_row :
    (⟨⟨[2]⟩, [1], #[0, 1], rfl, rfl⟩ : Grid Nat).fillRegion
      ⟨⟨[Coord.clamp 0]⟩, ⟨[Coord.clamp 1, Coord.clamp 1]⟩⟩ 7 =
        .error (.unequalRanks, ⟨⟨[2]⟩, [1], #[0, 1], rfl, rfl⟩) ∧
    Visit.clipped ⟨[2]⟩ ⟨⟨[Coord.clamp 0]⟩, ⟨[Coord.clamp 1, Coord.clamp 1]⟩⟩ =
      .error .unequalRanks ∧
    Failure.unequalRanks.isReported = false := ⟨rfl, rfl, rfl⟩

end Grid

end LatticeGrid
