import LatticeGrid.Copy.Region
import LatticeGrid.Proofs.Copy.Overlap
import LatticeGrid.Proofs.Copy.Progress
import LatticeGrid.Proofs.Layout.Rows
import LatticeGrid.Workspace

/-!
# What a copy does

`Grid.copyFrom` clips the source against the target, walks over the rows of the overlap in both stores
and copies each row as a range of flat positions. This file shows that all of this comes down to one
sentence about a single multi-index: the element there is the one that the source brings, if it brings
one, and the old one otherwise.

The proof follows the walk. One position of a row is the flat position of a multi-index in both grids
(`HoldsBox.offset_add_rowCell`), so that a row writes the multi-indices of its cells
(`exists_copyRow_eq_ok`), and the rows together write those of the overlap
(`exists_copyOverlap_eq_ok`). What lies outside of an exact overlap is not brought by the source.

Main statements: `Grid.exists_copyFrom_eq_ok` and `Grid.element?_copyFrom`.
-/

set_option autoImplicit false

namespace LatticeGrid.Grid

variable {α : Type} {offset : Point} {source target g : Grid α} {o : Overlap} {done : List Index}

/-- A range that ends inside of the store passes the check before the copy. -/
theorem checkRange_span {start length size : Nat} (hsize : g.values.size = size)
    (h : start + length ≤ size) (hfit : size < Word.bound) :
    span start length >>= g.checkRange = .ok () := by
  subst hsize
  rw [span, Word.add_eq_ok_iff.2 ⟨Nat.lt_of_le_of_lt h hfit, rfl⟩]
  exact if_pos h

/-- A row of a box that an array holds ends inside of the store. -/
theorem rowStart_add_rowLength_le {array box : Shape} {origin : Index}
    (h : HoldsBox array.lengths origin box.lengths) (hbox : ∀ m ∈ box.lengths, 0 < m)
    (hfit : array.size < Word.bound) {q : Index} (hq : q ∈ (⟨box.outer⟩ : Shape)) :
    array.rowStart origin q + box.rowLength ≤ array.size := by
  -- the last element of the row is in the store
  have hlast : box.rowLength - 1 < box.rowLength :=
    Nat.sub_one_lt_of_lt (RowPairs.rowLength_pos hbox)
  have hmem := h.add_mem (Shape.mem_iff_exists_rowCell.2 ⟨q, hq, _, hlast, rfl⟩)
  have hlt : array.offset (addIndex origin (box.rowCell q (box.rowLength - 1))) < array.size :=
    Shape.offset_lt_size hmem
  rw [h.offset_add_rowCell hbox hfit hq hlast] at hlt
  omega

/-- The multi-indices of the target that a row of an overlap covers. -/
def rowTargets (o : Overlap) (q : Index) : List Index :=
  (List.range o.shape.rowLength).map fun i => addIndex o.targetMin (o.shape.rowCell q i)

section Overlap

variable (ho : o.Exact offset.coords source.shape.lengths target.shape.lengths)
  (hsource : source.shape.size < 2 ^ 63) (htarget : target.shape.size < 2 ^ 63)

include ho hsource htarget

/-- Copying a row of an overlap writes the multi-indices that the row covers. -/
theorem exists_copyRow_eq_ok {q : Index} (hq : q ∈ (⟨o.shape.outer⟩ : Shape))
    (h : Progress offset source target done g) :
    ∃ next, g.copyRow (target.shape.rowStart o.targetMin q) source
        (source.shape.rowStart o.sourceMin q) o.shape.rowLength = .ok next ∧
      Progress offset source target (done ++ rowTargets o q) next := by
  have hfitS : source.shape.size < Word.bound := Nat.lt_trans hsource (by decide)
  have hfitT : target.shape.size < Word.bound := Nat.lt_trans htarget (by decide)
  have hcheckS := checkRange_span source.size_values
    (rowStart_add_rowLength_le ho.holdsSource ho.pos hfitS hq) hfitS
  -- a grid on the way has a store of the size of the target
  have hcheckT := checkRange_span ((size_values_congr h.shape_eq).trans target.size_values)
    (rowStart_add_rowLength_le ho.holdsTarget ho.pos hfitT hq) hfitT
  have hround : ∀ i ∈ List.range o.shape.rowLength, ∀ done g,
      Progress offset source target done g →
      ∃ next, leaving g (source.getAt (source.shape.rowStart o.sourceMin q + i)) >>=
          g.setAt (target.shape.rowStart o.targetMin q + i) = .ok next ∧
        Progress offset source target (done ++ [addIndex o.targetMin (o.shape.rowCell q i)])
          next := by
    intro i hi done g h
    have hi := List.mem_range.1 hi
    have hcell : o.shape.rowCell q i ∈ o.shape :=
      Shape.mem_iff_exists_rowCell.2 ⟨q, hq, i, hi, rfl⟩
    -- both positions are those of one cell of the overlap
    rw [← ho.holdsTarget.offset_add_rowCell ho.pos hfitT hq hi,
      ← ho.holdsSource.offset_add_rowCell ho.pos hfitS hq hi]
    exact h.exists_setAt_eq_ok (ho.placed _ hcell) (ho.holdsTarget.add_mem hcell)
      (ho.holdsSource.add_mem hcell)
  obtain ⟨next, hnext, hdone⟩ := h.exists_foldlM_eq_ok hround
  refine ⟨next, ?_, ?_⟩
  · rw [copyRow, hcheckT, hcheckS]
    exact hnext
  · rw [rowTargets, List.map_eq_flatMap]
    exact hdone

/-- Copying an overlap is a complete copy: it writes what the source brings and nothing else. -/
theorem exists_copyOverlap_eq_ok :
    ∃ result, target.copyOverlap source o = .ok result ∧ IsCopy offset source target result := by
  obtain ⟨walk, hwalk, hlength, hrows⟩ :=
    RowPairs.exists_ofOrigins_eq_ok ho.holdsSource ho.holdsTarget ho.pos hsource htarget
  have hround : ∀ row ∈ (Shape.indicesOf o.shape.outer), ∀ done g,
      Progress offset source target done g →
      ∃ next, g.copyRow (target.shape.rowStart o.targetMin row) source
          (source.shape.rowStart o.sourceMin row) walk.rowLength = .ok next ∧
        Progress offset source target (done ++ rowTargets o row) next := by
    intro q hq done g h
    rw [hlength]
    exact exists_copyRow_eq_ok ho hsource htarget (Shape.mem_indices.1 hq) h
  obtain ⟨result, hresult, hdone⟩ :=
    (Progress.start offset source target).exists_foldlM_eq_ok hround
  refine ⟨result, ?_, hdone.complete ?_⟩
  · rw [copyOverlap, source.strides_eq, target.strides_eq, hwalk]
    show walk.fold _ target = _
    rw [RowPairs.fold_eq_foldlM hrows, List.foldlM_map]
    exact hresult
  · intro t ht v hbrings
    rcases placed?_eq_some_iff.1 hbrings with ⟨s, hplaced, hv⟩
    -- the overlap covers this place, and some row of it does
    obtain ⟨p, hp, rfl⟩ := ho.covers t ht s (mem_of_element?_eq_some hv) hplaced
    obtain ⟨q, hq, i, hi, rfl⟩ := Shape.mem_iff_exists_rowCell.1 hp
    rw [List.nil_append, List.mem_flatMap]
    exact ⟨q, Shape.mem_indices.2 hq, List.mem_map.2 ⟨i, List.mem_range.2 hi, rfl⟩⟩

end Overlap

/-- A copy between grids of equal rank succeeds and is complete. -/
theorem exists_copyFrom_eq_ok (hs : source.rank = offset.rank) (ht : target.rank = offset.rank)
    (hsource : source.values.size < 2 ^ 63) (htarget : target.values.size < 2 ^ 63) :
    ∃ result, target.copyFrom offset source = .ok result ∧ IsCopy offset source target result := by
  rw [size_values] at hsource htarget
  rcases Overlap.exists_between_eq_ok hs ht hsource htarget with ⟨hnone, hdisjoint⟩ | ⟨o, hsome, ho⟩
  · -- nothing is copied, and nothing was to be copied
    refine ⟨target, ?_, rfl, ?_⟩
    · rw [copyFrom, hnone]
      rfl
    · intro t htt
      rw [placed?_eq_none_iff.2 (hdisjoint t htt), Option.none_or]
  · obtain ⟨result, hresult, hcopy⟩ := exists_copyOverlap_eq_ok ho hsource htarget
    refine ⟨result, ?_, hcopy⟩
    rw [copyFrom, hsome]
    exact hresult

/-- Grids whose ranks do not all agree are not copied. -/
theorem copyFrom_eq_rankMismatch
    (h : ¬ (source.rank = offset.rank ∧ target.rank = offset.rank)) :
    ∃ found, found ≠ offset.rank ∧ (found = source.rank ∨ found = target.rank) ∧
      target.copyFrom offset source = .error (.rankMismatch found offset.rank, target) := by
  obtain ⟨found, hne, hwhich, hbetween⟩ := Overlap.between_eq_rankMismatch h
  refine ⟨found, hne, hwhich, ?_⟩
  rw [copyFrom, hbetween]
  rfl

/-- A copy between named grids that fails and leaves its target alone leaves the workspace as it was. -/
theorem attempt_copy_of_error [BEq α] {w : Workspace α} {sourceName targetName : String}
    {e : Failure} (hs : w.get? sourceName = some source) (ht : w.get? targetName = some target)
    (he : target.copyFrom offset source = .error (e, target)) :
    w.attempt (.copy sourceName targetName offset) = (.error e, w) := by
  apply Workspace.attempt_of_run_eq_error
  rw [Workspace.run, Workspace.find_eq_ok_iff.2 hs]
  exact Workspace.update_eq_error ht he

/-- Between grids of equal rank, of which neither has `2^63` elements or more, a copy succeeds, keeps
the shape of the target, and leaves at each multi-index what the source brings there, if it brings
something, and what was there before otherwise. If the ranks do not all agree, the copy fails with the
rank found, and the grids stay as they were. -/
theorem element?_copyFrom (offset : Point) (source target : Grid α) :
    (source.rank = offset.rank → target.rank = offset.rank →
      source.values.size < 2 ^ 63 → target.values.size < 2 ^ 63 →
        ∃ result, target.copyFrom offset source = .ok result ∧ result.shape = target.shape ∧
          ∀ t ∈ target.shape,
            result.element? t = (source.placed? offset t).or (target.element? t)) ∧
    (¬ (source.rank = offset.rank ∧ target.rank = offset.rank) →
      ∃ found, found ≠ offset.rank ∧ (found = source.rank ∨ found = target.rank) ∧
        target.copyFrom offset source = .error (.rankMismatch found offset.rank, target) ∧
        ∀ [BEq α] (w : Workspace α) (sourceName targetName : String),
          w.get? sourceName = some source → w.get? targetName = some target →
            w.attempt (.copy sourceName targetName offset) =
              (.error (.rankMismatch found offset.rank), w)) := by
  constructor
  · intro hs ht hsource htarget
    obtain ⟨result, hresult, hcopy⟩ := exists_copyFrom_eq_ok hs ht hsource htarget
    exact ⟨result, hresult, hcopy.shape_eq, hcopy.element?_eq⟩
  · intro h
    obtain ⟨found, hne, hwhich, herror⟩ := copyFrom_eq_rankMismatch h
    refine ⟨found, hne, hwhich, herror, ?_⟩
    intro _ w sourceName targetName hs ht
    exact attempt_copy_of_error hs ht herror

/-- A square placed across the near edge of the outer axis and off the origin of the inner one copies its
second row; a single element without a coordinate does not fit a plane, which stays as it is. -/
theorem element?_copyFrom_across_edge :
    (∃ result, (⟨⟨[2, 3]⟩, [3, 1], #[1, 2, 3, 4, 5, 6], rfl, rfl⟩ : Grid Nat).copyFrom
        ⟨[Coord.clamp (-1), Coord.clamp 1]⟩ ⟨⟨[2, 2]⟩, [2, 1], #[10, 20, 30, 40], rfl, rfl⟩ =
          .ok result ∧
        result.shape = ⟨[2, 3]⟩ ∧ result.element? [0, 0] = some 1 ∧
        result.element? [0, 1] = some 30 ∧ result.element? [0, 2] = some 40 ∧
        result.element? [1, 1] = some 5) ∧
      ∃ found, found ≠ 2 ∧ (⟨⟨[2, 3]⟩, [3, 1], #[1, 2, 3, 4, 5, 6], rfl, rfl⟩ : Grid Nat).copyFrom
        ⟨[Coord.clamp (-1), Coord.clamp 1]⟩ ⟨⟨[]⟩, [], #[7], rfl, rfl⟩ =
          .error (.rankMismatch found 2, ⟨⟨[2, 3]⟩, [3, 1], #[1, 2, 3, 4, 5, 6], rfl, rfl⟩) := by
  constructor
  · obtain ⟨result, hresult, hshape, helem⟩ :=
      (element?_copyFrom ⟨[Coord.clamp (-1), Coord.clamp 1]⟩
        (⟨⟨[2, 2]⟩, [2, 1], #[10, 20, 30, 40], rfl, rfl⟩ : Grid Nat)
        ⟨⟨[2, 3]⟩, [3, 1], #[1, 2, 3, 4, 5, 6], rfl, rfl⟩).1 rfl rfl (by decide) (by decide)
    exact ⟨result, hresult, hshape, helem [0, 0] (by decide), helem [0, 1] (by decide),
      helem [0, 2] (by decide), helem [1, 1] (by decide)⟩
  · obtain ⟨found, hne, -, herror, -⟩ :=
      (element?_copyFrom ⟨[Coord.clamp (-1), Coord.clamp 1]⟩ (⟨⟨[]⟩, [], #[7], rfl, rfl⟩ : Grid Nat)
        ⟨⟨[2, 3]⟩, [3, 1], #[1, 2, 3, 4, 5, 6], rfl, rfl⟩).2 (by decide)
    exact ⟨found, hne, herror⟩

end LatticeGrid.Grid
