import LatticeGrid.Proofs.Layout.Rows
import Mathlib.Data.List.Basic

/-!
# The cells of the rows

A walk over the rows of a box answers where each row starts in two arrays. Read as ranges of positions,
these rows are the multi-indices of the box, each once and in row-major order: a multi-index is a row of
the box and a number in it (`Shape.indices_eq_flatMap_rowCell`), and the positions of one row follow each
other in both arrays (`HoldsBox.offset_add_rowCell`).

A walk is asked for its rows call by call. The call number `k` answers the row number `k`, if there is
one, and from the end of the walk on there is none (`RowPairs.outcomes_eq`). So no call fails, and no row
comes after the first call without one.

Main statement: `RowPairs.flatMap_rows_eq_positions`.
-/

set_option autoImplicit false

namespace LatticeGrid

/-! ## Row-major order -/

namespace Shape

/-- The innermost axis is gone through for each multi-index of the outer ones. -/
theorem indicesOf_append_singleton (ls : List Nat) (n : Nat) :
    indicesOf (ls ++ [n]) =
      (indicesOf ls).flatMap fun q => (List.range n).map fun i => q ++ [i] := by
  induction ls with
  | nil => simp [indicesOf, List.map_eq_flatMap]
  | cons m ls ih =>
      rw [List.cons_append, indicesOf, indicesOf, ih, List.flatMap_assoc]
      simp only [List.map_flatMap, List.flatMap_map, List.map_map]
      rfl

/-- The multi-indices of a box in row-major order are its rows, one after the other. -/
theorem indices_eq_flatMap_rowCell (box : Shape) :
    box.indices =
      (indicesOf box.outer).flatMap fun q => (List.range box.rowLength).map (box.rowCell q) := by
  rcases box with ⟨ls⟩
  rcases List.eq_nil_or_concat ls with rfl | ⟨outer, n, hls⟩
  · -- rank 0: the one row has no outer multi-index and the one cell no coordinate
    rfl
  · rw [List.concat_eq_append] at hls
    subst hls
    have houter : Shape.outer ⟨outer ++ [n]⟩ = outer := List.dropLast_concat
    have hrow : Shape.rowLength ⟨outer ++ [n]⟩ = n := by simp [rowLength]
    rw [indices, indicesOf_append_singleton, houter, hrow]
    apply List.flatMap_congr
    intro q hq
    have hlen : q.length = outer.length := (mem_indices.1 hq).1
    apply List.map_congr_left
    intro i _
    exact (List.take_of_length_le (by simp [rank, hlen])).symm

end Shape

namespace RowPairs

open RowAxis

variable {limit baseA baseB : Nat} {w rest : RowPairs}

/-! ## Call by call -/

/-- A walk without a row to give has none on any call. -/
theorem outcomes_of_pending_eq_none (calls : Nat) (h : w.pending = none) :
    w.outcomes calls = List.replicate calls (.ok none) := by
  induction calls with
  | zero => rfl
  | succ calls ih =>
      rw [outcomes, next, h, List.replicate_succ]
      exact congrArg (List.cons _) ih

/-- After a call without a row there is none on any later call. -/
theorem outcomes_of_next_eq_none (calls : Nat) (h : w.next = .ok (none, rest)) :
    rest.outcomes calls = List.replicate calls (.ok none) := by
  rw [next] at h
  split at h
  · next hpending =>
      cases h
      exact outcomes_of_pending_eq_none calls hpending
  · obtain ⟨step, -, h⟩ := bind_eq_ok_iff.1 h
    cases h

/-- The call number `k` answers the row number `k` of those that lie ahead, and none if there are not so
many. -/
theorem outcomes_eq (hlimit : 2 * limit < Word.bound) (h : w.Stands limit baseA baseB)
    (calls : Nat) :
    w.outcomes calls =
      (List.range calls).map fun k => .ok ((ahead w.axes).map (startOf baseA baseB w.axes))[k]? := by
  induction calls generalizing w with
  | zero => rfl
  | succ calls ih =>
      obtain ⟨rest, hnext, ⟨hdone, hlast⟩ | ⟨hrest, hsame, hahead⟩⟩ := exists_next_eq_ok hlimit h
      · -- that was the last row
        have hnone : (List.range calls).map (fun _ => (.ok none : Except Failure (Option (Nat × Nat)))) =
            List.replicate calls (.ok none) := by
          rw [List.map_const', List.length_range]
        rw [outcomes, hnext, hlast, List.range_succ_eq_map, List.map_cons, List.map_map]
        exact congrArg (List.cons _) ((outcomes_of_pending_eq_none calls hdone).trans hnone.symm)
      · -- call number `k + 1` of this walk is call number `k` of the rest
        rw [outcomes, hnext, hahead, List.range_succ_eq_map, List.map_cons, List.map_map]
        refine congrArg (List.cons _) ((ih hrest).trans ?_)
        rw [startOf_congr hsame]
        rfl

/-! ## Row by row -/

section Holds

variable {a b box : Shape} {originA originB : Index}

/-- The positions of a row of a box, from its start on, are those of the cells of the row. -/
theorem ok_rowStart_add_eq (h : HoldsBox a.lengths originA box.lengths)
    (hbox : ∀ m ∈ box.lengths, 0 < m) (hfit : a.size < Word.bound) {q : Index}
    (hq : q ∈ (⟨box.outer⟩ : Shape)) {i : Nat} (hi : i < box.rowLength) :
    .ok (a.rowStart originA q + i) = position a.strides (addIndex originA (box.rowCell q i)) := by
  have hcell : box.rowCell q i ∈ box := Shape.mem_iff_exists_rowCell.2 ⟨q, hq, i, hi, rfl⟩
  rw [position_strides_eq_offset (h.add_mem hcell) hfit, h.offset_add_rowCell hbox hfit hq hi]

/-- Without a row in the box there is none in the walk, wherever its origins lie. -/
theorem exists_ofOrigins_of_isEmpty (hrankA : box.rank = a.rank) (hrankB : box.rank = b.rank)
    (h : box.isEmpty = true) :
    ∃ w, ofOrigins box a.strides originA b.strides originB = .ok w ∧ w.pending = none := by
  have hrank : box.rank = a.strides.length ∧ box.rank = b.strides.length := by
    rw [Shape.length_strides, Shape.length_strides]
    exact ⟨hrankA, hrankB⟩
  refine ⟨⟨axesOf box.outer a.strides b.strides, box.rowLength, none⟩, ?_, rfl⟩
  rw [ofOrigins, if_pos hrank, h]
  rfl

variable (hA : HoldsBox a.lengths originA box.lengths) (hB : HoldsBox b.lengths originB box.lengths)
  (hbox : ∀ m ∈ box.lengths, 0 < m)

include hA hB hbox

/-- The rows of a box, as ranges of positions, are the multi-indices of the box in row-major order. -/
theorem flatMap_rowStart_eq (hfitA : a.size < Word.bound) (hfitB : b.size < Word.bound) :
    ((Shape.indicesOf box.outer).map fun q => (a.rowStart originA q, b.rowStart originB q)).flatMap
        (fun row => (List.range box.rowLength).map fun j =>
          ((.ok (row.1 + j), .ok (row.2 + j)) : Except Failure Nat × Except Failure Nat)) =
      box.indices.map fun q =>
        (position a.strides (addIndex originA q), position b.strides (addIndex originB q)) := by
  rw [Shape.indices_eq_flatMap_rowCell, List.map_flatMap, List.flatMap_map]
  apply List.flatMap_congr
  intro q hq
  rw [List.map_map]
  apply List.map_congr_left
  intro i hi
  have hq := Shape.mem_indices.1 hq
  have hi := List.mem_range.1 hi
  exact congrArg₂ Prod.mk (ok_rowStart_add_eq hA hbox hfitA hq hi)
    (ok_rowStart_add_eq hB hbox hfitB hq hi)

/-- The calls of a walk over a box with elements answer the starts of its rows in both arrays, in
row-major order. -/
theorem exists_outcomes_eq (hsizeA : a.size < 2 ^ 63) (hsizeB : b.size < 2 ^ 63) :
    ∃ w, ofOrigins box a.strides originA b.strides originB = .ok w ∧ w.rowLength = box.rowLength ∧
      ∀ calls, w.outcomes calls = (List.range calls).map fun k =>
        .ok ((Shape.indicesOf box.outer).map fun q =>
          (a.rowStart originA q, b.rowStart originB q))[k]? := by
  obtain ⟨limit, hlimit, hfit, hlimitA, hlimitB⟩ := exists_limit hsizeA hsizeB
  refine ⟨newWalk a b box originA originB, ofOrigins_eq_newWalk hA hB hbox hlimitA hlimitB hfit, rfl,
    ?_⟩
  intro calls
  rw [outcomes_eq hlimit (stands_newWalk hA hB hbox hlimitA hlimitB hfit),
    map_startOf_newWalk hA hB hbox hlimitA hlimitB hfit]

end Holds

/-- A walk over a box with elements, which lies in two arrays of fewer than `2^63` elements each, answers
one row a call, without a failure, and from the end on none. Its rows, each as the range of the positions
from its start on, are the positions in both arrays of the multi-indices of the box; these come in
row-major order, each once. A walk over an empty box has no row on any call, wherever its origins lie.
After a call without a row, no call of any walk has one. -/
theorem flatMap_rows_eq_positions (a b box : Shape) (originA originB : Index) :
    (HoldsBox a.lengths originA box.lengths → HoldsBox b.lengths originB box.lengths →
      a.size < 2 ^ 63 → b.size < 2 ^ 63 → 0 ∉ box.lengths →
        ∃ (w : RowPairs) (rows : List (Nat × Nat)),
          ofOrigins box a.strides originA b.strides originB = .ok w ∧
          (∀ calls, w.outcomes calls = (List.range calls).map fun k => .ok rows[k]?) ∧
          (rows.flatMap fun row => (List.range w.rowLength).map fun j =>
              (.ok (row.1 + j), .ok (row.2 + j))) =
            box.indices.map fun q =>
              (position a.strides (addIndex originA q), position b.strides (addIndex originB q))) ∧
    (box.rank = a.rank → box.rank = b.rank → 0 ∈ box.lengths →
      ∃ w, ofOrigins box a.strides originA b.strides originB = .ok w ∧
        ∀ calls, w.outcomes calls = List.replicate calls (.ok none)) ∧
    ((∀ q, q ∈ box.indices ↔ q ∈ box) ∧ box.indices.Pairwise (· < ·)) ∧
    ∀ w rest : RowPairs, w.next = .ok (none, rest) →
      ∀ calls, rest.outcomes calls = List.replicate calls (.ok none) := by
  refine ⟨?_, ?_, ⟨fun _ => Shape.mem_indices, Shape.pairwise_lt_indices box⟩, ?_⟩
  · intro hA hB hsizeA hsizeB hzero
    have hbox : ∀ m ∈ box.lengths, 0 < m := by
      intro m hm
      exact Nat.pos_of_ne_zero fun hm0 => hzero (hm0 ▸ hm)
    have hfitA : a.size < Word.bound := Nat.lt_trans hsizeA (by decide)
    have hfitB : b.size < Word.bound := Nat.lt_trans hsizeB (by decide)
    obtain ⟨w, hw, hlength, hcalls⟩ := exists_outcomes_eq hA hB hbox hsizeA hsizeB
    refine ⟨w, _, hw, hcalls, ?_⟩
    rw [hlength]
    exact flatMap_rowStart_eq hA hB hbox hfitA hfitB
  · intro hrankA hrankB hzero
    obtain ⟨w, hw, hpending⟩ :
        ∃ w, ofOrigins box a.strides originA b.strides originB = .ok w ∧ w.pending = none :=
      exists_ofOrigins_of_isEmpty hrankA hrankB (Shape.isEmpty_iff_zero_mem.2 hzero)
    exact ⟨w, hw, fun calls => outcomes_of_pending_eq_none calls hpending⟩
  · intro w rest hnext calls
    exact outcomes_of_next_eq_none calls hnext

/-- A square of four elements in a square and in a rectangle, and a box without a row. -/
theorem flatMap_rows_eq_positions_square :
    (∃ (w : RowPairs) (rows : List (Nat × Nat)),
      ofOrigins ⟨[2, 2]⟩ (Shape.strides ⟨[3, 3]⟩) [1, 1] (Shape.strides ⟨[2, 4]⟩) [0, 1] = .ok w ∧
      (rows.flatMap fun row => (List.range w.rowLength).map fun j =>
          ((.ok (row.1 + j), .ok (row.2 + j)) : Except Failure Nat × Except Failure Nat)) =
        [(.ok 4, .ok 1), (.ok 5, .ok 2), (.ok 7, .ok 5), (.ok 8, .ok 6)]) ∧
    ∃ w, ofOrigins ⟨[0, 2]⟩ (Shape.strides ⟨[3, 3]⟩) [1, 1] (Shape.strides ⟨[2, 4]⟩) [0, 1] =
        .ok w ∧ w.outcomes 2 = [.ok none, .ok none] := by
  constructor
  · obtain ⟨w, rows, hw, -, hrows⟩ :=
      (flatMap_rows_eq_positions ⟨[3, 3]⟩ ⟨[2, 4]⟩ ⟨[2, 2]⟩ [1, 1] [0, 1]).1
        (.cons (by decide) (.cons (by decide) .nil)) (.cons (by decide) (.cons (by decide) .nil))
        (by decide) (by decide) (by decide)
    exact ⟨w, rows, hw, hrows⟩
  · obtain ⟨w, hw, hnone⟩ :=
      (flatMap_rows_eq_positions ⟨[3, 3]⟩ ⟨[2, 4]⟩ ⟨[0, 2]⟩ [1, 1] [0, 1]).2.1 rfl rfl (by decide)
    exact ⟨w, hw, hnone 2⟩

end RowPairs

end LatticeGrid
