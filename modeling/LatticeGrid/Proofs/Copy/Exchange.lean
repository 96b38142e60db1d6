import LatticeGrid.Proofs.Copy.Chunks
import LatticeGrid.Proofs.Copy.RoundTrip
import LatticeGrid.Proofs.Copy.SharedBox

/-!
# The two directions of a copy

A chunk is read into a window by placing the chunk in the window, and a window is written to a chunk by
placing the window in the chunk. The two offsets are negations of each other, but the negation of the
least coordinate of the lattice is not on the lattice, and `Point.saturatingNeg` holds it at the other
edge. `Overlap.between` then clips the two directions in different places, one at `offset + source` and
the other at `target - offset`.

Nothing is lost by that. On one axis an exact overlap stays exact when source and target are exchanged
(`AxisOverlap.Exact.exchange`), and an offset whose negation is held meets nothing in either direction.
There is only one way to clip (`Clips.unique`), so the two overlaps are the same box, seen from either side
(`Overlap.exists_exchange_eq_ok`), and reading a chunk is exact in unbounded integers.

Main statement: `Overlap.between_saturatingNeg`.
-/

set_option autoImplicit false

namespace LatticeGrid

/-! ## One axis -/

namespace AxisOverlap

/-- The overlap with source and target exchanged. -/
def exchange (a : AxisOverlap) : AxisOverlap := ⟨a.sourceMin, a.targetMin, a.length⟩

variable {o : Coord} {n m : Nat} {a b : AxisOverlap}

/-- There is only one exact overlap on an axis. -/
theorem Exact.unique (ha : a.Exact o n m) (hb : b.Exact o n m) : a = b := by
  -- the bounds do not depend on the overlap
  obtain ⟨hstartA, hstopA⟩ := ha.bounds
  obtain ⟨hstartB, hstopB⟩ := hb.bounds
  have hplaceA := ha.targetMin_eq
  have hplaceB := hb.targetMin_eq
  have htarget : a.targetMin = b.targetMin := by omega
  have hsource : a.sourceMin = b.sourceMin := by omega
  have hlength : a.length = b.length := by omega
  cases a
  cases b
  cases htarget
  cases hsource
  cases hlength
  rfl

/-- The offset of an exact overlap is not the least coordinate of the lattice: from there the source
ends before the target begins. -/
theorem Exact.val_saturatingNeg (h : a.Exact o n m) (hn : n < 2 ^ 63) :
    o.saturatingNeg.val = -o.val := by
  have hplace := h.targetMin_eq
  have hsource := h.source_le
  have hlength := h.length_pos
  have hupp := o.upper
  rw [Coord.saturatingNeg, Coord.val_clamp]
  omega

/-- Seen from the other side, an exact overlap is exact. -/
theorem Exact.exchange (h : a.Exact o n m) (hn : n < 2 ^ 63) :
    a.exchange.Exact o.saturatingNeg m n := by
  have hneg := h.val_saturatingNeg hn
  have hplace := h.targetMin_eq
  refine ⟨h.length_pos, h.source_le, h.target_le, ?_, ?_⟩
  · show o.saturatingNeg.val + a.targetMin = a.sourceMin
    omega
  · intro t s ht hs hsum
    obtain ⟨hge, hlt⟩ := h.covers s t hs ht (by omega)
    show a.sourceMin ≤ t ∧ t < a.sourceMin + a.length
    omega

/-- Where source and target do not meet, they do not meet after an exchange. -/
theorem Apart.exchange (h : Apart o n m) (hn : n < 2 ^ 63) : Apart o.saturatingNeg m n := by
  intro t s ht hs hsum
  have hapart := h s t hs ht
  have hlow := o.lower
  have hupp := o.upper
  rw [Coord.saturatingNeg, Coord.val_clamp] at hsum
  omega

end AxisOverlap

/-! ## All axes -/

namespace Clips

variable {offset : List Coord} {source target : List Nat} {x y : Option (List AxisOverlap)}

/-- There is only one way to clip the axes. -/
theorem unique (hx : Clips offset source target x) (hy : Clips offset source target y) : x = y := by
  induction hx generalizing y with
  | nil =>
      cases hy
      rfl
  | apart hapart =>
      cases hy with
      | apart _ => rfl
      | meet hb _ => exact absurd hapart hb.not_apart
  | meet ha _ ih =>
      cases hy with
      | apart hapart => exact absurd hapart ha.not_apart
      | meet hb hrest => rw [ha.unique hb, ih hrest]

/-- Clipping at the negated offsets, with source and target exchanged, exchanges the answer. -/
theorem exchange (h : Clips offset source target x) (hsource : ∀ n ∈ source, n < 2 ^ 63) :
    Clips (offset.map Coord.saturatingNeg) target source
      (x.map (List.map AxisOverlap.exchange)) := by
  induction h with
  | nil => exact .nil
  | apart hapart =>
      simp only [List.mem_cons, forall_eq_or_imp] at hsource
      exact .apart (hapart.exchange hsource.1)
  | @meet o n m offset source target a answer ha _ ih =>
      simp only [List.mem_cons, forall_eq_or_imp] at hsource
      have hmap : (answer.map (a :: ·)).map (List.map AxisOverlap.exchange) =
          (answer.map (List.map AxisOverlap.exchange)).map (a.exchange :: ·) := by
        rw [Option.map_map, Option.map_map]
        rfl
      rw [hmap]
      exact .meet (ha.exchange hsource.1) (ih hsource.2)

end Clips

/-! ## The overlap -/

namespace Overlap

variable {offset : Point} {source target : Shape}

/-- The overlap with source and target exchanged. -/
def exchange (o : Overlap) : Overlap := ⟨o.sourceMin, o.targetMin, o.shape⟩

theorem ofAxes_map_exchange (axes : List AxisOverlap) :
    ofAxes (axes.map AxisOverlap.exchange) = (ofAxes axes).exchange := by
  simp only [ofAxes, exchange, List.map_map]
  rfl

/-- What is refused in one direction is refused in the other one. -/
theorem refused_saturatingNeg :
    Refused offset.saturatingNeg target source ↔ Refused offset source target := by
  rw [Refused, Refused, Point.saturatingNeg, Point.rank_map]
  exact or_congr (not_congr and_comm) (and_congr and_comm or_comm)

/-- A geometry that is answered in one direction has the exchanged answer in the other one. -/
theorem exists_exchange_eq_ok (h : ¬ Refused offset source target) :
    ∃ answer, between offset source target = .ok answer ∧
      between offset.saturatingNeg target source = .ok (answer.map exchange) := by
  rw [Refused, not_or, Classical.not_not] at h
  rcases h with ⟨⟨hs, ht⟩, hlong⟩
  have hneg : offset.saturatingNeg.rank = offset.rank := Point.rank_map _ _
  have hs' := hs.trans hneg.symm
  have ht' := ht.trans hneg.symm
  cases hempty : source.isEmpty || target.isEmpty with
  | true =>
      refine ⟨none, between_of_isEmpty hs ht hempty, between_of_isEmpty ht' hs' ?_⟩
      rw [Bool.or_comm]
      exact hempty
  | false =>
      rw [not_and, not_or] at hlong
      rcases hlong (isEmpty_or_eq_false_iff.1 hempty) with ⟨hsource, htarget⟩
      simp only [not_exists, not_and, Nat.not_le] at hsource htarget
      obtain ⟨axes, haxes, hclips⟩ := exists_clip_eq_ok hs ht hsource htarget
      have hlenS : source.lengths.length = (offset.coords.map Coord.saturatingNeg).length := hs'
      have hlenT : target.lengths.length = (offset.coords.map Coord.saturatingNeg).length := ht'
      obtain ⟨back, hback, hclips'⟩ := exists_clip_eq_ok hlenT hlenS htarget hsource
      obtain rfl := hclips'.unique (hclips.exchange hsource)
      refine ⟨_, between_of_isEmpty_eq_false hs ht hempty hsource htarget haxes, ?_⟩
      rw [between_of_isEmpty_eq_false ht' hs' (Bool.or_comm _ _ ▸ hempty) htarget hsource hback]
      cases axes with
      | none => rfl
      | some axes => exact congrArg (Except.ok ∘ some) (ofAxes_map_exchange axes)

end Overlap

/-! ## Reading a chunk -/

namespace Grid

variable {α : Type} {origin : Point} {chunk window : Grid α}

/-- Reading a chunk into a window gives every multi-index of the window the element of the chunk that
lies there, in unbounded integers, and leaves those alone that lie outside of the chunk. -/
theorem exists_readChunk_eq_ok (hchunk : chunk.rank = origin.rank) (hwindow : window.rank = origin.rank)
    (hchunkSize : chunk.values.size < 2 ^ 63) (hwindowSize : window.values.size < 2 ^ 63) :
    ∃ result, window.readChunk origin chunk = .ok result ∧ result.shape = window.shape ∧
      ∀ t ∈ window.shape,
        (∀ s ∈ chunk.shape,
          List.zipWith (fun (o : Coord) (n : Nat) => o.val + n) origin.coords t = s.map Int.ofNat →
            result.element? t = chunk.element? s) ∧
        (¬ Meets origin chunk.shape t → result.element? t = window.element? t) := by
  have hneg : origin.saturatingNeg.rank = origin.rank := Point.rank_map _ _
  obtain ⟨result, hresult, hcopy⟩ := exists_copyFrom_eq_ok (hchunk.trans hneg.symm)
    (hwindow.trans hneg.symm) hchunkSize hwindowSize
  refine ⟨result, hresult, hcopy.shape_eq, ?_⟩
  intro t ht
  have hlen : t.length = origin.coords.length := ht.1.trans hwindow
  constructor
  · intro s hs hsum
    exact hcopy.element?_read hwindowSize ht hs (placedIndex?_eq_some_iff.2 ⟨hlen, hsum⟩)
  · intro hnone
    rw [hcopy.element?_eq t ht, placed?_eq_none_iff.2, Option.none_or]
    intro s hs hplaced
    -- what the negated origin carries here lies in the chunk
    have hedge := Shape.coord_lt_edge (window.size_values ▸ hwindowSize) ht
    exact hnone ((meets_iff hlen).2 ⟨s, hs, (placedIndex?_saturatingNeg hedge).1 hplaced⟩)

end Grid

namespace Overlap

/-- Exchanging source and target and negating the offset, held at the edge of the lattice, exchanges the
two sides of the overlap: both are failures, both find no overlap, or both find a box of the same shape,
and what is its corner in the target for one of them is its corner in the source for the other. So
reading a chunk into a window, with fewer than `2^63` elements each, is exact: the element at a
multi-index `t` of the window becomes that of the chunk at `t` plus the origin of the window, if that sum
of unbounded integers lies in the chunk, and stays what it was otherwise. -/
theorem between_saturatingNeg (offset : Point) (source target : Shape) :
    ((∃ e e', between offset source target = .error e ∧
        between offset.saturatingNeg target source = .error e') ∨
      (between offset source target = .ok none ∧
        between offset.saturatingNeg target source = .ok none) ∨
      ∃ o o', between offset source target = .ok (some o) ∧
        between offset.saturatingNeg target source = .ok (some o') ∧
        o'.shape = o.shape ∧ o'.targetMin = o.sourceMin ∧ o'.sourceMin = o.targetMin) ∧
    ∀ {α : Type} (chunk window : Grid α), chunk.rank = offset.rank → window.rank = offset.rank →
      chunk.values.size < 2 ^ 63 → window.values.size < 2 ^ 63 →
        ∃ result, window.readChunk offset chunk = .ok result ∧ result.shape = window.shape ∧
          ∀ t ∈ window.shape,
            (∀ s ∈ chunk.shape,
              List.zipWith (fun (o : Coord) (n : Nat) => o.val + n) offset.coords t =
                  s.map Int.ofNat →
                result.element? t = chunk.element? s) ∧
            (¬ Grid.Meets offset chunk.shape t → result.element? t = window.element? t) := by
  refine ⟨?_, fun _ _ => Grid.exists_readChunk_eq_ok⟩
  by_cases h : Refused offset source target
  · obtain ⟨e, he, -⟩ := exists_between_eq_error h
    obtain ⟨e', he', -⟩ := exists_between_eq_error (refused_saturatingNeg.2 h)
    exact Or.inl ⟨e, e', he, he'⟩
  · obtain ⟨answer, hanswer, hexchanged⟩ := exists_exchange_eq_ok h
    cases answer with
    | none => exact Or.inr (Or.inl ⟨hanswer, hexchanged⟩)
    | some o => exact Or.inr (Or.inr ⟨o, o.exchange, hanswer, hexchanged, rfl, rfl, rfl⟩)

/-- A row of three read from a chunk that begins at its second element, and one at the least coordinate
of the lattice, of which nothing is read. -/
theorem between_saturatingNeg_read_rows :
    (∃ result, (⟨⟨[3]⟩, [1], #[1, 2, 3], rfl, rfl⟩ : Grid Nat).readChunk ⟨[Coord.clamp (-1)]⟩
        ⟨⟨[4]⟩, [1], #[6, 7, 8, 9], rfl, rfl⟩ = .ok result ∧
      result.element? [0] = some 1 ∧ result.element? [1] = some 6 ∧ result.element? [2] = some 7) ∧
    ∃ result, (⟨⟨[3]⟩, [1], #[1, 2, 3], rfl, rfl⟩ : Grid Nat).readChunk
        ⟨[Coord.clamp (-9223372036854775808)]⟩ ⟨⟨[4]⟩, [1], #[6, 7, 8, 9], rfl, rfl⟩ = .ok result ∧
      result.element? [2] = some 3 := by
  constructor
  · obtain ⟨result, hresult, -, helem⟩ := (between_saturatingNeg ⟨[Coord.clamp (-1)]⟩ ⟨[]⟩ ⟨[]⟩).2
      (⟨⟨[4]⟩, [1], #[6, 7, 8, 9], rfl, rfl⟩ : Grid Nat) ⟨⟨[3]⟩, [1], #[1, 2, 3], rfl, rfl⟩ rfl rfl
      (by decide) (by decide)
    refine ⟨result, hresult, (helem [0] (by decide)).2 ?_, (helem [1] (by decide)).1 [0] (by decide) rfl,
      (helem [2] (by decide)).1 [1] (by decide) rfl⟩
    rintro ⟨s, -, hs⟩
    cases s with
    | nil => cases hs
    | cons n s => exact absurd (List.cons.inj hs).1 (by show (-1 : Int) + 0 ≠ n; omega)
  · obtain ⟨result, hresult, -, helem⟩ :=
      (between_saturatingNeg ⟨[Coord.clamp (-9223372036854775808)]⟩ ⟨[]⟩ ⟨[]⟩).2
        (⟨⟨[4]⟩, [1], #[6, 7, 8, 9], rfl, rfl⟩ : Grid Nat) ⟨⟨[3]⟩, [1], #[1, 2, 3], rfl, rfl⟩ rfl rfl
        (by decide) (by decide)
    refine ⟨result, hresult, (helem [2] (by decide)).2 ?_⟩
    rintro ⟨s, -, hs⟩
    cases s with
    | nil => cases hs
    | cons n s =>
        exact absurd (List.cons.inj hs).1 (by show (-9223372036854775808 : Int) + 2 ≠ n; omega)

end Overlap

end LatticeGrid
