import LatticeGrid.Proofs.Copy.Region

/-!
# Reading a window and writing it back

`Grid.readChunk` places the chunk at the negated origin of the window, which may be held at the edge of
the lattice, and `Grid.writeWindow` places the window at the origin itself. The two clip in exchanged
roles, and still they speak of the same pairs of multi-indices (`placedIndex?_saturatingNeg`). What was
read into a window therefore goes back to where it came from, and to no other place.

A copy writes at the places that the shape of its source reaches, whatever the source holds there. A
second copy from a source of the same shape and at the same offset writes at just these places again, so
nothing is left of the first one (`Grid.IsCopy.overwrite`).

Main statement: `Grid.writeWindow_readChunk`.
-/

set_option autoImplicit false

namespace LatticeGrid.Grid

variable {α : Type} {origin offset : Point} {chunk window restored read result : Grid α} {s t : Index}

/-! ## Places of a chunk under a window -/

/-- The multi-index `s` of a chunk lies in a window that has its origin at `origin` in the chunk. -/
def InWindow (origin : Point) (window : Shape) (s : Index) : Prop :=
  ∃ t ∈ window,
    List.zipWith (fun (o : Coord) (n : Nat) => o.val + n) origin.coords t = s.map Int.ofNat

theorem inWindow_iff {window : Shape} (hwindow : window.rank = origin.rank) :
    InWindow origin window s ↔ ∃ t ∈ window, placedIndex? origin.coords s = some t := by
  apply exists_congr
  intro t
  apply and_congr_right
  intro ht
  have hlen : t.length = origin.coords.length := ht.1.trans hwindow
  rw [placedIndex?_eq_some_iff, and_iff_right hlen]

/-- A window that a chunk was read into holds the elements of the chunk that lie in it. -/
theorem IsCopy.element?_read (h : IsCopy origin.saturatingNeg chunk window read)
    (hwindow : window.values.size < 2 ^ 63) (ht : t ∈ window.shape) (hs : s ∈ chunk.shape)
    (hplaced : placedIndex? origin.coords s = some t) : read.element? t = chunk.element? s := by
  have hback : placedIndex? origin.saturatingNeg.coords t = some s :=
    (placedIndex?_saturatingNeg (Shape.coord_lt_edge (window.size_values ▸ hwindow) ht)).2 hplaced
  obtain ⟨v, hv⟩ := exists_element?_eq_some hs
  rw [h.element?_eq t ht, placed?_of_placedIndex? hback, hv, Option.some_or]

section ReadBack

variable (hread : IsCopy origin.saturatingNeg chunk window read)
  (hwrite : IsCopy origin read restored result) (hrank : window.rank = origin.rank)
  (hwindow : window.values.size < 2 ^ 63) (hrestored : restored.shape = chunk.shape)
  (hs : s ∈ chunk.shape)

include hread hwrite hrank hrestored hs

include hwindow in
/-- Where the window lies, writing it back restores the chunk. -/
theorem element?_of_inWindow (h : InWindow origin window.shape s) :
    result.element? s = chunk.element? s := by
  obtain ⟨t, ht, hplaced⟩ := (inWindow_iff hrank).1 h
  obtain ⟨v, hv⟩ := exists_element?_eq_some hs
  rw [hwrite.element?_eq s (hrestored ▸ hs), placed?_of_placedIndex? hplaced,
    hread.element?_read hwindow ht hs hplaced, hv, Option.some_or]

/-- Elsewhere, writing the window back changes nothing. -/
theorem element?_of_not_inWindow (h : ¬ InWindow origin window.shape s) :
    result.element? s = restored.element? s := by
  have hnone : read.placed? origin s = none := by
    apply placed?_eq_none_iff.2
    intro t ht hplaced
    exact h ((inWindow_iff hrank).2 ⟨t, hread.shape_eq ▸ ht, hplaced⟩)
  rw [hwrite.element?_eq s (hrestored ▸ hs), hnone, Option.none_or]

end ReadBack

/-- A chunk can be read into a window and the window written to a grid of the shape of the chunk. -/
theorem exists_readBack_eq_ok (hchunk : chunk.rank = origin.rank) (hwindow : window.rank = origin.rank)
    (hrestored : restored.shape = chunk.shape) (hchunkSize : chunk.values.size < 2 ^ 63)
    (hwindowSize : window.values.size < 2 ^ 63) :
    ∃ read result, window.readChunk origin chunk = .ok read ∧
      restored.writeWindow origin read = .ok result ∧
      IsCopy origin.saturatingNeg chunk window read ∧ IsCopy origin read restored result := by
  have hneg : origin.saturatingNeg.rank = origin.rank := Point.rank_map _ _
  obtain ⟨read, hread, hcopyR⟩ := exists_copyFrom_eq_ok (hchunk.trans hneg.symm)
    (hwindow.trans hneg.symm) hchunkSize hwindowSize
  have hreadRank : read.rank = origin.rank := (congrArg Shape.rank hcopyR.shape_eq).trans hwindow
  have hrestoredRank : restored.rank = origin.rank := (congrArg Shape.rank hrestored).trans hchunk
  obtain ⟨result, hwrite, hcopyW⟩ := exists_copyFrom_eq_ok hreadRank hrestoredRank
    (size_values_congr hcopyR.shape_eq ▸ hwindowSize) (size_values_congr hrestored ▸ hchunkSize)
  exact ⟨read, result, hread, hwrite, hcopyR, hcopyW⟩

/-- A chunk into which a window is written that was read from it is unchanged. -/
theorem eq_of_readBack (hread : IsCopy origin.saturatingNeg chunk window read)
    (hwrite : IsCopy origin read chunk result) (hrank : window.rank = origin.rank)
    (hwindow : window.values.size < 2 ^ 63) : result = chunk := by
  apply ext_element? hwrite.shape_eq
  intro s hs
  rw [hwrite.shape_eq] at hs
  by_cases h : InWindow origin window.shape s
  · exact element?_of_inWindow hread hwrite hrank hwindow rfl hs h
  · exact element?_of_not_inWindow hread hwrite hrank rfl hs h

/-! ## Overwriting -/

/-- Sources of one shape bring values to the same places. -/
theorem placed?_eq_none_congr {a b : Grid α} (h : a.shape = b.shape) :
    a.placed? offset t = none ↔ b.placed? offset t = none := by
  rw [placed?_eq_none_iff, placed?_eq_none_iff, h]

/-- The last of two copies from sources of one shape is all that remains. -/
theorem IsCopy.overwrite {a b old first second : Grid α} (ha : IsCopy offset a old first)
    (hb : IsCopy offset b first second) (h : a.shape = b.shape) : IsCopy offset b old second := by
  refine ⟨hb.shape_eq.trans ha.shape_eq, ?_⟩
  intro t ht
  rw [hb.element?_eq t (ha.shape_eq ▸ ht), ha.element?_eq t ht]
  cases hbrings : b.placed? offset t with
  | some v => rw [Option.some_or, Option.some_or]
  | none =>
      -- then the first source brings nothing here either
      rw [(placed?_eq_none_congr h).2 hbrings, Option.none_or]

/-- Copying two sources of one shape to the same place, one after the other, is copying the second
one. -/
theorem exists_copyFrom_copyFrom_eq_ok {a b : Grid α} (h : a.shape = b.shape)
    (ha : a.rank = offset.rank) (hchunk : chunk.rank = offset.rank)
    (haSize : a.values.size < 2 ^ 63) (hchunkSize : chunk.values.size < 2 ^ 63) :
    ∃ first second, chunk.copyFrom offset a = .ok first ∧ first.copyFrom offset b = .ok second ∧
      chunk.copyFrom offset b = .ok second := by
  have hb : b.rank = offset.rank := (congrArg Shape.rank h).symm.trans ha
  have hbSize : b.values.size < 2 ^ 63 := size_values_congr h ▸ haSize
  obtain ⟨first, hfirst, hcopyA⟩ := exists_copyFrom_eq_ok ha hchunk haSize hchunkSize
  have hrank : first.rank = offset.rank := (congrArg Shape.rank hcopyA.shape_eq).trans hchunk
  obtain ⟨second, hsecond, hcopyB⟩ := exists_copyFrom_eq_ok hb hrank hbSize
    (size_values_congr hcopyA.shape_eq ▸ hchunkSize)
  obtain ⟨alone, halone, hcopy⟩ := exists_copyFrom_eq_ok hb hchunk hbSize hchunkSize
  -- both ways end in a complete copy of the second source
  obtain rfl := (hcopyA.overwrite hcopyB h).unique hcopy
  exact ⟨first, second, hfirst, hsecond, halone⟩

/-- Reading a chunk into a window and writing the window to a grid of the shape of the chunk gives that
grid the elements of the chunk that lie in the window, and leaves its other elements alone; so the chunk
itself comes out unchanged. Of two windows of one shape that are written to the same place, the second
one remains, as if it had been written alone; so copying twice is copying once. -/
theorem writeWindow_readChunk (origin : Point) (chunk window restored : Grid α)
    (hchunk : chunk.rank = origin.rank) (hwindow : window.rank = origin.rank)
    (hrestored : restored.shape = chunk.shape) (hchunkSize : chunk.values.size < 2 ^ 63)
    (hwindowSize : window.values.size < 2 ^ 63) :
    (∃ read result, window.readChunk origin chunk = .ok read ∧
      restored.writeWindow origin read = .ok result ∧ result.shape = chunk.shape ∧
      (∀ s ∈ chunk.shape,
        (InWindow origin window.shape s → result.element? s = chunk.element? s) ∧
        (¬ InWindow origin window.shape s → result.element? s = restored.element? s)) ∧
      (restored = chunk → result = chunk)) ∧
    (∀ a b : Grid α, a.shape = b.shape → a.rank = origin.rank → a.values.size < 2 ^ 63 →
      ∃ first second, chunk.writeWindow origin a = .ok first ∧
        first.writeWindow origin b = .ok second ∧ chunk.writeWindow origin b = .ok second) ∧
    ∃ copied, chunk.copyFrom origin window = .ok copied ∧
      copied.copyFrom origin window = .ok copied := by
  refine ⟨?_, ?_, ?_⟩
  · obtain ⟨read, result, hread, hwrite, hcopyR, hcopyW⟩ :=
      exists_readBack_eq_ok hchunk hwindow hrestored hchunkSize hwindowSize
    refine ⟨read, result, hread, hwrite, hcopyW.shape_eq.trans hrestored, ?_, ?_⟩
    · intro s hs
      exact ⟨element?_of_inWindow hcopyR hcopyW hwindow hwindowSize hrestored hs,
        element?_of_not_inWindow hcopyR hcopyW hwindow hrestored hs⟩
    · rintro rfl
      exact eq_of_readBack hcopyR hcopyW hwindow hwindowSize
  · intro a b h ha haSize
    exact exists_copyFrom_copyFrom_eq_ok h ha hchunk haSize hchunkSize
  · obtain ⟨first, second, hfirst, hsecond, halone⟩ :=
      exists_copyFrom_copyFrom_eq_ok (rfl : window.shape = window.shape) hwindow hchunk hwindowSize
        hchunkSize
    obtain rfl := Except.ok.inj (hfirst.symm.trans halone)
    exact ⟨first, hfirst, hsecond⟩

/-- A window that lies across two edges of a square, read and written back to a square of nines. -/
theorem writeWindow_readChunk_across_edges :
    (∃ read result, (⟨⟨[2, 3]⟩, [3, 1], #[0, 0, 0, 0, 0, 0], rfl, rfl⟩ : Grid Nat).readChunk
        ⟨[Coord.clamp 1, Coord.clamp (-1)]⟩ ⟨⟨[2, 2]⟩, [2, 1], #[1, 2, 3, 4], rfl, rfl⟩ = .ok read ∧
      (⟨⟨[2, 2]⟩, [2, 1], #[9, 9, 9, 9], rfl, rfl⟩ : Grid Nat).writeWindow
        ⟨[Coord.clamp 1, Coord.clamp (-1)]⟩ read = .ok result ∧
      result.element? [1, 0] = some 3 ∧ result.element? [0, 1] = some 9) ∧
    ∃ first second, (⟨⟨[2, 2]⟩, [2, 1], #[1, 2, 3, 4], rfl, rfl⟩ : Grid Nat).writeWindow
        ⟨[Coord.clamp 1, Coord.clamp (-1)]⟩ ⟨⟨[1, 2]⟩, [2, 1], #[5, 6], rfl, rfl⟩ = .ok first ∧
      first.writeWindow ⟨[Coord.clamp 1, Coord.clamp (-1)]⟩ ⟨⟨[1, 2]⟩, [2, 1], #[7, 8], rfl, rfl⟩ =
        .ok second ∧
      (⟨⟨[2, 2]⟩, [2, 1], #[1, 2, 3, 4], rfl, rfl⟩ : Grid Nat).writeWindow
        ⟨[Coord.clamp 1, Coord.clamp (-1)]⟩ ⟨⟨[1, 2]⟩, [2, 1], #[7, 8], rfl, rfl⟩ = .ok second := by
  obtain ⟨⟨read, result, hread, hwrite, -, helem, -⟩, hoverwrite, -⟩ :=
    writeWindow_readChunk ⟨[Coord.clamp 1, Coord.clamp (-1)]⟩
      (⟨⟨[2, 2]⟩, [2, 1], #[1, 2, 3, 4], rfl, rfl⟩ : Grid Nat)
      ⟨⟨[2, 3]⟩, [3, 1], #[0, 0, 0, 0, 0, 0], rfl, rfl⟩
      ⟨⟨[2, 2]⟩, [2, 1], #[9, 9, 9, 9], rfl, rfl⟩ rfl rfl rfl (by decide) (by decide)
  refine ⟨⟨read, result, hread, hwrite, (helem [1, 0] (by decide)).1 ?_,
    (helem [0, 1] (by decide)).2 ?_⟩, hoverwrite _ _ rfl rfl (by decide)⟩
  · exact ⟨[0, 1], by decide, rfl⟩
  · -- the window begins at the second row
    rintro ⟨t, -, ht⟩
    cases t with
    | nil => cases ht
    | cons n t => exact absurd (List.cons.inj ht).1 (by show (1 : Int) + n ≠ 0; omega)

end LatticeGrid.Grid
