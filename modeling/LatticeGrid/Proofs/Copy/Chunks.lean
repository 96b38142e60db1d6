import LatticeGrid.Proofs.Copy.Sequence

/-!
# Writing a window to chunks and reading it back

A window that is larger than a chunk is written by `Grid.writeWindow` into every chunk that it touches,
and read by `Grid.readChunk` from each of them. `Grid.scatter` and `Grid.gather` do this for a whole list
of chunks. Whatever the order in which the chunks are read, the window comes back wherever some chunk
covers it, and what the chunks held before does not come with it.

The two directions place their grids at opposite offsets, and the negation may be held at the edge of
the lattice. Below that edge both speak of the same pairs of multi-indices
(`placedIndex?_saturatingNeg`), so a chunk that has been written to brings back just what it was given
(`Grid.Written.placed?_eq_some_iff`). All chunks that cover a place bring back the same value there, and
then the order of reading does not matter (`Grid.lastPlaced?_eq_some_iff`).

Main statement: `Grid.gather_scatter`.
-/

set_option autoImplicit false

namespace LatticeGrid.Grid

variable {α : Type} {window : Grid α} {chunks : List (Point × Grid α)} {c w : Point × Grid α}
  {t : Index}

/-- Writes a window into every chunk of a list. Each chunk comes with the origin of the window in its
local coordinates. -/
def scatter (window : Grid α) (chunks : List (Point × Grid α)) :
    Except Failure (List (Point × Grid α)) :=
  chunks.mapM fun c => do return (c.1, ← forget (c.2.writeWindow c.1 window))

/-- Reads every chunk of a list into a window. Each chunk comes with the origin of the window in its
local coordinates. -/
def gather (window : Grid α) (chunks : List (Point × Grid α)) : Except (Failure × Grid α) (Grid α) :=
  chunks.foldlM (fun g c => g.readChunk c.1 c.2) window

/-- The multi-index `t` of a window lies in a chunk that has the origin of the window at `origin`. -/
def Meets (origin : Point) (chunk : Shape) (t : Index) : Prop :=
  ∃ i ∈ chunk,
    List.zipWith (fun (o : Coord) (n : Nat) => o.val + n) origin.coords t = i.map Int.ofNat

theorem meets_iff {origin : Point} {chunk : Shape} (ht : t.length = origin.rank) :
    Meets origin chunk t ↔ ∃ i ∈ chunk, placedIndex? origin.coords i = some t := by
  have hlen : t.length = origin.coords.length := ht
  apply exists_congr
  intro i
  rw [placedIndex?_eq_some_iff, and_iff_right hlen]

/-- Reading chunks is copying them at the negated origins. -/
theorem gather_eq_copyAll (window : Grid α) (chunks : List (Point × Grid α)) :
    window.gather chunks = window.copyAll (chunks.map fun c => (c.1.saturatingNeg, c.2)) := by
  rw [copyAll, List.foldlM_map]
  rfl

/-! ## Chunks that have been written to -/

/-- The chunk `w` is the chunk `c` after a window has been written into it. -/
structure Written (window : Grid α) (c w : Point × Grid α) : Prop where
  origin_eq : w.1 = c.1
  copy : IsCopy c.1 window c.2 w.2

/-- Writing to a list of chunks succeeds and writes to each of them. -/
theorem exists_scatter_eq_ok (hwindow : window.values.size < 2 ^ 63)
    (hchunks : ∀ c ∈ chunks, Placeable window.rank c) :
    ∃ written, window.scatter chunks = .ok written ∧
      (∀ w ∈ written, ∃ c ∈ chunks, Written window c w) ∧
      ∀ c ∈ chunks, ∃ w ∈ written, Written window c w := by
  induction chunks with
  | nil => exact ⟨[], rfl, by simp, by simp⟩
  | cons c rest ih =>
      simp only [List.mem_cons, forall_eq_or_imp] at hchunks
      rcases hchunks with ⟨hc, hrest⟩
      obtain ⟨written, hwritten, hfrom, hto⟩ := ih hrest
      obtain ⟨g, hg, hcopy⟩ := exists_copyFrom_eq_ok hc.rank_offset.symm
        (hc.rank_source.trans hc.rank_offset.symm) hwindow hc.size_lt
      have hwrite : forget (c.2.writeWindow c.1 window) = .ok g := forget_eq_ok_iff.2 hg
      refine ⟨(c.1, g) :: written, ?_, ?_, ?_⟩
      · rw [scatter] at hwritten
        rw [scatter, List.mapM_cons, hwrite, hwritten]
        rfl
      · intro w hw
        rcases List.mem_cons.1 hw with rfl | hw
        · exact ⟨c, List.mem_cons_self, rfl, hcopy⟩
        · obtain ⟨d, hd, hdw⟩ := hfrom w hw
          exact ⟨d, List.mem_cons_of_mem c hd, hdw⟩
      · intro d hd
        rcases List.mem_cons.1 hd with rfl | hd
        · exact ⟨(d.1, g), List.mem_cons_self, rfl, hcopy⟩
        · obtain ⟨w, hw, hdw⟩ := hto d hd
          exact ⟨w, List.mem_cons_of_mem _ hw, hdw⟩

namespace Written

/-- A chunk that has been written to can be read back. -/
theorem placeable (h : Written window c w) (hc : Placeable window.rank c) :
    Placeable window.rank (w.1.saturatingNeg, w.2) := by
  refine ⟨?_, ?_, ?_⟩
  · rw [h.origin_eq]
    exact (Point.rank_map _ _).trans hc.rank_offset
  · exact (congrArg Shape.rank h.copy.shape_eq).trans hc.rank_source
  · rw [size_values_congr h.copy.shape_eq]
    exact hc.size_lt

/-- A chunk brings back to a window what was written there, where it meets the window, and nothing
elsewhere. -/
theorem placed?_eq_some_iff (h : Written window c w) (hc : Placeable window.rank c)
    (hwindow : window.values.size < 2 ^ 63) (ht : t ∈ window.shape) {v : α} :
    w.2.placed? w.1.saturatingNeg t = some v ↔
      Meets c.1 c.2.shape t ∧ window.element? t = some v := by
  have hedge := Shape.coord_lt_edge (window.size_values ▸ hwindow) ht
  obtain ⟨u, hu⟩ := exists_element?_eq_some ht
  -- a place of the chunk at which the window lies holds what the window has there
  have hholds : ∀ i ∈ c.2.shape, placedIndex? c.1.coords i = some t →
      w.2.element? i = window.element? t := by
    intro i hi hplaced
    rw [h.copy.element?_eq i hi, placed?_of_placedIndex? hplaced, hu, Option.some_or]
  rw [meets_iff (ht.1.trans hc.rank_offset.symm), Grid.placed?_eq_some_iff, h.origin_eq]
  constructor
  · rintro ⟨i, hneg, hv⟩
    have hplaced := (placedIndex?_saturatingNeg hedge).1 hneg
    have hi : i ∈ c.2.shape := h.copy.shape_eq ▸ mem_of_element?_eq_some hv
    refine ⟨⟨i, hi, hplaced⟩, ?_⟩
    rw [← hholds i hi hplaced]
    exact hv
  · rintro ⟨⟨i, hi, hplaced⟩, hv⟩
    refine ⟨i, (placedIndex?_saturatingNeg hedge).2 hplaced, ?_⟩
    rw [hholds i hi hplaced]
    exact hv

end Written

/-! ## Reading back -/

/-- The chunks that are read, with the places from which they are read. -/
def readings (order : List (Point × Grid α)) : List (Point × Grid α) :=
  order.map fun w => (w.1.saturatingNeg, w.2)

section Readings

variable {order : List (Point × Grid α)}
  (hfrom : ∀ w ∈ order, ∃ c ∈ chunks, Written window c w)
  (hchunks : ∀ c ∈ chunks, Placeable window.rank c)

include hfrom hchunks

theorem placeable_readings : ∀ p ∈ readings order, Placeable window.rank p := by
  intro p hp
  rcases List.mem_map.1 hp with ⟨w, hw, rfl⟩
  obtain ⟨c, hc, hcw⟩ := hfrom w hw
  exact hcw.placeable (hchunks c hc)

/-- Chunks that have all been written to bring back what the window has, wherever one of them meets
it. -/
theorem lastPlaced?_readings_eq_some_iff (hto : ∀ c ∈ chunks, ∃ w ∈ order, Written window c w)
    (hwindow : window.values.size < 2 ^ 63) (ht : t ∈ window.shape) {v : α} :
    lastPlaced? (readings order) t = some v ↔
      (∃ c ∈ chunks, Meets c.1 c.2.shape t) ∧ window.element? t = some v := by
  have hbrings : ∀ p ∈ readings order, ∀ v, p.2.placed? p.1 t = some v →
      (∃ c ∈ chunks, Meets c.1 c.2.shape t) ∧ window.element? t = some v := by
    intro p hp v hv
    rcases List.mem_map.1 hp with ⟨w, hw, rfl⟩
    obtain ⟨c, hc, hcw⟩ := hfrom w hw
    obtain ⟨hmeets, helem⟩ := (hcw.placed?_eq_some_iff (hchunks c hc) hwindow ht).1 hv
    exact ⟨⟨c, hc, hmeets⟩, helem⟩
  rw [lastPlaced?_eq_some_iff]
  · constructor
    · rintro ⟨p, hp, hv⟩
      exact hbrings p hp v hv
    · rintro ⟨⟨c, hc, hmeets⟩, hv⟩
      obtain ⟨w, hw, hcw⟩ := hto c hc
      refine ⟨(w.1.saturatingNeg, w.2), List.mem_map.2 ⟨w, hw, rfl⟩, ?_⟩
      exact (hcw.placed?_eq_some_iff (hchunks c hc) hwindow ht).2 ⟨hmeets, hv⟩
  · -- all of them bring the value of the window
    intro p hp q hq u v hu hv
    have hu' := (hbrings p hp u hu).2
    rw [(hbrings q hq v hv).2] at hu'
    exact (Option.some.inj hu').symm

/-- Reading chunks that have all been written to recovers the window wherever one of them meets it. -/
theorem exists_gather_eq_ok (hto : ∀ c ∈ chunks, ∃ w ∈ order, Written window c w)
    (hwindow : window.values.size < 2 ^ 63) {fresh : Grid α} (hfresh : fresh.shape = window.shape) :
    ∃ result, fresh.gather order = .ok result ∧ result.shape = window.shape ∧
      ∀ t ∈ window.shape,
        ((∃ c ∈ chunks, Meets c.1 c.2.shape t) → result.element? t = window.element? t) ∧
        ((¬ ∃ c ∈ chunks, Meets c.1 c.2.shape t) → result.element? t = fresh.element? t) := by
  have hrank : fresh.rank = window.rank := congrArg Shape.rank hfresh
  have hsize : fresh.values.size < 2 ^ 63 := by
    rw [size_values, hfresh, ← window.size_values]
    exact hwindow
  obtain ⟨result, hresult, hshape, helem⟩ :=
    exists_copyAll_eq_ok hsize (hrank ▸ placeable_readings hfrom hchunks)
  refine ⟨result, by rw [gather_eq_copyAll]; exact hresult, hshape.trans hfresh, ?_⟩
  intro t ht
  rw [helem t (hfresh ▸ ht)]
  constructor
  · intro hmeets
    obtain ⟨v, hv⟩ := exists_element?_eq_some ht
    have hlast := (lastPlaced?_readings_eq_some_iff hfrom hchunks hto hwindow ht).2 ⟨hmeets, hv⟩
    rw [hlast, hv, Option.some_or]
  · intro hnone
    cases hlast : lastPlaced? (readings order) t with
    | none => rw [Option.none_or]
    | some v =>
        -- a chunk that brings something meets the window there
        have hmeets :=
          ((lastPlaced?_readings_eq_some_iff hfrom hchunks hto hwindow ht).1 hlast).1
        exact absurd hmeets hnone

end Readings

/-- Writing a window into a list of chunks and reading the chunks into a fresh grid of its shape, in any
order, recovers the window wherever some chunk meets it, and leaves the fresh grid alone elsewhere. -/
theorem gather_scatter (window fresh : Grid α) (chunks : List (Point × Grid α))
    (hfresh : fresh.shape = window.shape) (hwindow : window.values.size < 2 ^ 63)
    (hchunks : ∀ c ∈ chunks, Placeable window.rank c) :
    ∃ written, window.scatter chunks = .ok written ∧
      ∀ order : List (Point × Grid α), order.Perm written →
        ∃ result, fresh.gather order = .ok result ∧ result.shape = window.shape ∧
          ∀ t ∈ window.shape,
            ((∃ c ∈ chunks, Meets c.1 c.2.shape t) → result.element? t = window.element? t) ∧
            ((¬ ∃ c ∈ chunks, Meets c.1 c.2.shape t) → result.element? t = fresh.element? t) := by
  obtain ⟨written, hwritten, hfrom, hto⟩ := exists_scatter_eq_ok hwindow hchunks
  refine ⟨written, hwritten, ?_⟩
  intro order hperm
  apply exists_gather_eq_ok _ hchunks _ hwindow hfresh
  · intro w hw
    exact hfrom w (hperm.mem_iff.1 hw)
  · intro c hc
    obtain ⟨w, hw, hcw⟩ := hto c hc
    exact ⟨w, hperm.mem_iff.2 hw, hcw⟩

/-- A row of four written to two chunks that both hold its third element, and neither its first one, and read
back from the second chunk first. -/
theorem gather_scatter_overlapping_chunks :
    ∃ written, (⟨⟨[4]⟩, [1], #[1, 2, 3, 4], rfl, rfl⟩ : Grid Nat).scatter
        [(⟨[Coord.clamp (-1)]⟩, ⟨⟨[2]⟩, [1], #[9, 9], rfl, rfl⟩),
          (⟨[Coord.clamp (-2)]⟩, ⟨⟨[3]⟩, [1], #[8, 8, 8], rfl, rfl⟩)] = .ok written ∧
      ∃ result, (⟨⟨[4]⟩, [1], #[0, 0, 0, 0], rfl, rfl⟩ : Grid Nat).gather written.reverse = .ok result ∧
        result.element? [0] = some 0 ∧ result.element? [1] = some 2 ∧
        result.element? [2] = some 3 ∧ result.element? [3] = some 4 := by
  have hplaceable : ∀ c ∈ ([(⟨[Coord.clamp (-1)]⟩, ⟨⟨[2]⟩, [1], #[9, 9], rfl, rfl⟩),
      (⟨[Coord.clamp (-2)]⟩, ⟨⟨[3]⟩, [1], #[8, 8, 8], rfl, rfl⟩)] : List (Point × Grid Nat)),
      Placeable 1 c := by
    intro c hc
    simp only [List.mem_cons, List.not_mem_nil, or_false] at hc
    rcases hc with rfl | rfl
    · exact ⟨rfl, rfl, by decide⟩
    · exact ⟨rfl, rfl, by decide⟩
  obtain ⟨written, hwritten, hread⟩ :=
    gather_scatter (⟨⟨[4]⟩, [1], #[1, 2, 3, 4], rfl, rfl⟩ : Grid Nat)
      ⟨⟨[4]⟩, [1], #[0, 0, 0, 0], rfl, rfl⟩ _ rfl (by decide) hplaceable
  obtain ⟨result, hresult, -, helem⟩ := hread written.reverse written.reverse_perm
  refine ⟨written, hwritten, result, hresult, (helem [0] (by decide)).2 ?_,
    (helem [1] (by decide)).1 ?_, (helem [2] (by decide)).1 ?_, (helem [3] (by decide)).1 ?_⟩
  · -- both chunks begin after the first element
    rintro ⟨c, hc, i, -, hi⟩
    simp only [List.mem_cons, List.not_mem_nil, or_false] at hc
    cases i with
    | nil => rcases hc with rfl | rfl <;> cases hi
    | cons n i =>
        rcases hc with rfl | rfl
        · exact absurd (List.cons.inj hi).1 (by show (-1 : Int) + 0 ≠ n; omega)
        · exact absurd (List.cons.inj hi).1 (by show (-2 : Int) + 0 ≠ n; omega)
  · exact ⟨_, List.mem_cons_self, [0], by decide, rfl⟩
  · exact ⟨_, List.mem_cons_self, [1], by decide, rfl⟩
  · exact ⟨_, List.mem_cons_of_mem _ List.mem_cons_self, [1], by decide, rfl⟩

end LatticeGrid.Grid
