import LatticeGrid.Copy.Pointwise
import LatticeGrid.Proofs.Copy.CoveredBox
import LatticeGrid.Proofs.Copy.Region

/-!
# Copying by points and copying by rows agree

`Grid.copyPointwise` goes through the points of the box that the source covers on the lattice. The far
edge of that box may be held at the edge of the lattice, so some of what the source covers may have no
point; such a place lies past every target. Each of the other points is tested against both grids.

A round of the loop writes at most one multi-index (`Grid.exists_copyPoint_eq_ok`), and every multi-index
to which the source brings a value has its round, so the copy by points is complete, as the copy by rows
is. A complete copy is unique.

Main statement: `Grid.copyPointwise_eq_copyFrom`.
-/

set_option autoImplicit false

namespace LatticeGrid

namespace Grid

variable {α : Type} {source target : Grid α} {offset : Point}

/-- The multi-indices of the target that copying a point writes. -/
def pointTargets (target : Grid α) (p : Point) : List Index :=
  if p.hasNegative = false ∧ p.toIndex ∈ target.shape then [p.toIndex] else []

/-- Copying a covered point writes its multi-index if the target has it. -/
theorem exists_copyPoint_eq_ok {g : Grid α} {done : List Index} {p d : List Coord}
    (hsource : source.shape.size < Word.bound) (htarget : target.shape.size < Word.bound)
    (hp : OnSource offset.coords source.shape.lengths p d)
    (h : Progress offset source target done g) :
    ∃ next, g.copyPoint offset source ⟨p⟩ = .ok next ∧
      Progress offset source target (done ++ pointTargets target ⟨p⟩) next := by
  rw [copyPoint, hp.sub_eq_ok, pointTargets]
  simp only [bind, Except.bind]
  cases hneg : (Point.mk p).hasNegative with
  | true =>
      -- the point lies before the near edge and the loop goes on
      refine ⟨g, rfl, ?_⟩
      rw [if_neg (by simp), List.append_nil]
      exact h
  | false =>
      by_cases hmem : (Point.mk p).toIndex ∈ target.shape
      · have hmemG : (Point.mk p).toIndex ∈ g.shape := h.shape_eq ▸ hmem
        -- the source has an element there, so the lookup cannot come back empty
        obtain ⟨v, hv⟩ := exists_element?_eq_some (g := source) hp.toIndex_mem
        have hset := set_eq_ok (h.shape_eq ▸ htarget) hmemG v
        refine ⟨g.put (g.shape.offset (Point.mk p).toIndex) v, ?_, ?_⟩
        · simp only [leaving_ok, Bool.false_eq_true, if_false, if_pos hmemG, lookup_eq_ok hsource, hv, hset]
        · rw [if_pos ⟨rfl, hmem⟩]
          exact h.write (hp.placed hneg) hmem hv
      · have hmemG : (Point.mk p).toIndex ∉ g.shape := h.shape_eq ▸ hmem
        refine ⟨g, ?_, ?_⟩
        · simp only [leaving_ok, Bool.false_eq_true, if_false, if_neg hmemG]
          rfl
        · rw [if_neg (fun hboth => hmem hboth.2), List.append_nil]
          exact h

/-- The lengths of a source whose axes fit the lattice. -/
theorem sourceSides_eq_ok (h : ∀ n ∈ source.shape.lengths, n < 2 ^ 63) :
    source.sourceSides = .ok ⟨coordsOf source.shape.lengths⟩ := by
  rw [sourceSides, Shape.toPoint_eq_ok h]

/-- The points of the box that a source covers on the lattice are those from the offset up to the far
edge. -/
theorem exists_points_eq_ok (hs : source.rank = offset.rank) :
    ∃ ps, (Box.mk offset ⟨coordsOf source.shape.lengths⟩).points = .ok ps ∧
      ∀ p, p ∈ ps ↔ offset.AllLE p ∧
        Point.AllLT p ⟨farEdge offset.coords source.shape.lengths⟩ := by
  have hrank : offset.rank = (Point.mk (coordsOf source.shape.lengths)).rank :=
    hs.symm.trans (List.length_map _).symm
  obtain ⟨ps, hps, hmem⟩ :=
    Box.exists_points_eq_ok (b := ⟨offset, ⟨coordsOf source.shape.lengths⟩⟩) hrank
  refine ⟨ps, hps, ?_⟩
  intro p
  exact (hmem p).trans (Box.contains_eq_ok_true_iff (upper_coveredBox hs))

/-- A copy by points between grids of equal rank succeeds and is complete. -/
theorem exists_copyPointwise_eq_ok (hs : source.rank = offset.rank)
    (haxes : ∀ n ∈ source.shape.lengths, n < 2 ^ 63) (hsource : source.values.size < 2 ^ 63)
    (htarget : target.values.size < 2 ^ 63) :
    ∃ result, target.copyPointwise offset source = .ok result ∧
      IsCopy offset source target result := by
  rw [size_values] at hsource htarget
  have hfitS : source.shape.size < Word.bound := Nat.lt_trans hsource (by decide)
  have hfitT : target.shape.size < Word.bound := Nat.lt_trans htarget (by decide)
  obtain ⟨points, hpoints, hmem⟩ := exists_points_eq_ok hs
  have hround : ∀ p ∈ points, ∀ done g, Progress offset source target done g →
      ∃ next, g.copyPoint offset source p = .ok next ∧
        Progress offset source target (done ++ pointTargets target p) next := by
    intro p hp done g h
    obtain ⟨hle, hlt⟩ := (hmem p).1 hp
    obtain ⟨d, hd⟩ := exists_onSource hs haxes hle hlt
    exact exists_copyPoint_eq_ok hfitS hfitT hd h
  obtain ⟨result, hresult, hdone⟩ :=
    (Progress.start offset source target).exists_foldlM_eq_ok hround
  refine ⟨result, ?_, hdone.complete ?_⟩
  · rw [copyPointwise, sourceSides_eq_ok haxes]
    simp only [leaving_ok, bind, Except.bind, hpoints]
    exact hresult
  · intro t ht v hbrings
    rcases placed?_eq_some_iff.1 hbrings with ⟨s, hplaced, hv⟩
    -- no coordinate of the target is the last one of the lattice, so the far edge does not matter
    have hedge := Shape.coord_lt_edge htarget ht
    have hfit : ∀ n ∈ t, n < 2 ^ 63 := by
      intro n hn
      exact Nat.lt_of_lt_of_le (hedge n hn) (Nat.sub_le ..)
    have hpoint := (hmem ⟨coordsOf t⟩).2
      (allLE_and_allLT_of_placed haxes hedge (mem_of_element?_eq_some hv) hplaced)
    rw [List.nil_append, List.mem_flatMap]
    refine ⟨_, hpoint, ?_⟩
    rw [pointTargets, hasNegative_coordsOf hfit, toIndex_coordsOf hfit, if_pos ⟨rfl, ht⟩]
    exact List.mem_singleton_self t

/-- Copying by points and copying by rows give the same grid, without any failure, at every offset
between grids of equal rank, if every axis of the source fits the lattice and neither grid has `2^63`
elements or more. -/
theorem copyPointwise_eq_copyFrom (offset : Point) (source target : Grid α)
    (hs : source.rank = offset.rank) (ht : target.rank = offset.rank)
    (haxes : ∀ n ∈ source.shape.lengths, n < 2 ^ 63) (hsource : source.values.size < 2 ^ 63)
    (htarget : target.values.size < 2 ^ 63) :
    ∃ result, target.copyPointwise offset source = .ok result ∧
      target.copyFrom offset source = .ok result := by
  obtain ⟨a, ha, hcopyA⟩ := exists_copyPointwise_eq_ok hs haxes hsource htarget
  obtain ⟨b, hb, hcopyB⟩ := exists_copyFrom_eq_ok hs ht hsource htarget
  obtain rfl := hcopyA.unique hcopyB
  exact ⟨a, ha, hb⟩

/-- Three rows of two, of which only the middle row meets a target that is a single row; its first element
comes to the second place, and the first place stays as it was. -/
theorem copyPointwise_eq_copyFrom_both_edges :
    (⟨⟨[1, 2]⟩, [2, 1], #[1, 2], rfl, rfl⟩ : Grid Nat).copyPointwise
        ⟨[Coord.clamp (-1), Coord.clamp 1]⟩ ⟨⟨[3, 2]⟩, [2, 1], #[10, 20, 30, 40, 50, 60], rfl, rfl⟩ =
          .ok ⟨⟨[1, 2]⟩, [2, 1], #[1, 30], rfl, rfl⟩ ∧
      (⟨⟨[1, 2]⟩, [2, 1], #[1, 2], rfl, rfl⟩ : Grid Nat).copyFrom
        ⟨[Coord.clamp (-1), Coord.clamp 1]⟩ ⟨⟨[3, 2]⟩, [2, 1], #[10, 20, 30, 40, 50, 60], rfl, rfl⟩ =
          .ok ⟨⟨[1, 2]⟩, [2, 1], #[1, 30], rfl, rfl⟩ := by
  obtain ⟨result, hpoints, hrows⟩ := copyPointwise_eq_copyFrom ⟨[Coord.clamp (-1), Coord.clamp 1]⟩
    (⟨⟨[3, 2]⟩, [2, 1], #[10, 20, 30, 40, 50, 60], rfl, rfl⟩ : Grid Nat)
    ⟨⟨[1, 2]⟩, [2, 1], #[1, 2], rfl, rfl⟩ rfl rfl (by decide) (by decide) (by decide)
  obtain rfl : ⟨⟨[1, 2]⟩, [2, 1], #[1, 30], rfl, rfl⟩ = result := Except.ok.inj hrows
  exact ⟨hpoints, hrows⟩

end Grid

end LatticeGrid
