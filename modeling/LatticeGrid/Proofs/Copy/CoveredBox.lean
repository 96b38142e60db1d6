import LatticeGrid.Proofs.Copy.Overlap
import LatticeGrid.Proofs.Lattice.Points

/-!
# The box that a placed source covers

A source that is placed at an offset covers a box of the lattice, whose far edge may be held at the edge
of the lattice; so some of what the source covers may have no point. On each axis of a point of that box
the difference to the offset is a coordinate of the source (`OnSource`), and every place below the edge
of the lattice at which the source brings a value is a point of the box.

Main statements: `exists_onSource` and `allLE_and_allLT_of_placed`, one for each direction.
-/

set_option autoImplicit false

namespace LatticeGrid

/-! ## Points that a source covers -/

/-- The point `p` is `d` away from the offset, and `d` lies within the lengths of the source. -/
inductive OnSource : (offset : List Coord) → (source : List Nat) → (p d : List Coord) → Prop
  | nil : OnSource [] [] [] []
  | cons {o c e : Coord} {n : Nat} {offset p d : List Coord} {source : List Nat} :
      e.val = c.val - o.val → 0 ≤ e.val → e.val < n → OnSource offset source p d →
        OnSource (o :: offset) (n :: source) (c :: p) (e :: d)

/-- The far edge of the box that a source covers, held at the edge of the lattice. -/
def farEdge (offset : List Coord) (source : List Nat) : List Coord :=
  List.zipWith Coord.saturatingAdd offset (coordsOf source)

variable {offset p d : List Coord} {source : List Nat}

/-- A point between the offset and the far edge is covered. -/
theorem exists_onSource (hlen : source.length = offset.length) (hsource : ∀ n ∈ source, n < 2 ^ 63)
    (hle : Point.AllLE ⟨offset⟩ ⟨p⟩) (hlt : Point.AllLT ⟨p⟩ ⟨farEdge offset source⟩) :
    ∃ d, OnSource offset source p d := by
  induction offset generalizing source p with
  | nil =>
      obtain rfl := List.eq_nil_of_length_eq_zero hlen
      obtain rfl : p = [] := List.eq_nil_of_length_eq_zero hle.1.symm
      exact ⟨[], .nil⟩
  | cons o offset ih =>
      obtain ⟨n, source, rfl⟩ := List.exists_cons_of_length_eq_add_one hlen
      obtain ⟨c, p, rfl⟩ := List.exists_cons_of_length_eq_add_one hle.1.symm
      simp only [List.mem_cons, forall_eq_or_imp] at hsource
      rcases Point.allLE_cons.1 hle with ⟨hoc, hle⟩
      rcases Point.allLT_cons.1 hlt with ⟨hcu, hlt⟩
      obtain ⟨d, hd⟩ := ih (Nat.succ.inj hlen) hsource.2 hle hlt
      have hlow := o.lower
      rw [Coord.le_def] at hoc
      rw [Coord.lt_def, Coord.saturatingAdd, Coord.val_clamp,
        Coord.val_clamp_natCast hsource.1] at hcu
      have hn := hsource.1
      exact ⟨⟨c.val - o.val, by omega, by omega⟩ :: d,
        .cons rfl (by show 0 ≤ c.val - o.val; omega) (by show c.val - o.val < n; omega) hd⟩

namespace OnSource

/-- The difference of a covered point and the offset lies on the lattice. -/
theorem sub_eq_ok (h : OnSource offset source p d) : (Point.mk p).sub ⟨offset⟩ = .ok ⟨d⟩ := by
  induction h with
  | nil => rfl
  | cons heq _ _ _ ih => exact Point.zipWithM_cons_eq_ok (Coord.checked_eq_ok_iff.2 heq) ih

/-- The difference of a covered point and the offset is a multi-index of the source. -/
theorem toIndex_mem (h : OnSource offset source p d) :
    (Point.mk d).toIndex ∈ (⟨source⟩ : Shape) := by
  induction h with
  | nil => exact Shape.nil_mem_nil
  | @cons o c e n offset p d source _ hnonneg hlt _ ih =>
      refine Shape.cons_mem_cons.2 ⟨?_, ih⟩
      rw [Coord.toNat]
      omega

/-- What the source brings to a covered point that is a multi-index. -/
theorem placed (h : OnSource offset source p d) (hp : (Point.mk p).hasNegative = false) :
    placedIndex? offset (Point.mk p).toIndex = some (Point.mk d).toIndex := by
  induction h with
  | nil => rfl
  | @cons o c e n offset p d source heq hnonneg _ _ ih =>
      rw [Point.hasNegative, List.any_cons, Bool.or_eq_false_iff, decide_eq_false_iff_not] at hp
      show placedIndex? (o :: offset) (c.toNat :: (Point.mk p).toIndex) = _
      rw [placedIndex?_cons_eq_some_iff]
      refine ⟨e.toNat, _, rfl, ?_, ih hp.2⟩
      rw [Coord.toNat, Coord.toNat]
      omega

end OnSource

/-! ## Places that a source reaches -/

/-- Every place below the edge of the lattice at which the source brings a value lies between the offset
and the far edge. -/
theorem allLE_and_allLT_of_placed {t s : Index} (hsource : ∀ n ∈ source, n < 2 ^ 63)
    (ht : ∀ n ∈ t, n < 2 ^ 63 - 1) (hs : s ∈ (⟨source⟩ : Shape))
    (hplaced : placedIndex? offset t = some s) :
    Point.AllLE ⟨offset⟩ ⟨coordsOf t⟩ ∧ Point.AllLT ⟨coordsOf t⟩ ⟨farEdge offset source⟩ := by
  induction offset generalizing source t s with
  | nil =>
      obtain ⟨hslen, htlen⟩ := length_of_placedIndex?_eq_some hplaced
      obtain rfl := List.eq_nil_of_length_eq_zero htlen
      rw [farEdge, List.zipWith_nil_left]
      decide
  | cons o offset ih =>
      obtain ⟨hslen, htlen⟩ := length_of_placedIndex?_eq_some hplaced
      obtain ⟨n, t, rfl⟩ := List.exists_cons_of_length_eq_add_one htlen
      rcases placedIndex?_cons_eq_some_iff.1 hplaced with ⟨m, s, rfl, hsum, hplaced⟩
      cases source with
      | nil => exact absurd hs (Shape.not_cons_mem_nil m s)
      | cons l source =>
          simp only [List.mem_cons, forall_eq_or_imp] at hsource ht
          rcases Shape.cons_mem_cons.1 hs with ⟨hm, hs⟩
          obtain ⟨hle, hlt⟩ := ih hsource.2 ht.2 hs hplaced
          have hn : n < 2 ^ 63 := Nat.lt_of_lt_of_le ht.1 (Nat.sub_le ..)
          have hn' := ht.1
          refine ⟨Point.allLE_cons.2 ⟨?_, hle⟩, Point.allLT_cons.2 ⟨?_, hlt⟩⟩
          · rw [Coord.le_def, Coord.val_clamp_natCast hn]
            omega
          · rw [Coord.lt_def, Coord.val_clamp_natCast hn, Coord.saturatingAdd, Coord.val_clamp,
              Coord.val_clamp_natCast hsource.1]
            omega

/-- The upper bound of the box that a source covers is its far edge. -/
theorem upper_coveredBox {offset : Point} {ls : List Nat} (h : ls.length = offset.rank) :
    (Box.mk offset ⟨coordsOf ls⟩).upper = .ok ⟨farEdge offset.coords ls⟩ := by
  have hrank : offset.rank = (Point.mk (coordsOf ls)).rank := h.symm.trans (List.length_map _).symm
  rw [Box.upper_eq_ok (b := ⟨offset, ⟨coordsOf ls⟩⟩) hrank, clampNegative_coordsOf]
  rfl

/-! ## The box of an overlap -/

/-- Placing something at a start carries a multi-index to its sum with the start. -/
theorem placedIndex?_coordsOf {origin q : Index} (hlen : q.length = origin.length)
    (horigin : ∀ n ∈ origin, n < 2 ^ 63) :
    placedIndex? (coordsOf origin) (addIndex origin q) = some q := by
  induction origin generalizing q with
  | nil =>
      obtain rfl := List.eq_nil_of_length_eq_zero hlen
      rfl
  | cons n origin ih =>
      obtain ⟨c, q, rfl⟩ := List.exists_cons_of_length_eq_add_one hlen
      simp only [List.mem_cons, forall_eq_or_imp] at horigin
      show placedIndex? (Coord.clamp n :: coordsOf origin) ((n + c) :: addIndex origin q) = _
      rw [placedIndex?_cons_eq_some_iff]
      refine ⟨c, q, rfl, ?_, ih (Nat.succ.inj hlen) horigin.2⟩
      rw [Coord.val_clamp_natCast horigin.1]
      omega

/-- The box of an overlap on the lattice contains the multi-indices that the overlap covers. -/
theorem Overlap.boxAt_contains {array box : Shape} {origin q : Index}
    (h : HoldsBox array.lengths origin box.lengths) (hsize : array.size < 2 ^ 63) (hq : q ∈ box) :
    (boxAt origin box).contains ⟨coordsOf (addIndex origin q)⟩ = .ok true := by
  have hbox := Shape.pos_of_mem hq
  have horigin : ∀ n ∈ origin, n < 2 ^ 63 := by
    intro n hn
    exact Nat.lt_trans (Shape.coord_lt_size (s := array) (h.origin_mem hbox) n hn) hsize
  have hlengths : ∀ m ∈ box.lengths, m < 2 ^ 63 := by
    intro m hm
    obtain ⟨n, hn, hmn⟩ := h.exists_length_le m hm
    have hle := Shape.length_le_size (h.pos_of_pos hbox) n hn
    omega
  have hedge := Shape.coord_lt_edge hsize (h.add_mem hq)
  have hlen : box.lengths.length = (Point.mk (coordsOf origin)).rank := by
    rw [h.length_box, ← h.length_origin]
    exact (List.length_map _).symm
  have hqlen : q.length = origin.length := by
    rw [hq.1, h.length_origin, ← h.length_box]
    rfl
  apply (Box.contains_eq_ok_true_iff (upper_coveredBox hlen)).2
  exact allLE_and_allLT_of_placed hlengths hedge hq (placedIndex?_coordsOf hqlen horigin)

end LatticeGrid
