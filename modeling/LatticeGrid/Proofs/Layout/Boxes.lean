import LatticeGrid.Proofs.Layout.Position

/-!
# Boxes inside a shape

A box is given by its shape and by the multi-index of the array at which it starts. The multi-indices
of the box itself start at the origin; adding the start to them gives the multi-indices of the array
that the box covers. A box falls into rows, one for each multi-index of its outer axes, and a row lies
in one piece in the store of the array.

Main statements: `HoldsBox.add_mem`, `Shape.mem_iff_exists_rowCell` and `HoldsBox.offset_add_rowCell`.
-/

set_option autoImplicit false

namespace LatticeGrid

/-- A box that starts at `origin` lies in an array, both given by their axis lengths. -/
inductive HoldsBox : (array : List Nat) → (origin : Index) → (box : List Nat) → Prop
  | nil : HoldsBox [] [] []
  | cons {n o m : Nat} {array box : List Nat} {origin : Index} :
      o + m ≤ n → HoldsBox array origin box → HoldsBox (n :: array) (o :: origin) (m :: box)

/-- The multi-index of the array at a multi-index of a box that starts at `origin`. -/
def addIndex (origin p : Index) : Index := List.zipWith (fun o c => o + c) origin p

@[simp] theorem addIndex_nil (p : Index) : addIndex [] p = [] := rfl

@[simp] theorem addIndex_cons (o c : Nat) (origin p : Index) :
    addIndex (o :: origin) (c :: p) = (o + c) :: addIndex origin p := rfl

theorem addIndex_zero (p : Index) : addIndex (List.replicate p.length 0) p = p := by
  induction p with
  | nil => rfl
  | cons c p ih => rw [List.length_cons, List.replicate_succ, addIndex_cons, ih, Nat.zero_add]

namespace HoldsBox

variable {array box : List Nat} {origin : Index}

theorem length_box (h : HoldsBox array origin box) : box.length = array.length := by
  induction h with
  | nil => rfl
  | cons _ _ ih => exact congrArg Nat.succ ih

theorem length_origin (h : HoldsBox array origin box) : origin.length = array.length := by
  induction h with
  | nil => rfl
  | cons _ _ ih => exact congrArg Nat.succ ih

/-- What the box covers lies in the array. -/
theorem add_mem (h : HoldsBox array origin box) {p : Index} (hp : p ∈ (⟨box⟩ : Shape)) :
    addIndex origin p ∈ (⟨array⟩ : Shape) := by
  induction h generalizing p with
  | nil => exact Shape.nil_mem_nil
  | @cons n o m array box origin hle _ ih =>
      cases p with
      | nil => exact absurd hp (Shape.not_nil_mem_cons m box)
      | cons c p =>
          rcases Shape.cons_mem_cons.1 hp with ⟨hc, hp⟩
          rw [addIndex_cons, Shape.cons_mem_cons]
          exact ⟨Nat.lt_of_lt_of_le (Nat.add_lt_add_left hc o) hle, ih hp⟩

/-- No axis of the box is longer than all axes of the array. -/
theorem exists_length_le (h : HoldsBox array origin box) : ∀ m ∈ box, ∃ n ∈ array, m ≤ n := by
  induction h with
  | nil => simp
  | @cons n o m array box origin hle _ ih =>
      intro k hk
      rcases List.mem_cons.1 hk with rfl | hk
      · exact ⟨n, List.mem_cons_self, by omega⟩
      · obtain ⟨l, hl, hkl⟩ := ih k hk
        exact ⟨l, List.mem_cons_of_mem n hl, hkl⟩

/-- An array that holds a box with elements has no empty axis. -/
theorem pos_of_pos (h : HoldsBox array origin box) (hbox : ∀ m ∈ box, 0 < m) :
    ∀ n ∈ array, 0 < n := by
  induction h with
  | nil => simp
  | cons hle _ ih =>
      simp only [List.mem_cons, forall_eq_or_imp] at hbox ⊢
      exact ⟨by omega, ih hbox.2⟩

/-- The start of a box with elements lies in the array. -/
theorem origin_mem (h : HoldsBox array origin box) (hbox : ∀ m ∈ box, 0 < m) :
    origin ∈ (⟨array⟩ : Shape) := by
  induction h with
  | nil => exact Shape.nil_mem_nil
  | cons hle _ ih =>
      simp only [List.mem_cons, forall_eq_or_imp] at hbox
      exact Shape.cons_mem_cons.2 ⟨by omega, ih hbox.2⟩

end HoldsBox

/-! ## The multi-indices of a box -/

/-- The multi-index `t` lies in the box that starts at `origin`: on every axis from the start of the box
up to, and without, the start plus the length. -/
def InBox (origin : Index) (box : List Nat) (t : Index) : Prop :=
  t.length = box.length ∧
    ∀ q ∈ t.zip (origin.zip box), q.2.1 ≤ q.1 ∧ q.1 < q.2.1 + q.2.2

instance (origin : Index) (box : List Nat) (t : Index) : Decidable (InBox origin box t) :=
  inferInstanceAs (Decidable (t.length = box.length ∧
    ∀ q ∈ t.zip (origin.zip box), q.2.1 ≤ q.1 ∧ q.1 < q.2.1 + q.2.2))

theorem inBox_cons {o m c : Nat} {origin t : Index} {box : List Nat} :
    InBox (o :: origin) (m :: box) (c :: t) ↔ (o ≤ c ∧ c < o + m) ∧ InBox origin box t := by
  simp only [InBox, List.length_cons, List.zip_cons_cons, List.forall_mem_cons,
    Nat.add_right_cancel_iff]
  exact and_left_comm

/-- A box has the multi-indices of its shape, moved to its start. -/
theorem inBox_iff_exists_addIndex {origin t : Index} {box : List Nat}
    (hlen : origin.length = box.length) :
    InBox origin box t ↔ ∃ q ∈ (⟨box⟩ : Shape), t = addIndex origin q := by
  induction origin generalizing box t with
  | nil =>
      obtain rfl := List.eq_nil_of_length_eq_zero hlen.symm
      constructor
      · intro h
        exact ⟨[], Shape.nil_mem_nil, List.eq_nil_of_length_eq_zero h.1⟩
      · rintro ⟨q, -, rfl⟩
        exact ⟨rfl, by simp⟩
  | cons o origin ih =>
      obtain ⟨m, box, rfl⟩ := List.exists_cons_of_length_eq_add_one hlen.symm
      cases t with
      | nil =>
          constructor
          · intro h
            cases h.1
          · rintro ⟨q, hq, heq⟩
            cases q with
            | nil => exact absurd hq (Shape.not_nil_mem_cons m box)
            | cons c q => cases heq
      | cons c t =>
          rw [inBox_cons, ih (Nat.succ.inj hlen)]
          constructor
          · rintro ⟨⟨hle, hlt⟩, q, hq, rfl⟩
            have hlength : c - o < m := by omega
            refine ⟨(c - o) :: q, Shape.cons_mem_cons.2 ⟨hlength, hq⟩, ?_⟩
            rw [addIndex_cons, Nat.add_sub_cancel' hle]
          · rintro ⟨q, hq, heq⟩
            cases q with
            | nil => exact absurd hq (Shape.not_nil_mem_cons m box)
            | cons d q =>
                rcases Shape.cons_mem_cons.1 hq with ⟨hd, hq⟩
                rcases List.cons_eq_cons.1 heq with ⟨rfl, rfl⟩
                exact ⟨⟨Nat.le_add_right o d, Nat.add_lt_add_left hd o⟩, q, hq, rfl⟩

/-! ## Rows -/

namespace Shape

/-- The element number `i` of the row at `q` of a box. A box of rank 0 has a single element, and no
coordinate for it. -/
def rowCell (box : Shape) (q : Index) (i : Nat) : Index := (q ++ [i]).take box.rank

theorem mem_append_singleton {ls : List Nat} {n : Nat} {p : Index} :
    p ∈ (⟨ls ++ [n]⟩ : Shape) ↔ ∃ q ∈ (⟨ls⟩ : Shape), ∃ i < n, p = q ++ [i] := by
  induction ls generalizing p with
  | nil =>
      cases p with
      | nil => simp [not_nil_mem_cons]
      | cons c p =>
          rw [List.nil_append, cons_mem_cons]
          constructor
          · rintro ⟨hc, hp⟩
            have hnil : p = [] := List.eq_nil_of_length_eq_zero hp.1
            exact ⟨[], nil_mem_nil, c, hc, by rw [hnil, List.nil_append]⟩
          · rintro ⟨q, hq, i, hi, heq⟩
            have hnil : q = [] := List.eq_nil_of_length_eq_zero hq.1
            rw [hnil, List.nil_append] at heq
            rcases List.cons_eq_cons.1 heq with ⟨rfl, rfl⟩
            exact ⟨hi, nil_mem_nil⟩
  | cons m ls ih =>
      cases p with
      | nil => simp [not_nil_mem_cons]
      | cons c p =>
          rw [List.cons_append, cons_mem_cons, ih]
          constructor
          · rintro ⟨hc, q, hq, i, hi, rfl⟩
            exact ⟨c :: q, cons_mem_cons.2 ⟨hc, hq⟩, i, hi, rfl⟩
          · rintro ⟨q, hq, i, hi, heq⟩
            cases q with
            | nil => exact absurd hq (not_nil_mem_cons m ls)
            | cons d q =>
                rcases cons_mem_cons.1 hq with ⟨hd, hq'⟩
                rcases List.cons_eq_cons.1 heq with ⟨rfl, rfl⟩
                exact ⟨hd, q, hq', i, hi, rfl⟩

/-- The elements of a box are those of its rows. -/
theorem mem_iff_exists_rowCell {box : Shape} {p : Index} :
    p ∈ box ↔ ∃ q ∈ (⟨box.outer⟩ : Shape), ∃ i < box.rowLength, p = box.rowCell q i := by
  rcases box with ⟨ls⟩
  rcases List.eq_nil_or_concat ls with rfl | ⟨outer, n, hls⟩
  · constructor
    · intro hp
      exact ⟨[], nil_mem_nil, 0, Nat.one_pos, List.eq_nil_of_length_eq_zero hp.1⟩
    · rintro ⟨q, -, i, -, rfl⟩
      exact nil_mem_nil
  · rw [List.concat_eq_append] at hls
    subst hls
    have houter : Shape.outer ⟨outer ++ [n]⟩ = outer := List.dropLast_concat
    have hrow : Shape.rowLength ⟨outer ++ [n]⟩ = n := by simp [rowLength]
    rw [mem_append_singleton, houter, hrow]
    refine exists_congr fun q => and_congr_right fun hq => exists_congr fun i =>
      and_congr_right fun _ => ?_
    have hcell : rowCell ⟨outer ++ [n]⟩ q i = q ++ [i] :=
      List.take_of_length_le (by simp [rank, hq.1])
    rw [hcell]

end Shape

/-- The coordinates after the last stride do not count. -/
theorem exactPosition_take (strides : List Nat) (p : Index) (k : Nat) (hk : p.length ≤ k) :
    exactPosition (strides.take k) p = exactPosition strides p := by
  induction strides generalizing p k with
  | nil => simp
  | cons stride strides ih =>
      cases p with
      | nil => simp
      | cons c p =>
          cases k with
          | zero => exact absurd hk (by simp)
          | succ k => rw [List.take_succ_cons, exactPosition_cons, exactPosition_cons,
              ih p k (Nat.le_of_succ_le_succ hk)]

/-- A step on the innermost axis is a step in the store. -/
theorem exactPosition_append {ls : List Nat} {q : Index} (i : Nat) (h : q.length + 1 = ls.length) :
    exactPosition (stridesOf ls) (q ++ [i]) = exactPosition (stridesOf ls) q + i := by
  induction ls generalizing q with
  | nil => cases h
  | cons n ls ih =>
      cases q with
      | nil =>
          have hnil : ls = [] := List.eq_nil_of_length_eq_zero (Nat.succ.inj h).symm
          subst hnil
          simp [stridesOf, innerStride]
      | cons c q =>
          rw [List.cons_append, stridesOf, exactPosition_cons, exactPosition_cons,
            ih (Nat.succ.inj h), Nat.add_assoc]

/-- The flat position in an array at which the row at `q` of a box that starts at `origin` begins. -/
def Shape.rowStart (array : Shape) (origin q : Index) : Nat :=
  array.offset origin + exactPosition array.strides q

/-- A row of a box lies in one piece in the store of the array. -/
theorem HoldsBox.offset_add_rowCell {array box : Shape} {origin : Index}
    (h : HoldsBox array.lengths origin box.lengths) (hbox : ∀ m ∈ box.lengths, 0 < m)
    (hfit : array.size < Word.bound) {q : Index} (hq : q ∈ (⟨box.outer⟩ : Shape)) {i : Nat}
    (hi : i < box.rowLength) :
    array.offset (addIndex origin (box.rowCell q i)) = array.rowStart origin q + i := by
  have hexact (p : Index) : array.offset p = exactPosition array.strides p :=
    (exactPosition_stridesOf (h.pos_of_pos hbox) hfit).symm
  have hcell : box.rowCell q i ∈ box := Shape.mem_iff_exists_rowCell.2 ⟨q, hq, i, hi, rfl⟩
  have hlen : origin.length = (box.rowCell q i).length := by
    rw [hcell.1, h.length_origin, Shape.rank, h.length_box]
  rw [Shape.rowStart, hexact, hexact, addIndex, exactPosition_zipWith_add hlen, Nat.add_assoc]
  congr 1
  rcases box with ⟨ls⟩
  rcases List.eq_nil_or_concat ls with rfl | ⟨outer, n, hls⟩
  · -- rank 0: the row is the single element
    have hq0 : q = [] := List.eq_nil_of_length_eq_zero hq.1
    have hi0 : i = 0 := Nat.lt_one_iff.1 hi
    rw [hq0, hi0]
    simp [Shape.rowCell, Shape.rank]
  · rw [List.concat_eq_append] at hls
    subst hls
    have hqlen : q.length = outer.length := by
      rw [hq.1, Shape.rank, Shape.outer, List.dropLast_concat]
    have hcell' : Shape.rowCell ⟨outer ++ [n]⟩ q i = q ++ [i] :=
      List.take_of_length_le (by simp [Shape.rank, hqlen])
    rw [hcell']
    exact exactPosition_append i (by rw [← h.length_box, hqlen, List.length_append]; rfl)

end LatticeGrid
