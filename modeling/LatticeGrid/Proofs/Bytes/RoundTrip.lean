import LatticeGrid.Bytes.Grid
import LatticeGrid.Proofs.Bytes.Element
import LatticeGrid.Proofs.Workspace.Counted

/-!
# Grids are read back from their bytes

`Grid.toBytes` puts the bytes of the elements one after the other, and `Grid.ofBytes` cuts a byte string
into pieces of the width of an element and reads each piece. For elements that take bytes at all, cutting
undoes putting together and the other way round, so a grid is read back from its bytes and a byte string
that is accepted is written back.

Where a byte lies is fixed too: the bytes of an element begin at its flat position times the width, those
of a number least significant first. Reversing the bytes both ways would give a round trip as well, but
not this.

Main statement: `Grid.toBytes_round_trip`.
-/

set_option autoImplicit false

namespace LatticeGrid.Grid

/-! ## Pieces of one width -/

section Pieces

variable {α : Type} {width count : Nat} {bytes : List UInt8} {f : α → List UInt8}

/-- Cutting undoes putting pieces of the right length together. -/
theorem cut_flatMap (hf : ∀ v, (f v).length = width) (vs : List α) :
    cut width vs.length (vs.flatMap f) = vs.map f := by
  induction vs with
  | nil => rfl
  | cons v vs ih =>
      rw [List.flatMap_cons, List.length_cons, cut, List.take_left' (hf v), List.drop_left' (hf v), ih,
        List.map_cons]

theorem length_drop_of_eq_mul (h : bytes.length = (count + 1) * width) :
    (bytes.drop width).length = count * width := by
  rw [List.length_drop, h, Nat.succ_mul, Nat.add_sub_cancel]

/-- Putting the pieces together undoes cutting. -/
theorem flatten_cut (h : bytes.length = count * width) : (cut width count bytes).flatten = bytes := by
  induction count generalizing bytes with
  | zero =>
      have hnil : bytes = [] := List.eq_nil_of_length_eq_zero (h.trans (Nat.zero_mul width))
      rw [hnil]
      rfl
  | succ count ih =>
      rw [cut, List.flatten_cons, ih (length_drop_of_eq_mul h), List.take_append_drop]

theorem length_cut (width count : Nat) (bytes : List UInt8) :
    (cut width count bytes).length = count := by
  induction count generalizing bytes with
  | zero => rfl
  | succ count ih => rw [cut, List.length_cons, ih]

/-- No piece is too short. -/
theorem length_of_mem_cut (h : bytes.length = count * width) :
    ∀ piece ∈ cut width count bytes, piece.length = width := by
  induction count generalizing bytes with
  | zero => simp [cut]
  | succ count ih =>
      intro piece hpiece
      rcases List.mem_cons.1 hpiece with rfl | hpiece
      · rw [List.length_take, h, Nat.succ_mul]
        exact Nat.min_eq_left (Nat.le_add_left ..)
      · exact ih (length_drop_of_eq_mul h) piece hpiece

/-- Among pieces of one width that stand one after the other, piece number `i` begins at `i` widths. -/
theorem getElem?_flatMap (hf : ∀ v, (f v).length = width) {vs : List α} {v : α} {i j : Nat}
    (hv : vs[i]? = some v) (hj : j < width) : (vs.flatMap f)[i * width + j]? = (f v)[j]? := by
  induction vs generalizing i with
  | nil => cases hv
  | cons w vs ih =>
      rw [List.flatMap_cons]
      cases i with
      | zero =>
          obtain rfl := Option.some.inj hv
          rw [Nat.zero_mul, Nat.zero_add, List.getElem?_append_left (Nat.lt_of_lt_of_eq hj (hf w).symm)]
      | succ i =>
          have hlen := hf w
          have hpos : (i + 1) * width + j = width + (i * width + j) := by
            rw [Nat.succ_mul]
            omega
          rw [hpos, List.getElem?_append_right (by omega), hlen, Nat.add_sub_cancel_left]
          exact ih hv

end Pieces

/-! ## The bytes of a grid -/

variable {type : ElementType} {shape : Shape} {bytes : List UInt8} {g : Grid type.Value}

theorem length_toBytes (type : ElementType) (g : Grid type.Value) :
    (toBytes type g).length = g.values.size * type.width := by
  rw [toBytes, List.length_flatMap, List.map_congr_left fun v _ => type.length_toBytes v,
    List.map_const', List.sum_replicate_nat, Array.length_toList]

/-- The bytes of the element at a multi-index begin at its flat position times the width. -/
theorem getElem?_toBytes {p : Index} {v : type.Value} (hv : g.element? p = some v) {j : Nat}
    (hj : j < type.width) :
    (toBytes type g)[g.shape.offset p * type.width + j]? = some (type.byteAt v j) := by
  rw [element?_of_mem (mem_of_element?_eq_some hv), ← Array.getElem?_toList] at hv
  rw [toBytes, getElem?_flatMap type.length_toBytes hv hj, ElementType.getElem?_toBytes v hj]

/-- The number of bytes of a grid of a shape fits a word. -/
theorem byteCount?_eq_some_iff {n : Nat} :
    byteCount? shape type = some n ↔
      shape.pointCount? = some shape.size ∧ shape.size * type.width < Word.bound ∧
        n = shape.size * type.width := by
  rw [byteCount?]
  cases hcount : shape.pointCount? with
  | none => simp
  | some count =>
      obtain rfl := Shape.pointCount?_eq_some hcount
      cases hmul : Word.mul shape.size type.width with
      | error e =>
          have hlt : ¬ shape.size * type.width < Word.bound := by
            intro hlt
            rw [Word.mul_eq_ok_iff.2 ⟨hlt, rfl⟩] at hmul
            cases hmul
          simp [hmul, hlt, Except.toOption]
      | ok m =>
          obtain ⟨hlt, rfl⟩ := Word.mul_eq_ok_iff.1 hmul
          simp [hmul, hlt, Except.toOption, eq_comm]

/-- Bytes are accepted when their number is that of the shape and an element takes any; the elements are
then read from the pieces. -/
theorem ofBytes_eq_ok_iff :
    ofBytes type shape bytes = .ok g ↔
      byteCount? shape type = some bytes.length ∧ type.width ≠ 0 ∧ g.shape = shape ∧
        g.values.toList = (cut type.width shape.size bytes).map type.ofBytes := by
  rw [ofBytes]
  cases hbytes : byteCount? shape type with
  | none => simp
  | some expected =>
      obtain ⟨hcount, -, hexpected⟩ := byteCount?_eq_some_iff.1 hbytes
      dsimp only
      by_cases hlength : expected = bytes.length
      · rw [if_pos hlength, hlength, and_iff_right rfl]
        by_cases hwidth : type.width = 0
        · rw [if_pos hwidth]
          simp [hwidth]
        · -- the pieces are counted by the bytes, not by the shape
          have hpieces : bytes.length / type.width = shape.size := by
            rw [← hlength, hexpected, Nat.mul_div_cancel _ (Nat.pos_of_ne_zero hwidth)]
          have hsize : ((cut type.width shape.size bytes).map type.ofBytes).toArray.size =
              shape.size := by
            rw [List.size_toArray, List.length_map, length_cut]
          rw [if_neg hwidth, hpieces, ofValues_eq_ok_iff, hsize, and_iff_right hcount,
            and_iff_right hwidth, ← Array.toList_inj]
      · rw [if_neg hlength]
        simp [hlength]

/-! ## Both ways -/

theorem ofBytes_toBytes_eq_ok (hwidth : type.width ≠ 0) (hg : g.Counted)
    (hfit : (toBytes type g).length < Word.bound) : ofBytes type g.shape (toBytes type g) = .ok g := by
  have hlength : (toBytes type g).length = g.shape.size * type.width := by
    rw [length_toBytes, g.size_values]
  have hcount : g.shape.pointCount? = some g.shape.size := hg.trans (congrArg some g.size_values)
  have hsize : g.values.toList.length = g.shape.size := Array.length_toList.trans g.size_values
  refine ofBytes_eq_ok_iff.2 ⟨?_, hwidth, rfl, ?_⟩
  · exact byteCount?_eq_some_iff.2 ⟨hcount, hlength ▸ hfit, hlength⟩
  · rw [toBytes, ← hsize, cut_flatMap type.length_toBytes, List.map_map]
    exact ((List.map_congr_left fun v _ => type.ofBytes_toBytes v).trans (List.map_id _)).symm

theorem toBytes_of_ofBytes_eq_ok (h : ofBytes type shape bytes = .ok g) : toBytes type g = bytes := by
  obtain ⟨hbytes, -, -, hvalues⟩ := ofBytes_eq_ok_iff.1 h
  have hlength : bytes.length = shape.size * type.width := (byteCount?_eq_some_iff.1 hbytes).2.2
  calc toBytes type g
      = ((cut type.width shape.size bytes).map type.ofBytes).flatMap type.toBytes := by
        rw [toBytes, hvalues]
    _ = (cut type.width shape.size bytes).flatMap id := by
        rw [List.flatMap_map]
        apply List.flatMap_congr
        intro piece hpiece
        exact ElementType.toBytes_ofBytes (length_of_mem_cut hlength piece hpiece)
    _ = bytes := by rw [List.flatMap_id, flatten_cut hlength]

theorem counted_of_ofBytes_eq_ok (h : ofBytes type shape bytes = .ok g) : g.Counted := by
  obtain ⟨hbytes, -, rfl, -⟩ := ofBytes_eq_ok_iff.1 h
  exact (byteCount?_eq_some_iff.1 hbytes).1.trans (congrArg some g.size_values.symm)

/-- For a type of elements that take bytes: a grid that can be counted, as every grid can that a run of
commands leaves or that has been read from bytes, is read back from its bytes, as long as their number
fits a word. Their number is the number of elements times the width, and byte number `j` of an element
lies `j` places after its flat position times the width. A byte string that is accepted for a shape gives
a grid of that shape, whose bytes are just that byte string. -/
theorem toBytes_round_trip (type : ElementType) (hwidth : type.width ≠ 0) :
    (∀ g : Grid type.Value, g.Counted → (toBytes type g).length < Word.bound →
      ofBytes type g.shape (toBytes type g) = .ok g) ∧
    (∀ [BEq type.Value] (width : Nat) (commands : List (Command type.Value)) (name : String)
      (g : Grid type.Value),
      ((Workspace.empty width : Workspace type.Value).runAll commands).2.get? name = some g → g.Counted) ∧
    (∀ g : Grid type.Value, (toBytes type g).length = g.shape.size * type.width ∧
      ∀ p v, g.element? p = some v → ∀ j < type.width,
        (toBytes type g)[g.shape.offset p * type.width + j]? = some (type.byteAt v j)) ∧
    ∀ (shape : Shape) (bytes : List UInt8) (g : Grid type.Value),
      ofBytes type shape bytes = .ok g → g.Counted ∧ g.shape = shape ∧ toBytes type g = bytes := by
  refine ⟨?_, ?_, ?_, ?_⟩
  · intro g hg hfit
    exact ofBytes_toBytes_eq_ok hwidth hg hfit
  · intro _ width commands name g hg
    exact (Workspace.Counted.empty width).runAll commands name g hg
  · intro g
    refine ⟨by rw [length_toBytes, g.size_values], ?_⟩
    intro p v hv j hj
    exact getElem?_toBytes hv hj
  · intro shape bytes g h
    exact ⟨counted_of_ofBytes_eq_ok h, (ofBytes_eq_ok_iff.1 h).2.2.1, toBytes_of_ofBytes_eq_ok h⟩

/-- A column of two signed numbers, -2 and 513, in two bytes each; and four bytes that are read as such a
column. -/
theorem toBytes_round_trip_column :
    (ElementType.signed 2).width ≠ 0 ∧
    ofBytes (.signed 2) ⟨[2, 1]⟩ [254, 255, 1, 2] =
      .ok ⟨⟨[2, 1]⟩, [1, 1], #[(65534 : BitVec 16), (513 : BitVec 16)], rfl, rfl⟩ ∧
    ∃ g, ofBytes (.signed 2) ⟨[2, 1]⟩ [0, 128, 255, 127] = .ok g ∧
      toBytes (.signed 2) g = [0, 128, 255, 127] := by
  obtain ⟨hread, -, -, hwritten⟩ := toBytes_round_trip (.signed 2) (by decide)
  refine ⟨by decide, ?_, ?_⟩
  · exact hread ⟨⟨[2, 1]⟩, [1, 1], #[(65534 : BitVec 16), (513 : BitVec 16)], rfl, rfl⟩ rfl (by decide)
  · have haccepted : ofBytes (.signed 2) ⟨[2, 1]⟩ [0, 128, 255, 127] =
        .ok ⟨⟨[2, 1]⟩, [1, 1], #[(32768 : BitVec 16), (32767 : BitVec 16)], rfl, rfl⟩ := rfl
    exact ⟨_, haccepted, (hwritten _ _ _ haccepted).2.2⟩

end LatticeGrid.Grid
