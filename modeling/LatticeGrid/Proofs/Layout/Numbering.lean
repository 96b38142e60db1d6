import LatticeGrid.Proofs.Layout.Position
import LatticeGrid.Shape.Measure
import Mathlib.Data.Set.Card
import Mathlib.Logic.Equiv.Defs

/-!
# The numbering of the members of a shape

`Shape.offset` numbers the members of a shape from 0 up to its size. It is a number in mixed radix with the
coordinates as its digits, and the strides are the place values. So a multi-index is found again from its
number by dividing by one stride after the other, each time going on with the remainder (`indexAt`), and
numbers are compared like the multi-indices, by the first coordinate in which they differ. A member comes
after as many members as its number says.

All this is about exact sizes. The strides are multiplied up from the innermost axis and held at the
greatest word, while the elements are counted from the outermost axis on, with a failure where a product is
no word. Where the count succeeds the size is a word, and as long as no axis is empty the sizes of all inner
axes are then words too, so that no stride has been held.

Main statements: `Shape.numbering`, `Shape.ncard_before` and `Shape.positions_number_members`.
-/

set_option autoImplicit false

namespace LatticeGrid

/-- The multi-index at a flat position: each coordinate is the quotient by its stride of what the strides
before it have left over. -/
def indexAt : (strides : List Nat) → (position : Nat) → Index
  | [], _ => []
  | stride :: strides, position => position / stride :: indexAt strides (position % stride)

/-- Numbers of two digits are compared by the first digit in which they differ. -/
theorem mul_add_lt_mul_add_iff {m c d a b : Nat} (ha : a < m) (hb : b < m) :
    c * m + a < d * m + b ↔ c < d ∨ c = d ∧ a < b := by
  rcases Nat.lt_trichotomy c d with hcd | rfl | hdc
  · have hle : (c + 1) * m ≤ d * m := Nat.mul_le_mul_right m hcd
    rw [Nat.succ_mul] at hle
    omega
  · omega
  · have hle : (d + 1) * m ≤ c * m := Nat.mul_le_mul_right m hdc
    rw [Nat.succ_mul] at hle
    omega

namespace Shape

variable {s : Shape} {p q : Index}

/-! ## Exact strides -/

/-- The stride of an axis is the size of the axes inside it. -/
theorem getElem?_strides (hpos : ∀ n ∈ s.lengths, 0 < n) (hfit : s.size < Word.bound) {k : Nat}
    (hk : k < s.rank) : s.strides[k]? = some (Shape.size ⟨s.lengths.drop (k + 1)⟩) := by
  rcases s with ⟨ls⟩
  show (stridesOf ls)[k]? = _
  induction ls generalizing k with
  | nil => exact absurd hk (Nat.not_lt_zero k)
  | cons n ls ih =>
      simp only [List.mem_cons, forall_eq_or_imp] at hpos
      have hinner : Shape.size ⟨ls⟩ < Word.bound := Nat.lt_of_le_of_lt (size_le_size_cons hpos.1) hfit
      cases k with
      | zero => exact congrArg some (innerStride_eq_size hpos.2 hinner)
      | succ k => exact ih hpos.2 hinner (Nat.lt_of_succ_lt_succ hk)

/-! ## Back from the number -/

/-- Division by the strides finds the multi-index from its number. -/
theorem indexAt_offset (hfit : s.size < Word.bound) (hp : p ∈ s) : indexAt s.strides (s.offset p) = p := by
  rcases s with ⟨ls⟩
  show indexAt (stridesOf ls) _ = p
  induction ls generalizing p with
  | nil => exact (List.eq_nil_of_length_eq_zero hp.1).symm
  | cons n ls ih =>
      cases p with
      | nil => exact absurd hp (not_nil_mem_cons n ls)
      | cons c p =>
          have hpos := pos_of_mem hp
          simp only [List.mem_cons, forall_eq_or_imp] at hpos
          have hinner : Shape.size ⟨ls⟩ < Word.bound :=
            Nat.lt_of_le_of_lt (size_le_size_cons hpos.1) hfit
          have hp := (cons_mem_cons.1 hp).2
          -- what the inner coordinates add up to is the remainder
          have hrest := offset_lt_size hp
          have hsize : 0 < Shape.size ⟨ls⟩ := size_pos hpos.2
          rw [stridesOf, indexAt, innerStride_eq_size hpos.2 hinner, offset_cons, Nat.mul_comm c,
            Nat.mul_add_div hsize, Nat.div_eq_of_lt hrest, Nat.add_zero, Nat.mul_add_mod,
            Nat.mod_eq_of_lt hrest, ih hinner hp]

/-- Division by the strides finds a member for every number below the size, and it has this number. -/
theorem indexAt_mem (hfit : s.size < Word.bound) {i : Nat} (hi : i < s.size) :
    indexAt s.strides i ∈ s ∧ s.offset (indexAt s.strides i) = i := by
  obtain ⟨p, hp, rfl⟩ := exists_offset_eq hi
  rw [indexAt_offset hfit hp]
  exact ⟨hp, rfl⟩

/-- The members of a shape whose size is a word, and their numbers. -/
def numbering (s : Shape) (hfit : s.size < Word.bound) : {p // p ∈ s} ≃ Fin s.size where
  toFun p := ⟨s.offset p, offset_lt_size p.2⟩
  invFun i := ⟨indexAt s.strides i, (indexAt_mem hfit i.2).1⟩
  left_inv p := Subtype.ext (indexAt_offset hfit p.2)
  right_inv i := Fin.ext (indexAt_mem hfit i.2).2

/-! ## Order -/

/-- The numbers of members are in the lexicographic order of the members. -/
theorem offset_lt_offset_iff (hp : p ∈ s) (hq : q ∈ s) : s.offset p < s.offset q ↔ p < q := by
  rcases s with ⟨ls⟩
  induction ls generalizing p q with
  | nil =>
      obtain rfl := List.eq_nil_of_length_eq_zero hp.1
      obtain rfl := List.eq_nil_of_length_eq_zero hq.1
      exact iff_of_false (Nat.lt_irrefl _) (List.lt_irrefl [])
  | cons n ls ih =>
      cases p with
      | nil => exact absurd hp (not_nil_mem_cons n ls)
      | cons c p =>
          cases q with
          | nil => exact absurd hq (not_nil_mem_cons n ls)
          | cons d q =>
              have hp := (cons_mem_cons.1 hp).2
              have hq := (cons_mem_cons.1 hq).2
              rw [offset_cons, offset_cons, List.cons_lt_cons_iff, ← ih hp hq]
              exact mul_add_lt_mul_add_iff (offset_lt_size hp) (offset_lt_size hq)

/-- The number of a member is the number of members that come before it. -/
theorem ncard_before (hp : p ∈ s) : {q | q ∈ s ∧ q < p}.ncard = s.offset p := by
  -- the members before it have just the numbers below its own
  have himage : s.offset '' {q | q ∈ s ∧ q < p} = Finset.range (s.offset p) := by
    ext i
    rw [Set.mem_image, Finset.coe_range, Set.mem_Iio]
    constructor
    · rintro ⟨q, ⟨hq, hlt⟩, rfl⟩
      exact (offset_lt_offset_iff hq hp).2 hlt
    · intro hi
      obtain ⟨q, hq, rfl⟩ := exists_offset_eq (Nat.lt_trans hi (offset_lt_size hp))
      exact ⟨q, ⟨hq, (offset_lt_offset_iff hq hp).1 hi⟩, rfl⟩
  have hinj : Set.InjOn s.offset {q | q ∈ s ∧ q < p} :=
    fun q hq q' hq' heq => offset_injective hq.1 hq'.1 heq
  rw [← hinj.ncard_image, himage, Set.ncard_coe_finset, Finset.card_range]

/-! ## Positions -/

/-- Where the elements of a shape can be counted, no stride has been held at the greatest word unless some
axis is empty: each is the exact size of the axes inside its own. The flat position is computed for every
member without leaving its word. It numbers the members one to one by the numbers below the count, in
lexicographic order, and division by one stride after the other finds the member from its number. -/
theorem positions_number_members (s : Shape) (n : Nat) (hcount : s.pointCount? = some n) :
    (0 ∈ s.lengths ∨
      ∀ k < s.rank, s.strides[k]? = some (Shape.size ⟨s.lengths.drop (k + 1)⟩)) ∧
    ∃ number : {p // p ∈ s} ≃ Fin n,
      (∀ p, position s.strides p.1 = .ok (number p)) ∧
      (∀ p q, number p < number q ↔ p.1 < q.1) ∧
      ∀ i, (number.symm i).1 = indexAt s.strides i := by
  obtain rfl := pointCount?_eq_some hcount
  have hfit := size_lt_of_pointCount_eq_ok (pointCount?_eq_some_iff_eq_ok.1 hcount)
  refine ⟨?_, s.numbering hfit, ?_, ?_, fun i => rfl⟩
  · cases hempty : s.isEmpty with
    | true => exact Or.inl (isEmpty_iff_zero_mem.1 hempty)
    | false => exact Or.inr fun k hk => getElem?_strides (isEmpty_eq_false_iff.1 hempty) hfit hk
  · intro p
    exact position_strides_eq_offset p.2 hfit
  · intro p q
    exact offset_lt_offset_iff p.2 q.2

/-- Three rows of four in each of two layers; and a shape without members, whose outer stride is held. -/
theorem positions_number_members_layers :
    (∃ number : {p // p ∈ (⟨[2, 3, 4]⟩ : Shape)} ≃ Fin 24,
      position [12, 4, 1] [1, 0, 3] = .ok (number ⟨[1, 0, 3], by decide⟩) ∧
      (number.symm 15).1 = [1, 0, 3] ∧
      number ⟨[0, 2, 3], by decide⟩ < number ⟨[1, 0, 3], by decide⟩) ∧
    Shape.strides ⟨[0, 18446744073709551615, 2]⟩ = [18446744073709551615, 2, 1] ∧
    Nonempty ({p // p ∈ (⟨[0, 18446744073709551615, 2]⟩ : Shape)} ≃ Fin 0) := by
  refine ⟨?_, by decide, ?_⟩
  · obtain ⟨-, number, hposition, horder, hinverse⟩ := positions_number_members ⟨[2, 3, 4]⟩ 24 (by decide)
    refine ⟨number, hposition ⟨[1, 0, 3], by decide⟩, hinverse 15, ?_⟩
    exact (horder _ _).2 (by decide)
  · obtain ⟨-, number, -⟩ :=
      positions_number_members ⟨[0, 18446744073709551615, 2]⟩ 0 (by decide)
    exact ⟨number⟩

end Shape

end LatticeGrid
