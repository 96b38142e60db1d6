import LatticeGrid.Layout.Strides
import Mathlib.Algebra.Group.Nat.Defs

/-!
# Flat positions

The flat position of a multi-index is its place in row-major order, which is the lexicographic order of the
multi-indices. `Shape.offset` numbers the multi-indices of a shape from 0 up to its size, each number once;
`position`, which adds up coordinates times strides in words, answers just that number as long as the size
fits a word.

Main statements: `Shape.offset_lt_size`, `Shape.offset_injective` and `Shape.exists_offset_eq` say that
the numbering is one to one and leaves nothing out; `position_eq_ok_iff` says when a position is computed at
all, and `position_strides_eq_offset` ties the numbering to the strides.
-/

set_option autoImplicit false

namespace LatticeGrid

namespace Shape

/-! ## Shapes that have a member -/

/-- A shape with a member has no empty axis. -/
theorem pos_of_mem {s : Shape} {p : Index} (h : p ∈ s) : ∀ n ∈ s.lengths, 0 < n := by
  rcases s with ⟨ls⟩
  induction ls generalizing p with
  | nil => simp
  | cons n ls ih =>
      cases p with
      | nil => exact absurd h (not_nil_mem_cons n ls)
      | cons c p =>
          rcases cons_mem_cons.1 h with ⟨hc, hp⟩
          simp only [List.mem_cons, forall_eq_or_imp]
          exact ⟨Nat.lt_of_le_of_lt (Nat.zero_le c) hc, ih hp⟩

theorem size_pos {s : Shape} (h : ∀ n ∈ s.lengths, 0 < n) : 0 < s.size := by
  rcases s with ⟨ls⟩
  induction ls with
  | nil => simp
  | cons n ls ih =>
      simp only [List.mem_cons, forall_eq_or_imp] at h
      rw [size_cons]
      exact Nat.mul_pos h.1 (ih h.2)

/-- Without an empty axis, the inner axes have at most as many elements as all axes. -/
theorem size_le_size_cons {n : Nat} {ls : List Nat} (hn : 0 < n) :
    Shape.size ⟨ls⟩ ≤ Shape.size ⟨n :: ls⟩ := by
  rw [size_cons]
  exact Nat.le_mul_of_pos_left _ hn

/-- Without an empty axis, no axis is longer than the size of the shape. -/
theorem length_le_size {s : Shape} (h : ∀ n ∈ s.lengths, 0 < n) : ∀ n ∈ s.lengths, n ≤ s.size := by
  rcases s with ⟨ls⟩
  induction ls with
  | nil => simp
  | cons m ls ih =>
      simp only [List.mem_cons, forall_eq_or_imp] at h ⊢
      constructor
      · rw [size_cons]
        exact Nat.le_mul_of_pos_right m (size_pos (s := ⟨ls⟩) h.2)
      · intro n hn
        exact Nat.le_trans (ih h.2 n hn) (size_le_size_cons h.1)

/-- No axis of a shape with elements reaches a number that its size does not reach. -/
theorem length_lt_of_size_lt {s : Shape} {b : Nat} (h : ∀ n ∈ s.lengths, 0 < n) (hsize : s.size < b) :
    ∀ n ∈ s.lengths, n < b := by
  intro n hn
  exact Nat.lt_of_le_of_lt (length_le_size h n hn) hsize

/-- No coordinate of a member reaches the size of the shape. -/
theorem coord_lt_size {s : Shape} {p : Index} (h : p ∈ s) : ∀ c ∈ p, c < s.size := by
  rcases s with ⟨ls⟩
  induction ls generalizing p with
  | nil =>
      obtain rfl := List.eq_nil_of_length_eq_zero h.1
      simp
  | cons n ls ih =>
      cases p with
      | nil => exact absurd h (not_nil_mem_cons n ls)
      | cons c p =>
          have hpos := pos_of_mem h
          have hn := length_le_size hpos n List.mem_cons_self
          rcases cons_mem_cons.1 h with ⟨hc, hp⟩
          simp only [List.mem_cons, forall_eq_or_imp]
          refine ⟨Nat.lt_of_lt_of_le hc hn, ?_⟩
          intro d hd
          exact Nat.lt_of_lt_of_le (ih hp d hd) (size_le_size_cons (hpos n List.mem_cons_self))

/-- Below a size that fits the lattice, no coordinate of a member is the last one of the lattice. -/
theorem coord_lt_edge {s : Shape} {p : Index} (hsize : s.size < 2 ^ 63) (h : p ∈ s) :
    ∀ c ∈ p, c < 2 ^ 63 - 1 := by
  intro c hc
  have hlt := coord_lt_size h c hc
  omega

theorem isEmpty_iff_zero_mem {s : Shape} : s.isEmpty = true ↔ 0 ∈ s.lengths := by
  rw [isEmpty, List.any_beq', List.contains_iff_mem]

/-- A shape is empty exactly when some axis has no coordinate, so that it has no member. -/
theorem isEmpty_eq_false_iff {s : Shape} : s.isEmpty = false ↔ ∀ n ∈ s.lengths, 0 < n := by
  simp only [isEmpty, List.any_eq_false, beq_iff_eq, Nat.pos_iff_ne_zero]

theorem not_mem_of_isEmpty {s : Shape} (h : s.isEmpty = true) (p : Index) : p ∉ s := by
  intro hp
  rw [isEmpty_eq_false_iff.2 (pos_of_mem hp)] at h
  cases h

/-! ## The numbering of the members -/

theorem offset_cons (n c : Nat) (ls : List Nat) (p : Index) :
    Shape.offset ⟨n :: ls⟩ (c :: p) = c * Shape.size ⟨ls⟩ + Shape.offset ⟨ls⟩ p := rfl

theorem offset_lt_size {s : Shape} {p : Index} (h : p ∈ s) : s.offset p < s.size := by
  rcases s with ⟨ls⟩
  induction ls generalizing p with
  | nil =>
      cases p with
      | nil => exact Nat.one_pos
      | cons c p => exact absurd h (not_cons_mem_nil c p)
  | cons n ls ih =>
      cases p with
      | nil => exact absurd h (not_nil_mem_cons n ls)
      | cons c p =>
          rcases cons_mem_cons.1 h with ⟨hc, hp⟩
          calc Shape.offset ⟨n :: ls⟩ (c :: p)
              = c * Shape.size ⟨ls⟩ + Shape.offset ⟨ls⟩ p := offset_cons n c ls p
            _ < c * Shape.size ⟨ls⟩ + Shape.size ⟨ls⟩ := Nat.add_lt_add_left (ih hp) _
            _ = (c + 1) * Shape.size ⟨ls⟩ := (Nat.succ_mul c _).symm
            _ ≤ n * Shape.size ⟨ls⟩ := Nat.mul_le_mul_right _ hc

/-- Different members have different numbers. -/
theorem offset_injective {s : Shape} {p q : Index} (hp : p ∈ s) (hq : q ∈ s)
    (h : s.offset p = s.offset q) : p = q := by
  rcases s with ⟨ls⟩
  induction ls generalizing p q with
  | nil =>
      cases p with
      | cons c p => exact absurd hp (not_cons_mem_nil c p)
      | nil =>
          cases q with
          | cons d q => exact absurd hq (not_cons_mem_nil d q)
          | nil => rfl
  | cons n ls ih =>
      cases p with
      | nil => exact absurd hp (not_nil_mem_cons n ls)
      | cons c p =>
          cases q with
          | nil => exact absurd hq (not_nil_mem_cons n ls)
          | cons d q =>
              have hp' := (cons_mem_cons.1 hp).2
              have hq' := (cons_mem_cons.1 hq).2
              have hpos := size_pos (pos_of_mem hp')
              rw [offset_cons, offset_cons, Nat.mul_comm c, Nat.mul_comm d] at h
              -- the outer coordinate is the quotient by the inner size
              have hc : c = d := by
                have hdiv := congrArg (· / Shape.size ⟨ls⟩) h
                simpa only [Nat.mul_add_div hpos, Nat.div_eq_of_lt (offset_lt_size hp'),
                  Nat.div_eq_of_lt (offset_lt_size hq'), Nat.add_zero] using hdiv
              subst hc
              rw [ih hp' hq' (Nat.add_left_cancel h)]

/-- Every number below the size is the number of a member. -/
theorem exists_offset_eq {s : Shape} {i : Nat} (h : i < s.size) : ∃ p ∈ s, s.offset p = i := by
  rcases s with ⟨ls⟩
  induction ls generalizing i with
  | nil =>
      have hi : i = 0 := by simpa using h
      exact ⟨[], nil_mem_nil, hi.symm⟩
  | cons n ls ih =>
      rw [size_cons] at h
      -- the outer coordinate is the quotient by the inner size, the inner ones number the remainder
      have hpos : 0 < Shape.size ⟨ls⟩ := Nat.pos_of_mul_pos_left (Nat.lt_of_le_of_lt (Nat.zero_le i) h)
      obtain ⟨p, hp, hoff⟩ := ih (Nat.mod_lt i hpos)
      refine ⟨(i / Shape.size ⟨ls⟩) :: p, cons_mem_cons.2 ⟨?_, hp⟩, ?_⟩
      · exact (Nat.div_lt_iff_lt_mul hpos).2 h
      · rw [offset_cons, hoff, Nat.mul_comm]
        exact Nat.div_add_mod i _

end Shape

/-! ## Row-major order -/

/-- Rows in lexicographic order, repeated behind each of some heads in order, are in lexicographic
order. -/
theorem pairwise_lt_flatMap_cons {α : Type} [LT α] {heads : List α} {rows : List (List α)}
    (hheads : heads.Pairwise (· < ·)) (hrows : rows.Pairwise (· < ·)) :
    (heads.flatMap fun c => rows.map (c :: ·)).Pairwise (· < ·) := by
  rw [List.pairwise_flatMap]
  -- inside a block the first coordinate is fixed, and from block to block it grows
  constructor
  · intro c _
    rw [List.pairwise_map]
    exact hrows.imp fun hlt => List.cons_lt_cons_iff.2 (Or.inr ⟨rfl, hlt⟩)
  · apply hheads.imp
    intro c d hcd p hp q hq
    obtain ⟨p, -, rfl⟩ := List.mem_map.1 hp
    obtain ⟨q, -, rfl⟩ := List.mem_map.1 hq
    exact List.cons_lt_cons_iff.2 (Or.inl hcd)

/-- Row-major order is the lexicographic order of the multi-indices. -/
theorem Shape.pairwise_lt_indices (s : Shape) : s.indices.Pairwise (· < ·) := by
  rcases s with ⟨ls⟩
  show (indicesOf ls).Pairwise (· < ·)
  induction ls with
  | nil => exact List.pairwise_singleton _ _
  | cons n ls ih => exact pairwise_lt_flatMap_cons List.pairwise_lt_range ih

/-- Blocks of `m` numbers each, one after the other, are the numbers up to the end of the last block. -/
theorem flatMap_range_add (n m : Nat) :
    ((List.range n).flatMap fun c => (List.range m).map (c * m + ·)) = List.range (n * m) := by
  induction n with
  | zero =>
      rw [Nat.zero_mul]
      rfl
  | succ n ih =>
      rw [List.range_succ, List.flatMap_append, ih, List.flatMap_singleton, Nat.succ_mul, List.range_add]

/-- In row-major order the multi-indices are numbered one after the other. -/
theorem Shape.map_offset_indices (s : Shape) : s.indices.map s.offset = List.range s.size := by
  rcases s with ⟨ls⟩
  show (indicesOf ls).map (offsetIn ls) = _
  induction ls with
  | nil => rfl
  | cons n ls ih =>
      rw [size_cons, ← flatMap_range_add, ← ih, indicesOf, List.map_flatMap]
      simp only [List.map_map]
      rfl

/-- The number of a multi-index is its place in the enumeration. -/
theorem Shape.zipIdx_indices (s : Shape) :
    s.indices.zipIdx = s.indices.map fun p => (p, s.offset p) := by
  rw [List.zipIdx_eq_zip_range', length_indices, ← List.range_eq_range', ← map_offset_indices,
    List.zip_eq_zipWith, List.zipWith_map_right, List.zipWith_self]

theorem Shape.offset_of_getElem?_indices {s : Shape} {i : Nat} {p : Index} (h : s.indices[i]? = some p) :
    s.offset p = i := by
  have hplace := congrArg (·[i]?) s.zipIdx_indices
  simp only [List.getElem?_zipIdx, List.getElem?_map, h, Option.map_some, Option.some.injEq,
    Prod.mk.injEq, true_and] at hplace
  omega

/-! ## Coordinates times strides -/

/-- The sum of the coordinates times the strides, without any bound. -/
def exactPosition : (strides : List Nat) → Index → Nat
  | stride :: strides, c :: p => c * stride + exactPosition strides p
  | _, _ => 0

@[simp] theorem exactPosition_nil (p : Index) : exactPosition [] p = 0 := rfl

@[simp] theorem exactPosition_nil_right (strides : List Nat) : exactPosition strides [] = 0 := by
  cases strides <;> rfl

@[simp] theorem exactPosition_cons (stride c : Nat) (strides : List Nat) (p : Index) :
    exactPosition (stride :: strides) (c :: p) = c * stride + exactPosition strides p := rfl

/-- The origin has position zero. -/
theorem exactPosition_zero (strides : List Nat) (n : Nat) :
    exactPosition strides (List.replicate n 0) = 0 := by
  induction strides generalizing n with
  | nil => rfl
  | cons stride strides ih =>
      cases n with
      | zero => rfl
      | succ n => rw [List.replicate_succ, exactPosition_cons, ih, Nat.zero_mul]

/-- The sum succeeds in words exactly when it fits a word, and then it is exact. -/
theorem foldlM_dot_eq_ok_iff {strides : List Nat} {p : Index} {start n : Nat} (hstart : start < Word.bound) :
    (p.zip strides).foldlM (fun acc q => do Word.add acc (← Word.mul q.1 q.2)) start = .ok n ↔
      start + exactPosition strides p < Word.bound ∧ n = start + exactPosition strides p := by
  induction strides generalizing p start with
  | nil => simp [hstart, pure, Except.pure, eq_comm]
  | cons stride strides ih =>
      cases p with
      | nil => simp [hstart, pure, Except.pure, eq_comm]
      | cons c p =>
          rw [List.zip_cons_cons, List.foldlM_cons, exactPosition_cons, ← Nat.add_assoc]
          by_cases hfit : start + c * stride < Word.bound
          · have hmul : Word.mul c stride = .ok (c * stride) := Word.mul_eq_ok_iff.2 ⟨by omega, rfl⟩
            have hadd : Word.add start (c * stride) = .ok (start + c * stride) :=
              Word.add_eq_ok_iff.2 ⟨hfit, rfl⟩
            simp only [hmul, hadd, bind, Except.bind]
            exact ih hfit
          · -- the step fails, and the whole sum is greater still
            constructor
            · intro h
              simp only [bind_eq_ok_iff, Word.add_eq_ok_iff, Word.mul_eq_ok_iff] at h
              obtain ⟨sum, ⟨way, ⟨-, rfl⟩, hsum, -⟩, -⟩ := h
              exact absurd hsum hfit
            · rintro ⟨hsum, -⟩
              exact absurd (Nat.lt_of_le_of_lt (Nat.le_add_right _ _) hsum) hfit

/-- A flat position is computed exactly when it is a word. -/
theorem position_eq_ok_iff {strides : List Nat} {p : Index} {n : Nat} :
    position strides p = .ok n ↔
      p.length = strides.length ∧ exactPosition strides p < Word.bound ∧ n = exactPosition strides p := by
  rw [position]
  split
  · next hlen =>
      rw [Word.dot, foldlM_dot_eq_ok_iff (by decide), Nat.zero_add]
      exact (and_iff_right hlen).symm
  · next hlen =>
      constructor
      · intro h
        cases h
      · intro h
        exact absurd h.1 hlen

/-- With exact strides the sum is the number of the multi-index. -/
theorem exactPosition_stridesOf {ls : List Nat} {p : Index} (hpos : ∀ n ∈ ls, 0 < n)
    (hfit : Shape.size ⟨ls⟩ < Word.bound) :
    exactPosition (stridesOf ls) p = Shape.offset ⟨ls⟩ p := by
  induction ls generalizing p with
  | nil => cases p <;> rfl
  | cons n ls ih =>
      simp only [List.mem_cons, forall_eq_or_imp] at hpos
      have hinner : Shape.size ⟨ls⟩ < Word.bound :=
        Nat.lt_of_le_of_lt (Shape.size_le_size_cons hpos.1) hfit
      cases p with
      | nil => rfl
      | cons c p =>
          rw [stridesOf, exactPosition_cons, innerStride_eq_size hpos.2 hinner, ih hpos.2 hinner,
            Shape.offset_cons]

/-- The flat position of a member of a shape is its number. -/
theorem position_strides_eq_offset {s : Shape} {p : Index} (hp : p ∈ s)
    (hfit : s.size < Word.bound) : position s.strides p = .ok (s.offset p) := by
  have hexact : exactPosition s.strides p = s.offset p :=
    exactPosition_stridesOf (Shape.pos_of_mem hp) hfit
  have hlen : p.length = s.strides.length := by rw [Shape.length_strides, hp.1]
  have hword : s.offset p < Word.bound := Nat.lt_trans (Shape.offset_lt_size hp) hfit
  exact position_eq_ok_iff.2 ⟨hlen, hexact.symm ▸ hword, hexact.symm⟩

/-- The sum goes coordinate by coordinate, so a translation adds up. -/
theorem exactPosition_zipWith_add {strides : List Nat} {p q : Index} (hlen : p.length = q.length) :
    exactPosition strides (List.zipWith (· + ·) p q) =
      exactPosition strides p + exactPosition strides q := by
  induction strides generalizing p q with
  | nil => simp
  | cons stride strides ih =>
      cases p with
      | nil =>
          cases q with
          | nil => simp
          | cons d q => cases hlen
      | cons c p =>
          cases q with
          | nil => cases hlen
          | cons d q =>
              simp only [List.zipWith_cons_cons, exactPosition_cons, ih (Nat.succ.inj hlen)]
              rw [Nat.add_mul]
              omega

end LatticeGrid
