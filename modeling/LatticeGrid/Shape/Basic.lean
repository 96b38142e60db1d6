/-!
# Shapes and multi-indices

A `Shape` lists the length of each axis of a dense grid, outermost axis first; an `Index` names one
element of such a grid by a coordinate per axis. This file holds both, the exact number of elements
of a shape, the membership `p ∈ s`, the multi-indices of a shape in row-major order and the position
of a multi-index in that order. Everything here is exact arithmetic on natural numbers and cannot
fail.

Main statements: `mem_indices` (the enumeration lists exactly the members) and `length_indices`
(there are `size` of them).
-/

set_option autoImplicit false

namespace LatticeGrid

/-- A multi-index: one coordinate per axis, outermost axis first. -/
abbrev Index := List Nat

/-- The text of a list of numbers, such as `[0, 3]`. -/
def Index.text (p : Index) : String :=
  "[" ++ ", ".intercalate (p.map fun c => toString c) ++ "]"

/-- The length of each axis of a dense grid, outermost axis first. A shape of rank 0 describes a
single element; a shape with an axis of length 0 describes an empty grid. -/
@[ext] structure Shape where
  /-- The axis lengths. -/
  lengths : List Nat
deriving DecidableEq, Repr

namespace Shape

/-- The number of axes. -/
def rank (s : Shape) : Nat := s.lengths.length

/-- The exact number of elements: the product of the axis lengths, without any bound. -/
def size (s : Shape) : Nat := s.lengths.foldr (· * ·) 1

/-- Whether some axis has length 0. -/
def isEmpty (s : Shape) : Bool := s.lengths.any (· == 0)

/-- The lengths of every axis but the innermost one: the axes that separate one row from the next. -/
def outer (s : Shape) : List Nat := s.lengths.dropLast

/-- The length of the innermost axis, which is the length of one contiguous row. A shape of rank 0
is a single row of one element. -/
def rowLength (s : Shape) : Nat := s.lengths.getLastD 1

/-- The text of a shape, such as `Shape([2, 3])`. -/
def text (s : Shape) : String := "Shape(" ++ Index.text s.lengths ++ ")"

/-! ## Membership -/

/-- A multi-index lies in a shape when it has one coordinate per axis and each is below the length
of its axis. -/
instance : Membership Index Shape where
  mem s p := p.length = s.rank ∧ ∀ q ∈ p.zip s.lengths, q.1 < q.2

instance (p : Index) (s : Shape) : Decidable (p ∈ s) :=
  inferInstanceAs (Decidable (p.length = s.rank ∧ ∀ q ∈ p.zip s.lengths, q.1 < q.2))

theorem nil_mem_nil : ([] : Index) ∈ (⟨[]⟩ : Shape) := ⟨rfl, by simp⟩

theorem not_cons_mem_nil (c : Nat) (p : Index) : (c :: p) ∉ (⟨[]⟩ : Shape) := by
  intro h
  simp [Membership.mem, rank] at h

theorem not_nil_mem_cons (n : Nat) (ls : List Nat) : ([] : Index) ∉ (⟨n :: ls⟩ : Shape) := by
  intro h
  simp [Membership.mem, rank] at h

/-- Membership goes axis by axis. -/
theorem cons_mem_cons {c n : Nat} {p : Index} {ls : List Nat} :
    (c :: p) ∈ (⟨n :: ls⟩ : Shape) ↔ c < n ∧ p ∈ (⟨ls⟩ : Shape) := by
  constructor
  · rintro ⟨hlen, hall⟩
    refine ⟨hall (c, n) (by simp), by simpa [rank] using hlen, fun q hq => hall q ?_⟩
    simp [hq]
  · rintro ⟨hc, hlen, hall⟩
    refine ⟨by simpa [rank] using hlen, fun q hq => ?_⟩
    simp only [List.zip_cons_cons, List.mem_cons] at hq
    rcases hq with rfl | hq
    · exact hc
    · exact hall q hq

/-! ## Row-major order -/

/-- The multi-indices below the given axis lengths, in row-major order: the last axis varies
fastest. -/
def indicesOf : List Nat → List Index
  | [] => [[]]
  | n :: rest =>
      let inner := indicesOf rest
      (List.range n).flatMap fun c => inner.map (c :: ·)

/-- The multi-indices of a shape in row-major order. -/
def indices (s : Shape) : List Index := indicesOf s.lengths

/-- The position of a multi-index among the multi-indices below the given axis lengths. -/
def offsetIn : List Nat → Index → Nat
  | _ :: ls, c :: p => c * Shape.size ⟨ls⟩ + offsetIn ls p
  | _, _ => 0

/-- The position of a multi-index in the row-major order of a shape. -/
def offset (s : Shape) (p : Index) : Nat := offsetIn s.lengths p

@[simp] theorem size_nil : Shape.size ⟨[]⟩ = 1 := rfl

@[simp] theorem size_cons (n : Nat) (ls : List Nat) :
    Shape.size ⟨n :: ls⟩ = n * Shape.size ⟨ls⟩ := rfl

/-- The enumeration of a shape lists exactly its members. -/
theorem mem_indices {s : Shape} {p : Index} : p ∈ s.indices ↔ p ∈ s := by
  obtain ⟨ls⟩ := s
  show p ∈ indicesOf ls ↔ _
  induction ls generalizing p with
  | nil =>
      cases p with
      | nil => simp [indicesOf, nil_mem_nil]
      | cons c p => simp [indicesOf, not_cons_mem_nil]
  | cons n ls ih =>
      cases p with
      | nil => simp [indicesOf, not_nil_mem_cons]
      | cons c p => simp [indicesOf, cons_mem_cons, ih]

/-- A shape has as many multi-indices as its size says. -/
theorem length_indices (s : Shape) : s.indices.length = s.size := by
  obtain ⟨ls⟩ := s
  show (indicesOf ls).length = _
  induction ls with
  | nil => rfl
  | cons n ls ih => simp [indicesOf, List.length_flatMap, ih, List.map_const']

/-- A shape is empty exactly when it has no element. -/
theorem isEmpty_iff_size_eq_zero (s : Shape) : s.isEmpty = true ↔ s.size = 0 := by
  obtain ⟨ls⟩ := s
  induction ls with
  | nil => simp [isEmpty]
  | cons n ls ih =>
      simp only [isEmpty, List.any_cons, Bool.or_eq_true, beq_iff_eq, size_cons,
        Nat.mul_eq_zero] at ih ⊢
      rw [ih]

end Shape

end LatticeGrid
