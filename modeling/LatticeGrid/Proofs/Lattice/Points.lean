import LatticeGrid.Lattice.Box.Points

/-!
# The points of a box are those that it contains

`Box.points` takes the product of one run of coordinates for each axis. A coordinate lies in the run
between two others exactly when it lies between them, and a list of coordinates lies in the product
exactly when each coordinate lies in its run, so the points listed are those between the corner of the
box and its upper bound.

Main statements: `Box.points_eq_ok` and `Box.exists_points_eq_ok`.
-/

set_option autoImplicit false

namespace LatticeGrid

namespace Run

theorem mem_values_between {lower upper c : Coord} :
    c ∈ (between lower upper).values ↔ lower ≤ c ∧ c < upper := by
  have hlower := lower.lower
  have hupper := upper.upper
  rw [values, List.mem_map, Coord.le_def, Coord.lt_def]
  constructor
  · -- below the upper end no coordinate is held at the edge
    rintro ⟨i, hi, rfl⟩
    have hi : i < (upper.val - lower.val).toNat := List.mem_range.1 hi
    rw [Coord.val_clamp]
    show lower.val ≤ max (-9223372036854775808) (min (lower.val + i) 9223372036854775807) ∧
      max (-9223372036854775808) (min (lower.val + i) 9223372036854775807) < upper.val
    omega
  · rintro ⟨hle, hlt⟩
    have hcount : (c.val - lower.val).toNat < (upper.val - lower.val).toNat := by omega
    refine ⟨(c.val - lower.val).toNat, List.mem_range.2 hcount, Coord.ext ?_⟩
    rw [Coord.val_clamp]
    show max (-9223372036854775808) (min (lower.val + (c.val - lower.val).toNat)
      9223372036854775807) = c.val
    omega

theorem mem_product_nil {p : List Coord} : p ∈ product [] ↔ p = [] := List.mem_singleton

theorem not_nil_mem_product_cons (r : Run) (rest : List Run) : [] ∉ product (r :: rest) := by
  simp [product]

theorem cons_mem_product_cons {r : Run} {rest : List Run} {c : Coord} {p : List Coord} :
    c :: p ∈ product (r :: rest) ↔ c ∈ r.values ∧ p ∈ product rest := by
  simp [product]

/-- An empty run leaves nothing of the product. -/
theorem product_eq_nil {runs : List Run} (h : runs.any (·.count == 0) = true) :
    product runs = [] := by
  induction runs with
  | nil => cases h
  | cons r rest ih =>
      rw [List.any_cons, Bool.or_eq_true] at h
      rcases h with hr | hrest
      · -- this run has no coordinate to put in front
        have hcount : r.count = 0 := beq_iff_eq.1 hr
        have hvalues : r.values = [] := by rw [values, hcount]; rfl
        rw [product, hvalues]
        rfl
      · rw [product, ih hrest]
        simp

/-- The product of the runs between two points has the points between them. -/
theorem mem_product_between {lower upper p : List Coord} (h : lower.length = upper.length) :
    p ∈ product (List.zipWith between lower upper) ↔
      Point.AllLE ⟨lower⟩ ⟨p⟩ ∧ Point.AllLT ⟨p⟩ ⟨upper⟩ := by
  induction lower generalizing upper p with
  | nil =>
      obtain rfl := List.eq_nil_of_length_eq_zero h.symm
      rw [List.zipWith_nil_left, mem_product_nil]
      constructor
      · rintro rfl
        decide
      · intro hp
        exact List.eq_nil_of_length_eq_zero hp.2.1
  | cons l lower ih =>
      obtain ⟨u, upper, rfl⟩ := List.exists_cons_of_length_eq_add_one h.symm
      rw [List.zipWith_cons_cons]
      cases p with
      | nil =>
          constructor
          · intro hp
            exact absurd hp (not_nil_mem_product_cons _ _)
          · intro hp
            cases hp.1.1
      | cons c p =>
          rw [cons_mem_product_cons, mem_values_between, ih (Nat.succ.inj h), Point.allLE_cons,
            Point.allLT_cons, and_and_and_comm]

end Run

namespace Box

variable {b : Box}

/-- The upper bound of a box whose corner and lengths have one rank. -/
theorem upper_eq_ok (h : b.corner.rank = b.sides.rank) :
    b.upper = .ok ⟨List.zipWith Coord.saturatingAdd b.corner.coords b.sides.clampNegative.coords⟩ :=
  Point.zipWith_eq_ok_iff.2 ⟨h.trans (Point.rank_map _ _).symm, rfl⟩

/-- Without axes there are no runs either way, so rank 0 needs no case of its own. -/
theorem runs_eq_ok {upper : Point} (hupper : b.upper = .ok upper) :
    b.runs = .ok (List.zipWith Run.between b.corner.coords upper.coords) := by
  rw [runs]
  split
  · next hrank =>
      have hnil : b.corner.coords = [] := List.eq_nil_of_length_eq_zero hrank
      rw [hnil, List.zipWith_nil_left]
      rfl
  · rw [hupper]
    rfl

/-- The points of a box are the product of the runs from its corner to its upper bound. -/
theorem points_eq_ok {upper : Point} (hupper : b.upper = .ok upper) :
    b.points = .ok ((Run.product (List.zipWith Run.between b.corner.coords upper.coords)).map
      Point.mk) := by
  rw [points, runs_eq_ok hupper]
  simp only [bind, Except.bind]
  split
  · next hempty =>
      rw [Run.product_eq_nil hempty]
      rfl
  · rfl

/-- A box contains the points between its corner and its upper bound, and answers for every point. -/
theorem contains_eq_ok {upper : Point} (hupper : b.upper = .ok upper) (p : Point) :
    b.contains p = .ok (decide (b.corner.AllLE p ∧ p.AllLT upper)) := by
  rw [contains, hupper]
  by_cases hle : b.corner.AllLE p
  · rw [if_pos hle]
    simp only [hle, true_and]
    rfl
  · rw [if_neg hle]
    simp only [hle, false_and, decide_false]
    rfl

theorem contains_eq_ok_true_iff {upper p : Point} (hupper : b.upper = .ok upper) :
    b.contains p = .ok true ↔ b.corner.AllLE p ∧ p.AllLT upper := by
  rw [contains_eq_ok hupper, Except.ok.injEq, decide_eq_true_eq]

/-- The points of a box whose corner and lengths have one rank are those that it contains. -/
theorem exists_points_eq_ok (h : b.corner.rank = b.sides.rank) :
    ∃ ps, b.points = .ok ps ∧ ∀ p, p ∈ ps ↔ b.contains p = .ok true := by
  have hupper := upper_eq_ok h
  have hlength : b.corner.coords.length =
      (List.zipWith Coord.saturatingAdd b.corner.coords b.sides.clampNegative.coords).length := by
    rw [List.length_zipWith]
    exact (Nat.min_eq_left (Nat.le_of_eq (h.trans (Point.rank_map _ _).symm))).symm
  refine ⟨_, points_eq_ok hupper, ?_⟩
  intro p
  rw [contains_eq_ok_true_iff hupper, List.mem_map]
  constructor
  · rintro ⟨q, hq, rfl⟩
    exact (Run.mem_product_between hlength).1 hq
  · intro hp
    exact ⟨p.coords, (Run.mem_product_between hlength).2 hp, rfl⟩

end Box

end LatticeGrid
