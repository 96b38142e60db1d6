import LatticeGrid.Proofs.Grid.Construction
import Mathlib.Data.List.Perm.Basic
import Mathlib.Data.List.TakeWhile

/-!
# Which stores are accepted

A store is accepted for a shape when the elements of the shape can be counted and the store has just as many
values. The count multiplies the axes up from the outermost one and has to stay below `2^64` on the way. An
axis of length 0 ends all trouble, since the product is 0 from there on; but the axes before it have been
multiplied by then. So the count succeeds exactly when the axes before the first one of length 0 have fewer
than `2^64` elements (`Shape.pointCount?_eq_some_iff`).

For a shape with elements this is no condition, since no store is longer. For an empty shape it depends on
the order of the axes, and the empty store is accepted in every order exactly when the axes that are not of
length 0 have fewer than `2^64` elements.

Main statement: `Grid.accepts_stores_of_size`.
-/

set_option autoImplicit false

namespace LatticeGrid

/-! ## Axes of length 0 -/

namespace Shape

/-- The axes before the first one of length 0. -/
def beforeEmptyAxis (s : Shape) : Shape := ⟨s.lengths.takeWhile (· != 0)⟩

/-- The axes that are not of length 0. -/
def withoutEmptyAxes (s : Shape) : Shape := ⟨s.lengths.filter (· != 0)⟩

theorem size_withoutEmptyAxes_pos (s : Shape) : 0 < s.withoutEmptyAxes.size := by
  apply size_pos
  intro n hn
  have hne := (List.mem_filter.1 hn).2
  exact Nat.pos_of_ne_zero (bne_iff_ne.1 hne)

theorem size_beforeEmptyAxis_pos (s : Shape) : 0 < s.beforeEmptyAxis.size := by
  apply size_pos
  intro n hn
  have hne := List.mem_takeWhile_imp hn
  exact Nat.pos_of_ne_zero (bne_iff_ne.1 hne)

theorem beforeEmptyAxis_cons {n : Nat} (hn : n ≠ 0) (ls : List Nat) :
    beforeEmptyAxis ⟨n :: ls⟩ = ⟨n :: (beforeEmptyAxis ⟨ls⟩).lengths⟩ :=
  congrArg mk (List.takeWhile_cons_of_pos (bne_iff_ne.2 hn))

/-- The axes before the first empty one are some of those that are not empty. -/
theorem size_beforeEmptyAxis_le (s : Shape) : s.beforeEmptyAxis.size ≤ s.withoutEmptyAxes.size := by
  obtain ⟨ls⟩ := s
  induction ls with
  | nil => exact Nat.le_refl 1
  | cons n ls ih =>
      by_cases hn : n = 0
      · subst hn
        exact size_withoutEmptyAxes_pos ⟨0 :: ls⟩
      · have hfilter : withoutEmptyAxes ⟨n :: ls⟩ = ⟨n :: (withoutEmptyAxes ⟨ls⟩).lengths⟩ :=
          congrArg mk (List.filter_cons_of_pos (bne_iff_ne.2 hn))
        rw [beforeEmptyAxis_cons hn, hfilter, size_cons, size_cons]
        exact Nat.mul_le_mul_left n ih

/-- Without an empty axis the first one is never reached. -/
theorem beforeEmptyAxis_eq_self {s : Shape} (h : 0 ∉ s.lengths) : s.beforeEmptyAxis = s := by
  obtain ⟨ls⟩ := s
  refine congrArg mk (List.takeWhile_eq_self_iff.2 fun n hn => bne_iff_ne.2 ?_)
  rintro rfl
  exact h hn

/-- The order of the axes does not show in the size. -/
theorem size_perm {as bs : List Nat} (h : as.Perm bs) : Shape.size ⟨as⟩ = Shape.size ⟨bs⟩ :=
  h.foldr_op_eq

/-! ## The checked count -/

/-- A checked product that starts below the bound succeeds when it stays below it up to the first factor
0. -/
theorem foldlM_mul_eq_ok_iff {ls : List Nat} {start n : Nat} (hstart : start < Word.bound) :
    ls.foldlM Word.mul start = .ok n ↔
      start * (beforeEmptyAxis ⟨ls⟩).size < Word.bound ∧ n = start * Shape.size ⟨ls⟩ := by
  induction ls generalizing start with
  | nil =>
      have hone : start * (beforeEmptyAxis ⟨[]⟩).size = start := Nat.mul_one start
      rw [hone, size_nil, Nat.mul_one, List.foldlM_nil, and_iff_right hstart, eq_comm]
      exact Except.ok.injEq n start ▸ Iff.rfl
  | cons l ls ih =>
      rw [List.foldlM_cons]
      by_cases hl : l = 0
      · -- from here on the product is 0, so all that matters is what came before
        subst hl
        have hstep : Word.mul start 0 = .ok 0 := by
          rw [Word.mul_eq_ok_iff, Nat.mul_zero]
          exact ⟨by decide, rfl⟩
        have hbefore : start * (beforeEmptyAxis ⟨0 :: ls⟩).size = start := Nat.mul_one start
        have hrest : ls.foldlM Word.mul 0 = .ok n ↔ _ := ih (by decide)
        rw [Nat.zero_mul, Nat.zero_mul, and_iff_right (by decide)] at hrest
        rw [hstep, hbefore, size_cons, Nat.zero_mul, Nat.mul_zero, and_iff_right hstart]
        exact hrest
      · rw [bind_eq_ok_iff, beforeEmptyAxis_cons hl, size_cons, size_cons, ← Nat.mul_assoc,
          ← Nat.mul_assoc]
        constructor
        · rintro ⟨m, hm, hrest⟩
          obtain ⟨hfit, rfl⟩ := Word.mul_eq_ok_iff.1 hm
          exact (ih hfit).1 hrest
        · rintro ⟨hfit, hn⟩
          have hstep : start * l < Word.bound :=
            Nat.lt_of_le_of_lt (Nat.le_mul_of_pos_right _ (size_beforeEmptyAxis_pos ⟨ls⟩)) hfit
          exact ⟨_, Word.mul_eq_ok_iff.2 ⟨hstep, rfl⟩, (ih hstep).2 ⟨hfit, hn⟩⟩

/-- The elements of a shape are counted when the axes before the first empty one have elements that fit a
word. -/
theorem pointCount?_eq_some_iff {s : Shape} {n : Nat} :
    s.pointCount? = some n ↔ s.beforeEmptyAxis.size < Word.bound ∧ n = s.size := by
  have hfold : s.lengths.foldlM Word.mul 1 = .ok n ↔ _ := foldlM_mul_eq_ok_iff (by decide)
  rw [Nat.one_mul, Nat.one_mul] at hfold
  exact pointCount?_eq_some_iff_eq_ok.trans hfold

theorem pointCount?_eq_none_iff {s : Shape} :
    s.pointCount? = none ↔ ¬ s.beforeEmptyAxis.size < Word.bound := by
  rw [Option.eq_none_iff_forall_ne_some]
  constructor
  · intro hnone hfit
    exact hnone s.size (pointCount?_eq_some_iff.2 ⟨hfit, rfl⟩)
  · intro hlong n hn
    exact hlong (pointCount?_eq_some_iff.1 hn).1

end Shape

/-! ## The stores of a shape -/

namespace Grid

variable {α : Type} {shape : Shape} {values : Array α}

/-- A store is accepted for a shape. -/
def Accepts (shape : Shape) (values : Array α) : Prop := ∃ g, ofValues shape values = .ok g

theorem accepts_iff :
    Accepts shape values ↔
      shape.beforeEmptyAxis.size < Word.bound ∧ values.size = shape.size := by
  rw [← Shape.pointCount?_eq_some_iff]
  constructor
  · rintro ⟨g, hg⟩
    exact (ofValues_eq_ok_iff.1 hg).1
  · intro hcount
    have hsize := (Shape.pointCount?_eq_some_iff.1 hcount).2
    exact ⟨⟨shape, shape.strides, values, rfl, hsize⟩, ofValues_eq_ok_iff.2 ⟨hcount, rfl, rfl⟩⟩

/-- A store that is not accepted is refused by its size and the size it should have. -/
theorem ofValues_eq_error (h : ¬ Accepts shape values) :
    ofValues shape values = .error (.valueCount shape
      (if shape.beforeEmptyAxis.size < Word.bound then shape.size else Word.greatest) values.size) := by
  rw [accepts_iff] at h
  unfold ofValues
  split
  · next hnone => rw [if_neg (Shape.pointCount?_eq_none_iff.1 hnone)]
  · next count hcount =>
      obtain ⟨hfit, rfl⟩ := Shape.pointCount?_eq_some_iff.1 hcount
      rw [if_pos hfit]
      exact dif_neg fun hsize => h ⟨hfit, hsize.symm⟩

/-! ## The order of the axes -/

/-- A shape without an empty axis, and one whose other axes fit a word, are counted in every order. -/
theorem accepts_perm_iff (h : 0 ∉ shape.lengths ∨ shape.withoutEmptyAxes.size < Word.bound)
    {order : List Nat} (horder : order.Perm shape.lengths) :
    Accepts ⟨order⟩ values ↔ Accepts shape values := by
  have hsize : Shape.size ⟨order⟩ = shape.size := Shape.size_perm horder
  rw [accepts_iff, accepts_iff, hsize]
  refine and_congr_left' ?_
  rcases h with hnonempty | hfit
  · have horder' : 0 ∉ order := fun hmem => hnonempty (horder.mem_iff.1 hmem)
    rw [Shape.beforeEmptyAxis_eq_self hnonempty, Shape.beforeEmptyAxis_eq_self (s := ⟨order⟩) horder',
      hsize]
  · have hfilter : (Shape.withoutEmptyAxes ⟨order⟩).size = shape.withoutEmptyAxes.size :=
      Shape.size_perm (horder.filter _)
    have hle := Shape.size_beforeEmptyAxis_le ⟨order⟩
    rw [hfilter] at hle
    exact iff_of_true (Nat.lt_of_le_of_lt hle hfit)
      (Nat.lt_of_le_of_lt shape.size_beforeEmptyAxis_le hfit)

/-- The order with the empty axes last, in which all the other axes are multiplied up. -/
def emptyAxesLast (shape : Shape) : Shape :=
  ⟨shape.lengths.filter (· != 0) ++ shape.lengths.filter fun n => !(n != 0)⟩

theorem beforeEmptyAxis_emptyAxesLast (shape : Shape) :
    (emptyAxesLast shape).beforeEmptyAxis = shape.withoutEmptyAxes := by
  have hlast : (shape.lengths.filter fun n => !(n != 0)).takeWhile (· != 0) = [] := by
    apply List.eq_nil_iff_forall_not_mem.2
    intro n hn
    have hempty := (List.mem_filter.1 ((List.takeWhile_prefix _).mem hn)).2
    rw [List.mem_takeWhile_imp hn] at hempty
    cases hempty
  refine congrArg Shape.mk ?_
  rw [emptyAxesLast, List.takeWhile_append_of_pos fun n hn => (List.mem_filter.1 hn).2, hlast,
    List.append_nil]

/-- The empty store is accepted for an empty shape in every order of the axes exactly when the axes that are
not empty fit a word. -/
theorem accepts_empty_perm_iff (hempty : 0 ∈ shape.lengths) :
    (∀ order, order.Perm shape.lengths → Accepts ⟨order⟩ (#[] : Array α)) ↔
      shape.withoutEmptyAxes.size < Word.bound := by
  constructor
  · intro hall
    have hlast := accepts_iff.1 (hall (emptyAxesLast shape).lengths (List.filter_append_perm _ _))
    rw [← beforeEmptyAxis_emptyAxesLast]
    exact hlast.1
  · intro hfit order horder
    rw [accepts_perm_iff (Or.inr hfit) horder, accepts_iff]
    have hsize := (Shape.isEmpty_iff_size_eq_zero shape).1 (Shape.isEmpty_iff_zero_mem.2 hempty)
    exact ⟨Nat.lt_of_le_of_lt shape.size_beforeEmptyAxis_le hfit, hsize.symm⟩

/-! ## The decision -/

/-- A store is accepted for a shape exactly when it has one value for each element and the axes before the
first empty one have elements that fit a word. It then becomes the values of the grid; otherwise it is refused
with the size it should have, which is given as the greatest word when the elements cannot be counted. For a
shape without an empty axis only the size of the store matters, since no store is as long as `2^64`. There,
and where the axes that are not empty fit a word, the order of the axes does not matter. For a shape with an
empty axis the empty store is accepted in every order only where they do. -/
theorem accepts_stores_of_size (shape : Shape) (values : Array α) :
    (Accepts shape values ↔
      shape.beforeEmptyAxis.size < Word.bound ∧ values.size = shape.size) ∧
    (∀ g, ofValues shape values = .ok g → g.shape = shape ∧ g.values = values) ∧
    (¬ Accepts shape values → ofValues shape values = .error (.valueCount shape
      (if shape.beforeEmptyAxis.size < Word.bound then shape.size else Word.greatest) values.size)) ∧
    (0 ∉ shape.lengths → values.size < Word.bound →
      (Accepts shape values ↔ values.size = shape.size)) ∧
    (0 ∉ shape.lengths ∨ shape.withoutEmptyAxes.size < Word.bound →
      ∀ order, order.Perm shape.lengths → (Accepts ⟨order⟩ values ↔ Accepts shape values)) ∧
    (0 ∈ shape.lengths →
      ((∀ order, order.Perm shape.lengths → Accepts ⟨order⟩ (#[] : Array α)) ↔
        shape.withoutEmptyAxes.size < Word.bound)) := by
  refine ⟨accepts_iff, fun g => ofValues_eq_ok, ofValues_eq_error, ?_, ?_, accepts_empty_perm_iff⟩
  · intro hnonempty hfit
    rw [accepts_iff, Shape.beforeEmptyAxis_eq_self hnonempty]
    constructor
    · intro h
      exact h.2
    · intro hsize
      exact ⟨hsize ▸ hfit, hsize⟩
  · intro h order horder
    exact accepts_perm_iff h horder

/-- A full store for two rows of three; an empty shape whose other axes fit a word, in any order; and one whose
other axes do not, so that some order is refused. -/
theorem accepts_stores_of_size_in_order :
    Accepts ⟨[2, 3]⟩ #[0, 1, 2, 3, 4, 5] ∧
    (∀ order, order.Perm [1099511627776, 0, 1048576] → Accepts ⟨order⟩ (#[] : Array Nat)) ∧
    ¬ ∀ order, order.Perm [0, 9223372036854775808, 2] → Accepts ⟨order⟩ (#[] : Array Nat) := by
  obtain ⟨-, -, -, hsize, -, -⟩ := accepts_stores_of_size ⟨[2, 3]⟩ #[0, 1, 2, 3, 4, 5]
  obtain ⟨-, -, -, -, -, hfits⟩ := accepts_stores_of_size ⟨[1099511627776, 0, 1048576]⟩ (#[] : Array Nat)
  obtain ⟨-, -, -, -, -, hlong⟩ :=
    accepts_stores_of_size ⟨[0, 9223372036854775808, 2]⟩ (#[] : Array Nat)
  refine ⟨(hsize (by decide) (by decide)).2 rfl, (hfits (by decide)).2 (by decide), ?_⟩
  rw [hlong (by decide)]
  decide

/-- The empty store has just the right size for a shape whose last axis is empty, and is refused, since the two
axes before it do not fit a word. With the empty axis in front it is accepted. -/
theorem accepts_stores_of_size_long_before_empty :
    (#[] : Array Nat).size = Shape.size ⟨[9223372036854775808, 2, 0]⟩ ∧
    ofValues ⟨[9223372036854775808, 2, 0]⟩ (#[] : Array Nat) =
      .error (.valueCount ⟨[9223372036854775808, 2, 0]⟩ 18446744073709551615 0) ∧
    [0, 9223372036854775808, 2].Perm [9223372036854775808, 2, 0] ∧
    Accepts ⟨[0, 9223372036854775808, 2]⟩ (#[] : Array Nat) :=
  ⟨rfl, rfl, by decide, ⟨⟨⟨[0, 9223372036854775808, 2]⟩, [18446744073709551615, 2, 1], #[], rfl, rfl⟩, rfl⟩⟩

end Grid

end LatticeGrid
