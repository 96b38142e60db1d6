import LatticeGrid.Proofs.Layout.VisitLoop

/-!
# Where a visit leaves its words

On every axis a visit makes one step more than its box is long. Past the last coordinate the position has
come a whole stride further, while the coordinates of the outer axes still stand where they are, and only
then is the axis taken back. So a visit can fail although it would call its function at words only.

The position past the end of an axis is greatest when the axes before it stand at their last coordinates.
`VisitAxis.pastEnd` is that position, and a visit fails exactly when for some axis it is no word, or when the
coordinate past the end is none (`VisitAxis.fits_iff_not_overruns`). The way back on an axis is part of the
position that it is taken from, so it is always there to be taken, and a step fails by an addition if at all
(`VisitAxis.step_eq`). By induction over the axes so does a walk (`VisitAxis.walk_eq_error`).

Main statement: `Visit.fold_fails_iff_past_end`.
-/

set_option autoImplicit false

namespace LatticeGrid

namespace VisitAxis

variable {σ : Type} {axis : VisitAxis} {axes : List VisitAxis} {pos : Nat} {state left : σ} {e : Failure}

/-! ## The positions past the ends -/

/-- The position of the first coordinates of some axes. -/
def firstPosition (axes : List VisitAxis) : Nat := exactPosition (axes.map stride) (axes.map start)

/-- The position of the last coordinates of some axes. -/
def lastPosition (axes : List VisitAxis) : Nat :=
  exactPosition (axes.map stride) (axes.map fun a => a.start + a.length - 1)

/-- The position one step past the end of an axis, when the axes before it stand at their last coordinates
and the axes after it at their first ones. -/
def pastEnd (before : List VisitAxis) (axis : VisitAxis) (after : List VisitAxis) : Nat :=
  lastPosition before + (axis.start + axis.length) * axis.stride + firstPosition after

theorem firstPosition_cons (axis : VisitAxis) (axes : List VisitAxis) :
    firstPosition (axis :: axes) = axis.start * axis.stride + firstPosition axes := rfl

theorem pastEnd_nil (axis : VisitAxis) (after : List VisitAxis) :
    pastEnd [] axis after = firstPosition (axis :: after) + axis.length * axis.stride := by
  have hnone : lastPosition [] = 0 := rfl
  rw [pastEnd, firstPosition_cons, hnone, Nat.add_mul]
  omega

theorem pastEnd_cons (first : VisitAxis) (before : List VisitAxis) (axis : VisitAxis)
    (after : List VisitAxis) :
    pastEnd (first :: before) axis after =
      (first.start + first.length - 1) * first.stride + pastEnd before axis after := by
  have hfirst : lastPosition (first :: before) =
      (first.start + first.length - 1) * first.stride + lastPosition before := rfl
  rw [pastEnd, pastEnd, hfirst]
  omega

/-- On some axis the coordinate past the end is no word, or the position there is none, in a walk from the
first coordinates of its axes that begins behind `base` positions. -/
def Overruns (axes : List VisitAxis) (base : Nat) : Prop :=
  ∃ before axis after, axes = before ++ axis :: after ∧
    (Word.bound ≤ axis.start + axis.length ∨ Word.bound ≤ base + pastEnd before axis after)

theorem not_overruns_nil (base : Nat) : ¬ Overruns [] base := by
  rintro ⟨before, axis, after, h, -⟩
  cases before <;> cases h

/-- It is the first axis, or one of the others while the first one stands at its last coordinate. -/
theorem overruns_cons_iff (first : VisitAxis) (rest : List VisitAxis) (base : Nat) :
    Overruns (first :: rest) base ↔
      (Word.bound ≤ first.start + first.length ∨ Word.bound ≤ base + pastEnd [] first rest) ∨
        Overruns rest (base + (first.start + first.length - 1) * first.stride) := by
  constructor
  · rintro ⟨before, axis, after, hsplit, hword⟩
    cases before with
    | nil =>
        cases hsplit
        exact Or.inl hword
    | cons first' before =>
        rw [List.cons_append, List.cons_eq_cons] at hsplit
        obtain ⟨rfl, hsplit⟩ := hsplit
        rw [pastEnd_cons, ← Nat.add_assoc] at hword
        exact Or.inr ⟨before, axis, after, hsplit, hword⟩
  · rintro (hword | ⟨before, axis, after, rfl, hword⟩)
    · exact ⟨[], first, rest, rfl, hword⟩
    · rw [Nat.add_assoc, ← pastEnd_cons] at hword
      exact ⟨first :: before, axis, after, rfl, hword⟩

/-- A walk from the first coordinates of its axes fits unless it overruns one of them. -/
theorem fits_iff_not_overruns (hpos : ∀ axis ∈ axes, 0 < axis.length) (base : Nat) :
    Fits axes (base + firstPosition axes) ↔ ¬ Overruns axes base := by
  induction axes generalizing base with
  | nil => exact iff_of_true trivial (not_overruns_nil base)
  | cons first rest ih =>
      simp only [List.mem_cons, forall_eq_or_imp] at hpos
      -- at the last coordinate of the first axis the inner axes begin at their first coordinates
      have hlast : base + firstPosition (first :: rest) + (first.length - 1) * first.stride =
          base + (first.start + first.length - 1) * first.stride + firstPosition rest := by
        rw [firstPosition_cons, Nat.add_sub_assoc (show 1 ≤ first.length from hpos.1), Nat.add_mul]
        omega
      rw [Fits, hlast, ih hpos.2, Nat.add_assoc base, ← pastEnd_nil, overruns_cons_iff, not_or, not_or,
        Nat.not_le, Nat.not_le, and_assoc]

/-- Where no axis is overrun, the first position is a word. -/
theorem firstPosition_lt (h : ¬ Overruns axes 0) : firstPosition axes < Word.bound := by
  cases axes with
  | nil => decide
  | cons axis rest =>
      rw [overruns_cons_iff, not_or, not_or, Nat.zero_add, pastEnd_nil, Nat.not_le, Nat.not_le] at h
      exact Nat.lt_of_le_of_lt (Nat.le_add_right _ _) h.1.2

/-! ## The step that fails -/

/-- A sweep over inner axes that come back to where they started, and fail by an addition if at all, fails by
an addition if at all. -/
theorem sweep_eq_error {inner : Nat → Nat → σ → Except (Failure × σ) (Nat × σ)}
    (hback : ∀ coord pos state r, inner coord pos state = .ok r → r.1 = pos)
    (herror : ∀ coord pos state e left, inner coord pos state = .error (e, left) → e = .overflow .add)
    {remaining done : Nat} (hdone : done + remaining = axis.length)
    (h : sweep axis inner remaining (axis.start + done) (pos + done * axis.stride) state =
      .error (e, left)) : e = .overflow .add := by
  induction remaining generalizing done state with
  | zero => cases h
  | succ remaining ih =>
      rcases bind_eq_error_iff.1 h with hinner | ⟨⟨there, next⟩, hran, h⟩
      · exact herror _ _ _ _ _ hinner
      obtain rfl : there = pos + done * axis.stride := hback _ _ _ _ hran
      rcases bind_eq_error_iff.1 h with hstep | ⟨after, hstep, h⟩
      · rw [leaving_eq_error_iff, step_eq _ (by omega)] at hstep
        obtain ⟨hstep, -⟩ := hstep
        split at hstep
        · cases hstep
        · cases hstep
          rfl
      · rw [leaving_eq_ok_iff, step_eq _ (by omega)] at hstep
        split at hstep
        · split at hstep
          · cases hstep
            have hmore : done + 1 + remaining = axis.length := by omega
            exact ih hmore h
          · cases hstep
            cases h
        · cases hstep

/-- A walk fails by an addition, if at all. -/
theorem walk_eq_error {visit : σ → Index → Nat → σ} {outer : Index}
    (hpos : ∀ axis ∈ axes, 0 < axis.length) (h : walk visit axes outer pos state = .error (e, left)) :
    e = .overflow .add := by
  induction axes generalizing outer pos state e left with
  | nil => cases h
  | cons axis rest ih =>
      simp only [List.mem_cons, forall_eq_or_imp] at hpos
      have hstart : sweep axis (fun coord => walk visit rest (outer ++ [coord])) axis.length
          (axis.start + 0) (pos + 0 * axis.stride) state = .error (e, left) := by
        rwa [Nat.zero_mul]
      refine sweep_eq_error ?_ ?_ (Nat.zero_add axis.length) hstart
      · intro coord pos state r hr
        exact (of_walk_eq_ok hpos.2 hr).2
      · intro coord pos state e left he
        exact ih hpos.2 he

end VisitAxis

namespace Visit

variable {σ : Type} {visit : σ → Index → Nat → σ} {v : Visit} {state : σ}

/-- The strides of the axes of a visit are those of the array. -/
theorem map_stride_axes {v : Visit} (hv : v.Aligned) : v.axes.map VisitAxis.stride = v.strides := by
  have hstrides : v.strides.length ≤ v.lengths.length := Nat.le_of_eq hv.length_strides
  have hlen : (v.lengths.zip v.strides).length ≤ v.origin.length := by
    rw [List.length_zip, hv.length_strides, Nat.min_self]
    exact Nat.le_of_eq hv.length_origin.symm
  calc v.axes.map VisitAxis.stride
      = ((v.origin.zip (v.lengths.zip v.strides)).map Prod.snd).map Prod.snd := by
        rw [axes, List.map_map, List.map_map]
        rfl
    _ = (v.lengths.zip v.strides).map Prod.snd := by rw [List.map_snd_zip hlen]
    _ = v.strides := List.map_snd_zip hstrides

/-- The position of the origin is that of the first coordinates of the axes. -/
theorem exactPosition_origin {v : Visit} (hv : v.Aligned) :
    exactPosition v.strides v.origin = VisitAxis.firstPosition v.axes := by
  rw [VisitAxis.firstPosition, map_start_axes hv, map_stride_axes hv]

/-- A visit of a box without an empty axis succeeds unless it overruns an axis. -/
theorem exists_fold_eq_ok_iff (hpos : ∀ n ∈ v.lengths, 0 < n) (hv : v.Aligned) :
    (∃ r, v.fold visit state = .ok r) ↔ ¬ VisitAxis.Overruns v.axes 0 := by
  have hfits := VisitAxis.fits_iff_not_overruns (length_pos_of_mem_axes hpos) 0
  rw [Nat.zero_add, ← exactPosition_origin hv] at hfits
  rw [← hfits]
  constructor
  · rintro ⟨r, hr⟩
    obtain ⟨start, hstart, hfit, -⟩ := (fold_eq_ok_iff hpos hv).1 hr
    obtain ⟨-, -, rfl⟩ := position_eq_ok_iff.1 hstart
    exact hfit
  · intro hfit
    have hword : exactPosition v.strides v.origin < Word.bound := by
      rw [exactPosition_origin hv]
      exact VisitAxis.firstPosition_lt (hfits.1 hfit)
    have hlen : v.origin.length = v.strides.length := hv.length_origin.trans hv.length_strides.symm
    exact ⟨_, (fold_eq_ok_iff hpos hv).2
      ⟨_, position_eq_ok_iff.2 ⟨hlen, hword, rfl⟩, hfit, rfl⟩⟩

/-- A visit fails by the position of its origin, before its first call, or by an addition. -/
theorem of_fold_eq_error {left : σ} {e : Failure} (h : v.fold visit state = .error (e, left)) :
    position v.strides v.origin = .error e ∧ left = state ∨
      (∃ start, position v.strides v.origin = .ok start) ∧ e = .overflow .add := by
  cases hempty : (⟨v.lengths⟩ : Shape).isEmpty with
  | true =>
      rw [fold_of_isEmpty hempty] at h
      cases h
  | false =>
      have hpos := Shape.isEmpty_eq_false_iff.1 hempty
      have hany : ¬ v.lengths.any (· == 0) = true := Bool.eq_false_iff.1 hempty
      rw [fold, if_neg hany] at h
      rcases bind_eq_error_iff.1 h with hstart | ⟨start, hstart, h⟩
      · exact Or.inl (leaving_eq_error_iff.1 hstart)
      · rcases bind_eq_error_iff.1 h with hwalk | ⟨r, -, h⟩
        · exact Or.inr ⟨⟨start, leaving_eq_ok_iff.1 hstart⟩,
            VisitAxis.walk_eq_error (length_pos_of_mem_axes hpos) hwalk⟩
        · cases h

/-- A box of the rank of an array can be visited from any origin of that rank. If no axis of the box is
empty, the visit fails exactly when on some axis the coordinate past the end is no word, or the position
there is none when the axes before it stand at their last coordinates and those after it at their first
ones. If the position of the origin is no word, it fails before the first call. What fails after that is an
addition: the way back on an axis is always a word, and never more than what it is taken from. A box that
lies in an array of at most `2^63` elements is visited without a failure. -/
theorem fold_fails_iff_past_end (array box : Shape) (origin : Index)
    (horigin : origin.length = array.rank) (hbox : box.rank = array.rank) :
    ∃ v, ofOrigin array origin box = .ok v ∧
      ∀ (σ : Type) (visit : σ → Index → Nat → σ) (state : σ),
        ((∀ n ∈ box.lengths, 0 < n) →
          ((∃ e, v.fold visit state = .error e) ↔
            ∃ before axis after, v.axes = before ++ axis :: after ∧
              (Word.bound ≤ axis.start + axis.length ∨
                Word.bound ≤ VisitAxis.pastEnd before axis after))) ∧
        (∀ e left, v.fold visit state = .error (e, left) →
          position array.strides origin = .error e ∧ left = state ∨
            (∃ start, position array.strides origin = .ok start) ∧ e = .overflow .add) ∧
        (HoldsBox array.lengths origin box.lengths → array.size ≤ 2 ^ 63 →
          ∃ r, v.fold visit state = .ok r) := by
  have hvisit : ofOrigin array origin box = .ok ⟨array.strides, origin, box.lengths⟩ :=
    if_pos ⟨horigin.symm, hbox.symm⟩
  have haligned := (aligned_of_ofOrigin_eq_ok hvisit).1
  refine ⟨_, hvisit, fun σ visit state => ⟨?_, fun e left he => of_fold_eq_error he, ?_⟩⟩
  · intro hpos
    rw [exists_eq_error_iff, exists_fold_eq_ok_iff hpos haligned, not_not]
    simp only [VisitAxis.Overruns, Nat.zero_add]
  · intro hholds hsize
    have hfit : 2 * array.size ≤ Word.bound := Nat.mul_le_mul_left 2 hsize
    exact ⟨_, fold_of_holdsBox (fun _ => hholds) hfit state⟩

/-- Single elements of two rows of `2^63 - 1`. The position past the end of the outer axis is the greatest
word for the second element of the last row and no word for the third one, which is therefore not visited
without a failure, though its position is a word. In two rows of `2^62` even the very last element is. -/
theorem fold_fails_iff_past_end_last_row :
    fold ⟨[9223372036854775807, 1], [1, 1], [1, 1]⟩ (fun count _ _ => count + 1) 0 = .ok 1 ∧
    (∃ v, ofOrigin ⟨[2, 9223372036854775807]⟩ [1, 2] ⟨[1, 1]⟩ = .ok v ∧
      position v.strides v.origin = .ok 9223372036854775809 ∧
      v.fold (fun count _ _ => count + 1) 0 = .error (.overflow .add, 1)) ∧
    ∃ v, ofOrigin ⟨[2, 4611686018427387904]⟩ [1, 4611686018427387903] ⟨[1, 1]⟩ = .ok v ∧
      ∃ r, v.fold (fun count _ _ => count + 1) 0 = .ok r := by
  refine ⟨rfl, ?_, ?_⟩
  · obtain ⟨v, hv, hvisit⟩ :=
      fold_fails_iff_past_end ⟨[2, 9223372036854775807]⟩ ⟨[1, 1]⟩ [1, 2] rfl rfl
    cases hv
    obtain ⟨hfails, hstep, -⟩ := hvisit Nat (fun count _ _ => count + 1) 0
    obtain ⟨⟨e, left⟩, he⟩ := (hfails (by decide)).2
      ⟨[], ⟨1, 1, 9223372036854775807⟩, [⟨2, 1, 1⟩], rfl, Or.inr (by decide)⟩
    refine ⟨_, rfl, rfl, ?_⟩
    rcases hstep e left he with ⟨hposition, -⟩ | ⟨-, rfl⟩
    · cases hposition
    · -- the one call has been made before the step fails
      obtain rfl : 1 = left := congrArg Prod.snd (Except.error.inj he)
      exact he
  · obtain ⟨v, hv, hvisit⟩ :=
      fold_fails_iff_past_end ⟨[2, 4611686018427387904]⟩ ⟨[1, 1]⟩ [1, 4611686018427387903] rfl rfl
    obtain ⟨-, -, hinside⟩ := hvisit Nat (fun count _ _ => count + 1) 0
    exact ⟨v, hv, hinside (.cons (by decide) (.cons (by decide) .nil)) (by decide)⟩

end Visit

end LatticeGrid
