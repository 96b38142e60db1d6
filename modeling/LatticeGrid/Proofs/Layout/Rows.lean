import LatticeGrid.Layout.Rows
import LatticeGrid.Proofs.Layout.Boxes

/-!
# A walk over rows reaches every row once

`RowAxis.ahead` lists the rows that a walk has still to give, in row-major order. One call of
`RowPairs.next` gives the head of that list and leaves its tail, and no step of it leaves the word as
long as every row starts below `limit` and twice the limit fits a word. A whole walk therefore gives
the rows of the box in order.

`RowPairs.toList` and `RowPairs.fold` ask for as many rows as the box has. The loop that calls `next` until
there is no row comes to the same answer (`RowPairs.Loops`).

Main statements: `RowAxis.exists_advance_eq_ok` for one step of the axes, `RowPairs.exists_next_eq_ok`
for one call, and `RowPairs.exists_ofOrigins_eq_ok` and `RowPairs.loops_ofOrigins_iff` for the whole walk.
-/

set_option autoImplicit false

namespace LatticeGrid

namespace RowAxis

/-! ## What lies ahead -/

/-- The row that the axes stand at. -/
def current (axes : List RowAxis) : Index := axes.map row

/-- The axes, all of them back at their start. -/
def restart (axes : List RowAxis) : List RowAxis := axes.map fun axis => { axis with row := 0 }

/-- The lengths of the axes. -/
def lengths (axes : List RowAxis) : List Nat := axes.map length

/-- The rows from the current one on, in row-major order. -/
def ahead : List RowAxis → List Index
  | [] => [[]]
  | axis :: rest =>
      (ahead rest).map (axis.row :: ·) ++
        (List.range' (axis.row + 1) (axis.length - (axis.row + 1))).flatMap fun c =>
          (Shape.indicesOf (lengths rest)).map (c :: ·)

@[simp] theorem lengths_restart (axes : List RowAxis) : lengths (restart axes) = lengths axes := by
  simp [lengths, restart]

@[simp] theorem map_strideA_restart (axes : List RowAxis) :
    (restart axes).map strideA = axes.map strideA := by
  simp [restart]

@[simp] theorem map_strideB_restart (axes : List RowAxis) :
    (restart axes).map strideB = axes.map strideB := by
  simp [restart]

theorem exactPosition_current_restart (strides : List Nat) (axes : List RowAxis) :
    exactPosition strides (current (restart axes)) = 0 := by
  induction axes generalizing strides with
  | nil => cases strides <;> rfl
  | cons axis rest ih =>
      cases strides with
      | nil => rfl
      | cons stride strides =>
          show 0 * stride + exactPosition strides (current (restart rest)) = 0
          rw [ih, Nat.zero_mul]

/-- Where no axis is empty, all rows lie ahead of axes that are at their start. -/
theorem ahead_restart {axes : List RowAxis} (hpos : ∀ axis ∈ axes, 0 < axis.length) :
    ahead (restart axes) = Shape.indicesOf (lengths axes) := by
  induction axes with
  | nil => rfl
  | cons axis rest ih =>
      simp only [List.mem_cons, forall_eq_or_imp] at hpos
      obtain ⟨k, hk⟩ : ∃ k, axis.length = k + 1 := ⟨axis.length - 1, by omega⟩
      show (ahead (restart rest)).map (0 :: ·) ++
          (List.range' 1 (axis.length - 1)).flatMap (fun c =>
            (Shape.indicesOf (lengths (restart rest))).map (c :: ·)) =
        (List.range axis.length).flatMap fun c => (Shape.indicesOf (lengths rest)).map (c :: ·)
      rw [ih hpos.2, lengths_restart, hk, List.range_eq_range', List.range'_succ,
        List.flatMap_cons, Nat.add_sub_cancel]

/-! ## One step -/

/-- An axis stands inside itself, and its whole way stays below a limit in both arrays. -/
structure Fits (limit : Nat) (axis : RowAxis) : Prop where
  row_lt : axis.row < axis.length
  length_le : axis.length ≤ limit
  wayA_le : axis.strideA * axis.length ≤ limit
  wayB_le : axis.strideB * axis.length ≤ limit

/-- Every row of axes with these lengths starts below the limit. -/
def Within (limit base : Nat) (strides lengths : List Nat) : Prop :=
  ∀ q ∈ Shape.indicesOf lengths, base + exactPosition strides q ≤ limit

theorem current_mem {limit : Nat} {axes : List RowAxis} (h : ∀ axis ∈ axes, axis.Fits limit) :
    current axes ∈ Shape.indicesOf (lengths axes) := by
  rw [← Shape.indices, Shape.mem_indices]
  induction axes with
  | nil => exact Shape.nil_mem_nil
  | cons axis rest ih =>
      simp only [List.mem_cons, forall_eq_or_imp] at h
      exact Shape.cons_mem_cons.2 ⟨h.1.row_lt, ih h.2⟩

/-- With the outer axis fixed, the inner axes stay below the limit. -/
theorem Within.inner {limit base stride n c : Nat} {strides ls : List Nat}
    (h : Within limit base (stride :: strides) (n :: ls)) (hc : c < n) :
    Within limit (base + c * stride) strides ls := by
  intro q hq
  have hmem : (c :: q) ∈ Shape.indicesOf (n :: ls) := by
    simp only [Shape.indicesOf, List.mem_flatMap, List.mem_map, List.mem_range]
    exact ⟨c, hc, q, hq, rfl⟩
  have hle := h (c :: q) hmem
  rw [exactPosition_cons, ← Nat.add_assoc] at hle
  exact hle

/-- What a step from `axes` answers: the axes stand at the row after the current one, or at their
start again if there is none, and both positions are those of the row they stand at. -/
structure Advanced (limit baseA baseB : Nat) (axes : List RowAxis) (step : RowStep) : Prop where
  restart_eq : restart step.axes = restart axes
  fits : ∀ axis ∈ step.axes, axis.Fits limit
  posA_eq : step.posA = baseA + exactPosition (axes.map strideA) (current step.axes)
  posB_eq : step.posB = baseB + exactPosition (axes.map strideB) (current step.axes)
  ahead_eq : ahead axes = current axes :: if step.wrapped then [] else ahead step.axes
  wrapped_eq : step.wrapped = true → step.axes = restart axes

namespace Advanced

variable {limit baseA baseB : Nat} {axis : RowAxis} {rest : List RowAxis} {inner : RowStep}

theorem lengths_eq {axes : List RowAxis} {step : RowStep}
    (h : Advanced limit baseA baseB axes step) : lengths step.axes = lengths axes := by
  rw [← lengths_restart, h.restart_eq, lengths_restart]

/-- Axes that have come round are back at the position of their start. -/
theorem pos_eq_of_wrapped {axes : List RowAxis} {step : RowStep}
    (h : Advanced limit baseA baseB axes step) (hwrap : step.wrapped = true) :
    step.posA = baseA ∧ step.posB = baseB := by
  have haxes := h.wrapped_eq hwrap
  constructor
  · rw [h.posA_eq, haxes, exactPosition_current_restart, Nat.add_zero]
  · rw [h.posB_eq, haxes, exactPosition_current_restart, Nat.add_zero]

/-- The inner axes have not come round, so the outer axis stays where it is. -/
theorem stay (hfit : axis.Fits limit) (h : Advanced limit (baseA + axis.row * axis.strideA)
      (baseB + axis.row * axis.strideB) rest inner) (hwrap : inner.wrapped = false) :
    Advanced limit baseA baseB (axis :: rest) ⟨axis :: inner.axes, inner.posA, inner.posB, false⟩ := by
  refine ⟨?_, ?_, ?_, ?_, ?_, fun hw => absurd hw Bool.false_ne_true⟩
  · exact congrArg (List.cons _) h.restart_eq
  · simp only [List.mem_cons, forall_eq_or_imp]
    exact ⟨hfit, h.fits⟩
  · exact h.posA_eq.trans (Nat.add_assoc ..)
  · exact h.posB_eq.trans (Nat.add_assoc ..)
  · have hahead := h.ahead_eq
    rw [hwrap] at hahead
    show ahead (axis :: rest) = current (axis :: rest) :: ahead (axis :: inner.axes)
    rw [ahead, ahead, hahead, h.lengths_eq]
    rfl

/-- The inner axes are back at their start, and the outer axis makes its step. -/
theorem move (hfit : axis.Fits limit) (h : Advanced limit (baseA + axis.row * axis.strideA)
      (baseB + axis.row * axis.strideB) rest inner) (hwrap : inner.wrapped = true)
    (hpos : ∀ a ∈ rest, 0 < a.length) (hlt : axis.row + 1 < axis.length) :
    Advanced limit baseA baseB (axis :: rest)
      ⟨{ axis with row := axis.row + 1 } :: inner.axes, inner.posA + axis.strideA,
        inner.posB + axis.strideB, false⟩ := by
  have haxes := h.wrapped_eq hwrap
  obtain ⟨hposA, hposB⟩ := h.pos_eq_of_wrapped hwrap
  refine ⟨?_, ?_, ?_, ?_, ?_, fun hw => absurd hw Bool.false_ne_true⟩
  · exact congrArg (List.cons _) h.restart_eq
  · simp only [List.mem_cons, forall_eq_or_imp]
    exact ⟨⟨hlt, hfit.length_le, hfit.wayA_le, hfit.wayB_le⟩, h.fits⟩
  · show inner.posA + axis.strideA = baseA + ((axis.row + 1) * axis.strideA +
      exactPosition (rest.map strideA) (current inner.axes))
    rw [haxes, exactPosition_current_restart, hposA, Nat.succ_mul]
    omega
  · show inner.posB + axis.strideB = baseB + ((axis.row + 1) * axis.strideB +
      exactPosition (rest.map strideB) (current inner.axes))
    rw [haxes, exactPosition_current_restart, hposB, Nat.succ_mul]
    omega
  · have hahead := h.ahead_eq
    rw [hwrap] at hahead
    obtain ⟨k, hk⟩ : ∃ k, axis.length = axis.row + 1 + 1 + k := ⟨_, (Nat.add_sub_cancel' hlt).symm⟩
    have hhere : axis.length - (axis.row + 1) = k + 1 := by omega
    have hnext : axis.length - (axis.row + 1 + 1) = k := by omega
    show ahead (axis :: rest) =
      current (axis :: rest) :: ahead ({ axis with row := axis.row + 1 } :: inner.axes)
    rw [ahead, ahead, hahead, haxes, ahead_restart hpos, lengths_restart, hhere, hnext,
      List.range'_succ]
    rfl

/-- The outer axis has come to its end and goes back to its start as well. -/
theorem carry (hfit : axis.Fits limit) (h : Advanced limit (baseA + axis.row * axis.strideA)
      (baseB + axis.row * axis.strideB) rest inner) (hwrap : inner.wrapped = true)
    (hend : axis.row + 1 = axis.length) :
    Advanced limit baseA baseB (axis :: rest)
      ⟨{ axis with row := 0 } :: inner.axes, baseA, baseB, true⟩ := by
  have haxes := h.wrapped_eq hwrap
  have hrestart : { axis with row := 0 } :: inner.axes = restart (axis :: rest) :=
    congrArg (List.cons _) haxes
  refine ⟨?_, ?_, ?_, ?_, ?_, fun _ => hrestart⟩
  · exact congrArg (List.cons _) h.restart_eq
  · simp only [List.mem_cons, forall_eq_or_imp]
    have hlength := Nat.lt_of_le_of_lt (Nat.zero_le _) hfit.row_lt
    exact ⟨⟨hlength, hfit.length_le, hfit.wayA_le, hfit.wayB_le⟩, h.fits⟩
  · rw [hrestart, exactPosition_current_restart, Nat.add_zero]
  · rw [hrestart, exactPosition_current_restart, Nat.add_zero]
  · have hahead := h.ahead_eq
    rw [hwrap] at hahead
    have hnone : axis.length - (axis.row + 1) = 0 := by omega
    show ahead (axis :: rest) = [current (axis :: rest)]
    rw [ahead, hahead, hnone]
    rfl

end Advanced

variable {limit : Nat}

/-- One step of an axis stays in the word. -/
theorem add_stride {base row stride n : Nat} (hbase : base + row * stride ≤ limit) (hrow : row < n)
    (hway : stride * n ≤ limit) (hlimit : 2 * limit < Word.bound) :
    Word.add (base + row * stride) stride = .ok (base + row * stride + stride) := by
  have hstride : stride ≤ stride * n := Nat.le_mul_of_pos_right _ (Nat.lt_of_le_of_lt (Nat.zero_le _) hrow)
  exact Word.add_eq_ok_iff.2 ⟨by omega, rfl⟩

/-- At the end of an axis, the whole way is taken back. -/
theorem sub_way (base : Nat) {row stride n : Nat} (hrow : row + 1 = n) (hway : stride * n ≤ limit)
    (hlimit : 2 * limit < Word.bound) :
    Word.mul stride n = .ok (stride * n) ∧
      Word.sub (base + row * stride + stride) (stride * n) = .ok base := by
  have hway_eq : row * stride + stride = stride * n := by
    rw [← Nat.succ_mul, Nat.succ_eq_add_one, hrow, Nat.mul_comm]
  exact ⟨Word.mul_eq_ok_iff.2 ⟨by omega, rfl⟩, Word.sub_eq_ok_iff.2 ⟨by omega, by omega⟩⟩

/-- A step of the axes succeeds and answers the next row. -/
theorem exists_advance_eq_ok (hlimit : 2 * limit < Word.bound) {axes : List RowAxis}
    (hfits : ∀ axis ∈ axes, axis.Fits limit) {baseA baseB : Nat}
    (hA : Within limit baseA (axes.map strideA) (lengths axes))
    (hB : Within limit baseB (axes.map strideB) (lengths axes)) :
    ∃ step, advance axes (baseA + exactPosition (axes.map strideA) (current axes))
        (baseB + exactPosition (axes.map strideB) (current axes)) = .ok step ∧
      Advanced limit baseA baseB axes step := by
  induction axes generalizing baseA baseB with
  | nil => exact ⟨⟨[], baseA, baseB, true⟩, rfl, rfl, by simp, rfl, rfl, rfl, fun _ => rfl⟩
  | cons axis rest ih =>
      simp only [List.mem_cons, forall_eq_or_imp] at hfits
      rcases hfits with ⟨hfit, hfits⟩
      have hrow := hfit.row_lt
      obtain ⟨inner, hadvance, hinner⟩ := ih hfits (hA.inner hrow) (hB.inner hrow)
      have hposA : baseA + exactPosition ((axis :: rest).map strideA) (current (axis :: rest)) =
          baseA + axis.row * axis.strideA + exactPosition (rest.map strideA) (current rest) :=
        (Nat.add_assoc ..).symm
      have hposB : baseB + exactPosition ((axis :: rest).map strideB) (current (axis :: rest)) =
          baseB + axis.row * axis.strideB + exactPosition (rest.map strideB) (current rest) :=
        (Nat.add_assoc ..).symm
      rw [hposA, hposB]
      simp only [advance, hadvance, bind, Except.bind]
      cases hwrap : inner.wrapped with
      | false => exact ⟨_, rfl, hwrap ▸ hinner.stay hfit hwrap⟩
      | true =>
          obtain ⟨hbackA, hbackB⟩ := hinner.pos_eq_of_wrapped hwrap
          have hpos : ∀ a ∈ rest, 0 < a.length :=
            fun a ha => Nat.lt_of_le_of_lt (Nat.zero_le _) (hfits a ha).row_lt
          have hmem := current_mem hfits
          have haddA := add_stride (Nat.le_trans (Nat.le_add_right _ _) (hA.inner hrow _ hmem))
            hrow hfit.wayA_le hlimit
          have haddB := add_stride (Nat.le_trans (Nat.le_add_right _ _) (hB.inner hrow _ hmem))
            hrow hfit.wayB_le hlimit
          have haddRow : Word.add axis.row 1 = .ok (axis.row + 1) :=
            Word.add_eq_ok_iff.2 ⟨by have := hfit.length_le; omega, rfl⟩
          simp only [if_true, haddRow, hbackA, hbackB, haddA, haddB]
          by_cases hlt : axis.row + 1 < axis.length
          · rw [if_pos hlt]
            have hmove := hinner.move hfit hwrap hpos hlt
            rw [hbackA, hbackB] at hmove
            exact ⟨_, rfl, hmove⟩
          · have hend : axis.row + 1 = axis.length := by omega
            obtain ⟨hmulA, hsubA⟩ := sub_way baseA hend hfit.wayA_le hlimit
            obtain ⟨hmulB, hsubB⟩ := sub_way baseB hend hfit.wayB_le hlimit
            rw [if_neg hlt]
            simp only [hmulA, hsubA, hmulB, hsubB]
            exact ⟨_, rfl, hinner.carry hfit hwrap hend⟩

end RowAxis

namespace RowPairs

open RowAxis

variable {limit baseA baseB : Nat} {w : RowPairs}

/-! ## One call -/

/-- Where the row at `q` starts in both arrays. -/
def startOf (baseA baseB : Nat) (axes : List RowAxis) (q : Index) : Nat × Nat :=
  (baseA + exactPosition (axes.map strideA) q, baseB + exactPosition (axes.map strideB) q)

/-- The walk stands at a row that it has not given yet. -/
structure Stands (limit baseA baseB : Nat) (w : RowPairs) : Prop where
  fits : ∀ axis ∈ w.axes, axis.Fits limit
  withinA : Within limit baseA (w.axes.map strideA) (lengths w.axes)
  withinB : Within limit baseB (w.axes.map strideB) (lengths w.axes)
  pending_eq : w.pending = some (startOf baseA baseB w.axes (current w.axes))

theorem startOf_congr {axes axes' : List RowAxis} (h : restart axes = restart axes') :
    startOf baseA baseB axes = startOf baseA baseB axes' := by
  funext q
  rw [startOf, startOf, ← map_strideA_restart axes, ← map_strideB_restart axes, h,
    map_strideA_restart, map_strideB_restart]

/-- A call answers the row that the walk stands at. It was the last one, or the walk stands at the
next row then. -/
theorem exists_next_eq_ok (hlimit : 2 * limit < Word.bound) (h : w.Stands limit baseA baseB) :
    ∃ rest, w.next = .ok (some (startOf baseA baseB w.axes (current w.axes)), rest) ∧
      (rest.pending = none ∧ ahead w.axes = [current w.axes] ∨
        rest.Stands limit baseA baseB ∧ restart rest.axes = restart w.axes ∧
          ahead w.axes = current w.axes :: ahead rest.axes) := by
  obtain ⟨step, hadvance, hstep⟩ := exists_advance_eq_ok hlimit h.fits h.withinA h.withinB
  rw [next, h.pending_eq]
  simp only [startOf, hadvance, bind, Except.bind]
  refine ⟨_, rfl, ?_⟩
  have hahead := hstep.ahead_eq
  cases hwrap : step.wrapped with
  | true =>
      rw [hwrap] at hahead
      exact Or.inl ⟨rfl, hahead⟩
  | false =>
      rw [hwrap] at hahead
      have hlen := hstep.lengths_eq
      have hstridesA : step.axes.map strideA = w.axes.map strideA := by
        rw [← map_strideA_restart, hstep.restart_eq, map_strideA_restart]
      have hstridesB : step.axes.map strideB = w.axes.map strideB := by
        rw [← map_strideB_restart, hstep.restart_eq, map_strideB_restart]
      refine Or.inr ⟨⟨hstep.fits, ?_, ?_, ?_⟩, hstep.restart_eq, hahead⟩
      · rw [hlen, hstridesA]
        exact h.withinA
      · rw [hlen, hstridesB]
        exact h.withinB
      · rw [hstep.posA_eq, hstep.posB_eq, startOf, hstridesA, hstridesB]
        rfl

theorem take_of_pending_eq_none (calls : Nat) (h : w.pending = none) : w.take calls = .ok [] := by
  cases calls with
  | zero => rfl
  | succ calls =>
      rw [take, next, h]
      rfl

/-- Enough calls give all rows that lie ahead. -/
theorem take_eq_ok (hlimit : 2 * limit < Word.bound) (h : w.Stands limit baseA baseB) {calls : Nat}
    (hcalls : (ahead w.axes).length ≤ calls) :
    w.take calls = .ok ((ahead w.axes).map (startOf baseA baseB w.axes)) := by
  induction calls generalizing w with
  | zero =>
      obtain ⟨rest, -, hlast | ⟨-, -, hahead⟩⟩ := exists_next_eq_ok hlimit h
      · rw [hlast.2] at hcalls
        exact absurd hcalls (by simp)
      · rw [hahead] at hcalls
        exact absurd hcalls (by simp)
  | succ calls ih =>
      obtain ⟨rest, hnext, hlast | ⟨hrest, hsame, hahead⟩⟩ := exists_next_eq_ok hlimit h
      · rw [take, hnext, hlast.2]
        simp only [bind, Except.bind, take_of_pending_eq_none calls hlast.1]
        rfl
      · rw [hahead, List.length_cons] at hcalls
        rw [take, hnext, hahead]
        simp only [bind, Except.bind, ih hrest (Nat.le_of_succ_le_succ hcalls), startOf_congr hsame]
        rfl

/-! ## The loop over the rows -/

section Loops

variable {σ : Type} {change : σ → Nat × Nat → Except (Failure × σ) σ} {state : σ}
  {here answer answer' : Except (Failure × σ) σ}

/-- The answer that the loop over the rows comes to from a walk and what has become of the state so far. It
calls `next` until there is no row, and changes the state by each row before the next call. Nothing in it
counts down. -/
inductive Loops {σ : Type} (change : σ → Nat × Nat → Except (Failure × σ) σ) :
    RowPairs → Except (Failure × σ) σ → Except (Failure × σ) σ → Prop where
  /-- The last change has failed. -/
  | broken {w f} : Loops change w (.error f) (.error f)
  /-- The call has failed. -/
  | fault {w e state} : w.next = .error e → Loops change w (.ok state) (.error (e, state))
  /-- There is no row any more. -/
  | done {w rest state} : w.next = .ok (none, rest) → Loops change w (.ok state) (.ok state)
  /-- One more row, and the change by it. -/
  | turn {w rest row state answer} : w.next = .ok (some row, rest) →
      Loops change rest (change state row) answer → Loops change w (.ok state) answer

/-- The loop comes to one answer at most. -/
theorem Loops.unique (h : Loops change w here answer) (h' : Loops change w here answer') :
    answer = answer' := by
  induction h with
  | broken => cases h'; rfl
  | fault hnext =>
      cases h' with
      | fault hnext' => cases hnext.symm.trans hnext'; rfl
      | done hnext' => cases hnext.symm.trans hnext'
      | turn hnext' _ => cases hnext.symm.trans hnext'
  | done hnext =>
      cases h' with
      | fault hnext' => cases hnext.symm.trans hnext'
      | done hnext' => rfl
      | turn hnext' _ => cases hnext.symm.trans hnext'
  | turn hnext _ ih =>
      cases h' with
      | fault hnext' => cases hnext.symm.trans hnext'
      | done hnext' => cases hnext.symm.trans hnext'
      | turn hnext' hrest => cases hnext.symm.trans hnext'; exact ih hrest

theorem loops_of_pending_eq_none (h : w.pending = none) (here : Except (Failure × σ) σ) :
    w.Loops change here here := by
  cases here with
  | error f => exact .broken
  | ok state => exact .done (show w.next = .ok (none, w) by rw [next, h])

/-- The loop changes the state by all rows that lie ahead, in their order. -/
theorem loops_foldlM (hlimit : 2 * limit < Word.bound) (h : w.Stands limit baseA baseB)
    (here : Except (Failure × σ) σ) :
    w.Loops change here
      (here >>= ((ahead w.axes).map (startOf baseA baseB w.axes)).foldlM change) := by
  induction hrows : (ahead w.axes).length generalizing w here with
  | zero =>
      obtain ⟨rest, -, hlast | ⟨-, -, hahead⟩⟩ := exists_next_eq_ok hlimit h
      · rw [hlast.2] at hrows
        cases hrows
      · rw [hahead] at hrows
        cases hrows
  | succ rows ih =>
      cases here with
      | error f => exact .broken
      | ok state =>
          obtain ⟨rest, hnext, hlast | ⟨hrest, hsame, hahead⟩⟩ := exists_next_eq_ok hlimit h
          · rw [hlast.2]
            refine .turn hnext ?_
            show Loops change rest _ (change state _ >>= pure)
            rw [bind_pure]
            exact loops_of_pending_eq_none hlast.1 _
          · rw [hahead, List.length_cons, Nat.succ.injEq] at hrows
            have hloops := ih hrest (change state (startOf baseA baseB w.axes (current w.axes))) hrows
            rw [startOf_congr hsame] at hloops
            rw [hahead]
            exact .turn hnext hloops

/-- Where the counted calls give all rows, the counted loop changes the state by all of them. -/
theorem foldRows_eq_foldlM {calls : Nat} {rows : List (Nat × Nat)} (h : w.take calls = .ok rows)
    (state : σ) : foldRows change calls w state = rows.foldlM change state := by
  induction calls generalizing w rows state with
  | zero =>
      cases h
      rfl
  | succ calls ih =>
      obtain ⟨⟨row?, rest⟩, hnext, h⟩ := bind_eq_ok_iff.1 h
      rw [foldRows, hnext]
      cases row? with
      | none =>
          cases h
          rfl
      | some row =>
          obtain ⟨rows', hrows', h⟩ := bind_eq_ok_iff.1 h
          cases h
          rw [List.foldlM_cons]
          exact bind_congr fun next => ih hrows' next

theorem fold_eq_foldlM {rows : List (Nat × Nat)} (h : w.toList = .ok rows) (state : σ) :
    w.fold change state = rows.foldlM change state := foldRows_eq_foldlM h state

end Loops

/-! ## The whole walk -/

/-- The axes of a new walk. -/
def axesOf (outer stridesA stridesB : List Nat) : List RowAxis :=
  (outer.zip (stridesA.zip stridesB)).map fun q => ⟨q.1, q.2.1, q.2.2, 0⟩

theorem restart_axesOf (outer stridesA stridesB : List Nat) :
    restart (axesOf outer stridesA stridesB) = axesOf outer stridesA stridesB := by
  simp [restart, axesOf]

theorem lengths_axesOf {outer stridesA stridesB : List Nat} (hA : outer.length ≤ stridesA.length)
    (hB : outer.length ≤ stridesB.length) : lengths (axesOf outer stridesA stridesB) = outer := by
  have hzip : outer.length ≤ (stridesA.zip stridesB).length := by
    rw [List.length_zip]
    exact Nat.le_min.2 ⟨hA, hB⟩
  rw [lengths, axesOf, List.map_map]
  exact List.map_fst_zip hzip

theorem map_strides_axesOf {outer stridesA stridesB : List Nat}
    (hA : outer.length ≤ stridesA.length) (hB : outer.length ≤ stridesB.length) :
    (axesOf outer stridesA stridesB).map strideA = stridesA.take outer.length ∧
      (axesOf outer stridesA stridesB).map strideB = stridesB.take outer.length := by
  induction outer generalizing stridesA stridesB with
  | nil => exact ⟨rfl, rfl⟩
  | cons n outer ih =>
      cases stridesA with
      | nil => exact absurd hA (by simp)
      | cons s stridesA => cases stridesB with
        | nil => exact absurd hB (by simp)
        | cons t stridesB =>
            obtain ⟨ihA, ihB⟩ := ih (Nat.le_of_succ_le_succ hA) (Nat.le_of_succ_le_succ hB)
            exact ⟨congrArg (List.cons s) ihA, congrArg (List.cons t) ihB⟩

/-- On an axis of a box inside an array the whole way has at most as many elements as the array. -/
theorem innerStride_mul_le {n o m : Nat} {array : List Nat} (hle : o + m ≤ n)
    (hpos : ∀ l ∈ n :: array, 0 < l) (hlimit : Shape.size ⟨n :: array⟩ ≤ limit)
    (hfit : limit < Word.bound) : innerStride array * m ≤ limit := by
  simp only [List.mem_cons, forall_eq_or_imp] at hpos
  have hinner : Shape.size ⟨array⟩ < Word.bound :=
    Nat.lt_of_le_of_lt (Nat.le_trans (Shape.size_le_size_cons hpos.1) hlimit) hfit
  rw [innerStride_eq_size hpos.2 hinner, Nat.mul_comm]
  exact Nat.le_trans (Nat.mul_le_mul_right _ (by omega)) hlimit

theorem fits_axesOf {a b box : List Nat} {originA originB : Index} (hA : HoldsBox a originA box)
    (hB : HoldsBox b originB box) (hbox : ∀ m ∈ box, 0 < m) (hsizeA : Shape.size ⟨a⟩ ≤ limit)
    (hsizeB : Shape.size ⟨b⟩ ≤ limit) (hfit : limit < Word.bound) :
    ∀ axis ∈ axesOf box.dropLast (stridesOf a) (stridesOf b), axis.Fits limit := by
  induction hA generalizing b originB with
  | nil => simp [axesOf]
  | @cons n o m a box origin hle hA ih =>
      have hposA := (HoldsBox.cons hle hA).pos_of_pos hbox
      have hposB := hB.pos_of_pos hbox
      cases hB with
      | cons hle' hB =>
          cases box with
          | nil => simp [axesOf]
          | cons m' box =>
              have hm : 0 < m := hbox m List.mem_cons_self
              have hn := Shape.length_le_size hposA n List.mem_cons_self
              have hwayA := innerStride_mul_le hle hposA hsizeA hfit
              have hwayB := innerStride_mul_le hle' hposB hsizeB hfit
              have hinnerA := Nat.le_trans (Shape.size_le_size_cons (hposA n List.mem_cons_self)) hsizeA
              have hinnerB := Nat.le_trans (Shape.size_le_size_cons (hposB _ List.mem_cons_self)) hsizeB
              have hlength : m ≤ limit := by omega
              have hbox' : ∀ l ∈ m' :: box, 0 < l := by
                intro l hl
                exact hbox l (List.mem_cons_of_mem m hl)
              intro axis haxis
              rcases List.mem_cons.1 haxis with rfl | haxis
              · exact ⟨hm, hlength, hwayA, hwayB⟩
              · exact ih hB hbox' hinnerA hinnerB axis haxis

variable {a b box : Shape} {originA originB : Index}

theorem rowLength_pos (hbox : ∀ m ∈ box.lengths, 0 < m) : 0 < box.rowLength := by
  rw [Shape.rowLength, List.getLastD_eq_getLast?]
  cases hlast : box.lengths.getLast? with
  | none => exact Nat.one_pos
  | some n => exact hbox n (List.mem_of_getLast? hlast)

/-- A row of the box starts inside the array. -/
theorem within_of_holdsBox (h : HoldsBox a.lengths originA box.lengths)
    (hbox : ∀ m ∈ box.lengths, 0 < m) (hsize : a.size ≤ limit) (hfit : limit < Word.bound) :
    Within limit (a.offset originA) (a.strides.take box.outer.length) box.outer := by
  intro q hq
  have hmem : q ∈ (⟨box.outer⟩ : Shape) := Shape.mem_indices.1 hq
  have hlen : q.length ≤ box.outer.length := Nat.le_of_eq hmem.1
  have hrow := rowLength_pos hbox
  have hstart := h.offset_add_rowCell hbox (Nat.lt_of_le_of_lt hsize hfit) hmem hrow
  have hcell := h.add_mem (Shape.mem_iff_exists_rowCell.2 ⟨q, hmem, 0, hrow, rfl⟩)
  rw [Nat.add_zero, Shape.rowStart] at hstart
  rw [exactPosition_take _ _ _ hlen, ← hstart]
  exact Nat.le_trans (Nat.le_of_lt (Shape.offset_lt_size hcell)) hsize

/-- Each outer axis of a box has a stride of the array that holds the box. -/
theorem length_outer_le (h : HoldsBox a.lengths originA box.lengths) :
    box.outer.length ≤ a.strides.length := by
  rw [Shape.length_strides, Shape.rank, ← h.length_box, Shape.outer, List.length_dropLast]
  exact Nat.sub_le ..

/-- The walk over a box that starts at two origins, before its first call. -/
def newWalk (a b box : Shape) (originA originB : Index) : RowPairs :=
  ⟨axesOf box.outer a.strides b.strides, box.rowLength, some (a.offset originA, b.offset originB)⟩

section NewWalk

variable (hA : HoldsBox a.lengths originA box.lengths) (hB : HoldsBox b.lengths originB box.lengths)

include hA hB

theorem lengths_newWalk : lengths (newWalk a b box originA originB).axes = box.outer :=
  lengths_axesOf (length_outer_le hA) (length_outer_le hB)

/-- The rows of a new walk start where those of the box start in both arrays. -/
theorem startOf_newWalk {q : Index} (hq : q.length ≤ box.outer.length) :
    startOf (a.offset originA) (b.offset originB) (newWalk a b box originA originB).axes q =
      (a.rowStart originA q, b.rowStart originB q) := by
  obtain ⟨hmapA, hmapB⟩ := map_strides_axesOf (length_outer_le hA) (length_outer_le hB)
  rw [newWalk, startOf, hmapA, hmapB, exactPosition_take _ _ _ hq, exactPosition_take _ _ _ hq]
  rfl

variable (hbox : ∀ m ∈ box.lengths, 0 < m) (hsizeA : a.size ≤ limit) (hsizeB : b.size ≤ limit)
  (hfit : limit < Word.bound)

include hbox hsizeA hsizeB hfit

theorem ofOrigins_eq_newWalk :
    ofOrigins box a.strides originA b.strides originB =
      .ok (newWalk a b box originA originB) := by
  have hrank : box.rank = a.strides.length ∧ box.rank = b.strides.length := by
    rw [Shape.length_strides, Shape.length_strides]
    exact ⟨hA.length_box, hB.length_box⟩
  have hposA := position_strides_eq_offset (hA.origin_mem hbox) (Nat.lt_of_le_of_lt hsizeA hfit)
  have hposB := position_strides_eq_offset (hB.origin_mem hbox) (Nat.lt_of_le_of_lt hsizeB hfit)
  rw [ofOrigins, if_pos hrank, Shape.isEmpty_eq_false_iff.2 hbox, hposA, hposB]
  rfl

/-- A new walk stands at its first row. -/
theorem stands_newWalk :
    Stands limit (a.offset originA) (b.offset originB) (newWalk a b box originA originB) := by
  obtain ⟨hmapA, hmapB⟩ := map_strides_axesOf (length_outer_le hA) (length_outer_le hB)
  refine ⟨fits_axesOf hA hB hbox hsizeA hsizeB hfit, ?_, ?_, ?_⟩
  · rw [lengths_newWalk hA hB, newWalk, hmapA]
    exact within_of_holdsBox hA hbox hsizeA hfit
  · rw [lengths_newWalk hA hB, newWalk, hmapB]
    exact within_of_holdsBox hB hbox hsizeB hfit
  · rw [newWalk, ← restart_axesOf, startOf, exactPosition_current_restart,
      exactPosition_current_restart]
    rfl

/-- All rows of the box lie ahead of a new walk. -/
theorem ahead_newWalk :
    ahead (newWalk a b box originA originB).axes = Shape.indicesOf box.outer := by
  have hpos : ∀ axis ∈ axesOf box.outer a.strides b.strides, 0 < axis.length := by
    intro axis haxis
    have hfits := (stands_newWalk hA hB hbox hsizeA hsizeB hfit).fits axis haxis
    exact Nat.lt_of_le_of_lt (Nat.zero_le _) hfits.row_lt
  rw [newWalk, ← restart_axesOf, ahead_restart hpos]
  exact congrArg Shape.indicesOf (lengths_newWalk hA hB)

/-- What lies ahead of a new walk starts where the rows of the box start in both arrays. -/
theorem map_startOf_newWalk :
    (ahead (newWalk a b box originA originB).axes).map
        (startOf (a.offset originA) (b.offset originB) (newWalk a b box originA originB).axes) =
      (Shape.indicesOf box.outer).map fun q => (a.rowStart originA q, b.rowStart originB q) := by
  rw [ahead_newWalk hA hB hbox hsizeA hsizeB hfit]
  apply List.map_congr_left
  intro q hq
  have hmem : q ∈ (⟨box.outer⟩ : Shape) := Shape.mem_indices.1 hq
  exact startOf_newWalk hA hB (Nat.le_of_eq hmem.1)

end NewWalk

/-- Sizes that fit the lattice have a common limit of which twice as much fits a word. -/
theorem exists_limit (hsizeA : a.size < 2 ^ 63) (hsizeB : b.size < 2 ^ 63) :
    ∃ limit, 2 * limit < Word.bound ∧ limit < Word.bound ∧ a.size ≤ limit ∧ b.size ≤ limit := by
  refine ⟨max a.size b.size, ?_, ?_, Nat.le_max_left .., Nat.le_max_right ..⟩
  all_goals
    rw [Word.bound]
    omega

/-- A walk over a box with elements, which lies in both arrays, gives the start of every row in both
arrays, in row-major order. -/
theorem exists_ofOrigins_eq_ok (hA : HoldsBox a.lengths originA box.lengths)
    (hB : HoldsBox b.lengths originB box.lengths) (hbox : ∀ m ∈ box.lengths, 0 < m)
    (hsizeA : a.size < 2 ^ 63) (hsizeB : b.size < 2 ^ 63) :
    ∃ w, ofOrigins box a.strides originA b.strides originB = .ok w ∧ w.rowLength = box.rowLength ∧
      w.toList = .ok ((Shape.indicesOf box.outer).map fun q =>
        (a.rowStart originA q, b.rowStart originB q)) := by
  obtain ⟨limit, hlimit, hfit, hlimitA, hlimitB⟩ := exists_limit hsizeA hsizeB
  refine ⟨newWalk a b box originA originB, ofOrigins_eq_newWalk hA hB hbox hlimitA hlimitB hfit, rfl,
    ?_⟩
  -- as many calls as the outer axes have rows are enough
  have hcalls : (ahead (newWalk a b box originA originB).axes).length ≤
      (newWalk a b box originA originB).count := by
    rw [ahead_newWalk hA hB hbox hlimitA hlimitB hfit, count,
      show (newWalk a b box originA originB).axes.map length = box.outer from lengths_newWalk hA hB]
    exact Nat.le_of_eq (Shape.length_indices ⟨box.outer⟩)
  rw [toList, take_eq_ok hlimit (stands_newWalk hA hB hbox hlimitA hlimitB hfit) hcalls,
    map_startOf_newWalk hA hB hbox hlimitA hlimitB hfit]

/-- The loop over the rows of such a box, which ends with the first call without a row, ends. It goes
through the rows of the list, and so comes to the answer of `fold`, whatever it does to a state and also if
it fails. -/
theorem loops_ofOrigins_iff (hA : HoldsBox a.lengths originA box.lengths)
    (hB : HoldsBox b.lengths originB box.lengths) (hbox : ∀ m ∈ box.lengths, 0 < m)
    (hsizeA : a.size < 2 ^ 63) (hsizeB : b.size < 2 ^ 63)
    (hw : ofOrigins box a.strides originA b.strides originB = .ok w) :
    ∃ rows, w.toList = .ok rows ∧
      ∀ {σ : Type} (change : σ → Nat × Nat → Except (Failure × σ) σ) (state : σ)
        (answer : Except (Failure × σ) σ),
        (w.Loops change (.ok state) answer ↔ answer = rows.foldlM change state) ∧
          (w.Loops change (.ok state) answer ↔ answer = w.fold change state) := by
  obtain ⟨limit, hlimit, hfit, hlimitA, hlimitB⟩ := exists_limit hsizeA hsizeB
  obtain rfl := Except.ok.inj
    ((ofOrigins_eq_newWalk hA hB hbox hlimitA hlimitB hfit).symm.trans hw)
  obtain ⟨w, hw', -, hrows⟩ := exists_ofOrigins_eq_ok hA hB hbox hsizeA hsizeB
  obtain rfl := Except.ok.inj (hw.symm.trans hw')
  refine ⟨_, hrows, ?_⟩
  intro σ change state answer
  have hloops : Loops change (newWalk a b box originA originB) (.ok state) _ :=
    loops_foldlM hlimit (stands_newWalk hA hB hbox hlimitA hlimitB hfit) (.ok state)
  rw [map_startOf_newWalk hA hB hbox hlimitA hlimitB hfit] at hloops
  rw [fold_eq_foldlM hrows, and_self]
  constructor
  · intro h
    exact h.unique hloops
  · rintro rfl
    exact hloops

end RowPairs

end LatticeGrid
